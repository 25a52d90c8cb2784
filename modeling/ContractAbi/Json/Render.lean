import ContractAbi.Bytes.Hex
import ContractAbi.Json.Basic
import ContractAbi.Value.Basic

/-!
# Values as JSON documents

Numbers of any size are decimal strings, byte strings and addresses are
hexadecimal strings, an absent option is null, a present one is its content, and
an enum is an object of its discriminant and its fields.
-/

namespace ContractAbi.Value

mutual

/-- The document of a value.  Of several fields with one name the last is shown. -/
def toJson : Value → Json
  | bool value => .bool value
  | int type word => .integer (type.value word)
  | natural value => .string (toString value)
  | integer value => .string (toString value)
  | text content => .string content
  | bytes content => .string (String.ofList (Hex.encode content))
  | address content => .string (String.ofList (Hex.encode content))
  | absent => .null
  | present content => content.toJson
  | list items => .array (itemsToJson items)
  | outputList items _ => .array (itemsToJson items)
  | struct fields => .object (Json.ofMembers (fieldsToJson fields))
  | enum discriminant fields =>
    .object [("discriminant", .integer discriminant.toNat),
      ("fields", .object (Json.ofMembers (fieldsToJson fields)))]

def itemsToJson : List Value → List Json
  | [] => []
  | item :: items => item.toJson :: itemsToJson items

def fieldsToJson : Fields → Members
  | [] => []
  | (name, value) :: fields => (name, value.toJson) :: fieldsToJson fields

end

end ContractAbi.Value
