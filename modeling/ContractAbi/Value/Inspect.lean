import ContractAbi.Text.Quoted
import ContractAbi.Value.Basic

/-!
# Values as diagnostic text

A one-line text that shows the structure of a value down to its bytes.  Of a
template it only says whether there is one.
-/

namespace ContractAbi

def bracketed (parts : List String) : String :=
  "[" ++ ", ".intercalate parts ++ "]"

/-- A named record with its parts in braces. -/
def recordText (name : String) (parts : List (String × String)) : String :=
  name ++ " \x7b " ++ ", ".intercalate (parts.map fun (label, text) => label ++ ": " ++ text) ++
    " \x7d"

def templateText {α : Type} : Option α → String
  | some _ => "Some(\"<fn>\")"
  | none => "None"

def bytesText (bytes : Bytes) : String :=
  bracketed (bytes.map fun byte => toString byte.toNat)

def IntType.capitalName (type : IntType) : String :=
  String.ofList ((if type.isSigned then 'I' else 'U') :: (toString type.bits).toList)

namespace Value

mutual

def inspect : Value → String
  | bool value => "Bool(" ++ toString value ++ ")"
  | int type word => type.capitalName ++ "(" ++ toString (type.value word) ++ ")"
  | natural value => "BigUint(" ++ toString value ++ ")"
  | integer value => "BigInt(" ++ toString value ++ ")"
  | text content => "String(" ++ Text.quoted content ++ ")"
  | bytes content => "Bytes(" ++ bytesText content ++ ")"
  | address content => "Address(" ++ bytesText content ++ ")"
  | absent => "Option(None)"
  | present content => "Option(Some(" ++ content.inspect ++ "))"
  | list items => "InputList(" ++ bracketed (inspectItems items) ++ ")"
  | outputList items template =>
    "OutputList(" ++ recordText "OutputList"
      [("items", bracketed (inspectItems items)), ("item_factory", templateText template)] ++ ")"
  | struct fields =>
    "Struct(" ++ recordText "StructValue" [("fields", bracketed (inspectFields fields))] ++ ")"
  | enum discriminant fields =>
    "Enum(" ++ recordText "EnumValue"
      [("discriminant", toString discriminant.toNat),
        ("fields", bracketed (inspectFields fields))] ++ ")"

def inspectItems : List Value → List String
  | [] => []
  | item :: items => item.inspect :: inspectItems items

def inspectFields : Fields → List String
  | [] => []
  | (name, value) :: fields =>
    recordText "Field" [("name", Text.quoted name), ("value", value.inspect)] ::
      inspectFields fields

end

end Value

end ContractAbi
