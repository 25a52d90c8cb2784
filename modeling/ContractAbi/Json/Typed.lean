import ContractAbi.Bytes.Hex
import ContractAbi.Json.Basic
import ContractAbi.Text.Blank
import ContractAbi.Text.Decimal
import ContractAbi.TypeExpr.Printer

/-!
# Reading values from JSON documents

A document is read at a type.  Fields are read in the order of the type and
members that the type does not name are ignored; the first place that does not
fit is reported by its path, together with what was expected there.
-/

namespace ContractAbi

inductive PathStep where
  | member (name : String)
  | item (index : Nat)
deriving DecidableEq, Repr, Inhabited

def PathStep.text : PathStep → String
  | member name => "." ++ name
  | item index => "[" ++ toString index ++ "]"

inductive Expectation where
  | bool
  | int (type : IntType)
  | natural
  | integer
  | string
  | hexString
  | hexAddress
  | array
  | object
  | enumObject
  | field (type : TypeExpr)

def Expectation.text : Expectation → String
  | bool => "bool"
  | int type => type.name
  | natural => "unsigned decimal integer"
  | integer => "decimal integer"
  | string => "string"
  | hexString => "hex string"
  | hexAddress => "hex address"
  | array => "array"
  | object => "object"
  | enumObject => "enum object"
  | field type => "field of type " ++ type.toText

/-- A document does not fit its type at the end of a path. -/
structure Mismatch where
  path : List PathStep
  expected : Expectation

namespace Mismatch

/-- The mismatch as seen from a document of which this one is a part. -/
def within (step : PathStep) (mismatch : Mismatch) : Mismatch :=
  { mismatch with path := step :: mismatch.path }

def pathText (mismatch : Mismatch) : String :=
  mismatch.path.foldl (fun text step => text ++ step.text) "$"

def message (mismatch : Mismatch) : String :=
  "invalid value at `" ++ mismatch.pathText ++ "`: expected " ++ mismatch.expected.text

end Mismatch

namespace Json

/-- The text of a number of any size: a string, trimmed, or an integer. -/
def decimalText? : Json → Option (List Char)
  | string text => some (Text.trim text.toList)
  | integer value => some (toString value).toList
  | _ => none

def hexBytes? : Json → Option Bytes
  | string text =>
    let digits := match text.toList with
      | '0' :: 'x' :: digits => digits
      | digits => digits
    (Hex.decode digits).toOption
  | _ => none

/-- The word of an integer that a type holds. -/
def word? (type : IntType) : Json → Option (BitVec type.bits)
  | integer value => type.word? value
  | _ => none

def expect {α : Type} (expected : Expectation) : Option α → Except Mismatch α
  | some value => .ok value
  | none => .error ⟨[], expected⟩

def under {α : Type} (step : PathStep) (result : Except Mismatch α) : Except Mismatch α :=
  result.mapError (·.within step)

/-- Read items the first of which has the given index. -/
def readItems (read : Json → Except Mismatch Value) (index : Nat) :
    List Json → Except Mismatch (List Value)
  | [] => .ok []
  | item :: items => do
    let first ← under (.item index) (read item)
    let others ← readItems read (index + 1) items
    return first :: others

end Json

namespace TypeExpr

mutual

/-- The value of the type that a document stands for. -/
def read (type : TypeExpr) (json : Json) : Except Mismatch Value :=
  match type with
  | bool =>
    match json with
    | .bool value => .ok (.bool value)
    | _ => .error ⟨[], .bool⟩
  | int type => (Json.expect (.int type) (json.word? type)).map (.int type)
  | natural =>
    (Json.expect .natural (json.decimalText?.bind Decimal.natural?)).map .natural
  | integer =>
    (Json.expect .integer (json.decimalText?.bind Decimal.integer?)).map .integer
  | text =>
    match json with
    | .string content => .ok (.text content)
    | _ => .error ⟨[], .string⟩
  | bytes => (Json.expect .hexString json.hexBytes?).map .bytes
  | address => (Json.expect .hexAddress json.hexBytes?).map .address
  | option content =>
    match json with
    | .null => .ok .absent
    | _ => (read content json).map .present
  | list item =>
    match json with
    | .array items => (Json.readItems (read item) 0 items).map .list
    | _ => .error ⟨[], .array⟩
  | struct fields =>
    match json with
    | .object members => (readFields fields members).map .struct
    | _ => .error ⟨[], .object⟩
  | enum fields =>
    match json with
    | .object members => do
      let discriminant ← Json.under (.member "discriminant")
        (Json.expect (.int .u8) ((members.lookup "discriminant").bind (Json.word? .u8)))
      let fields ← Json.under (.member "fields")
        (match members.lookup "fields" with
        | none => readFields fields []
        | some (.object members) => readFields fields members
        | some _ => .error ⟨[], .object⟩)
      return .enum (UInt8.ofNat discriminant.toNat) fields
    | _ => .error ⟨[], .enumObject⟩

/-- The values of fields, each from the member of its name. -/
def readFields : FieldTypes → Members → Except Mismatch Fields
  | [], _ => .ok []
  | (name, type) :: fields, members => do
    let value ← Json.under (.member name)
      (match members.lookup name with
      | none => .error ⟨[], .field type⟩
      | some json => read type json)
    let others ← readFields fields members
    return (name, value) :: others

end

end TypeExpr

end ContractAbi
