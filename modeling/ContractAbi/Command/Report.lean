import ContractAbi.Command.CommandLine
import ContractAbi.Command.Table
import ContractAbi.Json.Printer
import ContractAbi.Json.Render
import ContractAbi.TypeExpr.Printer

/-!
# What commands print

Each result has four forms: one line of JSON whose members come in a fixed
order, a table, a short text for people, and a raw form for other programs.
-/

namespace ContractAbi

def Context.name : Context → String
  | nested => "nested"
  | topLevel => "top-level"

namespace Report

def line (text : List Char) : Bytes := Utf8.encode (text ++ ['\n'])

def textLine (text : String) : Bytes := line text.toList

def jsonLine (json : Json) : Bytes := line json.print

def hexText (bytes : Bytes) : String := String.ofList (Hex.encode bytes)

def encoded (type : TypeExpr) (context : Context) (bytes : Bytes) : OutputFormat → Bytes
  | .json =>
    jsonLine (.object [("type", .string type.toText), ("context", .string context.name),
      ("size", .integer bytes.length), ("hex", .string (hexText bytes))])
  | .table =>
    line (Table.render ["TYPE", "CONTEXT", "SIZE", "HEX"]
      [[type.toText, context.name, toString bytes.length, hexText bytes]])
  | .pretty => textLine (hexText bytes)
  | .raw => bytes

def decoded (type : TypeExpr) (context : Context) (value : Value) : OutputFormat → Bytes
  | .json =>
    jsonLine (.object [("type", .string type.toText), ("context", .string context.name),
      ("value", value.toJson)])
  | .table =>
    line (Table.render ["TYPE", "CONTEXT", "VALUE"]
      [[type.toText, context.name, value.toJson.compact]])
  | .pretty => textLine value.toJson.indented
  | .raw => jsonLine value.toJson

def serialized (data : String) (parts : Nat) : OutputFormat → Bytes
  | .json => jsonLine (.object [("data", .string data), ("parts", .integer parts)])
  | .table => line (Table.render ["PARTS", "DATA"] [[toString parts, data]])
  | .pretty => textLine data
  | .raw => Utf8.encode data.toList

/-- One argument that has been read: its position, the text of its type and its value. -/
structure Argument where
  index : Nat
  type : String
  value : Value

/-- The arguments of a call with the given labels, numbered from `index`. -/
def numbered (index : Nat) : List (String × Value) → List Argument
  | [] => []
  | (type, value) :: arguments => ⟨index, type, value⟩ :: numbered (index + 1) arguments

def arguments (labelled : List (String × Value)) (format : OutputFormat) : Bytes :=
  let rows := numbered 0 labelled
  match format with
  | .json =>
    jsonLine (.array (rows.map fun row =>
      .object [("index", .integer row.index), ("type", .string row.type),
        ("value", row.value.toJson)]))
  | .table =>
    line (Table.render ["#", "TYPE", "VALUE"]
      (rows.map fun row => [toString row.index, row.type, row.value.toJson.compact]))
  | .pretty =>
    rows.flatMap fun row =>
      textLine (toString row.index ++ ": " ++ row.type ++ " = " ++ row.value.toJson.compact)
  | .raw => jsonLine (.array (rows.map (·.value.toJson)))

end Report

end ContractAbi
