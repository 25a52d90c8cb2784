import ContractAbi.Bytes.Hex
import ContractAbi.Json.Basic

/-!
# Writing JSON texts

The compact form has no spaces.  The indented form puts every item and member on
its own line, two spaces deeper than what it belongs to; empty arrays and objects
stay on one line in both.
-/

namespace ContractAbi.Json

/-- The written form of a character inside quotation marks. -/
def escaped (character : Char) : List Char :=
  if character = '"' then ['\\', '"']
  else if character = '\\' then ['\\', '\\']
  else if character = '\x08' then ['\\', 'b']
  else if character = '\x0c' then ['\\', 'f']
  else if character = '\n' then ['\\', 'n']
  else if character = '\r' then ['\\', 'r']
  else if character = '\t' then ['\\', 't']
  else if character.toNat < 0x20 then
    ['\\', 'u', '0', '0', Hex.digit (character.toNat / 16), Hex.digit (character.toNat % 16)]
  else [character]

def quoted (text : String) : List Char :=
  ['"'] ++ text.toList.flatMap escaped ++ ['"']

mutual

def print : Json → List Char
  | null => "null".toList
  | bool true => "true".toList
  | bool false => "false".toList
  | integer value => (toString value).toList
  | float negative significand power =>
    (if negative then ['-'] else []) ++ (toString significand).toList ++ ['e'] ++
      (toString power).toList
  | string text => quoted text
  | array items => ['['] ++ printItems items ++ [']']
  | object members => ['{'] ++ printMembers members ++ ['}']

def printItems : List Json → List Char
  | [] => []
  | [item] => item.print
  | item :: items => item.print ++ [','] ++ printItems items

def printMembers : Members → List Char
  | [] => []
  | [(name, value)] => quoted name ++ [':'] ++ value.print
  | (name, value) :: members =>
    quoted name ++ [':'] ++ value.print ++ [','] ++ printMembers members

end

/-- The start of a line inside `depth` arrays and objects. -/
def newLine (depth : Nat) : List Char :=
  '\n' :: List.replicate (2 * depth) ' '

mutual

/-- The indented form of a value inside `depth` arrays and objects. -/
def printIndented (depth : Nat) : Json → List Char
  | array (item :: items) =>
    ['['] ++ newLine (depth + 1) ++ item.printIndented (depth + 1) ++
      printMoreItems (depth + 1) items ++ newLine depth ++ [']']
  | object ((name, value) :: members) =>
    ['{'] ++ newLine (depth + 1) ++ quoted name ++ [':', ' '] ++
      value.printIndented (depth + 1) ++ printMoreMembers (depth + 1) members ++
      newLine depth ++ ['}']
  | json => json.print

def printMoreItems (depth : Nat) : List Json → List Char
  | [] => []
  | item :: items =>
    [','] ++ newLine depth ++ item.printIndented depth ++ printMoreItems depth items

def printMoreMembers (depth : Nat) : Members → List Char
  | [] => []
  | (name, value) :: members =>
    [','] ++ newLine depth ++ quoted name ++ [':', ' '] ++ value.printIndented depth ++
      printMoreMembers depth members

end

def compact (json : Json) : String := String.ofList json.print

def indented (json : Json) : String := String.ofList (json.printIndented 0)

end ContractAbi.Json
