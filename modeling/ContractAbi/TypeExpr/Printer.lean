import ContractAbi.TypeExpr.Basic

/-!
# Writing type expressions

The written form uses one space after a colon or a comma and inside braces.
-/

namespace ContractAbi.TypeExpr

mutual

def print : TypeExpr → List Char
  | bool => "bool".toList
  | int type => type.name.toList
  | natural => "BigUint".toList
  | integer => "BigInt".toList
  | text => "string".toList
  | bytes => "bytes".toList
  | address => "Address".toList
  | option content => "Option<".toList ++ print content ++ ['>']
  | list item => "List<".toList ++ print item ++ ['>']
  | struct fields => "struct ".toList ++ printBraced fields
  | enum fields => "enum ".toList ++ printBraced fields

def printBraced : FieldTypes → List Char
  | [] => ['{', '}']
  | (name, type) :: fields =>
    ['{', ' '] ++ name.toList ++ [':', ' '] ++ print type ++ printMore fields

/-- The fields that follow another one, and the closing brace. -/
def printMore : FieldTypes → List Char
  | [] => [' ', '}']
  | (name, type) :: fields =>
    [',', ' '] ++ name.toList ++ [':', ' '] ++ print type ++ printMore fields

end

def toText (type : TypeExpr) : String := String.ofList type.print

end ContractAbi.TypeExpr
