import ContractAbi.Value.Basic

/-!
# Type expressions

The types that the command line can name.  An enum type lists the fields of the
one variant that is expected: the discriminant comes with the data, and the
fields do not depend on it.
-/

namespace ContractAbi

inductive TypeExpr where
  | bool
  | int (type : IntType)
  | natural
  | integer
  | text
  | bytes
  | address
  | option (content : TypeExpr)
  | list (item : TypeExpr)
  | struct (fields : List (String × TypeExpr))
  | enum (fields : List (String × TypeExpr))
deriving Inhabited

abbrev FieldTypes := List (String × TypeExpr)

namespace TypeExpr

mutual

/-- The target of the type: a value of its shape for a decoder to fill in. -/
def target : TypeExpr → Value
  | bool => .bool false
  | int type => .int type 0
  | natural => .natural 0
  | integer => .integer 0
  | text => .text ""
  | bytes => .bytes []
  | address => .address []
  | option content => .present content.target
  | list item => .outputList [] (some item.target)
  | struct fields => .struct (targetFields fields)
  | enum fields => .enum 0 (targetFields fields)

def targetFields : FieldTypes → Fields
  | [] => []
  | (name, type) :: fields => (name, type.target) :: targetFields fields

end

def isOption : TypeExpr → Bool
  | option _ => true
  | _ => false

/-- The types that are written as one word, with that word. -/
def words : List (String × TypeExpr) :=
  [("bool", bool), ("u8", int .u8), ("u16", int .u16), ("u32", int .u32), ("u64", int .u64),
    ("i8", int .i8), ("i16", int .i16), ("i32", int .i32), ("i64", int .i64),
    ("BigUint", natural), ("BigInt", integer), ("string", text), ("bytes", bytes),
    ("Address", address)]

end TypeExpr

end ContractAbi
