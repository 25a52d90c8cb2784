import ContractAbi.Bytes.Utf8

/-!
# Contract values

A value is both what callers encode and the target that a decoder fills in.  A
target already has the shape of what is expected: struct and enum targets carry
their fields, a present option holds the target of its content, and an output
list carries a template that every decoded item starts from.
-/

namespace ContractAbi

inductive IntType where
  | u8 | u16 | u32 | u64 | i8 | i16 | i32 | i64
deriving DecidableEq, Repr, Inhabited

namespace IntType

def name : IntType → String
  | u8 => "u8"
  | u16 => "u16"
  | u32 => "u32"
  | u64 => "u64"
  | i8 => "i8"
  | i16 => "i16"
  | i32 => "i32"
  | i64 => "i64"

def byteWidth : IntType → Nat
  | u8 | i8 => 1
  | u16 | i16 => 2
  | u32 | i32 => 4
  | u64 | i64 => 8

def bits (type : IntType) : Nat := 8 * type.byteWidth

def isSigned : IntType → Bool
  | u8 | u16 | u32 | u64 => false
  | i8 | i16 | i32 | i64 => true

def cardinality (type : IntType) : Nat := Nat.pow 2 type.bits

def maxValue (type : IntType) : Nat :=
  if type.isSigned then type.cardinality / 2 - 1 else type.cardinality - 1

def minValue (type : IntType) : Int :=
  if type.isSigned then -(type.cardinality / 2 : Nat) else 0

/-- The number that a machine word of the type stands for. -/
def value (type : IntType) (word : BitVec type.bits) : Int :=
  if type.isSigned then word.toInt else word.toNat

/-- The machine word of a number, if the type has one. -/
def word? (type : IntType) (value : Int) : Option (BitVec type.bits) :=
  if type.minValue ≤ value ∧ value ≤ type.maxValue then some (BitVec.ofInt _ value) else none

def all : List IntType := [u8, u16, u32, u64, i8, i16, i32, i64]

end IntType

def addressLength : Nat := 32

inductive Value where
  | bool (value : Bool)
  | int (type : IntType) (word : BitVec type.bits)
  | natural (value : Nat)
  | integer (value : Int)
  | text (content : String)
  | bytes (content : Bytes)
  /-- A public key.  Only those of `addressLength` bytes can be encoded. -/
  | address (content : Bytes)
  | absent
  | present (content : Value)
  | list (items : List Value)
  /-- A sequence of decoded values.  Each item is decoded into a copy of the
  template; without one the list cannot be a target. -/
  | outputList (items : List Value) (template : Option Value)
  | struct (fields : List (String × Value))
  /-- The variant that the discriminant selects, with its fields. -/
  | enum (discriminant : UInt8) (fields : List (String × Value))
deriving Inhabited

/-- Named values in a fixed order.  Names serve error messages only, and may repeat. -/
abbrev Fields := List (String × Value)

namespace Value

def kind : Value → String
  | bool _ => "bool"
  | int type _ => type.name
  | natural _ => "BigUint"
  | integer _ => "BigInt"
  | text _ => "string"
  | bytes _ => "bytes"
  | address _ => "Address"
  | absent | present _ => "Option"
  | list _ | outputList _ _ => "List"
  | struct _ => "struct"
  | enum _ _ => "enum"

mutual

/-- Equality of values.  Templates do not count: two output lists are equal when
their items are.  An input list never equals an output list. -/
def same : Value → Value → Bool
  | bool a, bool b => a == b
  | int type a, int type' b => type == type' && a.toNat == b.toNat
  | natural a, natural b => a == b
  | integer a, integer b => a == b
  | text a, text b => a == b
  | bytes a, bytes b => a == b
  | address a, address b => a == b
  | absent, absent => true
  | present a, present b => same a b
  | list a, list b => sameItems a b
  | outputList a _, outputList b _ => sameItems a b
  | struct a, struct b => sameFields a b
  | enum d a, enum e b => d == e && sameFields a b
  | _, _ => false

def sameItems : List Value → List Value → Bool
  | [], [] => true
  | a :: as, b :: bs => same a b && sameItems as bs
  | _, _ => false

def sameFields : Fields → Fields → Bool
  | [], [] => true
  | (name, a) :: as, (name', b) :: bs => name == name' && same a b && sameFields as bs
  | _, _ => false

end

instance : BEq Value := ⟨same⟩

def field? : Value → String → Option Value
  | struct fields, name => (fields.find? (·.1 == name)).map (·.2)
  | _, _ => none

end Value

end ContractAbi
