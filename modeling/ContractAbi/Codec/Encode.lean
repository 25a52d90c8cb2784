import ContractAbi.Bytes.BigEndian
import ContractAbi.Codec.Length

/-!
# Encoding

A value has a nested form, which says where it ends and is used inside other
values, and a top-level form, which is the whole payload and as short as
possible.  Encoding appends to what was written before and stops at the first
node that has no encoding; the bytes before that node stay written.
-/

namespace ContractAbi

/-- The two places where a value can stand. -/
inductive Context where
  /-- Inside another value: the form ends where it says. -/
  | nested
  /-- Alone: the form ends where the payload does. -/
  | topLevel
deriving DecidableEq, Repr, Inhabited

/-- The bytes that an encoder has appended, and the error that stopped it, if any. -/
structure Written where
  bytes : Bytes
  error : Option CodecError
deriving DecidableEq, Repr, Inhabited

namespace Written

def done (bytes : Bytes) : Written := ⟨bytes, none⟩

def failed (error : CodecError) : Written := ⟨[], some error⟩

/-- Write the second part after the first, unless the first part failed. -/
def append (first second : Written) : Written :=
  match first.error with
  | some _ => first
  | none => ⟨first.bytes ++ second.bytes, second.error⟩

instance : Append Written := ⟨append⟩

def inField (name : String) (written : Written) : Written :=
  { written with error := written.error.map (.field name) }

def result (written : Written) : Except CodecError Bytes :=
  match written.error with
  | some error => .error error
  | none => .ok written.bytes

end Written

def writeLength (length : Nat) : Written :=
  if length < BigEndian.bound lengthPrefixSize then
    .done (BigEndian.ofWidth lengthPrefixSize length)
  else .failed (.lengthOverflow length)

def writePrefixed (payload : Bytes) : Written :=
  writeLength payload.length ++ .done payload

namespace Value

/-- A boolean is one byte; alone, `false` is the empty payload. -/
def writeBool (value : Bool) : Context → Written
  | .nested => .done [if value then 1 else 0]
  | .topLevel => .done (if value then [1] else [])

/-- A nested integer takes the width of its type.  Alone it is the shortest
magnitude, which has no room for a sign. -/
def writeInt (type : IntType) (word : BitVec type.bits) : Context → Written
  | .nested => .done (BigEndian.ofWidth type.byteWidth word.toNat)
  | .topLevel =>
    if type.value word < 0 then .failed (.negativeTopLevel type)
    else .done (BigEndian.trimMagnitude (BigEndian.ofWidth type.byteWidth word.toNat))

/-- A payload of variable length follows its length, except alone. -/
def writePayload (payload : Bytes) : Context → Written
  | .nested => writePrefixed payload
  | .topLevel => .done payload

/-- An address is written as it is, and only if it has the right length. -/
def writeAddress (content : Bytes) : Written :=
  match checkLength "address" content.length addressLength with
  | .ok () => .done content
  | .error error => .failed error

mutual

def write : Value → Context → Written
  | bool value, context => writeBool value context
  | int type word, context => writeInt type word context
  | natural value, context => writePayload (BigEndian.ofNat value) context
  | integer value, context => writePayload (BigEndian.ofInt value) context
  | text content, context => writePayload (Utf8.encode content.toList) context
  | bytes content, context => writePayload content context
  | address content, _ => writeAddress content
  | absent, .nested => .done [0]
  | absent, .topLevel => .done []
  | present content, _ => .done [1] ++ write content .nested
  | list items, .nested => writeLength items.length ++ writeItems items
  | list items, .topLevel => writeItems items
  | outputList items _, .nested => writeLength items.length ++ writeItems items
  | outputList items _, .topLevel => writeItems items
  | struct fields, _ => writeFields fields
  | enum discriminant fields, .nested => .done [discriminant] ++ writeFields fields
  | enum discriminant fields, .topLevel =>
    if discriminant = 0 ∧ fields.isEmpty then .done []
    else .done [discriminant] ++ writeFields fields

def writeItems : List Value → Written
  | [] => .done []
  | item :: items => write item .nested ++ writeItems items

/-- Append the nested encodings of the fields; names are not written. -/
def writeFields : Fields → Written
  | [] => .done []
  | (name, value) :: fields => (write value .nested).inField name ++ writeFields fields

end

/-- The encoding of a value, if all its nodes have one. -/
def encode (value : Value) (context : Context) : Except CodecError Bytes :=
  (value.write context).result

end Value

end ContractAbi
