import ContractAbi.Codec.Encode
import ContractAbi.Codec.Reading

/-!
# Decoding into a target

A decoder takes a target of the expected shape and fills it in.  The outcome
holds the target as it was left, which matters after a failure too: the part
before the failing node has been filled in, the node itself keeps its content
and what follows is untouched.  List items are decoded into copies of the
template, and an item that fails is dropped.
-/

namespace ContractAbi

/-- A target after decoding, the input left over, and the error, if any. -/
structure Decoded (α : Type) where
  target : α
  rest : Bytes
  error : Option CodecError

namespace Decoded

variable {α β : Type}

def map (f : α → β) (decoded : Decoded α) : Decoded β :=
  ⟨f decoded.target, decoded.rest, decoded.error⟩

end Decoded

/-- Replace the content of a target by what was read; a failed read leaves it alone. -/
def Read.fill {α β : Type} (read : Read α) (target : β) (build : α → β) : Decoded β :=
  match read.result with
  | .ok value => ⟨build value, read.rest, none⟩
  | .error error => ⟨target, read.rest, some error⟩

namespace Value

def boolOfByte (byte : UInt8) : Except CodecError Bool :=
  if byte = 0 then .ok false
  else if byte = 1 then .ok true
  else .error (.invalidBool byte)

def readBool : Context → Bytes → Read Bool
  | .nested, input => (Bytes.readByte input).check boolOfByte
  | .topLevel, [] => ⟨.ok false, []⟩
  | .topLevel, [byte] => ⟨boolOfByte byte, []⟩
  | .topLevel, input => ⟨.error (.invalidBoolLength input.length), input⟩

/-- The integer with a given magnitude; leading zero bytes are accepted. -/
def wordOfMagnitude (type : IntType) (payload : Bytes) :
    Except CodecError (BitVec type.bits) :=
  let value := BigEndian.magnitude payload
  if value ≤ type.maxValue then .ok (BitVec.ofNat _ value) else .error (.overflow type)

def readInt (type : IntType) : Context → Bytes → Read (BitVec type.bits)
  | .nested, input =>
    (Bytes.readExact type.byteWidth input).map fun payload =>
      BitVec.ofNat _ (BigEndian.magnitude payload)
  | .topLevel, input => (Bytes.readAll input).check (wordOfMagnitude type)

/-- Read a payload of variable length: prefixed inside another value, and
everything that is left at top level. -/
def readPayload (maxLength : Nat) : Context → Bytes → Read Bytes
  | .nested, input => Bytes.readPrefixed maxLength input
  | .topLevel, input => Bytes.readAll input

def textOfBytes (payload : Bytes) : Except CodecError String :=
  match Utf8.decode payload with
  | .ok characters => .ok (String.ofList characters)
  | .error fault => .error (.invalidUtf8 fault)

def readAddress : Context → Bytes → Read Bytes
  | .nested, input => Bytes.readExact addressLength input
  | .topLevel, input =>
    match checkLength "address" input.length addressLength with
    | .ok () => Bytes.readExact addressLength input
    | .error error => ⟨.error error, input⟩

def decodeItems (decodeItem : Bytes → Decoded Value) : Nat → Bytes → Decoded (List Value)
  | 0, input => ⟨[], input, none⟩
  | count + 1, input =>
    let first := decodeItem input
    match first.error with
    | some error => ⟨[], first.rest, some error⟩
    | none => (decodeItems decodeItem count first.rest).map (first.target :: ·)

/-- Decode items until the input is used up.  An item that takes no bytes ends
the list and is not kept, since it could be repeated for ever. -/
def decodeToEnd (decodeItem : Bytes → Decoded Value) (input : Bytes) : Decoded (List Value) :=
  if input.isEmpty then ⟨[], input, none⟩
  else
    let first := decodeItem input
    match first.error with
    | some error => ⟨[], first.rest, some error⟩
    | none =>
      if first.rest.length < input.length then
        (decodeToEnd decodeItem first.rest).map (first.target :: ·)
      else ⟨[], first.rest, none⟩
termination_by input.length

mutual

def decode (maxLength : Nat) : Value → Context → Bytes → Decoded Value
  | bool value, context, input => (readBool context input).fill (bool value) bool
  | int type word, context, input =>
    (readInt type context input).fill (int type word) (int type)
  | natural value, context, input =>
    (readPayload maxLength context input).fill (natural value) fun payload =>
      natural (BigEndian.magnitude payload)
  | integer value, context, input =>
    (readPayload maxLength context input).fill (integer value) fun payload =>
      integer (BigEndian.signed payload)
  | text content, context, input =>
    ((readPayload maxLength context input).check textOfBytes).fill (text content) text
  | bytes content, context, input =>
    (readPayload maxLength context input).fill (bytes content) bytes
  | address content, context, input =>
    (readAddress context input).fill (address content) address
  | absent, .topLevel, [] => ⟨absent, [], none⟩
  | absent, _, input =>
    ((Bytes.readByte input).check fun presence =>
      if presence = 0 then .ok () else .error .missingOptionTarget).fill absent fun () => absent
  | present _, .topLevel, [] => ⟨absent, [], none⟩
  | present content, _, input =>
    match input with
    | [] => ⟨present content, [], some (.shortRead 1 0)⟩
    | presence :: rest =>
      if presence = 0 then ⟨absent, rest, none⟩
      else (decode maxLength content .nested rest).map present
  | list items, _, input => ⟨list items, input, some .missingTemplate⟩
  | outputList items none, _, input =>
    ⟨outputList items none, input, some .missingTemplate⟩
  | outputList items (some template), .nested, input =>
    let count := Bytes.readBoundedLength maxLength input
    match count.result with
    | .error error => ⟨outputList items (some template), count.rest, some error⟩
    | .ok number =>
      (decodeItems (decode maxLength template .nested) number count.rest).map
        (outputList · (some template))
  | outputList _ (some template), .topLevel, input =>
    (decodeToEnd (decode maxLength template .nested) input).map (outputList · (some template))
  | struct fields, _, input => (decodeFields maxLength fields input).map struct
  | enum _ _, .topLevel, [] => ⟨enum 0 [], [], none⟩
  | enum discriminant fields, _, input =>
    match input with
    | [] => ⟨enum discriminant fields, [], some (.shortRead 1 0)⟩
    | discriminant :: rest => (decodeFields maxLength fields rest).map (enum discriminant)

/-- Decode the fields in order; their names are not in the input. -/
def decodeFields (maxLength : Nat) : Fields → Bytes → Decoded Fields
  | [], input => ⟨[], input, none⟩
  | (name, target) :: fields, input =>
    let first := decode maxLength target .nested input
    match first.error with
    | some error => ⟨(name, first.target) :: fields, first.rest, some (.field name error)⟩
    | none => (decodeFields maxLength fields first.rest).map ((name, first.target) :: ·)

end

/-- Decode a whole payload: nothing may be left after the value. -/
def decodePayload (maxLength : Nat) (target : Value) (payload : Bytes) :
    Value × Option CodecError :=
  let decoded := decode maxLength target .topLevel payload
  match decoded.error, decoded.rest with
  | some error, _ => (decoded.target, some error)
  | none, [] => (decoded.target, none)
  | none, rest => (decoded.target, some (.trailingBytes rest.length))

end Value

end ContractAbi
