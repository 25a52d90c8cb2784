import ContractAbi.Bytes.BigEndian
import ContractAbi.Codec.Length

/-!
# Reading from the front of a byte string

A read answers with a result and with the bytes left for the next read, also
when it fails.  A read that finds too few bytes leaves the input as it was.
-/

namespace ContractAbi

/-- What a read found, and what it left. -/
structure Read (α : Type) where
  result : Except CodecError α
  rest : Bytes

namespace Read

variable {α β : Type}

def andThen (read : Read α) (next : α → Bytes → Read β) : Read β :=
  match read.result with
  | .ok value => next value read.rest
  | .error error => ⟨.error error, read.rest⟩

def map (f : α → β) (read : Read α) : Read β :=
  ⟨read.result.map f, read.rest⟩

/-- Check what was read without reading more. -/
def check (read : Read α) (f : α → Except CodecError β) : Read β :=
  ⟨read.result.bind f, read.rest⟩

end Read

namespace Bytes

/-- Fails unless `count` bytes are there, and reads none. -/
def need (count : Nat) (input : Bytes) : Read Unit :=
  if (input.take count).length < count then
    ⟨.error (.shortRead count input.length), input⟩
  else ⟨.ok (), input⟩

def readExact (count : Nat) (input : Bytes) : Read Bytes :=
  let head := input.take count
  if head.length < count then ⟨.error (.shortRead count input.length), input⟩
  else ⟨.ok head, input.drop count⟩

def readByte : Bytes → Read UInt8
  | [] => ⟨.error (.shortRead 1 0), []⟩
  | byte :: rest => ⟨.ok byte, rest⟩

def readAll (input : Bytes) : Read Bytes :=
  ⟨.ok input, []⟩

def readLength (input : Bytes) : Read Nat :=
  (readExact lengthPrefixSize input).map BigEndian.magnitude

/-- Read a length prefix and refuse one above the maximum.  The prefix counts as
read even then. -/
def readBoundedLength (maxLength : Nat) (input : Bytes) : Read Nat :=
  (readLength input).check fun length =>
    if length ≤ maxLength then .ok length else .error (.lengthExceeded length maxLength)

def readPrefixed (maxLength : Nat) (input : Bytes) : Read Bytes :=
  (readBoundedLength maxLength input).andThen readExact

end Bytes

end ContractAbi
