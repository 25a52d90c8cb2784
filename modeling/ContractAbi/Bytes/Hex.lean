import ContractAbi.Bytes.Utf8

/-!
# Hexadecimal text

Two digits a byte, the high one first.  Writing uses lower case and reading
accepts both cases.  Reading works on the bytes of the text, so that a fault can
name a byte position.
-/

namespace ContractAbi.Hex

def digit (value : Nat) : Char :=
  Char.ofNat (if value < 10 then value + 48 else value + 87)

def encode (bytes : Bytes) : List Char :=
  bytes.flatMap fun byte => [digit (byte.toNat / 16), digit (byte.toNat % 16)]

/-- Why a text is not the hexadecimal form of a byte string. -/
inductive Fault where
  | oddLength
  | invalidDigit (byte : UInt8) (position : Nat)
deriving DecidableEq, Repr, Inhabited

def digitValue? (byte : UInt8) : Option Nat :=
  let code := byte.toNat
  if 48 ≤ code ∧ code ≤ 57 then some (code - 48)
  else if 97 ≤ code ∧ code ≤ 102 then some (code - 87)
  else if 65 ≤ code ∧ code ≤ 70 then some (code - 55)
  else none

/-- Read pairs of digits, the first of which stands at `position`. -/
def decodeFrom (position : Nat) : Bytes → Except Fault Bytes
  | [] => .ok []
  | [_] => .error .oddLength
  | high :: low :: rest =>
    match digitValue? high with
    | none => .error (.invalidDigit high position)
    | some h =>
      match digitValue? low with
      | none => .error (.invalidDigit low (position + 1))
      | some l => (decodeFrom (position + 2) rest).map (UInt8.ofNat (16 * h + l) :: ·)

/-- The bytes that a hexadecimal text stands for.  An odd number of digits is
reported before a character that is no digit. -/
def decode (text : List Char) : Except Fault Bytes :=
  let bytes := Utf8.encode text
  if bytes.length % 2 = 1 then .error .oddLength else decodeFrom 0 bytes

/-- The digits of a number in base sixteen, without leading zeros. -/
def number (value : Nat) : String :=
  String.ofList (Nat.toDigits 16 value)

/-- A byte shown as the character of that code, escaped where it would not be
visible, in single quotes. -/
def quoted (byte : UInt8) : String :=
  let code := byte.toNat
  let body :=
    if code = 0 then "\\0"
    else if code = 9 then "\\t"
    else if code = 10 then "\\n"
    else if code = 13 then "\\r"
    else if code = 39 then "\\'"
    else if code = 92 then "\\\\"
    else if code < 32 ∨ (127 ≤ code ∧ code ≤ 160) ∨ code = 173 then
      "\\u\x7b" ++ number code ++ "\x7d"
    else String.singleton (Char.ofNat code)
  "'" ++ body ++ "'"

def Fault.message : Fault → String
  | .oddLength => "Odd number of digits"
  | .invalidDigit byte position =>
      "Invalid character " ++ quoted byte ++ " at position " ++ toString position

end ContractAbi.Hex
