/-!
# Bytes and their UTF-8 text

A byte string is a list of bytes.  Text is written as UTF-8 and read back by a
reader that accepts exactly the well-formed sequences; on any other input it
says how long the well-formed start is and how many bytes after it form the
longest beginning of a character that goes wrong.
-/

namespace ContractAbi

abbrev Bytes := List UInt8

namespace Utf8

def encode (text : List Char) : Bytes :=
  text.flatMap String.utf8EncodeChar

/-- Where a byte string stops being UTF-8. -/
structure Fault where
  /-- Length of the longest well-formed start. -/
  start : Nat
  /-- Number of bytes that cannot begin a character; none if the input ends
  inside a character that was well formed so far. -/
  length : Option Nat
deriving DecidableEq, Repr, Inhabited

namespace Fault

/-- The same fault seen from `count` bytes earlier. -/
def after (count : Nat) (fault : Fault) : Fault :=
  { fault with start := count + fault.start }

def message (fault : Fault) : String :=
  match fault.length with
  | some length =>
      "invalid utf-8 sequence of " ++ toString length ++ " bytes from index " ++
        toString fault.start
  | none => "incomplete utf-8 byte sequence from index " ++ toString fault.start

end Fault

/-- Number of bytes in the character that begins with `first`; zero if none does. -/
def sequenceLength (first : UInt8) : Nat :=
  if first < 0x80 then 1
  else if first < 0xC2 then 0
  else if first < 0xE0 then 2
  else if first < 0xF0 then 3
  else if first < 0xF5 then 4
  else 0

/-- A continuation byte carries six bits. -/
def isContinuation (byte : UInt8) : Bool :=
  0x80 ≤ byte && byte < 0xC0

/-- The second byte also excludes overlong forms, surrogates and values above
the last code point. -/
def isSecond (first second : UInt8) : Bool :=
  isContinuation second &&
    (if first = 0xE0 then 0xA0 ≤ second
     else if first = 0xED then second < 0xA0
     else if first = 0xF0 then 0x90 ≤ second
     else if first = 0xF4 then second < 0x90
     else true)

/-- The character whose first byte contributes `first` modulo `size` and whose
continuation bytes follow. -/
def assemble (size : Nat) (first : UInt8) (continuation : Bytes) : Char :=
  Char.ofNat (continuation.foldl (fun value byte => value * 64 + byte.toNat % 64)
    (first.toNat % size))

/-- Put a character of `count` bytes before the result of reading the rest. -/
def prepend (count : Nat) (character : Char) :
    Except Fault (List Char) → Except Fault (List Char)
  | .ok text => .ok (character :: text)
  | .error fault => .error (fault.after count)

-- The many cases make for a deep recursion when Lean derives the equations.
set_option maxRecDepth 2000 in
def decode : Bytes → Except Fault (List Char)
  | [] => .ok []
  | first :: rest =>
    match sequenceLength first, rest with
    | 1, rest => prepend 1 (assemble 128 first []) (decode rest)
    | 2, [] => .error ⟨0, none⟩
    | 2, second :: rest =>
      if isSecond first second then
        prepend 2 (assemble 32 first [second]) (decode rest)
      else .error ⟨0, some 1⟩
    | 3, [] => .error ⟨0, none⟩
    | 3, [second] => .error ⟨0, if isSecond first second then none else some 1⟩
    | 3, second :: third :: rest =>
      if !isSecond first second then .error ⟨0, some 1⟩
      else if !isContinuation third then .error ⟨0, some 2⟩
      else prepend 3 (assemble 16 first [second, third]) (decode rest)
    | 4, [] => .error ⟨0, none⟩
    | 4, [second] => .error ⟨0, if isSecond first second then none else some 1⟩
    | 4, [second, third] =>
      .error ⟨0, if !isSecond first second then some 1
        else if !isContinuation third then some 2 else none⟩
    | 4, second :: third :: fourth :: rest =>
      if !isSecond first second then .error ⟨0, some 1⟩
      else if !isContinuation third then .error ⟨0, some 2⟩
      else if !isContinuation fourth then .error ⟨0, some 3⟩
      else prepend 4 (assemble 8 first [second, third, fourth]) (decode rest)
    | _, _ => .error ⟨0, some 1⟩

end Utf8

end ContractAbi
