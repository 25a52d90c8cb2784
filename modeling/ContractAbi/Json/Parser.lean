import ContractAbi.Bytes.Hex
import ContractAbi.Json.Basic
import ContractAbi.Json.Number

/-!
# Reading JSON texts

The grammar is the strict one: no comments, no trailing commas, no raw control
characters in strings and no escapes of half a surrogate pair.  Arrays and
objects nest at most `maxDepth` deep.  Each scanner takes something off the
front of the text and returns what remains, or nothing if the text is wrong.
-/

namespace ContractAbi.Json

/-- The deepest nesting of arrays and objects that is read. -/
def maxDepth : Nat := 127

def isSpace (character : Char) : Bool :=
  character == ' ' || character == '\t' || character == '\n' || character == '\r'

def skipSpace (input : List Char) : List Char := input.dropWhile isSpace

def scanWord? (word input : List Char) : Option (List Char) :=
  if word.isPrefixOf input then some (input.drop word.length) else none

def escapes : List (Char × Char) :=
  [('"', '"'), ('\\', '\\'), ('/', '/'), ('b', '\x08'), ('f', '\x0c'), ('n', '\n'), ('r', '\r'),
    ('t', '\t')]

def hexValue? (digit : Char) : Option Nat :=
  if digit.toNat < 128 then Hex.digitValue? (UInt8.ofNat digit.toNat) else none

/-- Take four hexadecimal digits off the text. -/
def scanUnit? : List Char → Option (Nat × List Char)
  | a :: b :: c :: d :: rest => do
    let a ← hexValue? a
    let b ← hexValue? b
    let c ← hexValue? c
    let d ← hexValue? d
    return (((a * 16 + b) * 16 + c) * 16 + d, rest)
  | _ => none

/-- Take the character off the text that follows a backslash and a `u`.  One
beyond the first plane takes two escapes, a high and a low surrogate. -/
def scanCodePoint? (input : List Char) : Option (Char × List Char) := do
  let (high, rest) ← scanUnit? input
  if high < 0xD800 ∨ 0xE000 ≤ high then return (Char.ofNat high, rest)
  if 0xDC00 ≤ high then none
  match rest with
  | '\\' :: 'u' :: rest => do
    let (low, rest) ← scanUnit? rest
    if low < 0xDC00 ∨ 0xE000 ≤ low then none
    return (Char.ofNat (0x10000 + (high - 0xD800) * 0x400 + (low - 0xDC00)), rest)
  | _ => none

/-- Take the rest of a string off the text, up to the closing quotation mark.
Each step shortens the text. -/
def scanStringTail? : Nat → List Char → Option (List Char × List Char)
  | 0, _ => none
  | _ + 1, [] => none
  | _ + 1, '"' :: rest => some ([], rest)
  | steps + 1, '\\' :: 'u' :: rest => do
    let (character, rest) ← scanCodePoint? rest
    let (characters, rest) ← scanStringTail? steps rest
    return (character :: characters, rest)
  | steps + 1, '\\' :: escape :: rest => do
    let character ← escapes.lookup escape
    let (characters, rest) ← scanStringTail? steps rest
    return (character :: characters, rest)
  | steps + 1, character :: rest => do
    if character.toNat < 0x20 ∨ character = '\\' then none
    let (characters, rest) ← scanStringTail? steps rest
    return (character :: characters, rest)

def scanString? : List Char → Option (String × List Char)
  | '"' :: rest => (scanStringTail? (rest.length + 1) rest).map fun (characters, rest) =>
    (String.ofList characters, rest)
  | _ => none

/-- Take digits off the text, at least one. -/
def scanDigits? (input : List Char) : Option (List Char × List Char) :=
  let digits := input.takeWhile Char.isDigit
  if digits.isEmpty then none else some (digits, input.dropWhile Char.isDigit)

/-- Take an integer part off the text: a zero, or digits that start with none. -/
def scanInteger? (input : List Char) : Option (List Char × List Char) :=
  match input with
  | '0' :: rest => some (['0'], rest)
  | _ => scanDigits? input

def scanFraction? : List Char → Option (Option (List Char) × List Char)
  | '.' :: rest => (scanDigits? rest).map fun (digits, rest) => (some digits, rest)
  | input => some (none, input)

def decimalValue (digits : List Char) : Nat :=
  digits.foldl (fun value digit => value * 10 + Number.digitValue digit) 0

def scanExponent? : List Char → Option (Option Int × List Char)
  | mark :: input =>
    if mark = 'e' ∨ mark = 'E' then
      let (negative, digits) := match input with
        | '+' :: rest => (false, rest)
        | '-' :: rest => (true, rest)
        | _ => (false, input)
      (scanDigits? digits).map fun (digits, rest) =>
        let value : Int := decimalValue digits
        (some (if negative then -value else value), rest)
    else some (none, mark :: input)
  | [] => some (none, [])

/-- The number with the given parts.  Numbers beyond the double-precision range
are refused. -/
def ofParts? (negative : Bool) (whole : List Char) (fraction : Option (List Char))
    (exponent : Option Int) : Option Json :=
  let value := decimalValue whole
  if fraction.isNone && exponent.isNone && !negative && value < Number.significandBound then
    some (integer value)
  else if fraction.isNone && exponent.isNone && negative && 0 < value &&
      value ≤ Number.significandBound / 2 then
    some (integer (-value))
  else
    let (significand, dropped) := Number.accumulate 0 whole
    let digits := fraction.getD []
    let (significand, unread) := Number.accumulate significand digits
    let power : Int := dropped.length - (digits.length - unread.length) + exponent.getD 0
    if Number.isTooLarge significand power then none
    else some (float negative significand power)

def scanNumber? (input : List Char) : Option (Json × List Char) := do
  let (negative, input) := match input with
    | '-' :: rest => (true, rest)
    | _ => (false, input)
  let (whole, input) ← scanInteger? input
  let (fraction, input) ← scanFraction? input
  let (exponent, input) ← scanExponent? input
  let number ← ofParts? negative whole fraction exponent
  return (number, input)

mutual

/-- Take a value off the text, nested at most `depth` deep.  Each step shortens
the text. -/
def scanValue? : Nat → Nat → List Char → Option (Json × List Char)
  | 0, _, _ => none
  | steps + 1, depth, input =>
    match skipSpace input with
    | '[' :: rest =>
      match depth with
      | 0 => none
      | depth + 1 =>
        match skipSpace rest with
        | ']' :: rest => some (array [], rest)
        | rest => (scanItems? steps depth rest).map fun (items, rest) => (array items, rest)
    | '{' :: rest =>
      match depth with
      | 0 => none
      | depth + 1 =>
        match skipSpace rest with
        | '}' :: rest => some (object [], rest)
        | rest => (scanMembers? steps depth rest).map fun (members, rest) =>
          (object (ofMembers members), rest)
    | '"' :: rest => (scanString? ('"' :: rest)).map fun (text, rest) => (string text, rest)
    | 'n' :: rest => (scanWord? ['u', 'l', 'l'] rest).map ((null, ·))
    | 't' :: rest => (scanWord? ['r', 'u', 'e'] rest).map ((bool true, ·))
    | 'f' :: rest => (scanWord? ['a', 'l', 's', 'e'] rest).map ((bool false, ·))
    | input => scanNumber? input

def scanItems? : Nat → Nat → List Char → Option (List Json × List Char)
  | 0, _, _ => none
  | steps + 1, depth, input => do
    let (item, rest) ← scanValue? steps depth input
    match skipSpace rest with
    | ',' :: rest => do
      let (items, rest) ← scanItems? steps depth rest
      return (item :: items, rest)
    | ']' :: rest => return ([item], rest)
    | _ => none

def scanMembers? : Nat → Nat → List Char → Option (Members × List Char)
  | 0, _, _ => none
  | steps + 1, depth, input => do
    let (name, rest) ← scanString? (skipSpace input)
    let rest ← scanWord? [':'] (skipSpace rest)
    let (value, rest) ← scanValue? steps depth rest
    match skipSpace rest with
    | ',' :: rest => do
      let (members, rest) ← scanMembers? steps depth rest
      return ((name, value) :: members, rest)
    | '}' :: rest => return ([(name, value)], rest)
    | _ => none

end

/-- The document of a text in which arrays and objects nest at most `depth` deep. -/
def parseWithin? (depth : Nat) (text : String) : Option Json := do
  let input := text.toList
  let (json, rest) ← scanValue? (2 * input.length + 1) depth input
  if (skipSpace rest).isEmpty then return json else none

def parse? (text : String) : Option Json := parseWithin? maxDepth text

end ContractAbi.Json
