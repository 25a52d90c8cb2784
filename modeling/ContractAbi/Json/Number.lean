/-!
# Numbers in JSON texts

A number is read as a significand below 2 to the power of 64 and a power of ten.
Digits of the integer part that no longer fit the significand raise the power
instead, and digits of the fraction that do not fit are dropped.  The number is
too large if the double-precision product of the two is infinite.
-/

namespace ContractAbi.Json.Number

def significandBound : Nat := Nat.pow 2 64

def digitValue (digit : Char) : Nat := digit.toNat - 48

/-- Append as many digits as fit, and return those that do not fit as well. -/
def accumulate (significand : Nat) : List Char → Nat × List Char
  | [] => (significand, [])
  | digit :: digits =>
    let next := significand * 10 + digitValue digit
    if next < significandBound then accumulate next digits else (significand, digit :: digits)

/-- The nearest number with 53 binary digits; of two equally near ones the even one. -/
def roundToDouble (value : Nat) : Nat :=
  let unit := Nat.pow 2 (value.log2 - 52)
  let low := value / unit
  let twice := 2 * (value % unit)
  let rounded := if twice < unit ∨ (twice = unit ∧ low % 2 = 0) then low else low + 1
  rounded * unit

/-- Double-precision results from here on are infinite: the midpoint between the
largest finite number and the next power of two. -/
def infinityBound : Nat := Nat.pow 2 1024 - Nat.pow 2 970

/-- Whether a significand times a power of ten exceeds the double-precision range. -/
def isTooLarge (significand : Nat) (exponent : Int) : Bool :=
  significand != 0 && exponent > 0 &&
    (exponent > 308 ||
      infinityBound ≤ roundToDouble significand * roundToDouble (Nat.pow 10 exponent.toNat))

end ContractAbi.Json.Number
