/-!
# Decimal numbers of any size

Digits may be grouped by underscores, except before the first one.  A natural
number may have a plus sign, an integer either sign, and never more than one.
-/

namespace ContractAbi.Decimal

/-- The number that digits and underscores stand for, counting on from `value`. -/
def digitsFrom? (value : Nat) : List Char → Option Nat
  | [] => some value
  | character :: text =>
    if character.isDigit then digitsFrom? (value * 10 + (character.toNat - 48)) text
    else if character = '_' then digitsFrom? value text
    else none

def digits? : List Char → Option Nat
  | [] => none
  | character :: text => if character = '_' then none else digitsFrom? 0 (character :: text)

def natural? : List Char → Option Nat
  | '+' :: text => digits? text
  | text => digits? text

def integer? : List Char → Option Int
  | '-' :: text => (digits? text).map fun value => -(value : Int)
  | text => (natural? text).map fun value => (value : Int)

end ContractAbi.Decimal
