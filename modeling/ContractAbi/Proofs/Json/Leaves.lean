import ContractAbi.Json.Typed
import ContractAbi.Proofs.Hex
import ContractAbi.Proofs.Text
import Mathlib.Algebra.Ring.Int.Defs

/-!
# Documents without parts

Which documents stand for a machine word, a number of any size or a byte string shows by
their range and their characters.  Each reader has a result for these and for no others.
-/

namespace ContractAbi

/-- The range of a type: a word of so many bits, with or without a sign. -/
def IntType.holds (type : IntType) (value : Int) : Bool :=
  if type.isSigned then -2 ^ (type.bits - 1) ≤ value && value < 2 ^ (type.bits - 1)
  else 0 ≤ value && value < 2 ^ type.bits

theorem IntType.holds_iff (type : IntType) (value : Int) :
    type.holds value = true ↔ type.minValue ≤ value ∧ value ≤ type.maxValue := by
  have bounds : type.minValue = (if type.isSigned then -2 ^ (type.bits - 1) else 0) ∧
      (type.maxValue : Int) =
        (if type.isSigned then 2 ^ (type.bits - 1) else 2 ^ type.bits) - 1 := by
    cases type <;> decide
  rw [bounds.1, bounds.2, holds]
  split <;> simp only [Bool.and_eq_true, decide_eq_true_eq] <;> omega

theorem IntType.isSome_word? (type : IntType) (value : Int) :
    (type.word? value).isSome = type.holds value := by
  rw [word?, Bool.eq_iff_iff, holds_iff]
  split
  · rename_i held
    exact iff_of_true rfl held
  · rename_i outside
    exact iff_of_false Bool.false_ne_true outside

/-- Digits that come in pairs, behind `0x` or not. -/
def Hex.isText : List Char → Bool
  | '0' :: 'x' :: digits => digits.length % 2 == 0 && digits.all isDigit
  | digits => digits.length % 2 == 0 && digits.all isDigit

namespace Json

def isWord (type : IntType) : Json → Bool
  | integer value => type.holds value
  | _ => false

/-- A number that is not negative, or the decimal text of one among blanks. -/
def isNatural : Json → Bool
  | string text => Decimal.isNumeral ['+'] (Text.trim text.toList)
  | integer value => 0 ≤ value
  | _ => false

def isInteger : Json → Bool
  | string text => Decimal.isNumeral ['+', '-'] (Text.trim text.toList)
  | integer _ => true
  | _ => false

def isHex : Json → Bool
  | string text => Hex.isText text.toList
  | _ => false

theorem isSome_word? (type : IntType) (json : Json) :
    (json.word? type).isSome = json.isWord type := by
  cases json with
  | integer value => exact type.isSome_word? value
  | _ => rfl

theorem isSome_natural? (json : Json) :
    (json.decimalText?.bind Decimal.natural?).isSome = json.isNatural := by
  cases json with
  | string text => exact Decimal.isSome_natural? _
  | integer value =>
      simp only [decimalText?, Option.bind_some, isNatural, Decimal.toList_toString_integer]
      split
      · rename_i positive
        rw [Decimal.natural?_toDigits, decide_eq_true positive]
        rfl
      · rename_i negative
        rw [Decimal.isSome_natural?, decide_eq_false negative]
        rfl
  | _ => rfl

theorem isSome_integer? (json : Json) :
    (json.decimalText?.bind Decimal.integer?).isSome = json.isInteger := by
  cases json with
  | string text => exact Decimal.isSome_integer? _
  | integer value =>
      simp only [decimalText?, Option.bind_some, isInteger, Decimal.toList_toString_integer]
      split
      · rw [Decimal.integer?_toDigits]
        rfl
      · rw [Decimal.integer?_minus_toDigits]
        rfl
  | _ => rfl

theorem isSome_toOption_decode (digits : List Char) :
    (Hex.decode digits).toOption.isSome = (digits.length % 2 == 0 && digits.all Hex.isDigit) := by
  rw [Bool.eq_iff_iff, Bool.and_eq_true, beq_iff_eq, List.all_eq_true, ← Hex.exists_decode_iff]
  cases Hex.decode digits with
  | ok bytes => exact iff_of_true rfl ⟨bytes, rfl⟩
  | error fault => simp [Except.toOption]

theorem isSome_hexBytes? (json : Json) : json.hexBytes?.isSome = json.isHex := by
  cases json with
  | string text =>
      rw [hexBytes?, isHex]
      split
      · rename_i digits marked
        rw [marked]
        exact isSome_toOption_decode digits
      · rename_i plain
        rw [Hex.isText]
        · exact isSome_toOption_decode text.toList
        · exact plain
  | _ => rfl

end Json

end ContractAbi
