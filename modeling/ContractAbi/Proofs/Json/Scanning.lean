import ContractAbi.Json.Parser
import ContractAbi.Json.Printer
import ContractAbi.Proofs.Text

/-!
# Strings and integers read back

What a string is written with ends at its closing quotation mark, so the text behind it
does not matter.  An integer ends where the text behind it does not go on as a number.
-/

namespace ContractAbi.Json

open Nat (toDigits)

section Strings

theorem hexValue?_digit {value : Nat} (small : value < 16) :
    hexValue? (Hex.digit value) = some value := by
  have each : ∀ value < 16, hexValue? (Hex.digit value) = some value := by decide
  exact each value small

/-- A control character is written by its number. -/
theorem scanCodePoint?_control {character : Char} (control : character.toNat < 0x20)
    (input : List Char) :
    scanCodePoint? ('0' :: '0' :: Hex.digit (character.toNat / 16) ::
      Hex.digit (character.toNat % 16) :: input) = some (character, input) := by
  have zero : hexValue? '0' = some 0 := by decide
  have whole : ((0 * 16 + 0) * 16 + character.toNat / 16) * 16 + character.toNat % 16 =
      character.toNat := by omega
  rw [scanCodePoint?, scanUnit?, zero, hexValue?_digit (by omega), hexValue?_digit (by omega)]
  simp only [Option.bind_eq_bind, Option.bind_some, Option.pure_def, whole]
  rw [if_pos (Or.inl (by omega)), Char.ofNat_toNat]

/-- A character that is written is the next one of the string. -/
theorem scanStringTail?_escaped (steps : Nat) (character : Char) (input : List Char) :
    scanStringTail? (steps + 1) (escaped character ++ input) =
      (scanStringTail? steps input).map fun (characters, rest) =>
        (character :: characters, rest) := by
  rw [Option.map_eq_bind]
  unfold escaped
  -- Seven characters have a short form of their own.
  iterate 7
    split
    · subst_vars
      rfl
  split
  · rename_i control
    simp only [List.cons_append, List.nil_append]
    rw [scanStringTail?, scanCodePoint?_control control]
    rfl
  · rename_i quote backslash _ _ _ _ _ visible
    rw [List.singleton_append, scanStringTail?]
    · rw [if_neg (by simp [visible, backslash])]
      rfl
    · exact quote
    · exact fun _ same _ => backslash same
    · exact fun _ _ same _ => backslash same

theorem length_le_length_escaped (characters : List Char) :
    characters.length ≤ (characters.flatMap escaped).length := by
  induction characters with
  | nil => exact Nat.le_refl 0
  | cons character characters ih =>
      have positive : 0 < (escaped character).length := by
        unfold escaped
        repeat' split
        all_goals exact Nat.succ_pos _
      rw [List.flatMap_cons, List.length_append, List.length_cons]
      omega

theorem scanStringTail?_flatMap {steps : Nat} {characters : List Char} (rest : List Char)
    (enough : characters.length < steps) :
    scanStringTail? steps (characters.flatMap escaped ++ '"' :: rest) =
      some (characters, rest) := by
  induction characters generalizing steps with
  | nil =>
      cases steps with
      | zero => cases enough
      | succ steps => rfl
  | cons character characters ih =>
      cases steps with
      | zero => cases enough
      | succ steps =>
          rw [List.flatMap_cons, List.append_assoc, scanStringTail?_escaped,
            ih (Nat.lt_of_succ_lt_succ enough)]
          rfl

/-- A quoted text is taken off the front of any text. -/
theorem scanString?_quoted (text : String) (rest : List Char) :
    scanString? (quoted text ++ rest) = some (text, rest) := by
  have enough := length_le_length_escaped text.toList
  have same : quoted text ++ rest = '"' :: (text.toList.flatMap escaped ++ '"' :: rest) := by
    simp [quoted]
  rw [same, scanString?, scanStringTail?_flatMap rest (by rw [List.length_append]; omega)]
  simp

end Strings

section Integers

/-- A number that stands in front of the text does not go on in it. -/
def EndsNumber : List Char → Prop
  | [] => True
  | first :: _ => first.isDigit = false ∧ first ≠ '.' ∧ first ≠ 'e' ∧ first ≠ 'E'

variable {number : Nat} {rest : List Char}

/-- Only zero is written with a zero in front. -/
theorem head?_toDigits_ne_zero (positive : 0 < number) :
    (toDigits 10 number).head? ≠ some '0' := by
  induction number using Nat.strong_induction_on with
  | _ number ih =>
      by_cases single : number < 10
      · have each : ∀ number < 10, 0 < number → (toDigits 10 number).head? ≠ some '0' := by decide
        exact each number single positive
      · rw [Nat.toDigits_of_base_le (by decide) (by omega),
          List.head?_append, Option.or_of_isSome (by simp [Nat.toDigits_ne_nil])]
        exact ih (number / 10) (by omega) (by omega)

theorem eq_nil_of_toDigits_eq_zero_cons {others : List Char}
    (same : toDigits 10 number = '0' :: others) : others = [] := by
  rcases Nat.eq_zero_or_pos number with rfl | positive
  · rw [Nat.toDigits_zero] at same
    exact (List.tail_eq_of_cons_eq same).symm
  · exact absurd (congrArg List.head? same) (head?_toDigits_ne_zero positive)

theorem scanDigits?_toDigits (ends : EndsNumber rest) :
    scanDigits? (toDigits 10 number ++ rest) = some (toDigits 10 number, rest) := by
  have digits : ∀ character ∈ toDigits 10 number, character.isDigit = true :=
    fun _ => Decimal.isDigit_of_mem_toDigits
  have stops : rest.takeWhile Char.isDigit = [] ∧ rest.dropWhile Char.isDigit = rest := by
    cases rest with
    | nil => exact ⟨rfl, rfl⟩
    | cons first rest => simp [ends.1]
  rw [scanDigits?, List.takeWhile_append_of_pos digits, List.dropWhile_append_of_pos digits,
    stops.1, stops.2, List.append_nil]
  exact if_neg (by simp [Nat.toDigits_ne_nil])

theorem scanInteger?_toDigits (ends : EndsNumber rest) :
    scanInteger? (toDigits 10 number ++ rest) = some (toDigits 10 number, rest) := by
  unfold scanInteger?
  split
  · rename_i others same
    rcases Decimal.exists_toDigits_eq_cons number with ⟨first, more, digits, _⟩
    rw [digits, List.cons_append, List.cons.injEq] at same
    rcases same with ⟨rfl, rfl⟩
    rw [digits, eq_nil_of_toDigits_eq_zero_cons digits]
    rfl
  · exact scanDigits?_toDigits ends

theorem scanFraction?_of_endsNumber (ends : EndsNumber rest) :
    scanFraction? rest = some (none, rest) := by
  unfold scanFraction?
  split
  · exact absurd rfl ends.2.1
  · rfl

theorem scanExponent?_of_endsNumber (ends : EndsNumber rest) :
    scanExponent? rest = some (none, rest) := by
  cases rest with
  | nil => rfl
  | cons first rest => exact if_neg (by simp [ends.2.2])

theorem decimalValue_toDigits (number : Nat) : decimalValue (toDigits 10 number) = number := by
  have same : decimalValue (toDigits 10 number) = Nat.ofDigitChars 10 (toDigits 10 number) 0 := by
    simp only [decimalValue, Nat.ofDigitChars, Number.digitValue, Nat.mul_comm]
    rfl
  rw [same, Nat.ofDigitChars_ten_toDigits]

theorem scanNumber?_toDigits (small : number < Number.significandBound) (ends : EndsNumber rest) :
    scanNumber? (toDigits 10 number ++ rest) = some (integer number, rest) := by
  have unsigned : ∀ others, toDigits 10 number ++ rest ≠ '-' :: others := by
    intro others same
    rcases Decimal.exists_toDigits_eq_cons number with ⟨first, more, digits, digit⟩
    rw [digits, List.cons_append, List.cons.injEq] at same
    rw [same.1] at digit
    cases digit
  have parts : ofParts? false (toDigits 10 number) none none = some (integer number) := by
    simp [ofParts?, decimalValue_toDigits, small]
  rw [scanNumber?]
  · simp [scanInteger?_toDigits ends, scanFraction?_of_endsNumber ends,
      scanExponent?_of_endsNumber ends, parts]
  · exact unsigned

theorem scanNumber?_minus_toDigits (positive : 0 < number)
    (small : number ≤ Number.significandBound / 2) (ends : EndsNumber rest) :
    scanNumber? ('-' :: (toDigits 10 number ++ rest)) = some (integer (-number), rest) := by
  have parts : ofParts? true (toDigits 10 number) none none = some (integer (-number)) := by
    simp [ofParts?, decimalValue_toDigits, positive, small]
  rw [scanNumber?]
  simp [scanInteger?_toDigits ends, scanFraction?_of_endsNumber ends,
    scanExponent?_of_endsNumber ends, parts]

end Integers

end ContractAbi.Json
