import ContractAbi.Text.Blank
import ContractAbi.Text.Decimal
import Mathlib.Data.List.TakeWhile

/-!
# Trimming, and decimal numbers read back

Trimming takes nothing off a text without blanks.  A number that is written in base ten
has digits only, behind a minus sign if it is negative, and reading it gives the number.
Which other texts are numbers shows by their characters.
-/

namespace ContractAbi

theorem mem_intercalate {separator : List Char} {character : Char} {pieces : List (List Char)}
    (mem : character ∈ separator.intercalate pieces) :
    character ∈ separator ∨ ∃ piece ∈ pieces, character ∈ piece := by
  induction pieces with
  | nil => cases mem
  | cons piece pieces ih =>
      cases pieces with
      | nil =>
          rw [List.intercalate_singleton] at mem
          exact Or.inr ⟨piece, List.mem_cons_self, mem⟩
      | cons next pieces =>
          rw [List.intercalate_cons_cons, List.mem_append, List.mem_append] at mem
          rcases mem with (mem | mem) | mem
          · exact Or.inr ⟨piece, List.mem_cons_self, mem⟩
          · exact Or.inl mem
          · exact (ih mem).imp_right fun ⟨other, otherMem, mem⟩ =>
              ⟨other, List.mem_cons_of_mem _ otherMem, mem⟩

namespace Text

/-- Trimming takes the blanks after a text that has none. -/
theorem trim_append {text blanks : List Char}
    (solid : ∀ character ∈ text, isBlank character = false)
    (blank : ∀ character ∈ blanks, isBlank character = true) : trim (text ++ blanks) = text := by
  cases text with
  | nil => simp [trim, trimStart, List.dropWhile_eq_nil_iff.2 blank]
  | cons first text =>
      have start : trimStart (first :: text ++ blanks) = first :: text ++ blanks :=
        List.dropWhile_cons_of_neg (by simp [solid first])
      have blankEnd : ∀ character ∈ blanks.reverse, isBlank character = true := by
        simpa using blank
      have solidEnd : (first :: text).reverse.dropWhile isBlank = (first :: text).reverse := by
        rw [List.dropWhile_eq_self_iff]
        intro nonempty
        rw [solid _ (List.mem_reverse.1 (List.getElem_mem nonempty))]
        exact Bool.false_ne_true
      rw [trim, start, List.reverse_append, trimStart, List.dropWhile_append_of_pos blankEnd,
        solidEnd, List.reverse_reverse]

theorem trim_eq_self {text : List Char}
    (solid : ∀ character ∈ text, isBlank character = false) : trim text = text := by
  have trimmed := trim_append solid (List.forall_mem_nil _)
  rwa [List.append_nil] at trimmed

/-- The text begins with a blank. -/
def StartsBlank (text : List Char) : Prop :=
  ∃ character ∈ text.head?, isBlank character = true

/-- The text ends with a blank. -/
def EndsBlank (text : List Char) : Prop :=
  StartsBlank text.reverse

theorem startsBlank_append {front : List Char} (nonempty : front ≠ []) (back : List Char) :
    StartsBlank (front ++ back) ↔ StartsBlank front := by
  cases front with
  | nil => exact absurd rfl nonempty
  | cons first front => rfl

theorem endsBlank_append {back : List Char} (nonempty : back ≠ []) (front : List Char) :
    EndsBlank (front ++ back) ↔ EndsBlank back := by
  rw [EndsBlank, EndsBlank, List.reverse_append, startsBlank_append (by simpa using nonempty)]

theorem not_startsBlank_of_solid {text : List Char}
    (solid : ∀ character ∈ text, isBlank character = false) : ¬StartsBlank text := by
  rintro ⟨character, first, blank⟩
  rw [solid character (List.mem_of_mem_head? first)] at blank
  cases blank

theorem not_endsBlank_of_solid {text : List Char}
    (solid : ∀ character ∈ text, isBlank character = false) : ¬EndsBlank text :=
  not_startsBlank_of_solid fun character mem => solid character (List.mem_reverse.1 mem)

theorem trimStart_eq_self_iff {text : List Char} :
    trimStart text = text ↔ ¬StartsBlank text := by
  cases text with
  | nil => simp [trimStart, StartsBlank]
  | cons character text =>
      rw [trimStart, List.dropWhile_eq_self_iff]
      simp [StartsBlank]

theorem trimStart_sublist (text : List Char) : (trimStart text).Sublist text :=
  List.dropWhile_sublist isBlank

theorem trim_sublist_trimStart (text : List Char) : (trim text).Sublist (trimStart text) := by
  rw [trim, ← List.reverse_sublist, List.reverse_reverse]
  exact trimStart_sublist _

/-- Trimming leaves a text alone if no blank stands at either end. -/
theorem trim_eq_self_iff {text : List Char} :
    trim text = text ↔ ¬StartsBlank text ∧ ¬EndsBlank text := by
  rw [EndsBlank, ← trimStart_eq_self_iff, ← trimStart_eq_self_iff]
  constructor
  · intro same
    have inner := trim_sublist_trimStart text
    rw [same] at inner
    have start : trimStart text = text :=
      (trimStart_sublist text).eq_of_length_le inner.length_le
    rw [trim, start, List.reverse_eq_iff] at same
    exact ⟨start, same⟩
  · rintro ⟨start, finish⟩
    rw [trim, start, finish, List.reverse_reverse]

/-- What trimming changes it makes shorter. -/
theorem length_trim_lt {text : List Char} (changed : trim text ≠ text) :
    (trim text).length < text.length := by
  have inside := (trim_sublist_trimStart text).trans (trimStart_sublist text)
  exact Nat.lt_of_le_of_ne inside.length_le fun same => changed (inside.eq_of_length same)

theorem not_isBlank_of_isDigit {character : Char} (digit : character.isDigit = true) :
    isBlank character = false := by
  have range : 48 ≤ character.toNat ∧ character.toNat ≤ 57 := Char.isDigit_iff_toNat.1 digit
  simp only [isBlank, Bool.or_eq_false_iff, Bool.and_eq_false_iff, decide_eq_false_iff_not,
    beq_eq_false_iff_ne]
  omega

end Text

namespace Decimal

open Nat (toDigits ofDigitChars)

theorem digitsFrom?_of_isDigit {text : List Char}
    (digits : ∀ character ∈ text, character.isDigit = true) (value : Nat) :
    digitsFrom? value text = some (ofDigitChars 10 text value) := by
  induction text generalizing value with
  | nil => rfl
  | cons character text ih =>
      rw [List.forall_mem_cons] at digits
      rw [digitsFrom?, if_pos digits.1, ih digits.2, Nat.ofDigitChars_cons, Nat.mul_comm]
      rfl

theorem isDigit_of_mem_toDigits {number : Nat} {character : Char}
    (mem : character ∈ toDigits 10 number) : character.isDigit = true :=
  Nat.isDigit_of_mem_toDigits (by decide) (by decide) mem

/-- A number is written with a digit in front, so neither with a sign nor a gap. -/
theorem exists_toDigits_eq_cons (number : Nat) :
    ∃ first others, toDigits 10 number = first :: others ∧ first.isDigit = true := by
  cases digits : toDigits 10 number with
  | nil => exact absurd digits Nat.toDigits_ne_nil
  | cons first others =>
      exact ⟨first, others, rfl, isDigit_of_mem_toDigits (digits ▸ List.mem_cons_self)⟩

theorem digits?_toDigits (number : Nat) : digits? (toDigits 10 number) = some number := by
  have read := digitsFrom?_of_isDigit (fun _ => @isDigit_of_mem_toDigits number _) 0
  rcases exists_toDigits_eq_cons number with ⟨first, others, digits, digit⟩
  have noGap : first ≠ '_' := by
    rintro rfl
    cases digit
  rw [Nat.ofDigitChars_ten_toDigits, digits] at read
  rw [digits, digits?, if_neg noGap, read]

theorem natural?_toDigits (number : Nat) : natural? (toDigits 10 number) = some number := by
  rw [natural?]
  · exact digits?_toDigits number
  · intro text sign
    have digit : '+'.isDigit = true := isDigit_of_mem_toDigits (sign ▸ List.mem_cons_self)
    cases digit

theorem integer?_toDigits (number : Nat) : integer? (toDigits 10 number) = some (number : Int) := by
  rw [integer?, natural?_toDigits]
  · rfl
  · intro text sign
    have digit : '-'.isDigit = true := isDigit_of_mem_toDigits (sign ▸ List.mem_cons_self)
    cases digit

theorem integer?_minus_toDigits (number : Nat) :
    integer? ('-' :: toDigits 10 number) = some (-(number : Int)) := by
  rw [integer?, digits?_toDigits]
  rfl

theorem toList_toString_natural (number : Nat) : (toString number).toList = toDigits 10 number := by
  rw [Nat.toString_eq_ofList_toDigits, String.toList_ofList]

theorem toList_toString_integer (number : Int) :
    (toString number).toList =
      if 0 ≤ number then toDigits 10 number.toNat else '-' :: toDigits 10 (-number).toNat := by
  rw [Int.toString_eq_repr, Int.repr_eq_if]
  split
  · rw [Nat.repr_eq_ofList_toDigits, String.toList_ofList]
  · simp [Nat.repr_eq_ofList_toDigits]

theorem not_isBlank_of_mem_toDigits {number : Nat} {character : Char}
    (mem : character ∈ toDigits 10 number) : Text.isBlank character = false :=
  Text.not_isBlank_of_isDigit (isDigit_of_mem_toDigits mem)

/-- A natural number is read back from its decimal text. -/
theorem natural?_trim_toString (number : Nat) :
    natural? (Text.trim (toString number).toList) = some number := by
  rw [toList_toString_natural, Text.trim_eq_self fun _ => not_isBlank_of_mem_toDigits,
    natural?_toDigits]

/-- An integer is read back from its decimal text. -/
theorem integer?_trim_toString (number : Int) :
    integer? (Text.trim (toString number).toList) = some number := by
  rw [toList_toString_integer]
  split
  · rename_i nonneg
    rw [Text.trim_eq_self fun _ => not_isBlank_of_mem_toDigits, integer?_toDigits,
      Int.toNat_of_nonneg nonneg]
  · rename_i negative
    have solid : ∀ character ∈ '-' :: toDigits 10 (-number).toNat,
        Text.isBlank character = false :=
      List.forall_mem_cons.2 ⟨rfl, fun _ => not_isBlank_of_mem_toDigits⟩
    rw [Text.trim_eq_self solid, integer?_minus_toDigits, Option.some.injEq]
    omega

/-- A digit, and then digits and underscores. -/
def isDigits : List Char → Bool
  | [] => false
  | first :: others =>
    first.isDigit && others.all fun character => character.isDigit || character == '_'

/-- Digits, in front of which one of the signs may stand. -/
def isNumeral (signs text : List Char) : Bool :=
  isDigits text || (text.head?.any signs.contains && isDigits text.tail)

theorem isSome_digitsFrom? (value : Nat) (text : List Char) :
    (digitsFrom? value text).isSome =
      text.all fun character => character.isDigit || character == '_' := by
  induction text generalizing value with
  | nil => rfl
  | cons character text ih =>
      rw [digitsFrom?, List.all_cons]
      by_cases digit : character.isDigit = true
      · rw [if_pos digit, ih, digit, Bool.true_or, Bool.true_and]
      · rw [if_neg digit, Bool.eq_false_iff.2 digit, Bool.false_or]
        by_cases gap : character = '_'
        · rw [if_pos gap, ih, gap, beq_self_eq_true, Bool.true_and]
        · rw [if_neg gap, beq_eq_false_iff_ne.2 gap]
          rfl

theorem isSome_digits? (text : List Char) : (digits? text).isSome = isDigits text := by
  cases text with
  | nil => rfl
  | cons character text =>
      rw [digits?, isDigits]
      by_cases gap : character = '_'
      · rw [if_pos gap, gap]
        rfl
      · rw [if_neg gap, isSome_digitsFrom?, List.all_cons, beq_eq_false_iff_ne.2 gap, Bool.or_false]

/-- A natural number may have a plus sign. -/
theorem isSome_natural? (text : List Char) :
    (natural? text).isSome = isNumeral ['+'] text := by
  unfold natural?
  split
  · exact isSome_digits? _
  · rename_i unsigned
    rw [isSome_digits?, isNumeral]
    cases text with
    | nil => rfl
    | cons first text =>
        have differ : first ≠ '+' := fun same => unsigned text (same ▸ rfl)
        simp [differ]

/-- An integer may have either sign. -/
theorem isSome_integer? (text : List Char) :
    (integer? text).isSome = isNumeral ['+', '-'] text := by
  unfold integer?
  split
  · rename_i digits
    change _ = isDigits digits
    rw [← isSome_digits?]
    cases digits? digits <;> rfl
  · rename_i unsigned
    have same : isNumeral ['+', '-'] text = isNumeral ['+'] text := by
      cases text with
      | nil => rfl
      | cons first text =>
          have differ : first ≠ '-' := fun minus => unsigned text (minus ▸ rfl)
          simp [isNumeral, differ]
    rw [same, ← isSome_natural?]
    cases natural? text <;> rfl

end Decimal

end ContractAbi
