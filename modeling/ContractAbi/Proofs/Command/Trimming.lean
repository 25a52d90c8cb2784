import ContractAbi.Proofs.Arguments.Splitting
import ContractAbi.Proofs.Command.Reading

/-!
# Trimming the text of parts

Blanks are taken off both ends of a text before it is split.  Digits are no blanks, so
the text of parts loses something only where a separator stands bare at one of its ends:
before or after an empty part, if there is another one.  Then it is too short for the
parts that were joined, whatever is made of it.
-/

namespace ContractAbi

open Text (StartsBlank EndsBlank)

theorem solid_encode (bytes : Bytes) :
    ∀ character ∈ Hex.encode bytes, Text.isBlank character = false := by
  intro character mem
  apply not_isBlank_of_isDataCharacter
  rw [isDataCharacter, Hex.isWritten_of_mem_encode mem]
  rfl

theorem encode_ne_nil {part : Bytes} (nonempty : part ≠ []) : Hex.encode part ≠ [] := by
  cases part with
  | nil => exact absurd rfl nonempty
  | cons byte part => simp [Hex.encode]

section Ends

variable {separator : List Char} {parts : List Bytes}

/-- A text of parts starts with a blank only behind an empty part, with a separator that does. -/
theorem startsBlank_intercalate_iff (proper : separator ≠ []) :
    StartsBlank (separator.intercalate (parts.map Hex.encode)) ↔
      StartsBlank separator ∧ ∃ others, others ≠ [] ∧ parts = [] :: others := by
  rcases parts with _ | ⟨part, _ | ⟨next, others⟩⟩
  · simp [StartsBlank]
  · rw [List.map_singleton, List.intercalate_singleton]
    constructor
    · intro blank
      exact absurd blank (Text.not_startsBlank_of_solid (solid_encode part))
    · rintro ⟨_, _, some, ⟨⟩⟩
      exact absurd rfl some
  · rw [List.map_cons, List.map_cons, List.intercalate_cons_cons]
    by_cases empty : part = []
    · subst empty
      rw [Text.startsBlank_append (by simpa [Hex.encode] using proper)]
      simp [Hex.encode]
    · have text := encode_ne_nil empty
      rw [Text.startsBlank_append (by simp [text]), Text.startsBlank_append text]
      constructor
      · intro blank
        exact absurd blank (Text.not_startsBlank_of_solid (solid_encode part))
      · rintro ⟨_, _, _, ⟨⟩⟩
        exact absurd rfl empty

/-- It ends with one only in front of an empty part. -/
theorem endsBlank_intercalate_iff (proper : separator ≠ []) :
    EndsBlank (separator.intercalate (parts.map Hex.encode)) ↔
      EndsBlank separator ∧ ∃ others, others ≠ [] ∧ parts = others ++ [[]] := by
  rcases List.eq_nil_or_concat' parts with rfl | ⟨front, part, rfl⟩
  · simp [EndsBlank, StartsBlank]
  · rw [List.map_append, List.map_singleton]
    have solid : ¬EndsBlank (Hex.encode part) := Text.not_endsBlank_of_solid (solid_encode part)
    by_cases alone : front = []
    · subst alone
      rw [List.map_nil, List.nil_append, List.intercalate_singleton]
      constructor
      · intro blank
        exact absurd blank solid
      · rintro ⟨_, others, some, same⟩
        exact absurd (List.append_inj_left' same rfl).symm some
    · rw [intercalate_concat_of_ne_nil _ _ (by simpa using alone)]
      by_cases empty : part = []
      · subst empty
        rw [Text.endsBlank_append (by simpa [Hex.encode] using proper)]
        simpa [Hex.encode] using fun _ => alone
      · have text := encode_ne_nil empty
        rw [Text.endsBlank_append (by simp [text]), Text.endsBlank_append text]
        constructor
        · intro blank
          exact absurd blank solid
        · rintro ⟨_, others, _, same⟩
          exact absurd (List.singleton_inj.1 (List.append_inj_right' same rfl)) empty

/-- The separator stands bare at an end of the joined parts, with a blank outermost. -/
def LosesBlank (separator : List Char) (parts : List Bytes) : Prop :=
  (StartsBlank separator ∧ ∃ others, others ≠ [] ∧ parts = [] :: others) ∨
    (EndsBlank separator ∧ ∃ others, others ≠ [] ∧ parts = others ++ [[]])

theorem trim_joinParts_eq_self_iff {separator : String} (proper : separator.toList ≠ []) :
    Text.trim (joinParts separator parts).toList = (joinParts separator parts).toList ↔
      ¬LosesBlank separator.toList parts := by
  rw [Text.trim_eq_self_iff, joinParts, String.toList_ofList, startsBlank_intercalate_iff proper,
    endsBlank_intercalate_iff proper, LosesBlank, not_or]

end Ends

namespace Command

/-- Parts that are joined and given as the positional argument are split into the same parts
again, unless the separator has a blank that trimming takes off: one at its front before
an empty first part, or one at its end after an empty last part, where there are several
parts.  In these cases the text is split into other parts, or not at all. -/
theorem splitParts_readText_iff {separator : String} {parts : List Bytes}
    (frames : Frames separator.toList) (nonempty : parts ≠ [])
    (positional : joinParts separator parts ≠ "-") (input : Bytes) :
    ∃ text, readText (joinParts separator parts) input = .ok text ∧
      (splitParts separator (String.ofList text) = .ok parts ↔
        ¬LosesBlank separator.toList parts) := by
  refine ⟨Text.trim (joinParts separator parts).toList, by rw [readText, if_neg positional], ?_⟩
  rw [← trim_joinParts_eq_self_iff frames.ne_nil]
  constructor
  · intro split
    by_contra changed
    have shorter := Text.length_trim_lt changed
    rw [length_joinParts_of_splitParts split, String.toList_ofList] at shorter
    exact Nat.lt_irrefl _ shorter
  · intro same
    rw [same, String.ofList_toList]
    exact splitParts_joinParts frames nonempty

/-- A blank at the front of the separator is kept behind a part with bytes. -/
theorem splitParts_readText_iff_inner :
    let parts : List Bytes := [[0xab], [], [1]]
    Frames " @".toList ∧ parts ≠ [] ∧ joinParts " @" parts ≠ "-" ∧
      ¬LosesBlank " @".toList parts ∧
      ∃ text, readText (joinParts " @" parts) [] = .ok text ∧
        splitParts " @" (String.ofList text) = .ok parts := by
  intro parts
  have frames : Frames " @".toList := ⟨'@', by decide, by decide⟩
  have nonempty : parts ≠ [] := List.cons_ne_nil _ _
  have positional : joinParts " @" parts ≠ "-" := by decide
  have keeps : ¬LosesBlank " @".toList parts := by
    rintro (⟨_, _, _, same⟩ | ⟨⟨_, ⟨⟩, blank⟩, _⟩)
    · cases (List.cons.inj same).1
    · cases blank
  rcases splitParts_readText_iff frames nonempty positional [] with ⟨text, read, split⟩
  exact ⟨frames, nonempty, positional, keeps, text, read, split.2 keeps⟩

/-- Between an empty part and another a blank alone is taken for white space. -/
theorem splitParts_readText_bare_blank :
    let parts : List Bytes := [[], [1]]
    Frames " ".toList ∧ parts ≠ [] ∧ joinParts " " parts ≠ "-" ∧
      readText (joinParts " " parts) [] = .ok "01".toList ∧
        splitParts " " "01" = .ok [[1]] ∧ splitParts " " "01" ≠ .ok parts := by
  intro parts
  have positional : joinParts " " parts ≠ "-" := by decide
  have read : readText (joinParts " " parts) [] = .ok "01".toList := by
    have joined : (joinParts " " parts).toList = [' ', '0', '1'] := by
      rw [joinParts, String.toList_ofList]
      decide
    rw [readText, if_neg positional, joined]
    decide
  have split : splitParts " " "01" = .ok [[1]] := by rfl
  have other : splitParts " " "01" ≠ .ok parts := by
    rw [split]
    simp [parts]
  exact ⟨⟨' ', by decide, by decide⟩, List.cons_ne_nil _ _, positional, read, split, other⟩

end Command

end ContractAbi
