import ContractAbi.Proofs.Codec.Consumed
import ContractAbi.Proofs.Codec.Extension
import ContractAbi.Proofs.Codec.Failure

/-!
# Targets without bytes

A struct takes no bytes when none of its fields does, and then it decodes from any
input.  Every other target needs at least one byte and fails when there is none.
-/

namespace ContractAbi

/-- A decoder without any byte fails: it runs short, or its target is not complete. -/
def Decoded.Starved {α : Type} (decoded : Decoded α) : Prop :=
  ∃ error, decoded.error = some error ∧ (error.isShortRead = true ∨ error.isOfTarget = true)

namespace Value

mutual

/-- Whether the target takes no bytes. -/
def isZeroWidth : Value → Bool
  | struct fields => fieldsAreZeroWidth fields
  | _ => false

def fieldsAreZeroWidth : Fields → Bool
  | [] => true
  | (_, target) :: fields => target.isZeroWidth && fieldsAreZeroWidth fields

end

theorem decodeFields_of_areZeroWidth {maxLength : Nat} {fields : Fields}
    (each : ∀ field ∈ fields, field.2.isZeroWidth = true →
      ∀ input, field.2.decode maxLength .nested input = ⟨field.2, input, none⟩)
    (zeroWidth : fieldsAreZeroWidth fields = true) (input : Bytes) :
    decodeFields maxLength fields input = ⟨fields, input, none⟩ := by
  induction fields with
  | nil => rfl
  | cons field fields ih =>
      rw [List.forall_mem_cons] at each
      rw [fieldsAreZeroWidth, Bool.and_eq_true] at zeroWidth
      have head := each.1 zeroWidth.1 input
      rw [decodeFields_cons_of_success (by rw [head]), head, ih each.2 zeroWidth.2]
      rfl

/-- A target without bytes is decoded from any input, and leaves it as it was. -/
theorem decode_of_isZeroWidth (maxLength : Nat) {target : Value}
    (zeroWidth : target.isZeroWidth = true) (input : Bytes) :
    target.decode maxLength .nested input = ⟨target, input, none⟩ := by
  induction target generalizing input with
  | struct fields ih =>
      rw [decode, decodeFields_of_areZeroWidth ih (by rwa [isZeroWidth] at zeroWidth)]
      rfl
  | _ => simp [isZeroWidth] at zeroWidth

theorem decodeFields_nil_starved {maxLength : Nat} {fields : Fields}
    (each : ∀ field ∈ fields, field.2.isZeroWidth = false →
      (field.2.decode maxLength .nested []).Starved)
    (wide : fieldsAreZeroWidth fields = false) :
    (decodeFields maxLength fields []).Starved := by
  induction fields with
  | nil => cases wide
  | cons field fields ih =>
      rw [List.forall_mem_cons] at each
      cases width : field.2.isZeroWidth with
      | false =>
          rcases each.1 width with ⟨error, failed, cause⟩
          rw [decodeFields_cons_of_error failed]
          exact ⟨.field field.1 error, rfl, cause⟩
      | true =>
          have head := decode_of_isZeroWidth maxLength width []
          rw [fieldsAreZeroWidth, width, Bool.true_and] at wide
          rw [decodeFields_cons_of_success (by rw [head]), head]
          exact ih each.2 wide

/-- A target that takes bytes cannot be filled from nothing. -/
theorem decode_nil_starved (maxLength : Nat) {target : Value}
    (wide : target.isZeroWidth = false) : (target.decode maxLength .nested []).Starved := by
  induction target with
  | bool value => exact ⟨_, rfl, Or.inl rfl⟩
  | int type word => cases type <;> exact ⟨_, rfl, Or.inl rfl⟩
  | natural value => exact ⟨_, rfl, Or.inl rfl⟩
  | integer value => exact ⟨_, rfl, Or.inl rfl⟩
  | text content => exact ⟨_, rfl, Or.inl rfl⟩
  | bytes content => exact ⟨_, rfl, Or.inl rfl⟩
  | address content => exact ⟨_, rfl, Or.inl rfl⟩
  | absent => exact ⟨_, rfl, Or.inl rfl⟩
  | present content _ => exact ⟨_, rfl, Or.inl rfl⟩
  | list items _ => exact ⟨_, rfl, Or.inr rfl⟩
  | outputList items template _ _ =>
      cases template with
      | none => exact ⟨_, rfl, Or.inr rfl⟩
      | some template => exact ⟨_, rfl, Or.inl rfl⟩
  | struct fields ih =>
      rw [decode]
      exact decodeFields_nil_starved ih (by rwa [isZeroWidth] at wide)
  | enum discriminant fields _ => exact ⟨_, rfl, Or.inl rfl⟩

/-- A complete target that needs a byte runs short when there is none. -/
theorem decode_nil_isShortRead (maxLength : Nat) {target : Value}
    (complete : target.isComplete = true) (wide : target.isZeroWidth = false) :
    ∃ error, (target.decode maxLength .nested []).error = some error ∧
      error.isShortRead = true := by
  rcases decode_nil_starved maxLength wide with ⟨error, failed, short | ofTarget⟩
  · exact ⟨error, failed, short⟩
  · rcases decode_blames maxLength target .nested [] error failed with ofInput | ⟨_, incomplete⟩
    · rw [CodecError.isOfTarget_eq_false ofInput] at ofTarget
      cases ofTarget
    · rw [complete] at incomplete
      cases incomplete

theorem Reads.ne_nil {maxLength : Nat} {target value : Value} {bytes : Bytes}
    (reads : target.Reads maxLength value bytes) (wide : target.isZeroWidth = false) :
    bytes ≠ [] := by
  rintro rfl
  -- What takes no byte here would take none from the empty input.
  rcases decode_nil_starved maxLength wide with ⟨error, failed, _⟩
  have again := reads.again []
  rw [List.append_nil] at again
  rw [again] at failed
  cases failed

/-- A nested decoder takes no byte exactly when its target has none. -/
theorem decode_takes_nothing_iff {maxLength : Nat} {target value : Value} {input rest : Bytes}
    (decoded : target.decode maxLength .nested input = ⟨value, rest, none⟩) :
    rest = input ↔ target.isZeroWidth = true := by
  constructor
  · intro untouched
    rcases readsWhatItDecodes maxLength target input value rest decoded with ⟨taken, split, reads⟩
    rw [untouched, List.self_eq_append_left] at split
    cases width : target.isZeroWidth with
    | true => rfl
    | false => exact absurd split (reads.ne_nil width)
  · intro zeroWidth
    rw [decode_of_isZeroWidth maxLength zeroWidth, Decoded.mk.injEq] at decoded
    exact decoded.2.1.symm

end Value

end ContractAbi
