import ContractAbi.Proofs.Codec.Decoding
import ContractAbi.Proofs.Codec.Shape

/-!
# Why decoding fails

A decoder that fails blames its input, or a target that is not complete: one that has an
option without content, or a list that cannot make new items.  It never reports the failure
of a stream.
-/

namespace ContractAbi

namespace CodecError

/-- Whether the error is about what the input holds. -/
def isOfInput (error : CodecError) : Bool :=
  match error.root with
  | shortRead _ _ | invalidLength _ _ _ | lengthExceeded _ _ | invalidBool _
  | invalidBoolLength _ | overflow _ | invalidUtf8 _ => true
  | _ => false

/-- Whether the error is about what the target lacks. -/
def isOfTarget (error : CodecError) : Bool :=
  match error.root with
  | missingTemplate | missingOptionTarget => true
  | _ => false

theorem isOfTarget_eq_false {error : CodecError} (ofInput : error.isOfInput = true) :
    error.isOfTarget = false := by
  rw [isOfInput] at ofInput
  rw [isOfTarget]
  cases cause : error.root with
  | missingTemplate | missingOptionTarget =>
      rw [cause] at ofInput
      cases ofInput
  | _ => rfl

end CodecError

namespace Read

variable {α β : Type}

/-- A read that fails blames the input. -/
def BlamesInput (read : Read α) : Prop :=
  ∀ error, read.result = .error error → error.isOfInput = true

/-- A read that fails blames the input and names no field. -/
def FailsAlone (read : Read α) : Prop :=
  ∀ error, read.result = .error error → error.isOfInput = true ∧ error.path = []

theorem FailsAlone.blamesInput {read : Read α} (alone : read.FailsAlone) : read.BlamesInput :=
  fun error failed => (alone error failed).1

theorem FailsAlone.map {read : Read α} (alone : read.FailsAlone) (f : α → β) :
    (read.map f).FailsAlone := by
  rcases read with ⟨error | value, rest⟩
  · rintro _ ⟨rfl⟩
    exact alone error rfl
  · rintro _ ⟨⟩

theorem FailsAlone.check {read : Read α} (alone : read.FailsAlone)
    {f : α → Except CodecError β}
    (checked : ∀ value error, f value = .error error → error.isOfInput = true ∧ error.path = []) :
    (read.check f).FailsAlone := by
  rcases read with ⟨error | value, rest⟩
  · rintro _ ⟨rfl⟩
    exact alone error rfl
  · exact checked value

theorem FailsAlone.andThen {read : Read α} (alone : read.FailsAlone)
    {next : α → Bytes → Read β} (later : ∀ value rest, (next value rest).FailsAlone) :
    (read.andThen next).FailsAlone := by
  rcases read with ⟨error | value, rest⟩
  · rintro _ ⟨rfl⟩
    exact alone error rfl
  · exact later value rest

end Read

namespace Bytes

theorem readByte_failsAlone (input : Bytes) : (readByte input).FailsAlone := by
  cases input with
  | nil =>
      rintro _ ⟨rfl⟩
      exact ⟨rfl, rfl⟩
  | cons byte rest => rintro _ ⟨⟩

theorem readExact_failsAlone (count : Nat) (input : Bytes) :
    (readExact count input).FailsAlone := by
  rw [readExact]
  split
  · rintro _ ⟨rfl⟩
    exact ⟨rfl, rfl⟩
  · rintro _ ⟨⟩

theorem readBoundedLength_failsAlone (maxLength : Nat) (input : Bytes) :
    (readBoundedLength maxLength input).FailsAlone := by
  apply ((readExact_failsAlone lengthPrefixSize input).map _).check
  intro length error failed
  split at failed <;> cases failed
  exact ⟨rfl, rfl⟩

theorem readPrefixed_failsAlone (maxLength : Nat) (input : Bytes) :
    (readPrefixed maxLength input).FailsAlone :=
  (readBoundedLength_failsAlone maxLength input).andThen readExact_failsAlone

end Bytes

namespace Decoded

variable {α β : Type} {complete : Bool}

/-- A decoder that fails blames its input, or a target that is not complete. -/
def Blames (decoded : Decoded α) (complete : Bool) : Prop :=
  ∀ error, decoded.error = some error →
    error.isOfInput = true ∨ (error.isOfTarget = true ∧ complete = false)

theorem blames_of_success {target : α} {rest : Bytes} :
    (⟨target, rest, none⟩ : Decoded α).Blames complete := by
  rintro _ ⟨⟩

theorem blames_of_input {target : α} {rest : Bytes} {error : CodecError}
    (ofInput : error.isOfInput = true) :
    (⟨target, rest, some error⟩ : Decoded α).Blames complete := by
  rintro _ ⟨rfl⟩
  exact Or.inl ofInput

theorem Blames.map {decoded : Decoded α} (blames : decoded.Blames complete) (f : α → β) :
    (decoded.map f).Blames complete :=
  blames

end Decoded

theorem Read.BlamesInput.fill {α β : Type} {read : Read α} (blames : read.BlamesInput)
    (target : β) (build : α → β) {complete : Bool} :
    (read.fill target build).Blames complete := by
  rcases read with ⟨error | value, rest⟩
  · exact Decoded.blames_of_input (blames error rfl)
  · exact Decoded.blames_of_success

namespace Value

mutual

/-- Whether the target has content for its options and templates for its lists. -/
def isComplete : Value → Bool
  | absent | list _ | outputList _ none => false
  | present content => content.isComplete
  | outputList _ (some template) => template.isComplete
  | struct fields | enum _ fields => fieldsAreComplete fields
  | _ => true

def fieldsAreComplete : Fields → Bool
  | [] => true
  | (_, target) :: fields => target.isComplete && fieldsAreComplete fields

end

section Leaves

theorem boolOfByte_failsAlone {byte : UInt8} {error : CodecError}
    (failed : boolOfByte byte = .error error) : error.isOfInput = true ∧ error.path = [] := by
  rw [boolOfByte_eq_error failed]
  exact ⟨rfl, rfl⟩

theorem readBool_failsAlone (context : Context) (input : Bytes) :
    (readBool context input).FailsAlone := by
  cases context with
  | nested => exact (Bytes.readByte_failsAlone input).check fun _ _ => boolOfByte_failsAlone
  | topLevel =>
      rcases input with _ | ⟨byte, _ | ⟨other, rest⟩⟩
      · rintro _ ⟨⟩
      · intro error failed
        exact boolOfByte_failsAlone failed
      · rintro _ ⟨rfl⟩
        exact ⟨rfl, rfl⟩

theorem readAll_failsAlone (input : Bytes) : (Bytes.readAll input).FailsAlone := by
  rintro _ ⟨⟩

theorem readInt_failsAlone (type : IntType) (context : Context) (input : Bytes) :
    (readInt type context input).FailsAlone := by
  cases context with
  | nested => exact (Bytes.readExact_failsAlone _ input).map _
  | topLevel =>
      apply (readAll_failsAlone input).check
      intro payload error failed
      simp only [wordOfMagnitude] at failed
      split at failed <;> cases failed
      exact ⟨rfl, rfl⟩

theorem readPayload_failsAlone (maxLength : Nat) (context : Context) (input : Bytes) :
    (readPayload maxLength context input).FailsAlone := by
  cases context with
  | nested => exact Bytes.readPrefixed_failsAlone maxLength input
  | topLevel => exact readAll_failsAlone input

theorem textOfBytes_failsAlone {payload : Bytes} {error : CodecError}
    (failed : textOfBytes payload = .error error) : error.isOfInput = true ∧ error.path = [] := by
  rcases textOfBytes_eq_error failed with ⟨fault, rfl⟩
  exact ⟨rfl, rfl⟩

theorem readAddress_failsAlone (context : Context) (input : Bytes) :
    (readAddress context input).FailsAlone := by
  cases context with
  | nested => exact Bytes.readExact_failsAlone addressLength input
  | topLevel =>
      rw [readAddress, checkLength]
      split
      · exact Bytes.readExact_failsAlone addressLength input
      · rename_i failed
        split at failed <;> cases failed
        rintro _ ⟨rfl⟩
        exact ⟨rfl, rfl⟩

end Leaves

section Sequences

variable {decodeItem : Bytes → Decoded Value} {complete : Bool}

theorem decodeItems_blames (each : ∀ input, (decodeItem input).Blames complete) (count : Nat)
    (input : Bytes) : (decodeItems decodeItem count input).Blames complete := by
  induction count generalizing input with
  | zero => exact Decoded.blames_of_success
  | succ count ih =>
      cases failure : (decodeItem input).error with
      | some error =>
          rw [decodeItems_succ_of_error failure]
          rintro _ ⟨rfl⟩
          exact each input error failure
      | none =>
          rw [decodeItems_succ_of_success failure]
          exact (ih _).map _

theorem decodeToEnd_blames (each : ∀ input, (decodeItem input).Blames complete)
    (input : Bytes) : (decodeToEnd decodeItem input).Blames complete := by
  fun_induction decodeToEnd decodeItem input with
  | case1 input empty => exact Decoded.blames_of_success
  | case2 input nonempty first error failure =>
      rintro _ ⟨rfl⟩
      exact each input error failure
  | case3 input nonempty first done progress ih => exact ih.map _
  | case4 input nonempty first done stuck => exact Decoded.blames_of_success

/-- Fields that fail blame the input, or the field whose target is not complete. -/
theorem decodeFields_blames {maxLength : Nat} {fields : Fields}
    (each : ∀ field ∈ fields, ∀ input,
      (field.2.decode maxLength .nested input).Blames field.2.isComplete) (input : Bytes) :
    (decodeFields maxLength fields input).Blames (fieldsAreComplete fields) := by
  induction fields generalizing input with
  | nil => exact Decoded.blames_of_success
  | cons field fields ih =>
      rw [List.forall_mem_cons] at each
      rw [fieldsAreComplete]
      cases failure : (field.2.decode maxLength .nested input).error with
      | some error =>
          rw [decodeFields_cons_of_error failure]
          rintro _ ⟨rfl⟩
          refine (each.1 input error failure).imp id ?_
          rintro ⟨ofTarget, incomplete⟩
          exact ⟨ofTarget, by rw [incomplete, Bool.false_and]⟩
      | none =>
          rw [decodeFields_cons_of_success failure]
          intro error failed
          refine (ih each.2 _ error failed).imp id ?_
          rintro ⟨ofTarget, incomplete⟩
          exact ⟨ofTarget, by rw [incomplete, Bool.and_false]⟩

end Sequences

theorem decode_absent_blames (maxLength : Nat) (context : Context) (input : Bytes) :
    (absent.decode maxLength context input).Blames false := by
  cases input with
  | nil =>
      cases context with
      | nested => exact Decoded.blames_of_input rfl
      | topLevel => exact Decoded.blames_of_success
  | cons presence rest =>
      intro error failed
      rw [decode_absent_cons] at failed
      split at failed <;> cases failed
      exact Or.inr ⟨rfl, rfl⟩

/-- Decoding into a complete target fails only on account of the input. -/
theorem decode_blames (maxLength : Nat) (target : Value) (context : Context) (input : Bytes) :
    (target.decode maxLength context input).Blames target.isComplete := by
  induction target generalizing context input with
  | bool value =>
      rw [decode]
      exact (readBool_failsAlone context input).blamesInput.fill _ _
  | int type word =>
      rw [decode]
      exact (readInt_failsAlone type context input).blamesInput.fill _ _
  | natural value =>
      rw [decode]
      exact (readPayload_failsAlone maxLength context input).blamesInput.fill _ _
  | integer value =>
      rw [decode]
      exact (readPayload_failsAlone maxLength context input).blamesInput.fill _ _
  | text content =>
      rw [decode]
      refine ((readPayload_failsAlone maxLength context input).check ?_).blamesInput.fill _ _
      exact fun _ _ => textOfBytes_failsAlone
  | bytes content =>
      rw [decode]
      exact (readPayload_failsAlone maxLength context input).blamesInput.fill _ _
  | address content =>
      rw [decode]
      exact (readAddress_failsAlone context input).blamesInput.fill _ _
  | absent => exact decode_absent_blames maxLength context input
  | present content ih =>
      cases input with
      | nil =>
          cases context with
          | nested => exact Decoded.blames_of_input rfl
          | topLevel => exact Decoded.blames_of_success
      | cons presence rest =>
          rw [decode_present_cons]
          split
          · exact Decoded.blames_of_success
          · exact (ih .nested rest).map present
  | list items _ =>
      rw [decode]
      rintro _ ⟨rfl⟩
      exact Or.inr ⟨rfl, rfl⟩
  | outputList items template _ ih =>
      cases template with
      | none =>
          rw [decode]
          rintro _ ⟨rfl⟩
          exact Or.inr ⟨rfl, rfl⟩
      | some template =>
          cases context with
          | nested =>
              cases counted : (Bytes.readBoundedLength maxLength input).result with
              | error error =>
                  rw [decode_outputList_of_error counted]
                  exact Decoded.blames_of_input
                    (Bytes.readBoundedLength_failsAlone maxLength input error counted).1
              | ok count =>
                  rw [decode_outputList_of_count counted]
                  exact (decodeItems_blames (ih template rfl .nested) count _).map _
          | topLevel =>
              rw [decode]
              exact (decodeToEnd_blames (ih template rfl .nested) input).map _
  | struct fields ih =>
      rw [decode]
      exact (decodeFields_blames (fun field mem => ih field mem .nested) input).map _
  | enum discriminant fields ih =>
      cases input with
      | nil =>
          cases context with
          | nested => exact Decoded.blames_of_input rfl
          | topLevel => exact Decoded.blames_of_success
      | cons first rest =>
          rw [decode_enum_cons]
          exact (decodeFields_blames (fun field mem => ih field mem .nested) rest).map _

/-- A decoder does not report the failure of a stream. -/
theorem decode_error_ne_io (maxLength : Nat) (target : Value) (context : Context) (input : Bytes)
    (failure : IoFailure) :
    (target.decode maxLength context input).error ≠ some (.io failure) := by
  intro failed
  rcases decode_blames maxLength target context input _ failed with impossible | ⟨impossible, _⟩
  · cases impossible
  · cases impossible

theorem decodePayload_error_ne_io (maxLength : Nat) (target : Value) (payload : Bytes)
    (failure : IoFailure) : (target.decodePayload maxLength payload).2 ≠ some (.io failure) := by
  have known := decode_error_ne_io maxLength target .topLevel payload failure
  rcases decoded : target.decode maxLength .topLevel payload with ⟨found, rest, _ | error⟩
  · simp only [decodePayload, decoded]
    cases rest <;> rintro ⟨⟩
  · rw [decoded] at known
    simpa only [decodePayload, decoded] using known

end Value

end ContractAbi
