import ContractAbi.Proofs.Codec.Decoding
import ContractAbi.Proofs.Codec.Shape

/-!
# What decoding does not look at

A decoder reads the shape of its target and not what the target holds.  Two targets of
one shape lead to the same outcome: the same value if decoding succeeds, and otherwise
the same error, with targets that still differ only in what had been there before.
-/

namespace ContractAbi

namespace Value

mutual

/-- Targets that differ at most in the contents of leaves, in discriminants, and in the
items that output lists hold. -/
inductive Alike : Value → Value → Prop where
  | bool (value old) : Alike (bool value) (bool old)
  | int (type word old) : Alike (int type word) (int type old)
  | natural (value old) : Alike (natural value) (natural old)
  | integer (value old) : Alike (integer value) (integer old)
  | text (content old) : Alike (text content) (text old)
  | bytes (content old) : Alike (bytes content) (bytes old)
  | address (content old) : Alike (address content) (address old)
  | absent : Alike absent absent
  | present {content old} : Alike content old → Alike (present content) (present old)
  | list {items old} : List.Forall₂ Alike items old → Alike (list items) (list old)
  | outputList (items old template) : Alike (outputList items template) (outputList old template)
  | struct {fields olds} : FieldsAlike fields olds → Alike (struct fields) (struct olds)
  | enum {fields olds} (discriminant old) : FieldsAlike fields olds →
      Alike (enum discriminant fields) (enum old olds)

/-- Fields of the same names with alike targets. -/
inductive FieldsAlike : Fields → Fields → Prop where
  | nil : FieldsAlike [] []
  | cons {target old fields olds} (name) : Alike target old → FieldsAlike fields olds →
      FieldsAlike ((name, target) :: fields) ((name, old) :: olds)

end

theorem fieldsAlike_of_refl {fields : Fields} (each : ∀ field ∈ fields, field.2.Alike field.2) :
    FieldsAlike fields fields := by
  induction fields with
  | nil => exact .nil
  | cons field fields ih =>
      rw [List.forall_mem_cons] at each
      exact .cons field.1 each.1 (ih each.2)

theorem Alike.refl (target : Value) : target.Alike target := by
  induction target with
  | bool value => exact .bool _ _
  | int type word => exact .int _ _ _
  | natural value => exact .natural _ _
  | integer value => exact .integer _ _
  | text content => exact .text _ _
  | bytes content => exact .bytes _ _
  | address content => exact .address _ _
  | absent => exact .absent
  | present content ih => exact .present ih
  | list items ih => exact .list (List.forall₂_same.2 ih)
  | outputList items template _ _ => exact .outputList _ _ _
  | struct fields ih => exact .struct (fieldsAlike_of_refl ih)
  | enum discriminant fields ih => exact .enum _ _ (fieldsAlike_of_refl ih)

theorem FieldsAlike.refl (fields : Fields) : FieldsAlike fields fields :=
  fieldsAlike_of_refl fun field _ => .refl field.2

end Value

namespace Decoded

variable {α β : Type} {related : α → α → Prop}

/-- Two outcomes with the same error and the same input left over.  The targets are equal
after a success, and related after a failure. -/
structure Agrees (related : α → α → Prop) (one other : Decoded α) : Prop where
  rest : one.rest = other.rest
  error : one.error = other.error
  success : one.error = none → one.target = other.target
  failure : one.error ≠ none → related one.target other.target

theorem Agrees.refl (reflexive : ∀ target, related target target) (decoded : Decoded α) :
    decoded.Agrees related decoded :=
  ⟨rfl, rfl, fun _ => rfl, fun _ => reflexive decoded.target⟩

theorem agrees_of_failure {one other : α} {rest : Bytes} {error : CodecError}
    (targets : related one other) :
    (⟨one, rest, some error⟩ : Decoded α).Agrees related ⟨other, rest, some error⟩ :=
  ⟨rfl, rfl, nofun, fun _ => targets⟩

theorem Agrees.map {relatedMap : β → β → Prop} {one other : Decoded α}
    (agrees : one.Agrees related other) (f : α → β)
    (keeps : ∀ target old, related target old → relatedMap (f target) (f old)) :
    (one.map f).Agrees relatedMap (other.map f) := by
  refine ⟨agrees.rest, agrees.error, ?_, ?_⟩
  · intro done
    exact congrArg f (agrees.success done)
  · intro failed
    exact keeps _ _ (agrees.failure failed)

end Decoded

theorem Read.agrees_fill {α β : Type} {related : β → β → Prop} {one other : β}
    (targets : related one other) (read : Read α) (build : α → β) :
    (read.fill one build).Agrees related (read.fill other build) := by
  rcases read with ⟨error | value, rest⟩
  · exact Decoded.agrees_of_failure targets
  · exact ⟨rfl, rfl, fun _ => rfl, fun failed => absurd rfl failed⟩

namespace Value

/-- Fields with targets that are alike are read alike, and are alike after a failure. -/
theorem decodeFields_agrees {maxLength : Nat} {fields olds : Fields}
    (alike : FieldsAlike fields olds)
    (each : ∀ field ∈ fields, ∀ old, field.2.Alike old → ∀ input,
      (field.2.decode maxLength .nested input).Agrees Alike
        (old.decode maxLength .nested input)) (input : Bytes) :
    (decodeFields maxLength fields input).Agrees FieldsAlike
      (decodeFields maxLength olds input) := by
  induction fields generalizing olds input with
  | nil =>
      cases alike
      exact .refl FieldsAlike.refl _
  | cons field fields ih =>
      cases alike with
      | @cons target old _ olds name head tail =>
          rw [List.forall_mem_cons] at each
          have first := each.1 old head input
          cases failure : (target.decode maxLength .nested input).error with
          | some error =>
              have failureToo := first.error.symm.trans failure
              rw [decodeFields_cons_of_error failure, decodeFields_cons_of_error failureToo,
                first.rest]
              apply Decoded.agrees_of_failure
              exact .cons name (first.failure (by simp [failure])) tail
          | none =>
              have doneToo := first.error.symm.trans failure
              rw [decodeFields_cons_of_success failure, decodeFields_cons_of_success doneToo,
                first.rest, first.success failure]
              apply (ih tail each.2 _).map
              exact fun _ _ => .cons name (.refl _)

/-- Alike targets take the same bytes and come to the same end. -/
theorem decode_agrees {maxLength : Nat} {target old : Value} (alike : target.Alike old)
    (context : Context) (input : Bytes) :
    (target.decode maxLength context input).Agrees Alike
      (old.decode maxLength context input) := by
  induction target generalizing old context input with
  | bool _ | int _ _ | natural _ | integer _ | text _ | bytes _ | address _ =>
      cases alike
      rw [decode, decode]
      exact Read.agrees_fill (by constructor) _ _
  | absent =>
      cases alike
      exact .refl Alike.refl _
  | present content ih =>
      cases alike with
      | @present _ other inner =>
          cases input with
          | nil =>
              cases context with
              | nested => exact Decoded.agrees_of_failure (.present inner)
              | topLevel => exact .refl Alike.refl _
          | cons presence rest =>
              rw [decode_present_cons, decode_present_cons]
              split
              · exact .refl Alike.refl _
              · exact (ih inner .nested rest).map Value.present fun _ _ => Alike.present
  | list items _ =>
      cases alike with
      | list others =>
          rw [decode, decode]
          exact Decoded.agrees_of_failure (.list others)
  | outputList items template _ _ =>
      cases alike with
      | outputList _ old =>
          cases template with
          | none =>
              rw [decode, decode]
              exact Decoded.agrees_of_failure (.outputList _ _ _)
          | some template =>
              cases context with
              | nested =>
                  cases counted : (Bytes.readBoundedLength maxLength input).result with
                  | error error =>
                      rw [decode_outputList_of_error counted, decode_outputList_of_error counted]
                      exact Decoded.agrees_of_failure (.outputList _ _ _)
                  | ok count =>
                      rw [decode_outputList_of_count counted, decode_outputList_of_count counted]
                      exact .refl Alike.refl _
              | topLevel =>
                  rw [decode, decode]
                  exact .refl Alike.refl _
  | struct fields ih =>
      cases alike with
      | struct others =>
          rw [decode, decode]
          have each (field) (mem : field ∈ fields) (other) (alike : field.2.Alike other) :=
            ih field mem alike .nested
          exact (decodeFields_agrees others each input).map struct fun _ _ => Alike.struct
  | enum discriminant fields ih =>
      cases alike with
      | enum _ old others =>
          cases input with
          | nil =>
              cases context with
              | nested => exact Decoded.agrees_of_failure (.enum _ _ others)
              | topLevel => exact .refl Alike.refl _
          | cons first rest =>
              rw [decode_enum_cons, decode_enum_cons]
              have each (field) (mem : field ∈ fields) (other) (alike : field.2.Alike other) :=
                ih field mem alike .nested
              exact (decodeFields_agrees others each rest).map (Value.enum first)
                fun _ _ => Alike.enum first first

/-- So are whole payloads, with bytes left over as one more failure. -/
theorem decodePayload_agrees {maxLength : Nat} {target old : Value} (alike : target.Alike old)
    (payload : Bytes) :
    (target.decodePayload maxLength payload).2 = (old.decodePayload maxLength payload).2 ∧
      ((target.decodePayload maxLength payload).2 = none →
        target.decodePayload maxLength payload = old.decodePayload maxLength payload) ∧
      (target.decodePayload maxLength payload).1.Alike
        (old.decodePayload maxLength payload).1 := by
  have agrees : (target.decode maxLength .topLevel payload).Agrees Alike
      (old.decode maxLength .topLevel payload) := decode_agrees alike .topLevel payload
  cases failed : (target.decode maxLength .topLevel payload).error with
  | some error =>
      have failedToo := agrees.error.symm.trans failed
      have targets := agrees.failure (by simp [failed])
      simp only [decodePayload, failed, failedToo]
      exact ⟨trivial, nofun, targets⟩
  | none =>
      have same : target.decodePayload maxLength payload = old.decodePayload maxLength payload := by
        simp only [decodePayload, ← agrees.error, failed, agrees.rest, agrees.success failed]
      rw [same]
      exact ⟨rfl, fun _ => rfl, .refl _⟩

/-- Decoding takes no notice of what its target held before, in either context and also as
a whole payload.  Alike targets leave the same input and report the same error; they hold
the same value after a success, and are still alike after a failure. -/
theorem decode_alike {target old : Value} (alike : target.Alike old) (maxLength : Nat) :
    (∀ context input, (target.decode maxLength context input).Agrees Alike
        (old.decode maxLength context input)) ∧
      ∀ payload,
        (target.decodePayload maxLength payload).2 = (old.decodePayload maxLength payload).2 ∧
          ((target.decodePayload maxLength payload).2 = none →
            target.decodePayload maxLength payload = old.decodePayload maxLength payload) ∧
          (target.decodePayload maxLength payload).1.Alike
            (old.decodePayload maxLength payload).1 :=
  ⟨decode_agrees alike, decodePayload_agrees alike⟩

/-- An order that was used before and a fresh one, with a whole input and with one that is
cut in the marks. -/
theorem decode_alike_order :
    let used := struct [("memo", present (text "old")), ("kind", enum 7 []),
      ("marks", outputList [bool true] (some (int .u16 0)))]
    let fresh := struct [("memo", present (text "")), ("kind", enum 0 []),
      ("marks", outputList [] (some (int .u16 0)))]
    let whole := [1, 0, 0, 0, 1, 104, 3, 0, 0, 0, 1, 0, 7]
    let cut := [0, 3, 0, 0]
    used.Alike fresh ∧
      ((used.decode 9 .nested whole).error = none ∧
        (used.decode 9 .nested whole).target = (fresh.decode 9 .nested whole).target) ∧
      ((used.decode 9 .nested cut).error = some (.field "marks" (.shortRead 4 2)) ∧
        (used.decode 9 .nested cut).Agrees Alike (fresh.decode 9 .nested cut)) ∧
      (used.decodePayload 9 cut).1.Alike (fresh.decodePayload 9 cut).1 := by
  intro used fresh whole cut
  have alike : used.Alike fresh :=
    .struct (.cons "memo" (.present (.text _ _)) (.cons "kind" (.enum _ _ .nil)
      (.cons "marks" (.outputList _ _ _) .nil)))
  have done : (used.decode 9 .nested whole).error = none := by rfl
  have failed : (used.decode 9 .nested cut).error = some (.field "marks" (.shortRead 4 2)) := by
    rfl
  rcases decode_alike alike 9 with ⟨agrees, payload⟩
  exact ⟨alike, ⟨done, (agrees .nested whole).success done⟩, ⟨failed, agrees .nested cut⟩,
    (payload cut).2.2⟩

end Value

end ContractAbi
