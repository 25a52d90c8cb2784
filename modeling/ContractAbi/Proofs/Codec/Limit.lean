import ContractAbi.Proofs.Codec.Consumed
import ContractAbi.Proofs.Codec.Payload

/-!
# The maximum of length prefixes

A decoder looks at its maximum only when it has read a length prefix.  Unless it refuses
one, it would do the same under any higher maximum, and what it accepts has no prefix
above its own.  The outermost value of a whole payload has no prefix and may be longer.
-/

namespace ContractAbi

/-- Whether the error says that a length prefix is above the maximum. -/
def CodecError.isLengthExceeded (error : CodecError) : Bool :=
  match error.root with
  | .lengthExceeded _ _ => true
  | _ => false

namespace Read

variable {α β : Type} {lower higher : Read α}

/-- The read ended at a length prefix above the maximum. -/
def Refused (read : Read α) : Prop :=
  ∃ error, read.result = .error error ∧ error.isLengthExceeded = true

/-- What a higher maximum makes of a read: the same, unless the read was refused. -/
def Relaxes (higher lower : Read α) : Prop :=
  lower.Refused ∨ higher = lower

theorem Relaxes.check (relaxes : higher.Relaxes lower) (f : α → Except CodecError β) :
    (higher.check f).Relaxes (lower.check f) := by
  rcases relaxes with ⟨error, failed, exceeded⟩ | rfl
  · exact Or.inl ⟨error, by rw [Read.check, failed, Except.bind], exceeded⟩
  · exact Or.inr rfl

theorem Relaxes.andThen (relaxes : higher.Relaxes lower) (next : α → Bytes → Read β) :
    (higher.andThen next).Relaxes (lower.andThen next) := by
  rcases relaxes with ⟨error, failed, exceeded⟩ | rfl
  · exact Or.inl ⟨error, by simp only [Read.andThen, failed], exceeded⟩
  · exact Or.inr rfl

end Read

namespace Bytes

variable {limit other : Nat}

theorem readBoundedLength_relaxes (raised : limit ≤ other) (input : Bytes) :
    (readBoundedLength other input).Relaxes (readBoundedLength limit input) := by
  rw [readBoundedLength, readBoundedLength]
  rcases readLength input with ⟨error | length, rest⟩
  · exact Or.inr rfl
  · simp only [Read.check, Except.bind]
    by_cases small : length ≤ limit
    · rw [if_pos small, if_pos (Nat.le_trans small raised)]
      exact Or.inr rfl
    · rw [if_neg small]
      exact Or.inl ⟨_, rfl, rfl⟩

theorem readPrefixed_relaxes (raised : limit ≤ other) (input : Bytes) :
    (readPrefixed other input).Relaxes (readPrefixed limit input) :=
  (readBoundedLength_relaxes raised input).andThen readExact

end Bytes

namespace Decoded

variable {α β : Type} {lower higher : Decoded α}

/-- Decoding ended at a length prefix above the maximum. -/
def Refused (decoded : Decoded α) : Prop :=
  ∃ error, decoded.error = some error ∧ error.isLengthExceeded = true

/-- What a higher maximum makes of an outcome: the same, unless it was refused. -/
def Relaxes (higher lower : Decoded α) : Prop :=
  lower.Refused ∨ higher = lower

theorem Relaxes.map (relaxes : higher.Relaxes lower) (f : α → β) :
    (higher.map f).Relaxes (lower.map f) := by
  rcases relaxes with refused | rfl
  · exact Or.inl refused
  · exact Or.inr rfl

end Decoded

theorem Read.Relaxes.fill {α β : Type} {lower higher : Read α} (relaxes : higher.Relaxes lower)
    (target : β) (build : α → β) :
    (higher.fill target build).Relaxes (lower.fill target build) := by
  rcases relaxes with ⟨error, failed, exceeded⟩ | rfl
  · exact Or.inl ⟨error, by simp only [Read.fill, failed], exceeded⟩
  · exact Or.inr rfl

namespace Value

section Sequences

variable {lower higher : Bytes → Decoded Value}

theorem decodeItems_relaxes (each : ∀ input, (higher input).Relaxes (lower input)) (count : Nat)
    (input : Bytes) : (decodeItems higher count input).Relaxes (decodeItems lower count input) := by
  induction count generalizing input with
  | zero => exact Or.inr rfl
  | succ count ih =>
      rcases each input with ⟨error, failed, exceeded⟩ | same
      · rw [decodeItems_succ_of_error failed]
        exact Or.inl ⟨error, rfl, exceeded⟩
      · cases failure : (lower input).error with
        | some error =>
            rw [decodeItems_succ_of_error failure,
              decodeItems_succ_of_error (by rw [same, failure]), same]
            exact Or.inr rfl
        | none =>
            rw [decodeItems_succ_of_success failure,
              decodeItems_succ_of_success (by rw [same, failure]), same]
            exact (ih (lower input).rest).map _

/-- Items that relax make a list without a count relax, since the loop goes on alike behind equal
items. -/
theorem decodeToEnd_relaxes (each : ∀ input, (higher input).Relaxes (lower input))
    (input : Bytes) : (decodeToEnd higher input).Relaxes (decodeToEnd lower input) := by
  fun_induction decodeToEnd lower input with
  | case1 input empty =>
      rw [List.isEmpty_iff.1 empty, decodeToEnd_nil]
      exact Or.inr rfl
  | case2 input nonempty first error failed =>
      rcases each input with ⟨other, refused, exceeded⟩ | same
      · rw [failed] at refused
        cases refused
        exact Or.inl ⟨error, rfl, exceeded⟩
      · rw [decodeToEnd_of_error (by simpa using nonempty) (by rw [same]; exact failed), same]
        exact Or.inr rfl
  | case3 input nonempty first done progress ih =>
      rcases each input with ⟨other, refused, exceeded⟩ | same
      · rw [done] at refused
        cases refused
      · rw [decodeToEnd_of_progress (by rw [same]; exact done) (by rw [same]; exact progress), same]
        exact ih.map _
  | case4 input nonempty first done stuck =>
      rcases each input with ⟨other, refused, exceeded⟩ | same
      · rw [done] at refused
        cases refused
      · rw [decodeToEnd_of_stuck (by simpa using nonempty) (by rw [same]; exact done)
          (by rw [same]; exact stuck), same]
        exact Or.inr rfl

end Sequences

section Targets

variable {limit other : Nat}

theorem readPayload_relaxes (raised : limit ≤ other) (context : Context) (input : Bytes) :
    (readPayload other context input).Relaxes (readPayload limit context input) := by
  cases context with
  | nested => exact Bytes.readPrefixed_relaxes raised input
  | topLevel => exact Or.inr rfl

/-- A target decodes the same under a higher limit, unless it refuses a length. -/
def RelaxesTo (limit other : Nat) (target : Value) : Prop :=
  ∀ context input, (target.decode other context input).Relaxes (target.decode limit context input)

theorem decodeFields_relaxes {fields : Fields}
    (each : ∀ field ∈ fields, field.2.RelaxesTo limit other) (input : Bytes) :
    (decodeFields other fields input).Relaxes (decodeFields limit fields input) := by
  induction fields generalizing input with
  | nil => exact Or.inr rfl
  | cons field fields ih =>
      rw [List.forall_mem_cons] at each
      rcases each.1 .nested input with ⟨error, failed, exceeded⟩ | same
      · rw [decodeFields_cons_of_error failed]
        exact Or.inl ⟨.field field.1 error, rfl, exceeded⟩
      · cases failure : (field.2.decode limit .nested input).error with
        | some error =>
            rw [decodeFields_cons_of_error failure,
              decodeFields_cons_of_error (by rw [same, failure]), same]
            exact Or.inr rfl
        | none =>
            rw [decodeFields_cons_of_success failure,
              decodeFields_cons_of_success (by rw [same, failure]), same]
            exact (ih each.2 _).map _

/-- Only a refused length makes a difference between two limits. -/
theorem decode_relaxes (raised : limit ≤ other) (target : Value) :
    target.RelaxesTo limit other := by
  induction target with
  | natural value =>
      intro context input
      simp only [decode]
      exact (readPayload_relaxes raised context input).fill _ _
  | integer value =>
      intro context input
      simp only [decode]
      exact (readPayload_relaxes raised context input).fill _ _
  | text content =>
      intro context input
      simp only [decode]
      exact ((readPayload_relaxes raised context input).check textOfBytes).fill _ _
  | bytes content =>
      intro context input
      simp only [decode]
      exact (readPayload_relaxes raised context input).fill _ _
  | absent =>
      intro context input
      cases context <;> cases input <;> exact Or.inr (by simp only [decode])
  | present content ih =>
      intro context input
      cases input with
      | nil => cases context <;> exact Or.inr (by simp only [decode])
      | cons presence rest =>
          rw [decode_present_cons, decode_present_cons]
          split
          · exact Or.inr rfl
          · exact (ih .nested rest).map _
  | outputList items template _ ih =>
      intro context input
      cases template with
      | none => exact Or.inr (by simp only [decode])
      | some template =>
          have each := ih template rfl .nested
          cases context with
          | topLevel =>
              simp only [decode]
              exact (decodeToEnd_relaxes each input).map _
          | nested =>
              rcases Bytes.readBoundedLength_relaxes raised input with
                ⟨error, failed, exceeded⟩ | same
              · rw [decode_outputList_of_error failed]
                exact Or.inl ⟨error, rfl, exceeded⟩
              · cases counted : (Bytes.readBoundedLength limit input).result with
                | error error =>
                    rw [decode_outputList_of_error counted,
                      decode_outputList_of_error (by rw [same, counted]), same]
                    exact Or.inr rfl
                | ok count =>
                    rw [decode_outputList_of_count counted,
                      decode_outputList_of_count (by rw [same, counted]), same]
                    exact (decodeItems_relaxes each count _).map _
  | struct fields ih =>
      intro context input
      simp only [decode]
      exact (decodeFields_relaxes ih input).map struct
  | enum discriminant fields ih =>
      intro context input
      cases input with
      | nil => cases context <;> exact Or.inr (by simp only [decode])
      | cons first rest =>
          rw [decode_enum_cons, decode_enum_cons]
          exact (decodeFields_relaxes ih rest).map _
  | _ =>
      -- The other leaves and the lists without a template read no length.
      intro context input
      exact Or.inr (by simp only [decode])

/-- A higher limit changes nothing unless the payload was refused for a length. -/
theorem decodePayload_relaxes (raised : limit ≤ other) (target : Value) (payload : Bytes) :
    (∃ error, (target.decodePayload limit payload).2 = some error ∧
        error.isLengthExceeded = true) ∨
      target.decodePayload other payload = target.decodePayload limit payload := by
  rcases decode_relaxes raised target .topLevel payload with ⟨error, failed, exceeded⟩ | same
  · exact Or.inl ⟨error, by simp only [decodePayload, failed], exceeded⟩
  · exact Or.inr (by simp only [decodePayload, same])

end Targets

section Prefixes

variable {limit : Nat} {target value : Value} {rest : Bytes}

/-- A whole payload has the prefixes of the nested form, less the outermost. -/
theorem prefixes_topLevel_subset (value : Value) :
    value.prefixes .topLevel ⊆ value.prefixes .nested := by
  cases value <;> simp [prefixes]

/-- No length that was read exceeds the limit. -/
theorem prefixes_le_of_decode_nested {input : Bytes}
    (decoded : target.decode limit .nested input = ⟨value, rest, none⟩) :
    ∀ length ∈ value.prefixes .nested, length ≤ limit := by
  rcases readsWhatItDecodes limit target input value rest decoded with ⟨_, _, reads⟩
  exact reads.short

/-- Every item up to the end was decoded, also when the list has stopped early. -/
theorem decoded_of_mem_decodeToEnd {decodeItem : Bytes → Decoded Value} {input : Bytes}
    {item : Value} (mem : item ∈ (decodeToEnd decodeItem input).target) :
    ∃ start after, decodeItem start = ⟨item, after, none⟩ := by
  fun_induction decodeToEnd decodeItem input with
  | case1 input empty => cases mem
  | case2 input nonempty first error failed => cases mem
  | case3 input nonempty first done progress ih =>
      rcases List.mem_cons.1 mem with rfl | later
      · exact ⟨input, first.rest, by rw [← done]⟩
      · exact ih later
  | case4 input nonempty first done stuck => cases mem

/-- No length that was read with a whole payload exceeds the limit.  The items of a list are read
within a value there, though the list has no count of its own. -/
theorem prefixes_le_of_decode_topLevel {payload : Bytes}
    (decoded : target.decode limit .topLevel payload = ⟨value, rest, none⟩) :
    ∀ length ∈ value.prefixes .topLevel, length ≤ limit := by
  have of_nested (nested : target.decode limit .nested payload = ⟨value, rest, none⟩) :
      ∀ length ∈ value.prefixes .topLevel, length ≤ limit := by
    intro length mem
    exact prefixes_le_of_decode_nested nested length (prefixes_topLevel_subset value mem)
  cases target with
  | present content =>
      cases payload with
      | nil =>
          cases decoded
          simp [prefixes]
      | cons presence others =>
          exact of_nested (by rwa [← decode_present_topLevel (List.cons_ne_nil _ _)])
  | enum discriminant fields =>
      cases payload with
      | nil =>
          cases decoded
          simp [prefixes, prefixesOfFields]
      | cons first others =>
          exact of_nested (by rwa [← decode_enum_topLevel (List.cons_ne_nil _ _)])
  | struct fields => exact of_nested (by simpa only [decode] using decoded)
  | outputList items template =>
      cases template with
      | none => simp [decode] at decoded
      | some template =>
          simp only [decode] at decoded
          rcases Decoded.map_eq_success decoded with ⟨found, itemsDecoded, rfl⟩
          rw [prefixes, forall_mem_prefixesOfItems]
          intro item mem
          have kept : item ∈
              (decodeToEnd (template.decode limit .nested) payload).target := by
            rwa [itemsDecoded]
          rcases decoded_of_mem_decodeToEnd kept with ⟨start, after, itemDecoded⟩
          exact prefixes_le_of_decode_nested itemDecoded
  | list items => simp [decode] at decoded
  | absent =>
      cases payload with
      | nil =>
          cases decoded
          simp [prefixes]
      | cons presence others =>
          rw [decode_absent_cons, Decoded.mk.injEq] at decoded
          rcases decoded with ⟨rfl, _, _⟩
          simp [prefixes]
  | _ =>
      rcases Read.fill_eq_success (by rwa [decode] at decoded) with ⟨found, _, rfl⟩
      simp [prefixes]

end Prefixes

/-- The maximum is enforced at each length prefix and matters nowhere else.  An outcome that
is not refused stands under every higher maximum, with the target and the bytes that it
leaves; and no text, byte string, list or number inside a decoded value is longer than the
maximum. -/
theorem decode_under_limit {limit other : Nat} (raised : limit ≤ other) (target : Value) :
    (∀ context input,
        (∀ error, (target.decode limit context input).error = some error →
          error.isLengthExceeded = false) →
        target.decode other context input = target.decode limit context input) ∧
      (∀ payload,
        (∀ error, (target.decodePayload limit payload).2 = some error →
          error.isLengthExceeded = false) →
        target.decodePayload other payload = target.decodePayload limit payload) ∧
      ∀ context input value rest,
        target.decode limit context input = ⟨value, rest, none⟩ →
        ∀ length ∈ value.prefixes context, length ≤ limit := by
  refine ⟨?_, ?_, ?_⟩
  · intro context input accepted
    rcases decode_relaxes raised target context input with ⟨error, failed, exceeded⟩ | same
    · rw [accepted error failed] at exceeded
      cases exceeded
    · exact same
  · intro payload accepted
    rcases decodePayload_relaxes raised target payload with ⟨error, failed, exceeded⟩ | same
    · rw [accepted error failed] at exceeded
      cases exceeded
    · exact same
  · intro context input value rest decoded
    cases context with
    | nested => exact prefixes_le_of_decode_nested decoded
    | topLevel => exact prefixes_le_of_decode_topLevel decoded

/-- With two bytes allowed, a short read and an order are the same as with three; a memo of
three bytes is refused. -/
theorem decode_under_limit_order :
    let target := struct [("memo", bytes []), ("marks", outputList [] (some (natural 0)))]
    let marks := outputList [natural 7] (some (natural 0))
    let value := struct [("memo", bytes [8, 9]), ("marks", marks)]
    let payload := [0, 0, 0, 2, 8, 9, 0, 0, 0, 1, 0, 0, 0, 2, 0, 7]
    let cut := payload.take 13
    let longer := [0, 0, 0, 3, 8, 9, 9, 0, 0, 0, 0]
    2 ≤ 3 ∧ target.decode 2 .topLevel payload = ⟨value, [], none⟩ ∧
      target.decodePayload 3 payload = target.decodePayload 2 payload ∧
      target.decode 3 .nested cut = target.decode 2 .nested cut ∧
      (∀ length ∈ value.prefixes .topLevel, length ≤ 2) ∧
      (target.decode 2 .nested longer).error = some (.field "memo" (.lengthExceeded 3 2)) ∧
      (target.decode 3 .nested longer).error = none := by
  intro target marks value payload cut longer
  have raised : 2 ≤ 3 := by decide
  have decoded : target.decode 2 .topLevel payload = ⟨value, [], none⟩ := by cbv
  have whole := decodePayload_of_decode decoded
  have stopped : (target.decode 2 .nested cut).error =
      some (.field "marks" (.shortRead 4 3)) := by cbv
  rcases decode_under_limit raised target with ⟨outcomes, payloads, short⟩
  refine ⟨raised, decoded, payloads payload ?_, outcomes .nested cut ?_,
    short .topLevel payload value [] decoded, rfl, rfl⟩
  · intro error failed
    rw [whole] at failed
    cases failed
  · intro error failed
    rw [stopped] at failed
    cases failed
    rfl

end Value

end ContractAbi
