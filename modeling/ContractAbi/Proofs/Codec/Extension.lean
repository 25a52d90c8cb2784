import ContractAbi.Proofs.Codec.Decoding
import ContractAbi.Proofs.Codec.Shape

/-!
# Decoding when more input arrives

A nested decoder looks at no byte beyond the value, so an outcome other than a
short read stands when bytes are added at the end.  Decoding again after more
input has arrived needs nothing that the first pass has overwritten: a leaf takes
a new content only when it was complete, a list starts from its template again,
and an option that became absent finds the same presence byte.
-/

namespace ContractAbi

/-- Whether the error says that the input ended too early. -/
def CodecError.isShortRead (error : CodecError) : Bool :=
  match error.root with
  | .shortRead _ _ => true
  | _ => false

namespace Read

variable {α β : Type}

/-- The same read with more bytes left over. -/
def followedBy (read : Read α) (more : Bytes) : Read α :=
  ⟨read.result, read.rest ++ more⟩

/-- More input cannot change what was read. -/
def Settled (read : Read α) : Prop :=
  ∀ error, read.result = .error error → error.isShortRead = false

theorem settled_of_success {read : Read α} {value : α} (success : read.result = .ok value) :
    read.Settled := by
  intro error failed
  rw [success] at failed
  cases failed

/-- A read that looks at no byte beyond those it takes. -/
def Stable (read : Bytes → Read α) : Prop :=
  ∀ input more, (read input).Settled → read (input ++ more) = (read input).followedBy more

theorem Stable.map {read : Bytes → Read α} (stable : Stable read) (f : α → β) :
    Stable fun input => (read input).map f := by
  intro input more settled
  have same : (read input).Settled := by
    intro error failed
    exact settled error (by simp only [Read.map, failed, Except.map])
  simp only [stable input more same, Read.map, followedBy]

theorem Stable.check {read : Bytes → Read α} (stable : Stable read)
    (f : α → Except CodecError β) : Stable fun input => (read input).check f := by
  intro input more settled
  have same : (read input).Settled := by
    intro error failed
    exact settled error (by simp only [Read.check, failed, Except.bind])
  simp only [stable input more same, Read.check, followedBy]

theorem Stable.andThen {read : Bytes → Read α} {next : α → Bytes → Read β}
    (stable : Stable read) (nextStable : ∀ value, Stable (next value)) :
    Stable fun input => (read input).andThen next := by
  intro input more settled
  cases found : (read input).result with
  | error error =>
      have same : (read input).Settled := by
        intro other failed
        exact settled other (by simp only [Read.andThen, failed])
      simp only [stable input more same, Read.andThen, followedBy, found]
  | ok value =>
      have same := settled_of_success found
      have later : (next value (read input).rest).Settled := by
        intro other failed
        exact settled other (by simp only [Read.andThen, found, failed])
      have step := nextStable value (read input).rest more later
      simp only [stable input more same, Read.andThen, followedBy, found, step]

end Read

namespace Bytes

theorem readByte_stable : Read.Stable readByte := by
  intro input more settled
  cases input with
  | nil => cases settled _ rfl
  | cons byte rest => rfl

theorem readExact_stable (count : Nat) : Read.Stable (readExact count) := by
  intro input more settled
  by_cases enough : count ≤ input.length
  · have longer : count ≤ (input ++ more).length := by
      rw [List.length_append]
      omega
    simp only [readExact, List.length_take, Nat.min_eq_left enough,
      Nat.lt_irrefl, if_false, Read.followedBy, List.take_append_of_le_length enough,
      List.drop_append_of_le_length enough]
  · have short : (input.take count).length < count := by
      rw [List.length_take]
      omega
    have unsettled := settled (.shortRead count input.length) (by rw [readExact, if_pos short])
    cases unsettled

theorem readBoundedLength_stable (maxLength : Nat) : Read.Stable (readBoundedLength maxLength) :=
  ((readExact_stable lengthPrefixSize).map _).check _

theorem readPrefixed_stable (maxLength : Nat) : Read.Stable (readPrefixed maxLength) :=
  (readBoundedLength_stable maxLength).andThen readExact_stable

end Bytes

namespace Decoded

variable {α β : Type}

/-- The same outcome with more bytes left over. -/
def followedBy (decoded : Decoded α) (more : Bytes) : Decoded α :=
  ⟨decoded.target, decoded.rest ++ more, decoded.error⟩

/-- More input cannot change the outcome. -/
def Settled (decoded : Decoded α) : Prop :=
  ∀ error, decoded.error = some error → error.isShortRead = false

/-- A decoder whose settled outcomes stand when more input arrives. -/
def Stable (decoder : Bytes → Decoded α) : Prop :=
  ∀ input more, (decoder input).Settled →
    decoder (input ++ more) = (decoder input).followedBy more

theorem settled_of_success {decoded : Decoded α} (success : decoded.error = none) :
    decoded.Settled := by
  intro error failed
  rw [success] at failed
  cases failed

theorem Stable.map {decoder : Bytes → Decoded α} (stable : Stable decoder) (f : α → β) :
    Stable fun input => (decoder input).map f := by
  intro input more settled
  simp only [stable input more settled, Decoded.map, followedBy]

end Decoded

theorem Read.Stable.fill {α β : Type} {read : Bytes → Read α} (stable : Read.Stable read)
    (target : β) (build : α → β) :
    Decoded.Stable fun input => (read input).fill target build := by
  intro input more settled
  have same : (read input).Settled := by
    intro error failed
    exact settled error (by simp only [Read.fill, failed])
  simp only [stable input more same, Read.fill, Read.followedBy]
  split <;> rfl

namespace Value

/-- A sequence of items is decided by its bytes if each item is. -/
theorem decodeItems_stable {decodeItem : Bytes → Decoded Value}
    (stable : Decoded.Stable decodeItem) (count : Nat) :
    Decoded.Stable (decodeItems decodeItem count) := by
  induction count with
  | zero =>
      intro input more settled
      rfl
  | succ count ih =>
      intro input more settled
      cases failure : (decodeItem input).error with
      | some error =>
          rw [decodeItems_succ_of_error failure] at settled ⊢
          have same : (decodeItem input).Settled := by
            intro other failed
            rw [failure] at failed
            exact settled other failed
          have head := stable input more same
          rw [decodeItems_succ_of_error (by rw [head]; exact failure), head]
          rfl
      | none =>
          rw [decodeItems_succ_of_success failure] at settled ⊢
          have head := stable input more (Decoded.settled_of_success failure)
          have tail := ih (decodeItem input).rest more settled
          rw [decodeItems_succ_of_success (by rw [head]; exact failure), head]
          simp only [Decoded.followedBy, tail, Decoded.map]

/-- So are fields, each with a decoder of its own. -/
theorem decodeFields_stable {maxLength : Nat} {fields : Fields}
    (each : ∀ field ∈ fields, Decoded.Stable (field.2.decode maxLength .nested)) :
    Decoded.Stable (decodeFields maxLength fields) := by
  induction fields with
  | nil =>
      intro input more settled
      rfl
  | cons field fields ih =>
      rw [List.forall_mem_cons] at each
      intro input more settled
      cases failure : (field.2.decode maxLength .nested input).error with
      | some error =>
          rw [decodeFields_cons_of_error failure] at settled ⊢
          have same : (field.2.decode maxLength .nested input).Settled := by
            intro other failed
            rw [failure] at failed
            cases failed
            exact settled (.field field.1 error) rfl
          have head := each.1 input more same
          rw [decodeFields_cons_of_error (by rw [head]; exact failure), head]
          rfl
      | none =>
          rw [decodeFields_cons_of_success failure] at settled ⊢
          have head := each.1 input more (Decoded.settled_of_success failure)
          have tail := ih each.2 (field.2.decode maxLength .nested input).rest more settled
          rw [decodeFields_cons_of_success (by rw [head]; exact failure), head]
          simp only [Decoded.followedBy, tail, Decoded.map]

theorem readBool_stable : Read.Stable (readBool .nested) :=
  Bytes.readByte_stable.check boolOfByte

theorem readInt_stable (type : IntType) : Read.Stable (readInt type .nested) :=
  (Bytes.readExact_stable type.byteWidth).map _

theorem readPayload_stable (maxLength : Nat) : Read.Stable (readPayload maxLength .nested) :=
  Bytes.readPrefixed_stable maxLength

theorem readAddress_stable : Read.Stable (readAddress .nested) :=
  Bytes.readExact_stable addressLength

/-- The presence byte of an option whose target has no content. -/
def readPresence (input : Bytes) : Read Unit :=
  (Bytes.readByte input).check fun presence =>
    if presence = 0 then .ok () else .error .missingOptionTarget

theorem readPresence_stable : Read.Stable readPresence :=
  Bytes.readByte_stable.check _

theorem decode_absent {maxLength : Nat} (input : Bytes) :
    absent.decode maxLength .nested input = (readPresence input).fill absent fun _ => absent := by
  simp [decode, readPresence]

theorem stable_of_read {α : Type} {maxLength : Nat} {target : Value} {read : Bytes → Read α}
    (stable : Read.Stable read) (build : α → Value)
    (decodes : ∀ input, target.decode maxLength .nested input = (read input).fill target build) :
    Decoded.Stable (target.decode maxLength .nested) := by
  rw [funext decodes]
  exact stable.fill target build

/-- A settled outcome of a nested decoder stands when more input arrives. -/
theorem decode_stable (maxLength : Nat) (target : Value) :
    Decoded.Stable (target.decode maxLength .nested) := by
  induction target with
  | bool value =>
      exact stable_of_read readBool_stable bool fun input => by simp only [decode]
  | int type word =>
      exact stable_of_read (readInt_stable type) (int type) fun input => by simp only [decode]
  | natural value =>
      exact stable_of_read (readPayload_stable maxLength)
        (fun payload => natural (BigEndian.magnitude payload)) fun input => by simp only [decode]
  | integer value =>
      exact stable_of_read (readPayload_stable maxLength)
        (fun payload => integer (BigEndian.signed payload)) fun input => by simp only [decode]
  | text content =>
      exact stable_of_read ((readPayload_stable maxLength).check textOfBytes) text
        fun input => by simp only [decode]
  | bytes content =>
      exact stable_of_read (readPayload_stable maxLength) bytes fun input => by simp only [decode]
  | address content =>
      exact stable_of_read readAddress_stable address fun input => by simp only [decode]
  | absent =>
      exact stable_of_read readPresence_stable (fun _ => absent) fun input => decode_absent input
  | present content ih =>
      intro input more settled
      cases input with
      | nil =>
          simp only [decode] at settled
          cases settled _ rfl
      | cons presence rest =>
          simp only [decode, List.cons_append] at settled ⊢
          by_cases zero : presence = 0
          · simp only [if_pos zero, Decoded.followedBy]
          · rw [if_neg zero] at settled
            rw [if_neg zero, if_neg zero]
            exact ih.map present rest more settled
  | list items _ =>
      intro input more settled
      simp only [decode, Decoded.followedBy]
  | outputList items template _ ih =>
      intro input more settled
      cases template with
      | none => simp only [decode, Decoded.followedBy]
      | some template =>
          cases counted : (Bytes.readBoundedLength maxLength input).result with
          | error error =>
              rw [decode_outputList_of_error counted] at settled ⊢
              have same : (Bytes.readBoundedLength maxLength input).Settled := by
                intro other failed
                rw [counted] at failed
                cases failed
                exact settled error rfl
              have head := Bytes.readBoundedLength_stable maxLength input more same
              rw [decode_outputList_of_error (by rw [head]; exact counted), head]
              rfl
          | ok count =>
              rw [decode_outputList_of_count counted] at settled ⊢
              have head := Bytes.readBoundedLength_stable maxLength input more
                (Read.settled_of_success counted)
              have tail := ((decodeItems_stable (ih template rfl) count).map
                (outputList · (some template))) _ more settled
              rw [decode_outputList_of_count (by rw [head]; exact counted), head]
              exact tail
  | struct fields ih =>
      have stable := (decodeFields_stable ih).map struct
      intro input more settled
      simp only [decode] at settled ⊢
      exact stable input more settled
  | enum discriminant fields ih =>
      intro input more settled
      cases input with
      | nil =>
          simp only [decode] at settled
          cases settled _ rfl
      | cons first rest =>
          simp only [decode, List.cons_append] at settled ⊢
          exact (decodeFields_stable ih).map (enum first) rest more settled

/-- A target that a first pass may have overwritten in part decodes as before, now
with more input. -/
def Retries (maxLength : Nat) (target : Value) : Prop :=
  ∀ input more,
    (target.decode maxLength .nested input).target.decode maxLength .nested (input ++ more) =
      target.decode maxLength .nested (input ++ more)

theorem retries_of_read {α : Type} {maxLength : Nat} {target : Value} {read : Bytes → Read α}
    (stable : Read.Stable read) (build : α → Value)
    (decodes : ∀ leaf, leaf = target ∨ (∃ found, leaf = build found) → ∀ input,
      leaf.decode maxLength .nested input = (read input).fill leaf build) :
    target.Retries maxLength := by
  intro input more
  cases found : (read input).result with
  | error error =>
      have kept : (target.decode maxLength .nested input).target = target := by
        simp only [decodes target (Or.inl rfl), Read.fill, found]
      rw [kept]
  | ok value =>
      have filled : (target.decode maxLength .nested input).target = build value := by
        simp only [decodes target (Or.inl rfl), Read.fill, found]
      have again := stable input more (Read.settled_of_success found)
      rw [filled, decodes _ (Or.inr ⟨value, rfl⟩), decodes _ (Or.inl rfl), again]
      simp only [Read.fill, Read.followedBy, found]

/-- Fields that a first pass has overwritten in part are read as if it had not taken place. -/
theorem decodeFields_retry {maxLength : Nat} {fields : Fields}
    (each : ∀ field ∈ fields, field.2.Retries maxLength) (input more : Bytes) :
    decodeFields maxLength (decodeFields maxLength fields input).target (input ++ more) =
      decodeFields maxLength fields (input ++ more) := by
  induction fields generalizing input with
  | nil => rfl
  | cons field fields ih =>
      rw [List.forall_mem_cons] at each
      have head := each.1 input more
      cases failure : (field.2.decode maxLength .nested input).error with
      | some error =>
          rw [decodeFields_cons_of_error failure]
          simp only [decodeFields, head]
      | none =>
          -- The first field was complete, so it takes the same bytes again.
          have complete := decode_stable maxLength field.2 input more
            (Decoded.settled_of_success failure)
          have done : (field.2.decode maxLength .nested (input ++ more)).error = none := by
            rw [complete]
            exact failure
          have tail := ih each.2 (field.2.decode maxLength .nested input).rest
          rw [decodeFields_cons_of_success failure, Decoded.map,
            decodeFields_cons_of_success (by rw [head]; exact done),
            decodeFields_cons_of_success done, head, complete]
          simp only [Decoded.followedBy, tail]

/-- Decoding may be repeated on the same target once more input has arrived. -/
theorem decode_retry (maxLength : Nat) (target : Value) : target.Retries maxLength := by
  induction target with
  | bool value =>
      apply retries_of_read readBool_stable bool
      rintro _ (rfl | ⟨found, rfl⟩) input <;> simp only [decode]
  | int type word =>
      apply retries_of_read (readInt_stable type) (int type)
      rintro _ (rfl | ⟨found, rfl⟩) input <;> simp only [decode]
  | natural value =>
      apply retries_of_read (readPayload_stable maxLength)
        (fun payload => natural (BigEndian.magnitude payload))
      rintro _ (rfl | ⟨found, rfl⟩) input <;> simp only [decode]
  | integer value =>
      apply retries_of_read (readPayload_stable maxLength)
        (fun payload => integer (BigEndian.signed payload))
      rintro _ (rfl | ⟨found, rfl⟩) input <;> simp only [decode]
  | text content =>
      apply retries_of_read ((readPayload_stable maxLength).check textOfBytes) text
      rintro _ (rfl | ⟨found, rfl⟩) input <;> simp only [decode]
  | bytes content =>
      apply retries_of_read (readPayload_stable maxLength) bytes
      rintro _ (rfl | ⟨found, rfl⟩) input <;> simp only [decode]
  | address content =>
      apply retries_of_read readAddress_stable address
      rintro _ (rfl | ⟨found, rfl⟩) input <;> simp only [decode]
  | absent =>
      apply retries_of_read readPresence_stable fun _ => absent
      rintro _ (rfl | ⟨found, rfl⟩) input <;> exact decode_absent input
  | present content ih =>
      intro input more
      cases input with
      | nil => simp only [decode]
      | cons presence rest =>
          have inner := ih rest more
          by_cases zero : presence = 0
          · simp [decode, zero, Bytes.readByte, Read.check, Except.bind, Read.fill]
          · simp [decode, zero, Decoded.map, inner]
  | list items _ =>
      intro input more
      simp only [decode]
  | outputList items template _ _ =>
      intro input more
      cases template with
      | none => simp only [decode]
      | some template =>
          cases counted : (Bytes.readBoundedLength maxLength input).result with
          | error error => rw [decode_outputList_of_error counted]
          | ok count =>
              have again := Bytes.readBoundedLength_stable maxLength input more
                (Read.settled_of_success counted)
              have countedAgain :
                  (Bytes.readBoundedLength maxLength (input ++ more)).result = .ok count := by
                rw [again]
                exact counted
              rw [decode_outputList_of_count counted, Decoded.map,
                decode_outputList_of_count countedAgain, decode_outputList_of_count countedAgain]
  | struct fields ih =>
      intro input more
      simp only [decode, Decoded.map, decodeFields_retry ih]
  | enum discriminant fields ih =>
      intro input more
      cases input with
      | nil => simp only [decode]
      | cons first rest =>
          have body := decodeFields_retry ih rest more
          simp [decode, Decoded.map, body]

/-- What the target holds after a pass over the input, whatever came of it. -/
def afterPass (maxLength : Nat) (target : Value) (input : Bytes) : Value :=
  (target.decode maxLength .nested input).target

/-- Passes over beginnings of the input, each into what the one before has left, do not
change what the input decodes to: neither the target, nor the rest, nor the error.  A retry
after a short read is the case of one pass. -/
theorem decode_after_passes {maxLength : Nat} {target : Value} {input : Bytes}
    {starts : List Bytes} (beginnings : ∀ start ∈ starts, start <+: input) :
    (starts.foldl (afterPass maxLength) target).decode maxLength .nested input =
      target.decode maxLength .nested input := by
  induction starts generalizing target with
  | nil => rfl
  | cons start starts ih =>
      rw [List.forall_mem_cons] at beginnings
      rcases beginnings.1 with ⟨more, rfl⟩
      have later := @ih (afterPass maxLength target start) beginnings.2
      have first := decode_retry maxLength target start more
      rw [List.foldl_cons, later, afterPass, first]

/-- The first pass stops inside the items; the memo is gone by then. -/
theorem decode_after_passes_order :
    let target := struct [("memo", present (text "old")),
      ("marks", outputList [bool true] (some (int .u16 0)))]
    let start := [0, 0, 0, 0, 2, 0, 7, 1]
    let left := struct [("memo", absent), ("marks", outputList [int .u16 7] (some (int .u16 0)))]
    target.decode 4 .nested start = ⟨left, [1], some (.field "marks" (.shortRead 2 1))⟩ ∧
      (∀ other ∈ [start], other <+: start ++ [9, 255]) ∧
      left.decode 4 .nested (start ++ [9, 255]) = target.decode 4 .nested (start ++ [9, 255]) := by
  intro target start left
  have stopped : target.decode 4 .nested start =
      ⟨left, [1], some (.field "marks" (.shortRead 2 1))⟩ := by rfl
  have beginnings : ∀ other ∈ [start], other <+: start ++ [9, 255] := by
    simp only [List.forall_mem_singleton]
    exact List.prefix_append start [9, 255]
  have again := @decode_after_passes 4 target _ _ beginnings
  rw [List.foldl_cons, List.foldl_nil, afterPass, stopped] at again
  exact ⟨stopped, beginnings, again⟩

end Value

end ContractAbi
