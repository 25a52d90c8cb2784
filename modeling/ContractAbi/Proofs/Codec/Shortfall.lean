import ContractAbi.Proofs.Codec.Extension

/-!
# What a short read says

A nested decoder that ran short has left as many bytes as its error calls available,
fewer than the needed ones.  As long as not all of the missing bytes have arrived, it
fails at the same place with the same target, and the error counts what has arrived.
-/

namespace ContractAbi

namespace CodecError

/-- The error of a decoder that ran short, once more bytes have arrived. -/
def arrived (count : Nat) : CodecError → CodecError
  | shortRead needed available => shortRead needed (available + count)
  | field name source => field name (source.arrived count)
  | error => error

theorem root_arrived {error : CodecError} {needed available : Nat}
    (short : error.root = .shortRead needed available) (count : Nat) :
    (error.arrived count).root = .shortRead needed (available + count) := by
  induction error with
  | field name source ih => exact ih short
  | shortRead => cases short; rfl
  | _ => cases short

@[simp]
theorem path_arrived (error : CodecError) (count : Nat) :
    (error.arrived count).path = error.path := by
  induction error with
  | field name source ih => simp only [arrived, path, ih]
  | _ => rfl

theorem isShortRead_eq_false {error : CodecError}
    (settled : ∀ needed available, error.root ≠ .shortRead needed available) :
    error.isShortRead = false := by
  rw [isShortRead]
  split
  · rename_i needed available same
    exact absurd same (settled needed available)
  · rfl

theorem not_isShortRead_of_root {error : CodecError} {needed available : Nat}
    (short : error.root = .shortRead needed available) : error.isShortRead ≠ false := by
  rw [isShortRead, short]
  rintro ⟨⟩

end CodecError

namespace Read

variable {α β : Type}

/-- A read that says how many bytes are missing, and fails alike until they are there. -/
def Waits (read : Bytes → Read α) : Prop :=
  ∀ input error needed available, (read input).result = .error error →
    error.root = .shortRead needed available →
      (read input).rest.length = available ∧ available < needed ∧
        ∀ more, available + more.length < needed →
          read (input ++ more) = ⟨.error (error.arrived more.length), (read input).rest ++ more⟩

theorem Waits.map {read : Bytes → Read α} (waits : Waits read) (f : α → β) :
    Waits fun input => (read input).map f := by
  intro input error needed available failed short
  cases found : (read input).result with
  | ok value => simp [Read.map, found, Except.map] at failed
  | error other =>
      simp only [Read.map, found, Except.map, Except.error.injEq] at failed
      subst failed
      rcases waits input other needed available found short with ⟨left, fewer, again⟩
      refine ⟨left, fewer, ?_⟩
      intro more few
      simp only [again more few, Read.map, Except.map]

theorem Waits.check {read : Bytes → Read α} (waits : Waits read) {f : α → Except CodecError β}
    (checked : ∀ value error, f value = .error error → error.isShortRead = false) :
    Waits fun input => (read input).check f := by
  intro input error needed available failed short
  cases found : (read input).result with
  | ok value =>
      simp only [Read.check, found, Except.bind] at failed
      exact absurd (checked value error failed) (CodecError.not_isShortRead_of_root short)
  | error other =>
      simp only [Read.check, found, Except.bind, Except.error.injEq] at failed
      subst failed
      rcases waits input other needed available found short with ⟨left, fewer, again⟩
      refine ⟨left, fewer, ?_⟩
      intro more few
      simp only [again more few, Read.check, Except.bind]

theorem Waits.andThen {read : Bytes → Read α} {next : α → Bytes → Read β}
    (waits : Waits read) (stable : Stable read) (nextWaits : ∀ value, Waits (next value)) :
    Waits fun input => (read input).andThen next := by
  intro input error needed available failed short
  cases found : (read input).result with
  | ok value =>
      simp only [Read.andThen, found] at failed ⊢
      rcases nextWaits value (read input).rest error needed available failed short with
        ⟨left, fewer, again⟩
      refine ⟨left, fewer, ?_⟩
      intro more few
      have same := stable input more (settled_of_success found)
      simp only [same, followedBy, found, again more few]
  | error other =>
      simp only [Read.andThen, found, Except.error.injEq] at failed ⊢
      subst failed
      rcases waits input other needed available found short with ⟨left, fewer, again⟩
      refine ⟨left, fewer, ?_⟩
      intro more few
      simp only [again more few]

end Read

namespace Bytes

theorem readByte_waits : Read.Waits readByte := by
  intro input error needed available failed short
  cases input with
  | cons byte rest => cases failed
  | nil =>
      cases failed
      cases short
      refine ⟨rfl, Nat.zero_lt_one, ?_⟩
      intro more few
      have nothing : more = [] := List.eq_nil_of_length_eq_zero (by omega)
      subst nothing
      rfl

theorem readExact_of_short {count : Nat} {input : Bytes} (short : input.length < count) :
    readExact count input = ⟨.error (.shortRead count input.length), input⟩ := by
  have cut : (input.take count).length < count := by
    rw [List.length_take]
    omega
  rw [readExact, if_pos cut]

theorem readExact_waits (count : Nat) : Read.Waits (readExact count) := by
  intro input error needed available failed short
  by_cases fewer : input.length < count
  · rw [readExact_of_short fewer] at failed ⊢
    cases failed
    cases short
    refine ⟨rfl, fewer, ?_⟩
    intro more few
    rw [← List.length_append] at few
    rw [readExact_of_short few, List.length_append]
    rfl
  · have cut : ¬(input.take count).length < count := by
      rw [List.length_take]
      omega
    simp only [readExact, if_neg cut] at failed
    cases failed

theorem readBoundedLength_waits (maxLength : Nat) : Read.Waits (readBoundedLength maxLength) := by
  apply ((readExact_waits lengthPrefixSize).map _).check
  intro length error failed
  split at failed <;> cases failed
  rfl

theorem readPrefixed_waits (maxLength : Nat) : Read.Waits (readPrefixed maxLength) :=
  (readBoundedLength_waits maxLength).andThen (readBoundedLength_stable maxLength) readExact_waits

end Bytes

namespace Decoded

variable {α β : Type}

/-- A short read tells how many bytes are missing, and the decoder fails alike until they
are there. -/
def WaitsAt (decoder : Bytes → Decoded α) (input : Bytes) : Prop :=
  ∀ error needed available, (decoder input).error = some error →
    error.root = .shortRead needed available →
      (decoder input).rest.length = available ∧ available < needed ∧
        ∀ more, available + more.length < needed →
          decoder (input ++ more) =
            ⟨(decoder input).target, (decoder input).rest ++ more,
              some (error.arrived more.length)⟩

def Waits (decoder : Bytes → Decoded α) : Prop :=
  ∀ input, WaitsAt decoder input

/-- A decoder that needs a first byte misses just this one. -/
theorem waitsAt_nil {decoder : Bytes → Decoded α} {target : α}
    (cut : decoder [] = ⟨target, [], some (.shortRead 1 0)⟩) : WaitsAt decoder [] := by
  intro error needed available failed short
  rw [cut] at failed ⊢
  cases failed
  cases short
  refine ⟨rfl, Nat.zero_lt_one, ?_⟩
  intro more few
  have nothing : more = [] := List.eq_nil_of_length_eq_zero (by omega)
  subst nothing
  exact cut

theorem Waits.map {decoder : Bytes → Decoded α} (waits : Waits decoder) (f : α → β) :
    Waits fun input => (decoder input).map f := by
  intro input error needed available failed short
  rcases waits input error needed available failed short with ⟨left, fewer, again⟩
  refine ⟨left, fewer, ?_⟩
  intro more few
  simp only [again more few, Decoded.map]

end Decoded

theorem Read.Waits.fill {α β : Type} {read : Bytes → Read α} (waits : Read.Waits read)
    (target : β) (build : α → β) :
    Decoded.Waits fun input => (read input).fill target build := by
  intro input error needed available failed short
  cases found : (read input).result with
  | ok value => simp [Read.fill, found] at failed
  | error other =>
      simp only [Read.fill, found, Option.some.injEq] at failed ⊢
      subst failed
      rcases waits input other needed available found short with ⟨left, fewer, again⟩
      refine ⟨left, fewer, ?_⟩
      intro more few
      simp only [again more few]

namespace Value

/-- A sequence waits if each item does: those before the one that runs short are read alike when
more bytes arrive. -/
theorem decodeItems_waits {decodeItem : Bytes → Decoded Value}
    (stable : Decoded.Stable decodeItem) (waits : Decoded.Waits decodeItem) (count : Nat) :
    Decoded.Waits (decodeItems decodeItem count) := by
  induction count with
  | zero =>
      intro input error needed available failed
      cases failed
  | succ count ih =>
      intro input error needed available failed short
      cases failure : (decodeItem input).error with
      | some other =>
          rw [decodeItems_succ_of_error failure] at failed ⊢
          cases failed
          rcases waits input error needed available failure short with ⟨left, fewer, again⟩
          refine ⟨left, fewer, ?_⟩
          intro more few
          have head := again more few
          rw [decodeItems_succ_of_error (by rw [head]), head]
      | none =>
          rw [decodeItems_succ_of_success failure] at failed ⊢
          rcases ih.map ((decodeItem input).target :: ·) _ error needed available failed short with
            ⟨left, fewer, again⟩
          refine ⟨left, fewer, ?_⟩
          intro more few
          -- The first item was complete, so it takes the same bytes again.
          have head := stable input more (Decoded.settled_of_success failure)
          rw [decodeItems_succ_of_success (by rw [head]; exact failure), head]
          exact again more few

/-- So do fields, with the name of the field in front of the error before and after. -/
theorem decodeFields_waits {maxLength : Nat} {fields : Fields}
    (each : ∀ field ∈ fields, Decoded.Waits (field.2.decode maxLength .nested)) :
    Decoded.Waits (decodeFields maxLength fields) := by
  induction fields with
  | nil =>
      intro input error needed available failed
      cases failed
  | cons field fields ih =>
      rw [List.forall_mem_cons] at each
      intro input error needed available failed short
      cases failure : (field.2.decode maxLength .nested input).error with
      | some other =>
          rw [decodeFields_cons_of_error failure] at failed ⊢
          cases failed
          rcases each.1 input other needed available failure short with ⟨left, fewer, again⟩
          refine ⟨left, fewer, ?_⟩
          intro more few
          have head := again more few
          rw [decodeFields_cons_of_error (by rw [head]), head]
          rfl
      | none =>
          rw [decodeFields_cons_of_success failure] at failed ⊢
          rcases (ih each.2).map ((field.1, (field.2.decode maxLength .nested input).target) :: ·)
            _ error needed available failed short with ⟨left, fewer, again⟩
          refine ⟨left, fewer, ?_⟩
          intro more few
          have head := decode_stable maxLength field.2 input more
            (Decoded.settled_of_success failure)
          rw [decodeFields_cons_of_success (by rw [head]; exact failure), head]
          exact again more few

theorem waits_of_read {α : Type} {maxLength : Nat} {target : Value} {read : Bytes → Read α}
    (waits : Read.Waits read) (build : α → Value)
    (decodes : ∀ input, target.decode maxLength .nested input = (read input).fill target build) :
    Decoded.Waits (target.decode maxLength .nested) := by
  rw [funext decodes]
  exact waits.fill target build

theorem readBool_waits : Read.Waits (readBool .nested) := by
  apply Bytes.readByte_waits.check
  intro byte error failed
  rw [boolOfByte_eq_error failed]
  rfl

theorem readInt_waits (type : IntType) : Read.Waits (readInt type .nested) :=
  (Bytes.readExact_waits type.byteWidth).map _

theorem readPayload_waits (maxLength : Nat) : Read.Waits (readPayload maxLength .nested) :=
  Bytes.readPrefixed_waits maxLength

theorem readText_waits (maxLength : Nat) :
    Read.Waits fun input => (readPayload maxLength .nested input).check textOfBytes := by
  apply (readPayload_waits maxLength).check
  intro payload error failed
  rcases textOfBytes_eq_error failed with ⟨fault, rfl⟩
  rfl

theorem readAddress_waits : Read.Waits (readAddress .nested) :=
  Bytes.readExact_waits addressLength

theorem readPresence_waits : Read.Waits readPresence := by
  apply Bytes.readByte_waits.check
  intro presence error failed
  split at failed <;> cases failed
  rfl

/-- With some of the missing bytes a nested decoder fails as before; it only counts them. -/
theorem decode_waits (maxLength : Nat) (target : Value) :
    Decoded.Waits (target.decode maxLength .nested) := by
  induction target with
  | bool value =>
      exact waits_of_read readBool_waits bool fun input => by simp only [decode]
  | int type word =>
      exact waits_of_read (readInt_waits type) (int type) fun input => by simp only [decode]
  | natural value =>
      exact waits_of_read (readPayload_waits maxLength)
        (fun payload => natural (BigEndian.magnitude payload)) fun input => by simp only [decode]
  | integer value =>
      exact waits_of_read (readPayload_waits maxLength)
        (fun payload => integer (BigEndian.signed payload)) fun input => by simp only [decode]
  | text content =>
      exact waits_of_read (readText_waits maxLength) text fun input => by simp only [decode]
  | bytes content =>
      exact waits_of_read (readPayload_waits maxLength) bytes fun input => by simp only [decode]
  | address content =>
      exact waits_of_read readAddress_waits address fun input => by simp only [decode]
  | absent =>
      exact waits_of_read readPresence_waits (fun _ => absent) fun input => decode_absent input
  | present content ih =>
      intro input
      cases input with
      | nil => exact Decoded.waitsAt_nil (by simp only [decode]; rfl)
      | cons presence rest =>
          intro error needed available failed short
          by_cases zero : presence = 0
          · simp [decode, zero] at failed
          · simp only [decode, if_neg zero] at failed
            rcases ih.map present rest error needed available failed short with
              ⟨left, fewer, again⟩
            simp only [decode, if_neg zero, List.cons_append]
            exact ⟨left, fewer, again⟩
  | list items _ =>
      intro input error needed available failed short
      simp only [decode, Option.some.injEq] at failed
      subst failed
      cases short
  | outputList items template _ ih =>
      intro input error needed available failed short
      cases template with
      | none =>
          simp only [decode, Option.some.injEq] at failed
          subst failed
          cases short
      | some template =>
          cases counted : (Bytes.readBoundedLength maxLength input).result with
          | error other =>
              rw [decode_outputList_of_error counted] at failed ⊢
              cases failed
              rcases Bytes.readBoundedLength_waits maxLength input error needed available counted
                short with ⟨left, fewer, again⟩
              refine ⟨left, fewer, ?_⟩
              intro more few
              have head := again more few
              rw [decode_outputList_of_error (by rw [head]), head]
          | ok count =>
              rw [decode_outputList_of_count counted] at failed ⊢
              have itemsWait := decodeItems_waits (decode_stable maxLength template)
                (ih template rfl) count
              rcases itemsWait.map (outputList · (some template)) _ error needed available failed
                short with ⟨left, fewer, again⟩
              refine ⟨left, fewer, ?_⟩
              intro more few
              have head := Bytes.readBoundedLength_stable maxLength input more
                (Read.settled_of_success counted)
              rw [decode_outputList_of_count (by rw [head]; exact counted), head]
              exact again more few
  | struct fields ih =>
      intro input error needed available failed short
      simp only [decode] at failed ⊢
      exact (decodeFields_waits ih).map struct input error needed available failed short
  | enum discriminant fields ih =>
      intro input
      cases input with
      | nil => exact Decoded.waitsAt_nil (by simp only [decode]; rfl)
      | cons first rest =>
          intro error needed available failed short
          simp only [decode, List.cons_append] at failed ⊢
          exact (decodeFields_waits ih).map (enum first) rest error needed available failed short

/-- What a nested decoder does once more input has arrived.  A success and a failure
other than a short read stand, and the new bytes are left.  A short read says how many
bytes are left and how many it needs, and stays at its place while some are missing. -/
theorem decode_append (maxLength : Nat) (target : Value) (input : Bytes) :
    let first := target.decode maxLength .nested input
    (∀ more, first.error = none →
        target.decode maxLength .nested (input ++ more) =
          ⟨first.target, first.rest ++ more, none⟩) ∧
      (∀ error more, first.error = some error →
        (∀ needed available, error.root ≠ .shortRead needed available) →
          target.decode maxLength .nested (input ++ more) =
            ⟨first.target, first.rest ++ more, some error⟩) ∧
      ∀ error needed available, first.error = some error →
        error.root = .shortRead needed available →
          first.rest.length = available ∧ available < needed ∧
            ∀ more : Bytes, more.length < needed - available →
              ∃ again, target.decode maxLength .nested (input ++ more) =
                  ⟨first.target, first.rest ++ more, some again⟩ ∧
                again.path = error.path ∧
                again.root = .shortRead needed (available + more.length) := by
  intro first
  refine ⟨?_, ?_, ?_⟩
  · intro more success
    rw [decode_stable maxLength target input more (Decoded.settled_of_success success),
      Decoded.followedBy, success]
  · intro error more failed settled
    have stands : first.Settled := by
      intro other otherFailed
      rw [failed, Option.some.injEq] at otherFailed
      exact otherFailed ▸ CodecError.isShortRead_eq_false settled
    rw [decode_stable maxLength target input more stands, Decoded.followedBy, failed]
  · intro error needed available failed short
    rcases decode_waits maxLength target input error needed available failed short with
      ⟨left, fewer, again⟩
    refine ⟨left, fewer, ?_⟩
    intro more few
    exact ⟨error.arrived more.length, again more (by omega), error.path_arrived more.length,
      CodecError.root_arrived short more.length⟩

/-- An order that is cut in its memo, one with a bad flag, and a whole one. -/
theorem decode_append_orders :
    let target := struct [("paid", bool false), ("memo", text "old")]
    (target.decode 9 .nested [1, 0, 0, 0, 3, 104] =
        ⟨struct [("paid", bool true), ("memo", text "old")], [104],
          some (.field "memo" (.shortRead 3 1))⟩ ∧
      ∃ again, target.decode 9 .nested [1, 0, 0, 0, 3, 104, 105] =
          ⟨struct [("paid", bool true), ("memo", text "old")], [104, 105], some again⟩ ∧
        again.path = ["memo"] ∧ again.root = .shortRead 3 2) ∧
      (target.decode 9 .nested [2, 0] = ⟨target, [0], some (.field "paid" (.invalidBool 2))⟩ ∧
        target.decode 9 .nested [2, 0, 7] =
          ⟨target, [0, 7], some (.field "paid" (.invalidBool 2))⟩) ∧
      target.decode 9 .nested [0, 0, 0, 0, 0] =
          ⟨struct [("paid", bool false), ("memo", text "")], [], none⟩ ∧
        target.decode 9 .nested [0, 0, 0, 0, 0, 7] =
          ⟨struct [("paid", bool false), ("memo", text "")], [7], none⟩ := by
  intro target
  have cut : target.decode 9 .nested [1, 0, 0, 0, 3, 104] =
      ⟨struct [("paid", bool true), ("memo", text "old")], [104],
        some (.field "memo" (.shortRead 3 1))⟩ := by rfl
  have bad : target.decode 9 .nested [2, 0] =
      ⟨target, [0], some (.field "paid" (.invalidBool 2))⟩ := by rfl
  have whole : target.decode 9 .nested [0, 0, 0, 0, 0] =
      ⟨struct [("paid", bool false), ("memo", text "")], [], none⟩ := by rfl
  have waits :=
    (decode_append 9 target [1, 0, 0, 0, 3, 104]).2.2 (.field "memo" (.shortRead 3 1)) 3 1
  have refused := (decode_append 9 target [2, 0]).2.1 (.field "paid" (.invalidBool 2)) [7]
  have stands := (decode_append 9 target [0, 0, 0, 0, 0]).1 [7]
  rw [cut] at waits
  rw [bad] at refused
  rw [whole] at stands
  refine ⟨⟨cut, (waits rfl rfl).2.2 [105] (by decide)⟩, ⟨bad, ?_⟩, whole, stands rfl⟩
  exact refused rfl nofun

end Value

end ContractAbi
