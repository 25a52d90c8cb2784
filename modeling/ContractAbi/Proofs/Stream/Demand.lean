import ContractAbi.Proofs.Stream.Resumption

/-!
# When a reader asks for bytes

A nested read asks its stream for bytes only while those in the buffer are not enough to
tell what the value is.  The reader decodes just once before it waits for a whole
shortfall, so the calls in between rest on the numbers of the first error: as long as not
all of the missing bytes have arrived, decoding again would run short again.
-/

namespace ContractAbi

/-- The input ends before the value that the target is to take from it. -/
def Value.RunsShort (maxLength : Nat) (target : Value) (input : Bytes) : Prop :=
  ∃ error needed available, (target.decode maxLength .nested input).error = some error ∧
    error.root = .shortRead needed available

theorem Reply.calls_settle_pos (script : List Reply) : 0 < (settle script).calls := by
  cases script with
  | nil => exact Nat.one_pos
  | cons reply script => cases reply <;> exact Nat.succ_pos _

theorem Source.calls_receive (source : Source) :
    source.receive.2.calls = source.calls + (Reply.settle source.script).calls := by
  rw [receive]
  split <;> rfl

namespace Reader

/-- The buffer at each call that receiving once makes: a call that is interrupted is
repeated, and nothing has arrived by then. -/
def fillAsks (reader : Reader) : List Bytes :=
  List.replicate (Reply.settle reader.source.script).calls reader.buffer

/-- The buffer at each call that is made until there is enough. -/
def fillUntilAsks (enough : Bytes → Bool) (reader : Reader) : List Bytes :=
  if reader.ended || enough reader.buffer then []
  else
    match _ : reader.fill with
    | (.error _, _) => reader.fillAsks
    | (.ok (), next) => reader.fillAsks ++ fillUntilAsks enough next
termination_by reader.pending
decreasing_by
  rename_i waiting _
  simp only [Bool.or_eq_true, not_or, Bool.not_eq_true] at waiting
  exact pending_fill waiting.1 (by assumption)

/-- The buffer at each call that a nested read makes, in the order of the calls. -/
def readNestedAsks (reader : Reader) (target : Value) : List Bytes :=
  let decoded := target.decode reader.maxLength .nested reader.buffer
  match decoded.error with
  | none => []
  | some error =>
    match error.root with
    | .shortRead needed available =>
      if reader.ended then []
      else
        let size := reader.buffer.length + shortfall needed available
        match _ : reader.fillUntil (size ≤ ·.length) with
        | (.error _, _) => reader.fillUntilAsks (size ≤ ·.length)
        | (.ok (), next) =>
          reader.fillUntilAsks (size ≤ ·.length) ++ readNestedAsks next decoded.target
    | _ => []
termination_by reader.pending
decreasing_by
  rename_i going _
  refine pending_fillUntil_lt ?_ (by assumption)
  have wanting : ¬ size ≤ reader.buffer.length := by
    simp only [size, shortfall]
    omega
  simpa [going] using wanting

theorem calls_fill (reader : Reader) :
    reader.fill.2.source.calls = reader.source.calls + reader.fillAsks.length := by
  rw [fillAsks, List.length_replicate, fill, ← reader.source.calls_receive]
  split <;> simp [*]

theorem getLast?_fillAsks (reader : Reader) : reader.fillAsks.getLast? = some reader.buffer := by
  have positive := Reply.calls_settle_pos reader.source.script
  rw [fillAsks, List.getLast?_replicate, if_neg (by omega)]

section Waiting

variable {reader next : Reader} {enough : Bytes → Bool} {failure : IoFailure}

theorem fillUntilAsks_of_stopped (stopped : (reader.ended || enough reader.buffer) = true) :
    reader.fillUntilAsks enough = [] := by
  rw [fillUntilAsks, if_pos stopped]

theorem fillUntilAsks_of_error (waiting : ¬(reader.ended || enough reader.buffer) = true)
    (filled : reader.fill = (.error failure, next)) :
    reader.fillUntilAsks enough = reader.fillAsks := by
  rw [fillUntilAsks, if_neg waiting]
  split <;> simp_all

theorem fillUntilAsks_of_ok (waiting : ¬(reader.ended || enough reader.buffer) = true)
    (filled : reader.fill = (.ok (), next)) :
    reader.fillUntilAsks enough = reader.fillAsks ++ next.fillUntilAsks enough := by
  rw [fillUntilAsks, if_neg waiting]
  split <;> simp_all

end Waiting

/-- There are as many entries as calls. -/
theorem calls_fillUntil (enough : Bytes → Bool) (reader : Reader) :
    (reader.fillUntil enough).2.source.calls =
      reader.source.calls + (reader.fillUntilAsks enough).length := by
  fun_induction fillUntil enough reader with
  | case1 reader stopped =>
      rw [fillUntilAsks_of_stopped stopped]
      rfl
  | case2 reader waiting failure next filled =>
      have calls := reader.calls_fill
      rw [filled] at calls
      rw [fillUntilAsks_of_error waiting filled, calls]
  | case3 reader waiting next filled ih =>
      have calls := reader.calls_fill
      rw [filled] at calls
      rw [ih, calls, fillUntilAsks_of_ok waiting filled, List.length_append, Nat.add_assoc]

/-- The call that fails finds the buffer that is left. -/
theorem getLast?_fillUntilAsks {reader next : Reader} {enough : Bytes → Bool}
    {failure : IoFailure} (filled : reader.fillUntil enough = (.error failure, next)) :
    (reader.fillUntilAsks enough).getLast? = some next.buffer := by
  fun_induction fillUntil enough reader with
  | case1 reader stopped => cases filled
  | case2 reader waiting found between received =>
      cases filled
      rw [fillUntilAsks_of_error waiting received, getLast?_fillAsks, (fill_of_error received).1]
  | case3 reader waiting between received ih =>
      rw [fillUntilAsks_of_ok waiting received, List.getLast?_append, ih filled]
      rfl

/-- While there is not enough, what has arrived so far is a beginning of the stream. -/
theorem gains_of_mem_fillUntilAsks {reader : Reader} {enough : Bytes → Bool} {buffer : Bytes}
    (asked : buffer ∈ reader.fillUntilAsks enough) :
    enough buffer = false ∧
      ∃ asking taken, reader.Gains asking taken ∧ asking.buffer = buffer := by
  have here {reader : Reader} (waiting : ¬(reader.ended || enough reader.buffer) = true)
      (same : buffer ∈ reader.fillAsks) : enough buffer = false ∧
        ∃ asking taken, reader.Gains asking taken ∧ asking.buffer = buffer := by
    rw [List.eq_of_mem_replicate same]
    simp only [Bool.or_eq_true, not_or, Bool.not_eq_true] at waiting
    exact ⟨waiting.2, reader, [], .refl reader, rfl⟩
  fun_induction fillUntilAsks enough reader with
  | case1 reader stopped => cases asked
  | case2 reader waiting failure next filled => exact here waiting asked
  | case3 reader waiting next filled ih =>
      rcases List.mem_append.1 asked with same | later
      · exact here waiting same
      · rcases ih later with ⟨wanting, asking, taken, gained, same⟩
        rcases fill_gains filled with ⟨front, gainedFront⟩
        exact ⟨wanting, asking, front ++ taken, gainedFront.trans gained, same⟩

section Nested

variable {reader next : Reader} {target : Value} {error : CodecError} {needed available : Nat}

theorem readNestedAsks_of_error {failure : IoFailure}
    (failed : (target.decode reader.maxLength .nested reader.buffer).error = some error)
    (short : error.root = .shortRead needed available) (going : ¬reader.ended = true)
    (filled : reader.fillUntil (reader.buffer.length + shortfall needed available ≤ ·.length) =
      (.error failure, next)) :
    reader.readNestedAsks target =
      reader.fillUntilAsks (reader.buffer.length + shortfall needed available ≤ ·.length) := by
  rw [readNestedAsks]
  simp only [failed, short]
  rw [if_neg going]
  split <;> simp_all

theorem readNestedAsks_of_ok
    (failed : (target.decode reader.maxLength .nested reader.buffer).error = some error)
    (short : error.root = .shortRead needed available) (going : ¬reader.ended = true)
    (filled : reader.fillUntil (reader.buffer.length + shortfall needed available ≤ ·.length) =
      (.ok (), next)) :
    reader.readNestedAsks target =
      reader.fillUntilAsks (reader.buffer.length + shortfall needed available ≤ ·.length) ++
        next.readNestedAsks (target.decode reader.maxLength .nested reader.buffer).target := by
  rw [readNestedAsks]
  simp only [failed, short]
  rw [if_neg going]
  split <;> simp_all

/-- While the reader waits for a shortfall, the buffer does not hold the whole value. -/
theorem runsShort_of_mem_fillUntilAsks {buffer : Bytes}
    (failed : (target.decode reader.maxLength .nested reader.buffer).error = some error)
    (short : error.root = .shortRead needed available)
    (asked : buffer ∈ reader.fillUntilAsks
      (reader.buffer.length + shortfall needed available ≤ ·.length)) :
    target.RunsShort reader.maxLength buffer ∧
      ∃ asking taken, reader.Gains asking taken ∧ asking.buffer = buffer := by
  rcases gains_of_mem_fillUntilAsks asked with ⟨wanting, asking, taken, gained, rfl⟩
  refine ⟨?_, asking, taken, gained, rfl⟩
  rw [decide_eq_false_iff_not, gained.buffer, List.length_append] at wanting
  rcases Value.decode_waits reader.maxLength target reader.buffer error needed available failed
    short with ⟨_, fewer, again⟩
  rcases shortfall_of_received taken.length (by omega) fewer with ⟨inside, _⟩
  refine ⟨error.arrived taken.length, needed, available + taken.length, ?_, ?_⟩
  · rw [gained.buffer, again taken inside]
  · exact CodecError.root_arrived short taken.length

/-- Each time the stream is asked for more, the bytes that have been received end before the
value. -/
theorem runsShort_of_mem_readNestedAsks {buffer : Bytes}
    (asked : buffer ∈ reader.readNestedAsks target) :
    target.RunsShort reader.maxLength buffer ∧
      ∃ asking taken, reader.Gains asking taken ∧ asking.buffer = buffer := by
  fun_induction readNestedAsks reader target with
  | case1 reader target decoded success => cases asked
  | case2 reader target decoded error failed needed available short ended => cases asked
  | case3 reader target decoded error failed needed available short going size failure next
      filled => exact runsShort_of_mem_fillUntilAsks failed short asked
  | case4 reader target decoded error failed needed available short going size next filled ih =>
      rcases List.mem_append.1 asked with waiting | later
      · exact runsShort_of_mem_fillUntilAsks failed short waiting
      · rcases fillUntil_gains filled with ⟨front, gainedFront⟩
        rcases ih later with ⟨runsShort, asking, back, gained, same⟩
        have all := gainedFront.trans gained
        refine ⟨?_, asking, front ++ back, all, same⟩
        -- The first pass changed the target, which runs short with the new bytes all the same.
        have again := Value.decode_retry reader.maxLength target reader.buffer (front ++ back)
        rw [← all.buffer, same] at again
        rwa [Value.RunsShort, gainedFront.maxLength, again] at runsShort
  | case5 reader target decoded error failed other => cases asked

/-- The buffers that are listed are those with which the stream is asked, one for each call. -/
theorem calls_readNested (reader : Reader) (target : Value) :
    (reader.readNested target).reader.source.calls =
      reader.source.calls + (reader.readNestedAsks target).length := by
  fun_induction readNested reader target with
  | case1 reader target decoded success => simp [readNestedAsks, decoded, success]
  | case2 reader target decoded error failed needed available short ended =>
      simp [readNestedAsks, decoded, failed, short, ended]
  | case3 reader target decoded error failed needed available short going size failure next
      filled =>
      have calls := reader.calls_fillUntil (size ≤ ·.length)
      rw [filled] at calls
      rw [readNestedAsks_of_error failed short going filled]
      exact calls
  | case4 reader target decoded error failed needed available short going size next filled ih =>
      have calls := reader.calls_fillUntil (size ≤ ·.length)
      rw [filled] at calls
      rw [readNestedAsks_of_ok failed short going filled, List.length_append, ih, calls,
        Nat.add_assoc]
  | case5 reader target decoded error failed other => simp [readNestedAsks, decoded, failed]

/-- A call that fails is the last, and leaves the buffer with which it was made. -/
theorem getLast?_readNestedAsks {failure : IoFailure}
    (stopped : (reader.readNested target).error = some (.io failure)) :
    (reader.readNestedAsks target).getLast? = some (reader.readNested target).reader.buffer := by
  fun_induction readNested reader target with
  | case1 reader target decoded success => cases stopped
  | case2 reader target decoded error failed needed available short ended =>
      rw [Option.some.injEq] at stopped
      split at stopped
      · cases stopped
      · rw [stopped] at short
        cases short
  | case3 reader target decoded error failed needed available short going size found next
      filled =>
      rw [readNestedAsks_of_error failed short going filled, getLast?_fillUntilAsks filled]
  | case4 reader target decoded error failed needed available short going size next filled ih =>
      rw [readNestedAsks_of_ok failed short going filled, List.getLast?_append, ih stopped]
      rfl
  | case5 reader target decoded error failed other =>
      rw [← failed] at stopped
      exact absurd stopped (Value.decode_error_ne_io _ _ _ _ _)

end Nested

/-- A nested read makes no call that it could do without.  Each call finds in the buffer
a beginning of the remaining bytes that ends before the value does: neither the whole
value is there nor another reason to fail.  The entries are those of the calls made, and
if the stream fails, the last of them is the buffer that is left. -/
theorem readNested_asks_when_short (reader : Reader) (target : Value) :
    (reader.readNested target).reader.source.calls =
        reader.source.calls + (reader.readNestedAsks target).length ∧
      (∀ failure, (reader.readNested target).error = some (.io failure) →
        (reader.readNestedAsks target).getLast? =
          some (reader.readNested target).reader.buffer) ∧
      ∀ buffer ∈ reader.readNestedAsks target,
        target.RunsShort reader.maxLength buffer ∧
          ∃ taken, buffer = reader.buffer ++ taken ∧ taken <+: reader.source.data := by
  refine ⟨calls_readNested reader target, ?_, ?_⟩
  · intro failure stopped
    exact getLast?_readNestedAsks stopped
  · intro buffer asked
    rcases runsShort_of_mem_readNestedAsks asked with ⟨runsShort, asking, taken, gained, rfl⟩
    exact ⟨runsShort, taken, gained.buffer, asking.source.data, gained.data.symm⟩

/-- The length of the payload arrives in two pieces, and the stream fails in between. -/
theorem readNested_asks_when_short_reset :
    let failure : IoFailure := ⟨.other, "reset"⟩
    let reader : Reader :=
      { source := { data := [0, 0, 0, 2, 7, 8, 1],
                    script := [.moves 3, .interrupted, .fails failure] } }
    let target := Value.bytes []
    (reader.readNested target).error = some (.io failure) ∧
      reader.readNestedAsks target = [[], [0, 0, 0], [0, 0, 0]] ∧
      (reader.readNested target).reader.source.calls = 3 ∧
      (reader.readNested target).reader.buffer = [0, 0, 0] ∧
      target.RunsShort defaultMaxLength [0, 0, 0] := by
  intro failure reader target
  have start : target.decode defaultMaxLength .nested [] =
      ⟨target, [], some (.shortRead 4 0)⟩ := by rfl
  let between : Reader :=
    { reader with
      source := ⟨[2, 7, 8, 1], [.interrupted, .fails failure], 1, 3⟩, buffer := [0, 0, 0] }
  let last : Reader := { between with source := ⟨[2, 7, 8, 1], [], 3, 3⟩ }
  have first : reader.fill = (.ok (), between) := by rfl
  have second : between.fill = (.error failure, last) := by rfl
  have filled : reader.fillUntil (reader.buffer.length + shortfall 4 0 ≤ ·.length) =
      (.error failure, last) := by
    rw [fillUntil_of_waiting (by decide), first]
    simp only
    rw [fillUntil_of_waiting (by decide), second]
  have failed : (reader.readNested target).error = some (.io failure) := by
    rw [readNested_of_shortRead reader start rfl rfl rfl, filled]
  have asks : reader.readNestedAsks target = [[], [0, 0, 0], [0, 0, 0]] := by
    have cut : (target.decode reader.maxLength .nested reader.buffer).error =
        some (.shortRead 4 0) := congrArg Decoded.error start
    rw [readNestedAsks_of_error cut rfl (by decide) filled,
      fillUntilAsks_of_ok (by decide) first, fillUntilAsks_of_error (by decide) second]
    rfl
  rcases readNested_asks_when_short reader target with ⟨calls, last, short⟩
  rw [asks] at calls last short
  have left := last failure failed
  exact ⟨failed, asks, calls, (Option.some.inj left).symm, (short [0, 0, 0] (by simp)).1⟩

end Reader

end ContractAbi
