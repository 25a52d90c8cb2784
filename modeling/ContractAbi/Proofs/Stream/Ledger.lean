import ContractAbi.Proofs.Codec.RoundTrip
import ContractAbi.Proofs.Stream.Resumption

/-!
# Whole runs of a reader

A caller reads values and whole payloads in any order, and the stream may grow in between.
After every request, the bytes consumed so far, the buffer and the rest of the stream are
together all the bytes that were ever supplied.  What a single request consumes depends on
how it ends: nothing if it fails, the bytes of one value, or the whole buffer.
-/

namespace ContractAbi

/-- What a caller can do with a reader and its stream. -/
inductive Request where
  | nested (target : Value)
  | topLevel (target : Value)
  /-- More bytes arrive at the end of the stream. -/
  | feed (more : Bytes)

def Request.supplied : Request → Bytes
  | feed more => more
  | nested _ | topLevel _ => []

namespace Reader

/-- The bytes that remained to be decoded before and no longer do. -/
def consumed (reader next : Reader) : Bytes :=
  reader.remaining.take (reader.remaining.length - next.remaining.length)

theorem consumed_eq {reader next : Reader} {used : Bytes}
    (same : reader.remaining = used ++ next.remaining) : reader.consumed next = used := by
  simp [consumed, same]

/-- The reader after a request, and the bytes that the request has consumed. -/
def serve (reader : Reader) : Request → Reader × Bytes
  | .nested target =>
    let next := (reader.readNested target).reader
    (next, reader.consumed next)
  | .topLevel target =>
    let next := (reader.readTopLevel target).reader
    (next, reader.consumed next)
  | .feed more => (reader.feed more, [])

/-- The reader after one request after the other, and all the bytes consumed. -/
def serveAll (reader : Reader) : List Request → Reader × Bytes
  | [] => (reader, [])
  | request :: requests =>
    let served := reader.serve request
    let later := served.1.serveAll requests
    (later.1, served.2 ++ later.2)

/-- What a nested read does with the bytes it finds. -/
structure NestedFootprint (reader : Reader) (target : Value) (outcome : Outcome) : Prop where
  split : reader.remaining = reader.consumed outcome.reader ++ outcome.reader.remaining
  failed : outcome.error ≠ none →
    reader.consumed outcome.reader = [] ∧ ∃ taken, reader.Gains outcome.reader taken
  completed : outcome.error = none →
    target.Reads reader.maxLength outcome.target (reader.consumed outcome.reader)

/-- What a read of the whole rest does with the bytes it finds. -/
structure TopLevelFootprint (reader : Reader) (target : Value) (outcome : Outcome) : Prop where
  split : reader.remaining = reader.consumed outcome.reader ++ outcome.reader.remaining
  interrupted : ∀ failure, outcome.error = some (.io failure) →
    outcome.target = target ∧ reader.consumed outcome.reader = [] ∧
      ∃ taken, reader.Gains outcome.reader taken
  finished : (∀ failure, outcome.error ≠ some (.io failure)) →
    ∃ received taken, reader.Gains received taken ∧
      outcome.reader = { received with buffer := [] } ∧
      reader.consumed outcome.reader = received.buffer ∧
      target.decodePayload reader.maxLength received.buffer = (outcome.target, outcome.error)

theorem Gains.consumed {reader next : Reader} {taken : Bytes}
    (gains : reader.Gains next taken) : reader.consumed next = [] :=
  consumed_eq gains.remaining.symm

theorem Gains.split {reader next : Reader} {taken : Bytes} (gains : reader.Gains next taken) :
    reader.remaining = reader.consumed next ++ next.remaining := by
  rw [gains.consumed, gains.remaining, List.nil_append]

/-- Bytes at the front of the buffer that is left behind have been consumed. -/
theorem Gains.split_of_buffer {reader received : Reader} {taken used rest : Bytes}
    (gains : reader.Gains received taken) (same : received.buffer = used ++ rest) :
    reader.consumed { received with buffer := rest } = used ∧
      reader.remaining = reader.consumed { received with buffer := rest } ++
        ({ received with buffer := rest } : Reader).remaining := by
  have split : reader.remaining =
      used ++ ({ received with buffer := rest } : Reader).remaining := by
    rw [← gains.remaining]
    simp [Reader.remaining, same]
  rw [consumed_eq split]
  exact ⟨rfl, split⟩

/-- A read that fails consumes nothing, one that succeeds consumes the bytes of the value. -/
theorem readNested_footprint (reader : Reader) (target : Value) :
    reader.NestedFootprint target (reader.readNested target) := by
  rcases readNested_endsWith reader target with ⟨received, taken, gained, ends⟩
  generalize reader.readNested target = outcome at ends
  cases ends with
  | failed =>
      refine ⟨gained.split, ?_, ?_⟩
      · intro _
        exact ⟨gained.consumed, taken, gained⟩
      · rintro ⟨⟩
  | completed decoded =>
      rcases Value.readsWhatItDecodes _ _ _ _ _ decoded with ⟨bytes, same, reads⟩
      rcases gained.split_of_buffer same with ⟨used, split⟩
      refine ⟨split, by simp, ?_⟩
      intro _
      rwa [used, ← gained.maxLength]

theorem readTopLevel_footprint (reader : Reader) (target : Value) :
    reader.TopLevelFootprint target (reader.readTopLevel target) := by
  rw [readTopLevel]
  split
  · rename_i failure next filled
    rcases fillUntil_gains filled with ⟨taken, gained⟩
    refine ⟨gained.split, ?_, ?_⟩
    · intro _ _
      exact ⟨rfl, gained.consumed, taken, gained⟩
    · intro other
      exact absurd rfl (other failure)
  · rename_i next filled
    rcases fillUntil_gains filled with ⟨taken, gained⟩
    rcases gained.split_of_buffer (List.append_nil next.buffer).symm with ⟨used, split⟩
    refine ⟨split, ?_, ?_⟩
    · intro failure failed
      exact absurd failed (Value.decodePayload_error_ne_io _ _ _ _)
    · intro _
      exact ⟨next, taken, gained, rfl, used, by rw [gained.maxLength]⟩

/-- If the stream goes on with the encoding of a value, a read consumes this encoding. -/
theorem NestedFootprint.consumed_eq_encoding {reader : Reader} {target value : Value}
    {outcome : Outcome} {form rest : Bytes} (footprint : reader.NestedFootprint target outcome)
    (success : outcome.error = none) (fits : value.Fits target)
    (short : ∀ length ∈ value.prefixes .nested, length ≤ reader.maxLength)
    (encoded : value.encode .nested = .ok form) (next : reader.remaining = form ++ rest) :
    outcome.target = value.into target ∧ reader.consumed outcome.reader = form := by
  -- Two ways to decode the remaining bytes: as they were consumed, and as they were encoded.
  have found := (footprint.completed success).again outcome.reader.remaining
  have back := Value.readsBack_of_fits fits short form rest encoded
  rw [← footprint.split, next, back, Decoded.mk.injEq] at found
  rcases found with ⟨target, left, _⟩
  refine ⟨target.symm, (List.append_left_inj outcome.reader.remaining).1 ?_⟩
  rw [← footprint.split, next, left]

/-- A request moves bytes, and drops and repeats none. -/
theorem serve_conserves (reader : Reader) (request : Request) :
    (reader.serve request).2 ++ (reader.serve request).1.remaining =
      reader.remaining ++ request.supplied := by
  cases request with
  | nested target =>
      rw [Request.supplied, List.append_nil]
      exact (readNested_footprint reader target).split.symm
  | topLevel target =>
      rw [Request.supplied, List.append_nil]
      exact (readTopLevel_footprint reader target).split.symm
  | feed more => simp [serve, feed, Source.feed, remaining, Request.supplied]

/-- What requests consume and what then remains is what there was and what they have supplied. -/
theorem serveAll_conserves (reader : Reader) (requests : List Request) :
    (reader.serveAll requests).2 ++ (reader.serveAll requests).1.remaining =
      reader.remaining ++ requests.flatMap Request.supplied := by
  induction requests generalizing reader with
  | nil => simp [serveAll]
  | cons request requests ih =>
      simp only [serveAll, List.flatMap_cons, List.append_assoc, ih]
      rw [← List.append_assoc, serve_conserves, List.append_assoc]

/-- No run loses or repeats a byte: those consumed, those in the buffer and those left on
the stream are all that were supplied, in order.  A nested read that fails consumes none
and one that succeeds consumes the encoding of its value; a read of the whole rest consumes
none if the stream fails, and else the whole buffer.  So a nested read that is made again
after a failure of the stream gives what it would have given without the failure. -/
theorem serveAll_keeps_bytes (reader : Reader) :
    (∀ requests, (reader.serveAll requests).2 ++ (reader.serveAll requests).1.buffer ++
        (reader.serveAll requests).1.source.data =
          reader.buffer ++ reader.source.data ++ requests.flatMap Request.supplied) ∧
      (∀ target, reader.NestedFootprint target (reader.readNested target)) ∧
      (∀ (target value : Value) (form rest : Bytes), (reader.readNested target).error = none →
        value.Fits target → (∀ length ∈ value.prefixes .nested, length ≤ reader.maxLength) →
        value.encode .nested = .ok form → reader.remaining = form ++ rest →
          (reader.readNested target).target = value.into target ∧
            reader.consumed (reader.readNested target).reader = form) ∧
      (∀ target, reader.TopLevelFootprint target (reader.readTopLevel target)) ∧
      ∀ target failure, (reader.readNested target).error = some (.io failure) →
        ∃ used rest, reader.source.script = used ++ .fails failure :: rest ∧
          (∀ reply ∈ used, reply.Passes) ∧
          (reader.readNested target).reader.readNested (reader.readNested target).target =
            (reader.skipping (used ++ rest)).readNested target := by
  refine ⟨?_, readNested_footprint reader, ?_, readTopLevel_footprint reader, ?_⟩
  · intro requests
    rw [List.append_assoc]
    exact serveAll_conserves reader requests
  · intro target value form rest success fits short encoded next
    exact (readNested_footprint reader target).consumed_eq_encoding success fits short encoded next
  · intro target failure failed
    exact readNested_again failed

theorem serveAll_keeps_bytes_reset :
    let failure : IoFailure := ⟨.other, "reset"⟩
    let data := [0, 0, 0, 2, 7, 8, 1]
    let reader : Reader :=
      { source := { data, script := [.moves 3, .interrupted, .fails failure, .moves 4] } }
    let smooth : Reader := { source := { data, script := [.moves 3, .interrupted, .moves 4] } }
    let target := Value.bytes []
    let requests := [Request.nested target, .feed [9], .nested target, .topLevel target]
    ((reader.readNested target).error = some (.io failure) ∧
      reader.consumed (reader.readNested target).reader = [] ∧
      ∃ used rest, reader.source.script = used ++ .fails failure :: rest ∧
        (∀ reply ∈ used, reply.Passes) ∧
        (reader.readNested target).reader.readNested (reader.readNested target).target =
          (reader.skipping (used ++ rest)).readNested target) ∧
      ((smooth.readNested target).error = none ∧
        (smooth.readNested target).target = .bytes [7, 8] ∧
        smooth.consumed (smooth.readNested target).reader = [0, 0, 0, 2, 7, 8]) ∧
      ((reader.readTopLevel target).error = some (.io failure) ∧
        reader.consumed (reader.readTopLevel target).reader = []) ∧
      ((smooth.readTopLevel target).error = none ∧
        (smooth.readTopLevel target).reader.buffer = []) ∧
      (reader.serveAll requests).2 ++ (reader.serveAll requests).1.buffer ++
        (reader.serveAll requests).1.source.data = [0, 0, 0, 2, 7, 8, 1, 9] := by
  intro failure data reader smooth target requests
  have start : target.decode defaultMaxLength .nested [] =
      ⟨target, [], some (.shortRead 4 0)⟩ := by rfl
  have whole : target.decode defaultMaxLength .nested data = ⟨.bytes [7, 8], [1], none⟩ := by rfl
  have failed : (reader.readNested target).error = some (.io failure) := by
    rw [readNested_of_shortRead reader start rfl rfl rfl]
    simp [reader, data, shortfall, fillUntil_of_waiting, fill, Source.receive, Reply.settle,
      Source.chunkSize]
  have done : (smooth.readNested target).error = none := by
    rw [readNested_of_shortRead smooth start rfl rfl rfl]
    simp [smooth, data, shortfall, fillUntil_of_waiting, fillUntil, fill, Source.receive,
      Reply.settle, Source.chunkSize, readNested, whole]
  have stopped : (reader.readTopLevel target).error = some (.io failure) := by
    simp [reader, data, readTopLevel, fillUntil_of_waiting, fill, Source.receive, Reply.settle,
      Source.chunkSize]
  have ended : (smooth.readTopLevel target).error = none := by
    simp [smooth, data, readTopLevel, fillUntil_of_waiting, fillUntil, fill, Source.receive,
      Reply.settle, Source.chunkSize, target, Value.decodePayload, Value.decode, Value.readPayload,
      Bytes.readAll, Read.fill]
  rcases serveAll_keeps_bytes reader with ⟨conserves, nested, _, topLevel, again⟩
  rcases serveAll_keeps_bytes smooth with ⟨_, _, encoded, topLevelSmooth, _⟩
  have value := encoded target (.bytes [7, 8]) [0, 0, 0, 2, 7, 8] [1] done (.bytes _ _)
    (by simp [Value.prefixes, smooth, defaultMaxLength]) rfl rfl
  have emptied : (smooth.readTopLevel target).reader.buffer = [] := by
    rcases (topLevelSmooth target).finished (by simp [ended]) with ⟨received, _, _, next, _⟩
    rw [next]
  exact ⟨⟨failed, ((nested target).failed (by simp [failed])).1, again target failure failed⟩,
    ⟨done, value⟩, ⟨stopped, ((topLevel target).interrupted failure stopped).2.1⟩,
    ⟨ended, emptied⟩, conserves requests⟩

end Reader

end ContractAbi
