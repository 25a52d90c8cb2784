import ContractAbi.Proofs.Stream.Chunks
import ContractAbi.Stream.Writer

/-!
# What a writer delivers

Whatever the calls of a stream do, a call for a value puts the beginning of its
encoding on the stream: all of it if the stream takes it, whether the flush then
succeeds or not, and nothing if there is no encoding.  The stream receives these
pieces one after the other, and what a call has left in the buffer is in none of
the pieces that follow.
-/

namespace ContractAbi

namespace Reply

/-- The reply that a request ends with comes after interruptions only. -/
theorem settle_after_interruptions (script : List Reply) :
    ∃ waits, (∀ reply ∈ waits, reply = interrupted) ∧ 0 < (settle script).calls ∧
      match (settle script).outcome with
      | .error failure => script = waits ++ fails failure :: (settle script).script
      | .ok (some limit) => script = waits ++ moves limit :: (settle script).script
      | .ok none => script = waits ∧ (settle script).script = [] := by
  induction script with
  | nil => exact ⟨[], by simp, Nat.one_pos, rfl, rfl⟩
  | cons reply script ih =>
      cases reply with
      | moves limit => exact ⟨[], by simp, Nat.one_pos, rfl⟩
      | fails failure => exact ⟨[], by simp, Nat.one_pos, rfl⟩
      | interrupted =>
          rcases ih with ⟨waits, interruptions, _, ends⟩
          refine ⟨interrupted :: waits, List.forall_mem_cons.2 ⟨rfl, interruptions⟩,
            Nat.succ_pos _, ?_⟩
          rw [settle]
          rcases outcome : (settle script).outcome with failure | _ | limit
          · rw [outcome] at ends
            exact congrArg (interrupted :: ·) ends
          · rw [outcome] at ends
            exact ⟨congrArg (interrupted :: ·) ends.1, ends.2⟩
          · rw [outcome] at ends
            exact congrArg (interrupted :: ·) ends

theorem delivers_of_interrupted {waits : List Reply}
    (interruptions : ∀ reply ∈ waits, reply = interrupted) : ∀ reply ∈ waits, reply.Delivers := by
  intro reply mem
  rw [interruptions reply mem]
  trivial

/-- The reply ends the writing of bytes with this error. -/
inductive Stops : Reply → CodecError → Prop where
  | closed : Stops (moves 0) .streamClosed
  | failed (failure : IoFailure) : Stops (fails failure) (.io failure)

end Reply

namespace Sink

/-- The stream has received these bytes and has not been flushed. -/
structure Receives (sink next : Sink) (sent : Bytes) : Prop where
  received : next.received = sink.received ++ sent
  flushScript : next.flushScript = sink.flushScript
  flushes : next.flushes = sink.flushes

theorem Receives.trans {first second third : Sink} {front back : Bytes}
    (before : first.Receives second front) (after : second.Receives third back) :
    first.Receives third (front ++ back) := by
  refine ⟨?_, after.flushScript.trans before.flushScript, after.flushes.trans before.flushes⟩
  rw [after.received, before.received, List.append_assoc]

/-- Between two states all writes have moved bytes, except for the last one, which has
ended with this error. -/
def StopsWriting (sink next : Sink) (error : CodecError) : Prop :=
  ∃ used reply, sink.writeScript = used ++ reply :: next.writeScript ∧
    (∀ earlier ∈ used, earlier.Delivers) ∧ reply.Stops error

/-- How writing bytes can end: with all of them received, or before the last one. -/
inductive Writes (sink : Sink) (bytes : Bytes) : Option CodecError → Sink → Prop where
  | all {next} : sink.Receives next bytes → Writes sink bytes none next
  | stopped {next sent unsent error} : bytes = sent ++ unsent → unsent ≠ [] →
      sink.Receives next sent → sink.StopsWriting next error →
      Writes sink bytes (some error) next

/-- What follows after some bytes have been received. -/
theorem Writes.after {sink middle next : Sink} {bytes front back : Bytes}
    {error : Option CodecError} (split : front ++ back = bytes)
    (received : sink.Receives middle front)
    (stops : ∀ failure, middle.StopsWriting next failure → sink.StopsWriting next failure)
    (rest : middle.Writes back error next) : sink.Writes bytes error next := by
  subst split
  cases rest with
  | all moved => exact .all (received.trans moved)
  | stopped same left moved stopped =>
      rw [same, ← List.append_assoc]
      exact .stopped rfl left (received.trans moved) (stops _ stopped)

/-- All bytes reach the sink, or those before an error that stops the writing.  The induction
follows the script of the sink. -/
theorem writeAll_writes (sink : Sink) (bytes : Bytes) :
    sink.Writes bytes (sink.writeAll bytes).1 (sink.writeAll bytes).2 := by
  fun_induction writeAll sink bytes with
  | case1 sink bytes empty =>
      rw [List.isEmpty_iff.1 empty]
      exact .all ⟨(List.append_nil _).symm, rfl, rfl⟩
  | case2 sink bytes some settled next failure failed =>
      rcases Reply.settle_after_interruptions sink.writeScript with ⟨waits, interruptions, _, ends⟩
      simp only [settled] at failed
      rw [failed] at ends
      refine .stopped (List.nil_append bytes).symm (by simpa using some)
        ⟨(List.append_nil _).symm, rfl, rfl⟩ ⟨waits, _, ends, ?_, .failed failure⟩
      exact Reply.delivers_of_interrupted interruptions
  | case3 sink bytes some settled next limit settledTo count none =>
      rcases Reply.settle_after_interruptions sink.writeScript with ⟨waits, interruptions, _, ends⟩
      simp only [settled] at settledTo
      rw [settledTo] at ends
      refine .stopped (List.nil_append bytes).symm (by simpa using some)
        ⟨(List.append_nil _).symm, rfl, rfl⟩ ?_
      -- There are bytes, so no bytes were moved because of the script.
      cases limit with
      | none => exact absurd (List.length_eq_zero_iff.1 none) (by simpa using some)
      | some limit =>
          have closed : limit = 0 := none
          subst closed
          exact ⟨waits, _, ends, Reply.delivers_of_interrupted interruptions, .closed⟩
  | case4 sink bytes some settled middle limit settledTo count progress ih =>
      rcases Reply.settle_after_interruptions sink.writeScript with ⟨waits, interruptions, _, ends⟩
      simp only [settled] at settledTo
      rw [settledTo] at ends
      have moved : sink.Receives { middle with received := middle.received ++ bytes.take count }
          (bytes.take count) := ⟨rfl, rfl, rfl⟩
      refine ih.after (List.take_append_drop count bytes) moved ?_
      rintro failure ⟨used, reply, script, delivers, stops⟩
      cases limit with
      | none => exact absurd (ends.2.symm.trans script) (by simp)
      | some limit =>
          refine ⟨waits ++ .moves limit :: used, reply, ?_, ?_, stops⟩
          · rw [ends, List.append_assoc, List.cons_append]
            exact congrArg (waits ++ .moves limit :: ·) script
          · rw [List.forall_mem_append, List.forall_mem_cons]
            exact ⟨Reply.delivers_of_interrupted interruptions, Nat.pos_of_ne_zero progress,
              delivers⟩

/-- The flush has been interrupted some times and then failed. -/
def StopsFlushing (sink next : Sink) (failure : IoFailure) : Prop :=
  ∃ waits, sink.flushScript = waits ++ .fails failure :: next.flushScript ∧
    ∀ reply ∈ waits, reply = .interrupted

/-- How a call for a value can end, with the bytes that it has put on the stream. -/
inductive Delivers (sink : Sink) (value : Value) (context : Context) :
    Option CodecError → Sink → Bytes → Prop where
  /-- Without an encoding the stream is not touched. -/
  | unencodable {error} : value.encode context = .error error →
      Delivers sink value context (some error) sink []
  /-- A write has failed, or moved nothing, before the last byte. -/
  | stopped {next sent unsent error} : value.encode context = .ok (sent ++ unsent) →
      unsent ≠ [] → next.received = sink.received ++ sent → next.flushes = sink.flushes →
      sink.StopsWriting next error → Delivers sink value context (some error) next sent
  /-- Only the flush has failed. -/
  | unflushed {next form failure} : value.encode context = .ok form →
      next.received = sink.received ++ form → sink.flushes < next.flushes →
      sink.StopsFlushing next failure → Delivers sink value context (some (.io failure)) next form
  | delivered {next form} : value.encode context = .ok form →
      next.received = sink.received ++ form → sink.flushes < next.flushes →
      Delivers sink value context none next form

theorem Delivers.received {sink next : Sink} {value : Value} {context : Context}
    {error : Option CodecError} {sent : Bytes}
    (delivers : sink.Delivers value context error next sent) :
    next.received = sink.received ++ sent := by
  cases delivers with
  | unencodable _ => exact (List.append_nil _).symm
  | stopped _ _ received _ _ => exact received
  | unflushed _ received _ _ => exact received
  | delivered _ received _ => exact received

/-- After all bytes have been received, the call ends as the flush does. -/
theorem Delivers.of_flush {sink middle : Sink} {value : Value} {context : Context} {form : Bytes}
    (encoded : value.encode context = .ok form) (received : sink.Receives middle form) :
    sink.Delivers value context middle.flush.1 middle.flush.2 form := by
  rcases Reply.settle_after_interruptions middle.flushScript with
    ⟨waits, interruptions, called, ends⟩
  rw [received.flushScript] at called ends
  have flushed : sink.flushes < middle.flushes + (Reply.settle sink.flushScript).calls := by
    rw [received.flushes]
    exact Nat.lt_add_of_pos_right called
  rcases settled : (Reply.settle sink.flushScript).outcome with failure | limit
  · rw [settled] at ends
    simp only [flush, received.flushScript, settled]
    exact .unflushed encoded received.received flushed ⟨waits, ends, interruptions⟩
  · simp only [flush, received.flushScript, settled]
    exact .delivered encoded received.received flushed

/-- A call sends what of the value can be encoded, as far as the sink takes it, and flushes only if
all of it was. -/
theorem writeValue_delivers (sink : Sink) (value : Value) (context : Context) :
    ∃ sent, sink.Delivers value context (sink.writeValue value context).1
      (sink.writeValue value context).2 sent := by
  cases encoded : value.encode context with
  | error error =>
      simp only [writeValue, encoded]
      exact ⟨[], .unencodable encoded⟩
  | ok form =>
      have ends := writeAll_writes sink form
      rcases written : sink.writeAll form with ⟨error, middle⟩
      rw [written] at ends
      cases ends with
      | all received =>
          simp only [writeValue, encoded, written]
          exact ⟨form, .of_flush encoded received⟩
      | @stopped _ sent unsent _ same left received stopped =>
          simp only [writeValue, encoded, written]
          rw [same] at encoded
          exact ⟨sent, .stopped encoded left received.received received.flushes stopped⟩

end Sink

namespace Writer

/-- What one call has answered, and the stream before and after it. -/
structure Entry where
  before : Sink
  error : Option CodecError
  after : Sink

/-- The bytes that the stream has received in between. -/
def Entry.sent (entry : Entry) : Bytes :=
  entry.after.received.drop entry.before.received.length

/-- The writer after one call after the other, and what each call has done. -/
def writeEach (writer : Writer) : List (Value × Context) → Writer × List Entry
  | [] => (writer, [])
  | (value, context) :: calls =>
    let outcome := writer.writeValue value context
    let later := outcome.2.writeEach calls
    (later.1, ⟨writer.sink, outcome.1, outcome.2.sink⟩ :: later.2)

/-- The call does what its value, its context and the stream determine. -/
theorem writeValue_buffer (writer : Writer) (buffer : Bytes) (value : Value) (context : Context) :
    { writer with buffer }.writeValue value context = writer.writeValue value context := by
  rw [writeValue_eq, writeValue_eq]

theorem writeValue_entry (writer : Writer) (value : Value) (context : Context) :
    let outcome := writer.writeValue value context
    let entry : Entry := ⟨writer.sink, outcome.1, outcome.2.sink⟩
    writer.sink.Delivers value context outcome.1 outcome.2.sink entry.sent ∧
      outcome.2.sink.received = writer.sink.received ++ entry.sent := by
  rcases writer.sink.writeValue_delivers value context with ⟨sent, delivers⟩
  have received := delivers.received
  simp only [writeValue_eq, Entry.sent, received, List.drop_left]
  exact ⟨delivers, trivial⟩

/-- Each call of a sequence puts a beginning of its own encoding on the stream: all of
it if the call succeeds or only the flush fails, less if a write fails, and nothing if
there is no encoding.  The stream receives these pieces in order and nothing else,
whatever the buffer has held before. -/
theorem writeEach_delivers (writer : Writer) (calls : List (Value × Context)) :
    List.Forall₂ (fun call entry => entry.before.Delivers call.1 call.2 entry.error entry.after
        entry.sent) calls (writer.writeEach calls).2 ∧
      (writer.writeEach calls).1.sink.received =
        writer.sink.received ++ (writer.writeEach calls).2.flatMap Entry.sent ∧
      ∀ buffer, ({ writer with buffer }.writeEach calls).2 = (writer.writeEach calls).2 := by
  induction calls generalizing writer with
  | nil => exact ⟨.nil, (List.append_nil _).symm, fun _ => rfl⟩
  | cons call calls ih =>
      rcases call with ⟨value, context⟩
      rcases writeValue_entry writer value context with ⟨delivers, received⟩
      rcases ih (writer.writeValue value context).2 with ⟨later, total, _⟩
      refine ⟨.cons delivers later, ?_, ?_⟩
      · simp only [writeEach, List.flatMap_cons]
        rw [total, received, List.append_assoc]
      · intro buffer
        simp only [writeEach, writeValue_buffer]

example :
    let reset : IoFailure := ⟨.other, "reset"⟩
    let writer : Writer :=
      { sink :=
          { writeScript := [.moves 1, .interrupted, .fails reset, .moves 4, .moves 9, .moves 0]
            flushScript := [.interrupted, .fails reset] } }
    let entries := (writer.writeEach [(.int .u16 258, .nested),
      (.struct [("a", .bool true), ("b", .address [7])], .nested), (.int .u16 259, .nested),
      (.bool true, .topLevel), (.bool true, .topLevel)]).2
    entries.map (fun entry => (entry.error, entry.sent)) =
      [(some (.io reset), [1]), (some (.field "b" (.invalidLength "address" 1 32)), []),
        (some (.io reset), [1, 3]), (none, [1]), (some .streamClosed, [])] := by
  cbv

end Writer

end ContractAbi
