import ContractAbi.Codec.Error

/-!
# Streams with a script

A stream moves bytes in calls, and each call may move less than asked, be
interrupted or fail.  What the calls do is given in advance by a script; after
its last reply every call moves all it can.  A call that is interrupted is
repeated, so a request ends with the first other reply.
-/

namespace ContractAbi

inductive Reply where
  /-- Move at most so many bytes. -/
  | moves (limit : Nat)
  | interrupted
  | fails (failure : IoFailure)
deriving DecidableEq, Repr, Inhabited

/-- How a request ends that is repeated while it is interrupted. -/
structure Settled where
  /-- The limit on the bytes moved, if there is one. -/
  outcome : Except IoFailure (Option Nat)
  script : List Reply
  calls : Nat

namespace Reply

/-- Take replies up to the first that is no interruption. -/
def settle : List Reply → Settled
  | [] => ⟨.ok none, [], 1⟩
  | moves limit :: script => ⟨.ok (some limit), script, 1⟩
  | fails failure :: script => ⟨.error failure, script, 1⟩
  | interrupted :: script =>
    let later := settle script
    { later with calls := later.calls + 1 }

end Reply

/-- A stream to read from. -/
structure Source where
  /-- The bytes not taken yet. -/
  data : Bytes
  script : List Reply := []
  calls : Nat := 0
  position : Nat := 0

namespace Source

/-- The most bytes that one call takes. -/
def chunkSize : Nat := 8 * 1024

/-- Ask for bytes.  No bytes at all mean the end of the stream. -/
def receive (source : Source) : Except IoFailure Bytes × Source :=
  let settled := Reply.settle source.script
  let source := { source with script := settled.script, calls := source.calls + settled.calls }
  match settled.outcome with
  | .error failure => (.error failure, source)
  | .ok limit =>
    let count := min chunkSize (limit.getD chunkSize)
    let chunk := source.data.take count
    (.ok chunk,
      { source with data := source.data.drop count, position := source.position + chunk.length })

def feed (source : Source) (more : Bytes) : Source :=
  { source with data := source.data ++ more }

theorem receive_data {source next : Source} {chunk : Bytes}
    (received : source.receive = (.ok chunk, next)) : chunk ++ next.data = source.data := by
  simp only [receive] at received
  split at received
  · simp at received
  · simp only [Prod.mk.injEq, Except.ok.injEq] at received
    rw [← received.1, ← received.2]
    simp

theorem receive_data_of_error {source next : Source} {failure : IoFailure}
    (received : source.receive = (.error failure, next)) : next.data = source.data := by
  simp only [receive] at received
  split at received
  · simp only [Prod.mk.injEq] at received
    rw [← received.2]
  · simp at received

end Source

/-- A stream to write to. -/
structure Sink where
  received : Bytes := []
  writeScript : List Reply := []
  flushScript : List Reply := []
  writes : Nat := 0
  flushes : Nat := 0

namespace Sink

/-- Write until all bytes have arrived.  A call that moves none closes the stream. -/
def writeAll (sink : Sink) (bytes : Bytes) : Option CodecError × Sink :=
  if bytes.isEmpty then (none, sink)
  else
    let settled := Reply.settle sink.writeScript
    let sink :=
      { sink with writeScript := settled.script, writes := sink.writes + settled.calls }
    match settled.outcome with
    | .error failure => (some (.io failure), sink)
    | .ok limit =>
      let count := limit.getD bytes.length
      if count = 0 then (some .streamClosed, sink)
      else
        writeAll { sink with received := sink.received ++ bytes.take count } (bytes.drop count)
termination_by bytes.length
decreasing_by
  rename_i nonempty positive
  have : bytes.length ≠ 0 := by simpa using nonempty
  simp only [List.length_drop]
  omega

/-- Pass on what the stream still holds back. -/
def flush (sink : Sink) : Option CodecError × Sink :=
  let settled := Reply.settle sink.flushScript
  let sink := { sink with flushScript := settled.script, flushes := sink.flushes + settled.calls }
  match settled.outcome with
  | .error failure => (some (.io failure), sink)
  | .ok _ => (none, sink)

end Sink

end ContractAbi
