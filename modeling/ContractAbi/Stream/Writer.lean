import ContractAbi.Codec.Encode
import ContractAbi.Stream.Script

/-!
# Writing values to a stream

A writer encodes each value into its buffer before the first byte is written, so
a value without an encoding leaves the stream as it was.  After the last byte the
stream is flushed.  The buffer is cleared when the next value comes, so what a
failed call has left there is not written later.
-/

namespace ContractAbi

structure Writer where
  sink : Sink
  /-- What the last call has encoded, also if it failed. -/
  buffer : Bytes := []

namespace Writer

/-- Append the encoding of a value to the buffer, up to the first node without one. -/
def encode (writer : Writer) (value : Value) (context : Context) :
    Option CodecError × Writer :=
  let written := value.write context
  (written.error, { writer with buffer := writer.buffer ++ written.bytes })

/-- Write all of the buffer. -/
def drain (writer : Writer) : Option CodecError × Writer :=
  let (error, sink) := writer.sink.writeAll writer.buffer
  (error, { writer with sink })

def flush (writer : Writer) : Option CodecError × Writer :=
  let (error, sink) := writer.sink.flush
  (error, { writer with sink })

def writeValue (writer : Writer) (value : Value) (context : Context) :
    Option CodecError × Writer :=
  match { writer with buffer := [] }.encode value context with
  | (some error, writer) => (some error, writer)
  | (none, writer) =>
    match writer.drain with
    | (some error, writer) => (some error, writer)
    | (none, writer) => writer.flush

end Writer

/-- What a call of a writer does to its stream, whatever its buffer holds. -/
def Sink.writeValue (sink : Sink) (value : Value) (context : Context) :
    Option CodecError × Sink :=
  match value.encode context with
  | .error error => (some error, sink)
  | .ok bytes =>
    match sink.writeAll bytes with
    | (some error, sink) => (some error, sink)
    | (none, sink) => sink.flush

/-- The buffer holds what this call has encoded, and nothing from an earlier one. -/
theorem Writer.writeValue_eq (writer : Writer) (value : Value) (context : Context) :
    writer.writeValue value context =
      ((writer.sink.writeValue value context).1,
        ⟨(writer.sink.writeValue value context).2, (value.write context).bytes⟩) := by
  rcases written : value.write context with ⟨bytes, _ | error⟩
  · rcases sent : writer.sink.writeAll bytes with ⟨_ | error, sink⟩ <;>
      simp [writeValue, encode, drain, flush, Sink.writeValue, Value.encode, Written.result,
        written, sent]
  · simp [writeValue, encode, Sink.writeValue, Value.encode, Written.result, written]

end ContractAbi
