import ContractAbi.Codec.Decode
import ContractAbi.Stream.Script

/-!
# Reading values from a stream

A reader buffers what it receives and decodes from the buffer.  When a nested
value turns out to be cut off, the reader waits for all the bytes known to be
missing and decodes again into the same target; the bytes of a value leave the
buffer only when it is complete.
-/

namespace ContractAbi

structure Reader where
  source : Source
  /-- Bytes received but not decoded. -/
  buffer : Bytes := []
  /-- Whether the end of the stream has been seen. -/
  ended : Bool := false
  maxLength : Nat := defaultMaxLength

namespace Reader

/-- What receiving can still change: bytes to come, and the end of the stream. -/
def pending (reader : Reader) : Nat :=
  reader.source.data.length + if reader.ended then 0 else 1

/-- Receive bytes once.  The error is that of the stream. -/
def fill (reader : Reader) : Except IoFailure Unit × Reader :=
  match reader.source.receive with
  | (.error failure, source) => (.error failure, { reader with source })
  | (.ok [], source) => (.ok (), { reader with source, ended := true })
  | (.ok chunk, source) => (.ok (), { reader with source, buffer := reader.buffer ++ chunk })

theorem pending_fill {reader next : Reader} (open_ : reader.ended = false)
    (filled : reader.fill = (.ok (), next)) : next.pending < reader.pending := by
  simp only [fill] at filled
  split at filled
  · simp at filled
  · rename_i source received
    have data := Source.receive_data received
    simp only [Prod.mk.injEq, true_and] at filled
    rw [← filled]
    simp only [List.nil_append] at data
    simp [pending, open_, data]
  · rename_i chunk source nonempty received
    have data := congrArg List.length (Source.receive_data received)
    simp only [Prod.mk.injEq, true_and] at filled
    rw [← filled]
    have : chunk.length ≠ 0 := fun empty => nonempty (List.length_eq_zero_iff.1 empty)
    simp only [List.length_append] at data
    simp only [pending, open_, Bool.false_eq_true, if_false]
    omega

theorem pending_fill_of_error {reader next : Reader} {failure : IoFailure}
    (filled : reader.fill = (.error failure, next)) : next.pending = reader.pending := by
  simp only [fill] at filled
  split at filled
  · rename_i error source received
    have data := Source.receive_data_of_error received
    simp only [Prod.mk.injEq] at filled
    rw [← filled.2]
    simp [pending, data]
  · simp at filled
  · simp at filled

/-- Receive until the buffer is enough or the stream ends. -/
def fillUntil (enough : Bytes → Bool) (reader : Reader) : Except IoFailure Unit × Reader :=
  if reader.ended || enough reader.buffer then (.ok (), reader)
  else
    match _ : reader.fill with
    | (.error failure, next) => (.error failure, next)
    | (.ok (), next) => fillUntil enough next
termination_by reader.pending
decreasing_by
  rename_i waiting _
  simp only [Bool.or_eq_true, not_or, Bool.not_eq_true] at waiting
  exact pending_fill waiting.1 (by assumption)

theorem pending_fillUntil_le (enough : Bytes → Bool) (reader : Reader) :
    (reader.fillUntil enough).2.pending ≤ reader.pending := by
  fun_induction fillUntil enough reader with
  | case1 reader stopped => exact Nat.le_refl _
  | case2 reader waiting failure next filled =>
      exact Nat.le_of_eq (pending_fill_of_error filled)
  | case3 reader waiting next filled ih =>
      simp only [Bool.or_eq_true, not_or, Bool.not_eq_true] at waiting
      exact Nat.le_trans ih (Nat.le_of_lt (pending_fill waiting.1 filled))

theorem pending_fillUntil_lt {enough : Bytes → Bool} {reader next : Reader}
    (waiting : (reader.ended || enough reader.buffer) = false)
    (filled : reader.fillUntil enough = (.ok (), next)) : next.pending < reader.pending := by
  rw [fillUntil, waiting] at filled
  simp only [Bool.false_eq_true, if_false] at filled
  split at filled
  · simp at filled
  · rename_i between received
    have smaller := pending_fill (by simp_all) received
    have rest := pending_fillUntil_le enough between
    rw [filled] at rest
    exact Nat.lt_of_le_of_lt rest smaller

/-- A target after reading from a stream, the reader, and the error, if any. -/
structure Outcome where
  target : Value
  reader : Reader
  error : Option CodecError

/-- Number of bytes that the reader waits for after a short read. -/
def shortfall (needed available : Nat) : Nat :=
  max 1 (needed - available)

/-- Read the next nested value into a target.  A stream that ends before the
first byte of the value is closed; one that ends later cuts the value off. -/
def readNested (reader : Reader) (target : Value) : Outcome :=
  let decoded := target.decode reader.maxLength .nested reader.buffer
  match decoded.error with
  | none => ⟨decoded.target, { reader with buffer := decoded.rest }, none⟩
  | some error =>
    match error.root with
    | .shortRead needed available =>
      if reader.ended then
        ⟨decoded.target, reader, some (if reader.buffer.isEmpty then .streamClosed else error)⟩
      else
        let size := reader.buffer.length + shortfall needed available
        match _ : reader.fillUntil (size ≤ ·.length) with
        | (.error failure, next) => ⟨decoded.target, next, some (.io failure)⟩
        | (.ok (), next) => readNested next decoded.target
    | _ => ⟨decoded.target, reader, some error⟩
termination_by reader.pending
decreasing_by
  rename_i going _
  refine pending_fillUntil_lt ?_ (by assumption)
  have wanting : ¬ size ≤ reader.buffer.length := by
    simp only [size, shortfall]
    omega
  simpa [going] using wanting

/-- Read the whole rest of the stream as one top-level payload.  Once the stream
has ended the buffer counts as used, whatever decoding says. -/
def readTopLevel (reader : Reader) (target : Value) : Outcome :=
  match reader.fillUntil fun _ => false with
  | (.error failure, next) => ⟨target, next, some (.io failure)⟩
  | (.ok (), next) =>
    let (target, error) := target.decodePayload next.maxLength next.buffer
    ⟨target, { next with buffer := [] }, error⟩

/-- Put more bytes at the end of the stream.  A reader that has seen the end
does not look again. -/
def feed (reader : Reader) (more : Bytes) : Reader :=
  { reader with source := reader.source.feed more }

end Reader

end ContractAbi
