import ContractAbi.Proofs.Codec.Consumed
import ContractAbi.Proofs.Codec.Failure
import ContractAbi.Proofs.Stream.Chunks

/-!
# What a read leaves

Whatever the calls of a stream do, receiving moves bytes from the front of the stream to
the end of the buffer.  A nested read then either keeps all of them or takes the bytes of
one value off the front of the buffer, and a read of the whole rest keeps them exactly
when the stream fails.
-/

namespace ContractAbi.Reader

/-- The reader has moved these bytes from the stream to its buffer. -/
structure Gains (reader next : Reader) (taken : Bytes) : Prop where
  buffer : next.buffer = reader.buffer ++ taken
  data : reader.source.data = taken ++ next.source.data
  maxLength : next.maxLength = reader.maxLength

theorem Gains.refl (reader : Reader) : reader.Gains reader [] :=
  ⟨(List.append_nil _).symm, rfl, rfl⟩

theorem Gains.trans {first second third : Reader} {front back : Bytes}
    (before : first.Gains second front) (after : second.Gains third back) :
    first.Gains third (front ++ back) := by
  refine ⟨?_, ?_, after.maxLength.trans before.maxLength⟩
  · rw [after.buffer, before.buffer, List.append_assoc]
  · rw [before.data, after.data, List.append_assoc]

theorem Gains.remaining {reader next : Reader} {taken : Bytes}
    (gains : reader.Gains next taken) : next.remaining = reader.remaining := by
  simp only [Reader.remaining, gains.buffer, gains.data, List.append_assoc]

theorem fill_gains {reader next : Reader} {result : Except IoFailure Unit}
    (filled : reader.fill = (result, next)) : ∃ taken, reader.Gains next taken := by
  rw [fill] at filled
  split at filled
  · rename_i failure source received
    cases filled
    exact ⟨[], (List.append_nil _).symm, (Source.receive_data_of_error received).symm, rfl⟩
  · rename_i source received
    cases filled
    exact ⟨[], (List.append_nil _).symm, (Source.receive_data received).symm, rfl⟩
  · rename_i chunk source _ received
    cases filled
    exact ⟨chunk, rfl, (Source.receive_data received).symm, rfl⟩

theorem fillUntil_gains {reader next : Reader} {enough : Bytes → Bool}
    {result : Except IoFailure Unit} (filled : reader.fillUntil enough = (result, next)) :
    ∃ taken, reader.Gains next taken := by
  fun_induction fillUntil enough reader with
  | case1 reader stopped =>
      cases filled
      exact ⟨[], .refl _⟩
  | case2 reader waiting failure between received =>
      cases filled
      exact fill_gains received
  | case3 reader waiting between received ih =>
      rcases fill_gains received with ⟨front, gained⟩
      rcases ih filled with ⟨back, gainedMore⟩
      exact ⟨front ++ back, gained.trans gainedMore⟩

/-- How a nested read can end once certain bytes have been received: with an error and all
of them, or with the value that they begin with and the others. -/
inductive EndsWith (target : Value) (received : Reader) : Outcome → Prop where
  | failed {left error} : EndsWith target received ⟨left, received, some error⟩
  | completed {value rest} :
      target.decode received.maxLength .nested received.buffer = ⟨value, rest, none⟩ →
      EndsWith target received ⟨value, { received with buffer := rest }, none⟩

/-- A nested read takes bytes from the stream to its buffer and ends with an error or with the value
they begin with. -/
theorem readNested_endsWith (reader : Reader) (target : Value) :
    ∃ received taken, reader.Gains received taken ∧
      EndsWith target received (reader.readNested target) := by
  fun_induction readNested reader target with
  | case1 reader target decoded success =>
      refine ⟨reader, [], .refl reader, .completed ?_⟩
      rw [← success]
  | case2 reader target decoded error failed needed available short ended =>
      exact ⟨reader, [], .refl reader, .failed⟩
  | case3 reader target decoded error failed needed available short going size failure next
      filled =>
      rcases fillUntil_gains filled with ⟨taken, gained⟩
      exact ⟨next, taken, gained, .failed⟩
  | case4 reader target decoded error failed needed available short going size next filled ih =>
      rcases fillUntil_gains filled with ⟨front, gained⟩
      rcases ih with ⟨received, back, gainedMore, ends⟩
      have all := gained.trans gainedMore
      refine ⟨received, front ++ back, all, ?_⟩
      -- The first pass changed the target, which decodes the longer buffer all the same.
      have again : decoded.target.decode received.maxLength .nested received.buffer =
          target.decode received.maxLength .nested received.buffer := by
        rw [all.buffer, all.maxLength]
        exact Value.decode_retry reader.maxLength target reader.buffer (front ++ back)
      generalize next.readNested decoded.target = outcome at ends
      cases ends with
      | failed => exact .failed
      | completed read => exact .completed (again.symm.trans read)
  | case5 reader target decoded error failed other =>
      exact ⟨reader, [], .refl reader, .failed⟩

end ContractAbi.Reader
