import ContractAbi.Proofs.Codec.Shortfall
import ContractAbi.Proofs.Stream.Receiving

/-!
# Going on after a failure of the stream

A nested read that the stream has interrupted can be made again with the target as it was
left.  What it then gives is what the first read would have given if the failing call had
not been in the script: what had been received is still there, so the reader misses the
same bytes and waits for the same total.
-/

namespace ContractAbi

namespace Reply

/-- The call does not fail. -/
def Passes : Reply → Prop
  | fails _ => False
  | _ => True

/-- A script that fails has passed over some replies, which may be put in front of any other
script. -/
theorem settle_of_error {script : List Reply} {failure : IoFailure}
    (failed : (settle script).outcome = .error failure) :
    ∃ used, script = used ++ fails failure :: (settle script).script ∧
      (∀ reply ∈ used, reply.Passes) ∧ (settle script).calls = used.length + 1 ∧
      ∀ rest, settle (used ++ rest) =
        { settle rest with calls := (settle rest).calls + used.length } := by
  induction script with
  | nil => cases failed
  | cons reply script ih =>
      cases reply with
      | moves limit => cases failed
      | fails other =>
          cases failed
          exact ⟨[], rfl, by simp, rfl, fun _ => rfl⟩
      | interrupted =>
          rcases ih failed with ⟨used, same, passes, calls, again⟩
          refine ⟨interrupted :: used, ?_, ?_, ?_, ?_⟩
          · rw [List.cons_append]
            exact congrArg (interrupted :: ·) same
          · exact List.forall_mem_cons.2 ⟨trivial, passes⟩
          · exact congrArg (· + 1) calls
          · intro rest
            rw [List.cons_append, settle, again rest]
            rfl

/-- So has one that gives data and is not at its end. -/
theorem settle_of_ok {script : List Reply} {limit : Option Nat}
    (settled : (settle script).outcome = .ok limit) (more : (settle script).script ≠ []) :
    ∃ used, script = used ++ (settle script).script ∧ (∀ reply ∈ used, reply.Passes) ∧
      ∀ rest, settle (used ++ rest) = { settle script with script := rest } := by
  induction script with
  | nil => exact absurd rfl more
  | cons reply script ih =>
      cases reply with
      | moves count =>
          refine ⟨[moves count], rfl, ?_, fun _ => rfl⟩
          simp [Passes]
      | fails failure => cases settled
      | interrupted =>
          rcases ih settled more with ⟨used, same, passes, again⟩
          refine ⟨interrupted :: used, ?_, ?_, ?_⟩
          · exact congrArg (interrupted :: ·) same
          · exact List.forall_mem_cons.2 ⟨trivial, passes⟩
          · intro rest
            rw [List.cons_append, settle, again rest]
            rfl

end Reply

namespace Source

/-- The stream with this script instead, after one more call. -/
def skipping (source : Source) (script : List Reply) : Source :=
  { source with script, calls := source.calls + 1 }

theorem receive_of_error {source next : Source} {failure : IoFailure}
    (received : source.receive = (.error failure, next)) :
    ∃ used, source.script = used ++ .fails failure :: next.script ∧
      (∀ reply ∈ used, reply.Passes) ∧
      (source.skipping (used ++ next.script)).receive = next.receive := by
  simp only [receive] at received
  split at received
  · rename_i found failed
    simp only [Prod.mk.injEq, Except.error.injEq] at received
    rcases received with ⟨rfl, rfl⟩
    rcases Reply.settle_of_error failed with ⟨used, same, passes, calls, again⟩
    refine ⟨used, same, passes, ?_⟩
    have total (later : Nat) : source.calls + 1 + (later + used.length) =
        source.calls + (Reply.settle source.script).calls + later := by
      omega
    simp only [receive, skipping, again, total]
  · cases received

theorem receive_of_ok {source next : Source} {chunk : Bytes}
    (received : source.receive = (.ok chunk, next)) (more : next.script ≠ []) :
    ∃ used, source.script = used ++ next.script ∧ (∀ reply ∈ used, reply.Passes) ∧
      ∀ rest, (source.skipping (used ++ rest)).receive = (.ok chunk, next.skipping rest) := by
  simp only [receive] at received
  split at received
  · cases received
  · rename_i limit settled
    simp only [Prod.mk.injEq, Except.ok.injEq] at received
    rcases received with ⟨rfl, rfl⟩
    rcases Reply.settle_of_ok settled more with ⟨used, same, passes, again⟩
    refine ⟨used, same, passes, ?_⟩
    intro rest
    simp only [receive, skipping, again, settled, Nat.add_right_comm]

end Source

namespace Reader

/-- The reader of the stream with this script instead, after one more call. -/
def skipping (reader : Reader) (script : List Reply) : Reader :=
  { reader with source := reader.source.skipping script }

theorem fill_of_error {reader next : Reader} {failure : IoFailure}
    (filled : reader.fill = (.error failure, next)) :
    next.buffer = reader.buffer ∧ next.ended = reader.ended ∧
      ∃ used, reader.source.script = used ++ .fails failure :: next.source.script ∧
        (∀ reply ∈ used, reply.Passes) ∧
        (reader.skipping (used ++ next.source.script)).fill = next.fill := by
  rw [fill] at filled
  split at filled
  · rename_i found source received
    cases filled
    rcases Source.receive_of_error received with ⟨used, same, passes, again⟩
    refine ⟨rfl, rfl, used, same, passes, ?_⟩
    simp only [fill, skipping, again]
  · cases filled
  · cases filled

theorem fill_of_ok {reader next : Reader} (filled : reader.fill = (.ok (), next))
    (more : next.source.script ≠ []) :
    ∃ used, reader.source.script = used ++ next.source.script ∧
      (∀ reply ∈ used, reply.Passes) ∧
      ∀ rest, (reader.skipping (used ++ rest)).fill = (.ok (), next.skipping rest) := by
  rw [fill] at filled
  split at filled
  · cases filled
  · rename_i source received
    cases filled
    rcases Source.receive_of_ok received more with ⟨used, same, passes, again⟩
    refine ⟨used, same, passes, ?_⟩
    intro rest
    simp only [fill, skipping, again]
  · rename_i chunk source some received
    cases filled
    rcases Source.receive_of_ok received more with ⟨used, same, passes, again⟩
    refine ⟨used, same, passes, ?_⟩
    intro rest
    simp only [fill, skipping, again]

theorem fillUntil_of_waiting {reader : Reader} {enough : Bytes → Bool}
    (waiting : ¬(reader.ended || enough reader.buffer) = true) :
    reader.fillUntil enough =
      match reader.fill with
      | (.error failure, next) => (.error failure, next)
      | (.ok (), next) => next.fillUntil enough := by
  rw [fillUntil, if_neg waiting]
  split <;> simp [*]

/-- Filling that a stream has broken off goes on as if the failure had not been in the script. -/
theorem fillUntil_of_error {reader next : Reader} {enough : Bytes → Bool} {failure : IoFailure}
    (filled : reader.fillUntil enough = (.error failure, next)) :
    (next.ended || enough next.buffer) = false ∧
      ∃ used, reader.source.script = used ++ .fails failure :: next.source.script ∧
        (∀ reply ∈ used, reply.Passes) ∧
        (reader.skipping (used ++ next.source.script)).fillUntil enough =
          next.fillUntil enough := by
  fun_induction fillUntil enough reader with
  | case1 reader stopped => cases filled
  | case2 reader waiting found between received =>
      cases filled
      rcases fill_of_error received with ⟨buffer, ended, used, same, passes, again⟩
      have waitingNext : ¬(next.ended || enough next.buffer) = true := by
        rwa [ended, buffer]
      refine ⟨Bool.not_eq_true _ ▸ waitingNext, used, same, passes, ?_⟩
      rw [fillUntil_of_waiting waitingNext, fillUntil_of_waiting (by exact waiting), again]
  | case3 reader waiting between received ih =>
      rcases ih filled with ⟨waitingNext, later, sameLater, passesLater, againLater⟩
      have more : between.source.script ≠ [] := by
        rw [sameLater]
        simp
      rcases fill_of_ok received more with ⟨used, same, passes, again⟩
      refine ⟨waitingNext, used ++ later, ?_, List.forall_mem_append.2 ⟨passes, passesLater⟩, ?_⟩
      · rw [same, sameLater, List.append_assoc]
      · rw [fillUntil_of_waiting (by exact waiting), List.append_assoc, again]
        exact againLater

/-- Filling that has succeeded depends only on the replies it has used. -/
theorem fillUntil_of_ok {reader next : Reader} {enough : Bytes → Bool}
    (filled : reader.fillUntil enough = (.ok (), next)) (more : next.source.script ≠ []) :
    ∃ used, reader.source.script = used ++ next.source.script ∧
      (∀ reply ∈ used, reply.Passes) ∧
      ∀ rest, (reader.skipping (used ++ rest)).fillUntil enough =
        (.ok (), next.skipping rest) := by
  fun_induction fillUntil enough reader with
  | case1 reader stopped =>
      cases filled
      refine ⟨[], rfl, by simp, ?_⟩
      intro rest
      rw [fillUntil, if_pos (by exact stopped)]
      rfl
  | case2 reader waiting found between received => cases filled
  | case3 reader waiting between received ih =>
      rcases ih filled with ⟨later, sameLater, passesLater, againLater⟩
      have moreBetween : between.source.script ≠ [] := by
        rw [sameLater]
        simp [more]
      rcases fill_of_ok received moreBetween with ⟨used, same, passes, again⟩
      refine ⟨used ++ later, ?_, List.forall_mem_append.2 ⟨passes, passesLater⟩, ?_⟩
      · rw [same, sameLater, List.append_assoc]
      · intro rest
        rw [fillUntil_of_waiting (by exact waiting), List.append_assoc, again]
        exact againLater rest

/-- A read of a value that is cut off waits for what is missing and tries again. -/
theorem readNested_of_shortRead (reader : Reader) {target : Value} {decoded : Decoded Value}
    {error : CodecError} {needed available : Nat}
    (cut : target.decode reader.maxLength .nested reader.buffer = decoded)
    (failed : decoded.error = some error) (short : error.root = .shortRead needed available)
    (going : reader.ended = false) :
    reader.readNested target =
      match reader.fillUntil
        (reader.buffer.length + shortfall needed available ≤ ·.length) with
      | (.error failure, next) => ⟨decoded.target, next, some (.io failure)⟩
      | (.ok (), next) => next.readNested decoded.target := by
  rw [readNested]
  simp only [cut, failed, short, going]
  rw [if_neg Bool.false_ne_true]
  split <;> simp [*]

/-- One round of a nested read: the buffer is filled by what the value is short of. -/
theorem readNested_skipping (reader : Reader) (script : List Reply) {target : Value}
    {decoded : Decoded Value} {error : CodecError} {needed available : Nat}
    (cut : target.decode reader.maxLength .nested reader.buffer = decoded)
    (failed : decoded.error = some error) (short : error.root = .shortRead needed available)
    (going : reader.ended = false) :
    (reader.skipping script).readNested target =
      match (reader.skipping script).fillUntil
        (reader.buffer.length + shortfall needed available ≤ ·.length) with
      | (.error failure, next) => ⟨decoded.target, next, some (.io failure)⟩
      | (.ok (), next) => next.readNested decoded.target :=
  readNested_of_shortRead (reader.skipping script) cut failed short going

/-- The bytes received before a failure count towards the same total. -/
theorem shortfall_of_received {needed available : Nat} (taken : Nat)
    (few : taken < shortfall needed available) (fewer : available < needed) :
    available + taken < needed ∧
      taken + shortfall needed (available + taken) = shortfall needed available := by
  simp only [shortfall] at few ⊢
  omega

/-- A nested read that a stream has broken off, made again with the target it has left, gives what
the first gives without the failure in the script.  A first part of the bytes has been decoded
twice, which changes nothing. -/
theorem readNested_again {reader : Reader} {target : Value} {failure : IoFailure}
    (failed : (reader.readNested target).error = some (.io failure)) :
    ∃ used rest, reader.source.script = used ++ .fails failure :: rest ∧
      (∀ reply ∈ used, reply.Passes) ∧
      (reader.readNested target).reader.readNested (reader.readNested target).target =
        (reader.skipping (used ++ rest)).readNested target := by
  fun_induction readNested reader target with
  | case1 reader target decoded success => cases failed
  | case2 reader target decoded error cut needed available short ended =>
      rw [Option.some.injEq] at failed
      split at failed
      · cases failed
      · rw [failed] at short
        cases short
  | case3 reader target decoded error cut needed available short going size found next filled =>
      cases failed
      have open_ := Bool.not_eq_true _ ▸ going
      rcases fillUntil_of_error filled with ⟨waiting, used, same, passes, againFill⟩
      rcases fillUntil_gains filled with ⟨taken, gained⟩
      simp only [Bool.or_eq_false_iff, decide_eq_false_iff_not, gained.buffer,
        List.length_append] at waiting
      rcases Value.decode_waits reader.maxLength target reader.buffer error needed available cut
        short with ⟨_, fewer, again⟩
      rcases shortfall_of_received taken.length (by omega) fewer with ⟨inside, total⟩
      -- The second pass misses what the first one missed, less what has arrived.
      have decodedNext : decoded.target.decode next.maxLength .nested next.buffer =
          ⟨decoded.target, decoded.rest ++ taken, some (error.arrived taken.length)⟩ := by
        rw [gained.buffer, gained.maxLength, ← again taken inside]
        exact Value.decode_retry reader.maxLength target reader.buffer taken
      have sameSize : next.buffer.length + shortfall needed (available + taken.length) = size := by
        rw [gained.buffer, List.length_append]
        omega
      refine ⟨used, next.source.script, same, passes, ?_⟩
      rw [readNested_of_shortRead next decodedNext rfl (CodecError.root_arrived short _) waiting.1,
        readNested_skipping reader _ rfl cut short open_, sameSize, againFill]
  | case4 reader target decoded error cut needed available short going size next filled ih =>
      have open_ := Bool.not_eq_true _ ▸ going
      rcases ih failed with ⟨later, rest, sameLater, passesLater, againLater⟩
      have more : next.source.script ≠ [] := by
        rw [sameLater]
        simp
      rcases fillUntil_of_ok filled more with ⟨used, same, passes, again⟩
      refine ⟨used ++ later, rest, ?_, List.forall_mem_append.2 ⟨passes, passesLater⟩, ?_⟩
      · rw [same, sameLater, List.append_assoc]
      · rw [readNested_skipping reader _ rfl cut short open_, List.append_assoc, again]
        exact againLater
  | case5 reader target decoded error cut other =>
      rw [← cut] at failed
      exact absurd failed (Value.decode_error_ne_io _ _ _ _ _)

end Reader

end ContractAbi
