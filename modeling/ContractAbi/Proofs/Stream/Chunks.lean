import ContractAbi.Proofs.Codec.Extension
import ContractAbi.Stream.Reader

/-!
# Reading in chunks

However a stream cuts its bytes into chunks, and however often a call is
interrupted, successive reads give what successive decodes of the contiguous
bytes give. The bytes in the buffer followed by those still in the stream do not
change while the reader receives, so each pass decodes a prefix of one input: a
settled outcome on the prefix is the outcome on the whole, and after a short read
the overwritten target decodes like the original.
-/

namespace ContractAbi

namespace Reply

/-- The call moves some bytes, or it is repeated. -/
def Delivers : Reply → Prop
  | moves limit => 0 < limit
  | interrupted => True
  | fails _ => False

theorem settle_of_delivers {script : List Reply} (delivers : ∀ reply ∈ script, reply.Delivers) :
    (∃ limit, (settle script).outcome = .ok limit ∧ ∀ count, limit = some count → 0 < count) ∧
      ∀ reply ∈ (settle script).script, reply.Delivers := by
  induction script with
  | nil =>
      refine ⟨⟨none, rfl, ?_⟩, delivers⟩
      intro count impossible
      cases impossible
  | cons reply script ih =>
      rw [List.forall_mem_cons] at delivers
      rcases delivers with ⟨first, later⟩
      cases reply with
      | moves limit =>
          refine ⟨⟨some limit, rfl, ?_⟩, later⟩
          intro count same
          cases same
          exact first
      | interrupted => exact ih later
      | fails failure => exact first.elim

end Reply

namespace Source

/-- A stream that gives out its bytes in some pieces, without failing. -/
def Delivers (source : Source) : Prop :=
  ∀ reply ∈ source.script, reply.Delivers

theorem receive_of_delivers {source : Source} (delivers : source.Delivers) :
    ∃ chunk next, source.receive = (.ok chunk, next) ∧ next.Delivers ∧
      (chunk = [] → source.data = []) := by
  rcases Reply.settle_of_delivers delivers with ⟨⟨limit, settled, positive⟩, later⟩
  simp only [receive, settled]
  refine ⟨_, _, rfl, later, ?_⟩
  intro empty
  have count : 0 < min chunkSize (limit.getD chunkSize) := by
    refine Nat.lt_min.2 ⟨by simp [chunkSize], ?_⟩
    cases limit with
    | none => simp [chunkSize]
    | some count => exact positive count rfl
  rcases List.take_eq_nil_iff.1 empty with none | nothing
  · omega
  · exact nothing

end Source

namespace Reader

/-- The bytes not decoded yet, whether they have arrived or not. -/
def remaining (reader : Reader) : Bytes :=
  reader.buffer ++ reader.source.data

/-- The stream delivers, and has nothing left once its end has been seen. -/
structure Live (reader : Reader) : Prop where
  delivers : reader.source.Delivers
  exhausted : reader.ended = true → reader.source.data = []

/-- The reader has received bytes and is otherwise the same. -/
structure Receives (reader next : Reader) : Prop where
  live : next.Live
  maxLength : next.maxLength = reader.maxLength
  remaining : next.remaining = reader.remaining

theorem Receives.trans {first second third : Reader} (before : first.Receives second)
    (after : second.Receives third) : first.Receives third :=
  ⟨after.live, after.maxLength.trans before.maxLength, after.remaining.trans before.remaining⟩

theorem fill_receives {reader : Reader} (live : reader.Live) :
    ∃ next, reader.fill = (.ok (), next) ∧ reader.Receives next := by
  rcases Source.receive_of_delivers live.delivers with ⟨chunk, source, received, later, ends⟩
  have data := Source.receive_data received
  simp only [fill, received]
  cases chunk with
  | nil =>
      refine ⟨_, rfl, ⟨later, ?_⟩, rfl, ?_⟩
      · intro ended
        rw [← ends rfl]
        exact data
      · exact congrArg (reader.buffer ++ ·) data
  | cons byte chunk =>
      refine ⟨_, rfl, ⟨later, ?_⟩, rfl, ?_⟩
      · intro ended
        rw [live.exhausted ended] at data
        cases data
      · simp only [remaining, List.append_assoc, data]

/-- A live reader fills its buffer without an error, and what it is still to give stays the same. -/
theorem fillUntil_receives (enough : Bytes → Bool) {reader : Reader} (live : reader.Live) :
    ∃ next, reader.fillUntil enough = (.ok (), next) ∧ reader.Receives next := by
  fun_induction fillUntil enough reader with
  | case1 reader stopped => exact ⟨reader, rfl, live, rfl, rfl⟩
  | case2 reader waiting failure next filled =>
      rcases fill_receives live with ⟨other, succeeded, _⟩
      rw [filled] at succeeded
      cases succeeded
  | case3 reader waiting next filled ih =>
      rcases fill_receives live with ⟨other, succeeded, received⟩
      rw [filled] at succeeded
      cases succeeded
      rcases ih received.live with ⟨last, filledMore, receivedMore⟩
      exact ⟨last, filledMore, received.trans receivedMore⟩

end Reader

/-- How a reader reports an error in a value that begins with the given input. -/
def CodecError.inStream (input : Bytes) (error : CodecError) : CodecError :=
  if error.isShortRead && input.isEmpty then .streamClosed else error

namespace Reader

/-- A read that ends as decoding the contiguous bytes does. -/
structure Matches (reader : Reader) (decoded : Decoded Value) (outcome : Outcome) : Prop where
  target : outcome.target = decoded.target
  error : outcome.error = decoded.error.map (.inStream reader.remaining)
  live : outcome.reader.Live
  maxLength : outcome.reader.maxLength = reader.maxLength
  remaining : outcome.reader.remaining =
    if decoded.error.isNone then decoded.rest else reader.remaining

theorem Matches.of_receives {reader next : Reader} {decoded : Decoded Value} {outcome : Outcome}
    (received : reader.Receives next) (found : next.Matches decoded outcome) :
    reader.Matches decoded outcome := by
  refine ⟨found.target, ?_, found.live, found.maxLength.trans received.maxLength, ?_⟩
  · rw [← received.remaining]
    exact found.error
  · rw [← received.remaining]
    exact found.remaining

/-- One read gives what decoding all the remaining bytes gives. -/
theorem readNested_matches {reader : Reader} (live : reader.Live) (target : Value) :
    reader.Matches (target.decode reader.maxLength .nested reader.remaining)
      (reader.readNested target) := by
  fun_induction readNested reader target with
  | case1 reader target decoded success =>
      have whole := Value.decode_stable reader.maxLength target reader.buffer reader.source.data
        (Decoded.settled_of_success success)
      rw [remaining, whole]
      refine ⟨rfl, ?_, ⟨live.delivers, live.exhausted⟩, rfl, ?_⟩
      · simp [Decoded.followedBy, decoded, success]
      · simp [Decoded.followedBy, decoded, success, remaining]
  | case2 reader target decoded error failed needed available short ended =>
      have all : reader.remaining = reader.buffer := by
        rw [remaining, live.exhausted ended, List.append_nil]
      rw [all]
      refine ⟨rfl, ?_, live, rfl, ?_⟩
      · simp [all, decoded, failed, CodecError.inStream, CodecError.isShortRead, short]
      · simp [decoded, failed]
  | case3 reader target decoded error failed needed available short waiting size failure next
      filled =>
      rcases fillUntil_receives (size ≤ ·.length) live with ⟨other, succeeded, _⟩
      rw [filled] at succeeded
      cases succeeded
  | case4 reader target decoded error failed needed available short waiting size next filled ih =>
      rcases fillUntil_receives (size ≤ ·.length) live with ⟨other, succeeded, received⟩
      rw [filled] at succeeded
      cases succeeded
      -- The first pass changed the target, which decodes the longer input all the same.
      have again := Value.decode_retry reader.maxLength target reader.buffer reader.source.data
      have found := ih received.live
      rw [received.maxLength, received.remaining, remaining, again] at found
      exact found.of_receives received
  | case5 reader target decoded error failed other =>
      have long : error.isShortRead = false := by
        unfold CodecError.isShortRead
        split
        · rename_i needed available short
          exact (other needed available short).elim
        · rfl
      have settled : decoded.Settled := by
        intro _ same
        rw [failed] at same
        cases same
        exact long
      have whole := Value.decode_stable reader.maxLength target reader.buffer reader.source.data
        settled
      rw [remaining, whole]
      refine ⟨rfl, ?_, live, rfl, ?_⟩
      · simp [Decoded.followedBy, decoded, failed, CodecError.inStream, long]
      · simp [Decoded.followedBy, decoded, failed]

/-- Read into several targets in turn, with the error of each. -/
def readEach (reader : Reader) : List Value → List (Value × Option CodecError)
  | [] => []
  | target :: targets =>
      let outcome := reader.readNested target
      (outcome.target, outcome.error) :: outcome.reader.readEach targets

end Reader

/-- Decode into several targets in turn.  A value starts where the last success stopped. -/
def Value.decodeEach (maxLength : Nat) (input : Bytes) :
    List Value → List (Value × Option CodecError)
  | [] => []
  | target :: targets =>
      let decoded := target.decode maxLength .nested input
      let rest := if decoded.error.isNone then decoded.rest else input
      (decoded.target, decoded.error.map (.inStream input)) :: decodeEach maxLength rest targets

namespace Reader

theorem readEach_of_live {reader : Reader} (live : reader.Live) (targets : List Value) :
    reader.readEach targets = Value.decodeEach reader.maxLength reader.remaining targets := by
  induction targets generalizing reader with
  | nil => rfl
  | cons target targets ih =>
      have found := readNested_matches live target
      have later := ih found.live
      rw [found.maxLength, found.remaining] at later
      simp only [readEach, Value.decodeEach, found.target, found.error, later]

/-- Whatever the pieces in which a stream delivers its bytes, successive reads
give what decoding the contiguous bytes gives. -/
theorem readEach_eq_decodeEach (source : Source) (delivers : source.Delivers) (maxLength : Nat)
    (targets : List Value) :
    readEach { source, maxLength } targets =
      Value.decodeEach maxLength source.data targets := by
  have live : Live { source, maxLength } := by
    refine ⟨delivers, ?_⟩
    intro impossible
    cases impossible
  exact readEach_of_live live targets

theorem readEach_eq_decodeEach_pieces :
    let source : Source :=
      ⟨[0, 0, 0, 2, 7, 8, 1], [.moves 3, .interrupted, .moves 2, .interrupted], 0, 0⟩
    let entry := Value.struct [("flag", .bool false), ("count", .int .u16 0)]
    source.Delivers ∧
      readEach { source, maxLength := 2 } [.bytes [], entry, .bool false, .text ""] =
        [(.bytes [7, 8], none),
          (.struct [("flag", .bool true), ("count", .int .u16 0)],
            some (.field "count" (.shortRead 2 0))),
          (.bool true, none),
          (.text "", some .streamClosed)] := by
  intro source entry
  have delivers : source.Delivers := by
    simp [source, Source.Delivers, Reply.Delivers]
  refine ⟨delivers, (readEach_eq_decodeEach source delivers 2 _).trans ?_⟩
  have bytes : (Value.bytes []).decode 2 .nested source.data = ⟨.bytes [7, 8], [1], none⟩ := by rfl
  have cut : entry.decode 2 .nested [1] =
      ⟨.struct [("flag", .bool true), ("count", .int .u16 0)], [],
        some (.field "count" (.shortRead 2 0))⟩ := by rfl
  have flag : (Value.bool false).decode 2 .nested [1] = ⟨.bool true, [], none⟩ := by rfl
  have closed : (Value.text "").decode 2 .nested [] =
      ⟨.text "", [], some (.shortRead 4 0)⟩ := by rfl
  simp [Value.decodeEach, bytes, cut, flag, closed, CodecError.inStream, CodecError.isShortRead,
    CodecError.root]

end Reader

end ContractAbi
