import ContractAbi.Proofs.Codec.ZeroWidth
import ContractAbi.Proofs.Command.Failure
import ContractAbi.Proofs.Stream.Ledger
import ContractAbi.Proofs.TypeExpr.Typing

/-!
# Whether a stream is ever decoded to its end

The values on a stream are printed one after the other until a read fails.  A value that
has bytes takes them off the stream, so there are at most as many values as bytes, and
at the end of the stream the next read fails.  A value without bytes is read from
anything, the end of the stream included: the loop never ends, and consumes nothing.
-/

namespace ContractAbi

theorem areZeroWidth_targetFields {types : FieldTypes}
    (each : ∀ field ∈ types, field.2.target.isZeroWidth = field.2.isZeroWidth) :
    Value.fieldsAreZeroWidth (TypeExpr.targetFields types) =
      TypeExpr.fieldsAreZeroWidth types := by
  induction types with
  | nil => rfl
  | cons field types ih =>
      rw [List.forall_mem_cons] at each
      rw [TypeExpr.targetFields, Value.fieldsAreZeroWidth, TypeExpr.fieldsAreZeroWidth, each.1,
        ih each.2]

theorem TypeExpr.isZeroWidth_target (type : TypeExpr) :
    type.target.isZeroWidth = type.isZeroWidth := by
  induction type with
  | struct fields ih => exact areZeroWidth_targetFields ih
  | _ => rfl

namespace Reader

variable {reader : Reader} {target : Value}

theorem readNested_of_isZeroWidth (zeroWidth : target.isZeroWidth = true) (reader : Reader) :
    reader.readNested target = ⟨target, reader, none⟩ := by
  rw [readNested, Value.decode_of_isZeroWidth reader.maxLength zeroWidth]

/-- A value that has bytes is taken off what remains. -/
theorem remaining_readNested_lt (wide : target.isZeroWidth = false)
    (success : (reader.readNested target).error = none) :
    (reader.readNested target).reader.remaining.length < reader.remaining.length := by
  have footprint := readNested_footprint reader target
  have taken := (footprint.completed success).ne_nil wide
  have positive := List.length_pos_iff.2 taken
  have split := congrArg List.length footprint.split
  rw [List.length_append] at split
  omega

theorem readNested_of_exhausted (live : reader.Live) (nothing : reader.remaining = [])
    (complete : target.isComplete = true) (wide : target.isZeroWidth = false) :
    (reader.readNested target).error = some .streamClosed := by
  have found := (readNested_matches live target).error
  rcases Value.decode_nil_isShortRead reader.maxLength complete wide with
    ⟨error, failed, short⟩
  rw [nothing, failed] at found
  rw [found, Option.map_some, CodecError.inStream, short]
  rfl

end Reader

namespace Command

/-- `Prints target reader values last` says that rounds of the loop over a stream print
these values and leave the reader as `last`.  Only an error ends the loop. -/
inductive Prints (target : Value) : Reader → List Value → Reader → Prop where
  | nothing (reader) : Prints target reader [] reader
  | round {reader values last} : (reader.readNested target).error = none →
      Prints target (reader.readNested target).reader values last →
      Prints target reader ((reader.readNested target).target :: values) last

/-- How an error ends the loop. -/
def StreamEnd.ofError : CodecError → StreamEnd
  | .streamClosed => .closed
  | error => .failed error

theorem unread_eq_length (reader : Reader) : unread reader = reader.remaining.length :=
  List.length_append.symm

variable {target : Value} {reader last : Reader} {values : List Value}

/-- Each value that is printed has been paid for with a byte. -/
theorem Prints.length_le (prints : Prints target reader values last)
    (wide : target.isZeroWidth = false) : values.length + unread last ≤ unread reader := by
  induction prints with
  | nothing reader => simp
  | round success _ ih =>
      have smaller := Reader.remaining_readNested_lt wide success
      rw [← unread_eq_length, ← unread_eq_length] at smaller
      rw [List.length_cons]
      omega

theorem prints_replicate (zeroWidth : target.isZeroWidth = true) (reader : Reader) (count : Nat) :
    Prints target reader (List.replicate count target) reader := by
  induction count with
  | zero => exact .nothing reader
  | succ count ih =>
      have read := Reader.readNested_of_isZeroWidth zeroWidth reader
      have more : Prints target reader ((reader.readNested target).target ::
          List.replicate count target) reader := by
        apply Prints.round
        · rw [read]
        · rwa [read]
      rwa [read] at more

/-- For values with bytes the loop goes on to an error, with what it has printed. -/
theorem prints_readValues (wide : target.isZeroWidth = false) (reader : Reader) :
    ∃ last error, Prints target reader (readValues target reader).1 last ∧
      (last.readNested target).error = some error ∧
      (readValues target reader).2 = .ofError error := by
  fun_induction readValues target reader with
  | case1 reader outcome closed => exact ⟨reader, .streamClosed, .nothing reader, closed, rfl⟩
  | case2 reader outcome error other failed =>
      refine ⟨reader, error, .nothing reader, failed, ?_⟩
      cases error with
      | streamClosed => exact absurd rfl other
      | _ => rfl
  | case3 reader outcome success progress values ending found ih =>
      rw [found] at ih
      rcases ih with ⟨last, error, prints, failed, ends⟩
      exact ⟨last, error, .round success prints, failed, ends⟩
  | case4 reader outcome success stuck =>
      have smaller := Reader.remaining_readNested_lt wide success
      rw [← unread_eq_length, ← unread_eq_length] at smaller
      exact absurd smaller stuck

theorem readValues_of_isZeroWidth (zeroWidth : target.isZeroWidth = true) (reader : Reader) :
    readValues target reader = ([], .endless target) := by
  rw [readValues, Reader.readNested_of_isZeroWidth zeroWidth]
  simp

theorem decodeStream_ne_endless {type : TypeExpr} (wide : type.isZeroWidth = false)
    (options : DecodeOptions) (format : OutputFormat) (input output : Bytes) :
    (decodeStream options type format input).ending ≠ .endless output := by
  have targetWide : type.target.isZeroWidth = false := by rw [type.isZeroWidth_target, wide]
  rw [decodeStream]
  split
  · dsimp only
    split <;> simp
  · rcases prints_readValues targetWide (inputReader options.maxLength input) with
      ⟨last, error, _, _, ends⟩
    cases error <;> simp [ends, StreamEnd.ofError]

theorem decodeStream_of_isZeroWidth {type : TypeExpr} (zeroWidth : type.isZeroWidth = true)
    {options : DecodeOptions} (nested : options.topLevel = false) (format : OutputFormat)
    (input : Bytes) :
    decodeStream options type format input =
      ⟨[], .endless (Report.decoded type .nested type.target format)⟩ := by
  have targetZeroWidth : type.target.isZeroWidth = true := by
    rw [type.isZeroWidth_target, zeroWidth]
  simp [decodeStream, nested, readValues_of_isZeroWidth targetZeroWidth]

/-- Decoding a stream ends for every type whose values have bytes.  Each value that is printed
has taken a byte off the stream, the end of the stream closes the loop, and the values
are those printed before the error that ends it.  A type whose values have none is
printed any number of times, whatever the stream holds, and the stream is left alone. -/
theorem decodeStream_ends (type : TypeExpr) :
    (type.isZeroWidth = false →
        (∀ reader values last, Prints type.target reader values last →
          values.length + unread last ≤ unread reader) ∧
        (∀ reader : Reader, reader.Live → reader.remaining = [] →
          (reader.readNested type.target).error = some .streamClosed) ∧
        (∀ reader, ∃ last error,
          Prints type.target reader (readValues type.target reader).1 last ∧
          (last.readNested type.target).error = some error ∧
          (readValues type.target reader).2 = .ofError error) ∧
        ∀ options format input output,
          (decodeStream options type format input).ending ≠ .endless output) ∧
      (type.isZeroWidth = true →
        (∀ reader count,
          Prints type.target reader (List.replicate count type.target) reader) ∧
        ∀ options format input, options.topLevel = false →
          decodeStream options type format input =
            ⟨[], .endless (Report.decoded type .nested type.target format)⟩) := by
  constructor
  · intro wide
    have targetWide : type.target.isZeroWidth = false := by rw [type.isZeroWidth_target, wide]
    refine ⟨?_, ?_, prints_readValues targetWide, decodeStream_ne_endless wide⟩
    · intro reader values last prints
      exact prints.length_le targetWide
    · intro reader live nothing
      exact Reader.readNested_of_exhausted live nothing type.isComplete_target targetWide
  · intro zeroWidth
    have targetZeroWidth : type.target.isZeroWidth = true := by
      rw [type.isZeroWidth_target, zeroWidth]
    refine ⟨prints_replicate targetZeroWidth, ?_⟩
    intro options format input nested
    exact decodeStream_of_isZeroWidth zeroWidth nested format input

/-- Two bytes hold at most two numbers of a byte; structs without fields do not end. -/
theorem decodeStream_ends_bytes :
    let byte := TypeExpr.int .u8
    let empty := TypeExpr.struct [("unit", .struct [])]
    let reader := inputReader 0 [7, 9]
    let options : DecodeOptions := ⟨"struct { unit: struct {} }", "-", false, true, 0⟩
    byte.isZeroWidth = false ∧ empty.isZeroWidth = true ∧
      (readValues byte.target reader).1.length ≤ 2 ∧
      ((inputReader 0 []).readNested byte.target).error = some .streamClosed ∧
      Prints empty.target reader [empty.target, empty.target, empty.target] reader ∧
      decodeStream options empty .json [] =
        ⟨[], .endless (Report.decoded empty .nested empty.target .json)⟩ := by
  intro byte empty reader options
  have wide : byte.isZeroWidth = false := rfl
  have zeroWidth : empty.isZeroWidth = true := rfl
  rcases (decodeStream_ends byte).1 wide with ⟨paid, closed, printed, _⟩
  rcases (decodeStream_ends empty).2 zeroWidth with ⟨again, endless⟩
  have few : (readValues byte.target reader).1.length ≤ 2 := by
    rcases printed reader with ⟨last, _, prints, _⟩
    have bound := paid reader _ last prints
    have whole : unread reader = 2 := rfl
    omega
  have live : (inputReader 0 []).Live := ⟨by simp [inputReader, Source.Delivers], fun _ => rfl⟩
  exact ⟨wide, zeroWidth, few, closed _ live rfl, again reader 3, endless options .json [] rfl⟩

/-- The type of structs without fields is accepted, and the loop does not end. -/
theorem runDecode_empty_struct :
    let options : DecodeOptions := ⟨"struct {}", "-", false, true, defaultMaxLength⟩
    let type := TypeExpr.struct []
    TypeExpr.parse "struct {}" = .ok type ∧
      (∀ count, Prints type.target (inputReader defaultMaxLength [])
        (List.replicate count type.target) (inputReader defaultMaxLength [])) ∧
      runDecode options .json [] =
        ⟨[], .endless (Report.decoded type .nested type.target .json)⟩ := by
  intro options type
  have parsed : TypeExpr.parse "struct {}" = .ok type := by rfl
  have zeroWidth : type.target.isZeroWidth = true := rfl
  refine ⟨parsed, prints_replicate zeroWidth _, ?_⟩
  have read : parseType "--type" options.type = .ok type := by
    rw [parseType, parsed]
    rfl
  have noBytes : type.isZeroWidth = true := rfl
  have nested : options.topLevel = false := rfl
  have endless := decodeStream_of_isZeroWidth noBytes nested .json []
  rw [runDecode, read]
  exact endless

end Command

end ContractAbi
