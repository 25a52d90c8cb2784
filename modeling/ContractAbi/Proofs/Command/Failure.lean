import ContractAbi.Command.Run
import ContractAbi.Proofs.Arguments.Failure
import ContractAbi.Proofs.Except
import ContractAbi.Proofs.TypeExpr.Typing

/-!
# Bad data is no internal failure

The targets that commands make from types are complete, so whatever is read into
them fails on account of the data only.  The exit code says so too: a command that reads
arguments fails internally only if it has no text to read them from.
-/

namespace ContractAbi

theorem fieldsAreComplete_targetFields {types : FieldTypes}
    (each : ∀ field ∈ types, field.2.target.isComplete = true) :
    Value.fieldsAreComplete (TypeExpr.targetFields types) = true := by
  induction types with
  | nil => rfl
  | cons field types ih =>
      rw [List.forall_mem_cons] at each
      rw [TypeExpr.targetFields, Value.fieldsAreComplete, each.1, ih each.2]
      rfl

theorem TypeExpr.isComplete_target (type : TypeExpr) : type.target.isComplete = true := by
  induction type with
  | bool | int | natural | integer | text | bytes | address => rfl
  | option content ih => exact ih
  | list item ih => exact ih
  | struct fields ih => exact fieldsAreComplete_targetFields ih
  | enum fields ih => exact fieldsAreComplete_targetFields ih

theorem Argument.Complete.target (type : TypeExpr) :
    (Argument.single type.target).Complete :=
  .single type.isComplete_target

namespace Failure

theorem code_ofCodec {error : CodecError} (ofData : error.isOfData = true) (context : String) :
    (ofCodec context error).code = .dataInvalid := by
  cases error with
  | io failure => cases ofData
  | missingTemplate => cases ofData
  | missingOptionTarget => cases ofData
  | _ => rfl

theorem code_ofArguments {error : ArgumentError} (ofData : error.isOfData = true)
    (context : String) : (ofArguments context error).code = .dataInvalid := by
  induction error generalizing context with
  | codec source => exact code_ofCodec ofData context
  | argument index source ih => exact ih ofData _
  | invalidHex => rfl
  | notEnoughParts => rfl
  | tooManyParts => rfl
  | notLast => cases ofData
  | emptyVariadicItem => cases ofData
  | missingTemplate => cases ofData
  | missingOptionalTarget => cases ofData

end Failure

namespace Command

variable {types : List TypeExpr} {optional variadic : Option TypeExpr}

theorem complete_of_mem_targetsOf {target : Argument}
    (mem : target ∈ targetsOf types optional variadic) : target.Complete := by
  simp only [targetsOf, List.mem_append, List.mem_map, or_assoc] at mem
  rcases mem with ⟨type, _, rfl⟩ | ⟨type, _, rfl⟩ | ⟨type, _, rfl⟩
  · exact .target type
  · exact .present (.target type)
  · exact .variadic _ (.target type) rfl Nat.zero_lt_one

/-- With one open-ended argument at most, it is the last one. -/
theorem checkPlacement_targetsOf (tail : optional = none ∨ variadic = none) :
    checkPlacement (targetsOf types optional variadic) = .ok () := by
  rw [checkPlacement_eq_ok_iff]
  intro target mem
  have single : ∃ type ∈ types, Argument.single type.target = target := by
    rcases tail with rfl | rfl
    · cases variadic with
      | none => simpa [targetsOf] using List.dropLast_subset _ mem
      | some type => simpa [targetsOf] using mem
    · cases optional with
      | none => simpa [targetsOf] using List.dropLast_subset _ mem
      | some type => simpa [targetsOf] using mem
  rcases single with ⟨type, _, rfl⟩
  rfl

/-- The targets of types are complete, so that their decoders blame the input. -/
theorem decode_target_isOfInput {maxLength : Nat} {type : TypeExpr} {context : Context}
    {input : Bytes} {error : CodecError}
    (failed : (type.target.decode maxLength context input).error = some error) :
    error.isOfInput = true := by
  rcases Value.decode_blames maxLength type.target context input error failed with
    ofInput | ⟨_, incomplete⟩
  · exact ofInput
  · rw [type.isComplete_target] at incomplete
    cases incomplete

theorem decodeWhole_isOfData {maxLength : Nat} {type : TypeExpr} {context : Context}
    {data : Bytes} {error : CodecError}
    (failed : decodeWhole maxLength type context data = .error error) :
    error.isOfData = true := by
  cases context with
  | topLevel =>
      simp only [decodeWhole] at failed
      split at failed <;> cases failed
      rename_i value read
      exact Value.decodePayload_isOfData type.isComplete_target (congrArg Prod.snd read)
  | nested =>
      simp only [decodeWhole] at failed
      split at failed <;> cases failed
      · rename_i refused
        exact CodecError.isOfData_of_isOfInput (decode_target_isOfInput refused)
      · rfl

/-- A type that cannot be read is misuse of the command line. -/
theorem code_of_parseType {flag text : String} {failure : Failure}
    (failed : parseType flag text = .error failure) : failure.code = .usage := by
  rcases mapError_eq_error_iff.1 failed with ⟨error, _, rfl⟩
  rfl

theorem code_of_optional_parseType {flag : String} {text : Option String} {failure : Failure}
    (failed : text.mapM (parseType flag) = .error failure) : failure.code = .usage := by
  cases text with
  | none => cases failed
  | some text =>
      rcases bind_eq_error_iff.1 failed with failed | ⟨_, _, ⟨⟩⟩
      exact code_of_parseType failed

/-- The command fails internally only when there is no text to read. -/
theorem readText_of_runDeserialize {options : DeserializeOptions} {format : OutputFormat}
    {input : Bytes} {failure : Failure} (tail : options.optional = none ∨ options.variadic = none)
    (failed : runDeserialize options format input = .error failure)
    (internal : failure.code = .internal) : readText options.data input = .error failure := by
  rw [runDeserialize, bind_eq_error_iff] at failed
  rcases failed with failed | ⟨types, _, failed⟩
  · rcases exists_of_mapM_eq_error failed with ⟨text, _, failed⟩
    rw [code_of_parseType failed] at internal
    cases internal
  rw [bind_eq_error_iff] at failed
  rcases failed with failed | ⟨optional, optionalRead, failed⟩
  · rw [code_of_optional_parseType failed] at internal
    cases internal
  rw [bind_eq_error_iff] at failed
  rcases failed with failed | ⟨variadic, variadicRead, failed⟩
  · rw [code_of_optional_parseType failed] at internal
    cases internal
  rw [bind_eq_error_iff] at failed
  rcases failed with failed | ⟨text, _, failed⟩
  · exact failed
  have tail : optional = none ∨ variadic = none := by
    rcases tail with none | none
    · rw [none] at optionalRead
      cases optionalRead
      exact Or.inl rfl
    · rw [none] at variadicRead
      cases variadicRead
      exact Or.inr rfl
  dsimp only at failed
  split at failed
  · rename_i outputs error read
    cases failed
    have ofData := deserializeText_isOfData (checkPlacement_targetsOf tail)
      (fun _ => complete_of_mem_targetsOf) read
    rw [Failure.code_ofArguments ofData] at internal
    cases internal
  · cases failed

/-- Whatever is decoded into the target of a type, or read into the targets of a call, a
failure is about the data and has the exit code of bad data.  None is about a missing
target, and the command that reads arguments ends with the code of an internal failure only
if there is no text to read. -/
theorem targets_blame_data :
    (∀ (type : TypeExpr) (maxLength : Nat) (context : Context) (input : Bytes) (error : CodecError),
        (type.target.decode maxLength context input).error = some error →
        error.isOfInput = true) ∧
      (∀ (type : TypeExpr) (maxLength : Nat) (context : Context) (data : Bytes)
          (error : CodecError), decodeWhole maxLength type context data = .error error →
        error.isOfData = true ∧
          ∀ subject, (Failure.ofCodec subject error).code = .dataInvalid) ∧
      (∀ (types : List TypeExpr) (optional variadic : Option TypeExpr) (separator : String)
          (maxLength : Nat) (text : String) (error : ArgumentError),
        optional = none ∨ variadic = none →
        (deserializeText separator maxLength (targetsOf types optional variadic) text).2 =
          some error →
        error.isOfData = true ∧
          ∀ subject, (Failure.ofArguments subject error).code = .dataInvalid) ∧
      ∀ (options : DeserializeOptions) (format : OutputFormat) (input : Bytes) (failure : Failure),
        options.optional = none ∨ options.variadic = none →
        runDeserialize options format input = .error failure → failure.code = .internal →
        readText options.data input = .error failure := by
  refine ⟨?_, ?_, ?_, ?_⟩
  · intro type maxLength context input error failed
    exact decode_target_isOfInput failed
  · intro type maxLength context data error failed
    have ofData := decodeWhole_isOfData failed
    exact ⟨ofData, Failure.code_ofCodec ofData⟩
  · intro types optional variadic separator maxLength text error tail failed
    have ofData := deserializeText_isOfData (checkPlacement_targetsOf tail)
      (fun _ => complete_of_mem_targetsOf) (Prod.ext rfl failed)
    exact ⟨ofData, Failure.code_ofArguments ofData⟩
  · intro options format input failure tail failed internal
    exact readText_of_runDeserialize tail failed internal

theorem targets_blame_data_short :
    let entry := TypeExpr.struct [("amount", .option .natural), ("code", .int .u16)]
    let entries := TypeExpr.list entry
    (entries.target.decode 9 .nested [0, 0, 0, 2, 0, 0, 5, 1, 0, 0, 0, 1]).error =
        some (.field "amount" (.shortRead 1 0)) ∧
      (CodecError.field "amount" (.shortRead 1 0)).isOfInput = true ∧
      decodeWhole 9 entry .topLevel [0, 0, 5, 1] = .error (.trailingBytes 1) ∧
      (Failure.ofCodec "decode failed" (.trailingBytes 1)).code = .dataInvalid ∧
      (deserializeText "@" 9 (targetsOf [.bool] (some entry) none) "01@0005").2 =
        some (.argument 1 (.codec (.field "code" (.shortRead 2 1)))) ∧
      (Failure.ofArguments "deserialize failed"
        (.argument 1 (.codec (.field "code" (.shortRead 2 1))))).code = .dataInvalid ∧
      runDeserialize ⟨["u8"], none, none, "-", "@", 9⟩ .json [0xff] =
        .error ⟨.internal, "failed reading stdin: stream did not contain valid UTF-8"⟩ ∧
      readText "-" [0xff] =
        .error ⟨.internal, "failed reading stdin: stream did not contain valid UTF-8"⟩ := by
  intro entry entries
  have short : (entries.target.decode 9 .nested [0, 0, 0, 2, 0, 0, 5, 1, 0, 0, 0, 1]).error =
      some (.field "amount" (.shortRead 1 0)) := by rfl
  have trailing : decodeWhole 9 entry .topLevel [0, 0, 5, 1] = .error (.trailingBytes 1) := by rfl
  have cut : (deserializeText "@" 9 (targetsOf [.bool] (some entry) none) "01@0005").2 =
      some (.argument 1 (.codec (.field "code" (.shortRead 2 1)))) := by rfl
  have unread : runDeserialize ⟨["u8"], none, none, "-", "@", 9⟩ .json [0xff] =
      .error ⟨.internal, "failed reading stdin: stream did not contain valid UTF-8"⟩ := by rfl
  rcases targets_blame_data with ⟨decoding, whole, reading, command⟩
  exact ⟨short, decoding _ _ _ _ _ short, trailing, (whole _ _ _ _ _ trailing).2 _, cut,
    (reading _ _ _ _ _ _ _ (Or.inr rfl) cut).2 _, unread,
    command _ _ _ _ (Or.inl rfl) unread rfl⟩

end Command

end ContractAbi
