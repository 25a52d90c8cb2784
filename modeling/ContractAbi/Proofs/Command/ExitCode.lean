import ContractAbi.Codec.Decode
import ContractAbi.Command.Exit

/-!
# The exit code of a wrapped error

An index of an argument goes into the context of a failure, and the exit code stays that of
the error below it.  The name of a field hides what it stands before: in a field every
error counts as bad data, a missing target and a broken stream as well.  So the root
of an error decides the exit code outside of fields, and in a field only if it calls for the
code of bad data itself.
-/

namespace ContractAbi

/-- The exit code that the root of the error calls for, whatever fields lead to it. -/
def CodecError.rootCode (error : CodecError) : ExitCode :=
  match error.root with
  | io ⟨.brokenPipe, _⟩ => .failure
  | io ⟨.other, _⟩ | missingTemplate | missingOptionTarget => .internal
  | _ => .dataInvalid

@[simp]
theorem CodecError.rootCode_foldr_field (names : List String) (error : CodecError) :
    (names.foldr .field error).rootCode = error.rootCode := by
  rw [rootCode, root_foldr_field, rootCode]

namespace Failure

/-- The context of an error below the arguments with these indices, outermost first. -/
def contextAt (context : String) (indices : List Nat) : String :=
  indices.foldl (fun context index => context ++ ": argument " ++ toString index) context

theorem ofArguments_foldr_argument (indices : List Nat) (context : String)
    (error : ArgumentError) :
    ofArguments context (indices.foldr .argument error) =
      ofArguments (contextAt context indices) error := by
  induction indices generalizing context with
  | nil => rfl
  | cons index indices ih => exact ih _

/-- The code is that of the root where no field is wrapped around it, and that of invalid data
elsewhere. -/
theorem code_ofCodec_eq_ite (context : String) (error : CodecError) :
    (ofCodec context error).code = if error.path = [] then error.rootCode else .dataInvalid := by
  cases error with
  | io failure => rcases failure with ⟨_ | _, text⟩ <;> rfl
  | _ => rfl

theorem code_ofCodec_foldr_field (context : String) (names : List String) (error : CodecError) :
    (ofCodec context (names.foldr .field error)).code =
      if names = [] ∧ error.path = [] then error.rootCode else .dataInvalid := by
  rw [code_ofCodec_eq_ite, CodecError.path_foldr_field, CodecError.rootCode_foldr_field]
  simp only [List.append_eq_nil_iff]

/-- Around an error in no field, names of fields change every exit code but that of bad data. -/
theorem code_ofCodec_foldr_field_eq_iff (context subject : String) (names : List String)
    (error : CodecError) :
    (ofCodec context (names.foldr .field error)).code = (ofCodec subject error).code ↔
      names = [] ∨ error.path ≠ [] ∨ error.rootCode = .dataInvalid := by
  rw [code_ofCodec_foldr_field, code_ofCodec_eq_ite]
  by_cases bare : error.path = []
  · by_cases outside : names = []
    · simp [bare, outside]
    · simp [bare, outside, eq_comm]
  · simp [bare]

/-- Indices of arguments around an error of the codec lengthen its context and do nothing
else.  Names of fields leave the exit code alone exactly if there are none, or if it has
been that of bad data before: since the error was in a field, or since its root calls for this
code.  So outside of fields the root decides, and in a field every error counts as bad
data. -/
theorem code_of_wrapped (context : String) (indices : List Nat) (names : List String)
    (error : CodecError) :
    let wrapped := names.foldr CodecError.field error
    let argument := indices.foldr ArgumentError.argument (.codec wrapped)
    ofArguments context argument = ofCodec (contextAt context indices) wrapped ∧
      (∀ subject, (ofArguments context argument).code = (ofCodec subject wrapped).code) ∧
      (∀ subject, (ofArguments context argument).code = (ofCodec subject error).code ↔
        names = [] ∨ error.path ≠ [] ∨ error.rootCode = .dataInvalid) ∧
      (ofArguments context argument).code =
        if wrapped.path = [] then wrapped.rootCode else .dataInvalid := by
  intro wrapped argument
  have lengthened : ofArguments context argument =
      ofCodec (contextAt context indices) wrapped :=
    ofArguments_foldr_argument indices context (.codec wrapped)
  refine ⟨lengthened, ?_, ?_, ?_⟩
  · intro subject
    rw [lengthened, code_ofCodec_eq_ite, code_ofCodec_eq_ite]
  · intro subject
    rw [lengthened]
    exact code_ofCodec_foldr_field_eq_iff _ subject names error
  · rw [lengthened, code_ofCodec_eq_ite]

/-- A missing template and a broken pipe have exit codes of their own, and in a field they
lose them. -/
theorem code_of_fault_in_field :
    let target := Value.struct [("entries", .outputList [] none)]
    let missing := CodecError.field "entries" .missingTemplate
    let broken := CodecError.io ⟨.brokenPipe, "broken pipe"⟩
    (target.decode defaultMaxLength .nested [0, 0, 0, 1]).error = some missing ∧
      (ofCodec "decode failed" missing).code.toNat = 60 ∧
      (ofCodec "decode failed" .missingTemplate).code.toNat = 125 ∧
      (ofArguments "deserialize failed" (.argument 3 (.codec missing))).code.toNat = 60 ∧
      (ofCodec "decode failed" (.field "entries" broken)).code.toNat = 60 ∧
      (ofCodec "decode failed" broken).code.toNat = 1 := by
  decide

end Failure

end ContractAbi
