import ContractAbi.Arguments.Text
import ContractAbi.Proofs.Arguments.Filling
import ContractAbi.Proofs.Codec.Failure

/-!
# Why reading arguments fails

Complete targets have a template wherever items may be needed and content wherever an
option may be present, and leave no doubt about where the parts go.  Reading into
them fails only on account of the data: what is in a part, how many parts there are,
or the text that they came in.
-/

namespace ContractAbi

/-- Whether the error is about what a payload holds, or goes on to hold after its value. -/
def CodecError.isOfData (error : CodecError) : Bool :=
  match error.root with
  | trailingBytes _ => true
  | _ => error.isOfInput

theorem CodecError.isOfData_of_isOfInput {error : CodecError} (ofInput : error.isOfInput = true) :
    error.isOfData = true := by
  rw [isOfData]
  split
  · rfl
  · exact ofInput

/-- Whether the error, below all argument wrappers, is about the data and not about the
targets. -/
def ArgumentError.isOfData : ArgumentError → Bool
  | codec source => source.isOfData
  | argument _ source => source.isOfData
  | invalidHex _ _ | notEnoughParts _ | tooManyParts _ => true
  | notLast _ | emptyVariadicItem _ | missingTemplate | missingOptionalTarget => false

theorem Value.decodePayload_isOfData {maxLength : Nat} {target : Value}
    (complete : target.isComplete = true) {payload : Bytes} {error : CodecError}
    (failed : (target.decodePayload maxLength payload).2 = some error) :
    error.isOfData = true := by
  rcases decoded : target.decode maxLength .topLevel payload with ⟨found, rest, _ | source⟩
  · simp only [decodePayload, decoded] at failed
    cases rest <;> cases failed
    rfl
  · simp only [decodePayload, decoded, Option.some.injEq] at failed
    subst failed
    rcases decode_blames maxLength target .topLevel payload source (by rw [decoded]) with
      ofInput | ⟨_, incomplete⟩
    · exact CodecError.isOfData_of_isOfInput ofInput
    · rw [complete] at incomplete
      cases incomplete

namespace Argument

/-- `target.Complete` says that the target can take any argument of its shape. -/
inductive Complete : Argument → Prop where
  | single {target} : target.isComplete = true → Complete (single target)
  | multi {targets} : checkPlacement targets = .ok () → (∀ target ∈ targets, Complete target) →
      Complete (multi targets)
  | present {target} : Complete target → Complete (present target)
  | variadic (old) {template} : Complete template → template.isOpenEnded = false →
      0 < template.partCount → Complete (variadic old (some template))

/-- Filling the target fails on account of the data only. -/
def BlamesData (maxLength : Nat) (target : Argument) : Prop :=
  ∀ parts error, (target.fill maxLength parts).error = some error → error.isOfData = true

section Sequences

variable {maxLength : Nat} {targets : List Argument} {parts : Parts} {error : ArgumentError}

theorem fillItems_isOfData (each : ∀ target ∈ targets, target.BlamesData maxLength)
    (failed : (fillItems maxLength targets parts).error = some error) : error.isOfData = true := by
  induction targets generalizing parts with
  | nil => cases failed
  | cons target targets ih =>
      rw [List.forall_mem_cons] at each
      rw [fillItems] at failed
      cases head : (target.fill maxLength parts).error with
      | some source =>
          simp only [head, Option.some.injEq] at failed
          exact each.1 parts error (failed ▸ head)
      | none =>
          simp only [head] at failed
          exact ih each.2 failed

/-- The error of a call's arguments is that of one of them, with its index. -/
theorem fillItems_of_fillFrom_error {index : Nat}
    (failed : (fillFrom maxLength index targets parts).error = some error) :
    ∃ position source, error = .argument position source ∧
      (fillItems maxLength targets parts).error = some source := by
  induction targets generalizing index parts with
  | nil => cases failed
  | cons target targets ih =>
      rw [fillFrom] at failed
      rw [fillItems]
      cases head : (target.fill maxLength parts).error with
      | some source =>
          simp only [head, Option.some.injEq] at failed
          exact ⟨index, source, failed.symm, rfl⟩
      | none =>
          simp only [head] at failed
          exact ih failed

/-- An item of a closed template that has single values is never empty. -/
theorem fillVariadic_isOfData {template : Argument} (closed : template.isOpenEnded = false)
    (counts : 0 < template.partCount) (each : template.BlamesData maxLength)
    (failed : (fillVariadic template (template.fill maxLength) parts).error = some error) :
    error.isOfData = true := by
  fun_induction fillVariadic template (template.fill maxLength) parts with
  | case1 parts empty => cases failed
  | case2 parts nonempty openEnded =>
      rw [closed] at openEnded
      cases openEnded
  | case3 parts nonempty _ item source head =>
      cases failed
      exact each parts _ head
  | case4 parts nonempty _ item done progress ih => exact ih failed
  | case5 parts nonempty _ item done stuck =>
      have filled : template.fill maxLength parts = ⟨item.target, item.parts, none⟩ := by
        rw [← done]
      have count := keepsCount maxLength template closed parts _ _ filled
      have used := countsParts maxLength template parts _ _ filled
      omega

end Sequences

/-- Filling a complete target fails only on account of the data. -/
theorem Complete.blamesData {target : Argument} (complete : target.Complete) (maxLength : Nat) :
    target.BlamesData maxLength := by
  induction complete with
  | single complete =>
      intro parts error failed
      rw [fill] at failed
      split at failed
      · cases failed
        rfl
      · rcases Option.map_eq_some_iff.1 failed with ⟨source, refused, rfl⟩
        exact Value.decodePayload_isOfData complete refused
  | multi placed _ ih =>
      intro parts error failed
      rw [fill, placed] at failed
      exact fillItems_isOfData ih failed
  | present _ ih =>
      intro parts error failed
      rw [fill] at failed
      split at failed
      · cases failed
      · exact ih parts error failed
  | variadic old _ closed counts ih =>
      intro parts error failed
      rw [fill] at failed
      exact fillVariadic_isOfData closed counts ih failed

end Argument

section Call

variable {maxLength : Nat} {targets outputs : List Argument} {error : ArgumentError}

/-- Complete targets in an allowed order fail for the data only. -/
theorem deserialize_isOfData {parts : List Bytes} (placed : checkPlacement targets = .ok ())
    (complete : ∀ target ∈ targets, target.Complete)
    (failed : deserialize maxLength targets parts = (outputs, some error)) :
    error.isOfData = true := by
  simp only [deserialize, placed] at failed
  split at failed
  · rename_i source body
    cases failed
    rcases Argument.fillItems_of_fillFrom_error body with ⟨_, source, rfl, refused⟩
    have ofData : source.isOfData = true := Argument.fillItems_isOfData
      (fun target mem => (complete target mem).blamesData maxLength) refused
    exact ofData
  · cases failed
  · cases failed
    rfl

theorem decodePieces_isOfData {index : Nat} {pieces : List (List Char)}
    (failed : decodePieces index pieces = .error error) : error.isOfData = true := by
  induction pieces generalizing index with
  | nil => cases failed
  | cons piece pieces ih =>
      rw [decodePieces] at failed
      split at failed
      · cases failed
        rfl
      · cases tail : decodePieces (index + 1) pieces with
        | error source =>
            rw [tail] at failed
            cases failed
            exact ih tail
        | ok parts =>
            rw [tail] at failed
            cases failed

/-- Reading a text into complete targets fails only on account of the text. -/
theorem deserializeText_isOfData {separator text : String}
    (placed : checkPlacement targets = .ok ()) (complete : ∀ target ∈ targets, target.Complete)
    (failed : deserializeText separator maxLength targets text = (outputs, some error)) :
    error.isOfData = true := by
  rw [deserializeText] at failed
  split at failed
  · rename_i source unsplit
    cases failed
    exact decodePieces_isOfData unsplit
  · exact deserialize_isOfData placed complete failed

end Call

end ContractAbi
