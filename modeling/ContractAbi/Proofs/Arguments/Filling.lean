import ContractAbi.Proofs.Arguments.Shape

/-!
# Arguments filled from parts

What filling a target has done when it succeeds, and how many parts a filled
target has used: one for each single value that it now holds, and as many as before
if it is closed.
-/

namespace ContractAbi

namespace Argument

mutual

/-- The number of single values in an argument, each of which is one part. -/
def partCount : Argument → Nat
  | single _ => 1
  | multi items => partCountOfItems items
  | absent => 0
  | present content => content.partCount
  | variadic items _ => partCountOfItems items

def partCountOfItems : List Argument → Nat
  | [] => 0
  | item :: items => item.partCount + partCountOfItems items

end

section Success

variable {maxLength : Nat} {parts rest : Parts}

theorem fill_single_eq_success {target : Value} {filled : Argument}
    (success : (single target).fill maxLength parts = ⟨filled, rest, none⟩) :
    ∃ part left value, parts.left = part :: left ∧
      target.decodePayload maxLength part = (value, none) ∧ filled = single value ∧
        rest = ⟨left, parts.used + 1⟩ := by
  rw [fill] at success
  split at success
  · cases success
  · rename_i part left same
    rcases read : target.decodePayload maxLength part with ⟨value, _ | error⟩
    · simp only [read, Filled.mk.injEq] at success
      exact ⟨part, left, value, same, read, success.1.symm, success.2.1.symm⟩
    · simp [read] at success

theorem fill_multi_eq_success {targets : List Argument} {filled : Argument}
    (success : (multi targets).fill maxLength parts = ⟨filled, rest, none⟩) :
    checkPlacement targets = .ok () ∧ ∃ items,
      fillItems maxLength targets parts = ⟨items, rest, none⟩ ∧ filled = multi items := by
  rw [fill] at success
  split at success
  · cases success
  · rename_i placed
    rcases body : fillItems maxLength targets parts with ⟨items, last, error⟩
    simp only [body, Filled.map, Filled.mk.injEq] at success
    rcases success with ⟨rfl, rfl, rfl⟩
    exact ⟨placed, items, rfl, rfl⟩

theorem fill_absent_eq_success {filled : Argument}
    (success : absent.fill maxLength parts = ⟨filled, rest, none⟩) :
    parts.left = [] ∧ filled = absent ∧ rest = parts := by
  simp only [fill, Filled.mk.injEq] at success
  rcases success with ⟨rfl, rfl, passed⟩
  split at passed
  · rename_i empty
    exact ⟨List.isEmpty_iff.1 empty, rfl, rfl⟩
  · cases passed

theorem fill_present_eq_success {target filled : Argument}
    (success : (present target).fill maxLength parts = ⟨filled, rest, none⟩) :
    (parts.left = [] ∧ filled = absent ∧ rest = parts) ∨
      (parts.left ≠ [] ∧ ∃ content,
        target.fill maxLength parts = ⟨content, rest, none⟩ ∧ filled = present content) := by
  rw [fill] at success
  split at success
  · rename_i empty
    cases success
    exact Or.inl ⟨List.isEmpty_iff.1 empty, rfl, rfl⟩
  · rename_i nonempty
    rw [List.isEmpty_iff] at nonempty
    rcases body : target.fill maxLength parts with ⟨content, last, error⟩
    simp only [body, Filled.map, Filled.mk.injEq] at success
    rcases success with ⟨rfl, rfl, rfl⟩
    exact Or.inr ⟨nonempty, content, rfl, rfl⟩

theorem fill_variadic_eq_success {old : List Argument} {template : Option Argument}
    {filled : Argument}
    (success : (variadic old template).fill maxLength parts = ⟨filled, rest, none⟩) :
    ∃ content items, template = some content ∧
      fillVariadic content (content.fill maxLength) parts = ⟨items, rest, none⟩ ∧
        filled = variadic items (some content) := by
  cases template with
  | none => simp [fill] at success
  | some content =>
      rw [fill] at success
      rcases body : fillVariadic content (content.fill maxLength) parts with ⟨items, last, error⟩
      simp only [body, Filled.map, Filled.mk.injEq] at success
      rcases success with ⟨rfl, rfl, rfl⟩
      exact ⟨content, items, rfl, body, rfl⟩

theorem fillItems_cons_eq_success {target : Argument} {targets filled : List Argument}
    (success : fillItems maxLength (target :: targets) parts = ⟨filled, rest, none⟩) :
    ∃ first middle others, target.fill maxLength parts = ⟨first, middle, none⟩ ∧
      fillItems maxLength targets middle = ⟨others, rest, none⟩ ∧ filled = first :: others := by
  rw [fillItems] at success
  rcases head : target.fill maxLength parts with ⟨first, middle, _ | error⟩
  · rcases tail : fillItems maxLength targets middle with ⟨others, last, error⟩
    simp only [head, tail, Filled.map, Filled.mk.injEq] at success
    rcases success with ⟨rfl, rfl, rfl⟩
    exact ⟨first, middle, others, rfl, tail, rfl⟩
  · simp [head] at success

theorem fillVariadic_of_success {template first : Argument} {fillItem : Parts → Filled Argument}
    {middle : Parts} (closed : template.isOpenEnded = false)
    (head : fillItem parts = ⟨first, middle, none⟩)
    (progress : middle.left.length < parts.left.length) :
    fillVariadic template fillItem parts =
      (fillVariadic template fillItem middle).map (first :: ·) := by
  have nonempty : parts.left ≠ [] := List.ne_nil_of_length_pos (Nat.zero_lt_of_lt progress)
  rw [fillVariadic, if_neg (by simpa using nonempty), if_neg (by simp [closed])]
  simp only [head, if_pos progress]

/-- A repetition is complete with no part left, or it has read one more item, which took at least
one part. -/
theorem fillVariadic_eq_success {template : Argument} {fillItem : Parts → Filled Argument}
    {items : List Argument}
    (success : fillVariadic template fillItem parts = ⟨items, rest, none⟩) :
    (parts.left = [] ∧ items = [] ∧ rest = parts) ∨
      ∃ first middle others, template.isOpenEnded = false ∧
        fillItem parts = ⟨first, middle, none⟩ ∧ middle.left.length < parts.left.length ∧
          fillVariadic template fillItem middle = ⟨others, rest, none⟩ ∧
            items = first :: others := by
  rw [fillVariadic] at success
  split at success
  · rename_i empty
    cases success
    exact Or.inl ⟨List.isEmpty_iff.1 empty, rfl, rfl⟩
  · split at success
    · cases success
    · rename_i closed
      rw [Bool.not_eq_true] at closed
      rcases head : fillItem parts with ⟨first, middle, _ | error⟩
      · simp only [head] at success
        split at success
        · rename_i progress
          rcases tail : fillVariadic template fillItem middle with ⟨others, last, error⟩
          simp only [tail, Filled.map, Filled.mk.injEq] at success
          rcases success with ⟨rfl, rfl, rfl⟩
          exact Or.inr ⟨first, middle, others, closed, rfl, progress, tail, rfl⟩
        · cases success
      · simp [head] at success

/-- The index of an argument matters to errors only. -/
theorem fillItems_of_fillFrom {index : Nat} {targets filled : List Argument}
    (success : fillFrom maxLength index targets parts = ⟨filled, rest, none⟩) :
    fillItems maxLength targets parts = ⟨filled, rest, none⟩ := by
  induction targets generalizing index parts filled with
  | nil => exact success
  | cons target targets ih =>
      rw [fillFrom] at success
      rw [fillItems]
      rcases head : target.fill maxLength parts with ⟨first, middle, _ | error⟩
      · rcases tail : fillFrom maxLength (index + 1) targets middle with ⟨others, last, error⟩
        simp only [head, tail, Filled.map, Filled.mk.injEq] at success
        rcases success with ⟨rfl, rfl, rfl⟩
        simp only [ih tail, Filled.map]
      · simp [head] at success

end Success

/-- What is filled uses as many parts as it then has. -/
def CountsParts (maxLength : Nat) (target : Argument) : Prop :=
  ∀ parts filled rest, target.fill maxLength parts = ⟨filled, rest, none⟩ →
    filled.partCount + rest.left.length = parts.left.length

theorem partCount_of_fillItems {maxLength : Nat} {targets filled : List Argument}
    {parts rest : Parts} (each : ∀ target ∈ targets, target.CountsParts maxLength)
    (success : fillItems maxLength targets parts = ⟨filled, rest, none⟩) :
    partCountOfItems filled + rest.left.length = parts.left.length := by
  induction targets generalizing parts filled with
  | nil =>
      cases success
      simp [partCountOfItems]
  | cons target targets ih =>
      rw [List.forall_mem_cons] at each
      rcases fillItems_cons_eq_success success with ⟨first, middle, others, head, tail, rfl⟩
      have here := each.1 parts first middle head
      have there := ih each.2 tail
      rw [partCountOfItems]
      omega

theorem partCount_of_fillVariadic {maxLength : Nat} {template : Argument}
    (each : template.CountsParts maxLength) {items : List Argument} {parts rest : Parts}
    (success : fillVariadic template (template.fill maxLength) parts = ⟨items, rest, none⟩) :
    partCountOfItems items + rest.left.length = parts.left.length := by
  induction items generalizing parts with
  | nil =>
      rcases fillVariadic_eq_success success with ⟨_, _, rfl⟩ | ⟨_, _, _, _, _, _, _, ⟨⟩⟩
      simp [partCountOfItems]
  | cons item items ih =>
      rcases fillVariadic_eq_success success with
        ⟨_, ⟨⟩, _⟩ | ⟨first, middle, others, _, head, _, tail, same⟩
      cases same
      have here := each parts item middle head
      have there := ih tail
      rw [partCountOfItems]
      omega

/-- A target counts the parts that have filled it, whatever is in it.  The induction is on the
target. -/
theorem countsParts (maxLength : Nat) (target : Argument) : target.CountsParts maxLength := by
  induction target with
  | single value =>
      intro parts filled rest success
      rcases fill_single_eq_success success with ⟨part, left, value, same, _, rfl, rfl⟩
      rw [same, partCount, List.length_cons, Nat.add_comm]
  | multi items ih =>
      intro parts filled rest success
      rcases fill_multi_eq_success success with ⟨_, inner, body, rfl⟩
      exact partCount_of_fillItems ih body
  | absent =>
      intro parts filled rest success
      rcases fill_absent_eq_success success with ⟨_, rfl, rfl⟩
      exact Nat.zero_add _
  | present content ih =>
      intro parts filled rest success
      rcases fill_present_eq_success success with ⟨_, rfl, rfl⟩ | ⟨_, inner, body, rfl⟩
      · exact Nat.zero_add _
      · exact ih parts inner rest body
  | variadic items template _ ih =>
      intro parts filled rest success
      rcases fill_variadic_eq_success success with ⟨content, inner, same, body, rfl⟩
      exact partCount_of_fillVariadic (ih content same) body

/-- A closed target has as many single values after filling as before. -/
def KeepsCount (maxLength : Nat) (target : Argument) : Prop :=
  target.isOpenEnded = false → ∀ parts filled rest,
    target.fill maxLength parts = ⟨filled, rest, none⟩ → filled.partCount = target.partCount

theorem partCountOfItems_fillItems {maxLength : Nat} {targets filled : List Argument}
    {parts rest : Parts} (each : ∀ target ∈ targets, target.KeepsCount maxLength)
    (closed : anyOpenEnded targets = false)
    (success : fillItems maxLength targets parts = ⟨filled, rest, none⟩) :
    partCountOfItems filled = partCountOfItems targets := by
  induction targets generalizing parts filled with
  | nil =>
      cases success
      rfl
  | cons target targets ih =>
      rw [List.forall_mem_cons] at each
      rw [anyOpenEnded, Bool.or_eq_false_iff] at closed
      rcases fillItems_cons_eq_success success with ⟨first, middle, others, head, tail, rfl⟩
      rw [partCountOfItems, partCountOfItems, each.1 closed.1 parts first middle head,
        ih each.2 closed.2 tail]

/-- Closed targets have as many parts before as after. -/
theorem keepsCount (maxLength : Nat) (target : Argument) : target.KeepsCount maxLength := by
  induction target with
  | single value =>
      intro _ parts filled rest success
      rcases fill_single_eq_success success with ⟨part, left, value, _, _, rfl, _⟩
      rfl
  | multi items ih =>
      intro closed parts filled rest success
      rcases fill_multi_eq_success success with ⟨_, inner, body, rfl⟩
      exact partCountOfItems_fillItems ih closed body
  | absent => rintro ⟨⟩
  | present content _ => rintro ⟨⟩
  | variadic items template _ _ => rintro ⟨⟩

end Argument

/-- Reading succeeds where the order of the targets is allowed and they use up all parts. -/
theorem deserialize_eq_success {maxLength : Nat} {targets outputs : List Argument}
    {parts : List Bytes} (success : deserialize maxLength targets parts = (outputs, none)) :
    checkPlacement targets = .ok () ∧ ∃ used,
      Argument.fillItems maxLength targets ⟨parts, 0⟩ = ⟨outputs, ⟨[], used⟩, none⟩ := by
  rw [deserialize] at success
  split at success
  · cases success
  · rename_i placed
    rcases body : Argument.fillFrom maxLength 0 targets ⟨parts, 0⟩ with ⟨found, ⟨left, used⟩, error⟩
    simp only [body] at success
    split at success <;> cases success
    exact ⟨placed, used, Argument.fillItems_of_fillFrom body⟩

/-- Arguments that are read have one single value for each part. -/
theorem partCount_of_deserialize {maxLength : Nat} {targets filled : List Argument}
    {parts : List Bytes} (success : deserialize maxLength targets parts = (filled, none)) :
    Argument.partCountOfItems filled = parts.length := by
  rcases deserialize_eq_success success with ⟨_, used, body⟩
  have counted := Argument.partCount_of_fillItems
    (fun target _ => Argument.countsParts maxLength target) body
  simpa using counted

end ContractAbi
