import Mathlib.Data.List.Forall2

/-!
# Computations that can fail

What must have succeeded for a composed computation to succeed, and what has failed
if it fails.
-/

namespace ContractAbi

theorem ok_bind {ε α β : Type} {value : α} {next : α → Except ε β} :
    Except.ok value >>= next = next value :=
  rfl

theorem bind_eq_ok_iff {ε α β : Type} {first : Except ε α} {next : α → Except ε β} {result : β} :
    first >>= next = .ok result ↔ ∃ value, first = .ok value ∧ next value = .ok result := by
  cases first with
  | error error => simp [Bind.bind, Except.bind]
  | ok value => simp [Bind.bind, Except.bind]

theorem map_eq_ok_iff {ε α β : Type} {f : α → β} {first : Except ε α} {result : β} :
    first.map f = .ok result ↔ ∃ value, first = .ok value ∧ f value = result := by
  cases first with
  | error error => simp [Except.map]
  | ok value => simp [Except.map]

theorem bind_eq_error_iff {ε α β : Type} {first : Except ε α} {next : α → Except ε β} {error : ε} :
    first >>= next = .error error ↔
      first = .error error ∨ ∃ value, first = .ok value ∧ next value = .error error := by
  cases first with
  | error error => simp [Bind.bind, Except.bind]
  | ok value => simp [Bind.bind, Except.bind]

@[simp]
theorem mapError_eq_ok_iff {ε ε' α : Type} {f : ε → ε'} {first : Except ε α} {result : α} :
    first.mapError f = .ok result ↔ first = .ok result := by
  cases first with
  | error error => simp [Except.mapError]
  | ok value => simp [Except.mapError]

theorem mapError_eq_error_iff {ε ε' α : Type} {f : ε → ε'} {first : Except ε α} {error : ε'} :
    first.mapError f = .error error ↔ ∃ source, first = .error source ∧ f source = error := by
  cases first with
  | error error => simp [Except.mapError]
  | ok value => simp [Except.mapError]

theorem exists_of_mapM_eq_error {ε α β : Type} {f : α → Except ε β} {items : List α} {error : ε}
    (failed : items.mapM f = .error error) : ∃ item ∈ items, f item = .error error := by
  induction items with
  | nil => cases failed
  | cons item items ih =>
      rw [List.mapM_cons, bind_eq_error_iff] at failed
      rcases failed with failed | ⟨value, _, failed⟩
      · exact ⟨item, List.mem_cons_self, failed⟩
      · rw [bind_eq_error_iff] at failed
        rcases failed with failed | ⟨_, _, ⟨⟩⟩
        rcases ih failed with ⟨other, mem, failed⟩
        exact ⟨other, List.mem_cons_of_mem _ mem, failed⟩

theorem mapM_eq_ok_of_forall₂ {ε α β : Type} {f : α → Except ε β} {items : List α}
    {results : List β}
    (each : List.Forall₂ (fun item result => f item = .ok result) items results) :
    items.mapM f = .ok results := by
  induction each with
  | nil => rfl
  | cons head _ ih =>
      rw [List.mapM_cons, head, ih]
      rfl

/-- The error of a computation that fails. -/
def failure? {ε α : Type} : Except ε α → Option ε
  | .ok _ => none
  | .error error => some error

theorem failure?_eq_some_iff {ε α : Type} {computed : Except ε α} {error : ε} :
    failure? computed = some error ↔ computed = .error error := by
  cases computed with
  | error other => simp [failure?]
  | ok value => simp [failure?]

theorem failure?_eq_none_iff {ε α : Type} {computed : Except ε α} :
    failure? computed = none ↔ ∃ value, computed = .ok value := by
  cases computed with
  | error error => simp [failure?]
  | ok value => simp [failure?]

theorem failure?_map {ε α β : Type} (f : α → β) (computed : Except ε α) :
    failure? (computed.map f) = failure? computed := by
  cases computed <;> rfl

theorem failure?_mapError {ε ε' α : Type} (f : ε → ε') (computed : Except ε α) :
    failure? (computed.mapError f) = (failure? computed).map f := by
  cases computed <;> rfl

/-- Of two computations one after the other the first that fails gives the error. -/
theorem failure?_both {ε α β γ : Type} (first : Except ε α) (second : Except ε β)
    (f : α → β → γ) :
    failure? (do
        let value ← first
        let other ← second
        return f value other) = (failure? first).or (failure? second) := by
  cases first with
  | error error => rfl
  | ok value => cases second <;> rfl

end ContractAbi
