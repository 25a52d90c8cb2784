import ContractAbi.Arguments.Deserialize
import ContractAbi.Arguments.Serialize
import ContractAbi.Proofs.Codec.Shape
import Mathlib.Data.List.Forall2

/-!
# Arguments and the targets of their shape

An argument and its target lay out their parts alike, so they are open-ended
together and pass the same checks of position.  Whether an optional argument is
present, and how many items a variadic one has, is not in the parts; it shows in
their number only if the content, and each item, takes at least one.
-/

namespace ContractAbi

/-- The target reads the value back from its payload. -/
def Value.RoundTrips (maxLength : Nat) (value target : Value) : Prop :=
  ∀ payload, value.encode .topLevel = .ok payload →
    target.decodePayload maxLength payload = (value.into target, none)

namespace Argument

/-- Induction over the tree of an argument. -/
@[elab_as_elim, induction_eliminator]
theorem treeInduction {motive : Argument → Prop}
    (single : ∀ value, motive (single value))
    (multi : ∀ items, (∀ item ∈ items, motive item) → motive (multi items))
    (absent : motive absent)
    (present : ∀ content, motive content → motive (present content))
    (variadic : ∀ items template, (∀ item ∈ items, motive item) →
      (∀ content, template = some content → motive content) → motive (variadic items template))
    (argument : Argument) : motive argument := by
  refine @Argument.rec motive (fun items => ∀ item ∈ items, motive item)
    (fun template => ∀ content, template = some content → motive content)
    single multi absent present variadic ?_ ?_ ?_ ?_ argument
  · simp
  · intro item items itemHolds itemsHold other otherMem
    rcases List.mem_cons.1 otherMem with rfl | otherMem
    · exact itemHolds
    · exact itemsHold other otherMem
  · simp
  · intro content contentHolds other same
    cases same
    exact contentHolds

/-- `argument.Fits maxLength target` says that the target can take the argument
back from its parts: single values round trip as payloads, and what decides about
presence and number leaves a trace in the parts. -/
inductive Fits (maxLength : Nat) : Argument → Argument → Prop where
  | single {value target} : value.RoundTrips maxLength target →
      Fits maxLength (single value) (single target)
  | multi {items targets} : List.Forall₂ (Fits maxLength) items targets →
      Fits maxLength (multi items) (multi targets)
  | absent : Fits maxLength absent absent
  | absentPresent (old) : Fits maxLength Argument.absent (present old)
  | present {content target} : Fits maxLength content target → content.parts ≠ .ok [] →
      Fits maxLength (present content) (present target)
  | variadic {items template} (own old) : (∀ item ∈ items, Fits maxLength item template) →
      (∀ item ∈ items, item.parts ≠ .ok []) →
      Fits maxLength (variadic items own) (variadic old (some template))

mutual

/-- The target once it holds the argument. -/
def into : Argument → Argument → Argument
  | single value, single target => single (value.into target)
  | multi items, multi targets => multi (itemsInto items targets)
  | present content, present target => present (content.into target)
  | variadic items _, variadic _ (some template) =>
    variadic (copiesInto template items) (some template)
  | argument, _ => argument

/-- Each argument in the target at its place. -/
def itemsInto : List Argument → List Argument → List Argument
  | item :: items, target :: targets => item.into target :: itemsInto items targets
  | _, _ => []

/-- Each item in a copy of the template. -/
def copiesInto (template : Argument) : List Argument → List Argument
  | [] => []
  | item :: items => item.into template :: copiesInto template items

end

end Argument

theorem checkPlacement_eq_ok_iff {arguments : List Argument} :
    checkPlacement arguments = .ok () ↔
      ∀ argument ∈ arguments.dropLast, argument.isOpenEnded = false := by
  rw [checkPlacement]
  split
  · rename_i argument found
    constructor
    · intro placed
      cases placed
    · intro closed
      have openEnded := List.find?_some found
      rw [closed argument (List.mem_of_find?_eq_some found)] at openEnded
      cases openEnded
  · rename_i missing
    simpa using missing

theorem checkPlacement_cons_eq_ok_iff {argument : Argument} {arguments : List Argument} :
    checkPlacement (argument :: arguments) = .ok () ↔
      (arguments = [] ∨ argument.isOpenEnded = false) ∧ checkPlacement arguments = .ok () := by
  rw [checkPlacement_eq_ok_iff, checkPlacement_eq_ok_iff]
  cases arguments with
  | nil => simp
  | cons next rest => simp

namespace Argument

theorem anyOpenEnded_eq_true_iff {items : List Argument} :
    anyOpenEnded items = true ↔ ∃ item ∈ items, item.isOpenEnded = true := by
  induction items with
  | nil => simp [anyOpenEnded]
  | cons item items ih => simp [anyOpenEnded, ih]

theorem anyOpenEnded_eq_of_forall₂ {arguments targets : List Argument}
    (same : List.Forall₂ (fun argument target => argument.isOpenEnded = target.isOpenEnded)
      arguments targets) : anyOpenEnded arguments = anyOpenEnded targets := by
  induction same with
  | nil => rfl
  | cons head _ ih => rw [anyOpenEnded, anyOpenEnded, head, ih]

theorem isOpenEnded_eq_of_fits {maxLength : Nat} {argument target : Argument}
    (fits : argument.Fits maxLength target) : argument.isOpenEnded = target.isOpenEnded := by
  induction argument generalizing target with
  | single value =>
      cases fits
      rfl
  | multi items ih =>
      cases fits with
      | @multi _ targets each =>
          apply anyOpenEnded_eq_of_forall₂
          exact forall₂_imp_of_mem each fun item mem target fit => ih item mem fit
  | absent => cases fits <;> rfl
  | present content _ =>
      cases fits
      rfl
  | variadic items own _ _ =>
      cases fits
      rfl

/-- Arguments that are open-ended together pass the same check of position. -/
theorem checkPlacement_of_forall₂ {arguments targets : List Argument}
    (same : List.Forall₂ (fun argument target => argument.isOpenEnded = target.isOpenEnded)
      arguments targets) (placed : checkPlacement arguments = .ok ()) :
    checkPlacement targets = .ok () := by
  induction same with
  | nil => rfl
  | @cons argument target arguments targets head rest ih =>
      rw [checkPlacement_cons_eq_ok_iff] at placed ⊢
      refine ⟨?_, ih placed.2⟩
      rcases placed.1 with rfl | closed
      · cases rest
        exact Or.inl rfl
      · exact Or.inr (head ▸ closed)

/-- Targets of the arguments' shape pass the check of position with them. -/
theorem checkPlacement_of_fits {maxLength : Nat} {arguments targets : List Argument}
    (fits : List.Forall₂ (Fits maxLength) arguments targets)
    (placed : checkPlacement arguments = .ok ()) : checkPlacement targets = .ok () :=
  checkPlacement_of_forall₂ (fits.imp fun _ _ => isOpenEnded_eq_of_fits) placed

end Argument

end ContractAbi
