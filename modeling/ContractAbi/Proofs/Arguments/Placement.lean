import ContractAbi.Proofs.Arguments.NormalForm

/-!
# Which arguments can be written

Where an open-ended argument may stand is checked piece by piece: once for the call, again
for each group, item by item in a variadic argument, and not at all for the content of an
option.  Together the checks are one rule about the whole tree.  Arguments that keep it
are written as the payloads of their single values, from left to right, and only these
can prevent it.
-/

namespace ContractAbi

section Pairs

variable {α β : Type} {R : α → β → Prop}

theorem forall₂_append_left_iff {front back : List α} {whole : List β} :
    List.Forall₂ R (front ++ back) whole ↔
      ∃ first others, List.Forall₂ R front first ∧ List.Forall₂ R back others ∧
        whole = first ++ others := by
  constructor
  · intro each
    refine ⟨whole.take front.length, whole.drop front.length, ?_, ?_,
      (List.take_append_drop _ _).symm⟩
    · simpa using List.forall₂_take front.length each
    · simpa using List.forall₂_drop front.length each
  · rintro ⟨first, others, head, tail, rfl⟩
    exact List.rel_append head tail

theorem exists_forall₂_iff {items : List α} :
    (∃ results, List.Forall₂ R items results) ↔ ∀ item ∈ items, ∃ result, R item result := by
  induction items with
  | nil => simp
  | cons item items ih => simp [List.forall₂_cons_left_iff, ← ih]

end Pairs

namespace Argument

/-- An argument that can take a variable number of parts. -/
inductive OpenEnded : Argument → Prop where
  | absent : OpenEnded absent
  | present (content) : OpenEnded (present content)
  | variadic (items template) : OpenEnded (variadic items template)
  | multi {items item} : item ∈ items → OpenEnded item → OpenEnded (multi items)

/-- Arguments one after the other, of which only the last may be open-ended. -/
def ClosedBeforeLast (arguments : List Argument) : Prop :=
  ∀ argument ∈ arguments.dropLast, ¬argument.OpenEnded

/-- `argument.WellPlaced` says that at every level inside the argument the number of parts
that each piece takes is known from what is left. -/
inductive WellPlaced : Argument → Prop where
  | single (value) : WellPlaced (single value)
  | multi {items} : ClosedBeforeLast items → (∀ item ∈ items, WellPlaced item) →
      WellPlaced (multi items)
  | absent : WellPlaced absent
  | present {content} : WellPlaced content → WellPlaced (present content)
  | variadic {items} (template) : (∀ item ∈ items, ¬item.OpenEnded) →
      (∀ item ∈ items, WellPlaced item) → WellPlaced (variadic items template)

theorem isOpenEnded_eq_true_iff {argument : Argument} :
    argument.isOpenEnded = true ↔ argument.OpenEnded := by
  induction argument with
  | single value => exact ⟨nofun, nofun⟩
  | multi items ih =>
      rw [isOpenEnded, anyOpenEnded_eq_true_iff]
      constructor
      · rintro ⟨item, mem, openEnded⟩
        exact .multi mem ((ih item mem).1 openEnded)
      · intro openEnded
        cases openEnded with
        | @multi _ item mem itemOpenEnded => exact ⟨item, mem, (ih item mem).2 itemOpenEnded⟩
  | absent => exact ⟨fun _ => .absent, fun _ => rfl⟩
  | present content _ => exact ⟨fun _ => .present content, fun _ => rfl⟩
  | variadic items template _ _ => exact ⟨fun _ => .variadic items template, fun _ => rfl⟩

theorem isOpenEnded_eq_false_iff {argument : Argument} :
    argument.isOpenEnded = false ↔ ¬argument.OpenEnded := by
  rw [← isOpenEnded_eq_true_iff, Bool.not_eq_true]

theorem checkPlacement_eq_ok_iff_closedBeforeLast {arguments : List Argument} :
    checkPlacement arguments = .ok () ↔ ClosedBeforeLast arguments := by
  simp only [checkPlacement_eq_ok_iff, isOpenEnded_eq_false_iff, ClosedBeforeLast]

theorem wellPlaced_multi_iff {items : List Argument} :
    (multi items).WellPlaced ↔ ClosedBeforeLast items ∧ ∀ item ∈ items, item.WellPlaced := by
  constructor
  · intro placed
    cases placed with
    | multi closed each => exact ⟨closed, each⟩
  · rintro ⟨closed, each⟩
    exact .multi closed each

theorem wellPlaced_present_iff {content : Argument} :
    (present content).WellPlaced ↔ content.WellPlaced := by
  constructor
  · intro placed
    cases placed with
    | present contentPlaced => exact contentPlaced
  · exact .present

theorem wellPlaced_variadic_iff {items : List Argument} {template : Option Argument} :
    (variadic items template).WellPlaced ↔
      ∀ item ∈ items, ¬item.OpenEnded ∧ item.WellPlaced := by
  constructor
  · intro placed item mem
    cases placed with
    | variadic _ closed each => exact ⟨closed item mem, each item mem⟩
  · intro each
    exact .variadic template (fun item mem => (each item mem).1) fun item mem => (each item mem).2

/-- The parts are the payloads of the values, one for each. -/
def ArePayloads (values : List Value) (parts : List Bytes) : Prop :=
  List.Forall₂ (fun value part => value.encode .topLevel = .ok part) values parts

theorem arePayloads_nil_iff {parts : List Bytes} : ArePayloads [] parts ↔ parts = [] :=
  List.forall₂_nil_left_iff

theorem arePayloads_append_iff {front back : List Value} {parts : List Bytes} :
    ArePayloads (front ++ back) parts ↔
      ∃ first others, ArePayloads front first ∧ ArePayloads back others ∧
        parts = first ++ others :=
  forall₂_append_left_iff

theorem exists_arePayloads_iff {values : List Value} :
    (∃ parts, ArePayloads values parts) ↔
      ∀ value ∈ values, ∃ part, value.encode .topLevel = .ok part :=
  exists_forall₂_iff

/-- What the argument is written as, without the order of the checks. -/
def WritesSingles (argument : Argument) : Prop :=
  ∀ parts, argument.parts = .ok parts ↔
    argument.WellPlaced ∧ ArePayloads argument.singles parts

theorem partsOfItems_eq_ok_iff {items : List Argument}
    (each : ∀ item ∈ items, item.WritesSingles) {parts : List Bytes} :
    partsOfItems items = .ok parts ↔
      (∀ item ∈ items, item.WellPlaced) ∧ ArePayloads (singlesOfItems items) parts := by
  induction items generalizing parts with
  | nil => simp [partsOfItems, singlesOfItems, arePayloads_nil_iff, eq_comm]
  | cons item items ih =>
      rw [List.forall_mem_cons] at each
      rw [List.forall_mem_cons, singlesOfItems, arePayloads_append_iff]
      constructor
      · intro written
        rcases partsOfItems_cons_eq_ok written with ⟨first, others, head, tail, rfl⟩
        rcases (each.1 first).1 head with ⟨placed, payloads⟩
        rcases (ih each.2).1 tail with ⟨othersPlaced, othersPayloads⟩
        exact ⟨⟨placed, othersPlaced⟩, first, others, payloads, othersPayloads, rfl⟩
      · rintro ⟨⟨placed, othersPlaced⟩, first, others, payloads, othersPayloads, rfl⟩
        exact partsOfItems_cons_of_ok ((each.1 first).2 ⟨placed, payloads⟩)
          ((ih each.2).2 ⟨othersPlaced, othersPayloads⟩)

theorem partsOfVariadic_eq_ok_iff {items : List Argument}
    (each : ∀ item ∈ items, item.WritesSingles) {parts : List Bytes} :
    partsOfVariadic items = .ok parts ↔
      (∀ item ∈ items, ¬item.OpenEnded ∧ item.WellPlaced) ∧
        ArePayloads (singlesOfItems items) parts := by
  induction items generalizing parts with
  | nil => simp [partsOfVariadic, singlesOfItems, arePayloads_nil_iff, eq_comm]
  | cons item items ih =>
      rw [List.forall_mem_cons] at each
      rw [List.forall_mem_cons, singlesOfItems, arePayloads_append_iff]
      constructor
      · intro written
        rcases partsOfVariadic_cons_eq_ok written with ⟨closed, first, others, head, tail, rfl⟩
        rcases (each.1 first).1 head with ⟨placed, payloads⟩
        rcases (ih each.2).1 tail with ⟨othersPlaced, othersPayloads⟩
        exact ⟨⟨⟨isOpenEnded_eq_false_iff.1 closed, placed⟩, othersPlaced⟩, first, others, payloads,
          othersPayloads, rfl⟩
      · rintro ⟨⟨⟨closed, placed⟩, othersPlaced⟩, first, others, payloads, othersPayloads, rfl⟩
        exact partsOfVariadic_cons_of_ok (isOpenEnded_eq_false_iff.2 closed)
          ((each.1 first).2 ⟨placed, payloads⟩) ((ih each.2).2 ⟨othersPlaced, othersPayloads⟩)

theorem parts_single_eq_ok_iff {value : Value} {parts : List Bytes} :
    (single value).parts = .ok parts ↔ ArePayloads [value] parts := by
  constructor
  · intro written
    rcases parts_single_eq_ok written with ⟨part, encoded, rfl⟩
    exact .cons encoded .nil
  · rintro (_ | ⟨encoded, _ | _⟩)
    rw [Argument.parts, encoded]

/-- An argument is written if it is well placed and each of its values can be encoded, and its parts
are the payloads of these in order. -/
theorem writesSingles (argument : Argument) : argument.WritesSingles := by
  induction argument with
  | single value =>
      intro parts
      rw [parts_single_eq_ok_iff, singles]
      exact (and_iff_right (.single value)).symm
  | multi items ih =>
      intro parts
      rw [wellPlaced_multi_iff, and_assoc, ← checkPlacement_eq_ok_iff_closedBeforeLast, singles,
        ← partsOfItems_eq_ok_iff ih]
      constructor
      · exact parts_multi_eq_ok
      · rintro ⟨placed, written⟩
        rw [Argument.parts, placed]
        exact written
  | absent =>
      intro parts
      rw [Argument.parts, singles, arePayloads_nil_iff, and_iff_right .absent, Except.ok.injEq,
        eq_comm]
  | present content ih =>
      intro parts
      rw [wellPlaced_present_iff, Argument.parts, singles]
      exact ih parts
  | variadic items template ih _ =>
      intro parts
      rw [wellPlaced_variadic_iff, Argument.parts, singles]
      exact partsOfVariadic_eq_ok_iff ih

end Argument

open Argument (ClosedBeforeLast ArePayloads)

/-- A call is checked as the items of a group are, so that its arguments are written as such
items. -/
theorem serialize_eq_ok_iff_partsOfItems {arguments : List Argument} {parts : List Bytes} :
    serialize arguments = .ok parts ↔
      checkPlacement arguments = .ok () ∧ Argument.partsOfItems arguments = .ok parts := by
  rw [serialize, bind_eq_ok_iff]
  constructor
  · rintro ⟨⟨⟩, placed, written⟩
    exact ⟨placed, Argument.partsOfItems_of_partsFrom written⟩
  · rintro ⟨placed, written⟩
    exact ⟨(), placed, Argument.partsFrom_of_partsOfItems written⟩

/-- Arguments are written if and only if they are well placed and each single value in them
has a payload.  The parts are then these payloads, from left to right. -/
theorem serialize_eq_ok_iff (arguments : List Argument) :
    (∀ parts, serialize arguments = .ok parts ↔
        ClosedBeforeLast arguments ∧ (∀ argument ∈ arguments, argument.WellPlaced) ∧
          ArePayloads (Argument.singlesOfItems arguments) parts) ∧
      ((∃ parts, serialize arguments = .ok parts) ↔
        ClosedBeforeLast arguments ∧ (∀ argument ∈ arguments, argument.WellPlaced) ∧
          ∀ value ∈ Argument.singlesOfItems arguments, ∃ part, value.encode .topLevel = .ok part) := by
  have reference (parts : List Bytes) : serialize arguments = .ok parts ↔
      ClosedBeforeLast arguments ∧ (∀ argument ∈ arguments, argument.WellPlaced) ∧
        ArePayloads (Argument.singlesOfItems arguments) parts := by
    rw [serialize_eq_ok_iff_partsOfItems, Argument.checkPlacement_eq_ok_iff_closedBeforeLast,
      Argument.partsOfItems_eq_ok_iff fun argument _ => argument.writesSingles]
  refine ⟨reference, ?_⟩
  simp only [reference, exists_and_left, Argument.exists_arePayloads_iff]

/-- Transfers behind an option are written; a group with an option in front of something is not. -/
theorem serialize_eq_ok_iff_transfers :
    let pair (flag : Bool) (amount : Nat) :=
      Argument.multi [.single (.bool flag), .single (.natural amount)]
    let arguments := [pair true 256, .multi [.single (.text "a"),
      .present (.variadic [pair false 7, pair true 0] none)]]
    let parts := [[1], [1, 0], [0x61], [], [7], [1], []]
    let misplaced := [Argument.multi [pair true 1, .absent], pair true 2]
    (ClosedBeforeLast arguments ∧ (∀ argument ∈ arguments, argument.WellPlaced) ∧
        ArePayloads (Argument.singlesOfItems arguments) parts) ∧
      ¬∃ parts, serialize misplaced = .ok parts := by
  intro pair arguments parts misplaced
  have written : serialize arguments = .ok parts := by rfl
  refine ⟨((serialize_eq_ok_iff arguments).1 parts).1 written, ?_⟩
  rw [(serialize_eq_ok_iff misplaced).2]
  rintro ⟨closed, _⟩
  have openEnded : (Argument.multi [pair true 1, .absent]).OpenEnded :=
    .multi (List.mem_cons_of_mem _ List.mem_cons_self) .absent
  exact closed _ List.mem_cons_self openEnded

end ContractAbi
