import ContractAbi.Proofs.Arguments.Filling
import ContractAbi.Proofs.Codec.Payload
import ContractAbi.Proofs.Except

/-!
# Arguments read back from their parts

The parts carry no tags, so an argument takes the right ones only if it is closed
or nothing follows it.  The checks of position on the writing side give exactly
that at every level, and targets of the same shape pass the same checks.
-/

namespace ContractAbi

namespace Argument

theorem parts_single_eq_ok {value : Value} {parts : List Bytes}
    (written : (single value).parts = .ok parts) :
    ∃ part, value.encode .topLevel = .ok part ∧ parts = [part] := by
  rw [Argument.parts] at written
  split at written
  · rename_i part encoded
    cases written
    exact ⟨part, encoded, rfl⟩
  · cases written

theorem parts_multi_eq_ok {items : List Argument} {parts : List Bytes}
    (written : (multi items).parts = .ok parts) :
    checkPlacement items = .ok () ∧ partsOfItems items = .ok parts := by
  rw [Argument.parts, bind_eq_ok_iff] at written
  rcases written with ⟨⟨⟩, placed, written⟩
  exact ⟨placed, written⟩

theorem partsOfItems_cons_eq_ok {item : Argument} {items : List Argument} {parts : List Bytes}
    (written : partsOfItems (item :: items) = .ok parts) :
    ∃ first others, item.parts = .ok first ∧ partsOfItems items = .ok others ∧
      parts = first ++ others := by
  simp only [partsOfItems, bind_eq_ok_iff] at written
  rcases written with ⟨first, firstWritten, others, othersWritten, ⟨rfl⟩⟩
  exact ⟨first, others, firstWritten, othersWritten, rfl⟩

theorem partsOfVariadic_cons_eq_ok {item : Argument} {items : List Argument} {parts : List Bytes}
    (written : partsOfVariadic (item :: items) = .ok parts) :
    item.isOpenEnded = false ∧ ∃ first others, item.parts = .ok first ∧
      partsOfVariadic items = .ok others ∧ parts = first ++ others := by
  rw [partsOfVariadic] at written
  split at written
  · cases written
  · rename_i closed
    simp only [bind_eq_ok_iff] at written
    rcases written with ⟨first, firstWritten, others, othersWritten, ⟨rfl⟩⟩
    exact ⟨Bool.not_eq_true _ ▸ closed, first, others, firstWritten, othersWritten, rfl⟩

/-- An argument that the target takes back from its parts, whatever parts follow;
none may follow an open-ended one. -/
def TakesBack (maxLength : Nat) (argument target : Argument) : Prop :=
  ∀ parts more used, argument.parts = .ok parts → (argument.isOpenEnded = true → more = []) →
    target.fill maxLength ⟨parts ++ more, used⟩ =
      ⟨argument.into target, ⟨more, used + parts.length⟩, none⟩

/-- A sequence takes back its parts and leaves those behind them.  Only its last argument may be
open-ended, and then there are none. -/
theorem fillItems_partsOfItems {maxLength : Nat} {items targets : List Argument}
    (each : List.Forall₂ (TakesBack maxLength) items targets)
    (placed : checkPlacement items = .ok ()) {parts more : List Bytes}
    (written : partsOfItems items = .ok parts) (ends : anyOpenEnded items = true → more = [])
    (used : Nat) :
    fillItems maxLength targets ⟨parts ++ more, used⟩ =
      ⟨itemsInto items targets, ⟨more, used + parts.length⟩, none⟩ := by
  induction each generalizing parts used with
  | nil =>
      cases written
      rfl
  | @cons item target items targets head rest ih =>
      rcases partsOfItems_cons_eq_ok written with ⟨first, others, firstWritten, othersWritten, rfl⟩
      rw [checkPlacement_cons_eq_ok_iff] at placed
      rw [anyOpenEnded, Bool.or_eq_true] at ends
      -- An open-ended item is the last one, so neither the items nor the context follow it.
      have headEnds : item.isOpenEnded = true → others ++ more = [] := by
        intro openEnded
        rcases placed.1 with rfl | closed
        · cases othersWritten
          exact ends (Or.inl openEnded)
        · rw [openEnded] at closed
          cases closed
      have here := head first (others ++ more) used firstWritten headEnds
      have there := ih placed.2 othersWritten (fun openEnded => ends (Or.inr openEnded))
        (used + first.length)
      rw [fillItems, List.append_assoc, here]
      simp only [there, Filled.map, itemsInto, List.length_append, Nat.add_assoc]

/-- A repetition takes back one item after the other until no part is left. -/
theorem fillVariadic_partsOfVariadic {maxLength : Nat} {items : List Argument}
    {template : Argument} (each : ∀ item ∈ items, item.TakesBack maxLength template)
    (same : ∀ item ∈ items, item.isOpenEnded = template.isOpenEnded)
    (nonempty : ∀ item ∈ items, item.parts ≠ .ok []) {parts : List Bytes}
    (written : partsOfVariadic items = .ok parts) (used : Nat) :
    fillVariadic template (template.fill maxLength) ⟨parts, used⟩ =
      ⟨copiesInto template items, ⟨[], used + parts.length⟩, none⟩ := by
  induction items generalizing parts used with
  | nil =>
      cases written
      rw [fillVariadic]
      rfl
  | cons item items ih =>
      rcases partsOfVariadic_cons_eq_ok written with
        ⟨closed, first, others, firstWritten, othersWritten, rfl⟩
      rw [List.forall_mem_cons] at each same nonempty
      have here := each.1 first others used firstWritten (by simp [closed])
      have there := ih each.2 same.2 nonempty.2 othersWritten (used + first.length)
      have taken : first ≠ [] := by
        rintro rfl
        exact nonempty.1 firstWritten
      have progress : others.length < first.length + others.length :=
        Nat.lt_add_of_pos_left (List.length_pos_iff.2 taken)
      rw [fillVariadic_of_success (same.1.symm.trans closed) here (by simpa using progress), there]
      simp only [Filled.map, copiesInto, List.length_append, Nat.add_assoc]

/-- A target takes back what was written of an argument that fits it. -/
theorem takesBack_of_fits {maxLength : Nat} {argument target : Argument}
    (fits : argument.Fits maxLength target) : argument.TakesBack maxLength target := by
  induction argument generalizing target with
  | single value =>
      cases fits with
      | @single _ target roundTrips =>
          intro parts more used written _
          rcases parts_single_eq_ok written with ⟨part, encoded, rfl⟩
          simp only [fill, List.singleton_append, roundTrips part encoded, into]
          rfl
  | multi items ih =>
      cases fits with
      | @multi _ targets each =>
          intro parts more used written ends
          rcases parts_multi_eq_ok written with ⟨placed, itemsWritten⟩
          have back : List.Forall₂ (TakesBack maxLength) items targets :=
            forall₂_imp_of_mem each fun item mem target fit => ih item mem fit
          have body := fillItems_partsOfItems back placed itemsWritten ends used
          simp only [fill, checkPlacement_of_fits each placed, body, Filled.map, into]
  | absent =>
      intro parts more used written ends
      cases written
      cases ends rfl
      cases fits with
      | absent => rfl
      | absentPresent old => rfl
  | present content ih =>
      cases fits with
      | present inner taken =>
          intro parts more used written ends
          cases ends rfl
          have body := ih inner parts [] used written fun _ => rfl
          have left : parts ++ [] ≠ [] := by
            rintro empty
            rw [List.append_nil] at empty
            subst empty
            exact taken written
          rw [fill, if_neg (by simpa using left), body]
          rfl
  | variadic items own ih _ =>
      cases fits with
      | @variadic _ template _ old each taken =>
          intro parts more used written ends
          cases ends rfl
          have body := fillVariadic_partsOfVariadic (fun item mem => ih item mem (each item mem))
            (fun item mem => isOpenEnded_eq_of_fits (each item mem)) taken written used
          rw [fill, List.append_nil, body]
          rfl

theorem partsOfItems_of_partsFrom {index : Nat} {arguments : List Argument} {parts : List Bytes}
    (written : partsFrom index arguments = .ok parts) : partsOfItems arguments = .ok parts := by
  induction arguments generalizing index parts with
  | nil => exact written
  | cons argument arguments ih =>
      simp only [partsFrom, bind_eq_ok_iff] at written
      rcases written with ⟨first, firstWritten, others, othersWritten, rest⟩
      simp only [partsOfItems, bind_eq_ok_iff]
      refine ⟨first, ?_, others, ih othersWritten, rest⟩
      cases ownParts : argument.parts with
      | error error =>
          rw [ownParts] at firstWritten
          cases firstWritten
      | ok own =>
          rw [ownParts] at firstWritten
          cases firstWritten
          rfl

/-- The index of an argument matters to errors only. -/
theorem fillFrom_of_fillItems {maxLength index : Nat} {targets : List Argument} {parts : Parts}
    (filled : (fillItems maxLength targets parts).error = none) :
    fillFrom maxLength index targets parts = fillItems maxLength targets parts := by
  induction targets generalizing index parts with
  | nil => rfl
  | cons target targets ih =>
      rw [fillItems] at filled
      rw [fillItems, fillFrom]
      cases failure : (target.fill maxLength parts).error with
      | some error =>
          simp only [failure] at filled
          cases filled
      | none =>
          simp only [failure] at filled
          simp only [ih filled]

end Argument

/-- Values whose payloads are read back, as single arguments. -/
theorem roundTrips_of_fits {maxLength : Nat} {value target : Value} (fits : value.Fits target)
    (short : ∀ length ∈ value.prefixes .topLevel, length ≤ maxLength)
    (wide : ∀ item ∈ value.items, item.encode .nested ≠ .ok []) :
    value.RoundTrips maxLength target :=
  fun _ encoded => Value.decodePayload_of_decode
    (Value.decode_encode_topLevel fits short wide encoded)

/-- Arguments are read back from their parts into any targets of their shape, and
every part is used. -/
theorem deserialize_serialize {maxLength : Nat} {arguments targets : List Argument}
    {parts : List Bytes} (fits : List.Forall₂ (Argument.Fits maxLength) arguments targets)
    (serialized : serialize arguments = .ok parts) :
    deserialize maxLength targets parts = (Argument.itemsInto arguments targets, none) := by
  rw [serialize, bind_eq_ok_iff] at serialized
  rcases serialized with ⟨⟨⟩, placed, written⟩
  have back : List.Forall₂ (Argument.TakesBack maxLength) arguments targets :=
    fits.imp fun _ _ => Argument.takesBack_of_fits
  have body : Argument.fillItems maxLength targets ⟨parts ++ [], 0⟩ =
      ⟨Argument.itemsInto arguments targets, ⟨[], 0 + parts.length⟩, none⟩ :=
    Argument.fillItems_partsOfItems back placed (Argument.partsOfItems_of_partsFrom written)
      (fun _ => rfl) 0
  rw [List.append_nil] at body
  have filled : Argument.fillFrom maxLength 0 targets ⟨parts, 0⟩ =
      Argument.fillItems maxLength targets ⟨parts, 0⟩ :=
    Argument.fillFrom_of_fillItems (congrArg Filled.error body)
  simp only [deserialize, Argument.checkPlacement_of_fits fits placed, filled, body]

theorem deserialize_serialize_transfers :
    let pair (first second : BitVec 8) :=
      Argument.multi [.single (.int .u8 first), .single (.int .u8 second)]
    let arguments :=
      [Argument.single (.bool false), .present (.variadic [pair 1 0, pair 2 3] none)]
    let targets :=
      [Argument.single (.bool true), .present (.variadic [] (some (pair 9 9)))]
    List.Forall₂ (Argument.Fits 0) arguments targets ∧
      serialize arguments = .ok [[], [1], [], [2], [3]] ∧
      deserialize 0 targets [[], [1], [], [2], [3]] =
        ([.single (.bool false), .present (.variadic [pair 1 0, pair 2 3] (some (pair 9 9)))],
          none) := by
  intro pair arguments targets
  have byte (value old : BitVec 8) :
      Argument.Fits 0 (.single (.int .u8 value)) (.single (.int .u8 old)) :=
    .single (roundTrips_of_fits (.int _ _ _) (by simp [Value.prefixes]) (by simp [Value.items]))
  have pairs (first second : BitVec 8) : (pair first second).Fits 0 (pair 9 9) :=
    .multi (.cons (byte first 9) (.cons (byte second 9) .nil))
  have flag : Argument.Fits 0 (.single (.bool false)) (.single (.bool true)) :=
    .single (roundTrips_of_fits (.bool _ _) (by simp [Value.prefixes]) (by simp [Value.items]))
  have transfers : Argument.Fits 0 (.variadic [pair 1 0, pair 2 3] none)
      (.variadic [] (some (pair 9 9))) := by
    apply Argument.Fits.variadic
    · simp only [List.forall_mem_cons]
      exact ⟨pairs 1 0, pairs 2 3, by simp⟩
    · simp only [List.forall_mem_cons]
      exact ⟨by decide, by decide, by simp⟩
  have fits : List.Forall₂ (Argument.Fits 0) arguments targets :=
    .cons flag (.cons (.present transfers (by decide)) .nil)
  have serialized : serialize arguments = .ok [[], [1], [], [2], [3]] := by rfl
  exact ⟨fits, serialized, deserialize_serialize fits serialized⟩

end ContractAbi
