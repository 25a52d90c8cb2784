import ContractAbi.Proofs.Arguments.Filling
import ContractAbi.Proofs.Arguments.RoundTrip
import ContractAbi.Proofs.Arguments.Text

/-!
# Arguments read back from text

A text always has at least one part, so the text of arguments without any is
that of a single empty part.  Whatever the targets then hold has taken this part,
and is something else than what was written.
-/

namespace ContractAbi

theorem serializeText_eq_ok {separator text : String} {arguments : List Argument}
    (serialized : serializeText separator arguments = .ok text) :
    ∃ parts, serialize arguments = .ok parts ∧ text = joinParts separator parts := by
  rw [serializeText] at serialized
  cases written : serialize arguments with
  | error error =>
      rw [written] at serialized
      cases serialized
  | ok parts =>
      rw [written] at serialized
      cases serialized
      exact ⟨parts, rfl, rfl⟩

section Fitting

variable {maxLength : Nat} {arguments targets : List Argument} {parts : List Bytes}

theorem fillFrom_of_fits (fits : List.Forall₂ (Argument.Fits maxLength) arguments targets)
    (placed : checkPlacement arguments = .ok ()) {index : Nat}
    (written : Argument.partsFrom index arguments = .ok parts) (used : Nat) :
    Argument.fillFrom maxLength index targets ⟨parts, used⟩ =
      ⟨Argument.itemsInto arguments targets, ⟨[], used + parts.length⟩, none⟩ := by
  have back : List.Forall₂ (Argument.TakesBack maxLength) arguments targets :=
    fits.imp fun _ _ => Argument.takesBack_of_fits
  have body : Argument.fillItems maxLength targets ⟨parts ++ [], used⟩ =
      ⟨Argument.itemsInto arguments targets, ⟨[], used + parts.length⟩, none⟩ :=
    Argument.fillItems_partsOfItems back placed (Argument.partsOfItems_of_partsFrom written)
      (fun _ => rfl) used
  rw [List.append_nil] at body
  rw [Argument.fillFrom_of_fillItems (congrArg Filled.error body), body]

/-- Targets that have taken the arguments have a single value for each part. -/
theorem partCount_itemsInto (fits : List.Forall₂ (Argument.Fits maxLength) arguments targets)
    (serialized : serialize arguments = .ok parts) :
    Argument.partCountOfItems (Argument.itemsInto arguments targets) = parts.length := by
  rw [serialize, bind_eq_ok_iff] at serialized
  rcases serialized with ⟨⟨⟩, placed, written⟩
  have filled := fillFrom_of_fits fits placed written 0
  have counted := Argument.partCount_of_fillItems
    (fun target _ => Argument.countsParts maxLength target)
    (Argument.fillItems_of_fillFrom filled)
  simpa using counted

/-- Arguments with at least one part are read back from their text.  Those without
any are not: their text is empty, and the empty text is one empty part. -/
theorem deserializeText_serializeText {separator text : String}
    (frames : Frames separator.toList)
    (fits : List.Forall₂ (Argument.Fits maxLength) arguments targets)
    (serialized : serializeText separator arguments = .ok text) :
    (serialize arguments ≠ .ok [] →
        deserializeText separator maxLength targets text =
          (Argument.itemsInto arguments targets, none)) ∧
      (serialize arguments = .ok [] →
        text = "" ∧ ∀ filled, deserializeText separator maxLength targets text = (filled, none) →
          filled ≠ Argument.itemsInto arguments targets) := by
  rcases serializeText_eq_ok serialized with ⟨parts, written, rfl⟩
  constructor
  · intro nonempty
    have nonempty : parts ≠ [] := by
      rintro rfl
      exact nonempty written
    have split := splitParts_joinParts frames nonempty
    rw [serialize, bind_eq_ok_iff] at written
    rcases written with ⟨⟨⟩, placed, written⟩
    simp only [deserializeText, split, deserialize, Argument.checkPlacement_of_fits fits placed,
      fillFrom_of_fits fits placed written]
  · intro empty
    rw [written, Except.ok.injEq] at empty
    subst empty
    refine ⟨rfl, ?_⟩
    rintro filled success rfl
    -- What was written has no part, and what was read has used one.
    rw [deserializeText, splitParts_joinParts_nil frames] at success
    have read := partCount_of_deserialize success
    rw [partCount_itemsInto fits written] at read
    cases read

theorem deserializeText_serializeText_digits :
    let arguments := [Argument.single (.int .u8 10),
      .multi [.single (.bool false), .present (.single (.int .u8 171))]]
    let targets := [Argument.single (.int .u8 0),
      .multi [.single (.bool true), .present (.single (.int .u8 0))]]
    Frames "a@a".toList ∧ List.Forall₂ (Argument.Fits 0) arguments targets ∧
      serializeText "a@a" arguments = .ok "0aa@aa@aab" ∧ serialize arguments ≠ .ok [] ∧
        deserializeText "a@a" 0 targets "0aa@aa@aab" = (arguments, none) := by
  intro arguments targets
  have frames : Frames "a@a".toList := ⟨'@', by decide, by decide⟩
  have leaf {value target : Value} (fits : value.Fits target)
      (short : value.prefixes .topLevel = []) (noItem : value.items = []) :
      Argument.Fits 0 (.single value) (.single target) :=
    .single (roundTrips_of_fits fits (by simp [short]) (by simp [noItem]))
  have option : Argument.Fits 0 (.present (.single (.int .u8 171)))
      (.present (.single (.int .u8 0))) :=
    .present (leaf (.int _ _ _) rfl rfl) (by decide)
  have fits : List.Forall₂ (Argument.Fits 0) arguments targets :=
    .cons (leaf (.int _ _ _) rfl rfl)
      (.cons (.multi (.cons (leaf (.bool _ _) rfl rfl) (.cons option .nil))) .nil)
  have serialized : serializeText "a@a" arguments = .ok "0aa@aa@aab" := by rfl
  have nonempty : serialize arguments ≠ .ok [] := by decide
  exact ⟨frames, fits, serialized, nonempty,
    (deserializeText_serializeText frames fits serialized).1 nonempty⟩

/-- An absent option alone is written as the empty text and read back as present. -/
theorem deserializeText_lone_absent :
    let arguments := [Argument.absent]
    let targets := [Argument.present (.single (.int .u8 5))]
    Frames "@".toList ∧ List.Forall₂ (Argument.Fits 0) arguments targets ∧
      serializeText "@" arguments = .ok "" ∧
        deserializeText "@" 0 targets "" = ([.present (.single (.int .u8 0))], none) ∧
          [Argument.present (.single (.int .u8 0))] ≠ Argument.itemsInto arguments targets := by
  intro arguments targets
  refine ⟨⟨'@', by decide, by decide⟩, .cons (.absentPresent _) .nil, by rfl, by rfl, ?_⟩
  rintro ⟨⟩

end Fitting

end ContractAbi
