import ContractAbi.Proofs.Json.Places

/-!
# Paths and their texts

A path leads from place to place, and its text grows at the end with each step.  In a type
that has been read, different members have different names and names have no dots or
brackets, so that the text says by which steps one place is reached.
-/

namespace ContractAbi

namespace Place

/-- From the place the path leads to the target. -/
inductive Leads : Place → List PathStep → Place → Prop where
  | here (place) : Leads place [] place
  | into {place part target step path} : (step, part) ∈ place.parts → Leads part path target →
      Leads place (step :: path) target

/-- The visited places are those to which a path leads. -/
theorem mem_visits_iff {place target : Place} {path : List PathStep} :
    (path, target) ∈ place.visits ↔ place.Leads path target := by
  induction place using visits.induct generalizing path with
  | case1 place ih =>
      rw [visits_eq]
      constructor
      · intro mem
        rcases List.mem_cons.1 mem with same | mem
        · cases same
          exact .here _
        · rcases List.mem_flatMap.1 mem with ⟨⟨step, part⟩, partMem, mem⟩
          rcases List.mem_map.1 mem with ⟨⟨inner, _⟩, inside, ⟨⟩⟩
          exact .into partMem ((ih step part partMem).1 inside)
      · intro leads
        cases leads with
        | here => exact List.mem_cons_self
        | @into _ part _ step inner partMem leads =>
            have inside := (ih step part partMem).2 leads
            refine List.mem_cons_of_mem _ (List.mem_flatMap.2 ⟨_, partMem, ?_⟩)
            exact List.mem_map.2 ⟨_, inside, rfl⟩

/-- The steps by which a place is reached from the root, with the text of the path: a dollar
sign for the root, then each member behind a dot and each item by its index in brackets. -/
inductive Reaches (root : Place) : List PathStep → String → Place → Prop where
  | root : Reaches root [] "$" root
  | member {path text place name part} : Reaches root path text place →
      (.member name, part) ∈ place.parts →
      Reaches root (path ++ [.member name]) (text ++ "." ++ name) part
  | item {path text place index part} : Reaches root path text place →
      (.item index, part) ∈ place.parts →
      Reaches root (path ++ [.item index]) (text ++ "[" ++ toString index ++ "]") part

section Reaches

variable {root place part : Place} {path : List PathStep} {text : String}

theorem Reaches.step {step : PathStep} (reaches : root.Reaches path text place)
    (mem : (step, part) ∈ place.parts) :
    root.Reaches (path ++ [step]) (text ++ step.text) part := by
  cases step with
  | member name =>
      have further := Reaches.member reaches mem
      rwa [String.append_assoc] at further
  | item index =>
      have further := Reaches.item reaches mem
      rwa [String.append_assoc, String.append_assoc] at further

theorem Reaches.append {target : Place} {more : List PathStep}
    (reaches : root.Reaches path text place) (leads : place.Leads more target) :
    root.Reaches (path ++ more) (more.foldl (fun text step => text ++ step.text) text) target := by
  induction leads generalizing path text with
  | here place => rwa [List.append_nil]
  | into mem _ ih =>
      have further := ih (reaches.step mem)
      rwa [List.append_assoc] at further

theorem Leads.step {root place part : Place} {path : List PathStep} {step : PathStep}
    (leads : root.Leads path place) (mem : (step, part) ∈ place.parts) :
    root.Leads (path ++ [step]) part := by
  induction leads with
  | here place => exact .into mem (.here part)
  | into first _ ih => exact .into first (ih mem)

theorem Reaches.leads (reaches : root.Reaches path text place) : root.Leads path place := by
  induction reaches with
  | root => exact .here root
  | member _ mem ih | item _ mem ih => exact ih.step mem

/-- The text of a mismatch is that of the path which leads to it. -/
theorem reaches_pathText {mismatch : Mismatch} (leads : root.Leads mismatch.path place) :
    root.Reaches mismatch.path mismatch.pathText place :=
  Reaches.root.append leads

end Reaches

/-- What is called for is as in a type that has been read. -/
def WellFormed (place : Place) : Prop :=
  match place.role with
  | .value type => type.WellFormed
  | .discriminant => True
  | .fields fields => TypeExpr.FieldsFormed fields

/-- Parts to which different steps lead, those to members with names. -/
structure PartsFormed (parts : List (PathStep × Place)) : Prop where
  distinct : (parts.map Prod.fst).Nodup
  named : ∀ part ∈ parts, ∀ name, part.1 = .member name → TypeExpr.IsName name
  each : ∀ part ∈ parts, part.2.WellFormed

theorem partsFormed_nil : PartsFormed [] :=
  ⟨List.nodup_nil, List.forall_mem_nil _, List.forall_mem_nil _⟩

theorem partsFormed_fieldParts {fields : FieldTypes} (formed : TypeExpr.FieldsFormed fields)
    (members : Members) : PartsFormed (TypeExpr.fieldParts members fields) := by
  refine ⟨?_, ?_, ?_⟩
  · have steps : (TypeExpr.fieldParts members fields).map Prod.fst =
        (fields.map Prod.fst).map PathStep.member := by
      rw [TypeExpr.fieldParts, List.map_map, List.map_map]
      rfl
    rw [steps]
    exact formed.distinct.map fun _ _ => PathStep.member.inj
  · rw [TypeExpr.fieldParts, List.forall_mem_map]
    rintro field mem name ⟨⟩
    exact formed.named field mem
  · rw [TypeExpr.fieldParts, List.forall_mem_map]
    exact formed.each

/-- The parts of a document are those of a well-formed type: a member for each field, or an item for
each index. -/
theorem partsFormed_typeParts {type : TypeExpr} (formed : type.WellFormed) (json : Json) :
    PartsFormed (type.parts json) := by
  fun_induction TypeExpr.parts type json with
  | case1 | case6 => exact partsFormed_nil
  | case2 json content _ ih =>
      cases formed with
      | option _ contentFormed => exact ih contentFormed
  | case3 item items =>
      cases formed with
      | list itemFormed =>
          refine ⟨?_, ?_, ?_⟩
          · rw [List.map_map]
            change (items.zipIdx.map (PathStep.item ∘ Prod.snd)).Nodup
            rw [← List.map_map, List.zipIdx_map_snd]
            exact (List.nodup_range' 1).map fun _ _ => PathStep.item.inj
          · rw [List.forall_mem_map]
            rintro _ _ _ ⟨⟩
          · rw [List.forall_mem_map]
            exact fun _ _ => itemFormed
  | case4 fields members =>
      cases formed with
      | struct distinct named each => exact partsFormed_fieldParts ⟨distinct, named, each⟩ members
  | case5 fields members =>
      cases formed with
      | enum distinct named each =>
          refine ⟨by simp, ?_, ?_⟩
          · simp only [List.forall_mem_cons, PathStep.member.injEq, forall_eq']
            exact ⟨by decide, by decide, List.forall_mem_nil _⟩
          · simp only [List.forall_mem_cons]
            exact ⟨trivial, ⟨distinct, named, each⟩, List.forall_mem_nil _⟩

theorem WellFormed.parts {place : Place} (formed : place.WellFormed) : PartsFormed place.parts := by
  rcases place with ⟨role, document⟩
  cases role with
  | value type =>
      cases document with
      | none => exact partsFormed_nil
      | some json => exact partsFormed_typeParts formed json
  | discriminant => exact partsFormed_nil
  | fields fields =>
      cases document with
      | none => exact partsFormed_fieldParts formed []
      | some json =>
          cases json with
          | object members => exact partsFormed_fieldParts formed members
          | _ => exact partsFormed_nil

theorem Reaches.wellFormed {root place : Place} {path : List PathStep} {text : String}
    (formed : root.WellFormed) (reaches : root.Reaches path text place) : place.WellFormed := by
  induction reaches with
  | root => exact formed
  | member _ mem ih | item _ mem ih => exact ih.parts.each _ mem

/-- A text is taken apart in one way at the last of some signs. -/
theorem eq_of_append_cons_eq {sign : Char} {front back other rest : List Char}
    (same : front ++ sign :: back = other ++ sign :: rest) (last : sign ∉ back)
    (otherLast : sign ∉ rest) : front = other ∧ back = rest := by
  rcases List.append_eq_append_iff.1 same with ⟨between, rfl, tail⟩ | ⟨between, rfl, tail⟩
  · cases between with
    | nil => exact ⟨(List.append_nil _).symm, List.tail_eq_of_cons_eq tail⟩
    | cons first between =>
        cases tail
        exact absurd (List.mem_append_right _ List.mem_cons_self) last
  · cases between with
    | nil => exact ⟨List.append_nil _, (List.tail_eq_of_cons_eq tail).symm⟩
    | cons first between =>
        cases tail
        exact absurd (List.mem_append_right _ List.mem_cons_self) otherLast

section Texts

variable {name other front text : String} {sign : Char}

theorem notMem_of_isName (named : TypeExpr.IsName name)
    (excluded : TypeExpr.isNameCharacter sign = false) : sign ∉ name.toList := by
  intro mem
  rw [named.2 sign mem] at excluded
  cases excluded

theorem toList_member (text name : String) :
    (text ++ "." ++ name).toList = text.toList ++ '.' :: name.toList := by
  simp

theorem toList_item (text : String) (index : Nat) :
    (text ++ "[" ++ toString index ++ "]").toList =
      text.toList ++ '[' :: (Nat.toDigits 10 index ++ [']']) := by
  simp

/-- The last step to a member shows in the text. -/
theorem eq_of_member_text_eq (named : TypeExpr.IsName name) (otherNamed : TypeExpr.IsName other)
    (same : text ++ "." ++ name = front ++ "." ++ other) : text = front ∧ name = other := by
  rw [← String.toList_inj, toList_member, toList_member] at same
  have parts := eq_of_append_cons_eq same (notMem_of_isName named (by decide))
    (notMem_of_isName otherNamed (by decide))
  exact ⟨String.toList_inj.1 parts.1, String.toList_inj.1 parts.2⟩

/-- So does the last step to an item. -/
theorem eq_of_item_text_eq {index position : Nat}
    (same : text ++ "[" ++ toString index ++ "]" = front ++ "[" ++ toString position ++ "]") :
    text = front ∧ index = position := by
  have unopened (number : Nat) : '[' ∉ Nat.toDigits 10 number ++ [']'] := by
    rw [List.mem_append, List.mem_singleton]
    rintro (mem | same)
    · cases Decimal.isDigit_of_mem_toDigits mem
    · exact absurd same (by decide)
  rw [← String.toList_inj, toList_item, toList_item] at same
  rcases eq_of_append_cons_eq same (unopened index) (unopened position) with ⟨fronts, numbers⟩
  have read := Decimal.digits?_toDigits index
  rw [List.append_cancel_right numbers, Decimal.digits?_toDigits, Option.some.injEq] at read
  exact ⟨String.toList_inj.1 fronts, read.symm⟩

/-- The text shows whether the last step is to a member or to an item. -/
theorem member_text_ne_item_text (named : TypeExpr.IsName name) (index : Nat) :
    text ++ "." ++ name ≠ front ++ "[" ++ toString index ++ "]" := by
  rw [ne_eq, ← String.toList_inj, toList_member, toList_item]
  intro same
  have last := congrArg List.getLast? same
  rw [List.append_cons, List.getLast?_append_of_ne_nil _ named.1, ← List.cons_append,
    ← List.append_assoc, List.getLast?_concat] at last
  exact notMem_of_isName named (by decide) (List.mem_of_getLast? last)

theorem root_text_ne_member_text : "$" ≠ text ++ "." ++ name := by
  rw [ne_eq, ← String.toList_inj, toList_member]
  intro same
  have mem : '.' ∈ "$".toList := by
    rw [same]
    exact List.mem_append_right _ List.mem_cons_self
  revert mem
  decide

theorem root_text_ne_item_text (index : Nat) : "$" ≠ text ++ "[" ++ toString index ++ "]" := by
  rw [ne_eq, ← String.toList_inj, toList_item]
  intro same
  have mem : '[' ∈ "$".toList := by
    rw [same]
    exact List.mem_append_right _ List.mem_cons_self
  revert mem
  decide

end Texts

/-- In a well-formed place one text is that of one path, which leads to one place. -/
theorem Reaches.unique {root place other : Place} {path steps : List PathStep} {text : String}
    (formed : root.WellFormed) (reaches : root.Reaches path text place)
    (again : root.Reaches steps text other) : path = steps ∧ place = other := by
  -- The text ends with the last step, so the induction is on the path from its end.
  induction reaches generalizing steps other with
  | root =>
      generalize spelled : "$" = text at again
      cases again with
      | root => exact ⟨rfl, rfl⟩
      | member => exact absurd spelled root_text_ne_member_text
      | item => exact absurd spelled (root_text_ne_item_text _)
  | @member path text place name part reaches mem ih =>
      have parts := (reaches.wellFormed formed).parts
      have named := parts.named _ mem name rfl
      generalize spelled : text ++ "." ++ name = whole at again
      cases again with
      | root => exact absurd spelled.symm root_text_ne_member_text
      | item => exact absurd spelled (member_text_ne_item_text named _)
      | member again otherMem =>
          have otherNamed := (again.wellFormed formed).parts.named _ otherMem _ rfl
          rcases eq_of_member_text_eq named otherNamed spelled with ⟨rfl, rfl⟩
          rcases ih again with ⟨rfl, rfl⟩
          cases List.inj_on_of_nodup_map parts.distinct mem otherMem rfl
          exact ⟨rfl, rfl⟩
  | @item path text place index part reaches mem ih =>
      have parts := (reaches.wellFormed formed).parts
      generalize spelled : text ++ "[" ++ toString index ++ "]" = whole at again
      cases again with
      | root => exact absurd spelled.symm (root_text_ne_item_text _)
      | member again otherMem =>
          have otherNamed := (again.wellFormed formed).parts.named _ otherMem _ rfl
          exact absurd spelled.symm (member_text_ne_item_text otherNamed _)
      | item again otherMem =>
          rcases eq_of_item_text_eq spelled with ⟨rfl, rfl⟩
          rcases ih again with ⟨rfl, rfl⟩
          cases List.inj_on_of_nodup_map parts.distinct mem otherMem rfl
          exact ⟨rfl, rfl⟩

end Place

end ContractAbi
