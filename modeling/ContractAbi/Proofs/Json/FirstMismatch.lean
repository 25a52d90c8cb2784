import ContractAbi.Proofs.Json.Paths

/-!
# The first mismatch of a document

The path of a mismatch, and its text, lead to the first place that does not conform, in the
order of visiting.  What the places do not show has no influence: documents that concur at every
place, whatever other members they have, are read alike.
-/

namespace ContractAbi

/-- A document without what is inside it. -/
def Json.shell : Json → Json
  | .array _ => .array []
  | .object _ => .object []
  | json => json

/-- Only what is inside arrays and objects can differ where the shells are the same. -/
theorem Json.eq_of_shell_eq {json other : Json} (same : json.shell = other.shell) :
    json = other ∨ (∃ items others, json = .array items ∧ other = .array others) ∨
      ∃ members others, json = .object members ∧ other = .object others := by
  cases json with
  | array items =>
      cases other with
      | array others => exact .inr (.inl ⟨items, others, rfl, rfl⟩)
      | _ => cases same
  | object members =>
      cases other with
      | object others => exact .inr (.inr ⟨members, others, rfl, rfl⟩)
      | _ => cases same
  | _ =>
      cases other with
      | array | object => cases same
      | _ => exact .inl same

@[simp]
theorem Json.word?_shell (type : IntType) (json : Json) :
    json.shell.word? type = json.word? type := by
  cases json <;> rfl

/-- Whether a type admits a document does not depend on what is inside it. -/
theorem TypeExpr.admits_shell (type : TypeExpr) (json : Json) :
    type.admits json.shell = type.admits json := by
  induction type with
  | option content ih =>
      cases json with
      | array | object => exact ih
      | _ => rfl
  | _ => cases json <;> rfl

namespace Place

/-- The place without what is inside its document. -/
def shell (place : Place) : Place :=
  ⟨place.role, place.document.map Json.shell⟩

/-- Whether a place conforms is decided at the place itself. -/
theorem conforms_shell (place : Place) : place.shell.conforms = place.conforms := by
  rcases place with ⟨role, document⟩
  cases document with
  | none => rfl
  | some json =>
      cases role with
      | value type => exact TypeExpr.admits_shell type json
      | discriminant => cases json <;> rfl
      | fields => cases json <;> rfl

/-- The places are the same but for what is inside their documents, and the places right inside
them concur. -/
inductive Concurs : Place → Place → Prop where
  | mk {place other} : place.shell = other.shell →
      List.Forall₂ (fun part otherPart => Concurs part.2 otherPart.2) place.parts other.parts →
      Concurs place other

@[refl]
theorem Concurs.refl (place : Place) : place.Concurs place := by
  induction place using visits.induct with
  | case1 place ih =>
      exact .mk rfl (List.forall₂_same.2 fun part partMem => ih part.1 part.2 partMem)

section Concurs

variable {place other : Place}

theorem Concurs.shell_eq (concurs : place.Concurs other) :
    place.document.map Json.shell = other.document.map Json.shell := by
  cases concurs with
  | mk shells _ => exact congrArg Place.document shells

theorem Concurs.parts (concurs : place.Concurs other) :
    List.Forall₂ (fun part otherPart => part.2.Concurs otherPart.2) place.parts other.parts := by
  cases concurs with
  | mk _ inside => exact inside

theorem Concurs.absent_or_present {role : Role} {document other : Option Json}
    (concurs : Concurs ⟨role, document⟩ ⟨role, other⟩) :
    (document = none ∧ other = none) ∨
      ∃ json otherJson, document = some json ∧ other = some otherJson := by
  have shells := concurs.shell_eq
  cases document with
  | none =>
      cases other with
      | none => exact .inl ⟨rfl, rfl⟩
      | some => cases shells
  | some json =>
      cases other with
      | none => cases shells
      | some other => exact .inr ⟨json, other, rfl, rfl⟩

theorem Concurs.shell_eq_of_some {role : Role} {json other : Json}
    (concurs : Concurs ⟨role, some json⟩ ⟨role, some other⟩) : json.shell = other.shell :=
  Option.some.inj concurs.shell_eq

end Concurs

end Place

namespace TypeExpr

open Place (Concurs Reaches fault? visits mem_visits_iff reaches_pathText mismatch?_eq_some_iff
  mismatch?_eq_none_iff)

/-- Documents that concur are read alike at the type. -/
def ReadsAlike (type : TypeExpr) : Prop :=
  ∀ {json other}, Concurs ⟨.value type, some json⟩ ⟨.value type, some other⟩ →
    type.read json = type.read other

/-- There are no places inside the documents of a type that looks at the shell only. -/
theorem readsAlike_of_shell {type : TypeExpr}
    (atShell : ∀ json, type.read json.shell = type.read json) : type.ReadsAlike := by
  intro json other concurs
  rw [← atShell json, concurs.shell_eq_of_some, atShell other]

/-- Items that concur one by one are read alike. -/
theorem readItems_congr {item : TypeExpr} (alike : item.ReadsAlike) {items others : List Json}
    {index : Nat}
    (concur : List.Forall₂ (fun entry other =>
      Concurs ⟨.value item, some entry.1⟩ ⟨.value item, some other.1⟩)
      (items.zipIdx index) (others.zipIdx index)) :
    Json.readItems item.read index items = Json.readItems item.read index others := by
  induction items generalizing others index with
  | nil =>
      cases others with
      | nil => rfl
      | cons => cases concur
  | cons first items ih =>
      cases others with
      | nil => cases concur
      | cons other others =>
          cases concur with
          | cons head tail => rw [Json.readItems, Json.readItems, alike head, ih tail]

/-- So are the members that fields name, whatever others there are. -/
theorem readFields_congr {fields : FieldTypes} (each : ∀ field ∈ fields, field.2.ReadsAlike)
    {members others : Members}
    (concur : List.Forall₂ (fun part other => part.2.Concurs other.2)
      (fieldParts members fields) (fieldParts others fields)) :
    readFields fields members = readFields fields others := by
  induction fields with
  | nil => rfl
  | cons field fields ih =>
      rcases List.forall_mem_cons.1 each with ⟨alike, each⟩
      rw [fieldParts_cons, fieldParts_cons, List.forall₂_cons] at concur
      rcases concur with ⟨head, tail⟩
      rw [readFields, readFields, ih each tail]
      rcases head.absent_or_present with
        ⟨absent, otherAbsent⟩ | ⟨json, other, found, otherFound⟩
      · rw [absent, otherAbsent]
      · rw [found, otherFound] at head ⊢
        simp only [alike head]

/-- A discriminant that concurs is the same word. -/
theorem discriminant_congr {document other : Option Json}
    (concurs : Concurs ⟨.discriminant, document⟩ ⟨.discriminant, other⟩) :
    document.bind (Json.word? .u8) = other.bind (Json.word? .u8) := by
  have shellWord (document : Option Json) :
      (document.map Json.shell).bind (Json.word? .u8) = document.bind (Json.word? .u8) := by
    cases document with
    | none => rfl
    | some json => exact Json.word?_shell .u8 json
  rw [← shellWord, concurs.shell_eq, shellWord]

/-- Documents that concur are read alike at every type. -/
theorem readsAlike (type : TypeExpr) : type.ReadsAlike := by
  -- Documents of one shell are equal unless there are places inside them.
  induction type with
  | bool | text | int | natural | integer | bytes | address =>
      exact readsAlike_of_shell fun json => by cases json <;> rfl
  | option content ih =>
      intro json other concurs
      have shells := congrArg (Place.mk (.value content)) concurs.shell_eq
      rcases Json.eq_of_shell_eq concurs.shell_eq_of_some with
        rfl | ⟨items, others, rfl, rfl⟩ | ⟨members, others, rfl, rfl⟩
      · rfl
      · exact congrArg (Except.map Value.present) (ih (.mk shells concurs.parts))
      · exact congrArg (Except.map Value.present) (ih (.mk shells concurs.parts))
  | list item ih =>
      intro json other concurs
      rcases Json.eq_of_shell_eq concurs.shell_eq_of_some with
        rfl | ⟨items, others, rfl, rfl⟩ | ⟨members, others, rfl, rfl⟩
      · rfl
      · have inside := concurs.parts
        simp only [Place.parts, parts, List.forall₂_map_left_iff,
          List.forall₂_map_right_iff] at inside
        exact congrArg (Except.map Value.list) (readItems_congr ih inside)
      · rfl
  | struct fields ih =>
      intro json other concurs
      rcases Json.eq_of_shell_eq concurs.shell_eq_of_some with
        rfl | ⟨items, others, rfl, rfl⟩ | ⟨members, others, rfl, rfl⟩
      · rfl
      · rfl
      · exact congrArg (Except.map Value.struct) (readFields_congr ih concurs.parts)
  | enum fields ih =>
      intro json other concurs
      rcases Json.eq_of_shell_eq concurs.shell_eq_of_some with
        rfl | ⟨items, others, rfl, rfl⟩ | ⟨members, others, rfl, rfl⟩
      · rfl
      · rfl
      · have inside := concurs.parts
        simp only [Place.parts, parts, List.forall₂_cons] at inside
        rcases inside with ⟨discriminants, inner, _⟩
        rw [TypeExpr.read, TypeExpr.read, discriminant_congr discriminants]
        rcases inner.absent_or_present with
          ⟨absent, otherAbsent⟩ | ⟨json, other, found, otherFound⟩
        · rw [absent, otherAbsent]
        · rw [found, otherFound] at inner ⊢
          rcases Json.eq_of_shell_eq inner.shell_eq_of_some with
            rfl | ⟨items, others, rfl, rfl⟩ | ⟨members, others, rfl, rfl⟩
          · rfl
          · rfl
          · simp only [readFields_congr ih inner.parts]

/-- Reading fails with a mismatch exactly if its path, as its text spells it, leads to a place
that by itself, whatever is inside it, does not conform, after places that all do, and it tells
what was expected there.  At a well-formed type no other path has that text.  Reading succeeds
exactly if all places that can be reached conform, and the value depends on nothing else in the
document. -/
theorem read_stops_at_first_mismatch (type : TypeExpr) (json : Json) :
    (∀ mismatch, type.read json = .error mismatch ↔
      ∃ before place after,
        visits ⟨.value type, some json⟩ = before ++ (mismatch.path, place) :: after ∧
        Reaches ⟨.value type, some json⟩ mismatch.path mismatch.pathText place ∧
        (∀ visit ∈ before, visit.2.conforms = true) ∧
        place.shell.conforms = false ∧ mismatch.expected = place.expectation) ∧
    (type.WellFormed → ∀ path steps text place other,
      Reaches ⟨.value type, some json⟩ path text place →
      Reaches ⟨.value type, some json⟩ steps text other → path = steps ∧ place = other) ∧
    ((∃ value, type.read json = .ok value) ↔
      ∀ path text place, Reaches ⟨.value type, some json⟩ path text place →
        place.conforms = true) ∧
    ∀ other, Concurs ⟨.value type, some json⟩ ⟨.value type, some other⟩ →
      type.read other = type.read json := by
  refine ⟨fun mismatch => ?_, ?_, ?_, fun other concurs => (readsAlike type concurs).symm⟩
  · rw [← failure?_eq_some_iff, failsAsVisited, fault?, List.findSome?_eq_some_iff]
    constructor
    · rintro ⟨before, ⟨path, place⟩, after, split, failed, passed⟩
      rcases mismatch?_eq_some_iff.1 failed with ⟨fails, rfl⟩
      refine ⟨before, place, after, split, ?_, ?_, ?_, rfl⟩
      · apply reaches_pathText
        rw [← mem_visits_iff, split]
        exact List.mem_append_right _ List.mem_cons_self
      · exact fun visit mem => mismatch?_eq_none_iff.1 (passed visit mem)
      · rw [place.conforms_shell, fails]
    · rintro ⟨before, place, after, split, _, passed, fails, expected⟩
      rw [place.conforms_shell] at fails
      refine ⟨before, (mismatch.path, place), after, split, ?_, ?_⟩
      · exact mismatch?_eq_some_iff.2 ⟨fails, congrArg (Mismatch.mk mismatch.path) expected.symm⟩
      · exact fun visit mem => mismatch?_eq_none_iff.2 (passed visit mem)
  · intro formed path steps text place other reaches again
    have rootFormed : Place.WellFormed ⟨.value type, some json⟩ := formed
    exact reaches.unique rootFormed again
  · rw [← failure?_eq_none_iff, failsAsVisited, fault?, List.findSome?_eq_none_iff]
    constructor
    · exact fun passed path text place reaches =>
        mismatch?_eq_none_iff.1 (passed (path, place) (mem_visits_iff.2 reaches.leads))
    · exact fun passed visit mem => mismatch?_eq_none_iff.2
        (passed _ _ _ (Reaches.root.append (mem_visits_iff.1 mem)))

theorem read_stops_at_first_mismatch_unnamed :
    let type := list (enum [("a", int .u8)])
    let inner := Json.object [("a", .integer 256)]
    let json := Json.array [.object [("discriminant", .integer 1), ("fields", inner)], .null]
    let other := Json.array
      [.object [("b", .null), ("discriminant", .integer 1), ("fields", inner)], .null]
    (∃ before place after,
      visits ⟨.value type, some json⟩ =
        before ++ ([.item 0, .member "fields", .member "a"], place) :: after ∧
      Reaches ⟨.value type, some json⟩ [.item 0, .member "fields", .member "a"] "$[0].fields.a"
        place ∧
      (∀ visit ∈ before, visit.2.conforms = true) ∧
      place.shell.conforms = false ∧ .int .u8 = place.expectation) ∧
    type.WellFormed ∧
    (∀ path place, Reaches ⟨.value type, some json⟩ path "$[0].fields.a" place →
      path = [.item 0, .member "fields", .member "a"]) ∧
    Concurs ⟨.value type, some json⟩ ⟨.value type, some other⟩ ∧
    type.read other = type.read json := by
  intro type inner json other
  have stops := read_stops_at_first_mismatch type json
  have formed : type.WellFormed := .list (.enum (by decide)
    (List.forall_mem_singleton.2 (by decide)) (List.forall_mem_singleton.2 (.int _)))
  have concurs : Concurs ⟨.value type, some json⟩ ⟨.value type, some other⟩ :=
    .mk rfl (.cons (.mk rfl (.cons (.refl _) (.cons (.refl _) .nil))) (.cons (.refl _) .nil))
  rcases (stops.1 ⟨_, .int .u8⟩).1 rfl with ⟨before, place, after, split, reaches, found⟩
  refine ⟨⟨before, place, after, split, reaches, found⟩, formed, ?_, concurs,
    stops.2.2.2 other concurs⟩
  exact fun path place again => (stops.2.1 formed _ _ _ _ _ again reaches).1

end TypeExpr

end ContractAbi
