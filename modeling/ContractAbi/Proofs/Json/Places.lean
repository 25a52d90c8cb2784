import ContractAbi.Proofs.Json.Leaves
import ContractAbi.Proofs.Json.RoundTrip

/-!
# The places of a document

Reading visits the places that the type names in the document, each before those inside
it, fields as declared and items by their index.  Whether a place conforms shows by itself.
Reading fails exactly if some place does not conform, and stops at the first such place.
-/

namespace ContractAbi

/-- What is called for at a place. -/
inductive Role where
  | value (type : TypeExpr)
  | discriminant
  | fields (fields : FieldTypes)

/-- A place that is visited, with what the document has there. -/
structure Place where
  role : Role
  document : Option Json

namespace TypeExpr

/-- Whether the document is of the kind that the type calls for, whatever is inside it. -/
def admits : TypeExpr → Json → Bool
  | bool, .bool _ => true
  | int type, json => json.isWord type
  | natural, json => json.isNatural
  | integer, json => json.isInteger
  | text, .string _ => true
  | bytes, json => json.isHex
  | address, json => json.isHex
  | option _, .null => true
  | option content, json => content.admits json
  | list _, .array _ => true
  | struct _, .object _ => true
  | enum _, .object _ => true
  | _, _ => false

def expectation : TypeExpr → Expectation
  | bool => .bool
  | int type => .int type
  | natural => .natural
  | integer => .integer
  | text => .string
  | bytes => .hexString
  | address => .hexAddress
  | option content => content.expectation
  | list _ => .array
  | struct _ => .object
  | enum _ => .enumObject

def fieldParts (members : Members) (fields : FieldTypes) : List (PathStep × Place) :=
  fields.map fun (name, type) => (.member name, ⟨.value type, members.lookup name⟩)

/-- The places right inside a document.  An option adds none to those of its content. -/
def parts : TypeExpr → Json → List (PathStep × Place)
  | option _, .null => []
  | option content, json => content.parts json
  | list item, .array items =>
    items.zipIdx.map fun (json, index) => (.item index, ⟨.value item, some json⟩)
  | struct fields, .object members => fieldParts members fields
  | enum fields, .object members =>
    [(.member "discriminant", ⟨.discriminant, members.lookup "discriminant"⟩),
      (.member "fields", ⟨.fields fields, members.lookup "fields"⟩)]
  | _, _ => []

end TypeExpr

namespace Place

/-- Whether the document has a member at the place that can be one.  The fields of an enum
may be absent, which is as if there were none. -/
def conforms : Place → Bool
  | ⟨.value _, none⟩ => false
  | ⟨.value type, some json⟩ => type.admits json
  | ⟨.discriminant, none⟩ => false
  | ⟨.discriminant, some json⟩ => json.isWord .u8
  | ⟨.fields _, none⟩ => true
  | ⟨.fields _, some (.object _)⟩ => true
  | ⟨.fields _, some _⟩ => false

def expectation : Place → Expectation
  | ⟨.value type, none⟩ => .field type
  | ⟨.value type, some _⟩ => type.expectation
  | ⟨.discriminant, _⟩ => .int .u8
  | ⟨.fields _, _⟩ => .object

/-- The places right inside a place, with the steps to them, in the order of visiting. -/
def parts : Place → List (PathStep × Place)
  | ⟨.value type, some json⟩ => type.parts json
  | ⟨.fields fields, none⟩ => TypeExpr.fieldParts [] fields
  | ⟨.fields fields, some (.object members)⟩ => TypeExpr.fieldParts members fields
  | _ => []

/-! The types called for get smaller on the way down, so that visiting ends. -/

section Sizes

variable {part : PathStep × Place}

theorem sizeOf_lt_of_mem_fieldParts {members : Members} {fields : FieldTypes}
    (mem : part ∈ TypeExpr.fieldParts members fields) :
    sizeOf part.2.role < 1 + sizeOf fields := by
  rcases List.mem_map.1 mem with ⟨⟨name, type⟩, fieldMem, rfl⟩
  have smaller := List.sizeOf_lt_of_mem fieldMem
  simp only [Prod.mk.sizeOf_spec, Role.value.sizeOf_spec] at smaller ⊢
  omega

theorem sizeOf_lt_of_mem_typeParts {type : TypeExpr} {json : Json} (mem : part ∈ type.parts json) :
    sizeOf part.2.role < 1 + sizeOf type := by
  fun_induction TypeExpr.parts type json with
  | case1 | case6 => cases mem
  | case2 json content _ ih =>
      have smaller := ih mem
      rw [TypeExpr.option.sizeOf_spec]
      omega
  | case3 item items =>
      rcases List.mem_map.1 mem with ⟨entry, _, rfl⟩
      simp only [Role.value.sizeOf_spec, TypeExpr.list.sizeOf_spec]
      omega
  | case4 fields members =>
      have smaller := sizeOf_lt_of_mem_fieldParts mem
      rw [TypeExpr.struct.sizeOf_spec]
      omega
  | case5 fields members =>
      rw [List.mem_pair] at mem
      rcases mem with rfl | rfl
      · simp only [Role.discriminant.sizeOf_spec, TypeExpr.enum.sizeOf_spec]
        omega
      · simp only [Role.fields.sizeOf_spec, TypeExpr.enum.sizeOf_spec]
        omega

theorem sizeOf_lt_of_mem_parts {place : Place} (mem : part ∈ place.parts) :
    sizeOf part.2.role < sizeOf place.role := by
  unfold parts at mem
  split at mem
  · exact sizeOf_lt_of_mem_typeParts mem
  · exact sizeOf_lt_of_mem_fieldParts mem
  · exact sizeOf_lt_of_mem_fieldParts mem
  · cases mem

end Sizes

/-- The places that are visited from a place on, with the paths to them. -/
def visits (place : Place) : List (List PathStep × Place) :=
  ([], place) :: place.parts.attach.flatMap fun ⟨(step, part), _⟩ =>
    part.visits.map fun (path, target) => (step :: path, target)
termination_by sizeOf place.role
decreasing_by exact sizeOf_lt_of_mem_parts ‹_›

/-- The same visits, without the proofs that each part is one. -/
theorem visits_eq (place : Place) : place.visits =
    ([], place) :: place.parts.flatMap fun part =>
      part.2.visits.map fun visit => (part.1 :: visit.1, visit.2) := by
  rw [visits]
  simp only [List.flatMap_subtype, List.unattach_attach]

/-- The mismatch at a place that does not conform, with the path to it. -/
def mismatch? (visit : List PathStep × Place) : Option Mismatch :=
  if visit.2.conforms then none else some ⟨visit.1, visit.2.expectation⟩

section

variable {visit : List PathStep × Place}

theorem mismatch?_eq_some_iff {mismatch : Mismatch} :
    mismatch? visit = some mismatch ↔
      visit.2.conforms = false ∧ ⟨visit.1, visit.2.expectation⟩ = mismatch := by
  unfold mismatch?
  cases visit.2.conforms <;> simp

theorem mismatch?_eq_none_iff : mismatch? visit = none ↔ visit.2.conforms = true := by
  unfold mismatch?
  cases visit.2.conforms <;> simp

end

/-- The mismatch at the first place that does not conform. -/
def fault? (place : Place) : Option Mismatch :=
  place.visits.findSome? mismatch?

theorem findSome?_flatMap {α β γ : Type} (f : β → Option γ) (g : α → List β) (items : List α) :
    (items.flatMap g).findSome? f = items.findSome? fun item => (g item).findSome? f := by
  induction items with
  | nil => rfl
  | cons item items ih =>
      rw [List.flatMap_cons, List.findSome?_append, ih, List.findSome?_cons]
      cases (g item).findSome? f <;> rfl

/-- A place that conforms leaves the decision to the places inside it. -/
theorem fault?_eq (place : Place) :
    place.fault? =
      if place.conforms then place.parts.findSome? fun part => part.2.fault?.map (.within part.1)
      else some ⟨[], place.expectation⟩ := by
  have inside (part : PathStep × Place) :
      (part.2.visits.map fun visit => (part.1 :: visit.1, visit.2)).findSome? mismatch? =
        part.2.fault?.map (.within part.1) := by
    rw [List.findSome?_map, fault?, List.map_findSome?]
    congr 1
    funext visit
    simp only [Function.comp_apply, mismatch?]
    split <;> rfl
  rw [fault?, visits_eq, List.findSome?_cons, findSome?_flatMap]
  simp only [inside, mismatch?]
  split
  · rename_i stopped
    split at stopped
    · cases stopped
    · rename_i fails
      rw [if_neg fails, ← stopped]
  · rename_i passed
    split at passed
    · rename_i holds
      rw [if_pos holds]
    · cases passed

theorem fault?_of_conforms {place : Place} (holds : place.conforms = true) :
    place.fault? = place.parts.findSome? fun part => part.2.fault?.map (.within part.1) := by
  rw [fault?_eq, if_pos holds]

end Place

namespace TypeExpr

open Place (fault? fault?_eq fault?_of_conforms)

theorem failure?_expect {α : Type} (expected : Expectation) (found : Option α) :
    failure? (Json.expect expected found) =
      if found.isSome then none else some ⟨[], expected⟩ := by
  cases found <;> rfl

theorem failure?_under {α : Type} (step : PathStep) (read : Except Mismatch α) :
    failure? (Json.under step read) = (failure? read).map (.within step) :=
  failure?_mapError _ _

theorem failure?_readItems (read : Json → Except Mismatch Value) (items : List Json)
    (index : Nat) :
    failure? (Json.readItems read index items) =
      (items.zipIdx index).findSome? fun entry =>
        (failure? (read entry.1)).map (.within (.item entry.2)) := by
  induction items generalizing index with
  | nil => rfl
  | cons item items ih =>
      rw [Json.readItems, failure?_both, failure?_under, ih, List.zipIdx_cons,
        List.findSome?_cons]
      cases failure? (read item) <;> rfl

/-- Reading at the type fails as the places of the document say. -/
def FailsAsVisited (type : TypeExpr) : Prop :=
  ∀ json, failure? (type.read json) = fault? ⟨.value type, some json⟩

theorem fieldParts_cons (members : Members) (field : String × TypeExpr) (fields : FieldTypes) :
    fieldParts members (field :: fields) =
      (.member field.1, ⟨.value field.2, members.lookup field.1⟩) :: fieldParts members fields :=
  rfl

/-- An option that is there has the places of its content. -/
theorem fault?_option {content : TypeExpr} {json : Json} (present : json ≠ .null) :
    fault? ⟨.value (option content), some json⟩ = fault? ⟨.value content, some json⟩ := by
  rw [fault?_eq, fault?_eq]
  cases json with
  | null => exact absurd rfl present
  | _ => rfl

theorem failure?_readFields {fields : FieldTypes} (each : ∀ field ∈ fields, field.2.FailsAsVisited)
    (members : Members) :
    failure? (readFields fields members) =
      (fieldParts members fields).findSome? fun part => part.2.fault?.map (.within part.1) := by
  induction fields with
  | nil => rfl
  | cons field fields ih =>
      rw [List.forall_mem_cons] at each
      rw [readFields, failure?_both, failure?_under, ih each.2, fieldParts_cons,
        List.findSome?_cons]
      cases members.lookup field.1 with
      | none =>
          rw [fault?_eq]
          rfl
      | some json =>
          dsimp only
          rw [each.1 json]
          cases fault? ⟨.value field.2, some json⟩ <;> rfl

theorem findSome?_pair {α β : Type} (f : α → Option β) (first second : α) :
    [first, second].findSome? f = (f first).or (f second) := by
  simp only [List.findSome?_cons, List.findSome?_nil]
  cases f first <;> cases f second <;> rfl

theorem fault?_discriminant (document : Option Json) :
    fault? ⟨.discriminant, document⟩ =
      if (document.bind (Json.word? .u8)).isSome then none else some ⟨[], .int .u8⟩ := by
  rw [fault?_eq]
  cases document with
  | none => rfl
  | some json =>
      rw [Option.bind_some, Json.isSome_word?]
      rfl

/-- The fields of an enum are those of an object, and none if they are absent. -/
theorem fault?_fields {fields : FieldTypes} (each : ∀ field ∈ fields, field.2.FailsAsVisited)
    {document : Option Json} {members : Members}
    (held : document = some (.object members) ∨ document = none ∧ members = []) :
    fault? ⟨.fields fields, document⟩ = failure? (readFields fields members) := by
  rw [failure?_readFields each]
  rcases held with rfl | ⟨rfl, rfl⟩
  · exact fault?_of_conforms rfl
  · exact fault?_of_conforms rfl

/-- The reader fails as a visit of the places does.  The induction is on the type; null and what a
type does not admit are decided at the place itself. -/
theorem failsAsVisited (type : TypeExpr) : type.FailsAsVisited := by
  induction type with
  | bool | text =>
      intro json
      rw [fault?_eq]
      cases json <;> rfl
  | int | natural | integer | bytes | address =>
      intro json
      rw [fault?_eq, TypeExpr.read, failure?_map, failure?_expect]
      -- What the reader of such a document makes of it is decided by its range or characters.
      simp only [Json.isSome_word?, Json.isSome_natural?, Json.isSome_integer?,
        Json.isSome_hexBytes?]
      rfl
  | option content ih =>
      intro json
      by_cases absent : json = .null
      · rw [absent, fault?_eq]
        rfl
      · rw [Value.read_option_of_ne_null absent, failure?_map, ih, fault?_option absent]
  | list item ih =>
      intro json
      cases json with
      | array items =>
          rw [TypeExpr.read, failure?_map, failure?_readItems, fault?_of_conforms rfl, Place.parts,
            parts, List.findSome?_map]
          congr 1
          funext entry
          rw [ih]
          rfl
      | _ =>
          rw [fault?_eq]
          rfl
  | struct fields ih =>
      intro json
      cases json with
      | object members =>
          rw [TypeExpr.read, failure?_map, failure?_readFields ih, fault?_of_conforms rfl]
          rfl
      | _ =>
          rw [fault?_eq]
          rfl
  | enum fields ih =>
      intro json
      cases json with
      | object members =>
          rw [TypeExpr.read, failure?_both, failure?_under, failure?_under, failure?_expect,
            fault?_of_conforms rfl, ← fault?_discriminant, Place.parts, parts, findSome?_pair]
          congr 2
          cases members.lookup "fields" with
          | none => exact (fault?_fields ih (.inr ⟨rfl, rfl⟩)).symm
          | some json =>
              cases json with
              | object inner => exact (fault?_fields ih (.inl rfl)).symm
              | _ =>
                  rw [fault?_eq]
                  rfl
      | _ =>
          rw [fault?_eq]
          rfl

end TypeExpr

end ContractAbi
