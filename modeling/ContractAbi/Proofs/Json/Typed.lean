import ContractAbi.Json.Typed
import ContractAbi.Proofs.Except
import ContractAbi.Proofs.TypeExpr.Typing

/-!
# Documents give values of their type

Whatever a document holds, the value that is read from it at a type is a value of
that type: its lists hold values of the item type, and its fields are those that
the type declares, in their order.  It is a value as callers encode it, with input
lists only.  Both facts go over what a successful read of each node has read.
-/

namespace ContractAbi

@[simp]
theorem Json.under_eq_ok_iff {α : Type} {step : PathStep} {read : Except Mismatch α} {value : α} :
    Json.under step read = .ok value ↔ read = .ok value :=
  mapError_eq_ok_iff

theorem Json.readItems_cons_eq_ok {read : Json → Except Mismatch Value} {index : Nat}
    {document : Json} {documents : List Json} {values : List Value}
    (found : Json.readItems read index (document :: documents) = .ok values) :
    ∃ first others, read document = .ok first ∧
      Json.readItems read (index + 1) documents = .ok others ∧ values = first :: others := by
  simp only [Json.readItems, bind_eq_ok_iff, Json.under_eq_ok_iff] at found
  rcases found with ⟨first, firstRead, others, othersRead, ⟨rfl⟩⟩
  exact ⟨first, others, firstRead, othersRead, rfl⟩

namespace TypeExpr

open Value (HasType)

section Reading

variable {value : Value}

theorem readFields_cons_eq_ok {field : String × TypeExpr} {types : FieldTypes} {members : Members}
    {fields : Fields} (found : readFields (field :: types) members = .ok fields) :
    ∃ document first others, field.2.read document = .ok first ∧
      readFields types members = .ok others ∧ fields = (field.1, first) :: others := by
  simp only [readFields, bind_eq_ok_iff, Json.under_eq_ok_iff] at found
  rcases found with ⟨first, firstRead, others, othersRead, ⟨rfl⟩⟩
  split at firstRead
  · cases firstRead
  · exact ⟨_, first, others, firstRead, othersRead, rfl⟩

theorem read_option_eq_ok {content : TypeExpr} {json : Json}
    (read : (option content).read json = .ok value) :
    value = .absent ∨ ∃ inner, content.read json = .ok inner ∧ value = .present inner := by
  cases json with
  | null =>
      cases read
      exact .inl rfl
  | _ =>
      simp only [TypeExpr.read, map_eq_ok_iff] at read
      rcases read with ⟨inner, innerRead, rfl⟩
      exact .inr ⟨inner, innerRead, rfl⟩

theorem read_list_eq_ok {item : TypeExpr} {json : Json}
    (read : (list item).read json = .ok value) :
    ∃ documents items, Json.readItems item.read 0 documents = .ok items ∧
      value = .list items := by
  cases json with
  | array documents =>
      rw [TypeExpr.read, map_eq_ok_iff] at read
      rcases read with ⟨items, itemsRead, rfl⟩
      exact ⟨documents, items, itemsRead, rfl⟩
  | _ => cases read

theorem read_struct_eq_ok {types : FieldTypes} {json : Json}
    (read : (struct types).read json = .ok value) :
    ∃ members fields, readFields types members = .ok fields ∧ value = .struct fields := by
  cases json with
  | object members =>
      rw [TypeExpr.read, map_eq_ok_iff] at read
      rcases read with ⟨fields, fieldsRead, rfl⟩
      exact ⟨members, fields, fieldsRead, rfl⟩
  | _ => cases read

theorem read_enum_eq_ok {types : FieldTypes} {json : Json}
    (read : (enum types).read json = .ok value) :
    ∃ members discriminant fields, readFields types members = .ok fields ∧
      value = .enum discriminant fields := by
  cases json with
  | object members =>
      simp only [TypeExpr.read, bind_eq_ok_iff, Json.under_eq_ok_iff] at read
      rcases read with ⟨discriminant, _, fields, fieldsRead, ⟨rfl⟩⟩
      -- A missing member stands for no fields at all.
      split at fieldsRead
      · exact ⟨_, _, fields, fieldsRead, rfl⟩
      · exact ⟨_, _, fields, fieldsRead, rfl⟩
      · cases fieldsRead
  | _ => cases read

end Reading

/-- Whatever is read at the type is a value of the type. -/
def ReadsTyped (type : TypeExpr) : Prop :=
  ∀ json value, type.read json = .ok value → value.HasType type

theorem hasType_of_readItems {item : TypeExpr} (each : item.ReadsTyped) {index : Nat}
    {documents : List Json} {values : List Value}
    (found : Json.readItems item.read index documents = .ok values) :
    ∀ value ∈ values, value.HasType item := by
  induction documents generalizing index values with
  | nil =>
      cases found
      simp
  | cons document documents ih =>
      rcases Json.readItems_cons_eq_ok found with ⟨first, others, firstRead, othersRead, rfl⟩
      exact List.forall_mem_cons.2 ⟨each _ _ firstRead, ih othersRead⟩

theorem hasType_of_readFields {types : FieldTypes}
    (each : ∀ field ∈ types, field.2.ReadsTyped) {members : Members} {fields : Fields}
    (found : readFields types members = .ok fields) :
    fields.map Prod.fst = types.map Prod.fst ∧
      List.Forall₂ (fun field type => field.2.HasType type.2) fields types := by
  induction types generalizing fields with
  | nil =>
      cases found
      exact ⟨rfl, .nil⟩
  | cons field types ih =>
      rw [List.forall_mem_cons] at each
      rcases readFields_cons_eq_ok found with ⟨_, first, others, firstRead, othersRead, rfl⟩
      rcases ih each.2 othersRead with ⟨names, typed⟩
      refine ⟨?_, .cons (each.1 _ _ firstRead) typed⟩
      rw [List.map_cons, List.map_cons, names]

/-- Whatever document is read at a type, its value is of the type. -/
theorem readsTyped (type : TypeExpr) : type.ReadsTyped := by
  induction type with
  | bool | text =>
      intro json value read
      cases json <;> cases read
      constructor
  | int | natural | integer | bytes | address =>
      intro json value read
      rw [TypeExpr.read, map_eq_ok_iff] at read
      rcases read with ⟨content, _, rfl⟩
      constructor
  | option content ih =>
      intro json value read
      rcases read_option_eq_ok read with rfl | ⟨inner, innerRead, rfl⟩
      · exact .absent _
      · exact .present (ih _ _ innerRead)
  | list item ih =>
      intro json value read
      rcases read_list_eq_ok read with ⟨documents, items, itemsRead, rfl⟩
      exact .list (hasType_of_readItems ih itemsRead)
  | struct types ih =>
      intro json value read
      rcases read_struct_eq_ok read with ⟨members, fields, fieldsRead, rfl⟩
      rcases hasType_of_readFields ih fieldsRead with ⟨names, typed⟩
      exact .struct names typed
  | enum types ih =>
      intro json value read
      rcases read_enum_eq_ok read with ⟨members, discriminant, fields, fieldsRead, rfl⟩
      rcases hasType_of_readFields ih fieldsRead with ⟨names, typed⟩
      exact .enum _ names typed

/-- Whatever is read at the type holds input lists only. -/
def ReadsInput (type : TypeExpr) : Prop :=
  ∀ json value, type.read json = .ok value → value.asInput = value

theorem itemsAsInput_of_readItems {item : TypeExpr} (each : item.ReadsInput) {index : Nat}
    {documents : List Json} {values : List Value}
    (found : Json.readItems item.read index documents = .ok values) :
    Value.itemsAsInput values = values := by
  induction documents generalizing index values with
  | nil =>
      cases found
      rfl
  | cons document documents ih =>
      rcases Json.readItems_cons_eq_ok found with ⟨first, others, firstRead, othersRead, rfl⟩
      rw [Value.itemsAsInput, each _ _ firstRead, ih othersRead]

theorem fieldsAsInput_of_readFields {types : FieldTypes}
    (each : ∀ field ∈ types, field.2.ReadsInput) {members : Members} {fields : Fields}
    (found : readFields types members = .ok fields) : Value.fieldsAsInput fields = fields := by
  induction types generalizing fields with
  | nil =>
      cases found
      rfl
  | cons field types ih =>
      rw [List.forall_mem_cons] at each
      rcases readFields_cons_eq_ok found with ⟨_, first, others, firstRead, othersRead, rfl⟩
      rw [Value.fieldsAsInput, each.1 _ _ firstRead, ih each.2 othersRead]

/-- A value that is read from a document holds what is written and no template. -/
theorem readsInput (type : TypeExpr) : type.ReadsInput := by
  induction type with
  | bool | text =>
      intro json value read
      cases json <;> cases read
      rfl
  | int | natural | integer | bytes | address =>
      intro json value read
      rw [TypeExpr.read, map_eq_ok_iff] at read
      rcases read with ⟨content, _, rfl⟩
      rfl
  | option content ih =>
      intro json value read
      rcases read_option_eq_ok read with rfl | ⟨inner, innerRead, rfl⟩
      · rfl
      · rw [Value.asInput, ih _ _ innerRead]
  | list item ih =>
      intro json value read
      rcases read_list_eq_ok read with ⟨documents, items, itemsRead, rfl⟩
      rw [Value.asInput, itemsAsInput_of_readItems ih itemsRead]
  | struct types ih =>
      intro json value read
      rcases read_struct_eq_ok read with ⟨members, fields, fieldsRead, rfl⟩
      rw [Value.asInput, fieldsAsInput_of_readFields ih fieldsRead]
  | enum types ih =>
      intro json value read
      rcases read_enum_eq_ok read with ⟨members, discriminant, fields, fieldsRead, rfl⟩
      rw [Value.asInput, fieldsAsInput_of_readFields ih fieldsRead]

end TypeExpr

end ContractAbi
