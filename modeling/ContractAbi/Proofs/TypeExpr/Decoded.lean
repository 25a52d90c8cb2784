import ContractAbi.Proofs.Codec.NormalForm
import ContractAbi.Proofs.TypeExpr.Typing

/-!
# Decoded values have the type of their target

What a decoder overwrites in the target of a type leaves it a value of the type.  The one
exception is the default of an enum: a whole payload without bytes stands for variant 0
without fields, also where the type declares some.
-/

namespace ContractAbi.Value

theorem into_eq_self_of_mem {template : Value} {items : List Value}
    (same : itemsInto template items = items) : ∀ item ∈ items, item.into template = item := by
  induction items with
  | nil => simp
  | cons item items ih =>
      rw [itemsInto, List.cons.injEq] at same
      exact List.forall_mem_cons.2 ⟨same.1, ih same.2⟩

/-- What fits the target of the type and is what the target holds, is of the type. -/
def TypedByTarget (type : TypeExpr) : Prop :=
  ∀ value : Value, value.Fits type.target → value.into type.target = value → value.HasType type

/-- Fields that are what the targets of the types hold are of these types. -/
theorem hasType_of_fieldsInto {types : FieldTypes} {fields : Fields}
    (each : ∀ type ∈ types, TypedByTarget type.2)
    (fits : List.Forall₂ (fun field target => field.2.Fits target.2) fields
      (TypeExpr.targetFields types))
    (same : fieldsInto fields (TypeExpr.targetFields types) = fields) :
    fields.map Prod.fst = types.map Prod.fst ∧
      List.Forall₂ (fun field type => field.2.HasType type.2) fields types := by
  induction types generalizing fields with
  | nil =>
      cases fits
      exact ⟨rfl, .nil⟩
  | cons type types ih =>
      rw [List.forall_mem_cons] at each
      rw [TypeExpr.targetFields] at fits same
      cases fits with
      | @cons field _ fields _ head tail =>
          rw [fieldsInto, List.cons.injEq] at same
          rcases same with ⟨first, others⟩
          rcases ih each.2 tail others with ⟨names, typed⟩
          have own : field.2.into type.2.target = field.2 := congrArg Prod.snd first
          refine ⟨?_, .cons (each.1 _ head own) typed⟩
          rw [List.map_cons, List.map_cons, names, ← congrArg Prod.fst first]

/-- The target of a type shows the type, since it has a value of each part and a template for
items. -/
theorem typedByTarget (type : TypeExpr) : TypedByTarget type := by
  induction type with
  | bool | int | natural | integer | text | bytes | address =>
      intro value fits same
      rw [TypeExpr.target] at fits
      cases fits
      constructor
  | option content ih =>
      intro value fits same
      rw [TypeExpr.target] at fits same
      cases fits with
      | absentPresent => exact .absent _
      | present inner =>
          rw [into, present.injEq] at same
          exact .present (ih _ inner same)
  | list item ih =>
      intro value fits same
      rw [TypeExpr.target] at fits same
      cases fits with
      | list old each =>
          rw [into] at same
          cases same
      | outputList own old each =>
          rw [into, outputList.injEq] at same
          have items := into_eq_self_of_mem same.1
          exact .outputList _ fun value mem => ih _ (each value mem) (items value mem)
  | struct types ih =>
      intro value fits same
      rw [TypeExpr.target] at fits same
      cases fits with
      | struct each =>
          rw [into, struct.injEq] at same
          rcases hasType_of_fieldsInto ih each same with ⟨names, typed⟩
          exact .struct names typed
  | enum types ih =>
      intro value fits same
      rw [TypeExpr.target] at fits same
      cases fits with
      | enum discriminant old each =>
          rw [into, enum.injEq] at same
          rcases hasType_of_fieldsInto ih each same.2 with ⟨names, typed⟩
          exact .enum _ names typed

section Decoding

variable {maxLength : Nat} {type : TypeExpr} {value : Value}

/-- A value that has been decoded inside another one is of the type of its target. -/
theorem hasType_of_decode_nested {input rest : Bytes}
    (decoded : type.target.decode maxLength .nested input = ⟨value, rest, none⟩) :
    value.HasType type := by
  rcases readsWhatItDecodes maxLength type.target input value rest decoded with ⟨_, _, reads⟩
  exact typedByTarget type value reads.fits reads.into

/-- A whole payload leaves a value of the type, unless it is empty and the type is an enum
with fields. -/
theorem hasType_of_decodePayload {payload : Bytes}
    (shaped : payload = [] → ∀ fields, type = .enum fields → fields = [])
    (decoded : type.target.decodePayload maxLength payload = (value, none)) :
    value.HasType type := by
  have whole := decode_of_decodePayload decoded
  cases type with
  | bool | int | natural | integer | text | bytes | address =>
      rw [TypeExpr.target, decode] at whole
      rcases Read.fill_eq_success whole with ⟨found, _, rfl⟩
      constructor
  | option content =>
      rw [TypeExpr.target] at whole
      cases payload with
      | nil =>
          cases whole
          exact .absent _
      | cons presence others =>
          rw [decode_present_topLevel (List.cons_ne_nil _ _)] at whole
          exact hasType_of_decode_nested whole
  | list item =>
      rw [TypeExpr.target, decode] at whole
      rcases Decoded.map_eq_success whole with ⟨found, itemsDecoded, rfl⟩
      rcases readsItems_of_decodeToEnd itemsDecoded with ⟨reads, _⟩
      have items := into_eq_self_of_mem reads.into
      exact .outputList _ fun value mem =>
        typedByTarget item value (reads.fits value mem) (items value mem)
  | struct fields =>
      have nested : (TypeExpr.struct fields).target.decode maxLength .nested payload =
          ⟨value, [], none⟩ := by
        simpa only [TypeExpr.target, decode] using whole
      exact hasType_of_decode_nested nested
  | enum fields =>
      rw [TypeExpr.target] at whole
      cases payload with
      | nil =>
          have empty := shaped rfl fields rfl
          subst empty
          cases whole
          exact .enum _ rfl .nil
      | cons discriminant others =>
          rw [decode_enum_topLevel (List.cons_ne_nil _ _)] at whole
          exact hasType_of_decode_nested whole

end Decoding

end ContractAbi.Value
