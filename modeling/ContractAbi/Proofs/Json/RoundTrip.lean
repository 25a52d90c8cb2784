import ContractAbi.Proofs.Hex
import ContractAbi.Proofs.Json.Members
import ContractAbi.Proofs.Json.Typed
import ContractAbi.Proofs.Text
import ContractAbi.Proofs.TypeExpr.WellFormed

/-!
# Documents read back

The document of a value of a well-formed type is read as that value.  Reading makes input
lists, so an output list comes back as the input list of its items.
-/

namespace ContractAbi

theorem IntType.word?_value (type : IntType) (word : BitVec type.bits) :
    type.word? (type.value word) = some word := by
  have cardinality : type.cardinality = 2 ^ type.bits := rfl
  have even : 2 ^ type.bits = 2 * (2 ^ type.bits / 2) := by cases type <;> rfl
  have low := word.le_two_mul_toInt
  have high := word.two_mul_toInt_lt
  have unsigned := word.isLt
  have power : ((2 ^ type.bits : Nat) : Int) = 2 ^ type.bits := by push_cast; rfl
  rw [word?, minValue, maxValue, value, cardinality]
  rw [← power] at low high
  split
  · rw [if_pos ⟨by omega, by omega⟩, BitVec.ofInt_toInt]
  · rw [if_pos ⟨by omega, by omega⟩, BitVec.ofInt_natCast, BitVec.ofNat_toNat, BitVec.setWidth_eq]

namespace Json

theorem hexBytes?_encode (content : Bytes) :
    hexBytes? (.string (String.ofList (Hex.encode content))) = some content := by
  have plain : ∀ digits, Hex.encode content ≠ '0' :: 'x' :: digits := by
    intro digits marked
    have written : Hex.isWritten 'x' = true :=
      Hex.isWritten_of_mem_encode (marked ▸ List.mem_cons_of_mem _ List.mem_cons_self)
    cases written
  rw [hexBytes?, String.toList_ofList]
  split
  · rename_i digits marked
    exact absurd marked (plain digits)
  · rw [Hex.decode_encode]
    rfl

end Json

namespace Value

/-- Only an absent option is shown as null, so no present content is taken for one. -/
theorem HasType.toJson_ne_null {value : Value} {type : TypeExpr} (typed : value.HasType type)
    (notOption : type.isOption = false) : value.toJson ≠ .null := by
  cases typed with
  | absent | present => cases notOption
  | _ => simp only [toJson, ne_eq, reduceCtorEq, not_false_eq_true]

theorem readItems_itemsToJson {item : TypeExpr} {items : List Value}
    (each : ∀ value ∈ items, item.read value.toJson = .ok value.asInput) (index : Nat) :
    Json.readItems item.read index (itemsToJson items) = .ok (itemsAsInput items) := by
  induction items generalizing index with
  | nil => rfl
  | cons value items ih =>
      rw [List.forall_mem_cons] at each
      rw [itemsToJson, Json.readItems, each.1, ih each.2]
      rfl

theorem read_list_itemsToJson {item : TypeExpr} {items : List Value}
    (each : ∀ value ∈ items, item.read value.toJson = .ok value.asInput) :
    (TypeExpr.list item).read (.array (itemsToJson items)) = .ok (list (itemsAsInput items)) := by
  rw [TypeExpr.read, readItems_itemsToJson each]
  rfl

theorem itemsToJson_eq_map (items : List Value) : itemsToJson items = items.map toJson := by
  induction items with
  | nil => rfl
  | cons item items ih => rw [itemsToJson, ih, List.map_cons]

theorem fieldsToJson_eq_map (fields : Fields) :
    fieldsToJson fields = fields.map fun field => (field.1, field.2.toJson) := by
  induction fields with
  | nil => rfl
  | cons field fields ih => rw [fieldsToJson, ih, List.map_cons]

/-- Fields are read from an object that holds the document of each. -/
theorem readFields_of_lookup {fields : Fields} {types : FieldTypes} {members : Members}
    (names : fields.map Prod.fst = types.map Prod.fst)
    (each : List.Forall₂ (fun field type => type.2.read field.2.toJson = .ok field.2.asInput)
      fields types)
    (held : ∀ field ∈ fields, members.lookup field.1 = some field.2.toJson) :
    TypeExpr.readFields types members = .ok (fieldsAsInput fields) := by
  induction each with
  | nil => rfl
  | @cons field type fields types head _ ih =>
      rw [List.map_cons, List.map_cons, List.cons.injEq] at names
      rw [List.forall_mem_cons, names.1] at held
      simp only [TypeExpr.readFields, held.1, head, ih names.2 held.2, fieldsAsInput, names.1]
      rfl

theorem readFields_fieldsToJson {fields : Fields} {types : FieldTypes}
    (distinct : (types.map Prod.fst).Nodup) (names : fields.map Prod.fst = types.map Prod.fst)
    (each : List.Forall₂ (fun field type => type.2.read field.2.toJson = .ok field.2.asInput)
      fields types) :
    TypeExpr.readFields types (Json.ofMembers (fieldsToJson fields)) =
      .ok (fieldsAsInput fields) := by
  have sameNames : (fieldsToJson fields).map Prod.fst = types.map Prod.fst := by
    rw [fieldsToJson_eq_map, List.map_map, ← names]
    rfl
  refine readFields_of_lookup names each fun field mem => Json.lookup_ofMembers ?_ ?_
  · rwa [sameNames]
  · rw [fieldsToJson_eq_map]
    exact List.mem_map_of_mem mem

theorem forall₂_read_toJson {fields : Fields} {types : FieldTypes}
    (each : ∀ field ∈ fields, ∀ {type : TypeExpr}, field.2.HasType type → type.WellFormed →
      type.read field.2.toJson = .ok field.2.asInput)
    (typed : List.Forall₂ (fun field type => field.2.HasType type.2) fields types)
    (formed : ∀ type ∈ types, type.2.WellFormed) :
    List.Forall₂ (fun field type => type.2.read field.2.toJson = .ok field.2.asInput)
      fields types := by
  induction typed with
  | nil => exact .nil
  | cons head _ ih =>
      rw [List.forall_mem_cons] at each formed
      exact .cons (each.1 head formed.1) (ih each.2 formed.2)

theorem read_enum_of_lookup {types : FieldTypes} {members fieldMembers : Members} {fields : Fields}
    {discriminant : UInt8}
    (variant : members.lookup "discriminant" = some (.integer discriminant.toNat))
    (held : members.lookup "fields" = some (.object fieldMembers))
    (read : TypeExpr.readFields types fieldMembers = .ok fields) :
    (TypeExpr.enum types).read (.object members) = .ok (enum discriminant fields) := by
  have word : Json.word? .u8 (.integer discriminant.toNat) = some discriminant.toBitVec :=
    IntType.word?_value .u8 discriminant.toBitVec
  simp only [TypeExpr.read, variant, held, Option.bind_some, word, bind_eq_ok_iff,
    Json.under_eq_ok_iff]
  refine ⟨_, rfl, fields, read, ?_⟩
  exact congrArg (fun number => Except.ok (enum number fields)) UInt8.ofNat_toNat

theorem read_option_of_ne_null {content : TypeExpr} {json : Json} (notNull : json ≠ .null) :
    (TypeExpr.option content).read json = (content.read json).map .present := by
  cases json with
  | null => exact absurd rfl notNull
  | _ => simp only [TypeExpr.read]

/-- The document of a value is read as the value. -/
theorem HasType.read_toJson {value : Value} {type : TypeExpr} (typed : value.HasType type)
    (formed : type.WellFormed) : type.read value.toJson = .ok value.asInput := by
  induction value generalizing type with
  | bool | text | absent =>
      cases typed
      rfl
  | int type word =>
      cases typed
      rw [toJson, TypeExpr.read, Json.word?, IntType.word?_value]
      rfl
  | natural number =>
      cases typed
      simp only [toJson, TypeExpr.read, Json.decimalText?, Option.bind_some,
        Decimal.natural?_trim_toString]
      rfl
  | integer number =>
      cases typed
      simp only [toJson, TypeExpr.read, Json.decimalText?, Option.bind_some,
        Decimal.integer?_trim_toString]
      rfl
  | bytes content | address content =>
      cases typed
      rw [toJson, TypeExpr.read, Json.hexBytes?_encode]
      rfl
  | present content ih =>
      cases typed with
      | present inner =>
          cases formed with
          | option notOption innerFormed =>
              rw [toJson, read_option_of_ne_null (inner.toJson_ne_null notOption),
                ih inner innerFormed]
              rfl
  | list items ih =>
      cases typed with
      | list each =>
          cases formed with
          | list itemFormed =>
              exact read_list_itemsToJson
                fun item mem => ih item mem (each item mem) itemFormed
  | outputList items template ih _ =>
      cases typed with
      | outputList _ each =>
          cases formed with
          | list itemFormed =>
              exact read_list_itemsToJson
                fun item mem => ih item mem (each item mem) itemFormed
  | struct fields ih =>
      cases typed with
      | struct names each =>
          cases formed with
          | struct distinct _ fieldsFormed =>
              have read := readFields_fieldsToJson distinct names
                (forall₂_read_toJson ih each fieldsFormed)
              rw [toJson, TypeExpr.read, read]
              rfl
  | enum discriminant fields ih =>
      cases typed with
      | enum _ names each =>
          cases formed with
          | enum distinct _ fieldsFormed =>
              have read := readFields_fieldsToJson distinct names
                (forall₂_read_toJson ih each fieldsFormed)
              exact read_enum_of_lookup rfl rfl read

end Value

end ContractAbi
