import ContractAbi.Json.Render
import ContractAbi.Proofs.Codec.Shape
import ContractAbi.Proofs.Codec.Writing
import ContractAbi.TypeExpr.Basic

/-!
# Values of a type

A value of a type has exactly the fields that the type declares, and its lists
may be of either kind.  The target of a type has the shape of every value of the
type, and a value that has become the content of the target is the same document
as before.
-/

namespace ContractAbi

namespace TypeExpr

/-- Induction over the tree of a type, with one hypothesis for the fields at each node. -/
@[elab_as_elim, induction_eliminator]
theorem treeInduction {motive : TypeExpr → Prop}
    (bool : motive bool)
    (int : ∀ type, motive (int type))
    (natural : motive natural)
    (integer : motive integer)
    (text : motive text)
    (bytes : motive bytes)
    (address : motive address)
    (option : ∀ content, motive content → motive (option content))
    (list : ∀ item, motive item → motive (list item))
    (struct : ∀ fields, (∀ field ∈ fields, motive field.2) → motive (struct fields))
    (enum : ∀ fields, (∀ field ∈ fields, motive field.2) → motive (enum fields))
    (type : TypeExpr) : motive type := by
  refine @TypeExpr.rec motive (fun fields => ∀ field ∈ fields, motive field.2)
    (fun field => motive field.2) bool int natural integer text bytes address option list struct
    enum ?_ ?_ ?_ type
  · simp
  · intro field fields fieldHolds fieldsHold other otherMem
    rcases List.mem_cons.1 otherMem with rfl | otherMem
    · exact fieldHolds
    · exact fieldsHold other otherMem
  · intro name type typeHolds
    exact typeHolds

mutual

/-- Whether the values of the type have no bytes. -/
def isZeroWidth : TypeExpr → Bool
  | struct fields => fieldsAreZeroWidth fields
  | _ => false

def fieldsAreZeroWidth : FieldTypes → Bool
  | [] => true
  | (_, type) :: fields => type.isZeroWidth && fieldsAreZeroWidth fields

end

end TypeExpr

namespace Value

/-- `value.HasType type` says that the value is one of the type. -/
inductive HasType : Value → TypeExpr → Prop where
  | bool (value) : HasType (bool value) .bool
  | int (type word) : HasType (int type word) (.int type)
  | natural (value) : HasType (natural value) .natural
  | integer (value) : HasType (integer value) .integer
  | text (content) : HasType (text content) .text
  | bytes (content) : HasType (bytes content) .bytes
  | address (content) : HasType (address content) .address
  | absent (type) : HasType absent (.option type)
  | present {content type} : HasType content type → HasType (present content) (.option type)
  | list {items type} : (∀ item ∈ items, HasType item type) → HasType (list items) (.list type)
  | outputList {items type} (template) : (∀ item ∈ items, HasType item type) →
      HasType (outputList items template) (.list type)
  | struct {fields : Fields} {types : FieldTypes} :
      fields.map Prod.fst = types.map Prod.fst →
      List.Forall₂ (fun field type => HasType field.2 type.2) fields types →
      HasType (struct fields) (.struct types)
  | enum {fields : Fields} {types : FieldTypes} (discriminant) :
      fields.map Prod.fst = types.map Prod.fst →
      List.Forall₂ (fun field type => HasType field.2 type.2) fields types →
      HasType (enum discriminant fields) (.enum types)

section Fields

variable {fields : Fields} {types : FieldTypes}

theorem fits_targetFields
    (each : List.Forall₂ (fun field type => field.2.Fits type.2.target) fields types) :
    List.Forall₂ (fun field target => field.2.Fits target.2) fields
      (TypeExpr.targetFields types) := by
  induction each with
  | nil => exact .nil
  | cons head _ ih => exact .cons head ih

theorem fieldsAsInput_fieldsInto (names : fields.map Prod.fst = types.map Prod.fst)
    (each : List.Forall₂
      (fun field type => (field.2.into type.2.target).asInput = field.2.asInput) fields types) :
    fieldsAsInput (fieldsInto fields (TypeExpr.targetFields types)) = fieldsAsInput fields := by
  induction each with
  | nil => rfl
  | cons head _ ih =>
      rw [List.map_cons, List.map_cons, List.cons.injEq] at names
      rw [TypeExpr.targetFields, fieldsInto, fieldsAsInput, fieldsAsInput, head, ih names.2,
        names.1]

theorem writeFields_eq_nil_iff
    (each : List.Forall₂ (fun field type =>
      field.2.encode .nested = .ok [] ↔ type.2.isZeroWidth = true) fields types) :
    (writeFields fields).result = .ok [] ↔ TypeExpr.fieldsAreZeroWidth types = true := by
  induction each with
  | nil => exact iff_of_true rfl rfl
  | @cons field type fields types head _ ih =>
      rw [TypeExpr.fieldsAreZeroWidth, Bool.and_eq_true, ← head, ← ih]
      constructor
      · intro written
        rcases Written.result_append_eq_ok.1 written with ⟨front, back, first, others, empty⟩
        rcases List.append_eq_nil_iff.1 empty.symm with ⟨rfl, rfl⟩
        exact ⟨Written.result_inField_eq_ok.1 first, others⟩
      · rintro ⟨first, others⟩
        exact Written.result_append_eq_ok.2
          ⟨[], [], Written.result_inField_eq_ok.2 first, others, rfl⟩

end Fields

section Typed

variable {value : Value} {type : TypeExpr}

/-- The target of a type has the shape of the values of the type. -/
theorem HasType.fits (typed : value.HasType type) : value.Fits type.target := by
  -- Over the value and not the type, since the fields of the value come first in every relation.
  induction value generalizing type with
  | bool | int | natural | integer | text | bytes | address =>
      cases typed
      constructor
  | absent =>
      cases typed
      exact .absentPresent _
  | present content ih =>
      cases typed with
      | present inner => exact .present (ih inner)
  | list items ih =>
      cases typed with
      | list each => exact .list _ fun item mem => ih item mem (each item mem)
  | outputList items template ih _ =>
      cases typed with
      | outputList _ each => exact .outputList _ _ fun item mem => ih item mem (each item mem)
  | struct fields ih =>
      cases typed with
      | struct _ each =>
          exact .struct
            (fits_targetFields (forall₂_imp_of_mem each fun field mem _ => ih field mem))
  | enum discriminant fields ih =>
      cases typed with
      | enum _ _ each =>
          exact .enum _ _
            (fits_targetFields (forall₂_imp_of_mem each fun field mem _ => ih field mem))

theorem itemsAsInput_itemsInto {items : List Value} {template : Value}
    (each : ∀ item ∈ items, (item.into template).asInput = item.asInput) :
    itemsAsInput (itemsInto template items) = itemsAsInput items := by
  induction items with
  | nil => rfl
  | cons item items ih =>
      rw [List.forall_mem_cons] at each
      rw [itemsInto, itemsAsInput, itemsAsInput, each.1, ih each.2]

/-- The content of the target is the value, but for the kind of its lists. -/
theorem HasType.asInput_into (typed : value.HasType type) :
    (value.into type.target).asInput = value.asInput := by
  induction value generalizing type with
  | bool | int | natural | integer | text | bytes | address | absent =>
      cases typed
      rfl
  | present content ih =>
      cases typed with
      | present inner => simp only [TypeExpr.target, into, asInput, ih inner]
  | list items ih =>
      cases typed with
      | list each =>
          have same := itemsAsInput_itemsInto fun item mem => ih item mem (each item mem)
          simp only [TypeExpr.target, into, asInput, same]
  | outputList items template ih _ =>
      cases typed with
      | outputList _ each =>
          have same := itemsAsInput_itemsInto fun item mem => ih item mem (each item mem)
          simp only [TypeExpr.target, into, asInput, same]
  | struct fields ih =>
      cases typed with
      | struct names each =>
          have same := fieldsAsInput_fieldsInto names
            (forall₂_imp_of_mem each fun field mem _ => ih field mem)
          simp only [TypeExpr.target, into, asInput, same]
  | enum discriminant fields ih =>
      cases typed with
      | enum _ names each =>
          have same := fieldsAsInput_fieldsInto names
            (forall₂_imp_of_mem each fun field mem _ => ih field mem)
          simp only [TypeExpr.target, into, asInput, same]

theorem itemsToJson_itemsAsInput {items : List Value}
    (each : ∀ item ∈ items, item.asInput.toJson = item.toJson) :
    itemsToJson (itemsAsInput items) = itemsToJson items := by
  induction items with
  | nil => rfl
  | cons item items ih =>
      rw [List.forall_mem_cons] at each
      rw [itemsAsInput, itemsToJson, itemsToJson, each.1, ih each.2]

theorem fieldsToJson_fieldsAsInput
    (each : ∀ field ∈ fields, field.2.asInput.toJson = field.2.toJson) :
    fieldsToJson (fieldsAsInput fields) = fieldsToJson fields := by
  induction fields with
  | nil => rfl
  | cons field fields ih =>
      rw [List.forall_mem_cons] at each
      rw [fieldsAsInput, fieldsToJson, fieldsToJson, each.1, ih each.2]

/-- Documents do not show the kind of a list. -/
theorem toJson_asInput (value : Value) : value.asInput.toJson = value.toJson := by
  induction value with
  | bool | int | natural | integer | text | bytes | address | absent => rfl
  | present content ih => exact ih
  | list items ih | outputList items _ ih _ =>
      simp only [asInput, toJson, itemsToJson_itemsAsInput ih]
  | struct fields ih | enum _ fields ih =>
      simp only [asInput, toJson, fieldsToJson_fieldsAsInput ih]

/-- The content of the target is the same document as the value. -/
theorem HasType.toJson_into (typed : value.HasType type) :
    (value.into type.target).toJson = value.toJson := by
  rw [← toJson_asInput, typed.asInput_into, toJson_asInput]

end Typed

theorem result_writeLength_append_ne_nil (length : Nat) (others : Written) :
    (writeLength length ++ others).result ≠ .ok [] := by
  intro empty
  rcases Written.result_append_eq_ok.1 empty with ⟨front, back, counted, _, same⟩
  rcases result_writeLength_eq_ok.1 counted with ⟨_, rfl⟩
  have width := BigEndian.length_ofWidth lengthPrefixSize length
  rw [(List.append_eq_nil_iff.1 same.symm).1] at width
  cases width

/-- Only a struct can have a nested form without bytes. -/
theorem fields_of_encode_eq_nil {value : Value} (encoded : value.encode .nested = .ok []) :
    ∃ fields, value = struct fields := by
  cases value with
  | struct fields => exact ⟨fields, rfl⟩
  | bool value => cases encoded
  | int type word =>
      rw [encode, write, writeInt, Written.result_done, Except.ok.injEq] at encoded
      have width := BigEndian.length_ofWidth type.byteWidth word.toNat
      rw [encoded] at width
      cases type <;> cases width
  | natural | integer | text | bytes | list | outputList =>
      exact absurd encoded (result_writeLength_append_ne_nil _ _)
  | address content =>
      rcases result_writeAddress_eq_ok.1 encoded with ⟨length, rfl⟩
      cases length
  | absent => cases encoded
  | present content =>
      rcases Written.result_done_append_eq_ok.1 encoded with ⟨_, _, same⟩
      cases same
  | enum discriminant fields =>
      rcases Written.result_done_append_eq_ok.1 encoded with ⟨_, _, same⟩
      cases same

/-- Whether a value has bytes depends on its type alone. -/
theorem HasType.encode_eq_nil_iff {value : Value} {type : TypeExpr} (typed : value.HasType type) :
    value.encode .nested = .ok [] ↔ type.isZeroWidth = true := by
  induction value generalizing type with
  | struct fields ih =>
      cases typed with
      | struct _ each =>
          exact writeFields_eq_nil_iff (forall₂_imp_of_mem each fun field mem _ => ih field mem)
  | _ =>
      constructor
      · intro encoded
        rcases fields_of_encode_eq_nil encoded with ⟨_, ⟨⟩⟩
      · intro narrow
        cases typed
        cases narrow

theorem HasType.of_mem_items {value item : Value} {type : TypeExpr}
    (typed : value.HasType type) (mem : item ∈ value.items) :
    ∃ itemType, type = .list itemType ∧ item.HasType itemType := by
  cases typed with
  | list each => exact ⟨_, rfl, each item mem⟩
  | outputList _ each => exact ⟨_, rfl, each item mem⟩
  | _ => cases mem

/-- Only items without bytes make a top-level list ambiguous, and they have such a type. -/
theorem HasType.ne_nil_of_mem_items {value item : Value} {type : TypeExpr}
    (typed : value.HasType type) (wide : ∀ item, type = .list item → item.isZeroWidth = false)
    (mem : item ∈ value.items) : item.encode .nested ≠ .ok [] := by
  rcases typed.of_mem_items mem with ⟨itemType, rfl, itemTyped⟩
  rw [ne_eq, itemTyped.encode_eq_nil_iff, wide itemType rfl]
  exact Bool.false_ne_true

end Value

end ContractAbi
