import ContractAbi.Proofs.TypeExpr.Scanning
import Mathlib.Data.List.Nodup
import Mathlib.Data.List.TakeWhile

/-!
# Types that can be read

Two rules of the language are not in its grammar: the fields of a list have different
names, and no option directly holds an option.  With them the document of a value shows
which value it is, since an object has one member for each field and null one meaning.
-/

namespace ContractAbi.TypeExpr

/-- A non-empty run of letters, digits and underscores. -/
def IsName (name : String) : Prop :=
  name.toList ≠ [] ∧ ∀ character ∈ name.toList, isNameCharacter character = true

instance (name : String) : Decidable (IsName name) :=
  decidable_of_iff (name.toList ≠ [] ∧ name.toList.all isNameCharacter = true)
    (and_congr_right' List.all_eq_true)

inductive WellFormed : TypeExpr → Prop where
  | bool : WellFormed bool
  | int (type) : WellFormed (int type)
  | natural : WellFormed natural
  | integer : WellFormed integer
  | text : WellFormed text
  | bytes : WellFormed bytes
  | address : WellFormed address
  | option {content} : content.isOption = false → WellFormed content → WellFormed (option content)
  | list {item} : WellFormed item → WellFormed (list item)
  | struct {fields : FieldTypes} : (fields.map Prod.fst).Nodup →
      (∀ field ∈ fields, IsName field.1) → (∀ field ∈ fields, WellFormed field.2) →
      WellFormed (struct fields)
  | enum {fields : FieldTypes} : (fields.map Prod.fst).Nodup →
      (∀ field ∈ fields, IsName field.1) → (∀ field ∈ fields, WellFormed field.2) →
      WellFormed (enum fields)

theorem isName_of_scanName {input rest : List Char} {name : String}
    (scanned : scanName input = .ok (name, rest)) : IsName name := by
  simp only [scanName] at scanned
  split at scanned
  · cases scanned
  · rename_i nonempty
    cases scanned
    rw [IsName, String.toList_ofList]
    exact ⟨fun empty => nonempty (List.isEmpty_iff.2 empty),
      fun character mem => List.mem_takeWhile_imp mem⟩

theorem wellFormed_of_mem_words {name : String} {type : TypeExpr}
    (mem : (name, type) ∈ words) : type.WellFormed := by
  simp only [words, List.mem_cons, Prod.mk.injEq, List.not_mem_nil, or_false] at mem
  rcases mem with ⟨_, rfl⟩ | ⟨_, rfl⟩ | ⟨_, rfl⟩ | ⟨_, rfl⟩ | ⟨_, rfl⟩ | ⟨_, rfl⟩ | ⟨_, rfl⟩ |
    ⟨_, rfl⟩ | ⟨_, rfl⟩ | ⟨_, rfl⟩ | ⟨_, rfl⟩ | ⟨_, rfl⟩ | ⟨_, rfl⟩ | ⟨_, rfl⟩ <;> constructor

theorem wellFormed_of_word? {name : String} {type : TypeExpr} (known : word? name = some type) :
    type.WellFormed := by
  rcases Option.map_eq_some_iff.1 known with ⟨⟨word, found⟩, entry, rfl⟩
  exact wellFormed_of_mem_words (List.mem_of_find?_eq_some entry)

/-- What is true of the fields that have been read so far. -/
structure FieldsFormed (fields : FieldTypes) : Prop where
  distinct : (fields.map Prod.fst).Nodup
  named : ∀ field ∈ fields, IsName field.1
  each : ∀ field ∈ fields, field.2.WellFormed

theorem FieldsFormed.nil : FieldsFormed [] :=
  ⟨List.nodup_nil, List.forall_mem_nil _, List.forall_mem_nil _⟩

theorem FieldsFormed.append {before : FieldTypes} {name : String} {type : TypeExpr}
    (formed : FieldsFormed before) (named : IsName name) (fresh : name ∉ before.map Prod.fst)
    (typed : type.WellFormed) : FieldsFormed (before ++ [(name, type)]) := by
  refine ⟨?_, ?_, ?_⟩
  · rw [List.map_append, List.nodup_append]
    refine ⟨formed.distinct, List.nodup_singleton name, ?_⟩
    intro first firstMem last lastMem same
    rw [List.map_singleton, List.mem_singleton] at lastMem
    rw [same, lastMem] at firstMem
    exact fresh firstMem
  · exact List.forall_mem_append.2 ⟨formed.named, List.forall_mem_singleton.2 named⟩
  · exact List.forall_mem_append.2 ⟨formed.each, List.forall_mem_singleton.2 typed⟩

/-! What holds of the results of the scanners, when each has so many steps. -/

def TypesForm (steps : Nat) : Prop :=
  ∀ {input type rest}, scanType steps input = .ok (type, rest) → type.WellFormed

def ParametersForm (steps : Nat) : Prop :=
  ∀ {input type rest}, scanParameter steps input = .ok (type, rest) → type.WellFormed

def FieldsForm (steps : Nat) : Prop :=
  ∀ {before input fields rest}, FieldsFormed before →
    scanFields steps before input = .ok (fields, rest) → FieldsFormed fields

section Steps

variable {steps : Nat}

theorem typesForm_succ (parameters : ParametersForm steps) (fields : FieldsForm steps) :
    TypesForm (steps + 1) := by
  intro input type rest scanned
  cases typeStep_of_scanType scanned with
  | word _ known => exact wellFormed_of_word? known
  | option _ _ parameter notOption => exact .option notOption (parameters parameter)
  | list _ _ parameter => exact .list (parameters parameter)
  | struct _ _ _ listed =>
      have formed := fields .nil listed
      exact .struct formed.distinct formed.named formed.each
  | enum _ _ _ listed =>
      have formed := fields .nil listed
      exact .enum formed.distinct formed.named formed.each

theorem parametersForm_succ (types : TypesForm steps) : ParametersForm (steps + 1) := by
  intro input type rest scanned
  rcases scanParameter_eq_ok scanned with ⟨inside, after, _, typed, _⟩
  exact types typed

theorem fieldsForm_succ (types : TypesForm steps) (fields : FieldsForm steps) :
    FieldsForm (steps + 1) := by
  intro before input found rest formed scanned
  cases fieldsStep_of_scanFields scanned with
  | none _ => exact formed
  | comma named fresh _ typed _ listed =>
      exact fields (formed.append (isName_of_scanName named) fresh (types typed)) listed
  | last named fresh _ typed _ =>
      exact formed.append (isName_of_scanName named) fresh (types typed)

end Steps

/-- What is scanned is well formed, with the fields that were scanned before. -/
theorem formed_of_scan (steps : Nat) :
    TypesForm steps ∧ ParametersForm steps ∧ FieldsForm steps := by
  induction steps with
  | zero =>
      refine ⟨?_, ?_, ?_⟩
      · rintro _ _ _ ⟨⟩
      · rintro _ _ _ ⟨⟩
      · rintro _ _ _ _ _ ⟨⟩
  | succ steps ih =>
      rcases ih with ⟨types, parameters, fields⟩
      exact ⟨typesForm_succ parameters fields, parametersForm_succ types,
        fieldsForm_succ types fields⟩

/-- The reader gives well-formed types only. -/
theorem wellFormed_of_parse {text : String} {type : TypeExpr} (parsed : parse text = .ok type) :
    type.WellFormed := by
  rcases scanType_of_parse parsed with ⟨rest, scanned, _⟩
  exact (formed_of_scan _).1 scanned

end ContractAbi.TypeExpr
