import ContractAbi.Bytes.BigEndian
import ContractAbi.Codec.Encode
import Mathlib.Data.List.Forall2

/-!
# Values and the targets of their shape

A target has the shape of a value when the decoder can read the value into it:
the kinds of the leaves agree, fields correspond in order, a present option
finds a target for its content, and every list finds a template that has the
shape of each of its items.  What the target then holds is the value, with the
target's field names and templates.
-/

namespace ContractAbi

/-- Pairs are related otherwise when each element on the left gives it for its own. -/
theorem forall₂_imp_of_mem {α β : Type} {related other : α → β → Prop} {front : List α}
    {back : List β} (pairs : List.Forall₂ related front back)
    (each : ∀ first ∈ front, ∀ second, related first second → other first second) :
    List.Forall₂ other front back := by
  induction pairs with
  | nil => exact .nil
  | cons head _ ih =>
      rw [List.forall_mem_cons] at each
      exact .cons (each.1 _ head) (ih each.2)

namespace Value

/-- Induction over the tree of a value, with one hypothesis for the items, the
template and the fields at each node. -/
@[elab_as_elim, induction_eliminator]
theorem treeInduction {motive : Value → Prop}
    (bool : ∀ value, motive (bool value))
    (int : ∀ type word, motive (int type word))
    (natural : ∀ value, motive (natural value))
    (integer : ∀ value, motive (integer value))
    (text : ∀ content, motive (text content))
    (bytes : ∀ content, motive (bytes content))
    (address : ∀ content, motive (address content))
    (absent : motive absent)
    (present : ∀ content, motive content → motive (present content))
    (list : ∀ items, (∀ item ∈ items, motive item) → motive (list items))
    (outputList : ∀ items template, (∀ item ∈ items, motive item) →
      (∀ content, template = some content → motive content) → motive (outputList items template))
    (struct : ∀ fields, (∀ field ∈ fields, motive field.2) → motive (struct fields))
    (enum : ∀ discriminant fields, (∀ field ∈ fields, motive field.2) →
      motive (enum discriminant fields)) (value : Value) : motive value := by
  refine @Value.rec motive (fun items => ∀ item ∈ items, motive item)
    (fun template => ∀ content, template = some content → motive content)
    (fun fields => ∀ field ∈ fields, motive field.2) (fun field => motive field.2)
    bool int natural integer text bytes address absent present list outputList struct enum
    ?_ ?_ ?_ ?_ ?_ ?_ ?_ value
  · simp
  · intro item items itemHolds itemsHold other otherMem
    rcases List.mem_cons.1 otherMem with rfl | otherMem
    · exact itemHolds
    · exact itemsHold other otherMem
  · simp
  · intro content contentHolds other same
    cases same
    exact contentHolds
  · simp
  · intro field fields fieldHolds fieldsHold other otherMem
    rcases List.mem_cons.1 otherMem with rfl | otherMem
    · exact fieldHolds
    · exact fieldsHold other otherMem
  · intro name value valueHolds
    exact valueHolds

/-- `value.Fits target` says that the target has the shape of the value.  What the
target holds in its leaves, its discriminants and its lists does not matter. -/
inductive Fits : Value → Value → Prop where
  | bool (value old) : Fits (bool value) (bool old)
  | int (type word old) : Fits (int type word) (int type old)
  | natural (value old) : Fits (natural value) (natural old)
  | integer (value old) : Fits (integer value) (integer old)
  | text (content old) : Fits (text content) (text old)
  | bytes (content old) : Fits (bytes content) (bytes old)
  | address (content old) : Fits (address content) (address old)
  | absent : Fits absent absent
  | absentPresent (old) : Fits Value.absent (present old)
  | present {content target} : Fits content target → Fits (present content) (present target)
  | list {items template} (old) : (∀ item ∈ items, Fits item template) →
      Fits (list items) (outputList old (some template))
  | outputList {items template} (own old) : (∀ item ∈ items, Fits item template) →
      Fits (outputList items own) (outputList old (some template))
  | struct {fields targets : Fields} :
      List.Forall₂ (fun field target => Fits field.2 target.2) fields targets →
      Fits (struct fields) (struct targets)
  | enum {fields targets : Fields} (discriminant old) :
      List.Forall₂ (fun field target => Fits field.2 target.2) fields targets →
      Fits (enum discriminant fields) (enum old targets)

mutual

/-- The target once it holds the value: input lists have become output lists with
the target's templates, and fields have the target's names. -/
def into : Value → Value → Value
  | present content, present target => present (content.into target)
  | list items, outputList _ (some template) =>
    outputList (itemsInto template items) (some template)
  | outputList items _, outputList _ (some template) =>
    outputList (itemsInto template items) (some template)
  | struct fields, struct targets => struct (fieldsInto fields targets)
  | enum discriminant fields, enum _ targets => enum discriminant (fieldsInto fields targets)
  | value, _ => value

/-- Each item in a copy of the template. -/
def itemsInto (template : Value) : List Value → List Value
  | [] => []
  | item :: items => item.into template :: itemsInto template items

/-- Each value in the field at its place. -/
def fieldsInto : Fields → Fields → Fields
  | (_, value) :: fields, (name, target) :: targets =>
    (name, value.into target) :: fieldsInto fields targets
  | _, _ => []

end

mutual

/-- The value as callers encode it: every list is an input list. -/
def asInput : Value → Value
  | present content => present content.asInput
  | list items => list (itemsAsInput items)
  | outputList items _ => list (itemsAsInput items)
  | struct fields => struct (fieldsAsInput fields)
  | enum discriminant fields => enum discriminant (fieldsAsInput fields)
  | value => value

def itemsAsInput : List Value → List Value
  | [] => []
  | item :: items => item.asInput :: itemsAsInput items

def fieldsAsInput : Fields → Fields
  | [] => []
  | (name, value) :: fields => (name, value.asInput) :: fieldsAsInput fields

end

mutual

/-- The length prefixes in the encoding of a value, from left to right. -/
def prefixes : Value → Context → List Nat
  | natural value, .nested => [(BigEndian.ofNat value).length]
  | integer value, .nested => [(BigEndian.ofInt value).length]
  | text content, .nested => [(Utf8.encode content.toList).length]
  | bytes content, .nested => [content.length]
  | present content, _ => prefixes content .nested
  | list items, .nested => items.length :: prefixesOfItems items
  | list items, .topLevel => prefixesOfItems items
  | outputList items _, .nested => items.length :: prefixesOfItems items
  | outputList items _, .topLevel => prefixesOfItems items
  | struct fields, _ => prefixesOfFields fields
  | enum _ fields, _ => prefixesOfFields fields
  | _, _ => []

def prefixesOfItems : List Value → List Nat
  | [] => []
  | item :: items => prefixes item .nested ++ prefixesOfItems items

def prefixesOfFields : Fields → List Nat
  | [] => []
  | (_, value) :: fields => prefixes value .nested ++ prefixesOfFields fields

end

theorem forall_mem_prefixesOfItems {items : List Value} {holds : Nat → Prop} :
    (∀ length ∈ prefixesOfItems items, holds length) ↔
      ∀ item ∈ items, ∀ length ∈ item.prefixes .nested, holds length := by
  induction items with
  | nil => simp [prefixesOfItems]
  | cons item items ih => rw [prefixesOfItems, List.forall_mem_append, List.forall_mem_cons, ih]

theorem forall_mem_prefixesOfFields {fields : Fields} {holds : Nat → Prop} :
    (∀ length ∈ prefixesOfFields fields, holds length) ↔
      ∀ field ∈ fields, ∀ length ∈ field.2.prefixes .nested, holds length := by
  induction fields with
  | nil => simp [prefixesOfFields]
  | cons field fields ih =>
      rw [prefixesOfFields, List.forall_mem_append, List.forall_mem_cons, ih]

/-- The items of a list of either kind; other values have none. -/
def items : Value → List Value
  | list items => items
  | outputList items _ => items
  | _ => []

end Value

end ContractAbi
