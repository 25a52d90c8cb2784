import ContractAbi.Arguments.Basic
import ContractAbi.Codec.Decode

/-!
# Reading arguments from parts

Arguments are read into targets of the expected shape, and all parts have to be
used.  As with values, the targets are returned as they were left, also after a
failure.
-/

namespace ContractAbi

/-- The parts that are left, and the number of those used. -/
structure Parts where
  left : List Bytes
  used : Nat := 0

/-- A target after reading, the parts left over, and the error, if any. -/
structure Filled (α : Type) where
  target : α
  parts : Parts
  error : Option ArgumentError

def Filled.map {α β : Type} (f : α → β) (filled : Filled α) : Filled β :=
  ⟨f filled.target, filled.parts, filled.error⟩

namespace Argument

/-- Fill items until no part is left.  An item that uses no part is refused. -/
def fillVariadic (template : Argument) (fillItem : Parts → Filled Argument) (parts : Parts) :
    Filled (List Argument) :=
  if parts.left.isEmpty then ⟨[], parts, none⟩
  else if template.isOpenEnded then ⟨[], parts, some (.notLast template.kind)⟩
  else
    let item := fillItem parts
    match item.error with
    | some error => ⟨[], item.parts, some error⟩
    | none =>
      if item.parts.left.length < parts.left.length then
        (fillVariadic template fillItem item.parts).map (item.target :: ·)
      else ⟨[], item.parts, some (.emptyVariadicItem parts.used)⟩
termination_by parts.left.length

mutual

def fill (maxLength : Nat) : Argument → Parts → Filled Argument
  | single target, parts =>
    match parts.left with
    | [] => ⟨single target, parts, some (.notEnoughParts parts.used)⟩
    | part :: left =>
      let (target, error) := target.decodePayload maxLength part
      ⟨single target, ⟨left, parts.used + 1⟩, error.map .codec⟩
  | multi items, parts =>
    match checkPlacement items with
    | .error error => ⟨multi items, parts, some error⟩
    | .ok () => (fillItems maxLength items parts).map multi
  | absent, parts =>
    ⟨absent, parts, if parts.left.isEmpty then none else some .missingOptionalTarget⟩
  | present target, parts =>
    if parts.left.isEmpty then ⟨absent, parts, none⟩
    else (fill maxLength target parts).map present
  | variadic items none, parts => ⟨variadic items none, parts, some .missingTemplate⟩
  | variadic _ (some template), parts =>
    (fillVariadic template (fill maxLength template) parts).map (variadic · (some template))

def fillItems (maxLength : Nat) : List Argument → Parts → Filled (List Argument)
  | [], parts => ⟨[], parts, none⟩
  | target :: targets, parts =>
    let first := fill maxLength target parts
    match first.error with
    | some error => ⟨first.target :: targets, first.parts, some error⟩
    | none => (fillItems maxLength targets first.parts).map (first.target :: ·)

end

/-- Fill the arguments of a call, the first of which has the given index. -/
def fillFrom (maxLength index : Nat) : List Argument → Parts → Filled (List Argument)
  | [], parts => ⟨[], parts, none⟩
  | target :: targets, parts =>
    let first := target.fill maxLength parts
    match first.error with
    | some error => ⟨first.target :: targets, first.parts, some (.argument index error)⟩
    | none => (fillFrom maxLength (index + 1) targets first.parts).map (first.target :: ·)

end Argument

/-- Read the arguments of a call from its parts, all of which have to be used. -/
def deserialize (maxLength : Nat) (targets : List Argument) (parts : List Bytes) :
    List Argument × Option ArgumentError :=
  match checkPlacement targets with
  | .error error => (targets, some error)
  | .ok () =>
    let filled := Argument.fillFrom maxLength 0 targets { left := parts }
    match filled.error, filled.parts.left with
    | some error, _ => (filled.target, some error)
    | none, [] => (filled.target, none)
    | none, unused => (filled.target, some (.tooManyParts unused.length))

end ContractAbi
