import ContractAbi.Arguments.Basic
import ContractAbi.Codec.Encode

/-!
# Writing arguments to parts

The parts of a list of arguments are the top-level encodings of its single
values, from left to right.  There are none if an open-ended argument is
misplaced or a value has no encoding.
-/

namespace ContractAbi.Argument

mutual

def parts : Argument → Except ArgumentError (List Bytes)
  | single value =>
    match value.encode .topLevel with
    | .ok part => .ok [part]
    | .error error => .error (.codec error)
  | multi items => do
    checkPlacement items
    partsOfItems items
  | absent => .ok []
  | present content => content.parts
  | variadic items _ => partsOfVariadic items

def partsOfItems : List Argument → Except ArgumentError (List Bytes)
  | [] => .ok []
  | item :: items => do
    let first ← item.parts
    let others ← partsOfItems items
    return first ++ others

/-- The parts of variadic items, none of which may be open-ended. -/
def partsOfVariadic : List Argument → Except ArgumentError (List Bytes)
  | [] => .ok []
  | item :: items => do
    if item.isOpenEnded then throw (.notLast item.kind)
    let first ← item.parts
    let others ← partsOfVariadic items
    return first ++ others

end

/-- The parts of arguments the first of which has the given index. -/
def partsFrom (index : Nat) : List Argument → Except ArgumentError (List Bytes)
  | [] => .ok []
  | argument :: arguments => do
    let first ← argument.parts.mapError (.argument index)
    let others ← partsFrom (index + 1) arguments
    return first ++ others

end ContractAbi.Argument

namespace ContractAbi

def serialize (arguments : List Argument) : Except ArgumentError (List Bytes) := do
  checkPlacement arguments
  Argument.partsFrom 0 arguments

end ContractAbi
