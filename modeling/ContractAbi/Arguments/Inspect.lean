import ContractAbi.Arguments.Basic
import ContractAbi.Value.Inspect

/-!
# Arguments as diagnostic text

The same kind of text as for values.
-/

namespace ContractAbi.Argument

mutual

def inspect : Argument → String
  | single value => "Single(" ++ value.inspect ++ ")"
  | multi items => "Multi(" ++ bracketed (inspectItems items) ++ ")"
  | absent => "Optional(None)"
  | present content => "Optional(Some(" ++ content.inspect ++ "))"
  | variadic items template =>
    "Variadic(" ++ recordText "VariadicValues"
      [("items", bracketed (inspectItems items)), ("item_factory", templateText template)] ++ ")"

def inspectItems : List Argument → List String
  | [] => []
  | item :: items => item.inspect :: inspectItems items

end

end ContractAbi.Argument
