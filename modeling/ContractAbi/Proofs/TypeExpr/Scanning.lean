import ContractAbi.Proofs.Except
import ContractAbi.TypeExpr.Parser

/-!
# One step of each scanner

The scanners of types, parameters and fields call each other with one step fewer.
What a scanner has found when it succeeds is stated once for each of them, so that a
property of all types that are read needs one case for each way of the grammar.
-/

namespace ContractAbi.TypeExpr

/-- How a type has been taken off a text: as a word, or by its keyword and what the keyword
calls for. -/
inductive TypeStep (steps : Nat) (input : List Char) : TypeExpr → List Char → Prop where
  | word {name type rest} (named : scanName input = .ok (name, rest))
      (known : word? name = some type) : TypeStep steps input type rest
  | option {name content after rest} (named : scanName input = .ok (name, after))
      (keyword : lowerCase name = "option")
      (parameter : scanParameter steps after = .ok (content, rest))
      (notOption : content.isOption = false) : TypeStep steps input (option content) rest
  | list {name item after rest} (named : scanName input = .ok (name, after))
      (keyword : lowerCase name = "list")
      (parameter : scanParameter steps after = .ok (item, rest)) :
      TypeStep steps input (list item) rest
  | struct {name fields after body rest} (named : scanName input = .ok (name, after))
      (keyword : lowerCase name = "struct") (opened : scanSymbol '{' after = .ok body)
      (listed : scanFields steps [] body = .ok (fields, rest)) :
      TypeStep steps input (struct fields) rest
  | enum {name fields after body rest} (named : scanName input = .ok (name, after))
      (keyword : lowerCase name = "enum") (opened : scanSymbol '{' after = .ok body)
      (listed : scanFields steps [] body = .ok (fields, rest)) :
      TypeStep steps input (enum fields) rest

/-- How fields have been taken off a text after the ones before them: there were no more, or
one with its type, which a comma or the closing brace follows. -/
inductive FieldsStep (steps : Nat) (before : FieldTypes) (input : List Char) :
    FieldTypes → List Char → Prop where
  | none {rest} (closed : scanSymbol? '}' input = some rest) :
      FieldsStep steps before input before rest
  | comma {name type fields after inside between others rest}
      (named : scanName input = .ok (name, after)) (fresh : name ∉ before.map Prod.fst)
      (colon : scanSymbol ':' after = .ok inside)
      (typed : scanType steps inside = .ok (type, between))
      (more : scanSymbol? ',' between = some others)
      (listed : scanFields steps (before ++ [(name, type)]) others = .ok (fields, rest)) :
      FieldsStep steps before input fields rest
  | last {name type after inside between rest}
      (named : scanName input = .ok (name, after)) (fresh : name ∉ before.map Prod.fst)
      (colon : scanSymbol ':' after = .ok inside)
      (typed : scanType steps inside = .ok (type, between))
      (closed : scanSymbol '}' between = .ok rest) :
      FieldsStep steps before input (before ++ [(name, type)]) rest

section Steps

variable {steps : Nat} {input rest : List Char}

/-- Everything that a successful scan of a type can have done. -/
theorem typeStep_of_scanType {type : TypeExpr}
    (scanned : scanType (steps + 1) input = .ok (type, rest)) : TypeStep steps input type rest := by
  simp only [scanType, bind_eq_ok_iff] at scanned
  rcases scanned with ⟨⟨name, after⟩, named, scanned⟩
  dsimp only at scanned
  split at scanned
  · rename_i known
    cases scanned
    exact .word named known
  · split at scanned
    · rename_i keyword
      rw [bind_eq_ok_iff] at scanned
      rcases scanned with ⟨⟨content, last⟩, parameter, scanned⟩
      dsimp only at scanned
      split at scanned
      · cases scanned
      · rename_i notOption
        cases scanned
        exact .option named keyword parameter (Bool.eq_false_iff.2 notOption)
    · rename_i keyword
      rw [bind_eq_ok_iff] at scanned
      rcases scanned with ⟨⟨item, last⟩, parameter, ⟨⟩⟩
      exact .list named keyword parameter
    · rename_i keyword
      simp only [bind_eq_ok_iff] at scanned
      rcases scanned with ⟨body, opened, ⟨fields, last⟩, listed, ⟨⟩⟩
      exact .struct named keyword opened listed
    · rename_i keyword
      simp only [bind_eq_ok_iff] at scanned
      rcases scanned with ⟨body, opened, ⟨fields, last⟩, listed, ⟨⟩⟩
      exact .enum named keyword opened listed
    · cases scanned

theorem scanParameter_eq_ok {type : TypeExpr}
    (scanned : scanParameter (steps + 1) input = .ok (type, rest)) :
    ∃ inside after, scanSymbol '<' input = .ok inside ∧ scanType steps inside = .ok (type, after) ∧
      scanSymbol '>' after = .ok rest := by
  simp only [scanParameter, bind_eq_ok_iff] at scanned
  rcases scanned with ⟨inside, opened, ⟨content, after⟩, typed, last, closed, ⟨⟩⟩
  exact ⟨inside, after, opened, typed, closed⟩

/-- Everything that a successful scan of fields can have done. -/
theorem fieldsStep_of_scanFields {before fields : FieldTypes}
    (scanned : scanFields (steps + 1) before input = .ok (fields, rest)) :
    FieldsStep steps before input fields rest := by
  rw [scanFields] at scanned
  split at scanned
  · rename_i closed
    cases scanned
    exact .none closed
  · simp only [bind_eq_ok_iff] at scanned
    rcases scanned with ⟨⟨name, after⟩, named, scanned⟩
    dsimp only at scanned
    split at scanned
    · cases scanned
    · rename_i fresh
      have unused : name ∉ before.map Prod.fst := by
        intro used
        rcases List.mem_map.1 used with ⟨field, mem, rfl⟩
        exact fresh (List.any_eq_true.2 ⟨field, mem, beq_self_eq_true field.1⟩)
      simp only [bind_eq_ok_iff] at scanned
      rcases scanned with ⟨inside, colon, ⟨type, between⟩, typed, scanned⟩
      dsimp only at scanned
      split at scanned
      · rename_i others more
        exact .comma named unused colon typed more scanned
      · rcases bind_eq_ok_iff.1 scanned with ⟨last, closed, ⟨⟩⟩
        exact .last named unused colon typed closed

end Steps

theorem scanType_of_parse {text : String} {type : TypeExpr} (parsed : parse text = .ok type) :
    ∃ rest, scanType (stepBound text.toList) text.toList = .ok (type, rest) ∧
      Text.trimStart rest = [] := by
  have scanned : scan text.toList = .ok type := mapError_eq_ok_iff.1 parsed
  rw [scan, bind_eq_ok_iff] at scanned
  rcases scanned with ⟨⟨found, rest⟩, taken, scanned⟩
  dsimp only at scanned
  split at scanned
  · rename_i empty
    cases scanned
    exact ⟨rest, taken, List.isEmpty_iff.1 empty⟩
  · cases scanned

theorem parse_of_scanType {text : String} {type : TypeExpr} {rest : List Char}
    (scanned : scanType (stepBound text.toList) text.toList = .ok (type, rest))
    (empty : Text.trimStart rest = []) : parse text = .ok type := by
  have whole : scan text.toList = .ok type := by
    rw [scan, bind_eq_ok_iff]
    exact ⟨(type, rest), scanned, by simp only [empty]; rfl⟩
  rw [parse, whole]
  rfl

end ContractAbi.TypeExpr
