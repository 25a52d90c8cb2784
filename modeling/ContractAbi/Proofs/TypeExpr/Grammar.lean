import ContractAbi.Proofs.TypeExpr.Tokens
import ContractAbi.Proofs.TypeExpr.Typing

/-!
# The grammar of type expressions

A type is derived from tokens by its word, or by its keyword with a parameter or with
fields in braces.  The scanners accept exactly the texts that spell a derivation: from
a successful scan the tokens are collected step by step, and along a derivation each
scanner finds the token that comes next.  Since every step uses a token, the bound on
the steps is never reached on the way.
-/

namespace ContractAbi.TypeExpr

mutual

/-- The tokens are an expression of the type. -/
inductive Derives : List Token → TypeExpr → Prop where
  | word {name word type} : (word, type) ∈ words → lowerCase name = lowerCase word →
      Derives [.name name] type
  | option {name tokens content} : lowerCase name = "option" → Derives tokens content →
      content.isOption = false →
      Derives (.name name :: .symbol '<' :: (tokens ++ [.symbol '>'])) (option content)
  | list {name tokens item} : lowerCase name = "list" → Derives tokens item →
      Derives (.name name :: .symbol '<' :: (tokens ++ [.symbol '>'])) (list item)
  | struct {name tokens fields} : lowerCase name = "struct" → DerivesFields tokens fields →
      (fields.map Prod.fst).Nodup →
      Derives (.name name :: .symbol '{' :: (tokens ++ [.symbol '}'])) (struct fields)
  | enum {name tokens fields} : lowerCase name = "enum" → DerivesFields tokens fields →
      (fields.map Prod.fst).Nodup →
      Derives (.name name :: .symbol '{' :: (tokens ++ [.symbol '}'])) (enum fields)

/-- The tokens are fields with commas between them, and perhaps one after the last. -/
inductive DerivesFields : List Token → FieldTypes → Prop where
  | none : DerivesFields [] []
  | last {name tokens type} : Derives tokens type →
      DerivesFields (.name name :: .symbol ':' :: tokens) [(name, type)]
  | comma {name tokens type others fields} : Derives tokens type → DerivesFields others fields →
      DerivesFields (.name name :: .symbol ':' :: (tokens ++ .symbol ',' :: others))
        ((name, type) :: fields)

end

/-- The text is an expression of the type. -/
def Denotes (text : List Char) (type : TypeExpr) : Prop :=
  ∃ tokens, Derives tokens type ∧ Spells tokens text

section Words

variable {name : String} {type : TypeExpr}

def keywords : List String := ["option", "list", "struct", "enum"]

/-- No two words of the language differ in case only, and none is a keyword. -/
theorem nodup_words : (words.map (fun entry => lowerCase entry.1) ++ keywords).Nodup := by
  decide

theorem mem_of_word? (known : word? name = some type) :
    ∃ word, (word, type) ∈ words ∧ lowerCase name = lowerCase word := by
  rcases Option.map_eq_some_iff.1 known with ⟨⟨word, found⟩, search, rfl⟩
  have same := List.find?_some search
  exact ⟨word, List.mem_of_find?_eq_some search, (beq_iff_eq.1 same).symm⟩

theorem word?_of_mem {word : String} (mem : (word, type) ∈ words)
    (same : lowerCase name = lowerCase word) : word? name = some type := by
  cases search : words.find? fun entry => lowerCase entry.1 == lowerCase name with
  | none =>
      have differ := List.find?_eq_none.1 search _ mem
      rw [same, beq_self_eq_true] at differ
      exact absurd rfl differ
  | some found =>
      have known := List.mem_of_find?_eq_some search
      have equal := List.find?_some search
      have unique := (List.nodup_append.1 nodup_words).1
      have entry := List.inj_on_of_nodup_map unique known mem ((beq_iff_eq.1 equal).trans same)
      rw [word?, search, entry]
      rfl

theorem word?_eq_none {keyword : String} (same : lowerCase name = keyword)
    (mem : keyword ∈ keywords) : word? name = none := by
  rw [word?, Option.map_eq_none_iff, List.find?_eq_none]
  intro entry known equal
  have apart := (List.nodup_append.1 nodup_words).2.2
  exact apart _ (List.mem_map_of_mem known) _ mem ((beq_iff_eq.1 equal).trans same)

end Words

/-! ## What has been scanned is derived -/

def TypesDerive (steps : Nat) : Prop :=
  ∀ {input type rest}, scanType steps input = .ok (type, rest) →
    ∃ tokens, Derives tokens type ∧
      ∀ {others}, Spells others rest → Spells (tokens ++ others) input

def ParametersDerive (steps : Nat) : Prop :=
  ∀ {input type rest}, scanParameter steps input = .ok (type, rest) →
    ∃ tokens, Derives tokens type ∧ ∀ {others}, Spells others rest →
      Spells (.symbol '<' :: (tokens ++ .symbol '>' :: others)) input

def FieldsDerive (steps : Nat) : Prop :=
  ∀ {before input fields rest}, scanFields steps before input = .ok (fields, rest) →
    ∃ tokens added, fields = before ++ added ∧ DerivesFields tokens added ∧
      ∀ {others}, Spells others rest → Spells (tokens ++ .symbol '}' :: others) input

section Soundness

variable {steps : Nat} {tokens others : List Token} {input rest : List Char} {symbol : Char}

theorem spells_of_scanName {name : String} (scanned : scanName input = .ok (name, rest))
    (spelled : Spells tokens rest) : Spells (.name name :: tokens) input :=
  spells_name_iff.2 ⟨rest, scanned, spelled⟩

theorem scanSymbol_eq_ok_iff :
    scanSymbol symbol input = .ok rest ↔ scanSymbol? symbol input = some rest := by
  rw [scanSymbol]
  split
  · rename_i found
    simp [found]
  · rename_i missing
    simp [missing]

theorem spells_of_scanSymbol (known : symbol ∈ symbols)
    (scanned : scanSymbol symbol input = .ok rest) (spelled : Spells tokens rest) :
    Spells (.symbol symbol :: tokens) input :=
  (spells_symbol_iff known).2 ⟨rest, scanSymbol_eq_ok_iff.1 scanned, spelled⟩

/-- One case for each step of the scanner, with the tokens that it has taken. -/
theorem typesDerive_succ (parameters : ParametersDerive steps) (fields : FieldsDerive steps) :
    TypesDerive (steps + 1) := by
  intro input type rest scanned
  cases typeStep_of_scanType scanned with
  | word named known =>
      rcases mem_of_word? known with ⟨word, mem, same⟩
      exact ⟨_, .word mem same, spells_of_scanName named⟩
  | option named keyword parameter notOption =>
      rcases parameters parameter with ⟨tokens, derived, spelled⟩
      refine ⟨_, .option keyword derived notOption, fun others => ?_⟩
      simpa using spells_of_scanName named (spelled others)
  | list named keyword parameter =>
      rcases parameters parameter with ⟨tokens, derived, spelled⟩
      refine ⟨_, .list keyword derived, fun others => ?_⟩
      simpa using spells_of_scanName named (spelled others)
  | struct named keyword opened listed =>
      rcases fields listed with ⟨tokens, added, rfl, derived, spelled⟩
      have distinct := ((formed_of_scan steps).2.2 .nil listed).distinct
      refine ⟨_, .struct keyword derived distinct, fun others => ?_⟩
      have body := spells_of_scanSymbol (by decide) opened (spelled others)
      simpa using spells_of_scanName named body
  | enum named keyword opened listed =>
      rcases fields listed with ⟨tokens, added, rfl, derived, spelled⟩
      have distinct := ((formed_of_scan steps).2.2 .nil listed).distinct
      refine ⟨_, .enum keyword derived distinct, fun others => ?_⟩
      have body := spells_of_scanSymbol (by decide) opened (spelled others)
      simpa using spells_of_scanName named body

theorem parametersDerive_succ (types : TypesDerive steps) : ParametersDerive (steps + 1) := by
  intro input type rest scanned
  rcases scanParameter_eq_ok scanned with ⟨inside, after, opened, typed, closed⟩
  rcases types typed with ⟨tokens, derived, spelled⟩
  refine ⟨tokens, derived, fun others => ?_⟩
  have back := spelled (spells_of_scanSymbol (by decide) closed others)
  exact spells_of_scanSymbol (by decide) opened back

theorem fieldsDerive_succ (types : TypesDerive steps) (fields : FieldsDerive steps) :
    FieldsDerive (steps + 1) := by
  intro before input found rest scanned
  cases fieldsStep_of_scanFields scanned with
  | none closed =>
      refine ⟨[], [], (List.append_nil _).symm, .none, fun others => ?_⟩
      exact (spells_symbol_iff (by decide)).2 ⟨_, closed, others⟩
  | comma named _ colon typed more listed =>
      rcases types typed with ⟨tokens, derived, spelled⟩
      rcases fields listed with ⟨_, added, rfl, addedDerived, addedSpelled⟩
      refine ⟨_, _, List.append_assoc _ _ _, .comma derived addedDerived, fun others => ?_⟩
      have back := spelled ((spells_symbol_iff (by decide)).2 ⟨_, more, addedSpelled others⟩)
      simpa using spells_of_scanName named (spells_of_scanSymbol (by decide) colon back)
  | last named _ colon typed closed =>
      rcases types typed with ⟨tokens, derived, spelled⟩
      refine ⟨_, _, rfl, .last derived, fun others => ?_⟩
      have back := spelled (spells_of_scanSymbol (by decide) closed others)
      exact spells_of_scanName named (spells_of_scanSymbol (by decide) colon back)

end Soundness

/-- The tokens in front of the rest are those of the type that was scanned. -/
theorem derives_of_scan (steps : Nat) :
    TypesDerive steps ∧ ParametersDerive steps ∧ FieldsDerive steps := by
  induction steps with
  | zero =>
      refine ⟨?_, ?_, ?_⟩
      · rintro _ _ _ ⟨⟩
      · rintro _ _ _ ⟨⟩
      · rintro _ _ _ _ ⟨⟩
  | succ steps ih =>
      rcases ih with ⟨types, parameters, fields⟩
      exact ⟨typesDerive_succ parameters fields, parametersDerive_succ types,
        fieldsDerive_succ types fields⟩

/-! ## What is derived is scanned -/

/-- The scanner takes the tokens of the type off every text that begins with them. -/
def Scans (type : TypeExpr) : Prop :=
  ∀ {tokens}, Derives tokens type → ∀ {steps others input}, tokens.length ≤ steps →
    Spells (tokens ++ others) input →
    ∃ rest, scanType steps input = .ok (type, rest) ∧ Spells others rest

section Completeness

variable {steps : Nat} {tokens others : List Token} {input : List Char} {symbol : Char}

theorem scanType_of_typeStep {type : TypeExpr} {rest : List Char}
    (step : TypeStep steps input type rest) : scanType (steps + 1) input = .ok (type, rest) := by
  cases step with
  | word named known =>
      simp only [scanType, named, ok_bind, known]
      rfl
  | option named keyword parameter notOption =>
      have noWord := word?_eq_none keyword (by decide)
      simp only [scanType, named, ok_bind, noWord, keyword, parameter, notOption]
      rfl
  | list named keyword parameter =>
      have noWord := word?_eq_none keyword (by decide)
      simp only [scanType, named, ok_bind, noWord, keyword, parameter]
      rfl
  | struct named keyword opened listed | enum named keyword opened listed =>
      have noWord := word?_eq_none keyword (by decide)
      simp only [scanType, named, ok_bind, noWord, keyword, opened, listed]
      rfl

theorem scanSymbol_of_spells (known : symbol ∈ symbols)
    (spelled : Spells (.symbol symbol :: tokens) input) :
    ∃ rest, scanSymbol symbol input = .ok rest ∧ Spells tokens rest := by
  rcases (spells_symbol_iff known).1 spelled with ⟨rest, scanned, others⟩
  exact ⟨rest, scanSymbol_eq_ok_iff.2 scanned, others⟩

theorem scanParameter_of_spells {content : TypeExpr} (scans : content.Scans)
    (derived : Derives tokens content) (enough : tokens.length ≤ steps)
    (spelled : Spells (.symbol '<' :: (tokens ++ .symbol '>' :: others)) input) :
    ∃ rest, scanParameter (steps + 1) input = .ok (content, rest) ∧ Spells others rest := by
  rcases scanSymbol_of_spells (by decide) spelled with ⟨inside, opened, spelled⟩
  rcases scans derived enough spelled with ⟨after, typed, spelled⟩
  rcases scanSymbol_of_spells (by decide) spelled with ⟨rest, closed, spelled⟩
  refine ⟨rest, ?_, spelled⟩
  simp only [scanParameter, opened, ok_bind, typed, closed]
  rfl

/-- A field is read up to its type, if its name is new. -/
theorem scanFields_field {before : FieldTypes} {name : String} {type : TypeExpr}
    (scans : type.Scans) (derived : Derives tokens type) (enough : tokens.length ≤ steps)
    (fresh : name ∉ before.map Prod.fst)
    (spelled : Spells (.name name :: .symbol ':' :: (tokens ++ others)) input) :
    ∃ rest, Spells others rest ∧ scanFields (steps + 1) before input =
      match scanSymbol? ',' rest with
      | some rest => scanFields steps (before ++ [(name, type)]) rest
      | none => do return (before ++ [(name, type)], ← scanSymbol '}' rest) := by
  have notClosed : scanSymbol? '}' input = none :=
    scanSymbol?_eq_none (by decide) spelled (by simp)
  rcases spells_name_iff.1 spelled with ⟨after, named, spelled⟩
  rcases scanSymbol_of_spells (by decide) spelled with ⟨inside, colon, spelled⟩
  rcases scans derived enough spelled with ⟨rest, typed, spelled⟩
  have unused : (before.any fun field => field.1 == name) = false := by
    rw [List.any_eq_false]
    intro field mem same
    exact fresh (List.mem_map.2 ⟨field, mem, beq_iff_eq.1 same⟩)
  refine ⟨rest, spelled, ?_⟩
  simp only [scanFields, notClosed, named, ok_bind, unused, colon, typed]
  rfl

/-- Fields are scanned up to the brace that closes them, if each of their types is and no name comes
twice. -/
theorem scanFields_of_spells {before fields : FieldTypes}
    (each : ∀ field ∈ fields, field.2.Scans) (derived : DerivesFields tokens fields)
    (distinct : ((before ++ fields).map Prod.fst).Nodup) (enough : tokens.length ≤ steps)
    (spelled : Spells (tokens ++ .symbol '}' :: others) input) :
    ∃ rest, scanFields (steps + 1) before input = .ok (before ++ fields, rest) ∧
      Spells others rest := by
  induction fields generalizing before tokens steps input with
  | nil =>
      cases derived
      rcases (spells_symbol_iff (by decide)).1 spelled with ⟨rest, closed, spelled⟩
      refine ⟨rest, ?_, spelled⟩
      rw [scanFields, closed, List.append_nil]
      rfl
  | cons field fields ih =>
      rw [List.forall_mem_cons] at each
      have fresh : field.1 ∉ before.map Prod.fst := by
        rw [List.map_append, List.nodup_append] at distinct
        intro used
        exact distinct.2.2 _ used _ List.mem_cons_self rfl
      cases derived with
      | @last name tokens type derived =>
          simp only [List.length_cons] at enough
          have shorter : tokens.length ≤ steps := by omega
          rcases scanFields_field each.1 derived shorter fresh spelled with ⟨after, spelled, same⟩
          have noMore : scanSymbol? ',' after = none :=
            scanSymbol?_eq_none (by decide) spelled (by simp)
          rcases scanSymbol_of_spells (by decide) spelled with ⟨rest, closed, spelled⟩
          refine ⟨rest, ?_, spelled⟩
          rw [same, noMore, closed]
          rfl
      | @comma name tokens type more fields derived moreDerived =>
          simp only [List.length_cons, List.length_append] at enough
          simp only [List.cons_append, List.append_assoc] at spelled
          have shorter : tokens.length ≤ steps := by omega
          rcases scanFields_field each.1 derived shorter fresh spelled with ⟨after, spelled, same⟩
          rcases (spells_symbol_iff (by decide)).1 spelled with ⟨inside, comma, spelled⟩
          -- A comma is a token, so there is a step left for what comes after it.
          obtain ⟨steps, rfl⟩ : ∃ fewer, steps = fewer + 1 := ⟨steps - 1, by omega⟩
          have distinctMore : ((before ++ [(name, type)] ++ fields).map Prod.fst).Nodup := by
            simpa using distinct
          have moreShorter : more.length ≤ steps := by omega
          rcases ih each.2 moreDerived distinctMore moreShorter spelled with
            ⟨rest, listed, spelled⟩
          refine ⟨rest, ?_, spelled⟩
          rw [same, comma]
          simpa using listed

section Expressions

variable {name : String}

theorem scanType_of_word {word : String} {type : TypeExpr} (mem : (word, type) ∈ words)
    (same : lowerCase name = lowerCase word) (enough : 1 ≤ steps)
    (spelled : Spells (.name name :: others) input) :
    ∃ rest, scanType steps input = .ok (type, rest) ∧ Spells others rest := by
  rcases Nat.exists_eq_add_of_le' enough with ⟨fewer, rfl⟩
  rcases spells_name_iff.1 spelled with ⟨rest, named, spelled⟩
  exact ⟨rest, scanType_of_typeStep (.word named (word?_of_mem mem same)), spelled⟩

theorem scanned_parameter {content : TypeExpr} (scans : content.Scans)
    (derived : Derives tokens content)
    (enough : (Token.name name :: .symbol '<' :: (tokens ++ [.symbol '>'])).length ≤ steps)
    (spelled : Spells (.name name :: .symbol '<' :: (tokens ++ [.symbol '>']) ++ others) input) :
    ∃ fewer after rest, steps = fewer + 1 ∧ scanName input = .ok (name, after) ∧
      scanParameter fewer after = .ok (content, rest) ∧ Spells others rest := by
  simp only [List.length_cons, List.length_append] at enough
  simp only [List.cons_append, List.append_assoc] at spelled
  obtain ⟨fewer, rfl⟩ : ∃ fewer, steps = fewer + 2 := ⟨steps - 2, by omega⟩
  have shorter : tokens.length ≤ fewer := by omega
  rcases spells_name_iff.1 spelled with ⟨after, named, spelled⟩
  rcases scanParameter_of_spells scans derived shorter spelled with ⟨rest, parameter, spelled⟩
  exact ⟨fewer + 1, after, rest, rfl, named, parameter, spelled⟩

theorem scanned_fields {fields : FieldTypes} (each : ∀ field ∈ fields, field.2.Scans)
    (derived : DerivesFields tokens fields) (distinct : (fields.map Prod.fst).Nodup)
    (enough : (Token.name name :: .symbol '{' :: (tokens ++ [.symbol '}'])).length ≤ steps)
    (spelled : Spells (.name name :: .symbol '{' :: (tokens ++ [.symbol '}']) ++ others) input) :
    ∃ fewer after body rest, steps = fewer + 1 ∧ scanName input = .ok (name, after) ∧
      scanSymbol '{' after = .ok body ∧ scanFields fewer [] body = .ok (fields, rest) ∧
      Spells others rest := by
  simp only [List.length_cons, List.length_append] at enough
  simp only [List.cons_append, List.append_assoc] at spelled
  obtain ⟨fewer, rfl⟩ : ∃ fewer, steps = fewer + 2 := ⟨steps - 2, by omega⟩
  have shorter : tokens.length ≤ fewer := by omega
  rcases spells_name_iff.1 spelled with ⟨after, named, spelled⟩
  rcases scanSymbol_of_spells (by decide) spelled with ⟨body, opened, spelled⟩
  have all : (([] ++ fields).map Prod.fst).Nodup := distinct
  rcases scanFields_of_spells each derived all shorter spelled with ⟨rest, listed, spelled⟩
  exact ⟨fewer + 1, after, body, rest, rfl, named, opened, listed, spelled⟩

end Expressions

/-- Each type is scanned from the tokens of its expressions, by induction on the type. -/
theorem scans (type : TypeExpr) : type.Scans := by
  -- Along the type and not the derivation, so that each field comes with its hypothesis.
  induction type with
  | bool | int | natural | integer | text | bytes | address =>
      intro tokens derived steps others input enough spelled
      cases derived with
      | word mem same => exact scanType_of_word mem same enough spelled
  | option content ih =>
      intro tokens derived steps others input enough spelled
      cases derived with
      | word mem same => exact scanType_of_word mem same enough spelled
      | option keyword derived notOption =>
          rcases scanned_parameter ih derived enough spelled with
            ⟨fewer, after, rest, rfl, named, parameter, spelled⟩
          exact ⟨rest, scanType_of_typeStep (.option named keyword parameter notOption), spelled⟩
  | list item ih =>
      intro tokens derived steps others input enough spelled
      cases derived with
      | word mem same => exact scanType_of_word mem same enough spelled
      | list keyword derived =>
          rcases scanned_parameter ih derived enough spelled with
            ⟨fewer, after, rest, rfl, named, parameter, spelled⟩
          exact ⟨rest, scanType_of_typeStep (.list named keyword parameter), spelled⟩
  | struct fields ih =>
      intro tokens derived steps others input enough spelled
      cases derived with
      | word mem same => exact scanType_of_word mem same enough spelled
      | struct keyword derived distinct =>
          rcases scanned_fields ih derived distinct enough spelled with
            ⟨fewer, after, body, rest, rfl, named, opened, listed, spelled⟩
          exact ⟨rest, scanType_of_typeStep (.struct named keyword opened listed), spelled⟩
  | enum fields ih =>
      intro tokens derived steps others input enough spelled
      cases derived with
      | word mem same => exact scanType_of_word mem same enough spelled
      | enum keyword derived distinct =>
          rcases scanned_fields ih derived distinct enough spelled with
            ⟨fewer, after, body, rest, rfl, named, opened, listed, spelled⟩
          exact ⟨rest, scanType_of_typeStep (.enum named keyword opened listed), spelled⟩

end Completeness

theorem length_le_of_spells {tokens : List Token} {text : List Char}
    (spelled : Spells tokens text) : tokens.length ≤ text.length := by
  induction spelled with
  | nil => exact Nat.zero_le _
  | name _ named _ _ ih =>
      have positive := List.length_pos_iff.2 named.1
      simp only [List.length_cons, List.length_append]
      omega
  | symbol _ _ _ ih =>
      simp only [List.length_cons, List.length_append]
      omega

/-- The texts that are read as the type are its expressions. -/
theorem parse_eq_ok_iff_denotes {text : String} {type : TypeExpr} :
    parse text = .ok type ↔ Denotes text.toList type := by
  constructor
  · intro parsed
    rcases scanType_of_parse parsed with ⟨rest, scanned, empty⟩
    rcases (derives_of_scan _).1 scanned with ⟨tokens, derived, spelled⟩
    have whole := spelled (spells_nil_iff.2 empty)
    rw [List.append_nil] at whole
    exact ⟨tokens, derived, whole⟩
  · rintro ⟨tokens, derived, spelled⟩
    have enough : tokens.length ≤ stepBound text.toList := by
      have short := length_le_of_spells spelled
      rw [stepBound]
      omega
    rw [← List.append_nil tokens] at spelled
    rcases scans type derived enough spelled with ⟨rest, scanned, spelled⟩
    exact parse_of_scanType scanned (spells_nil_iff.1 spelled)

end ContractAbi.TypeExpr
