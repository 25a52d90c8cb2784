import ContractAbi.Proofs.TypeExpr.Letters
import ContractAbi.Proofs.TypeExpr.WellFormed
import Mathlib

/-!
# Tokens of type expressions

A text is spelled from names and symbols, with white space around them.  A name ends
only where no further character could belong to it.  Taking a name or a symbol off the
text is the same as taking it off the tokens, so that the scanners can be compared with
a grammar of tokens.
-/

namespace ContractAbi

namespace Text

def AllBlank (text : List Char) : Prop :=
  ∀ character ∈ text, isBlank character = true

theorem trimStart_append {blanks : List Char} (blank : AllBlank blanks) (text : List Char) :
    trimStart (blanks ++ text) = trimStart text :=
  List.dropWhile_append_of_pos blank

theorem trimStart_cons {character : Char} (solid : isBlank character = false)
    (text : List Char) : trimStart (character :: text) = character :: text :=
  List.dropWhile_cons_of_neg (by simp [solid])

theorem trimStart_trimStart (text : List Char) : trimStart (trimStart text) = trimStart text :=
  List.dropWhile_idempotent isBlank text

theorem trimStart_eq_nil_iff {text : List Char} : trimStart text = [] ↔ AllBlank text :=
  List.dropWhile_eq_nil_iff

theorem exists_allBlank_append (text : List Char) :
    ∃ blanks, AllBlank blanks ∧ text = blanks ++ trimStart text :=
  ⟨text.takeWhile isBlank, fun _ mem => List.mem_takeWhile_imp mem,
    List.takeWhile_append_dropWhile.symm⟩

end Text

namespace TypeExpr

inductive Token where
  | name (name : String)
  | symbol (symbol : Char)

/-- The text does not go on with a character of a name. -/
def EndsName (text : List Char) : Prop :=
  ∀ next ∈ text.head?, isNameCharacter next = false

/-- The text consists of the tokens, with white space before each of them and at the end.
A name is a maximal run of its characters. -/
inductive Spells : List Token → List Char → Prop where
  | nil {blanks} : Text.AllBlank blanks → Spells [] blanks
  | name {blanks name tokens text} : Text.AllBlank blanks → IsName name → EndsName text →
      Spells tokens text → Spells (.name name :: tokens) (blanks ++ (name.toList ++ text))
  | symbol {blanks symbol tokens text} : Text.AllBlank blanks → symbol ∈ symbols →
      Spells tokens text → Spells (.symbol symbol :: tokens) (blanks ++ symbol :: text)

section Characters

variable {character : Char}

theorem not_isBlank_of_isNameCharacter (letter : isNameCharacter character = true) :
    Text.isBlank character = false := by
  simp only [isNameCharacter, Char.isAlphanum, Char.isAlpha, Char.isUpper, Char.isLower,
    Char.isDigit, Bool.or_eq_true, Bool.and_eq_true, decide_eq_true_eq, beq_iff_eq,
    UInt32.le_iff_toNat_le, ge_iff_le] at letter
  change (((65 ≤ character.toNat ∧ character.toNat ≤ 90) ∨
    (97 ≤ character.toNat ∧ character.toNat ≤ 122)) ∨
    (48 ≤ character.toNat ∧ character.toNat ≤ 57)) ∨ character = '_' at letter
  simp only [Text.isBlank, Bool.or_eq_false_iff, Bool.and_eq_false_iff, decide_eq_false_iff_not,
    beq_eq_false_iff_ne]
  rcases letter with letter | rfl
  · omega
  · decide

theorem not_isBlank_of_mem_symbols (known : character ∈ symbols) :
    Text.isBlank character = false := by
  have each : (symbols.all fun symbol => !Text.isBlank symbol) = true := by decide
  simpa using List.all_eq_true.1 each character known

theorem not_isNameCharacter_of_mem_symbols (known : character ∈ symbols) :
    isNameCharacter character = false := by
  have each : (symbols.all fun symbol => !isNameCharacter symbol) = true := by decide
  simpa using List.all_eq_true.1 each character known

end Characters

section Names

variable {name : String} {rest : List Char}

theorem IsName.trimStart_append (named : IsName name) (rest : List Char) :
    Text.trimStart (name.toList ++ rest) = name.toList ++ rest := by
  rcases named with ⟨nonempty, letters⟩
  cases characters : name.toList with
  | nil => exact absurd characters nonempty
  | cons first others =>
      rw [characters, List.forall_mem_cons] at letters
      exact Text.trimStart_cons (not_isBlank_of_isNameCharacter letters.1) _

/-- The maximal run of name characters is the name, if no such character follows it. -/
theorem takeWhile_append_of_ends {front : List Char}
    (letters : ∀ character ∈ front, isNameCharacter character = true)
    (ends : EndsName rest) :
    (front ++ rest).takeWhile isNameCharacter = front ∧
      (front ++ rest).dropWhile isNameCharacter = rest := by
  rw [List.takeWhile_append_of_pos letters, List.dropWhile_append_of_pos letters]
  cases rest with
  | nil => simp
  | cons next others =>
      have stop : isNameCharacter next = false := ends next rfl
      simp [stop]

theorem scanName_append {blanks : List Char} (blank : Text.AllBlank blanks) (named : IsName name)
    (ends : EndsName rest) :
    scanName (blanks ++ (name.toList ++ rest)) = .ok (name, rest) := by
  rcases takeWhile_append_of_ends named.2 ends with ⟨run, others⟩
  have nonempty : name.toList.isEmpty = false := by
    rw [List.isEmpty_eq_false_iff]
    exact named.1
  simp only [scanName, Text.trimStart_append blank, named.trimStart_append, run, others, nonempty,
    String.ofList_toList, Bool.false_eq_true, if_false]

theorem exists_of_scanName {input : List Char} (scanned : scanName input = .ok (name, rest)) :
    ∃ blanks, Text.AllBlank blanks ∧ input = blanks ++ (name.toList ++ rest) ∧ EndsName rest := by
  rcases Text.exists_allBlank_append input with ⟨blanks, blank, split⟩
  simp only [scanName] at scanned
  split at scanned
  · cases scanned
  · cases scanned
    refine ⟨blanks, blank, ?_, ?_⟩
    · rw [String.toList_ofList, List.takeWhile_append_dropWhile, ← split]
    · intro next first
      have stops := List.head?_dropWhile_not isNameCharacter (Text.trimStart input)
      rw [Option.mem_def] at first
      rwa [first] at stops

end Names

section Spelling

variable {tokens : List Token} {text : List Char} {symbol : Char}

theorem spells_nil_iff : Spells [] text ↔ Text.trimStart text = [] := by
  rw [Text.trimStart_eq_nil_iff]
  constructor
  · rintro ⟨blank⟩
    exact blank
  · exact .nil

/-- The first token is a name exactly if the scanner finds it. -/
theorem spells_name_iff {name : String} :
    Spells (.name name :: tokens) text ↔
      ∃ rest, scanName text = .ok (name, rest) ∧ Spells tokens rest := by
  constructor
  · intro spelled
    cases spelled with
    | name blank named ends others => exact ⟨_, scanName_append blank named ends, others⟩
  · rintro ⟨rest, scanned, others⟩
    rcases exists_of_scanName scanned with ⟨blanks, blank, rfl, ends⟩
    exact .name blank (isName_of_scanName scanned) ends others

theorem scanSymbol?_eq_some_iff {rest : List Char} :
    scanSymbol? symbol text = some rest ↔ Text.trimStart text = symbol :: rest := by
  rw [scanSymbol?]
  split
  · rename_i empty
    simp [empty]
  · rename_i character others same
    rw [same]
    split
    · rename_i found
      simp [found]
    · rename_i other
      simp [other]

/-- The first token is a symbol exactly if the scanner finds it. -/
theorem spells_symbol_iff (known : symbol ∈ symbols) :
    Spells (.symbol symbol :: tokens) text ↔
      ∃ rest, scanSymbol? symbol text = some rest ∧ Spells tokens rest := by
  constructor
  · intro spelled
    cases spelled with
    | symbol blank known others =>
        refine ⟨_, ?_, others⟩
        rw [scanSymbol?_eq_some_iff, Text.trimStart_append blank,
          Text.trimStart_cons (not_isBlank_of_mem_symbols known)]
  · rintro ⟨rest, scanned, others⟩
    rw [scanSymbol?_eq_some_iff] at scanned
    rcases Text.exists_allBlank_append text with ⟨blanks, blank, split⟩
    rw [split, scanned]
    exact .symbol blank known others

/-- A symbol is not found where another token comes first. -/
theorem scanSymbol?_eq_none {token : Token} (known : symbol ∈ symbols)
    (spelled : Spells (token :: tokens) text) (differ : token ≠ .symbol symbol) :
    scanSymbol? symbol text = none := by
  rw [Option.eq_none_iff_forall_ne_some]
  intro rest scanned
  rw [scanSymbol?_eq_some_iff] at scanned
  cases spelled with
  | @name _ name _ _ blank named ends others =>
      rw [Text.trimStart_append blank, named.trimStart_append] at scanned
      -- The name is not empty, so the symbol would be its first character.
      rcases List.exists_cons_of_ne_nil named.1 with ⟨first, last, characters⟩
      rw [characters, List.cons_append, List.cons.injEq] at scanned
      have letter := named.2 first (characters ▸ List.mem_cons_self)
      rw [scanned.1, not_isNameCharacter_of_mem_symbols known] at letter
      cases letter
  | symbol blank other others =>
      rw [Text.trimStart_append blank,
        Text.trimStart_cons (not_isBlank_of_mem_symbols other), List.cons.injEq] at scanned
      exact differ (congrArg Token.symbol scanned.1)

end Spelling

end TypeExpr

end ContractAbi
