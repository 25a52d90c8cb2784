import ContractAbi.Proofs.TypeExpr.WellFormed
import ContractAbi.TypeExpr.Printer

/-!
# The characters of type expressions

Scanners take names, symbols and white space off the front of a text, so a text that
is a type expression has no other characters.  Among the others is the equals sign that
stands between the type of an argument and its document.  What a type is written with has
no line feeds either.
-/

namespace ContractAbi.TypeExpr

def symbols : List Char := ['<', '>', '{', '}', ':', ',']

/-- The characters of the language. -/
def isLetter (character : Char) : Bool :=
  isNameCharacter character || Text.isBlank character || symbols.contains character

/-- What has been taken off the front of the text has characters of the language only. -/
def Takes (input rest : List Char) : Prop :=
  ∃ front, input = front ++ rest ∧ ∀ character ∈ front, isLetter character = true

section Scanning

variable {input middle rest : List Char} {symbol : Char}

theorem Takes.trans (first : Takes input middle) (second : Takes middle rest) :
    Takes input rest := by
  rcases first with ⟨front, rfl, frontLetters⟩
  rcases second with ⟨back, rfl, backLetters⟩
  exact ⟨front ++ back, (List.append_assoc _ _ _).symm,
    List.forall_mem_append.2 ⟨frontLetters, backLetters⟩⟩

theorem takes_dropWhile {accepted : Char → Bool}
    (letters : ∀ character, accepted character = true → isLetter character = true)
    (input : List Char) : Takes input (input.dropWhile accepted) :=
  ⟨input.takeWhile accepted, List.takeWhile_append_dropWhile.symm,
    fun character mem => letters character (List.mem_takeWhile_imp mem)⟩

theorem takes_trimStart (input : List Char) : Takes input (Text.trimStart input) :=
  takes_dropWhile (fun character blank => by simp [isLetter, blank]) input

theorem takes_scanName {name : String} (scanned : scanName input = .ok (name, rest)) :
    Takes input rest := by
  simp only [scanName] at scanned
  split at scanned
  · cases scanned
  · cases scanned
    exact (takes_trimStart input).trans
      (takes_dropWhile (fun character letter => by simp [isLetter, letter]) _)

theorem takes_scanSymbol? (known : symbol ∈ symbols)
    (scanned : scanSymbol? symbol input = some rest) : Takes input rest := by
  have blanks := takes_trimStart input
  rw [scanSymbol?] at scanned
  split at scanned
  · cases scanned
  · rename_i character after same
    split at scanned
    · rename_i found
      cases scanned
      rw [same, found] at blanks
      refine blanks.trans ⟨[symbol], rfl, ?_⟩
      rw [List.forall_mem_singleton]
      simp [isLetter, known]
    · cases scanned

theorem takes_scanSymbol (known : symbol ∈ symbols)
    (scanned : scanSymbol symbol input = .ok rest) : Takes input rest := by
  rw [scanSymbol] at scanned
  split at scanned
  · rename_i after found
    cases scanned
    exact takes_scanSymbol? known found
  · cases scanned

end Scanning

/-! The scanners call each other with fewer steps. -/

def TypesTake (steps : Nat) : Prop :=
  ∀ {input type rest}, scanType steps input = .ok (type, rest) → Takes input rest

def ParametersTake (steps : Nat) : Prop :=
  ∀ {input type rest}, scanParameter steps input = .ok (type, rest) → Takes input rest

def FieldsTake (steps : Nat) : Prop :=
  ∀ {before input fields rest}, scanFields steps before input = .ok (fields, rest) →
    Takes input rest

section Steps

variable {steps : Nat}

theorem typesTake_succ (parameters : ParametersTake steps) (fields : FieldsTake steps) :
    TypesTake (steps + 1) := by
  intro input type rest scanned
  cases typeStep_of_scanType scanned with
  | word named _ => exact takes_scanName named
  | option named _ parameter _ => exact (takes_scanName named).trans (parameters parameter)
  | list named _ parameter => exact (takes_scanName named).trans (parameters parameter)
  | struct named _ opened listed | enum named _ opened listed =>
      exact (takes_scanName named).trans
        ((takes_scanSymbol (by decide) opened).trans (fields listed))

theorem parametersTake_succ (types : TypesTake steps) : ParametersTake (steps + 1) := by
  intro input type rest scanned
  rcases scanParameter_eq_ok scanned with ⟨inside, after, opened, typed, closed⟩
  exact (takes_scanSymbol (by decide) opened).trans
    ((types typed).trans (takes_scanSymbol (by decide) closed))

theorem fieldsTake_succ (types : TypesTake steps) (fields : FieldsTake steps) :
    FieldsTake (steps + 1) := by
  intro before input found rest scanned
  cases fieldsStep_of_scanFields scanned with
  | none closed => exact takes_scanSymbol? (by decide) closed
  | comma named _ colon typed more listed =>
      have front := (takes_scanName named).trans
        ((takes_scanSymbol (by decide) colon).trans (types typed))
      exact front.trans ((takes_scanSymbol? (by decide) more).trans (fields listed))
  | last named _ colon typed closed =>
      have front := (takes_scanName named).trans
        ((takes_scanSymbol (by decide) colon).trans (types typed))
      exact front.trans (takes_scanSymbol (by decide) closed)

end Steps

/-- A scanner takes letters, digits, blanks and the signs of the language, and no others. -/
theorem takes_of_scan (steps : Nat) :
    TypesTake steps ∧ ParametersTake steps ∧ FieldsTake steps := by
  induction steps with
  | zero =>
      refine ⟨?_, ?_, ?_⟩
      · rintro _ _ _ ⟨⟩
      · rintro _ _ _ ⟨⟩
      · rintro _ _ _ _ ⟨⟩
  | succ steps ih =>
      rcases ih with ⟨types, parameters, fields⟩
      exact ⟨typesTake_succ parameters fields, parametersTake_succ types,
        fieldsTake_succ types fields⟩

theorem isLetter_of_parse {text : String} {type : TypeExpr} (parsed : parse text = .ok type) :
    ∀ character ∈ text.toList, isLetter character = true := by
  rcases scanType_of_parse parsed with ⟨rest, scanned, empty⟩
  have whole := ((takes_of_scan _).1 scanned).trans (takes_trimStart rest)
  rw [empty] at whole
  rcases whole with ⟨front, same, letters⟩
  rw [same, List.append_nil]
  exact letters

/-! Written types are single lines. -/

section Lines

variable {fields : FieldTypes}

theorem newline_notMem_of_isName {name : String} (named : IsName name) : '\n' ∉ name.toList := by
  intro mem
  cases named.2 _ mem

theorem newline_notMem_printMore (named : ∀ field ∈ fields, IsName field.1)
    (each : ∀ field ∈ fields, '\n' ∉ field.2.print) : '\n' ∉ printMore fields := by
  induction fields with
  | nil => decide
  | cons field fields ih =>
      rw [List.forall_mem_cons] at named each
      simp [printMore, newline_notMem_of_isName named.1, each.1, ih named.2 each.2]

theorem newline_notMem_printBraced (named : ∀ field ∈ fields, IsName field.1)
    (each : ∀ field ∈ fields, '\n' ∉ field.2.print) : '\n' ∉ printBraced fields := by
  cases fields with
  | nil => decide
  | cons field fields =>
      rw [List.forall_mem_cons] at named each
      simp [printBraced, newline_notMem_of_isName named.1, each.1,
        newline_notMem_printMore named.2 each.2]

theorem newline_notMem_parameter {content : TypeExpr} (inside : '\n' ∉ content.print)
    (name : List Char) (named : '\n' ∉ name) : '\n' ∉ name ++ content.print ++ ['>'] := by
  simp [inside, named]

theorem newline_notMem_print {type : TypeExpr} (formed : type.WellFormed) :
    '\n' ∉ type.print := by
  induction formed with
  | bool | natural | integer | text | bytes | address => decide +kernel
  | int type => cases type <;> decide +kernel
  | option _ _ ih => exact newline_notMem_parameter ih "Option<".toList (by decide)
  | list _ ih => exact newline_notMem_parameter ih "List<".toList (by decide)
  | struct _ named _ each =>
      exact List.not_mem_append (by decide) (newline_notMem_printBraced named each)
  | enum _ named _ each =>
      exact List.not_mem_append (by decide) (newline_notMem_printBraced named each)

end Lines

end ContractAbi.TypeExpr
