import ContractAbi.Proofs.TypeExpr.Grammar
import ContractAbi.TypeExpr.Printer

/-!
# Written types read back

The written form of a well-formed type spells an expression of the type, whatever text
stands behind it, unless that text goes on with a name.  Reading gives well-formed types
only, so the written form of every type that has been read is read as the same type.
-/

namespace ContractAbi.TypeExpr

/-- In front of any text that does not continue a name, the written form of the type spells
the tokens. -/
def SpelledAs (type : TypeExpr) (tokens : List Token) : Prop :=
  ∀ {others rest}, EndsName rest → Spells others rest →
    Spells (tokens ++ others) (type.print ++ rest)

/-- The written form of the type spells an expression of it. -/
def Prints (type : TypeExpr) : Prop :=
  ∃ tokens, Derives tokens type ∧ type.SpelledAs tokens

section Spelling

variable {tokens others : List Token} {rest : List Char} {name : String} {symbol : Char}

theorem spells_name (named : IsName name) (ends : EndsName rest) (spelled : Spells tokens rest) :
    Spells (.name name :: tokens) (name.toList ++ rest) :=
  .name (List.forall_mem_nil _) named ends spelled

theorem spells_symbol (symbol : Char) (known : symbol ∈ symbols) (spelled : Spells tokens rest) :
    Spells (.symbol symbol :: tokens) (symbol :: rest) :=
  .symbol (List.forall_mem_nil _) known spelled

theorem spells_space (spelled : Spells tokens rest) : Spells tokens (' ' :: rest) := by
  have blank : Text.AllBlank [' '] := List.forall_mem_singleton.2 rfl
  cases spelled with
  | nil blanks => exact .nil (List.forall_mem_append.2 ⟨blank, blanks⟩)
  | name blanks named ends others =>
      exact .name (List.forall_mem_append.2 ⟨blank, blanks⟩) named ends others
  | symbol blanks known others =>
      exact .symbol (List.forall_mem_append.2 ⟨blank, blanks⟩) known others

theorem endsName_cons (next : Char) (ends : isNameCharacter next = false) (rest : List Char) :
    EndsName (next :: rest) := by
  rintro _ ⟨⟩
  exact ends

end Spelling

section Types

variable {tokens others : List Token} {rest : List Char} {name : String} {type : TypeExpr}

theorem isName_of_mem_words (mem : (name, type) ∈ words) : IsName name := by
  have each : ∀ entry ∈ words, IsName entry.1 := by decide
  exact each _ mem

theorem prints_word (mem : (name, type) ∈ words) (printed : type.print = name.toList) :
    type.Prints := by
  refine ⟨_, .word mem rfl, fun ends spelled => ?_⟩
  rw [printed]
  exact spells_name (isName_of_mem_words mem) ends spelled

theorem prints_int (type : IntType) : (int type).Prints := by
  have mem : (type.name, int type) ∈ words := by
    cases type <;> simp [words, IntType.name]
  exact prints_word mem rfl

theorem spells_parameter (named : IsName name) (spells : type.SpelledAs tokens)
    (spelled : Spells others rest) :
    Spells (.name name :: .symbol '<' :: (tokens ++ [.symbol '>']) ++ others)
      (name.toList ++ '<' :: (type.print ++ '>' :: rest)) := by
  have inside := spells (endsName_cons '>' (by decide) rest) (spells_symbol '>' (by decide) spelled)
  have whole := spells_name named (endsName_cons '<' (by decide) _)
    (spells_symbol '<' (by decide) inside)
  simpa using whole

theorem spells_field (named : IsName name) (spells : type.SpelledAs tokens)
    (ends : EndsName rest) (spelled : Spells others rest) :
    Spells (.name name :: .symbol ':' :: (tokens ++ others))
      (name.toList ++ ':' :: ' ' :: (type.print ++ rest)) :=
  spells_name named (endsName_cons ':' (by decide) _)
    (spells_symbol ':' (by decide) (spells_space (spells ends spelled)))

end Types

section Fields

variable {fields : FieldTypes}

/-- What is written behind the type of a field continues the fields by the others. -/
theorem prints_more (named : ∀ field ∈ fields, IsName field.1)
    (prints : ∀ field ∈ fields, field.2.Prints) :
    ∃ tokens, (∀ {name type front}, Derives front type →
        DerivesFields (.name name :: .symbol ':' :: (front ++ tokens)) ((name, type) :: fields)) ∧
      ∀ {others rest}, Spells others rest → EndsName (printMore fields ++ rest) ∧
        Spells (tokens ++ .symbol '}' :: others) (printMore fields ++ rest) := by
  induction fields with
  | nil =>
      refine ⟨[], fun derived => ?_, fun spelled => ⟨endsName_cons ' ' (by decide) _, ?_⟩⟩
      · rw [List.append_nil]
        exact .last derived
      · exact spells_space (spells_symbol '}' (by decide) spelled)
  | cons field fields ih =>
      rw [List.forall_mem_cons] at named prints
      rcases prints.1 with ⟨front, derived, spells⟩
      rcases ih named.2 prints.2 with ⟨more, derivedMore, spellsMore⟩
      refine ⟨_, fun first => .comma first (derivedMore derived),
        fun spelled => ⟨endsName_cons ',' (by decide) _, ?_⟩⟩
      rcases spellsMore spelled with ⟨ends, spelledMore⟩
      have second := spells_field named.1 spells ends spelledMore
      simpa [printMore] using spells_symbol ',' (by decide) (spells_space second)

theorem prints_braced (named : ∀ field ∈ fields, IsName field.1)
    (prints : ∀ field ∈ fields, field.2.Prints) :
    ∃ tokens, DerivesFields tokens fields ∧ ∀ {others rest}, Spells others rest →
      Spells (.symbol '{' :: (tokens ++ [.symbol '}']) ++ others) (printBraced fields ++ rest) := by
  cases fields with
  | nil =>
      refine ⟨[], .none, fun spelled => ?_⟩
      exact spells_symbol '{' (by decide) (spells_symbol '}' (by decide) spelled)
  | cons field fields =>
      rw [List.forall_mem_cons] at named prints
      rcases prints.1 with ⟨front, derived, spells⟩
      rcases prints_more named.2 prints.2 with ⟨more, derivedMore, spellsMore⟩
      refine ⟨_, derivedMore derived, fun spelled => ?_⟩
      rcases spellsMore spelled with ⟨ends, spelledMore⟩
      have first := spells_field named.1 spells ends spelledMore
      simpa [printBraced] using spells_symbol '{' (by decide) (spells_space first)

end Fields

section Keywords

variable (rest : List Char)

-- By computation: unfolding `print` by its equations is slow, for the words in all of them.

theorem print_option_append (content : TypeExpr) : (option content).print ++ rest =
    "Option".toList ++ '<' :: (content.print ++ '>' :: rest) := by
  have written : (option content).print = "Option".toList ++ ['<'] ++ content.print ++ ['>'] := rfl
  simp only [written, List.append_assoc, List.cons_append, List.nil_append]

theorem print_list_append (item : TypeExpr) : (list item).print ++ rest =
    "List".toList ++ '<' :: (item.print ++ '>' :: rest) := by
  have written : (list item).print = "List".toList ++ ['<'] ++ item.print ++ ['>'] := rfl
  simp only [written, List.append_assoc, List.cons_append, List.nil_append]

theorem print_struct_append (fields : FieldTypes) : (struct fields).print ++ rest =
    "struct".toList ++ ' ' :: (printBraced fields ++ rest) := by
  have written : (struct fields).print = "struct".toList ++ [' '] ++ printBraced fields := rfl
  simp only [written, List.append_assoc, List.cons_append, List.nil_append]

theorem print_enum_append (fields : FieldTypes) : (enum fields).print ++ rest =
    "enum".toList ++ ' ' :: (printBraced fields ++ rest) := by
  have written : (enum fields).print = "enum".toList ++ [' '] ++ printBraced fields := rfl
  simp only [written, List.append_assoc, List.cons_append, List.nil_append]

end Keywords

theorem spells_fields {keyword : String} {fields : FieldTypes} {tokens others : List Token}
    {rest : List Char} (named : IsName keyword)
    (spells : Spells (.symbol '{' :: (tokens ++ [.symbol '}']) ++ others)
      (printBraced fields ++ rest)) :
    Spells (.name keyword :: .symbol '{' :: (tokens ++ [.symbol '}']) ++ others)
      (keyword.toList ++ ' ' :: (printBraced fields ++ rest)) :=
  spells_name named (endsName_cons ' ' (by decide) _) (spells_space spells)

/-- Every well-formed type prints an expression of it, by induction on the type. -/
theorem prints_of_wellFormed {type : TypeExpr} (formed : type.WellFormed) : type.Prints := by
  induction type with
  | bool | natural | integer | text | bytes | address =>
      exact prints_word (by simp [words]) rfl
  | int type => exact prints_int type
  | option content ih =>
      cases formed with
      | option notOption contentFormed =>
          rcases ih contentFormed with ⟨tokens, derived, spells⟩
          have keyword : lowerCase "Option" = "option" := by decide
          have named : IsName "Option" := by decide
          refine ⟨_, .option keyword derived notOption, fun _ spelled => ?_⟩
          rw [print_option_append]
          exact spells_parameter named spells spelled
  | list item ih =>
      cases formed with
      | list itemFormed =>
          rcases ih itemFormed with ⟨tokens, derived, spells⟩
          have keyword : lowerCase "List" = "list" := by decide
          have named : IsName "List" := by decide
          refine ⟨_, .list keyword derived, fun _ spelled => ?_⟩
          rw [print_list_append]
          exact spells_parameter named spells spelled
  | struct fields ih =>
      cases formed with
      | struct distinct fieldsNamed fieldsFormed =>
          have prints := fun field mem => ih field mem (fieldsFormed field mem)
          rcases prints_braced fieldsNamed prints with ⟨tokens, derived, spells⟩
          have keyword : lowerCase "struct" = "struct" := by decide
          have named : IsName "struct" := by decide
          refine ⟨_, .struct keyword derived distinct, fun _ spelled => ?_⟩
          rw [print_struct_append]
          exact spells_fields named (spells spelled)
  | enum fields ih =>
      cases formed with
      | enum distinct fieldsNamed fieldsFormed =>
          have prints := fun field mem => ih field mem (fieldsFormed field mem)
          rcases prints_braced fieldsNamed prints with ⟨tokens, derived, spells⟩
          have keyword : lowerCase "enum" = "enum" := by decide
          have named : IsName "enum" := by decide
          refine ⟨_, .enum keyword derived distinct, fun _ spelled => ?_⟩
          rw [print_enum_append]
          exact spells_fields named (spells spelled)

/-- What is printed of a well-formed type is read as the type. -/
theorem parse_toText_of_wellFormed {type : TypeExpr} (formed : type.WellFormed) :
    parse type.toText = .ok type := by
  rcases prints_of_wellFormed formed with ⟨tokens, derived, spells⟩
  have nothing : EndsName [] := nofun
  have whole := spells nothing (.nil (List.forall_mem_nil _))
  rw [List.append_nil, List.append_nil] at whole
  rw [parse_eq_ok_iff_denotes, toText, String.toList_ofList]
  exact ⟨tokens, derived, whole⟩

/-- The written form of a well-formed type is read as the type.  Every type that is read is
well-formed, and so its written form stands for every text that it has been read from. -/
theorem written_reads_back (type : TypeExpr) :
    (type.WellFormed → parse type.toText = .ok type) ∧
      ∀ text, parse text = .ok type → type.WellFormed ∧ parse type.toText = parse text := by
  refine ⟨parse_toText_of_wellFormed, fun text parsed => ?_⟩
  have formed := wellFormed_of_parse parsed
  exact ⟨formed, (parse_toText_of_wellFormed formed).trans parsed.symm⟩

theorem written_reads_back_nested :
    let type := enum [("_1", option (list (option bool)))]
    let text := "ENUM{_1:option<LIST<Option<bool>>>,}"
    parse text = .ok type ∧ type.WellFormed ∧ parse type.toText = .ok type ∧
      parse type.toText = parse text := by
  intro type text
  have parsed : parse text = .ok type := by cbv
  have reads := written_reads_back type
  have formed := (reads.2 text parsed).1
  exact ⟨parsed, formed, reads.1 formed, (reads.2 text parsed).2⟩

end ContractAbi.TypeExpr
