import ContractAbi.Proofs.Text
import ContractAbi.Proofs.TypeExpr.Grammar

/-!
# Reading by byte offsets

A reader with a cursor keeps the text as it is and its place as a byte offset.  At every
step it cuts the text at the cursor, which is only possible between two characters.  It
always stands where the text that remains for the scanners begins, so no cut fails, it comes
to an end, and it gives the same type or the same error.
-/

namespace ContractAbi.TypeExpr

/-- The two parts of a text at a byte offset.  There are none inside a character, nor
behind the end. -/
def cut? : List Char → Nat → Option (List Char × List Char)
  | input, 0 => some ([], input)
  | [], _ + 1 => none
  | character :: input, offset + 1 =>
    if character.utf8Size ≤ offset + 1 then
      (cut? input (offset + 1 - character.utf8Size)).map fun (front, back) =>
        (character :: front, back)
    else none

namespace Cursor

/-- What comes of reading: nothing if a cut is impossible or the steps do not suffice. -/
abbrev Outcome (α : Type) := ExceptT ParseError Option α

def sliceFrom (text : List Char) (offset : Nat) : Outcome (List Char) :=
  ExceptT.lift ((cut? text offset).map (·.2))

def sliceTo (text : List Char) (length : Nat) : Outcome (List Char) :=
  ExceptT.lift ((cut? text length).map (·.1))

def skipBlanks (text : List Char) (offset : Nat) : Outcome Nat := do
  let rest ← sliceFrom text offset
  return offset + (byteSize rest - byteSize (Text.trimStart rest))

def readName (text : List Char) (offset : Nat) : Outcome (String × Nat) := do
  let offset ← skipBlanks text offset
  let rest ← sliceFrom text offset
  let length := byteSize (rest.takeWhile isNameCharacter)
  if length = 0 then throw ⟨offset, .expectedName⟩
  let name ← sliceTo rest length
  return (String.ofList name, offset + length)

/-- Go on behind the symbol if it comes next.  The white space before it is skipped in
either case. -/
def eat (symbol : Char) (text : List Char) (offset : Nat) : Outcome (Bool × Nat) := do
  let offset ← skipBlanks text offset
  let rest ← sliceFrom text offset
  if rest.head? = some symbol then return (true, offset + symbol.utf8Size)
  return (false, offset)

def expect (symbol : Char) (text : List Char) (offset : Nat) : Outcome Nat := do
  let (eaten, offset) ← eat symbol text offset
  if eaten then return offset
  throw ⟨offset, .expected symbol⟩

def exhausted {α : Type} : Outcome α :=
  ExceptT.lift none

mutual

def readType : Nat → List Char → Nat → Outcome (TypeExpr × Nat)
  | 0, _, _ => exhausted
  | steps + 1, input, offset => do
    let start ← skipBlanks input offset
    let (name, offset) ← readName input start
    match word? name with
    | some type => return (type, offset)
    | none =>
      match lowerCase name with
      | "option" =>
        let (content, after) ← readParameter steps input offset
        if content.isOption then throw ⟨offset, .nestedOption⟩
        return (option content, after)
      | "list" =>
        let (item, after) ← readParameter steps input offset
        return (list item, after)
      | "struct" =>
        let (fields, after) ← readFields steps input [] (← expect '{' input offset)
        return (struct fields, after)
      | "enum" =>
        let (fields, after) ← readFields steps input [] (← expect '{' input offset)
        return (enum fields, after)
      | _ => throw ⟨start, .unknownType name⟩

def readParameter : Nat → List Char → Nat → Outcome (TypeExpr × Nat)
  | 0, _, _ => exhausted
  | steps + 1, input, offset => do
    let (type, offset) ← readType steps input (← expect '<' input offset)
    return (type, ← expect '>' input offset)

def readFields : Nat → List Char → FieldTypes → Nat → Outcome (FieldTypes × Nat)
  | 0, _, _, _ => exhausted
  | steps + 1, input, before, offset => do
    let offset ← skipBlanks input offset
    let (closed, start) ← eat '}' input offset
    if closed then return (before, start)
    let (name, offset) ← readName input start
    if before.any (·.1 == name) then throw ⟨start, .duplicateField name⟩
    let (type, offset) ← readType steps input (← expect ':' input offset)
    let fields := before ++ [(name, type)]
    let offset ← skipBlanks input offset
    let (more, offset) ← eat ',' input offset
    if more then readFields steps input fields offset
    else return (fields, ← expect '}' input offset)

end

def parse (steps : Nat) (text : List Char) : Outcome TypeExpr := do
  let (type, offset) ← readType steps text 0
  let offset ← skipBlanks text offset
  if offset = byteSize text then return type
  throw ⟨offset, .trailingInput⟩

end Cursor

section Sizes

variable {front rest : List Char}

theorem byteSize_append (front rest : List Char) :
    byteSize (front ++ rest) = byteSize front + byteSize rest := by
  rw [byteSize, Utf8.encode, List.flatMap_append, List.length_append]
  rfl

theorem byteSize_cons (character : Char) (rest : List Char) :
    byteSize (character :: rest) = character.utf8Size + byteSize rest := by
  rw [byteSize, Utf8.encode, List.flatMap_cons, List.length_append, String.length_utf8EncodeChar]
  rfl

theorem byteSize_eq_zero_iff : byteSize front = 0 ↔ front = [] := by
  cases front with
  | nil => exact iff_of_true rfl rfl
  | cons character front =>
      have positive := character.utf8Size_pos
      rw [byteSize_cons]
      simp only [reduceCtorEq, iff_false]
      omega

theorem utf8ByteSize_eq_byteSize (front : List Char) :
    (String.ofList front).utf8ByteSize = byteSize front := by
  rw [← String.size_toByteArray, String.toByteArray_ofList, List.utf8Encode,
    List.size_toByteArray]
  rfl

/-- Behind the characters in front the text can be cut. -/
theorem cut?_append (front rest : List Char) :
    cut? (front ++ rest) (byteSize front) = some (front, rest) := by
  induction front with
  | nil =>
      change cut? rest 0 = _
      cases rest <;> rfl
  | cons character front ih =>
      have positive := character.utf8Size_pos
      obtain ⟨offset, size⟩ : ∃ offset, byteSize (character :: front) = offset + 1 :=
        ⟨byteSize (character :: front) - 1, by rw [byteSize_cons]; omega⟩
      have left : offset + 1 - character.utf8Size = byteSize front := by
        rw [← size, byteSize_cons]
        omega
      have fits : character.utf8Size ≤ offset + 1 := by
        rw [← size, byteSize_cons]
        omega
      rw [size, List.cons_append, cut?, if_pos fits, left, ih]
      rfl

end Sizes

/-- From the offset on the rest of the text remains. -/
def Remains (input : List Char) (offset : Nat) (rest : List Char) : Prop :=
  ∃ front, input = front ++ rest ∧ offset = byteSize front

namespace Remains

variable {input front rest : List Char} {offset : Nat}

theorem start (input : List Char) : Remains input 0 input :=
  ⟨[], rfl, rfl⟩

theorem advance (remains : Remains input offset (front ++ rest)) :
    Remains input (offset + byteSize front) rest := by
  rcases remains with ⟨before, rfl, rfl⟩
  exact ⟨before ++ front, (List.append_assoc _ _ _).symm, (byteSize_append _ _).symm⟩

theorem byteSize_eq (remains : Remains input offset rest) :
    byteSize input = offset + byteSize rest := by
  rcases remains with ⟨front, rfl, rfl⟩
  exact byteSize_append front rest

theorem offset_eq (remains : Remains input offset rest) :
    byteSize input - byteSize rest = offset := by
  have size := remains.byteSize_eq
  omega

theorem isValid {text : String} (remains : Remains text.toList offset rest) :
    (⟨offset⟩ : String.Pos.Raw).IsValid text := by
  rcases remains with ⟨front, same, rfl⟩
  rw [String.Pos.Raw.isValid_iff_exists_append]
  refine ⟨String.ofList front, String.ofList rest, ?_, ?_⟩
  · rw [← String.ofList_append, ← same, String.ofList_toList]
  · rw [String.rawEndPos, utf8ByteSize_eq_byteSize]

end Remains

/-! ## One step of each reader -/

namespace Cursor

section Slicing

variable {input front rest : List Char} {offset : Nat} {symbol : Char}

theorem sliceFrom_eq (remains : Remains input offset rest) :
    sliceFrom input offset = pure rest := by
  rcases remains with ⟨front, rfl, rfl⟩
  rw [sliceFrom, cut?_append]
  rfl

theorem sliceTo_eq (front rest : List Char) :
    sliceTo (front ++ rest) (byteSize front) = pure front := by
  rw [sliceTo, cut?_append]
  rfl

theorem skipBlanks_eq (remains : Remains input offset rest) :
    ∃ after, skipBlanks input offset = pure after ∧
      Remains input after (Text.trimStart rest) := by
  rcases Text.exists_allBlank_append rest with ⟨blanks, _, split⟩
  have size : byteSize rest - byteSize (Text.trimStart rest) = byteSize blanks := by
    have whole := congrArg byteSize split
    rw [byteSize_append] at whole
    omega
  refine ⟨offset + byteSize blanks, ?_, (split ▸ remains).advance⟩
  rw [skipBlanks, sliceFrom_eq remains, pure_bind, size]

theorem head?_ne_of_scanSymbol? (missing : scanSymbol? symbol rest = none) :
    (Text.trimStart rest).head? ≠ some symbol := by
  intro first
  rcases List.head?_eq_some_iff.1 first with ⟨others, same⟩
  rw [scanSymbol?_eq_some_iff.2 same] at missing
  cases missing

theorem eat_of_some {others : List Char} (remains : Remains input offset rest)
    (found : scanSymbol? symbol rest = some others) :
    ∃ after, eat symbol input offset = pure (true, after) ∧ Remains input after others := by
  rcases skipBlanks_eq remains with ⟨start, skipped, standing⟩
  rw [scanSymbol?_eq_some_iff.1 found] at standing
  have size : byteSize [symbol] = symbol.utf8Size := byteSize_cons symbol []
  refine ⟨start + symbol.utf8Size, ?_, size ▸ Remains.advance standing⟩
  rw [eat, skipped, pure_bind, sliceFrom_eq standing, pure_bind, List.head?_cons, if_pos rfl]

theorem eat_of_none (remains : Remains input offset rest)
    (missing : scanSymbol? symbol rest = none) :
    ∃ after, eat symbol input offset = pure (false, after) ∧
      Remains input after (Text.trimStart rest) := by
  rcases skipBlanks_eq remains with ⟨start, skipped, standing⟩
  refine ⟨start, ?_, standing⟩
  rw [eat, skipped, pure_bind, sliceFrom_eq standing, pure_bind,
    if_neg (head?_ne_of_scanSymbol? missing)]

end Slicing

/-- The reader does what the scanner does: their results are the same in this sense, or
their errors are, at the offset where the text of the fault remains. -/
inductive Agrees {α β : Type} (input : List Char) (same : α → β → Prop) :
    Except Fault α → Outcome β → Prop where
  | ok {value result} : same value result → Agrees input same (.ok value) (pure result)
  | error {problem rest offset} : Remains input offset rest →
      Agrees input same (.error ⟨problem, rest⟩) (throw ⟨offset, problem⟩)

/-- What has been read is the same, and the same text remains. -/
def Lands {α : Type} (input : List Char) (scanned : α × List Char) (read : α × Nat) : Prop :=
  scanned.1 = read.1 ∧ Remains input read.2 scanned.2

section Agreement

variable {input rest : List Char} {offset : Nat}

theorem Agrees.of_eq {α β : Type} {same : α → β → Prop} {scanned : Except Fault α}
    {read : Outcome β} (problem : Problem) (remains : Remains input offset rest)
    (fails : scanned = .error ⟨problem, rest⟩) (throws : read = throw ⟨offset, problem⟩) :
    Agrees input same scanned read := by
  rw [fails, throws]
  exact .error remains

theorem Agrees.bind {α β γ δ : Type} {same : α → β → Prop} {next : γ → δ → Prop}
    {scanned : Except Fault α} {read : Outcome β} {scanNext : α → Except Fault γ}
    {readNext : β → Outcome δ} (first : Agrees input same scanned read)
    (others : ∀ value result, scanned = .ok value → same value result →
      Agrees input next (scanNext value) (readNext result)) :
    Agrees input next (scanned >>= scanNext) (read >>= readNext) := by
  cases first with
  | ok equal => exact others _ _ rfl equal
  | error remains => exact .error remains

theorem scanName_trimStart (rest : List Char) :
    scanName (Text.trimStart rest) = scanName rest := by
  rw [scanName, Text.trimStart_trimStart]
  rfl

theorem scanSymbol?_trimStart (symbol : Char) (rest : List Char) :
    scanSymbol? symbol (Text.trimStart rest) = scanSymbol? symbol rest := by
  rw [scanSymbol?, Text.trimStart_trimStart]
  rfl

theorem scanSymbol_trimStart (symbol : Char) (rest : List Char) :
    scanSymbol symbol (Text.trimStart rest) = scanSymbol symbol rest := by
  rw [scanSymbol, scanSymbol?_trimStart, Text.trimStart_trimStart]
  rfl

theorem agrees_readName (remains : Remains input offset rest) :
    Agrees input (Lands input) (scanName rest) (readName input offset) := by
  rcases skipBlanks_eq remains with ⟨start, skipped, standing⟩
  rw [readName, skipped, pure_bind, sliceFrom_eq standing, pure_bind]
  simp only [scanName]
  generalize Text.trimStart rest = rest at standing
  have split : rest.takeWhile isNameCharacter ++ rest.dropWhile isNameCharacter = rest :=
    List.takeWhile_append_dropWhile
  split
  · rename_i empty
    rw [if_pos (byteSize_eq_zero_iff.2 (List.isEmpty_iff.1 empty))]
    exact .error standing
  · rename_i nonempty
    have cut := sliceTo_eq (rest.takeWhile isNameCharacter) (rest.dropWhile isNameCharacter)
    rw [split] at cut
    rw [if_neg fun zero => nonempty (List.isEmpty_iff.2 (byteSize_eq_zero_iff.1 zero)), cut]
    rw [← split] at standing
    exact .ok ⟨rfl, standing.advance⟩

theorem agrees_expect (remains : Remains input offset rest) (symbol : Char) :
    Agrees input (fun rest offset => Remains input offset rest) (scanSymbol symbol rest)
      (expect symbol input offset) := by
  rw [scanSymbol]
  cases search : scanSymbol? symbol rest with
  | some others =>
      rcases eat_of_some remains search with ⟨after, eaten, standing⟩
      rw [expect, eaten]
      exact .ok standing
  | none =>
      rcases eat_of_none remains search with ⟨after, eaten, standing⟩
      rw [expect, eaten]
      exact .error standing

end Agreement

/-! ## Whole types

With more steps than characters neither the scanner nor the reader runs out of them, since
each step takes a token. -/

def TypesAgree (input : List Char) (bound steps : Nat) : Prop :=
  ∀ {rest offset}, Remains input offset rest → rest.length < bound → rest.length < steps →
    Agrees input (Lands input) (scanType bound rest) (readType steps input offset)

def ParametersAgree (input : List Char) (bound steps : Nat) : Prop :=
  ∀ {rest offset}, Remains input offset rest → rest.length < bound → rest.length < steps →
    Agrees input (Lands input) (scanParameter bound rest) (readParameter steps input offset)

def FieldsAgree (input : List Char) (bound steps : Nat) : Prop :=
  ∀ {before rest offset}, Remains input offset rest → rest.length < bound → rest.length < steps →
    Agrees input (Lands input) (scanFields bound before rest)
      (readFields steps input before offset)

section Steps

variable {input rest after : List Char} {bound steps offset : Nat}

theorem length_lt_of_scanName {name : String} (scanned : scanName rest = .ok (name, after)) :
    after.length < rest.length := by
  rcases exists_of_scanName scanned with ⟨blanks, _, rfl, _⟩
  have positive := List.length_pos_iff.2 (isName_of_scanName scanned).1
  simp only [List.length_append]
  omega

theorem length_lt_of_scanSymbol? {symbol : Char} (scanned : scanSymbol? symbol rest = some after) :
    after.length < rest.length := by
  have shorter := (Text.trimStart_sublist rest).length_le
  rw [scanSymbol?_eq_some_iff.1 scanned] at shorter
  exact shorter

theorem length_le_of_scanType {type : TypeExpr}
    (scanned : scanType steps rest = .ok (type, after)) : after.length ≤ rest.length := by
  rcases (takes_of_scan steps).1 scanned with ⟨front, rfl, _⟩
  simp

/-- Fields in braces, for both kinds of types that have fields. -/
theorem agrees_braced (fields : FieldsAgree input bound steps) (build : FieldTypes → TypeExpr)
    (remains : Remains input offset rest) (bounded : rest.length ≤ bound)
    (enough : rest.length ≤ steps) :
    Agrees input (Lands input)
      (do
        let found ← scanFields bound [] (← scanSymbol '{' rest)
        return (build found.1, found.2))
      (do
        let found ← readFields steps input [] (← expect '{' input offset)
        return (build found.1, found.2)) := by
  refine (agrees_expect remains '{').bind ?_
  intro body inside opened standing
  have shorter := length_lt_of_scanSymbol? (scanSymbol_eq_ok_iff.1 opened)
  refine (fields standing (by omega) (by omega)).bind ?_
  rintro ⟨found, last⟩ ⟨_, finish⟩ _ ⟨rfl, ended⟩
  exact .ok ⟨rfl, ended⟩

/-- The keywords are tried in the order of the scanner, after the words. -/
theorem typesAgree_succ (parameters : ParametersAgree input bound steps)
    (fields : FieldsAgree input bound steps) : TypesAgree input (bound + 1) (steps + 1) := by
  intro rest offset remains bounded enough
  rcases skipBlanks_eq remains with ⟨start, skipped, standing⟩
  have nameAgrees := agrees_readName standing
  rw [scanName_trimStart] at nameAgrees
  rw [readType, skipped, pure_bind, scanType]
  refine nameAgrees.bind ?_
  rintro ⟨name, after⟩ ⟨_, position⟩ named ⟨rfl, landed⟩
  have shorter := length_lt_of_scanName named
  dsimp only at landed ⊢
  cases word? name with
  | some type => exact .ok ⟨rfl, landed⟩
  | none =>
      dsimp only
      generalize lowerCase name = keyword
      by_cases known : keyword ∈ ["option", "list", "struct", "enum"]
      · split
        · refine (parameters landed (by omega) (by omega)).bind ?_
          rintro ⟨content, last⟩ ⟨_, finish⟩ _ ⟨rfl, ended⟩
          dsimp only
          split
          · exact .error landed
          · exact .ok ⟨rfl, ended⟩
        · refine (parameters landed (by omega) (by omega)).bind ?_
          rintro ⟨item, last⟩ ⟨_, finish⟩ _ ⟨rfl, ended⟩
          exact .ok ⟨rfl, ended⟩
        · exact agrees_braced fields struct landed (by omega) (by omega)
        · exact agrees_braced fields enum landed (by omega) (by omega)
        · rename_i notOption notList notStruct notEnum
          exact absurd known (by simpa using ⟨notOption, notList, notStruct, notEnum⟩)
      · refine .of_eq (.unknownType name) standing ?_ ?_
        · split <;> first | rfl | simp at known
        · split <;> first | rfl | simp at known

theorem parametersAgree_succ (types : TypesAgree input bound steps) :
    ParametersAgree input (bound + 1) (steps + 1) := by
  intro rest offset remains bounded enough
  rw [readParameter, scanParameter]
  refine (agrees_expect remains '<').bind ?_
  intro body inside opened standing
  have shorter := length_lt_of_scanSymbol? (scanSymbol_eq_ok_iff.1 opened)
  refine (types standing (by omega) (by omega)).bind ?_
  rintro ⟨type, last⟩ ⟨_, finish⟩ _ ⟨rfl, ended⟩
  refine (agrees_expect ended '>').bind ?_
  intro outside position _ landed
  exact .ok ⟨rfl, landed⟩

/-- A closing brace, a field and what follows it are read as they are scanned. -/
theorem fieldsAgree_succ (types : TypesAgree input bound steps) (fields : FieldsAgree input bound steps) :
    FieldsAgree input (bound + 1) (steps + 1) := by
  intro before rest offset remains bounded enough
  rcases skipBlanks_eq remains with ⟨position, skipped, standing⟩
  rw [readFields, skipped, pure_bind, scanFields]
  cases search : scanSymbol? '}' rest with
  | some others =>
      rw [← scanSymbol?_trimStart] at search
      rcases eat_of_some standing search with ⟨after, eaten, landed⟩
      rw [eaten]
      exact .ok ⟨rfl, landed⟩
  | none =>
      rw [← scanSymbol?_trimStart] at search
      rcases eat_of_none standing search with ⟨start, eaten, standing⟩
      rw [Text.trimStart_trimStart] at standing
      have nameAgrees := agrees_readName standing
      rw [scanName_trimStart] at nameAgrees
      rw [eaten, pure_bind]
      refine nameAgrees.bind ?_
      rintro ⟨name, after⟩ ⟨_, position⟩ named ⟨rfl, landed⟩
      have shorter := length_lt_of_scanName named
      dsimp only at landed ⊢
      split
      · exact .error standing
      · refine (agrees_expect landed ':').bind ?_
        intro body inside colon standing
        have shorter := length_lt_of_scanSymbol? (scanSymbol_eq_ok_iff.1 colon)
        refine (types standing (by omega) (by omega)).bind ?_
        rintro ⟨type, last⟩ ⟨_, finish⟩ typed ⟨rfl, ended⟩
        have notLonger := length_le_of_scanType typed
        rcases skipBlanks_eq ended with ⟨position, skipped, standing⟩
        dsimp only
        rw [skipped, pure_bind]
        cases search : scanSymbol? ',' last with
        | some others =>
            have shorter := length_lt_of_scanSymbol? search
            rw [← scanSymbol?_trimStart] at search
            rcases eat_of_some standing search with ⟨next, eaten, landed⟩
            rw [eaten]
            exact fields landed (by omega) (by omega)
        | none =>
            rw [← scanSymbol?_trimStart] at search
            rcases eat_of_none standing search with ⟨next, eaten, landed⟩
            have closeAgrees := agrees_expect landed '}'
            rw [scanSymbol_trimStart, scanSymbol_trimStart] at closeAgrees
            rw [eaten]
            refine closeAgrees.bind ?_
            intro outside position _ landed
            exact .ok ⟨rfl, landed⟩

end Steps

/-- The reader does what the scanner does, by induction on the steps of the scanner. -/
theorem agree_of_scan (input : List Char) (bound steps : Nat) :
    TypesAgree input bound steps ∧ ParametersAgree input bound steps ∧
      FieldsAgree input bound steps := by
  -- Both spend a step on each call, so the two bounds go down together.
  induction bound generalizing steps with
  | zero =>
      refine ⟨?_, ?_, ?_⟩
      · intro rest offset _ bounded
        exact absurd bounded (Nat.not_lt_zero _)
      · intro rest offset _ bounded
        exact absurd bounded (Nat.not_lt_zero _)
      · intro before rest offset _ bounded
        exact absurd bounded (Nat.not_lt_zero _)
  | succ bound ih =>
      cases steps with
      | zero =>
          refine ⟨?_, ?_, ?_⟩
          · intro rest offset _ _ enough
            exact absurd enough (Nat.not_lt_zero _)
          · intro rest offset _ _ enough
            exact absurd enough (Nat.not_lt_zero _)
          · intro before rest offset _ _ enough
            exact absurd enough (Nat.not_lt_zero _)
      | succ steps =>
          rcases ih steps with ⟨types, parameters, fields⟩
          exact ⟨typesAgree_succ parameters fields, parametersAgree_succ types,
            fieldsAgree_succ types fields⟩

/-- With more steps than the text has characters, both read the same type to its end. -/
theorem agrees_parse {input : List Char} {steps : Nat} (enough : input.length < steps) :
    Agrees input (fun type read => type = read) (scan input) (parse steps input) := by
  have bounded : input.length < stepBound input := by
    rw [stepBound]
    omega
  rw [scan, parse]
  refine ((agree_of_scan input _ steps).1 (.start input) bounded enough).bind ?_
  rintro ⟨type, rest⟩ ⟨_, offset⟩ _ ⟨rfl, ended⟩
  dsimp only at ended ⊢
  rcases skipBlanks_eq ended with ⟨finish, skipped, standing⟩
  rw [skipped, pure_bind]
  have size := standing.byteSize_eq
  split
  · rename_i empty
    rw [byteSize_eq_zero_iff.2 (List.isEmpty_iff.1 empty), Nat.add_zero] at size
    rw [if_pos size.symm]
    exact .ok rfl
  · rename_i nonempty
    have more : byteSize (Text.trimStart rest) ≠ 0 :=
      fun zero => nonempty (List.isEmpty_iff.2 (byteSize_eq_zero_iff.1 zero))
    rw [if_neg (by omega)]
    exact .error standing

end Cursor

/-- Reading at a cursor ends, without an impossible cut, and is the same as scanning. -/
theorem run_cursorParse {text : String} {steps : Nat} (enough : text.toList.length < steps) :
    (Cursor.parse steps text.toList).run = some (parse text) := by
  have agrees := Cursor.agrees_parse enough
  rw [parse]
  generalize scan text.toList = scanned at agrees ⊢
  generalize Cursor.parse steps text.toList = read at agrees ⊢
  cases agrees with
  | ok same =>
      cases same
      rfl
  | error remains =>
      simp only [Except.mapError, remains.offset_eq]
      rfl

/-- Errors are found between two characters of the text, or at one of its ends. -/
theorem isValid_offset_of_parse {text : String} {error : ParseError}
    (failed : parse text = .error error) : (⟨error.offset⟩ : String.Pos.Raw).IsValid text := by
  rcases mapError_eq_error_iff.1 failed with ⟨fault, scanned, rfl⟩
  have agrees := Cursor.agrees_parse (Nat.lt_succ_self text.toList.length)
  rw [scanned] at agrees
  generalize Cursor.parse _ text.toList = read at agrees
  cases agrees with
  | error remains =>
      rw [remains.offset_eq]
      exact remains.isValid

/-- A text is read as a type exactly if it is an expression of the type, and every other
text has an error at one of its characters or at its end.  The reader with a cursor, for any
number of steps that is not too small, gives the same results: it comes to an end, and never
cuts inside a character. -/
theorem parse_meets_grammar (text : String) :
    (∀ type, parse text = .ok type ↔ Denotes text.toList type) ∧
      ((∃ type, Denotes text.toList type) ∨
        ∃ error, parse text = .error error ∧ (⟨error.offset⟩ : String.Pos.Raw).IsValid text) ∧
      ∀ steps, text.toList.length < steps →
        (Cursor.parse steps text.toList).run = some (parse text) := by
  refine ⟨fun type => parse_eq_ok_iff_denotes, ?_, fun steps enough => run_cursorParse enough⟩
  cases parsed : parse text with
  | ok type => exact .inl ⟨type, parse_eq_ok_iff_denotes.1 parsed⟩
  | error error => exact .inr ⟨error, rfl, isValid_offset_of_parse parsed⟩

-- White space of three bytes stands around the first name, and in front of the second text.
theorem parse_meets_grammar_blanks :
    let text := "\u2003STRUCT\u2003{a:List<u8>,}"
    let type := struct [("a", list (int .u8))]
    let nested := "\u2003option<Option<u8>>"
    Denotes text.toList type ∧ (Cursor.parse 30 text.toList).run = some (.ok type) ∧
      parse nested = .error ⟨9, .nestedOption⟩ ∧ ∀ type, ¬ Denotes nested.toList type := by
  intro text type nested
  have parsed : parse text = .ok type := by cbv
  have refused : parse nested = .error ⟨9, .nestedOption⟩ := by cbv
  have meets := parse_meets_grammar text
  have read := meets.2.2 30 (by decide)
  rw [parsed] at read
  refine ⟨(meets.1 type).1 parsed, read, refused, fun other denotes => ?_⟩
  have accepted := ((parse_meets_grammar nested).1 other).2 denotes
  rw [refused] at accepted
  cases accepted

end ContractAbi.TypeExpr
