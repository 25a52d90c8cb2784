import ContractAbi.Bytes.Utf8
import ContractAbi.Text.Blank
import ContractAbi.TypeExpr.Basic

/-!
# Reading type expressions

A scanner takes something off the front of the text and returns what remains; a
fault keeps the text that remained where it was found, from which its offset
follows.  White space may stand before and after every token, and the words of
the language are read in any case.
-/

namespace ContractAbi.TypeExpr

inductive Problem where
  | expectedName
  | expected (symbol : Char)
  | unknownType (name : String)
  | duplicateField (name : String)
  /-- An option of an option: an absent one could not be told from one with
  absent content when it is written as JSON. -/
  | nestedOption
  | trailingInput
deriving DecidableEq, Repr, Inhabited

def Problem.message : Problem → String
  | expectedName => "expected identifier"
  | expected symbol => "expected `" ++ String.singleton symbol ++ "`"
  | unknownType name => "unknown type `" ++ name ++ "`"
  | duplicateField name => "duplicate field `" ++ name ++ "`"
  | nestedOption => "directly nested Option is not supported"
  | trailingInput => "unexpected trailing input"

/-- A problem, and the text from where it was found to the end. -/
structure Fault where
  problem : Problem
  text : List Char
deriving DecidableEq, Repr, Inhabited

/-- Names consist of ASCII letters, digits and underscores. -/
def isNameCharacter (character : Char) : Bool :=
  character.isAlphanum || character == '_'

def scanName (input : List Char) : Except Fault (String × List Char) :=
  let input := Text.trimStart input
  let name := input.takeWhile isNameCharacter
  if name.isEmpty then .error ⟨.expectedName, input⟩
  else .ok (String.ofList name, input.dropWhile isNameCharacter)

def scanSymbol? (symbol : Char) (input : List Char) : Option (List Char) :=
  match Text.trimStart input with
  | [] => none
  | character :: rest => if character = symbol then some rest else none

def scanSymbol (symbol : Char) (input : List Char) : Except Fault (List Char) :=
  match scanSymbol? symbol input with
  | some rest => .ok rest
  | none => .error ⟨.expected symbol, Text.trimStart input⟩

def lowerCase (name : String) : String :=
  String.ofList (name.toList.map Char.toLower)

/-- The type written as one word, in any case. -/
def word? (name : String) : Option TypeExpr :=
  (words.find? fun (word, _) => lowerCase word == lowerCase name).map (·.2)

mutual

/-- Take a type off the text.  Each token shortens the text, so that its length
bounds the number of steps. -/
def scanType : Nat → List Char → Except Fault (TypeExpr × List Char)
  | 0, input => .error ⟨.expectedName, input⟩
  | steps + 1, input => do
    let (name, rest) ← scanName input
    match word? name with
    | some type => return (type, rest)
    | none =>
      match lowerCase name with
      | "option" =>
        let (content, after) ← scanParameter steps rest
        if content.isOption then throw ⟨.nestedOption, rest⟩
        return (option content, after)
      | "list" =>
        let (item, after) ← scanParameter steps rest
        return (list item, after)
      | "struct" =>
        let (fields, after) ← scanFields steps [] (← scanSymbol '{' rest)
        return (struct fields, after)
      | "enum" =>
        let (fields, after) ← scanFields steps [] (← scanSymbol '{' rest)
        return (enum fields, after)
      | _ => throw ⟨.unknownType name, Text.trimStart input⟩

def scanParameter : Nat → List Char → Except Fault (TypeExpr × List Char)
  | 0, input => .error ⟨.expectedName, input⟩
  | steps + 1, input => do
    let (type, rest) ← scanType steps (← scanSymbol '<' input)
    return (type, ← scanSymbol '>' rest)

/-- Take the rest of a list of fields off the text, up to the closing brace.  A
comma may stand after the last field. -/
def scanFields : Nat → FieldTypes → List Char → Except Fault (FieldTypes × List Char)
  | 0, _, input => .error ⟨.expectedName, input⟩
  | steps + 1, before, input =>
    match scanSymbol? '}' input with
    | some rest => return (before, rest)
    | none => do
      let (name, rest) ← scanName input
      if before.any (·.1 == name) then throw ⟨.duplicateField name, Text.trimStart input⟩
      let (type, rest) ← scanType steps (← scanSymbol ':' rest)
      let fields := before ++ [(name, type)]
      match scanSymbol? ',' rest with
      | some rest => scanFields steps fields rest
      | none => return (fields, ← scanSymbol '}' rest)

end

/-- A bound on the steps that reading a text takes. -/
def stepBound (input : List Char) : Nat := 2 * input.length + 1

def scan (input : List Char) : Except Fault TypeExpr := do
  let (type, rest) ← scanType (stepBound input) input
  let rest := Text.trimStart rest
  if rest.isEmpty then return type else throw ⟨.trailingInput, rest⟩

/-- Why a text is no type expression, and at which byte. -/
structure ParseError where
  offset : Nat
  problem : Problem
deriving DecidableEq, Repr, Inhabited

def ParseError.message (error : ParseError) : String :=
  "invalid type at offset " ++ toString error.offset ++ ": " ++ error.problem.message

def byteSize (text : List Char) : Nat := (Utf8.encode text).length

def parse (text : String) : Except ParseError TypeExpr :=
  (scan text.toList).mapError fun fault =>
    ⟨byteSize text.toList - byteSize fault.text, fault.problem⟩

end ContractAbi.TypeExpr
