import ContractAbi.Arguments.Deserialize
import ContractAbi.Arguments.Serialize

/-!
# Parts as text

Parts travel as lower-case hexadecimal text with a separator between them.  An
empty text is one empty part, so no list of parts is written as nothing but a
single empty one.
-/

namespace ContractAbi

def defaultSeparator : String := "@"

def consPiece (character : Char) : List (List Char) → List (List Char)
  | [] => [[character]]
  | piece :: pieces => (character :: piece) :: pieces

/-- The pieces between the occurrences of a non-empty separator, found from left
to right without overlap.  The first `skip` characters belong to an occurrence
that has been found. -/
def piecesBetween (separator : List Char) : Nat → List Char → List (List Char)
  | _, [] => [[]]
  | skip + 1, _ :: text => piecesBetween separator skip text
  | 0, character :: text =>
    if separator.isPrefixOf (character :: text) then
      [] :: piecesBetween separator (separator.length - 1) text
    else consPiece character (piecesBetween separator 0 text)

/-- The pieces of a text.  An empty separator stands before, between and after
all characters. -/
def splitPieces (separator text : List Char) : List (List Char) :=
  if separator.isEmpty then [] :: text.map ([·]) ++ [[]]
  else piecesBetween separator 0 text

/-- The bytes of pieces the first of which has the given index. -/
def decodePieces (index : Nat) : List (List Char) → Except ArgumentError (List Bytes)
  | [] => .ok []
  | piece :: pieces =>
    match Hex.decode piece with
    | .error fault => .error (.invalidHex index fault)
    | .ok part => (decodePieces (index + 1) pieces).map (part :: ·)

def splitParts (separator text : String) : Except ArgumentError (List Bytes) :=
  decodePieces 0 (splitPieces separator.toList text.toList)

def joinParts (separator : String) (parts : List Bytes) : String :=
  String.ofList (separator.toList.intercalate (parts.map Hex.encode))

def serializeText (separator : String) (arguments : List Argument) :
    Except ArgumentError String :=
  (serialize arguments).map (joinParts separator)

def deserializeText (separator : String) (maxLength : Nat) (targets : List Argument)
    (text : String) : List Argument × Option ArgumentError :=
  match splitParts separator text with
  | .error error => (targets, some error)
  | .ok parts => deserialize maxLength targets parts

end ContractAbi
