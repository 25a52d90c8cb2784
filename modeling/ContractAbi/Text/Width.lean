import ContractAbi.Text.EmojiSequence
import ContractAbi.Text.Ligature

/-!
# Display width

The number of columns that a text takes in a terminal.  A character takes its
own, unless it is part of a sequence of emoji or of a ligature, or a selector
behind it decides which of its forms is drawn.  A text is measured from its end,
so that each character is looked at with what follows it.
-/

namespace ContractAbi.Text

/-- The form of a character that a selector asks for. -/
inductive Selector where
  | emoji
  | text
  /-- A quotation mark as wide as the characters of East Asia. -/
  | fullwidth
deriving DecidableEq, Repr, Inhabited

def Selector.ofChar? (character : Char) : Option Selector :=
  let code := character.toNat
  if code = 0xFE0F then some emoji
  else if code = 0xFE0E then some text
  else if code = 0xFE01 then some fullwidth
  else none

def isCurlyQuote (character : Char) : Bool :=
  let code := character.toNat
  code == 0x2018 || code == 0x2019 || code == 0x201C || code == 0x201D

/-- What a text is the end of. -/
inductive Tail where
  /-- Nothing that the character in front of it could be part of. -/
  | plain
  | emoji (tail : EmojiTail)
  | ligature (tail : LigatureTail)
  | vowel (tail : VowelTail)
deriving DecidableEq, Repr, Inhabited

namespace Tail

def ofChar (character : Char) : Tail :=
  match EmojiTail.ofChar? character, LigatureTail.ofChar? character,
    VowelTail.ofChar? character with
  | some tail, _, _ => emoji tail
  | none, some tail, _ => ligature tail
  | none, none, some tail => vowel tail
  | none, none, none => plain

/-- The columns that a character adds to what has been read if it is part of it, and what the two
are the end of. -/
def extend? (character : Char) : Tail → Option (Int × Tail)
  | plain => none
  | emoji tail => (tail.extend? character).map fun (columns, tail) => (columns, emoji tail)
  | ligature tail =>
    (tail.extend? character).map fun (columns, tail?) => (columns, tail?.elim plain ligature)
  | vowel tail =>
    (tail.extend? character).map fun (columns, tail?) => (columns, tail?.elim plain vowel)

def isJoined : Tail → Bool
  | emoji tail => tail.isJoined
  | _ => false

/-- What is left of what has been read when a selector has no character to select. -/
def withoutSelector : Tail → Tail
  | ligature tail => ligature tail
  | _ => plain

/-- What remains of what has been read behind a selector: a ligature goes on, and a picture can be
joined if it is asked for. -/
def behind (selector : Selector) (tail : Tail) : Tail :=
  if selector = .emoji && tail.isJoined then tail else tail.withoutSelector

end Tail

/-- What follows a character: a selector at most, and then the end of a text. -/
structure Following where
  selector : Option Selector
  tail : Tail
deriving DecidableEq, Repr, Inhabited

namespace Following

/-- Nothing that has a say in the columns of the character in front of it. -/
def plain : Following := ⟨none, .plain⟩

/-- The columns and the end of a character that is drawn in the form that a selector asks for. -/
def select? (character : Char) (following : Following) : Option (Int × Following) :=
  match following.selector with
  | some .emoji =>
    if hasEmojiForm character then
      some (if following.tail.isJoined then 0 else 2, ⟨none, .emoji .picture⟩)
    else none
  | some .text => if hasTextForm character then some (1, plain) else none
  | some .fullwidth => if isCurlyQuote character then some (2, plain) else none
  | none => none

/-- The columns and the end of a character that no selector decides on. -/
def extend (character : Char) (tail : Tail) : Int × Following :=
  if isNarrow character then (1, plain)
  else
    match Selector.ofChar? character with
    | some selector => (0, ⟨some selector, tail.behind selector⟩)
    | none =>
      let (columns, tail) :=
        (tail.extend? character).getD (characterWidth character, .ofChar character)
      (columns, ⟨none, tail⟩)

/-- The columns that a character adds to what follows it, and what the two are for the character in
front of it. -/
def step (character : Char) (following : Following) : Int × Following :=
  match following.select? character, following.selector with
  | some result, _ => result
  | none, some _ => extend character following.tail.withoutSelector
  | none, none => extend character following.tail

end Following

/-- Number of columns of a text, and what the text is for a character in front of it. -/
def measure : List Char → Int × Following
  | [] => (0, .plain)
  | character :: text =>
    let (columns, following) := measure text
    let (added, following) := following.step character
    (added + columns, following)

def width (text : List Char) : Nat := (measure text).1.toNat

end ContractAbi.Text
