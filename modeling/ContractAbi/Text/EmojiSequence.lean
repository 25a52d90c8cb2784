import ContractAbi.Text.Emoji

/-!
# Sequences of emoji

Several characters can make one picture, which takes the columns of its last
part.  A text is read from its end, so `EmojiTail` is what has been read of such
a sequence, and `EmojiTail.extend?` adds the character in front.

The region of a flag is named by tags behind a black flag: a country of two
letters or three digits, and up to four letters for its subdivision.
-/

namespace ContractAbi.Text

inductive EmojiTail where
  | picture
  | skinTone
  | indicators (count : Nat)
  /-- A joiner and a picture behind it. -/
  | joined
  /-- A keycap that is joined to the picture behind it. -/
  | joinedKeycap
  /-- A run of regional indicators that is joined to the picture behind it. -/
  | joinedIndicators (count : Nat)
  /-- The tags of a region, those of letters behind those of digits, joined to the picture behind
  them. -/
  | joinedTags (digits letters : Nat)
deriving DecidableEq, Repr, Inhabited

namespace EmojiTail

def ofChar? (character : Char) : Option EmojiTail :=
  if isIndicator character then some (indicators 1)
  else if isSkinTone character then some skinTone
  else if isEmoji character then some picture
  else none

/-- Whether what has been read needs a picture in front of it to join. -/
def isJoined : EmojiTail → Bool
  | joined | joinedKeycap => true
  | _ => false

/-- Whether a joiner can stand between a character and what has been read. -/
def isJoinable : EmojiTail → Bool
  | picture | skinTone => true
  | indicators count | joinedIndicators count => 2 ≤ count
  | _ => false

def isRegion (digits letters : Nat) : Bool :=
  digits = 3 || (digits = 0 && 3 ≤ letters)

/-- The tags of a region with one more in front: letters of a subdivision may follow digits, and
six letters name a country and its subdivision. -/
def extendTags? (character : Char) (digits letters : Nat) : Option EmojiTail :=
  if isTagLetter character && digits = 0 && letters < 6 then
    some (joinedTags digits (letters + 1))
  else if isTagDigit character && digits < 3 && letters ≤ 4 then
    some (joinedTags (digits + 1) letters)
  else if character = blackFlag && isRegion digits letters then some picture
  else none

/-- The columns of one more indicator in a run of `count` that is joined to the picture behind it.
Indicators make flags in pairs from the front of the run, so the last flag shares the columns of the
picture if the run has no single indicator at its end; otherwise every indicator has a column. -/
def indicatorColumns (count : Nat) : Int :=
  if count % 2 = 1 then -1 else 3

/-- The columns that a character adds to what has been read, and the sequence that it makes with
it. -/
def extend? (character : Char) (tail : EmojiTail) : Option (Int × EmojiTail) :=
  if character = joiner then if tail.isJoinable then some (0, joined) else none
  else
    match tail with
    | picture | joinedKeycap => none
    | skinTone => if isModifiable character then some (0, picture) else none
    | indicators count => if isIndicator character then some (1, indicators (count + 1)) else none
    | joinedIndicators count =>
      if isIndicator character then some (indicatorColumns count, joinedIndicators (count + 1))
      else none
    | joinedTags digits letters => (extendTags? character digits letters).map fun tail => (0, tail)
    | joined =>
      if character = keycap then some (0, joinedKeycap)
      else if character = cancelTag then some (0, joinedTags 0 0)
      else
        match ofChar? character with
        | some (indicators count) => some (1, joinedIndicators count)
        | some tail => some (0, tail)
        | none => none

end EmojiTail

end ContractAbi.Text
