import ContractAbi.Text.CharacterWidth
import ContractAbi.Text.Emoji

/-!
# Ligatures

Some letters share their columns with the letter before them.  A text is read
from its end, so `LigatureTail` is the last letter of a ligature and what has
been read in front of it, and `LigatureTail.extend?` adds the character in front.
Marks that are not drawn may stand between the letters, and some ligatures are
made only if the joiner does.
-/

namespace ContractAbi.Text

/-- Combining characters across which the letters of Arabic do not join. -/
def spacingRanges : List (Nat × Nat) :=
  [(0x9BE, 0x9BE), (0x9D7, 0x9D7), (0xB3E, 0xB3E), (0xB57, 0xB57), (0xBBE, 0xBBE),
    (0xBD7, 0xBD7), (0xCC0, 0xCC0), (0xCC2, 0xCC2), (0xCC7, 0xCC8), (0xCCA, 0xCCB),
    (0xCD5, 0xCD6), (0xD3E, 0xD3E), (0xD57, 0xD57), (0xDCF, 0xDCF), (0xDDF, 0xDDF),
    (0x1715, 0x1715), (0x1734, 0x1734), (0x1B35, 0x1B35), (0x1B3B, 0x1B3B), (0x1B3D, 0x1B3D),
    (0x1B43, 0x1B44), (0x1BAA, 0x1BAA), (0x1BF2, 0x1BF3), (0x200C, 0x200C), (0x2D7F, 0x2D7F),
    (0x302E, 0x302F), (0xA953, 0xA953), (0xA9C0, 0xA9C0), (0xFF9E, 0xFF9F), (0x111C0, 0x111C0),
    (0x11235, 0x11235), (0x1133E, 0x1133E), (0x1134D, 0x1134D), (0x11357, 0x11357),
    (0x113B8, 0x113B8), (0x113C2, 0x113C2), (0x113C5, 0x113C5), (0x113C7, 0x113C9),
    (0x113CF, 0x113CF), (0x114B0, 0x114B0), (0x114BD, 0x114BD), (0x115AF, 0x115AF),
    (0x116B6, 0x116B6), (0x11930, 0x11930), (0x1193D, 0x1193D), (0x11F41, 0x11F41),
    (0x16FF0, 0x16FF1), (0x1D165, 0x1D166), (0x1D16D, 0x1D172)]

/-- Other characters of no width across which the letters of Arabic join. -/
def formatRanges : List (Nat × Nat) :=
  [(0xAD, 0xAD), (0x61C, 0x61C), (0x70F, 0x70F), (0x200B, 0x200B), (0x200E, 0x200F),
    (0x202A, 0x202E), (0x2060, 0x2064), (0x206A, 0x206F), (0xFEFF, 0xFEFF), (0x1BCA0, 0x1BCA3),
    (0x1D173, 0x1D17A), (0xE0001, 0xE0001)]

def alefRanges : List (Nat × Nat) :=
  [(0x622, 0x623), (0x625, 0x625), (0x627, 0x627), (0x671, 0x673), (0x675, 0x675),
    (0x773, 0x774), (0x870, 0x882)]

def lamRanges : List (Nat × Nat) :=
  [(0x644, 0x644), (0x6B5, 0x6B8), (0x76A, 0x76A), (0x8A6, 0x8A6), (0x8C7, 0x8C7)]

/-- Letters of Khmer that can be written below the one before them. -/
def subscriptRanges : List (Nat × Nat) :=
  [(0x1780, 0x1782), (0x1784, 0x1787), (0x1789, 0x178C), (0x178E, 0x1793), (0x1795, 0x1798),
    (0x179B, 0x179D), (0x17A0, 0x17A0), (0x17A2, 0x17A2), (0x17A7, 0x17A7), (0x17AB, 0x17AC),
    (0x17AF, 0x17AF)]

/-- Marks that are not drawn. -/
def undrawnRanges : List (Nat × Nat) :=
  [(0x34F, 0x34F), (0x17B4, 0x17B5), (0x180B, 0x180D), (0x180F, 0x180F), (0xFE00, 0xFE0F),
    (0xE0100, 0xE01EF)]

/-- Whether letters of Arabic join across a character: the property `Joining_Type` has the value
`Transparent`. -/
def isTransparent (character : Char) : Bool :=
  let code := character.toNat
  (isCombining character && !inRanges spacingRanges code) || inRanges formatRanges code

def isAlef (character : Char) : Bool := inRanges alefRanges character.toNat

def isLam (character : Char) : Bool := inRanges lamRanges character.toNat

def isSubscriptLetter (character : Char) : Bool := inRanges subscriptRanges character.toNat

def isUndrawn (character : Char) : Bool := inRanges undrawnRanges character.toNat

def isTifinagh (character : Char) : Bool :=
  let code := character.toNat
  (0x2D31 ≤ code && code ≤ 0x2D65) || code == 0x2D6F

def isSecondTone (character : Char) : Bool :=
  character.toNat == 0xA4FC || character.toNat == 0xA4FD

def isFirstTone (character : Char) : Bool :=
  0xA4F8 ≤ character.toNat && character.toNat ≤ 0xA4FB

/-- The end of a ligature; `joined` tells whether a joiner is in front of the letter. -/
inductive LigatureTail where
  /-- The letter alef of Arabic, after lam. -/
  | alef
  /-- The letter lamed of Hebrew, after alef. -/
  | lamed (joined : Bool)
  /-- A letter of Khmer, after the sign that writes it below. -/
  | subscript
  /-- The letter ya of Buginese, after a letter with the vowel i. -/
  | ya (joined : Bool)
  /-- The letter ya of Buginese with the vowel i in front. -/
  | vowelYa
  | consonant (joined : Bool)
  /-- A consonant of Tifinagh with the sign in front that joins it to another one. -/
  | signConsonant
  | secondTone
  /-- The letter i of Old Turkic, after the letter orkhon. -/
  | orkhonI (joined : Bool)
deriving DecidableEq, Repr, Inhabited

namespace LigatureTail

def ofChar? (character : Char) : Option LigatureTail :=
  let code := character.toNat
  if isAlef character then some alef
  else if code = 0x5DC then some (lamed false)
  else if isSubscriptLetter character then some subscript
  else if code = 0x1A10 then some (ya false)
  else if isTifinagh character then some (consonant false)
  else if isSecondTone character then some secondTone
  else if code = 0x10C03 then some (orkhonI false)
  else none

/-- The end of a ligature with a joiner in front of it. -/
def join : LigatureTail → LigatureTail
  | lamed _ => lamed true
  | ya _ => ya true
  | consonant _ => consonant true
  | orkhonI _ => orkhonI true
  | tail => tail

/-- The columns that a character adds to what has been read, which are none or make up for those of
a sign, and what there is for the character in front of it unless the ligature is complete. -/
def extend? (character : Char) (tail : LigatureTail) : Option (Int × Option LigatureTail) :=
  let code := character.toNat
  match tail with
  | alef =>
    if isLam character then some (0, none)
    else if isTransparent character then some (0, some alef)
    else none
  | tail =>
    if character = joiner then some (0, some tail.join)
    else if isUndrawn character then some (0, some tail)
    else
      match tail with
      | lamed true => if code = 0x5D0 then some (0, none) else none
      | subscript => if code = 0x17D2 then some (-1, none) else none
      | ya true => if code = 0x1A17 then some (0, some vowelYa) else none
      | vowelYa => if code = 0x1A15 then some (0, none) else none
      | consonant joined =>
        if isTifinaghJoiner character then some (1, some signConsonant)
        else if joined && isTifinagh character then some (0, none)
        else none
      | signConsonant => if isTifinagh character then some (-1, none) else none
      | secondTone => if isFirstTone character then some (0, none) else none
      | orkhonI true => if code = 0x10C32 then some (0, none) else none
      | _ => none

end LigatureTail

/-- The end of a vowel of Kirat Rai, whose signs are drawn together. -/
inductive VowelTail where
  | e
  | ai
deriving DecidableEq, Repr, Inhabited

namespace VowelTail

def ofChar? (character : Char) : Option VowelTail :=
  let code := character.toNat
  if code = 0x16D67 then some e
  else if code = 0x16D68 then some ai
  else none

/-- The columns that a character adds to what has been read, and what there is for the character in
front of it unless the vowel is complete.  An e makes o of aa, au of o and ai of another e, and ai
makes au of aa. -/
def extend? (character : Char) (tail : VowelTail) : Option (Int × Option VowelTail) :=
  let code := character.toNat
  match tail with
  | e =>
    if code = 0x16D63 || code = 0x16D69 then some (0, none)
    else if code = 0x16D67 then some (0, some ai)
    else if code = 0x16D68 then some (1, some e)
    else none
  | ai => if code = 0x16D63 then some (0, none) else none

end VowelTail

end ContractAbi.Text
