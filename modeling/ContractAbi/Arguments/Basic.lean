import ContractAbi.Codec.Error

/-!
# Call arguments

A call carries its arguments as a list of parts.  A single value takes exactly
one part; several arguments can be laid out back to back; an optional argument
takes no part when it is absent, and a variadic one takes all parts that are
left.  The last two are open-ended: the number of parts they take is known only
from the number that remains.
-/

namespace ContractAbi

/-- One argument of a call, in terms of the parts it takes. -/
inductive Argument where
  /-- One part, the top-level encoding of the value. -/
  | single (value : Value)
  | multi (items : List Argument)
  | absent
  /-- An optional argument with content, or with a target for it. -/
  | present (content : Argument)
  /-- As many items as there are parts for.  When arguments are read back each
  item starts from a copy of the template. -/
  | variadic (items : List Argument) (template : Option Argument)
deriving Inhabited

namespace Argument

def kind : Argument → String
  | single _ => "single"
  | multi _ => "multi"
  | absent | present _ => "optional"
  | variadic _ _ => "variadic"

mutual

/-- Whether the number of parts taken is left open. -/
def isOpenEnded : Argument → Bool
  | single _ => false
  | multi items => anyOpenEnded items
  | absent | present _ | variadic _ _ => true

def anyOpenEnded : List Argument → Bool
  | [] => false
  | item :: items => isOpenEnded item || anyOpenEnded items

end

mutual

/-- Equality of arguments; templates do not count. -/
def same : Argument → Argument → Bool
  | single a, single b => a == b
  | multi a, multi b => sameItems a b
  | absent, absent => true
  | present a, present b => same a b
  | variadic a _, variadic b _ => sameItems a b
  | _, _ => false

def sameItems : List Argument → List Argument → Bool
  | [], [] => true
  | a :: as, b :: bs => same a b && sameItems as bs
  | _, _ => false

end

instance : BEq Argument := ⟨same⟩

end Argument

inductive ArgumentError where
  | codec (source : CodecError)
  /-- A part of the text is no hexadecimal text. -/
  | invalidHex (part : Nat) (fault : Hex.Fault)
  | notEnoughParts (part : Nat)
  /-- So many parts were left when every argument had been filled. -/
  | tooManyParts (unused : Nat)
  /-- An open-ended argument stands where the number of its parts is not known. -/
  | notLast (kind : String)
  /-- A variadic item took no part, so that it could be repeated for ever. -/
  | emptyVariadicItem (part : Nat)
  | missingTemplate
  /-- A part was left for an optional argument without a target. -/
  | missingOptionalTarget
  /-- The argument with this index failed. -/
  | argument (index : Nat) (source : ArgumentError)
deriving DecidableEq, Repr, Inhabited

def ArgumentError.message : ArgumentError → String
  | codec source => "codec error: " ++ source.message
  | invalidHex part fault =>
      "invalid hex in part " ++ toString part ++ ": " ++ fault.message
  | notEnoughParts part => "not enough parts (part " ++ toString part ++ " missing)"
  | tooManyParts unused => "too many parts (" ++ toString unused ++ " unused)"
  | notLast kind => kind ++ " argument must be last"
  | emptyVariadicItem part =>
      "variadic item at part " ++ toString part ++ " consumed no parts"
  | missingTemplate => "missing item factory for variadic argument"
  | missingOptionalTarget => "missing target for present optional argument"
  | argument index source => "argument " ++ toString index ++ ": " ++ source.message

/-- Only the last of several arguments may be open-ended.  The first one that
breaks the rule is named. -/
def checkPlacement (arguments : List Argument) : Except ArgumentError Unit :=
  match arguments.dropLast.find? (·.isOpenEnded) with
  | some argument => .error (.notLast argument.kind)
  | none => .ok ()

end ContractAbi
