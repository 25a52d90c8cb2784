/-!
# JSON documents

An object is a list of members without repetition.  Those of a document that was
read, or that stands for a value, are in the order of their names, and of several
members with one name the last counts.  Integers in the range of 64-bit words are
told apart from all other numbers.
-/

namespace ContractAbi

inductive Json where
  | null
  | bool (value : Bool)
  /-- An integer that fits a signed or an unsigned 64-bit word. -/
  | integer (value : Int)
  /-- Any other number: a significand and a power of ten. -/
  | float (negative : Bool) (significand : Nat) (power : Int)
  | string (text : String)
  | array (items : List Json)
  | object (members : List (String × Json))
deriving Inhabited

abbrev Members := List (String × Json)

namespace Json

/-- Give a member a value, in its place in the order of names. -/
def setMember (name : String) (value : Json) : Members → Members
  | [] => [(name, value)]
  | (other, old) :: members =>
    if name = other then (name, value) :: members
    else if name < other then (name, value) :: (other, old) :: members
    else (other, old) :: setMember name value members

/-- The object with the given members, later ones replacing earlier ones of the
same name. -/
def ofMembers (members : Members) : Members :=
  members.foldl (fun object (name, value) => setMember name value object) []

end Json

end ContractAbi
