import ContractAbi.Codec.Error

/-!
# Lengths

A payload of variable length follows its length, written as four big-endian
bytes.  The unit is bytes for text, byte strings and numbers of any size, and
items for lists.
-/

namespace ContractAbi

def lengthPrefixSize : Nat := 4

/-- The longest payload that a decoder accepts when nothing else is said. -/
def defaultMaxLength : Nat := 16 * 1024 * 1024

def checkLength (subject : String) (actual expected : Nat) : Except CodecError Unit :=
  if actual = expected then .ok () else .error (.invalidLength subject actual expected)

end ContractAbi
