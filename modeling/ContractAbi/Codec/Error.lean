import ContractAbi.Bytes.Hex
import ContractAbi.Value.Basic

/-!
# Failures of the codec

One constructor for each cause.  A failure inside a struct or an enum is wrapped
once for each field on the way to it, so that the wrapped error has a path of
field names and a root.
-/

namespace ContractAbi

inductive IoKind where
  | brokenPipe
  | other
deriving DecidableEq, Repr, Inhabited

structure IoFailure where
  kind : IoKind
  text : String
deriving DecidableEq, Repr, Inhabited

inductive CodecError where
  /-- The input ended before the required number of bytes. -/
  | shortRead (needed available : Nat)
  /-- The stream ended before a value began, or takes no more bytes. -/
  | streamClosed
  | io (failure : IoFailure)
  /-- A list target has no template for its items. -/
  | missingTemplate
  /-- A present option met a target without content. -/
  | missingOptionTarget
  /-- A field of fixed length has another length. -/
  | invalidLength (subject : String) (actual expected : Nat)
  /-- A length that four bytes cannot hold. -/
  | lengthOverflow (length : Nat)
  /-- A length prefix above the accepted maximum. -/
  | lengthExceeded (length maximum : Nat)
  /-- A whole payload that goes on after its value. -/
  | trailingBytes (count : Nat)
  | invalidBool (byte : UInt8)
  /-- A whole payload of more than one byte where a boolean is expected. -/
  | invalidBoolLength (length : Nat)
  /-- A number that the integer type does not hold. -/
  | overflow (type : IntType)
  /-- A negative fixed-width integer, which has no top-level form. -/
  | negativeTopLevel (type : IntType)
  | invalidUtf8 (fault : Utf8.Fault)
  | field (name : String) (source : CodecError)
deriving DecidableEq, Repr, Inhabited

namespace CodecError

def byteText (byte : UInt8) : String :=
  String.ofList (Hex.encode [byte])

def message : CodecError → String
  | shortRead needed available =>
      "short read (" ++ toString needed ++ " bytes needed, " ++ toString available ++
        " available)"
  | streamClosed => "stream closed"
  | io failure => "codec I/O error: " ++ failure.text
  | missingTemplate => "missing item factory for list decode"
  | missingOptionTarget => "missing target for present option value"
  | invalidLength subject actual expected =>
      "invalid " ++ subject ++ " length (" ++ toString actual ++ " bytes, expected " ++
        toString expected ++ ")"
  | lengthOverflow length => "length " ++ toString length ++ " does not fit a 4-byte prefix"
  | lengthExceeded length maximum =>
      "length prefix too large (" ++ toString length ++ ", max " ++ toString maximum ++ ")"
  | trailingBytes count => toString count ++ " trailing bytes after value"
  | invalidBool byte => "invalid bool byte 0x" ++ byteText byte
  | invalidBoolLength length =>
      "invalid top-level bool length (" ++ toString length ++ " bytes)"
  | overflow type => "value out of range for " ++ type.name
  | negativeTopLevel type => "negative " ++ type.name ++ " has no top-level encoding"
  | invalidUtf8 fault => "invalid UTF-8 in string: " ++ fault.message
  | field name source => "field `" ++ name ++ "`: " ++ source.message

/-- The error below all field wrappers. -/
def root : CodecError → CodecError
  | field _ source => source.root
  | error => error

/-- The names of the fields on the way to the root, outermost first. -/
def path : CodecError → List String
  | field name source => name :: source.path
  | _ => []

theorem root_eq_self {error : CodecError} (bare : error.path = []) : error.root = error := by
  cases error with
  | field name source => cases bare
  | _ => rfl

/-- An error is its root, wrapped once for each name of its path. -/
theorem eq_foldr_path (error : CodecError) : error = error.path.foldr .field error.root := by
  induction error with
  | field name source ih => exact congrArg (field name) ih
  | _ => rfl

@[simp]
theorem root_foldr_field (names : List String) (error : CodecError) :
    (names.foldr .field error).root = error.root := by
  induction names with
  | nil => rfl
  | cons name names ih => exact ih

@[simp]
theorem path_foldr_field (names : List String) (error : CodecError) :
    (names.foldr .field error).path = names ++ error.path := by
  induction names with
  | nil => rfl
  | cons name names ih => exact congrArg (name :: ·) ih

end CodecError

end ContractAbi
