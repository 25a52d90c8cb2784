import ContractAbi.Arguments.Basic
import ContractAbi.Json.Typed
import ContractAbi.TypeExpr.Parser

/-!
# How a command fails

A failed command ends with an exit code and one line of text.  The code tells
data that cannot be used from misuse of the command line and from faults of the
program itself.
-/

namespace ContractAbi

inductive ExitCode where
  | success
  /-- The output is not wanted any more. -/
  | failure
  /-- The data does not fit what is expected. -/
  | dataInvalid
  | usage
  /-- A fault of the program or of the system. -/
  | internal
deriving DecidableEq, Repr, Inhabited

def ExitCode.toNat : ExitCode → Nat
  | success => 0
  | failure => 1
  | dataInvalid => 60
  | usage => 64
  | internal => 125

structure Failure where
  code : ExitCode
  message : String
deriving DecidableEq, Repr, Inhabited

namespace Failure

def inContext (code : ExitCode) (context message : String) : Failure :=
  ⟨code, context ++ ": " ++ message⟩

def ofUsage (message : String) : Failure := ⟨.usage, message⟩

def ofIo (context : String) (failure : IoFailure) : Failure :=
  inContext (match failure.kind with
    | .brokenPipe => .failure
    | .other => .internal) context failure.text

/-- A missing target is a fault of the program; all else that the codec reports
is a fault of the data or of the stream. -/
def ofCodec (context : String) : CodecError → Failure
  | .io failure => ofIo context failure
  | .missingTemplate => inContext .internal context CodecError.missingTemplate.message
  | .missingOptionTarget => inContext .internal context CodecError.missingOptionTarget.message
  | error => inContext .dataInvalid context error.message

def ofArguments (context : String) : ArgumentError → Failure
  | .codec source => ofCodec context source
  | .argument index source => ofArguments (context ++ ": argument " ++ toString index) source
  | .notLast kind => inContext .usage context (ArgumentError.notLast kind).message
  | .missingTemplate => inContext .internal context ArgumentError.missingTemplate.message
  | .missingOptionalTarget =>
      inContext .internal context ArgumentError.missingOptionalTarget.message
  | error => inContext .dataInvalid context error.message

def ofType (flag : String) (error : TypeExpr.ParseError) : Failure :=
  inContext .usage flag error.message

def ofMismatch (flag : String) (mismatch : Mismatch) : Failure :=
  inContext .usage flag mismatch.message

end Failure

end ContractAbi
