import ContractAbi.Command.Run

/-!
# The program

Reads the arguments, the environment and, where a command asks for it, the
standard input; then runs the command and prints what it answers.
-/

namespace ContractAbi

def Usage.text : Usage → String
  | unknownArgument => "error: unexpected argument"
  | missingRequiredArgument => "error: a required argument was not given"
  | argumentConflict => "error: arguments that cannot be used together"
  | invalidValue => "error: invalid value, or no value"
  | valueValidation => "error: the value is not a number"
  | tooManyValues => "error: the flag takes no value"
  | invalidCommand => "error: unrecognized command"
  | missingCommand => "error: no command was given"
  | help | helpOnMissingCommand => helpText
  | version => "vmabi " ++ Command.versionNumber
where
  helpText : String :=
    "Smart-contract ABI codec\n\n" ++
    "Usage: vmabi [--format FORMAT] COMMAND\n\n" ++
    "Commands:\n" ++
    "  encode       --type TYPE --value JSON [--top-level]\n" ++
    "  decode       --type TYPE [--top-level] [--binary] [--max-length N] [DATA]\n" ++
    "  serialize    [--arg TYPE=JSON]... [--optional TYPE=JSON | --variadic TYPE=JSON_ARRAY]\n" ++
    "               [--separator TEXT]\n" ++
    "  deserialize  [--type TYPE]... [--optional TYPE | --variadic TYPE]\n" ++
    "               [--separator TEXT] [--max-length N] [DATA]\n" ++
    "  version      [--extended]\n" ++
    "  help         [COMMAND]\n\n" ++
    "Formats: json, table, pretty, raw"

/-- Whether what is shown was asked for. -/
def Usage.isRequested : Usage → Bool
  | help | version => true
  | _ => false

partial def readAll (stream : IO.FS.Stream) (before : ByteArray) : IO ByteArray := do
  let chunk ← stream.read 65536
  if chunk.isEmpty then return before
  readAll stream (before ++ chunk)

/-- Print the same bytes until nobody wants them any more. -/
partial def printForever (stream : IO.FS.Stream) (bytes : ByteArray) : IO Unit := do
  stream.write bytes
  printForever stream bytes

def byteArray (bytes : Bytes) : ByteArray := ByteArray.mk bytes.toArray

def perform (invocation : Invocation) : IO UInt32 := do
  let input ←
    if invocation.command.readsInput then readAll (← IO.getStdin) .empty else pure .empty
  let outcome := invocation.run input.data.toList
  let output ← IO.getStdout
  output.write (byteArray outcome.output)
  output.flush
  match outcome.ending with
  | .success => return UInt32.ofNat ExitCode.success.toNat
  | .failure failure =>
    IO.eprintln ("error: " ++ failure.message)
    return UInt32.ofNat failure.code.toNat
  | .endless bytes =>
    printForever output (byteArray bytes)
    return UInt32.ofNat ExitCode.success.toNat

end ContractAbi

open ContractAbi in
def main (arguments : List String) : IO UInt32 := do
  let environment : Environment :=
    { format := ← IO.getEnv "VMABI_FORMAT"
      logFormat := ← IO.getEnv "VMABI_LOG_FORMAT"
      logLevel := ← IO.getEnv "VMABI_LOG_LEVEL" }
  match CommandLine.parse environment arguments with
  | .ok invocation => perform invocation
  | .error usage =>
    if usage.isRequested then
      IO.println usage.text
      return 0
    else
      IO.eprintln usage.text
      return 2
