import ContractAbi.Arguments.Text
import ContractAbi.Command.Flags
import ContractAbi.Command.Log

/-!
# The command line

Three flags can be given before or after the name of the command and can also be
set in the environment.  What stands after the name counts more than what stands
before it, and the environment less than both.
-/

namespace ContractAbi

inductive OutputFormat where
  | json
  | table
  | pretty
  | raw
deriving DecidableEq, Repr, Inhabited

def OutputFormat.named? : String → Option OutputFormat
  | "json" => some .json
  | "table" => some .table
  | "pretty" => some .pretty
  | "raw" => some .raw
  | _ => none

structure EncodeOptions where
  type : String
  value : String
  topLevel : Bool
deriving DecidableEq, Repr, Inhabited

structure DecodeOptions where
  type : String
  data : String
  topLevel : Bool
  binary : Bool
  maxLength : Nat
deriving DecidableEq, Repr, Inhabited

structure SerializeOptions where
  arguments : List String
  optional : Option String
  variadic : Option String
  separator : String
deriving DecidableEq, Repr, Inhabited

structure DeserializeOptions where
  types : List String
  optional : Option String
  variadic : Option String
  data : String
  separator : String
  maxLength : Nat
deriving DecidableEq, Repr, Inhabited

inductive Command where
  | encode (options : EncodeOptions)
  | decode (options : DecodeOptions)
  | serialize (options : SerializeOptions)
  | deserialize (options : DeserializeOptions)
  | version (extended : Bool)
deriving DecidableEq, Repr, Inhabited

def Command.readsInput : Command → Bool
  | decode options => options.data == "-"
  | deserialize options => options.data == "-"
  | _ => false

structure Invocation where
  format : OutputFormat
  logFormat : LogFormat
  logLevel : LogLevel
  command : Command
deriving DecidableEq, Repr, Inhabited

structure Environment where
  format : Option String := none
  logFormat : Option String := none
  logLevel : Option String := none

namespace CommandLine

def listed {α : Type} (named? : String → Option α) (value : String) : Option Usage :=
  if (named? value).isSome then none else some .invalidValue

def sizeBound : Nat := Nat.pow 2 64

/-- The number of a 64-bit word in decimal digits, which may have a plus sign. -/
def size? (text : String) : Option Nat :=
  let digits := match text.toList with
    | '+' :: digits => digits
    | digits => digits
  if digits.isEmpty || !digits.all Char.isDigit then none
  else
    let value := digits.foldl (fun value digit => value * 10 + (digit.toNat - 48)) 0
    if value < sizeBound then some value else none

def isSize (value : String) : Option Usage :=
  if (size? value).isSome then none else some .valueValidation

/-- The flags that can stand anywhere. -/
def sharedFlags : List Flag :=
  [{ name := "format", check := listed OutputFormat.named? },
    { name := "log-format", check := listed LogFormat.named? },
    { name := "log-level", check := listed LogLevel.named? }]

def typeFlag (arity : Arity) : Flag :=
  { name := "type", short := some 't', arity }

def switch (name : String) : Flag := { name, arity := .switch }

def maxLengthFlag : Flag := { name := "max-length", check := isSize }

/-- What can stand before the name of the command. -/
def mainFlags : FlagSet :=
  { flags := sharedFlags, hasVersion := true
    commands := ["encode", "decode", "serialize", "deserialize", "version", "help"] }

/-- What can stand after the name of a command. -/
def flagsOf (command : String) : FlagSet :=
  match command with
  | "encode" =>
    { flags := sharedFlags ++ [typeFlag .once, { name := "value" }, switch "top-level"] }
  | "decode" =>
    { flags := sharedFlags ++ [typeFlag .once, switch "top-level", switch "binary", maxLengthFlag]
      takesData := true }
  | "serialize" =>
    { flags := sharedFlags ++ [{ name := "arg", arity := .repeated }, { name := "optional" },
        { name := "variadic" }, { name := "separator" }] }
  | "deserialize" =>
    { flags := sharedFlags ++ [typeFlag .repeated, { name := "optional" }, { name := "variadic" },
        { name := "separator" }, maxLengthFlag]
      takesData := true }
  | _ => { flags := sharedFlags ++ [switch "extended"] }

def settingOf? (environment : Environment) (name : String) : Option String :=
  match name with
  | "format" => environment.format
  | "log-format" => environment.logFormat
  | "log-level" => environment.logLevel
  | _ => none

/-- Checks the variables of the shared flags that have not been given. -/
def checkEnvironment (environment : Environment) (given : Given) : Except Usage Unit :=
  sharedFlags.forM fun flag =>
    if given.has flag.name then .ok ()
    else
      match (settingOf? environment flag.name).bind flag.check with
      | some problem => .error problem
      | none => .ok ()

/-- The value of a shared flag, from where it counts most. -/
def sharedValue? (environment : Environment) (before after : Given) (name : String) :
    Option String :=
  (after.value? name).or ((before.value? name).or (settingOf? environment name))

/-- A flag without which the command cannot run. -/
def required (given : Given) (name : String) : Except Usage String :=
  match given.value? name with
  | some value => .ok value
  | none => .error .missingRequiredArgument

/-- An optional and a variadic argument exclude each other. -/
def checkTail (given : Given) : Except Usage Unit :=
  if given.has "optional" && given.has "variadic" then .error .argumentConflict else .ok ()

def maxLengthOf (given : Given) : Nat :=
  ((given.value? "max-length").bind size?).getD defaultMaxLength

def commandOf (name : String) (given : Given) : Except Usage Command :=
  match name with
  | "encode" => do
    let type ← required given "type"
    let value ← required given "value"
    return .encode { type, value, topLevel := given.has "top-level" }
  | "decode" => do
    let type ← required given "type"
    return .decode
      { type, data := given.data.getD "-", topLevel := given.has "top-level"
        binary := given.has "binary", maxLength := maxLengthOf given }
  | "serialize" => do
    checkTail given
    return .serialize
      { arguments := given.valuesOf "arg", optional := given.value? "optional"
        variadic := given.value? "variadic"
        separator := (given.value? "separator").getD defaultSeparator }
  | "deserialize" => do
    checkTail given
    return .deserialize
      { types := given.valuesOf "type", optional := given.value? "optional"
        variadic := given.value? "variadic", data := given.data.getD "-"
        separator := (given.value? "separator").getD defaultSeparator
        maxLength := maxLengthOf given }
  | _ => .ok (.version (given.has "extended"))

def isUnset (environment : Environment) : Bool :=
  environment.format.isNone && environment.logFormat.isNone && environment.logLevel.isNone

/-- What the arguments ask for.  Each place of the command line is checked as a
whole, the one after the name of the command first. -/
def parse (environment : Environment) (arguments : List String) : Except Usage Invocation := do
  let (before, next) ← mainFlags.scan {} false arguments
  match next with
  | none =>
    let before ← before.settle
    checkEnvironment environment before
    if before.values.isEmpty && isUnset environment then throw .helpOnMissingCommand
    throw .missingCommand
  | some (name, rest) =>
    let (after, _) ← (flagsOf name).scan {} false rest
    let after ← after.settle
    checkEnvironment environment after
    let command ← commandOf name after
    let before ← before.settle
    checkEnvironment environment before
    let shared := sharedValue? environment before after
    return {
      format := ((shared "format").bind OutputFormat.named?).getD .json
      logFormat := ((shared "log-format").bind LogFormat.named?).getD .text
      logLevel := ((shared "log-level").bind LogLevel.named?).getD .warn
      command }

end CommandLine

end ContractAbi
