/-!
# Command-line flags

A flag is written `--name` or `-n`.  One that takes a value finds it attached
(`--name=value`, `-nvalue`, `-n=value`) or in the next argument, which may not
begin with a hyphen unless it is nothing else.  The value of the next argument
is held back: it counts, and is checked, when the next flag or positional
argument does, or at the end.
-/

namespace ContractAbi

/-- Why the arguments are not run, or what is shown in place of running them. -/
inductive Usage where
  | unknownArgument
  | missingRequiredArgument
  | argumentConflict
  /-- A value that is none of those listed, or no value. -/
  | invalidValue
  | valueValidation
  | tooManyValues
  | invalidCommand
  | missingCommand
  | help
  | version
  /-- Help, because there are no arguments. -/
  | helpOnMissingCommand
deriving DecidableEq, Repr, Inhabited

inductive Arity where
  /-- No value, and given at most once. -/
  | switch
  /-- One value, and given at most once. -/
  | once
  | repeated
deriving DecidableEq, Repr, Inhabited

structure Flag where
  name : String
  short : Option Char := none
  arity : Arity := .once
  check : String → Option Usage := fun _ => none

/-- What can be given at one place of the command line. -/
structure FlagSet where
  flags : List Flag
  takesData : Bool := false
  hasVersion : Bool := false
  commands : List String := []

/-- What has been given so far. -/
structure Given where
  /-- The values of flags in order; a switch has an empty one. -/
  values : List (String × String) := []
  data : Option String := none
  /-- A flag whose value is held back or still to come. -/
  pending : Option (Flag × Option String) := none
  /-- Whether the next argument can be the value of the pending flag. -/
  awaiting : Bool := false

namespace Given

def valuesOf (given : Given) (name : String) : List String :=
  (given.values.filter (·.1 == name)).map (·.2)

def value? (given : Given) (name : String) : Option String :=
  (given.valuesOf name).head?

def has (given : Given) (name : String) : Bool :=
  given.values.any (·.1 == name)

def add (given : Given) (flag : Flag) (value : String) : Except Usage Given :=
  if flag.arity != .repeated && given.has flag.name then .error .argumentConflict
  else
    match flag.check value with
    | some problem => .error problem
    | none => .ok { given with values := given.values ++ [(flag.name, value)] }

def settle (given : Given) : Except Usage Given :=
  let rest := { given with pending := none, awaiting := false }
  match given.pending with
  | none => .ok rest
  | some (_, none) => .error .invalidValue
  | some (flag, some value) => rest.add flag value

/-- Take a flag, with the value that is attached to it or without one. -/
def takeFlag (given : Given) (flag : Flag) (attached : Option String) : Except Usage Given :=
  match flag.arity, attached with
  | .switch, some _ => .error .tooManyValues
  | .switch, none => do (← given.settle).add flag ""
  | _, some value => do (← given.settle).add flag value
  | _, none => do
    return { ← given.settle with pending := some (flag, none), awaiting := true }

/-- Show something in place of running a command. -/
def showInstead (given : Given) (usage : Usage) : Except Usage Given := do
  let _ ← given.settle
  throw usage

def takeLong (given : Given) (set : FlagSet) (name : String) (attached : Option String) :
    Except Usage Given :=
  if name = "help" ∨ (name = "version" ∧ set.hasVersion) then
    if attached.isSome then .error .tooManyValues
    else given.showInstead (if name = "help" then .help else .version)
  else
    match set.flags.find? (·.name == name) with
    | none => .error .unknownArgument
    | some flag => given.takeFlag flag attached

def attachedValue? : List Char → Option String
  | [] => none
  | '=' :: value => some (String.ofList value)
  | value => some (String.ofList value)

/-- Take flags of one letter; the first that takes a value ends them. -/
def takeShort (given : Given) (set : FlagSet) : List Char → Except Usage Given
  | [] => .ok given
  | 'h' :: _ => given.showInstead .help
  | letter :: rest =>
    if letter = 'V' ∧ set.hasVersion then given.showInstead .version
    else
      match set.flags.find? (·.short == some letter) with
      | none => .error .unknownArgument
      | some flag =>
        if flag.arity = .switch then do takeShort (← given.takeFlag flag none) set rest
        else given.takeFlag flag (attachedValue? rest)

def takeData (given : Given) (set : FlagSet) (afterHyphens : Bool) (argument : String) :
    Except Usage Given :=
  if set.takesData && given.data.isNone then do
    return { ← given.settle with data := some argument }
  else if set.commands.isEmpty || (afterHyphens && set.commands.contains argument) then
    .error .unknownArgument
  else .error .invalidCommand

end Given

/-- An argument that begins with two hyphens and goes on: its name and value. -/
def longFlag? (argument : String) : Option (String × Option String) :=
  match argument.toList with
  | '-' :: '-' :: rest =>
    if rest.isEmpty then none
    else
      let value := match rest.dropWhile (· != '=') with
        | [] => none
        | _ :: value => some (String.ofList value)
      some (String.ofList (rest.takeWhile (· != '=')), value)
  | _ => none

/-- An argument that begins with one hyphen and goes on: its letters. -/
def shortFlags? (argument : String) : Option (List Char) :=
  match argument.toList with
  | '-' :: letter :: letters => some (letter :: letters)
  | _ => none

namespace FlagSet

def helpOn (set : FlagSet) : List String → Usage
  | [] => .help
  | [name] => if set.commands.contains name then .help else .invalidCommand
  | _ => .invalidCommand

/-- Take arguments up to the name of a command, and return what follows it.
After two hyphens alone, no argument is a flag or a command. -/
def scan (set : FlagSet) (given : Given) (afterHyphens : Bool) :
    List String → Except Usage (Given × Option (String × List String))
  | [] => .ok (given, none)
  | argument :: arguments =>
    if afterHyphens then do
      scan set (← given.takeData set true argument) true arguments
    else if !given.awaiting && set.commands.contains argument then
      if argument = "help" then .error (set.helpOn arguments)
      else .ok (given, some (argument, arguments))
    else if argument = "--" then scan set given true arguments
    else
      match longFlag? argument with
      | some (name, attached) => do
        scan set (← given.takeLong set name attached) false arguments
      | none =>
        match shortFlags? argument with
        | some letters => do scan set (← given.takeShort set letters) false arguments
        | none =>
          match given.awaiting, given.pending with
          | true, some (flag, _) =>
            scan set { given with pending := some (flag, some argument), awaiting := false }
              false arguments
          | _, _ => do scan set (← given.takeData set false argument) false arguments

end FlagSet

end ContractAbi
