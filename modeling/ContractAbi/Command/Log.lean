/-!
# Log levels

The level that is asked for governs the program's own modules.  Everything else
stays at warnings, or at errors if only those are asked for.
-/

namespace ContractAbi

inductive LogFormat where
  | text
  | json
deriving DecidableEq, Repr, Inhabited

inductive LogLevel where
  | error
  | warn
  | info
  | debug
  | trace
deriving DecidableEq, Repr, Inhabited

def LogFormat.named? : String → Option LogFormat
  | "text" => some .text
  | "json" => some .json
  | _ => none

namespace LogLevel

def name : LogLevel → String
  | error => "error"
  | warn => "warn"
  | info => "info"
  | debug => "debug"
  | trace => "trace"

def all : List LogLevel := [error, warn, info, debug, trace]

def named? (name : String) : Option LogLevel := all.find? (·.name == name)

/-- The level of everything that is not the program's own. -/
def ofOthers : LogLevel → LogLevel
  | error => error
  | _ => warn

/-- The modules that follow the level that is asked for. -/
def targets : List String := ["vmabi", "vmabi_codec", "vmabi_args"]

def filter (level : LogLevel) : String :=
  ",".intercalate (level.ofOthers.name :: targets.map fun target => target ++ "=" ++ level.name)

end LogLevel

end ContractAbi
