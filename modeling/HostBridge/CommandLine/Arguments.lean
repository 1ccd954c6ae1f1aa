import HostBridge.Word

/-!
# Arguments

The command line has two commands, `layout` and `probe`; without one of them in front it means
`layout`. What follows is a sequence of flags in any order, some with a value, which is whatever
argument comes next. Most flags belong to one command and are refused by the other.

`Flag.ofText?` says which flag an argument is, `Arguments.parse` reads a whole command line.
-/

set_option autoImplicit false

namespace HostBridge

/-- What the program is asked to do. -/
inductive Command where
  | layout
  | probe
  deriving DecidableEq, Repr

/-- The word for a command. -/
def Command.name : Command → String
  | layout => "layout"
  | probe => "probe"

/-- A flag. -/
inductive Flag where
  | help
  | json
  | check
  | dumpIr
  | env
  | config
  | gas
  deriving DecidableEq, Repr

namespace Flag

/-- The flag that an argument is under a command. -/
def ofText? (command : Command) (text : String) : Option Flag :=
  if text = "-h" ∨ text = "--help" then some help
  else if text = "--json" then some json
  else match command with
    | .layout => if text = "--check" then some check else none
    | .probe =>
      if text = "--dump-ir" then some dumpIr
      else if text = "--env" then some env
      else if text = "--config" then some config
      else if text = "--gas" then some gas
      else none

/-- Whether the argument after the flag belongs to it. -/
def takesValue : Flag → Bool
  | check | env | config | gas => true
  | help | json | dumpIr => false

end Flag

/-- The arguments as understood. -/
structure Arguments where
  command : Command
  json : Bool
  check : Option String
  env : Option String
  config : Option String
  gas : Word
  dumpIr : Bool
  help : Bool
  deriving DecidableEq, Repr

/-- Why arguments are refused. -/
inductive UsageError where
  | unexpected (argument : String)
  | missingValue (flag : String)
  | invalidGas (value : String)
  deriving DecidableEq, Repr

/-- The wording of a refusal. -/
def UsageError.message : UsageError → String
  | unexpected argument => "unexpected argument '" ++ argument ++ "'"
  | missingValue flag => "missing value for " ++ flag
  | invalidGas value => "invalid --gas value '" ++ value ++ "'"

namespace Arguments

/-- The gas that is used when none is given. -/
def defaultGas : Word := 1000000

/-- A command without flags. -/
def ofCommand (command : Command) : Arguments :=
  ⟨command, false, none, none, none, defaultGas, false, false⟩

/-- The arguments with one more flag that takes no value. -/
def withFlag (a : Arguments) : Flag → Arguments
  | .help => { a with help := true }
  | .json => { a with json := true }
  | .dumpIr => { a with dumpIr := true }
  | .check | .env | .config | .gas => a

/-- The arguments with one more flag and its value. -/
def withValue (a : Arguments) (flag : Flag) (value : String) : Except UsageError Arguments :=
  match flag with
  | .check => .ok { a with check := some value }
  | .env => .ok { a with env := some value }
  | .config => .ok { a with config := some value }
  | .gas =>
    match Word.parse? value with
    | some gas => .ok { a with gas := gas }
    | none => .error (.invalidGas value)
  | .help | .json | .dumpIr => .ok a

/-- Reads flags from left to right. Of a flag that occurs again the last value counts. -/
def parseFlags (a : Arguments) : List String → Except UsageError Arguments
  | [] => .ok a
  | text :: rest =>
    match Flag.ofText? a.command text with
    | none => .error (.unexpected text)
    | some flag =>
      if flag.takesValue then
        match rest with
        | [] => .error (.missingValue text)
        | value :: rest =>
          match a.withValue flag value with
          | .ok a => a.parseFlags rest
          | .error e => .error e
      else (a.withFlag flag).parseFlags rest

/-- The command that a command line starts with, and what follows it. -/
def splitCommand : List String → Command × List String
  | [] => (.layout, [])
  | first :: rest =>
    if first = "layout" then (.layout, rest)
    else if first = "probe" then (.probe, rest)
    else (.layout, first :: rest)

/-- Reads a command line. -/
def parse (args : List String) : Except UsageError Arguments :=
  let (command, flags) := splitCommand args
  (ofCommand command).parseFlags flags

end Arguments

end HostBridge
