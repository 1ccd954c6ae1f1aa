import HostBridge.Json.Reader

/-!
# Configuration

The limits under which calls run, and their JSON form. Reading accepts an object with any of the
three keys and no other, or the array of the fields; `Config.check` then refuses a limit of zero,
under which nothing could run.
-/

set_option autoImplicit false

namespace HostBridge

open Json

/-- The limits of a call, and whether modules are verified before they run. -/
structure Config where
  /-- The largest number of calls that may be live at once. -/
  maxCallDepth : Nat
  /-- The largest number of functions of one call that may be active at once. -/
  maxHelperDepth : Nat
  verifyModules : Bool
  deriving DecidableEq, Repr

/-- Why a configuration or an environment was refused. -/
inductive ConfigFault where
  /-- The text is not the JSON form of a configuration. -/
  | malformedConfig
  /-- The text is not the JSON form of an environment. -/
  | malformedEnvironment
  | noCallDepth
  | noHelperDepth
  /-- The named file cannot be read. -/
  | unreadable (path : String)
  deriving DecidableEq, Repr

namespace ConfigFault

/-- The wording of a fault. -/
def message : ConfigFault → String
  | malformedConfig => "invalid bridge config"
  | malformedEnvironment => "invalid environment snapshot"
  | noCallDepth => "max_call_depth must be at least 1"
  | noHelperDepth => "max_helper_depth must be at least 1"
  | unreadable path => "failed to read " ++ path

end ConfigFault

namespace Config

/-- The limits that hold where nothing else is said. -/
def default : Config := ⟨1024, 256, true⟩

instance : Inhabited Config := ⟨default⟩

/-- The keys of the JSON form, in order. -/
def keys : List String := ["max_call_depth", "max_helper_depth", "verify_modules"]

/-- The JSON form. -/
def toJson (c : Config) : Value :=
  .record [("max_call_depth", .natural c.maxCallDepth),
    ("max_helper_depth", .natural c.maxHelperDepth), ("verify_modules", .bool c.verifyModules)]

/-- Reads the JSON form; a field that is missing keeps its default. -/
def ofJson? (v : Value) : Option Config :=
  match v.fields? keys true with
  | some [callDepth, helperDepth, verify] => do
    let callDepth ← orDefault (·.natural? 8) default.maxCallDepth callDepth
    let helperDepth ← orDefault (·.natural? 8) default.maxHelperDepth helperDepth
    let verify ← orDefault (·.bool?) default.verifyModules verify
    return ⟨callDepth, helperDepth, verify⟩
  | _ => none

/-- Refuses a limit of zero. -/
def check (c : Config) : Except ConfigFault Config :=
  if c.maxCallDepth = 0 then .error .noCallDepth
  else if c.maxHelperDepth = 0 then .error .noHelperDepth
  else .ok c

/-- Reads a configuration from its JSON text. -/
def parse (text : String) : Except ConfigFault Config :=
  match (Value.parse? text).bind ofJson? with
  | some c => c.check
  | none => .error .malformedConfig

end Config

end HostBridge
