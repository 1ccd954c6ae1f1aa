import HostBridge.Code.Dump
import HostBridge.CommandLine.Arguments
import HostBridge.CommandLine.Label
import HostBridge.Host.Stock
import HostBridge.Json.Writer
import HostBridge.Layout.Manifest
import HostBridge.Probe
import HostBridge.Text.Column
import HostBridge.Text.Quoted

/-!
# The program

`CommandLine.run` is the whole program as a function: from its arguments, what it can read and
whether its output shows colours, to what it prints and how it fails. `layout` shows the layout of
the runtime block or checks a manifest against it, `probe` runs the probe.
-/

set_option autoImplicit false

namespace HostBridge.CommandLine

/-- Why the program fails. -/
inductive Failure where
  | usage (e : UsageError)
  | mismatches (count : Nat) (path : String)
  | inconsistent
  | bridge (e : BridgeError)
  /-- A manifest cannot be read. -/
  | noFile (path : String)
  /-- A path that no file can have, because it holds a null character. -/
  | badPath (path : String)
  /-- A file is not a manifest. -/
  | malformedManifest
  /-- The probe did not come to an end. -/
  | probeUnfinished

/-- The message of a failure that the program words itself. -/
def Failure.ownMessage? : Failure → Option String
  | usage e => some e.message
  | mismatches count path => some (toString count ++ " layout mismatches against " ++ path)
  | inconsistent => some "generated code disagrees with the host runtime"
  | probeUnfinished => some "the probe did not finish"
  | bridge _ | noFile _ | badPath _ | malformedManifest => none

/-- The message of a failure. -/
def Failure.message (f : Failure) : String :=
  match f.ownMessage? with
  | some message => Text.quoted message
  | none =>
    match f with
    | .bridge e => e.message
    | .noFile path | .badPath path => "cannot read " ++ path
    | _ => "the file is not a layout manifest"

/-- What a run of the program does. -/
structure Run where
  stdout : String
  failure : Option Failure

/-- What the program needs to know of its surroundings. -/
structure Surroundings where
  /-- The text of a file, if it can be read. -/
  read : String → Option String
  /-- Whether the output shows colours. -/
  colour : Bool

/-- A run that prints lines and succeeds. -/
def succeed (stdout : String) : Run := ⟨stdout, none⟩

/-- A run that fails after it has printed something. -/
def failAfter (stdout : String) (f : Failure) : Run := ⟨stdout, some f⟩

/-- A run that fails without having printed anything. -/
def fail (f : Failure) : Run := failAfter "" f

/-- Lines of text, each with its end. -/
def lines (ls : List String) : String := String.join (ls.map (· ++ "\n"))

/-- What `--help` prints. -/
def usage : List String :=
  ["Usage:",
    "  evmjit-probe                              (same as `layout`)",
    "  evmjit-probe layout [--json]",
    "  evmjit-probe layout --check <manifest.json>",
    "  evmjit-probe probe [--env <env.json>] [--gas <n>] [--config <config.json>] [--json]",
    "  evmjit-probe probe --dump-ir"]

/-! ## Layout -/

/-- The line of a slot. -/
def slotLine (position : Nat) (e : SlotEntry) : String :=
  "  " ++ Text.alignRight 2 (toString position) ++ "  " ++ Text.alignLeft 18 e.name ++ " "
    ++ Text.alignLeft 7 e.kind.name ++ " offset " ++ Text.alignRight 4 (toString e.offset)
    ++ "  size " ++ Text.alignRight 2 (toString e.size)

/-- The lines that show a layout. -/
def layoutLines (m : Manifest) : List String :=
  ("runtime block: abi v" ++ toString m.abiVersion ++ ", " ++ toString m.totalSize
      ++ " bytes (word " ++ toString m.wordSize ++ ", pointer " ++ toString m.pointerSize ++ ")")
    :: m.slots.zipIdx.map fun (e, position) => slotLine position e

/-- Checks a manifest against the layout. -/
def checkManifest (s : Surroundings) (path : String) : Run :=
  if path.toList.contains '\x00' then fail (.badPath path)
  else match s.read path with
  | none => fail (.noFile path)
  | some text =>
    match Manifest.parse? text with
    | none => fail .malformedManifest
    | some theirs =>
      match Manifest.current.mismatches theirs with
      | [] =>
        succeed (lines [Label.verdict s.colour true ++ ": " ++ path ++ " matches abi v"
          ++ toString Manifest.current.abiVersion])
      | found =>
        failAfter (lines (found.map fun d => Label.verdict s.colour false ++ ": " ++ d.text))
          (.mismatches found.length path)

/-- The command `layout`. -/
def runLayout (s : Surroundings) (a : Arguments) : Run :=
  match a.check with
  | some path => checkManifest s path
  | none =>
    if a.json then succeed (lines [Manifest.current.toJson.render .indented])
    else succeed (lines (layoutLines .current))

/-! ## Probe -/

/-- Reads a file that the probe needs, or falls back on a default if none is named. -/
def load {α : Type} (s : Surroundings) (parse : String → Except ConfigFault α) (default : α) :
    Option String → Except BridgeError α
  | none => .ok default
  | some path =>
    match s.read path with
    | none => .error (.config (.unreadable path))
    | some text => (parse text).mapError .config

/-- A word that may be missing. -/
def wordText : Option Word → String
  | some w => w.text
  | none => "-"

/-- The line of a comparison. -/
def entryLine (colour : Bool) (e : Probe.Entry) : String :=
  "  " ++ Text.alignLeft 8 (Label.verdict colour e.matches) ++ " " ++ Text.alignLeft 28 e.probe
    ++ " host " ++ Text.alignLeft 12 (wordText e.expected) ++ " generated "
    ++ wordText e.observed

/-- The lines that show a report. -/
def reportLines (colour : Bool) (r : Probe.Report) : List String :=
  ("status: " ++ r.status.text ++ " (expected " ++ Label.status colour .stop ++ ")")
    :: r.entries.map (entryLine colour)

/-- Runs the probe and shows its report. -/
def showReport (s : Surroundings) (a : Arguments) (env : Snapshot) (config : Config) : Run :=
  match Probe.run .usual (.fixed env) a.gas config with
  | none => fail .probeUnfinished
  | some (.error e) => fail (.bridge e)
  | some (.ok report) =>
    let stdout :=
      if a.json then lines [report.toJson.render .indented]
      else lines (reportLines s.colour report)
    if report.isConsistent then succeed stdout else failAfter stdout .inconsistent

/-- The command `probe`. -/
def runProbe (s : Surroundings) (a : Arguments) : Run :=
  match load s Snapshot.parse default a.env with
  | .error e => fail (.bridge e)
  | .ok env =>
    match load s Config.parse default a.config with
    | .error e => fail (.bridge e)
    | .ok config => if a.dumpIr then succeed Probe.module.dump else showReport s a env config

/-! ## The whole program -/

/-- The program. -/
def run (s : Surroundings) (args : List String) : Run :=
  match Arguments.parse args with
  | .error e => fail (.usage e)
  | .ok a =>
    if a.help then succeed (lines usage)
    else match a.command with
      | .layout => runLayout s a
      | .probe => runProbe s a

end HostBridge.CommandLine
