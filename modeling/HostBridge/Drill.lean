import HostBridge.Machine.Step

/-!
# Drills

A drill exercises checkpoints without any generated code: it takes checkpoints inside each other,
raises signals and panics, catches them and lets them go again, and writes down what happens.
`Drill.script` turns a drill into a script for the machine; what is written down is kept in the
shared state, a `Journal`.
-/

set_option autoImplicit false

namespace HostBridge

/-- The steps of a body, one after the other. Values of type `α` are what bodies return. -/
inductive Drill (α : Type) where
  /-- The body ends without a value. -/
  | finish
  /-- The body ends with a value. -/
  | ret (v : α)
  | depth (next : Drill α)
  | capture (maxDepth : Nat) (body next : Drill α)
  /-- Raises a status against a live checkpoint: the outermost has index 0, the innermost -1. -/
  | abort (index : Int) (code : Int32Bits)
  /-- Raises a status against an address. -/
  | abortRaw (handle : Addr) (code : Int32Bits)
  | panic (text : String)
  | guard (body next : Drill α)
  /-- Throws again what has been caught last, unless nothing is held. -/
  | rethrow (next : Drill α)
  deriving Repr

/-- What a drill writes down. -/
inductive DrillEvent (α : Type) where
  | depth (n : Nat)
  | enter (depth id : Nat)
  | returned (v : Option α)
  | aborted (code : Int32Bits)
  | refused (e : BridgeError)
  | finished (v : Option α)
  /-- Something was caught: a panic, or a signal if there is none. -/
  | caught (panic : Option Panic)

/-- The state of a drill. -/
structure Journal (α : Type) where
  /-- What has been written down, the earliest first. -/
  events : List (DrillEvent α)
  /-- The value with which the latest body has ended. -/
  value : Option α
  /-- The ticket for what has been caught last. -/
  held : Option Nat

namespace Journal

variable {α : Type}

/-- Nothing written down. -/
def empty : Journal α := ⟨[], none, none⟩

/-- One more event. -/
def write (j : Journal α) (e : DrillEvent α) : Journal α := { j with events := j.events ++ [e] }

end Journal

namespace Drill

variable {α : Type}

/-- A script of a drill, which calls no host functions. -/
abbrev DrillScript (α : Type) := Script Empty (Journal α)

/-- Writes an event down. -/
def note (e : DrillEvent α) (next : DrillScript α) : DrillScript α :=
  .modifyShared (·.write e) next

/-- The handle of a live checkpoint, given the live ones, innermost first. An index that none has
stands for address zero. -/
def handleAt (scope : List Checkpoint) (index : Int) : Addr :=
  let position := if 0 ≤ index then (scope.length : Int) - 1 - index else -1 - index
  if 0 ≤ position then
    match scope[position.toNat]? with
    | some cp => cp.handle
    | none => 0
  else 0

/-- The script of a drill inside the given checkpoints, innermost first. -/
def script : Drill α → List Checkpoint → DrillScript α
  | finish, _ => .modifyShared (fun j => { j with value := none }) .silent
  | ret v, _ => .modifyShared (fun j => { j with value := some v }) .silent
  | depth next, scope => .depth fun n => note (.depth n) (next.script scope)
  | capture maxDepth body next, scope =>
    .capture maxDepth (fun cp => note (.enter cp.depth cp.id) (body.script (cp :: scope)))
      fun
        | .error e => note (.refused e) (next.script scope)
        | .ok (.aborted code) => note (.aborted code) (next.script scope)
        | .ok (.returned _) => .shared fun j => note (.returned j.value) (next.script scope)
  | abort index code, scope => .abortTo (handleAt scope index) code
  | abortRaw handle code, _ => .abortTo handle code
  | panic text, _ => .panic text
  | guard body next, scope =>
    .guard (body.script scope)
      fun
        | .finished _ => .shared fun j => note (.finished j.value) (next.script scope)
        | .caught ticket what =>
          .modifyShared (fun j => { j with held := some ticket }) <|
            note (.caught what) (next.script scope)
  | rethrow next, scope =>
    .shared fun j =>
      match j.held with
      | some ticket => .setShared { j with held := none } (.rethrow ticket)
      | none => next.script scope

/-- The platform of drills in an address space. -/
def platform (space : AddressSpace) : Platform Empty (Journal α) :=
  .within space fun f _ => f.elim

/-- The machine about to run a drill. -/
def start (d : Drill α) : Machine Empty (Journal α) :=
  .startScript ⟨default, default⟩ (d.script []) [] .empty

end Drill

end HostBridge
