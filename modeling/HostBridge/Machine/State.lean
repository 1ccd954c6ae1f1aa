import HostBridge.Host.Script
import HostBridge.Machine.Activation

/-!
# The state of the machine

The machine runs generated code and host functions in turn. Its state is what has control (`Focus`),
what is waiting for it (`Frame`, innermost first, on the side of the host, and `Call.waiting` on the
side of generated code), and what all of them share: the live checkpoints, the working memory, the
payloads that are held, and the state of the host functions.
-/

set_option autoImplicit false

namespace HostBridge

variable {φ σ : Type}

/-- What a host function can look at besides the machine: it belongs to the call that called it. -/
structure Site where
  env : Environment
  config : Config

/-- Who made a call. -/
inductive Origin (φ σ : Type) where
  /-- Nobody on this machine. -/
  | outside
  /-- A host function, which goes on with the result. -/
  | host (site : Site) (next : Except BridgeError Outcome → Script φ σ)

/-- A call at work. -/
structure Call (φ σ : Type) where
  request : CallRequest φ
  bindings : List Binding
  checkpoint : Checkpoint
  storage : Storage
  /-- The activations that wait for a function they called, innermost first, each with the value
  that takes the result. -/
  waiting : List (Activation × Option ValueId)
  /-- The counter of the active functions: the one that runs, and those that wait for it. -/
  depth : Nat
  origin : Origin φ σ

/-- How a run ends. -/
inductive Ending where
  /-- The outermost call is over. -/
  | call (result : Except BridgeError Outcome)
  /-- The outermost script is over. -/
  | script (answer : Answer)
  /-- Something unwound that nobody caught. -/
  | panic (x : Payload)

/-- What has control. -/
inductive Focus (φ σ : Type) where
  /-- Generated code. -/
  | code (c : Call φ σ) (a : Activation)
  /-- A function of generated code has ended, with a value if it has one, or with an error. -/
  | leave (c : Call φ σ) (answer : Answer)
  /-- Generated code is being left at once. -/
  | unwind (c : Call φ σ) (x : Payload)
  /-- A host function. -/
  | script (site : Site) (p : Script φ σ)
  /-- A host function is being left at once. -/
  | unwindScript (site : Site) (x : Payload)
  | halted (e : Ending)

/-- What waits for the script in control to end. -/
inductive Frame (φ σ : Type) where
  /-- An activation that called a host function, the extern it called, and the value that takes
  the result. -/
  | hostCall (c : Call φ σ) (a : Activation) (callee : ExternId) (dst : Option ValueId)
  /-- A script that took a checkpoint. -/
  | captured (cp : Checkpoint) (next : Except BridgeError Completion → Script φ σ)
  /-- A script that guards against unwinding. -/
  | guarded (next : Caught → Script φ σ)

/-- The state of the machine. -/
structure Machine (φ σ : Type) where
  focus : Focus φ σ
  control : List (Frame φ σ)
  /-- The live checkpoints, innermost first. -/
  live : List Checkpoint
  /-- The number of the next checkpoint. -/
  nextId : Nat
  /-- The payloads that have been caught, by ticket. -/
  held : List Payload
  memory : Bytes
  shared : σ

namespace Machine

/-- How the run has ended, if it has. -/
def ending? (m : Machine φ σ) : Option Ending :=
  match m.focus with
  | .halted e => some e
  | _ => none

end Machine

end HostBridge
