import HostBridge.Checkpoint
import HostBridge.Environment
import HostBridge.Host.Registry
import HostBridge.Status
import HostBridge.Value

/-!
# Host functions

A host function is given its arguments and then acts through a `Script`: a tree of the things that
a host function can do, each with what follows it. It can use the working memory of the call that
called it, look at the environment, the configuration and the number of live checkpoints, keep
state of its own (`σ`), take checkpoints, raise and catch panics, and make calls of its own.

A payload that is caught stays with the machine that runs the script. The script gets a ticket with
which the payload can be thrown again, so that no script can make up a signal.
-/

set_option autoImplicit false

namespace HostBridge

/-- What a call leaves behind when it ends in a status. -/
structure Outcome where
  status : Status
  gasLeft : Word
  output : Bytes
  deriving DecidableEq, Repr

/-- A call to be made. -/
structure CallRequest (φ : Type) where
  module : Module
  gas : Word
  env : Environment
  hosts : Registry φ
  config : Config

/-- What a host function answers: an error, or a value if it has one. -/
abbrev Answer := Except BridgeError (Option Val)

/-- How the body under a checkpoint ended. -/
inductive Completion where
  | returned (answer : Answer)
  | aborted (code : Int32Bits)

/-- How a guarded body ended. -/
inductive Caught where
  | finished (answer : Answer)
  /-- Something unwound: the ticket for it, and the panic if it is not a signal. -/
  | caught (ticket : Nat) (panic : Option Panic)

/-- What a host function does, over the type `φ` of host functions and the type `σ` of the state
that they share. -/
inductive Script (φ σ : Type) where
  | done (answer : Answer)
  | panic (text : String)
  /-- Raises a status against a checkpoint. -/
  | abortTo (handle : Addr) (code : Int32Bits)
  | rethrow (ticket : Nat)
  | memory (next : Bytes → Script φ σ)
  | setMemory (memory : Bytes) (next : Script φ σ)
  | environment (next : Environment → Script φ σ)
  | config (next : Config → Script φ σ)
  /-- Asks for the number of live checkpoints. -/
  | depth (next : Nat → Script φ σ)
  | shared (next : σ → Script φ σ)
  | setShared (state : σ) (next : Script φ σ)
  /-- Runs a body under a new checkpoint, if fewer than `maxDepth` are live. -/
  | capture (maxDepth : Nat) (body : Checkpoint → Script φ σ)
    (next : Except BridgeError Completion → Script φ σ)
  /-- Runs a body and catches whatever unwinds. -/
  | guard (body : Script φ σ) (next : Caught → Script φ σ)
  /-- Makes a call on the current working memory. -/
  | call (request : CallRequest φ) (next : Except BridgeError Outcome → Script φ σ)

namespace Script

variable {φ σ : Type}

/-- Goes on with the result of a fallible computation, or answers its error. -/
def attempt {α : Type} (result : Except BridgeError α) (next : α → Script φ σ) : Script φ σ :=
  match result with
  | .ok a => next a
  | .error e => done (.error e)

/-- Answers with a value. -/
def answer (v : Val) : Script φ σ := done (.ok (some v))

/-- Answers without a value. -/
def silent : Script φ σ := done (.ok none)

/-- Fails with an error in the words of the host. -/
def fail (text : String) : Script φ σ := done (.error (.host (.reported text)))

/-- Changes the shared state. -/
def modifyShared (change : σ → σ) (next : Script φ σ) : Script φ σ :=
  shared fun s => setShared (change s) next

/-- Makes a call on a working memory of its own. The memory of the script is put back when the call
is over, also if it ends by unwinding. What follows is told the result and the call's memory. -/
def callWith (own : Bytes) (request : CallRequest φ)
    (next : Except BridgeError Outcome → Bytes → Script φ σ) : Script φ σ :=
  memory fun saved => setMemory own <|
    guard (call request fun result => memory fun after => setMemory saved (next result after))
      fun
        | .finished r => done r
        | .caught ticket _ => setMemory saved (rethrow ticket)

end Script

/-- What a host is made of: what its functions do, and where the blocks and checkpoints of calls
lie in memory. -/
structure Platform (φ σ : Type) where
  behaviour : φ → List Val → Script φ σ
  /-- The address of the runtime block of a call at the given depth. -/
  blockAt : Nat → Addr
  /-- The handle of the checkpoint with the given number. -/
  handleAt : Nat → Addr

/-- The platform of host functions in an address space. -/
def Platform.within {φ σ : Type} (space : AddressSpace) (behaviour : φ → List Val → Script φ σ) :
    Platform φ σ :=
  ⟨behaviour, space.blockAt, space.handleAt⟩

end HostBridge
