import HostBridge.Word

/-!
# Checkpoints

Every call runs under a checkpoint. Generated code, or a host function called from it, can end the
call at once by raising a signal against the handle of that checkpoint; the signal then leaves
everything that is active until it reaches the checkpoint. Only the innermost live checkpoint may
be signalled (`Payload.raise`): a signal against any other is itself a panic.
-/

set_option autoImplicit false

namespace HostBridge

/-- A point to which a signal returns. -/
structure Checkpoint where
  /-- How many checkpoints there were up to and including this one. -/
  id : Nat
  /-- How many checkpoints were live when this one was taken. -/
  depth : Nat
  /-- The address by which code refers to it. -/
  handle : Addr
  deriving DecidableEq, Repr

/-- A failure of a host function that is not an error of the call. -/
inductive Panic where
  | text (s : String)
  /-- A status was raised against a handle that is not the innermost live checkpoint's. -/
  | wrongCheckpoint (code : Int32Bits) (handle : Addr)
  /-- A payload was to be thrown again, but none is held. -/
  | nothingHeld
  deriving DecidableEq, Repr

/-- The wording of a panic, given how handles are shown. -/
def Panic.message (showHandle : Addr → String) : Panic → String
  | text s => s
  | wrongCheckpoint code handle =>
    "abort with status " ++ toString code.toInt ++ " raised against checkpoint "
      ++ showHandle handle ++ ", which is not the innermost live checkpoint"
  | nothingHeld => "no payload is held"

/-- What unwinds. -/
inductive Payload where
  /-- A signal to the checkpoint with the given handle. -/
  | signal (handle : Addr) (code : Int32Bits)
  | foreign (p : Panic)
  deriving DecidableEq, Repr

namespace Payload

/-- What unwinds when a status is raised against a handle, given the live checkpoints, innermost
first. -/
def raise (live : List Checkpoint) (handle : Addr) (code : Int32Bits) : Payload :=
  match live with
  | cp :: _ =>
    if cp.handle = handle then signal handle code else foreign (.wrongCheckpoint code handle)
  | [] => foreign (.wrongCheckpoint code handle)

/-- The status that a payload brings to a checkpoint, if it is a signal to it. -/
def codeFor? (cp : Checkpoint) : Payload → Option Int32Bits
  | signal handle code => if handle = cp.handle then some code else none
  | foreign _ => none

/-- The panic that a payload is, if it is not a signal. -/
def panic? : Payload → Option Panic
  | signal _ _ => none
  | foreign p => some p

end Payload

end HostBridge
