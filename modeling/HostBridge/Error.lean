import HostBridge.Code.Verify
import HostBridge.Config

/-!
# Errors

Every way in which a call can fail, as a cause. `BridgeError.message` is the one place where a
cause gets its wording.
-/

set_option autoImplicit false

namespace HostBridge

/-- A fault of generated code while it runs. -/
inductive ExecFault where
  | wrongType (expected found : Ty)
  | pointerOverflow (base : Addr)
  | usedBeforeDefinition (v : ValueId) (function : String)
  | missingBlock (block : BlockId) (function : String)
  | openBlock (block : BlockId) (function : String)
  | reachedUnreachable (function : String)
  | unknownFunction (id : FuncId)
  | externNotBound (id : ExternId)
  | hostSlotNotBound (slot : Nat)
  | abortArguments
  | noStatus
  | noEntry (module : String)
  deriving DecidableEq, Repr

/-- A failure on the side of the host. -/
inductive HostFault where
  /-- Reported by a host function in its own words. -/
  | reported (text : String)
  | wrongArity (name : String) (arity declared : Nat)
  | noValue (id : ExternId)
  deriving DecidableEq, Repr

/-- Why a call failed. -/
inductive BridgeError where
  | verify (function : String) (flaw : Flaw)
  | exec (fault : ExecFault)
  | invalidAccess (addr : Addr) (len : Nat) (write : Bool)
  | unboundExtern (name : String)
  | callDepthExceeded (limit : Nat)
  | helperDepthExceeded (limit : Nat)
  | unknownStatus (code : Int32Bits)
  | host (fault : HostFault)
  | config (fault : ConfigFault)
  deriving DecidableEq, Repr

/-- The wording of a fault of generated code. -/
def ExecFault.message : ExecFault → String
  | wrongType expected found => "expected " ++ expected.name ++ ", found " ++ found.name
  | pointerOverflow base => "pointer offset overflow at " ++ Addr.text base
  | usedBeforeDefinition v function =>
    "value %" ++ toString v ++ " used before definition in '" ++ function ++ "'"
  | missingBlock block function => "missing block" ++ toString block ++ " in '" ++ function ++ "'"
  | openBlock block function =>
    "block" ++ toString block ++ " of '" ++ function ++ "' has no terminator"
  | reachedUnreachable function => "reached unreachable code in '" ++ function ++ "'"
  | unknownFunction id => "unknown function " ++ toString id
  | externNotBound id => "extern " ++ toString id ++ " is not bound"
  | hostSlotNotBound slot => "host slot " ++ toString slot ++ " is not bound"
  | abortArguments => "abort primitive takes a checkpoint and a status"
  | noStatus => "entry function returned no status"
  | noEntry module => "module '" ++ module ++ "' has no entry function"

/-- The wording of a failure on the side of the host. -/
def HostFault.message : HostFault → String
  | reported text => text
  | wrongArity name arity declared =>
    "host function '" ++ name ++ "' takes " ++ toString arity ++ " arguments, extern declares "
      ++ toString declared
  | noValue id => "extern " ++ toString id ++ " returned no value"

/-- The wording of an error. -/
def BridgeError.message : BridgeError → String
  | verify function flaw => "verification failed in '" ++ function ++ "': " ++ flaw.message
  | exec fault => "execution error: " ++ fault.message
  | invalidAccess addr len write =>
    "invalid " ++ (if write then "write" else "read") ++ " of " ++ toString len ++ " bytes at "
      ++ Addr.text addr
  | unboundExtern name => "unbound extern '" ++ name ++ "'"
  | callDepthExceeded limit => "call depth limit " ++ toString limit ++ " exceeded"
  | helperDepthExceeded limit => "helper call depth limit " ++ toString limit ++ " exceeded"
  | unknownStatus code => "unknown status code " ++ toString code.toInt
  | host fault => "host error: " ++ fault.message
  | config fault => "config error: " ++ fault.message

end HostBridge
