import HostBridge.Code.Basic
import HostBridge.Error
import HostBridge.Layout

/-!
# The registry of host functions

The host offers functions under names. Each name owns a slot, which it keeps; to register a name
again replaces what is in its slot. `Registry.bindExterns` connects the externs of a module with
slots before the module runs.

The registry does not care what a host function is: it is generic in the type `φ` of functions.
-/

set_option autoImplicit false

namespace HostBridge

/-- A function on offer. -/
structure HostEntry (φ : Type) where
  name : String
  arity : Nat
  function : φ
  deriving Repr

/-- The functions on offer, by slot. -/
structure Registry (φ : Type) where
  entries : List (HostEntry φ)
  deriving Repr

/-- What an extern of a module is connected with. -/
inductive Binding where
  /-- The primitive that ends a call. -/
  | abort
  /-- The host function in a slot. -/
  | host (slot : Nat)
  deriving DecidableEq, Repr

namespace Registry

variable {φ : Type}

/-- Nothing on offer. -/
def empty : Registry φ := ⟨[]⟩

/-- The slot of a name. -/
def slot? (r : Registry φ) (name : String) : Option Nat := r.entries.findIdx? (·.name = name)

/-- Offers a function under a name, in the slot of the name if it has one and else in a new one. -/
def register (r : Registry φ) (name : String) (arity : Nat) (function : φ) : Registry φ :=
  match r.slot? name with
  | some slot => ⟨r.entries.set slot ⟨name, arity, function⟩⟩
  | none => ⟨r.entries ++ [⟨name, arity, function⟩]⟩

/-- Whether a name is on offer. -/
def contains (r : Registry φ) (name : String) : Bool := (r.slot? name).isSome

/-- How many functions are on offer. -/
def size (r : Registry φ) : Nat := r.entries.length

/-- Connects one extern. The abort primitive is recognised by its name; any other name must be on
offer with as many arguments as the extern declares. -/
def bind (r : Registry φ) (e : ExternDecl) : Except BridgeError Binding :=
  if e.name = abortSymbol then .ok .abort
  else match r.slot? e.name with
    | none => .error (.unboundExtern e.name)
    | some slot =>
      match r.entries[slot]? with
      | none => .error (.unboundExtern e.name)
      | some entry =>
        if entry.arity = e.signature.params.length then .ok (.host slot)
        else .error (.host (.wrongArity e.name entry.arity e.signature.params.length))

/-- Connects the externs of a module in order; the first that cannot be connected decides. -/
def bindExterns (r : Registry φ) (m : Module) : Except BridgeError (List Binding) :=
  m.externs.mapM r.bind

end Registry

end HostBridge
