import HostBridge.Word

/-!
# Status codes

Generated code leaves a call with a 32-bit status. `Status` lists the eight that mean something;
`Status.ofCode?` recognises them, and those below 100 are successes.
-/

set_option autoImplicit false

namespace HostBridge

/-- How a call ended. -/
inductive Status where
  | stop
  | ret
  | suicide
  | badJumpDestination
  | outOfGas
  | stackTooSmall
  | badInstruction
  | stackOverflow
  deriving DecidableEq, Repr

namespace Status

/-- All statuses, by code. -/
def all : List Status :=
  [stop, ret, suicide, badJumpDestination, outOfGas, stackTooSmall, badInstruction, stackOverflow]

/-- The number of a status. -/
def number : Status → Nat
  | stop => 0
  | ret => 1
  | suicide => 2
  | badJumpDestination => 101
  | outOfGas => 102
  | stackTooSmall => 103
  | badInstruction => 104
  | stackOverflow => 105

/-- The code with which generated code reports a status. -/
def code (s : Status) : Int32Bits := BitVec.ofNat 32 s.number

/-- The status that a code reports. -/
def ofCode? (c : Int32Bits) : Option Status := all.find? (·.code = c)

@[simp] theorem ofCode?_code (s : Status) : ofCode? s.code = some s := by
  cases s <;> rfl

/-- Whether a call that ends so has succeeded. -/
def isSuccess (s : Status) : Bool := s.number < 100

/-- The name of a status. -/
def name : Status → String
  | stop => "stop"
  | ret => "return"
  | suicide => "suicide"
  | badJumpDestination => "bad-jump-destination"
  | outOfGas => "out-of-gas"
  | stackTooSmall => "stack-too-small"
  | badInstruction => "bad-instruction"
  | stackOverflow => "stack-overflow"

/-- The status with a name. -/
def ofName? (name : String) : Option Status := all.find? (·.name = name)

/-- The name and the number of a status, as reports show it. -/
def text (s : Status) : String := s.name ++ " (" ++ toString s.number ++ ")"

end Status

end HostBridge
