import HostBridge.Error

/-!
# Values at run time

A value is a word, an address or a 32-bit integer. Each is kept in memory as a number, least
significant byte first, in as many bytes as its type takes.
-/

set_option autoImplicit false

namespace HostBridge

/-- A value of generated code. -/
inductive Val where
  | word (w : Word)
  | ptr (a : Addr)
  | i32 (n : Int32Bits)
  deriving DecidableEq, Repr

namespace Val

/-- The type of a value. -/
def ty : Val → Ty
  | word _ => .word
  | ptr _ => .ptr
  | i32 _ => .i32

/-- The word that a value must be. -/
def asWord : Val → Except BridgeError Word
  | word w => .ok w
  | v => .error (.exec (.wrongType .word v.ty))

/-- The address that a value must be. -/
def asPtr : Val → Except BridgeError Addr
  | ptr a => .ok a
  | v => .error (.exec (.wrongType .ptr v.ty))

/-- The integer that a value must be. -/
def asI32 : Val → Except BridgeError Int32Bits
  | i32 n => .ok n
  | v => .error (.exec (.wrongType .i32 v.ty))

/-- A value that must have a type. -/
def expect (ty : Ty) (v : Val) : Except BridgeError Val :=
  if v.ty = ty then .ok v else .error (.exec (.wrongType ty v.ty))

/-- The number that stands for a value in memory. -/
def number : Val → Nat
  | word w => w.toNat
  | ptr a => a.toNat
  | i32 n => n.toNat

/-- The value of a type for which a number stands. -/
def ofNumber (ty : Ty) (n : Nat) : Val :=
  match ty with
  | .word => word (BitVec.ofNat 256 n)
  | .ptr => ptr (BitVec.ofNat 64 n)
  | .i32 => i32 (BitVec.ofNat 32 n)

/-- The bytes of a value in memory. -/
def octets (v : Val) : Octets v.ty.size := Octets.ofNumber v.ty.size v.number

@[simp] theorem ty_ofNumber (ty : Ty) (n : Nat) : (ofNumber ty n).ty = ty := by
  cases ty <;> rfl

theorem ofNumber_number (v : Val) : ofNumber v.ty v.number = v := by
  cases v <;> simp [ofNumber, ty, number]

theorem number_lt (v : Val) : v.number < Bytes.capacity v.ty.size := by
  cases v with
  | word w => exact w.isLt
  | ptr a => exact a.isLt
  | i32 n => exact n.isLt

end Val

end HostBridge
