import HostBridge.RuntimeBlock
import HostBridge.Value

/-!
# What generated code can address

Generated code works with plain addresses. An access is good if all its bytes lie in one of three
regions, looked at in this order: the runtime block, which may be written, the call data and the
code, which may not.
-/

set_option autoImplicit false

namespace HostBridge

/-- A part of memory that generated code can address. -/
inductive Region where
  | block
  | callData
  | code
  deriving DecidableEq, Repr

/-- The regions in the order in which they are looked at. -/
def Region.all : List Region := [block, callData, code]

/-- Whether generated code may write to a region. -/
def Region.writable : Region → Bool
  | block => true
  | callData | code => false

/-- What generated code can address: the runtime block at its place, and the environment's buffers
at theirs. -/
structure Storage where
  base : Addr
  block : RuntimeBlock
  env : Environment
  deriving DecidableEq, Repr

namespace Storage

/-- Where a region starts. -/
def start (s : Storage) : Region → Addr
  | .block => s.base
  | .callData => s.env.callDataAt
  | .code => s.env.codeAt

/-- The bytes of a region. -/
def bytes (s : Storage) : Region → Bytes
  | .block => s.block.bytes
  | .callData => s.env.snapshot.callData
  | .code => s.env.snapshot.code

/-- Whether `len` bytes from `addr` on lie in a region. -/
def Holds (s : Storage) (r : Region) (addr : Addr) (len : Nat) : Prop :=
  (s.start r).toNat ≤ addr.toNat ∧
    addr.toNat - (s.start r).toNat + len ≤ (s.bytes r).length

instance (s : Storage) (r : Region) (addr : Addr) (len : Nat) : Decidable (s.Holds r addr len) :=
  inferInstanceAs (Decidable (_ ∧ _))

/-- The first region in which an access lies. -/
def resolve? (s : Storage) (addr : Addr) (len : Nat) : Option Region :=
  Region.all.find? fun r => s.Holds r addr len

/-- The bytes of an access. -/
def fetch (s : Storage) (addr : Addr) (len : Nat) : Except BridgeError Bytes :=
  match s.resolve? addr len with
  | some r => .ok (Bytes.slice (s.bytes r) (addr.toNat - (s.start r).toNat) len)
  | none => .error (.invalidAccess addr len false)

/-- Reads a value. -/
def load (s : Storage) (ty : Ty) (addr : Addr) : Except BridgeError Val :=
  (s.fetch addr ty.size).map fun bs => .ofNumber ty (Bytes.number bs)

theorem holds_of_resolve? {s : Storage} {addr : Addr} {len : Nat} {r : Region}
    (found : s.resolve? addr len = some r) : s.Holds r addr len := by
  simpa using List.find?_some found

theorem fits_of_holds {s : Storage} {addr : Addr} {len : Nat} (holds : s.Holds .block addr len) :
    addr.toNat - s.base.toNat + len ≤ runtimeDataSize := by
  have whole : (s.bytes .block).length = runtimeDataSize := s.block.length_eq
  rw [← whole]
  exact holds.2

/-- The region that may be written is the block. -/
theorem holds_of_writable {s : Storage} {addr : Addr} {len : Nat} {r : Region}
    (found : s.resolve? addr len = some r) (writable : r.writable = true) :
    s.Holds .block addr len := by
  cases r with
  | block => exact holds_of_resolve? found
  | callData | code => cases writable

/-- Writes a value, if the first region in which the access lies may be written. -/
def store (s : Storage) (addr : Addr) (v : Val) : Except BridgeError Storage :=
  match found : s.resolve? addr v.ty.size with
  | some r =>
    if writable : r.writable = true then
      .ok { s with
        block := s.block.write (addr.toNat - s.base.toNat) v.octets
          (fits_of_holds (holds_of_writable found writable)) }
    else .error (.invalidAccess addr v.ty.size true)
  | none => .error (.invalidAccess addr v.ty.size true)

/-- Reads the byte at an index behind an address. An index of more than 64 bits, or one that leads
out of the address space, is reported at the address itself. -/
def loadByte (s : Storage) (base : Addr) (index : Word) : Except BridgeError Word :=
  match index.image.toSize?.bind base.add? with
  | some addr => (s.fetch addr 1).map fun bs => BitVec.ofNat 256 (Bytes.number bs)
  | none => .error (.invalidAccess base 1 false)

variable {s : Storage} {addr : Addr} {v : Val}

/-- The block is looked at first, so a write looks at nothing else. -/
theorem store_of_holds (holds : s.Holds .block addr v.ty.size) :
    s.store addr v = .ok { s with
      block := s.block.write (addr.toNat - s.base.toNat) v.octets (fits_of_holds holds) } := by
  have first : s.resolve? addr v.ty.size = some .block :=
    List.find?_cons_of_pos (decide_eq_true holds)
  unfold store
  split
  · next r found =>
    obtain rfl : Region.block = r := Option.some.inj (first.symm.trans found)
    exact dif_pos rfl
  · next found => cases first.symm.trans found

theorem store_outside (outside : ¬ s.Holds .block addr v.ty.size) :
    s.store addr v = .error (.invalidAccess addr v.ty.size true) := by
  unfold store
  split
  · next r found =>
    rw [dif_neg fun writable => outside (holds_of_writable found writable)]
  · rfl

/-- Base and index are added as exact numbers. -/
theorem loadByte_eq (s : Storage) (base : Addr) (index : Word) :
    s.loadByte base index =
      if base.toNat + index.toNat < Bytes.capacity pointerSize then
        (s.fetch (BitVec.ofNat 64 (base.toNat + index.toNat)) 1).map fun bs =>
          BitVec.ofNat 256 (Bytes.number bs)
      else .error (.invalidAccess base 1 false) := by
  have number : index.image.number = index.toNat := by
    rw [← Word.toNat_ofImage, Word.ofImage_image]
  rw [loadByte, WordImage.toSize?_eq, number]
  by_cases narrow : index.toNat < Bytes.capacity pointerSize
  · rw [if_pos narrow, Option.bind_some]
    by_cases inside : base.toNat + index.toNat < Bytes.capacity pointerSize
    · rw [Addr.add?_of_lt inside, if_pos inside]
    · rw [Addr.add?, if_neg inside, if_neg inside]
  · rw [if_neg narrow, if_neg (by omega)]
    rfl

end Storage

end HostBridge
