import HostBridge.AddressSpace
import HostBridge.Host.Script
import HostBridge.Machine.Activation

/-!
# Slots in memory

Generated code reaches a slot of the runtime block through its address: the address of the block
and the offset of the slot. If the block does not reach beyond the end of the address space
(`Storage.Fits`), then an access there is always good and meets the slot that the host knows by
name.

* `Storage.load_slot` — what is read is what the slot holds;
* `Storage.store_word` — a word that is written is what the field holds from then on;
* `Storage.store_pointers` — whatever is written to a field, the pointers stay;
* `Inst.effect_place` — the address of a slot is what an instruction makes of the block's address;
* `Platform.BlocksFit` — all blocks of a platform are within the address space.
-/

set_option autoImplicit false

namespace HostBridge

theorem Ty.size_pos (ty : Ty) : 0 < ty.size := by
  cases ty <;> decide

theorem Ty.size_le (ty : Ty) : ty.size ≤ wordSize := by
  cases ty <;> decide

namespace Slot

/-- The offset of a slot as code states it. -/
def place (slot : Slot) : BitVec 32 := BitVec.ofNat 32 slot.offset

/-- The type of what a slot holds. -/
def ty : Slot → Ty
  | word _ => .word
  | pointer _ => .ptr

@[simp] theorem place_toNat (slot : Slot) : slot.place.toNat = slot.offset := by
  cases slot with
  | word field => cases field <;> rfl
  | pointer p => cases p <;> rfl

theorem offset_le (slot : Slot) : slot.offset + slot.ty.size ≤ runtimeDataSize := by
  cases slot with
  | word field => exact offset_word_le field
  | pointer p => exact offset_pointer_le p

/-- No other slot lies where the handle of the checkpoint does. -/
theorem eq_checkpoint_of_place {slot : Slot}
    (same : slot.place = (pointer .checkpoint).place) : slot = pointer .checkpoint := by
  cases slot with
  | word field => cases field <;> cases same
  | pointer p => cases p <;> first | rfl | cases same

end Slot

namespace Storage

variable {s : Storage}

/-- The runtime block does not reach beyond the end of the address space. -/
def Fits (s : Storage) : Prop := s.base.toNat + runtimeDataSize ≤ Bytes.capacity pointerSize

/-- It does not matter what is in the block. -/
theorem Fits.anyBlock (fits : s.Fits) (b : RuntimeBlock) : Fits { s with block := b } := fits

/-- The address of a slot, as code computes it. -/
def slotAt (s : Storage) (slot : Slot) : Addr :=
  BitVec.ofNat 64 (s.base.toNat + slot.place.toNat)

/-- What a slot holds. -/
def content (s : Storage) : Slot → Val
  | .word field => .word (s.block.get field)
  | .pointer p => .ptr (s.block.pointer p)

theorem slotAt_lt (fits : s.Fits) (slot : Slot) :
    s.base.toNat + slot.place.toNat < Bytes.capacity pointerSize := by
  have inside := slot.offset_le
  have size := slot.ty.size_pos
  rw [Slot.place_toNat]
  unfold Fits at fits
  omega

theorem slotAt_toNat (fits : s.Fits) (slot : Slot) :
    (s.slotAt slot).toNat = s.base.toNat + slot.offset := by
  have bound : s.base.toNat + slot.place.toNat < 2 ^ 64 := slotAt_lt fits slot
  rw [slotAt, BitVec.toNat_ofNat, Nat.mod_eq_of_lt bound, Slot.place_toNat]

/-- An access to a slot, or to the first part of it, lies in the block. -/
theorem holds_slot (fits : s.Fits) (slot : Slot) {len : Nat} (le : len ≤ slot.ty.size) :
    s.Holds .block (s.slotAt slot) len := by
  have inside := slot.offset_le
  have whole : (s.bytes .block).length = runtimeDataSize := s.block.length_eq
  rw [Holds, whole, slotAt_toNat fits, start]
  omega

theorem fetch_slot (fits : s.Fits) (slot : Slot) :
    s.fetch (s.slotAt slot) slot.ty.size =
      .ok (Bytes.slice s.block.bytes slot.offset slot.ty.size) := by
  have distance : (s.slotAt slot).toNat - s.base.toNat = slot.offset := by
    rw [slotAt_toNat fits, Nat.add_sub_cancel_left]
  have first : s.resolve? (s.slotAt slot) slot.ty.size = some .block :=
    List.find?_cons_of_pos (decide_eq_true (holds_slot fits slot (Nat.le_refl _)))
  rw [fetch, first]
  exact congrArg (fun n => Except.ok (Bytes.slice s.block.bytes n slot.ty.size)) distance

theorem load_slot (fits : s.Fits) (slot : Slot) :
    s.load slot.ty (s.slotAt slot) = .ok (s.content slot) := by
  rw [load, fetch_slot fits]
  cases slot with
  | word field =>
    rw [content, RuntimeBlock.get, RuntimeBlock.image_eq_read]
    rfl
  | pointer p =>
    rw [content, RuntimeBlock.pointer_eq_read]
    rfl

/-- A word that code writes at the offset of a field is one that the host writes to the field. -/
theorem store_word (fits : s.Fits) (field : RuntimeField) (w : Word) :
    s.store (s.slotAt (.word field)) (.word w) =
      .ok { s with block := s.block.set field w } := by
  have distance : (s.slotAt (.word field)).toNat - s.base.toNat = (Slot.word field).offset := by
    rw [slotAt_toNat fits, Nat.add_sub_cancel_left]
  have holds : s.Holds .block (s.slotAt (.word field)) (Val.word w).ty.size :=
    holds_slot fits _ (Nat.le_refl _)
  rw [store_of_holds holds, RuntimeBlock.set, RuntimeBlock.setImage_eq_write]
  simp only [distance]
  rfl

/-- Whatever its type, a value in a field does not reach into a pointer. -/
theorem store_pointers (fits : s.Fits) (field : RuntimeField) (v : Val) :
    ∃ block, s.store (s.slotAt (.word field)) v = .ok { s with block := block } ∧
      ∀ p, block.pointer p = s.block.pointer p := by
  refine ⟨_, store_of_holds (holds_slot fits _ v.ty.size_le), ?_⟩
  intro p
  have size := v.ty.size_le
  have apart := Slot.offset_word_le_pointer field p
  rw [RuntimeBlock.pointer_eq_read, Octets.read_write_of_disjoint _ _ _ _ (.inr ?_),
    ← RuntimeBlock.pointer_eq_read]
  rw [slotAt_toNat fits]
  omega

end Storage

/-- An instruction that adds the offset of a slot to the address of the block comes to the slot. -/
theorem Inst.effect_place {s : Storage} (fits : s.Fits) {a : Activation} {handle : ValueId}
    (holds : a.read handle = .ok (.ptr s.base)) (dst : ValueId) (slot : Slot) :
    (ptrOffset dst handle slot.place).effect s a = .ok (.define dst (.ptr (s.slotAt slot))) := by
  have reached : s.base.add? slot.place.toNat = some (s.slotAt slot) :=
    Addr.add?_of_lt (Storage.slotAt_lt fits slot)
  simp only [effect, holds, Val.asPtr, bind, Except.bind, reached]
  rfl

/-! ## Platforms -/

variable {φ σ : Type}

/-- The runtime blocks do not reach beyond the end of the address space. -/
def Platform.BlocksFit (p : Platform φ σ) : Prop :=
  ∀ depth, (p.blockAt depth).toNat + runtimeDataSize ≤ Bytes.capacity pointerSize

/-- The blocks of the usual address space fit, at whatever depth. -/
theorem Platform.BlocksFit.usual (behaviour : φ → List Val → Script φ σ) :
    (Platform.within .usual behaviour).BlocksFit := by
  intro depth
  have aligned : ((AddressSpace.usual.blockAt depth).toNat) % 0x10000 = 0 := by
    show (BitVec.ofNat 64 (AddressSpace.Zone.block.start + 0 + depth * 0x10000)).toNat % _ = 0
    rw [BitVec.toNat_ofNat, AddressSpace.Zone.start, AddressSpace.Zone.size]
    omega
  have bound : (AddressSpace.usual.blockAt depth).toNat < 2 ^ 64 := BitVec.isLt _
  have size : runtimeDataSize = 536 := rfl
  have whole : Bytes.capacity pointerSize = 2 ^ 64 := rfl
  show (AddressSpace.usual.blockAt depth).toNat + _ ≤ _
  omega

end HostBridge
