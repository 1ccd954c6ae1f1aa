import HostBridge.Proofs.Buffers
import HostBridge.Proofs.Context
import Mathlib.Data.List.Induction

/-!
# One block, two sides

The host reaches a field of the runtime block by its name, generated code through a word at the
field's offset behind the block's address. Neither side knows how the other computes. Here both write
fields, one after the other in any order (`Storage.writeAll`), and whoever reads a field afterwards
finds what was written to it last, by whichever side (`lastWord`).

* `Storage.write_eq` — a write of one side does what the same write of the other does;
* `Storage.get_writeAll`, `Storage.pointer_writeAll` — what any number of writes leaves in the fields
  and in the pointers;
* `Storage.sides_agree` — both sides read the same from the block of a new call.
-/

set_option autoImplicit false

namespace HostBridge

/-- Who uses a runtime block. -/
inductive Side where
  | host
  | code
  deriving DecidableEq, Repr

/-- A word that one side writes to a field. -/
structure FieldWrite where
  side : Side
  field : RuntimeField
  word : Word
  deriving DecidableEq, Repr

/-- The word that was written last to a field, if any was. -/
def lastWord? (writes : List FieldWrite) (field : RuntimeField) : Option Word :=
  ((writes.filter fun w => w.field = field).getLast?).map FieldWrite.word

theorem lastWord?_concat (writes : List FieldWrite) (w : FieldWrite) (field : RuntimeField) :
    lastWord? (writes ++ [w]) field =
      if w.field = field then some w.word else lastWord? writes field := by
  by_cases same : w.field = field <;> simp [lastWord?, same]

namespace Storage

variable {s : Storage}

/-- The place of a slot behind the address of the block. -/
def behind (s : Storage) (slot : Slot) : Addr := s.base + BitVec.ofNat 64 slot.offset

theorem behind_eq (s : Storage) (slot : Slot) : s.behind slot = s.slotAt slot := by
  rw [behind, slotAt, Slot.place_toNat, BitVec.ofNat_add, BitVec.ofNat_toNat, BitVec.setWidth_eq]

/-- Writes a field: the host by its name, code by its place. -/
def write (s : Storage) (w : FieldWrite) : Except BridgeError Storage :=
  match w.side with
  | .host => .ok { s with block := s.block.set w.field w.word }
  | .code => s.store (s.behind (.word w.field)) (.word w.word)

/-- Writes fields one after the other. -/
def writeAll (s : Storage) (writes : List FieldWrite) : Except BridgeError Storage :=
  writes.foldlM write s

/-- It makes no difference which side writes. -/
theorem write_eq (fits : s.Fits) (w : FieldWrite) :
    s.write w = .ok { s with block := s.block.set w.field w.word } := by
  cases side : w.side with
  | host => simp only [write, side]
  | code => simp only [write, side, behind_eq, store_word fits]

/-- Writes do not fail, and they change the block alone. -/
theorem writeAll_eq (fits : s.Fits) (writes : List FieldWrite) :
    s.writeAll writes = .ok { s with
      block := writes.foldl (fun b w => b.set w.field w.word) s.block } := by
  induction writes generalizing s with
  | nil => rfl
  | cons w writes ih =>
    rw [writeAll, List.foldlM_cons, write_eq fits]
    show writeAll { s with block := s.block.set w.field w.word } writes = _
    rw [ih (fits.anyBlock _), List.foldl_cons]

end Storage

namespace RuntimeBlock

variable (b : RuntimeBlock) (writes : List FieldWrite)

/-- A field holds what was written to it last. -/
theorem get_writes (field : RuntimeField) :
    (writes.foldl (fun b w => b.set w.field w.word) b).get field =
      (lastWord? writes field).getD (b.get field) := by
  induction writes using List.reverseRecOn with
  | nil => rfl
  | append_singleton writes w ih =>
    rw [List.foldl_append, List.foldl_cons, List.foldl_nil, get_set, lastWord?_concat]
    by_cases same : field = w.field
    · rw [same, Function.update_self, if_pos rfl, Option.getD_some]
    · rw [Function.update_of_ne same, if_neg (Ne.symm same), ih]

theorem pointer_writes (p : PointerSlot) :
    (writes.foldl (fun b w => b.set w.field w.word) b).pointer p = b.pointer p := by
  induction writes generalizing b with
  | nil => rfl
  | cons w writes ih => rw [List.foldl_cons, ih, pointer_set]

end RuntimeBlock

namespace Storage

/-- **Both sides see the same block.** After any writes of fields by host and code to the block of a
new call, the host reads from each field the word that was written to it last, or else the one of the
context; its image says the same, and so does what code reads at the field's place. The pointers are
those that the block was made with. -/
theorem sides_agree {base : Addr}
    (fits : base.toNat + runtimeDataSize ≤ Bytes.capacity pointerSize) (gas : Word)
    (env : Environment) (checkpoint : Addr) (writes : List FieldWrite) :
    ∃ s, writeAll ⟨base, .construct gas env checkpoint, env⟩ writes = .ok s ∧
      (∀ field, ∃ w, w = (lastWord? writes field).getD (env.snapshot.contextWord gas field) ∧
        s.block.get field = w ∧
        s.block.image field = w.image ∧
        s.load .word (base + BitVec.ofNat 64 (Slot.word field).offset) = .ok (.word w)) ∧
      s.load .ptr (base + BitVec.ofNat 64 (Slot.pointer .callData).offset) =
        .ok (.ptr env.callDataAt) ∧
      s.load .ptr (base + BitVec.ofNat 64 (Slot.pointer .code).offset) = .ok (.ptr env.codeAt) ∧
      s.load .ptr (base + BitVec.ofNat 64 (Slot.pointer .checkpoint).offset) =
        .ok (.ptr checkpoint) := by
  let start : Storage := ⟨base, .construct gas env checkpoint, env⟩
  have fitsStart : start.Fits := fits
  refine ⟨_, writeAll_eq fitsStart writes, ?_⟩
  generalize block : writes.foldl (fun b w => b.set w.field w.word) start.block = b
  have word (field : RuntimeField) :
      b.get field = (lastWord? writes field).getD (env.snapshot.contextWord gas field) := by
    rw [← block, RuntimeBlock.get_writes, RuntimeBlock.get_construct, Fields.initial_eq]
  have pointer (p : PointerSlot) : b.pointer p = start.block.pointer p := by
    rw [← block, RuntimeBlock.pointer_writes]
  let last : Storage := { start with block := b }
  have load (slot : Slot) :
      last.load slot.ty (base + BitVec.ofNat 64 slot.offset) = .ok (last.content slot) := by
    have fitsLast : last.Fits := fitsStart.anyBlock b
    rw [show base + _ = last.slotAt slot from behind_eq last slot, load_slot fitsLast]
  have loadPointer (p : PointerSlot) :
      last.load .ptr (base + BitVec.ofNat 64 (Slot.pointer p).offset) =
        .ok (.ptr (start.block.pointer p)) := by
    rw [← pointer]
    exact load (.pointer p)
  refine ⟨?_, ?_, ?_, ?_⟩
  · intro field
    exact ⟨b.get field, word field, rfl, (Word.image_ofImage _).symm, load (.word field)⟩
  · rw [loadPointer, RuntimeBlock.pointer_construct]
  · rw [loadPointer, RuntimeBlock.pointer_construct]
  · rw [loadPointer, RuntimeBlock.pointer_construct]

/-- Host and code write the gas in turn, to a block that ends with the address space. The code's word
is the last, whatever else is written to its neighbour, and a field that is left alone has the word of
the context. -/
theorem sides_agree_gas :
    ∃ s, writeAll
        ⟨-536, .construct 9 default 0x1234, default⟩
        [⟨.host, .gas, -1⟩, ⟨.code, .gas, 7⟩, ⟨.host, .address, -1⟩] = .ok s ∧
      s.block.get .gas = 7 ∧
      s.load .word (-536 + BitVec.ofNat 64 (Slot.word .gas).offset) = .ok (.word 7) ∧
      s.block.get .caller = 0 := by
  have fits : (-536 : Addr).toNat + runtimeDataSize ≤ Bytes.capacity pointerSize := by decide
  obtain ⟨s, written, fields, -⟩ := sides_agree fits 9 default 0x1234
    [⟨.host, .gas, -1⟩, ⟨.code, .gas, 7⟩, ⟨.host, .address, -1⟩]
  obtain ⟨_, rfl, host, -, code⟩ := fields .gas
  obtain ⟨_, rfl, caller, -⟩ := fields .caller
  exact ⟨s, written, host, code, caller⟩

end Storage

end HostBridge
