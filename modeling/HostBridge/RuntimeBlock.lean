import HostBridge.Environment

/-!
# The runtime block

The block of memory that a call shares with its generated code. The two sides know it in different
ways. The host declares it as a record, `RuntimeData`: an array of words, in which each field has its
position, and three pointers, each with a name. Generated code sees bytes, and finds a slot at its
offset (`HostBridge.Layout`).

In memory the parts of the record stand one after the other (`RuntimeData.layOut`). Whatever bytes the
block has, they are those of one record (`RuntimeBlock.data`, with `data_layOut` and `layOut_data`), so
the host can go on with the record after code has written. That both sides mean the same place by the
same slot is a theorem:

* `RuntimeBlock.image_eq_read`, `RuntimeBlock.pointer_eq_read` — what the host finds in a slot is what
  the memory has at the slot's offset;
* `RuntimeBlock.setImage_eq_write` — to write a field is to write the memory at its offset.

`RuntimeData.construct` fills the record for a new call, and `RuntimeBlock.returnData` is what the
call returns from the working memory.
-/

set_option autoImplicit false

namespace HostBridge

/-- The bytes of a runtime block. -/
abbrev RuntimeBlock := Octets runtimeDataSize

/-- The runtime block as the host declares it. -/
@[ext] structure RuntimeData where
  words : Vector WordImage RuntimeField.count
  callData : Addr
  code : Addr
  checkpoint : Addr
  deriving DecidableEq, Repr

namespace RuntimeData

variable (d : RuntimeData)

/-- The record with zeros in all its parts. -/
def zeroed : RuntimeData := ⟨Vector.replicate _ (Octets.zero _), 0, 0, 0⟩

/-- The image in a field. -/
def word (field : RuntimeField) : WordImage := getElem d.words field.index field.index_lt

/-- The record with another image in a field. -/
def setWord (field : RuntimeField) (i : WordImage) : RuntimeData :=
  { d with words := d.words.set field.index i field.index_lt }

/-- The address in a pointer slot. -/
def pointer : PointerSlot → Addr
  | .callData => d.callData
  | .code => d.code
  | .checkpoint => d.checkpoint

@[simp] theorem word_setWord_self (field : RuntimeField) (i : WordImage) :
    (d.setWord field i).word field = i :=
  Vector.getElem_set_self field.index_lt

theorem word_setWord_of_ne {field other : RuntimeField} (h : other ≠ field) (i : WordImage) :
    (d.setWord field i).word other = d.word other :=
  Vector.getElem_set_ne field.index_lt other.index_lt fun same =>
    h (RuntimeField.eq_of_index same).symm

@[simp] theorem pointer_setWord (field : RuntimeField) (i : WordImage) (slot : PointerSlot) :
    (d.setWord field i).pointer slot = d.pointer slot := by
  cases slot <;> rfl

/-- The record with its context fields filled, each with the answer of the environment. -/
def fillContext (gas : Word) (s : Snapshot) : RuntimeData :=
  RuntimeField.all.foldl (fun d field =>
    match contextValue? field gas s with
    | some i => d.setWord field i
    | none => d) zeroed

/-- The record of a new call. -/
def construct (gas : Word) (env : Environment) (checkpoint : Addr) : RuntimeData :=
  { fillContext gas env.snapshot with
    callData := env.callDataAt
    code := env.codeAt
    checkpoint := checkpoint }

/-! ## The record in memory -/

/-- The bytes of the words, in order. -/
def wordBytes : Bytes := d.words.toList.flatMap Octets.bytes

/-- The bytes of the pointers, in the order of their declaration. -/
def pointerBytes : Bytes :=
  [d.callData, d.code, d.checkpoint].flatMap fun a => (Addr.octets a).bytes

theorem length_wordBytes : d.wordBytes.length = wordArraySize := by
  rw [wordBytes, Bytes.length_flatMap Octets.length_eq, Vector.length_toList, wordArraySize]

theorem length_pointerBytes : d.pointerBytes.length = PointerSlot.count * pointerSize :=
  Bytes.length_flatMap (fun a => (Addr.octets a).length_eq) _

/-- The bytes of the record: the words, and behind them the pointers. -/
def layOut : RuntimeBlock :=
  ⟨d.wordBytes ++ d.pointerBytes, by
    rw [List.length_append, length_wordBytes, length_pointerBytes, runtimeDataSize]⟩

end RuntimeData

namespace RuntimeBlock

variable (b : RuntimeBlock)

theorem word_bound {i : Nat} (h : i < RuntimeField.count) :
    i * wordSize + wordSize ≤ runtimeDataSize := by
  rw [← Nat.succ_mul]
  exact Nat.le_trans (Nat.mul_le_mul_right _ h) (by decide)

/-- The word at a position of the array. -/
def wordAt (i : Nat) (h : i < RuntimeField.count) : WordImage :=
  b.read (i * wordSize) wordSize (word_bound h)

theorem pointer_bound {i : Nat} (h : i < PointerSlot.count) :
    wordArraySize + i * pointerSize + pointerSize ≤ runtimeDataSize := by
  rw [Nat.add_assoc, ← Nat.succ_mul]
  exact Nat.add_le_add_left (Nat.mul_le_mul_right _ h) _

/-- The pointer at a position behind the array. -/
def pointerAt (i : Nat) (h : i < PointerSlot.count) : Addr :=
  .ofOctets (b.read (wordArraySize + i * pointerSize) pointerSize (pointer_bound h))

/-- The record whose bytes the block has. -/
def data : RuntimeData where
  words := Vector.ofFn fun i => b.wordAt i i.isLt
  callData := b.pointerAt 0 (by decide)
  code := b.pointerAt 1 (by decide)
  checkpoint := b.pointerAt 2 (by decide)

theorem wordAt_layOut (d : RuntimeData) (i : Nat) (h : i < RuntimeField.count) :
    d.layOut.wordAt i h = d.words[i] := by
  apply Octets.ext
  have inside : i * wordSize + wordSize ≤ d.wordBytes.length := by
    rw [d.length_wordBytes, wordArraySize, ← Nat.succ_mul]
    exact Nat.mul_le_mul_right _ h
  show Bytes.slice (d.wordBytes ++ d.pointerBytes) (i * wordSize) wordSize = _
  rw [Bytes.slice_append_left inside, RuntimeData.wordBytes,
    Bytes.slice_flatMap Octets.length_eq _ (by rwa [Vector.length_toList]), Vector.getElem_toList]

theorem pointerAt_layOut (d : RuntimeData) (i : Nat) (h : i < PointerSlot.count) :
    d.layOut.pointerAt i h = getElem [d.callData, d.code, d.checkpoint] i h := by
  rw [pointerAt, ← Addr.ofOctets_octets (getElem [d.callData, d.code, d.checkpoint] i h)]
  congr 1
  apply Octets.ext
  show Bytes.slice (d.wordBytes ++ d.pointerBytes) (wordArraySize + i * pointerSize) pointerSize = _
  rw [Bytes.slice_append_right d.length_wordBytes]
  exact Bytes.slice_flatMap (fun a => (Addr.octets a).length_eq) _ h

/-- A record is read back from its bytes. -/
@[simp] theorem data_layOut (d : RuntimeData) : d.layOut.data = d := by
  have words : Vector.ofFn (fun i => d.layOut.wordAt i i.isLt) = d.words := by
    apply Vector.ext
    intro i h
    rw [Vector.getElem_ofFn, wordAt_layOut]
  rw [data, words, pointerAt_layOut, pointerAt_layOut, pointerAt_layOut]
  rfl

theorem octets_pointerAt (i : Nat) (h : i < PointerSlot.count) :
    (Addr.octets (b.pointerAt i h)).bytes =
      Bytes.slice (b.bytes.drop wordArraySize) (i * pointerSize) pointerSize := by
  rw [pointerAt, Addr.octets_ofOctets, Bytes.slice, List.drop_drop]
  rfl

/-- Whatever the bytes of a block are, they are those of a record. -/
@[simp] theorem layOut_data : b.data.layOut = b := by
  have words : b.data.wordBytes = b.bytes.take wordArraySize := by
    rw [RuntimeData.wordBytes, data, Vector.toList_ofFn, List.flatMap_def, List.map_ofFn]
    exact Bytes.flatten_slice b.bytes wordSize RuntimeField.count
  have pointers : b.data.pointerBytes = b.bytes.drop wordArraySize := by
    have rest : (b.bytes.drop wordArraySize).length ≤ PointerSlot.count * pointerSize := by
      rw [List.length_drop, b.length_eq]
      decide
    rw [← List.take_of_length_le rest,
      ← Bytes.flatten_slice (b.bytes.drop wordArraySize) pointerSize PointerSlot.count]
    simp only [RuntimeData.pointerBytes, data, List.flatMap_cons, List.flatMap_nil, octets_pointerAt]
    rfl
  apply Octets.ext
  show b.data.wordBytes ++ b.data.pointerBytes = b.bytes
  rw [words, pointers, List.take_append_drop]

/-! ## What the host does by name -/

/-- The block of a record with zeros in all its parts. -/
def zeroed : RuntimeBlock := RuntimeData.zeroed.layOut

/-- The bytes of all words. -/
def words : Bytes := b.data.wordBytes

/-- The image in a field. -/
def image (field : RuntimeField) : WordImage := b.data.word field

/-- The block with another image in a field. -/
def setImage (field : RuntimeField) (i : WordImage) : RuntimeBlock := (b.data.setWord field i).layOut

/-- The word in a field. -/
def get (field : RuntimeField) : Word := .ofImage (b.image field)

/-- The block with another word in a field. -/
def set (field : RuntimeField) (w : Word) : RuntimeBlock := b.setImage field w.image

/-- The address in a pointer slot. -/
def pointer (slot : PointerSlot) : Addr := b.data.pointer slot

@[simp] theorem get_set_self (field : RuntimeField) (w : Word) : (b.set field w).get field = w := by
  simp [get, set, image, setImage]

theorem get_set_of_ne {field other : RuntimeField} (h : other ≠ field) (w : Word) :
    (b.set field w).get other = b.get other := by
  simp only [get, set, image, setImage, data_layOut, RuntimeData.word_setWord_of_ne _ h]

@[simp] theorem pointer_set (field : RuntimeField) (w : Word) (slot : PointerSlot) :
    (b.set field w).pointer slot = b.pointer slot := by
  simp only [set, setImage, pointer, data_layOut, RuntimeData.pointer_setWord]

/-! ## Both views of a slot -/

/-- The position of a field in the array and its offset mean the same place. -/
theorem image_eq_read (field : RuntimeField) :
    b.image field = b.read (Slot.word field).offset wordSize (Slot.offset_word_le field) :=
  Vector.getElem_ofFn _

/-- The name of a pointer and its offset mean the same place. -/
theorem pointer_eq_read (slot : PointerSlot) :
    b.pointer slot = .ofOctets
      (b.read (Slot.pointer slot).offset pointerSize (Slot.offset_pointer_le slot)) := by
  cases slot <;> rfl

/-- Blocks are the same if the host finds the same in them. -/
theorem eq_of_slots {b b' : RuntimeBlock} (images : ∀ field, b.image field = b'.image field)
    (pointers : ∀ slot, b.pointer slot = b'.pointer slot) : b = b' := by
  have words : b.data.words = b'.data.words := by
    apply Vector.ext
    intro i h
    obtain ⟨field, rfl⟩ := RuntimeField.exists_index h
    exact images field
  have same : b.data = b'.data :=
    RuntimeData.ext words (pointers .callData) (pointers .code) (pointers .checkpoint)
  rw [← b.layOut_data, same, b'.layOut_data]

/-- To write a field at its position in the array is to write the memory at its offset. -/
theorem setImage_eq_write (field : RuntimeField) (i : WordImage) :
    b.setImage field i = b.write (Slot.word field).offset i (Slot.offset_word_le field) := by
  apply eq_of_slots
  · intro other
    rw [image_eq_read (b.write ..)]
    by_cases same : other = field
    · rw [same, Octets.read_write_self, image, setImage, data_layOut, RuntimeData.word_setWord_self]
    · rw [Octets.read_write_of_disjoint _ _ _ _ (Slot.offset_word_disjoint same), ← image_eq_read,
        image, setImage, data_layOut, RuntimeData.word_setWord_of_ne _ same, image]
  · intro slot
    rw [pointer_eq_read (b.write ..),
      Octets.read_write_of_disjoint _ _ _ _ (.inr (Slot.offset_word_le_pointer field slot)),
      ← pointer_eq_read, pointer, setImage, data_layOut, RuntimeData.pointer_setWord, pointer]

-- From here on a block is known by its slots. Nothing is gained by computing its bytes.
attribute [irreducible] RuntimeData.layOut data

/-! ## Calls -/

/-- The block of a new call. -/
def construct (gas : Word) (env : Environment) (checkpoint : Addr) : RuntimeBlock :=
  (RuntimeData.construct gas env checkpoint).layOut

theorem pointer_construct (gas : Word) (env : Environment) (checkpoint : Addr)
    (slot : PointerSlot) :
    (construct gas env checkpoint).pointer slot =
      match slot with
      | .callData => env.callDataAt
      | .code => env.codeAt
      | .checkpoint => checkpoint := by
  rw [pointer, construct, data_layOut]
  cases slot <;> rfl

/-- The gas that is left. -/
def gas : Word := b.get .gas

/-- The part of the working memory that generated code has announced as return data. It is empty if
offset, size or their sum does not fit into 64 bits, or if it does not lie within the memory. -/
def returnData (memory : Bytes) : Bytes :=
  match (b.image .returnDataOffset).toSize?, (b.image .returnDataSize).toSize? with
  | some offset, some size =>
    if offset + size < Bytes.capacity pointerSize ∧ offset + size ≤ memory.length then
      Bytes.slice memory offset size
    else []
  | _, _ => []

end RuntimeBlock

end HostBridge
