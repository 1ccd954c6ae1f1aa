import HostBridge.Word

/-!
# The layout of the runtime block

Host and generated code share one block of memory. It starts with sixteen words, one for each
`RuntimeField`, and ends with three pointers, one for each `PointerSlot`. Generated code knows the
block only through the offsets of these slots, so the order of the fields is the contract.

* `RuntimeField` and `PointerSlot` are the named places, in order;
* `Slot` is either, with its `name`, `kind`, `offset` and `size`; no two slots overlap
  (`offset_word_disjoint`, `offset_word_le_pointer`);
* `runtimeDataSize` is the size of the whole block.
-/

set_option autoImplicit false

namespace HostBridge

/-- The version of this layout. -/
def abiVersion : Nat := 1

/-- The name under which generated code imports the primitive that ends a call at once. -/
def abortSymbol : String := "evmjit.abort"

/-- The words of the runtime block, in order. -/
inductive RuntimeField where
  | gas
  | address
  | caller
  | origin
  | callValue
  | callDataSize
  | gasPrice
  | prevHash
  | coinbase
  | timestamp
  | number
  | difficulty
  | gasLimit
  | codeSize
  | returnDataOffset
  | returnDataSize
  deriving DecidableEq, Repr

namespace RuntimeField

/-- All fields, in the order of the block. -/
def all : List RuntimeField :=
  [gas, address, caller, origin, callValue, callDataSize, gasPrice, prevHash, coinbase, timestamp,
    number, difficulty, gasLimit, codeSize, returnDataOffset, returnDataSize]

/-- How many fields there are. -/
def count : Nat := 16

/-- The position of a field in the block. -/
def index : RuntimeField → Nat
  | gas => 0
  | address => 1
  | caller => 2
  | origin => 3
  | callValue => 4
  | callDataSize => 5
  | gasPrice => 6
  | prevHash => 7
  | coinbase => 8
  | timestamp => 9
  | number => 10
  | difficulty => 11
  | gasLimit => 12
  | codeSize => 13
  | returnDataOffset => 14
  | returnDataSize => 15

theorem index_lt (f : RuntimeField) : f.index < count := by
  cases f <;> decide

theorem all_getElem?_index (f : RuntimeField) : all[f.index]? = some f := by
  cases f <;> rfl

theorem exists_index {i : Nat} (h : i < count) : ∃ f : RuntimeField, f.index = i := by
  have listed : ∀ i : Fin 16, (all.get i).index = i := by decide
  exact ⟨all.get ⟨i, h⟩, listed ⟨i, h⟩⟩

/-- No two fields have the same position. -/
theorem eq_of_index {f g : RuntimeField} (same : f.index = g.index) : f = g := by
  have : some f = some g := by rw [← f.all_getElem?_index, same, g.all_getElem?_index]
  exact Option.some.inj this

/-- The field at a position. -/
def ofIndex? (i : Nat) : Option RuntimeField := all[i]?

/-- The name of a field. -/
def name : RuntimeField → String
  | gas => "gas"
  | address => "address"
  | caller => "caller"
  | origin => "origin"
  | callValue => "callvalue"
  | callDataSize => "calldatasize"
  | gasPrice => "gasprice"
  | prevHash => "prevhash"
  | coinbase => "coinbase"
  | timestamp => "timestamp"
  | number => "number"
  | difficulty => "difficulty"
  | gasLimit => "gaslimit"
  | codeSize => "codesize"
  | returnDataOffset => "returndataoffset"
  | returnDataSize => "returndatasize"

/-- The field with a name. -/
def ofName? (name : String) : Option RuntimeField := all.find? (·.name = name)

/-- Whether a field only carries a result of generated code and says nothing of the environment. -/
def isInternal : RuntimeField → Bool
  | returnDataOffset | returnDataSize => true
  | _ => false

end RuntimeField

/-- The pointers of the runtime block, in order. -/
inductive PointerSlot where
  | callData
  | code
  | checkpoint
  deriving DecidableEq, Repr

namespace PointerSlot

/-- All pointers, in the order of the block. -/
def all : List PointerSlot := [callData, code, checkpoint]

/-- How many pointers there are. -/
def count : Nat := 3

/-- The position of a pointer among the pointers. -/
def index : PointerSlot → Nat
  | callData => 0
  | code => 1
  | checkpoint => 2

/-- The pointer at a position. -/
def ofIndex? (i : Nat) : Option PointerSlot := all[i]?

/-- The name of a pointer. -/
def name : PointerSlot → String
  | callData => "calldata"
  | code => "code"
  | checkpoint => "checkpoint"

end PointerSlot

/-- Bytes taken by the words. -/
def wordArraySize : Nat := RuntimeField.count * wordSize

/-- Bytes in the whole block. -/
def runtimeDataSize : Nat := wordArraySize + PointerSlot.count * pointerSize

/-- What a slot holds. -/
inductive SlotKind where
  | word
  | pointer
  deriving DecidableEq, Repr

namespace SlotKind

/-- The kind in lower case, as layouts are exchanged. -/
def name : SlotKind → String
  | word => "word"
  | pointer => "pointer"

/-- The kind capitalised, as differences are reported. -/
def title : SlotKind → String
  | word => "Word"
  | pointer => "Pointer"

end SlotKind

/-- A named place of the runtime block. -/
inductive Slot where
  | word (field : RuntimeField)
  | pointer (slot : PointerSlot)
  deriving DecidableEq, Repr

namespace Slot

/-- All slots, in the order of the block. -/
def all : List Slot := RuntimeField.all.map word ++ PointerSlot.all.map pointer

/-- How many slots there are. -/
def count : Nat := RuntimeField.count + PointerSlot.count

/-- The name of a slot. -/
def name : Slot → String
  | word f => f.name
  | pointer p => p.name

/-- What a slot holds. -/
def kind : Slot → SlotKind
  | word _ => .word
  | pointer _ => .pointer

/-- Where a slot starts in the block. -/
def offset : Slot → Nat
  | word f => f.index * wordSize
  | pointer p => wordArraySize + p.index * pointerSize

/-- How many bytes a slot takes. -/
def size : Slot → Nat
  | word _ => wordSize
  | pointer _ => pointerSize

theorem offset_word_le (f : RuntimeField) : (word f).offset + wordSize ≤ runtimeDataSize := by
  cases f <;> decide

theorem offset_pointer_le (p : PointerSlot) :
    (pointer p).offset + pointerSize ≤ runtimeDataSize := by
  cases p <;> decide

theorem offset_word_disjoint {f g : RuntimeField} (h : f ≠ g) :
    (word f).offset + wordSize ≤ (word g).offset ∨ (word g).offset + wordSize ≤ (word f).offset := by
  have index_ne : f.index ≠ g.index := fun same => h (RuntimeField.eq_of_index same)
  simp only [offset, wordSize]
  omega

theorem offset_word_le_pointer (f : RuntimeField) (p : PointerSlot) :
    (word f).offset + wordSize ≤ (pointer p).offset := by
  have := f.index_lt
  simp only [offset, wordArraySize, wordSize, RuntimeField.count] at this ⊢
  omega

end Slot

end HostBridge
