import HostBridge.Machine.Step
import Mathlib.Logic.Function.Basic

/-!
# Fields

What generated code computes in terms of the runtime block can be said without bytes: `Fields` gives
each field its word. A block represents the fields that it holds (`RuntimeBlock.get`), and what the
host does with a block is what it would do with the fields.

* `RuntimeBlock.get_construct` — the block of a new call represents its initial fields;
* `RuntimeBlock.get_set` — to write a field changes that field and no other;
* `Outcome.settle_code` — the outcome of a call depends on the fields alone.
-/

set_option autoImplicit false

namespace HostBridge

/-- A word for every field. -/
abbrev Fields := RuntimeField → Word

namespace Fields

/-- The fields of a new call: the context has its values, the return data is zero. -/
def initial (gas : Word) (s : Snapshot) : Fields := fun field =>
  match contextValue? field gas s with
  | some i => .ofImage i
  | none => 0

/-- The part of the working memory that is announced as return data. -/
def returnData (m : Fields) (memory : Bytes) : Bytes :=
  let offset := (m .returnDataOffset).toNat
  let size := (m .returnDataSize).toNat
  if offset + size < Bytes.capacity pointerSize ∧ offset + size ≤ memory.length then
    Bytes.slice memory offset size
  else []

/-- What a call comes to that is left with a status. Failures are the statuses from 100 on. -/
def outcome (m : Fields) (memory : Bytes) (exit : Exit) (status : Status) : Outcome :=
  if exit = .aborted ∧ 100 ≤ status.number then ⟨status, 0, []⟩
  else ⟨status, m .gas, if status = .ret then m.returnData memory else []⟩

end Fields

/-! ## Blocks -/

namespace RuntimeBlock

variable {b : RuntimeBlock}

theorem get_set (field : RuntimeField) (w : Word) :
    (b.set field w).get = Function.update b.get field w := by
  funext other
  by_cases same : other = field
  · rw [same, get_set_self, Function.update_self]
  · rw [get_set_of_ne b same, Function.update_of_ne same]

theorem number_image (field : RuntimeField) : (b.image field).number = (b.get field).toNat := by
  rw [get, Word.toNat_ofImage]

theorem returnData_eq (memory : Bytes) : b.returnData memory = Fields.returnData b.get memory := by
  have offsetSize := (b.image .returnDataOffset).toSize?_eq
  have sizeSize := (b.image .returnDataSize).toSize?_eq
  rw [number_image] at offsetSize sizeSize
  unfold returnData Fields.returnData
  dsimp only
  by_cases offset : (b.get .returnDataOffset).toNat < Bytes.capacity pointerSize
  · by_cases size : (b.get .returnDataSize).toNat < Bytes.capacity pointerSize
    · rw [offsetSize, sizeSize, if_pos offset, if_pos size]
    · rw [offsetSize, sizeSize, if_pos offset, if_neg size, if_neg]
      omega
  · rw [offsetSize, if_neg offset, if_neg]
    omega

/-! ### The block of a new call -/

variable {gas : Word} {s : Snapshot}

/-- Each field is filled with the answer of the environment, if there is one. -/
theorem word_fill (field : RuntimeField) (fields : List RuntimeField) (d : RuntimeData) :
    (fields.foldl (fun d g => (contextValue? g gas s).elim d (d.setWord g)) d).word field =
      if field ∈ fields then (contextValue? field gas s).getD (d.word field) else d.word field := by
  induction fields generalizing d with
  | nil => rfl
  | cons g fields ih =>
    rw [List.foldl_cons, ih]
    by_cases same : field = g
    · rw [← same, if_pos (List.mem_cons_self ..)]
      cases contextValue? field gas s <;> simp
    · have kept : ((contextValue? g gas s).elim d (d.setWord g)).word field = d.word field := by
        cases contextValue? g gas s with
        | none => rfl
        | some i => exact d.word_setWord_of_ne same i
      rw [kept]
      simp only [List.mem_cons, same, false_or]

theorem word_fillContext (field : RuntimeField) :
    (RuntimeData.fillContext gas s).word field =
      (contextValue? field gas s).getD (RuntimeData.zeroed.word field) := by
  have listed : field ∈ RuntimeField.all := List.mem_of_getElem? field.all_getElem?_index
  have fold : RuntimeData.fillContext gas s = RuntimeField.all.foldl
      (fun d g => (contextValue? g gas s).elim d (d.setWord g)) .zeroed := by
    unfold RuntimeData.fillContext
    congr 1
    funext d g
    cases contextValue? g gas s <;> rfl
  rw [fold, word_fill, if_pos listed]

/-- **The block of a new call** holds what the environment answers, and no return data. -/
theorem get_construct (env : Environment) (checkpoint : Addr) :
    (construct gas env checkpoint).get = Fields.initial gas env.snapshot := by
  funext field
  have word : (construct gas env checkpoint).image field =
      (RuntimeData.fillContext gas env.snapshot).word field := by
    rw [image, construct, data_layOut]
    rfl
  rw [get, word, word_fillContext, Fields.initial]
  cases contextValue? field gas env.snapshot with
  | none => cases field <;> rfl
  | some i => rfl

end RuntimeBlock

theorem Status.not_isSuccess (status : Status) :
    (!status.isSuccess) = true ↔ 100 ≤ status.number := by
  rw [isSuccess, Bool.not_eq_true', decide_eq_false_iff_not, Nat.not_lt]

/-- What a call comes to depends on the fields of its block. -/
theorem Outcome.settle_code (b : RuntimeBlock) (memory : Bytes) (exit : Exit) (status : Status) :
    Outcome.settle b memory exit status.code =
      .ok (Fields.outcome b.get memory exit status) := by
  unfold settle Fields.outcome
  rw [Status.ofCode?_code]
  dsimp only
  rw [RuntimeBlock.returnData_eq, RuntimeBlock.gas]
  simp only [Status.not_isSuccess]
  split <;> rfl

end HostBridge
