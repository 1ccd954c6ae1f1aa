import HostBridge.Proofs.Handles

/-!
# Code is written stroke by stroke

However many instructions an operation on a draft writes, it changes the draft in small steps only:
an instruction with the value it defines, an instruction that defines nothing, an empty block, a
move to another block, the declaration of the abort primitive. These are the `Draft.Stroke`s. A
misuse stops between two of them.

* `Inst.Gives` — what an instruction defines, as far as its own text and its callee say;
* `Emission.run_lasts` — what every stroke keeps is kept by every operation, also by a misuse;
* `Manuscript.kept_after` — and by every edit, if declarations keep it.
-/

set_option autoImplicit false

namespace HostBridge

/-! ## What an instruction gives -/

/-- The type of the value that an instruction gives, or that it gives none. The callee of a call
decides, so it must exist; an extern that never comes back gives nothing. -/
def Inst.Gives (m : Module) : Inst → Option Ty → Prop
  | const _ _, ty | loadByte _ _ _, ty | binary _ _ _ _, ty => ty = some .word
  | constI32 _ _, ty => ty = some .i32
  | ptrOffset _ _ _, ty => ty = some .ptr
  | load _ loaded _, ty => ty = some loaded
  | call _ callee _, ty => ∃ g, m.functions[callee]? = some g ∧ g.signature.ret = ty
  | callExtern _ callee _, ty =>
    ∃ e, m.externs[callee]? = some e ∧ (if e.noreturn then none else e.signature.ret) = ty
  | store _ _, ty | jump _, ty | branch _ _ _, ty | ret _, ty | unreachable, ty => ty = none

/-! ## Strokes -/

namespace Draft

/-- One change of a draft. -/
inductive Stroke : Draft → Draft → Prop
  /-- An instruction and the value it defines. -/
  | define {d : Draft} {f : Func} (ty : Ty) (name : Option String) (i : Inst) :
    d.function? = some f → i.dst? = some f.next → i.Gives d.module (some ty) →
      Stroke d (d.write ⟨[ty], [name], [i]⟩)
  /-- An instruction that defines nothing. -/
  | push {d : Draft} (i : Inst) :
    i.dst? = none → i.Gives d.module none → Stroke d (d.write ⟨[], [], [i]⟩)
  /-- An empty block behind the others. -/
  | addBlock (d : Draft) :
    Stroke d { d with module := d.module.modifyFunction d.cursor.func Func.addBlock }
  /-- The next instruction goes to another block. -/
  | move {d : Draft} {f : Func} (block : BlockId) :
    d.function? = some f → block < f.blocks.length → Stroke d { d with cursor.block := block }
  /-- The abort primitive is asked for. -/
  | primitive {d : Draft} {id : ExternId} {m : Module} :
    d.module.abortPrimitive = .ok (id, m) → Stroke d { d with module := m }

/-- No stroke ends it. -/
def Lasting (I : Draft → Prop) : Prop := ∀ {d d' : Draft}, Stroke d d' → I d → I d'

end Draft

/-! ## Operations -/

namespace Emit

open Draft (Lasting)

variable {I P : Draft → Prop} (lasting : Lasting I)

include lasting

theorem push_lasts {i : Inst} (none : i.dst? = none)
    (gives : ∀ d, P d → i.Gives d.module Option.none) :
    Spec I P (push i) fun _ _ => True := by
  intro d inv pre
  rw [push_run]
  exact ⟨lasting (.push i none (gives d pre)) inv, trivial⟩

theorem define_lasts {ty : Ty} {name : Option String} {inst : ValueId → Inst}
    (dst : ∀ v, (inst v).dst? = some v)
    (gives : ∀ d v, P d → (inst v).Gives d.module (some ty)) :
    Spec I P (define ty name inst) fun _ _ => True := by
  intro d inv pre
  cases found : d.function? with
  | none =>
    rw [define, EStateM.run_bind, function_error found]
    exact inv
  | some f =>
    rw [define_run found]
    exact ⟨lasting (.define ty name _ found (dst f.next) (gives d f.next pre)) inv, trivial⟩

/-- A call defines a value exactly if its callee gives one. -/
theorem defineIf_lasts {ret : Option Ty} {inst : Option ValueId → Inst}
    (dst : ∀ v, (inst v).dst? = v) (gives : ∀ d v, P d → (inst v).Gives d.module ret) :
    Spec I P (defineIf ret inst) fun _ _ => True := by
  cases ret with
  | none =>
    have pushed := push_lasts lasting (dst none) fun d pre => gives d none pre
    exact pushed.seq fun _ => .pure fun _ _ => trivial
  | some ty =>
    have defined : Spec I P (define ty none fun v => inst (some v)) fun _ _ => True :=
      define_lasts lasting (fun v => dst (some v)) fun d v pre => gives d (some v) pre
    exact defined.seq fun _ => .pure fun _ _ => trivial

/-! ### Blocks -/

theorem createBlock_lasts : Spec I P createBlock fun _ _ => True := by
  refine Spec.function.bind ?_
  intro f
  have added : Spec I (fun d => P d ∧ d.function? = some f) (modifyFunction Func.addBlock)
      fun _ _ => True :=
    Spec.modify fun d inv _ => lasting (.addBlock d) inv
  exact added.seq fun _ => .pure fun _ _ => trivial

theorem switchTo_lasts {block : BlockId} : Spec I P (switchTo block) fun _ _ => True := by
  refine Spec.function.bind ?_
  intro f
  split
  · rename_i there
    exact .modify fun d inv pre => lasting (.move block pre.2 there) inv
  · exact .throw

/-! ### Access to the runtime block -/

omit lasting in
theorem runtimeHandle_lasts : Spec I P runtimeHandle fun _ _ => True := by
  refine Spec.function.bind fun f => Spec.weaken Spec.param (fun _ _ pre => pre) ?_
  intros
  trivial

theorem slotAddress_lasts {slot : Slot} : Spec I P (slotAddress slot) fun _ _ => True := by
  refine runtimeHandle_lasts.bind fun handle => ?_
  exact define_lasts lasting (fun _ => rfl) fun _ _ _ => rfl

theorem load_lasts {ty : Ty} {addr : ValueId} {name : String} :
    Spec I P (load ty addr name) fun _ _ => True :=
  define_lasts lasting (fun _ => rfl) fun _ _ _ => rfl

theorem getField_lasts {field : RuntimeField} : Spec I P (getField field) fun _ _ => True :=
  (slotAddress_lasts lasting).bind fun _ => load_lasts lasting

theorem getPointer_lasts {slot : PointerSlot} : Spec I P (getPointer slot) fun _ _ => True :=
  (slotAddress_lasts lasting).bind fun _ => load_lasts lasting

theorem setField_lasts {field : RuntimeField} {value : ValueId} :
    Spec I P (setField field value) fun _ _ => True := by
  refine Spec.valueType.bind ?_
  intro ty
  split
  · exact .throw_bind
  · refine (slotAddress_lasts lasting).bind fun addr => ?_
    exact push_lasts lasting rfl fun _ _ => rfl

theorem registerReturnData_lasts {offset size : ValueId} :
    Spec I P (registerReturnData offset size) fun _ _ => True :=
  (setField_lasts lasting).seq fun _ => setField_lasts lasting

theorem getByOpcode_lasts {op : Opcode} : Spec I P (getByOpcode op) fun _ _ => True := by
  unfold getByOpcode
  split
  · exact getField_lasts lasting
  · exact .throw

/-! ### Calls and ends of a call -/

theorem call_lasts {callee : FuncId} {args : List ValueId} :
    Spec I P (call callee args) fun _ _ => True := by
  refine Spec.get.bind ?_
  intro d
  split
  · rename_i g there
    refine defineIf_lasts lasting (fun _ => rfl) ?_
    rintro _ v ⟨-, rfl⟩
    exact ⟨g, there, rfl⟩
  · exact .throw

theorem callExtern_lasts {callee : ExternId} {args : List ValueId} :
    Spec I P (callExtern callee args) fun _ _ => True := by
  refine Spec.get.bind ?_
  intro d
  split
  · rename_i e there
    refine defineIf_lasts lasting (fun _ => rfl) ?_
    rintro _ v ⟨-, rfl⟩
    exact ⟨e, there, rfl⟩
  · exact .throw

theorem callHelper_lasts {callee : FuncId} {args : List ValueId} :
    Spec I P (callHelper callee args) fun _ _ => True := by
  refine Spec.get.bind ?_
  intro d
  split
  · exact .throw
  · split
    · exact .throw
    · split
      · exact .throw_bind
      · exact runtimeHandle_lasts.bind fun _ => call_lasts lasting

theorem abortPrimitive_lasts : Spec I P abortPrimitive fun _ _ => True := by
  intro d inv _
  cases declared : d.module.abortPrimitive with
  | error misuse =>
    simp only [abortPrimitive, EStateM.run_bind, EStateM.run_get, declared]
    exact inv
  | ok r =>
    simp only [abortPrimitive, EStateM.run_bind, EStateM.run_get, declared]
    exact ⟨lasting (.primitive declared) inv, trivial⟩

theorem constI32_lasts {value : Int32Bits} : Spec I P (constI32 value) fun _ _ => True :=
  define_lasts lasting (fun _ => rfl) fun _ _ _ => rfl

theorem raiseAbort_lasts {status : Status} : Spec I P (raiseAbort status) fun _ _ => True := by
  refine (abortPrimitive_lasts lasting).seq fun abort => ?_
  refine (getPointer_lasts lasting).seq fun handle => ?_
  refine (constI32_lasts lasting).seq fun code => ?_
  refine (callExtern_lasts lasting).seq fun _ => ?_
  exact push_lasts lasting rfl fun _ _ => rfl

theorem returnStatus_lasts {status : Status} :
    Spec I P (returnStatus status) fun _ _ => True := by
  refine (constI32_lasts lasting).seq fun code => ?_
  exact push_lasts lasting rfl fun _ _ => rfl

end Emit

namespace Emission

open Emit

variable {I P : Draft → Prop}

theorem answer_lasts {e : Emit Nat} (h : Spec I P e fun _ _ => True) :
    Spec I P (answer e) fun _ _ => True :=
  h.seq fun _ => .pure fun _ _ => trivial

theorem noAnswer_lasts {e : Emit Unit} (h : Spec I P e fun _ _ => True) :
    Spec I P (noAnswer e) fun _ _ => True :=
  h.seq fun _ => .pure fun _ _ => trivial

/-- **What every stroke keeps, every operation keeps**, whether it ends in a misuse or not. -/
theorem run_lasts (lasting : Draft.Lasting I) (e : Emission) :
    Spec I P e.run fun _ _ => True := by
  cases e with
  | createBlock => exact answer_lasts (createBlock_lasts lasting)
  | switchTo => exact noAnswer_lasts (switchTo_lasts lasting)
  | constWord | constI32 | ptrOffset | load | loadByte | binary =>
    exact answer_lasts (define_lasts lasting (fun _ => rfl) fun _ _ _ => rfl)
  | store | jump | branch | ret | unreachable =>
    exact noAnswer_lasts (push_lasts lasting rfl fun _ _ => rfl)
  | call => exact call_lasts lasting
  | callExtern => exact callExtern_lasts lasting
  | fieldAddress => exact answer_lasts (slotAddress_lasts lasting)
  | getField | gas => exact answer_lasts (getField_lasts lasting)
  | setField | setGas => exact noAnswer_lasts (setField_lasts lasting)
  | callDataPointer | codePointer | checkpointHandle =>
    exact answer_lasts (getPointer_lasts lasting)
  | getByOpcode => exact answer_lasts (getByOpcode_lasts lasting)
  | registerReturnData => exact noAnswer_lasts (registerReturnData_lasts lasting)
  | raiseAbort => exact noAnswer_lasts (raiseAbort_lasts lasting)
  | returnStatus => exact noAnswer_lasts (returnStatus_lasts lasting)
  | callHelper => exact callHelper_lasts lasting

end Emission

/-! ## Edits -/

/-- **What strokes and declarations keep of a module, every edit keeps**, whether it is a misuse or
not. -/
theorem Manuscript.kept_after {I : Module → Prop} (lasting : Draft.Lasting fun d => I d.module)
    (functions : ∀ (m : Module) name signature role entry, I m →
      I { m with functions := m.functions ++ [.declare name signature role], entry := entry })
    (externs : ∀ (m : Module) more abort, I m →
      I { m with externs := m.externs ++ more, abort := abort })
    {s : Manuscript} (h : I s.module) (e : Edit) : I (s.after e).module := by
  unfold Manuscript.after Manuscript.apply
  cases e with
  | declareEntry name =>
    refine of_declare (P := fun s => I s.module) h fun id m declared => ?_
    obtain ⟨-, rfl⟩ := Module.declareEntry_ok declared
    exact functions _ _ _ _ _ h
  | declareHelper name signature i =>
    refine of_declare (P := fun s => I s.module) h fun id m declared => ?_
    obtain ⟨-, rfl⟩ := Module.declareHelper_ok declared
    exact functions _ _ _ _ _ h
  | declareExtern name signature noreturn =>
    refine of_declare (P := fun s => I s.module) h fun id m declared => ?_
    obtain ⟨more, rfl, -⟩ := Module.declareExtern_ok declared
    exact externs _ _ _ h
  | abortPrimitive =>
    refine of_declare (P := fun s => I s.module) h fun id m asked => ?_
    rcases Module.abortPrimitive_ok asked with ⟨-, rfl⟩ | ⟨more, rfl, -⟩
    · exact h
    · exact externs _ _ _ h
  | select func =>
    simp only [Manuscript.select]
    cases s.module.cursorAt func <;> exact h
  | emit e =>
    exact of_emit (P := fun s => I s.module) h (e.run_lasts (P := fun _ => True) lasting)
      (fun _ _ => ⟨h, trivial⟩) fun _ kept => kept

end HostBridge
