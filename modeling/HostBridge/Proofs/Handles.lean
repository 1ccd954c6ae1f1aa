import HostBridge.Proofs.Drafts
import HostBridge.Proofs.Slots

/-!
# The handle of the runtime block in generated code

Every function receives the address of the runtime block as a parameter. Code that is written in
terms of the runtime block uses this value, its *handle*, and no other address: it adds the offset
of a slot, reads or writes there, and passes the handle on to the helpers it calls. This is visible
in the code itself. `Clues` are what is known of values without running anything, and
`Inst.Guided` what an instruction may do with them.

* `Module.ManagerEmitted` — modules that are written with the operations on the runtime block and
  with those that do not touch memory;
* `Module.ManagerEmitted.guided` — all their code is guided, whichever edits were misuses;
* `Module.Built.wellFormed` — what is true of every module, with whatever operations it is written.
-/

set_option autoImplicit false

namespace HostBridge

/-! ## Clues -/

/-- What can be known of a value. -/
inductive Clue where
  /-- It is the address at an offset in the runtime block. -/
  | inBlock (offset : BitVec 32)
  /-- It is the handle of the checkpoint of the call. -/
  | checkpoint
  deriving DecidableEq

/-- What is known of each value. -/
abbrev Clues := ValueId → Option Clue

namespace Clues

/-- Nothing is known. -/
def nothing : Clues := fun _ => none

/-- Only for one value there is something else to know. -/
def put (k : Clues) (v : ValueId) (clue : Option Clue) : Clues := fun w => if w = v then clue else k w

@[simp] theorem put_self (k : Clues) (v : ValueId) (clue : Option Clue) : k.put v clue v = clue :=
  if_pos rfl

theorem put_of_ne (k : Clues) {v w : ValueId} (h : w ≠ v) (clue : Option Clue) :
    k.put v clue w = k w :=
  if_neg h

end Clues

namespace Inst

/-- What is known of the value that an instruction defines. -/
def clue? (k : Clues) : Inst → Option Clue
  | ptrOffset _ _ offset => some (.inBlock offset)
  | load _ ty addr =>
    if ty = .ptr ∧ k addr = some (.inBlock (Slot.pointer .checkpoint).place) then some .checkpoint
    else none
  | _ => none

/-- What is known after an instruction. -/
def learn (k : Clues) (i : Inst) : Clues :=
  match i.dst? with
  | some dst => k.put dst (i.clue? k)
  | none => k

/-- An instruction of a function with the given handle leaves the handle alone and finds in memory
only slots of the runtime block. It gives helpers the handle, and aborts to no checkpoint but the
one of the call. -/
def Guided (m : Module) (handle : ValueId) (k : Clues) (i : Inst) : Prop :=
  i.dst? ≠ some handle ∧
    match i with
    | ptrOffset _ base offset => base = handle ∧ ∃ slot : Slot, offset = slot.place
    | load _ ty addr => ∃ slot : Slot, k addr = some (.inBlock slot.place) ∧ ty = slot.ty
    | store addr _ => ∃ field, k addr = some (.inBlock (Slot.word field).place)
    | loadByte _ _ _ => False
    | call _ callee args =>
      ∃ g, m.functions[callee]? = some g ∧ args[g.role.runtimeParam]? = some handle
    | callExtern _ callee args =>
      ∃ e, m.externs[callee]? = some e ∧
        (e.name = abortSymbol → ∃ v code, args = [v, code] ∧ k v = some .checkpoint)
    | _ => True

end Inst

/-- What is known after some code. -/
def Clues.after (k : Clues) (code : List Inst) : Clues := code.foldl Inst.learn k

theorem Clues.after_append (k : Clues) (xs ys : List Inst) :
    k.after (xs ++ ys) = (k.after xs).after ys :=
  List.foldl_append

/-- Code all of whose instructions are guided, each by what is known when its turn comes. -/
def GuidedCode (m : Module) (handle : ValueId) : Clues → List Inst → Prop
  | _, [] => True
  | k, i :: rest => i.Guided m handle k ∧ GuidedCode m handle (i.learn k) rest

theorem guidedCode_append {m : Module} {handle : ValueId} (k : Clues) (xs ys : List Inst) :
    GuidedCode m handle k (xs ++ ys) ↔
      GuidedCode m handle k xs ∧ GuidedCode m handle (k.after xs) ys := by
  induction xs generalizing k with
  | nil => exact ⟨fun h => ⟨trivial, h⟩, And.right⟩
  | cons i xs ih =>
    rw [List.cons_append, GuidedCode, GuidedCode, ih, and_assoc]
    rfl

namespace Module

/-- All code of a module is guided by the handle of its function. -/
def Guided (m : Module) : Prop :=
  ∀ f ∈ m.functions, ∀ code ∈ f.blocks,
    GuidedCode m f.role.runtimeParam Clues.nothing code

/-! ### Modules that grow -/

/-- Code that refers to functions and externs of one module finds them in the other. -/
structure Extends (m m' : Module) : Prop where
  functions : ∀ (id : FuncId) (f : Func), m.functions[id]? = some f →
    ∃ f' : Func, m'.functions[id]? = some f' ∧ f'.role = f.role
  externs : ∀ (id : ExternId) (e : ExternDecl), m.externs[id]? = some e → m'.externs[id]? = some e

variable {m m' : Module}

theorem Extends.guidedInst (ext : m.Extends m') {handle : ValueId} {k : Clues} {i : Inst}
    (h : i.Guided m handle k) : i.Guided m' handle k := by
  refine ⟨h.1, ?_⟩
  cases i with
  | call dst callee args =>
    obtain ⟨g, there, arg⟩ := h.2
    obtain ⟨g', there', role⟩ := ext.functions callee g there
    exact ⟨g', there', by rw [role, arg]⟩
  | callExtern dst callee args =>
    obtain ⟨e, there, arg⟩ := h.2
    exact ⟨e, ext.externs callee e there, arg⟩
  | _ => exact h.2

theorem Extends.guidedCode (ext : m.Extends m') {handle : ValueId} (code : List Inst) :
    ∀ {k : Clues}, GuidedCode m handle k code → GuidedCode m' handle k code := by
  induction code with
  | nil => exact fun _ => trivial
  | cons i rest ih => exact fun h => ⟨ext.guidedInst h.1, ih h.2⟩

theorem extends_moreFunctions (m : Module) (more : List Func) (entry : Option FuncId) :
    m.Extends { m with functions := m.functions ++ more, entry := entry } where
  functions := fun id f there => by
    refine ⟨f, ?_, rfl⟩
    rw [List.getElem?_append_left (List.getElem?_eq_some_iff.1 there).1, there]
  externs := fun _ _ there => there

theorem extends_moreExterns (m : Module) (more : List ExternDecl) (abort : Option ExternId) :
    m.Extends { m with externs := m.externs ++ more, abort := abort } where
  functions := fun _ f there => ⟨f, there, rfl⟩
  externs := fun id e there => by
    rw [List.getElem?_append_left (List.getElem?_eq_some_iff.1 there).1, there]

theorem extends_modifyFunction (m : Module) (id : FuncId) {change : Func → Func}
    (role : ∀ f, (change f).role = f.role) : m.Extends (m.modifyFunction id change) where
  functions := fun k f there => by
    rw [modifyFunction, List.getElem?_modify, there]
    refine ⟨_, rfl, ?_⟩
    split
    · exact role f
    · rfl
  externs := fun _ _ there => there

namespace Guided

theorem empty (name : String) : (Module.empty name).Guided := fun _ h => by cases h

/-- A function without code is guided. -/
theorem addFunction (h : m.Guided) (name : String) (signature : Signature) (role : Role)
    (entry : Option FuncId) :
    { m with
      functions := m.functions ++ [Func.declare name signature role]
      entry := entry }.Guided := by
  intro f mem code block
  rcases List.mem_append.1 mem with old | new
  · exact (m.extends_moreFunctions _ entry).guidedCode code (h f old code block)
  · rw [List.mem_singleton.1 new] at block
    rw [List.mem_singleton.1 block]
    trivial

theorem moreExterns (h : m.Guided) (more : List ExternDecl) (abort : Option ExternId) :
    { m with externs := m.externs ++ more, abort := abort }.Guided :=
  fun f mem code block => (m.extends_moreExterns more abort).guidedCode code (h f mem code block)

theorem abortPrimitive (h : m.Guided) {id : ExternId}
    (declared : m.abortPrimitive = .ok (id, m')) : m'.Guided := by
  rcases abortPrimitive_ok declared with ⟨-, rfl⟩ | ⟨more, rfl, -⟩
  · exact h
  · exact h.moreExterns more _

/-- The code of one function changes. -/
theorem modifyFunction (h : m.Guided) (id : FuncId) {change : Func → Func}
    (role : ∀ f, (change f).role = f.role)
    (changed : ∀ f, m.functions[id]? = some f → ∀ code ∈ (change f).blocks,
      GuidedCode m f.role.runtimeParam Clues.nothing code) :
    (m.modifyFunction id change).Guided := by
  intro g mem code block
  have ext := m.extends_modifyFunction id role
  obtain ⟨k, there⟩ := List.mem_iff_getElem?.1 mem
  rw [Module.modifyFunction, List.getElem?_modify] at there
  obtain ⟨f, old, rfl⟩ := Option.map_eq_some_iff.1 there
  by_cases here : id = k
  · rw [if_pos here] at block ⊢
    rw [role]
    exact ext.guidedCode code (changed f (here ▸ old) code block)
  · rw [if_neg here] at block ⊢
    exact ext.guidedCode code (h f (List.mem_iff_getElem?.2 ⟨k, old⟩) code block)

end Guided

end Module

/-! ## Drafts -/

namespace Draft

/-- What stays true of a draft. Its code is guided if only managed operations write it. -/
structure Kept (managed : Prop) (d : Draft) : Prop where
  wellFormed : d.module.WellFormed
  guided : managed → d.module.Guided

/-- An instruction may be added at the cursor. -/
def Fits (d : Draft) (i : Inst) : Prop :=
  ∀ f code, d.function? = some f → f.blocks[d.cursor.block]? = some code →
    i.Guided d.module f.role.runtimeParam (Clues.nothing.after code)

/-- Something is known of a value at the cursor. -/
def Knows (d : Draft) (v : ValueId) (clue : Clue) : Prop :=
  ∃ f, d.function? = some f ∧ v < f.next ∧
    ∀ code, f.blocks[d.cursor.block]? = some code → Clues.nothing.after code v = some clue

variable {managed : Prop} {d : Draft} {f : Func}

/-- No new value is the handle. -/
theorem Kept.next_ne (h : d.Kept managed) (eq : d.function? = some f) :
    some f.next ≠ some f.role.runtimeParam := by
  have wf := h.wellFormed.functions f (List.mem_iff_getElem?.2 ⟨_, eq⟩)
  have bound := Nat.lt_of_lt_of_le wf.runtimeParam_lt wf.params_le
  exact fun same => Nat.ne_of_gt bound (Option.some.inj same)

/-- The instructions of a block after one has been written, and what is known after them. -/
theorem block_write {types : List Ty} {names : List (Option String)} {i : Inst} {code : List Inst}
    (eq : (f.write d.cursor.block ⟨types, names, [i]⟩).blocks[d.cursor.block]? = some code) :
    ∃ before, f.blocks[d.cursor.block]? = some before ∧
      Clues.nothing.after code = i.learn (Clues.nothing.after before) := by
  rw [Func.write_blocks, List.getElem?_modify_eq] at eq
  obtain ⟨before, there, rfl⟩ := Option.map_eq_some_iff.1 eq
  exact ⟨before, there, Clues.after_append ..⟩

theorem Kept.write (h : d.Kept managed) {types : List Ty} {names : List (Option String)} {i : Inst}
    (fits : managed → d.Fits i) : (d.write ⟨types, names, [i]⟩).Kept managed where
  wellFormed := h.wellFormed.modifyFunction _ (fun _ => rfl) fun _ wf => wf.write ..
  guided := fun m => (h.guided m).modifyFunction _ (fun _ => rfl) fun f eq code block => by
    obtain ⟨k, there⟩ := List.mem_iff_getElem?.1 block
    rw [Func.write_blocks, List.getElem?_modify] at there
    obtain ⟨before, old, rfl⟩ := Option.map_eq_some_iff.1 there
    have guided := h.guided m f (List.mem_iff_getElem?.2 ⟨_, eq⟩) before
      (List.mem_iff_getElem?.2 ⟨k, old⟩)
    split
    · rename_i here
      exact (guidedCode_append ..).2 ⟨guided, fits m f before eq (here ▸ old), trivial⟩
    · exact guided

/-- The clue of the value that has just been defined. -/
theorem knows_new (eq : d.function? = some f) {ty : Ty} {name : Option String} {i : Inst}
    {clue : Clue} (dst : i.dst? = some f.next)
    (new : ∀ code, f.blocks[d.cursor.block]? = some code →
      i.clue? (Clues.nothing.after code) = some clue) :
    (d.write ⟨[ty], [name], [i]⟩).Knows f.next clue := by
  refine ⟨_, function?_after eq _, by simp, fun code block => ?_⟩
  obtain ⟨before, there, after⟩ := block_write block
  rw [after, Inst.learn, dst]
  exact (Clues.put_self ..).trans (new before there)

/-- The clues of older values stay. -/
theorem Knows.write {v : ValueId} {clue : Clue} (h : d.Knows v clue)
    (eq : d.function? = some f) {ty : Ty} {name : Option String} {i : Inst}
    (dst : i.dst? = some f.next) : (d.write ⟨[ty], [name], [i]⟩).Knows v clue := by
  obtain ⟨g, eq', old, known⟩ := h
  obtain rfl := Option.some.inj (eq.symm.trans eq')
  refine ⟨_, function?_after eq _, Nat.lt_of_lt_of_le old (by simp), fun code block => ?_⟩
  obtain ⟨before, there, after⟩ := block_write block
  rw [after, Inst.learn, dst]
  exact (Clues.put_of_ne _ (Nat.ne_of_lt old) _).trans (known before there)

end Draft

/-! ## Operations -/

namespace Emit

open Draft (Kept)

variable {managed : Prop} {P : Draft → Prop}

theorem push_spec {i : Inst} (fits : managed → ∀ d, d.Kept managed → P d → d.Fits i) :
    Spec (Kept managed) P (push i) fun _ _ => True := by
  intro d kept pre
  rw [push_run]
  exact ⟨kept.write fun m => fits m d kept pre, trivial⟩

theorem define_spec {ty : Ty} {name : Option String} {inst : ValueId → Inst}
    (fits : managed → ∀ d f, d.Kept managed → P d → d.function? = some f → d.Fits (inst f.next)) :
    Spec (Kept managed) P (define ty name inst) fun v d' =>
      ∃ d f, P d ∧ d.function? = some f ∧ v = f.next ∧
        d' = d.write ⟨[ty], [name], [inst f.next]⟩ := by
  intro d kept pre
  cases found : d.function? with
  | none =>
    rw [define, EStateM.run_bind, function_error found]
    exact kept
  | some f =>
    rw [define_run found]
    exact ⟨kept.write fun m => fits m d f kept pre found, d, f, pre, found, rfl, rfl⟩

/-- An instruction that defines a value, of which nothing will be known. -/
theorem define_keeps {ty : Ty} {name : Option String} {inst : ValueId → Inst}
    (fits : managed → ∀ d f, d.Kept managed → P d → d.function? = some f → d.Fits (inst f.next)) :
    Spec (Kept managed) P (define ty name inst) fun _ _ => True :=
  (define_spec fits).weaken (fun _ _ pre => pre) fun _ _ _ _ => trivial

theorem defineIf_spec {ret : Option Ty} {inst : Option ValueId → Inst}
    (fits : managed → ∀ d, d.Kept managed → P d → ∀ dst,
      (∀ f, d.function? = some f → dst ≠ some f.role.runtimeParam) → d.Fits (inst dst)) :
    Spec (Kept managed) P (defineIf ret inst) fun _ _ => True := by
  cases ret with
  | none =>
    apply Spec.seq (push_spec fun m d kept pre => fits m d kept pre none fun _ _ => nofun)
    exact fun _ => .pure fun _ _ => trivial
  | some ty =>
    refine Spec.seq (define_keeps fun m d f kept pre eq => fits m d kept pre _ fun g eq' => ?_) ?_
    · obtain rfl := Option.some.inj (eq.symm.trans eq')
      exact kept.next_ne eq
    · exact fun _ => .pure fun _ _ => trivial

/-- An instruction that only computes. -/
theorem plain_spec {ty : Ty} {name : Option String} {inst : ValueId → Inst}
    (dst : ∀ v, (inst v).dst? = some v)
    (plain : ∀ m h k v, (inst v).dst? ≠ some h → (inst v).Guided m h k) :
    Spec (Kept managed) P (define ty name inst) fun v d' =>
      ∃ d f, P d ∧ d.function? = some f ∧ v = f.next ∧
        d' = d.write ⟨[ty], [name], [inst f.next]⟩ :=
  define_spec fun _ d f kept _ eq g code eq' _ => by
    obtain rfl := Option.some.inj (eq.symm.trans eq')
    exact plain _ _ _ _ (by rw [dst]; exact kept.next_ne eq)

/-! ### Blocks -/

theorem createBlock_spec : Spec (Kept managed) P createBlock fun _ _ => True := by
  refine Spec.function.bind fun f => Spec.seq (Spec.modify fun d kept _ => ⟨?_, fun m => ?_⟩)
    fun _ => .pure fun _ _ => trivial
  · exact kept.wellFormed.modifyFunction _ (fun _ => rfl) fun _ wf => wf.addBlock
  · refine (kept.guided m).modifyFunction _ (fun _ => rfl) ?_
    intro f eq code block
    rcases List.mem_append.1 block with old | new
    · exact kept.guided m f (List.mem_iff_getElem?.2 ⟨_, eq⟩) code old
    · rw [List.mem_singleton.1 new]
      trivial

theorem switchTo_spec {block : BlockId} :
    Spec (Kept managed) P (switchTo block) fun _ _ => True := by
  refine Spec.function.bind ?_
  intro f
  split
  · exact .modify fun d kept _ => ⟨kept.wellFormed, kept.guided⟩
  · exact .throw

/-! ### Access to the runtime block -/

theorem runtimeHandle_spec : Spec (Kept managed) P runtimeHandle fun v d =>
    P d ∧ ∃ f, d.function? = some f ∧ v = f.role.runtimeParam := by
  refine Spec.function.bind fun f => Spec.weaken Spec.param (fun _ _ pre => pre) ?_
  rintro v d - ⟨⟨pre, eq⟩, g, -, value⟩
  unfold Func.param? at value
  split at value
  · exact ⟨pre, f, eq, (Option.some.inj value).symm⟩
  · cases value

theorem slotAddress_spec {slot : Slot} :
    Spec (Kept managed) P (slotAddress slot) fun v d => d.Knows v (.inBlock slot.place) := by
  refine runtimeHandle_spec.bind fun handle => Spec.weaken (define_spec ?_) (fun _ _ pre => pre) ?_
  · rintro - d f kept ⟨-, g, eq, rfl⟩ eq' h code eq'' -
    obtain rfl := Option.some.inj (eq.symm.trans eq')
    obtain rfl := Option.some.inj (eq.symm.trans eq'')
    exact ⟨kept.next_ne eq, rfl, slot, rfl⟩
  · rintro v d' - ⟨d, f, -, eq, rfl, rfl⟩
    exact Draft.knows_new eq rfl fun _ _ => rfl

theorem load_spec {slot : Slot} {addr : ValueId} {name : String} :
    Spec (Kept managed) (·.Knows addr (.inBlock slot.place)) (load slot.ty addr name) fun v d =>
      slot = .pointer .checkpoint → d.Knows v .checkpoint := by
  refine Spec.weaken (define_spec ?_) (fun _ _ pre => pre) ?_
  · rintro - d f kept ⟨g, eq, -, known⟩ eq' h code eq'' block
    obtain rfl := Option.some.inj (eq.symm.trans eq')
    obtain rfl := Option.some.inj (eq.symm.trans eq'')
    exact ⟨kept.next_ne eq, slot, known code block, rfl⟩
  · rintro v d' - ⟨d, f, ⟨g, eq, -, known⟩, eq', rfl, rfl⟩ rfl
    obtain rfl := Option.some.inj (eq.symm.trans eq')
    exact Draft.knows_new eq rfl fun code block => if_pos ⟨rfl, known code block⟩

theorem store_spec {field : RuntimeField} {addr value : ValueId} :
    Spec (Kept managed) (·.Knows addr (.inBlock (Slot.word field).place)) (store addr value)
      fun _ _ => True := by
  apply push_spec
  rintro - d kept ⟨f, eq, -, known⟩ g code eq' block
  obtain rfl := Option.some.inj (eq.symm.trans eq')
  exact ⟨nofun, field, known code block⟩

theorem getField_spec {field : RuntimeField} :
    Spec (Kept managed) P (getField field) fun _ _ => True :=
  slotAddress_spec.bind fun _ =>
    Spec.weaken (@load_spec _ (.word field) _ _) (fun _ _ pre => pre) fun _ _ _ _ => trivial

theorem getPointer_spec {slot : PointerSlot} :
    Spec (Kept managed) P (getPointer slot) fun v d =>
      slot = .checkpoint → d.Knows v .checkpoint :=
  slotAddress_spec.bind fun _ => Spec.weaken (@load_spec _ (.pointer slot) _ _)
    (fun _ _ pre => pre) fun _ _ _ post same => post (congrArg Slot.pointer same)

theorem setField_spec {field : RuntimeField} {value : ValueId} :
    Spec (Kept managed) P (setField field value) fun _ _ => True := by
  refine Spec.valueType.bind ?_
  intro ty
  split
  · exact .throw_bind
  · exact slotAddress_spec.bind fun _ => store_spec

theorem registerReturnData_spec {offset size : ValueId} :
    Spec (Kept managed) P (registerReturnData offset size) fun _ _ => True :=
  setField_spec.seq fun _ => setField_spec

theorem getByOpcode_spec {op : Opcode} :
    Spec (Kept managed) P (getByOpcode op) fun _ _ => True := by
  unfold getByOpcode
  split
  · exact getField_spec
  · exact .throw

/-! ### Calls -/

/-- Generated code may raise a status only against the handle of the call's checkpoint. -/
theorem callExtern_spec {callee : ExternId} {args : List ValueId}
    (fits : managed → ∀ d e, P d → d.module.externs[callee]? = some e → e.name = abortSymbol →
      ∃ v code, args = [v, code] ∧ d.Knows v .checkpoint) :
    Spec (Kept managed) P (callExtern callee args) fun _ _ => True := by
  refine Spec.get.bind ?_
  intro d
  split
  · rename_i e there
    apply defineIf_spec
    rintro m _ kept ⟨pre, rfl⟩ dst other f code eq block
    refine ⟨other f eq, e, there, ?_⟩
    intro named
    obtain ⟨v, status, rfl, g, eq', -, known⟩ := fits m _ e pre there named
    obtain rfl := Option.some.inj (eq.symm.trans eq')
    exact ⟨v, status, rfl, known code block⟩
  · exact .throw

theorem abortPrimitive_spec : Spec (Kept managed) P abortPrimitive fun _ _ => True := by
  intro d kept _
  cases declared : d.module.abortPrimitive with
  | error misuse =>
    simp only [abortPrimitive, EStateM.run_bind, EStateM.run_get, declared]
    exact kept
  | ok r =>
    simp only [abortPrimitive, EStateM.run_bind, EStateM.run_get, declared]
    exact ⟨⟨kept.wellFormed.abortPrimitive declared,
      fun m => (kept.guided m).abortPrimitive declared⟩, trivial⟩

theorem constI32_spec {value : Int32Bits} :
    Spec (Kept managed) P (constI32 value) fun _ _ => True :=
  define_keeps fun _ d f kept _ eq g code eq' _ => by
    obtain rfl := Option.some.inj (eq.symm.trans eq')
    exact ⟨kept.next_ne eq, trivial⟩

theorem raiseAbort_spec {status : Status} :
    Spec (Kept managed) P (raiseAbort status) fun _ _ => True := by
  refine abortPrimitive_spec.seq fun abort => getPointer_spec.bind ?_
  intro handle
  -- the status is a new value, so the handle is still known after it
  have frame : Spec (Kept managed) (fun d => PointerSlot.checkpoint = .checkpoint →
      d.Knows handle .checkpoint) (constI32 status.code) fun _ d => d.Knows handle .checkpoint := by
    refine Spec.weaken (define_spec ?_) (fun _ _ pre => pre) ?_
    · intro _ d f kept _ eq g code eq' _
      obtain rfl := Option.some.inj (eq.symm.trans eq')
      exact ⟨kept.next_ne eq, trivial⟩
    · rintro v d' - ⟨d, f, known, eq, rfl, rfl⟩
      exact (known rfl).write eq rfl
  refine frame.bind fun code => Spec.seq (callExtern_spec ?_) fun _ => push_spec ?_
  · exact fun _ d e known _ _ => ⟨handle, code, rfl, known⟩
  · exact fun _ d _ _ f code _ _ => ⟨nofun, trivial⟩

theorem returnStatus_spec {status : Status} :
    Spec (Kept managed) P (returnStatus status) fun _ _ => True :=
  constI32_spec.seq fun _ => push_spec fun _ _ _ _ _ _ _ _ => ⟨nofun, trivial⟩

theorem call_spec {callee : FuncId} {args : List ValueId}
    (fits : managed → ∀ d f g, P d → d.function? = some f →
      d.module.functions[callee]? = some g → args[g.role.runtimeParam]? = some f.role.runtimeParam) :
    Spec (Kept managed) P (call callee args) fun _ _ => True := by
  refine Spec.get.bind ?_
  intro d
  split
  · rename_i g there
    apply defineIf_spec
    rintro m _ kept ⟨pre, rfl⟩ dst other f code eq block
    exact ⟨other f eq, g, there, fits m _ f g pre eq there⟩
  · exact .throw

/-- The handle is put in where the helper expects it. -/
theorem callHelper_spec {callee : FuncId} {args : List ValueId} :
    Spec (Kept managed) P (callHelper callee args) fun _ _ => True := by
  refine Spec.get.bind ?_
  intro d
  split
  · exact .throw
  · rename_i g there
    split
    · exact .throw
    · rename_i position role
      split
      · exact .throw_bind
      · rename_i enough
        refine runtimeHandle_spec.bind fun handle => call_spec ?_
        rintro - _ f g' ⟨⟨-, rfl⟩, f', eq, rfl⟩ eq' there'
        obtain rfl := Option.some.inj (eq.symm.trans eq')
        obtain rfl := Option.some.inj (there.symm.trans there')
        have position_le : position ≤ args.length := Nat.not_lt.1 enough
        have length : (args.take position).length = position := List.length_take_of_le position_le
        rw [role, Role.runtimeParam, List.getElem?_append_right (Nat.le_of_eq length), length,
          Nat.sub_self]
        rfl

end Emit

/-! ## Edits -/

/-- The operations on the runtime block, and those that do not touch memory. Externs may be called
too, but not the abort primitive, which is raised through the checkpoint of the call. -/
def Emission.Managed (m : Module) : Emission → Prop
  | ptrOffset _ _ _ | load _ _ _ | store _ _ | loadByte _ _ | call _ _ => False
  | callExtern callee _ => ∀ e, m.externs[callee]? = some e → e.name ≠ abortSymbol
  | _ => True

/-- A declaration, a move of the cursor, or a managed operation. -/
def Edit.Managed (m : Module) : Edit → Prop
  | emit e => e.Managed m
  | _ => True

namespace Emission

open Draft (Kept)
open Emit

variable {managed : Prop} {P : Draft → Prop}

theorem answer_spec {e : Emit Nat} {Q : Nat → Draft → Prop} (h : Spec (Kept managed) P e Q) :
    Spec (Kept managed) P (answer e) fun _ _ => True :=
  h.bind fun _ => .pure fun _ _ => trivial

theorem noAnswer_spec {e : Emit Unit} {Q : Unit → Draft → Prop} (h : Spec (Kept managed) P e Q) :
    Spec (Kept managed) P (noAnswer e) fun _ _ => True :=
  h.bind fun _ => .pure fun _ _ => trivial

/-- Every operation keeps a module well-formed, and every managed operation keeps it guided. -/
theorem run_spec (e : Emission) :
    Spec (Kept managed) (fun d => managed → e.Managed d.module) e.run fun _ _ => True := by
  cases e with
  | createBlock => exact answer_spec createBlock_spec
  | switchTo block => exact noAnswer_spec switchTo_spec
  | constWord value | constI32 value | binary op lhs rhs =>
    exact answer_spec (plain_spec (fun _ => rfl) fun _ _ _ _ other => ⟨other, trivial⟩)
  | ptrOffset | load | loadByte =>
    exact answer_spec (define_keeps fun m _ _ _ pre _ => (pre m).elim)
  | store => exact noAnswer_spec (push_spec fun m _ _ pre => (pre m).elim)
  | call => exact call_spec fun m _ _ _ pre _ _ => (pre m).elim
  | callExtern =>
    exact callExtern_spec fun m _ e pre there named => absurd named (pre m e there)
  | jump | branch | ret | unreachable =>
    exact noAnswer_spec (push_spec fun _ _ _ _ _ _ _ _ => ⟨nofun, trivial⟩)
  | fieldAddress => exact answer_spec slotAddress_spec
  | getField | gas => exact answer_spec getField_spec
  | setField | setGas => exact noAnswer_spec setField_spec
  | callDataPointer | codePointer | checkpointHandle => exact answer_spec getPointer_spec
  | getByOpcode => exact answer_spec getByOpcode_spec
  | registerReturnData => exact noAnswer_spec registerReturnData_spec
  | raiseAbort => exact noAnswer_spec raiseAbort_spec
  | returnStatus => exact noAnswer_spec returnStatus_spec
  | callHelper => exact callHelper_spec

end Emission

namespace Manuscript

/-- The manuscript after an edit, which may be a misuse. -/
def after (s : Manuscript) (e : Edit) : Manuscript :=
  match s.apply e with
  | .ok _ s' => s'
  | .error _ s' => s'

/-- What can come about by edits of some kind. -/
inductive Written (allowed : Module → Edit → Prop) : Manuscript → Prop
  | new (name : String) : Written allowed (.new name)
  | edit {s : Manuscript} (e : Edit) :
    Written allowed s → allowed s.module e → Written allowed (s.after e)

/-- What stays true of a manuscript. -/
abbrev Kept (managed : Prop) (s : Manuscript) : Prop :=
  s.module.WellFormed ∧ (managed → s.module.Guided)

variable {managed : Prop} {s : Manuscript}

/-- What comes about by a list of edits, misuses included. -/
theorem Written.all {allowed : Module → Edit → Prop} (edits : List Edit)
    (ok : ∀ e ∈ edits, ∀ m, allowed m e) (h : s.Written allowed) :
    (edits.foldl after s).Written allowed := by
  induction edits generalizing s with
  | nil => exact h
  | cons e edits ih =>
    exact ih (fun e mem => ok e (List.mem_cons_of_mem _ mem)) (h.edit e (ok e List.mem_cons_self _))

/-- What holds of a manuscript holds after a declaration, if it does where the declaration
succeeds. -/
theorem of_declare {P : Manuscript → Prop} (h : P s) {r : Except Misuse (Nat × Module)}
    (declared : ∀ id m, r = .ok (id, m) → P { s with module := m }) :
    P (match s.declare r with
      | .ok _ s' => s'
      | .error _ s' => s') := by
  cases r with
  | error misuse => exact h
  | ok r => exact declared r.1 r.2 rfl

/-- What holds of a manuscript holds after an operation at the cursor, if it follows from what the
operation keeps of the draft. -/
theorem of_emit {P : Manuscript → Prop} (h : P s) {I Pre : Draft → Prop} {e : Emission}
    (spec : Emit.Spec I Pre e.run fun _ _ => True)
    (before : ∀ c, s.cursor = some c → I ⟨s.module, c⟩ ∧ Pre ⟨s.module, c⟩)
    (after : ∀ d, I d → P ⟨d.module, some d.cursor⟩) :
    P (match s.emit e.run with
      | .ok _ s' => s'
      | .error _ s' => s') := by
  simp only [Manuscript.emit]
  cases cursor : s.cursor with
  | none => exact h
  | some c =>
    obtain ⟨inv, pre⟩ := before c cursor
    have done := spec _ inv pre
    cases ran : e.run.run ⟨s.module, c⟩ with
    | ok a d =>
      rw [ran] at done
      simp only [ran]
      exact after d done.1
    | error misuse d =>
      rw [ran] at done
      simp only [ran]
      exact after d done

theorem Kept.after (h : s.Kept managed) (e : Edit) (allowed : managed → e.Managed s.module) :
    (s.after e).Kept managed := by
  obtain ⟨wf, guided⟩ := h
  unfold Manuscript.after Manuscript.apply
  cases e with
  | declareEntry name =>
    refine of_declare (P := Kept managed) ⟨wf, guided⟩ fun id m declared =>
      ⟨wf.declareEntry declared, ?_⟩
    intro g
    obtain ⟨-, rfl⟩ := Module.declareEntry_ok declared
    exact (guided g).addFunction _ _ _ _
  | declareHelper name signature i =>
    refine of_declare (P := Kept managed) ⟨wf, guided⟩ fun id m declared =>
      ⟨wf.declareHelper declared, ?_⟩
    intro g
    obtain ⟨-, rfl⟩ := Module.declareHelper_ok declared
    exact (guided g).addFunction _ _ _ _
  | declareExtern name signature noreturn =>
    refine of_declare (P := Kept managed) ⟨wf, guided⟩ fun id m declared =>
      ⟨wf.declareExtern declared, ?_⟩
    intro g
    obtain ⟨more, rfl, -⟩ := Module.declareExtern_ok declared
    exact (guided g).moreExterns _ _
  | abortPrimitive =>
    exact of_declare (P := Kept managed) ⟨wf, guided⟩ fun id m declared =>
      ⟨wf.abortPrimitive declared, fun g => (guided g).abortPrimitive declared⟩
  | select func =>
    simp only [Manuscript.select]
    cases s.module.cursorAt func <;> exact ⟨wf, guided⟩
  | emit e =>
    exact of_emit (P := Kept managed) ⟨wf, guided⟩ e.run_spec
      (fun c _ => ⟨⟨wf, guided⟩, allowed⟩) fun d kept => ⟨kept.wellFormed, kept.guided⟩

theorem Written.kept {allowed : Module → Edit → Prop}
    (only : managed → ∀ m e, allowed m e → e.Managed m) (h : s.Written allowed) :
    s.Kept managed := by
  induction h with
  | new name => exact ⟨.empty name, fun _ => .empty name⟩
  | edit e _ ok ih => exact ih.after e fun m => only m _ _ ok

end Manuscript

namespace Module

/-- A module that has been written by edits. -/
def Built (m : Module) : Prop := ∃ s : Manuscript, s.Written (fun _ _ => True) ∧ s.module = m

/-- A module that has been written by managed edits alone. -/
def ManagerEmitted (m : Module) : Prop :=
  ∃ s : Manuscript, s.Written (fun m e => e.Managed m) ∧ s.module = m

theorem Built.wellFormed {m : Module} (h : m.Built) : m.WellFormed := by
  obtain ⟨s, written, rfl⟩ := h
  exact (written.kept False.elim).1

/-- Whatever a module that is written by managed edits does, its code is guided. -/
theorem ManagerEmitted.guided {m : Module} (h : m.ManagerEmitted) : m.WellFormed ∧ m.Guided := by
  obtain ⟨s, written, rfl⟩ := h
  have kept : s.Kept True := written.kept fun _ _ _ ok => ok
  exact ⟨kept.1, kept.2 trivial⟩

end Module

end HostBridge
