import HostBridge.Code.Emit

/-!
# What is written

Every operation on a draft adds instructions at the place of the cursor and the values they define
at the end of the function's values: a `Passage`. What an operation writes where it makes sense is
the business of one lemma for each.

* `Emit.push_run`, `Emit.define_run` — one instruction;
* `Emit.getField_run`, `Emit.setField_run` — the access to a slot of the runtime block;
* `Emit.returnStatus_run`, `Emit.raiseAbort_run` — the ends of a call.
-/

set_option autoImplicit false

namespace HostBridge

/-! ## Passages -/

/-- Instructions, and the values they define, with types and names. -/
structure Passage where
  values : List Ty
  names : List (Option String)
  insts : List Inst

namespace Passage

/-- One passage after another. -/
def append (p q : Passage) : Passage :=
  ⟨p.values ++ q.values, p.names ++ q.names, p.insts ++ q.insts⟩

instance : Append Passage := ⟨append⟩

@[simp] theorem append_values (p q : Passage) : (p ++ q).values = p.values ++ q.values := rfl

@[simp] theorem append_names (p q : Passage) : (p ++ q).names = p.names ++ q.names := rfl

@[simp] theorem append_insts (p q : Passage) : (p ++ q).insts = p.insts ++ q.insts := rfl

/-- Takes the address of a slot, given the handle and the number of the next value. -/
def address (handle next : ValueId) (slot : Slot) : Passage :=
  ⟨[.ptr], [some (slot.name ++ "Ptr")], [.ptrOffset next handle (BitVec.ofNat 32 slot.offset)]⟩

/-- Reads a slot. -/
def fetch (handle next : ValueId) (ty : Ty) (slot : Slot) : Passage :=
  address handle next slot ++ ⟨[ty], [some slot.name], [.load (next + 1) ty next]⟩

/-- Writes a field. -/
def put (handle next : ValueId) (field : RuntimeField) (value : ValueId) : Passage :=
  address handle next (.word field) ++ ⟨[], [], [.store next value]⟩

/-- Returns a status. -/
def giveStatus (next : ValueId) (status : Status) : Passage :=
  ⟨[.i32], [none], [.constI32 next status.code, .ret (some next)]⟩

/-- Raises a status through the given extern. -/
def giveUp (handle next : ValueId) (abort : ExternId) (status : Status) : Passage :=
  fetch handle next .ptr (.pointer .checkpoint) ++
    ⟨[.i32], [none], [.constI32 (next + 2) status.code,
      .callExtern none abort [next + 1, next + 2], .unreachable]⟩

end Passage

namespace Func

/-- The number that the next value gets. -/
def next (f : Func) : ValueId := f.values.length

/-- The function with a passage at the end of a block. -/
def write (f : Func) (block : BlockId) (p : Passage) : Func :=
  { f with
    blocks := f.blocks.modify block (· ++ p.insts)
    values := f.values ++ p.values
    names := f.names ++ p.names }

@[simp] theorem write_values (f : Func) (block : BlockId) (p : Passage) :
    (f.write block p).values = f.values ++ p.values := rfl

@[simp] theorem write_names (f : Func) (block : BlockId) (p : Passage) :
    (f.write block p).names = f.names ++ p.names := rfl

@[simp] theorem write_blocks (f : Func) (block : BlockId) (p : Passage) :
    (f.write block p).blocks = f.blocks.modify block (· ++ p.insts) := rfl

@[simp] theorem write_next (f : Func) (block : BlockId) (p : Passage) :
    (f.write block p).next = f.next + p.values.length := by
  simp [next]

theorem write_write (f : Func) (block : BlockId) (p q : Passage) :
    (f.write block p).write block q = f.write block (p ++ q) := by
  simp only [write, Passage.append_values, Passage.append_names, Passage.append_insts,
    List.append_assoc, List.modify_modify_eq]
  congr 2
  funext insts
  simp

/-- A value keeps its type. -/
theorem valueType?_write_of_lt {f : Func} {v : ValueId} (bound : v < f.next) (block : BlockId)
    (p : Passage) : (f.write block p).valueType? v = f.valueType? v := by
  have old : v < f.values.length := bound
  rw [valueType?, write_values, List.getElem?_append_left old, valueType?]

/-- The value of the parameter that receives the runtime block. -/
def handle? (f : Func) : Option ValueId := f.param? f.role.runtimeParam

end Func

namespace Draft

/-- The function that code is written into. -/
def function? (d : Draft) : Option Func := d.module.functions[d.cursor.func]?

/-- The draft with a passage at the cursor. -/
def write (d : Draft) (p : Passage) : Draft :=
  { d with module := d.module.modifyFunction d.cursor.func (·.write d.cursor.block p) }

theorem write_function? (d : Draft) (p : Passage) :
    (d.write p).function? = d.function?.map (·.write d.cursor.block p) := by
  simp only [function?, write, Module.modifyFunction, List.getElem?_modify_eq]
  rfl

theorem write_write (d : Draft) (p q : Passage) : (d.write p).write q = d.write (p ++ q) := by
  simp only [write, Module.modifyFunction, List.modify_modify_eq]
  congr 3
  funext f
  exact f.write_write ..

/-- What is written after a passage sees the values of the passage. -/
theorem function?_after {d : Draft} {f : Func} (eq : d.function? = some f) (p : Passage) :
    (d.write p).function? = some (f.write d.cursor.block p) := by
  rw [write_function?, eq, Option.map_some]

end Draft

/-! ## Operations -/

namespace Emit

variable {α β : Type} {d d₁ : Draft} {f : Func}

theorem bind_run {e : Emit α} {next : α → Emit β} {a : α} (first : e.run d = .ok a d₁) :
    (e >>= next).run d = (next a).run d₁ := by
  rw [EStateM.run_bind, first]

theorem function_run (eq : d.function? = some f) : function.run d = .ok f d := by
  rw [Draft.function?] at eq
  simp only [function, EStateM.run_bind, EStateM.run_get, eq]
  rfl

theorem function_error (missing : d.function? = none) :
    function.run d = .error (.unknownFunction d.cursor.func) d := by
  rw [Draft.function?] at missing
  simp only [function, EStateM.run_bind, EStateM.run_get, missing]
  rfl

theorem push_run (i : Inst) : (push i).run d = .ok () (d.write ⟨[], [], [i]⟩) := by
  simp [push, modifyFunction, Draft.write, Func.write, Func.append]

theorem define_run (eq : d.function? = some f) (ty : Ty) (name : Option String)
    (inst : ValueId → Inst) :
    (define ty name inst).run d = .ok f.next (d.write ⟨[ty], [name], [inst f.next]⟩) := by
  have both : Draft.write
      ⟨d.module.modifyFunction d.cursor.func fun g => g.addValue ty name, d.cursor⟩
      ⟨[], [], [inst f.next]⟩ = d.write ⟨[ty], [name], [inst f.next]⟩ := by
    simp only [Draft.write, Module.modifyFunction, List.modify_modify_eq]
    congr 3
    funext g
    simp [Func.write, Func.addValue]
  rw [define, bind_run (function_run eq), modifyFunction, bind_run (EStateM.run_modify ..),
    bind_run (push_run _)]
  exact congrArg (EStateM.Result.ok f.next) both

theorem valueType_run (eq : d.function? = some f) {v : ValueId} {ty : Ty}
    (type : f.valueType? v = some ty) : (valueType v).run d = .ok ty d := by
  rw [valueType, bind_run (function_run eq), type]
  rfl

theorem runtimeHandle_run (eq : d.function? = some f) {h : ValueId} (handle : f.handle? = some h) :
    runtimeHandle.run d = .ok h d := by
  rw [Func.handle?] at handle
  rw [runtimeHandle, bind_run (function_run eq), param, bind_run (function_run eq), handle]
  rfl

theorem slotAddress_run (eq : d.function? = some f) {h : ValueId} (handle : f.handle? = some h)
    (slot : Slot) :
    (slotAddress slot).run d = .ok f.next (d.write (.address h f.next slot)) := by
  rw [slotAddress, bind_run (runtimeHandle_run eq handle), ptrOffset, define_run eq]
  rfl

/-- The read of a slot. -/
theorem fetch_run (eq : d.function? = some f) {h : ValueId} (handle : f.handle? = some h)
    (ty : Ty) (slot : Slot) :
    (slotAddress slot >>= fun addr => load ty addr slot.name).run d =
      .ok (f.next + 1) (d.write (.fetch h f.next ty slot)) := by
  rw [bind_run (slotAddress_run eq handle slot), load, define_run (Draft.function?_after eq _),
    Draft.write_write, Func.write_next]
  rfl

theorem getField_run (eq : d.function? = some f) {h : ValueId} (handle : f.handle? = some h)
    (field : RuntimeField) :
    (getField field).run d = .ok (f.next + 1) (d.write (.fetch h f.next .word (.word field))) :=
  fetch_run eq handle .word (.word field)

theorem getPointer_run (eq : d.function? = some f) {h : ValueId} (handle : f.handle? = some h)
    (slot : PointerSlot) :
    (getPointer slot).run d = .ok (f.next + 1) (d.write (.fetch h f.next .ptr (.pointer slot))) :=
  fetch_run eq handle .ptr (.pointer slot)

theorem setField_run (eq : d.function? = some f) {h : ValueId} (handle : f.handle? = some h)
    (field : RuntimeField) {value : ValueId} (type : f.valueType? value = some .word) :
    (setField field value).run d = .ok () (d.write (.put h f.next field value)) := by
  rw [setField, bind_run (valueType_run eq type), if_neg (not_not_intro rfl), fieldAddress,
    bind_run (slotAddress_run eq handle _), store, push_run, Draft.write_write]
  rfl

theorem returnStatus_run (eq : d.function? = some f) (status : Status) :
    (returnStatus status).run d = .ok () (d.write (.giveStatus f.next status)) := by
  rw [returnStatus, constI32, bind_run (define_run eq _ _ _), ret, push_run, Draft.write_write]
  rfl

/-- A call of an extern that never comes back. -/
theorem callExtern_run {id : ExternId} {e : ExternDecl} (there : d.module.externs[id]? = some e)
    (noreturn : e.noreturn = true) (args : List ValueId) :
    (callExtern id args).run d = .ok none (d.write ⟨[], [], [.callExtern none id args]⟩) := by
  simp only [callExtern, EStateM.run_bind, EStateM.run_get, there, noreturn, if_true, defineIf,
    push_run]
  rfl

/-- The abort primitive is declared before anything is written. -/
theorem raiseAbort_run {id : ExternId} {m : Module}
    (declared : d.module.abortPrimitive = .ok (id, m))
    {e : ExternDecl} (there : m.externs[id]? = some e) (noreturn : e.noreturn = true)
    (eq : Draft.function? { d with module := m } = some f) {h : ValueId}
    (handle : f.handle? = some h) (status : Status) :
    (raiseAbort status).run d =
      .ok () (Draft.write { d with module := m } (.giveUp h f.next id status)) := by
  have primitive : abortPrimitive.run d = .ok id { d with module := m } := by
    simp only [abortPrimitive, EStateM.run_bind, EStateM.run_get, declared]
    rfl
  have after := Draft.function?_after eq (.fetch h f.next .ptr (.pointer .checkpoint))
  rw [raiseAbort, bind_run primitive, checkpointHandle, bind_run (getPointer_run eq handle _),
    constI32, bind_run (define_run after _ _ _), bind_run (callExtern_run there noreturn _),
    unreachable, push_run, Draft.write_write, Draft.write_write, Draft.write_write, Func.write_next]
  rfl

end Emit

end HostBridge
