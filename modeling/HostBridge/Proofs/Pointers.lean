import HostBridge.Proofs.Buffers
import HostBridge.Proofs.Consistency
import HostBridge.Proofs.Positions

/-!
# Pointers that code has read

Code finds the pointers of the runtime block by its handle: it takes the address of a slot and loads
what is there. Every value has one definition, so the text of a function tells which of its values
are such pointers, wherever they are used.

* `Module.KeepsPointers` — what code has to observe so that the slots keep their pointers;
* `Func.Numbered.single` — a value is defined by one instruction at most;
* `Module.Answered.reads` — to ask for a pointer makes a value that is read from its slot, and it
  stays so, whatever is written later.
-/

set_option autoImplicit false

namespace HostBridge

/-! ## What the text of a function tells -/

/-- Values that are all defined by different instructions are defined by one each. -/
theorem eq_of_dst {code : List Inst} (distinct : (code.filterMap Inst.dst?).Nodup) {i j : Inst}
    {v : ValueId} (first : i ∈ code) (second : j ∈ code) (dstFirst : i.dst? = some v)
    (dstSecond : j.dst? = some v) : i = j := by
  induction code with
  | nil => cases first
  | cons k code ih =>
    have listed {x : Inst} (there : x ∈ code) (dst : x.dst? = some v) :
        v ∈ code.filterMap Inst.dst? := List.mem_filterMap.2 ⟨x, there, dst⟩
    have rest : (code.filterMap Inst.dst?).Nodup :=
      distinct.sublist ((List.sublist_cons_self k code).filterMap Inst.dst?)
    have apart (dst : k.dst? = some v) : v ∉ code.filterMap Inst.dst? := by
      rw [List.filterMap_cons_some dst] at distinct
      exact (List.nodup_cons.1 distinct).1
    rcases List.mem_cons.1 first with rfl | firstLater
    · rcases List.mem_cons.1 second with rfl | secondLater
      · rfl
      · exact absurd (listed secondLater dstSecond) (apart dstFirst)
    · rcases List.mem_cons.1 second with rfl | secondLater
      · exact absurd (listed firstLater dstFirst) (apart dstSecond)
      · exact ih rest firstLater secondLater

/-- A value of a function is defined by one of its instructions at most. -/
theorem Func.Numbered.single {m : Module} {f : Func} (h : f.Numbered m) {i j : Inst} {v : ValueId}
    (first : i ∈ f.insts) (second : j ∈ f.insts) (dstFirst : i.dst? = some v)
    (dstSecond : j.dst? = some v) : i = j :=
  eq_of_dst (h.destinations.nodup_iff.2 List.nodup_range') first second dstFirst dstSecond

namespace Func

/-- A value is the address of a slot, computed from the handle. -/
def Addresses (f : Func) (v : ValueId) (slot : Slot) : Prop :=
  .ptrOffset v f.role.runtimeParam slot.place ∈ f.insts

/-- A value is read from the slot of a pointer. -/
def Reads (f : Func) (v : ValueId) (slot : PointerSlot) : Prop :=
  ∃ addr, f.Addresses addr (.pointer slot) ∧ .load v .ptr addr ∈ f.insts

end Func

/-- Code writes to fields only, and gives the functions that it calls its own handle, and no more
arguments than they have parameters. -/
structure Module.KeepsPointers (m : Module) : Prop where
  stores : ∀ f ∈ m.functions, ∀ addr value, .store addr value ∈ f.insts →
    ∃ field, f.Addresses addr (.word field)
  calls : ∀ f ∈ m.functions, ∀ dst callee args, .call dst callee args ∈ f.insts →
    ∃ g, m.functions[callee]? = some g ∧
      args[g.role.runtimeParam]? = some f.role.runtimeParam ∧
      args.length ≤ g.signature.params.length

/-! ## What has been asked for -/

/-- In the course of writing a module an operation has been carried out in one of its functions, and
the answer was a value. -/
def Module.Answered (m : Module) (id : FuncId) (e : Emission) (v : ValueId) : Prop :=
  ∃ (name : String) (before later : List Edit) (s : Manuscript),
    let start := before.foldl Manuscript.after (.new name)
    start.cursor.map Cursor.func = some id ∧ start.apply (.emit e) = .ok (some v) s ∧
      (later.foldl Manuscript.after s).module = m

namespace Module

/-- The functions of a module have the same roles in the other and the same numbers, and nothing of
their code has been taken away. -/
def Grows (m m' : Module) : Prop :=
  ∀ (id : FuncId) (f : Func), m.functions[id]? = some f →
    ∃ f', m'.functions[id]? = some f' ∧ f'.role = f.role ∧ f.insts ⊆ f'.insts

variable {m m' m'' : Module}

namespace Grows

theorem refl (m : Module) : m.Grows m := fun _ f there => ⟨f, there, rfl, List.Subset.refl _⟩

theorem trans (h : m.Grows m') (h' : m'.Grows m'') : m.Grows m'' := by
  intro id f there
  obtain ⟨f', there', role, more⟩ := h id f there
  obtain ⟨f'', there'', role', more'⟩ := h' id f' there'
  exact ⟨f'', there'', role'.trans role, List.Subset.trans more more'⟩

theorem of_appended (more : m.functions <+: m'.functions) : m.Grows m' := by
  intro id f there
  obtain ⟨bound, eq⟩ := List.getElem?_eq_some_iff.1 there
  exact ⟨f, eq ▸ List.prefix_iff_getElem?.1 more id bound, rfl, List.Subset.refl _⟩

theorem modifyFunction (m : Module) (id : FuncId) {change : Func → Func}
    (role : ∀ f, (change f).role = f.role) (more : ∀ f, f.insts ⊆ (change f).insts) :
    m.Grows (m.modifyFunction id change) := by
  intro k f there
  rw [Module.modifyFunction, List.getElem?_modify, there]
  refine ⟨_, rfl, ?_⟩
  split
  · exact ⟨role f, more f⟩
  · exact ⟨rfl, List.Subset.refl _⟩

end Grows

end Module

/-- To write into a block takes nothing away. -/
theorem Func.subset_write (f : Func) (block : BlockId) (p : Passage) :
    f.insts ⊆ (f.write block p).insts := by
  by_cases bound : block < f.blocks.length
  · exact fun _ mem => (f.write_insts bound p).symm.subset (List.mem_append_left _ mem)
  · have same : (f.write block p).insts = f.insts := by
      rw [insts, write_blocks, List.modify_eq_self (Nat.not_lt.1 bound), insts]
    exact same ▸ List.Subset.refl _

theorem Draft.growing_lasting (m : Module) : Draft.Lasting fun d => m.Grows d.module := by
  intro d d' stroke grows
  cases stroke with
  | define | push =>
    exact grows.trans (.modifyFunction _ _ (fun _ => rfl) fun f => f.subset_write ..)
  | addBlock =>
    exact grows.trans (.modifyFunction _ _ (fun _ => rfl) fun f => by
      rw [Func.addBlock_insts]
      exact List.Subset.refl _)
  | move => exact grows
  | primitive asked =>
    rcases Module.abortPrimitive_ok asked with ⟨-, rfl⟩ | ⟨more, rfl, -⟩
    · exact grows
    · exact grows.trans (.of_appended (List.prefix_refl _))

namespace Manuscript

/-- No edit takes code away, and no misuse does. -/
theorem grows_after (s : Manuscript) (e : Edit) : s.module.Grows (s.after e).module :=
  kept_after (I := s.module.Grows) (Draft.growing_lasting s.module)
    (fun _ _ _ _ _ grows => grows.trans (.of_appended (List.prefix_append ..)))
    (fun _ _ _ grows => grows.trans (.of_appended (List.prefix_refl _))) (.refl _) e

theorem grows_all (edits : List Edit) (s : Manuscript) :
    s.module.Grows (edits.foldl Manuscript.after s).module := by
  induction edits generalizing s with
  | nil => exact .refl _
  | cons e edits ih => exact (s.grows_after e).trans (ih _)

end Manuscript

/-- A value that is given for a pointer is read from its slot. -/
theorem Emit.getPointer_reads {d d' : Draft} {slot : PointerSlot} {v : ValueId}
    (orderly : d.Orderly) (ran : (getPointer slot).run d = .ok v d') :
    d'.cursor = d.cursor ∧ ∃ f, d'.function? = some f ∧ f.Reads v slot := by
  obtain ⟨f, here, bound⟩ := orderly.placed
  have wf := orderly.module.wellFormed.functions f (List.mem_iff_getElem?.2 ⟨_, here⟩)
  have handle : f.handle? = some f.role.runtimeParam := if_pos wf.runtimeParam_lt
  rw [getPointer_run here handle slot] at ran
  cases ran
  let passage := Passage.fetch f.role.runtimeParam f.next .ptr (.pointer slot)
  have written : passage.insts ⊆ (f.write d.cursor.block passage).insts := fun _ mem =>
    (f.write_insts bound passage).symm.subset (List.mem_append_right _ mem)
  refine ⟨rfl, _, Draft.function?_after here passage, f.next, written ?_, written ?_⟩ <;>
    simp [passage, Passage.fetch, Passage.address, Func.write, Slot.place]

namespace Module.Answered

variable {m : Module} {id : FuncId} {e : Emission} {v : ValueId}

/-- The history of an answer is one of the module. -/
theorem orderly (h : m.Answered id e v) : m.Orderly := by
  obtain ⟨name, before, later, s, -, answered, rfl⟩ := h
  have start := (Manuscript.Orderly.new name).all before
  have after := start.after (.emit e)
  rw [Manuscript.after, answered] at after
  exact (after.all later).module

/-- **To ask for a pointer makes a value that is read from its slot**, and it stays so. -/
theorem reads (h : m.Answered id e v) {slot : PointerSlot}
    (asks : e.run = Emission.answer (Emit.getPointer slot)) :
    ∃ f, m.functions[id]? = some f ∧ f.Reads v slot := by
  obtain ⟨name, before, later, s, selected, answered, rfl⟩ := h
  have orderly := (Manuscript.Orderly.new name).all before
  obtain ⟨c, cursor, rfl⟩ := Option.map_eq_some_iff.1 selected
  have draft : Draft.Orderly ⟨_, c⟩ := ⟨orderly.module, orderly.placed c cursor⟩
  simp only [Manuscript.apply, Manuscript.emit, cursor, asks, Emission.answer, EStateM.run_bind]
    at answered
  generalize before.foldl Manuscript.after (.new name) = s at *
  cases ran : (Emit.getPointer slot).run ⟨s.module, c⟩ with
  | error misuse d => simp [ran] at answered
  | ok w d =>
    simp only [ran] at answered
    cases answered
    obtain ⟨same, f, here, reads⟩ := Emit.getPointer_reads draft ran
    rw [Draft.function?, same] at here
    obtain ⟨f', there, role, more⟩ :=
      Manuscript.grows_all later ⟨d.module, some d.cursor⟩ _ f here
    obtain ⟨addr, address, load⟩ := reads
    exact ⟨f', there, addr, by rw [Func.Addresses, role]; exact more address, more load⟩

end Module.Answered

end HostBridge
