import HostBridge.Proofs.Strokes
import Mathlib.Data.List.Nodup

/-!
# Modules are consistent while they are written

A module keeps several tables in step: the names of its functions and externs, its entry, the abort
primitive, and for each function its values and the instructions that define them. What they owe to
each other is `Module.Consistent`. The invariant behind it is smaller (`Module.Orderly`): in a
function, the destinations of all instructions are the numbers behind the parameters in some order,
and every instruction gives what is recorded of its destination.

* `Draft.orderly_lasting` — every stroke keeps a module orderly;
* `Manuscript.Orderly.after` — so does every edit, whether it is a misuse or not;
* `Module.edits_consistent` — after any list of edits the module is consistent.
-/

set_option autoImplicit false

namespace HostBridge

/-! ## What the tables owe to each other -/

/-- What the tables of a function owe to each other and to those of its module. -/
structure Func.Consistent (m : Module) (f : Func) : Prop where
  /-- There is a first block. -/
  firstBlock : 0 < f.blocks.length
  /-- Every value has a type and a place for a name. -/
  named : f.values.length = f.names.length
  /-- The first values are the parameters. -/
  params : f.signature.params <+: f.values
  /-- The handle of a helper is a pointer. -/
  handle : ∀ i, f.role = .helper i → f.signature.params[i]? = some .ptr
  /-- No instruction defines a parameter. -/
  paramsKept : ∀ i ∈ f.insts, ∀ v, i.dst? = some v → f.signature.params.length ≤ v
  /-- Every other value is defined by one instruction. -/
  definedOnce : ∀ v, f.signature.params.length ≤ v → v < f.values.length →
    f.insts.countP (fun i => i.dst? = some v) = 1
  /-- An instruction defines a value of the type that is recorded. -/
  definedAs : ∀ i ∈ f.insts, ∀ v, i.dst? = some v →
    ∃ ty, f.valueType? v = some ty ∧ i.Gives m (some ty)
  /-- A call has a destination exactly if the callee, which exists, returns a value. -/
  calls : ∀ dst callee args, Inst.call dst callee args ∈ f.insts →
    ∃ g, m.functions[callee]? = some g ∧ (dst.isSome ↔ g.signature.ret.isSome)
  /-- The same for a call of the host, which may not come back. -/
  externCalls : ∀ dst callee args, Inst.callExtern dst callee args ∈ f.insts →
    ∃ e, m.externs[callee]? = some e ∧
      (dst.isSome ↔ e.signature.ret.isSome ∧ e.noreturn = false)

/-- What the tables of a module owe to each other. -/
structure Module.Consistent (m : Module) : Prop where
  functionNames : (m.functions.map Func.name).Nodup
  externNames : (m.externs.map ExternDecl.name).Nodup
  /-- The entry is set exactly if there is an entry function, and then it is the only one. -/
  entry : ∀ id, m.entry = some id ↔ ∃ f, m.functions[id]? = some f ∧ f.role = .entry
  abort : ∀ id, m.abort = some id →
    m.externs[id]? = some ⟨"evmjit.abort", ⟨[.ptr, .i32], none⟩, true⟩
  functions : ∀ f ∈ m.functions, f.Consistent m

/-! ## The invariant -/

/-- The tables of values are of one length. Behind the parameters, values and defining instructions
belong together one to one. -/
structure Func.Numbered (m : Module) (f : Func) : Prop where
  named : f.values.length = f.names.length
  destinations : (f.insts.filterMap Inst.dst?).Perm
    (List.range' f.signature.params.length (f.values.length - f.signature.params.length))
  gives : ∀ i ∈ f.insts, i.Gives m (i.dst?.bind f.valueType?)

/-- What every edit keeps of a module. -/
structure Module.Orderly (m : Module) : Prop where
  wellFormed : m.WellFormed
  functionNames : (m.functions.map Func.name).Nodup
  externNames : (m.externs.map ExternDecl.name).Nodup
  onlyEntry : ∀ id f, m.functions[id]? = some f → f.role = .entry → m.entry = some id
  numbered : ∀ f ∈ m.functions, f.Numbered m

/-! ### Modules that grow -/

/-- Calls that fit one module fit the other. -/
structure Module.Retains (m m' : Module) : Prop where
  signatures : m.functions.map Func.signature <+: m'.functions.map Func.signature
  externs : m.externs <+: m'.externs

theorem Inst.Gives.retain {m m' : Module} (retains : m.Retains m') {i : Inst} {ty : Option Ty}
    (h : i.Gives m ty) : i.Gives m' ty := by
  cases i with
  | call dst callee args =>
    obtain ⟨g, there, ret⟩ := h
    obtain ⟨more, eq⟩ := retains.signatures
    have signature : (m.functions.map Func.signature)[callee]? = some g.signature := by
      simp [there]
    have bound := (List.getElem?_eq_some_iff.1 signature).1
    rw [← List.getElem?_append_left bound, eq, List.getElem?_map] at signature
    obtain ⟨g', there', same⟩ := Option.map_eq_some_iff.1 signature
    exact ⟨g', there', by rw [same, ret]⟩
  | callExtern dst callee args =>
    obtain ⟨e, there, ret⟩ := h
    obtain ⟨more, eq⟩ := retains.externs
    have bound := (List.getElem?_eq_some_iff.1 there).1
    exact ⟨e, by rw [← eq, List.getElem?_append_left bound, there], ret⟩
  | _ => exact h

theorem Func.Numbered.retain {m m' : Module} (retains : m.Retains m') {f : Func}
    (h : f.Numbered m) : f.Numbered m' :=
  ⟨h.named, h.destinations, fun i mem => (h.gives i mem).retain retains⟩

/-! ### What is written into a function -/

/-- An instruction that is written into a block joins the others. -/
theorem flatten_modify_perm {α : Type} (xs : List α) :
    ∀ (blocks : List (List α)) {b : Nat}, b < blocks.length →
      (blocks.modify b (· ++ xs)).flatten.Perm (blocks.flatten ++ xs)
  | block :: blocks, 0, _ => by
    simp only [List.modify_zero_cons, List.flatten_cons, List.append_assoc]
    exact List.perm_append_comm.append_left block
  | block :: blocks, b + 1, bound => by
    have later := flatten_modify_perm xs blocks (Nat.lt_of_succ_lt_succ bound)
    simp only [List.modify_succ_cons, List.flatten_cons, List.append_assoc]
    exact later.append_left block

namespace Func

variable {m : Module} {f : Func} {block : BlockId}

theorem write_insts (bound : block < f.blocks.length) (p : Passage) :
    (f.write block p).insts.Perm (f.insts ++ p.insts) :=
  flatten_modify_perm p.insts f.blocks bound

theorem addBlock_insts : f.addBlock.insts = f.insts := by
  simp [insts, addBlock]

namespace Numbered

/-- Only values of the function are defined. -/
theorem dst_bounds (h : f.Numbered m) (wf : f.WellFormed) {i : Inst} (mem : i ∈ f.insts)
    {v : Nat} (dst : i.dst? = some v) :
    f.signature.params.length ≤ v ∧ v < f.values.length := by
  have listed : v ∈ f.insts.filterMap Inst.dst? := List.mem_filterMap.2 ⟨i, mem, dst⟩
  have range := List.mem_range'_1.1 (h.destinations.subset listed)
  have params := wf.params_le
  omega

/-- A new value does not change what is recorded of the old ones. -/
theorem gives_write (h : f.Numbered m) (wf : f.WellFormed) {i : Inst} (mem : i ∈ f.insts)
    (p : Passage) : i.Gives m (i.dst?.bind (f.write block p).valueType?) := by
  have gives := h.gives i mem
  cases dst : i.dst? with
  | none =>
    rw [dst] at gives
    exact gives
  | some v =>
    rw [dst] at gives
    rw [Option.bind_some, valueType?_write_of_lt (h.dst_bounds wf mem dst).2]
    exact gives

theorem push (h : f.Numbered m) (wf : f.WellFormed) (bound : block < f.blocks.length) {i : Inst}
    (none : i.dst? = none) (gives : i.Gives m Option.none) :
    (f.write block ⟨[], [], [i]⟩).Numbered m where
  named := by
    rw [write_values, write_names, List.append_nil, List.append_nil, h.named]
  destinations := by
    have same := (write_insts bound ⟨[], [], [i]⟩).filterMap Inst.dst?
    rw [List.filterMap_append, List.filterMap_cons_none none, List.filterMap_nil,
      List.append_nil] at same
    rw [write_values, List.append_nil]
    exact same.trans h.destinations
  gives := fun j mem => by
    rcases List.mem_append.1 ((write_insts bound _).subset mem) with old | new
    · exact h.gives_write wf old _
    · rw [List.mem_singleton.1 new, none]
      exact gives

/-- The new value takes the next number, and the new instruction is the one that defines it. -/
theorem define (h : f.Numbered m) (wf : f.WellFormed) (bound : block < f.blocks.length)
    {ty : Ty} (name : Option String) {i : Inst} (dst : i.dst? = some f.next)
    (gives : i.Gives m (some ty)) : (f.write block ⟨[ty], [name], [i]⟩).Numbered m where
  named := by
    rw [write_values, write_names, List.length_append, List.length_append, h.named]
    rfl
  destinations := by
    have more := (write_insts bound ⟨[ty], [name], [i]⟩).filterMap Inst.dst?
    rw [List.filterMap_append, List.filterMap_cons_some dst, List.filterMap_nil] at more
    have params := wf.params_le
    have count : f.values.length + 1 - f.signature.params.length =
        f.values.length - f.signature.params.length + 1 := by omega
    have last : f.signature.params.length + (f.values.length - f.signature.params.length) =
        f.values.length := by omega
    have range : List.range' f.signature.params.length
          (f.values.length + 1 - f.signature.params.length) =
        List.range' f.signature.params.length
          (f.values.length - f.signature.params.length) ++ [f.next] := by
      rw [count, List.range'_1_concat, last, next]
    rw [write_values, List.length_append, List.length_singleton]
    refine more.trans ?_
    rw [write, range]
    exact h.destinations.append_right [f.next]
  gives := fun j mem => by
    rcases List.mem_append.1 ((write_insts bound _).subset mem) with old | new
    · exact h.gives_write wf old _
    · have type : (f.write block ⟨[ty], [name], [i]⟩).valueType? f.next = some ty := by
        simp [valueType?, next]
      rw [List.mem_singleton.1 new, dst, Option.bind_some, type]
      exact gives

theorem addBlock (h : f.Numbered m) : f.addBlock.Numbered m where
  named := h.named
  destinations := by
    rw [addBlock_insts]
    exact h.destinations
  gives := fun i mem => by
    rw [addBlock_insts] at mem
    exact h.gives i mem

/-- A function without code has no values but its parameters. -/
theorem declare (name : String) (signature : Signature) (role : Role) :
    (declare name signature role).Numbered m where
  named := by simp [Func.declare]
  destinations := by simp [Func.declare, insts]
  gives := fun i mem => by simp [Func.declare, insts] at mem

end Numbered

end Func

/-! ## Declarations -/

namespace Module

variable {m m' : Module}

/-- Only a function with a new name is added. -/
theorem addFunction_new {f : Func} {r : FuncId × Module} (h : m.addFunction f = .ok r) :
    f.name ∉ m.functions.map Func.name := by
  unfold addFunction at h
  split at h
  · cases h
  · rename_i unknown
    intro mem
    obtain ⟨g, there, name⟩ := List.mem_map.1 mem
    have other := List.findIdx?_eq_none_iff.1 unknown g there
    simp [name] at other

namespace Orderly

theorem empty (name : String) : (Module.empty name).Orderly where
  wellFormed := .empty name
  functionNames := .nil
  externNames := .nil
  onlyEntry := fun _ _ there => by cases there
  numbered := fun _ mem => by cases mem

/-- A new function without code, and the entry set accordingly. -/
theorem addFunction (h : m.Orderly) {name : String} {signature : Signature} {role : Role}
    {entry : Option FuncId} {r : FuncId × Module}
    (added : m.addFunction (.declare name signature role) = .ok r)
    (wf : { m with
      functions := m.functions ++ [Func.declare name signature role], entry := entry }.WellFormed)
    (kept : ∀ id, m.entry = some id → entry = some id)
    (new : role = .entry → entry = some m.functions.length) :
    { m with
      functions := m.functions ++ [Func.declare name signature role], entry := entry }.Orderly where
  wellFormed := wf
  functionNames := by
    have fresh : name ∉ m.functions.map Func.name := addFunction_new added
    rw [List.map_append, List.map_singleton, ← List.concat_eq_append, List.nodup_concat]
    exact ⟨fresh, h.functionNames⟩
  externNames := h.externNames
  onlyEntry := fun id f there isEntry => by
    rcases Nat.lt_or_ge id m.functions.length with old | behind
    · rw [List.getElem?_append_left old] at there
      exact kept id (h.onlyEntry id f there isEntry)
    · rw [List.getElem?_append_right behind, List.getElem?_singleton] at there
      split at there
      · rename_i zero
        have last : id = m.functions.length :=
          Nat.le_antisymm (Nat.sub_eq_zero_iff_le.1 zero) behind
        obtain rfl := Option.some.inj there
        rw [last]
        exact new isEntry
      · cases there
  numbered := fun f mem => by
    have retains : m.Retains { m with
        functions := m.functions ++ [Func.declare name signature role], entry := entry } :=
      ⟨by rw [List.map_append]; exact List.prefix_append .., List.prefix_refl _⟩
    rcases List.mem_append.1 mem with old | new
    · exact (h.numbered f old).retain retains
    · rw [List.mem_singleton.1 new]
      exact .declare name signature role

theorem declareEntry (h : m.Orderly) {name : String} {id : FuncId}
    (declared : m.declareEntry name = .ok (id, m')) : m'.Orderly := by
  have wf := h.wellFormed.declareEntry declared
  obtain ⟨-, rfl⟩ := declareEntry_ok declared
  unfold Module.declareEntry at declared
  split at declared
  · cases declared
  · rename_i missing
    cases added : m.addFunction (.declare name .entry .entry) with
    | error misuse =>
      rw [added] at declared
      cases declared
    | ok r =>
      refine h.addFunction added wf ?_ fun _ => rfl
      intro id eq
      rw [missing] at eq
      cases eq

theorem declareHelper (h : m.Orderly) {name : String} {signature : Signature} {i : Nat}
    {id : FuncId} (declared : m.declareHelper name signature i = .ok (id, m')) : m'.Orderly := by
  have wf := h.wellFormed.declareHelper declared
  obtain ⟨pointer, rfl⟩ := declareHelper_ok declared
  rw [Module.declareHelper, if_pos pointer] at declared
  exact h.addFunction declared wf (fun _ eq => eq) nofun

/-- New externs must have new names. -/
theorem moreExterns (h : m.Orderly) {more : List ExternDecl} {abort : Option ExternId}
    (wf : { m with externs := m.externs ++ more, abort := abort }.WellFormed)
    (names : ((m.externs ++ more).map ExternDecl.name).Nodup) :
    { m with externs := m.externs ++ more, abort := abort }.Orderly where
  wellFormed := wf
  functionNames := h.functionNames
  externNames := names
  onlyEntry := h.onlyEntry
  numbered := fun f mem => by
    have retains : m.Retains { m with externs := m.externs ++ more, abort := abort } :=
      ⟨List.prefix_refl _, List.prefix_append ..⟩
    exact (h.numbered f mem).retain retains

end Orderly

/-- A declaration leaves the names of externs distinct: a known name is not declared again. -/
theorem declareExtern_names (names : (m.externs.map ExternDecl.name).Nodup) {name : String}
    {signature : Signature} {noreturn : Bool} {id : ExternId}
    (h : m.declareExtern name signature noreturn = .ok (id, m')) :
    (m'.externs.map ExternDecl.name).Nodup := by
  unfold declareExtern at h
  split at h
  · split at h
    · cases h
      exact names
    · cases h
  · rename_i unknown
    cases h
    have fresh : name ∉ m.externs.map ExternDecl.name := by
      intro mem
      obtain ⟨e, there, same⟩ := List.mem_map.1 mem
      have other := List.findIdx?_eq_none_iff.1 unknown e there
      simp [same] at other
    rw [List.map_append, List.map_singleton, ← List.concat_eq_append, List.nodup_concat]
    exact ⟨fresh, names⟩

namespace Orderly

theorem declareExtern (h : m.Orderly) {name : String} {signature : Signature}
    {noreturn : Bool} {id : ExternId}
    (declared : m.declareExtern name signature noreturn = .ok (id, m')) : m'.Orderly := by
  have wf := h.wellFormed.declareExtern declared
  have names := declareExtern_names h.externNames declared
  obtain ⟨more, rfl, -⟩ := declareExtern_ok declared
  exact h.moreExterns wf names

theorem abortPrimitive (h : m.Orderly) {id : ExternId}
    (asked : m.abortPrimitive = .ok (id, m')) : m'.Orderly := by
  have wf := h.wellFormed.abortPrimitive asked
  unfold Module.abortPrimitive at asked
  split at asked
  · cases asked
    exact h
  · cases declared : m.declareExtern abortSymbol abortSignature true with
    | error misuse =>
      rw [declared] at asked
      cases asked
    | ok r =>
      rw [declared] at asked
      cases asked
      have names := declareExtern_names h.externNames declared
      obtain ⟨more, eq, -⟩ := declareExtern_ok declared
      rw [eq] at wf names ⊢
      exact h.moreExterns wf names

end Orderly

/-! ## Strokes -/

/-- What no change of one function touches. -/
theorem modifyFunction_map {α : Type} (view : Func → α) (m : Module) (id : FuncId)
    {change : Func → Func} (same : ∀ f, view (change f) = view f) :
    (m.modifyFunction id change).functions.map view = m.functions.map view := by
  refine List.ext_getElem? fun k => ?_
  rw [modifyFunction, List.getElem?_map, List.getElem?_map, List.getElem?_modify]
  cases m.functions[k]? with
  | none => rfl
  | some f =>
    by_cases here : id = k
    · simp [here, same]
    · simp [here]

/-- A function changes and keeps what others know of it. -/
theorem Orderly.modifyFunction (h : m.Orderly) (id : FuncId) {change : Func → Func}
    (name : ∀ f, (change f).name = f.name) (role : ∀ f, (change f).role = f.role)
    (signature : ∀ f, (change f).signature = f.signature)
    (wf : ∀ f, f.WellFormed → (change f).WellFormed)
    (numbered : ∀ f, m.functions[id]? = some f → f.WellFormed → f.Numbered m →
      (change f).Numbered m) :
    (m.modifyFunction id change).Orderly where
  wellFormed := h.wellFormed.modifyFunction id role wf
  functionNames := by
    rw [modifyFunction_map Func.name m id name]
    exact h.functionNames
  externNames := h.externNames
  onlyEntry := fun k g there isEntry => by
    rw [Module.modifyFunction, List.getElem?_modify] at there
    obtain ⟨f, old, rfl⟩ := Option.map_eq_some_iff.1 there
    refine h.onlyEntry k f old ?_
    split at isEntry
    · rwa [role] at isEntry
    · exact isEntry
  numbered := fun g mem => by
    have retains : m.Retains (m.modifyFunction id change) :=
      ⟨⟨[], (List.append_nil _).trans (modifyFunction_map Func.signature m id signature).symm⟩,
        List.prefix_refl _⟩
    obtain ⟨k, there⟩ := List.mem_iff_getElem?.1 mem
    rw [Module.modifyFunction, List.getElem?_modify] at there
    obtain ⟨f, old, rfl⟩ := Option.map_eq_some_iff.1 there
    have was : f ∈ m.functions := List.mem_iff_getElem?.2 ⟨k, old⟩
    by_cases here : id = k
    · rw [if_pos here]
      subst here
      exact (numbered f old (h.wellFormed.functions f was) (h.numbered f was)).retain retains
    · rw [if_neg here]
      exact (h.numbered f was).retain retains

end Module

namespace Draft

/-- The cursor stands in a block that exists. -/
def Placed (d : Draft) : Prop := ∃ f, d.function? = some f ∧ d.cursor.block < f.blocks.length

/-- The cursor stays where it is if the blocks of its function do. -/
theorem Placed.modify {d : Draft} (h : d.Placed) {change : Func → Func}
    (more : ∀ f, f.blocks.length ≤ (change f).blocks.length) :
    Placed { d with module := d.module.modifyFunction d.cursor.func change } := by
  obtain ⟨f, eq, bound⟩ := h
  refine ⟨change f, ?_, Nat.lt_of_lt_of_le bound (more f)⟩
  rw [function?] at eq
  simp only [function?, Module.modifyFunction, List.getElem?_modify_eq, eq]
  rfl

/-- New functions stand behind the others. -/
theorem Placed.grow {m m' : Module} {c : Cursor} (h : Placed ⟨m, c⟩)
    (more : m.functions <+: m'.functions) : Placed ⟨m', c⟩ := by
  obtain ⟨f, eq, bound⟩ := h
  obtain ⟨rest, same⟩ := more
  refine ⟨f, ?_, bound⟩
  rw [function?] at eq ⊢
  rw [← same, List.getElem?_append_left (List.getElem?_eq_some_iff.1 eq).1]
  exact eq

/-- What every stroke keeps of a draft. -/
structure Orderly (d : Draft) : Prop where
  module : d.module.Orderly
  placed : d.Placed

/-- **Every stroke keeps a draft orderly.** -/
theorem orderly_lasting : Lasting Orderly := by
  intro d d' stroke h
  obtain ⟨g, here, bound⟩ := h.placed
  cases stroke with
  | define ty name i eq dst gives =>
    obtain rfl := Option.some.inj (here.symm.trans eq)
    refine ⟨h.module.modifyFunction _ (fun _ => rfl) (fun _ => rfl) (fun _ => rfl)
      (fun _ wf => wf.write ..) ?_, h.placed.modify fun _ => by simp⟩
    intro f there wf numbered
    obtain rfl := Option.some.inj (here.symm.trans there)
    exact numbered.define wf bound name dst gives
  | push i none gives =>
    refine ⟨h.module.modifyFunction _ (fun _ => rfl) (fun _ => rfl) (fun _ => rfl)
      (fun _ wf => wf.write ..) ?_, h.placed.modify fun _ => by simp⟩
    intro f there wf numbered
    obtain rfl := Option.some.inj (here.symm.trans there)
    exact numbered.push wf bound none gives
  | addBlock =>
    exact ⟨h.module.modifyFunction _ (fun _ => rfl) (fun _ => rfl) (fun _ => rfl)
      (fun _ wf => wf.addBlock) fun _ _ _ numbered => numbered.addBlock,
      h.placed.modify fun _ => by simp [Func.addBlock]⟩
  | move block eq there => exact ⟨h.module, _, eq, there⟩
  | primitive asked =>
    refine ⟨h.module.abortPrimitive asked, h.placed.grow ?_⟩
    rcases Module.abortPrimitive_ok asked with ⟨-, rfl⟩ | ⟨more, rfl, -⟩
    · exact List.prefix_refl _
    · exact List.prefix_refl _

end Draft

/-! ## Edits -/

namespace Manuscript

/-- What every edit keeps of a manuscript. -/
structure Orderly (s : Manuscript) : Prop where
  module : s.module.Orderly
  placed : ∀ c, s.cursor = some c → Draft.Placed ⟨s.module, c⟩

variable {s : Manuscript}

/-- A declaration only adds functions, and none that could be under the cursor. -/
theorem Orderly.grow (h : s.Orderly) {m : Module} (module : m.Orderly)
    (more : s.module.functions <+: m.functions) : Orderly { s with module := m } :=
  ⟨module, fun c eq => (h.placed c eq).grow more⟩

/-- The first block of a function is there from its declaration on. -/
theorem Orderly.select (h : s.Orderly) (func : Nat) :
    (match s.select func with
      | .ok _ s' => s'
      | .error _ s' => s').Orderly := by
  simp only [Manuscript.select, Module.cursorAt]
  by_cases bound : func < s.module.functions.length
  · rw [if_pos bound]
    refine ⟨h.module, ?_⟩
    rintro _ ⟨⟩
    have there : s.module.functions[func]? = some s.module.functions[func] :=
      List.getElem?_eq_getElem bound
    have wf := h.module.wellFormed.functions _ (List.mem_iff_getElem?.2 ⟨func, there⟩)
    exact ⟨_, there, List.length_pos_iff.2 wf.blocks⟩
  · rw [if_neg bound]
    exact h

/-- **Every edit keeps a manuscript orderly**, whether it is a misuse or not. -/
theorem Orderly.after (h : s.Orderly) (e : Edit) : (s.after e).Orderly := by
  unfold Manuscript.after Manuscript.apply
  cases e with
  | declareEntry name =>
    refine of_declare h fun id m declared => h.grow (h.module.declareEntry declared) ?_
    obtain ⟨-, rfl⟩ := Module.declareEntry_ok declared
    exact List.prefix_append ..
  | declareHelper name signature i =>
    refine of_declare h fun id m declared => h.grow (h.module.declareHelper declared) ?_
    obtain ⟨-, rfl⟩ := Module.declareHelper_ok declared
    exact List.prefix_append ..
  | declareExtern name signature noreturn =>
    refine of_declare h fun id m declared => h.grow (h.module.declareExtern declared) ?_
    obtain ⟨more, rfl, -⟩ := Module.declareExtern_ok declared
    exact List.prefix_refl _
  | abortPrimitive =>
    refine of_declare h fun id m asked => h.grow (h.module.abortPrimitive asked) ?_
    rcases Module.abortPrimitive_ok asked with ⟨-, rfl⟩ | ⟨more, rfl, -⟩
    · exact List.prefix_refl _
    · exact List.prefix_refl _
  | select func => exact h.select func
  | emit e =>
    refine of_emit h (e.run_lasts (P := fun _ => True) Draft.orderly_lasting)
      (fun c cursor => ⟨⟨h.module, h.placed c cursor⟩, trivial⟩) fun d kept => ⟨kept.module, ?_⟩
    rintro _ ⟨⟩
    exact kept.placed

theorem Orderly.new (name : String) : (Manuscript.new name).Orderly := ⟨.empty name, nofun⟩

theorem Orderly.all (h : s.Orderly) (edits : List Edit) :
    (edits.foldl Manuscript.after s).Orderly := by
  induction edits generalizing s with
  | nil => exact h
  | cons e edits ih => exact ih (h.after e)

end Manuscript

/-- A module that is written by edits is orderly. -/
theorem Module.Built.orderly {m : Module} (built : m.Built) : m.Orderly := by
  obtain ⟨s, written, rfl⟩ := built
  have orderly : s.Orderly := by
    induction written with
    | new name => exact .new name
    | edit e _ _ ih => exact ih.after e
  exact orderly.module

/-! ## Consistency -/

/-- A function that is numbered is consistent. -/
theorem Func.Numbered.consistent {m : Module} {f : Func} (h : f.Numbered m) (wf : f.WellFormed) :
    f.Consistent m where
  firstBlock := List.length_pos_iff.2 wf.blocks
  named := h.named
  params := wf.params
  handle := fun i role => by
    have pointer := checkSignature_runtimeParam wf.signature
    rwa [role] at pointer
  paramsKept := fun i mem v dst => (h.dst_bounds wf mem dst).1
  definedOnce := fun v behind bound => by
    have params := wf.params_le
    have listed : v ∈ List.range' f.signature.params.length
        (f.values.length - f.signature.params.length) := List.mem_range'_1.2 ⟨behind, by omega⟩
    have once := List.count_eq_one_of_mem List.nodup_range' listed
    rw [← h.destinations.count_eq, List.count_filterMap] at once
    simpa [beq_eq_decide] using once
  definedAs := fun i mem v dst => by
    have bound := (h.dst_bounds wf mem dst).2
    have gives := h.gives i mem
    have type : f.valueType? v = some f.values[v] := by simp [valueType?, bound]
    rw [dst, Option.bind_some, type] at gives
    exact ⟨_, type, gives⟩
  calls := fun dst callee args mem => by
    obtain ⟨g, there, ret⟩ := h.gives _ mem
    refine ⟨g, there, ?_⟩
    cases dst with
    | none => simp [ret, Inst.dst?]
    | some v =>
      have bound := (h.dst_bounds wf mem rfl).2
      simp [ret, Inst.dst?, valueType?, bound]
  externCalls := fun dst callee args mem => by
    obtain ⟨e, there, ret⟩ := h.gives _ mem
    refine ⟨e, there, ?_⟩
    cases dst with
    | none =>
      have nothing : (if e.noreturn then none else e.signature.ret) = none := ret
      cases comes : e.noreturn <;> simp_all
    | some v =>
      have bound := (h.dst_bounds wf mem rfl).2
      have something : (if e.noreturn then none else e.signature.ret) = some f.values[v] := by
        simpa [Inst.dst?, valueType?, bound] using ret
      cases comes : e.noreturn <;> simp_all

theorem Module.Orderly.consistent {m : Module} (h : m.Orderly) : m.Consistent where
  functionNames := h.functionNames
  externNames := h.externNames
  entry := fun id =>
    ⟨h.wellFormed.entry id, fun ⟨f, there, role⟩ => h.onlyEntry id f there role⟩
  abort := h.wellFormed.abort
  functions := fun f mem => (h.numbered f mem).consistent (h.wellFormed.functions f mem)

/-- **A module is consistent after any edits**, in whatever order and however many functions they
are spread over. An edit that is a misuse leaves behind what it wrote before it was found out, and
the module is consistent then too. -/
theorem Module.edits_consistent (name : String) (edits : List Edit) :
    (edits.foldl Manuscript.after (.new name)).module.Consistent :=
  ((Manuscript.Orderly.new name).all edits).module.consistent

end HostBridge
