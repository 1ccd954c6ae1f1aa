import HostBridge.Proofs.Consistency
import HostBridge.Proofs.Fallible

/-!
# Checks are stable

A function is checked by itself, and with what it calls: of a callee the check reads the name, the
signature and the role, under the number that the call has. Declarations only ever add functions
and externs behind the others, and code that is written into one function leaves the headings of
all others alone. So whoever is done with a function may go on with the module, and the function
is accepted or rejected as before.

* `Module.Within.checkFunction` — a function is checked in a larger module as in the smaller one;
* `Draft.keeping_lasting` — every stroke keeps all functions but the one under the cursor;
* `Manuscript.StayOut.keeps` — edits that stay out of a function keep it;
* `Module.checkFunction_stable` — and it is checked as before.
-/

set_option autoImplicit false

namespace HostBridge

/-! ## Larger modules -/

/-- What a function tells about itself to those that call it. -/
def Func.heading (f : Func) : String × Signature × Role := (f.name, f.signature, f.role)

namespace Module

/-- The functions of a module have the same headings in the other and the same numbers, and so have
its externs. -/
structure Within (m m' : Module) : Prop where
  functions : m.functions.map Func.heading <+: m'.functions.map Func.heading
  externs : m.externs <+: m'.externs

variable {m m' m'' : Module}

namespace Within

theorem refl (m : Module) : m.Within m := ⟨List.prefix_refl _, List.prefix_refl _⟩

theorem trans (h : m.Within m') (h' : m'.Within m'') : m.Within m'' :=
  ⟨h.functions.trans h'.functions, h.externs.trans h'.externs⟩

theorem functionAt (h : m.Within m') {id : FuncId} {g : Func} (there : m.functions[id]? = some g) :
    ∃ g', m'.functions[id]? = some g' ∧ g'.heading = g.heading := by
  have heading : (m.functions.map Func.heading)[id]? = some g.heading := by
    rw [List.getElem?_map, there, Option.map_some]
  obtain ⟨bound, eq⟩ := List.getElem?_eq_some_iff.1 heading
  have there' := List.prefix_iff_getElem?.1 h.functions id bound
  rw [eq, List.getElem?_map, Option.map_eq_some_iff] at there'
  exact there'

theorem externAt (h : m.Within m') {id : ExternId} {e : ExternDecl}
    (there : m.externs[id]? = some e) : m'.externs[id]? = some e := by
  obtain ⟨bound, eq⟩ := List.getElem?_eq_some_iff.1 there
  exact eq ▸ List.prefix_iff_getElem?.1 h.externs id bound

variable {f : Func}

/-- An instruction whose callee exists is checked in the same way. -/
theorem checkInst (h : m.Within m') {i : Inst} {ty : Option Ty} (gives : i.Gives m ty) :
    m'.checkInst f i = m.checkInst f i := by
  cases i with
  | call dst callee args =>
    obtain ⟨g, there, -⟩ := gives
    obtain ⟨g', there', same⟩ := h.functionAt there
    obtain ⟨name, signature, role⟩ : g'.name = g.name ∧ g'.signature = g.signature ∧
        g'.role = g.role := by simpa [Func.heading] using same
    simp only [Module.checkInst, there, there', name, signature, role]
  | callExtern dst callee args =>
    obtain ⟨e, there, -⟩ := gives
    simp only [Module.checkInst, there, h.externAt there]
  | _ => rfl

/-- A function is checked in the same way, block by block and instruction by instruction. -/
theorem checkFunction (h : m.Within m') (numbered : f.Numbered m) :
    m'.checkFunction f = m.checkFunction f := by
  have insts : ∀ code ∈ f.blocks, code.forM (m'.checkInst f) = code.forM (m.checkInst f) :=
    fun code mem => forM_congr fun i here =>
      h.checkInst (numbered.gives i (List.mem_flatten.2 ⟨code, mem, here⟩))
  have blocks : ∀ x ∈ f.blocks.zipIdx, m'.checkBlock f x.2 x.1 = m.checkBlock f x.2 x.1 := by
    intro x mem
    simp only [checkBlock, insts x.1 (List.fst_mem_of_mem_zipIdx mem)]
  have all := forM_congr blocks
  simp only [Module.checkFunction, all]

end Within

/-- The module has become larger, and one of its functions is what it was. -/
structure Keeps (k : FuncId) (m m' : Module) : Prop where
  grown : m.Within m'
  same : ∀ f, m.functions[k]? = some f → m'.functions[k]? = some f

variable {k : FuncId}

namespace Keeps

theorem refl (k : FuncId) (m : Module) : Keeps k m m := ⟨.refl m, fun _ => id⟩

theorem trans (h : Keeps k m m') (h' : Keeps k m' m'') : Keeps k m m'' :=
  ⟨h.grown.trans h'.grown, fun f there => h'.same f (h.same f there)⟩

/-- Functions and externs come behind the others. -/
theorem grow (functions : m.functions <+: m'.functions) (externs : m.externs <+: m'.externs) :
    Keeps k m m' where
  grown := ⟨functions.map Func.heading, externs⟩
  same := fun f there => by
    obtain ⟨bound, eq⟩ := List.getElem?_eq_some_iff.1 there
    exact eq ▸ List.prefix_iff_getElem?.1 functions k bound

/-- Another function changes, and its heading does not. -/
theorem modifyFunction (m : Module) {id : FuncId} (other : id ≠ k) {change : Func → Func}
    (heading : ∀ f, (change f).heading = f.heading) : Keeps k m (m.modifyFunction id change) where
  grown := ⟨⟨[], (List.append_nil _).trans (modifyFunction_map Func.heading m id heading).symm⟩,
    List.prefix_refl _⟩
  same := fun f there => by
    rw [Module.modifyFunction, List.getElem?_modify_ne _ _ other, there]

theorem abortPrimitive {id : ExternId} (asked : m.abortPrimitive = .ok (id, m')) :
    Keeps k m m' := by
  rcases abortPrimitive_ok asked with ⟨-, rfl⟩ | ⟨more, rfl, -⟩
  · exact .refl k m'
  · exact .grow (List.prefix_refl _) (List.prefix_append ..)

end Keeps

end Module

/-! ## Strokes -/

namespace Draft

/-- The cursor is in some other function than the one that is kept. -/
structure Keeping (k : FuncId) (m : Module) (d : Draft) : Prop where
  other : d.cursor.func ≠ k
  keeps : Module.Keeps k m d.module

/-- **Every stroke keeps the functions that the cursor is not in.** -/
theorem keeping_lasting (k : FuncId) (m : Module) : Lasting (Keeping k m) := by
  rintro d d' stroke ⟨other, keeps⟩
  cases stroke with
  | define ty name i eq dst gives | push i none gives =>
    exact ⟨other, keeps.trans (.modifyFunction _ other fun _ => rfl)⟩
  | addBlock => exact ⟨other, keeps.trans (.modifyFunction _ other fun _ => rfl)⟩
  | move block eq there => exact ⟨other, keeps⟩
  | primitive asked => exact ⟨other, keeps.trans (.abortPrimitive asked)⟩

end Draft

/-- To go to another block changes nothing in the module. -/
theorem Emission.switchTo_keeps (k : FuncId) (m : Module) (block : BlockId) :
    Emit.Spec (fun d => Module.Keeps k m d.module) (fun _ => True) (switchTo block).run
      fun _ _ => True := by
  refine Emit.Spec.seq (Emit.Spec.function.bind fun f => ?_) fun _ => .pure fun _ _ => trivial
  split
  · exact .modify fun d keeps _ => keeps
  · exact .throw

/-! ## Edits -/

namespace Manuscript

variable {s : Manuscript} {k : FuncId}

/-- An edit stays out of a function: it writes nothing into it and gives it no block. What it may do
is to declare something, to go somewhere, and to write into another function. -/
def StaysOut (s : Manuscript) (k : FuncId) : Edit → Prop
  | .declareEntry _ | .declareHelper _ _ _ | .declareExtern _ _ _ | .abortPrimitive | .select _ =>
    True
  | .emit (.switchTo _) => True
  | .emit _ => s.cursor.map Cursor.func ≠ some k

/-- All edits of a list stay out of a function, when they are made one after the other. -/
def StayOut (s : Manuscript) (k : FuncId) : List Edit → Prop
  | [] => True
  | e :: edits => s.StaysOut k e ∧ (s.after e).StayOut k edits

/-- The module has become larger in the other manuscript, and one of its functions is what it
was. -/
abbrev Keeps (s : Manuscript) (k : FuncId) (s' : Manuscript) : Prop :=
  Module.Keeps k s.module s'.module

/-- An edit that stays out of a function keeps it. -/
theorem StaysOut.keeps {e : Edit} (h : s.StaysOut k e) : s.Keeps k (s.after e) := by
  have here : s.Keeps k s := .refl k s.module
  unfold Manuscript.after Manuscript.apply
  cases e with
  | declareEntry name =>
    refine of_declare (P := s.Keeps k) here fun id m declared => ?_
    obtain ⟨-, rfl⟩ := Module.declareEntry_ok declared
    exact .grow (List.prefix_append ..) (List.prefix_refl _)
  | declareHelper name signature i =>
    refine of_declare (P := s.Keeps k) here fun id m declared => ?_
    obtain ⟨-, rfl⟩ := Module.declareHelper_ok declared
    exact .grow (List.prefix_append ..) (List.prefix_refl _)
  | declareExtern name signature noreturn =>
    refine of_declare (P := s.Keeps k) here fun id m declared => ?_
    obtain ⟨more, rfl, -⟩ := Module.declareExtern_ok declared
    exact .grow (List.prefix_refl _) (List.prefix_append ..)
  | abortPrimitive =>
    exact of_declare (P := s.Keeps k) here fun id m asked => .abortPrimitive asked
  | select func =>
    simp only [Manuscript.select]
    cases s.module.cursorAt func <;> exact here
  | emit e =>
    by_cases moves : ∃ block, e = .switchTo block
    · obtain ⟨block, rfl⟩ := moves
      exact of_emit (P := s.Keeps k) here
        (Emission.switchTo_keeps k s.module block) (fun c _ => ⟨here, trivial⟩) fun d => id
    · have other : s.cursor.map Cursor.func ≠ some k := by
        cases e with
        | switchTo block => exact absurd ⟨block, rfl⟩ moves
        | _ => exact h
      refine of_emit (P := s.Keeps k) here
        (e.run_lasts (P := fun _ => True) (Draft.keeping_lasting k s.module)) (fun c cursor => ?_)
        fun d keeping => keeping.keeps
      exact ⟨⟨fun same => other (by rw [cursor, Option.map_some, same]), here⟩, trivial⟩

/-- Edits that stay out of a function keep it. -/
theorem StayOut.keeps {edits : List Edit} (h : s.StayOut k edits) :
    s.Keeps k (edits.foldl after s) := by
  induction edits generalizing s with
  | nil => exact .refl k s.module
  | cons e edits ih => exact h.1.keeps.trans (ih h.2)

end Manuscript

/-- **A check is stable.** Take a function of a module that has been written by edits, and write on
without touching the function: declare functions, externs, the entry and the abort primitive, and
write whatever into other functions. Then the function is in its place, and it is accepted if it was
accepted before and rejected with the same flaw if it was rejected. -/
theorem Module.checkFunction_stable (name : String) (edits more : List Edit) {k : FuncId}
    {f : Func} (there : (edits.foldl Manuscript.after (.new name)).module.functions[k]? = some f)
    (out : (edits.foldl Manuscript.after (.new name)).StayOut k more) :
    let m := (edits.foldl Manuscript.after (.new name)).module
    let m' := ((edits ++ more).foldl Manuscript.after (.new name)).module
    m'.functions[k]? = some f ∧ (m'.checkFunction f = .ok () ↔ m.checkFunction f = .ok ()) ∧
      ∀ flaw, m'.checkFunction f = .error flaw ↔ m.checkFunction f = .error flaw := by
  intro m m'
  have keeps : Module.Keeps k m m' := by
    simp only [m', List.foldl_append]
    exact out.keeps
  have orderly := ((Manuscript.Orderly.new name).all edits).module
  have same : m'.checkFunction f = m.checkFunction f :=
    keeps.grown.checkFunction (orderly.numbered f (List.mem_of_getElem? there))
  exact ⟨keeps.same f there, by rw [same], fun flaw => by rw [same]⟩

/-- Two helpers, one that is finished and one whose block is open. -/
def twoHelpers : List Edit :=
  [.declareHelper "done" ⟨[.ptr], some .word⟩ 0, .declareHelper "open" ⟨[.ptr], none⟩ 0,
    .select 0, .emit .gas, .emit (.ret (some 2)), .select 1, .emit (.constWord 5)]

/-- An entry that calls the first helper and gives up. Before that the cursor goes to the start of
the block that it is in. -/
def givingUp : List Edit :=
  [.declareEntry "main", .declareExtern "host.tick" ⟨[], none⟩ false, .emit (.switchTo 0),
    .select 2, .emit (.callHelper 0 []), .abortPrimitive, .emit (.raiseAbort .outOfGas)]

/-- Both helpers are checked as they were without the entry. -/
theorem Module.checkFunction_stable_helpers :
    let m := (twoHelpers.foldl Manuscript.after (.new "pair")).module
    let m' := ((twoHelpers ++ givingUp).foldl Manuscript.after (.new "pair")).module
    (∃ f, m.functions[0]? = some f ∧ m'.functions[0]? = some f ∧
      m.checkFunction f = .ok () ∧ m'.checkFunction f = .ok ()) ∧
    ∃ f, m.functions[1]? = some f ∧ m'.functions[1]? = some f ∧
      m.checkFunction f = .error (.openBlock 0) ∧ m'.checkFunction f = .error (.openBlock 0) := by
  intro m m'
  have out : ∀ k < 2, (twoHelpers.foldl Manuscript.after (.new "pair")).StayOut k givingUp := by
    intro k lt
    refine ⟨trivial, trivial, trivial, trivial, ?_, trivial, ?_, trivial⟩ <;>
      exact fun same => Nat.ne_of_gt lt (Option.some.inj same)
  obtain ⟨f, finished, accepted⟩ : ∃ f, m.functions[0]? = some f ∧ m.checkFunction f = .ok () :=
    ⟨_, rfl, by decide +kernel⟩
  obtain ⟨g, open_, rejected⟩ :
      ∃ g, m.functions[1]? = some g ∧ m.checkFunction g = .error (.openBlock 0) :=
    ⟨_, rfl, by decide +kernel⟩
  obtain ⟨there, accepts, -⟩ :=
    checkFunction_stable "pair" twoHelpers givingUp finished (out 0 (by decide))
  obtain ⟨there', -, rejects⟩ :=
    checkFunction_stable "pair" twoHelpers givingUp open_ (out 1 (by decide))
  exact ⟨⟨f, finished, there, accepted, accepts.2 accepted⟩,
    g, open_, there', rejected, (rejects _).2 rejected⟩

end HostBridge
