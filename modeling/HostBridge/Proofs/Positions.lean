import HostBridge.Proofs.CallInvariant
import HostBridge.Proofs.Calls
import HostBridge.Proofs.Unwinding
import HostBridge.Proofs.Verified

/-!
# Where generated code is

An activation is at a place in its function: a block, and what is left of it. `Call.Advance` says
all that a turn can do to the place and to the activations that wait; what it does to values and to
storage is left open. What depends on the text of a module and on the limit of active functions
alone, and not on what is computed, follows from it.

* `Call.turn_advance` — every turn is such an advance;
* `Machine.Reachable.placed` — in every call at work all activations stand in the code of the
  module, and no more of them are active than the configuration allows;
* `Machine.Reachable.depth` — the counter of a call says how many of them there are;
* `Machine.run_error` — an error leaves the activations that wait one after the other, and then it
  is the result of the call;
* `Machine.enterCall_eq`, `Machine.stepUnwind_eq` — how a call begins, and how it ends when
  something unwinds through it.
-/

set_option autoImplicit false

namespace HostBridge

variable {φ σ : Type} {p : Platform φ σ}

/-! ## Instructions and their effects -/

/-- The effects of an instruction of its kind: jumps and branches go to their targets, and calls
call their callees. -/
def Effect.By (i : Inst) : Effect → Prop
  | .define _ _ | .write _ | .leave _ => True
  | .goto target => target ∈ i.targets
  | .call dst callee _ => ∃ args, i = .call dst callee args
  | .callExtern dst callee _ => ∃ args, i = .callExtern dst callee args

theorem Inst.effect_by {s : Storage} {a : Activation} {i : Inst} {e : Effect}
    (h : i.effect s a = .ok e) : e.By i := by
  cases i with
  | const | constI32 =>
    cases h
    exact trivial
  | ptrOffset =>
    simp only [effect, bind_eq_ok] at h
    obtain ⟨-, -, addr, -, h⟩ := h
    split at h <;> cases h
    exact trivial
  | load =>
    simp only [effect, bind_eq_ok] at h
    obtain ⟨-, -, -, -, x, -, h⟩ := h
    cases h
    exact trivial
  | store =>
    simp only [effect, bind_eq_ok] at h
    obtain ⟨-, -, -, -, -, -, s', -, h⟩ := h
    cases h
    exact trivial
  | loadByte =>
    simp only [effect, bind_eq_ok] at h
    obtain ⟨-, -, -, -, -, -, -, -, w, -, h⟩ := h
    cases h
    exact trivial
  | binary =>
    simp only [effect, bind_eq_ok] at h
    obtain ⟨-, -, x, -, -, -, y, -, h⟩ := h
    cases h
    exact trivial
  | call dst callee args | callExtern dst callee args =>
    simp only [effect, bind_eq_ok] at h
    obtain ⟨xs, -, h⟩ := h
    cases h
    exact ⟨args, rfl⟩
  | jump target =>
    cases h
    exact List.mem_singleton_self _
  | branch cond thenBlock elseBlock =>
    simp only [effect, bind_eq_ok] at h
    obtain ⟨-, -, w, -, h⟩ := h
    cases h
    show (if w = 0 then elseBlock else thenBlock) ∈ [thenBlock, elseBlock]
    split <;> simp
  | ret value =>
    cases value with
    | none =>
      cases h
      exact trivial
    | some v =>
      simp only [effect, bind_eq_ok] at h
      obtain ⟨x, -, h⟩ := h
      cases h
      exact trivial
  | unreachable => cases h

/-! ## Turns -/

/-- What a turn does to the place where generated code is, and to the activations that wait. -/
inductive Call.Advance (c : Call φ σ) (a : Activation) : Turn φ σ → Prop
  /-- To the next instruction of the block; a value or the storage may have changed. -/
  | next (i : Inst) (rest : List Inst) (here : a.rest = i :: rest) (storage : Storage)
    (values : List (Option Val)) (places : values.length = a.values.length) :
    Advance c a (.code { c with storage := storage } { a with rest := rest, values := values })
  /-- To the beginning of a block. -/
  | goto (i : Inst) (rest : List Inst) (here : a.rest = i :: rest) (target : BlockId)
    (aims : target ∈ i.targets) (code : List Inst)
    (there : a.function.blocks[target]? = some code) :
    Advance c a (.code c { a with block := target, rest := code })
  /-- To the beginning of a function, for which the activation waits. -/
  | call (dst : Option ValueId) (callee : FuncId) (args : List ValueId) (rest : List Inst)
    (here : a.rest = .call dst callee args :: rest)
    (room : c.depth < c.request.config.maxHelperDepth) (f : Func)
    (there : c.request.module.functions[callee]? = some f) (xs : List Val) (b : Activation)
    (starts : Activation.start f xs = .ok b) :
    Advance c a (.code (c.descend (({ a with rest := rest }, dst) :: c.waiting)) b)
  /-- Out of the function. -/
  | leave (answer : Answer) : Advance c a (.leave c answer)
  | abort (handle : Addr) (code : Int32Bits) : Advance c a (.abort c handle code)
  /-- To a host function on offer, for which the activation waits. -/
  | host (dst : Option ValueId) (callee : ExternId) (args : List ValueId) (rest : List Inst)
    (here : a.rest = .callExtern dst callee args :: rest) (entry : HostEntry φ)
    (offered : entry ∈ c.request.hosts.entries) (xs : List Val) :
    Advance c a (.host c { a with rest := rest } callee dst entry.function xs)

namespace Call

variable {c : Call φ σ} {a : Activation}

/-- A function that starts has found room. -/
theorem activate_room {callee : FuncId} {args : List Val} {b : Activation}
    (h : c.activate callee args = .ok b) : c.depth < c.request.config.maxHelperDepth := by
  unfold activate at h
  split at h
  · cases h
  · omega

/-- The host functions that are called are on offer. -/
theorem callee_offered {id : ExternId} {args : List Val} {function : φ}
    (h : c.callee id args = .ok (.host function)) :
    ∃ entry ∈ c.request.hosts.entries, entry.function = function := by
  rcases callee_ok h with ⟨_, _, -, -, eq⟩ | ⟨slot, entry, -, there, eq⟩ <;> cases eq
  exact ⟨entry, List.mem_of_getElem? there, rfl⟩

theorem obey_advance {i : Inst} {rest : List Inst} (here : a.rest = i :: rest) {e : Effect}
    (by_ : e.By i) : c.Advance a (c.obey { a with rest := rest } e) := by
  cases e with
  | define dst v => exact .next i rest here c.storage _ (List.length_set ..)
  | write storage => exact .next i rest here storage a.values rfl
  | goto target =>
    simp only [obey, Activation.enter]
    cases there : a.function.blocks[target]? with
    | none => exact .leave _
    | some code => exact .goto i rest here target by_ code there
  | leave v => exact .leave _
  | call dst callee xs =>
    obtain ⟨args, rfl⟩ := by_
    simp only [obey]
    split
    · rename_i b activated
      obtain ⟨f, there, starts⟩ := activate_ok activated
      exact .call dst callee args rest here (activate_room activated) f there xs b starts
    · exact .leave _
  | callExtern dst callee xs =>
    obtain ⟨args, rfl⟩ := by_
    simp only [obey]
    split
    · exact .leave _
    · exact .abort _ _
    · rename_i function called
      obtain ⟨entry, offered, rfl⟩ := callee_offered called
      exact .host dst callee args rest here entry offered xs

/-- Whatever generated code does, it advances. -/
theorem turn_advance (c : Call φ σ) (a : Activation) : c.Advance a (c.turn a) := by
  unfold turn
  split
  · exact .leave _
  · rename_i i rest here
    split
    · rename_i e done
      exact obey_advance here (Inst.effect_by done)
    · exact .leave _

end Call

/-- What has control when a call begins: the entry function, or the error with which it is left. -/
def Call.beginning (c : Call φ σ) (entry : FuncId) : Focus φ σ :=
  match c.activate entry (Machine.entryArgs c) with
  | .ok a => .code (c.descend []) a
  | .error e => .leave c (.error e)

theorem Call.beginning_eq (c : Call φ σ) (entry : FuncId) :
    (∃ a, c.activate entry (Machine.entryArgs c) = .ok a ∧
        c.beginning entry = .code (c.descend []) a) ∨
      ∃ e, c.activate entry (Machine.entryArgs c) = .error e ∧
        c.beginning entry = .leave c (.error e) := by
  unfold beginning
  cases c.activate entry (Machine.entryArgs c) with
  | ok a => exact .inl ⟨a, rfl, rfl⟩
  | error e => exact .inr ⟨e, rfl, rfl⟩

/-! ## Places -/

/-- The activation is somewhere in a function of the module, and there is a place for every value of
the function. -/
structure Activation.Stands (m : Module) (a : Activation) : Prop where
  function : a.function ∈ m.functions
  places : a.values.length = a.function.values.length
  /-- What is left is the end of the block. -/
  block : ∃ code, a.function.blocks[a.block]? = some code ∧ a.rest <:+ code

namespace Activation.Stands

variable {m : Module} {a : Activation}

theorem start {f : Func} (mem : f ∈ m.functions) {args : List Val}
    (started : Activation.start f args = .ok a) : a.Stands m := by
  simp only [Activation.start, enter] at started
  split at started <;> cases started
  rename_i code there
  exact ⟨mem, length_initial f args, code, there, List.suffix_rfl⟩

theorem next (h : a.Stands m) {i : Inst} {rest : List Inst} (here : a.rest = i :: rest)
    {values : List (Option Val)} (places : values.length = a.values.length) :
    { a with rest := rest, values := values }.Stands m := by
  obtain ⟨code, there, tail⟩ := h.block
  rw [here] at tail
  exact ⟨h.function, places.trans h.places, code, there, (List.suffix_cons i rest).trans tail⟩

theorem goto (h : a.Stands m) {target : BlockId} {code : List Inst}
    (there : a.function.blocks[target]? = some code) :
    { a with block := target, rest := code }.Stands m :=
  ⟨h.function, h.places, code, there, List.suffix_rfl⟩

theorem receive (h : a.Stands m) (dst : Option ValueId) (x : Option Val) :
    (a.receive dst x).Stands m := by
  cases dst with
  | none => exact h
  | some d => exact ⟨h.function, (List.length_set ..).trans h.places, h.block⟩

/-- The next instruction is one of the function's. -/
theorem mem_insts (h : a.Stands m) {i : Inst} {rest : List Inst} (here : a.rest = i :: rest) :
    i ∈ a.function.insts := by
  obtain ⟨code, there, tail⟩ := h.block
  have mem : i ∈ code := tail.subset (here ▸ List.mem_cons_self)
  exact List.mem_flatten.2 ⟨code, List.mem_iff_getElem?.2 ⟨_, there⟩, mem⟩

end Activation.Stands

/-- While one of the functions of a call is active, the activations that wait for it stand in the
code of the module. With it they are as many as the counter says, which keeps to the limit. -/
structure Call.Placed (c : Call φ σ) : Prop where
  depth : c.depth = c.waiting.length + 1
  limit : c.depth ≤ c.request.config.maxHelperDepth
  waiting : ∀ w ∈ c.waiting, w.1.Stands c.request.module

namespace Call.Placed

variable {c : Call φ σ}

theorem descend (h : c.Placed) (room : c.depth < c.request.config.maxHelperDepth)
    {w : Activation × Option ValueId} (stands : w.1.Stands c.request.module) :
    (c.descend (w :: c.waiting)).Placed :=
  ⟨congrArg (· + 1) h.depth, room, List.forall_mem_cons.2 ⟨stands, h.waiting⟩⟩

theorem ascend (h : c.Placed) {w : Activation × Option ValueId}
    {waiting : List (Activation × Option ValueId)} (eq : c.waiting = w :: waiting) :
    w.1.Stands c.request.module ∧ (c.ascend waiting).Placed := by
  obtain ⟨depth, limit, stands⟩ := h
  rw [eq] at depth stands
  obtain ⟨first, others⟩ := List.forall_mem_cons.1 stands
  refine ⟨first, ?_, Nat.le_trans (Nat.sub_le ..) limit, others⟩
  show c.depth - 1 = waiting.length + 1
  rw [depth, List.length_cons, Nat.add_sub_cancel]

theorem within (h : c.Placed) : c.waiting.length + 1 ≤ c.request.config.maxHelperDepth :=
  h.depth ▸ h.limit

end Call.Placed

/-- The activations of a call stand in the code of its module, within the limit, and are counted. If
a function has ended when nothing waits, it may be that none could be started. -/
def placing (φ σ : Type) : CallInvariant φ σ where
  code c a := c.Placed ∧ a.Stands c.request.module
  leave c _ := c.waiting = [] ∨ c.Placed
  unwind c := c.Placed
  awaits c a callee dst := c.Placed ∧ a.Stands c.request.module ∧
    ∃ args, .callExtern dst callee args ∈ a.function.insts
  accepts _ _ _ := True

theorem placing_stable : (placing φ σ).Stable p where
  start := fun request entry bindings cp origin prepared => by
    refine ⟨fun a activated => ?_, fun e => .inl rfl⟩
    obtain ⟨f, there, started⟩ := Call.activate_ok activated
    exact ⟨⟨rfl, Call.activate_room activated, List.forall_mem_nil _⟩,
      .start (List.mem_iff_getElem?.2 ⟨_, there⟩) started⟩
  turn := fun c a ⟨placed, stands⟩ => by
    have advance := c.turn_advance a
    generalize c.turn a = t at advance
    cases advance with
    | next i rest here storage values places =>
      exact ⟨⟨placed.depth, placed.limit, placed.waiting⟩, stands.next here places⟩
    | goto i rest here target aims code there => exact ⟨placed, stands.goto there⟩
    | call dst callee args rest here room f there xs b starts =>
      have waits : { a with rest := rest }.Stands c.request.module := stands.next here rfl
      exact ⟨placed.descend room waits, .start (List.mem_iff_getElem?.2 ⟨_, there⟩) starts⟩
    | leave answer => exact .inr placed
    | abort handle code => exact placed
    | host dst callee args rest here entry offered xs =>
      exact ⟨⟨placed, stands.next here rfl, args, stands.mem_insts here⟩,
        Script.answers_of_forall (fun _ => trivial) _⟩
  back := fun c v a dst waiting leave eq => by
    rcases leave with empty | placed
    · rw [eq] at empty
      cases empty
    · obtain ⟨first, others⟩ := placed.ascend eq
      exact ⟨others, first.receive dst v⟩
  fail := fun c e a dst waiting leave eq => by
    rcases leave with empty | placed
    · rw [eq] at empty
      cases empty
    · exact .inr (placed.ascend eq).2
  resume := fun c a callee dst v ⟨placed, stands, _⟩ _ _ => ⟨placed, stands.receive dst v⟩
  resumeFail := fun c a callee dst e awaits => .inr awaits.1
  unwind := fun c a callee dst awaits => awaits.1

namespace Machine

/-- In every call at work all activations stand in the code of the module, and the limit of active
functions is kept. -/
theorem Reachable.placed {m : Machine φ σ} (reach : Reachable p m) :
    ∀ w ∈ m.work, w.2.length ≤ w.1.request.config.maxHelperDepth ∧
      ∀ a ∈ w.2, a.Stands w.1.request.module := by
  have holds := CallInvariant.holds (placing_stable (p := p)) reach
  have waiting : ∀ c : Call φ σ, c.Placed →
      (c.waiting.map Prod.fst).length ≤ c.request.config.maxHelperDepth ∧
        ∀ a ∈ c.waiting.map Prod.fst, a.Stands c.request.module := by
    intro c placed
    refine ⟨by simpa using Nat.le_of_succ_le placed.within, ?_⟩
    intro a mem
    obtain ⟨w, waits, rfl⟩ := List.mem_map.1 mem
    exact placed.waiting w waits
  have active : ∀ (c : Call φ σ) a, c.Placed → a.Stands c.request.module →
      (a :: c.waiting.map Prod.fst).length ≤ c.request.config.maxHelperDepth ∧
        ∀ b ∈ a :: c.waiting.map Prod.fst, b.Stands c.request.module := by
    intro c a placed stands
    exact ⟨by simpa using placed.within,
      List.forall_mem_cons.2 ⟨stands, (waiting c placed).2⟩⟩
  refine holds.work (fun c activations =>
    activations.length ≤ c.request.config.maxHelperDepth ∧
      ∀ a ∈ activations, a.Stands c.request.module) ?_ ?_ waiting ?_
  · exact fun c a code => active c a code.1 code.2
  · rintro c answer (empty | placed)
    · simp [empty]
    · exact waiting c placed
  · exact fun c a callee dst awaits => active c a awaits.1 awaits.2.1

/-- **The counter is right.** When generated code has control, and in every call that waits for a
host function, it says how many activations there are. When a function has ended for which another
waits, it still counts the function. -/
theorem Reachable.depth {m : Machine φ σ} (reach : Reachable p m) :
    (∀ c a, m.focus = .code c a → c.depth = c.waiting.length + 1) ∧
    (∀ c answer, m.focus = .leave c answer → c.waiting ≠ [] → c.depth = c.waiting.length + 1) ∧
    ∀ w ∈ m.control.flatMap Frame.work, w.1.depth = w.2.length := by
  obtain ⟨focus, control⟩ := CallInvariant.holds (placing_stable (p := p)) reach
  refine ⟨fun c a eq => ?_, fun c answer eq waits => ?_, ?_⟩
  · rw [eq] at focus
    exact focus.1.1.depth
  · rw [eq] at focus
    exact (focus.1.resolve_left waits).depth
  · refine CallInvariant.ControlHolds.work (R := fun c activations =>
      c.depth = activations.length) (fun c a callee dst awaits => ?_) control
    simpa using awaits.1.depth

/-! ## How calls begin and end -/

theorem enterCall_refused {m : Machine φ σ} {request : CallRequest φ} {e : BridgeError}
    (refused : request.prepare = .error e) (origin : Origin φ σ) :
    m.enterCall p request origin = m.deliver origin (.error e) := by
  simp only [enterCall, refused]

theorem enterCall_full {m : Machine φ σ} {request : CallRequest φ} {entry : FuncId}
    {bindings : List Binding} (prepared : request.prepare = .ok (entry, bindings))
    (full : request.config.maxCallDepth ≤ m.live.length) (origin : Origin φ σ) :
    m.enterCall p request origin =
      m.deliver origin (.error (.callDepthExceeded request.config.maxCallDepth)) := by
  simp only [enterCall, prepared, if_pos full]

/-- A call that is not refused takes a checkpoint and begins. -/
theorem enterCall_eq {m : Machine φ σ} {request : CallRequest φ} {entry : FuncId}
    {bindings : List Binding} (prepared : request.prepare = .ok (entry, bindings))
    (room : ¬ request.config.maxCallDepth ≤ m.live.length) (origin : Origin φ σ) :
    m.enterCall p request origin = (m.pushCheckpoint (m.nextCheckpoint p)).goto
      ((newCall p request bindings (m.nextCheckpoint p) origin).beginning entry) := by
  let c := newCall p request bindings (m.nextCheckpoint p) origin
  cases activated : c.activate entry (entryArgs c) <;> simp only [c] at activated <;>
    simp only [enterCall, prepared, if_neg room, Call.beginning, activated]

/-- What whoever made a call sees of a payload that has unwound through it. -/
def propagate (m : Machine φ σ) (origin : Origin φ σ) (x : Payload) : Machine φ σ :=
  match origin with
  | .outside => m.goto (.halted (.panic x))
  | .host site _ => m.goto (.unwindScript site x)

theorem stepUnwind_eq (m : Machine φ σ) {c : Call φ σ} {x : Payload}
    (other : x.codeFor? c.checkpoint = none) :
    m.stepUnwind c x = m.popCheckpoint.propagate c.origin x := by
  simp only [stepUnwind, other]
  cases c.origin <;> rfl

/-- The result of the outermost call, if it is over. -/
def result? (m : Machine φ σ) : Option (Except BridgeError Outcome) :=
  match m.focus with
  | .halted (.call r) => some r
  | _ => none

theorem result?_eq_some {m : Machine φ σ} {r : Except BridgeError Outcome} :
    m.result? = some r ↔ m.focus = .halted (.call r) := by
  unfold result?
  split
  · rename_i r' focus
    simp [focus]
  · rename_i other
    exact ⟨nofun, fun focus => absurd focus (other r)⟩

/-- With the answer of a host function the code that has called it goes on, or the function is left
with an error. -/
theorem resume_eq (m : Machine φ σ) (c : Call φ σ) (a : Activation) (callee : ExternId)
    (dst : Option ValueId) (answer : Answer) :
    (∃ v, m.resume c a callee dst answer = m.goto (.code c (a.receive dst v))) ∨
      ∃ e, m.resume c a callee dst answer = m.goto (.leave c (.error e)) := by
  unfold resume
  split
  · exact .inr ⟨_, rfl⟩
  · exact .inr ⟨_, rfl⟩
  · exact .inl ⟨_, rfl⟩

/-- An error leaves one after the other the activations that wait. -/
theorem run_leave_error {m : Machine φ σ} {c : Call φ σ} {e : BridgeError}
    (focus : m.focus = .leave c (.error e)) : ∀ k ≤ c.waiting.length,
      m.run p k = m.goto
        (.leave { c with waiting := c.waiting.drop k, depth := c.depth - k } (.error e)) := by
  intro k
  induction k with
  | zero =>
    intro _
    rw [run, goto, List.drop_zero, Nat.sub_zero, ← focus]
  | succ k ih =>
    intro le
    have waits : c.waiting.drop k = c.waiting[k] :: c.waiting.drop (k + 1) :=
      List.drop_eq_getElem_cons le
    rw [← step_run, ih (Nat.le_of_succ_le le)]
    simp only [step, goto, stepLeave, waits]
    rfl

/-- An error that leaves a function is the result of the call, whatever waits for the function. -/
theorem run_error {m : Machine φ σ} {c : Call φ σ} {e : BridgeError}
    (focus : m.focus = .leave c (.error e)) :
    m.run p (c.waiting.length + 1) = m.popCheckpoint.deliver c.origin (.error e) := by
  rw [← step_run, run_leave_error focus _ (Nat.le_refl _), List.drop_length]
  exact (stepLeave_last (c := { c with waiting := [], depth := _ }) rfl _ _).trans
    (finishCall_goto ..)

end Machine

end HostBridge
