import HostBridge.Proofs.Handles
import HostBridge.Proofs.Outcomes
import HostBridge.Proofs.Positions
import Mathlib.Data.List.Nodup

/-!
# Calls come to an end

In a module whose jumps and branches only go forward, a loop takes a call, and the calls that can be
nested are limited. So a call ends as soon as its host functions do, after a number of instructions
that the module and the limit determine.

The bound counts from the inside. An activation that may have `d` others active above it executes at
most the instructions of its function, once each, and each of them costs at most one and what a
function costs that may have `d - 1` others above it (`Module.stepBound`). What the activations of a
call may still cost together (`Module.stackCost`) drops with every instruction.

* `Call.turn_cost` — a turn of generated code pays for its instruction;
* `Machine.Working.gets_on` — a call at work gets on, with the host functions that it calls;
* `Machine.call_concludes` — all calls of such a module end within the bound.
-/

set_option autoImplicit false

namespace HostBridge

variable {φ σ : Type} {p : Platform φ σ}

/-! ## What code costs -/

namespace Module

/-- Jumps and branches only go to later blocks. -/
def Forward (m : Module) : Prop :=
  ∀ f ∈ m.functions, ∀ (block : BlockId) (code : List Inst), f.blocks[block]? = some code →
    ∀ i ∈ code, ∀ target ∈ i.targets, block < target

theorem forward_iff {m : Module} : m.Forward ↔ ∀ f ∈ m.functions, ∀ b ∈ f.blocks.zipIdx,
    ∀ i ∈ b.1, ∀ target ∈ i.targets, b.2 < target := by
  refine ⟨fun h f mem b there => ?_, fun h f mem block code there => ?_⟩
  · exact h f mem b.2 b.1 (List.mk_mem_zipIdx_iff_getElem?.1 there)
  · exact h f mem (code, block) (List.mk_mem_zipIdx_iff_getElem?.2 there)

instance (m : Module) : Decidable m.Forward := decidable_of_iff _ forward_iff.symm

/-- How many instructions there are. -/
def size (m : Module) : Nat := (m.functions.map Func.insts).flatten.length

/-- How many instructions a function executes at most, with those of the functions that it calls, if
together with it no more than the given number are active. -/
def stepBound (m : Module) : Nat → Nat
  | 0 => 0
  | depth + 1 => m.size * (1 + m.stepBound depth)

theorem length_le_size {m : Module} {f : Func} (mem : f ∈ m.functions) :
    f.insts.length ≤ m.size :=
  (List.sublist_flatten_of_mem (List.mem_map_of_mem mem)).length_le

end Module

/-- How many instructions an activation has before it, if it never goes back. -/
def Activation.remaining (a : Activation) : Nat :=
  a.rest.length + (a.function.blocks.drop (a.block + 1)).flatten.length

/-- What activations may still cost under the limit, innermost first. -/
def Module.stackCost (m : Module) (limit : Nat) : List Activation → Nat
  | [] => 0
  | a :: outer =>
    a.remaining * (1 + m.stepBound (limit - (outer.length + 1))) + m.stackCost limit outer

namespace Activation

variable {m : Module} {a : Activation}

@[simp] theorem remaining_receive (a : Activation) (dst : Option ValueId) (x : Option Val) :
    (a.receive dst x).remaining = a.remaining := by
  cases dst <;> rfl

theorem remaining_next {i : Inst} {rest : List Inst} (here : a.rest = i :: rest)
    (values : List (Option Val)) :
    { a with rest := rest, values := values }.remaining + 1 = a.remaining := by
  simp only [remaining, here, List.length_cons]
  omega

/-- A function has all its instructions before it. -/
theorem remaining_start {f : Func} {args : List Val} (h : start f args = .ok a) :
    a.remaining = f.insts.length := by
  simp only [start, enter] at h
  split at h <;> cases h
  rename_i code there
  obtain ⟨later, eq⟩ : ∃ later, f.blocks = code :: later := by
    cases blocks : f.blocks <;> rw [blocks] at there <;> cases there
    exact ⟨_, rfl⟩
  simp [remaining, Func.insts, eq]

/-- What lies before a later block lies before this one, too. -/
theorem remaining_goto (forward : m.Forward) (stands : a.Stands m) {i : Inst} {rest : List Inst}
    (here : a.rest = i :: rest) {target : BlockId} (aims : target ∈ i.targets) {code : List Inst}
    (there : a.function.blocks[target]? = some code) :
    { a with block := target, rest := code }.remaining + 1 ≤ a.remaining := by
  obtain ⟨whole, block, tail⟩ := stands.block
  have mem : i ∈ whole := tail.subset (here ▸ List.mem_cons_self)
  have later : a.block < target := forward a.function stands.function _ _ block i mem _ aims
  obtain ⟨bound, eq⟩ := List.getElem?_eq_some_iff.1 there
  have split : a.function.blocks.drop target = code :: a.function.blocks.drop (target + 1) := by
    rw [List.drop_eq_getElem_cons bound, eq]
  obtain ⟨between, within⟩ :
      a.function.blocks.drop target <:+ a.function.blocks.drop (a.block + 1) :=
    List.drop_suffix_drop_left _ later
  simp only [remaining, here, ← within, split, List.flatten_append, List.flatten_cons,
    List.length_append, List.length_cons]
  omega

end Activation

/-- What the activations of a call may still cost, with the given ones above those that wait. -/
def Call.cost (c : Call φ σ) (active : List Activation) : Nat :=
  c.request.module.stackCost c.request.config.maxHelperDepth (active ++ c.waiting.map Prod.fst)

/-- What may still be to pay after a turn. -/
def Turn.cost : Turn φ σ → Nat
  | .code c a | .host c a _ _ _ _ => c.cost [a]
  | .leave c _ => c.cost []
  | .abort _ _ _ => 0

namespace Call

variable {c : Call φ σ} {a : Activation}

theorem cost_cons (c : Call φ σ) (a : Activation) :
    c.cost [a] = a.remaining * (1 + c.request.module.stepBound
      (c.request.config.maxHelperDepth - (c.waiting.length + 1))) + c.cost [] := by
  simp [cost, Module.stackCost]

theorem cost_nil_le (c : Call φ σ) (a : Activation) : c.cost [] ≤ c.cost [a] := by
  rw [cost_cons]
  exact Nat.le_add_left ..

/-- A place with one instruction less before it is cheaper. -/
theorem cost_lt {b : Activation} (less : b.remaining + 1 ≤ a.remaining) :
    c.cost [b] + 1 ≤ c.cost [a] := by
  rw [cost_cons, cost_cons]
  have paid := Nat.mul_le_mul_right (1 + c.request.module.stepBound
    (c.request.config.maxHelperDepth - (c.waiting.length + 1))) less
  rw [Nat.add_mul] at paid
  omega

/-- What a function may cost is in the price of the instruction that calls it. -/
theorem cost_call (counted : c.depth = c.waiting.length + 1) {b b' : Activation}
    {dst : Option ValueId} (less : b'.remaining + 1 = a.remaining)
    (room : c.depth < c.request.config.maxHelperDepth)
    (whole : b.remaining ≤ c.request.module.size) :
    (c.descend ((b', dst) :: c.waiting)).cost [b] + 1 ≤ c.cost [a] := by
  have inside : (c.descend ((b', dst) :: c.waiting)).cost [] = c.cost [b'] := by
    simp [cost, descend]
  obtain ⟨more, eq⟩ := Nat.exists_eq_add_of_lt room
  have levels : c.request.config.maxHelperDepth - (c.waiting.length + 1) = more + 1 := by omega
  have above : c.request.config.maxHelperDepth - (c.waiting.length + 1 + 1) = more := by omega
  rw [cost_cons, inside, cost_cons, cost_cons]
  simp only [descend, List.length_cons, levels, above, Module.stepBound, ← less, Nat.add_mul]
  have paid := Nat.mul_le_mul_right (1 + c.request.module.stepBound more) whole
  omega

/-- **Every instruction is paid for.** It makes what the call may still cost less, and at most one
more activation waits after it. Without an instruction, the function is left. -/
theorem turn_cost (forward : c.request.module.Forward) (stands : a.Stands c.request.module)
    (counted : c.depth = c.waiting.length + 1) :
    ((c.turn a).cost + 1 ≤ c.cost [a] ∨
      a.rest = [] ∧ ∃ answer, c.turn a = .leave c answer) ∧
    (c.turn a).call.waiting.length ≤ c.waiting.length + 1 := by
  by_cases empty : a.rest = []
  · have left : c.turn a = .leave c (.error (.exec (.openBlock a.block a.function.name))) := by
      simp only [turn, empty]
    refine ⟨.inr ⟨empty, _, left⟩, ?_⟩
    rw [left]
    exact Nat.le_succ _
  · obtain ⟨i, rest, here⟩ := List.exists_cons_of_ne_nil empty
    have first : c.cost [] + 1 ≤ c.cost [a] := by
      rw [cost_cons, Activation.remaining, here, List.length_cons, Nat.add_mul, Nat.add_mul]
      omega
    have advance := c.turn_advance a
    generalize c.turn a = t at advance
    cases advance with
    | next i rest here storage values places =>
      exact ⟨.inl (cost_lt (Nat.le_of_eq (Activation.remaining_next here values))), Nat.le_succ _⟩
    | goto i rest here target aims code there =>
      exact ⟨.inl (cost_lt (Activation.remaining_goto forward stands here aims there)),
        Nat.le_succ _⟩
    | call dst callee args rest here room f there xs b starts =>
      have whole : b.remaining ≤ c.request.module.size := by
        rw [Activation.remaining_start starts]
        exact Module.length_le_size (List.mem_iff_getElem?.2 ⟨_, there⟩)
      exact ⟨.inl (cost_call counted (Activation.remaining_next here a.values) room whole),
        Nat.le_refl _⟩
    | leave answer => exact ⟨.inl first, Nat.le_succ _⟩
    | abort handle code => exact ⟨.inl (Nat.le_trans (Nat.le_add_left ..) first), Nat.le_succ _⟩
    | host dst callee args rest here entry offered xs =>
      exact ⟨.inl (cost_lt (Nat.le_of_eq (Activation.remaining_next here a.values))), Nat.le_succ _⟩

end Call

/-! ## Runs -/

/-- An instruction of the call under the checkpoint is the next thing that happens. -/
def Focus.executes (cp : Checkpoint) : Focus φ σ → Bool
  | .code c a => decide (c.checkpoint = cp) && !a.rest.isEmpty
  | _ => false

/-- What the call that has control may still cost. -/
def Focus.cost : Focus φ σ → Nat
  | .code c a => c.cost [a]
  | .leave c _ => c.cost []
  | _ => 0

/-- The whole call is within the bound. -/
theorem Call.cost_beginning (c : Call φ σ) (fresh : c.waiting = []) (entry : FuncId) :
    (c.beginning entry).cost ≤
      c.request.module.stepBound c.request.config.maxHelperDepth := by
  have nothing : c.cost [] = 0 := by simp [cost, fresh, Module.stackCost]
  have below : (c.descend []).cost [] = 0 := by simp [cost, descend, Module.stackCost]
  rcases c.beginning_eq entry with ⟨a, activated, eq⟩ | ⟨e, -, eq⟩
  · obtain ⟨f, there, started⟩ := activate_ok activated
    have whole : a.remaining ≤ c.request.module.size := by
      rw [Activation.remaining_start started]
      exact Module.length_le_size (List.mem_iff_getElem?.2 ⟨_, there⟩)
    obtain ⟨levels, limit⟩ : ∃ levels, c.request.config.maxHelperDepth = levels + 1 :=
      Nat.exists_eq_succ_of_ne_zero (Nat.ne_zero_of_lt (activate_room activated))
    have above : (c.descend []).request.config.maxHelperDepth - 1 = levels :=
      Nat.sub_eq_of_eq_add limit
    rw [eq, Focus.cost, cost_cons, below, descend_waiting, List.length_nil, Nat.zero_add, above,
      limit]
    exact Nat.mul_le_mul_right _ whole
  · rw [eq, Focus.cost, nothing]
    exact Nat.zero_le _

/-- A measure of what the call that has control has before it. Between two instructions only
functions are left, and an instruction lets at most one more wait. -/
def Focus.rank : Focus φ σ → Nat
  | .code c a => 3 * c.cost [a] + 2 * c.waiting.length + 2
  | .leave c _ => 3 * c.cost [] + 2 * c.waiting.length + 1
  | _ => 0

namespace Machine

/-- How many instructions the call under the checkpoint executes in a number of steps. -/
def instructionSteps (p : Platform φ σ) (cp : Checkpoint) : Nat → Machine φ σ → Nat
  | 0, _ => 0
  | n + 1, m => (m.focus.executes cp).toNat + instructionSteps p cp n (m.step p)

theorem instructionSteps_add (cp : Checkpoint) (j n : Nat) (m : Machine φ σ) :
    m.instructionSteps p cp (j + n) =
      m.instructionSteps p cp j + (m.run p j).instructionSteps p cp n := by
  induction j generalizing m with
  | zero => rw [Nat.zero_add, run, instructionSteps, Nat.zero_add]
  | succ j ih => rw [Nat.succ_add, instructionSteps, instructionSteps, ih, run_succ, Nat.add_assoc]

theorem instructionSteps_eq_zero {cp : Checkpoint} {n : Nat} {m : Machine φ σ}
    (h : ∀ k < n, (m.run p k).focus.executes cp = false) : m.instructionSteps p cp n = 0 := by
  induction n generalizing m with
  | zero => rfl
  | succ n ih =>
    have first := h 0 (Nat.succ_pos n)
    rw [run] at first
    rw [instructionSteps, first, Bool.toNat_false, Nat.zero_add]
    refine ih fun k lt => ?_
    rw [← run_succ]
    exact h (k + 1) (Nat.succ_lt_succ lt)

/-- What has control is a host function that comes to its end: while it works, what waits for it
waits. -/
def Returns (p : Platform φ σ) (m : Machine φ σ) : Prop :=
  ∃ n site answer, (∀ k ≤ n, m.control <:+ (m.run p k).control) ∧
    (m.run p n).focus = .script site (.done answer) ∧ (m.run p n).control = m.control

/-- A call is about to be made: by nobody on the machine, which rests, or by the script in
control. -/
inductive MakesCall (m : Machine φ σ) (request : CallRequest φ) : Origin φ σ → Prop
  | outside (rests : m.Rests) : MakesCall m request .outside
  | host (site : Site) (next : Except BridgeError Outcome → Script φ σ)
    (focus : m.focus = .script site (.call request next)) : MakesCall m request (.host site next)

end Machine

/-- The host functions on offer come to their ends whenever the call calls them. -/
def CallRequest.HostsReturn (p : Platform φ σ) (r : CallRequest φ) : Prop :=
  ∀ (m : Machine φ σ) (c : Call φ σ) (a : Activation) (callee : ExternId) (dst : Option ValueId)
    (rest : List (Frame φ σ)) (entry : HostEntry φ) (args : List Val), m.Reachable p →
    c.request = r → m.control = .hostCall c a callee dst :: rest → entry ∈ r.hosts.entries →
    m.focus = .script c.site (p.behaviour entry.function args) → m.Returns p

namespace Machine

/-- After `n` steps the call is over. Whoever made it has its result, or generated code has raised a
status against another checkpoint than its own, and whoever made the call sees the panic that this
is. -/
inductive Concludes (p : Platform φ σ) (request : CallRequest φ) (origin : Origin φ σ)
    (cp : Checkpoint) (rest : List (Frame φ σ)) (m : Machine φ σ) (n : Nat) : Prop
  | result (last : Machine φ σ) (control : last.control = rest) (r : Except BridgeError Outcome)
    (ends : m.run p n = last.deliver origin r)
  | astray (k : Nat) (before : k < n) (c c' : Call φ σ) (a : Activation)
    (serves : c.Serves request origin cp) (focus : (m.run p k).focus = .code c a) (handle : Addr)
    (code : Int32Bits) (turn : c.turn a = .abort c' handle code) (other : handle ≠ cp.handle)
    (last : Machine φ σ) (control : last.control = rest)
    (ends : m.run p n = last.propagate origin (.foreign (.wrongCheckpoint code handle)))

variable {request : CallRequest φ} {origin : Origin φ σ} {cp : Checkpoint}
  {rest : List (Frame φ σ)} {m : Machine φ σ}

theorem Concludes.later {j n : Nat} (h : Concludes p request origin cp rest (m.run p j) n) :
    Concludes p request origin cp rest m (j + n) := by
  cases h with
  | result last control r ends => exact .result last control r (by rw [run_add, ends])
  | astray k before c c' a serves focus handle code turn other last control ends =>
    exact .astray (j + k) (Nat.add_lt_add_left before j) c c' a serves (by rw [run_add, focus])
      handle code turn other last control (by rw [run_add, ends])

/-- The call has control, above the frames `rest`, and is not being left at once. -/
structure Working (p : Platform φ σ) (request : CallRequest φ) (origin : Origin φ σ)
    (cp : Checkpoint) (rest : List (Frame φ σ)) (m : Machine φ σ) : Prop where
  reach : Reachable p m
  control : m.control = rest
  focus : ∃ c : Call φ σ, c.Serves request origin cp ∧
    ((∃ a, m.focus = .code c a) ∨ ∃ answer, m.focus = .leave c answer)

/-- In the next `n` steps, in all of which the call is at work, it ends, or it comes nearer to its
end. The instructions that it executes are paid for. -/
structure GetsOn (p : Platform φ σ) (request : CallRequest φ) (origin : Origin φ σ)
    (cp : Checkpoint) (rest : List (Frame φ σ)) (m : Machine φ σ) (n : Nat) : Prop where
  during : ∀ k < n, Serving request origin cp rest (m.run p k)
  ends : Concludes p request origin cp rest m n ∧ m.instructionSteps p cp n ≤ m.focus.cost ∨
    Working p request origin cp rest (m.run p n) ∧ (m.run p n).focus.rank < m.focus.rank ∧
      m.instructionSteps p cp n + (m.run p n).focus.cost ≤ m.focus.cost

theorem Working.serving (h : Working p request origin cp rest m) :
    Serving request origin cp rest m := by
  obtain ⟨c, serves, ⟨a, focus⟩ | ⟨answer, focus⟩⟩ := h.focus
  · exact .active c serves (by rw [focus, Focus.call?]) h.control
  · exact .active c serves (by rw [focus, Focus.call?]) h.control

/-- A call that gets on as long as it is at work ends. -/
theorem Working.concludes
    (progress : ∀ m, Working p request origin cp rest m →
      ∃ n, GetsOn p request origin cp rest m n)
    (h : Working p request origin cp rest m) :
    ∃ n, Concludes p request origin cp rest m n ∧
      m.instructionSteps p cp n ≤ m.focus.cost ∧
      ∀ k < n, Serving request origin cp rest (m.run p k) := by
  -- the induction is on the rank of what has control
  generalize eq : m.focus.rank = r
  induction r using Nat.strongRecOn generalizing m with
  | ind r ih =>
    obtain ⟨j, during, ends⟩ := progress m h
    rcases ends with ⟨ended, paid⟩ | ⟨goesOn, less, paid⟩
    · exact ⟨j, ended, paid, during⟩
    · obtain ⟨n, ended, paid', during'⟩ := ih _ (eq ▸ less) goesOn rfl
      refine ⟨j + n, ended.later, ?_, ?_⟩
      · rw [instructionSteps_add]
        omega
      · intro k lt
        by_cases early : k < j
        · exact during k early
        · obtain ⟨i, rfl⟩ := Nat.exists_eq_add_of_le (Nat.not_lt.1 early)
          rw [run_add]
          exact during' i (by omega)

theorem run_one (m : Machine φ σ) : m.run p 1 = m.step p := by
  rw [run_succ, run]

theorem Working.during_one (h : Working p request origin cp rest m) :
    ∀ k < 1, Serving request origin cp rest (m.run p k) := by
  intro k lt
  rw [Nat.lt_one_iff.1 lt, run]
  exact h.serving

/-- When a function has ended, what waits for it goes on, or the call is over. -/
theorem Working.leave_gets_on (h : Working p request origin cp rest m) {c : Call φ σ}
    {answer : Answer} (serves : c.Serves request origin cp) (focus : m.focus = .leave c answer) :
    GetsOn p request origin cp rest m 1 := by
  have free : m.instructionSteps p cp 1 = 0 := by
    simp [instructionSteps, focus, Focus.executes]
  have step : m.step p = m.stepLeave c answer := by simp only [Machine.step, focus]
  refine ⟨h.during_one, ?_⟩
  rw [free, run_one, focus]
  cases waiting : c.waiting with
  | nil =>
    let result := (statusOf answer).bind (Outcome.settle c.storage.block m.memory .returned)
    refine .inl ⟨.result m.popCheckpoint h.control result ?_, Nat.zero_le _⟩
    rw [run_one, step, stepLeave_last waiting, ← serves.origin]
    rfl
  | cons w waiting' =>
    obtain ⟨b, dst⟩ := w
    have same := serves.ascend waiting'
    have inside : (c.ascend waiting').cost [b] = c.cost [] := by
      simp [Call.cost, Call.ascend, waiting]
    have reach : Reachable p (m.step p) := .step h.reach
    simp only [stepLeave, waiting] at step
    cases answer with
    | error e =>
      have outer : (c.ascend waiting').cost [] ≤ c.cost [] :=
        inside ▸ Call.cost_nil_le _ b
      simp only at step
      rw [step] at reach ⊢
      refine .inr ⟨⟨reach, h.control, _, same, .inr ⟨_, rfl⟩⟩, ?_, ?_⟩
      · simp only [goto, Focus.rank, Call.ascend_waiting, waiting, List.length_cons]
        omega
      · simpa only [goto, Focus.cost, Nat.zero_add] using outer
    | ok v =>
      simp only at step
      have same_cost : (c.ascend waiting').cost [b.receive dst v] = c.cost [] := by
        rw [← inside, Call.cost_cons, Call.cost_cons, Activation.remaining_receive]
      rw [step] at reach ⊢
      refine .inr ⟨⟨reach, h.control, _, same, .inl ⟨_, rfl⟩⟩, ?_, ?_⟩
      · simp only [goto, Focus.rank, Call.ascend_waiting, waiting, List.length_cons, same_cost]
        omega
      · simp only [goto, Focus.cost, Nat.zero_add, same_cost, Nat.le_refl]

/-- While a call waits for a host function, none of its instructions is executed. -/
theorem Balanced.not_executes (balanced : Balanced m) {c : Call φ σ} {a : Activation}
    {callee : ExternId} {dst : Option ValueId} (waits : .hostCall c a callee dst ∈ m.control) :
    m.focus.executes c.checkpoint = false := by
  cases focus : m.focus with
  | code d b =>
    -- otherwise the checkpoint would be live twice
    have other : d.checkpoint ≠ c.checkpoint := by
      intro same
      have ids := balanced.ids
      rw [balanced.live_eq, running, focus, Focus.checkpoints, List.singleton_append, same] at ids
      have waiting : c.checkpoint ∈ m.control.flatMap Frame.checkpoints :=
        List.mem_flatMap.2 ⟨_, waits, List.mem_singleton_self _⟩
      exact absurd (List.rel_of_pairwise_cons ids waiting) (Nat.lt_irrefl _)
    simp [Focus.executes, other]
  | _ => rfl

/-- What a turn costs, as it shows in the run. -/
theorem Working.paid (forward : request.module.Forward) (h : Working p request origin cp rest m)
    {c : Call φ σ} {a : Activation} (serves : c.Serves request origin cp)
    (focus : m.focus = .code c a) :
    (m.focus.executes cp).toNat + (c.turn a).cost ≤ c.cost [a] ∧
      ((c.turn a).cost + 1 ≤ c.cost [a] ∨ ∃ answer, c.turn a = .leave c answer) ∧
      (c.turn a).call.waiting.length ≤ c.waiting.length + 1 := by
  have stands : a.Stands c.request.module :=
    (h.reach.placed (c, a :: c.waiting.map Prod.fst) (by simp [work, focus, Focus.work])).2 a
      List.mem_cons_self
  obtain ⟨cost, length⟩ :=
    Call.turn_cost (serves.request ▸ forward) stands (h.reach.depth.1 c a focus)
  rcases cost with paid | ⟨empty, answer, left⟩
  · have one := Bool.toNat_le (m.focus.executes cp)
    exact ⟨by omega, .inl paid, length⟩
  · refine ⟨?_, .inr ⟨answer, left⟩, length⟩
    rw [focus, left, Turn.cost, Call.cost_cons]
    simp [Focus.executes, empty]

/-- An abort ends the call at once, or it is a panic. -/
theorem Working.abort_gets_on (h : Working p request origin cp rest m) {c c' : Call φ σ}
    {a : Activation} {handle : Addr} {code : Int32Bits} (serves : c.Serves request origin cp)
    (focus : m.focus = .code c a) (turn : c.turn a = .abort c' handle code)
    (paid : (m.focus.executes cp).toNat ≤ m.focus.cost) :
    GetsOn p request origin cp rest m 2 := by
  obtain rfl := Call.turn_abort turn
  have step : m.step p = m.goto (.unwind c' (.raise m.live handle code)) := by
    simp only [Machine.step, focus, stepCode, turn, take]
  have live : m.live = cp :: m.control.flatMap Frame.checkpoints := by
    rw [h.reach.balanced.live_eq, running, focus, ← serves.checkpoint]
    rfl
  have free : m.instructionSteps p cp 2 ≤ m.focus.cost := by
    simpa [instructionSteps, step, goto, Focus.executes] using paid
  refine ⟨fun k lt => ?_, .inl ⟨?_, free⟩⟩
  · obtain rfl | rfl : k = 0 ∨ k = 1 := by omega
    · exact h.serving
    · rw [run_one, step]
      exact .active c' serves rfl h.control
  · have two : m.run p 2 = (m.goto (.unwind c' (.raise m.live handle code))).step p := by
      rw [run_succ, run_one, step]
    by_cases own : handle = cp.handle
    · let result := Outcome.settle c'.storage.block m.memory .aborted code
      refine .result m.popCheckpoint h.control result ?_
      rw [two, live, own, Payload.raise, if_pos rfl, ← serves.checkpoint, step_own_signal,
        ← serves.origin]
      rfl
    · let x : Payload := .foreign (.wrongCheckpoint code handle)
      let raised := m.goto (.unwind c' x)
      have other : x.codeFor? c'.checkpoint = none := rfl
      refine .astray 0 (by omega) c' c' a serves focus handle code turn own raised.popCheckpoint
        h.control ?_
      rw [two, live, Payload.raise, if_neg (Ne.symm own), ← serves.origin]
      exact raised.stepUnwind_eq other

/-- A host function that comes to its end gives control back to the call. -/
theorem Working.host_gets_on (h : Working p request origin cp rest m)
    (returns : request.HostsReturn p) {c c' : Call φ σ} {a b : Activation} {callee : ExternId}
    {dst : Option ValueId} {function : φ} {args : List Val} (serves : c.Serves request origin cp)
    (focus : m.focus = .code c a) (turn : c.turn a = .host c' b callee dst function args)
    (paid : (m.focus.executes cp).toNat + c'.cost [b] ≤ c.cost [a])
    (less : c'.cost [b] + 1 ≤ c.cost [a]) (length : c'.waiting.length ≤ c.waiting.length + 1) :
    ∃ n, GetsOn p request origin cp rest m n := by
  have same : c'.Serves request origin cp := by
    have same := serves.turn a
    rw [turn] at same
    exact same
  obtain ⟨entry, offered, rfl⟩ : ∃ entry ∈ request.hosts.entries, entry.function = function := by
    have advance := c.turn_advance a
    rw [turn] at advance
    cases advance with
    | host _ _ _ _ _ entry offered => exact ⟨entry, serves.request ▸ offered, rfl⟩
  let called : Machine φ σ := { m with
    focus := .script c'.site (p.behaviour entry.function args)
    control := .hostCall c' b callee dst :: m.control }
  have step : m.step p = called := by simp only [Machine.step, focus, stepCode, turn, take, called]
  have reach : Reachable p called := step ▸ .step h.reach
  obtain ⟨n, site, answer, above, done, back⟩ :=
    returns called c' b callee dst m.control entry args reach same.request rfl offered rfl
  have free : called.instructionSteps p cp (n + 1) = 0 := by
    refine instructionSteps_eq_zero fun k lt => ?_
    rw [← same.checkpoint]
    exact (reach.run k).balanced.not_executes
      ((above k (Nat.le_of_lt_succ lt)).subset List.mem_cons_self)
  have steps : m.instructionSteps p cp (n + 2) = (m.focus.executes cp).toNat := by
    rw [instructionSteps, step, free, Nat.add_zero]
  have after : m.run p (n + 2) =
      { called.run p n with control := m.control }.resume c' b callee dst answer := by
    rw [run_succ, step, ← step_run]
    simp only [Machine.step, done, stepScript, stepDone, back, called]
  have reached := h.reach.run (n + 2)
  refine ⟨n + 2, fun k lt => ?_, .inr ?_⟩
  · cases k with
    | zero => exact h.serving
    | succ k =>
      obtain ⟨inner, eq⟩ := above k (by omega)
      rw [run_succ, step]
      exact .waits c' same b callee dst inner (by rw [← eq, ← h.control])
  · rw [steps, focus, Focus.rank, Focus.cost]
    rw [focus] at paid
    rw [after] at reached ⊢
    rcases resume_eq { called.run p n with control := m.control } c' b callee dst answer with
      ⟨v, eq⟩ | ⟨e, eq⟩
    · have received : c'.cost [b.receive dst v] = c'.cost [b] := by
        rw [Call.cost_cons, Call.cost_cons, Activation.remaining_receive]
      rw [eq] at reached ⊢
      refine ⟨⟨reached, h.control, c', same, .inl ⟨_, rfl⟩⟩, ?_, ?_⟩
      · simp only [goto, Focus.rank, received]
        omega
      · simp only [goto, Focus.cost, received]
        omega
    · have outer : c'.cost [] ≤ c'.cost [b] := c'.cost_nil_le b
      rw [eq] at reached ⊢
      refine ⟨⟨reached, h.control, c', same, .inr ⟨_, rfl⟩⟩, ?_, ?_⟩
      · simp only [goto, Focus.rank]
        omega
      · simp only [goto, Focus.cost]
        omega

/-- Generated code that has control gets on. -/
theorem Working.code_gets_on (forward : request.module.Forward) (returns : request.HostsReturn p)
    (h : Working p request origin cp rest m) {c : Call φ σ} {a : Activation}
    (serves : c.Serves request origin cp) (focus : m.focus = .code c a) :
    ∃ n, GetsOn p request origin cp rest m n := by
  obtain ⟨paid, cheaper, length⟩ := h.paid forward serves focus
  have step : m.step p = m.take p (c.turn a) := by simp only [Machine.step, focus, stepCode]
  have reach : Reachable p (m.step p) := .step h.reach
  have steps : m.instructionSteps p cp 1 = (m.focus.executes cp).toNat := by
    simp [instructionSteps]
  have same := serves.turn a
  cases turn : c.turn a with
  | host c' b callee dst function args =>
    rw [turn] at paid cheaper length
    obtain less | ⟨_, eq⟩ := cheaper
    · exact h.host_gets_on returns serves focus turn paid less length
    · cases eq
  | abort c' handle code =>
    refine ⟨2, h.abort_gets_on serves focus turn ?_⟩
    rw [focus] at paid ⊢
    exact Nat.le_trans (Nat.le_add_right ..) paid
  | code c' b =>
    rw [turn] at step paid cheaper length same
    rw [step] at reach
    obtain less | ⟨_, eq⟩ := cheaper
    · refine ⟨1, h.during_one, .inr ?_⟩
      rw [run_one, step, steps]
      refine ⟨⟨reach, h.control, c', same, .inl ⟨b, rfl⟩⟩, ?_, ?_⟩
      · simp only [take, goto, focus, Focus.rank]
        simp only [Turn.cost, Turn.call] at less length
        omega
      · rw [focus] at paid ⊢
        exact paid
    · cases eq
  | leave c' answer =>
    rw [turn] at step paid cheaper length same
    rw [step] at reach
    refine ⟨1, h.during_one, .inr ?_⟩
    rw [run_one, step, steps]
    refine ⟨⟨reach, h.control, c', same, .inr ⟨answer, rfl⟩⟩, ?_, ?_⟩
    · simp only [take, goto, focus, Focus.rank]
      simp only [Turn.cost, Turn.call] at cheaper length paid
      obtain less | ⟨_, eq⟩ := cheaper
      · omega
      · cases eq
        omega
    · rw [focus] at paid ⊢
      exact paid

theorem Working.gets_on (forward : request.module.Forward) (returns : request.HostsReturn p)
    (h : Working p request origin cp rest m) : ∃ n, GetsOn p request origin cp rest m n := by
  obtain ⟨c, serves, ⟨a, focus⟩ | ⟨answer, focus⟩⟩ := h.focus
  · exact h.code_gets_on forward returns serves focus
  · exact ⟨1, h.leave_gets_on serves focus⟩

/-! ## One call from its beginning to its end -/

theorem MakesCall.reachable (reach : Reachable p m) (h : m.MakesCall request origin) :
    Reachable p (m.enterCall p request origin) := by
  cases h with
  | outside rests => exact .call request reach rests
  | host site next focus =>
    have step : m.step p = m.enterCall p request (.host site next) := by
      simp only [Machine.step, focus, stepScript]
    exact step ▸ .step reach

/-- A call is refused at once, or it is at work, at a price within the bound. -/
theorem MakesCall.begins (reach : Reachable p m) (h : m.MakesCall request origin) :
    (∃ e, m.enterCall p request origin = m.deliver origin (.error e)) ∨
      Working p request origin (m.nextCheckpoint p) m.control (m.enterCall p request origin) ∧
        (m.enterCall p request origin).focus.cost ≤
          request.module.stepBound request.config.maxHelperDepth := by
  have reached := h.reachable reach
  cases prepared : request.prepare with
  | error e => exact .inl ⟨e, enterCall_refused prepared origin⟩
  | ok ready =>
    obtain ⟨entry, bindings⟩ := ready
    by_cases full : request.config.maxCallDepth ≤ m.live.length
    · exact .inl ⟨_, enterCall_full prepared full origin⟩
    · let c := newCall p request bindings (m.nextCheckpoint p) origin
      rw [enterCall_eq prepared full] at reached ⊢
      refine .inr ⟨⟨reached, rfl, ?_⟩, c.cost_beginning rfl entry⟩
      rcases c.beginning_eq entry with ⟨a, -, eq⟩ | ⟨e, -, eq⟩
      · exact ⟨c.descend [], ⟨rfl, rfl, rfl⟩, .inl ⟨a, eq⟩⟩
      · exact ⟨c, ⟨rfl, rfl, rfl⟩, .inr ⟨_, eq⟩⟩

/-- The calls at work have checkpoints of their own. -/
theorem work_checkpoints (m : Machine φ σ) :
    (m.work.map fun w => w.1.checkpoint).Sublist m.running := by
  have frames : ∀ control : List (Frame φ σ),
      ((control.flatMap Frame.work).map fun w => w.1.checkpoint).Sublist
        (control.flatMap Frame.checkpoints) := by
    intro control
    induction control with
    | nil => exact .slnil
    | cons frame control ih =>
      rw [List.flatMap_cons, List.flatMap_cons, List.map_append]
      refine .append ?_ ih
      cases frame with
      | captured cp next => exact List.nil_sublist _
      | _ => exact .refl _
  rw [work, List.map_append]
  refine .append ?_ (frames m.control)
  cases m.focus <;> exact .refl _

/-- No other call is at work under the checkpoint of a call. -/
theorem Serving.serves_of_work (balanced : Balanced m) (h : Serving request origin cp rest m) :
    ∀ w ∈ m.work, w.1.checkpoint = cp → w.1.Serves request origin cp := by
  have different : (m.work.map fun w => w.1.checkpoint).Nodup := by
    have ids := balanced.ids
    rw [balanced.live_eq] at ids
    exact (ids.imp fun less same => Nat.ne_of_gt less (congrArg Checkpoint.id same)).sublist
      m.work_checkpoints
  obtain ⟨own, mem, serves⟩ : ∃ own ∈ m.work, own.1.Serves request origin cp := by
    cases h with
    | active c serves active control =>
      cases focus : m.focus <;> rw [focus] at active <;> cases active <;>
        exact ⟨_, by rw [work, focus]; exact List.mem_cons_self, serves⟩
    | waits c serves a callee dst inner control =>
      refine ⟨(c, a :: c.waiting.map Prod.fst), List.mem_append_right _ ?_, serves⟩
      refine List.mem_flatMap.2 ⟨.hostCall c a callee dst, ?_, List.mem_singleton_self _⟩
      rw [control]
      exact List.mem_append_right _ List.mem_cons_self
  intro w there same
  rw [List.inj_on_of_nodup_map different there mem (same.trans serves.checkpoint.symm)]
  exact serves

/-- **Calls come to an end.** A call of a module whose jumps and branches only go forward, on a host
whose functions come to their ends, is over after a number of steps. Until then it executes no more
instructions than the module and the limit of active functions determine, and no more of its
functions are active than the limit allows. -/
theorem call_concludes {m : Machine φ σ} (reach : Reachable p m) {request : CallRequest φ}
    {origin : Origin φ σ} (calls : m.MakesCall request origin) (forward : request.module.Forward)
    (returns : request.HostsReturn p) :
    ∃ n, Concludes p request origin (m.nextCheckpoint p) m.control
        (m.enterCall p request origin) n ∧
      (m.enterCall p request origin).instructionSteps p (m.nextCheckpoint p) n ≤
        request.module.stepBound request.config.maxHelperDepth ∧
      ∀ k < n, ∀ w ∈ ((m.enterCall p request origin).run p k).work,
        w.1.checkpoint = m.nextCheckpoint p → w.2.length ≤ request.config.maxHelperDepth := by
  rcases calls.begins reach with ⟨e, refused⟩ | ⟨works, price⟩
  · exact ⟨0, .result m rfl _ refused, Nat.zero_le _, fun k lt => absurd lt (Nat.not_lt_zero k)⟩
  · obtain ⟨n, ended, paid, during⟩ :=
      works.concludes fun _ working => working.gets_on forward returns
    refine ⟨n, ended, Nat.le_trans paid price, ?_⟩
    intro k lt w mem own
    have reached := works.reach.run k
    have serves := (during k lt).serves_of_work reached.balanced w mem own
    exact serves.request ▸ (reached.placed w mem).1

/-- A helper that tells the host, goes on to its second block and there calls itself. -/
def spinning : Module :=
  let edits : List Edit :=
    [.declareExtern "host.tick" ⟨[], none⟩ false, .declareHelper "spin" ⟨[.ptr], none⟩ 0,
      .declareEntry "main", .select 0, .emit .createBlock, .emit (.callExtern 0 []),
      .emit (.jump 1), .emit (.switchTo 1), .emit (.callHelper 0 []), .emit (.ret none),
      .select 1, .emit (.callHelper 0 []), .emit (.returnStatus .stop)]
  (edits.foldl Manuscript.after (.new "spinning")).module

/-- A host all of whose functions answer with nothing. -/
def quiet : Platform Unit Unit := .within .usual fun _ _ => .done (.ok none)

/-- The call of `spinning` from outside, with room for eight functions. -/
def spinningRequest : CallRequest Unit :=
  ⟨spinning, 100, default, Registry.empty.register "host.tick" 0 (),
    { Config.default with maxHelperDepth := 8 }⟩

/-- The helper calls itself without end, and the call ends. -/
theorem call_concludes_spinning :
    let m : Machine Unit Unit := idle [] ()
    Reachable quiet m ∧ m.MakesCall spinningRequest .outside ∧ spinning.Forward ∧
      spinningRequest.HostsReturn quiet ∧
      ∃ n, Concludes quiet spinningRequest .outside (m.nextCheckpoint quiet) []
          (m.enterCall quiet spinningRequest .outside) n ∧
        (m.enterCall quiet spinningRequest .outside).instructionSteps quiet
          (m.nextCheckpoint quiet) n ≤ spinning.stepBound 8 := by
  intro m
  have reach : Reachable quiet m := .idle [] ()
  have calls : m.MakesCall spinningRequest .outside := .outside (idle_rests [] ())
  have forward : spinning.Forward := by decide +kernel
  have returns : spinningRequest.HostsReturn quiet := by
    intro m c a callee dst rest entry args _ _ _ _ focus
    refine ⟨0, c.site, .ok none, fun k le => ?_, focus, rfl⟩
    obtain rfl := Nat.le_zero.1 le
    exact List.suffix_rfl
  obtain ⟨n, ended, bound, -⟩ := call_concludes reach calls forward returns
  exact ⟨reach, calls, forward, returns, n, ended, bound⟩

/-- Raises a status against the address that the entry function is given for the host. -/
def stray : Module :=
  let edits : List Edit :=
    [.declareExtern abortSymbol ⟨[.ptr, .i32], none⟩ true, .declareEntry "main", .select 0,
      .emit (.constI32 2), .emit (.callExtern 0 [0, 2]), .emit .unreachable]
  (edits.foldl Manuscript.after (.new "stray")).module

/-- No function of the host is called, and the call of `stray` ends neither with an outcome nor with
an error. -/
theorem call_concludes_stray :
    let p : Platform Empty Unit := .within .usual fun f _ => f.elim
    let request : CallRequest Empty := ⟨stray, 100, default, .empty, default⟩
    let start : Machine Empty Unit := startCall p request [] ()
    stray.verify = .ok () ∧ stray.Forward ∧ request.HostsReturn p ∧
      (start.run p 3).focus = .halted (.panic (.foreign (.wrongCheckpoint 2 0))) ∧
      ∀ n result, (start.run p n).focus ≠ .halted (.call result) := by
  intro p request start
  have verified : stray.verify = .ok () := by decide +kernel
  have forward : stray.Forward := by decide +kernel
  have returns : request.HostsReturn p := by
    intro m c a callee dst rest entry args _ _ _ offered
    cases offered
  have panics : (start.run p 3).focus = .halted (.panic (.foreign (.wrongCheckpoint 2 0))) := rfl
  refine ⟨verified, forward, returns, panics, ?_⟩
  intro n result ended
  rcases Nat.lt_or_ge n 3 with early | late
  · have goesOn : ∀ k < 3, (start.run p k).ending?.isNone = true := by decide +kernel
    have going := goesOn n early
    rw [ending?, ended] at going
    cases going
  · obtain ⟨k, rfl⟩ := Nat.exists_eq_add_of_le late
    rw [run_add, run_of_halted panics, panics] at ended
    cases ended

end Machine

end HostBridge
