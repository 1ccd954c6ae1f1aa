import HostBridge.Machine.Step

/-!
# Reachable states

A state of the machine is `Reachable` if it comes up on a machine that starts idle, makes calls and
runs scripts whenever it has nothing else to do, and steps. Whatever a host does, whatever modules
it calls and however deep, all states of all runs are among them (`Reachable.run`).

* `Machine.run_succ`, `Machine.run_add` — a run is its steps one after the other;
* `Call.turn_call` — generated code only changes the storage of its call, the activations that wait
  in it, and the counter of the active functions.
-/

set_option autoImplicit false

namespace HostBridge

variable {φ σ : Type} {p : Platform φ σ}

/-! ## Turns -/

/-- The call in which a turn happens, as it is afterwards. -/
def Turn.call : Turn φ σ → Call φ σ
  | .code c _ | .leave c _ | .abort c _ _ | .host c _ _ _ _ _ => c

theorem Call.obey_call (c : Call φ σ) (a : Activation) (effect : Effect) :
    ∃ storage waiting depth, (c.obey a effect).call =
      { c with storage := storage, waiting := waiting, depth := depth } := by
  cases effect with
  | define dst v => exact ⟨_, _, _, rfl⟩
  | write storage => exact ⟨storage, _, _, rfl⟩
  | goto target =>
    simp only [Call.obey]
    split <;> exact ⟨_, _, _, rfl⟩
  | leave v => exact ⟨_, _, _, rfl⟩
  | call dst callee args =>
    simp only [Call.obey]
    split
    · exact ⟨_, (a, dst) :: c.waiting, c.depth + 1, rfl⟩
    · exact ⟨_, _, _, rfl⟩
  | callExtern dst callee args =>
    simp only [Call.obey]
    split <;> exact ⟨_, _, _, rfl⟩

theorem Call.turn_call (c : Call φ σ) (a : Activation) :
    ∃ storage waiting depth, (c.turn a).call =
      { c with storage := storage, waiting := waiting, depth := depth } := by
  unfold Call.turn
  split
  · exact ⟨_, _, _, rfl⟩
  · split
    · exact Call.obey_call ..
    · exact ⟨_, _, _, rfl⟩

theorem Call.turn_origin (c : Call φ σ) (a : Activation) : (c.turn a).call.origin = c.origin := by
  obtain ⟨storage, waiting, depth, h⟩ := c.turn_call a
  rw [h]

theorem Call.turn_checkpoint (c : Call φ σ) (a : Activation) :
    (c.turn a).call.checkpoint = c.checkpoint := by
  obtain ⟨storage, waiting, depth, h⟩ := c.turn_call a
  rw [h]

theorem Call.turn_request (c : Call φ σ) (a : Activation) :
    (c.turn a).call.request = c.request := by
  obtain ⟨storage, waiting, depth, h⟩ := c.turn_call a
  rw [h]

theorem Call.turn_bindings (c : Call φ σ) (a : Activation) :
    (c.turn a).call.bindings = c.bindings := by
  obtain ⟨storage, waiting, depth, h⟩ := c.turn_call a
  rw [h]

/-! ## Calls at work -/

/-- The call whose generated code has control, with the activations in it. -/
def Focus.work : Focus φ σ → List (Call φ σ × List Activation)
  | .code c a => [(c, a :: c.waiting.map Prod.fst)]
  | .leave c _ | .unwind c _ => [(c, c.waiting.map Prod.fst)]
  | .script _ _ | .unwindScript _ _ | .halted _ => []

/-- The call that waits in a frame, with the activations in it. -/
def Frame.work : Frame φ σ → List (Call φ σ × List Activation)
  | .hostCall c a _ _ => [(c, a :: c.waiting.map Prod.fst)]
  | .captured _ _ | .guarded _ => []

namespace Machine

/-- All calls at work, each with its activations, innermost first. -/
def work (m : Machine φ σ) : List (Call φ σ × List Activation) :=
  m.focus.work ++ m.control.flatMap Frame.work

/-! ## Runs -/

theorem step_of_halted {m : Machine φ σ} {e : Ending} (h : m.focus = .halted e) : m.step p = m := by
  simp only [step, h]

/-- A run that has ended stays as it is. -/
theorem run_of_halted {m : Machine φ σ} {e : Ending} (h : m.focus = .halted e) (n : Nat) :
    m.run p n = m := by
  cases n <;> simp only [run, h]

theorem run_succ (n : Nat) (m : Machine φ σ) : m.run p (n + 1) = (m.step p).run p n := by
  cases h : m.focus with
  | halted e => rw [step_of_halted h, run_of_halted h, run_of_halted h]
  | _ => simp only [run, h]

theorem run_add (k n : Nat) (m : Machine φ σ) : m.run p (k + n) = (m.run p k).run p n := by
  induction k generalizing m with
  | zero => rw [Nat.zero_add, run]
  | succ k ih => rw [Nat.succ_add, run_succ, ih, run_succ]

theorem step_run (n : Nat) (m : Machine φ σ) : (m.run p n).step p = m.run p (n + 1) := by
  rw [run_add, run_succ, run]

/-! ## Reachable states -/

/-- The machine has nothing to do, and nothing waits. -/
structure Rests (m : Machine φ σ) : Prop where
  halted : ∃ e, m.focus = .halted e
  control : m.control = []

theorem idle_rests (memory : Bytes) (shared : σ) : (idle memory shared : Machine φ σ).Rests :=
  ⟨⟨_, rfl⟩, rfl⟩

/-- A state that comes up on a machine that starts idle. -/
inductive Reachable (p : Platform φ σ) : Machine φ σ → Prop
  | idle (memory : Bytes) (shared : σ) : Reachable p (idle memory shared)
  /-- A call from outside. -/
  | call {m : Machine φ σ} (request : CallRequest φ) :
    Reachable p m → m.Rests → Reachable p (m.enterCall p request .outside)
  /-- A script that nobody has called. -/
  | script {m : Machine φ σ} (site : Site) (s : Script φ σ) :
    Reachable p m → m.Rests → Reachable p (m.goto (.script site s))
  | step {m : Machine φ σ} : Reachable p m → Reachable p (m.step p)

namespace Reachable

theorem startCall (request : CallRequest φ) (memory : Bytes) (shared : σ) :
    Reachable p (startCall p request memory shared) :=
  .call request (.idle memory shared) (idle_rests memory shared)

theorem startScript (site : Site) (s : Script φ σ) (memory : Bytes) (shared : σ) :
    Reachable p (startScript site s memory shared) :=
  .script site s (.idle memory shared) (idle_rests memory shared)

theorem run {m : Machine φ σ} (h : Reachable p m) (n : Nat) : Reachable p (m.run p n) := by
  induction n with
  | zero => exact h
  | succ n ih =>
    rw [← step_run]
    exact .step ih

end Reachable

end Machine

end HostBridge
