import HostBridge.Proofs.Termination

/-!
# The call from outside

A run begins with a call that nobody on the machine has made, and goes on with calls that scripts
make. So at any moment there is at most one call at work whose result is the result of the run, and
it is the one with which the run has begun (`Machine.OnlyOutside`).

* `Machine.Rests.onlyOutside` — so it is when the run begins;
* `Machine.OnlyOutside.step`, `Machine.OnlyOutside.run` — and so it stays.
-/

set_option autoImplicit false

namespace HostBridge

variable {φ σ : Type} {p : Platform φ σ}

namespace Machine

variable {request : CallRequest φ} {cp : Checkpoint}

/-- The only call from outside that is at work is the one that a request has made under a
checkpoint. -/
structure OnlyOutside (request : CallRequest φ) (cp : Checkpoint) (m : Machine φ σ) : Prop where
  focus : ∀ c, m.focus.call? = some c → c.origin = .outside → c.Serves request .outside cp
  control : ∀ c a callee dst, .hostCall c a callee dst ∈ m.control → c.origin = .outside →
    c.Serves request .outside cp

variable {m : Machine φ σ}

/-- Generated code has no control, and waits where it has waited before. -/
theorem OnlyOutside.away (h : OnlyOutside request cp m) {m' : Machine φ σ}
    (focus : m'.focus.call? = none)
    (waits : ∀ c a callee dst, .hostCall c a callee dst ∈ m'.control →
      .hostCall c a callee dst ∈ m.control) : OnlyOutside request cp m' := by
  refine ⟨?_, fun c a callee dst mem => h.control c a callee dst (waits _ _ _ _ mem)⟩
  intro c active
  rw [focus] at active
  cases active

/-- A call that is at work has control. -/
theorem OnlyOutside.active (h : OnlyOutside request cp m) {m' : Machine φ σ} {c : Call φ σ}
    (own : c.origin = .outside → c.Serves request .outside cp) (focus : m'.focus.call? = some c)
    (waits : ∀ c a callee dst, .hostCall c a callee dst ∈ m'.control →
      .hostCall c a callee dst ∈ m.control) : OnlyOutside request cp m' := by
  refine ⟨?_, fun c a callee dst mem => h.control c a callee dst (waits _ _ _ _ mem)⟩
  intro d active
  rw [focus] at active
  cases active
  exact own

theorem OnlyOutside.deliver (h : OnlyOutside request cp m) (origin : Origin φ σ)
    (r : Except BridgeError Outcome) :
    OnlyOutside request cp (m.popCheckpoint.deliver origin r) := by
  cases origin <;> exact h.away rfl fun _ _ _ _ => id

/-- Whatever a script calls is not called from outside. -/
theorem OnlyOutside.enterCall (h : OnlyOutside request cp m) (r : CallRequest φ) (site : Site)
    (next : Except BridgeError Outcome → Script φ σ) :
    OnlyOutside request cp (m.enterCall p r (.host site next)) := by
  unfold Machine.enterCall
  split
  · exact h.away rfl fun _ _ _ _ => id
  · split
    · exact h.away rfl fun _ _ _ _ => id
    · simp only
      split <;> exact h.active (by intro outside; cases outside) rfl fun _ _ _ _ => id

theorem OnlyOutside.stepCode (h : OnlyOutside request cp m) {c : Call φ σ} {a : Activation}
    (focus : m.focus = .code c a) : OnlyOutside request cp (m.stepCode p c a) := by
  have own : (c.turn a).call.origin = .outside → (c.turn a).call.Serves request .outside cp :=
    fun outside => (h.focus c (by rw [focus, Focus.call?]) (c.turn_origin a ▸ outside)).turn a
  unfold Machine.stepCode
  cases turn : c.turn a <;> rw [turn] at own
  case host c' b callee dst function args =>
    refine ⟨fun d none => (by cases none), fun d b' callee' dst' mem => ?_⟩
    rcases List.mem_cons.1 mem with new | old
    · cases new
      exact own
    · exact h.control d b' callee' dst' old
  all_goals exact h.active own rfl fun _ _ _ _ => id

theorem OnlyOutside.stepScript (h : OnlyOutside request cp m) (site : Site) (s : Script φ σ) :
    OnlyOutside request cp (m.stepScript p site s) := by
  cases s with
  | done answer =>
    simp only [Machine.stepScript, stepDone]
    split <;> rename_i control
    · exact h.away rfl fun _ _ _ _ => id
    · have own := h.control _ _ _ _ (control ▸ List.mem_cons_self)
      unfold resume
      split <;>
        exact h.active own rfl fun _ _ _ _ mem => control ▸ List.mem_cons_of_mem _ mem
    · exact h.away rfl fun _ _ _ _ mem => control ▸ List.mem_cons_of_mem _ mem
    · exact h.away rfl fun _ _ _ _ mem => control ▸ List.mem_cons_of_mem _ mem
  | call r next => exact h.enterCall r site next
  | capture maxDepth body next =>
    simp only [Machine.stepScript]
    split
    · exact h.away rfl fun _ _ _ _ => id
    · exact h.away rfl fun _ _ _ _ mem => (List.mem_cons.1 mem).resolve_left fun new => by cases new
  | guard body next =>
    exact h.away rfl fun _ _ _ _ mem => (List.mem_cons.1 mem).resolve_left fun new => by cases new
  | _ => exact h.away rfl fun _ _ _ _ => id

theorem OnlyOutside.stepUnwindScript (h : OnlyOutside request cp m) (site : Site) (x : Payload) :
    OnlyOutside request cp (m.stepUnwindScript site x) := by
  unfold Machine.stepUnwindScript
  split <;> rename_i control
  · exact h.away rfl fun _ _ _ _ => id
  · have own := h.control _ _ _ _ (control ▸ List.mem_cons_self)
    exact h.active own rfl fun _ _ _ _ mem => control ▸ List.mem_cons_of_mem _ mem
  · simp only
    split <;> exact h.away rfl fun _ _ _ _ mem => control ▸ List.mem_cons_of_mem _ mem
  · exact h.away rfl fun _ _ _ _ mem => control ▸ List.mem_cons_of_mem _ mem

theorem OnlyOutside.step (h : OnlyOutside request cp m) : OnlyOutside request cp (m.step p) := by
  unfold Machine.step
  cases focus : m.focus with
  | code c a => exact h.stepCode focus
  | leave c answer =>
    simp only [stepLeave]
    split
    · exact h.deliver _ _
    · rename_i a dst waiting eq
      have own : c.origin = .outside → (c.ascend waiting).Serves request .outside cp :=
        fun outside => (h.focus c (by rw [focus, Focus.call?]) outside).ascend waiting
      split <;> exact h.active own rfl fun _ _ _ _ => id
  | unwind c x =>
    simp only [stepUnwind]
    split
    · exact h.deliver _ _
    · split <;> exact h.away rfl fun _ _ _ _ => id
  | script site s => exact h.stepScript site s
  | unwindScript site x => exact h.stepUnwindScript site x
  | halted e => exact h

theorem OnlyOutside.run (h : OnlyOutside request cp m) (n : Nat) :
    OnlyOutside request cp (m.run p n) := by
  induction n with
  | zero => exact h
  | succ n ih =>
    rw [← step_run]
    exact ih.step

/-- A machine that rests makes a call from outside, and no other is at work then. -/
theorem Rests.onlyOutside (rests : m.Rests) (request : CallRequest φ) :
    OnlyOutside request (m.nextCheckpoint p) (m.enterCall p request .outside) := by
  have alone : (m.enterCall p request .outside).control = [] :=
    (enterCall_control ..).trans rests.control
  refine ⟨fun c focus _ => ?_, fun c a callee dst mem => ?_⟩
  case refine_2 =>
    rw [alone] at mem
    cases mem
  unfold Machine.enterCall at focus
  split at focus
  · cases focus
  · split at focus
    · cases focus
    · simp only at focus
      split at focus <;> cases focus <;> exact ⟨rfl, rfl, rfl⟩

end Machine

end HostBridge
