import HostBridge.Proofs.Reach

/-!
# Invariants of calls

Several calls can be at work at once: generated code calls a host function, which calls another
module, and so on. Each call has a state of its own, and only its own code changes it. A
`CallInvariant` says what is true of a single call in each of its four situations; if the call's own
moves preserve it (`CallInvariant.Stable`), then it holds of every call at work in every reachable
state (`CallInvariant.holds`).

What comes into a call from outside are the answers of the host functions it has called. The
invariant may restrict those (`accepts`), and then has to know it of the functions:
`Script.Answers` looks at every answer in which a script can end.
-/

set_option autoImplicit false

namespace HostBridge

variable {φ σ : Type} {p : Platform φ σ}

/-- Whatever a script is told on its way, the answers in which it ends satisfy a predicate. -/
def Script.Answers (P : Answer → Prop) : Script φ σ → Prop
  | .done answer => P answer
  | .panic _ | .abortTo _ _ | .rethrow _ => True
  | .memory next => ∀ memory, (next memory).Answers P
  | .setMemory _ next => next.Answers P
  | .environment next => ∀ env, (next env).Answers P
  | .config next => ∀ config, (next config).Answers P
  | .depth next => ∀ n, (next n).Answers P
  | .shared next => ∀ state, (next state).Answers P
  | .setShared _ next => next.Answers P
  | .capture _ _ next => ∀ r, (next r).Answers P
  | .guard _ next => ∀ r, (next r).Answers P
  | .call _ next => ∀ r, (next r).Answers P

theorem Script.answers_of_forall {P : Answer → Prop} (h : ∀ answer, P answer) (s : Script φ σ) :
    s.Answers P := by
  induction s with
  | done answer => exact h answer
  | panic | abortTo | rethrow => exact trivial
  | setMemory _ _ ih | setShared _ _ ih => exact ih
  | memory _ ih | environment _ ih | config _ ih | depth _ ih | shared _ ih => exact fun x => ih x
  | capture _ _ _ _ ih | guard _ _ _ ih | call _ _ ih => exact fun r => ih r

theorem Script.Answers.mono {P Q : Answer → Prop} {s : Script φ σ} (h : s.Answers P)
    (weaker : ∀ answer, P answer → Q answer) : s.Answers Q := by
  induction s with
  | done answer => exact weaker answer h
  | panic | abortTo | rethrow => exact trivial
  | setMemory _ _ ih | setShared _ _ ih => exact ih h
  | memory _ ih | environment _ ih | config _ ih | depth _ ih | shared _ ih =>
    exact fun x => ih x (h x)
  | capture _ _ _ _ ih | guard _ _ _ ih | call _ _ ih => exact fun r => ih r (h r)

/-- What is true of a call in each situation in which it can be. -/
structure CallInvariant (φ σ : Type) where
  /-- Its code has control, in the given activation. -/
  code : Call φ σ → Activation → Prop
  /-- One of its functions has just ended. -/
  leave : Call φ σ → Answer → Prop
  /-- It is being left at once. -/
  unwind : Call φ σ → Prop
  /-- It waits for a host function. -/
  awaits : Call φ σ → Activation → ExternId → Option ValueId → Prop
  /-- The answers that the host function behind an extern may give it. -/
  accepts : Call φ σ → ExternId → Answer → Prop

namespace CallInvariant

variable (I : CallInvariant φ σ)

/-- The invariant after a turn of generated code. -/
def AfterTurn (p : Platform φ σ) : Turn φ σ → Prop
  | .code c a => I.code c a
  | .leave c answer => I.leave c answer
  | .abort c _ _ => I.unwind c
  | .host c a callee dst function args =>
    I.awaits c a callee dst ∧ (p.behaviour function args).Answers (I.accepts c callee)

/-- The moves of a call preserve the invariant. -/
structure Stable (p : Platform φ σ) : Prop where
  start : ∀ (request : CallRequest φ) entry bindings cp origin,
    request.prepare = .ok (entry, bindings) →
    let c := Machine.newCall p request bindings cp origin
    (∀ a, c.activate entry (Machine.entryArgs c) = .ok a → I.code (c.descend []) a) ∧
    (∀ e, I.leave c (.error e))
  turn : ∀ c a, I.code c a → I.AfterTurn p (c.turn a)
  back : ∀ c v a dst waiting, I.leave c (.ok v) → c.waiting = (a, dst) :: waiting →
    I.code (c.ascend waiting) (a.receive dst v)
  fail : ∀ c e a dst waiting, I.leave c (.error e) → c.waiting = (a, dst) :: waiting →
    I.leave (c.ascend waiting) (.error e)
  resume : ∀ c a callee dst v, I.awaits c a callee dst → I.accepts c callee (.ok v) →
    (dst.isSome → v.isSome) → I.code c (a.receive dst v)
  resumeFail : ∀ c a callee dst e, I.awaits c a callee dst → I.leave c (.error e)
  unwind : ∀ c a callee dst, I.awaits c a callee dst → I.unwind c

/-- What the script in control may answer, given the frames that wait for it. -/
def accepted : List (Frame φ σ) → Answer → Prop
  | .hostCall c _ callee _ :: _ => I.accepts c callee
  | .captured _ _ :: _ | .guarded _ :: _ | [] => fun _ => True

/-- The script that goes on when a call ends keeps to what it may answer. -/
def OriginHolds (control : List (Frame φ σ)) : Origin φ σ → Prop
  | .outside => True
  | .host _ next => ∀ r, (next r).Answers (I.accepted control)

/-- The invariant in all frames that wait. -/
def ControlHolds : List (Frame φ σ) → Prop
  | [] => True
  | .hostCall c a callee dst :: control =>
    I.awaits c a callee dst ∧ I.OriginHolds control c.origin ∧ ControlHolds control
  | .captured _ next :: control =>
    (∀ r, (next r).Answers (I.accepted control)) ∧ ControlHolds control
  | .guarded next :: control =>
    (∀ r, (next r).Answers (I.accepted control)) ∧ ControlHolds control

/-- The invariant in what has control. -/
def FocusHolds (control : List (Frame φ σ)) : Focus φ σ → Prop
  | .code c a => I.code c a ∧ I.OriginHolds control c.origin
  | .leave c answer => I.leave c answer ∧ I.OriginHolds control c.origin
  | .unwind c _ => I.unwind c ∧ I.OriginHolds control c.origin
  | .script _ s => s.Answers (I.accepted control)
  | .unwindScript _ _ | .halted _ => True

/-- The invariant in every call at work. -/
structure Holds (m : Machine φ σ) : Prop where
  focus : I.FocusHolds m.control m.focus
  control : I.ControlHolds m.control

variable {I}

/-! ## Steps -/

theorem Holds.deliver {m : Machine φ σ} (control : I.ControlHolds m.control) {origin : Origin φ σ}
    (h : I.OriginHolds m.control origin) (r : Except BridgeError Outcome) :
    I.Holds (m.deliver origin r) := by
  cases origin with
  | outside => exact ⟨trivial, control⟩
  | host site next => exact ⟨h r, control⟩

theorem Holds.enterCall (stable : I.Stable p) {m : Machine φ σ}
    (control : I.ControlHolds m.control) (request : CallRequest φ) {origin : Origin φ σ}
    (h : I.OriginHolds m.control origin) : I.Holds (m.enterCall p request origin) := by
  unfold Machine.enterCall
  split
  · exact .deliver control h _
  · rename_i entry bindings prepared
    split
    · exact .deliver control h _
    · obtain ⟨begins, fails⟩ :=
        stable.start request entry bindings (m.nextCheckpoint p) origin prepared
      simp only
      split
      · rename_i a activate
        exact ⟨⟨begins a activate, h⟩, control⟩
      · exact ⟨⟨fails _, h⟩, control⟩

theorem Holds.stepCode (stable : I.Stable p) {m : Machine φ σ} {c : Call φ σ} {a : Activation}
    (control : I.ControlHolds m.control) (code : I.code c a)
    (h : I.OriginHolds m.control c.origin) : I.Holds (m.stepCode p c a) := by
  have after := stable.turn c a code
  rw [← c.turn_origin a] at h
  unfold Machine.stepCode
  cases turn : c.turn a with
  | host c' a' callee dst function args =>
    rw [turn] at after h
    exact ⟨after.2, after.1, h, control⟩
  | _ =>
    rw [turn] at after h
    exact ⟨⟨after, h⟩, control⟩

/-- The call that ends gives its result to whoever made it. -/
theorem Holds.finishCall {m : Machine φ σ} (control : I.ControlHolds m.control) {c : Call φ σ}
    (h : I.OriginHolds m.control c.origin) (exit : Exit) (code : Except BridgeError Int32Bits) :
    I.Holds (m.finishCall c exit code) :=
  Holds.deliver (show I.ControlHolds m.popCheckpoint.control from control) h _

theorem Holds.stepLeave (stable : I.Stable p) {m : Machine φ σ} {c : Call φ σ} {answer : Answer}
    (control : I.ControlHolds m.control) (leave : I.leave c answer)
    (h : I.OriginHolds m.control c.origin) : I.Holds (m.stepLeave c answer) := by
  unfold Machine.stepLeave
  split
  · exact .finishCall control h _ _
  · rename_i a dst waiting eq
    simp only
    split
    · exact ⟨⟨stable.fail c _ a dst waiting leave eq, h⟩, control⟩
    · exact ⟨⟨stable.back c _ a dst waiting leave eq, h⟩, control⟩

theorem Holds.stepUnwind {m : Machine φ σ} {c : Call φ σ} (control : I.ControlHolds m.control)
    (h : I.OriginHolds m.control c.origin) (x : Payload) : I.Holds (m.stepUnwind c x) := by
  unfold Machine.stepUnwind
  split
  · exact .finishCall control h _ _
  · split <;> exact ⟨trivial, control⟩

theorem Holds.stepDone (stable : I.Stable p) {m : Machine φ σ}
    (control : I.ControlHolds m.control) {answer : Answer}
    (h : I.accepted m.control answer) (site : Site) : I.Holds (m.stepDone site answer) := by
  unfold Machine.stepDone
  split <;> rename_i eq <;> rw [eq] at control h
  · exact ⟨trivial, by rw [Machine.goto, eq]; trivial⟩
  · obtain ⟨awaits, origin, rest⟩ := control
    unfold Machine.resume
    split
    · exact ⟨⟨stable.resumeFail _ _ _ _ _ awaits, origin⟩, rest⟩
    · exact ⟨⟨stable.resumeFail _ _ _ _ _ awaits, origin⟩, rest⟩
    · rename_i dst v given
      refine ⟨⟨stable.resume _ _ _ _ _ awaits h fun wanted => ?_, origin⟩, rest⟩
      obtain ⟨d, rfl⟩ := Option.isSome_iff_exists.1 wanted
      exact Option.isSome_iff_ne_none.2 (given d rfl)
  · exact ⟨control.1 _, control.2⟩
  · exact ⟨control.1 _, control.2⟩

theorem Holds.stepUnwindScript (stable : I.Stable p) {m : Machine φ σ}
    (control : I.ControlHolds m.control) (site : Site) (x : Payload) :
    I.Holds (m.stepUnwindScript site x) := by
  unfold Machine.stepUnwindScript
  split <;> rename_i eq <;> rw [eq] at control
  · exact ⟨trivial, by rw [Machine.goto, eq]; trivial⟩
  · exact ⟨⟨stable.unwind _ _ _ _ control.1, control.2.1⟩, control.2.2⟩
  · simp only
    split
    · exact ⟨control.1 _, control.2⟩
    · exact ⟨trivial, control.2⟩
  · exact ⟨control.1 _, control.2⟩

theorem Holds.stepScript (stable : I.Stable p) {m : Machine φ σ}
    (control : I.ControlHolds m.control) {s : Script φ σ} (h : s.Answers (I.accepted m.control))
    (site : Site) : I.Holds (m.stepScript p site s) := by
  cases s with
  | done answer => exact .stepDone stable control h site
  | panic | abortTo | rethrow => exact ⟨trivial, control⟩
  | memory | environment | config | depth | shared => exact ⟨h _, control⟩
  | setMemory | setShared => exact ⟨h, control⟩
  | capture maxDepth body next =>
    simp only [Machine.stepScript]
    split
    · exact ⟨h _, control⟩
    · exact ⟨Script.answers_of_forall (fun _ => trivial) _, h, control⟩
  | guard body next => exact ⟨Script.answers_of_forall (fun _ => trivial) _, h, control⟩
  | call request next => exact .enterCall stable control request h

theorem Holds.step (stable : I.Stable p) {m : Machine φ σ} (h : I.Holds m) :
    I.Holds (m.step p) := by
  obtain ⟨focus, control⟩ := h
  unfold Machine.step
  cases eq : m.focus with
  | code c a =>
    rw [eq] at focus
    exact .stepCode stable control focus.1 focus.2
  | leave c answer =>
    rw [eq] at focus
    exact .stepLeave stable control focus.1 focus.2
  | unwind c x =>
    rw [eq] at focus
    exact .stepUnwind control focus.2 x
  | script site s =>
    rw [eq] at focus
    exact .stepScript stable control focus site
  | unwindScript site x => exact .stepUnwindScript stable control site x
  | halted e => exact ⟨by rw [eq]; trivial, control⟩

/-- An invariant that the moves of a call preserve holds of every call at work in every reachable
state. -/
theorem holds (stable : I.Stable p) {m : Machine φ σ} (reach : m.Reachable p) : I.Holds m := by
  induction reach with
  | idle memory shared => exact ⟨trivial, trivial⟩
  | call request _ _ ih => exact .enterCall stable ih.control request trivial
  | @script m site s _ rests ih =>
    refine ⟨?_, ih.control⟩
    rw [Machine.goto, rests.control]
    exact Script.answers_of_forall (fun _ => trivial) s
  | step _ ih => exact ih.step stable

/-! ## Calls at work -/

theorem ControlHolds.work {R : Call φ σ → List Activation → Prop}
    (awaits : ∀ c a callee dst, I.awaits c a callee dst → R c (a :: c.waiting.map Prod.fst)) :
    ∀ {control : List (Frame φ σ)}, I.ControlHolds control →
      ∀ w ∈ control.flatMap Frame.work, R w.1 w.2
  | [], _, w, mem => by cases mem
  | .hostCall c a callee dst :: control, h, w, mem => by
    rcases List.mem_cons.1 mem with rfl | mem
    · exact awaits c a callee dst h.1
    · exact ControlHolds.work awaits h.2.2 w mem
  | .captured _ _ :: control, h, w, mem => ControlHolds.work awaits h.2 w mem
  | .guarded _ :: control, h, w, mem => ControlHolds.work awaits h.2 w mem

/-- What the invariant says of the activations of a call holds of all calls at work. -/
theorem Holds.work (R : Call φ σ → List Activation → Prop)
    (code : ∀ c a, I.code c a → R c (a :: c.waiting.map Prod.fst))
    (leave : ∀ c answer, I.leave c answer → R c (c.waiting.map Prod.fst))
    (unwind : ∀ c, I.unwind c → R c (c.waiting.map Prod.fst))
    (awaits : ∀ c a callee dst, I.awaits c a callee dst → R c (a :: c.waiting.map Prod.fst))
    {m : Machine φ σ} (h : I.Holds m) : ∀ w ∈ m.work, R w.1 w.2 := by
  intro w mem
  obtain ⟨focus, control⟩ := h
  rcases List.mem_append.1 mem with mem | mem
  · cases eq : m.focus with
    | code c a =>
      rw [eq] at focus mem
      rw [List.mem_singleton.1 mem]
      exact code c a focus.1
    | leave c answer =>
      rw [eq] at focus mem
      rw [List.mem_singleton.1 mem]
      exact leave c answer focus.1
    | unwind c x =>
      rw [eq] at focus mem
      rw [List.mem_singleton.1 mem]
      exact unwind c focus.1
    | script _ _ | unwindScript _ _ | halted _ =>
      rw [eq] at mem
      cases mem
  · exact control.work awaits w mem

end CallInvariant

end HostBridge
