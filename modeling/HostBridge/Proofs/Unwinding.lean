import HostBridge.Proofs.Checkpoints

/-!
# Unwinding

A capture ends when something leaves its body: the answer of the body, or a payload that unwinds. A
signal to the checkpoint of the capture completes it; any other payload gives up the checkpoint too
and unwinds on. Captures are taken by scripts (`CaptureEnds`) and by calls (`CallEnds`).

* `step_raises` — a status that is raised unwinds as a signal exactly if the handle is that of the
  innermost live checkpoint, and as a panic otherwise;
* `step_flight` — all that can happen to what unwinds: no step alters or swallows it;
* `raise_resumes` — an abort resumes at the innermost checkpoint, with its status;
* `captureRun`, `enterCall_callRun` — the capture of a script, and a call, from its beginning to its
  end.
-/

set_option autoImplicit false

namespace HostBridge

variable {φ σ : Type} {p : Platform φ σ}

/-! ## Payloads -/

namespace Payload

variable {live : List Checkpoint} {cp : Checkpoint} {handle : Addr} {code : Int32Bits}

/-- Only the innermost live checkpoint may be signalled. -/
theorem raise_eq (live : List Checkpoint) (handle : Addr) (code : Int32Bits) :
    raise live handle code =
      if live.head?.map Checkpoint.handle = some handle then signal handle code
      else foreign (.wrongCheckpoint code handle) := by
  cases live with
  | nil => rfl
  | cons cp old => simp [raise]

theorem raise_eq_signal {handle' : Addr} {code' : Int32Bits}
    (h : raise live handle code = signal handle' code') :
    handle = handle' ∧ code = code' ∧ ∃ cp old, live = cp :: old ∧ cp.handle = handle' := by
  cases live with
  | nil => cases h
  | cons cp old =>
    simp only [raise] at h
    split at h
    · rename_i same
      cases h
      exact ⟨rfl, rfl, cp, old, rfl, same⟩
    · cases h

theorem codeFor?_signal (cp : Checkpoint) (code : Int32Bits) :
    (signal cp.handle code).codeFor? cp = some code :=
  if_pos rfl

/-- A checkpoint takes no payload but the signals to it. -/
theorem codeFor?_eq_some {x : Payload} (h : x.codeFor? cp = some code) :
    x = signal cp.handle code := by
  cases x with
  | signal handle code' =>
    simp only [codeFor?] at h
    split at h
    · rename_i same
      cases h
      rw [same]
    · cases h
  | foreign panic => cases h

end Payload

/-- What unwinds, if anything does. -/
def Focus.thrown? : Focus φ σ → Option Payload
  | .unwind _ x | .unwindScript _ x => some x
  | .code _ _ | .leave _ _ | .script _ _ | .halted _ => none

namespace Machine

/-! ## What is raised and what unwinds -/

/-- A status is about to be raised against a handle, by a script or by generated code. -/
inductive Raises (m : Machine φ σ) (handle : Addr) (code : Int32Bits) : Prop
  | script (site : Site) (focus : m.focus = .script site (.abortTo handle code))
  | code (c : Call φ σ) (a : Activation) (c' : Call φ σ) (focus : m.focus = .code c a)
    (turn : c.turn a = .abort c' handle code)

/-- A payload unwinds, through a script or through generated code. -/
inductive Throws (m : Machine φ σ) (x : Payload) : Prop
  | script (site : Site) (focus : m.focus = .unwindScript site x)
  | code (c : Call φ σ) (focus : m.focus = .unwind c x)

theorem throws_iff {m : Machine φ σ} {x : Payload} : m.Throws x ↔ m.focus.thrown? = some x := by
  constructor
  · intro h
    cases h with
    | script site focus => rw [focus, Focus.thrown?]
    | code c focus => rw [focus, Focus.thrown?]
  · intro h
    cases focus : m.focus with
    | unwindScript site y =>
      rw [focus] at h
      cases h
      exact .script site focus
    | unwind c y =>
      rw [focus] at h
      cases h
      exact .code c focus
    | _ =>
      rw [focus] at h
      cases h

/-- A script has ended or is being left. -/
inductive Leaves (m : Machine φ σ) : Prop
  | done (site : Site) (answer : Answer) (focus : m.focus = .script site (.done answer))
  | thrown (site : Site) (x : Payload) (focus : m.focus = .unwindScript site x)

/-- A raised status unwinds at once, and nothing else has changed. -/
theorem step_raises {m : Machine φ σ} {handle : Addr} {code : Int32Bits}
    (h : m.Raises handle code) :
    (m.step p).Throws (.raise m.live handle code) ∧ (m.step p).live = m.live := by
  cases h with
  | script site focus =>
    have next : m.step p = m.goto (.unwindScript site (.raise m.live handle code)) := by
      simp only [step, focus, stepScript]
    rw [next]
    exact ⟨.script site rfl, rfl⟩
  | code c a c' focus turn =>
    have next : m.step p = m.goto (.unwind c' (.raise m.live handle code)) := by
      simp only [step, focus, stepCode, turn, take]
    rw [next]
    exact ⟨.code c' rfl, rfl⟩

/-! ## The end of a capture -/

/-- The machine after a capture: its frame is gone and its checkpoint given up. -/
def afterCapture (m : Machine φ σ) (rest : List (Frame φ σ)) (focus : Focus φ σ) : Machine φ σ :=
  { m with control := rest, live := m.live.tail, focus := focus }

/-- How a script's capture ends, by what leaves its body: with an answer, with a status that was
raised against its own checkpoint, or not at all for the script, as what left the body goes on. -/
inductive CaptureEnds (cp : Checkpoint) (next : Except BridgeError Completion → Script φ σ)
    (rest : List (Frame φ σ)) (m m' : Machine φ σ) : Prop
  | returned (site : Site) (answer : Answer) (focus : m.focus = .script site (.done answer))
    (after : m' = m.afterCapture rest (.script site (next (.ok (.returned answer)))))
  | aborted (site : Site) (code : Int32Bits)
    (focus : m.focus = .unwindScript site (.signal cp.handle code))
    (after : m' = m.afterCapture rest (.script site (next (.ok (.aborted code)))))
  | passed (site : Site) (x : Payload) (focus : m.focus = .unwindScript site x)
    (other : ∀ code, x ≠ .signal cp.handle code)
    (after : m' = m.afterCapture rest (.unwindScript site x))

/-- How a call ends: its entry function ends, a status is raised against its own checkpoint, or
something else unwinds through it to whoever made it. -/
inductive CallEnds (c : Call φ σ) (m m' : Machine φ σ) : Prop
  | left (answer : Answer) (focus : m.focus = .leave c answer) (last : c.waiting = [])
    (after : m' = m.finishCall c .returned (statusOf answer))
  | aborted (code : Int32Bits) (focus : m.focus = .unwind c (.signal c.checkpoint.handle code))
    (after : m' = m.finishCall c .aborted (.ok code))
  | passedOut (x : Payload) (focus : m.focus = .unwind c x)
    (other : ∀ code, x ≠ .signal c.checkpoint.handle code) (origin : c.origin = .outside)
    (after : m' = m.popCheckpoint.goto (.halted (.panic x)))
  | passed (x : Payload) (site : Site) (next : Except BridgeError Outcome → Script φ σ)
    (focus : m.focus = .unwind c x) (other : ∀ code, x ≠ .signal c.checkpoint.handle code)
    (origin : c.origin = .host site next)
    (after : m' = m.popCheckpoint.goto (.unwindScript site x))

theorem step_capture {m : Machine φ σ} {cp : Checkpoint}
    {next : Except BridgeError Completion → Script φ σ} {rest : List (Frame φ σ)}
    (control : m.control = .captured cp next :: rest) (leaves : m.Leaves) :
    CaptureEnds cp next rest m (m.step p) := by
  cases leaves with
  | done site answer focus =>
    refine .returned site answer focus ?_
    simp only [step, focus, stepScript, stepDone, control]
    rfl
  | thrown site x focus =>
    have eq : m.step p = m.stepUnwindScript site x := by simp only [step, focus]
    cases own : x.codeFor? cp with
    | some code =>
      rw [Payload.codeFor?_eq_some own] at focus
      refine .aborted site code focus ?_
      simp only [eq, stepUnwindScript, control, own]
      rfl
    | none =>
      refine .passed site x focus ?_ ?_
      · intro code same
        rw [same, Payload.codeFor?_signal] at own
        cases own
      · simp only [eq, stepUnwindScript, control, own]
        rfl

theorem step_unwind {m : Machine φ σ} {c : Call φ σ} {x : Payload} (focus : m.focus = .unwind c x) :
    CallEnds c m (m.step p) := by
  have eq : m.step p = m.stepUnwind c x := by simp only [step, focus]
  cases own : x.codeFor? c.checkpoint with
  | some code =>
    rw [Payload.codeFor?_eq_some own] at focus
    refine .aborted code focus ?_
    simp only [eq, stepUnwind, own]
  | none =>
    have other : ∀ code, x ≠ .signal c.checkpoint.handle code := by
      intro code same
      rw [same, Payload.codeFor?_signal] at own
      cases own
    cases origin : c.origin with
    | outside =>
      refine .passedOut x focus other origin ?_
      simp only [eq, stepUnwind, own, origin]
    | host site next =>
      refine .passed x site next focus other origin ?_
      simp only [eq, stepUnwind, own, origin]

/-- When nothing waits for the function that has ended, the call is over. -/
theorem stepLeave_last {c : Call φ σ} (last : c.waiting = []) (m : Machine φ σ) (answer : Answer) :
    m.stepLeave c answer = m.finishCall c .returned (statusOf answer) := by
  rw [stepLeave, last]
  rfl

theorem step_leave {m : Machine φ σ} {c : Call φ σ} {answer : Answer}
    (focus : m.focus = .leave c answer) (last : c.waiting = []) : CallEnds c m (m.step p) := by
  refine .left answer focus last ?_
  simp only [step, focus, stepLeave_last last]

/-! ## What unwinds goes on unchanged -/

/-- What a step does to what unwinds. -/
inductive Flight (m : Machine φ σ) (x : Payload) (m' : Machine φ σ) : Prop
  /-- A guard catches it, and it is held as it is. -/
  | caught (site : Site) (next : Caught → Script φ σ) (rest : List (Frame φ σ))
    (focus : m.focus = .unwindScript site x) (control : m.control = .guarded next :: rest)
    (after : m' = { m with
      control := rest
      held := m.held ++ [x]
      focus := .script site (next (.caught m.held.length x.panic?)) })
  /-- It leaves a host function for the generated code that called it. -/
  | left (site : Site) (c : Call φ σ) (a : Activation) (callee : ExternId) (dst : Option ValueId)
    (rest : List (Frame φ σ)) (focus : m.focus = .unwindScript site x)
    (control : m.control = .hostCall c a callee dst :: rest)
    (after : m' = { m with control := rest, focus := .unwind c x })
  /-- It leaves the body of a script's capture. -/
  | capture (cp : Checkpoint) (next : Except BridgeError Completion → Script φ σ)
    (rest : List (Frame φ σ)) (control : m.control = .captured cp next :: rest)
    (ends : CaptureEnds cp next rest m m')
  /-- It leaves a call. -/
  | call (c : Call φ σ) (focus : m.focus = .unwind c x) (ends : CallEnds c m m')
  /-- Nothing waits, and the run ends. -/
  | nothingWaits (control : m.control = []) (after : m' = m.goto (.halted (.panic x)))

/-- **No step alters or swallows what unwinds.** It is caught and held, or goes on, or ends the
capture that it is a signal to. -/
theorem step_flight {m : Machine φ σ} {x : Payload} (h : m.Throws x) : Flight m x (m.step p) := by
  cases h with
  | code c focus => exact .call c focus (step_unwind focus)
  | script site focus =>
    have eq : m.step p = m.stepUnwindScript site x := by simp only [step, focus]
    cases control : m.control with
    | nil =>
      refine .nothingWaits control ?_
      simp only [eq, stepUnwindScript, control]
    | cons frame rest =>
      cases frame with
      | hostCall c a callee dst =>
        refine .left site c a callee dst rest focus control ?_
        simp only [eq, stepUnwindScript, control]
        rfl
      | captured cp next =>
        exact .capture cp next rest control (step_capture control (.thrown site x focus))
      | guarded next =>
        refine .caught site next rest focus control ?_
        simp only [eq, stepUnwindScript, control]
        rfl

/-! ## What becomes of an abort -/

/-- What becomes of a status that is raised against the innermost live checkpoint, by what waits for
whoever raises it: a guard catches the signal, or the capture of the checkpoint is completed. -/
inductive Resumption (cp : Checkpoint) (code : Int32Bits) (m m' : Machine φ σ) : Prop
  | caught (site : Site) (next : Caught → Script φ σ) (rest : List (Frame φ σ))
    (control : m.control = .guarded next :: rest)
    (after : m' = { m with
      control := rest
      held := m.held ++ [.signal cp.handle code]
      focus := .script site (next (.caught m.held.length none)) })
  | capture (site : Site) (next : Except BridgeError Completion → Script φ σ)
    (rest : List (Frame φ σ)) (control : m.control = .captured cp next :: rest)
    (after : m' = m.afterCapture rest (.script site (next (.ok (.aborted code)))))
  /-- A host function raises it, and the generated code that called it is left too. -/
  | host (c : Call φ σ) (a : Activation) (callee : ExternId) (dst : Option ValueId)
    (rest : List (Frame φ σ)) (control : m.control = .hostCall c a callee dst :: rest)
    (own : c.checkpoint = cp)
    (after : m' = { m with control := rest }.finishCall c .aborted (.ok code))
  /-- Generated code raises it itself. -/
  | code (c : Call φ σ) (a : Activation) (c' : Call φ σ) (focus : m.focus = .code c a)
    (turn : c.turn a = .abort c' cp.handle code) (own : c'.checkpoint = cp)
    (after : m' = m.finishCall c' .aborted (.ok code))

/-- The end of a call does not depend on what had control. -/
theorem finishCall_goto {m : Machine φ σ} (focus : Focus φ σ) (c : Call φ σ) (exit : Exit)
    (code : Except BridgeError Int32Bits) :
    (m.goto focus).finishCall c exit code = m.finishCall c exit code := by
  unfold finishCall
  cases c.origin <;> rfl

theorem step_own_signal {m : Machine φ σ} {c : Call φ σ} {code : Int32Bits} :
    (m.goto (.unwind c (.signal c.checkpoint.handle code))).step p =
      m.finishCall c .aborted (.ok code) := by
  rw [← finishCall_goto (.unwind c (.signal c.checkpoint.handle code))]
  simp only [step, goto, stepUnwind, Payload.codeFor?_signal]

/-- A script that raises a status against the innermost checkpoint is left for what waits under this
checkpoint. -/
theorem script_resumes {m : Machine φ σ} {cp : Checkpoint} {old : List Checkpoint}
    (running : m.running = cp :: old) {code : Int32Bits}
    (signal : Payload.raise m.live cp.handle code = .signal cp.handle code) {site : Site}
    (focus : m.focus = .script site (.abortTo cp.handle code)) :
    ∃ n ≤ 3, Resumption cp code m (m.run p n) := by
  have first : m.step p = m.goto (.unwindScript site (.signal cp.handle code)) := by
    simp only [step, focus, stepScript, signal]
  have two : m.run p 2 = (m.goto (.unwindScript site (.signal cp.handle code))).step p := by
    rw [run_succ, run_succ, run, first]
  cases control : m.control with
  | nil =>
    rw [Machine.running, focus, control] at running
    cases running
  | cons frame rest =>
    cases frame with
    | guarded next =>
      refine ⟨2, by omega, .caught site next rest control ?_⟩
      simp only [two, step, goto, stepUnwindScript, control]
      rfl
    | captured inner next =>
      obtain rfl : inner = cp := by
        rw [Machine.running, focus, control] at running
        exact (List.cons.inj running).1
      refine ⟨2, by omega, .capture site next rest control ?_⟩
      simp only [two, step, goto, stepUnwindScript, control, Payload.codeFor?_signal]
      rfl
    | hostCall c a callee dst =>
      have own : c.checkpoint = cp := by
        rw [Machine.running, focus, control] at running
        exact (List.cons.inj running).1
      refine ⟨3, by omega, .host c a callee dst rest control own ?_⟩
      have second : m.run p 2 =
          { m with control := rest }.goto (.unwind c (.signal cp.handle code)) := by
        simp only [two, step, goto, stepUnwindScript, control]
      rw [← step_run, second, ← own, step_own_signal]

/-- **An abort resumes at its own checkpoint**, with the status it was raised with, unless a guard
that was set up under this checkpoint catches it first. -/
theorem raise_resumes {m : Machine φ σ} (balanced : Balanced m) {cp : Checkpoint}
    {old : List Checkpoint} (live : m.live = cp :: old) {code : Int32Bits}
    (raises : m.Raises cp.handle code) : ∃ n ≤ 3, Resumption cp code m (m.run p n) := by
  have signal : Payload.raise m.live cp.handle code = .signal cp.handle code := by
    rw [live]
    exact if_pos rfl
  have running := balanced.live_eq.symm.trans live
  cases raises with
  | script site focus => exact script_resumes running signal focus
  | code c a c' focus turn =>
    have same := c.turn_checkpoint a
    rw [turn] at same
    have own : c'.checkpoint = cp := by
      rw [Machine.running, focus] at running
      exact same.trans (List.cons.inj running).1
    have first : m.step p = m.goto (.unwind c' (.signal cp.handle code)) := by
      simp only [step, focus, stepCode, turn, take, signal]
    have second : m.run p 2 = m.finishCall c' .aborted (.ok code) := by
      rw [run_succ, run_succ, run, first, ← own, step_own_signal]
    exact ⟨2, by omega, .code c a c' focus turn own second⟩

/-! ## What waits -/

/-- What a step can do to the frames: nothing, put one on top, or take the topmost off when the
script that it waits for is left. -/
inductive FrameShift (m m' : Machine φ σ) : Prop
  | keep (control : m'.control = m.control)
  | push (frame : Frame φ σ) (control : m'.control = frame :: m.control)
  | pop (frame : Frame φ σ) (control : m.control = frame :: m'.control) (leaves : m.Leaves)

theorem deliver_control (m : Machine φ σ) (origin : Origin φ σ)
    (r : Except BridgeError Outcome) : (m.deliver origin r).control = m.control := by
  cases origin <;> rfl

/-- To make a call is to give its result at once or to take a checkpoint. Nothing unwinds then, and
nothing else changes. -/
theorem enterCall_goto (p : Platform φ σ) (m : Machine φ σ) (request : CallRequest φ)
    (origin : Origin φ σ) :
    ∃ focus, focus.thrown? = none ∧
      (m.enterCall p request origin = m.goto focus ∨
        m.enterCall p request origin = (m.pushCheckpoint (m.nextCheckpoint p)).goto focus) := by
  unfold enterCall
  split
  · cases origin <;> exact ⟨_, rfl, .inl rfl⟩
  · split
    · cases origin <;> exact ⟨_, rfl, .inl rfl⟩
    · simp only
      split <;> exact ⟨_, rfl, .inr rfl⟩

theorem enterCall_control (m : Machine φ σ) (request : CallRequest φ) (origin : Origin φ σ) :
    (m.enterCall p request origin).control = m.control := by
  obtain ⟨focus, -, eq | eq⟩ := enterCall_goto p m request origin <;> rw [eq] <;> rfl

theorem stepDone_frames {m : Machine φ σ} {site : Site} {answer : Answer}
    (focus : m.focus = .script site (.done answer)) :
    FrameShift m (m.stepDone site answer) := by
  have leaves : m.Leaves := .done site answer focus
  unfold stepDone
  split <;> rename_i control
  · exact .keep rfl
  · unfold resume
    split <;> exact .pop _ control leaves
  · exact .pop _ control leaves
  · exact .pop _ control leaves

theorem stepUnwindScript_frames {m : Machine φ σ} {site : Site} {x : Payload}
    (focus : m.focus = .unwindScript site x) : FrameShift m (m.stepUnwindScript site x) := by
  have leaves : m.Leaves := .thrown site x focus
  unfold stepUnwindScript
  split <;> rename_i control
  · exact .keep rfl
  · exact .pop _ control leaves
  · simp only
    split <;> exact .pop _ control leaves
  · exact .pop _ control leaves

theorem stepScript_frames {m : Machine φ σ} {site : Site} {s : Script φ σ}
    (focus : m.focus = .script site s) : FrameShift m (m.stepScript p site s) := by
  cases s with
  | done answer => exact stepDone_frames focus
  | call request next => exact .keep (enterCall_control ..)
  | capture maxDepth body next =>
    simp only [stepScript]
    split
    · exact .keep rfl
    · exact .push _ rfl
  | guard body next => exact .push _ rfl
  | _ => exact .keep rfl

/-- A frame stays until the script that it waits for is left. -/
theorem step_frames (p : Platform φ σ) (m : Machine φ σ) : FrameShift m (m.step p) := by
  unfold step
  cases focus : m.focus with
  | code c a =>
    simp only [stepCode]
    cases c.turn a with
    | host c' b callee dst function args => exact .push _ rfl
    | _ => exact .keep rfl
  | leave c answer =>
    simp only [stepLeave]
    split
    · exact .keep (deliver_control ..)
    · split <;> exact .keep rfl
  | unwind c x =>
    simp only [stepUnwind]
    split
    · exact .keep (deliver_control ..)
    · split <;> exact .keep rfl
  | script site s => exact stepScript_frames focus
  | unwindScript site x => exact stepUnwindScript_frames focus
  | halted e => exact .keep rfl

/-- The frames from one on stay while it waits, and it waits until it is on top and the script in
control is left. -/
theorem step_below {m : Machine φ σ} {inner rest : List (Frame φ σ)} {frame : Frame φ σ}
    (eq : m.control = inner ++ frame :: rest) :
    (∃ inner', (m.step p).control = inner' ++ frame :: rest) ∨
      (inner = [] ∧ m.Leaves ∧ (m.step p).control = rest) := by
  cases step_frames p m with
  | keep control => exact .inl ⟨inner, by rw [control, eq]⟩
  | push top control => exact .inl ⟨top :: inner, by rw [control, eq, List.cons_append]⟩
  | pop top control leaves =>
    rw [eq] at control
    cases inner with
    | nil => exact .inr ⟨rfl, leaves, (List.cons.inj control).2.symm⟩
    | cons _ inner => exact .inl ⟨inner, (List.cons.inj control).2.symm⟩

/-! ## One capture from its beginning to its end -/

/-- The capture of a script that has begun above the frames `rest`, in the run that starts with it.
It is at work as long as more frames wait than before. -/
structure CaptureRun (p : Platform φ σ) (m : Machine φ σ) (cp : Checkpoint)
    (next : Except BridgeError Completion → Script φ σ) (rest : List (Frame φ σ)) : Prop where
  during : ∀ n, (∀ k ≤ n, rest.length < (m.run p k).control.length) →
    ∃ inner, (m.run p n).control = inner ++ .captured cp next :: rest
  /-- What leaves the body decides how the capture ends. -/
  ends : ∀ n, (∀ k ≤ n, rest.length < (m.run p k).control.length) →
    (m.run p (n + 1)).control.length ≤ rest.length →
    (m.run p n).control = .captured cp next :: rest ∧
      CaptureEnds cp next rest (m.run p n) (m.run p (n + 1))

theorem captureRun {m : Machine φ σ} {cp : Checkpoint}
    {next : Except BridgeError Completion → Script φ σ} {rest : List (Frame φ σ)}
    (begins : m.control = .captured cp next :: rest) : CaptureRun p m cp next rest := by
  have during : ∀ n, (∀ k ≤ n, rest.length < (m.run p k).control.length) →
      ∃ inner, (m.run p n).control = inner ++ .captured cp next :: rest := by
    intro n
    induction n with
    | zero => exact fun _ => ⟨[], begins⟩
    | succ n ih =>
      intro works
      obtain ⟨inner, eq⟩ := ih fun k le => works k (Nat.le_succ_of_le le)
      have still := works (n + 1) (Nat.le_refl _)
      rw [← step_run] at still ⊢
      rcases step_below eq with above | ⟨-, -, gone⟩
      · exact above
      · rw [gone] at still
        exact absurd still (Nat.lt_irrefl _)
  refine ⟨during, ?_⟩
  intro n works ended
  obtain ⟨inner, eq⟩ := during n works
  rw [← step_run] at ended ⊢
  rcases step_below (p := p) eq with ⟨inner', above⟩ | ⟨top, leaves, -⟩
  · rw [above, List.length_append, List.length_cons] at ended
    omega
  · rw [top] at eq
    exact ⟨eq, step_capture eq leaves⟩

end Machine

/-! ## One call from its beginning to its end -/

/-- The call was made by a request under a checkpoint, and its result goes to `origin`. -/
structure Call.Serves (c : Call φ σ) (request : CallRequest φ) (origin : Origin φ σ)
    (cp : Checkpoint) : Prop where
  request : c.request = request
  origin : c.origin = origin
  checkpoint : c.checkpoint = cp

/-- The call whose generated code has control. -/
def Focus.call? : Focus φ σ → Option (Call φ σ)
  | .code c _ | .leave c _ | .unwind c _ => some c
  | .script _ _ | .unwindScript _ _ | .halted _ => none

variable {request : CallRequest φ} {origin : Origin φ σ} {cp : Checkpoint}

theorem Call.Serves.turn {c : Call φ σ} (h : c.Serves request origin cp) (a : Activation) :
    (c.turn a).call.Serves request origin cp :=
  ⟨(c.turn_request a).trans h.request, (c.turn_origin a).trans h.origin,
    (c.turn_checkpoint a).trans h.checkpoint⟩

theorem Call.Serves.ascend {c : Call φ σ} (h : c.Serves request origin cp)
    (waiting : List (Activation × Option ValueId)) : (c.ascend waiting).Serves request origin cp :=
  ⟨h.request, h.origin, h.checkpoint⟩

namespace Machine

/-- The call is at work above the frames `rest`: its code has control, or waits for a host function
that it called. -/
inductive Serving (request : CallRequest φ) (origin : Origin φ σ) (cp : Checkpoint)
    (rest : List (Frame φ σ)) (m : Machine φ σ) : Prop
  | active (c : Call φ σ) (serves : c.Serves request origin cp) (focus : m.focus.call? = some c)
    (control : m.control = rest)
  | waits (c : Call φ σ) (serves : c.Serves request origin cp) (a : Activation) (callee : ExternId)
    (dst : Option ValueId) (inner : List (Frame φ σ))
    (control : m.control = inner ++ .hostCall c a callee dst :: rest)

variable {m m' : Machine φ σ} {rest : List (Frame φ σ)}

theorem CallEnds.running {c : Call φ σ} (h : CallEnds c m m') :
    m.running = c.checkpoint :: m'.running := by
  cases h with
  | left answer focus last after =>
    rw [after, finishCall, deliver_running, Machine.running, focus]
    rfl
  | aborted code focus after =>
    rw [after, finishCall, deliver_running, Machine.running, focus]
    rfl
  | passedOut x focus other origin after =>
    rw [after, Machine.running, focus]
    rfl
  | passed x site next focus other origin after =>
    rw [after, Machine.running, focus]
    rfl

/-- What leaves a host function goes to the generated code that called it. -/
theorem step_hostCall {c : Call φ σ} {a : Activation} {callee : ExternId} {dst : Option ValueId}
    (control : m.control = .hostCall c a callee dst :: rest) (leaves : m.Leaves) :
    (m.step p).focus.call? = some c ∧ (m.step p).control = rest := by
  cases leaves with
  | done site answer focus =>
    simp only [step, focus, stepScript, stepDone, control, resume]
    split <;> exact ⟨rfl, rfl⟩
  | thrown site x focus =>
    simp only [step, focus, stepUnwindScript, control]
    exact ⟨rfl, rfl⟩

/-- A call stays at work, or it ends. -/
theorem step_serving (p : Platform φ σ) (h : Serving request origin cp rest m) :
    Serving request origin cp rest (m.step p) ∨
      ∃ c, c.Serves request origin cp ∧ m.control = rest ∧ CallEnds c m (m.step p) := by
  cases h with
  | waits c serves a callee dst inner control =>
    rcases step_below (p := p) control with ⟨inner', above⟩ | ⟨top, leaves, -⟩
    · exact .inl (.waits c serves a callee dst inner' above)
    · rw [top] at control
      obtain ⟨focus, below⟩ := step_hostCall (p := p) control leaves
      exact .inl (.active c serves focus below)
  | active c serves active control =>
    cases focus : m.focus with
    | code c' a =>
      rw [focus] at active
      obtain rfl := Option.some.inj active
      have turn := serves.turn a
      simp only [step, focus, stepCode]
      cases took : c'.turn a with
      | host d b callee dst function args =>
        rw [took] at turn
        refine .inl (.waits d turn b callee dst [] ?_)
        rw [← control]
        rfl
      | code d b =>
        rw [took] at turn
        exact .inl (.active d turn rfl control)
      | leave d answer =>
        rw [took] at turn
        exact .inl (.active d turn rfl control)
      | abort d handle code =>
        rw [took] at turn
        exact .inl (.active d turn rfl control)
    | leave c' answer =>
      rw [focus] at active
      obtain rfl := Option.some.inj active
      cases waiting : c'.waiting with
      | nil => exact .inr ⟨c', serves, control, step_leave focus waiting⟩
      | cons first others =>
        simp only [step, focus, stepLeave, waiting]
        split <;> exact .inl (.active _ (serves.ascend others) rfl control)
    | unwind c' x =>
      rw [focus] at active
      obtain rfl := Option.some.inj active
      exact .inr ⟨c', serves, control, step_unwind focus⟩
    | script site s =>
      rw [focus] at active
      cases active
    | unwindScript site x =>
      rw [focus] at active
      cases active
    | halted e =>
      rw [focus] at active
      cases active

/-- A call that has begun above the frames `rest`, in the run that starts with it. It is at work as
long as its checkpoint is among those of the running captures. -/
structure CallRun (p : Platform φ σ) (m : Machine φ σ) (request : CallRequest φ)
    (origin : Origin φ σ) (cp : Checkpoint) (rest : List (Frame φ σ)) : Prop where
  during : ∀ n, (∀ k ≤ n, cp ∈ (m.run p k).running) →
    Serving request origin cp rest (m.run p n)
  ends : ∀ n, (∀ k ≤ n, cp ∈ (m.run p k).running) → cp ∉ (m.run p (n + 1)).running →
    ∃ c, c.Serves request origin cp ∧ (m.run p n).control = rest ∧
      CallEnds c (m.run p n) (m.run p (n + 1))

theorem Serving.running (h : Serving request origin cp rest m) : cp ∈ m.running := by
  cases h with
  | active c serves active control =>
    refine List.mem_append_left _ ?_
    cases focus : m.focus <;> rw [focus] at active <;> cases active <;>
      exact List.mem_singleton.2 serves.checkpoint.symm
  | waits c serves a callee dst inner control =>
    refine List.mem_append_right _ (List.mem_flatMap.2 ⟨.hostCall c a callee dst, ?_, ?_⟩)
    · rw [control]
      exact List.mem_append_right _ List.mem_cons_self
    · exact List.mem_singleton.2 serves.checkpoint.symm

theorem Serving.callRun (balanced : Balanced m) (begins : Serving request origin cp rest m) :
    CallRun p m request origin cp rest := by
  have during : ∀ n, (∀ k ≤ n, cp ∈ (m.run p k).running) →
      Serving request origin cp rest (m.run p n) := by
    intro n
    induction n with
    | zero => exact fun _ => begins
    | succ n ih =>
      intro works
      have still := works (n + 1) (Nat.le_refl _)
      rw [← step_run] at still ⊢
      rcases step_serving p (ih fun k le => works k (Nat.le_succ_of_le le)) with goes | ends
      · exact goes
      · -- its checkpoint was the innermost, so it is not among the others
        obtain ⟨c, serves, -, ends⟩ := ends
        have ids := (balanced.run p n).ids
        rw [(balanced.run p n).live_eq, ends.running, serves.checkpoint] at ids
        exact absurd (List.rel_of_pairwise_cons ids still) (Nat.lt_irrefl _)
  refine ⟨during, ?_⟩
  intro n works ended
  rw [← step_run] at ended ⊢
  rcases step_serving p (during n works) with goes | ends
  · exact absurd goes.running ended
  · exact ends

/-- A call that is not refused is at work from then on until it ends. -/
theorem enterCall_callRun (balanced : Balanced m) (host : m.focus.checkpoints = [])
    {ready : FuncId × List Binding} (prepared : request.prepare = .ok ready)
    (room : m.live.length < request.config.maxCallDepth) (origin : Origin φ σ) :
    CallRun p (m.enterCall p request origin) request origin (m.nextCheckpoint p) m.control := by
  refine Serving.callRun (balanced.shift (enterCall_shift host request origin)) ?_
  have control := enterCall_control (p := p) m request origin
  simp only [enterCall, prepared, if_neg (Nat.not_le.2 room)] at control ⊢
  split at control
  · exact .active _ ⟨rfl, rfl, rfl⟩ rfl control
  · exact .active _ ⟨rfl, rfl, rfl⟩ rfl control

end Machine

end HostBridge
