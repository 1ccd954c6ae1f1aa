import HostBridge.Proofs.Reach

/-!
# The stack of live checkpoints

What is being done under which checkpoint can be read off the control of the machine: a call at
work holds the checkpoint it took, and so does the frame of a script that took one. These are the
`running` captures. The machine keeps the stack of live checkpoints beside that, by pushing and
popping; the two always agree, however a capture is left.

* `step_shift` — all that a step can do to the checkpoints: nothing, take the next one, or give up
  the innermost one together with its capture;
* `Reachable.balanced` — in every reachable state the live checkpoints are those of the running
  captures, their numbers grow inwards, and each knows how many are outside it;
* `capture_balanced` — a capture is refused exactly when too many checkpoints are live, and then
  nothing has happened; otherwise its checkpoint lies on the old stack for as long as it runs, and
  when it ends, in whatever way, the old stack is back.
-/

set_option autoImplicit false

namespace HostBridge

variable {φ σ : Type} {p : Platform φ σ}

/-- The checkpoint of the call that has control, if it is generated code that has it. -/
def Focus.checkpoints : Focus φ σ → List Checkpoint
  | .code c _ | .leave c _ | .unwind c _ => [c.checkpoint]
  | .script _ _ | .unwindScript _ _ | .halted _ => []

/-- The checkpoint under which what waits in a frame goes on. -/
def Frame.checkpoints : Frame φ σ → List Checkpoint
  | .hostCall c _ _ _ => [c.checkpoint]
  | .captured cp _ => [cp]
  | .guarded _ => []

namespace Machine

/-- The checkpoints of the captures that have not ended, innermost first. -/
def running (m : Machine φ σ) : List Checkpoint :=
  m.focus.checkpoints ++ m.control.flatMap Frame.checkpoints

/-- What a step can do to the checkpoints. -/
inductive Shift (p : Platform φ σ) (m m' : Machine φ σ) : Prop
  | keep (live : m'.live = m.live) (running : m'.running = m.running)
    (nextId : m'.nextId = m.nextId)
  /-- A capture begins. -/
  | push (live : m'.live = m.nextCheckpoint p :: m.live)
    (running : m'.running = m.nextCheckpoint p :: m.running) (nextId : m'.nextId = m.nextId + 1)
  /-- The innermost capture ends. -/
  | pop (cp : Checkpoint) (live : m'.live = m.live.tail) (running : m.running = cp :: m'.running)
    (nextId : m'.nextId = m.nextId)

/-! ## What a step does -/

/-- While no generated code has control, the frames hold all checkpoints. -/
theorem running_of_host {m : Machine φ σ} (h : m.focus.checkpoints = []) :
    m.running = m.control.flatMap Frame.checkpoints := by
  rw [running, h, List.nil_append]

theorem Rests.checkpoints {m : Machine φ σ} (h : m.Rests) : m.focus.checkpoints = [] := by
  obtain ⟨e, halted⟩ := h.halted
  rw [halted]
  rfl

theorem deliver_live (m : Machine φ σ) (origin : Origin φ σ) (r : Except BridgeError Outcome) :
    (m.deliver origin r).live = m.live := by
  cases origin <;> rfl

theorem deliver_nextId (m : Machine φ σ) (origin : Origin φ σ) (r : Except BridgeError Outcome) :
    (m.deliver origin r).nextId = m.nextId := by
  cases origin <;> rfl

theorem deliver_running (m : Machine φ σ) (origin : Origin φ σ) (r : Except BridgeError Outcome) :
    (m.deliver origin r).running = m.control.flatMap Frame.checkpoints := by
  cases origin <;> rfl

/-- A call that is refused leaves the checkpoints alone. -/
theorem deliver_shift {m : Machine φ σ} (h : m.focus.checkpoints = []) (origin : Origin φ σ)
    (r : Except BridgeError Outcome) : Shift p m (m.deliver origin r) := by
  refine .keep (deliver_live ..) ?_ (deliver_nextId ..)
  rw [deliver_running, running_of_host h]

/-- A call begins with a capture, unless it is refused. -/
theorem enterCall_shift {m : Machine φ σ} (h : m.focus.checkpoints = []) (request : CallRequest φ)
    (origin : Origin φ σ) : Shift p m (m.enterCall p request origin) := by
  unfold enterCall
  split
  · exact deliver_shift h ..
  · split
    · exact deliver_shift h ..
    · simp only
      split <;> exact .push rfl (by rw [running_of_host h]; rfl) rfl

/-- The call that ends has held the innermost checkpoint. -/
theorem finishCall_shift {m : Machine φ σ} {c : Call φ σ}
    (h : m.focus.checkpoints = [c.checkpoint]) (exit : Exit)
    (code : Except BridgeError Int32Bits) : Shift p m (m.finishCall c exit code) := by
  refine .pop c.checkpoint (deliver_live ..) ?_ (deliver_nextId ..)
  rw [finishCall, deliver_running, running, h]
  rfl

theorem stepCode_shift {m : Machine φ σ} {c : Call φ σ} {a : Activation}
    (h : m.focus = .code c a) : Shift p m (m.stepCode p c a) := by
  have same := c.turn_checkpoint a
  unfold stepCode
  cases turn : c.turn a <;> rw [turn] at same <;> refine .keep rfl ?_ rfl <;>
    simp [running, h, take, goto, Focus.checkpoints, Frame.checkpoints, ← same, Turn.call]

theorem stepLeave_shift {m : Machine φ σ} {c : Call φ σ} {answer : Answer}
    (h : m.focus = .leave c answer) : Shift p m (m.stepLeave c answer) := by
  unfold stepLeave
  split
  · exact finishCall_shift (by rw [h]; rfl) ..
  · simp only
    split <;> exact .keep rfl (by rw [running, running, h]; rfl) rfl

theorem stepUnwind_shift {m : Machine φ σ} {c : Call φ σ} {x : Payload}
    (h : m.focus = .unwind c x) : Shift p m (m.stepUnwind c x) := by
  unfold stepUnwind
  split
  · exact finishCall_shift (by rw [h]; rfl) ..
  · split <;> exact .pop c.checkpoint rfl (by rw [running, h]; rfl) rfl

theorem stepDone_shift {m : Machine φ σ} (h : m.focus.checkpoints = []) (site : Site)
    (answer : Answer) : Shift p m (m.stepDone site answer) := by
  have before := running_of_host h
  unfold stepDone
  split <;> rename_i control <;> rw [control] at before
  · exact .keep rfl (by rw [before, running, goto, control]; rfl) rfl
  · unfold resume
    split <;> exact .keep rfl before.symm rfl
  · exact .pop _ rfl before rfl
  · exact .keep rfl before.symm rfl

theorem stepUnwindScript_shift {m : Machine φ σ} (h : m.focus.checkpoints = []) (site : Site)
    (x : Payload) : Shift p m (m.stepUnwindScript site x) := by
  have before := running_of_host h
  unfold stepUnwindScript
  split <;> rename_i control <;> rw [control] at before
  · exact .keep rfl (by rw [before, running, goto, control]; rfl) rfl
  · exact .keep rfl before.symm rfl
  · simp only
    split <;> exact .pop _ rfl before rfl
  · exact .keep rfl before.symm rfl

theorem stepScript_shift {m : Machine φ σ} (h : m.focus.checkpoints = []) (site : Site)
    (s : Script φ σ) : Shift p m (m.stepScript p site s) := by
  have before := running_of_host h
  cases s with
  | done answer => exact stepDone_shift h site answer
  | call request next => exact enterCall_shift h request _
  | capture maxDepth body next =>
    simp only [stepScript]
    split
    · exact .keep rfl before.symm rfl
    · exact .push rfl (by rw [before]; rfl) rfl
  | _ => exact .keep rfl before.symm rfl

/-- Whatever has control, a step moves the stack of live checkpoints and the running captures
together. -/
theorem step_shift (p : Platform φ σ) (m : Machine φ σ) : Shift p m (m.step p) := by
  unfold step
  cases h : m.focus with
  | code c a => exact stepCode_shift h
  | leave c answer => exact stepLeave_shift h
  | unwind c x => exact stepUnwind_shift h
  | script site s => exact stepScript_shift (by rw [h]; rfl) site s
  | unwindScript site x => exact stepUnwindScript_shift (by rw [h]; rfl) site x
  | halted e => exact .keep rfl rfl rfl

/-! ## The invariant -/

/-- The stack of live checkpoints as it must be. -/
structure Balanced (m : Machine φ σ) : Prop where
  live_eq : m.live = m.running
  /-- Numbers grow inwards. -/
  ids : m.live.Pairwise fun inner outer => outer.id < inner.id
  fresh : ∀ cp ∈ m.live, cp.id < m.nextId
  /-- A checkpoint knows how many are outside it. -/
  depth : ∀ inner cp outer, m.live = inner ++ cp :: outer → cp.depth = outer.length

theorem Balanced.idle (memory : Bytes) (shared : σ) :
    Balanced (idle memory shared : Machine φ σ) where
  live_eq := rfl
  ids := .nil
  fresh := fun cp h => by cases h
  depth := fun inner cp outer h => by cases inner <;> cases h

theorem Balanced.shift {m m' : Machine φ σ} (h : Balanced m) (s : Shift p m m') :
    Balanced m' := by
  cases s with
  | keep live running nextId =>
    refine ⟨by rw [live, running, h.live_eq], by rw [live]; exact h.ids, ?_, ?_⟩
    · rw [live, nextId]
      exact h.fresh
    · rw [live]
      exact h.depth
  | push live running nextId =>
    refine ⟨by rw [live, running, h.live_eq], ?_, ?_, ?_⟩
    · rw [live]
      exact .cons h.fresh h.ids
    · intro cp mem
      rw [live] at mem
      rw [nextId]
      rcases List.mem_cons.1 mem with rfl | mem
      · exact Nat.lt_succ_self _
      · exact Nat.lt_succ_of_lt (h.fresh cp mem)
    · intro inner cp outer eq
      rw [live] at eq
      cases inner with
      | nil =>
        obtain ⟨rfl, rfl⟩ := List.cons.inj eq
        rfl
      | cons x inner => exact h.depth inner cp outer (List.cons.inj eq).2
  | pop cp live running nextId =>
    have whole : m.live = cp :: m'.running := by rw [h.live_eq, running]
    have rest : m'.live = m'.running := by rw [live, whole, List.tail_cons]
    have ids := h.ids
    rw [whole] at ids
    refine ⟨rest, ?_, ?_, ?_⟩
    · rw [rest]
      exact ids.tail
    · intro x mem
      rw [rest] at mem
      rw [nextId]
      exact h.fresh x (by rw [whole]; exact List.mem_cons_of_mem _ mem)
    · intro inner x outer eq
      rw [rest] at eq
      exact h.depth (cp :: inner) x outer (by rw [whole, eq, List.cons_append])

theorem Balanced.run (p : Platform φ σ) {m : Machine φ σ} (h : Balanced m) (n : Nat) :
    Balanced (m.run p n) := by
  induction n with
  | zero => exact h
  | succ n ih =>
    rw [← step_run]
    exact ih.shift (step_shift p _)

theorem Reachable.balanced {m : Machine φ σ} (h : Reachable p m) : Balanced m := by
  induction h with
  | idle memory shared => exact .idle memory shared
  | call request _ rests ih => exact ih.shift (enterCall_shift rests.checkpoints request _)
  | @script m site s _ rests ih =>
    have before := running_of_host rests.checkpoints
    have same : Shift p m (m.goto (.script site s)) := .keep rfl before.symm rfl
    exact ih.shift same
  | step _ ih => exact ih.shift (step_shift p _)

/-! ## One capture from its beginning to its end -/

/-- A capture that has begun on the stack `old`, in the run that starts with it: it runs as long as
its checkpoint is among those of the running captures. -/
structure Span (p : Platform φ σ) (m : Machine φ σ) (cp : Checkpoint) (old : List Checkpoint) :
    Prop where
  begins : m.live = cp :: old
  depth : cp.depth = old.length
  /-- While it runs, its checkpoint lies on the old stack, under those of captures inside it. -/
  during : ∀ n, (∀ k ≤ n, cp ∈ (m.run p k).running) →
    ∃ inner, (m.run p n).live = inner ++ cp :: old
  /-- While it is itself the innermost capture, nothing else is on the old stack. -/
  between : ∀ n, (∀ k ≤ n, cp ∈ (m.run p k).running) → (m.run p n).running.head? = some cp →
    (m.run p n).live = cp :: old
  /-- When it ends, the old stack is back. -/
  ends : ∀ n, (∀ k < n, cp ∈ (m.run p k).running) → cp ∉ (m.run p n).running →
    (m.run p n).live = old

/-- A step cannot reach below the innermost checkpoint. -/
theorem step_above {m : Machine φ σ} {inner old : List Checkpoint} {cp : Checkpoint}
    (eq : m.live = inner ++ cp :: old) :
    (∃ inner', (m.step p).live = inner' ++ cp :: old) ∨ (m.step p).live = old := by
  cases step_shift p m with
  | keep live => exact .inl ⟨inner, by rw [live, eq]⟩
  | push live => exact .inl ⟨m.nextCheckpoint p :: inner, by rw [live, eq, List.cons_append]⟩
  | pop _ live =>
    cases inner with
    | nil => exact .inr (by rw [live, eq, List.nil_append, List.tail_cons])
    | cons x inner => exact .inl ⟨inner, by rw [live, eq, List.cons_append, List.tail_cons]⟩

theorem Balanced.span {m : Machine φ σ} (h : Balanced m) {cp : Checkpoint}
    {old : List Checkpoint} (begins : m.live = cp :: old) : Span p m cp old := by
  have outside : cp ∉ old := by
    have ids := h.ids
    rw [begins] at ids
    exact fun mem => Nat.lt_irrefl _ (List.rel_of_pairwise_cons ids mem)
  -- the induction is on the steps made; a step that takes `cp` off ends the capture
  have during : ∀ n, (∀ k ≤ n, cp ∈ (m.run p k).running) →
      ∃ inner, (m.run p n).live = inner ++ cp :: old := by
    intro n
    induction n with
    | zero => exact fun _ => ⟨[], begins⟩
    | succ n ih =>
      intro runs
      obtain ⟨inner, eq⟩ := ih fun k le => runs k (Nat.le_succ_of_le le)
      have still := runs (n + 1) (Nat.le_refl _)
      rw [← (h.run p (n + 1)).live_eq] at still
      rw [← step_run] at still ⊢
      rcases step_above eq with above | back
      · exact above
      · exact absurd (back ▸ still) outside
  refine ⟨begins, h.depth [] cp old begins, during, ?_, ?_⟩
  · intro n runs innermost
    obtain ⟨inner, eq⟩ := during n runs
    rw [← (h.run p n).live_eq] at innermost
    cases inner with
    | nil => exact eq
    | cons x inner =>
      rw [eq, List.cons_append, List.head?_cons, Option.some.injEq] at innermost
      have ids := (h.run p n).ids
      rw [eq, innermost, List.cons_append] at ids
      exact absurd (List.rel_of_pairwise_cons ids (by simp)) (Nat.lt_irrefl _)
  · intro n runs ended
    cases n with
    | zero => exact absurd (by rw [Machine.run, ← h.live_eq, begins]; simp) ended
    | succ n =>
      obtain ⟨inner, eq⟩ := during n fun k le => runs k (Nat.lt_succ_of_le le)
      rw [← (h.run p (n + 1)).live_eq] at ended
      rw [← step_run] at ended ⊢
      rcases step_above eq with ⟨inner', above⟩ | back
      · exact absurd (by rw [above]; simp) ended
      · exact back

theorem enterCall_span {m : Machine φ σ} (h : Balanced m) (host : m.focus.checkpoints = [])
    {request : CallRequest φ} {ready : FuncId × List Binding}
    (prepared : request.prepare = .ok ready) (room : m.live.length < request.config.maxCallDepth)
    (origin : Origin φ σ) :
    Span p (m.enterCall p request origin) (m.nextCheckpoint p) m.live := by
  apply (h.shift (enterCall_shift host request origin)).span
  simp only [enterCall, prepared, if_neg (Nat.not_le.2 room)]
  split <;> rfl

theorem enterCall_refused_iff {m : Machine φ σ} {request : CallRequest φ}
    {ready : FuncId × List Binding} (prepared : request.prepare = .ok ready)
    (origin : Origin φ σ) :
    request.config.maxCallDepth ≤ m.live.length ↔ m.enterCall p request origin =
      m.deliver origin (.error (.callDepthExceeded request.config.maxCallDepth)) := by
  refine ⟨fun full => by simp only [enterCall, prepared, if_pos full], ?_⟩
  intro refused
  refine Classical.byContradiction ?_
  intro room
  -- a call that is not refused takes a number, and delivering an error does not
  have number := congrArg nextId refused
  rw [deliver_nextId] at number
  simp only [enterCall, prepared, if_neg room] at number
  split at number <;> exact Nat.succ_ne_self _ number

/-- **Captures are balanced.** In every state the live checkpoints are those of the captures that
have not ended, by which each knows its depth, and their numbers grow inwards. A script's capture is
refused exactly when at least `maxDepth` checkpoints are live, and then nothing happens but that
the script goes on; otherwise the body starts on a stack that is there again when the capture ends.
The same holds of calls that are not refused before, from outside or from a script. -/
theorem capture_balanced {m : Machine φ σ} (reach : Reachable p m) :
    Balanced m ∧
    (∀ site maxDepth body next, m.focus = .script site (.capture maxDepth body next) →
      (maxDepth ≤ m.live.length ↔
        m.step p = m.goto (.script site (next (.error (.callDepthExceeded maxDepth))))) ∧
      (m.live.length < maxDepth →
        (m.step p).focus = .script site (body (m.nextCheckpoint p)) ∧
        Span p (m.step p) (m.nextCheckpoint p) m.live)) ∧
    (m.focus.checkpoints = [] → ∀ request origin,
      (∀ e, request.prepare = .error e → m.enterCall p request origin = m.deliver origin (.error e)) ∧
      (∀ ready, request.prepare = .ok ready →
        (request.config.maxCallDepth ≤ m.live.length ↔ m.enterCall p request origin =
          m.deliver origin (.error (.callDepthExceeded request.config.maxCallDepth))) ∧
        (m.live.length < request.config.maxCallDepth →
          Span p (m.enterCall p request origin) (m.nextCheckpoint p) m.live))) := by
  have balanced := reach.balanced
  refine ⟨balanced, ?_, ?_⟩
  · intro site maxDepth body next focus
    have step_eq : m.step p = m.stepScript p site (.capture maxDepth body next) := by
      simp only [step, focus]
    refine ⟨⟨fun full => by simp only [step_eq, stepScript, if_pos full], fun refused => ?_⟩,
      fun room => ⟨?_, (balanced.shift (step_shift p m)).span ?_⟩⟩
    · refine Classical.byContradiction ?_
      intro room
      have number := congrArg nextId refused
      simp only [step_eq, stepScript, if_neg room] at number
      exact Nat.succ_ne_self _ number
    · simp only [step_eq, stepScript, if_neg (Nat.not_le.2 room)]
      rfl
    · simp only [step_eq, stepScript, if_neg (Nat.not_le.2 room)]
      rfl
  · intro host request origin
    refine ⟨fun e prepared => by simp only [enterCall, prepared], ?_⟩
    intro ready prepared
    exact ⟨enterCall_refused_iff prepared origin,
      fun room => enterCall_span balanced host prepared room origin⟩

/-- A signal to the outer of two captures is a panic that leaves both, and the stack is empty
again. -/
theorem capture_balanced_wrong_handle :
    let p : Platform Empty Unit := ⟨fun f _ => f.elim, fun _ => 0x1000, BitVec.ofNat 64⟩
    let inner : Script Empty Unit := .capture 2 (fun _ => .abortTo 1 102) fun _ => .silent
    let m := startScript ⟨default, default⟩ (.capture 1 (fun _ => inner) fun _ => .silent) [] ()
    Reachable p m ∧ Span p (m.step p) ⟨1, 0, 1⟩ [] ∧ ((m.step p).run p 4).live = [] := by
  intro p inner m
  have reach : Reachable p m := .startScript ..
  have span : Span p (m.step p) ⟨1, 0, 1⟩ [] :=
    (((capture_balanced reach).2.1 ⟨default, default⟩ 1 _ _ rfl).2 (by decide)).2
  exact ⟨reach, span, span.ends 4 (by decide) (by decide)⟩

end Machine

end HostBridge
