import HostBridge.Proofs.Unwinding
import Mathlib.Data.Set.Function
import Mathlib.Logic.Relation

/-!
# Where signals come from

No script can make up a signal: what unwinds as a signal, now or when it is thrown again, was
raised before, when the checkpoint it was raised against was the innermost live one. If distinct
checkpoints have distinct handles, a signal that completes a capture was raised inside that very
capture, with the same checkpoints around it.

* `Reachable.induct` — what every move of a machine keeps holds of all reachable states;
* `Later.stack` — what is left of an earlier stack of checkpoints;
* `Reachable.raised` — every signal was raised;
* `Reaches.raised_here` — a signal to a capture was raised inside it.
-/

set_option autoImplicit false

namespace HostBridge

variable {φ σ : Type} {p : Platform φ σ}

namespace Machine

/-! ## Histories -/

/-- What can happen to a machine: a step or, when it rests, the start of a call or a script. -/
inductive Move (p : Platform φ σ) : Machine φ σ → Machine φ σ → Prop
  | step (m : Machine φ σ) : Move p m (m.step p)
  | call {m : Machine φ σ} (request : CallRequest φ) :
    m.Rests → Move p m (m.enterCall p request .outside)
  | script {m : Machine φ σ} (site : Site) (s : Script φ σ) :
    m.Rests → Move p m (m.goto (.script site s))

/-- The second state comes up on the same machine as the first, then or later. -/
abbrev Later (p : Platform φ σ) : Machine φ σ → Machine φ σ → Prop :=
  Relation.ReflTransGen (Move p)

/-- What holds at the beginning and is kept by every move holds of every reachable state. -/
theorem Reachable.induct {P : Machine φ σ → Prop}
    (start : ∀ memory shared, P (Machine.idle memory shared))
    (moves : ∀ m m', Reachable p m → Move p m m' → P m → P m') {m : Machine φ σ}
    (h : Reachable p m) : P m := by
  induction h with
  | idle memory shared => exact start memory shared
  | call request reach rests ih => exact moves _ _ reach (.call request rests) ih
  | script site s reach rests ih => exact moves _ _ reach (.script site s rests) ih
  | step reach ih => exact moves _ _ reach (.step _) ih

/-! ### Checkpoints over time -/

theorem Move.shift {m m' : Machine φ σ} (h : Move p m m') : Shift p m m' := by
  cases h with
  | step => exact step_shift p m
  | call request rests => exact enterCall_shift rests.checkpoints request _
  | script site s rests =>
    have before := running_of_host rests.checkpoints
    exact .keep rfl before.symm rfl

/-- The platform decides where a checkpoint lies. -/
theorem Reachable.handles {m : Machine φ σ} (h : Reachable p m) :
    ∀ cp ∈ m.live, cp.handle = p.handleAt cp.id := by
  refine Reachable.induct (P := fun m => ∀ cp ∈ m.live, cp.handle = p.handleAt cp.id) nofun ?_ h
  intro m m' _ move ih cp mem
  cases move.shift with
  | keep live => exact ih cp (live ▸ mem)
  | push live =>
    rw [live] at mem
    rcases List.mem_cons.1 mem with rfl | old
    · rfl
    · exact ih cp old
  | pop _ live => exact ih cp (List.mem_of_mem_tail (live ▸ mem))

/-- The checkpoints of a later stack are the outer ones of the earlier stack, and inside them new
ones with new numbers. -/
theorem Later.stack {m₀ m : Machine φ σ} (h : Later p m₀ m) :
    m₀.nextId ≤ m.nextId ∧ ∃ new kept, m.live = new ++ kept ∧ kept <:+ m₀.live ∧
      ∀ cp ∈ new, m₀.nextId ≤ cp.id := by
  induction h with
  | refl => exact ⟨Nat.le_refl _, [], _, rfl, List.suffix_refl _, nofun⟩
  | @tail m m' _ move ih =>
    obtain ⟨le, new, kept, eq, suffix, fresh⟩ := ih
    cases move.shift with
    | keep live _ nextId =>
      rw [live, nextId]
      exact ⟨le, new, kept, eq, suffix, fresh⟩
    | push live _ nextId =>
      rw [live, nextId]
      refine ⟨Nat.le_succ_of_le le, m.nextCheckpoint p :: new, kept, by rw [eq]; rfl, suffix, ?_⟩
      intro cp mem
      rcases List.mem_cons.1 mem with rfl | old
      · exact le
      · exact fresh cp old
    | pop _ live _ nextId =>
      rw [live, nextId]
      refine ⟨le, ?_⟩
      cases new with
      | nil =>
        refine ⟨[], kept.tail, by rw [eq]; rfl, (List.tail_suffix kept).trans suffix, nofun⟩
      | cons cp new =>
        exact ⟨new, kept, by rw [eq]; rfl, suffix,
          fun cp mem => fresh cp (List.mem_cons_of_mem _ mem)⟩

/-- Two checkpoints with one handle are one, if no two numbers have the same handle. -/
theorem Later.same_stack {m₀ m : Machine φ σ} (reach₀ : Reachable p m₀) (reach : Reachable p m)
    (later : Later p m₀ m) (distinct : Set.InjOn p.handleAt {n | n < m.nextId})
    {cp₀ cp : Checkpoint} {old₀ old : List Checkpoint} (live₀ : m₀.live = cp₀ :: old₀)
    (live : m.live = cp :: old) (handle : cp₀.handle = cp.handle) : m₀.live = m.live := by
  obtain ⟨le, new, kept, eq, ⟨before, suffix⟩, fresh⟩ := later.stack
  have mem₀ : cp₀ ∈ m₀.live := by rw [live₀]; exact List.mem_cons_self
  have mem : cp ∈ m.live := by rw [live]; exact List.mem_cons_self
  have bound₀ : cp₀.id < m₀.nextId := reach₀.balanced.fresh cp₀ mem₀
  have bound : cp.id < m.nextId := reach.balanced.fresh cp mem
  have id : cp₀.id = cp.id := by
    refine distinct (Nat.lt_of_lt_of_le bound₀ le) bound ?_
    rw [← reach₀.handles cp₀ mem₀, ← reach.handles cp mem, handle]
  -- the checkpoint is not new, so what is left of the earlier stack begins with it
  have none : new = [] := by
    cases new with
    | nil => rfl
    | cons x new =>
      rw [live] at eq
      have same : cp = x := (List.cons.inj eq).1
      have newer := fresh x List.mem_cons_self
      rw [← same, ← id] at newer
      exact absurd bound₀ (Nat.not_lt.2 newer)
  rw [none, List.nil_append] at eq
  rw [← eq, live, live₀] at suffix
  cases before with
  | nil => rw [live, live₀, ← suffix, List.nil_append]
  | cons x before =>
    -- otherwise it lies under the innermost one of the earlier stack, whose number is its own
    have ids := reach₀.balanced.ids
    rw [live₀] at ids
    have inner : cp ∈ old₀ := by
      rw [← (List.cons.inj suffix).2]
      exact List.mem_append_right _ List.mem_cons_self
    have less := List.rel_of_pairwise_cons ids inner
    rw [id] at less
    exact absurd less (Nat.lt_irrefl _)

/-! ## Signals -/

theorem deliver_thrown (m : Machine φ σ) (origin : Origin φ σ)
    (r : Except BridgeError Outcome) : (m.deliver origin r).focus.thrown? = none := by
  cases origin <;> rfl

theorem enterCall_thrown (m : Machine φ σ) (request : CallRequest φ) (origin : Origin φ σ) :
    (m.enterCall p request origin).focus.thrown? = none := by
  obtain ⟨focus, none, eq | eq⟩ := enterCall_goto p m request origin <;> rw [eq] <;> exact none

/-- Why something unwinds. -/
inductive Cause (m : Machine φ σ) (x : Payload) : Prop
  /-- It has been unwinding. -/
  | thrown (h : m.Throws x)
  /-- It has been held and is thrown again. -/
  | held (site : Site) (ticket : Nat) (focus : m.focus = .script site (.rethrow ticket))
    (there : m.held[ticket]? = some x)
  /-- A status has been raised. -/
  | raised (handle : Addr) (code : Int32Bits) (h : m.Raises handle code)
    (eq : x = .raise m.live handle code)
  /-- It is a panic of the script. -/
  | panic (panic : Panic) (eq : x = .foreign panic)

theorem stepScript_cause {m : Machine φ σ} {site : Site} {s : Script φ σ} {x : Payload}
    (focus : m.focus = .script site s) (h : (m.stepScript p site s).focus.thrown? = some x) :
    m.Cause x := by
  cases s with
  | panic text =>
    cases h
    exact .panic _ rfl
  | abortTo handle code =>
    cases h
    exact .raised handle code (.script site focus) rfl
  | rethrow ticket =>
    cases h
    cases there : m.held[ticket]? with
    | some y =>
      refine .held site ticket focus ?_
      rw [heldPayload, there]
      rfl
    | none =>
      refine .panic .nothingHeld ?_
      rw [heldPayload, there]
      rfl
  | done answer =>
    simp only [stepScript, stepDone] at h
    split at h
    · cases h
    · unfold resume at h
      split at h <;> cases h
    · cases h
    · cases h
  | capture maxDepth body next =>
    simp only [stepScript] at h
    split at h <;> cases h
  | call request next =>
    rw [stepScript, enterCall_thrown] at h
    cases h
  | _ => cases h

theorem step_cause {m : Machine φ σ} {x : Payload} (h : (m.step p).Throws x) : m.Cause x := by
  rw [throws_iff] at h
  unfold step at h
  cases focus : m.focus with
  | code c a =>
    simp only [focus, stepCode] at h
    cases turn : c.turn a with
    | abort c' handle code =>
      rw [turn] at h
      cases h
      exact .raised handle code (.code c a c' focus turn) rfl
    | _ =>
      rw [turn] at h
      cases h
  | leave c answer =>
    simp only [focus, stepLeave] at h
    split at h
    · rw [finishCall, deliver_thrown] at h
      cases h
    · split at h <;> cases h
  | unwind c y =>
    simp only [focus, stepUnwind] at h
    split at h
    · rw [finishCall, deliver_thrown] at h
      cases h
    · split at h
      · cases h
      · cases h
        exact .thrown (.code c focus)
  | script site s =>
    simp only [focus] at h
    exact stepScript_cause focus h
  | unwindScript site y =>
    simp only [focus, stepUnwindScript] at h
    split at h
    · cases h
    · cases h
      exact .thrown (.script site focus)
    · split at h
      · cases h
      · cases h
        exact .thrown (.script site focus)
    · cases h
  | halted e =>
    simp only [focus] at h
    cases h

theorem deliver_held (m : Machine φ σ) (origin : Origin φ σ)
    (r : Except BridgeError Outcome) : (m.deliver origin r).held = m.held := by
  cases origin <;> rfl

theorem enterCall_held (m : Machine φ σ) (request : CallRequest φ) (origin : Origin φ σ) :
    (m.enterCall p request origin).held = m.held := by
  obtain ⟨focus, -, eq | eq⟩ := enterCall_goto p m request origin <;> rw [eq] <;> rfl

theorem stepScript_held (p : Platform φ σ) (m : Machine φ σ) (site : Site) (s : Script φ σ) :
    (m.stepScript p site s).held = m.held := by
  cases s with
  | done answer =>
    simp only [stepScript, stepDone]
    split
    · rfl
    · unfold resume
      split <;> rfl
    · rfl
    · rfl
  | call request next => exact enterCall_held ..
  | capture maxDepth body next =>
    simp only [stepScript]
    split <;> rfl
  | _ => rfl

/-- Only what unwinds comes to be held, and what is held stays. -/
theorem step_held (p : Platform φ σ) (m : Machine φ σ) :
    (m.step p).held = m.held ∨ ∃ x, m.Throws x ∧ (m.step p).held = m.held ++ [x] := by
  unfold step
  cases focus : m.focus with
  | code c a =>
    simp only [stepCode]
    cases c.turn a <;> exact .inl rfl
  | leave c answer =>
    simp only [stepLeave]
    split
    · exact .inl (deliver_held ..)
    · split <;> exact .inl rfl
  | unwind c x =>
    simp only [stepUnwind]
    split
    · exact .inl (deliver_held ..)
    · split <;> exact .inl rfl
  | script site s => exact .inl (stepScript_held ..)
  | unwindScript site x =>
    have throws : m.Throws x := .script site focus
    simp only [stepUnwindScript]
    split
    · exact .inl rfl
    · exact .inl rfl
    · split <;> exact .inl rfl
    · exact .inr ⟨x, throws, rfl⟩
  | halted e => exact .inl rfl

theorem Move.cause {m m' : Machine φ σ} (h : Move p m m') {x : Payload} (throws : m'.Throws x) :
    m.Cause x := by
  cases h with
  | step => exact step_cause throws
  | call request rests =>
    rw [throws_iff, enterCall_thrown] at throws
    cases throws
  | script site s rests =>
    rw [throws_iff] at throws
    cases throws

theorem Move.held {m m' : Machine φ σ} (h : Move p m m') :
    m'.held = m.held ∨ ∃ x, m.Throws x ∧ m'.held = m.held ++ [x] := by
  cases h with
  | step => exact step_held p m
  | call request rests => exact .inl (enterCall_held ..)
  | script site s rests => exact .inl rfl

/-- What is held stays where its ticket says. -/
theorem Later.held {m₀ m : Machine φ σ} (h : Later p m₀ m) : m₀.held <+: m.held := by
  induction h with
  | refl => exact List.prefix_refl _
  | tail _ move ih =>
    rcases move.held with same | ⟨x, -, more⟩
    · rw [same]
      exact ih
    · rw [more]
      exact ih.trans (List.prefix_append ..)

/-- A status was raised earlier, and the handle was that of the innermost live checkpoint. -/
def WasRaised (p : Platform φ σ) (m : Machine φ σ) (handle : Addr) (code : Int32Bits) : Prop :=
  ∃ m₀ cp old, Reachable p m₀ ∧ Later p m₀ m ∧ m₀.Raises handle code ∧ m₀.live = cp :: old ∧
    cp.handle = handle

/-- **Every signal was raised**, however often it has been caught and thrown again. -/
theorem Reachable.raised {m : Machine φ σ} (h : Reachable p m) :
    ∀ handle code, m.Throws (.signal handle code) ∨ .signal handle code ∈ m.held →
      WasRaised p m handle code := by
  refine Reachable.induct (P := fun m => ∀ handle code,
    m.Throws (.signal handle code) ∨ .signal handle code ∈ m.held → WasRaised p m handle code)
    ?_ ?_ h
  · rintro memory shared handle code (throws | held)
    · rw [throws_iff] at throws
      cases throws
    · cases held
  · intro m m' reach move ih handle code known
    have still : WasRaised p m handle code → WasRaised p m' handle code := by
      rintro ⟨m₀, cp, old, reach₀, later, raises, live, own⟩
      exact ⟨m₀, cp, old, reach₀, later.tail move, raises, live, own⟩
    rcases known with throws | held
    · cases move.cause throws with
      | thrown before => exact still (ih handle code (.inl before))
      | held site ticket focus there =>
        exact still (ih handle code (.inr (List.mem_iff_getElem?.2 ⟨ticket, there⟩)))
      | raised handle' code' raises eq =>
        obtain ⟨rfl, rfl, cp, old, live, own⟩ := Payload.raise_eq_signal eq.symm
        exact ⟨m, cp, old, reach, .single move, raises, live, own⟩
      | panic panic eq => cases eq
    · rcases move.held with same | ⟨x, throws, more⟩
      · rw [same] at held
        exact still (ih handle code (.inr held))
      · rw [more] at held
        rcases List.mem_append.1 held with old | new
        · exact still (ih handle code (.inr old))
        · rw [← List.mem_singleton.1 new] at throws
          exact still (ih handle code (.inl throws))

/-! ## Signals that reach a capture -/

/-- A payload leaves the body of the capture, or the call, that holds a checkpoint. -/
inductive Reaches (m : Machine φ σ) (cp : Checkpoint) (x : Payload) : Prop
  | capture (site : Site) (next : Except BridgeError Completion → Script φ σ)
    (rest : List (Frame φ σ)) (focus : m.focus = .unwindScript site x)
    (control : m.control = .captured cp next :: rest)
  | call (c : Call φ σ) (focus : m.focus = .unwind c x) (own : c.checkpoint = cp)

theorem Reaches.throws {m : Machine φ σ} {cp : Checkpoint} {x : Payload} (h : m.Reaches cp x) :
    m.Throws x := by
  cases h with
  | capture site next rest focus control => exact .script site focus
  | call c focus own => exact .code c focus

/-- The checkpoint that is reached is the innermost live one. -/
theorem Reaches.live {m : Machine φ σ} (balanced : Balanced m) {cp : Checkpoint} {x : Payload}
    (h : m.Reaches cp x) : ∃ old, m.live = cp :: old := by
  rw [balanced.live_eq, running]
  cases h with
  | capture site next rest focus control =>
    refine ⟨rest.flatMap Frame.checkpoints, ?_⟩
    rw [focus, control]
    rfl
  | call c focus own =>
    refine ⟨m.control.flatMap Frame.checkpoints, ?_⟩
    rw [focus, ← own]
    rfl

/-- **A signal to a capture was raised inside it**: if no two checkpoints have the same handle, the
checkpoints that were live when it was raised are those that are live now. -/
theorem Reaches.raised_here {m : Machine φ σ} (reach : Reachable p m)
    (distinct : Set.InjOn p.handleAt {n | n < m.nextId}) {cp : Checkpoint} {code : Int32Bits}
    (h : m.Reaches cp (.signal cp.handle code)) :
    ∃ m₀, Later p m₀ m ∧ m₀.Raises cp.handle code ∧ m₀.live = m.live := by
  obtain ⟨old, live⟩ := h.live reach.balanced
  obtain ⟨m₀, cp₀, old₀, reach₀, later, raises, live₀, handle⟩ :=
    reach.raised cp.handle code (.inl h.throws)
  exact ⟨m₀, later, raises, later.same_stack reach₀ reach distinct live₀ live handle⟩

end Machine

end HostBridge
