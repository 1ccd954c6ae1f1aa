import HostBridge.Proofs.Consistency
import HostBridge.Proofs.Positions

/-!
# Calls that are rejected

Five things can stop a call before its entry function is entered: the module does not verify, it has
no entry, an extern cannot be connected with the host, too many calls are live, or no function may
be active at all. They are looked for in this order (`Obstacle`), and the first that stands in the
way is reported. A rejected call has no effect: nothing has had control, and the machine is what it
was. Only to find out that no function may be active a call takes a checkpoint and gives it up
again, so the number of this checkpoint is gone.

* `CallRequest.prepare_of_first` — preparation reports the first of three obstacles;
* `Machine.rejects_of_first` — the first obstacle decides how a call is rejected;
* `Machine.enters_of_clear` — where there is none, the entry function is entered;
* `Machine.rejection` — a call is rejected exactly for the first obstacle, and entered exactly if
  there is none.
-/

set_option autoImplicit false

namespace HostBridge

variable {φ σ : Type} {p : Platform φ σ}

/-! ## Obstacles -/

/-- An extern cannot be connected, with the error that says why: its name, which is not that of the
abort primitive, is not on offer, or the function of that name takes another number of arguments
than the extern declares. -/
def Registry.Refuses (r : Registry φ) (x : ExternDecl) (e : BridgeError) : Prop :=
  x.name ≠ abortSymbol ∧
    (r.contains x.name = false ∧ e = .unboundExtern x.name ∨
      ∃ slot entry, r.slot? x.name = some slot ∧ r.entries[slot]? = some entry ∧
        entry.arity ≠ x.signature.params.length ∧
        e = .host (.wrongArity x.name entry.arity x.signature.params.length))

/-- What can stop a call before its entry function is entered. -/
inductive Obstacle where
  | verification
  | entry
  | externs
  | callDepth
  | helperDepth
  deriving DecidableEq

namespace Obstacle

/-- All obstacles, in the order in which they are looked for. -/
def all : List Obstacle := [verification, entry, externs, callDepth, helperDepth]

/-- The obstacles that are looked for before one. -/
def earlier (o : Obstacle) : List Obstacle := all.takeWhile (· ≠ o)

/-- The obstacle stands in the way of a request while some number of checkpoints is live, and this
is the error that says so. Of the externs that cannot be connected the first one decides. -/
def Stops (r : CallRequest φ) (live : Nat) : Obstacle → BridgeError → Prop
  | verification, e => r.config.verifyModules = true ∧
      ∃ found, r.module.verify = .error found ∧ e = .verify found.1 found.2
  | entry, e => r.module.entry = none ∧ e = .exec (.noEntry r.module.name)
  | externs, e => ∃ before x after, r.module.externs = before ++ x :: after ∧
      (∀ y ∈ before, ∀ e', ¬ r.hosts.Refuses y e') ∧ r.hosts.Refuses x e
  | callDepth, e => r.config.maxCallDepth ≤ live ∧ e = .callDepthExceeded r.config.maxCallDepth
  | helperDepth, e => r.config.maxHelperDepth = 0 ∧ e = .helperDepthExceeded 0

/-- The obstacle stands in the way, and none of those before it does. -/
def IsFirst (r : CallRequest φ) (live : Nat) (o : Obstacle) (e : BridgeError) : Prop :=
  o.Stops r live e ∧ ∀ o' ∈ o.earlier, ∀ e', ¬ o'.Stops r live e'

/-- How many checkpoints are taken before the obstacle is found. -/
def taken : Obstacle → Nat
  | helperDepth => 1
  | _ => 0

/-- If one of a list has a property, then one is the first to have it. -/
theorem exists_first {P : Obstacle → Prop} {os : List Obstacle} (h : ∃ o ∈ os, P o) :
    ∃ o, P o ∧ ∀ o' ∈ os.takeWhile (· ≠ o), ¬ P o' := by
  induction os with
  | nil => simp at h
  | cons o os ih =>
    by_cases here : P o
    · exact ⟨o, here, by simp⟩
    · obtain ⟨o', mem, has⟩ := h
      have later := (List.mem_cons.1 mem).resolve_left fun same => here (same ▸ has)
      obtain ⟨first, has, none⟩ := ih ⟨o', later, has⟩
      have other : o ≠ first := fun same => here (same ▸ has)
      refine ⟨first, has, ?_⟩
      rw [List.takeWhile_cons_of_pos (by simpa using other)]
      exact List.forall_mem_cons.2 ⟨here, none⟩

theorem isFirst_of_stops {r : CallRequest φ} {live : Nat} (h : ∃ o e, Stops r live o e) :
    ∃ o e, IsFirst r live o e := by
  obtain ⟨o, stops⟩ := h
  have mem : o ∈ all := by cases o <;> decide
  obtain ⟨first, ⟨e, stops⟩, none⟩ :=
    exists_first (P := fun o => ∃ e, o.Stops r live e) ⟨o, mem, stops⟩
  exact ⟨first, e, stops, fun o' mem e' stops' => none o' mem ⟨e', stops'⟩⟩

end Obstacle

/-! ## Preparation -/

theorem Registry.bind_refuses {r : Registry φ} {x : ExternDecl} {e : BridgeError} :
    r.bind x = .error e ↔ r.Refuses x e := by
  rw [bind_eq_error, Refuses, contains]
  simp

/-- The externs of a module cannot be connected exactly if one is refused, and the first decides. -/
theorem Registry.bindExterns_eq_error {r : CallRequest φ} {e : BridgeError} (live : Nat) :
    r.hosts.bindExterns r.module = .error e ↔ Obstacle.externs.Stops r live e := by
  have connects : ∀ y, (∃ b, r.hosts.bind y = .ok b) ↔ ∀ e', ¬ r.hosts.Refuses y e' := by
    intro y
    simp only [← bind_refuses]
    cases r.hosts.bind y <;> simp
  simp only [bindExterns, mapM_eq_error_iff, connects, bind_refuses, Obstacle.Stops]

namespace CallRequest

variable {r : CallRequest φ} {e : BridgeError}

theorem verify_eq_ok (live : Nat) : (r.config.verifyModules = true → r.module.verify = .ok ()) ↔
    ∀ e', ¬ Obstacle.verification.Stops r live e' := by
  simp only [Obstacle.Stops]
  cases r.config.verifyModules <;> cases r.module.verify <;> simp

theorem entry_ne_none (live : Nat) :
    r.module.entry ≠ none ↔ ∀ e', ¬ Obstacle.entry.Stops r live e' := by
  simp only [Obstacle.Stops]
  cases r.module.entry <;> simp

/-- Preparation reports the first of its three obstacles. -/
theorem prepare_of_first {live : Nat} {o : Obstacle} (first : o.IsFirst r live e)
    (early : o ∈ [Obstacle.verification, .entry, .externs]) : r.prepare = .error e := by
  obtain ⟨stops, none⟩ := first
  rw [prepare_eq_error]
  cases o with
  | verification => exact .inl stops
  | entry => exact .inr ⟨(verify_eq_ok live).2 (none _ (by decide)), .inl stops⟩
  | externs =>
    exact .inr ⟨(verify_eq_ok live).2 (none _ (by decide)), .inr
      ⟨(entry_ne_none live).2 (none _ (by decide)), (Registry.bindExterns_eq_error live).2 stops⟩⟩
  | callDepth | helperDepth => simp at early

/-- Where none of the three stands in the way, a request is prepared. -/
theorem prepare_of_clear {live : Nat}
    (clear : ∀ o ∈ [Obstacle.verification, .entry, .externs], ∀ e, ¬ o.Stops r live e) :
    ∃ entry bindings, r.prepare = .ok (entry, bindings) := by
  cases prepared : r.prepare with
  | ok ready => exact ⟨ready.1, ready.2, rfl⟩
  | error e =>
    rcases prepare_eq_error.1 prepared with unverified | ⟨-, missing | ⟨-, unbound⟩⟩
    · exact (clear .verification (by decide) e unverified).elim
    · exact (clear .entry (by decide) e missing).elim
    · have stops := (Registry.bindExterns_eq_error live).1 unbound
      exact (clear .externs (by decide) e stops).elim

end CallRequest

/-! ## Calls -/

/-- Neither generated code nor a host function has control, and nothing unwinds. -/
def Focus.Passive : Focus φ σ → Prop
  | .code _ _ | .script _ _ | .unwind _ _ | .unwindScript _ _ => False
  | .leave _ _ | .halted _ => True

namespace Machine

variable {m : Machine φ σ} {request : CallRequest φ} {origin : Origin φ σ} {e : BridgeError}

/-- A request is rejected with an error. Whoever makes the call, nothing has control before the
error is there, and the memory, the host state, the live checkpoints and all that waits are then
what they were; only the numbers of some checkpoints are gone. -/
def Rejects (p : Platform φ σ) (m : Machine φ σ) (request : CallRequest φ) (e : BridgeError)
    (taken : Nat) : Prop :=
  ∀ origin, ∃ n, (∀ k < n, ((m.enterCall p request origin).run p k).focus.Passive) ∧
    (m.enterCall p request origin).run p n =
      { m with nextId := m.nextId + taken }.deliver origin (.error e)

/-- A request enters its entry function: the first block of the function has control, with the
arguments of an entry function. -/
def Enters (p : Platform φ σ) (m : Machine φ σ) (request : CallRequest φ) (origin : Origin φ σ) :
    Prop :=
  ∃ id f c a, request.module.entry = some id ∧ request.module.functions[id]? = some f ∧
    (m.enterCall p request origin).focus = .code c a ∧ c.request = request ∧
    Activation.start f (entryArgs c) = .ok a

/-- A call that is refused its entry function gives up its checkpoint again. -/
theorem enterCall_barred {id : FuncId} {bindings : List Binding}
    (prepared : request.prepare = .ok (id, bindings))
    (room : ¬ request.config.maxCallDepth ≤ m.live.length)
    (barred : request.config.maxHelperDepth = 0) (origin : Origin φ σ) :
    ((m.enterCall p request origin).run p 0).focus.Passive ∧
      (m.enterCall p request origin).run p 1 =
        { m with nextId := m.nextId + 1 }.deliver origin (.error (.helperDepthExceeded 0)) := by
  let c := newCall p request bindings (m.nextCheckpoint p) origin
  have refused : c.activate id (entryArgs c) = .error (.helperDepthExceeded 0) := by
    rw [Call.activate, show c.request.config.maxHelperDepth = 0 from barred,
      if_pos (Nat.zero_le _)]
  have entered := enterCall_eq (p := p) prepared room origin
  have focus :
      (m.enterCall p request origin).focus = .leave c (.error (.helperDepthExceeded 0)) := by
    rw [entered, goto, Call.beginning, refused]
  refine ⟨by rw [run, focus]; trivial, ?_⟩
  have ends := run_error (p := p) focus
  rw [show c.waiting.length + 1 = 1 from rfl] at ends
  rw [ends, entered]
  cases origin <;> rfl

/-- The first obstacle decides how a call is rejected. -/
theorem rejects_of_first {o : Obstacle} (first : o.IsFirst request m.live.length e) :
    m.Rejects p request e o.taken := by
  have refuses : request.prepare = .error e → m.Rejects p request e 0 := fun refused origin =>
    ⟨0, fun k lt => absurd lt (Nat.not_lt_zero k), enterCall_refused refused origin⟩
  obtain ⟨stops, none⟩ := first
  cases o with
  | verification | entry | externs =>
    exact refuses (CallRequest.prepare_of_first ⟨stops, none⟩ (by decide))
  | callDepth =>
    obtain ⟨full, rfl⟩ := stops
    obtain ⟨id, bindings, prepared⟩ := CallRequest.prepare_of_clear none
    exact fun origin =>
      ⟨0, fun k lt => absurd lt (Nat.not_lt_zero k), enterCall_full prepared full origin⟩
  | helperDepth =>
    obtain ⟨barred, rfl⟩ := stops
    have before : ∀ o ∈ [Obstacle.verification, .entry, .externs],
        o ∈ Obstacle.helperDepth.earlier := by decide
    obtain ⟨id, bindings, prepared⟩ :=
      CallRequest.prepare_of_clear fun o mem => none o (before o mem)
    have room : ¬ request.config.maxCallDepth ≤ m.live.length :=
      fun full => none .callDepth (by decide) _ ⟨full, rfl⟩
    intro origin
    obtain ⟨passive, ends⟩ := enterCall_barred (p := p) prepared room barred origin
    refine ⟨1, fun k lt => ?_, ends⟩
    obtain rfl := Nat.lt_one_iff.1 lt
    exact passive

/-- Where there is no obstacle, the entry function is entered. -/
theorem enters_of_clear (wf : request.module.WellFormed)
    (clear : ∀ o e, ¬ Obstacle.Stops request m.live.length o e) (origin : Origin φ σ) :
    m.Enters p request origin := by
  obtain ⟨id, bindings, prepared⟩ := CallRequest.prepare_of_clear fun o _ => clear o
  have room : ¬ request.config.maxCallDepth ≤ m.live.length :=
    fun full => clear .callDepth _ ⟨full, rfl⟩
  obtain ⟨-, declared, -⟩ := CallRequest.prepare_ok prepared
  obtain ⟨f, there, -⟩ := wf.entry id declared
  have blocks := (wf.functions f (List.mem_of_getElem? there)).blocks
  let c := newCall p request bindings (m.nextCheckpoint p) origin
  obtain ⟨a, starts⟩ : ∃ a, Activation.start f (entryArgs c) = .ok a := by
    obtain ⟨code, rest, eq⟩ := List.exists_cons_of_ne_nil blocks
    simp [Activation.start, Activation.enter, eq]
  have allowed : ¬ c.request.config.maxHelperDepth ≤ c.depth :=
    fun barred => clear .helperDepth _ ⟨Nat.le_zero.1 barred, rfl⟩
  have activated : c.activate id (entryArgs c) = .ok a := by
    rw [Call.activate, if_neg allowed, show c.request.module.functions[id]? = some f from there]
    exact starts
  refine ⟨id, f, c.descend [], a, declared, there, ?_, rfl, starts⟩
  rw [enterCall_eq prepared room, goto, Call.beginning, activated]

theorem deliver_not_code (m : Machine φ σ) (origin : Origin φ σ) (r : Except BridgeError Outcome)
    (c : Call φ σ) (a : Activation) : (m.deliver origin r).focus ≠ .code c a := by
  cases origin <;> exact nofun

/-- A request that is rejected does not enter its entry function. -/
theorem Rejects.not_enters {taken : Nat} (h : m.Rejects p request e taken) :
    ¬ m.Enters p request origin := by
  rintro ⟨id, f, c, a, -, -, focus, -⟩
  obtain ⟨n, passive, ends⟩ := h origin
  cases n with
  | zero =>
    rw [run] at ends
    rw [ends] at focus
    exact deliver_not_code _ _ _ _ _ focus
  | succ n =>
    have first := passive 0 (Nat.succ_pos n)
    rw [run, focus] at first
    exact first

/-- A request is rejected in one way only. -/
theorem Rejects.unique {taken taken' : Nat} {e' : BridgeError} (h : m.Rejects p request e taken)
    (h' : m.Rejects p request e' taken') : e = e' ∧ taken = taken' := by
  obtain ⟨n, -, ends⟩ := h .outside
  obtain ⟨n', -, ends'⟩ := h' .outside
  have stays : ∀ (m : Machine φ σ) r k, (m.deliver .outside r).run p k = m.deliver .outside r :=
    fun m r k => run_of_halted rfl k
  have later := run_add (p := p) n n' (m.enterCall p request .outside)
  have later' := run_add (p := p) n' n (m.enterCall p request .outside)
  rw [ends, stays] at later
  rw [ends', stays, Nat.add_comm, later] at later'
  injection later' with focus _ _ number
  injection focus with ending
  injection ending with result
  injection result with same
  exact ⟨same, Nat.add_left_cancel number⟩

end Machine

/-- **What rejects a call.** Take any module that has been written by edits, any gas, environment,
registry and configuration, and a machine in any state. A call is rejected exactly if one of the
five obstacles stands in its way. Then the error is that of the first one, and there is no effect
but on the number of the next checkpoint, and on this only if no function may be active. If there is
no obstacle, and only then, the call enters its entry function. -/
theorem Machine.rejection (name : String) (edits : List Edit) (request : CallRequest φ)
    (p : Platform φ σ) (m : Machine φ σ) :
    let r := { request with module := (edits.foldl Manuscript.after (.new name)).module }
    ((∃ e taken, m.Rejects p r e taken) ↔ ∃ o e, Obstacle.Stops r m.live.length o e) ∧
    (∀ e taken, m.Rejects p r e taken ↔
      ∃ o : Obstacle, o.IsFirst r m.live.length e ∧ taken = o.taken) ∧
    (∀ origin, m.Enters p r origin ↔ ∀ (o : Obstacle) e, ¬ o.Stops r m.live.length e) := by
  intro r
  have wf : r.module.WellFormed := ((Manuscript.Orderly.new name).all edits).module.wellFormed
  have stopped : ∀ {e taken}, m.Rejects p r e taken →
      ∃ (o : Obstacle) (e : BridgeError), o.Stops r m.live.length e := by
    intro e taken rejects
    by_contra clear
    have none : ∀ o e, ¬ Obstacle.Stops r m.live.length o e := fun o e stops => clear ⟨o, e, stops⟩
    exact rejects.not_enters (enters_of_clear wf none .outside)
  refine ⟨⟨fun ⟨_, _, rejects⟩ => stopped rejects, fun stops => ?_⟩,
    fun e taken => ⟨fun rejects => ?_, ?_⟩, fun origin => ⟨fun enters o e stops => ?_, ?_⟩⟩
  · obtain ⟨o, e, first⟩ := Obstacle.isFirst_of_stops stops
    exact ⟨e, o.taken, rejects_of_first first⟩
  · obtain ⟨o, e', first⟩ := Obstacle.isFirst_of_stops (stopped rejects)
    obtain ⟨rfl, rfl⟩ := rejects.unique (rejects_of_first first)
    exact ⟨o, first, rfl⟩
  · rintro ⟨o, first, rfl⟩
    exact rejects_of_first first
  · obtain ⟨o', e', first⟩ := Obstacle.isFirst_of_stops ⟨o, e, stops⟩
    exact (rejects_of_first first).not_enters enters
  · exact fun clear => enters_of_clear wf clear origin

end HostBridge
