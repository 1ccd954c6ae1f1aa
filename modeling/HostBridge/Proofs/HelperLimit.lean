import HostBridge.Proofs.Handles
import HostBridge.Proofs.Positions

/-!
# The limit of active functions

Only the call of a function looks at how many functions may be active. Two runs of a call that
differ in the limit therefore go together, step by step, until the smaller one refuses a function:
the same code has control with the same values, and the same frames wait. The difference shows in
the configuration that the call hands to its host functions, which must not depend on it
(`Script.IgnoresConfig`). Calls that these make in turn have configurations of their own.

`Rerun.Alike` is the relation between the states of the two runs. It follows the control from the
inside to the call that is run twice: inside, a call differs only in the site of the script that
made it, and so on outwards; beyond the call nothing differs.

* `Call.turn_vary` — what generated code does depends on the limit only where it is refused;
* `Rerun.Alike.step` — the two runs stay together, or the call is over in both;
* `Machine.raise_limit` — a call that its limit does not stop is the same under any larger one.
-/

set_option autoImplicit false

namespace HostBridge

variable {φ σ : Type} {p : Platform φ σ}

/-! ## Host functions that ignore their configuration -/

namespace Script

/-- The script cannot tell two configurations from each other. -/
def Blind (c c' : Config) : Script φ σ → Prop
  | .done _ | .panic _ | .abortTo _ _ | .rethrow _ => True
  | .memory next => ∀ memory, (next memory).Blind c c'
  | .setMemory _ next => next.Blind c c'
  | .environment next => ∀ env, (next env).Blind c c'
  | .config next => next c = next c' ∧ (next c).Blind c c'
  | .depth next => ∀ n, (next n).Blind c c'
  | .shared next => ∀ state, (next state).Blind c c'
  | .setShared _ next => next.Blind c c'
  | .capture _ body next => (∀ cp, (body cp).Blind c c') ∧ ∀ r, (next r).Blind c c'
  | .guard body next => body.Blind c c' ∧ ∀ r, (next r).Blind c c'
  | .call _ next => ∀ r, (next r).Blind c c'

/-- The script does not depend on the configuration of the call that called it. -/
def IgnoresConfig (s : Script φ σ) : Prop := ∀ c c', s.Blind c c'

theorem blind_self (c : Config) (s : Script φ σ) : s.Blind c c := by
  induction s with
  | done | panic | abortTo | rethrow => exact trivial
  | setMemory _ _ ih | setShared _ _ ih => exact ih
  | memory _ ih | environment _ ih | depth _ ih | shared _ ih | call _ _ ih => exact fun x => ih x
  | config _ ih => exact ⟨rfl, ih c⟩
  | capture _ _ _ body next => exact ⟨body, next⟩
  | guard _ _ body next => exact ⟨body, next⟩

end Script

/-- The host functions on offer do not depend on the configuration. -/
def CallRequest.HostsIgnoreConfig (p : Platform φ σ) (r : CallRequest φ) : Prop :=
  ∀ entry ∈ r.hosts.entries, ∀ args, (p.behaviour entry.function args).IgnoresConfig

/-! ## Calls with another limit -/

/-- The request with another limit of active functions. -/
def CallRequest.withLimit (r : CallRequest φ) (limit : Nat) : CallRequest φ :=
  { r with config := { r.config with maxHelperDepth := limit } }

namespace Call

/-- The call with another limit, made by somebody else. -/
def vary (c : Call φ σ) (limit : Nat) (origin : Origin φ σ) : Call φ σ :=
  { c with request := c.request.withLimit limit, origin := origin }

end Call

/-- The turn of a call with another limit, made by somebody else. -/
def Turn.vary (limit : Nat) (origin : Origin φ σ) : Turn φ σ → Turn φ σ
  | .code c a => .code (c.vary limit origin) a
  | .leave c answer => .leave (c.vary limit origin) answer
  | .abort c handle status => .abort (c.vary limit origin) handle status
  | .host c a callee dst function args => .host (c.vary limit origin) a callee dst function args

namespace Call

variable {c : Call φ σ} {a : Activation} {limit : Nat} {origin : Origin φ σ}

/-- The error of a call that has as many active functions as it may. -/
def limitError (c : Call φ σ) : BridgeError :=
  .helperDepthExceeded c.request.config.maxHelperDepth

theorem activate_vary (le : c.request.config.maxHelperDepth ≤ limit)
    (room : c.depth < c.request.config.maxHelperDepth) (callee : FuncId) (args : List Val) :
    (c.vary limit origin).activate callee args = c.activate callee args := by
  have room' : ¬ (c.vary limit origin).request.config.maxHelperDepth ≤ c.depth :=
    Nat.not_le.2 (Nat.lt_of_lt_of_le room le)
  unfold activate
  rw [if_neg (Nat.not_le.2 room), show (c.vary limit origin).depth = c.depth from rfl,
    if_neg room']
  rfl

theorem activate_full (full : c.request.config.maxHelperDepth ≤ c.depth)
    (callee : FuncId) (args : List Val) : c.activate callee args = .error c.limitError :=
  if_pos full

theorem obey_vary (le : c.request.config.maxHelperDepth ≤ limit) {effect : Effect}
    (goes : c.obey a effect = .leave c (.error c.limitError) →
      limit = c.request.config.maxHelperDepth) :
    (c.vary limit origin).obey a effect = (c.obey a effect).vary limit origin := by
  cases effect with
  | define | write | leave => rfl
  | goto target =>
    simp only [obey]
    split <;> rfl
  | call dst callee args =>
    have same : (c.vary limit origin).activate callee args = c.activate callee args := by
      rcases Nat.lt_or_ge c.depth c.request.config.maxHelperDepth with room | full
      · exact activate_vary le room callee args
      · have refused : c.obey a (.call dst callee args) = .leave c (.error c.limitError) := by
          simp only [obey, activate_full full]
        rw [goes refused]
        rfl
    simp only [obey, same]
    split <;> rfl
  | callExtern dst callee args =>
    have same : (c.vary limit origin).callee callee args = c.callee callee args := rfl
    simp only [obey, same]
    split <;> rfl

/-- Generated code does the same under a larger limit, unless it is refused a function. -/
theorem turn_vary (le : c.request.config.maxHelperDepth ≤ limit)
    (goes : c.turn a = .leave c (.error c.limitError) → limit = c.request.config.maxHelperDepth) :
    (c.vary limit origin).turn a = (c.turn a).vary limit origin := by
  unfold turn at goes ⊢
  cases here : a.rest with
  | nil => rfl
  | cons i rest =>
    rw [here] at goes
    simp only [show (c.vary limit origin).storage = c.storage from rfl]
    cases done : i.effect c.storage a with
    | error e => rfl
    | ok effect =>
      simp only [done] at goes
      exact obey_vary le goes

end Call

/-! ## Two runs of a call -/

/-- The host call that is the next thing that happens, if it is one. -/
def Focus.hostCall? : Focus φ σ → Option (ExternId × φ × List Val)
  | .code c a =>
    match c.turn a with
    | .host _ _ callee _ function args => some (callee, function, args)
    | _ => none
  | _ => none

/-- A call that was made above the frames `rest`, and the limit with which it is run again. -/
structure Rerun (φ σ : Type) where
  request : CallRequest φ
  origin : Origin φ σ
  checkpoint : Checkpoint
  rest : List (Frame φ σ)
  limit : Nat

namespace Rerun

mutual

/-- A call in the two runs, with the frames that wait for what made it. -/
inductive Peers (r : Rerun φ σ) :
    Call φ σ → Call φ σ → List (Frame φ σ) → List (Frame φ σ) → Prop
  /-- The call that is run twice. -/
  | own (c : Call φ σ) (serves : c.Serves r.request r.origin r.checkpoint) :
    Peers r c (c.vary r.limit c.origin) r.rest r.rest
  /-- A call that was made while the other is at work: what has made it looks at another site. -/
  | nested (d : Call φ σ) (site site' : Site) (next : Except BridgeError Outcome → Script φ σ)
    (made : d.origin = .host site next) (k k' : List (Frame φ σ)) (waits : Waits r site site' k k')
    (blind : ∀ x, (next x).Blind site.config site'.config) :
    Peers r d (d.vary d.request.config.maxHelperDepth (.host site' next)) k k'

/-- The frames that wait for a script in the two runs, with the sites at which it looks. -/
inductive Waits (r : Rerun φ σ) :
    Site → Site → List (Frame φ σ) → List (Frame φ σ) → Prop
  | hostCall (c c' : Call φ σ) (k k' : List (Frame φ σ)) (peers : Peers r c c' k k')
    (a : Activation) (callee : ExternId) (dst : Option ValueId) :
    Waits r c.site c'.site (.hostCall c a callee dst :: k) (.hostCall c' a callee dst :: k')
  | captured (site site' : Site) (k k' : List (Frame φ σ)) (waits : Waits r site site' k k')
    (cp : Checkpoint) (next : Except BridgeError Completion → Script φ σ)
    (blind : ∀ x, (next x).Blind site.config site'.config) :
    Waits r site site' (.captured cp next :: k) (.captured cp next :: k')
  | guarded (site site' : Site) (k k' : List (Frame φ σ)) (waits : Waits r site site' k k')
    (next : Caught → Script φ σ) (blind : ∀ x, (next x).Blind site.config site'.config) :
    Waits r site site' (.guarded next :: k) (.guarded next :: k')

end

/-- What has control in the two runs, above the frames that wait. -/
inductive Facing (r : Rerun φ σ) :
    Focus φ σ → Focus φ σ → List (Frame φ σ) → List (Frame φ σ) → Prop
  | code (c c' : Call φ σ) (k k' : List (Frame φ σ)) (peers : r.Peers c c' k k')
    (a : Activation) : Facing r (.code c a) (.code c' a) k k'
  | leave (c c' : Call φ σ) (k k' : List (Frame φ σ)) (peers : r.Peers c c' k k')
    (answer : Answer) : Facing r (.leave c answer) (.leave c' answer) k k'
  | unwind (c c' : Call φ σ) (k k' : List (Frame φ σ)) (peers : r.Peers c c' k k')
    (x : Payload) : Facing r (.unwind c x) (.unwind c' x) k k'
  | script (site site' : Site) (k k' : List (Frame φ σ)) (waits : r.Waits site site' k k')
    (s : Script φ σ) (blind : s.Blind site.config site'.config) :
    Facing r (.script site s) (.script site' s) k k'
  | unwindScript (site site' : Site) (k k' : List (Frame φ σ)) (waits : r.Waits site site' k k')
    (x : Payload) : Facing r (.unwindScript site x) (.unwindScript site' x) k k'

/-- The states of the two runs while the call is at work. They agree in everything but what has
control and what waits. -/
inductive Alike (r : Rerun φ σ) : Machine φ σ → Machine φ σ → Prop
  | intro (m : Machine φ σ) (focus : Focus φ σ) (control : List (Frame φ σ))
    (facing : r.Facing m.focus focus m.control control) :
    Alike r m { m with focus := focus, control := control }

/-- The next function of the call is refused, as many being active as the smaller limit allows. -/
inductive Refused (r : Rerun φ σ) (m : Machine φ σ) : Prop
  | intro (c : Call φ σ) (serves : c.Serves r.request r.origin r.checkpoint)
    (control : m.control = r.rest) (a : Activation) (focus : m.focus = .code c a)
    (turn : c.turn a = .leave c (.error c.limitError))

variable {r : Rerun φ σ} {c c' : Call φ σ} {k k' : List (Frame φ σ)} {site site' : Site}

theorem Peers.env (h : r.Peers c c' k k') : c.site.env = c'.site.env := by
  cases h <;> rfl

theorem Waits.env : ∀ {site site' : Site} {k k' : List (Frame φ σ)},
    r.Waits site site' k k' → site.env = site'.env
  | _, _, _, _, .hostCall _ _ _ _ peers _ _ _ => peers.env
  | _, _, _, _, .captured _ _ _ _ waits _ _ _ => waits.env
  | _, _, _, _, .guarded _ _ _ _ waits _ _ => waits.env

namespace Peers

theorem waiting_eq (h : r.Peers c c' k k') : c'.waiting = c.waiting := by
  cases h <;> rfl

theorem depth_eq (h : r.Peers c c' k k') : c'.depth = c.depth := by
  cases h <;> rfl

theorem checkpoint_eq (h : r.Peers c c' k k') : c'.checkpoint = c.checkpoint := by
  cases h <;> rfl

theorem storage_eq (h : r.Peers c c' k k') : c'.storage = c.storage := by
  cases h <;> rfl

/-- The calls stay what they are to each other when other activations wait. -/
theorem waiting (h : r.Peers c c' k k') (waiting : List (Activation × Option ValueId))
    (depth : Nat) :
    r.Peers { c with waiting := waiting, depth := depth }
      { c' with waiting := waiting, depth := depth } k k' := by
  cases h with
  | own _ serves =>
    exact .own { c with waiting := waiting, depth := depth } ⟨serves.1, serves.2, serves.3⟩
  | nested _ site site' next made _ _ waits blind =>
    exact .nested { c with waiting := waiting, depth := depth } site site' next made k k' waits
      blind

/-- Generated code does the same in the two runs, unless it is refused a function. -/
theorem turn (le : r.request.config.maxHelperDepth ≤ r.limit) (h : r.Peers c c' k k')
    {a : Activation} (goes : c.Serves r.request r.origin r.checkpoint → k = r.rest →
      c.turn a ≠ .leave c (.error c.limitError)) :
    ∃ limit origin, c'.turn a = (c.turn a).vary limit origin ∧
      r.Peers (c.turn a).call ((c.turn a).call.vary limit origin) k k' := by
  cases h with
  | own _ serves =>
    have same : r.Peers (c.turn a).call ((c.turn a).call.vary r.limit (c.turn a).call.origin)
        r.rest r.rest := .own _ (serves.turn a)
    rw [c.turn_origin a] at same
    exact ⟨_, _, Call.turn_vary (serves.request ▸ le) fun refused =>
      absurd refused (goes serves rfl), same⟩
  | nested _ site site' next made _ _ waits blind =>
    have same := Peers.nested (r := r) (c.turn a).call site site' next
      ((c.turn_origin a).trans made) k k' waits blind
    rw [c.turn_request a] at same
    exact ⟨_, _, Call.turn_vary (Nat.le_refl _) fun _ => rfl, same⟩

end Peers

/-- A host function does the same in the two runs. -/
theorem Peers.blind (ignores : r.request.HostsIgnoreConfig p) (h : r.Peers c c' k k')
    {entry : HostEntry φ} (offered : entry ∈ c.request.hosts.entries) (args : List Val) :
    (p.behaviour entry.function args).Blind c.site.config c'.site.config := by
  cases h with
  | own _ serves => exact ignores entry (serves.request ▸ offered) args _ _
  | nested => exact Script.blind_self _ _

/-! ## Steps -/

variable {m : Machine φ σ} {f' : Focus φ σ}

/-- The two runs go on side by side, or nothing tells them apart any more. -/
def Together (r : Rerun φ σ) (m m' : Machine φ σ) : Prop := r.Alike m m' ∨ m' = m

/-- The result of a call reaches the one who made it in both runs. The one who made the call that is
run twice is the same. -/
theorem Peers.deliver (h : r.Peers c c' m.control k') (x : Except BridgeError Outcome) :
    r.Together (m.deliver c.origin x)
      ({ m with focus := f', control := k' }.deliver c'.origin x) := by
  generalize eq : m.control = k at h
  cases h with
  | own _ serves =>
    refine .inr ?_
    rw [← eq]
    show Machine.deliver _ c.origin x = _
    cases c.origin <;> rfl
  | nested _ site site' next made _ _ waits blind =>
    refine .inl ?_
    rw [made]
    exact .intro (m.goto (.script site (next x))) _ k'
      (.script site site' _ k' (eq ▸ waits) _ (blind x))

theorem Peers.propagate (h : r.Peers c c' m.control k') (x : Payload) :
    r.Together (m.propagate c.origin x)
      ({ m with focus := f', control := k' }.propagate c'.origin x) := by
  generalize eq : m.control = k at h
  cases h with
  | own _ serves =>
    refine .inr ?_
    rw [← eq]
    show Machine.propagate _ c.origin x = _
    cases c.origin <;> rfl
  | nested _ site site' next made _ _ waits blind =>
    refine .inl ?_
    rw [made]
    exact .intro (m.goto (.unwindScript site x)) _ k'
      (.unwindScript site site' _ k' (eq ▸ waits) x)

/-- What unwinds out of a call reaches the one who made it in both runs. -/
theorem Peers.stepUnwind (h : r.Peers c c' m.control k') (x : Payload) :
    r.Together (m.stepUnwind c x)
      ({ m with focus := f', control := k' }.stepUnwind c' x) := by
  cases own : x.codeFor? c.checkpoint with
  | some code =>
    simp only [Machine.stepUnwind, h.checkpoint_eq, own, Machine.finishCall, h.storage_eq]
    exact Peers.deliver (m := m.popCheckpoint) h _
  | none =>
    rw [Machine.stepUnwind_eq _ own, Machine.stepUnwind_eq _ (h.checkpoint_eq ▸ own)]
    exact Peers.propagate (m := m.popCheckpoint) h x

theorem Peers.stepLeave (h : r.Peers c c' m.control k') (answer : Answer) :
    r.Together (m.stepLeave c answer)
      ({ m with focus := f', control := k' }.stepLeave c' answer) := by
  simp only [Machine.stepLeave, Call.ascend, h.waiting_eq, h.depth_eq]
  cases c.waiting with
  | nil =>
    simp only [Machine.finishCall, h.storage_eq]
    exact Peers.deliver (m := m.popCheckpoint) h _
  | cons w waiting =>
    cases answer with
    | error e => exact .inl (.intro _ _ k' (.leave _ _ _ _ (h.waiting waiting _) _))
    | ok v => exact .inl (.intro _ _ k' (.code _ _ _ _ (h.waiting waiting _) _))

theorem Peers.stepCode (le : r.request.config.maxHelperDepth ≤ r.limit)
    (ignores : r.request.HostsIgnoreConfig p) (h : r.Peers c c' m.control k') {a : Activation}
    (goes : c.Serves r.request r.origin r.checkpoint → m.control = r.rest →
      c.turn a ≠ .leave c (.error c.limitError)) :
    r.Alike (m.stepCode p c a) ({ m with focus := f', control := k' }.stepCode p c' a) := by
  obtain ⟨limit, origin, turn, peers⟩ := h.turn le goes
  have advance := c.turn_advance a
  simp only [Machine.stepCode, turn]
  generalize c.turn a = t at peers advance
  cases t with
  | code d b => exact .intro (m.goto (.code d b)) _ k' (.code _ _ _ _ peers b)
  | leave d answer => exact .intro (m.goto (.leave d answer)) _ k' (.leave _ _ _ _ peers answer)
  | abort d handle code =>
    exact .intro (m.goto (.unwind d (.raise m.live handle code))) _ k' (.unwind _ _ _ _ peers _)
  | host d b callee dst function args =>
    cases advance with
    | host _ _ _ _ _ entry offered =>
      exact .intro { m with
          focus := .script c.site (p.behaviour entry.function args)
          control := .hostCall c _ callee dst :: m.control } _ _
        (.script _ _ _ _ (.hostCall _ _ _ _ peers _ _ _) _ (peers.blind ignores offered args))

/-- A call begins in the same way in both runs, if the entry function starts in both. -/
theorem Peers.beginning (h : r.Peers c c' k k') {entry : FuncId}
    (same : c'.activate entry (Machine.entryArgs c') = c.activate entry (Machine.entryArgs c)) :
    r.Facing (c.beginning entry) (c'.beginning entry) k k' := by
  rw [Call.beginning, Call.beginning, same, Call.descend, Call.descend, h.depth_eq]
  cases c.activate entry (Machine.entryArgs c) with
  | ok a => exact .code _ _ _ _ (h.waiting [] _) a
  | error e => exact .leave _ _ _ _ h _

/-- So does a call that a script makes. -/
theorem Waits.enterCall (h : r.Waits site site' m.control k') (request : CallRequest φ)
    {next : Except BridgeError Outcome → Script φ σ}
    (blind : ∀ x, (next x).Blind site.config site'.config) :
    r.Alike (m.enterCall p request (.host site next))
      ({ m with focus := f', control := k' }.enterCall p request (.host site' next)) := by
  have refused : ∀ x, r.Alike (m.deliver (.host site next) x)
      ({ m with focus := f', control := k' }.deliver (.host site' next) x) :=
    fun x => .intro (m.goto (.script site (next x))) _ k' (.script _ _ _ _ h _ (blind x))
  cases prepared : request.prepare with
  | error e =>
    simp only [Machine.enterCall, prepared]
    exact refused _
  | ok ready =>
    by_cases full : request.config.maxCallDepth ≤ m.live.length
    · simp only [Machine.enterCall, prepared, if_pos full]
      exact refused _
    · rw [Machine.enterCall_eq prepared full,
        Machine.enterCall_eq (m := { m with focus := f', control := k' }) prepared full]
      let c := Machine.newCall p request ready.2 (m.nextCheckpoint p) (.host site next)
      let inner := m.pushCheckpoint (m.nextCheckpoint p)
      have peers : r.Peers c _ m.control k' := .nested c site site' next rfl _ _ h blind
      exact .intro (inner.goto (c.beginning ready.1)) _ k' (peers.beginning rfl)

theorem Waits.stepDone (h : r.Waits site site' m.control k') (answer : Answer) :
    r.Alike (m.stepDone site answer)
      ({ m with focus := f', control := k' }.stepDone site' answer) := by
  generalize eq : m.control = k at h
  simp only [Machine.stepDone, eq]
  cases h with
  | hostCall c c' k k' peers a callee dst =>
    let inner : Machine φ σ := { m with control := k }
    simp only [Machine.resume]
    split
    · exact .intro (inner.goto (.leave c _)) _ k' (.leave _ _ _ _ peers _)
    · exact .intro (inner.goto (.leave c _)) _ k' (.leave _ _ _ _ peers _)
    · exact .intro (inner.goto (.code c _)) _ k' (.code _ _ _ _ peers _)
  | captured _ _ k k' waits cp next blind =>
    exact .intro ({ m with control := k }.popCheckpoint.goto (.script site _)) _ k'
      (.script _ _ _ _ waits _ (blind _))
  | guarded _ _ k k' waits next blind =>
    exact .intro ({ m with control := k }.goto (.script site _)) _ k'
      (.script _ _ _ _ waits _ (blind _))

theorem Waits.stepUnwindScript (h : r.Waits site site' m.control k') (x : Payload) :
    r.Alike (m.stepUnwindScript site x)
      ({ m with focus := f', control := k' }.stepUnwindScript site' x) := by
  generalize eq : m.control = k at h
  simp only [Machine.stepUnwindScript, eq]
  cases h with
  | hostCall c c' k k' peers a callee dst =>
    exact .intro ({ m with control := k }.goto (.unwind c x)) _ k' (.unwind _ _ _ _ peers x)
  | captured _ _ k k' waits cp next blind =>
    let inner := { m with control := k }.popCheckpoint
    simp only
    split
    · exact .intro (inner.goto (.script site _)) _ k' (.script _ _ _ _ waits _ (blind _))
    · exact .intro (inner.goto (.unwindScript site x)) _ k' (.unwindScript _ _ _ _ waits x)
  | guarded _ _ k k' waits next blind =>
    exact .intro ({ m with control := k, held := m.held ++ [x] }.goto (.script site _)) _ k'
      (.script _ _ _ _ waits _ (blind _))

theorem Waits.stepScript (h : r.Waits site site' m.control k') {s : Script φ σ}
    (blind : s.Blind site.config site'.config) :
    r.Alike (m.stepScript p site s)
      ({ m with focus := f', control := k' }.stepScript p site' s) := by
  -- what a script does next is the same, and what it goes on with is as blind as it is
  have next : ∀ t : Script φ σ, t.Blind site.config site'.config →
      r.Alike (m.goto (.script site t))
        ({ m with focus := f', control := k' }.goto (.script site' t)) :=
    fun t blind => .intro (m.goto (.script site t)) _ k' (.script _ _ _ _ h t blind)
  have thrown : ∀ x, r.Alike (m.goto (.unwindScript site x))
      ({ m with focus := f', control := k' }.goto (.unwindScript site' x)) :=
    fun x => .intro (m.goto (.unwindScript site x)) _ k' (.unwindScript _ _ _ _ h x)
  cases s with
  | done answer => exact h.stepDone answer
  | panic text => exact thrown _
  | abortTo handle code => exact thrown _
  | rethrow ticket => exact thrown _
  | memory t => exact next _ (blind _)
  | depth t => exact next _ (blind _)
  | shared t => exact next _ (blind _)
  | environment t =>
    simp only [Machine.stepScript, ← h.env]
    exact next _ (blind _)
  | config t =>
    simp only [Machine.stepScript, ← blind.1]
    exact next _ blind.2
  | setMemory memory t =>
    exact .intro ({ m with memory := memory }.goto (.script site t)) _ k'
      (.script _ _ _ _ h t blind)
  | setShared state t =>
    exact .intro ({ m with shared := state }.goto (.script site t)) _ k'
      (.script _ _ _ _ h t blind)
  | capture maxDepth body t =>
    simp only [Machine.stepScript]
    split
    · exact next _ (blind.2 _)
    · let cp := m.nextCheckpoint p
      exact .intro ({ m.pushCheckpoint cp with control := .captured cp t :: m.control }.goto
        (.script site (body cp))) _ _
        (.script _ _ _ _ (.captured _ _ _ _ h cp t blind.2) _ (blind.1 cp))
  | guard body t =>
    exact .intro ({ m with control := .guarded t :: m.control }.goto (.script site body)) _ _
      (.script _ _ _ _ (.guarded _ _ _ _ h t blind.2) _ blind.1)
  | call request t => exact h.enterCall request blind

/-- **The runs stay together.** As long as no function is refused, the two runs go on side by side,
until the call is over and nothing tells them apart any more. -/
theorem Alike.step {m' : Machine φ σ} (le : r.request.config.maxHelperDepth ≤ r.limit)
    (ignores : r.request.HostsIgnoreConfig p) (h : r.Alike m m') (goes : ¬ r.Refused m) :
    r.Together (m.step p) (m'.step p) := by
  obtain ⟨focus', control', facing⟩ := h
  generalize eq : m.focus = f at facing
  generalize control : m.control = k at facing
  simp only [Machine.step, eq]
  cases facing with
  | code c c' _ _ peers a =>
    refine .inl (Peers.stepCode le ignores (control ▸ peers) fun serves outer refused => ?_)
    exact goes ⟨c, serves, outer, a, eq, refused⟩
  | leave c c' _ _ peers answer => exact Peers.stepLeave (control ▸ peers) answer
  | unwind c c' _ _ peers x => exact Peers.stepUnwind (control ▸ peers) x
  | script site site' _ _ waits s blind => exact .inl (Waits.stepScript (control ▸ waits) blind)
  | unwindScript site site' _ _ waits x => exact .inl (Waits.stepUnwindScript (control ▸ waits) x)

/-! ## Runs -/

/-- The next host call is the same in the two runs. -/
theorem Alike.hostCall_eq {m' : Machine φ σ} (le : r.request.config.maxHelperDepth ≤ r.limit)
    (h : r.Alike m m') (goes : ¬ r.Refused m) : m'.focus.hostCall? = m.focus.hostCall? := by
  obtain ⟨focus', control', facing⟩ := h
  generalize eq : m.focus = f at facing
  generalize control : m.control = k at facing
  cases facing with
  | code c c' _ _ peers a =>
    obtain ⟨limit, origin, turn, -⟩ := peers.turn le fun serves outer refused =>
      goes ⟨c, serves, control.trans outer, a, eq, refused⟩
    simp only [Focus.hostCall?, turn]
    cases c.turn a <;> rfl
  | _ => rfl

mutual

theorem Peers.checkpoint_mem : ∀ {c c' : Call φ σ} {k k' : List (Frame φ σ)},
    r.Peers c c' k k' → r.checkpoint ∈ c.checkpoint :: k.flatMap Frame.checkpoints
  | _, _, _, _, .own _ serves => serves.checkpoint ▸ List.mem_cons_self
  | _, _, _, _, .nested _ _ _ _ _ _ _ waits _ => List.mem_cons_of_mem _ waits.checkpoint_mem

theorem Waits.checkpoint_mem : ∀ {site site' : Site} {k k' : List (Frame φ σ)},
    r.Waits site site' k k' → r.checkpoint ∈ k.flatMap Frame.checkpoints
  | _, _, _, _, .hostCall _ _ _ _ peers _ _ _ => peers.checkpoint_mem
  | _, _, _, _, .captured _ _ _ _ waits _ _ _ => List.mem_cons_of_mem _ waits.checkpoint_mem
  | _, _, _, _, .guarded _ _ _ _ waits _ _ => waits.checkpoint_mem

end

/-- While the two runs differ, the call is at work. -/
theorem Alike.running {m' : Machine φ σ} (h : r.Alike m m') : r.checkpoint ∈ m.running := by
  obtain ⟨focus', control', facing⟩ := h
  rw [Machine.running]
  generalize m.focus = f at facing
  generalize m.control = k at facing
  cases facing with
  | code _ _ _ _ peers | leave _ _ _ _ peers | unwind _ _ _ _ peers => exact peers.checkpoint_mem
  | script _ _ _ _ waits | unwindScript _ _ _ _ waits => exact waits.checkpoint_mem

end Rerun

namespace Machine

/-- The host calls in a number of steps, in order, each with the extern that is called, the function
it stands for, and the arguments. -/
def hostCalls (p : Platform φ σ) (m : Machine φ σ) : Nat → List (ExternId × φ × List Val)
  | 0 => []
  | n + 1 => m.hostCalls p n ++ (m.run p n).focus.hostCall?.toList

end Machine

/-- In all steps in which no function has been refused, the two runs are together and have called
the same host functions. -/
theorem Rerun.Alike.run {r : Rerun φ σ} {m m' : Machine φ σ}
    (le : r.request.config.maxHelperDepth ≤ r.limit) (ignores : r.request.HostsIgnoreConfig p)
    (h : r.Alike m m') (n : Nat) :
    (∃ k < n, r.Refused (m.run p k)) ∨
      r.Together (m.run p n) (m'.run p n) ∧ m'.hostCalls p n = m.hostCalls p n := by
  induction n with
  | zero => exact .inr ⟨.inl h, rfl⟩
  | succ n ih =>
    rcases ih with ⟨k, lt, refused⟩ | ⟨alike | same, calls⟩
    · exact .inl ⟨k, Nat.lt_succ_of_lt lt, refused⟩
    · by_cases refused : r.Refused (m.run p n)
      · exact .inl ⟨n, Nat.lt_succ_self n, refused⟩
      · refine .inr ⟨?_, ?_⟩
        · rw [← Machine.step_run, ← Machine.step_run]
          exact alike.step le ignores refused
        · rw [Machine.hostCalls, Machine.hostCalls, calls, alike.hostCall_eq le refused]
    · refine .inr ⟨.inr ?_, ?_⟩
      · rw [← Machine.step_run, ← Machine.step_run, same]
      · rw [Machine.hostCalls, Machine.hostCalls, calls, same]

namespace Machine

/-- Within `n` steps a function of the call has been refused, because as many were active as its
limit allows, and the result of the call is that error. It is the entry function, at the start, or a
function that generated code has called. -/
structure StoppedByLimit (p : Platform φ σ) (request : CallRequest φ) (origin : Origin φ σ)
    (cp : Checkpoint) (rest : List (Frame φ σ)) (m : Machine φ σ) (n : Nat) : Prop where
  refused : ∃ k ≤ n, ∃ c : Call φ σ, c.Serves request origin cp ∧
    (k = 0 ∨ ∃ j c' a, k = j + 1 ∧ (m.run p j).focus = .code c' a) ∧
    (m.run p k).focus =
      .leave c (.error (.helperDepthExceeded request.config.maxHelperDepth))
  result : ∃ k ≤ n, ∃ last : Machine φ σ, last.control = rest ∧
    m.run p k =
      last.deliver origin (.error (.helperDepthExceeded request.config.maxHelperDepth))

variable {m : Machine φ σ} {request : CallRequest φ} {origin : Origin φ σ} {cp : Checkpoint}
  {rest : List (Frame φ σ)} {n : Nat}

/-- An error that leaves a function is the result of the call when it is over. -/
theorem result_of_leave {k : Nat} (le : k ≤ n) {c : Call φ σ}
    (serves : c.Serves request origin cp) (control : (m.run p k).control = rest) {e : BridgeError}
    (focus : (m.run p k).focus = .leave c (.error e)) (ended : cp ∉ (m.run p n).running) :
    ∃ j ≤ n, ∃ last : Machine φ σ, last.control = rest ∧
      m.run p j = last.deliver origin (.error e) := by
  refine ⟨k + (c.waiting.length + 1), ?_, (m.run p k).popCheckpoint, control, ?_⟩
  · refine Nat.not_lt.1 fun early => ended ?_
    obtain ⟨i, rfl⟩ := Nat.exists_eq_add_of_le le
    rw [run_add, run_leave_error focus i (by omega), running]
    exact List.mem_append_left _ (List.mem_singleton.2 serves.checkpoint.symm)
  · rw [run_add, run_error focus, serves.origin]

/-- The two runs begin together, unless the limit does not even allow the entry function. -/
theorem enterCall_rerun {limit : Nat} (le : request.config.maxHelperDepth ≤ limit)
    (m : Machine φ σ) (origin : Origin φ σ) :
    (∃ c : Call φ σ, c.Serves request origin (m.nextCheckpoint p) ∧
      (m.enterCall p request origin).focus = .leave c (.error c.limitError)) ∨
    Rerun.Together ⟨request, origin, m.nextCheckpoint p, m.control, limit⟩
      (m.enterCall p request origin) (m.enterCall p (request.withLimit limit) origin) := by
  have prepared' : (request.withLimit limit).prepare = request.prepare := rfl
  cases prepared : request.prepare with
  | error e =>
    simp only [enterCall, prepared', prepared]
    exact .inr (.inr rfl)
  | ok ready =>
    obtain ⟨entry, bindings⟩ := ready
    by_cases full : request.config.maxCallDepth ≤ m.live.length
    · have full' : (request.withLimit limit).config.maxCallDepth ≤ m.live.length := full
      simp only [enterCall, prepared', prepared, if_pos full, if_pos full']
      exact .inr (.inr rfl)
    · have room' : ¬ (request.withLimit limit).config.maxCallDepth ≤ m.live.length := full
      let c := newCall p request bindings (m.nextCheckpoint p) origin
      let inner := m.pushCheckpoint (m.nextCheckpoint p)
      have serves : c.Serves request origin (m.nextCheckpoint p) := ⟨rfl, rfl, rfl⟩
      rw [enterCall_eq prepared full, enterCall_eq (prepared'.trans prepared) room']
      rcases Nat.eq_zero_or_pos request.config.maxHelperDepth with none | some
      · have refused := c.activate_full (Nat.le_of_eq none) entry (entryArgs c)
        refine .inl ⟨c, serves, ?_⟩
        show c.beginning entry = _
        rw [Call.beginning, refused]
      · have same : (c.vary limit origin).activate entry (entryArgs c) =
            c.activate entry (entryArgs c) := Call.activate_vary le some entry (entryArgs c)
        exact .inr (.inl (.intro (inner.goto (c.beginning entry)) _ _
          ((Rerun.Peers.own c serves).beginning same)))

/-- **A larger limit changes nothing** for a call that its own does not stop, on a host whose
functions do not depend on the configuration: when the call is over, the machine is in the same
state, and the same host functions have been called in the same order with the same arguments. -/
theorem raise_limit {limit : Nat} (le : request.config.maxHelperDepth ≤ limit)
    (ignores : request.HostsIgnoreConfig p)
    (ended : m.nextCheckpoint p ∉ ((m.enterCall p request origin).run p n).running) :
    StoppedByLimit p request origin (m.nextCheckpoint p) m.control
        (m.enterCall p request origin) n ∨
      (m.enterCall p (request.withLimit limit) origin).run p n =
          (m.enterCall p request origin).run p n ∧
        (m.enterCall p (request.withLimit limit) origin).hostCalls p n =
          (m.enterCall p request origin).hostCalls p n := by
  have begins : (m.enterCall p request origin).control = m.control := enterCall_control ..
  rcases enterCall_rerun le m origin with ⟨c, serves, focus⟩ | alike | same
  · rw [Call.limitError, serves.request] at focus
    exact .inl ⟨⟨0, Nat.zero_le n, c, serves, .inl rfl, focus⟩,
      result_of_leave (Nat.zero_le n) serves begins focus ended⟩
  · rcases alike.run le ignores n with ⟨k, lt, refused⟩ | ⟨alike | same, calls⟩
    · obtain ⟨c, serves, control, a, focus, turn⟩ := refused
      have left : (m.enterCall p request origin).run p (k + 1) =
          ((m.enterCall p request origin).run p k).goto (.leave c (.error c.limitError)) := by
        rw [← step_run]
        simp only [Machine.step, focus, stepCode, turn, take]
      rw [Call.limitError, serves.request] at left
      have focus' := congrArg Machine.focus left
      exact .inl ⟨⟨k + 1, lt, c, serves, .inr ⟨k, c, a, rfl, focus⟩, focus'⟩,
        result_of_leave lt serves ((congrArg Machine.control left).trans control) focus' ended⟩
    · exact absurd alike.running ended
    · exact .inr ⟨same, calls⟩
  · rw [same]
    exact .inr ⟨rfl, rfl⟩

/-- An entry function with a helper that tells the host what it is given. -/
def telling : Module :=
  let edits : List Edit :=
    [.declareExtern "host.tell" ⟨[.word], none⟩ false,
      .declareHelper "tell" ⟨[.ptr, .word], none⟩ 0, .declareEntry "main",
      .select 0, .emit (.callExtern 0 [1]), .emit (.ret none),
      .select 1, .emit (.constWord 9), .emit (.callHelper 0 [2]), .emit (.returnStatus .stop)]
  (edits.foldl Manuscript.after (.new "telling")).module

/-- A host that keeps the words that it is told. -/
def keeping : Platform Unit (List Val) :=
  .within .usual fun _ args => .modifyShared (· ++ args) .silent

/-- The call of `telling` with room for the two functions that are active at once. -/
def tellingRequest : CallRequest Unit :=
  ⟨telling, 100, default, Registry.empty.register "host.tell" 1 (),
    { Config.default with maxHelperDepth := 2 }⟩

/-- With room for five functions the host is told the same, and the call ends in the same state. -/
theorem raise_limit_telling :
    let m : Machine Unit (List Val) := idle [] []
    let start := m.enterCall keeping tellingRequest .outside
    let start' := m.enterCall keeping (tellingRequest.withLimit 5) .outside
    tellingRequest.config.maxHelperDepth ≤ 5 ∧ tellingRequest.HostsIgnoreConfig keeping ∧
      m.nextCheckpoint keeping ∉ (start.run keeping 11).running ∧
      start'.run keeping 11 = start.run keeping 11 ∧
      start'.hostCalls keeping 11 = [(0, (), [.word 9])] := by
  intro m start start'
  have le : tellingRequest.config.maxHelperDepth ≤ 5 := by decide
  have ignores : tellingRequest.HostsIgnoreConfig keeping := fun _ _ _ _ _ _ => trivial
  have ended : m.nextCheckpoint keeping ∉ (start.run keeping 11).running := by decide +kernel
  have calls : start.hostCalls keeping 11 = [(0, (), [.word 9])] := by decide +kernel
  rcases raise_limit le ignores ended with stopped | ⟨same, calls'⟩
  · -- the limit does not stop the call, because it ends well
    have well : (start.run keeping 11).result? = some (.ok ⟨.stop, 100, []⟩) := by decide +kernel
    obtain ⟨k, before, last, -, ends⟩ := stopped.result
    obtain ⟨i, eq⟩ := Nat.exists_eq_add_of_le before
    rw [eq, run_add, ends, run_of_halted rfl] at well
    cases well
  · exact ⟨le, ignores, ended, same, calls'.trans calls⟩

end Machine

end HostBridge
