import HostBridge.Proofs.CallInvariant
import HostBridge.Proofs.Calls
import HostBridge.Proofs.Checkpoints
import HostBridge.Proofs.Handles

/-!
# The handle at run time

Code that is guided by its handle keeps it: in every activation the parameter for the runtime block
holds the address of the block of the call, because it is given to the entry function, passed on to
every helper, and never written to. What is known of other values follows from it, and so every
access to memory is good.

* `Inst.effect_guided` — the effect of a guided instruction;
* `Call.turn_threaded` — the turn of a call whose activations have their handles;
* `Machine.handle_threaded` — in all runs, all calls of managed modules.
-/

set_option autoImplicit false

namespace HostBridge

variable {φ σ : Type}

/-- An error of generated code that uses an address which is not its own. -/
def BridgeError.IsAccessFault : BridgeError → Prop
  | .invalidAccess _ _ _ | .exec (.pointerOverflow _) => True
  | _ => False

/-! ## What is known of values -/

/-- What the code of a call is bound to. -/
structure Ground where
  module : Module
  /-- The address of the runtime block. -/
  base : Addr
  /-- The handle of the checkpoint. -/
  checkpoint : Addr

/-- The ground of a call. -/
def Call.ground (c : Call φ σ) : Ground := ⟨c.request.module, c.storage.base, c.checkpoint.handle⟩

/-- What is known of a value is true. -/
def Clue.Holds (g : Ground) : Clue → Val → Prop
  | inBlock offset, x => x = .ptr (BitVec.ofNat 64 (g.base.toNat + offset.toNat))
  | checkpoint, x => x = .ptr g.checkpoint

/-- What is known is true of all values that are defined. -/
def Clues.Hold (g : Ground) (k : Clues) (values : List (Option Val)) : Prop :=
  ∀ v clue x, k v = some clue → values[v]? = some (some x) → clue.Holds g x

theorem Clues.nothing_hold (g : Ground) (values : List (Option Val)) : nothing.Hold g values :=
  nofun

/-- What is learnt of a new value must be true of it, and then the rest stays true. -/
theorem Clues.Hold.put {g : Ground} {k : Clues} {values : List (Option Val)} (h : k.Hold g values)
    (dst : ValueId) {clue : Option Clue} {x : Option Val}
    (new : ∀ c y, clue = some c → x = some y → c.Holds g y) :
    (k.put dst clue).Hold g (values.set dst x) := by
  intro v c y known there
  by_cases same : v = dst
  · rw [same, Clues.put_self] at known
    rw [same, List.getElem?_set_self'] at there
    obtain ⟨_, -, eq⟩ := Option.map_eq_some_iff.1 there
    exact new c y known eq
  · rw [Clues.put_of_ne _ same] at known
    rw [List.getElem?_set_ne (Ne.symm same)] at there
    exact h v c y known there

/-! ## Activations -/

/-- An activation has its handle, and the rest of its code is guided by what is known. -/
structure Activation.Threaded (g : Ground) (a : Activation) : Prop where
  function : a.function ∈ g.module.functions
  handle : a.values[a.function.role.runtimeParam]? = some (some (.ptr g.base))
  guided : ∃ k : Clues, k.Hold g a.values ∧
    GuidedCode g.module a.function.role.runtimeParam k a.rest

/-- An activation that waits for the result of a call has its handle now and will have it then. -/
def Waits (g : Ground) (w : Activation × Option ValueId) : Prop :=
  w.1.Threaded g ∧ ∀ x, (w.1.receive w.2 x).Threaded g

namespace Activation.Threaded

variable {g : Ground} {a : Activation} {i : Inst} {rest : List Inst} {k : Clues}

/-- The activation after an instruction, with a result if the instruction has one. -/
theorem receive (h : a.Threaded g) (hold : k.Hold g a.values)
    (guided : GuidedCode g.module a.function.role.runtimeParam k (i :: rest)) (x : Option Val)
    (fits : ∀ clue y, i.clue? k = some clue → x = some y → clue.Holds g y) :
    ({ a with rest := rest }.receive i.dst? x).Threaded g := by
  obtain ⟨⟨other, -⟩, after⟩ := guided
  unfold Inst.learn at after
  cases dst : i.dst? with
  | none =>
    rw [dst] at after
    exact ⟨h.function, h.handle, k, hold, after⟩
  | some v =>
    rw [dst] at after other
    refine ⟨h.function, ?_, _, hold.put v fits, after⟩
    have ne : v ≠ a.function.role.runtimeParam := fun same => other (congrArg some same)
    exact (List.getElem?_set_ne ne).trans h.handle

/-- The activation while it waits for the result of an instruction, of which nothing is known. -/
theorem waits (h : a.Threaded g) (hold : k.Hold g a.values)
    (guided : GuidedCode g.module a.function.role.runtimeParam k (i :: rest))
    (unknown : i.clue? k = none) : Waits g ({ a with rest := rest }, i.dst?) := by
  refine ⟨⟨h.function, h.handle, i.learn k, fun v clue x known there => ?_, guided.2⟩,
    fun x => h.receive hold guided x fun clue y learnt _ => ?_⟩
  · cases dst : i.dst? with
    | none =>
      simp only [Inst.learn, dst] at known
      exact hold v clue x known there
    | some w =>
      simp only [Inst.learn, dst, unknown, Clues.put] at known
      split at known
      · cases known
      · exact hold v clue x known there
  · rw [unknown] at learnt
    cases learnt

/-- At the start of a block nothing is known but the handle. -/
theorem enter (h : a.Threaded g) (managed : g.module.Guided) {block : BlockId} {b : Activation}
    (entered : { a with rest := rest }.enter block = .ok b) : b.Threaded g := by
  obtain ⟨function, values, there⟩ := enter_ok entered
  rw [← function] at there
  have mem : b.function ∈ g.module.functions := by
    rw [function]
    exact h.function
  refine ⟨mem, ?_, .nothing, Clues.nothing_hold _ _, ?_⟩
  · rw [function, values]
    exact h.handle
  · exact managed _ mem _ (List.mem_iff_getElem?.2 ⟨_, there⟩)

/-- A function that is given the address of the runtime block has its handle. -/
theorem start (wf : g.module.WellFormed) (managed : g.module.Guided) {f : Func} {args : List Val}
    (mem : f ∈ g.module.functions) (arg : args[f.role.runtimeParam]? = some (.ptr g.base))
    (started : Activation.start f args = .ok a) : a.Threaded g := by
  obtain ⟨function, values, there⟩ := start_ok started
  have declared := wf.functions f mem
  have bound := Nat.lt_of_lt_of_le declared.runtimeParam_lt declared.params_le
  rw [← function] at there mem
  refine ⟨mem, ?_, .nothing, Clues.nothing_hold _ _, ?_⟩
  · rw [function, values]
    exact (initial_eq ..).2 ⟨arg, bound⟩
  · exact managed _ mem _ (List.mem_iff_getElem?.2 ⟨_, there⟩)

end Activation.Threaded

/-! ## Effects -/

/-- The storage of a call: its block fits into the address space and names the checkpoint. -/
structure Storage.Intact (g : Ground) (s : Storage) : Prop where
  base : s.base = g.base
  fits : s.Fits
  checkpoint : s.block.pointer .checkpoint = g.checkpoint

/-- What may come of a guided instruction. -/
def EffectGuided (g : Ground) (a : Activation) (k : Clues) (i : Inst) :
    Except BridgeError Effect → Prop
  | .error e => ¬ e.IsAccessFault
  | .ok (.define dst x) => i.dst? = some dst ∧ ∀ clue, i.clue? k = some clue → clue.Holds g x
  | .ok (.write s) => i.clue? k = none ∧ s.Intact g
  | .ok (.call dst callee xs) => ∃ vs, i = .call dst callee vs ∧ a.readAll vs = .ok xs
  | .ok (.callExtern dst callee xs) => ∃ vs, i = .callExtern dst callee vs ∧ a.readAll vs = .ok xs
  | .ok (.goto _) | .ok (.leave _) => True

section Effect

variable {g : Ground} {a : Activation} {k : Clues} {i : Inst} {s : Storage}

theorem EffectGuided.read {v : ValueId} {f : Val → Except BridgeError Effect}
    (h : ∀ x, a.read v = .ok x → EffectGuided g a k i (f x)) :
    EffectGuided g a k i (a.read v >>= f) := by
  cases read : a.read v with
  | error e =>
    rw [Activation.read_error read]
    exact not_false
  | ok x => exact h x read

theorem EffectGuided.readAll {vs : List ValueId} {f : List Val → Except BridgeError Effect}
    (h : ∀ xs, a.readAll vs = .ok xs → EffectGuided g a k i (f xs)) :
    EffectGuided g a k i (a.readAll vs >>= f) := by
  cases read : a.readAll vs with
  | error e =>
    obtain ⟨v, -, rfl⟩ := Activation.readAll_error read
    exact not_false
  | ok xs => exact h xs read

theorem EffectGuided.asWord {x : Val} {f : Word → Except BridgeError Effect}
    (h : ∀ w, EffectGuided g a k i (f w)) : EffectGuided g a k i (x.asWord >>= f) := by
  cases x with
  | word w => exact h w
  | ptr | i32 => exact not_false

theorem EffectGuided.pointer {v : ValueId} {addr : Addr} {f : Addr → Except BridgeError Effect}
    (read : a.read v = .ok (.ptr addr)) (h : EffectGuided g a k i (f addr)) :
    EffectGuided g a k i (a.read v >>= fun x => x.asPtr >>= f) := by
  rw [read]
  exact h

/-- If the address of a slot is known, then it is the address that is used. -/
theorem EffectGuided.slot {v : ValueId} {slot : Slot} {f : Addr → Except BridgeError Effect}
    (hold : k.Hold g a.values) (base : s.base = g.base)
    (known : k v = some (.inBlock slot.place)) (h : EffectGuided g a k i (f (s.slotAt slot))) :
    EffectGuided g a k i (a.read v >>= fun x => x.asPtr >>= f) := by
  refine .read ?_
  intro x read
  have address : x = .ptr (s.slotAt slot) := by
    rw [Storage.slotAt, base]
    exact hold v _ x known (Activation.read_ok.1 read)
  rw [address]
  exact h

/-- A guided instruction uses no address outside the runtime block, and it leaves the pointers in
the block as they are. -/
theorem Inst.effect_guided (h : a.Threaded g) (hold : k.Hold g a.values)
    (guided : i.Guided g.module a.function.role.runtimeParam k) (intact : s.Intact g) :
    EffectGuided g a k i (i.effect s a) := by
  obtain ⟨-, guided⟩ := guided
  cases i with
  | const dst value | constI32 dst value => exact ⟨rfl, nofun⟩
  | ptrOffset dst base offset =>
    obtain ⟨rfl, slot, rfl⟩ := guided
    have bound := Storage.slotAt_lt intact.fits slot
    rw [intact.base] at bound
    refine .pointer (Activation.read_ok.2 h.handle) ?_
    rw [Addr.add?_of_lt bound]
    refine ⟨rfl, ?_⟩
    rintro _ ⟨⟩
    rfl
  | load dst ty addr =>
    obtain ⟨slot, known, rfl⟩ := guided
    refine .slot hold intact.base known ?_
    rw [Storage.load_slot intact.fits]
    refine ⟨rfl, ?_⟩
    intro clue learnt
    simp only [Inst.clue?] at learnt
    split at learnt
    · rename_i checkpoint
      cases learnt
      have same : slot.place = (Slot.pointer .checkpoint).place :=
        Clue.inBlock.inj (Option.some.inj (known.symm.trans checkpoint.2))
      rw [Slot.eq_checkpoint_of_place same]
      exact congrArg Val.ptr intact.checkpoint
    · cases learnt
  | store addr value =>
    obtain ⟨field, known⟩ := guided
    refine .slot hold intact.base known (.read ?_)
    intro x _
    obtain ⟨block, stored, pointers⟩ := Storage.store_pointers intact.fits field x
    rw [stored]
    exact ⟨rfl, intact.base, intact.fits, (pointers _).trans intact.checkpoint⟩
  | loadByte dst base index => exact guided.elim
  | binary dst op lhs rhs =>
    exact .read fun _ _ => .asWord fun _ => .read fun _ _ => .asWord fun _ => ⟨rfl, nofun⟩
  | call dst callee args => exact .readAll fun _ read => ⟨args, rfl, read⟩
  | callExtern dst callee args => exact .readAll fun _ read => ⟨args, rfl, read⟩
  | jump target => trivial
  | branch cond thenBlock elseBlock => exact .read fun _ _ => .asWord fun _ => trivial
  | ret value =>
    cases value with
    | none => trivial
    | some v => exact .read fun _ _ => trivial
  | unreachable => exact not_false

end Effect

/-! ## Calls -/

/-- A call in which everything is in its place but, possibly, what has control. -/
structure Call.Threaded (p : Platform φ σ) (c : Call φ σ) : Prop where
  prepared : ∃ entry, c.request.prepare = .ok (entry, c.bindings)
  base : c.storage.base = p.blockAt c.checkpoint.depth
  intact : c.storage.Intact c.ground
  waiting : ∀ w ∈ c.waiting, Waits c.ground w

/-- What the turn of a threaded call comes to. -/
def TurnThreaded (p : Platform φ σ) (checkpoint : Addr) : Turn φ σ → Prop
  | .code c a => c.Threaded p ∧ a.Threaded c.ground
  | .leave c answer => c.Threaded p ∧ ∀ e, answer = .error e → ¬ e.IsAccessFault
  | .abort c handle _ => c.Threaded p ∧ handle = checkpoint
  | .host c a _ dst _ _ => c.Threaded p ∧ Waits c.ground (a, dst)

namespace Call

variable {p : Platform φ σ} {c : Call φ σ} {a : Activation}

theorem activate_harmless {callee : FuncId} {args : List Val} {e : BridgeError}
    (h : c.activate callee args = .error e) : ¬ e.IsAccessFault := by
  rcases activate_error h with ⟨-, rfl⟩ | ⟨-, rfl⟩ | ⟨f, -, -, rfl⟩ <;> exact not_false

theorem callee_harmless {id : ExternId} {args : List Val} {e : BridgeError}
    (h : c.callee id args = .error e) : ¬ e.IsAccessFault := by
  rcases callee_error h with ⟨-, rfl⟩ | ⟨-, ⟨_, _, rfl⟩ | rfl⟩ | ⟨slot, -, -, rfl⟩ <;>
    exact not_false

/-- A write to the runtime block leaves everything else in its place. -/
theorem Threaded.write (h : c.Threaded p) {s : Storage} (intact : s.Intact c.ground) :
    { c with storage := s }.ground = c.ground ∧ { c with storage := s }.Threaded p := by
  have same : { c with storage := s }.ground = c.ground :=
    congrArg (fun base => (⟨c.request.module, base, c.checkpoint.handle⟩ : Ground)) intact.base
  refine ⟨same, h.prepared, intact.base.trans h.base, ?_, ?_⟩
  · rw [same]
    exact intact
  · rw [same]
    exact h.waiting

/-- The function that is called gets its handle from its caller. -/
theorem Threaded.activate (wf : c.ground.module.WellFormed) (managed : c.ground.module.Guided)
    (ha : a.Threaded c.ground) {dst : Option ValueId} {callee : FuncId} {vs : List ValueId}
    {k : Clues} (guided : (Inst.call dst callee vs).Guided c.ground.module
      a.function.role.runtimeParam k) {xs : List Val} (read : a.readAll vs = .ok xs)
    {b : Activation} (activated : c.activate callee xs = .ok b) : b.Threaded c.ground := by
  obtain ⟨f, there, started⟩ := activate_ok activated
  obtain ⟨-, g, there', arg⟩ := guided
  obtain rfl := Option.some.inj (there.symm.trans there')
  obtain ⟨x, given, value⟩ :=
    forall₂_getElem? (List.Forall₂.flip (Activation.readAll_ok.1 read)) arg
  have same : x = .ptr c.ground.base := by
    rw [ha.handle] at value
    exact (Option.some.inj (Option.some.inj value)).symm
  exact .start wf managed (List.mem_iff_getElem?.2 ⟨_, there⟩) (same ▸ given) started

/-- An abort is to the checkpoint of the call. -/
theorem Threaded.abort (h : c.Threaded p) {k : Clues} (hold : k.Hold c.ground a.values)
    {dst : Option ValueId} {callee : ExternId} {vs : List ValueId}
    (guided : (Inst.callExtern dst callee vs).Guided c.ground.module
      a.function.role.runtimeParam k) {xs : List Val} (read : a.readAll vs = .ok xs)
    {handle : Addr} {code : Int32Bits} (called : c.callee callee xs = .ok (.abort handle code)) :
    handle = c.checkpoint.handle := by
  obtain ⟨bound, rfl⟩ := callee_abort called
  obtain ⟨entry, prepared⟩ := h.prepared
  obtain ⟨-, -, bindings⟩ := CallRequest.prepare_ok prepared
  obtain ⟨e, there, bind⟩ := forall₂_getElem? bindings bound
  obtain ⟨-, e', there', args⟩ := guided
  obtain rfl := Option.some.inj (there.symm.trans there')
  obtain ⟨v, w, rfl, known⟩ := args (Registry.bind_abort bind)
  obtain ⟨value, -⟩ := List.forall₂_cons.1 (Activation.readAll_ok.1 read)
  exact Val.ptr.inj (hold v _ _ known value)

/-- Everything stays in its place when the effect of an instruction is carried out. -/
theorem obey_threaded (wf : c.ground.module.WellFormed) (managed : c.ground.module.Guided)
    (hc : c.Threaded p) (ha : a.Threaded c.ground) {k : Clues} (hold : k.Hold c.ground a.values)
    {i : Inst} {rest : List Inst}
    (guided : GuidedCode c.ground.module a.function.role.runtimeParam k (i :: rest))
    {e : Effect} (effect : EffectGuided c.ground a k i (.ok e)) :
    TurnThreaded p c.checkpoint.handle (c.obey { a with rest := rest } e) := by
  cases e with
  | define dst x =>
    have next := ha.receive hold guided (some x) fun clue y learnt given => by
      cases given
      exact effect.2 clue learnt
    rw [effect.1] at next
    exact ⟨hc, next⟩
  | write s =>
    obtain ⟨same, threaded⟩ := hc.write effect.2
    have next := (ha.waits hold guided effect.1).1
    rw [← same] at next
    exact ⟨threaded, next⟩
  | goto target =>
    simp only [obey]
    split
    · rename_i b entered
      exact ⟨hc, ha.enter managed entered⟩
    · rename_i misstep failed
      refine ⟨hc, ?_⟩
      rintro _ ⟨⟩
      rw [(Activation.enter_error failed).2]
      exact not_false
  | leave v => exact ⟨hc, fun _ eq => by cases eq⟩
  | call dst callee xs =>
    obtain ⟨vs, rfl, read⟩ := effect
    have waits := ha.waits hold guided rfl
    simp only [obey]
    split
    · rename_i b activated
      have waiting : ∀ w ∈ ({ a with rest := rest }, dst) :: c.waiting, Waits c.ground w :=
        List.forall_mem_cons.2 ⟨waits, hc.waiting⟩
      exact ⟨⟨hc.prepared, hc.base, hc.intact, waiting⟩,
        Threaded.activate wf managed ha guided.1 read activated⟩
    · rename_i misstep failed
      refine ⟨hc, ?_⟩
      rintro _ ⟨⟩
      exact activate_harmless failed
  | callExtern dst callee xs =>
    obtain ⟨vs, rfl, read⟩ := effect
    simp only [obey]
    split
    · rename_i misstep failed
      refine ⟨hc, ?_⟩
      rintro _ ⟨⟩
      exact callee_harmless failed
    · rename_i handle code called
      exact ⟨hc, hc.abort hold guided.1 read called⟩
    · exact ⟨hc, ha.waits hold guided rfl⟩

/-- Everything stays in its place when generated code has its turn. -/
theorem turn_threaded (wf : c.ground.module.WellFormed) (managed : c.ground.module.Guided)
    (hc : c.Threaded p) (ha : a.Threaded c.ground) :
    TurnThreaded p c.checkpoint.handle (c.turn a) := by
  unfold turn
  split
  · refine ⟨hc, ?_⟩
    rintro _ ⟨⟩
    exact not_false
  · rename_i i rest eq
    obtain ⟨k, hold, guided⟩ := ha.guided
    rw [eq] at guided
    have effect := Inst.effect_guided ha hold guided.1 hc.intact
    split
    · rename_i e done
      rw [done] at effect
      exact obey_threaded wf managed hc ha hold guided effect
    · rename_i e failed
      rw [failed] at effect
      refine ⟨hc, ?_⟩
      rintro _ ⟨⟩
      exact effect

end Call

/-! ## Runs -/

/-- A managed module is threaded in every call of it. -/
def threading (p : Platform φ σ) : CallInvariant φ σ where
  code c a := c.request.module.ManagerEmitted → c.Threaded p ∧ a.Threaded c.ground
  leave c _ := c.request.module.ManagerEmitted → c.Threaded p
  unwind c := c.request.module.ManagerEmitted → c.Threaded p
  awaits c a _ dst :=
    c.request.module.ManagerEmitted → c.Threaded p ∧ Waits c.ground (a, dst)
  accepts _ _ _ := True

variable {p : Platform φ σ}

/-- A call starts with the address of its block as second argument of the entry function. -/
theorem threading_start (fits : p.BlocksFit) (request : CallRequest φ) {entry : FuncId}
    {bindings : List Binding} (cp : Checkpoint) (origin : Origin φ σ)
    (prepared : request.prepare = .ok (entry, bindings)) (managed : request.module.ManagerEmitted) :
    let c := Machine.newCall p request bindings cp origin
    c.Threaded p ∧ ∀ a, c.activate entry (Machine.entryArgs c) = .ok a → a.Threaded c.ground := by
  intro c
  obtain ⟨wf, guided⟩ := managed.guided
  refine ⟨⟨⟨entry, prepared⟩, rfl, ⟨rfl, fits _, ?_⟩, fun _ mem => by cases mem⟩, ?_⟩
  · exact RuntimeBlock.pointer_construct ..
  · intro a activated
    obtain ⟨f, there, started⟩ := Call.activate_ok activated
    obtain ⟨-, declared, -⟩ := CallRequest.prepare_ok prepared
    obtain ⟨g, there', role⟩ := wf.entry entry declared
    obtain rfl := Option.some.inj (there.symm.trans there')
    exact .start wf guided (List.mem_iff_getElem?.2 ⟨_, there⟩) (by rw [role]; rfl) started

theorem threading_stable (fits : p.BlocksFit) : (threading p).Stable p where
  start := fun request entry bindings cp origin prepared =>
    ⟨fun a activated managed =>
      have ⟨call, activation⟩ := threading_start fits request cp origin prepared managed
      ⟨⟨call.prepared, call.base, call.intact, call.waiting⟩, activation a activated⟩,
    fun _ managed => (threading_start fits request cp origin prepared managed).1⟩
  turn := fun c a code => by
    have request := c.turn_request a
    have threaded : c.request.module.ManagerEmitted →
        TurnThreaded p c.checkpoint.handle (c.turn a) :=
      fun managed => Call.turn_threaded managed.guided.1 managed.guided.2 (code managed).1
        (code managed).2
    cases turn : c.turn a <;> rw [turn] at request threaded <;> rw [← request] at threaded
    case code => exact threaded
    case leave => exact fun managed => (threaded managed).1
    case abort => exact fun managed => (threaded managed).1
    case host => exact ⟨threaded, Script.answers_of_forall (fun _ => trivial) _⟩
  back := fun c v a dst waiting leave eq managed => by
    have ⟨prepared, base, intact, waits⟩ := leave managed
    rw [eq] at waits
    exact ⟨⟨prepared, base, intact, fun w mem => waits w (List.mem_cons_of_mem _ mem)⟩,
      (waits _ List.mem_cons_self).2 v⟩
  fail := fun c e a dst waiting leave eq managed => by
    have ⟨prepared, base, intact, waits⟩ := leave managed
    rw [eq] at waits
    exact ⟨prepared, base, intact, fun w mem => waits w (List.mem_cons_of_mem _ mem)⟩
  resume := fun c a callee dst v awaits _ _ managed =>
    ⟨(awaits managed).1, (awaits managed).2.2 v⟩
  resumeFail := fun c a callee dst e awaits managed => (awaits managed).1
  unwind := fun c a callee dst awaits managed => (awaits managed).1

/-- The block of a call lies where blocks of its depth do, and in all of the given activations the
parameter for the runtime block has its address. -/
def Call.GivesHandle (p : Platform φ σ) (c : Call φ σ) (activations : List Activation) : Prop :=
  c.storage.base = p.blockAt c.checkpoint.depth ∧
    ∀ a ∈ activations, a.function ∈ c.request.module.functions ∧
      a.values[a.function.role.runtimeParam]? = some (some (.ptr c.storage.base))

theorem Call.Threaded.givesHandle {c : Call φ σ} (h : c.Threaded p) :
    c.GivesHandle p (c.waiting.map Prod.fst) := by
  refine ⟨h.base, ?_⟩
  intro a mem
  obtain ⟨w, waits, rfl⟩ := List.mem_map.1 mem
  exact ⟨(h.waiting w waits).1.function, (h.waiting w waits).1.handle⟩

theorem Call.Threaded.givesHandle_cons {c : Call φ σ} {a : Activation} (h : c.Threaded p)
    (ha : a.Threaded c.ground) : c.GivesHandle p (a :: c.waiting.map Prod.fst) := by
  refine ⟨h.base, ?_⟩
  intro b mem
  rcases List.mem_cons.1 mem with rfl | mem
  · exact ⟨ha.function, ha.handle⟩
  · exact h.givesHandle.2 b mem

namespace Machine

/-- **The handle is threaded.** Whatever runs on the machine, in every call of a managed module
every activation has the address of the call's runtime block as its handle. When its code has
control, it causes no fault by an address, and a status that it raises is a signal to the checkpoint
of its own call. -/
theorem handle_threaded (fits : p.BlocksFit) {m : Machine φ σ} (reach : Reachable p m) :
    (∀ w ∈ m.work, w.1.request.module.ManagerEmitted → w.1.GivesHandle p w.2) ∧
    (∀ c a, m.focus = .code c a → c.request.module.ManagerEmitted →
      (∀ c' e, c.turn a = .leave c' (.error e) → ¬ e.IsAccessFault) ∧
      (∀ c' handle code, c.turn a = .abort c' handle code →
        m.step p = m.goto (.unwind c' (.signal c.checkpoint.handle code)) ∧
        (m.step p).step p = (m.step p).finishCall c' .aborted (.ok code))) := by
  have holds := CallInvariant.holds (threading_stable fits) reach
  constructor
  · refine holds.work
      (fun c activations => c.request.module.ManagerEmitted → c.GivesHandle p activations)
      ?_ ?_ ?_ ?_
    · exact fun c a code managed => (code managed).1.givesHandle_cons (code managed).2
    · exact fun c answer leave managed => (leave managed).givesHandle
    · exact fun c unwind managed => (unwind managed).givesHandle
    · exact fun c a callee dst awaits managed =>
        (awaits managed).1.givesHandle_cons (awaits managed).2.1
  · intro c a focus managed
    have code := holds.focus
    rw [focus] at code
    have threaded := code.1 managed
    have turn := Call.turn_threaded managed.guided.1 managed.guided.2 threaded.1 threaded.2
    constructor
    · intro c' e eq
      rw [eq] at turn
      exact turn.2 e rfl
    · intro c' handle status eq
      rw [eq] at turn
      have innermost : m.live = c.checkpoint :: m.control.flatMap Frame.checkpoints := by
        rw [reach.balanced.live_eq, running, focus]
        rfl
      have raised : Payload.raise m.live handle status = .signal c.checkpoint.handle status := by
        rw [innermost, turn.2, Payload.raise, if_pos rfl]
      have own : c'.checkpoint = c.checkpoint := by
        have same := c.turn_checkpoint a
        rw [eq] at same
        exact same
      have signals : m.step p = m.goto (.unwind c' (.signal c.checkpoint.handle status)) := by
        simp only [step, focus, stepCode, eq, take, raised]
      refine ⟨signals, ?_⟩
      rw [signals]
      simp only [step, goto, stepUnwind, Payload.codeFor?, own, if_true]

/-- A helper that receives its handle behind another argument and gives up the call. -/
def surrender : Module :=
  let edits : List Edit :=
    [.declareHelper "giveUp" ⟨[.word, .ptr], none⟩ 1, .select 0, .emit (.raiseAbort .outOfGas),
      .declareEntry "main", .select 1, .emit (.constWord 7), .emit (.callHelper 0 [2]),
      .emit (.returnStatus .stop)]
  (edits.foldl Manuscript.after (.new "surrender")).module

theorem surrender_managerEmitted : surrender.ManagerEmitted :=
  ⟨_, Manuscript.Written.all _ (by simp [Edit.Managed, Emission.Managed]) (.new _), rfl⟩

/-- The helper is about to give up: it and the entry function, which waits for it, have their
handles. -/
theorem handle_threaded_surrender :
    let p : Platform Empty Unit := .within .usual fun f _ => f.elim
    let m := (startCall p ⟨surrender, 100, default, .empty, default⟩ [] ()).run p 5
    p.BlocksFit ∧ Reachable p m ∧
      ∃ c helper main, m.work = [(c, [helper, main])] ∧ c.request.module = surrender ∧
        c.GivesHandle p [helper, main] := by
  intro p m
  have fits : p.BlocksFit := .usual _
  have reach : Reachable p m := (Reachable.startCall ..).run 5
  have shape : m.work.map (fun w => (w.1.request.module, w.2.length)) = [(surrender, 2)] := by
    decide +kernel
  obtain ⟨⟨c, activations⟩, work, eq⟩ := List.map_eq_singleton_iff.1 shape
  obtain ⟨module, two⟩ := Prod.mk.inj eq
  obtain ⟨helper, main, rfl⟩ := List.length_eq_two.1 two
  have handles := (handle_threaded fits reach).1 (c, [helper, main]) (by simp [work])
  exact ⟨fits, reach, c, helper, main, work, module, handles (module ▸ surrender_managerEmitted)⟩

end Machine

end HostBridge
