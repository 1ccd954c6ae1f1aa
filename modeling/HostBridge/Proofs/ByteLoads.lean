import HostBridge.Proofs.Accesses
import HostBridge.Proofs.Anchors
import HostBridge.Proofs.BodyRuns

/-!
# Bytes behind the pointers of the buffers

Code asks for the pointer to a buffer and reads a byte at some distance behind it. The distance is a
word, so it may lead anywhere: into the buffer, behind its end, or out of the address space, and the
three regions of memory are looked at for every address that it leads to. It never leads to a wrong
byte as long as nothing else lies in the buffers or right behind them (`Environment.Guarded`).

* `Storage.loadByte_inside`, `Storage.loadByte_behind`, `Storage.loadByte_wide` — what memory has at
  a distance behind a buffer;
* `Machine.Reachable.env` — the environment of a call stays where it is;
* `Call.Anchored.fetch_goes` — code that asks for a pointer is given it;
* `Machine.loadByte_exact` — what comes of the instruction, in all runs.
-/

set_option autoImplicit false

namespace HostBridge

variable {φ σ : Type}

/-! ## What lies behind a buffer -/

/-- A place in memory is one of the runtime block or of a buffer. -/
def Environment.Maps (env : Environment) (base : Addr) (i : Nat) : Prop :=
  i ∈ places base runtimeDataSize ∨ ∃ b : Buffer, i ∈ places (b.start env) (b.bytes env).length

/-- The buffers lie beside the runtime block, and after each of them come `slack` places at which
there is nothing. -/
structure Environment.Guarded (env : Environment) (base : Addr) : Prop where
  beside : env.Beside base
  room : ∀ b : Buffer,
    (b.start env).toNat + (b.bytes env).length + slack ≤ Bytes.capacity pointerSize
  unmapped : ∀ (b : Buffer) (i : Nat), (b.bytes env).length ≤ i →
    i < (b.bytes env).length + slack → ¬ env.Maps base ((b.start env).toNat + i)

/-- The usual address space leaves room behind buffers of almost the size of a zone. -/
theorem Environment.Guarded.usual {s : Snapshot}
    (callData : s.callData.length + slack ≤ AddressSpace.Zone.size)
    (code : s.code.length + slack ≤ AddressSpace.Zone.size) {depth : Nat}
    (block : depth * 0x10000 + runtimeDataSize ≤ AddressSpace.Zone.size) :
    (Environment.within .usual s).Guarded (AddressSpace.usual.blockAt depth) := by
  have size : AddressSpace.Zone.size = 0x4000000000 := rfl
  have whole : Bytes.capacity pointerSize = 2 ^ 64 := rfl
  have gap : slack = 65536 := rfl
  have callDataAt : (Buffer.callData.start (.within .usual s)).toNat = 0x7f0000000000 := rfl
  have codeAt : (Buffer.code.start (.within .usual s)).toNat = 0x7f4000000000 := rfl
  have callDataIs : Buffer.callData.bytes (.within .usual s) = s.callData := rfl
  have codeIs : Buffer.code.bytes (.within .usual s) = s.code := rfl
  have blockAt := AddressSpace.usual_blockAt_toNat block
  refine ⟨.usual (by omega) (by omega) block, ?_, ?_⟩
  · rintro (_ | _)
    · rw [callDataIs]
      omega
    · rw [codeIs]
      omega
  · rintro b i behind near (inside | ⟨b', inside⟩) <;> rw [mem_places] at inside
    · cases b <;> simp only [callDataIs, codeIs, callDataAt, codeAt] at behind near inside <;> omega
    · cases b <;> cases b' <;>
        simp only [callDataIs, codeIs, callDataAt, codeAt] at behind near inside <;> omega

namespace Storage

variable {s : Storage} {b : Buffer} {index : Word}

theorem start_buffer (s : Storage) (b : Buffer) : s.start b.region = b.start s.env := by
  cases b <;> rfl

theorem bytes_buffer (s : Storage) (b : Buffer) : s.bytes b.region = b.bytes s.env := by
  cases b <;> rfl

theorem region_ne_block (b : Buffer) : b.region ≠ .block := by
  cases b <;> exact nofun

/-- A region that holds a byte maps its place. -/
theorem maps_of_holds {r : Region} {a : Addr} (holds : s.Holds r a 1) :
    s.env.Maps s.base a.toNat := by
  obtain ⟨after, inside⟩ := holds
  have within : a.toNat ∈ places (s.start r) (s.bytes r).length := by
    rw [mem_places]
    omega
  cases r with
  | block =>
    rw [show (s.bytes .block).length = runtimeDataSize from s.block.length_eq] at within
    exact .inl within
  | callData => exact .inr ⟨.callData, within⟩
  | code => exact .inr ⟨.code, within⟩

/-- An index inside a buffer leads to its byte there. -/
theorem loadByte_inside (guarded : s.env.Guarded s.base) {byte : UInt8}
    (there : (b.bytes s.env)[index.toNat]? = some byte) :
    s.loadByte (b.start s.env) index = .ok (BitVec.ofNat 256 byte.toNat) := by
  rw [← s.start_buffer]
  rw [← s.bytes_buffer] at there
  exact loadByte_buffer guarded.beside (region_ne_block b) index there

/-- An index behind the end of a buffer leads nowhere. -/
theorem loadByte_behind (guarded : s.env.Guarded s.base)
    (behind : (b.bytes s.env).length ≤ index.toNat)
    (near : index.toNat < (b.bytes s.env).length + Environment.slack) :
    s.loadByte (b.start s.env) index = .error
      (.invalidAccess (BitVec.ofNat 64 ((b.start s.env).toNat + index.toNat)) 1 false) := by
  have room := guarded.room b
  have bound : (b.start s.env).toNat + index.toNat < Bytes.capacity pointerSize := by omega
  have place : (BitVec.ofNat 64 ((b.start s.env).toNat + index.toNat) : Addr).toNat =
      (b.start s.env).toNat + index.toNat :=
    (BitVec.toNat_ofNat ..).trans (Nat.mod_eq_of_lt bound)
  have outside (r : Region) :
      ¬ s.Holds r (BitVec.ofNat 64 ((b.start s.env).toNat + index.toNat)) 1 := by
    intro holds
    have maps := maps_of_holds holds
    rw [place] at maps
    exact guarded.unmapped b index.toNat behind near maps
  rw [loadByte_eq, if_pos bound, fetch_outside outside]
  rfl

/-- An index that is no address is not looked up. -/
theorem loadByte_wide (s : Storage) (a : Addr) (wide : Bytes.capacity pointerSize ≤ index.toNat) :
    s.loadByte a index = .error (.invalidAccess a 1 false) := by
  rw [loadByte_eq, if_neg]
  omega

end Storage

/-! ## The environment of a call -/

/-- What is written to memory is written to the runtime block. -/
theorem Inst.effect_env {s s' : Storage} {a : Activation} {i : Inst}
    (done : i.effect s a = .ok (.write s')) : s'.env = s.env := by
  cases i with
  | store addr value =>
    simp only [effect, bind_eq_ok] at done
    obtain ⟨x, -, place, -, y, -, t, stored, done⟩ := done
    cases done
    obtain ⟨-, rfl⟩ := Storage.store_eq_ok stored
    rfl
  | const | constI32 | jump | unreachable => cases done
  | ptrOffset =>
    simp only [effect, bind_eq_ok] at done
    obtain ⟨-, -, addr, -, done⟩ := done
    split at done <;> cases done
  | load =>
    simp only [effect, bind_eq_ok] at done
    obtain ⟨-, -, addr, -, x, -, done⟩ := done
    cases done
  | loadByte =>
    simp only [effect, bind_eq_ok] at done
    obtain ⟨-, -, addr, -, -, -, index, -, w, -, done⟩ := done
    cases done
  | binary =>
    simp only [effect, bind_eq_ok] at done
    obtain ⟨-, -, x, -, -, -, y, -, done⟩ := done
    cases done
  | call | callExtern =>
    simp only [effect, bind_eq_ok] at done
    obtain ⟨xs, -, done⟩ := done
    cases done
  | branch =>
    simp only [effect, bind_eq_ok] at done
    obtain ⟨-, -, w, -, done⟩ := done
    cases done
  | ret value =>
    cases value with
    | none => cases done
    | some v =>
      simp only [effect, bind_eq_ok] at done
      obtain ⟨x, -, done⟩ := done
      cases done

namespace Call

/-- A turn of generated code does not change the environment. -/
theorem turn_env (c : Call φ σ) (a : Activation) :
    (c.turn a).call.storage.env = c.storage.env := by
  unfold turn
  split
  · rfl
  · split
    · rename_i effect done
      cases effect with
      | write s' => exact Inst.effect_env done
      | define | leave => rfl
      | goto | call | callExtern =>
        simp only [obey]
        split <;> rfl
    · rfl

/-- The memory of a call has the environment of its request. -/
def Housed (c : Call φ σ) : Prop := c.storage.env = c.request.env

theorem Housed.turn {c : Call φ σ} (h : c.Housed) (a : Activation) : (c.turn a).call.Housed := by
  rw [Housed, c.turn_env, c.turn_request]
  exact h

end Call

variable {p : Platform φ σ}

/-- Every call has its environment in memory. -/
def housing (φ σ : Type) : CallInvariant φ σ where
  code c _ := c.Housed
  leave c _ := c.Housed
  unwind c := c.Housed
  awaits c _ _ _ := c.Housed
  accepts _ _ _ := True

theorem housing_stable : (housing φ σ).Stable p where
  start := fun request entry bindings cp origin _ => ⟨fun _ _ => rfl, fun _ => rfl⟩
  turn := fun c a code => by
    have after := Call.Housed.turn code a
    cases turn : c.turn a <;> rw [turn] at after
    case host => exact ⟨after, Script.answers_of_forall (fun _ => trivial) _⟩
    all_goals exact after
  back := fun c v a dst waiting leave eq => leave
  fail := fun c e a dst waiting leave eq => leave
  resume := fun c a callee dst v awaits _ _ => awaits
  resumeFail := fun c a callee dst e awaits => awaits
  unwind := fun c a callee dst awaits => awaits

namespace Machine

variable {m : Machine φ σ} {c : Call φ σ} {a : Activation}

/-- The environment of a call stays in its memory as it is. -/
theorem Reachable.env (reach : Reachable p m) (focus : m.focus = .code c a) :
    c.storage.env = c.request.env := by
  have holds := (CallInvariant.holds (housing_stable (p := p)) reach).focus
  rw [focus] at holds
  exact holds.1

end Machine

/-! ## The instructions -/

/-- Code that asks for a pointer is given it. -/
theorem Call.Anchored.fetch_goes {c : Call φ σ} {a : Activation} (call : c.Anchored)
    (activation : a.Anchored c.anchor) (orderly : c.anchor.module.Orderly) {slot : PointerSlot}
    {addr v : ValueId} {rest : List Inst}
    (next : a.rest = .ptrOffset addr a.function.role.runtimeParam (Slot.pointer slot).place ::
      .load v .ptr addr :: rest) :
    ∃ b, c.Goes 2 a b ∧ b.Follows a rest ∧
      b.values[v]? = some (some (.ptr (c.storage.block.pointer slot))) := by
  have wf := orderly.wellFormed.functions _ activation.stands.function
  have room {i : Inst} (here : i ∈ a.function.insts) {w : ValueId} (dst : i.dst? = some w) :
      w < a.values.length := by
    rw [activation.stands.places]
    exact ((activation.numbered orderly).dst_bounds wf here dst).2
  let place := c.storage.slotAt (.pointer slot)
  let b := a.having (.load v .ptr addr :: rest) addr (.ptr place)
  have first : c.Goes 1 a b :=
    .define next (Inst.effect_place call.fits (Activation.read_ok.2 activation.handle) addr _)
  have stands : b.Stands c.anchor.module := activation.stands.next next (List.length_set ..)
  have found : b.read addr = .ok (.ptr place) :=
    Activation.read_having (room (activation.stands.mem_insts next) rfl)
  have second : c.Goes 1 b (b.having rest v (.ptr (c.storage.block.pointer slot))) := by
    refine .define rfl ?_
    simp only [Inst.effect, found]
    show (c.storage.load (Slot.pointer slot).ty place >>= _) = _
    rw [Storage.load_slot call.fits]
    rfl
  refine ⟨_, first.trans second, Activation.having_follows.trans Activation.having_follows, ?_⟩
  refine Activation.having_self ?_
  rw [Activation.length_having]
  exact room (stands.mem_insts rfl) rfl

/-- A byte is read where the operands say, and the function goes on with it or is left with the
fault. -/
theorem Call.turn_loadByte {c : Call φ σ} {a : Activation} {dst pointer index : ValueId}
    {rest : List Inst} {addr : Addr} {i : Word}
    (next : a.rest = .loadByte dst pointer index :: rest)
    (place : a.values[pointer]? = some (some (.ptr addr)))
    (number : a.values[index]? = some (some (.word i))) :
    c.turn a = match c.storage.loadByte addr i with
      | .ok w => .code c (a.having rest dst (.word w))
      | .error e => .leave c (.error e) := by
  have effect : (Inst.loadByte dst pointer index).effect c.storage a =
      (c.storage.loadByte addr i).map fun w => .define dst (.word w) := by
    simp only [Inst.effect, Activation.read_ok.2 place, Activation.read_ok.2 number]
    show (c.storage.loadByte addr i >>= _) = _
    cases c.storage.loadByte addr i <;> rfl
  simp only [turn, next, effect]
  cases c.storage.loadByte addr i <;> rfl

namespace Machine

variable {m : Machine φ σ} {c : Call φ σ} {a : Activation}

/-- With an error that its code makes a call is over, whatever waits in it. -/
theorem run_turn_error {e : BridgeError} (focus : m.focus = .code c a)
    (turn : c.turn a = .leave c (.error e)) :
    m.run p (c.waiting.length + 2) = m.popCheckpoint.deliver c.origin (.error e) := by
  have step : m.step p = m.goto (.leave c (.error e)) := by
    simp only [Machine.step, focus, stepCode, turn, take]
  rw [run_succ, step, run_error rfl]
  cases c.origin <;> rfl

/-- **What is read behind the pointer of a buffer is exact.** Code that keeps its pointers and asks
for the one of a buffer is given the address at which the environment has the buffer, and that is
what the value holds wherever it has been defined. Behind that address any code reads the byte of
the buffer at the index, if there is one. An index less than `slack` bytes behind the end ends the
call with a fault where the byte would be, and an index that is no address ends it with a fault at
the buffer itself, whatever functions wait in the call. -/
theorem loadByte_exact (fits : p.BlocksFit) (reach : Reachable p m) (focus : m.focus = .code c a)
    (guarded : c.request.env.Guarded c.storage.base) (b : Buffer) :
    (∀ id pointer, c.request.module.KeepsPointers →
      c.request.module.functions[id]? = some a.function →
      c.request.module.Answered id b.emission pointer →
      (∀ addr rest,
        a.rest = .ptrOffset addr a.function.role.runtimeParam (Slot.pointer b.slot).place ::
          .load pointer .ptr addr :: rest →
        ∃ a', m.run p 2 = m.goto (.code c a') ∧ a'.Follows a rest ∧
          a'.values[pointer]? = some (some (.ptr (b.start c.request.env)))) ∧
      ∀ x, a.values[pointer]? = some (some x) → x = .ptr (b.start c.request.env)) ∧
    ∀ dst pointer index rest (i : Word), a.rest = .loadByte dst pointer index :: rest →
      a.values[pointer]? = some (some (.ptr (b.start c.request.env))) →
      a.values[index]? = some (some (.word i)) →
      (∀ byte, (b.bytes c.request.env)[i.toNat]? = some byte →
        m.step p = m.goto (.code c (a.having rest dst (.word (BitVec.ofNat 256 byte.toNat))))) ∧
      ((b.bytes c.request.env).length ≤ i.toNat →
        i.toNat < (b.bytes c.request.env).length + Environment.slack →
        m.run p (c.waiting.length + 2) = m.popCheckpoint.deliver c.origin (.error
          (.invalidAccess (BitVec.ofNat 64 ((b.start c.request.env).toNat + i.toNat)) 1 false))) ∧
      (Bytes.capacity pointerSize ≤ i.toNat →
        m.run p (c.waiting.length + 2) = m.popCheckpoint.deliver c.origin (.error
          (.invalidAccess (b.start c.request.env) 1 false))) := by
  have env := reach.env focus
  rw [← env] at guarded ⊢
  refine ⟨?_, ?_⟩
  · intro id pointer keeps here asked
    obtain ⟨call, activation⟩ := reach.anchored fits focus asked.orderly keeps
    have asks : b.emission.run = Emission.answer (Emit.getPointer b.slot) := by cases b <;> rfl
    obtain ⟨f, there, reads⟩ := asked.reads asks
    obtain rfl := Option.some.inj (here.symm.trans there)
    rw [← call.buffers b]
    refine ⟨fun addr rest next => ?_, fun x held => ?_⟩
    · obtain ⟨a', goes, follows, held⟩ := call.fetch_goes activation asked.orderly next
      have runs := goes.run p m
      rw [← focus] at runs
      exact ⟨a', runs, follows, held⟩
    · exact (activation.known pointer x held).pointer _ reads
  · intro dst pointer index rest i next place number
    have turn := c.turn_loadByte next place number
    refine ⟨fun byte there => ?_, fun behind near => ?_, fun wide => ?_⟩
    · rw [Storage.loadByte_inside guarded there] at turn
      simp only [Machine.step, focus, stepCode, turn, take]
    · rw [Storage.loadByte_behind guarded behind near] at turn
      exact run_turn_error focus turn
    · rw [Storage.loadByte_wide _ _ wide] at turn
      exact run_turn_error focus turn

/-- Reads the byte at an index of the call data. -/
def peek (i : Word) : Module :=
  let edits : List Edit :=
    [.declareEntry "peek", .select 0, .emit .callDataPointer, .emit (.constWord i),
      .emit (.loadByte 3 4), .emit (.returnStatus .stop)]
  (edits.foldl Manuscript.after (.new "peek")).module

/-- It writes to nothing and calls nothing. -/
theorem peek_keepsPointers (i : Word) : (peek i).KeepsPointers := by
  have code : (peek i).functions.flatMap Func.insts =
      [.ptrOffset 2 1 (Slot.pointer .callData).place, .load 3 .ptr 2, .const 4 i, .loadByte 5 3 4,
        .constI32 6 Status.stop.code, .ret (some 6)] := rfl
  constructor
  · intro f mem addr value store
    have listed := List.mem_flatMap.2 ⟨f, mem, store⟩
    simp [code] at listed
  · intro f mem dst callee args call
    have listed := List.mem_flatMap.2 ⟨f, mem, call⟩
    simp [code] at listed

theorem peek_answered (i : Word) : (peek i).Answered 0 Buffer.callData.emission 3 :=
  ⟨"peek", [.declareEntry "peek", .select 0], [.emit (.constWord i), .emit (.loadByte 3 4),
    .emit (.returnStatus .stop)], _, rfl, rfl, rfl⟩

/-- Three bytes of call data. -/
def threeBytes : Environment := .within .usual { Snapshot.zero with callData := [10, 20, 30] }

/-- Nothing but memory. -/
def bare : Platform Empty Unit := .within .usual fun f _ => f.elim

/-- A call of the module that has just begun. -/
def opening (i : Word) : Machine Empty Unit :=
  startCall bare ⟨peek i, 100, threeBytes, .empty, default⟩ [] ()

/-- The same call when it is about to read the byte. -/
def peeking (i : Word) : Machine Empty Unit := (opening i).run bare 3

/-- The call whose code has control, and the activation in it. -/
def code? (m : Machine φ σ) : Option (Call φ σ × Activation) :=
  match m.focus with
  | .code c a => some (c, a)
  | _ => none

/-- Whether a call is one of the module in which nothing waits and the given instructions are
next. -/
def Peeks (i : Word) (next : List Inst) (c : Call Empty Unit) (a : Activation) : Prop :=
  c.request.module = peek i ∧ c.request.env = threeBytes ∧
    c.storage.base = AddressSpace.usual.blockAt 0 ∧ c.waiting.length = 0 ∧
    (peek i).functions[0]? = some a.function ∧ a.function.role = .entry ∧
    a.rest = next ++ a.rest.drop next.length

instance (i : Word) (next : List Inst) (c : Call Empty Unit) (a : Activation) :
    Decidable (Peeks i next c a) :=
  inferInstanceAs (Decidable (_ ∧ _))

/-- Whether the pointer and the index have been given. -/
def Given (i : Word) (a : Activation) : Prop :=
  a.values[3]?.join.isSome ∧ a.values[4]? = some (some (.word i))

instance (i : Word) (a : Activation) : Decidable (Given i a) :=
  inferInstanceAs (Decidable (_ ∧ _))

/-- The pointer is given. Then the byte at one is read, the byte at three is refused where it would
be, and an index of more than 64 bits is refused at the buffer itself. -/
theorem loadByte_exact_peek :
    (∃ c a a', (opening 1).focus = .code c a ∧
      Peeks 1 [.ptrOffset 2 1 (Slot.pointer .callData).place, .load 3 .ptr 2] c a ∧
      (opening 1).run bare 2 = (opening 1).goto (.code c a') ∧
      a'.values[3]? = some (some (.ptr 0x7f0000000000))) ∧
    (∃ c a, (peeking 1).focus = .code c a ∧ Peeks 1 [.loadByte 5 3 4] c a ∧ Given 1 a ∧
      (peeking 1).step bare = (peeking 1).goto (.code c (a.having (a.rest.drop 1) 5 (.word 20)))) ∧
    (∃ c a, (peeking 3).focus = .code c a ∧ Peeks 3 [.loadByte 5 3 4] c a ∧ Given 3 a ∧
      (peeking 3).run bare 2 = (peeking 3).popCheckpoint.deliver c.origin
        (.error (.invalidAccess 0x7f0000000003 1 false))) ∧
    ∃ c a, (peeking (1 <<< 64)).focus = .code c a ∧
      Peeks (1 <<< 64) [.loadByte 5 3 4] c a ∧ Given (1 <<< 64) a ∧
      (peeking (1 <<< 64)).run bare 2 = (peeking (1 <<< 64)).popCheckpoint.deliver c.origin
        (.error (.invalidAccess 0x7f0000000000 1 false)) := by
  have guarded : threeBytes.Guarded (AddressSpace.usual.blockAt 0) :=
    .usual (by decide) (by decide) (by decide)
  have opens (i : Word) : (opening i).Reachable bare := Reachable.startCall ..
  have found {m : Machine Empty Unit} (P : Call Empty Unit → Activation → Prop)
      [∀ c a, Decidable (P c a)] (shape : m.code?.any fun w => P w.1 w.2) :
      ∃ c a, m.focus = .code c a ∧ P c a := by
    cases focus : m.focus <;> rw [code?, focus] at shape
    case code c a => exact ⟨c, a, rfl, of_decide_eq_true shape⟩
    all_goals cases shape
  have law {i : Word} {c : Call Empty Unit} {a : Activation}
      (focus : (peeking i).focus = .code c a) (peeks : Peeks i [.loadByte 5 3 4] c a)
      (given : Given i a) :
      (∀ byte, (Buffer.callData.bytes threeBytes)[i.toNat]? = some byte →
        (peeking i).step bare = (peeking i).goto
          (.code c (a.having (a.rest.drop 1) 5 (.word (BitVec.ofNat 256 byte.toNat))))) ∧
      (3 ≤ i.toNat → i.toNat < 3 + Environment.slack →
        (peeking i).run bare 2 = (peeking i).popCheckpoint.deliver c.origin
          (.error (.invalidAccess (BitVec.ofNat 64 (0x7f0000000000 + i.toNat)) 1 false))) ∧
      (Bytes.capacity pointerSize ≤ i.toNat →
        (peeking i).run bare 2 = (peeking i).popCheckpoint.deliver c.origin
          (.error (.invalidAccess 0x7f0000000000 1 false))) := by
    obtain ⟨module, env, base, waiting, here, -, next⟩ := peeks
    obtain ⟨defined, number⟩ := given
    obtain ⟨pointed, loads⟩ := loadByte_exact (.usual _) ((opens i).run 3) focus
      (by rw [env, base]; exact guarded) .callData
    obtain ⟨x, held⟩ := Option.isSome_iff_exists.1 defined
    rw [Option.join_eq_some_iff] at held
    rw [module, env] at pointed
    rw [env, waiting] at loads
    rw [(pointed 0 3 (peek_keepsPointers i) here (peek_answered i)).2 x held] at held
    exact loads 5 3 4 _ i next held number
  refine ⟨?_, ?_, ?_, ?_⟩
  · obtain ⟨c, a, focus, peeks⟩ := found (m := opening 1)
      (Peeks 1 [.ptrOffset 2 1 (Slot.pointer .callData).place, .load 3 .ptr 2]) (by decide +kernel)
    obtain ⟨module, env, base, -, here, role, next⟩ := id peeks
    obtain ⟨pointed, -⟩ := loadByte_exact (.usual _) (opens 1) focus
      (by rw [env, base]; exact guarded) .callData
    rw [module, env, role] at pointed
    obtain ⟨asked, -⟩ := pointed 0 3 (peek_keepsPointers 1) here (peek_answered 1)
    obtain ⟨a', runs, -, held⟩ := asked 2 _ next
    exact ⟨c, a, a', focus, peeks, runs, held⟩
  · obtain ⟨c, a, focus, peeks, given⟩ := found (m := peeking 1)
      (fun c a => Peeks 1 [.loadByte 5 3 4] c a ∧ Given 1 a) (by decide +kernel)
    exact ⟨c, a, focus, peeks, given, (law focus peeks given).1 20 rfl⟩
  · obtain ⟨c, a, focus, peeks, given⟩ := found (m := peeking 3)
      (fun c a => Peeks 3 [.loadByte 5 3 4] c a ∧ Given 3 a) (by decide +kernel)
    exact ⟨c, a, focus, peeks, given, (law focus peeks given).2.1 (by decide) (by decide)⟩
  · obtain ⟨c, a, focus, peeks, given⟩ := found (m := peeking (1 <<< 64))
      (fun c a => Peeks (1 <<< 64) [.loadByte 5 3 4] c a ∧ Given (1 <<< 64) a) (by decide +kernel)
    exact ⟨c, a, focus, peeks, given, (law focus peeks given).2.2 (by decide)⟩

end Machine

end HostBridge
