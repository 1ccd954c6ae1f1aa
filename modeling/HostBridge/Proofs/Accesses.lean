import HostBridge.Proofs.Slots
import Mathlib.Order.Interval.Set.LinearOrder

/-!
# Accesses to memory

The three regions that generated code can address are ranges of exact numbers, and so are the bytes
of an access: nothing wraps around, not even at the end of the address space. This module says in
terms of such ranges (`places`, `Storage.span`) which accesses are good and what they see. The regions
must not overlap (`Storage.Apart`), but they may touch each other, be empty or reach up to the last
address.

* `Storage.store_iff` — a write is good exactly if it lies in the runtime block;
* `Storage.load_of_subset`, `Storage.load_outside` — a read is good exactly if it lies in one region,
  and it gives the bytes of that region;
* `Storage.load_store_self`, `Storage.load_store_of_disjoint` — what has been written is read back,
  and a read beside it is as before;
* `Storage.access_laws` — all of this, for every typed value at every address.
-/

set_option autoImplicit false

namespace HostBridge

/-- The places of `n` bytes from an address on, as exact numbers. -/
def places (a : Addr) (n : Nat) : Set Nat := Set.Ico a.toNat (a.toNat + n)

theorem mem_places {a : Addr} {n i : Nat} : i ∈ places a n ↔ a.toNat ≤ i ∧ i < a.toNat + n := Iff.rfl

/-- Two accesses meet nowhere. -/
def Beside (a : Addr) (m : Nat) (b : Addr) (n : Nat) : Prop :=
  ∀ i, i ∈ places a m → i ∉ places b n

/-- Accesses that do not meet lie one after the other, unless one of them is empty. -/
theorem beside_iff {a b : Addr} {m n : Nat} (first : 0 < m) (second : 0 < n) :
    Beside a m b n ↔ a.toNat + m ≤ b.toNat ∨ b.toNat + n ≤ a.toNat := by
  simp only [Beside, mem_places]
  constructor
  · intro apart
    have atStart := apart a.toNat
    have atOther := apart b.toNat
    omega
  · omega

/-- A value can be read off its bytes. -/
theorem Val.ofNumber_octets (v : Val) : ofNumber v.ty (Bytes.number v.octets.bytes) = v := by
  have number : v.octets.number = v.number := by
    rw [octets, Octets.number_ofNumber, Nat.mod_eq_of_lt v.number_lt]
  rw [show Bytes.number v.octets.bytes = v.number from number, ofNumber_number]

namespace Storage

variable {s t : Storage} {a b : Addr} {n : Nat} {v : Val} {ty : Ty} {r : Region}

/-- The places of a region. -/
def span (s : Storage) (r : Region) : Set Nat := places (s.start r) (s.bytes r).length

/-- No place belongs to two regions. -/
def Apart (s : Storage) : Prop :=
  ∀ r r' i, i ∈ s.span r → i ∈ s.span r' → r = r'

/-! ## Which accesses are good -/

theorem holds_iff (positive : 0 < n) : s.Holds r a n ↔ places a n ⊆ s.span r := by
  rw [Holds, span, places, places, Set.Ico_subset_Ico_iff (by omega)]
  omega

theorem Apart.eq_of_holds (apart : s.Apart) (positive : 0 < n) {r' : Region} (first : s.Holds r a n)
    (second : s.Holds r' a n) : r = r' := by
  have start : a.toNat ∈ places a n := by
    rw [mem_places]
    omega
  exact apart r r' _ ((holds_iff positive).1 first start) ((holds_iff positive).1 second start)

theorem resolve?_eq_none : s.resolve? a n = none ↔ ∀ r, ¬ s.Holds r a n := by
  rw [resolve?, List.find?_eq_none]
  constructor
  · intro none r
    have listed : r ∈ Region.all := by cases r <;> decide
    simpa using none r listed
  · intro none r _
    simpa using none r

/-- Regions that do not overlap can be looked at in any order. -/
theorem resolve?_eq_some (apart : s.Apart) (positive : 0 < n) :
    s.resolve? a n = some r ↔ s.Holds r a n := by
  constructor
  · exact holds_of_resolve?
  · intro holds
    cases found : s.resolve? a n with
    | none => exact absurd holds (resolve?_eq_none.1 found r)
    | some r' => rw [apart.eq_of_holds positive (holds_of_resolve? found) holds]

/-! ## Reads -/

theorem fetch_outside (outside : ∀ r, ¬ s.Holds r a n) :
    s.fetch a n = .error (.invalidAccess a n false) := by
  rw [fetch, resolve?_eq_none.2 outside]

/-- The only fault of a read is that it lies in no region. -/
theorem fetch_eq_error {e : BridgeError} (failed : s.fetch a n = .error e) :
    e = .invalidAccess a n false := by
  unfold fetch at failed
  split at failed
  · cases failed
  · cases failed
    rfl

theorem load_eq_error {e : BridgeError} (failed : s.load ty a = .error e) :
    e = .invalidAccess a ty.size false := by
  cases fetched : s.fetch a ty.size with
  | ok bytes =>
    rw [load, fetched] at failed
    cases failed
  | error e' =>
    rw [load, fetched] at failed
    cases failed
    exact fetch_eq_error fetched

theorem loadByte_eq_error {index : Word} {e : BridgeError}
    (failed : s.loadByte a index = .error e) : ∃ b, e = .invalidAccess b 1 false := by
  unfold loadByte at failed
  split at failed
  · next addr _ =>
    cases fetched : s.fetch addr 1 with
    | ok bytes =>
      rw [fetched] at failed
      cases failed
    | error e' =>
      rw [fetched] at failed
      cases failed
      exact ⟨_, fetch_eq_error fetched⟩
  · cases failed
    exact ⟨a, rfl⟩

theorem load_of_subset (apart : s.Apart) (inside : places a ty.size ⊆ s.span r) :
    s.load ty a =
      .ok (.ofNumber ty
        (Bytes.number (Bytes.slice (s.bytes r) (a.toNat - (s.start r).toNat) ty.size))) := by
  have found := (resolve?_eq_some apart ty.size_pos).2 ((holds_iff ty.size_pos).2 inside)
  rw [load, fetch, found]
  rfl

theorem load_outside (outside : ∀ r, ¬ places a ty.size ⊆ s.span r) :
    s.load ty a = .error (.invalidAccess a ty.size false) := by
  rw [load, fetch_outside fun r holds => outside r ((holds_iff ty.size_pos).1 holds)]
  rfl

/-! ## Writes -/

/-- What a good write has done. -/
theorem store_eq_ok (stored : s.store a v = .ok t) :
    ∃ holds : s.Holds .block a v.ty.size,
      t = { s with
        block := s.block.write (a.toNat - s.base.toNat) v.octets (fits_of_holds holds) } := by
  by_cases holds : s.Holds .block a v.ty.size
  · rw [store_of_holds holds] at stored
    cases stored
    exact ⟨holds, rfl⟩
  · rw [store_outside holds] at stored
    cases stored

/-- The only fault of a write is that it does not lie in the block. -/
theorem store_eq_error {e : BridgeError} (failed : s.store a v = .error e) :
    e = .invalidAccess a v.ty.size true := by
  by_cases holds : s.Holds .block a v.ty.size
  · rw [store_of_holds holds] at failed
    cases failed
  · rw [store_outside holds] at failed
    cases failed
    rfl

theorem store_iff : (∃ t, s.store a v = .ok t) ↔ places a v.ty.size ⊆ s.span .block := by
  rw [← holds_iff v.ty.size_pos]
  constructor
  · rintro ⟨t, stored⟩
    obtain ⟨holds, _⟩ := store_eq_ok stored
    exact holds
  · intro holds
    exact ⟨_, store_of_holds holds⟩

/-- A write is good exactly if the first region that holds it is the one that may be written. -/
theorem store_iff_resolve? :
    (∃ t, s.store a v = .ok t) ↔ s.resolve? a v.ty.size = some .block := by
  constructor
  · rintro ⟨t, stored⟩
    obtain ⟨holds, _⟩ := store_eq_ok stored
    exact List.find?_cons_of_pos (decide_eq_true holds)
  · intro found
    exact ⟨_, store_of_holds (holds_of_resolve? found)⟩

/-! ## Reads over writes -/

/-- A write does not move the regions. -/
theorem holds_of_store (stored : s.store a v = .ok t) (r : Region) (b : Addr) (n : Nat) :
    t.Holds r b n ↔ s.Holds r b n := by
  obtain ⟨holds, rfl⟩ := store_eq_ok stored
  cases r with
  | block =>
    simp only [Holds, bytes, Octets.length_eq]
    rfl
  | callData | code => exact Iff.rfl

theorem resolve?_of_store (stored : s.store a v = .ok t) (b : Addr) (n : Nat) :
    t.resolve? b n = s.resolve? b n := by
  simp only [resolve?, holds_of_store stored]

theorem load_store_self (stored : s.store a v = .ok t) : t.load v.ty a = .ok v := by
  have first : t.resolve? a v.ty.size = some .block := by
    rw [resolve?_of_store stored]
    exact store_iff_resolve?.1 ⟨t, stored⟩
  have fetched : t.fetch a v.ty.size = .ok v.octets.bytes := by
    obtain ⟨holds, rfl⟩ := store_eq_ok stored
    have written := Octets.read_write_self s.block _ v.octets (fits_of_holds holds)
    rw [fetch, first]
    exact congrArg (fun o => Except.ok (Octets.bytes o)) written
  rw [load, fetched, Except.map, v.ofNumber_octets]

theorem fetch_store_of_disjoint (stored : s.store a v = .ok t) (positive : 0 < n)
    (beside : Beside b n a v.ty.size) :
    t.fetch b n = s.fetch b n := by
  have order := (beside_iff positive v.ty.size_pos).1 beside
  rw [fetch, fetch, resolve?_of_store stored]
  obtain ⟨holds, rfl⟩ := store_eq_ok stored
  cases found : s.resolve? b n with
  | none => rfl
  | some r =>
    cases r with
    | block =>
      have there := holds_of_resolve? found
      have after : s.base.toNat ≤ b.toNat := there.1
      have after' : s.base.toNat ≤ a.toNat := holds.1
      have kept := Octets.read_write_of_disjoint s.block v.octets (fits_of_holds holds)
        (fits_of_holds there) (by omega)
      exact congrArg (fun o => Except.ok (Octets.bytes o)) kept
    | callData | code => rfl

theorem load_store_of_disjoint (stored : s.store a v = .ok t)
    (beside : Beside b ty.size a v.ty.size) :
    t.load ty b = s.load ty b := by
  rw [load, load, fetch_store_of_disjoint stored ty.size_pos beside]

/-- **Typed accesses are exact and obey the read-over-write laws.** If no two regions overlap, then a
write of a value is good exactly if all its places are in the runtime block. A read at the same
address then gives the value, and a read that does not meet it is as before, also if it is refused.
A read is good exactly if all its places are in one region, and gives the bytes that are there. -/
theorem access_laws (apart : s.Apart) (a : Addr) (v : Val) (ty : Ty) :
    ((∃ t, s.store a v = .ok t) ↔ places a v.ty.size ⊆ s.span .block) ∧
    (¬ places a v.ty.size ⊆ s.span .block →
      s.store a v = .error (.invalidAccess a v.ty.size true)) ∧
    (∀ t, s.store a v = .ok t →
      t.load v.ty a = .ok v ∧
      ∀ ty' b, Beside b ty'.size a v.ty.size → t.load ty' b = s.load ty' b) ∧
    ((∃ x, s.load ty a = .ok x) ↔ ∃ r, places a ty.size ⊆ s.span r) ∧
    (¬ (∃ r, places a ty.size ⊆ s.span r) →
      s.load ty a = .error (.invalidAccess a ty.size false)) ∧
    ∀ r, places a ty.size ⊆ s.span r →
      s.load ty a =
        .ok (.ofNumber ty
          (Bytes.number (Bytes.slice (s.bytes r) (a.toNat - (s.start r).toNat) ty.size))) := by
  refine ⟨store_iff, ?_, ?_, ?_, ?_, ?_⟩
  · intro outside
    exact store_outside fun holds => outside ((holds_iff v.ty.size_pos).1 holds)
  · intro t stored
    exact ⟨load_store_self stored, fun _ _ => load_store_of_disjoint stored⟩
  · constructor
    · rintro ⟨x, loaded⟩
      by_contra outside
      rw [load_outside (not_exists.1 outside)] at loaded
      cases loaded
    · rintro ⟨r, inside⟩
      exact ⟨_, load_of_subset apart inside⟩
  · intro outside
    exact load_outside (not_exists.1 outside)
  · intro r inside
    exact load_of_subset apart inside

/-- A block that ends with the address space, right after four bytes of call data, and no code. -/
def atTheEnd : Storage where
  base := -536
  block := .zeroed
  env := {
    snapshot := { Snapshot.zero with callData := [1, 2, 3, 4] }
    callDataAt := -540
    codeAt := -536 }

theorem span_atTheEnd (r : Region) :
    atTheEnd.span r = match r with
      | .block => Set.Ico 0xfffffffffffffde8 0x10000000000000000
      | .callData => Set.Ico 0xfffffffffffffde4 0xfffffffffffffde8
      | .code => Set.Ico 0xfffffffffffffde8 0xfffffffffffffde8 := by
  cases r with
  | block =>
    have size : (atTheEnd.bytes .block).length = 536 := RuntimeBlock.zeroed.length_eq
    rw [span, places, size]
    rfl
  | callData | code => rfl

theorem apart_atTheEnd : atTheEnd.Apart := by
  intro r r' i
  cases r <;> cases r' <;> simp only [span_atTheEnd, Set.mem_Ico] <;>
    rintro ⟨start, stop⟩ ⟨start', stop'⟩ <;> first | trivial | omega

/-- Minus one can be written to the last four bytes of the address space, beside a pointer that
stays. One byte further, or in the call data, it cannot. The call data can be read, but not together
with the first bytes of the block. -/
theorem access_laws_atTheEnd :
    (∃ t, atTheEnd.store (-4) (.i32 (-1)) = .ok t ∧ t.load .i32 (-4) = .ok (.i32 (-1)) ∧
      t.load .ptr (-12) = atTheEnd.load .ptr (-12)) ∧
    atTheEnd.store (-3) (.i32 (-1)) = .error (.invalidAccess (-3) 4 true) ∧
    atTheEnd.store (-540) (.i32 (-1)) = .error (.invalidAccess (-540) 4 true) ∧
    atTheEnd.load .i32 (-540) = .ok (.i32 0x04030201) ∧
    atTheEnd.load .word (-540) = .error (.invalidAccess (-540) 32 false) := by
  have laws := fun a ty => access_laws apart_atTheEnd a (.i32 (-1)) ty
  have size : (Val.i32 (-1)).ty.size = 4 := rfl
  refine ⟨?_, ?_, ?_, ?_, ?_⟩
  · obtain ⟨good, -, after, -⟩ := laws (-4) .ptr
    obtain ⟨t, stored⟩ : ∃ t, atTheEnd.store (-4) (.i32 (-1)) = .ok t := by
      rw [good, span_atTheEnd, places, size, Set.Ico_subset_Ico_iff] <;> decide
    obtain ⟨read, beside⟩ := after t stored
    refine ⟨t, stored, read, beside .ptr _ ?_⟩
    rw [beside_iff] <;> decide
  · apply (laws (-3) .ptr).2.1
    rw [span_atTheEnd, places, size, Set.Ico_subset_Ico_iff] <;> decide
  · apply (laws (-540) .ptr).2.1
    rw [span_atTheEnd, places, size, Set.Ico_subset_Ico_iff] <;> decide
  · obtain ⟨-, -, -, -, -, content⟩ := laws (-540) .i32
    refine (content .callData ?_).trans rfl
    rw [span_atTheEnd, places, Set.Ico_subset_Ico_iff] <;> decide
  · obtain ⟨-, -, -, -, refused, -⟩ := laws (-540) .word
    apply refused
    rintro ⟨r, inside⟩
    rw [span_atTheEnd, places] at inside
    cases r <;> rw [Set.Ico_subset_Ico_iff (by decide)] at inside <;> revert inside <;> decide

end Storage

end HostBridge
