import Mathlib.Data.List.Forall2

/-!
# Computations that may fail

What follows from the success or the failure of a computation in `Except` that consists of others:
two after each other, or one for each item of a list. The last section has the same for readers in
`Option`: one for each item of a list, and the look-up of a key.
-/

set_option autoImplicit false

namespace HostBridge

variable {ε α β : Type}

theorem bind_eq_ok {x : Except ε α} {f : α → Except ε β} {b : β} :
    (x >>= f) = .ok b ↔ ∃ a, x = .ok a ∧ f a = .ok b := by
  cases x with
  | ok a =>
    refine ⟨fun h => ⟨a, rfl, h⟩, ?_⟩
    rintro ⟨_, eq, h⟩
    cases eq
    exact h
  | error e => exact ⟨nofun, nofun⟩

/-- A check and what follows it. -/
theorem seq_eq_ok {x : Except ε Unit} {f : Unit → Except ε β} {b : β} :
    (x >>= f) = .ok b ↔ x = .ok () ∧ f () = .ok b :=
  bind_eq_ok.trans ⟨fun ⟨_, first, rest⟩ => ⟨first, rest⟩, fun ⟨first, rest⟩ => ⟨(), first, rest⟩⟩

theorem bind_eq_error {x : Except ε α} {f : α → Except ε β} {e : ε} :
    (x >>= f) = .error e ↔ x = .error e ∨ ∃ a, x = .ok a ∧ f a = .error e := by
  cases x with
  | ok a =>
    refine ⟨fun h => .inr ⟨a, rfl, h⟩, ?_⟩
    rintro (eq | ⟨_, eq, h⟩)
    · cases eq
    · cases eq
      exact h
  | error e' =>
    refine ⟨fun h => .inl (by cases h; rfl), ?_⟩
    rintro (eq | ⟨_, eq, _⟩)
    · cases eq
      rfl
    · cases eq

/-- A list is gone through without failure exactly if no item fails. -/
theorem mapM_eq_ok {f : α → Except ε β} {xs : List α} {ys : List β} :
    xs.mapM f = .ok ys ↔ List.Forall₂ (fun x y => f x = .ok y) xs ys := by
  induction xs generalizing ys with
  | nil =>
    rw [List.mapM_nil, List.forall₂_nil_left_iff]
    exact ⟨fun h => (Except.ok.inj h).symm, fun h => by rw [h]; rfl⟩
  | cons x xs ih =>
    simp only [List.mapM_cons, bind_eq_ok]
    constructor
    · rintro ⟨y, first, ys', rest, eq⟩
      cases eq
      exact .cons first (ih.1 rest)
    · rintro (_ | ⟨first, rest⟩)
      exact ⟨_, first, _, ih.2 rest, rfl⟩

/-- If there is a failure, then it is that of the first item that fails. -/
theorem mapM_eq_error_iff {f : α → Except ε β} {xs : List α} {e : ε} :
    xs.mapM f = .error e ↔ ∃ before x after, xs = before ++ x :: after ∧
      (∀ y ∈ before, ∃ z, f y = .ok z) ∧ f x = .error e := by
  induction xs with
  | nil => exact ⟨nofun, by simp⟩
  | cons x xs ih =>
    simp only [List.mapM_cons, bind_eq_error]
    constructor
    · rintro (first | ⟨y, first, later | ⟨_, -, none⟩⟩)
      · exact ⟨[], x, xs, rfl, List.forall_mem_nil _, first⟩
      · obtain ⟨before, x', after, rfl, fine, fails⟩ := ih.1 later
        exact ⟨x :: before, x', after, rfl, List.forall_mem_cons.2 ⟨⟨y, first⟩, fine⟩, fails⟩
      · cases none
    · rintro ⟨_ | ⟨x', before⟩, x'', after, eq, fine, fails⟩ <;> cases eq
      · exact .inl fails
      · obtain ⟨⟨y, first⟩, fine⟩ := List.forall_mem_cons.1 fine
        exact .inr ⟨y, first, .inl (ih.2 ⟨before, x'', after, rfl, fine, fails⟩)⟩

theorem mapM_eq_error {f : α → Except ε β} {xs : List α} {e : ε} (h : xs.mapM f = .error e) :
    ∃ x ∈ xs, f x = .error e := by
  obtain ⟨before, x, after, rfl, -, fails⟩ := mapM_eq_error_iff.1 h
  exact ⟨x, List.mem_append_right before List.mem_cons_self, fails⟩

/-- Lists that match item by item match at every place. -/
theorem forall₂_getElem? {R : α → β → Prop} {xs : List α} {ys : List β} (h : List.Forall₂ R xs ys)
    {i : Nat} {y : β} (there : ys[i]? = some y) : ∃ x, xs[i]? = some x ∧ R x y := by
  induction h generalizing i with
  | nil => cases there
  | cons first _ ih =>
    cases i with
    | zero => exact ⟨_, rfl, Option.some.inj there ▸ first⟩
    | succ i => exact ih there

/-- The same of computations without a result. -/
theorem forM_eq_ok {ε α : Type} {f : α → Except ε Unit} {xs : List α} :
    xs.forM f = .ok () ↔ ∀ x ∈ xs, f x = .ok () := by
  induction xs with
  | nil => exact ⟨fun _ => List.forall_mem_nil _, fun _ => rfl⟩
  | cons x xs ih =>
    show (f x >>= fun _ => xs.forM f) = .ok () ↔ _
    rw [seq_eq_ok, List.forall_mem_cons, ← ih]

theorem forM_eq_error {ε α : Type} {f : α → Except ε Unit} {xs : List α} {e : ε}
    (h : xs.forM f = .error e) : ∃ x ∈ xs, f x = .error e := by
  induction xs with
  | nil => cases h
  | cons x xs ih =>
    rcases bind_eq_error.1 (show (f x >>= fun _ => xs.forM f) = .error e from h) with
      first | ⟨_, -, rest⟩
    · exact ⟨x, List.mem_cons_self, first⟩
    · obtain ⟨y, mem, fails⟩ := ih rest
      exact ⟨y, List.mem_cons_of_mem _ mem, fails⟩

/-- Computations that do the same with each item do the same with the list. -/
theorem forM_congr {ε α : Type} {f g : α → Except ε Unit} {xs : List α}
    (same : ∀ x ∈ xs, f x = g x) : xs.forM f = xs.forM g := by
  induction xs with
  | nil => rfl
  | cons x xs ih =>
    rw [List.forall_mem_cons] at same
    show (f x >>= fun _ => xs.forM f) = (g x >>= fun _ => xs.forM g)
    rw [same.1, ih same.2]

/-! ## Readers -/

/-- What is encoded item by item is read item by item. -/
theorem mapM_of_reads {encode : α → β} {decode : β → Option α} {xs : List α}
    (reads : ∀ x ∈ xs, decode (encode x) = some x) :
    (xs.map encode).mapM decode = some xs := by
  induction xs with
  | nil => rfl
  | cons x xs ih =>
    rw [List.forall_mem_cons] at reads
    rw [List.map_cons, List.mapM_cons, reads.1, ih reads.2]
    rfl

/-- An item is found by its key if no other item has this key. -/
theorem lookup_of_distinct [BEq α] [LawfulBEq α] {l : List (α × β)}
    (distinct : (l.map Prod.fst).Nodup) {key : α} {v : β} (mem : (key, v) ∈ l) :
    l.lookup key = some v := by
  induction l with
  | nil => cases mem
  | cons first l ih =>
    obtain ⟨other, rest⟩ := List.nodup_cons.1 distinct
    rcases List.mem_cons.1 mem with rfl | later
    · rw [List.lookup_cons_self]
    · have differs : key ≠ first.1 := by
        intro same
        exact other (same ▸ List.mem_map_of_mem later)
      rw [List.lookup_cons, beq_false_of_ne differs]
      exact ih rest later

end HostBridge
