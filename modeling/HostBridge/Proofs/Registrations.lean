import HostBridge.Proofs.HostResults
import Mathlib.Data.List.Dedup
import Mathlib.Data.List.Induction

/-!
# What registrations come to

A host offers its functions one after the other, each under a name, and may offer a name more than
once. `Registry.offering` is the registry after a list of registrations. A name owns its slot from
its first registration on, and the slot holds the last one; so generated code that calls an extern
runs what has been registered last under the name of the extern.

The registry has one list of entries with names. `Registry.Indexed` is the same with the names
apart, in an index from names to slots.

* `Registry.Mirrors.offer` — what one more registration does;
* `Registry.Indexed.Keeps.register` — the index stays in step with the entries;
* `Machine.Reachable.prepared` — every call at work has the bindings that it was prepared with;
* `Registry.offering_lastWriter` — the registry is a map in which the last writer wins.
-/

set_option autoImplicit false

namespace HostBridge

variable {φ σ : Type} {p : Platform φ σ}

namespace Registry

variable {r : Registry φ} {made : List (HostEntry φ)} {name : String} {slot : Nat}

/-! ## Names and slots -/

/-- The names on offer, by slot. -/
def names (r : Registry φ) : List String := r.entries.map (·.name)

/-- Registers an entry. -/
def offer (r : Registry φ) (e : HostEntry φ) : Registry φ := r.register e.name e.arity e.function

/-- The registry after a list of registrations, the first of them first. -/
def offering (made : List (HostEntry φ)) : Registry φ := made.foldl offer empty

theorem offering_append (made more : List (HostEntry φ)) :
    offering (made ++ more) = more.foldl offer (offering made) :=
  List.foldl_append

theorem slot?_eq (r : Registry φ) (name : String) : r.slot? name = r.names.idxOf? name := by
  rw [names, List.idxOf?, List.findIdx?_map]
  rfl

theorem slot?_eq_none : r.slot? name = none ↔ name ∉ r.names := by
  rw [slot?_eq, List.idxOf?_eq_none_iff]

theorem names_of_slot? (h : r.slot? name = some slot) : r.names[slot]? = some name := by
  rw [slot?_eq, List.idxOf?_eq_some_iff] at h
  obtain ⟨bound, named, -⟩ := h
  rw [List.getElem?_eq_getElem bound, named]

/-- Where names are distinct, a name has the slot at which it stands. -/
theorem slot?_eq_some (distinct : r.names.Nodup) :
    r.slot? name = some slot ↔ r.names[slot]? = some name := by
  refine ⟨names_of_slot?, fun there => ?_⟩
  obtain ⟨bound, named⟩ := List.getElem?_eq_some_iff.1 there
  rw [slot?_eq, List.idxOf?_eq_some_iff]
  refine ⟨bound, named, fun j before same => ?_⟩
  exact absurd (distinct.getElem_inj_iff.1 (same.trans named.symm)) before.ne

theorem contains_iff : r.contains name = true ↔ name ∈ r.names := by
  rw [contains, Option.isSome_iff_ne_none, Ne, slot?_eq_none, not_not]

/-! ## One more registration -/

/-- A registration replaces what is in the slot of its name, or it opens a slot. -/
theorem offer_cases (r : Registry φ) (e : HostEntry φ) :
    (∃ slot, r.slot? e.name = some slot ∧ r.offer e = ⟨r.entries.set slot e⟩) ∨
      (e.name ∉ r.names ∧ r.offer e = ⟨r.entries ++ [e]⟩) := by
  unfold offer register
  split
  · rename_i slot found
    exact .inl ⟨slot, found, rfl⟩
  · rename_i missing
    exact .inr ⟨slot?_eq_none.1 missing, rfl⟩

theorem names_offer (r : Registry φ) (e : HostEntry φ) :
    (r.offer e).names = if e.name ∈ r.names then r.names else r.names ++ [e.name] := by
  rcases r.offer_cases e with ⟨slot, found, eq⟩ | ⟨new, eq⟩
  · obtain ⟨bound, named⟩ := List.getElem?_eq_some_iff.1 (names_of_slot? found)
    rw [if_pos (named ▸ List.getElem_mem bound), eq, names, List.map_set, ← named]
    exact List.set_getElem_self bound
  · rw [if_neg new, eq, names, List.map_append]
    rfl

/-- The slot of a name after a registration: a new name takes the next one. -/
theorem slot?_offer (r : Registry φ) (e : HostEntry φ) (name : String) :
    (r.offer e).slot? name =
      if e.name ∉ r.names ∧ e.name = name then some r.entries.length else r.slot? name := by
  rw [slot?_eq, slot?_eq, names_offer]
  by_cases known : e.name ∈ r.names
  · rw [if_pos known, if_neg fun new => new.1 known]
  · rw [if_neg known, List.idxOf?, List.findIdx?_append, List.findIdx?_singleton]
    by_cases own : e.name = name
    · subst own
      have missing : List.findIdx? (· == e.name) r.names = none := List.idxOf?_eq_none_iff.2 known
      have length : r.names.length = r.entries.length := List.length_map _
      simp [known, missing, length]
    · simp [own]

/-- A name that has a slot keeps it. -/
theorem slot?_offer_eq_some (h : r.slot? name = some slot) (e : HostEntry φ) :
    (r.offer e).slot? name = some slot := by
  rw [slot?_offer, if_neg, h]
  rintro ⟨new, rfl⟩
  rw [slot?_eq_none.2 new] at h
  cases h

theorem slot?_offers (more : List (HostEntry φ)) (h : r.slot? name = some slot) :
    (more.foldl offer r).slot? name = some slot := by
  induction more generalizing r with
  | nil => exact h
  | cons e more ih => exact ih (slot?_offer_eq_some h e)

/-- The last registration of a name. -/
def latest? (made : List (HostEntry φ)) (name : String) : Option (HostEntry φ) :=
  made.reverse.find? (·.name = name)

theorem latest?_append (made : List (HostEntry φ)) (e : HostEntry φ) (name : String) :
    latest? (made ++ [e]) name = if e.name = name then some e else latest? made name := by
  rw [latest?, List.reverse_append, List.reverse_singleton, List.singleton_append, List.find?_cons]
  by_cases own : e.name = name <;> simp [own, latest?]

/-- A registry has exactly the names that have been registered, each once, and for each the last
registration. -/
structure Mirrors (r : Registry φ) (made : List (HostEntry φ)) : Prop where
  distinct : r.names.Nodup
  registered : ∀ name, name ∈ r.names ↔ name ∈ made.map (·.name)
  latest : ∀ (slot : Nat) (e : HostEntry φ), r.entries[slot]? = some e →
    latest? made e.name = some e

theorem Mirrors.empty : (empty : Registry φ).Mirrors [] :=
  ⟨List.nodup_nil, fun _ => Iff.rfl, nofun⟩

theorem Mirrors.offer (h : r.Mirrors made) (e : HostEntry φ) :
    (r.offer e).Mirrors (made ++ [e]) := by
  have names := r.names_offer e
  refine ⟨?_, fun name => ?_, fun i d there => ?_⟩
  · rw [names]
    split
    · exact h.distinct
    · rename_i new
      exact List.nodup_append.2 ⟨h.distinct, List.nodup_singleton _, fun n mem n' mem' same =>
        new (List.mem_singleton.1 mem' ▸ same ▸ mem)⟩
  · rw [List.map_append, List.mem_append, ← h.registered, names]
    split
    · rename_i known
      simp only [List.map_cons, List.map_nil, List.mem_singleton]
      exact ⟨.inl, fun either => either.elim id fun same => same ▸ known⟩
    · exact List.mem_append
  · rw [latest?_append]
    rcases r.offer_cases e with ⟨slot, found, eq⟩ | ⟨new, eq⟩
    · rw [eq, List.getElem?_set] at there
      by_cases own : slot = i
      · rw [if_pos own] at there
        split at there <;> cases there
        exact if_pos rfl
      · rw [if_neg own] at there
        rw [if_neg, h.latest i d there]
        -- two slots of one name are the same slot
        intro same
        have stands : r.names[i]? = some e.name := by
          rw [Registry.names, List.getElem?_map, there, same]
          rfl
        exact own (Option.some.inj (found.symm.trans ((slot?_eq_some h.distinct).2 stands)))
    · rw [eq] at there
      rcases List.mem_append.1 (List.mem_of_getElem? there) with old | last
      · obtain ⟨j, there'⟩ := List.mem_iff_getElem?.1 old
        rw [if_neg, h.latest j d there']
        exact fun same => new (same ▸ List.mem_map_of_mem old)
      · rw [List.mem_singleton.1 last, if_pos rfl]

/-- So it is after any list of registrations. -/
theorem offering_mirrors (made : List (HostEntry φ)) : (offering made).Mirrors made := by
  induction made using List.reverseRecOn with
  | nil => exact .empty
  | append_singleton made e ih =>
    rw [offering_append]
    exact ih.offer e

/-- What a host can see of a registry after registrations: which names are on offer and how many,
whose the slots are, and what is in them. -/
structure Reflects (r : Registry φ) (made : List (HostEntry φ)) : Prop where
  contains : ∀ name, r.contains name = true ↔ ∃ e ∈ made, e.name = name
  size : r.size = (made.map (·.name)).dedup.length
  empty : r.size = 0 ↔ made = []
  distinct : ∀ name name' slot, r.slot? name = some slot → r.slot? name' = some slot →
    name = name'
  inRange : ∀ name slot, r.slot? name = some slot → slot < r.size
  owned : ∀ slot < r.size, ∃ name, r.slot? name = some slot
  latest : ∀ name slot, r.slot? name = some slot →
    ∃ e, r.entries[slot]? = some e ∧ latest? made name = some e

theorem Mirrors.reflects (h : r.Mirrors made) : r.Reflects made := by
  have size : r.size = r.names.length := (List.length_map _).symm
  have counted : r.names.length = (made.map (·.name)).dedup.length := by
    refine ((List.perm_ext_iff_of_nodup h.distinct (List.nodup_dedup _)).2 fun name => ?_).length_eq
    rw [h.registered, List.mem_dedup]
  refine ⟨fun name => ?_, size.trans counted, ?_, ?_, ?_, ?_, ?_⟩
  · rw [contains_iff, h.registered, List.mem_map]
  · rw [size, counted, List.length_eq_zero_iff, List.dedup_eq_nil, List.map_eq_nil_iff]
  · exact fun name name' slot own own' =>
      Option.some.inj ((names_of_slot? own).symm.trans (names_of_slot? own'))
  · exact fun name slot own => size ▸ (List.getElem?_eq_some_iff.1 (names_of_slot? own)).1
  · intro slot bound
    rw [size] at bound
    exact ⟨r.names[slot], (slot?_eq_some h.distinct).2 (List.getElem?_eq_getElem bound)⟩
  · intro name slot own
    obtain ⟨e, there, rfl⟩ := entry_of_slot? own
    exact ⟨e, there, h.latest slot e there⟩

/-! ## Entries and an index -/

/-- The functions on offer with the names apart: the arities and functions by slot, and an index
that has the slot of each name. -/
structure Indexed (φ : Type) where
  entries : List (Nat × φ)
  index : Std.HashMap String Nat

namespace Indexed

/-- Opens a slot. -/
def push (x : Indexed φ) (e : HostEntry φ) : Indexed φ where
  entries := x.entries ++ [(e.arity, e.function)]
  index := x.index.insert e.name x.entries.length

/-- Offers a function under a name: in the slot that the index has for the name, if there is such a
slot, and else in a new one. -/
def offer (x : Indexed φ) (e : HostEntry φ) : Indexed φ :=
  match x.index[e.name]? with
  | some slot =>
    if slot < x.entries.length then { x with entries := x.entries.set slot (e.arity, e.function) }
    else x.push e
  | none => x.push e

/-- The indexed registry after a list of registrations. -/
def offering (made : List (HostEntry φ)) : Indexed φ := made.foldl offer ⟨[], ∅⟩

/-- The index has the slots of a registry, and the entries are its own without their names. -/
structure Keeps (x : Indexed φ) (r : Registry φ) : Prop where
  entries : x.entries = r.entries.map fun e => (e.arity, e.function)
  index : ∀ name, x.index[name]? = r.slot? name

variable {x : Indexed φ}

theorem Keeps.length (h : x.Keeps r) : x.entries.length = r.entries.length := by
  rw [h.entries, List.length_map]

theorem Keeps.offer (h : x.Keeps r) (e : HostEntry φ) : (x.offer e).Keeps (r.offer e) := by
  unfold Indexed.offer
  rw [h.index]
  rcases r.offer_cases e with ⟨slot, found, eq⟩ | ⟨new, eq⟩
  · obtain ⟨bound, named⟩ := List.getElem?_eq_some_iff.1 (names_of_slot? found)
    have known : e.name ∈ r.names := named ▸ List.getElem_mem bound
    have inside : slot < x.entries.length := by
      rw [h.length, ← List.length_map (f := fun e => e.name)]
      exact bound
    simp only [found, if_pos inside]
    refine ⟨by rw [eq, h.entries, List.map_set], fun name => ?_⟩
    rw [slot?_offer, if_neg fun new => new.1 known, h.index]
  · simp only [slot?_eq_none.2 new]
    refine ⟨by simp [push, eq, h.entries], fun name => ?_⟩
    rw [slot?_offer, push, Std.HashMap.getElem?_insert, h.index, h.length]
    simp [new]

/-- The index stays in step with the entries. -/
theorem offering_keeps (made : List (HostEntry φ)) :
    (offering made).Keeps (Registry.offering made) := by
  induction made using List.reverseRecOn with
  | nil => exact ⟨rfl, fun name => Std.HashMap.getElem?_empty⟩
  | append_singleton made e ih =>
    rw [Registry.offering_append, offering, List.foldl_append]
    exact ih.offer e

end Indexed

/-! ## Bindings -/

/-- An extern that is bound, and is not the abort primitive, is bound to the last registration of
its name. -/
theorem bind_latest {x : ExternDecl} {b : Binding} (bound : (offering made).bind x = .ok b)
    (other : x.name ≠ abortSymbol) :
    ∃ slot e, b = .host slot ∧ (offering made).entries[slot]? = some e ∧
      latest? made x.name = some e ∧ e.arity = x.signature.params.length := by
  rcases bind_eq_ok.1 bound with ⟨abort, -⟩ | ⟨-, slot, e, own, there, arity, rfl⟩
  · exact absurd abort other
  · obtain ⟨e', there', latest⟩ := (offering_mirrors made).reflects.latest _ _ own
    obtain rfl := Option.some.inj (there.symm.trans there')
    exact ⟨slot, e, rfl, there, latest, arity⟩

end Registry

/-! ## Calls -/

/-- A call keeps the bindings that it was prepared with. -/
def preparing (φ σ : Type) : CallInvariant φ σ where
  code c _ := c.Prepared
  leave c _ := c.Prepared
  unwind c := c.Prepared
  awaits c _ _ _ := c.Prepared
  accepts _ _ _ := True

theorem preparing_stable : (preparing φ σ).Stable p where
  start := fun _ entry _ _ _ prepared => ⟨fun _ _ => ⟨entry, prepared⟩, fun _ => ⟨entry, prepared⟩⟩
  turn := fun c a prepared => by
    have kept : (c.turn a).call.Prepared := by
      rw [Call.Prepared, c.turn_request, c.turn_bindings]
      exact prepared
    cases turn : c.turn a <;> rw [turn] at kept
    case host => exact ⟨kept, Script.answers_of_forall (fun _ => trivial) _⟩
    all_goals exact kept
  back := fun _ _ _ _ _ prepared _ => prepared
  fail := fun _ _ _ _ _ prepared _ => prepared
  resume := fun _ _ _ _ _ prepared _ _ => prepared
  resumeFail := fun _ _ _ _ _ prepared => prepared
  unwind := fun _ _ _ _ prepared => prepared

/-- Every call at work has been prepared. -/
theorem Machine.Reachable.prepared {m : Machine φ σ} (reach : m.Reachable p) :
    ∀ w ∈ m.work, w.1.Prepared :=
  (CallInvariant.holds (preparing_stable (p := p)) reach).work (fun c _ => c.Prepared)
    (fun _ _ => id) (fun _ _ => id) (fun _ => id) (fun _ _ _ _ => id)

namespace Call

variable {c : Call φ σ} {made : List (HostEntry φ)}

/-- What an extern other than the abort primitive stands for in a call that has been prepared: the
function registered last under its name. -/
theorem callee_latest (prepared : c.Prepared) (hosts : c.request.hosts = .offering made)
    {id : ExternId} {x : ExternDecl} (there : c.request.module.externs[id]? = some x)
    (other : x.name ≠ abortSymbol) (args : List Val) :
    ∃ e, Registry.latest? made x.name = some e ∧ c.callee id args = .ok (.host e.function) := by
  obtain ⟨entry, prepared⟩ := prepared
  obtain ⟨-, -, bound⟩ := CallRequest.prepare_ok prepared
  obtain ⟨b, given, bound⟩ := forall₂_getElem? bound.flip there
  rw [hosts] at bound
  obtain ⟨slot, e, rfl, offered, latest, -⟩ := Registry.bind_latest bound other
  exact ⟨e, latest, by simp only [callee, given, hosts, offered]⟩

/-- No extern is bound to a slot that is empty. -/
theorem callee_bound (prepared : c.Prepared) (id : ExternId) (args : List Val) (slot : Nat) :
    c.callee id args ≠ .error (.exec (.hostSlotNotBound slot)) := by
  obtain ⟨entry, prepared⟩ := prepared
  obtain ⟨-, -, bound⟩ := CallRequest.prepare_ok prepared
  intro fails
  rcases callee_error fails with ⟨-, other⟩ | ⟨-, ⟨_, _, other⟩ | other⟩ | ⟨s, given, missing, -⟩
  · cases other
  · cases other
  · cases other
  · obtain ⟨x, -, bind⟩ := forall₂_getElem? bound given
    obtain ⟨-, -, e, offered, -⟩ := Registry.bind_host bind
    rw [offered] at missing
    cases missing

end Call

namespace Machine

/-- An instruction that calls an extern other than the abort primitive hands control to the function
registered last under the name of the extern, and no extern is bound to an empty slot. -/
structure CallsLatest (p : Platform φ σ) (made : List (HostEntry φ)) (m : Machine φ σ)
    (c : Call φ σ) (a : Activation) : Prop where
  calls : ∀ dst id args rest xs x, a.rest = .callExtern dst id args :: rest →
    a.readAll args = .ok xs → c.request.module.externs[id]? = some x → x.name ≠ abortSymbol →
    ∃ e, Registry.latest? made x.name = some e ∧ m.step p =
      { m with
        focus := .script c.site (p.behaviour e.function xs)
        control := .hostCall c { a with rest := rest } id dst :: m.control }
  bound : ∀ id args slot, c.callee id args ≠ .error (.exec (.hostSlotNotBound slot))

theorem callsLatest {m : Machine φ σ} (reach : m.Reachable p) {c : Call φ σ} {a : Activation}
    (focus : m.focus = .code c a) {made : List (HostEntry φ)}
    (hosts : c.request.hosts = .offering made) : m.CallsLatest p made c a := by
  have prepared : c.Prepared :=
    reach.prepared (c, a :: c.waiting.map Prod.fst)
      (List.mem_append_left _ (by rw [focus]; exact List.mem_singleton_self _))
  refine ⟨?_, c.callee_bound prepared⟩
  intro dst id args rest xs x here read there other
  obtain ⟨e, latest, callee⟩ := Call.callee_latest prepared hosts there other xs
  have effect : (Inst.callExtern dst id args).effect c.storage a = .ok (.callExtern dst id xs) := by
    rw [Inst.effect, read]
    rfl
  have turn : c.turn a = .host c { a with rest := rest } id dst e.function xs := by
    simp only [Call.turn, here, effect, Call.obey, callee]
  exact ⟨e, latest, by simp only [step, focus, stepCode, turn, take]⟩

end Machine

/-- **The last writer wins.** Take any list of registrations in an empty registry. Exactly the names
that have been registered are on offer, and there are as many functions as distinct names. Each name
has a slot of its own and each slot a name, the slot holds the last registration of the name, and
further registrations leave it where it is; the index of names is in step with the entries. In a
module that can be bound each extern that is not the abort primitive is bound to the last
registration of its name; in every reachable state, an instruction that calls such an extern calls
just that function, and there is always a function in the slot that is looked up. -/
theorem Registry.offering_lastWriter (made : List (HostEntry φ)) :
    (offering made).Reflects made ∧
    (Indexed.offering made).Keeps (offering made) ∧
    (∀ more name slot, (offering made).slot? name = some slot →
      (offering (made ++ more)).slot? name = some slot) ∧
    (∀ (m : Module) bindings, (offering made).bindExterns m = .ok bindings →
      ∀ (id : ExternId) x, m.externs[id]? = some x → x.name ≠ abortSymbol →
        ∃ slot e, bindings[id]? = some (.host slot) ∧ (offering made).entries[slot]? = some e ∧
          latest? made x.name = some e ∧ e.arity = x.signature.params.length) ∧
    (∀ (σ : Type) (p : Platform φ σ) (m : Machine φ σ) c a, m.Reachable p → m.focus = .code c a →
      c.request.hosts = offering made → m.CallsLatest p made c a) := by
  refine ⟨(offering_mirrors made).reflects, Indexed.offering_keeps made, ?_, ?_, ?_⟩
  · intro more name slot own
    rw [offering_append]
    exact slot?_offers more own
  · intro m bindings bound id x there other
    obtain ⟨b, given, bound⟩ := forall₂_getElem? (mapM_eq_ok.1 bound).flip there
    obtain ⟨slot, e, rfl, offered, latest, arity⟩ := bind_latest bound other
    exact ⟨slot, e, given, offered, latest, arity⟩
  · exact fun σ p m c a reach focus hosts => Machine.callsLatest reach focus hosts

/-- The function that `metered` asks is registered twice, with another one in between. Two functions
are on offer then, and the run begins with a call of the one registered last. -/
theorem Registry.offering_lastWriter_metered :
    let made : List (HostEntry Word) :=
      [⟨"host.meter", 0, 1⟩, ⟨"host.other", 3, 7⟩, ⟨"host.meter", 0, 42⟩]
    let p : Platform Word Unit := .within .usual fun f _ => .done (.ok (some (.word f)))
    let m := Machine.startCall p ⟨Machine.metered, 0, default, offering made, default⟩ [] ()
    (offering made).size = 2 ∧ (offering made).slot? "host.meter" = some 0 ∧
      ∃ c a, m.focus = .code c a ∧ c.request.hosts = offering made ∧
        (m.step p).focus = .script c.site (p.behaviour 42 []) := by
  intro made p m
  obtain ⟨-, -, -, -, calls⟩ := offering_lastWriter made
  refine ⟨by decide +kernel, by decide +kernel, ?_⟩
  obtain ⟨c, a, focus, hosts, here, declared⟩ :
      ∃ c a, m.focus = .code c a ∧ c.request.hosts = offering made ∧
        a.rest.head? = some (.callExtern (some 2) 0 []) ∧
        c.request.module.externs[0]? = some ⟨"host.meter", ⟨[], some .word⟩, false⟩ :=
    ⟨_, _, rfl, rfl, by decide +kernel, by decide +kernel⟩
  obtain ⟨rest, here⟩ := List.head?_eq_some_iff.1 here
  have latest := calls Unit p m c a (.startCall ..) focus hosts
  obtain ⟨e, latest, step⟩ := latest.calls _ _ _ _ [] _ here rfl declared (by decide)
  obtain rfl : (⟨"host.meter", 0, 42⟩ : HostEntry Word) = e := Option.some.inj latest
  exact ⟨c, a, focus, hosts, by rw [step]⟩

end HostBridge
