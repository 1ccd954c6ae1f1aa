import HostBridge.CommandLine.Run
import Mathlib.Data.List.Zip

/-!
# Differences of layouts

Two layouts are the same exactly if nothing is found to differ, although the slots are only compared
as far as both lists go: a list that is longer shows in the slot counts. `Manifest.differences` says
how many differences there are without listing them.

* `Manifest.mismatches_eq_nil` — no differences are found exactly between equal manifests;
* `Manifest.length_mismatches` — how many are found;
* `CommandLine.run_check` — a check succeeds exactly if nothing differs, and shows all that does.
-/

set_option autoImplicit false

namespace HostBridge

/-- Whether two entries differ in name, kind, offset or size. -/
def SlotEntry.differs (ours theirs : SlotEntry) : Bool :=
  ours.name ≠ theirs.name || ours.kind ≠ theirs.kind || ours.offset ≠ theirs.offset ||
    ours.size ≠ theirs.size

theorem SlotEntry.differs_eq_false {ours theirs : SlotEntry} :
    ours.differs theirs = false ↔ ours = theirs := by
  cases ours
  cases theirs
  simp [differs, and_assoc]

theorem SlotEntry.differs_comm (ours theirs : SlotEntry) :
    ours.differs theirs = theirs.differs ours := by
  simp only [differs, ne_comm]

namespace Manifest

/-! ## One comparison -/

section Differing

variable {α : Type} [DecidableEq α] {report : α → α → Mismatch} {ours theirs : α}

theorem differing_eq_nil : differing report ours theirs = [] ↔ ours = theirs := by
  unfold differing
  split <;> simp [*]

theorem length_differing :
    (differing report ours theirs).length = if ours = theirs then 0 else 1 := by
  unfold differing
  split <;> rfl

end Differing

/-! ## Slots -/

/-- At how many positions that both lists have the slots differ. -/
def slotDifferences (ours theirs : List SlotEntry) : Nat :=
  (ours.zip theirs).countP fun pair => pair.1.differs pair.2

theorem length_slotMismatches (position : Nat) (ours theirs : List SlotEntry) :
    (slotMismatches position ours theirs).length = slotDifferences ours theirs := by
  induction ours generalizing position theirs with
  | nil => rfl
  | cons our ourRest ih =>
    cases theirs with
    | nil => rfl
    | cons their theirRest =>
      have one : (if our = their then 0 else 1) = if our.differs their then 1 else 0 := by
        by_cases same : our = their
        · rw [if_pos same, SlotEntry.differs_eq_false.2 same, if_neg Bool.false_ne_true]
        · rw [if_neg same, if_pos]
          rwa [← Bool.not_eq_false, SlotEntry.differs_eq_false]
      rw [slotMismatches, List.length_append, ih, length_differing, one, slotDifferences,
        slotDifferences, List.zip_cons_cons, List.countP_cons, Nat.add_comm]

theorem slotDifferences_comm (ours theirs : List SlotEntry) :
    slotDifferences ours theirs = slotDifferences theirs ours := by
  rw [slotDifferences, slotDifferences, ← List.zip_swap, List.countP_map]
  congr 1
  funext pair
  exact SlotEntry.differs_comm ..

/-- Lists of the same length are compared to the end. -/
theorem slotMismatches_eq_nil (position : Nat) {ours theirs : List SlotEntry}
    (counts : ours.length = theirs.length) :
    slotMismatches position ours theirs = [] ↔ ours = theirs := by
  induction ours generalizing position theirs with
  | nil => simp [slotMismatches, List.eq_nil_of_length_eq_zero counts.symm]
  | cons our ourRest ih =>
    cases theirs with
    | nil => cases counts
    | cons their theirRest =>
      rw [slotMismatches, List.append_eq_nil_iff, differing_eq_nil,
        ih (position + 1) (Nat.succ.inj counts), List.cons.injEq]

/-! ## Manifests -/

/-- The fields of the header. -/
def header (m : Manifest) : List Nat := [m.abiVersion, m.wordSize, m.pointerSize, m.totalSize]

/-- How many fields of the header differ. -/
def headerDifferences (ours theirs : Manifest) : Nat :=
  (ours.header.zip theirs.header).countP fun pair => pair.1 ≠ pair.2

theorem headerDifferences_comm (ours theirs : Manifest) :
    ours.headerDifferences theirs = theirs.headerDifferences ours := by
  rw [headerDifferences, headerDifferences, ← List.zip_swap, List.countP_map]
  congr 1
  funext pair
  simp [eq_comm]

/-- How many differences two layouts have: fields of the header, the number of slots, and slots. -/
def differences (ours theirs : Manifest) : Nat :=
  ours.headerDifferences theirs + (if ours.slots.length = theirs.slots.length then 0 else 1) +
    slotDifferences ours.slots theirs.slots

theorem differences_comm (ours theirs : Manifest) :
    ours.differences theirs = theirs.differences ours := by
  rw [differences, headerDifferences_comm, slotDifferences_comm, differences]
  simp only [eq_comm]

theorem length_mismatches (ours theirs : Manifest) :
    (ours.mismatches theirs).length = ours.differences theirs := by
  simp only [mismatches, List.length_append, length_differing, length_slotMismatches, differences,
    headerDifferences, header, List.zip_cons_cons, List.zip_nil_right, List.countP_cons,
    List.countP_nil]
  simp only [ne_eq, decide_not, Bool.not_eq_true', decide_eq_false_iff_not, ite_not]
  omega

/-- **Comparison decides equality.** -/
theorem mismatches_eq_nil {ours theirs : Manifest} :
    ours.mismatches theirs = [] ↔ ours = theirs := by
  simp only [mismatches, List.append_eq_nil_iff, differing_eq_nil]
  constructor
  · rintro ⟨⟨⟨⟨⟨abi, word⟩, pointer⟩, total⟩, counts⟩, slots⟩
    rw [slotMismatches_eq_nil 0 counts] at slots
    cases ours
    cases theirs
    simp_all
  · rintro rfl
    simp [slotMismatches_eq_nil]

end Manifest

/-! ## The check of a file -/

namespace CommandLine

/-- A file can be read: a path has no null character, and there is a text at the path. -/
def Surroundings.Holds (s : Surroundings) (path text : String) : Prop :=
  '\x00' ∉ path.toList ∧ s.read path = some text

/-- The lines that show differences, each with its label. -/
def mismatchLines (colour : Bool) (found : List Mismatch) : List String :=
  found.map fun d => Label.verdict colour false ++ ": " ++ d.text

variable {s : Surroundings} {path text : String} {theirs : Manifest}

/-- The arguments of a check. -/
theorem run_check_args : run s ["layout", "--check", path] = checkManifest s path := rfl

theorem checkManifest_eq (file : s.Holds path text) (manifest : Manifest.parse? text = some theirs) :
    checkManifest s path =
      if theirs = .current then
        succeed (lines [Label.verdict s.colour true ++ ": " ++ path ++ " matches abi v"
          ++ toString Manifest.current.abiVersion])
      else
        failAfter (lines (mismatchLines s.colour (Manifest.current.mismatches theirs)))
          (.mismatches (Manifest.current.mismatches theirs).length path) := by
  have plain : ¬path.toList.contains '\x00' = true := by simpa using file.1
  simp only [checkManifest, if_neg plain, file.2, manifest]
  by_cases same : theirs = .current
  · rw [if_pos same, Manifest.mismatches_eq_nil.2 same.symm]
  · rw [if_neg same]
    have found : Manifest.current.mismatches theirs ≠ [] :=
      fun none => same (Manifest.mismatches_eq_nil.1 none).symm
    cases list : Manifest.current.mismatches theirs with
    | nil => exact absurd list found
    | cons d rest => rfl

end CommandLine

open CommandLine in
/-- **Manifest comparison decides equality**, and its differences can be counted: those of the
header, one for the numbers of slots, and those of the slots that both lists have. **Hence a check of
a file succeeds exactly if it holds the current manifest**, and otherwise it shows every difference in
order and fails with their number. -/
theorem check_decides_equality :
    (∀ a b : Manifest, a.mismatches b = [] ↔ a = b) ∧
    (∀ a b : Manifest, (a.mismatches b).length =
      ((a.header.zip b.header).countP fun pair => pair.1 ≠ pair.2) +
        (if a.slots.length = b.slots.length then 0 else 1) +
        (a.slots.zip b.slots).countP fun pair => pair.1.differs pair.2) ∧
    (∀ a b : Manifest, (a.mismatches b).length = (b.mismatches a).length) ∧
    ∀ (s : Surroundings) (path text : String) (theirs : Manifest), s.Holds path text →
      Manifest.parse? text = some theirs →
        ((run s ["layout", "--check", path]).failure = none ↔ theirs = .current) ∧
        (theirs ≠ .current →
          let found := Manifest.current.mismatches theirs
          run s ["layout", "--check", path] =
            ⟨lines (found.map fun d => Label.verdict s.colour false ++ ": " ++ d.text),
              some (.mismatches found.length path)⟩) := by
  refine ⟨fun a b => Manifest.mismatches_eq_nil, Manifest.length_mismatches, fun a b => ?_,
    fun s path text theirs file manifest => ?_⟩
  · rw [Manifest.length_mismatches, Manifest.length_mismatches, Manifest.differences_comm]
  · rw [run_check_args, checkManifest_eq file manifest]
    constructor
    · split <;> simp [succeed, failAfter, *]
    · intro differ
      rw [if_neg differ]
      rfl

/-- The current layout with its slots left out. -/
def Manifest.bare : Manifest := { Manifest.current with slots := [] }

/-- Surroundings in which every path leads to that layout. -/
def CommandLine.Surroundings.bare : Surroundings :=
  ⟨fun _ => some (Manifest.bare.toJson.render .compact), false⟩

open CommandLine in
theorem check_decides_equality_bare :
    Surroundings.bare.Holds "bare.json" (Manifest.bare.toJson.render .compact) ∧
    Manifest.parse? (Manifest.bare.toJson.render .compact) = some .bare ∧
    Manifest.bare ≠ .current ∧
    run .bare ["layout", "--check", "bare.json"] =
      ⟨"MISMATCH: slot count 19 != 0\n", some (.mismatches 1 "bare.json")⟩ := by
  have file : Surroundings.bare.Holds "bare.json" (Manifest.bare.toJson.render .compact) :=
    ⟨by decide +kernel, rfl⟩
  have manifest : Manifest.parse? (Manifest.bare.toJson.render .compact) = some .bare := by
    decide +kernel
  have differ : Manifest.bare ≠ .current := by decide +kernel
  have found := (check_decides_equality.2.2.2 _ _ _ _ file manifest).2 differ
  have single : Manifest.current.mismatches .bare = [.slotCount 19 0] := by decide +kernel
  rw [single] at found
  refine ⟨file, manifest, differ, found.trans ?_⟩
  have printed : lines (([.slotCount 19 0] : List Mismatch).map fun d =>
      Label.verdict false false ++ ": " ++ d.text) = "MISMATCH: slot count 19 != 0\n" := by
    decide +kernel
  exact congrArg (fun stdout => (⟨stdout, some (.mismatches 1 "bare.json")⟩ : Run)) printed

end HostBridge
