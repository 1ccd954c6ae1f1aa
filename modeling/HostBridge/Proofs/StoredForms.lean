import HostBridge.Config
import HostBridge.Layout.Manifest
import HostBridge.Proofs.Fallible
import HostBridge.Proofs.Rendering
import Mathlib.Algebra.Group.Nat.Defs
import Mathlib.Data.List.Nodup

/-!
# Manifests and configurations survive JSON

Layouts and limits are kept as JSON texts, on one line or indented. What is read from such a text is
what was written, whatever characters the names of slots have and however large the numbers are, as
long as they have the width that their fields have. A configuration is checked after it has been
read, so one without any call depth or helper depth is written but not accepted.

* `Json.Value.fields?_record` — a structure finds its own fields in its JSON form;
* `Manifest.parse?_render`, `Config.ofJson?_toJson` — both forms are read back;
* `stored_forms_read` — manifests are read back, and configurations if they pass their check.
-/

set_option autoImplicit false

namespace HostBridge

open Json

namespace Json.Value

theorem natural?_natural {size n : Nat} (fits : n < Bytes.capacity size) :
    (natural n).natural? size = some n := if_pos fits

/-- A number of 64 bits is read back. -/
theorem natural?_size {n : Nat} (fits : n < 2 ^ 64) : (natural n).natural? 8 = some n :=
  natural?_natural fits

/-- A structure finds its own fields in its JSON form. -/
theorem fields?_record {names : List String} {fields : List (String × Value)}
    (own : fields.map Prod.fst = names) (distinct : names.Nodup) (closed : Bool) :
    (record fields).fields? names closed = some (fields.map fun field => some field.2) := by
  subst own
  have known : (fields.map Prod.fst).any (!(fields.map Prod.fst).contains ·) = false := by
    rw [List.any_eq_false]
    intro key listed
    simpa using listed
  have once : (fields.map Prod.fst).any (1 < (fields.map Prod.fst).count ·) = false := by
    rw [List.any_eq_false]
    intro key _
    simpa using List.nodup_iff_count_le_one.1 distinct key
  have found : (fields.map Prod.fst).map (fun name => fields.lookup name) =
      fields.map fun field => some field.2 := by
    rw [List.map_map]
    exact List.map_congr_left fun field mem => lookup_of_distinct distinct mem
  simp only [fields?, known, once, found, Bool.and_false, Bool.false_eq_true, if_false]

end Json.Value

/-! ## Manifests -/

/-- The numbers of an entry have 64 bits. -/
structure SlotEntry.Fits (e : SlotEntry) : Prop where
  offset : e.offset < 2 ^ 64
  size : e.size < 2 ^ 64

/-- The version of a manifest has 16 bits, and every other number has 64. -/
structure Manifest.Fits (m : Manifest) : Prop where
  abiVersion : m.abiVersion < 2 ^ 16
  wordSize : m.wordSize < 2 ^ 64
  pointerSize : m.pointerSize < 2 ^ 64
  totalSize : m.totalSize < 2 ^ 64
  slots : ∀ e ∈ m.slots, e.Fits

namespace SlotEntry

theorem kindOfJson?_name (kind : SlotKind) : kindOfJson? (.text kind.name) = some kind := by
  cases kind <;> rfl

/-- An entry is read back from its JSON form. -/
theorem ofJson?_toJson {e : SlotEntry} (fits : e.Fits) : ofJson? e.toJson = some e := by
  rw [ofJson?, toJson, Value.fields?_record]
  case own => rfl
  case distinct => decide
  simp only [List.map_cons, List.map_nil, required, Value.text?, kindOfJson?_name,
    Value.natural?_size fits.offset, Value.natural?_size fits.size, Option.bind_eq_bind,
    Option.bind_some, Option.pure_def]

end SlotEntry

namespace Manifest

theorem slotsOfJson?_list {slots : List SlotEntry} (fits : ∀ e ∈ slots, e.Fits) :
    slotsOfJson? (.list (slots.map SlotEntry.toJson)) = some slots :=
  mapM_of_reads fun e mem => SlotEntry.ofJson?_toJson (fits e mem)

/-- A manifest is read back from its JSON form. -/
theorem ofJson?_toJson {m : Manifest} (fits : m.Fits) : ofJson? m.toJson = some m := by
  have version : (Value.natural m.abiVersion).natural? 2 = some m.abiVersion :=
    Value.natural?_natural fits.abiVersion
  rw [ofJson?, toJson, Value.fields?_record]
  case own => rfl
  case distinct => decide
  simp only [List.map_cons, List.map_nil, required, version, Value.natural?_size fits.wordSize,
    Value.natural?_size fits.pointerSize, Value.natural?_size fits.totalSize,
    slotsOfJson?_list fits.slots, Option.bind_eq_bind, Option.bind_some, Option.pure_def]

/-- A manifest is read back from its JSON text. -/
theorem parse?_render (style : Style) {m : Manifest} (fits : m.Fits) :
    parse? (m.toJson.render style) = some m := by
  rw [parse?, Value.parse?_render, Option.bind_some, ofJson?_toJson fits]

end Manifest

/-! ## Configurations -/

namespace Config

/-- Both limits have 64 bits. -/
structure Fits (c : Config) : Prop where
  maxCallDepth : c.maxCallDepth < 2 ^ 64
  maxHelperDepth : c.maxHelperDepth < 2 ^ 64

/-- A configuration is read back from its JSON form. -/
theorem ofJson?_toJson {c : Config} (fits : c.Fits) : ofJson? c.toJson = some c := by
  rw [ofJson?, toJson, Value.fields?_record]
  case own => rfl
  case distinct => decide
  simp only [List.map_cons, List.map_nil, orDefault, Value.bool?,
    Value.natural?_size fits.maxCallDepth, Value.natural?_size fits.maxHelperDepth,
    Option.bind_eq_bind, Option.bind_some, Option.pure_def]

/-- What is read from the JSON text of a configuration is checked. -/
theorem parse_render (style : Style) {c : Config} (fits : c.Fits) :
    parse (c.toJson.render style) = c.check := by
  rw [parse, Value.parse?_render, Option.bind_some, ofJson?_toJson fits]

end Config

/-! ## Both -/

/-- **Manifests and configurations survive JSON.** Every manifest is read back from its text, and
every configuration if both its limits are at least one. Of the limits that are zero the call depth
is reported first. -/
theorem stored_forms_read (style : Style) :
    (∀ m : Manifest, m.Fits → Manifest.parse? (m.toJson.render style) = some m) ∧
    ∀ c : Config, c.Fits →
      (1 ≤ c.maxCallDepth → 1 ≤ c.maxHelperDepth → Config.parse (c.toJson.render style) = .ok c) ∧
      (c.maxCallDepth = 0 → Config.parse (c.toJson.render style) = .error .noCallDepth) ∧
      (1 ≤ c.maxCallDepth → c.maxHelperDepth = 0 →
        Config.parse (c.toJson.render style) = .error .noHelperDepth) := by
  refine ⟨fun m fits => Manifest.parse?_render style fits, fun c fits => ?_⟩
  rw [Config.parse_render style fits, Config.check]
  refine ⟨fun calls helpers => ?_, fun none => if_pos none, fun calls none => ?_⟩
  · rw [if_neg (Nat.ne_of_gt calls), if_neg (Nat.ne_of_gt helpers)]
  · rw [if_neg (Nat.ne_of_gt calls), if_pos none]

/-- A manifest with the largest numbers that there are and a slot whose name needs every kind of
escape. -/
def Manifest.extreme : Manifest :=
  ⟨65535, 18446744073709551615, 18446744073709551615, 18446744073709551615,
    [⟨"\"\\/\x00\x08\t\n\x0c\r\x1f\x7f é😀", .pointer, 18446744073709551615, 0⟩]⟩

theorem stored_forms_read_extreme :
    Manifest.extreme.Fits ∧
    Manifest.parse? (Manifest.extreme.toJson.render .indented) = some .extreme ∧
    Config.Fits ⟨0, 0, false⟩ ∧
    Config.parse ((⟨0, 0, false⟩ : Config).toJson.render .indented) = .error .noCallDepth ∧
    Config.Fits ⟨1, 18446744073709551615, false⟩ ∧
    Config.parse ((⟨1, 18446744073709551615, false⟩ : Config).toJson.render .indented) =
      .ok ⟨1, 18446744073709551615, false⟩ := by
  have extreme : Manifest.extreme.Fits := by
    refine ⟨by decide, by decide, by decide, by decide, ?_⟩
    rintro e (_ | ⟨_, ⟨⟩⟩)
    exact ⟨by decide, by decide⟩
  have nothing : Config.Fits ⟨0, 0, false⟩ := ⟨by decide, by decide⟩
  have large : Config.Fits ⟨1, 18446744073709551615, false⟩ := ⟨by decide, by decide⟩
  obtain ⟨manifests, configs⟩ := stored_forms_read .indented
  exact ⟨extreme, manifests _ extreme, nothing, (configs _ nothing).2.1 rfl, large,
    (configs _ large).1 (by decide) (by decide)⟩

end HostBridge
