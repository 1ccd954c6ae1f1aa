import HostBridge.Environment
import HostBridge.Proofs.Rendering
import Mathlib.Data.List.Nodup

/-!
# Snapshots survive JSON

A snapshot is read back from its JSON text, and so it is from every text that says the same: the
fields may stand in another order and between unknown ones, and a field may be missing if it is zero
or empty. All this changes neither which value the reader finds under a known key nor, where it finds
none, what it assumes.

* `Snapshot.Variant` — the objects that say the same;
* `Snapshot.Variant.spells` — what the reader needs of them;
* `Snapshot.parse_variant` — each of them is read as the snapshot.
-/

set_option autoImplicit false

namespace HostBridge

open Json

namespace Snapshot

/-- The fields of the JSON form. -/
def fields (s : Snapshot) : List (String × Value) :=
  [("address", bytesToJson s.address.bytes), ("caller", bytesToJson s.caller.bytes),
    ("origin", bytesToJson s.origin.bytes), ("value", wordToJson s.value),
    ("gas_price", wordToJson s.gasPrice),
    ("previous_block_hash", bytesToJson s.previousBlockHash.bytes),
    ("coinbase", bytesToJson s.coinbase.bytes), ("timestamp", wordToJson s.timestamp),
    ("number", wordToJson s.number), ("difficulty", wordToJson s.difficulty),
    ("gas_limit", wordToJson s.gasLimit), ("call_data", bytesToJson s.callData),
    ("code", bytesToJson s.code)]

theorem toJson_eq (s : Snapshot) : s.toJson = .record s.fields := rfl

theorem map_fst_fields (s : Snapshot) : s.fields.map Prod.fst = keys := rfl

theorem nodup_keys : keys.Nodup := by
  simp [keys, shape]

/-- A field of the JSON form is the only one with its key, and a text. -/
theorem lookup_fields {s : Snapshot} {key : String} {v : Value} (field : (key, v) ∈ s.fields) :
    s.fields.lookup key = some v ∧ ∃ text, v = .text text := by
  simp only [fields, List.mem_cons, List.not_mem_nil, or_false, Prod.mk.injEq] at field
  obtain ⟨rfl, rfl⟩ | ⟨rfl, rfl⟩ | ⟨rfl, rfl⟩ | ⟨rfl, rfl⟩ | ⟨rfl, rfl⟩ | ⟨rfl, rfl⟩ | ⟨rfl, rfl⟩ |
    ⟨rfl, rfl⟩ | ⟨rfl, rfl⟩ | ⟨rfl, rfl⟩ | ⟨rfl, rfl⟩ | ⟨rfl, rfl⟩ | ⟨rfl, rfl⟩ := field <;>
    exact ⟨rfl, _, rfl⟩

/-- The fields of an object that says what the JSON form of a snapshot says. -/
inductive Variant (s : Snapshot) : List (String × Value) → Prop
  /-- The JSON form itself. -/
  | whole : Variant s s.fields
  /-- The fields in another order. -/
  | permute {fs gs : List (String × Value)} : Variant s fs → fs.Perm gs → Variant s gs
  /-- One more field with a key that means nothing. -/
  | extend {fs : List (String × Value)} (key text : String) :
    Variant s fs → key ∉ keys → Variant s ((key, .text text) :: fs)
  /-- A field less that is zero or empty. -/
  | leaveOut {fs : List (String × Value)} {key : String} {v : Value} :
    Variant s ((key, v) :: fs) → (key, v) ∈ zero.fields → Variant s fs

/-! ## What a variant says -/

/-- What the reader needs of an object to find a snapshot in it. -/
structure Spells (s : Snapshot) (fs : List (String × Value)) : Prop where
  /-- Under a known key stands the field of the snapshot. -/
  known : ∀ key v, (key, v) ∈ fs → key ∈ keys → (key, v) ∈ s.fields
  /-- A field that is missing is zero or empty. -/
  missing : ∀ key v, (key, v) ∈ s.fields → (key, v) ∈ fs ∨ (key, v) ∈ zero.fields
  /-- No known key occurs twice. -/
  once : ∀ key ∈ keys, (fs.map Prod.fst).count key ≤ 1
  /-- All values are texts. -/
  texts : ∀ key v, (key, v) ∈ fs → ∃ text, v = .text text

namespace Spells

variable {s : Snapshot} {fs gs : List (String × Value)} {key : String} {v : Value}

theorem whole : s.Spells s.fields where
  known _ _ field _ := field
  missing _ _ field := .inl field
  once key _ := List.nodup_iff_count_le_one.1 nodup_keys key
  texts _ _ field := (lookup_fields field).2

theorem permute (spells : s.Spells fs) (perm : fs.Perm gs) : s.Spells gs where
  known key v field := spells.known key v (perm.mem_iff.2 field)
  missing key v field := (spells.missing key v field).imp_left perm.mem_iff.1
  once key listed := by
    rw [← (perm.map Prod.fst).count_eq]
    exact spells.once key listed
  texts key v field := spells.texts key v (perm.mem_iff.2 field)

theorem extend (spells : s.Spells fs) (unknown : key ∉ keys) (text : String) :
    s.Spells ((key, .text text) :: fs) where
  known other v field listed := by
    obtain same | before := List.mem_cons.1 field
    · cases same
      exact absurd listed unknown
    · exact spells.known other v before listed
  missing other v field := (spells.missing other v field).imp_left (List.mem_cons_of_mem _)
  once other listed := by
    have differs : key ≠ other := by
      rintro rfl
      exact unknown listed
    rw [List.map_cons, List.count_cons_of_ne differs]
    exact spells.once other listed
  texts other v field := by
    obtain same | before := List.mem_cons.1 field
    · cases same
      exact ⟨text, rfl⟩
    · exact spells.texts other v before

theorem leaveOut (spells : s.Spells ((key, v) :: fs)) (zero : (key, v) ∈ zero.fields) :
    s.Spells fs where
  known other w field := spells.known other w (List.mem_cons_of_mem _ field)
  missing other w field := by
    obtain there | empty := spells.missing other w field
    · obtain same | before := List.mem_cons.1 there
      · cases same
        exact .inr zero
      · exact .inl before
    · exact .inr empty
  once other listed :=
    Nat.le_trans ((List.sublist_cons_self ..).map Prod.fst |>.count_le other)
      (spells.once other listed)
  texts other w field := spells.texts other w (List.mem_cons_of_mem _ field)

/-! ### What the reader finds -/

/-- Under a known key the reader finds the field of the snapshot, or nothing where that is zero or
empty. -/
theorem finds (spells : s.Spells fs) (field : (key, v) ∈ s.fields) :
    fs.lookup key = some v ∨ fs.lookup key = none ∧ (key, v) ∈ zero.fields := by
  have listed : key ∈ keys := by
    rw [← map_fst_fields s]
    exact List.mem_map_of_mem field
  cases found : fs.lookup key with
  | some w =>
    obtain ⟨before, after, rfl, -⟩ := List.lookup_eq_some_iff.1 found
    have ours := spells.known key w (List.mem_append_right _ (List.mem_cons_self ..)) listed
    exact .inl ((lookup_fields ours).1.symm.trans (lookup_fields field).1)
  | none =>
    refine .inr ⟨rfl, (spells.missing key v field).resolve_left fun there => ?_⟩
    simpa using List.lookup_eq_none_iff.1 found _ there

/-- So a field is read, or assumed, as it is in the snapshot. -/
theorem decoded {α : Type} {decode : Value → Option α} {empty : Value} {x default : α}
    (spells : s.Spells fs) (ours : (key, v) ∈ s.fields) (theirs : (key, empty) ∈ zero.fields)
    (read : decode v = some x) (readEmpty : decode empty = some default) :
    orDefault decode default (fs.lookup key) = some x := by
  obtain found | ⟨found, zero⟩ := spells.finds ours
  · rw [found, orDefault, read]
  · have same : v = empty :=
      Option.some.inj ((lookup_fields zero).1.symm.trans (lookup_fields theirs).1)
    rw [found, orDefault, ← readEmpty, ← same, read]

theorem fields? (spells : s.Spells fs) :
    (Value.record fs).fields? keys false = some (keys.map fun key => fs.lookup key) := by
  have single : ¬keys.any (1 < (fs.map Prod.fst).count ·) = true := by
    simpa using spells.once
  simp only [Value.fields?, Bool.false_and, Bool.false_eq_true, if_false]
  rw [if_neg single]

end Spells

theorem Variant.spells {s : Snapshot} {fs : List (String × Value)} (variant : s.Variant fs) :
    s.Spells fs := by
  induction variant with
  | whole => exact .whole
  | permute _ perm ih => exact ih.permute perm
  | extend key text _ unknown ih => exact ih.extend unknown text
  | leaveOut _ zero ih => exact ih.leaveOut zero

/-! ## Reading a variant -/

theorem wordOfJson?_wordToJson (w : Word) : wordOfJson? (wordToJson w) = some w :=
  Word.parse?_text w

theorem bytesOfJson?_bytesToJson (bs : Bytes) : bytesOfJson? (bytesToJson bs) = some bs :=
  Bytes.ofHex?_hex bs

theorem octetsOfJson?_bytesToJson {n : Nat} (o : Octets n) :
    octetsOfJson? n (bytesToJson o.bytes) = some o := by
  show (Bytes.ofHex? (Bytes.hex o.bytes)).bind (Octets.ofBytes? n) = some o
  rw [Bytes.ofHex?_hex, Option.bind_some, Octets.ofBytes?, dif_pos o.length_eq]

/-- An object that says what the JSON form of a snapshot says is read as that snapshot. -/
theorem ofJson?_of_spells {s : Snapshot} {fs : List (String × Value)} (spells : s.Spells fs) :
    ofJson? (.record fs) = some s := by
  have here {t : Snapshot} (position : Nat) {field : String × Value}
      (there : t.fields[position]? = some field) : field ∈ t.fields := List.mem_of_getElem? there
  have octets {n : Nat} (key : String) (o default : Octets n)
      (ours : (key, bytesToJson o.bytes) ∈ s.fields)
      (theirs : (key, bytesToJson default.bytes) ∈ zero.fields) :
      orDefault (octetsOfJson? n) default (fs.lookup key) = some o :=
    spells.decoded ours theirs (octetsOfJson?_bytesToJson o) (octetsOfJson?_bytesToJson default)
  have word (key : String) (w default : Word) (ours : (key, wordToJson w) ∈ s.fields)
      (theirs : (key, wordToJson default) ∈ zero.fields) :
      orDefault wordOfJson? default (fs.lookup key) = some w :=
    spells.decoded ours theirs (wordOfJson?_wordToJson w) (wordOfJson?_wordToJson default)
  have buffer (key : String) (bs default : Bytes) (ours : (key, bytesToJson bs) ∈ s.fields)
      (theirs : (key, bytesToJson default) ∈ zero.fields) :
      orDefault bytesOfJson? default (fs.lookup key) = some bs :=
    spells.decoded ours theirs (bytesOfJson?_bytesToJson bs) (bytesOfJson?_bytesToJson default)
  rw [ofJson?, spells.fields?]
  simp only [keys, shape, List.map_cons, List.map_nil,
    octets "address" s.address zero.address (here 0 rfl) (here 0 rfl),
    octets "caller" s.caller zero.caller (here 1 rfl) (here 1 rfl),
    octets "origin" s.origin zero.origin (here 2 rfl) (here 2 rfl),
    word "value" s.value zero.value (here 3 rfl) (here 3 rfl),
    word "gas_price" s.gasPrice zero.gasPrice (here 4 rfl) (here 4 rfl),
    octets "previous_block_hash" s.previousBlockHash zero.previousBlockHash (here 5 rfl) (here 5 rfl),
    octets "coinbase" s.coinbase zero.coinbase (here 6 rfl) (here 6 rfl),
    word "timestamp" s.timestamp zero.timestamp (here 7 rfl) (here 7 rfl),
    word "number" s.number zero.number (here 8 rfl) (here 8 rfl),
    word "difficulty" s.difficulty zero.difficulty (here 9 rfl) (here 9 rfl),
    word "gas_limit" s.gasLimit zero.gasLimit (here 10 rfl) (here 10 rfl),
    buffer "call_data" s.callData zero.callData (here 11 rfl) (here 11 rfl),
    buffer "code" s.code zero.code (here 12 rfl) (here 12 rfl), Option.bind_eq_bind,
    Option.bind_some]
  rfl

/-- There is no list in an object of texts. -/
theorem Spells.listless {s : Snapshot} {fs : List (String × Value)} (spells : s.Spells fs) :
    .openList ∉ (Value.record fs).tokens := by
  have others (gs : List (String × Value)) (texts : ∀ key v, (key, v) ∈ gs → ∃ text, v = .text text) :
      .openList ∉ Value.fieldTokens gs := by
    induction gs with
    | nil => simp [Value.fieldTokens]
    | cons field gs ih =>
      obtain ⟨key, v⟩ := field
      obtain ⟨text, rfl⟩ := texts key v (List.mem_cons_self ..)
      simpa [Value.fieldTokens, Value.tokens] using
        ih fun key v later => texts key v (List.mem_cons_of_mem _ later)
  cases fs with
  | nil => simp [Value.tokens]
  | cons field fs =>
    have all := others (field :: fs) spells.texts
    obtain ⟨key, v⟩ := field
    simpa [Value.fieldTokens, Value.tokens] using all

/-- **A snapshot survives JSON**: it is read back from its JSON text, and also from that of every
object with the fields in another order, with more fields of unknown keys, or without some that are
zero or empty. -/
theorem parse_variant (s : Snapshot) (style : Style) :
    parse (s.toJson.render style) = .ok s ∧
    ∀ fs, s.Variant fs → parse ((Value.record fs).render style) = .ok s := by
  have read : ∀ fs, s.Variant fs → parse ((Value.record fs).render style) = .ok s := by
    intro fs variant
    have spells := variant.spells
    rw [parse, Value.read?_render style spells.listless, Option.bind_some,
      ofJson?_of_spells spells]
  refine ⟨?_, read⟩
  rw [toJson_eq]
  exact read _ .whole

/-- A snapshot with little in it. -/
def sparse : Snapshot := { zero with value := 5, code := [0xab, 0xcd] }

/-- That snapshot in short and in another order, with a remark. -/
def sparseFields : List (String × Value) :=
  [("remark", .text "not a field"), ("code", bytesToJson [0xab, 0xcd]), ("value", wordToJson 5)]

theorem parse_variant_sparse :
    sparse.Variant sparseFields ∧
    parse ((Value.record sparseFields).render .indented) = .ok sparse := by
  have zeros (position : Nat) {field : String × Value}
      (there : zero.fields[position]? = some field) : field ∈ zero.fields :=
    List.mem_of_getElem? there
  have all : sparse.Variant sparse.fields := .whole
  have fromValue : sparse.Variant (sparse.fields.drop 3) :=
    ((all.leaveOut (zeros 0 rfl)).leaveOut (zeros 1 rfl)).leaveOut (zeros 2 rfl)
  have turned : sparse.Variant (sparse.fields.drop 4 ++ [("value", wordToJson 5)]) :=
    fromValue.permute (@List.perm_append_comm _ [_] _)
  have short : sparse.Variant [("code", bytesToJson [0xab, 0xcd]), ("value", wordToJson 5)] :=
    (((((((turned.leaveOut (zeros 4 rfl)).leaveOut (zeros 5 rfl)).leaveOut
      (zeros 6 rfl)).leaveOut (zeros 7 rfl)).leaveOut (zeros 8 rfl)).leaveOut
      (zeros 9 rfl)).leaveOut (zeros 10 rfl)).leaveOut (zeros 11 rfl)
  have variant : sparse.Variant sparseFields :=
    short.extend "remark" "not a field" (by simp [keys, shape])
  exact ⟨variant, (parse_variant sparse .indented).2 _ variant⟩

end Snapshot

end HostBridge
