/-!
# Byte strings and little-endian numbers

Everything the bridge exchanges with generated code is laid out as bytes. This module holds

* `Bytes`, a list of bytes, and `Octets n`, a byte string of exactly `n` bytes;
* `Bytes.number` and `Bytes.ofNumber`, the little-endian reading and writing of a number, with the
  laws `number_ofNumber` (writing keeps the number modulo `capacity n`, the count of numbers that
  fit into `n` bytes) and `ofNumber_number` (reading loses nothing);
* rows of pieces of one size: where each piece stands (`slice_flatMap`), and that a byte string is the
  row of its pieces (`flatten_slice`);
* `Octets.read` and `Octets.write`, access to a range inside a fixed block: what has been written is
  read back (`read_write_self`), and nothing else changes (`read_write_of_disjoint`);
* the hexadecimal text of a byte string, `Bytes.hex`, and its reader `Bytes.ofHex?`.
-/

set_option autoImplicit false

namespace HostBridge

/-- A byte string. -/
abbrev Bytes := List UInt8

namespace Bytes

/-- The number whose little-endian digits to base 256 are the given bytes. -/
def number : Bytes → Nat
  | [] => 0
  | b :: bs => b.toNat + 256 * number bs

/-- The `n` low bytes of a number, least significant first. -/
def ofNumber : Nat → Nat → Bytes
  | 0, _ => []
  | n + 1, k => UInt8.ofNat k :: ofNumber n (k / 256)

/-- How many numbers can be written in `n` bytes. -/
def capacity : Nat → Nat
  | 0 => 1
  | n + 1 => 256 * capacity n

@[simp] theorem number_nil : number [] = 0 := rfl

@[simp] theorem number_cons (b : UInt8) (bs : Bytes) :
    number (b :: bs) = b.toNat + 256 * number bs := rfl

@[simp] theorem length_ofNumber (n k : Nat) : (ofNumber n k).length = n := by
  induction n generalizing k with
  | zero => rfl
  | succ n ih => simp [ofNumber, ih]

theorem number_ofNumber (n k : Nat) : number (ofNumber n k) = k % capacity n := by
  induction n generalizing k with
  | zero => simp [ofNumber, capacity, Nat.mod_one]
  | succ n ih =>
    have low : (UInt8.ofNat k).toNat = k % 256 := by simp
    rw [ofNumber, number_cons, ih, low, capacity, Nat.mod_mul]

theorem number_lt (bs : Bytes) : number bs < capacity bs.length := by
  induction bs with
  | nil => simp [capacity]
  | cons b bs ih =>
    have hb : b.toNat < 256 := b.toNat_lt
    rw [number_cons, List.length_cons, capacity]
    omega

theorem ofNumber_number (bs : Bytes) : ofNumber bs.length (number bs) = bs := by
  induction bs with
  | nil => rfl
  | cons b bs ih =>
    have hb : b.toNat < 256 := b.toNat_lt
    have tail : (b.toNat + 256 * number bs) / 256 = number bs := by omega
    have head : UInt8.ofNat (b.toNat + 256 * number bs) = b := by
      apply UInt8.toNat_inj.1
      simp
    rw [List.length_cons, ofNumber, number_cons, tail, head, ih]

/-- The number whose big-endian digits to base 256 are the given bytes. -/
def bigEndian (bs : Bytes) : Nat := number bs.reverse

/-- The part of a byte string that starts at `offset` and has `size` bytes, or what there is of it. -/
def slice (bs : Bytes) (offset size : Nat) : Bytes := (bs.drop offset).take size

/-- The byte string with the bytes from `offset` on replaced by `new`. -/
def splice (bs : Bytes) (offset : Nat) (new : Bytes) : Bytes :=
  bs.take offset ++ new ++ bs.drop (offset + new.length)

theorem length_slice {bs : Bytes} {offset size : Nat} (h : offset + size ≤ bs.length) :
    (slice bs offset size).length = size := by
  simp [slice]
  omega

theorem length_splice {bs new : Bytes} {offset : Nat} (h : offset + new.length ≤ bs.length) :
    (splice bs offset new).length = bs.length := by
  simp [splice]
  omega

theorem slice_splice_self {bs new : Bytes} {offset : Nat} (h : offset + new.length ≤ bs.length) :
    slice (splice bs offset new) offset new.length = new := by
  have start : (bs.take offset).length = offset := by
    rw [List.length_take]
    omega
  have rest : (bs.take offset ++ (new ++ bs.drop (offset + new.length))).drop offset =
      new ++ bs.drop (offset + new.length) := List.drop_left' start
  rw [slice, splice, List.append_assoc, rest, List.take_left' rfl]

theorem getElem?_splice {bs new : Bytes} {offset i : Nat} (h : offset + new.length ≤ bs.length) :
    (splice bs offset new)[i]? =
      if offset ≤ i ∧ i < offset + new.length then new[i - offset]? else bs[i]? := by
  have start : (bs.take offset).length = offset := by
    rw [List.length_take]
    omega
  rw [splice, List.append_assoc]
  by_cases before : i < offset
  · rw [List.getElem?_append_left (by rw [start]; exact before), List.getElem?_take_of_lt before,
      if_neg (by omega)]
  · rw [List.getElem?_append_right (by rw [start]; omega), start]
    by_cases within : i < offset + new.length
    · rw [List.getElem?_append_left (by omega), if_pos (by omega)]
    · rw [List.getElem?_append_right (by omega), List.getElem?_drop, if_neg (by omega)]
      congr 1
      omega

theorem slice_splice_of_disjoint {bs new : Bytes} {offset other size : Nat}
    (h : offset + new.length ≤ bs.length)
    (apart : other + size ≤ offset ∨ offset + new.length ≤ other) :
    slice (splice bs offset new) other size = slice bs other size := by
  apply List.ext_getElem?
  intro i
  rw [slice, slice, List.getElem?_take, List.getElem?_take]
  split
  · rw [List.getElem?_drop, List.getElem?_drop, getElem?_splice h, if_neg (by omega)]
  · rfl

/-! ## Byte strings in a row -/

theorem slice_append_left {first : Bytes} {offset size : Nat} (inside : offset + size ≤ first.length)
    (second : Bytes) : slice (first ++ second) offset size = slice first offset size := by
  rw [slice, List.drop_append_of_le_length (by omega),
    List.take_append_of_le_length (by rw [List.length_drop]; omega), slice]

theorem slice_append_right {first : Bytes} {start : Nat} (length : first.length = start)
    (second : Bytes) (offset size : Nat) :
    slice (first ++ second) (start + offset) size = slice second offset size := by
  rw [slice, ← List.drop_drop, List.drop_left' length, slice]

section Row

variable {α : Type} {f : α → Bytes} {size : Nat}

theorem length_flatMap (uniform : ∀ x, (f x).length = size) (xs : List α) :
    (xs.flatMap f).length = xs.length * size := by
  induction xs with
  | nil => simp
  | cons x xs ih =>
    rw [List.flatMap_cons, List.length_append, uniform, ih, List.length_cons, Nat.succ_mul,
      Nat.add_comm]

/-- In a row of pieces of one size, each piece stands behind as many sizes as there are pieces
before it. -/
theorem slice_flatMap (uniform : ∀ x, (f x).length = size) (xs : List α) {i : Nat}
    (bound : i < xs.length) : slice (xs.flatMap f) (i * size) size = f xs[i] := by
  have before : ((xs.take i).flatMap f).length = i * size := by
    rw [length_flatMap uniform, List.length_take, Nat.min_eq_left (Nat.le_of_lt bound)]
  calc slice (xs.flatMap f) (i * size) size
      = slice ((xs.take i).flatMap f ++ (xs.drop i).flatMap f) (i * size + 0) size := by
        rw [← List.flatMap_append, List.take_append_drop, Nat.add_zero]
    _ = slice (f xs[i] ++ (xs.drop (i + 1)).flatMap f) 0 size := by
        rw [slice_append_right before, List.drop_eq_getElem_cons bound, List.flatMap_cons]
    _ = f xs[i] := by
        rw [slice, List.drop_zero, List.take_left' (uniform _)]

/-- A byte string is the row of its pieces of one size. -/
theorem flatten_slice (bs : Bytes) (size n : Nat) :
    (List.ofFn fun i : Fin n => slice bs (i * size) size).flatten = bs.take (n * size) := by
  induction n with
  | zero => simp
  | succ n ih =>
    rw [List.ofFn_succ_last, List.flatten_append, List.flatten_singleton, Nat.succ_mul,
      List.take_add, ← ih]
    rfl

end Row

/-! ## Hexadecimal text -/

/-- The lower-case digit of a number below sixteen. -/
def hexDigit (n : Nat) : Char :=
  if n < 10 then Char.ofNat ('0'.toNat + n) else Char.ofNat ('a'.toNat + (n - 10))

/-- The value of a hexadecimal digit of either case. -/
def hexValue? (c : Char) : Option Nat :=
  if '0' ≤ c ∧ c ≤ '9' then some (c.toNat - '0'.toNat)
  else if 'a' ≤ c ∧ c ≤ 'f' then some (c.toNat - 'a'.toNat + 10)
  else if 'A' ≤ c ∧ c ≤ 'F' then some (c.toNat - 'A'.toNat + 10)
  else none

/-- Two lower-case digits for each byte. -/
def hexDigits : Bytes → List Char
  | [] => []
  | b :: bs => hexDigit (b.toNat / 16) :: hexDigit (b.toNat % 16) :: hexDigits bs

/-- The text of a byte string: `0x` and two digits for each byte. -/
def hex (bs : Bytes) : String := String.ofList ('0' :: 'x' :: hexDigits bs)

/-- Reads digits in pairs; an odd number of digits or any other character is refused. -/
def ofHexDigits? : List Char → Option Bytes
  | [] => some []
  | high :: low :: rest => do
    let h ← hexValue? high
    let l ← hexValue? low
    let bs ← ofHexDigits? rest
    return UInt8.ofNat (16 * h + l) :: bs
  | [_] => none

/-- The digits after an optional `0x` or `0X`. -/
def dropHexMark : List Char → List Char
  | '0' :: 'x' :: rest => rest
  | '0' :: 'X' :: rest => rest
  | digits => digits

/-- Reads the text of a byte string, with or without its mark and in either case. -/
def ofHex? (text : String) : Option Bytes := ofHexDigits? (dropHexMark text.toList)

end Bytes

/-- A byte string of exactly `n` bytes. -/
structure Octets (n : Nat) where
  bytes : Bytes
  length_eq : bytes.length = n
  deriving DecidableEq, Repr

namespace Octets

variable {n : Nat}

@[ext] theorem ext {a b : Octets n} (h : a.bytes = b.bytes) : a = b := by
  cases a
  cases b
  cases h
  rfl

/-- `n` zero bytes. -/
def zero (n : Nat) : Octets n := ⟨List.replicate n 0, List.length_replicate⟩

instance : Inhabited (Octets n) := ⟨zero n⟩

/-- The byte string, when it has the right length. -/
def ofBytes? (n : Nat) (bs : Bytes) : Option (Octets n) :=
  if h : bs.length = n then some ⟨bs, h⟩ else none

/-- The low `n` bytes of a number, least significant first. -/
def ofNumber (n k : Nat) : Octets n := ⟨Bytes.ofNumber n k, Bytes.length_ofNumber n k⟩

/-- The little-endian number of a byte string. -/
def number (o : Octets n) : Nat := Bytes.number o.bytes

theorem number_lt (o : Octets n) : o.number < Bytes.capacity n := by
  simpa [number, o.length_eq] using Bytes.number_lt o.bytes

@[simp] theorem number_ofNumber (n k : Nat) : (ofNumber n k).number = k % Bytes.capacity n :=
  Bytes.number_ofNumber n k

@[simp] theorem ofNumber_number (o : Octets n) : ofNumber n o.number = o := by
  apply Octets.ext
  have := Bytes.ofNumber_number o.bytes
  rwa [o.length_eq] at this

/-- The range of `size` bytes at `offset`. -/
def read (o : Octets n) (offset size : Nat) (h : offset + size ≤ n) : Octets size :=
  ⟨Bytes.slice o.bytes offset size, Bytes.length_slice (by rw [o.length_eq]; exact h)⟩

/-- The block with the range at `offset` replaced. -/
def write {size : Nat} (o : Octets n) (offset : Nat) (new : Octets size) (h : offset + size ≤ n) :
    Octets n :=
  ⟨Bytes.splice o.bytes offset new.bytes, by
    rw [Bytes.length_splice (by rw [o.length_eq, new.length_eq]; exact h), o.length_eq]⟩

@[simp] theorem read_write_self {size : Nat} (o : Octets n) (offset : Nat) (new : Octets size)
    (h : offset + size ≤ n) : (o.write offset new h).read offset size h = new := by
  apply Octets.ext
  have fits : offset + new.bytes.length ≤ o.bytes.length := by
    rw [o.length_eq, new.length_eq]
    exact h
  have := Bytes.slice_splice_self fits
  rwa [new.length_eq] at this

theorem read_write_of_disjoint {size otherSize : Nat} (o : Octets n) {offset other : Nat}
    (new : Octets size) (h : offset + size ≤ n) (hOther : other + otherSize ≤ n)
    (apart : other + otherSize ≤ offset ∨ offset + size ≤ other) :
    (o.write offset new h).read other otherSize hOther = o.read other otherSize hOther := by
  apply Octets.ext
  apply Bytes.slice_splice_of_disjoint
  · rw [o.length_eq, new.length_eq]
    exact h
  · rw [new.length_eq]
    exact apart

end Octets

end HostBridge
