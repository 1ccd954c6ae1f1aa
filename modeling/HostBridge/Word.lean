import HostBridge.Bytes

/-!
# Words, addresses and their images

The machine word has 256 bits. Host and generated code exchange it as an image of 32 bytes, least
significant first, whereas account addresses (20 bytes) and block hashes (32 bytes) are written
most significant byte first. This module holds the word types and the conversions:

* `Word.image` and `Word.ofImage`, inverse to each other (`ofImage_image`, `image_ofImage`);
* `WordImage.ofAddress`, `WordImage.toAddress` and `WordImage.ofHash`, which turn the byte order;
* `WordImage.ofSize` and `WordImage.toSize?`, the passage to sizes of 64 bits, of which a word has
  four (`Word.limb`);
* `Addr.octets` and `Addr.ofOctets`, the bytes of an address, and `Addr.add?`, the way from one
  address to a later one;
* `Word.text` and `Word.parse?`, the text of a word.
-/

set_option autoImplicit false

namespace HostBridge

/-- A machine word. -/
abbrev Word := BitVec 256

/-- A place in the 64-bit address space. -/
abbrev Addr := BitVec 64

/-- A 32-bit integer, read in two's complement. -/
abbrev Int32Bits := BitVec 32

/-- The text of an address: `0x` and its lower-case hexadecimal digits without leading zeros. -/
def Addr.text (a : Addr) : String := String.ofList ('0' :: 'x' :: Nat.toDigits 16 a.toNat)

/-- Bytes in a word. -/
def wordSize : Nat := 32

/-- Bytes in an account address. -/
def addressSize : Nat := 20

/-- Bytes in a pointer. -/
def pointerSize : Nat := 8

/-- The image of a word: its 32 bytes, least significant first. -/
abbrev WordImage := Octets wordSize

/-- The address of an account, most significant byte first. -/
abbrev AccountAddress := Octets addressSize

/-- The hash of a block, most significant byte first. -/
abbrev BlockHash := Octets wordSize

namespace Addr

/-- The bytes of an address, least significant first. -/
def octets (a : Addr) : Octets pointerSize := Octets.ofNumber pointerSize a.toNat

/-- The address with the given bytes. -/
def ofOctets (o : Octets pointerSize) : Addr := BitVec.ofNat 64 o.number

/-- The address that many bytes further on, if the address space reaches so far. -/
def add? (a : Addr) (n : Nat) : Option Addr :=
  if a.toNat + n < Bytes.capacity pointerSize then some (BitVec.ofNat 64 (a.toNat + n)) else none

theorem add?_of_lt {a : Addr} {n : Nat} (inside : a.toNat + n < Bytes.capacity pointerSize) :
    a.add? n = some (BitVec.ofNat 64 (a.toNat + n)) :=
  if_pos inside

theorem eq_of_add? {a b : Addr} {n : Nat} (h : a.add? n = some b) :
    b = BitVec.ofNat 64 (a.toNat + n) := by
  unfold add? at h
  split at h <;> cases h
  rfl

@[simp] theorem ofOctets_octets (a : Addr) : ofOctets (octets a) = a := by
  have bound : a.toNat < Bytes.capacity pointerSize := a.isLt
  rw [ofOctets, octets, Octets.number_ofNumber, Nat.mod_eq_of_lt bound, BitVec.ofNat_toNat,
    BitVec.setWidth_eq]

@[simp] theorem octets_ofOctets (o : Octets pointerSize) : octets (ofOctets o) = o := by
  have bound : o.number < 2 ^ 64 := o.number_lt
  rw [octets, ofOctets, BitVec.toNat_ofNat, Nat.mod_eq_of_lt bound, Octets.ofNumber_number]

end Addr

namespace Word

/-- The image of a word. -/
def image (w : Word) : WordImage := Octets.ofNumber wordSize w.toNat

/-- The word with the given image. -/
def ofImage (i : WordImage) : Word := BitVec.ofNat 256 i.number

/-- A word fits into its bytes. -/
theorem toNat_lt_capacity (w : Word) : w.toNat < Bytes.capacity wordSize := w.isLt

theorem toNat_ofImage (i : WordImage) : (ofImage i).toNat = i.number := by
  rw [ofImage, BitVec.toNat_ofNat]
  exact Nat.mod_eq_of_lt i.number_lt

@[simp] theorem ofImage_image (w : Word) : ofImage (image w) = w := by
  apply BitVec.eq_of_toNat_eq
  rw [toNat_ofImage, image, Octets.number_ofNumber, Nat.mod_eq_of_lt w.toNat_lt_capacity]

@[simp] theorem image_ofImage (i : WordImage) : image (ofImage i) = i := by
  rw [image, toNat_ofImage, Octets.ofNumber_number]

/-- The limb of a word at a position: 64 of its bits, the lowest at position zero. -/
def limb (w : Word) (i : Nat) : BitVec 64 := w.extractLsb' (64 * i) 64

/-! ## Text -/

/-- The text of a word: `0x` and its lower-case hexadecimal digits without leading zeros. -/
def text (w : Word) : String := String.ofList ('0' :: 'x' :: Nat.toDigits 16 w.toNat)

/-- The radix that a mark announces, and the digits after the mark. -/
def radix : List Char → Nat × List Char
  | '0' :: 'x' :: digits => (16, digits)
  | '0' :: 'X' :: digits => (16, digits)
  | '0' :: 'o' :: digits => (8, digits)
  | '0' :: 'O' :: digits => (8, digits)
  | '0' :: 'b' :: digits => (2, digits)
  | '0' :: 'B' :: digits => (2, digits)
  | digits => (10, digits)

/-- The value of a digit of the given radix, at most sixteen. -/
def digit? (base : Nat) (c : Char) : Option Nat :=
  match Bytes.hexValue? c with
  | some d => if d < base then some d else none
  | none => none

/-- Reads digits after the value `sofar` of those before them. Underscores are skipped; a value
that outgrows the word is refused. -/
def readDigits (base : Nat) : Nat → List Char → Option Nat
  | sofar, [] => some sofar
  | sofar, c :: rest =>
    if c = '_' then readDigits base sofar rest
    else match digit? base c with
      | some d =>
        if sofar * base + d < Bytes.capacity wordSize then readDigits base (sofar * base + d) rest
        else none
      | none => none

/-- Reads the text of a word: a mark `0x`, `0o` or `0b` in either case, or none for decimal, then
digits of that radix with underscores anywhere. No digits at all read as zero. -/
def parse? (text : String) : Option Word :=
  let (base, digits) := radix text.toList
  (readDigits base 0 digits).map (BitVec.ofNat 256)

end Word

namespace WordImage

/-- The image of an address: its bytes turned round, then zeros. -/
def ofAddress (a : AccountAddress) : WordImage :=
  ⟨a.bytes.reverse ++ List.replicate (wordSize - addressSize) 0, by
    simp [a.length_eq, wordSize, addressSize]⟩

/-- The address in the low bytes of an image. -/
def toAddress (i : WordImage) : AccountAddress :=
  ⟨(i.bytes.take addressSize).reverse, by simp [i.length_eq, wordSize, addressSize]⟩

/-- The image of a hash, read as a number most significant byte first. -/
def ofHash (h : BlockHash) : WordImage := Word.image (BitVec.ofNat 256 (Bytes.bigEndian h.bytes))

/-- The image of a size. -/
def ofSize (n : Nat) : WordImage := Word.image (BitVec.ofNat 256 n)

/-- The size that an image holds, if it fits into 64 bits: all limbs but the lowest are zero. -/
def toSize? (i : WordImage) : Option Nat :=
  let w := Word.ofImage i
  if [1, 2, 3].any (w.limb · ≠ 0) then none else some (w.limb 0).toNat

/-- A word is a size if it fits into 64 bits. -/
theorem toSize?_eq (i : WordImage) :
    i.toSize? = if i.number < Bytes.capacity pointerSize then some i.number else none := by
  have bound : i.number < 2 ^ 256 := i.number_lt
  have limit : Bytes.capacity pointerSize = 2 ^ 64 := rfl
  have limb (k : Nat) : ((Word.ofImage i).limb k).toNat = i.number / 2 ^ (64 * k) % 2 ^ 64 := by
    rw [Word.limb, BitVec.extractLsb'_toNat, Nat.shiftRight_eq_div_pow, Word.toNat_ofImage]
  have zero (k : Nat) : (Word.ofImage i).limb k = 0 ↔ i.number / 2 ^ (64 * k) % 2 ^ 64 = 0 := by
    rw [← limb, ← BitVec.toNat_inj]
    rfl
  have high : [1, 2, 3].any ((Word.ofImage i).limb · ≠ 0) = true ↔ ¬ i.number < 2 ^ 64 := by
    simp only [List.any_cons, List.any_nil, Bool.or_false, Bool.or_eq_true, decide_eq_true_eq, ne_eq,
      zero, Nat.reduceMul]
    omega
  rw [limit, toSize?]
  by_cases fits : i.number < 2 ^ 64
  · have low : i.number / 2 ^ (64 * 0) % 2 ^ 64 = i.number := by omega
    rw [if_neg fun wide => high.1 wide fits, if_pos fits, limb, low]
  · rw [if_pos (high.2 fits), if_neg fits]

end WordImage

end HostBridge
