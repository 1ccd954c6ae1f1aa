import HostBridge.Proofs.Context
import Mathlib.Data.Nat.Digits.Defs

/-!
# Marshalling is exact

Words, addresses, hashes and sizes reach generated code as images of 32 bytes. Nothing is lost on
the way and nothing is added: what an image says is the number that its bytes spell as digits to
base 256, least significant first, and addresses and hashes spell theirs the other way round.

* `Bytes.number_eq_ofDigits` — the number of a byte string in terms of digits;
* `WordImage.toAddress_ofAddress`, `WordImage.number_ofAddress_toAddress` — an address comes back
  from its image, and an image keeps its low 20 bytes as an address;
* `WordImage.toSize?_eq_some_iff` — an image holds a size exactly if its number is that size;
* `marshalling_exact` — all the laws together.
-/

set_option autoImplicit false

namespace HostBridge

namespace Bytes

theorem number_eq_ofDigits (bs : Bytes) : number bs = Nat.ofDigits 256 (bs.map UInt8.toNat) := by
  induction bs with
  | nil => rfl
  | cons b bs ih => rw [number_cons, ih, List.map_cons, Nat.ofDigits_cons]

theorem bigEndian_eq_ofDigits (bs : Bytes) :
    bigEndian bs = Nat.ofDigits 256 (bs.reverse.map UInt8.toNat) :=
  number_eq_ofDigits bs.reverse

theorem capacity_eq_pow (n : Nat) : capacity n = 2 ^ (8 * n) := by
  induction n with
  | zero => rfl
  | succ n ih => rw [capacity, ih, Nat.mul_succ, Nat.pow_add, Nat.mul_comm]

end Bytes

namespace WordImage

theorem toAddress_ofAddress (a : AccountAddress) : toAddress (ofAddress a) = a := by
  apply Octets.ext
  have turned : a.bytes.reverse.length = addressSize := by rw [List.length_reverse, a.length_eq]
  show ((a.bytes.reverse ++ List.replicate _ 0).take addressSize).reverse = a.bytes
  rw [List.take_left' turned, List.reverse_reverse]

/-- What an image keeps as an address is the number of its low 20 bytes. -/
theorem number_ofAddress_toAddress (i : WordImage) :
    (ofAddress i.toAddress).number = i.number % Bytes.capacity addressSize := by
  have split := Bytes.number_split addressSize i.bytes
  have low : Bytes.number (i.bytes.take addressSize) < Bytes.capacity addressSize := by
    have bound := Bytes.number_lt (i.bytes.take addressSize)
    rwa [List.length_take, i.length_eq] at bound
  have kept : (ofAddress i.toAddress).number = Bytes.number (i.bytes.take addressSize) := by
    rw [number_ofAddress, Bytes.bigEndian, toAddress, List.reverse_reverse]
  rw [kept, Octets.number, split, Nat.add_mul_mod_self_left, Nat.mod_eq_of_lt low]

theorem number_ofHash (h : BlockHash) : (ofHash h).number = Bytes.bigEndian h.bytes := by
  rw [← Word.toNat_ofImage, ofImage_ofHash, BitVec.toNat_ofNat]
  exact Nat.mod_eq_of_lt h.bigEndian_lt

/-- The size that an image holds is its number. -/
theorem toSize?_eq_some_iff (i : WordImage) (n : Addr) :
    i.toSize? = some n.toNat ↔ i.number = n.toNat := by
  have bound : n.toNat < Bytes.capacity pointerSize := n.isLt
  rw [toSize?_eq]
  by_cases fits : i.number < Bytes.capacity pointerSize
  · rw [if_pos fits, Option.some.injEq]
  · rw [if_neg fits]
    refine iff_of_false (by simp) fun same => ?_
    omega

theorem toSize?_eq_none_iff (i : WordImage) : i.toSize? = none ↔ 2 ^ 64 ≤ i.number := by
  have limit : Bytes.capacity pointerSize = 2 ^ 64 := Bytes.capacity_eq_pow 8
  rw [toSize?_eq, limit, ite_eq_right_iff]
  simp

theorem number_ofSize (n : Addr) : (ofSize n.toNat).number = n.toNat := by
  have bound := n.isLt
  rw [ofSize, ← Word.toNat_ofImage, Word.ofImage_image, BitVec.toNat_ofNat]
  exact Nat.mod_eq_of_lt (by omega)

end WordImage

open WordImage in
/-- **Marshalling is exact.** The number of an image is spelt by its bytes, least significant first.
Words and images determine each other; an address and a hash keep the number that they spell most
significant byte first, and an address comes back from its image; an image that is cut down to an
address keeps its number modulo `2 ^ 160`; and the size of an image is its number, or nothing if
that takes more than 64 bits. -/
theorem marshalling_exact :
    (∀ i : WordImage, (Word.ofImage i).toNat = Nat.ofDigits 256 (i.bytes.map UInt8.toNat)) ∧
    (∀ w : Word, Word.ofImage w.image = w) ∧
    (∀ i : WordImage, (Word.ofImage i).image = i) ∧
    (∀ a : AccountAddress,
      (Word.ofImage (ofAddress a)).toNat = Nat.ofDigits 256 (a.bytes.reverse.map UInt8.toNat) ∧
      (Word.ofImage (ofAddress a)).toNat < 2 ^ 160 ∧
      toAddress (ofAddress a) = a) ∧
    (∀ i : WordImage,
      (Word.ofImage (ofAddress i.toAddress)).toNat = (Word.ofImage i).toNat % 2 ^ 160) ∧
    (∀ h : BlockHash,
      (Word.ofImage (ofHash h)).toNat = Nat.ofDigits 256 (h.bytes.reverse.map UInt8.toNat)) ∧
    (∀ (i : WordImage) (n : Addr),
      i.toSize? = some n.toNat ↔ (Word.ofImage i).toNat = n.toNat) ∧
    (∀ i : WordImage, i.toSize? = none ↔ 2 ^ 64 ≤ (Word.ofImage i).toNat) ∧
    (∀ n : Addr, (ofSize n.toNat).toSize? = some n.toNat) := by
  have limit : Bytes.capacity addressSize = 2 ^ 160 := Bytes.capacity_eq_pow 20
  simp only [Word.toNat_ofImage]
  refine ⟨fun i => Bytes.number_eq_ofDigits i.bytes, Word.ofImage_image, Word.image_ofImage,
    fun a => ⟨?_, ?_, toAddress_ofAddress a⟩, fun i => ?_, fun h => ?_, toSize?_eq_some_iff,
    toSize?_eq_none_iff, fun n => ?_⟩
  · rw [number_ofAddress, Bytes.bigEndian_eq_ofDigits]
  · rw [number_ofAddress, ← limit]
    exact a.bigEndian_lt
  · rw [number_ofAddress_toAddress, limit]
  · rw [number_ofHash, Bytes.bigEndian_eq_ofDigits]
  · rw [toSize?_eq_some_iff, number_ofSize]

end HostBridge
