import HostBridge.Json.Token
import HostBridge.Word
import Mathlib.Data.List.TakeWhile

/-!
# Numerals

Numbers, words and byte strings are written as digits, and what is written is read back: the digits
of a number by going from its quotient by the base to the number itself, the digits of a byte string
two by two.

* `Bytes.ofHex?_hex` — the text of a byte string, of any length;
* `Word.parse?_text` — the text of a word, although no digits are written for leading zeros;
* `Json.word?_toDigits` — a natural number in a JSON text.
-/

set_option autoImplicit false

namespace HostBridge

/-! ## Hexadecimal digits -/

namespace Bytes

theorem hexValue?_hexDigit {n : Nat} (small : n < 16) : hexValue? (hexDigit n) = some n := by
  revert n
  decide

theorem ofHexDigits?_hexDigits (bs : Bytes) : ofHexDigits? (hexDigits bs) = some bs := by
  induction bs with
  | nil => rfl
  | cons b bs ih =>
    have bound : b.toNat < 256 := b.toNat_lt
    have high := hexValue?_hexDigit (n := b.toNat / 16) (by omega)
    have low := hexValue?_hexDigit (n := b.toNat % 16) (by omega)
    have whole : UInt8.ofNat (16 * (b.toNat / 16) + b.toNat % 16) = b := by
      rw [Nat.div_add_mod, UInt8.ofNat_toNat]
    simp only [hexDigits, ofHexDigits?, high, low, ih, whole, Option.bind_eq_bind, Option.bind_some,
      Option.pure_def]

/-- **A byte string is read back from its text.** -/
theorem ofHex?_hex (bs : Bytes) : ofHex? (hex bs) = some bs := by
  rw [ofHex?, hex, String.toList_ofList, dropHexMark, ofHexDigits?_hexDigits]

end Bytes

/-! ## Digits of a number -/

/-- The digits of a positive number do not start with a zero. -/
theorem toDigits_head {base n : Nat} (large : 1 < base) (small : base ≤ 16) (positive : 0 < n)
    (rest : List Char) : Nat.toDigits base n ≠ '0' :: rest := by
  induction n using Nat.strongRecOn generalizing rest with
  | ind n ih =>
    rw [Nat.toDigits_eq_if large]
    by_cases last : n < base
    · rw [if_pos last]
      intro same
      have digits : ∀ d < 16, 0 < d → Nat.digitChar d ≠ '0' := by decide
      exact digits n (by omega) positive (List.cons.inj same).1
    · have quotient : 0 < n / base := Nat.div_pos (by omega) (by omega)
      have smaller : n / base < n := Nat.div_lt_self positive large
      rw [if_neg last]
      cases digits : Nat.toDigits base (n / base) with
      | nil => exact absurd digits Nat.toDigits_ne_nil
      | cons c cs =>
        intro same
        exact ih _ smaller quotient cs (digits.trans (by rw [(List.cons.inj same).1]))

namespace Word

theorem readDigits_append (base sofar : Nat) (xs ys : List Char) :
    readDigits base sofar (xs ++ ys) =
      (readDigits base sofar xs).bind fun value => readDigits base value ys := by
  induction xs generalizing sofar with
  | nil => rfl
  | cons c xs ih =>
    rw [List.cons_append, readDigits, readDigits]
    by_cases skip : c = '_'
    · rw [if_pos skip, if_pos skip, ih]
    · rw [if_neg skip, if_neg skip]
      cases digit? base c with
      | none => rfl
      | some d =>
        dsimp only
        split
        · exact ih _
        · rfl

/-- One more digit, if the number still fits. -/
theorem readDigits_digit {sofar d : Nat} (small : d < 16)
    (fits : sofar * 16 + d < Bytes.capacity wordSize) :
    readDigits 16 sofar [Nat.digitChar d] = some (sofar * 16 + d) := by
  have digits : ∀ d < 16, Nat.digitChar d ≠ '_' ∧ digit? 16 (Nat.digitChar d) = some d := by decide
  rw [readDigits, if_neg (digits d small).1, (digits d small).2]
  dsimp only
  rw [if_pos fits]
  rfl

/-- The digits of a number are read back, however many there are before each of them. -/
theorem readDigits_toDigits {n : Nat} (fits : n < Bytes.capacity wordSize) :
    readDigits 16 0 (Nat.toDigits 16 n) = some n := by
  induction n using Nat.strongRecOn with
  | ind n ih =>
    rw [Nat.toDigits_eq_if (by omega)]
    by_cases last : n < 16
    · have alone := @readDigits_digit 0 n last (by omega)
      rw [if_pos last, alone, Nat.zero_mul, Nat.zero_add]
    · have quotient := ih (n / 16) (by omega) (by omega)
      rw [if_neg last, readDigits_append, quotient, Option.bind_some,
        readDigits_digit (Nat.mod_lt n (by omega)) (by omega)]
      congr 1
      omega

/-- **A word is read back from its text.** -/
theorem parse?_text (w : Word) : parse? w.text = some w := by
  rw [parse?, text, String.toList_ofList, radix]
  dsimp only
  rw [readDigits_toDigits w.toNat_lt_capacity, Option.map_some, BitVec.ofNat_toNat,
    BitVec.setWidth_eq]

end Word

/-! ## Numbers in JSON -/

namespace Json

theorem decimal_toDigits (n : Nat) : decimal (Nat.toDigits 10 n) = n :=
  Nat.ofDigitChars_toDigits (by omega) (by omega)

theorem toDigits_all_isDigit (n : Nat) : (Nat.toDigits 10 n).all Char.isDigit = true :=
  List.all_eq_true.2 fun _ digit => Nat.isDigit_of_mem_toDigits (by omega) (by omega) digit

theorem dropDigits?_of_all {cs : List Char} (filled : cs ≠ []) (digits : cs.all Char.isDigit = true) :
    dropDigits? cs = some [] := by
  rw [List.all_eq_true] at digits
  rw [dropDigits?, List.takeWhile_eq_self_iff.2 digits, List.dropWhile_eq_nil_iff.2 digits, if_neg]
  simpa using filled

theorem dropInteger?_toDigits (n : Nat) : dropInteger? (Nat.toDigits 10 n) = some [] := by
  by_cases positive : 0 < n
  · have head := @toDigits_head 10 n (by omega) (by omega) positive
    unfold dropInteger?
    split
    case h_1 rest same => exact absurd same (head rest)
    case h_2 => exact dropDigits?_of_all Nat.toDigits_ne_nil (toDigits_all_isDigit n)
  · rw [Nat.eq_zero_of_not_pos positive]
    rfl

theorem isNatural_toDigits (n : Nat) : isNatural (Nat.toDigits 10 n) = true := by
  rw [isNatural, toDigits_all_isDigit, isUnsignedNumber, dropInteger?_toDigits]
  rfl

/-- **A natural number is read back from its digits.** -/
theorem word?_toDigits (n : Nat) : word? (Nat.toDigits 10 n) = some (.natural n) := by
  have name {cs : List Char} (letters : cs.all Char.isDigit = false) : Nat.toDigits 10 n ≠ cs := by
    rintro rfl
    rw [toDigits_all_isDigit] at letters
    cases letters
  unfold word?
  rw [if_neg (name rfl), if_neg (name rfl), if_neg (name rfl), if_pos (isNatural_toDigits n),
    decimal_toDigits]

end Json

end HostBridge
