import HostBridge.Environment.Source
import HostBridge.Proofs.Fields

/-!
# The context of a call

Generated code sees what the environment answers as words of the runtime block.
`Snapshot.contextNumber` says which number is behind a field, without images and byte orders.

* `Fields.initial_eq` — the fields of a new call hold these numbers;
* `Snapshot.contextWord_eq_iff` — different answers give different words.
-/

set_option autoImplicit false

namespace HostBridge

/-! ## Numbers of byte strings -/

namespace Bytes

/-- A number consists of its low bytes and the rest. -/
theorem number_split (n : Nat) (bs : Bytes) :
    number bs = number (bs.take n) + capacity n * number (bs.drop n) := by
  induction n generalizing bs with
  | zero => simp [capacity]
  | succ n ih =>
    cases bs with
    | nil => simp
    | cons b bs =>
      rw [List.take_succ_cons, List.drop_succ_cons, number_cons, number_cons, ih bs, capacity,
        Nat.mul_add, Nat.mul_assoc, Nat.add_assoc]

theorem number_append (xs ys : Bytes) :
    number (xs ++ ys) = number xs + capacity xs.length * number ys := by
  have split := number_split xs.length (xs ++ ys)
  rwa [List.take_left' rfl, List.drop_left' rfl] at split

theorem number_zeros (n : Nat) : number (List.replicate n 0) = 0 := by
  induction n with
  | zero => rfl
  | succ n ih =>
    rw [List.replicate_succ, number_cons, ih]
    rfl

theorem capacity_mono {k n : Nat} (le : k ≤ n) : capacity k ≤ capacity n := by
  induction le with
  | refl => exact Nat.le_refl _
  | step _ ih =>
    rw [Nat.succ_eq_add_one, capacity]
    omega

end Bytes

namespace Octets

variable {n : Nat}

theorem bigEndian_lt (o : Octets n) : Bytes.bigEndian o.bytes < Bytes.capacity n := by
  have bound := Bytes.number_lt o.bytes.reverse
  rwa [List.length_reverse, o.length_eq] at bound

/-- Byte strings of one length that spell the same number are the same. -/
theorem bigEndian_inj {a b : Octets n} :
    Bytes.bigEndian a.bytes = Bytes.bigEndian b.bytes ↔ a = b := by
  constructor
  · intro same
    have first := Bytes.ofNumber_number a.bytes.reverse
    have second := Bytes.ofNumber_number b.bytes.reverse
    rw [List.length_reverse, a.length_eq] at first
    rw [List.length_reverse, b.length_eq] at second
    apply Octets.ext
    apply List.reverse_inj.1
    rw [← first, ← second]
    exact congrArg (Bytes.ofNumber n) same
  · rintro rfl
    rfl

end Octets

namespace WordImage

theorem number_ofAddress (a : AccountAddress) : (ofAddress a).number = Bytes.bigEndian a.bytes := by
  show Bytes.number (a.bytes.reverse ++ List.replicate _ 0) = _
  rw [Bytes.number_append, Bytes.number_zeros, Nat.mul_zero, Nat.add_zero, Bytes.bigEndian]

theorem ofImage_ofHash (h : BlockHash) :
    Word.ofImage (ofHash h) = BitVec.ofNat 256 (Bytes.bigEndian h.bytes) :=
  Word.ofImage_image _

end WordImage

/-! ## Answers -/

/-- Whether the answers to the query behind a field are the same. Where there is no query, nothing
can differ. -/
def Answers.agreeOn (a b : Answers) : RuntimeField → Bool
  | .address => a.address = b.address
  | .caller => a.caller = b.caller
  | .origin => a.origin = b.origin
  | .callValue => a.value = b.value
  | .gasPrice => a.gasPrice = b.gasPrice
  | .prevHash => a.previousBlockHash = b.previousBlockHash
  | .coinbase => a.coinbase = b.coinbase
  | .timestamp => a.timestamp = b.timestamp
  | .number => a.number = b.number
  | .difficulty => a.difficulty = b.difficulty
  | .gasLimit => a.gasLimit = b.gasLimit
  | .gas | .callDataSize | .codeSize | .returnDataOffset | .returnDataSize => true

theorem Answers.agreeOn_self (a : Answers) (field : RuntimeField) : a.agreeOn a field = true := by
  cases field <;> simp [agreeOn]

namespace Snapshot

/-- The number behind a field, in a call with the given gas: a word itself, an address or a hash
read most significant byte first, a buffer by its length. -/
def contextNumber (gas : Word) (s : Snapshot) : RuntimeField → Nat
  | .gas => gas.toNat
  | .address => Bytes.bigEndian s.address.bytes
  | .caller => Bytes.bigEndian s.caller.bytes
  | .origin => Bytes.bigEndian s.origin.bytes
  | .callValue => s.value.toNat
  | .callDataSize => s.callData.length
  | .gasPrice => s.gasPrice.toNat
  | .prevHash => Bytes.bigEndian s.previousBlockHash.bytes
  | .coinbase => Bytes.bigEndian s.coinbase.bytes
  | .timestamp => s.timestamp.toNat
  | .number => s.number.toNat
  | .difficulty => s.difficulty.toNat
  | .gasLimit => s.gasLimit.toNat
  | .codeSize => s.code.length
  | .returnDataOffset | .returnDataSize => 0

/-- The same as a word. -/
def contextWord (gas : Word) (s : Snapshot) (field : RuntimeField) : Word :=
  BitVec.ofNat 256 (s.contextNumber gas field)

variable (gas : Word) {s t : Snapshot}

/-- The image of a field holds its word. -/
theorem ofImage_contextValue (field : RuntimeField) (context : field.isInternal = false) :
    (contextValue? field gas s).map Word.ofImage = some (s.contextWord gas field) := by
  have address (a : AccountAddress) :
      Word.ofImage (.ofAddress a) = BitVec.ofNat 256 (Bytes.bigEndian a.bytes) := by
    rw [Word.ofImage, WordImage.number_ofAddress]
  cases field with
  | returnDataOffset | returnDataSize => cases context
  | _ =>
    simp [contextValue?, contextWord, contextNumber, address, WordImage.ofImage_ofHash,
      WordImage.ofSize]

/-- A number that fits into a word can be told from its word. -/
theorem ofNat_word_inj {i j : Nat} (first : i < Bytes.capacity wordSize)
    (second : j < Bytes.capacity wordSize) :
    (BitVec.ofNat 256 i : Word) = BitVec.ofNat 256 j ↔ i = j := by
  have bound : i < 2 ^ 256 := first
  have bound' : j < 2 ^ 256 := second
  rw [← BitVec.toNat_inj, BitVec.toNat_ofNat, BitVec.toNat_ofNat, Nat.mod_eq_of_lt bound,
    Nat.mod_eq_of_lt bound']

/-- **Two environments with the same buffers give a field the same word exactly if they give the
same answer.** -/
theorem contextWord_eq_iff (callData : s.callData = t.callData) (code : s.code = t.code)
    (field : RuntimeField) :
    s.contextWord gas field = t.contextWord gas field ↔
      s.toAnswers.agreeOn t.toAnswers field = true := by
  have octets {n : Nat} (fits : n ≤ wordSize) (a b : Octets n) :
      (BitVec.ofNat 256 (Bytes.bigEndian a.bytes) : Word) =
        BitVec.ofNat 256 (Bytes.bigEndian b.bytes) ↔ a = b := by
    have mono := Bytes.capacity_mono fits
    rw [ofNat_word_inj (Nat.lt_of_lt_of_le a.bigEndian_lt mono)
      (Nat.lt_of_lt_of_le b.bigEndian_lt mono), Octets.bigEndian_inj]
  have address := octets (n := addressSize) (by decide)
  have hash := octets (n := wordSize) (by decide)
  cases field <;>
    simp [contextWord, contextNumber, Answers.agreeOn, callData, code, address, hash]

end Snapshot

/-- **The fields of a new call** hold the words of the context, and no return data. -/
theorem Fields.initial_eq (gas : Word) (s : Snapshot) :
    Fields.initial gas s = s.contextWord gas := by
  funext field
  by_cases context : field.isInternal = false
  · obtain ⟨i, value, word⟩ :=
      Option.map_eq_some_iff.1 (Snapshot.ofImage_contextValue gas (s := s) field context)
    rw [initial, value, ← word]
  · cases field with
    | returnDataOffset | returnDataSize => rfl
    | _ => exact absurd rfl context

end HostBridge
