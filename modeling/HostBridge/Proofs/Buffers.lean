import HostBridge.Proofs.Slots

/-!
# Buffers in memory

The call data and the code of an environment lie somewhere beside the runtime block
(`Environment.Beside`). They may share memory with each other, as long as it holds the same bytes for
both. Then an access to a buffer gives the bytes of that buffer, whatever region is looked at first.

* `Storage.fetch_buffer` — an access that lies in a buffer;
* `Storage.loadByte_buffer` — a byte that code reads behind a buffer's address.
-/

set_option autoImplicit false

namespace HostBridge

/-- The runtime block at an address and the buffers are within the address space. No byte of a
buffer is one of the block, and a place in both buffers holds one byte. -/
structure Environment.Beside (env : Environment) (base : Addr) : Prop where
  block : base.toNat + runtimeDataSize ≤ Bytes.capacity pointerSize
  callDataEnd : env.callDataAt.toNat + env.snapshot.callData.length ≤ Bytes.capacity pointerSize
  codeEnd : env.codeAt.toNat + env.snapshot.code.length ≤ Bytes.capacity pointerSize
  callData : ∀ i < env.snapshot.callData.length,
    env.callDataAt.toNat + i < base.toNat ∨
      base.toNat + runtimeDataSize ≤ env.callDataAt.toNat + i
  code : ∀ i < env.snapshot.code.length,
    env.codeAt.toNat + i < base.toNat ∨ base.toNat + runtimeDataSize ≤ env.codeAt.toNat + i
  shared : ∀ i j x y, env.callDataAt.toNat + i = env.codeAt.toNat + j →
    env.snapshot.callData[i]? = some x → env.snapshot.code[j]? = some y → x = y

/-- The blocks of the usual address space do not leave their zone. -/
theorem AddressSpace.usual_blockAt_toNat {depth : Nat}
    (block : depth * 0x10000 + runtimeDataSize ≤ Zone.size) :
    (usual.blockAt depth).toNat = 0x7f8000000000 + depth * 0x10000 := by
  have size : Zone.size = 0x4000000000 := rfl
  show (BitVec.ofNat 64 (Zone.block.start + 0 + depth * 0x10000)).toNat = _
  rw [BitVec.toNat_ofNat, Zone.start, size]
  omega

/-- The usual address space has room for buffers and blocks of the size of a zone. -/
theorem Environment.Beside.usual {s : Snapshot}
    (callData : s.callData.length ≤ AddressSpace.Zone.size)
    (code : s.code.length ≤ AddressSpace.Zone.size) {depth : Nat}
    (block : depth * 0x10000 + runtimeDataSize ≤ AddressSpace.Zone.size) :
    (Environment.within .usual s).Beside (AddressSpace.usual.blockAt depth) := by
  have size : AddressSpace.Zone.size = 0x4000000000 := rfl
  have whole : Bytes.capacity pointerSize = 2 ^ 64 := rfl
  have callDataAt : (Environment.within .usual s).callDataAt.toNat = 0x7f0000000000 := rfl
  have codeAt : (Environment.within .usual s).codeAt.toNat = 0x7f4000000000 := rfl
  have blockAt := AddressSpace.usual_blockAt_toNat block
  have callDataIs : (Environment.within .usual s).snapshot.callData = s.callData := rfl
  have codeIs : (Environment.within .usual s).snapshot.code = s.code := rfl
  constructor
  · omega
  · rw [callDataIs]
    omega
  · rw [codeIs]
    omega
  · intro i inside
    rw [callDataIs] at inside
    omega
  · intro i inside
    rw [codeIs] at inside
    omega
  · intro i j x y place there _
    have inside := (List.getElem?_eq_some_iff.1 there).1
    rw [callDataIs] at inside
    omega

namespace Storage

variable {s : Storage}

/-- The buffers end within the address space. -/
theorem buffer_end (beside : s.env.Beside s.base) {r : Region} (buffer : r ≠ .block) :
    (s.start r).toNat + (s.bytes r).length ≤ Bytes.capacity pointerSize := by
  cases r with
  | block => exact absurd rfl buffer
  | callData => exact beside.callDataEnd
  | code => exact beside.codeEnd

/-- A buffer is empty exactly if the word of its size is zero. -/
theorem length_word_eq_zero (beside : s.env.Beside s.base) {r : Region} (buffer : r ≠ .block) :
    (BitVec.ofNat 256 (s.bytes r).length : Word) = 0 ↔ s.bytes r = [] := by
  have ends := buffer_end beside buffer
  have small : (s.bytes r).length < 2 ^ 256 := by
    have whole : Bytes.capacity pointerSize = 2 ^ 64 := rfl
    omega
  rw [← BitVec.toNat_inj, BitVec.toNat_ofNat, Nat.mod_eq_of_lt small]
  exact List.length_eq_zero_iff

/-- An access to a buffer is none to the block. -/
theorem not_holds_block (beside : s.env.Beside s.base) {r : Region} (buffer : r ≠ .block)
    {addr : Addr} {len : Nat} (positive : 0 < len) (holds : s.Holds r addr len) :
    ¬ s.Holds .block addr len := by
  rintro ⟨after, inside⟩
  obtain ⟨start, size⟩ := holds
  have whole : (s.bytes .block).length = runtimeDataSize := s.block.length_eq
  have first : addr.toNat - (s.start r).toNat < (s.bytes r).length := by omega
  have outside : addr.toNat < s.base.toNat ∨ s.base.toNat + runtimeDataSize ≤ addr.toNat := by
    cases r with
    | block => exact absurd rfl buffer
    | callData =>
      have := beside.callData _ first
      rwa [show s.env.callDataAt = s.start .callData from rfl, Nat.add_sub_cancel' start] at this
    | code =>
      have := beside.code _ first
      rwa [show s.env.codeAt = s.start .code from rfl, Nat.add_sub_cancel' start] at this
  have base : s.start .block = s.base := rfl
  rw [base, whole] at inside
  rw [base] at after
  omega

/-- Where both buffers hold an access, they hold the same bytes. -/
theorem slice_shared (beside : s.env.Beside s.base) {addr : Addr} {len : Nat}
    (callData : s.Holds .callData addr len) (code : s.Holds .code addr len) :
    Bytes.slice (s.bytes .callData) (addr.toNat - (s.start .callData).toNat) len =
      Bytes.slice (s.bytes .code) (addr.toNat - (s.start .code).toNat) len := by
  obtain ⟨startData, sizeData⟩ := callData
  obtain ⟨startCode, sizeCode⟩ := code
  apply List.ext_getElem?
  intro k
  simp only [Bytes.slice, List.getElem?_take, List.getElem?_drop]
  split
  · rename_i within
    obtain ⟨x, dataThere⟩ : ∃ x,
        (s.bytes .callData)[addr.toNat - (s.start .callData).toNat + k]? = some x :=
      ⟨_, List.getElem?_eq_getElem (by omega)⟩
    obtain ⟨y, codeThere⟩ : ∃ y, (s.bytes .code)[addr.toNat - (s.start .code).toNat + k]? = some y :=
      ⟨_, List.getElem?_eq_getElem (by omega)⟩
    have place : (s.start .callData).toNat + (addr.toNat - (s.start .callData).toNat + k) =
        (s.start .code).toNat + (addr.toNat - (s.start .code).toNat + k) := by
      omega
    rw [dataThere, codeThere, beside.shared _ _ x y place dataThere codeThere]
  · rfl

/-- **An access to a buffer gives bytes of the buffer.** -/
theorem fetch_buffer (beside : s.env.Beside s.base) {r : Region} (buffer : r ≠ .block)
    {addr : Addr} {len : Nat} (positive : 0 < len) (holds : s.Holds r addr len) :
    s.fetch addr len =
      .ok (Bytes.slice (s.bytes r) (addr.toNat - (s.start r).toNat) len) := by
  have block := not_holds_block beside buffer positive holds
  have data : s.Holds .callData addr len → s.resolve? addr len = some .callData := by
    intro there
    rw [resolve?, Region.all, List.find?_cons_of_neg (by simpa using block),
      List.find?_cons_of_pos (by simpa using there)]
  cases r with
  | block => exact absurd rfl buffer
  | callData => rw [fetch, data holds]
  | code =>
    by_cases both : s.Holds .callData addr len
    · rw [fetch, data both]
      exact congrArg Except.ok (slice_shared beside both holds)
    · have resolved : s.resolve? addr len = some .code := by
        rw [resolve?, Region.all, List.find?_cons_of_neg (by simpa using block),
          List.find?_cons_of_neg (by simpa using both),
          List.find?_cons_of_pos (by simpa using holds)]
      rw [fetch, resolved]

/-- A byte that is read behind the address of a buffer is the buffer's byte at that index. -/
theorem loadByte_buffer (beside : s.env.Beside s.base) {r : Region} (buffer : r ≠ .block)
    (index : Word) {b : UInt8} (there : (s.bytes r)[index.toNat]? = some b) :
    s.loadByte (s.start r) index = .ok (BitVec.ofNat 256 b.toNat) := by
  have inside : index.toNat < (s.bytes r).length := (List.getElem?_eq_some_iff.1 there).1
  have ends := buffer_end beside buffer
  have bound : (s.start r).toNat + index.toNat < Bytes.capacity pointerSize := by omega
  let addr := BitVec.ofNat 64 ((s.start r).toNat + index.toNat)
  have place : addr.toNat = (s.start r).toNat + index.toNat := by
    have narrow : (s.start r).toNat + index.toNat < 2 ^ 64 := bound
    rw [BitVec.toNat_ofNat, Nat.mod_eq_of_lt narrow]
  have holds : s.Holds r addr 1 := by
    rw [Holds, place]
    omega
  have byte : Bytes.slice (s.bytes r) index.toNat 1 = [b] := by
    obtain ⟨_, eq⟩ := List.getElem?_eq_some_iff.1 there
    rw [Bytes.slice, List.drop_eq_getElem_cons inside, eq]
    rfl
  have fetched : s.fetch addr 1 = .ok [b] := by
    rw [fetch_buffer beside buffer Nat.one_pos holds, place, Nat.add_sub_cancel_left, byte]
  rw [loadByte_eq, if_pos bound, fetched]
  rfl

end Storage

end HostBridge
