import HostBridge.Environment

/-!
# Environments that change

A `Source` answers the eleven queries anew each time they are asked; only its buffers are fixed.
`Source.snapshotAt n` is what one learns by asking every query for the `n`-th time, counted from
zero. A `Source.fixed` one never changes its mind; a `Source.drifting` one adds to some answers
each time.
-/

set_option autoImplicit false

namespace HostBridge

/-- An environment whose answers may change. -/
structure Source where
  /-- What each query answers when it is asked for the given time. -/
  answers : Nat → Answers
  callData : Bytes
  code : Bytes

namespace Octets

/-- The byte string with a number added to its last byte, which wraps. -/
def bumpLast {n : Nat} (o : Octets n) (k : Nat) : Octets n :=
  if h : (n - 1) + 1 ≤ n then
    o.write (n - 1) (ofNumber 1 ((o.read (n - 1) 1 h).number + k)) h
  else o

end Octets

namespace Answers

/-- The answers with `k` added to the one behind a field, if it is the answer to a query. Words
wrap; of addresses and the hash only the last byte changes. -/
def bump (a : Answers) (field : RuntimeField) (k : Nat) : Answers :=
  let add (w : Word) : Word := w + BitVec.ofNat 256 k
  match field with
  | .address => { a with address := a.address.bumpLast k }
  | .caller => { a with caller := a.caller.bumpLast k }
  | .origin => { a with origin := a.origin.bumpLast k }
  | .callValue => { a with value := add a.value }
  | .gasPrice => { a with gasPrice := add a.gasPrice }
  | .prevHash => { a with previousBlockHash := a.previousBlockHash.bumpLast k }
  | .coinbase => { a with coinbase := a.coinbase.bumpLast k }
  | .timestamp => { a with timestamp := add a.timestamp }
  | .number => { a with number := add a.number }
  | .difficulty => { a with difficulty := add a.difficulty }
  | .gasLimit => { a with gasLimit := add a.gasLimit }
  | .gas | .callDataSize | .codeSize | .returnDataOffset | .returnDataSize => a

end Answers

namespace Source

/-- What one learns by asking every query for the `n`-th time. -/
def snapshotAt (s : Source) (n : Nat) : Snapshot :=
  { s.answers n with callData := s.callData, code := s.code }

/-- The source that answers as a snapshot does, every time. -/
def fixed (s : Snapshot) : Source := ⟨fun _ => s.toAnswers, s.callData, s.code⟩

/-- The source whose `n`-th answers to the queries behind some fields are those of a snapshot with
`n` added. -/
def drifting (s : Snapshot) (fields : List RuntimeField) : Source where
  answers n := RuntimeField.all.foldl
    (fun a field => if fields.contains field then a.bump field n else a) s.toAnswers
  callData := s.callData
  code := s.code

/-- The snapshot that asking every query once gives. -/
def capture (s : Source) : Snapshot := s.snapshotAt 0

@[simp] theorem capture_fixed (s : Snapshot) : (fixed s).capture = s := rfl

end Source

end HostBridge
