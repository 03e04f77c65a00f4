import Http3.Qpack.Integer

/-!
# The decoder stream

Acknowledgements, cancellations and insert count increments, each a single prefix integer.
-/

namespace Http3.Qpack

inductive DecoderInstruction where
  | sectionAcknowledgment (streamId : Nat)
  | streamCancellation (streamId : Nat)
  | insertCountIncrement (increment : Nat)
  deriving DecidableEq

structure DecoderStream where
  sendBuffer : Bytes
  deriving DecidableEq

namespace DecoderStream

def new : DecoderStream := ⟨[]⟩

def writeStreamType (s : DecoderStream) : DecoderStream := ⟨s.sendBuffer ++ [0x03]⟩

def encodeSectionAcknowledgment (s : DecoderStream) (streamId : Nat) : DecoderStream :=
  ⟨s.sendBuffer ++ encodeIntegerToVec streamId 7 0x80⟩

def encodeStreamCancellation (s : DecoderStream) (streamId : Nat) : DecoderStream :=
  ⟨s.sendBuffer ++ encodeIntegerToVec streamId 6 0x40⟩

def encodeInsertCountIncrement (s : DecoderStream) (increment : Nat) : DecoderStream :=
  ⟨s.sendBuffer ++ encodeIntegerToVec increment 6 0x00⟩

def consumeData (s : DecoderStream) (len : Nat) : DecoderStream := ⟨s.sendBuffer.drop len⟩

end DecoderStream

structure DecoderStreamReceiver where
  recvBuffer : Bytes
  knownReceivedCount : Nat
  deriving DecidableEq

namespace DecoderStreamReceiver

def new : DecoderStreamReceiver := ⟨[], 0⟩

def receive (r : DecoderStreamReceiver) (data : Bytes) : DecoderStreamReceiver :=
  { r with recvBuffer := r.recvBuffer ++ data }

def drain (r : DecoderStreamReceiver) (consumed : Nat) : DecoderStreamReceiver :=
  { r with recvBuffer := r.recvBuffer.drop consumed }

abbrev Processed : Type := Except QpackError (Option DecoderInstruction) × DecoderStreamReceiver

def decodeSectionAcknowledgment (r : DecoderStreamReceiver) : Processed :=
  match decodeInteger r.recvBuffer 7 with
  | .error e => (.error e, r)
  | .ok (streamId, consumed) => (.ok (some (.sectionAcknowledgment streamId)), r.drain consumed)

def decodeStreamCancellation (r : DecoderStreamReceiver) : Processed :=
  match decodeInteger r.recvBuffer 6 with
  | .error e => (.error e, r)
  | .ok (streamId, consumed) => (.ok (some (.streamCancellation streamId)), r.drain consumed)

def decodeInsertCountIncrement (r : DecoderStreamReceiver) (totalInsertCount : Nat) : Processed :=
  match decodeInteger r.recvBuffer 6 with
  | .error e => (.error e, r)
  | .ok (increment, consumed) =>
    if increment = 0 then (.error .decodeFailed, r)
    else if r.knownReceivedCount + increment > totalInsertCount then (.error .decodeFailed, r)
    else
      (.ok (some (.insertCountIncrement increment)),
        { r.drain consumed with knownReceivedCount := r.knownReceivedCount + increment })

def decodeInstruction (r : DecoderStreamReceiver) (totalInsertCount : Nat) (first : UInt8) :
    Processed :=
  if first &&& 0x80 != 0 then r.decodeSectionAcknowledgment
  else if first &&& 0x40 != 0 then r.decodeStreamCancellation
  else r.decodeInsertCountIncrement totalInsertCount

/-- The next instruction, if all of it has arrived. -/
def process (r : DecoderStreamReceiver) (totalInsertCount : Nat) : Processed :=
  match r.recvBuffer with
  | [] => (.ok none, r)
  | first :: _ =>
    match r.decodeInstruction totalInsertCount first with
    | (.error .bufferTooShort, r') => (.ok none, r')
    | other => other

/-! ## Increments -/

/-- The increment that the buffer starts with, once all of it has arrived. -/
def pendingIncrement (r : DecoderStreamReceiver) : Option Nat :=
  match r.recvBuffer with
  | [] => none
  | first :: _ =>
    if first &&& 0x80 != 0 then none
    else if first &&& 0x40 != 0 then none
    else
      match decodeInteger r.recvBuffer 6 with
      | .ok (increment, _) => some increment
      | .error _ => none

/-- An increment is refused when it is zero or leads beyond the inserts that were sent. -/
theorem process_increment {r : DecoderStreamReceiver} {n : Nat} (h : r.pendingIncrement = some n)
    (total : Nat) :
    (n ≠ 0 ∧ r.knownReceivedCount + n ≤ total ∧
        ∃ r', r.process total = (.ok (some (.insertCountIncrement n)), r') ∧
          r'.knownReceivedCount = r.knownReceivedCount + n) ∨
      (n = 0 ∨ total < r.knownReceivedCount + n) ∧ ∃ e, r.process total = (.error e, r) := by
  unfold pendingIncrement at h
  unfold process
  cases hbuffer : r.recvBuffer with
  | nil => simp [hbuffer] at h
  | cons first rest =>
    simp only [hbuffer] at h ⊢
    unfold decodeInstruction
    split at h
    · cases h
    split at h
    · cases h
    rename_i h80 h40
    rw [if_neg h80, if_neg h40, decodeInsertCountIncrement, hbuffer]
    cases hint : decodeInteger (first :: rest) 6 with
    | error e => simp [hint] at h
    | ok p =>
      obtain ⟨increment, consumed⟩ := p
      simp only [hint, Option.some.injEq] at h
      subst h
      dsimp only
      by_cases hzero : increment = 0
      · rw [if_pos hzero]
        exact .inr ⟨.inl hzero, _, rfl⟩
      by_cases hbeyond : r.knownReceivedCount + increment > total
      · rw [if_neg hzero, if_pos hbeyond]
        exact .inr ⟨.inr hbeyond, _, rfl⟩
      · rw [if_neg hzero, if_neg hbeyond]
        exact .inl ⟨hzero, Nat.le_of_not_lt hbeyond, _, rfl, rfl⟩

/-- Nothing else counts inserts. -/
theorem process_other {r : DecoderStreamReceiver} (h : r.pendingIncrement = none) (total : Nat) :
    (r.process total).2.knownReceivedCount = r.knownReceivedCount ∧
      ∀ n, (r.process total).1 ≠ .ok (some (.insertCountIncrement n)) := by
  unfold pendingIncrement at h
  unfold process
  cases hbuffer : r.recvBuffer with
  | nil => exact ⟨rfl, fun n h => by cases h⟩
  | cons first rest =>
    simp only [hbuffer] at h ⊢
    have key : (r.decodeInstruction total first).2.knownReceivedCount = r.knownReceivedCount ∧
        ∀ n, (r.decodeInstruction total first).1 ≠ .ok (some (.insertCountIncrement n)) := by
      unfold decodeInstruction
      split
      · unfold decodeSectionAcknowledgment
        split <;> exact ⟨rfl, fun n h => by cases h⟩
      split
      · unfold decodeStreamCancellation
        split <;> exact ⟨rfl, fun n h => by cases h⟩
      rename_i h80 h40
      rw [if_neg h80, if_neg h40] at h
      unfold decodeInsertCountIncrement
      rw [hbuffer]
      split at h
      · cases h
      · rename_i e he
        rw [he]
        exact ⟨rfl, fun n h => by cases h⟩
    split
    · rename_i hshort
      rw [hshort] at key
      exact ⟨key.1, fun n h => by cases h⟩
    · exact key

end DecoderStreamReceiver

end Http3.Qpack
