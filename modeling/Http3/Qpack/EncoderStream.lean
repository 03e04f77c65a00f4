import Http3.Qpack.Wire
import Http3.Qpack.DynamicTable

/-!
# The encoder stream

Instructions that change the decoder's table. The receiver waits while an instruction is
incomplete, and drops the bytes of an insert that the table refuses.
-/

namespace Http3.Qpack

inductive EncoderInstruction where
  | setDynamicTableCapacity (capacity : Nat)
  | insertWithNameReference (isStatic : Bool) (nameIndex : Nat) (value : Bytes)
  | insertWithLiteralName (name value : Bytes)
  | duplicate (relativeIndex : Nat)
  deriving DecidableEq

/-! ## Sending -/

structure EncoderStream where
  sendBuffer : Bytes
  maxTableCapacity : Nat
  deriving DecidableEq

namespace EncoderStream

def new : EncoderStream := ⟨[], 0⟩

def writeStreamType (s : EncoderStream) : EncoderStream :=
  { s with sendBuffer := s.sendBuffer ++ [0x02] }

def setMaxTableCapacity (s : EncoderStream) (capacity : Nat) : EncoderStream :=
  { s with maxTableCapacity := capacity }

/-- Every instruction is refused while the table is disabled. -/
def push (s : EncoderStream) (bytes : Bytes) : Except QpackError EncoderStream :=
  if s.maxTableCapacity = 0 then .error .dynamicTableDisabled
  else .ok { s with sendBuffer := s.sendBuffer ++ bytes }

def encodeSetCapacity (s : EncoderStream) (capacity : Nat) : Except QpackError EncoderStream :=
  if s.maxTableCapacity ≠ 0 ∧ capacity > s.maxTableCapacity then .error .capacityExceeded
  else s.push (encodeIntegerToVec capacity 5 0x20)

def encodeInsertWithNameRef (s : EncoderStream) (isStatic : Bool) (nameIndex : Nat)
    (value : Bytes) : Except QpackError EncoderStream :=
  s.push (encodeIntegerToVec nameIndex 6 (if isStatic then 0xc0 else 0x80)
    ++ encodeString value true)

def encodeInsertWithLiteralName (s : EncoderStream) (name value : Bytes) :
    Except QpackError EncoderStream :=
  s.push (encodeStringWithPrefix name 5 0x40 true ++ encodeString value true)

def encodeDuplicate (s : EncoderStream) (relativeIndex : Nat) : Except QpackError EncoderStream :=
  s.push (encodeIntegerToVec relativeIndex 5 0x00)

def consumeData (s : EncoderStream) (len : Nat) : EncoderStream :=
  { s with sendBuffer := s.sendBuffer.drop len }

end EncoderStream

/-! ## Receiving -/

structure EncoderStreamReceiver where
  recvBuffer : Bytes
  maxTableCapacity : Nat
  deriving DecidableEq

namespace EncoderStreamReceiver

def new : EncoderStreamReceiver := ⟨[], 0⟩

def setMaxTableCapacity (r : EncoderStreamReceiver) (capacity : Nat) : EncoderStreamReceiver :=
  { r with maxTableCapacity := capacity }

def receive (r : EncoderStreamReceiver) (data : Bytes) : EncoderStreamReceiver :=
  { r with recvBuffer := r.recvBuffer ++ data }

def drain (r : EncoderStreamReceiver) (consumed : Nat) : EncoderStreamReceiver :=
  { r with recvBuffer := r.recvBuffer.drop consumed }

/-- The result of one instruction, the receiver and the table after it. -/
abbrev Processed : Type :=
  Except QpackError (Option EncoderInstruction) × EncoderStreamReceiver × DynamicTable

def decodeSetCapacity (r : EncoderStreamReceiver) (t : DynamicTable) : Processed :=
  match decodeInteger r.recvBuffer 5 with
  | .error e => (.error e, r, t)
  | .ok (capacity, consumed) =>
    if capacity > r.maxTableCapacity then (.error .decodeFailed, r, t)
    else (.ok (some (.setDynamicTableCapacity capacity)), r.drain consumed, t.setCapacity capacity)

/-- Insert an entry whose bytes end at `consumed`. -/
def insertEntry (r : EncoderStreamReceiver) (t : DynamicTable) (name value : Bytes)
    (consumed : Nat) (instruction : EncoderInstruction) : Processed :=
  match t.insert name value with
  | (none, t') => (.error .decodeFailed, r.drain consumed, t')
  | (some _, t') => (.ok (some instruction), r.drain consumed, t')

/-- The name an insert refers to. -/
def referencedName (t : DynamicTable) (isStatic : Bool) (nameIndex : Nat) :
    Except QpackError Bytes :=
  let name :=
    if isStatic then (getStaticEntry nameIndex).map Header.name
    else (t.getByRelativeIndexEncoder nameIndex).map DynamicEntry.name
  match name with
  | some name => .ok name
  | none => .error (.invalidIndex nameIndex)

def decodeInsertWithNameRef (r : EncoderStreamReceiver) (t : DynamicTable) (first : UInt8) :
    Processed :=
  let isStatic := first &&& 0x40 != 0
  match decodeInteger r.recvBuffer 6 with
  | .error e => (.error e, r, t)
  | .ok (nameIndex, indexLen) =>
    match decodeString (r.recvBuffer.drop indexLen) with
    | .error e => (.error e, r, t)
    | .ok (value, valueLen) =>
      match referencedName t isStatic nameIndex with
      | .error e => (.error e, r, t)
      | .ok name =>
        r.insertEntry t name value (indexLen + valueLen)
          (.insertWithNameReference isStatic nameIndex value)

def decodeInsertWithLiteralName (r : EncoderStreamReceiver) (t : DynamicTable) : Processed :=
  match decodeStringWithPrefix r.recvBuffer 5 with
  | .error e => (.error e, r, t)
  | .ok (name, nameLen) =>
    match decodeString (r.recvBuffer.drop nameLen) with
    | .error e => (.error e, r, t)
    | .ok (value, valueLen) =>
      r.insertEntry t name value (nameLen + valueLen) (.insertWithLiteralName name value)

def decodeDuplicate (r : EncoderStreamReceiver) (t : DynamicTable) : Processed :=
  match decodeInteger r.recvBuffer 5 with
  | .error e => (.error e, r, t)
  | .ok (relativeIndex, consumed) =>
    match t.duplicate relativeIndex with
    | (none, t') => (.error (.invalidIndex relativeIndex), r.drain consumed, t')
    | (some _, t') => (.ok (some (.duplicate relativeIndex)), r.drain consumed, t')

def decodeInstruction (r : EncoderStreamReceiver) (t : DynamicTable) (first : UInt8) : Processed :=
  if first &&& 0x80 != 0 then r.decodeInsertWithNameRef t first
  else if first &&& 0x40 != 0 then r.decodeInsertWithLiteralName t
  else if first &&& 0x20 != 0 then r.decodeSetCapacity t
  else r.decodeDuplicate t

/-- The next instruction, if all of it has arrived. -/
def process (r : EncoderStreamReceiver) (t : DynamicTable) : Processed :=
  match r.recvBuffer with
  | [] => (.ok none, r, t)
  | first :: _ =>
    match r.decodeInstruction t first with
    | (.error .bufferTooShort, r', t') => (.ok none, r', t')
    | other => other

/-! ## The insert count only grows -/

theorem insertEntry_insertCount_le (r : EncoderStreamReceiver) (t : DynamicTable)
    (name value : Bytes) (consumed : Nat) (i : EncoderInstruction) :
    t.insertCount ≤ (r.insertEntry t name value consumed i).2.2.insertCount := by
  have h := t.insert_insertCount_le name value
  unfold insertEntry
  rcases hi : t.insert name value with ⟨_ | _, t'⟩
  · rw [hi] at h
    exact h
  · rw [hi] at h
    exact h

theorem decodeInstruction_insertCount_le (r : EncoderStreamReceiver) (t : DynamicTable)
    (first : UInt8) : t.insertCount ≤ (r.decodeInstruction t first).2.2.insertCount := by
  unfold decodeInstruction
  split
  · unfold decodeInsertWithNameRef
    dsimp only
    repeat' split
    all_goals first | exact Nat.le_refl _ | exact insertEntry_insertCount_le _ _ _ _ _ _
  split
  · unfold decodeInsertWithLiteralName
    repeat' split
    all_goals first | exact Nat.le_refl _ | exact insertEntry_insertCount_le _ _ _ _ _ _
  split
  · unfold decodeSetCapacity
    repeat' split
    all_goals first | exact Nat.le_refl _ | exact (t.setCapacity_insertCount _).ge
  · unfold decodeDuplicate
    split
    · exact Nat.le_refl _
    · rename_i relativeIndex _ _
      have h := t.duplicate_insertCount_le relativeIndex
      split <;> simp_all

theorem process_insertCount_le (r : EncoderStreamReceiver) (t : DynamicTable) :
    t.insertCount ≤ (r.process t).2.2.insertCount := by
  unfold process
  split
  · exact Nat.le_refl _
  · rename_i first _ _
    have h := r.decodeInstruction_insertCount_le t first
    split
    · simp_all
    · exact h

end EncoderStreamReceiver

end Http3.Qpack
