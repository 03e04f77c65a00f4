import Http3.Qpack.Instruction
import Http3.Qpack.Section

/-!
# The decoder's table follows the encoder's

The encoder changes its table and writes an instruction for each change. The receiver sees the
bytes in pieces. It evicts without a limit what the encoder evicted under one, which comes to the
same as long as the encoder's table fits its capacity afterwards.
-/

namespace Http3.Qpack

/-! ## Eviction without a limit -/

namespace DynamicTable

/-- Where eviction under a limit made enough room, it did not meet the limit. -/
theorem evictLoop_unlimited (size fuel : Nat) (t : DynamicTable)
    (h : (t.evictLoop size fuel).currentSize + size ≤ (t.evictLoop size fuel).maxCapacity) :
    (t.setEvictionLimit 0).evictLoop size fuel = (t.evictLoop size fuel).setEvictionLimit 0 := by
  induction fuel generalizing t with
  | zero => rfl
  | succ fuel ih =>
    unfold evictLoop at h ⊢
    by_cases hover : t.currentSize + size > t.maxCapacity
    · have hover' : (t.setEvictionLimit 0).currentSize + size >
        (t.setEvictionLimit 0).maxCapacity := hover
      rw [if_pos hover] at h
      rw [if_pos hover, if_pos hover', setEvictionLimit_entries]
      cases hlast : t.entries.getLast? with
      | none => rfl
      | some e =>
        rw [hlast] at h
        by_cases hlimit : e.absoluteIndex < t.evictionLimit
        · simp only [if_pos hlimit] at h
          omega
        · have hzero : ¬e.absoluteIndex < (t.setEvictionLimit 0).evictionLimit :=
            Nat.not_lt_zero e.absoluteIndex
          simp only [if_neg hlimit] at h
          simp only [if_neg hlimit, if_neg hzero]
          exact ih (t.evictLast e) h
    · have hover' : ¬(t.setEvictionLimit 0).currentSize + size >
        (t.setEvictionLimit 0).maxCapacity := hover
      rw [if_neg hover, if_neg hover']

theorem setCapacity_unlimited (t : DynamicTable) (capacity : Nat)
    (h : (t.setCapacity capacity).currentSize ≤ (t.setCapacity capacity).maxCapacity) :
    (t.setEvictionLimit 0).setCapacity capacity = (t.setCapacity capacity).setEvictionLimit 0 :=
  evictLoop_unlimited 0 t.entries.length { t with maxCapacity := capacity } h

theorem insert_unlimited {t t' : DynamicTable} {name value : Bytes} {index : Nat}
    (h : t.insert name value = (some index, t')) :
    (t.setEvictionLimit 0).insert name value = (some index, t'.setEvictionLimit 0) := by
  unfold insert at h ⊢
  dsimp only at h ⊢
  rw [setEvictionLimit_maxCapacity]
  split at h
  · cases h
  · rename_i hsize
    split at h
    · cases h
    · rename_i hfits
      have hevict : (t.setEvictionLimit 0).evictToFit (entrySize name value) =
          (t.evictToFit (entrySize name value)).setEvictionLimit 0 :=
        evictLoop_unlimited _ _ t (Nat.le_of_not_lt hfits)
      cases h
      rw [if_neg hsize, hevict, if_neg (by exact hfits)]
      rfl

theorem duplicate_unlimited {t t' : DynamicTable} {relativeIndex index : Nat}
    (h : t.duplicate relativeIndex = (some index, t')) :
    (t.setEvictionLimit 0).duplicate relativeIndex = (some index, t'.setEvictionLimit 0) := by
  unfold duplicate at h ⊢
  rw [show (t.setEvictionLimit 0).getByRelativeIndexEncoder relativeIndex =
    t.getByRelativeIndexEncoder relativeIndex from rfl]
  cases hentry : t.getByRelativeIndexEncoder relativeIndex with
  | none =>
    rw [hentry] at h
    cases h
  | some e =>
    rw [hentry] at h
    exact insert_unlimited h

/-! ## Changes of the encoder's table -/

def inserted : Option Nat × DynamicTable → Option DynamicTable
  | (none, _) => none
  | (some _, t) => some t

/-- The change an instruction stands for, if it succeeds. -/
def apply (t : DynamicTable) : EncoderInstruction → Option DynamicTable
  | .setDynamicTableCapacity capacity => some (t.setCapacity capacity)
  | .insertWithNameReference isStatic nameIndex value =>
    match EncoderStreamReceiver.referencedName t isStatic nameIndex with
    | .ok name => inserted (t.insert name value)
    | .error _ => none
  | .insertWithLiteralName name value => inserted (t.insert name value)
  | .duplicate relativeIndex => inserted (t.duplicate relativeIndex)

theorem inserted_eq_some {r : Option Nat × DynamicTable} {t : DynamicTable}
    (h : inserted r = some t) : ∃ index, r = (some index, t) := by
  rcases r with ⟨_ | index, t'⟩
  · cases h
  · cases h
    exact ⟨index, rfl⟩

theorem apply_unlimited {t t' : DynamicTable} {i : EncoderInstruction} (h : t.apply i = some t')
    (hfits : t'.currentSize ≤ t'.maxCapacity) :
    (t.setEvictionLimit 0).apply i = some (t'.setEvictionLimit 0) := by
  cases i with
  | setDynamicTableCapacity capacity =>
    cases h
    exact congrArg some (setCapacity_unlimited t capacity hfits)
  | insertWithNameReference isStatic nameIndex value =>
    have hsame : EncoderStreamReceiver.referencedName (t.setEvictionLimit 0) isStatic nameIndex =
      EncoderStreamReceiver.referencedName t isStatic nameIndex := rfl
    simp only [apply, hsame] at h ⊢
    cases hname : EncoderStreamReceiver.referencedName t isStatic nameIndex with
    | error e =>
      simp only [hname] at h
      cases h
    | ok name =>
      simp only [hname] at h
      obtain ⟨index, hinsert⟩ := inserted_eq_some h
      simp only [insert_unlimited hinsert]
      rfl
  | insertWithLiteralName name value =>
    obtain ⟨index, hinsert⟩ := inserted_eq_some h
    simp only [apply, insert_unlimited hinsert]
    rfl
  | duplicate relativeIndex =>
    obtain ⟨index, hduplicate⟩ := inserted_eq_some h
    simp only [apply, duplicate_unlimited hduplicate]
    rfl

end DynamicTable

/-! ## One call of the receiver -/

namespace EncoderStreamReceiver

section Process

variable {r : EncoderStreamReceiver} {t t' : DynamicTable} {i : EncoderInstruction} {n : Nat}

/-- While an instruction is incomplete nothing happens. -/
theorem process_of_short (h : EncoderInstruction.read r.recvBuffer = .error .bufferTooShort) :
    r.process t = (.ok none, r, t) := by
  unfold process
  cases hbuf : r.recvBuffer with
  | nil => rfl
  | cons first rest =>
    have hshort : r.decodeInstruction t first = (.error .bufferTooShort, r, t) := by
      rw [hbuf] at h
      change EncoderInstruction.readBody first (first :: rest) = _ at h
      unfold EncoderInstruction.readBody at h
      unfold decodeInstruction
      split at h
      · rename_i h80
        rw [if_pos h80]
        unfold decodeInsertWithNameRef
        rw [hbuf]
        obtain hint | ⟨nameIndex, n, hint, hnext⟩ := Reader.andThen_eq_error h
        · simp only [hint]
        · obtain hvalue | ⟨value, m, -, hdone⟩ := Reader.andThen_eq_error hnext
          · simp only [hint, hvalue]
          · cases hdone
      rename_i h80
      rw [if_neg h80]
      split at h
      · rename_i h40
        rw [if_pos h40]
        unfold decodeInsertWithLiteralName
        rw [hbuf]
        obtain hname | ⟨name, n, hname, hnext⟩ := Reader.andThen_eq_error h
        · simp only [hname]
        · obtain hvalue | ⟨value, m, -, hdone⟩ := Reader.andThen_eq_error hnext
          · simp only [hname, hvalue]
          · cases hdone
      rename_i h40
      rw [if_neg h40]
      split at h
      · rename_i h20
        rw [if_pos h20]
        unfold decodeSetCapacity
        rw [hbuf]
        obtain hint | ⟨capacity, n, -, hdone⟩ := Reader.andThen_eq_error h
        · simp only [hint]
        · cases hdone
      · rename_i h20
        rw [if_neg h20]
        unfold decodeDuplicate
        rw [hbuf]
        obtain hint | ⟨relativeIndex, n, -, hdone⟩ := Reader.andThen_eq_error h
        · simp only [hint]
        · cases hdone
    simp only [hshort]

theorem insertEntry_of_inserted {name value : Bytes}
    (h : DynamicTable.inserted (t.insert name value) = some t') (consumed : Nat)
    (i : EncoderInstruction) :
    r.insertEntry t name value consumed i = (.ok (some i), r.drain consumed, t') := by
  obtain ⟨index, hinsert⟩ := DynamicTable.inserted_eq_some h
  simp only [insertEntry, hinsert]

/-- A complete instruction changes the table as it says. -/
theorem process_of_read (h : EncoderInstruction.read r.recvBuffer = .ok (i, n)) (happly : t.apply i = some t')
    (hcapacity : ∀ capacity, i = .setDynamicTableCapacity capacity →
      capacity ≤ r.maxTableCapacity) : r.process t = (.ok (some i), r.drain n, t') := by
  unfold process
  cases hbuf : r.recvBuffer with
  | nil =>
    rw [hbuf] at h
    cases h
  | cons first rest =>
    have hdone : r.decodeInstruction t first = (.ok (some i), r.drain n, t') := by
      rw [hbuf] at h
      change EncoderInstruction.readBody first (first :: rest) = _ at h
      unfold EncoderInstruction.readBody at h
      unfold decodeInstruction
      split at h
      · rename_i h80
        obtain ⟨nameIndex, n₁, m, hint, hnext, rfl⟩ := Reader.andThen_eq_ok h
        obtain ⟨value, n₂, m', hvalue, hdone, rfl⟩ := Reader.andThen_eq_ok hnext
        cases hdone
        simp only [DynamicTable.apply] at happly
        rw [if_pos h80]
        simp only [decodeInsertWithNameRef, hbuf, hint, hvalue]
        split at happly
        · rename_i name hname
          simp only [hname]
          exact insertEntry_of_inserted happly _ _
        · cases happly
      rename_i h80
      rw [if_neg h80]
      split at h
      · rename_i h40
        obtain ⟨name, n₁, m, hname, hnext, rfl⟩ := Reader.andThen_eq_ok h
        obtain ⟨value, n₂, m', hvalue, hdone, rfl⟩ := Reader.andThen_eq_ok hnext
        cases hdone
        rw [if_pos h40]
        simp only [decodeInsertWithLiteralName, hbuf, hname, hvalue]
        exact insertEntry_of_inserted happly _ _
      rename_i h40
      rw [if_neg h40]
      split at h
      · rename_i h20
        obtain ⟨capacity, n₁, m, hint, hdone, rfl⟩ := Reader.andThen_eq_ok h
        cases hdone
        cases happly
        rw [if_pos h20]
        simp only [decodeSetCapacity, hbuf, hint, if_neg (Nat.not_lt.mpr (hcapacity capacity rfl))]
        rfl
      · rename_i h20
        obtain ⟨relativeIndex, n₁, m, hint, hdone, rfl⟩ := Reader.andThen_eq_ok h
        cases hdone
        obtain ⟨index, hduplicate⟩ := DynamicTable.inserted_eq_some happly
        rw [if_neg h20]
        simp only [decodeDuplicate, hbuf, hint, hduplicate]
        rfl
    simp only [hdone]

end Process

/-- Call `process` until it returns `None` or an error; nothing if so many calls do not get
there. -/
def processAll : Nat → EncoderStreamReceiver → DynamicTable →
    Option (Except QpackError Unit × EncoderStreamReceiver × DynamicTable)
  | 0, _, _ => none
  | fuel + 1, r, t =>
    match r.process t with
    | (.ok (some _), r', t') => processAll fuel r' t'
    | (.ok none, r', t') => some (.ok (), r', t')
    | (.error e, r', t') => some (.error e, r', t')

/-- Feed the chunks one by one, and process all that has arrived after each. -/
def feed (r : EncoderStreamReceiver) (t : DynamicTable) :
    List Bytes → Option (Except QpackError Unit × EncoderStreamReceiver × DynamicTable)
  | [] => some (.ok (), r, t)
  | chunk :: chunks =>
    match processAll ((r.receive chunk).recvBuffer.length + 1) (r.receive chunk) t with
    | some (.ok (), r', t') => feed r' t' chunks
    | other => other

end EncoderStreamReceiver

/-! ## The encoder's side -/

def EncoderStream.encode (s : EncoderStream) : EncoderInstruction → Except QpackError EncoderStream
  | .setDynamicTableCapacity capacity => s.encodeSetCapacity capacity
  | .insertWithNameReference isStatic nameIndex value =>
    s.encodeInsertWithNameRef isStatic nameIndex value
  | .insertWithLiteralName name value => s.encodeInsertWithLiteralName name value
  | .duplicate relativeIndex => s.encodeDuplicate relativeIndex

theorem EncoderStream.push_ok {s s' : EncoderStream} {bytes : Bytes} (h : s.push bytes = .ok s') :
    s' = { s with sendBuffer := s.sendBuffer ++ bytes } := by
  unfold push at h
  split at h <;> cases h
  rfl

/-- The instruction's bytes are appended, and a capacity is one that the receiver allows. -/
theorem EncoderStream.encode_ok {s s' : EncoderStream} {i : EncoderInstruction}
    (h : s.encode i = .ok s') :
    s' = { s with sendBuffer := s.sendBuffer ++ i.bytes } ∧
      ∀ capacity, i = .setDynamicTableCapacity capacity → capacity ≤ s.maxTableCapacity := by
  cases i with
  | setDynamicTableCapacity capacity =>
    simp only [encode, encodeSetCapacity] at h
    split at h
    · cases h
    · rename_i hcapacity
      have hpush := h
      unfold push at hpush
      split at hpush
      · cases hpush
      · refine ⟨push_ok h, fun c hc => ?_⟩
        cases hc
        omega
  | insertWithNameReference isStatic nameIndex value => exact ⟨push_ok h, fun c hc => by cases hc⟩
  | insertWithLiteralName name value => exact ⟨push_ok h, fun c hc => by cases hc⟩
  | duplicate relativeIndex => exact ⟨push_ok h, fun c hc => by cases hc⟩

/-- A change of the encoder's table, under the eviction limit of that moment. -/
structure TableOp where
  evictionLimit : Nat
  instruction : EncoderInstruction
  deriving DecidableEq

/-- The change succeeds, leaves the table within its capacity and is emitted. -/
def TableOp.perform (op : TableOp) (s : EncoderStream) (t : DynamicTable) :
    Option (EncoderStream × DynamicTable) :=
  match (t.setEvictionLimit op.evictionLimit).apply op.instruction, s.encode op.instruction with
  | some t', .ok s' => if t'.currentSize ≤ t'.maxCapacity then some (s', t') else none
  | _, _ => none

def performAll : List TableOp → EncoderStream → DynamicTable → Option (EncoderStream × DynamicTable)
  | [], s, t => some (s, t)
  | op :: ops, s, t => (op.perform s t).bind fun (s', t') => performAll ops s' t'

theorem TableOp.perform_eq_some {op : TableOp} {s s' : EncoderStream} {t t' : DynamicTable}
    (h : op.perform s t = some (s', t')) :
    (t.setEvictionLimit op.evictionLimit).apply op.instruction = some t' ∧
      s.encode op.instruction = .ok s' ∧ t'.currentSize ≤ t'.maxCapacity := by
  unfold perform at h
  split at h
  · rename_i t₁ s₁ happly hencode
    split at h
    · rename_i hfits
      cases h
      exact ⟨happly, hencode, hfits⟩
    · cases h
  · cases h

/-- What is emitted is one instruction after the other. -/
theorem performAll_sendBuffer {ops : List TableOp} {s s' : EncoderStream} {t t' : DynamicTable}
    (h : performAll ops s t = some (s', t')) :
    s'.sendBuffer = s.sendBuffer ++ (ops.map fun op => op.instruction.bytes).flatten := by
  induction ops generalizing s t with
  | nil =>
    cases h
    simp
  | cons op ops ih =>
    obtain ⟨⟨s₁, t₁⟩, hop, hops⟩ := Option.bind_eq_some_iff.mp h
    obtain ⟨-, hencode, -⟩ := TableOp.perform_eq_some hop
    obtain ⟨rfl, -⟩ := EncoderStream.encode_ok hencode
    rw [ih hops, List.map_cons, List.flatten_cons, List.append_assoc]

/-! ## Tables whose instructions can be read back -/

/-- A table that keeps to a capacity which an integer on the wire can tell. -/
structure DynamicTable.Sound (t : DynamicTable) : Prop where
  wellFormed : t.WellFormed
  fits : t.currentSize ≤ t.maxCapacity
  capacity : t.maxCapacity ≤ VarInt.max.get

namespace DynamicTable

theorem insert_maxCapacity (t : DynamicTable) (ht : t.WellFormed) (name value : Bytes) :
    (t.insert name value).2.maxCapacity = t.maxCapacity := by
  obtain ⟨-, heq⟩ | ⟨-, gone, t', hgone, -, heq⟩ := insert_spec name value ht <;> rw [heq]
  exact hgone.maxCapacity

theorem entrySize_le_of_insert {t t' : DynamicTable} {name value : Bytes} {index : Nat}
    (h : t.insert name value = (some index, t')) : entrySize name value ≤ t.maxCapacity := by
  unfold insert at h
  dsimp only at h
  split at h
  · cases h
  · exact Nat.le_of_not_lt ‹_›

theorem Sound.setEvictionLimit {t : DynamicTable} (h : t.Sound) (limit : Nat) :
    (t.setEvictionLimit limit).Sound := ⟨h.wellFormed.setEvictionLimit limit, h.fits, h.capacity⟩

theorem Sound.insert {t t' : DynamicTable} (h : t.Sound) {name value : Bytes}
    (happly : inserted (t.insert name value) = some t') (hfits : t'.currentSize ≤ t'.maxCapacity) :
    t'.Sound := by
  obtain ⟨index, hinsert⟩ := inserted_eq_some happly
  have hwf := h.wellFormed.insert name value
  have hmax := t.insert_maxCapacity h.wellFormed name value
  rw [hinsert] at hwf hmax
  exact ⟨hwf, hfits, hmax.trans_le h.capacity⟩

theorem Sound.apply {t t' : DynamicTable} (h : t.Sound) {i : EncoderInstruction}
    (happly : t.apply i = some t') (hfits : t'.currentSize ≤ t'.maxCapacity)
    (hcapacity : ∀ capacity, i = .setDynamicTableCapacity capacity → capacity ≤ VarInt.max.get) :
    t'.Sound := by
  cases i with
  | setDynamicTableCapacity capacity =>
    cases happly
    obtain ⟨gone, hgone⟩ := setCapacity_spec capacity h.wellFormed
    exact ⟨hgone.wellFormed, hfits, hgone.maxCapacity.trans_le (hcapacity capacity rfl)⟩
  | insertWithNameReference isStatic nameIndex value =>
    simp only [DynamicTable.apply] at happly
    split at happly
    · exact h.insert happly hfits
    · cases happly
  | insertWithLiteralName name value => exact h.insert happly hfits
  | duplicate relativeIndex =>
    simp only [DynamicTable.apply, duplicate] at happly
    split at happly
    · cases happly
    · exact h.insert happly hfits

/-- Neither the size nor the capacity is beyond `n`. -/
structure Bounded (n : Nat) (t : DynamicTable) : Prop where
  size : t.currentSize ≤ n
  capacity : t.maxCapacity ≤ n

theorem Sound.bounded {t : DynamicTable} (h : t.Sound) : t.Bounded VarInt.max.get :=
  ⟨h.fits.trans h.capacity, h.capacity⟩

theorem Bounded.index_le {n : Nat} {t : DynamicTable} (hbounded : t.Bounded n) (h : t.WellFormed)
    {relativeIndex : Nat} {e : DynamicEntry}
    (he : t.getByRelativeIndexEncoder relativeIndex = some e) : relativeIndex ≤ n := by
  have hlt := (List.getElem?_eq_some_iff.mp he).1
  have hlength := length_le_totalSize t.entries
  rw [← h.size] at hlength
  have hsize := hbounded.size
  omega

end DynamicTable

theorem encodedIntegerLen_le (value prefixBits : Nat) : encodedIntegerLen value prefixBits ≤ 11 := by
  have hgroups : ∀ fuel len remaining, encodedGroupsLen fuel len remaining ≤ len + fuel := by
    intro fuel
    induction fuel with
    | zero => exact fun len _ => Nat.le_refl len
    | succ fuel ih =>
      intro len remaining
      unfold encodedGroupsLen
      split
      · have hrest := ih (len + 1) (remaining >>> 7)
        omega
      · omega
  unfold encodedIntegerLen
  dsimp only
  split
  · omega
  · exact hgroups 10 1 _

/-- An entry's overhead is more than a length takes on the wire. -/
theorem encodeString_le_entrySize {data : Bytes} {n : Nat} (h : entryOverhead + data.length ≤ n)
    (prefixBits : Nat) (high : UInt8) :
    (encodeStringWithPrefix data prefixBits high true).length ≤ n := by
  have hstring := encodeStringWithPrefix_length_le data prefixBits high true
  have hint := encodedIntegerLen_le data.length prefixBits
  unfold encodedStringLen at hstring
  unfold entryOverhead at h
  omega

/-- An instruction that the table takes can be read back. -/
theorem EncoderInstruction.encodable_of_apply {t t' : DynamicTable}
    (hbounded : t.Bounded VarInt.max.get) (h : t.WellFormed) {i : EncoderInstruction}
    (happly : t.apply i = some t')
    (hcapacity : ∀ capacity, i = .setDynamicTableCapacity capacity → capacity ≤ VarInt.max.get) :
    i.Encodable := by
  have hinsert : ∀ {name value : Bytes},
      DynamicTable.inserted (t.insert name value) = some t' →
        entrySize name value ≤ VarInt.max.get := by
    intro name value hins
    obtain ⟨index, heq⟩ := DynamicTable.inserted_eq_some hins
    exact (DynamicTable.entrySize_le_of_insert heq).trans hbounded.capacity
  unfold entrySize at hinsert
  cases i with
  | setDynamicTableCapacity capacity => exact hcapacity capacity rfl
  | insertWithNameReference isStatic nameIndex value =>
    simp only [DynamicTable.apply] at happly
    split at happly
    · rename_i name hname
      have hsize := hinsert happly
      refine ⟨?_, encodeString_le_entrySize (by omega) 7 0x00⟩
      unfold EncoderStreamReceiver.referencedName at hname
      cases isStatic with
      | true =>
        cases hentry : getStaticEntry nameIndex with
        | none => simp [hentry] at hname
        | some x => exact index_le_max hentry
      | false =>
        cases hentry : t.getByRelativeIndexEncoder nameIndex with
        | none => simp [hentry] at hname
        | some e => exact hbounded.index_le h hentry
    · cases happly
  | insertWithLiteralName name value =>
    have hsize := hinsert happly
    exact ⟨encodeString_le_entrySize (by omega) 5 0x40, encodeString_le_entrySize (by omega) 7 0x00⟩
  | duplicate relativeIndex =>
    simp only [DynamicTable.apply, DynamicTable.duplicate] at happly
    split at happly
    · cases happly
    · rename_i e he
      exact hbounded.index_le h he

/-! ## Both sides together -/

/-- The operations that are left take the encoder to `last`; their bytes are in the receiver's
buffer or still to come. -/
structure Pending (last : EncoderStream × DynamicTable) (ops : List TableOp) (s : EncoderStream)
    (t : DynamicTable) (r : EncoderStreamReceiver) (future : Bytes) : Prop where
  sound : t.Sound
  capacities : ∀ op ∈ ops, ∀ capacity, op.instruction = .setDynamicTableCapacity capacity →
    capacity ≤ VarInt.max.get
  performs : performAll ops s t = some last
  allowed : s.maxTableCapacity = r.maxTableCapacity
  bytes : r.recvBuffer ++ future = (ops.map fun op => op.instruction.bytes).flatten

namespace Pending

variable {last : EncoderStream × DynamicTable} {op : TableOp} {ops : List TableOp}
  {s : EncoderStream} {t : DynamicTable} {r : EncoderStreamReceiver} {future : Bytes}

/-- The first instruction, once it is there. -/
theorem step (h : Pending last (op :: ops) s t r future) {rest : Bytes}
    (hbuf : r.recvBuffer = op.instruction.bytes ++ rest) : ∃ s' t' r',
      r.process (t.setEvictionLimit 0) = (.ok (some op.instruction), r', t'.setEvictionLimit 0) ∧
        r'.recvBuffer = rest ∧ Pending last ops s' t' r' future := by
  obtain ⟨⟨s', t'⟩, hop, hops⟩ := Option.bind_eq_some_iff.mp h.performs
  obtain ⟨happly, hencode, hfits⟩ := TableOp.perform_eq_some hop
  obtain ⟨rfl, hallowed⟩ := EncoderStream.encode_ok hencode
  have hcapacity := h.capacities op List.mem_cons_self
  have hsound := h.sound.setEvictionLimit op.evictionLimit
  have hread := EncoderInstruction.read_bytes
    (EncoderInstruction.encodable_of_apply hsound.bounded hsound.wellFormed happly hcapacity)
    rest
  rw [← hbuf] at hread
  have hprocess := EncoderStreamReceiver.process_of_read hread
    (DynamicTable.apply_unlimited happly hfits) (fun c hc => h.allowed ▸ hallowed c hc)
  have hdrain : (r.drain op.instruction.bytes.length).recvBuffer = rest := by
    rw [EncoderStreamReceiver.drain, hbuf, List.drop_left' rfl]
  refine ⟨_, t', _, hprocess, hdrain, hsound.apply happly hfits hcapacity,
    fun x hx => h.capacities x (List.mem_cons_of_mem op hx), hops, h.allowed, ?_⟩
  have hbytes := h.bytes
  rw [hbuf, List.map_cons, List.flatten_cons, List.append_assoc] at hbytes
  rw [hdrain, List.append_cancel_left hbytes]

/-- Processing carries out every instruction that is there, and stops before the next. -/
theorem processAll {fuel : Nat} (h : Pending last ops s t r future)
    (hfuel : r.recvBuffer.length < fuel) : ∃ ops' s' t' r',
      EncoderStreamReceiver.processAll fuel r (t.setEvictionLimit 0) =
        some (.ok (), r', t'.setEvictionLimit 0) ∧
        Pending last ops' s' t' r' future ∧ (future = [] → ops' = []) := by
  induction ops generalizing s t r fuel with
  | nil =>
    obtain ⟨fuel, rfl⟩ : ∃ f, fuel = f + 1 := ⟨fuel - 1, by omega⟩
    have hbuf : r.recvBuffer = [] := (List.append_eq_nil_iff.mp h.bytes).1
    have hprocess := EncoderStreamReceiver.process_of_short (t := t.setEvictionLimit 0)
      (congrArg EncoderInstruction.read hbuf)
    exact ⟨[], s, t, r, by simp only [EncoderStreamReceiver.processAll, hprocess], h, fun _ => rfl⟩
  | cons op ops ih =>
    obtain ⟨fuel, rfl⟩ : ∃ f, fuel = f + 1 := ⟨fuel - 1, by omega⟩
    have hbytes := h.bytes
    rw [List.map_cons, List.flatten_cons] at hbytes
    have hcomplete : ∀ rest, r.recvBuffer = op.instruction.bytes ++ rest → ∃ ops' s' t' r',
        EncoderStreamReceiver.processAll (fuel + 1) r (t.setEvictionLimit 0) =
          some (.ok (), r', t'.setEvictionLimit 0) ∧
          Pending last ops' s' t' r' future ∧ (future = [] → ops' = []) := by
      intro rest hbuf
      obtain ⟨s₁, t₁, r₁, hprocess, hrest, hpending⟩ := h.step hbuf
      have hpos := List.length_pos_iff.mpr op.instruction.bytes_ne_nil
      rw [hbuf, List.length_append] at hfuel
      have hfewer : r₁.recvBuffer.length < fuel := by
        rw [hrest]
        omega
      obtain ⟨ops', s', t', r', hall, hlast⟩ := ih hpending hfewer
      exact ⟨ops', s', t', r', by simp only [EncoderStreamReceiver.processAll, hprocess, hall], hlast⟩
    obtain ⟨missing, hsplit, hfuture⟩ | ⟨rest, hbuf, -⟩ := List.append_eq_append_iff.mp hbytes
    · cases missing with
      | nil => exact hcomplete [] (by rw [hsplit]; simp)
      | cons byte missing =>
        -- the last byte of the instruction is still to come
        obtain ⟨⟨s', t'⟩, hop, -⟩ := Option.bind_eq_some_iff.mp h.performs
        obtain ⟨happly, -, -⟩ := TableOp.perform_eq_some hop
        have hsound := h.sound.setEvictionLimit op.evictionLimit
        have hreads := EncoderInstruction.read_bytes (EncoderInstruction.encodable_of_apply
          hsound.bounded hsound.wellFormed happly (h.capacities op List.mem_cons_self))
        have hshort := hreads.waits EncoderInstruction.read_stable hsplit (List.cons_ne_nil _ _)
        refine ⟨op :: ops, s, t, r, ?_, h, fun hnil => ?_⟩
        · simp only [EncoderStreamReceiver.processAll,
            EncoderStreamReceiver.process_of_short hshort]
        · rw [hnil] at hfuture
          cases hfuture
    · exact hcomplete rest hbuf

theorem feed {chunks : List Bytes} (h : Pending last ops s t r chunks.flatten)
    (hempty : chunks.flatten = [] → ops = []) : ∃ r',
      EncoderStreamReceiver.feed r (t.setEvictionLimit 0) chunks =
        some (.ok (), r', last.2.setEvictionLimit 0) ∧ r'.recvBuffer = [] := by
  induction chunks generalizing ops s t r with
  | nil =>
    obtain rfl := hempty rfl
    cases h.performs
    exact ⟨r, rfl, (List.append_eq_nil_iff.mp h.bytes).1⟩
  | cons chunk chunks ih =>
    have hreceived : Pending last ops s t (r.receive chunk) chunks.flatten := by
      refine ⟨h.sound, h.capacities, h.performs, h.allowed, ?_⟩
      rw [← h.bytes, List.flatten_cons, EncoderStreamReceiver.receive, List.append_assoc]
    obtain ⟨ops', s', t', r', hall, hpending, hend⟩ := hreceived.processAll (Nat.lt_succ_self _)
    obtain ⟨r'', hfeed, hbuf⟩ := ih hpending hend
    exact ⟨r'', by simp only [EncoderStreamReceiver.feed, hall, hfeed], hbuf⟩

end Pending

/-- **Replication.** Whatever the eviction limits of the encoder and the pieces in which its
bytes arrive, the receiver ends with the same table. -/
theorem table_replicated (initialCapacity maxTableCapacity : Nat)
    (hinitial : initialCapacity ≤ VarInt.max.get) (ops : List TableOp)
    (hcapacities : ∀ op ∈ ops, ∀ capacity,
      op.instruction = .setDynamicTableCapacity capacity → capacity ≤ VarInt.max.get)
    (s : EncoderStream) (t : DynamicTable)
    (hperforms : performAll ops (EncoderStream.new.setMaxTableCapacity maxTableCapacity)
      (.withCapacity initialCapacity) = some (s, t))
    (chunks : List Bytes) (hchunks : chunks.flatten = s.sendBuffer) : ∃ r t',
      EncoderStreamReceiver.feed (EncoderStreamReceiver.new.setMaxTableCapacity maxTableCapacity)
        (.withCapacity initialCapacity) chunks = some (.ok (), r, t') ∧ r.recvBuffer = [] ∧
      t'.maxCapacity = t.maxCapacity ∧ t'.insertCount = t.insertCount ∧
      t'.currentSize = t.currentSize ∧ t'.entries = t.entries := by
  have hsound : (DynamicTable.withCapacity initialCapacity).Sound :=
    ⟨.withCapacity initialCapacity, Nat.zero_le _, hinitial⟩
  have hbytes := performAll_sendBuffer hperforms
  rw [show (EncoderStream.new.setMaxTableCapacity maxTableCapacity).sendBuffer = [] from rfl,
    List.nil_append] at hbytes
  have hpending : Pending (s, t) ops (EncoderStream.new.setMaxTableCapacity maxTableCapacity)
      (.withCapacity initialCapacity)
      (EncoderStreamReceiver.new.setMaxTableCapacity maxTableCapacity) chunks.flatten :=
    ⟨hsound, hcapacities, hperforms, rfl, by rw [hchunks, hbytes]; rfl⟩
  obtain ⟨r, hfeed, hbuf⟩ := hpending.feed fun hnil => by
    rw [hchunks, hbytes, List.flatten_eq_nil_iff] at hnil
    cases ops with
    | nil => rfl
    | cons op ops => exact absurd (hnil _ List.mem_cons_self) op.instruction.bytes_ne_nil
  exact ⟨r, t.setEvictionLimit 0, hfeed, hbuf, rfl, rfl, rfl, rfl⟩

/-- Two entries, the second of which pushes the first out, and a duplicate, byte by byte. -/
theorem table_replicated_byte_by_byte : ∃ r t',
    EncoderStreamReceiver.feed (EncoderStreamReceiver.new.setMaxTableCapacity 40)
      (.withCapacity 0) [[0x3f, 0x09], [0x41], [97], [1], [98, 0xd1, 1, 99], [0x00]] =
        some (.ok (), r, t') ∧ r.recvBuffer = [] ∧ t'.maxCapacity = 40 ∧ t'.insertCount = 3 ∧
      t'.currentSize = 40 ∧ t'.entries = [⟨[58, 109, 101, 116, 104, 111, 100], [99], 2⟩] :=
  table_replicated 0 40 (by decide)
    [⟨0, .setDynamicTableCapacity 40⟩, ⟨0, .insertWithLiteralName [97] [98]⟩,
      ⟨0, .insertWithNameReference true 17 [99]⟩, ⟨1, .duplicate 0⟩]
    (by simp; decide) ⟨[0x3f, 0x09, 0x41, 97, 1, 98, 0xd1, 1, 99, 0x00], 40⟩
    ⟨[⟨[58, 109, 101, 116, 104, 111, 100], [99], 2⟩], 40, 40, 3, 2, 1⟩ (by decide +kernel)
    [[0x3f, 0x09], [0x41], [97], [1], [98, 0xd1, 1, 99], [0x00]] rfl

/-- An integer on the wire is below 2^62, but the capacity of a table may be larger. -/
theorem large_capacities_are_not_replicated : ∃ (ops : List TableOp) (s : EncoderStream)
    (t : DynamicTable),
    performAll ops (EncoderStream.new.setMaxTableCapacity (2 ^ 62)) .new = some (s, t) ∧
      ∀ r t', EncoderStreamReceiver.feed
        (EncoderStreamReceiver.new.setMaxTableCapacity (2 ^ 62)) .new [s.sendBuffer] ≠
          some (.ok (), r, t') := by
  refine ⟨[⟨0, .setDynamicTableCapacity (2 ^ 62)⟩], _, _, rfl, fun r t' h => ?_⟩
  have hrefused : EncoderStreamReceiver.feed
      (EncoderStreamReceiver.new.setMaxTableCapacity (2 ^ 62)) .new
      [encodeIntegerToVec (2 ^ 62) 5 0x20] = some (.error .decodeFailed,
        ⟨encodeIntegerToVec (2 ^ 62) 5 0x20, 2 ^ 62⟩, .new) := by decide
  cases hrefused.symm.trans h

end Http3.Qpack
