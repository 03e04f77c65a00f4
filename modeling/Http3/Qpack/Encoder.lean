import Http3.Lib.Queues
import Http3.Qpack.Wire
import Http3.Qpack.DynamicTable

/-!
# The encoder of field sections

A section starts with its Required Insert Count, modulo twice the number of entries the table
can hold, and a base equal to it. `encode` fails exactly when the section does not fit into the
buffer, of which only the size matters.
-/

namespace Http3.Qpack

/-- The length after the groups that `remaining` takes, `len` bytes being counted already. -/
def encodedGroupsLen : Nat → Nat → Nat → Nat
  | 0, len, _ => len
  | fuel + 1, len, remaining =>
    if remaining ≥ 128 then encodedGroupsLen fuel (len + 1) (remaining >>> 7) else len + 1

/-- The length of an integer on the wire. -/
def encodedIntegerLen (value prefixBits : Nat) : Nat :=
  let maxPrefix := 2 ^ prefixBits - 1
  if value < maxPrefix then 1 else encodedGroupsLen 10 1 (value - maxPrefix)

def encodedStringLen (dataLen prefixBits : Nat) : Nat :=
  encodedIntegerLen dataLen prefixBits + dataLen

/-- The size of one field when only the static table is used and nothing is compressed. -/
def estimateFieldSize (h : Header) : Nat :=
  match findStaticEntry h.name h.value with
  | (some index, _) => encodedIntegerLen index 6
  | (none, some index) => encodedIntegerLen index 4 + encodedStringLen h.value.length 7
  | (none, none) => encodedStringLen h.name.length 3 + encodedStringLen h.value.length 7

def estimateEncodedSize (headers : List Header) : Nat :=
  2 + (headers.map estimateFieldSize).sum

/-! ## Field lines -/

def encodeIndexedFieldStatic (index : Nat) : Bytes := encodeIntegerToVec index 6 0xc0

def encodeIndexedFieldDynamic (absoluteIndex base : Nat) : Bytes :=
  encodeIntegerToVec (base - absoluteIndex - 1) 6 0x80

def encodeLiteralWithNameRefStatic (index : Nat) (value : Bytes) (neverIndexed useHuffman : Bool) :
    Bytes :=
  encodeIntegerToVec index 4 (if neverIndexed then 0x70 else 0x50) ++ encodeString value useHuffman

def encodeLiteralWithNameRefDynamic (absoluteIndex : Nat) (value : Bytes) (base : Nat)
    (neverIndexed useHuffman : Bool) : Bytes :=
  encodeIntegerToVec (base - absoluteIndex - 1) 4 (if neverIndexed then 0x60 else 0x40)
    ++ encodeString value useHuffman

def encodeLiteralWithLiteralName (name value : Bytes) (neverIndexed useHuffman : Bool) : Bytes :=
  encodeStringWithPrefix name 3 (if neverIndexed then 0x30 else 0x20) useHuffman
    ++ encodeString value useHuffman

def encodeHeaderStaticOnly (useHuffman : Bool) (h : Header) : Bytes :=
  match findStaticEntry h.name h.value with
  | (some index, _) => encodeIndexedFieldStatic index
  | (none, some index) => encodeLiteralWithNameRefStatic index h.value h.neverIndexed useHuffman
  | (none, none) => encodeLiteralWithLiteralName h.name h.value h.neverIndexed useHuffman

/-- Dynamic match, static match, dynamic name, static name, literal, in this order. -/
def encodeHeaderWithDynamic (t : DynamicTable) (useHuffman : Bool) (h : Header) (base : Nat) :
    Bytes :=
  match t.findEntry h.name h.value, findStaticEntry h.name h.value with
  | (some absIndex, _), _ => encodeIndexedFieldDynamic absIndex base
  | (none, _), (some index, _) => encodeIndexedFieldStatic index
  | (none, some absIndex), (none, _) =>
    encodeLiteralWithNameRefDynamic absIndex h.value base h.neverIndexed useHuffman
  | (none, none), (none, some index) =>
    encodeLiteralWithNameRefStatic index h.value h.neverIndexed useHuffman
  | (none, none), (none, none) =>
    encodeLiteralWithLiteralName h.name h.value h.neverIndexed useHuffman

/-! ## The estimate is a bound -/

theorem encodedGroupsLen_eq (fuel len remaining : Nat) :
    encodedGroupsLen fuel len remaining = len + (integerGroups fuel remaining).length := by
  induction fuel generalizing len remaining with
  | zero => rfl
  | succ fuel ih =>
    unfold encodedGroupsLen integerGroups
    split
    · rw [ih, List.length_cons]
      omega
    · rfl

/-- The length that is computed is the length that is written. -/
theorem encodedIntegerLen_eq (value : Nat) {prefixBits : Nat} (hp : 0 < prefixBits)
    (hp8 : prefixBits ≤ 8) (high : UInt8) :
    (encodeIntegerToVec value prefixBits high).length = encodedIntegerLen value prefixBits := by
  unfold encodeIntegerToVec encodedIntegerLen
  rw [if_neg (by omega)]
  dsimp only
  split
  · rfl
  · rw [encodedGroupsLen_eq, List.length_cons, Nat.add_comm]

theorem encodeIntegerToVec_length_le_len {a b : Nat} (h : a ≤ b) (prefixBits : Nat) (high : UInt8) :
    (encodeIntegerToVec a prefixBits high).length ≤ encodedIntegerLen b prefixBits := by
  by_cases hbits : prefixBits = 0 ∨ prefixBits > 8
  · rw [encodeIntegerToVec, if_pos hbits]
    exact Nat.zero_le _
  · rw [← encodedIntegerLen_eq b (by omega) (by omega) high]
    exact encodeIntegerToVec_length_le h prefixBits high high

theorem encodeStringWithPrefix_length_le (data : Bytes) (prefixBits : Nat) (high : UInt8)
    (useHuffman : Bool) :
    (encodeStringWithPrefix data prefixBits high useHuffman).length ≤
      encodedStringLen data.length prefixBits := by
  unfold encodeStringWithPrefix encodedStringLen
  dsimp only
  split
  · rename_i hshort
    rw [List.length_append, Huffman.encode_length]
    exact Nat.add_le_add (encodeIntegerToVec_length_le_len hshort.2.le _ _) hshort.2.le
  · rw [List.length_append]
    exact Nat.add_le_add_right (encodeIntegerToVec_length_le_len (Nat.le_refl _) _ _) _

theorem encodeHeaderStaticOnly_length_le (useHuffman : Bool) (h : Header) :
    (encodeHeaderStaticOnly useHuffman h).length ≤ estimateFieldSize h := by
  have hint : ∀ v p high, (encodeIntegerToVec v p high).length ≤ encodedIntegerLen v p :=
    fun v p high => encodeIntegerToVec_length_le_len (Nat.le_refl v) p high
  unfold encodeHeaderStaticOnly estimateFieldSize
  split
  · exact hint _ _ _
  · rw [encodeLiteralWithNameRefStatic, List.length_append]
    exact Nat.add_le_add (hint _ _ _) (encodeStringWithPrefix_length_le _ _ _ _)
  · rw [encodeLiteralWithLiteralName, List.length_append]
    exact Nat.add_le_add (encodeStringWithPrefix_length_le _ _ _ _)
      (encodeStringWithPrefix_length_le _ _ _ _)

theorem flatMap_length_le (useHuffman : Bool) (headers : List Header) :
    (headers.flatMap (encodeHeaderStaticOnly useHuffman)).length ≤
      (headers.map estimateFieldSize).sum := by
  induction headers with
  | nil => exact Nat.le_refl _
  | cons h headers ih =>
    rw [List.flatMap_cons, List.length_append, List.map_cons, List.sum_cons]
    exact Nat.add_le_add (encodeHeaderStaticOnly_length_le useHuffman h) ih

/-! ## The encoder -/

structure DynamicEncoder where
  table : DynamicTable
  useHuffman : Bool
  maxTableCapacity : Nat
  knownReceivedCount : Nat
  lastRequiredInsertCount : Nat
  peerMaxBlockedStreams : Nat
  unackedSectionRics : IdMap (List Nat)

namespace DynamicEncoder

def new : DynamicEncoder where
  table := .new
  useHuffman := true
  maxTableCapacity := 0
  knownReceivedCount := 0
  lastRequiredInsertCount := 0
  peerMaxBlockedStreams := 0
  unackedSectionRics := ∅

def setMaxTableCapacity (e : DynamicEncoder) (capacity : Nat) : DynamicEncoder :=
  { e with maxTableCapacity := capacity }

def setPeerMaxBlockedStreams (e : DynamicEncoder) (max : Nat) : DynamicEncoder :=
  { e with peerMaxBlockedStreams := max }

def setTableCapacity (e : DynamicEncoder) (capacity : Nat) : Except QpackError DynamicEncoder :=
  if capacity > e.maxTableCapacity then .error .capacityExceeded
  else .ok { e with table := e.table.setCapacity capacity }

def insertCount (e : DynamicEncoder) : Nat := e.table.insertCount

/-- The largest Required Insert Count of a section that is not acknowledged yet. -/
def maxUnackedRic (e : DynamicEncoder) : Nat :=
  (e.unackedSectionRics.values.flatMap fun rics => rics).foldl max 0

def updateEvictionLimit (e : DynamicEncoder) : DynamicEncoder :=
  { e with table := e.table.setEvictionLimit e.maxUnackedRic }

def acknowledge (e : DynamicEncoder) (count : Nat) : DynamicEncoder :=
  { e with knownReceivedCount := max e.knownReceivedCount count }.updateEvictionLimit

def trackSection (e : DynamicEncoder) (streamId requiredInsertCount : Nat) : DynamicEncoder :=
  if requiredInsertCount > 0 then
    let rics := (e.unackedSectionRics.lookup streamId).getD []
    { e with
      unackedSectionRics :=
        e.unackedSectionRics.insert streamId (rics ++ [requiredInsertCount]) }.updateEvictionLimit
  else e

def ackSection (e : DynamicEncoder) (streamId : Nat) : Except QpackError DynamicEncoder :=
  match e.unackedSectionRics.lookup streamId with
  | none => .error .decodeFailed
  | some [] => .error .decodeFailed
  | some (ric :: rics) =>
    let unacked :=
      if rics.isEmpty then e.unackedSectionRics.erase streamId
      else e.unackedSectionRics.insert streamId rics
    .ok { e with
      unackedSectionRics := unacked
      knownReceivedCount := max e.knownReceivedCount ric }.updateEvictionLimit

def cancelStream (e : DynamicEncoder) (streamId : Nat) : DynamicEncoder :=
  { e with unackedSectionRics := e.unackedSectionRics.erase streamId }.updateEvictionLimit

def blockedStreamsCount (e : DynamicEncoder) : Nat := e.unackedSectionRics.keys.length

def encodeStaticOnly (e : DynamicEncoder) (headers : List Header) : Bytes :=
  0x00 :: 0x00 :: headers.flatMap (encodeHeaderStaticOnly e.useHuffman)

theorem encodeStaticOnly_length_le (e : DynamicEncoder) (headers : List Header) :
    (e.encodeStaticOnly headers).length ≤ estimateEncodedSize headers := by
  have h := flatMap_length_le e.useHuffman headers
  simp only [encodeStaticOnly, estimateEncodedSize, List.length_cons]
  omega

/-- The Required Insert Count of a list: one more than the newest entry it refers to. -/
def requiredInsertCount (t : DynamicTable) (headers : List Header) : Nat :=
  headers.foldl (fun ric h =>
    match t.findEntry h.name h.value with
    | (some idx, _) => max ric (idx + 1)
    | (none, some idx) => max ric (idx + 1)
    | (none, none) => ric) 0

/-- The entry that a field counts for: one with its name and value, or else one with its name. -/
def counted (t : DynamicTable) (h : Header) : Option Nat :=
  match t.findEntry h.name h.value with
  | (some idx, _) => some idx
  | (none, nameIndex) => nameIndex

/-- The count covers every entry that is counted, and no more. -/
theorem requiredInsertCount_le_iff (t : DynamicTable) (headers : List Header) (n : Nat) :
    requiredInsertCount t headers ≤ n ↔ ∀ h ∈ headers, ∀ i ∈ counted t h, i < n := by
  have key : ∀ ric, headers.foldl (fun ric h =>
      match t.findEntry h.name h.value with
      | (some idx, _) => max ric (idx + 1)
      | (none, some idx) => max ric (idx + 1)
      | (none, none) => ric) ric ≤ n ↔ ric ≤ n ∧ ∀ h ∈ headers, ∀ i ∈ counted t h, i < n := by
    induction headers with
    | nil => simp
    | cons h headers ih =>
      intro ric
      rw [List.foldl_cons, ih, List.forall_mem_cons, counted, ← and_assoc]
      refine and_congr_left fun _ => ?_
      rcases t.findEntry h.name h.value with ⟨_ | i, _ | j⟩ <;>
        simp only [Nat.max_le, Nat.add_one_le_iff, Option.mem_def, Option.some.injEq, forall_eq',
          reduceCtorEq, false_imp_iff, implies_true, and_true]
  rw [requiredInsertCount, key, and_iff_right (Nat.zero_le n)]

def encodeRequiredInsertCount (e : DynamicEncoder) (reqInsertCount : Nat) : Nat :=
  if reqInsertCount = 0 then 0
  else
    let maxEntries := e.maxTableCapacity / 32
    if maxEntries = 0 then 0 else reqInsertCount % (2 * maxEntries) + 1

def encodeWithDynamic (e : DynamicEncoder) (headers : List Header) : Bytes :=
  let ric := requiredInsertCount e.table headers
  encodeIntegerToVec (e.encodeRequiredInsertCount ric) 8 0x00 ++ 0x00 ::
    headers.flatMap (encodeHeaderWithDynamic e.table e.useHuffman · ric)

/-- Whether a section may refer to the dynamic table at all. -/
def usesDynamic (e : DynamicEncoder) (blockedStreams : Nat) : Bool :=
  !e.table.entries.isEmpty && e.maxTableCapacity != 0
    && decide (blockedStreams < e.peerMaxBlockedStreams)

/-- Encode into a buffer of `cap` bytes. -/
def encode (e : DynamicEncoder) (cap : Nat) (headers : List Header) (blockedStreams : Nat) :
    Option Bytes × DynamicEncoder :=
  if e.usesDynamic blockedStreams then
    (fit cap (e.encodeWithDynamic headers),
      { e with lastRequiredInsertCount := requiredInsertCount e.table headers })
  else (fit cap (e.encodeStaticOnly headers), { e with lastRequiredInsertCount := 0 })

/-- Without entries, a section fits as soon as the estimate does. -/
theorem encode_of_entries_nil {e : DynamicEncoder} (he : e.table.entries = []) {cap : Nat}
    {headers : List Header} (hcap : estimateEncodedSize headers ≤ cap) (blocked : Nat) :
    e.encode cap headers blocked =
      (some (e.encodeStaticOnly headers), { e with lastRequiredInsertCount := 0 }) := by
  have hfit : (e.encodeStaticOnly headers).length ≤ cap :=
    (e.encodeStaticOnly_length_le headers).trans hcap
  simp [encode, usesDynamic, he, fit, hfit]

/-! ## Acknowledgements leave the entries alone -/

theorem ackSection_entries {e e' : DynamicEncoder} {streamId : Nat}
    (h : e.ackSection streamId = .ok e') : e'.table.entries = e.table.entries := by
  unfold ackSection at h
  split at h
  · cases h
  · cases h
  · injection h with h
    rw [← h]
    rfl

theorem trackSection_entries (e : DynamicEncoder) (streamId ric : Nat) :
    (e.trackSection streamId ric).table.entries = e.table.entries := by
  unfold trackSection
  split <;> rfl

theorem encode_table (e : DynamicEncoder) (cap : Nat) (headers : List Header) (blocked : Nat) :
    (e.encode cap headers blocked).2.table = e.table := by
  unfold encode
  split <;> rfl

/-- Encoding changes nothing but the Required Insert Count that is remembered. -/
theorem encode_snd (e : DynamicEncoder) (cap : Nat) (headers : List Header) (blocked : Nat) :
    ∃ ric, (e.encode cap headers blocked).2 = { e with lastRequiredInsertCount := ric } := by
  unfold encode
  split
  · exact ⟨_, rfl⟩
  · exact ⟨_, rfl⟩

/-! ## Unacknowledged sections -/

/-- The Required Insert Counts of the sections that are not acknowledged, stream by stream. -/
def unacked (e : DynamicEncoder) : Queues Nat := .ofMap e.unackedSectionRics

theorem trackSection_unacked (e : DynamicEncoder) (streamId : Nat) {ric : Nat} (h : 0 < ric) :
    (e.trackSection streamId ric).unacked = e.unacked.push streamId ric := by
  rw [trackSection, if_pos h]
  exact Queues.ofMap_append _ _ _

theorem trackSection_zero (e : DynamicEncoder) (streamId : Nat) : e.trackSection streamId 0 = e :=
  if_neg (Nat.lt_irrefl 0)

/-- An acknowledgement is for the oldest section of its stream. -/
theorem ackSection_ok {e e' : DynamicEncoder} {streamId : Nat} (h : e.ackSection streamId = .ok e') :
    ∃ ric rics, e.unacked streamId = ric :: rics ∧ e'.unacked = e.unacked.pop streamId ∧
      e'.knownReceivedCount = max e.knownReceivedCount ric := by
  unfold ackSection at h
  split at h
  · cases h
  · cases h
  · rename_i ric rics hlookup
    injection h with h
    subst h
    exact ⟨ric, rics, by rw [unacked, Queues.ofMap, hlookup, Option.getD_some],
      Queues.ofMap_pop _ hlookup, rfl⟩

/-- It is refused exactly where the stream has no section. -/
theorem ackSection_error {e : DynamicEncoder} {streamId : Nat} {error : QpackError}
    (h : e.ackSection streamId = .error error) : e.unacked streamId = [] := by
  unfold ackSection at h
  unfold unacked Queues.ofMap
  split at h
  · rw [‹e.unackedSectionRics.lookup streamId = none›, Option.getD_none]
  · rw [‹e.unackedSectionRics.lookup streamId = some []›, Option.getD_some]
  · cases h

theorem cancelStream_unacked (e : DynamicEncoder) (streamId : Nat) :
    (e.cancelStream streamId).unacked = e.unacked.clear streamId := Queues.ofMap_erase _ _

theorem le_foldl_max {l : List Nat} {a b : Nat} (h : a ∈ l ∨ a ≤ b) : a ≤ l.foldl max b := by
  induction l generalizing b with
  | nil => simpa using h
  | cons c l ih =>
    refine ih ?_
    rcases h with h | h
    · rcases List.mem_cons.mp h with rfl | h
      · exact .inr (Nat.le_max_right b a)
      · exact .inl h
    · exact .inr (h.trans (Nat.le_max_left b c))

theorem le_maxUnackedRic {e : DynamicEncoder} {streamId ric : Nat} (h : ric ∈ e.unacked streamId) :
    ric ≤ e.maxUnackedRic := le_foldl_max (.inl (Queues.mem_values h))

/-! ## Inserting -/

def insert (e : DynamicEncoder) (name value : Bytes) : Option Nat × DynamicEncoder :=
  match e.table.insert name value with
  | (r, t) => (r, { e with table := t })

def duplicate (e : DynamicEncoder) (relativeIndex : Nat) : Option Nat × DynamicEncoder :=
  match e.table.duplicate relativeIndex with
  | (r, t) => (r, { e with table := t })

end DynamicEncoder

end Http3.Qpack
