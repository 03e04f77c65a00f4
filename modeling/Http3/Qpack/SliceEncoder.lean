import Http3.Qpack.Encoder
import Http3.Qpack.HuffmanDecode

/-!
# Encoding into a buffer

Every part of a section is written behind the parts before it, and fails where the buffer ends.
However long the buffer is, the section is written as a whole or not at all; without the dynamic
table the estimate says how long the buffer has to be.
-/

namespace Http3.Qpack

namespace SliceEncoder

/-! ## The writers -/

/-- Write a byte at an offset of the buffer. -/
def putAt (buf : Bytes) (offset : Nat) (byte : UInt8) : Option Bytes :=
  if offset ≥ buf.length then none else some (buf.set offset byte)

/-- The groups after the first byte, from an offset on. -/
def encodeGroups : Nat → Bytes → Nat → Nat → Option (Nat × Bytes)
  | 0, buf, offset, _ => some (offset, buf)
  | fuel + 1, buf, offset, remaining =>
    if remaining ≥ 128 then
      match putAt buf offset (0x80 ||| UInt8.ofNat (remaining &&& 0x7f)) with
      | none => none
      | some buf => encodeGroups fuel buf (offset + 1) (remaining >>> 7)
    else (putAt buf offset (UInt8.ofNat remaining)).map fun buf => (offset + 1, buf)

def encodeInteger (value prefixBits : Nat) (high : UInt8) : SliceWriter UInt8 := fun buf =>
  if prefixBits = 0 ∨ prefixBits > 8 then none
  else
    let maxPrefix := 2 ^ prefixBits - 1
    if value < maxPrefix then
      (putAt buf 0 (high ||| UInt8.ofNat value)).map fun buf => (1, buf)
    else
      match putAt buf 0 (high ||| UInt8.ofNat maxPrefix) with
      | none => none
      | some buf => encodeGroups 10 buf 1 (value - maxPrefix)

def encodeByte (byte : UInt8) : SliceWriter UInt8 := fun buf =>
  (putAt buf 0 byte).map fun buf => (1, buf)

def encodeStringWithPrefix (data : Bytes) (prefixBits : Nat) (high : UInt8) (useHuffman : Bool) :
    SliceWriter UInt8 :=
  let huffmanLen := Huffman.encodedLen data
  if useHuffman ∧ huffmanLen < data.length then
    (encodeInteger huffmanLen prefixBits (high ||| UInt8.ofNat (1 <<< prefixBits))).andThen
      (Huffman.encodeInto data)
  else (encodeInteger data.length prefixBits high).andThen (SliceWriter.copy data)

def encodeString (data : Bytes) (useHuffman : Bool) : SliceWriter UInt8 :=
  encodeStringWithPrefix data 7 0x00 useHuffman

def encodeIndexedFieldStatic (index : Nat) : SliceWriter UInt8 := encodeInteger index 6 0xc0

def encodeIndexedFieldDynamic (absoluteIndex base : Nat) : SliceWriter UInt8 :=
  encodeInteger (base - absoluteIndex - 1) 6 0x80

def encodeLiteralWithNameRefStatic (index : Nat) (value : Bytes) (neverIndexed useHuffman : Bool) :
    SliceWriter UInt8 :=
  (encodeInteger index 4 (if neverIndexed then 0x70 else 0x50)).andThen
    (encodeString value useHuffman)

def encodeLiteralWithNameRefDynamic (absoluteIndex : Nat) (value : Bytes) (base : Nat)
    (neverIndexed useHuffman : Bool) : SliceWriter UInt8 :=
  (encodeInteger (base - absoluteIndex - 1) 4 (if neverIndexed then 0x60 else 0x40)).andThen
    (encodeString value useHuffman)

def encodeLiteralWithLiteralName (name value : Bytes) (neverIndexed useHuffman : Bool) :
    SliceWriter UInt8 :=
  (encodeStringWithPrefix name 3 (if neverIndexed then 0x30 else 0x20) useHuffman).andThen
    (encodeString value useHuffman)

def encodeHeaderStaticOnly (useHuffman : Bool) (h : Header) : SliceWriter UInt8 :=
  match findStaticEntry h.name h.value with
  | (some index, _) => encodeIndexedFieldStatic index
  | (none, some index) => encodeLiteralWithNameRefStatic index h.value h.neverIndexed useHuffman
  | (none, none) => encodeLiteralWithLiteralName h.name h.value h.neverIndexed useHuffman

def encodeHeaderWithDynamic (t : DynamicTable) (useHuffman : Bool) (base : Nat) (h : Header) :
    SliceWriter UInt8 :=
  match t.findEntry h.name h.value, findStaticEntry h.name h.value with
  | (some absIndex, _), _ => encodeIndexedFieldDynamic absIndex base
  | (none, _), (some index, _) => encodeIndexedFieldStatic index
  | (none, some absIndex), (none, _) =>
    encodeLiteralWithNameRefDynamic absIndex h.value base h.neverIndexed useHuffman
  | (none, none), (none, some index) =>
    encodeLiteralWithNameRefStatic index h.value h.neverIndexed useHuffman
  | (none, none), (none, none) =>
    encodeLiteralWithLiteralName h.name h.value h.neverIndexed useHuffman

def encodeStaticOnly (e : DynamicEncoder) (headers : List Header) : SliceWriter UInt8 :=
  (encodeByte 0x00).andThen ((encodeByte 0x00).andThen
    (SliceWriter.each (encodeHeaderStaticOnly e.useHuffman) headers))

def encodeWithDynamic (e : DynamicEncoder) (headers : List Header) : SliceWriter UInt8 :=
  let ric := DynamicEncoder.requiredInsertCount e.table headers
  (encodeInteger (e.encodeRequiredInsertCount ric) 8 0x00).andThen ((encodeByte 0x00).andThen
    (SliceWriter.each (encodeHeaderWithDynamic e.table e.useHuffman ric) headers))

def encode (e : DynamicEncoder) (headers : List Header) (blockedStreams : Nat) : SliceWriter UInt8 :=
  if e.table.entries.isEmpty then encodeStaticOnly e headers
  else if e.maxTableCapacity = 0 then encodeStaticOnly e headers
  else if blockedStreams ≥ e.peerMaxBlockedStreams then encodeStaticOnly e headers
  else encodeWithDynamic e headers

/-! ## What they write -/

@[simp] theorem putAt_end (pre : Bytes) (byte : UInt8) : putAt pre pre.length byte = none := by
  simp [putAt]

@[simp] theorem putAt_behind (pre : Bytes) (old : UInt8) (rest : Bytes) (byte : UInt8) :
    putAt (pre ++ old :: rest) pre.length byte = some (pre ++ byte :: rest) := by
  simp [putAt]

theorem encodeByte_writes (byte : UInt8) : (encodeByte byte).Writes [byte] := by
  intro buf
  cases buf with
  | nil => rfl
  | cons old rest => simp [encodeByte, SliceWriter.copy, putAt]

/-- The groups are copied behind what was written before. -/
theorem encodeGroups_eq (fuel : Nat) (pre suf : Bytes) (remaining : Nat) :
    encodeGroups fuel (pre ++ suf) pre.length remaining =
      (SliceWriter.copy (integerGroups fuel remaining) suf).map
        fun r => (pre.length + r.1, pre ++ r.2) := by
  induction fuel generalizing pre suf remaining with
  | zero => simp [encodeGroups, integerGroups, SliceWriter.copy]
  | succ fuel ih =>
    unfold encodeGroups integerGroups
    cases suf with
    | nil =>
      rw [List.append_nil, putAt_end, putAt_end]
      split <;> simp [SliceWriter.copy]
    | cons old rest =>
      rw [putAt_behind, putAt_behind]
      split
      · -- one more byte is in front of what is left of the buffer
        have hnext := ih (pre ++ [0x80 ||| UInt8.ofNat (remaining &&& 0x7f)]) rest (remaining >>> 7)
        rw [List.length_append, List.length_singleton, List.append_assoc,
          List.singleton_append] at hnext
        simp only [hnext]
        unfold SliceWriter.copy
        simp only [List.length_cons, Nat.add_lt_add_iff_right, List.drop_succ_cons]
        split
        · rfl
        · simp [Nat.add_assoc, Nat.add_comm 1]
      · simp [SliceWriter.copy]

theorem encodeInteger_writes (value : Nat) {prefixBits : Nat} (hp : 0 < prefixBits)
    (hp8 : prefixBits ≤ 8) (high : UInt8) :
    (encodeInteger value prefixBits high).Writes (encodeIntegerToVec value prefixBits high) := by
  intro buf
  have hbits : ¬(prefixBits = 0 ∨ prefixBits > 8) := by omega
  simp only [encodeInteger, encodeIntegerToVec, if_neg hbits]
  by_cases hlt : value < 2 ^ prefixBits - 1
  · rw [if_pos hlt, if_pos hlt]
    exact encodeByte_writes _ buf
  · rw [if_neg hlt, if_neg hlt]
    cases buf with
    | nil => rfl
    | cons old rest =>
      have hfirst : putAt (old :: rest) 0 (high ||| UInt8.ofNat (2 ^ prefixBits - 1)) =
          some ((high ||| UInt8.ofNat (2 ^ prefixBits - 1)) :: rest) := putAt_behind [] old rest _
      have hgroups := encodeGroups_eq 10 [high ||| UInt8.ofNat (2 ^ prefixBits - 1)] rest
        (value - (2 ^ prefixBits - 1))
      rw [List.length_singleton, List.singleton_append] at hgroups
      simp only [hfirst, hgroups]
      unfold SliceWriter.copy
      simp only [List.length_cons, Nat.add_lt_add_iff_right, List.drop_succ_cons]
      split
      · rfl
      · simp [Nat.add_comm]

theorem encodeStringWithPrefix_writes (data : Bytes) {prefixBits : Nat} (hp : 0 < prefixBits)
    (hp8 : prefixBits ≤ 8) (high : UInt8) (useHuffman : Bool) :
    (encodeStringWithPrefix data prefixBits high useHuffman).Writes
      (Qpack.encodeStringWithPrefix data prefixBits high useHuffman) := by
  unfold encodeStringWithPrefix Qpack.encodeStringWithPrefix
  dsimp only
  split
  · exact (encodeInteger_writes _ hp hp8 _).andThen (Huffman.encodeInto_writes data)
  · exact (encodeInteger_writes _ hp hp8 _).andThen (.copy data)

theorem encodeString_writes (data : Bytes) (useHuffman : Bool) :
    (encodeString data useHuffman).Writes (Qpack.encodeString data useHuffman) :=
  encodeStringWithPrefix_writes data (by decide) (by decide) 0x00 useHuffman

theorem encodeLiteralWithLiteralName_writes (name value : Bytes) (neverIndexed useHuffman : Bool) :
    (encodeLiteralWithLiteralName name value neverIndexed useHuffman).Writes
      (Qpack.encodeLiteralWithLiteralName name value neverIndexed useHuffman) :=
  (encodeStringWithPrefix_writes name (by decide) (by decide) _ useHuffman).andThen
    (encodeString_writes value useHuffman)

/-- A line that refers to a name. -/
theorem encodeNameRef_writes (index : Nat) (high : UInt8) (value : Bytes) (useHuffman : Bool) :
    ((encodeInteger index 4 high).andThen (encodeString value useHuffman)).Writes
      (encodeIntegerToVec index 4 high ++ Qpack.encodeString value useHuffman) :=
  (encodeInteger_writes index (by decide) (by decide) high).andThen
    (encodeString_writes value useHuffman)

theorem encodeHeaderStaticOnly_writes (useHuffman : Bool) (h : Header) :
    (encodeHeaderStaticOnly useHuffman h).Writes (Qpack.encodeHeaderStaticOnly useHuffman h) := by
  unfold encodeHeaderStaticOnly Qpack.encodeHeaderStaticOnly
  rcases findStaticEntry h.name h.value with ⟨_ | i, _ | j⟩
  · exact encodeLiteralWithLiteralName_writes _ _ _ _
  · exact encodeNameRef_writes _ _ _ _
  · exact encodeInteger_writes _ (by decide) (by decide) _
  · exact encodeInteger_writes _ (by decide) (by decide) _

theorem encodeHeaderWithDynamic_writes (t : DynamicTable) (useHuffman : Bool) (base : Nat)
    (h : Header) : (encodeHeaderWithDynamic t useHuffman base h).Writes
      (Qpack.encodeHeaderWithDynamic t useHuffman h base) := by
  unfold encodeHeaderWithDynamic Qpack.encodeHeaderWithDynamic
  rcases t.findEntry h.name h.value with ⟨_ | a, b⟩
  · rcases findStaticEntry h.name h.value with ⟨_ | i, j⟩
    · rcases b with _ | b
      · rcases j with _ | j
        · exact encodeLiteralWithLiteralName_writes _ _ _ _
        · exact encodeNameRef_writes _ _ _ _
      · exact encodeNameRef_writes _ _ _ _
    · exact encodeInteger_writes _ (by decide) (by decide) _
  · exact encodeInteger_writes _ (by decide) (by decide) _

theorem encodeStaticOnly_writes (e : DynamicEncoder) (headers : List Header) :
    (encodeStaticOnly e headers).Writes (e.encodeStaticOnly headers) :=
  (encodeByte_writes 0x00).andThen ((encodeByte_writes 0x00).andThen
    (.each (encodeHeaderStaticOnly_writes e.useHuffman) headers))

theorem encodeWithDynamic_writes (e : DynamicEncoder) (headers : List Header) :
    (encodeWithDynamic e headers).Writes (e.encodeWithDynamic headers) :=
  (encodeInteger_writes _ (by decide) (by decide) _).andThen ((encodeByte_writes 0x00).andThen
    (.each (encodeHeaderWithDynamic_writes e.table e.useHuffman _) headers))

/-- The section that is written into a buffer is the one that a buffer of its size is asked for. -/
theorem encode_eq (e : DynamicEncoder) (headers : List Header) (blockedStreams : Nat) (buf : Bytes) :
    encode e headers blockedStreams buf =
      (e.encode buf.length headers blockedStreams).1.map fun written =>
        (written.length, written ++ buf.drop written.length) := by
  have hcopy : ∀ written : Bytes, SliceWriter.copy written buf =
      (fit buf.length written).map fun written =>
        (written.length, written ++ buf.drop written.length) := by
    intro written
    unfold SliceWriter.copy fit
    by_cases hfits : written.length ≤ buf.length
    · rw [if_neg (Nat.not_lt.mpr hfits), if_pos hfits, Option.map_some]
    · rw [if_pos (Nat.lt_of_not_le hfits), if_neg hfits, Option.map_none]
  unfold encode DynamicEncoder.encode DynamicEncoder.usesDynamic
  by_cases hempty : e.table.entries.isEmpty = true
  · simp [hempty, encodeStaticOnly_writes e headers buf, hcopy]
  · by_cases hcapacity : e.maxTableCapacity = 0
    · simp [hempty, hcapacity, encodeStaticOnly_writes e headers buf, hcopy]
    · by_cases hblocked : blockedStreams < e.peerMaxBlockedStreams
      · simp [hempty, hcapacity, hblocked, Nat.not_le.mpr hblocked,
          encodeWithDynamic_writes e headers buf, hcopy]
      · simp [hempty, hcapacity, hblocked, Nat.not_lt.mp hblocked,
          encodeStaticOnly_writes e headers buf, hcopy]

/-! ## The estimate -/

theorem encodeStringWithPrefix_length (data : Bytes) {prefixBits : Nat} (hp : 0 < prefixBits)
    (hp8 : prefixBits ≤ 8) (high : UInt8) :
    (Qpack.encodeStringWithPrefix data prefixBits high false).length =
      encodedStringLen data.length prefixBits := by
  unfold Qpack.encodeStringWithPrefix encodedStringLen
  dsimp only
  rw [if_neg (by simp), List.length_append, encodedIntegerLen_eq _ hp hp8]

/-- Without compression the estimate of a field is exact. -/
theorem encodeHeaderStaticOnly_length (h : Header) :
    (Qpack.encodeHeaderStaticOnly false h).length = estimateFieldSize h := by
  unfold Qpack.encodeHeaderStaticOnly estimateFieldSize
  have hvalue : ∀ value : Bytes, (Qpack.encodeString value false).length =
      encodedStringLen value.length 7 :=
    fun value => encodeStringWithPrefix_length value (by decide) (by decide) 0x00
  split
  · exact encodedIntegerLen_eq _ (by decide) (by decide) _
  · rw [Qpack.encodeLiteralWithNameRefStatic, List.length_append, hvalue,
      encodedIntegerLen_eq _ (by decide) (by decide)]
  · rw [Qpack.encodeLiteralWithLiteralName, List.length_append, hvalue,
      encodeStringWithPrefix_length _ (by decide) (by decide)]

theorem encodeStaticOnly_length {e : DynamicEncoder} (he : e.useHuffman = false)
    (headers : List Header) : (e.encodeStaticOnly headers).length = estimateEncodedSize headers := by
  have hfields : (headers.flatMap (Qpack.encodeHeaderStaticOnly false)).length =
      (headers.map estimateFieldSize).sum := by
    rw [List.length_flatMap]
    exact congrArg List.sum (List.map_congr_left fun h _ => encodeHeaderStaticOnly_length h)
  rw [DynamicEncoder.encodeStaticOnly, he, List.length_cons, List.length_cons, hfields,
    estimateEncodedSize]
  omega

end SliceEncoder

/-- **The estimate is enough**, and exact without compression; and a section is written as a whole
or not at all. -/
theorem size_estimate_safe (e : DynamicEncoder) (headers : List Header) :
    (∀ buf : Bytes, buf.length = estimateEncodedSize headers →
      ∃ n out, SliceEncoder.encodeStaticOnly e headers buf = some (n, out) ∧
        n ≤ estimateEncodedSize headers ∧
          (e.useHuffman = false → n = estimateEncodedSize headers)) ∧
      (SliceEncoder.encodeStaticOnly e headers).Writes (e.encodeStaticOnly headers) ∧
        (SliceEncoder.encodeWithDynamic e headers).Writes (e.encodeWithDynamic headers) ∧
          ∀ (blockedStreams : Nat) (buf : Bytes),
            SliceEncoder.encode e headers blockedStreams buf =
              (e.encode buf.length headers blockedStreams).1.map fun written =>
                (written.length, written ++ buf.drop written.length) := by
  refine ⟨fun buf hbuf => ?_, SliceEncoder.encodeStaticOnly_writes e headers,
    SliceEncoder.encodeWithDynamic_writes e headers, SliceEncoder.encode_eq e headers⟩
  have hle := e.encodeStaticOnly_length_le headers
  refine ⟨(e.encodeStaticOnly headers).length,
    e.encodeStaticOnly headers ++ buf.drop (e.encodeStaticOnly headers).length, ?_, hle,
    fun he => SliceEncoder.encodeStaticOnly_length he headers⟩
  rw [SliceEncoder.encodeStaticOnly_writes e headers buf, SliceWriter.copy, if_neg (by omega)]

end Http3.Qpack
