import Http3.Qpack.LineSyntax
import Http3.Qpack.WordReaders

/-!
# The decoder in machine words

The decoder of field sections once more, with its offsets, counts and indices in words. Guards stand
in front of every subtraction, and the counts leave room for the additions.
-/

namespace Http3.Qpack

/-! ## Lines end inside the section -/

theorem valueLine_fits {line : Bytes → WireLine} {data : Bytes} {offset n : Nat} {w : WireLine}
    (hoffset : offset ≤ data.length) (h : valueLine line data offset = .ok (w, n)) :
    n ≤ data.length := by
  obtain ⟨value, len, hvalue, -, rfl⟩ := valueLine_ok_iff.mp h
  have hfits : len ≤ (data.drop offset).length := (decodeStringWithPrefix_stable 7).fits hvalue
  rw [List.length_drop] at hfits
  omega

theorem parseLine_fits {data : Bytes} {w : WireLine} {n : Nat} (h : parseLine data = .ok (w, n)) :
    n ≤ data.length := by
  unfold parseLine at h
  split at h
  · cases h
  · split at h
    · cases h
    · rename_i value len hint
      have hlen := (decodeInteger_stable _).fits hint
      unfold lineBody at h
      split at h
      · cases h
        exact hlen
      · split at h
        · exact valueLine_fits hlen h
        · split at h
          · unfold literalLine at h
            split at h
            · cases h
            · rename_i name nameBytes hname
              have hfits := decodeStringWithLen_fits hname
              rw [List.length_drop] at hfits
              exact valueLine_fits (by omega) h
          · split at h
            · cases h
              exact hlen
            · exact valueLine_fits hlen h

theorem DynamicDecoder.decodeHeader_fits {t : DynamicTable} {base ric : Nat} {data : Bytes}
    {h : Header} {n : Nat} (hread : decodeHeader t data base ric = .ok (h, n)) : n ≤ data.length := by
  obtain ⟨w, hw, -⟩ := (decodeHeader_ok_iff t base ric data h n).mp hread
  exact parseLine_fits hw

namespace InWords

open Word (Exact)

/-! ## References -/

def getByAbsoluteIndex (t : DynamicTable) (absoluteIndex : Nat) : Checked (Option DynamicEntry) :=
  if absoluteIndex < t.droppedCount then pure none
  else if absoluteIndex ≥ t.insertCount then pure none
  else do
    let newest ← Word.sub t.insertCount 1
    let offset ← Word.sub newest absoluteIndex
    pure t.entries[offset]?

def getByRelativeIndexRepr (t : DynamicTable) (relativeIndex base : Nat) :
    Checked (Option DynamicEntry) :=
  if relativeIndex ≥ base then pure none
  else do
    let behind ← Word.sub base relativeIndex
    let absoluteIndex ← Word.sub behind 1
    getByAbsoluteIndex t absoluteIndex

def getByPostBaseIndex (t : DynamicTable) (postBaseIndex base : Nat) :
    Checked (Option DynamicEntry) :=
  match DynamicTable.checkedAdd base postBaseIndex with
  | none => pure none
  | some absoluteIndex => getByAbsoluteIndex t absoluteIndex

/-- An entry that is not there is an invalid index. -/
def orInvalid (index : Nat) : Option DynamicEntry → Checked DynamicEntry
  | some e => pure e
  | none => throw (.invalidIndex index)

/-- Whether a relative index names an entry that the section did not announce. -/
def isUnannounced (index base ric : Nat) : Checked Bool :=
  if index < base then do
    let behind ← Word.sub base index
    let absoluteIndex ← Word.sub behind 1
    pure (decide (absoluteIndex ≥ ric))
  else pure false

def relativeEntry (t : DynamicTable) (index base ric : Nat) : Checked DynamicEntry := do
  let unannounced ← isUnannounced index base ric
  if unannounced then throw .decodeFailed
  else do
    let entry ← getByRelativeIndexRepr t index base
    orInvalid index entry

def postBaseEntry (t : DynamicTable) (index base ric : Nat) : Checked DynamicEntry :=
  match DynamicTable.checkedAdd base index with
  | none => throw .decodeFailed
  | some absoluteIndex =>
    if absoluteIndex ≥ ric then throw .decodeFailed
    else do
      let entry ← getByPostBaseIndex t index base
      orInvalid index entry

/-! ## Field lines -/

def withValue (name data : Bytes) (offset : Nat) : Checked (Header × Nat) := do
  let (value, valueLen) ← decodeString (data.drop offset)
  let offset ← Word.add 64 offset valueLen
  pure (.fromDecoded name value, offset)

def decodeIndexedField (t : DynamicTable) (first : UInt8) (data : Bytes) (base ric : Nat) :
    Checked (Header × Nat) := do
  let (index, consumed) ← decodeInteger data 6
  if first &&& 0x40 != 0 then do
    let h ← Word.ofExcept (DynamicDecoder.staticEntry index)
    pure (h, consumed)
  else do
    let e ← relativeEntry t index base ric
    pure (.fromDecoded e.name e.value, consumed)

def decodeIndexedFieldPostBase (t : DynamicTable) (data : Bytes) (base ric : Nat) :
    Checked (Header × Nat) := do
  let (index, consumed) ← decodeInteger data 4
  let e ← postBaseEntry t index base ric
  pure (.fromDecoded e.name e.value, consumed)

/-- The name that a line refers to. -/
def nameOf (t : DynamicTable) (isStatic : Bool) (index base ric : Nat) : Checked Bytes :=
  if isStatic then do
    let h ← Word.ofExcept (DynamicDecoder.staticEntry index)
    pure h.name
  else do
    let e ← relativeEntry t index base ric
    pure e.name

def decodeLiteralWithNameRef (t : DynamicTable) (first : UInt8) (data : Bytes) (base ric : Nat) :
    Checked (Header × Nat) := do
  let (index, indexLen) ← decodeInteger data 4
  let offset ← Word.add 64 0 indexLen
  let name ← nameOf t (first &&& 0x10 != 0) index base ric
  withValue name data offset

def decodeLiteralWithPostBaseNameRef (t : DynamicTable) (data : Bytes) (base ric : Nat) :
    Checked (Header × Nat) := do
  let (index, indexLen) ← decodeInteger data 3
  let offset ← Word.add 64 0 indexLen
  let e ← postBaseEntry t index base ric
  withValue e.name data offset

def decodeLiteralWithLiteralName (first : UInt8) (data : Bytes) : Checked (Header × Nat) := do
  let (nameLen, prefixLen) ← decodeInteger data 3
  let offset ← Word.add 64 0 prefixLen
  let (name, nameBytes) ← decodeStringWithLen (data.drop offset) nameLen (first &&& 0x08 != 0)
  let offset ← Word.add 64 offset nameBytes
  withValue name data offset

def decodeHeader (t : DynamicTable) (data : Bytes) (base ric : Nat) : Checked (Header × Nat) :=
  match data with
  | [] => throw .bufferTooShort
  | first :: _ =>
    if first &&& 0x80 != 0 then decodeIndexedField t first data base ric
    else if first &&& 0x40 != 0 then decodeLiteralWithNameRef t first data base ric
    else if first &&& 0x20 != 0 then decodeLiteralWithLiteralName first data
    else if first &&& 0x10 != 0 then decodeIndexedFieldPostBase t data base ric
    else decodeLiteralWithPostBaseNameRef t data base ric

/-! ## Sections -/

def decodeFields (t : DynamicTable) (maxFieldSectionSize base ric : Nat) :
    Nat → Nat → Nat → Bytes → Checked (List Header)
  | 0, _, _, _ => pure []
  | fuel + 1, totalSize, offset, data =>
    if data.isEmpty then pure []
    else do
      let (h, consumed) ← decodeHeader t data base ric
      let lengths ← Word.add 64 h.name.length h.value.length
      let size ← Word.add 64 lengths 32
      let totalSize ← Word.add 64 totalSize size
      if totalSize > maxFieldSectionSize then throw .decodeFailed
      else do
        let offset ← Word.add 64 offset consumed
        let hs ← decodeFields t maxFieldSectionSize base ric fuel totalSize offset
          (data.drop consumed)
        pure (h :: hs)

def nonzero (req : Nat) : Checked Nat := if req = 0 then throw .decodeFailed else pure req

def decodeRequiredInsertCount (d : DynamicDecoder) (encInsertCount : Nat) : Checked Nat :=
  if encInsertCount = 0 then pure 0
  else
    let maxEntries := d.maxTableCapacity / 32
    if maxEntries = 0 then throw .decodeFailed
    else do
      let fullRange ← Word.mul 64 2 maxEntries
      if encInsertCount > fullRange then throw .decodeFailed
      else do
        let maxValue ← Word.add 64 d.table.insertCount maxEntries
        let rounds ← Word.div maxValue fullRange
        let maxWrapped ← Word.mul 64 rounds fullRange
        let next ← Word.add 64 maxWrapped encInsertCount
        let req ← Word.sub next 1
        if req > maxValue then
          if req ≤ fullRange then throw .decodeFailed
          else do
            let req ← Word.sub req fullRange
            nonzero req
        else nonzero req

def decodeBase (first : UInt8) (deltaBase ric : Nat) : Checked Nat :=
  if first &&& 0x80 != 0 then
    if ric ≤ deltaBase then throw .decodeFailed
    else do
      let behind ← Word.sub ric deltaBase
      Word.sub behind 1
  else
    match DynamicTable.checkedAdd ric deltaBase with
    | some base => pure base
    | none => throw .decodeFailed

/-- What follows the Required Insert Count, which ended at `offset`. -/
def decodeRest (d : DynamicDecoder) (ric offset : Nat) (rest : Bytes) : Checked DecodeOutput :=
  match rest with
  | [] => throw .bufferTooShort
  | first :: _ => do
    let (deltaBase, deltaLen) ← decodeInteger rest 7
    let offset ← Word.add 64 offset deltaLen
    let base ← decodeBase first deltaBase ric
    let hs ← decodeFields d.table d.maxFieldSectionSize base ric rest.length 0 offset
      (rest.drop deltaLen)
    pure (.decoded hs)

def decode (d : DynamicDecoder) (data : Bytes) : Checked DecodeOutput :=
  if data.length < 2 then throw .bufferTooShort
  else do
    let (encInsertCount, ricLen) ← decodeInteger data 8
    let offset ← Word.add 64 0 ricLen
    let ric ← decodeRequiredInsertCount d encInsertCount
    if ric > 0 ∧ d.table.insertCount < ric then pure .blocked
    else decodeRest d ric offset (data.drop offset)

/-! ## No overflow in the references -/

theorem getByAbsoluteIndex_exact (t : DynamicTable) (absoluteIndex : Nat) :
    Exact (getByAbsoluteIndex t absoluteIndex) (.ok (t.getByAbsoluteIndex absoluteIndex)) := by
  unfold getByAbsoluteIndex DynamicTable.getByAbsoluteIndex
  split
  · exact Exact.ok _
  · split
    · exact Exact.ok _
    · rename_i hlast
      apply Exact.step (Word.sub_eq (by omega))
      apply Exact.step (Word.sub_eq (by omega))
      exact Exact.ok _

theorem getByRelativeIndexRepr_exact (t : DynamicTable) (relativeIndex base : Nat) :
    Exact (getByRelativeIndexRepr t relativeIndex base)
      (.ok (t.getByRelativeIndexRepr relativeIndex base)) := by
  unfold getByRelativeIndexRepr DynamicTable.getByRelativeIndexRepr
  split
  · exact Exact.ok _
  · apply Exact.step (Word.sub_eq (by omega))
    apply Exact.step (Word.sub_eq (by omega))
    exact getByAbsoluteIndex_exact t _

theorem getByPostBaseIndex_exact (t : DynamicTable) (postBaseIndex base : Nat) :
    Exact (getByPostBaseIndex t postBaseIndex base)
      (.ok (t.getByPostBaseIndex postBaseIndex base)) := by
  unfold getByPostBaseIndex DynamicTable.getByPostBaseIndex
  cases DynamicTable.checkedAdd base postBaseIndex with
  | none => exact Exact.ok _
  | some absoluteIndex => exact getByAbsoluteIndex_exact t absoluteIndex

theorem isUnannounced_exact (index base ric : Nat) :
    Exact (isUnannounced index base ric)
      (.ok (decide (index < base ∧ base - index - 1 ≥ ric))) := by
  unfold isUnannounced
  by_cases hindex : index < base
  · simp only [hindex, if_true, true_and]
    apply Exact.step (Word.sub_eq hindex.le)
    apply Exact.step (Word.sub_eq (by omega))
    exact Exact.ok _
  · simp only [hindex, if_false, false_and, decide_false]
    exact Exact.ok _

theorem relativeEntry_exact (t : DynamicTable) (index base ric : Nat) :
    Exact (relativeEntry t index base ric) (DynamicDecoder.relativeEntry t index base ric) := by
  unfold relativeEntry DynamicDecoder.relativeEntry
  apply (isUnannounced_exact index base ric).bind
  simp only [decide_eq_true_eq]
  apply Exact.ite (fun _ => Exact.error _)
  intro _
  apply (getByRelativeIndexRepr_exact t index base).bind
  cases t.getByRelativeIndexRepr index base with
  | none => exact Exact.error _
  | some e => exact Exact.ok e

theorem postBaseEntry_exact (t : DynamicTable) (index base ric : Nat) :
    Exact (postBaseEntry t index base ric) (DynamicDecoder.postBaseEntry t index base ric) := by
  unfold postBaseEntry DynamicDecoder.postBaseEntry
  cases DynamicTable.checkedAdd base index with
  | none => exact Exact.error _
  | some absoluteIndex =>
    apply Exact.ite (fun _ => Exact.error _)
    intro _
    apply (getByPostBaseIndex_exact t index base).bind
    cases t.getByPostBaseIndex index base with
    | none => exact Exact.error _
    | some e => exact Exact.ok e

/-! ## No overflow in a line -/

theorem decodeIndexedField_exact (t : DynamicTable) (first : UInt8) (data : Bytes) (base ric : Nat) :
    Exact (decodeIndexedField t first data base ric)
      (DynamicDecoder.decodeIndexedField t first data base ric) := by
  have hint := decodeInteger_exact data 6
  unfold decodeIndexedField DynamicDecoder.decodeIndexedField
  rcases hread : Qpack.decodeInteger data 6 with e | ⟨index, consumed⟩
  · rw [hread] at hint
    exact hint.bind_error
  · rw [hread] at hint
    apply hint.bind
    apply Exact.ite
    · intro _
      exact (Exact.ofExcept _).map fun h => (h, consumed)
    · intro _
      exact (relativeEntry_exact t index base ric).map fun e =>
        (Header.fromDecoded e.name e.value, consumed)

theorem decodeIndexedFieldPostBase_exact (t : DynamicTable) (data : Bytes) (base ric : Nat) :
    Exact (decodeIndexedFieldPostBase t data base ric)
      (DynamicDecoder.decodeIndexedFieldPostBase t data base ric) := by
  have hint := decodeInteger_exact data 4
  unfold decodeIndexedFieldPostBase DynamicDecoder.decodeIndexedFieldPostBase
  rcases hread : Qpack.decodeInteger data 4 with e | ⟨index, consumed⟩
  · rw [hread] at hint
    exact hint.bind_error
  · rw [hread] at hint
    apply hint.bind
    exact (postBaseEntry_exact t index base ric).map fun e =>
      (Header.fromDecoded e.name e.value, consumed)

theorem nameOf_exact (t : DynamicTable) (isStatic : Bool) (index base ric : Nat) :
    Exact (nameOf t isStatic index base ric)
      (if isStatic then (DynamicDecoder.staticEntry index).map Header.name
        else (DynamicDecoder.relativeEntry t index base ric).map DynamicEntry.name) := by
  apply Exact.ite
  · intro _
    exact (Exact.ofExcept _).map Header.name
  · intro _
    exact (relativeEntry_exact t index base ric).map DynamicEntry.name

section Lines

variable {data : Bytes} (hdata : data.length < 2 ^ 63)

include hdata

theorem withValue_exact (name : Bytes) {offset : Nat} (hoffset : offset ≤ data.length) :
    Exact (withValue name data offset) (DynamicDecoder.withValue name data offset) := by
  have hrest : (data.drop offset).length = data.length - offset := List.length_drop
  have hshort : (data.drop offset).length < 2 ^ 63 := by omega
  have hstring := decodeString_exact hshort
  unfold withValue DynamicDecoder.withValue
  rcases hread : Qpack.decodeString (data.drop offset) with e | ⟨value, valueLen⟩
  · rw [hread] at hstring
    exact hstring.bind_error
  · rw [hread] at hstring
    have hfits : valueLen ≤ (data.drop offset).length := (decodeStringWithPrefix_stable 7).fits hread
    apply hstring.bind
    apply Exact.step (Word.add_eq (by omega))
    exact Exact.ok _

theorem decodeLiteralWithNameRef_exact (t : DynamicTable) (first : UInt8) (base ric : Nat) :
    Exact (decodeLiteralWithNameRef t first data base ric)
      (DynamicDecoder.decodeLiteralWithNameRef t first data base ric) := by
  have hint := decodeInteger_exact data 4
  unfold decodeLiteralWithNameRef DynamicDecoder.decodeLiteralWithNameRef
  rcases hread : Qpack.decodeInteger data 4 with e | ⟨index, indexLen⟩
  · rw [hread] at hint
    exact hint.bind_error
  · rw [hread] at hint
    have hfits : indexLen ≤ data.length := (decodeInteger_stable 4).fits hread
    apply hint.bind
    apply Exact.step (Word.add_eq (by omega))
    rw [Nat.zero_add]
    have hname := nameOf_exact t (first &&& 0x10 != 0) index base ric
    dsimp only
    generalize hresult : (if first &&& 0x10 != 0 then _ else _ : Except QpackError Bytes) = r at hname ⊢
    cases r with
    | error e => exact hname.bind_error
    | ok name =>
      apply hname.bind
      exact withValue_exact hdata name hfits

theorem decodeLiteralWithPostBaseNameRef_exact (t : DynamicTable) (base ric : Nat) :
    Exact (decodeLiteralWithPostBaseNameRef t data base ric)
      (DynamicDecoder.decodeLiteralWithPostBaseNameRef t data base ric) := by
  have hint := decodeInteger_exact data 3
  unfold decodeLiteralWithPostBaseNameRef DynamicDecoder.decodeLiteralWithPostBaseNameRef
  rcases hread : Qpack.decodeInteger data 3 with e | ⟨index, indexLen⟩
  · rw [hread] at hint
    exact hint.bind_error
  · rw [hread] at hint
    have hfits : indexLen ≤ data.length := (decodeInteger_stable 3).fits hread
    apply hint.bind
    apply Exact.step (Word.add_eq (by omega))
    rw [Nat.zero_add]
    have hentry := postBaseEntry_exact t index base ric
    dsimp only
    cases hresult : DynamicDecoder.postBaseEntry t index base ric with
    | error e =>
      rw [hresult] at hentry
      exact hentry.bind_error
    | ok e =>
      rw [hresult] at hentry
      apply hentry.bind
      exact withValue_exact hdata e.name hfits

theorem decodeLiteralWithLiteralName_exact (first : UInt8) :
    Exact (decodeLiteralWithLiteralName first data)
      (DynamicDecoder.decodeLiteralWithLiteralName first data) := by
  have hint := decodeInteger_exact data 3
  unfold decodeLiteralWithLiteralName DynamicDecoder.decodeLiteralWithLiteralName
  rcases hread : Qpack.decodeInteger data 3 with e | ⟨nameLen, prefixLen⟩
  · rw [hread] at hint
    exact hint.bind_error
  · rw [hread] at hint
    have hfits : prefixLen ≤ data.length := (decodeInteger_stable 3).fits hread
    apply hint.bind
    apply Exact.step (Word.add_eq (by omega))
    rw [Nat.zero_add]
    have hstring := decodeStringWithLen_exact (data.drop prefixLen) nameLen (first &&& 0x08 != 0)
    dsimp only
    rcases hname : Qpack.decodeStringWithLen (data.drop prefixLen) nameLen (first &&& 0x08 != 0)
      with e | ⟨name, nameBytes⟩
    · rw [hname] at hstring
      exact hstring.bind_error
    · rw [hname] at hstring
      have hbytes := decodeStringWithLen_fits hname
      rw [List.length_drop] at hbytes
      apply hstring.bind
      apply Exact.step (Word.add_eq (by omega))
      exact withValue_exact hdata name (by omega)

theorem decodeHeader_exact (t : DynamicTable) (base ric : Nat) :
    Exact (decodeHeader t data base ric) (DynamicDecoder.decodeHeader t data base ric) := by
  cases data with
  | nil => exact Exact.error _
  | cons first rest =>
    apply Exact.ite (fun _ => decodeIndexedField_exact t first _ base ric)
    intro _
    apply Exact.ite (fun _ => decodeLiteralWithNameRef_exact hdata t first base ric)
    intro _
    apply Exact.ite (fun _ => decodeLiteralWithLiteralName_exact hdata first)
    intro _
    apply Exact.ite (fun _ => decodeIndexedFieldPostBase_exact t _ base ric)
    intro _
    exact decodeLiteralWithPostBaseNameRef_exact hdata t base ric

end Lines

/-! ## No overflow in a section -/

theorem nonzero_exact (req : Nat) :
    Exact (nonzero req) (if req = 0 then .error .decodeFailed else .ok req) :=
  Exact.ite (fun _ => Exact.error _) fun _ => Exact.ok _

/-- The counts leave two bits for the additions. -/
theorem decodeRequiredInsertCount_exact {d : DynamicDecoder} (hcapacity : d.maxTableCapacity < 2 ^ 62)
    (hcount : d.table.insertCount < 2 ^ 62) (encInsertCount : Nat) :
    Exact (decodeRequiredInsertCount d encInsertCount)
      (d.decodeRequiredInsertCount encInsertCount) := by
  unfold decodeRequiredInsertCount DynamicDecoder.decodeRequiredInsertCount
  apply Exact.ite (fun _ => Exact.ok _)
  intro hzero
  dsimp only
  generalize hentries : d.maxTableCapacity / 32 = maxEntries
  have hmax : maxEntries < 2 ^ 62 := by omega
  apply Exact.ite (fun _ => Exact.error _)
  intro hpos
  apply Exact.step (Word.mul_eq (by omega))
  apply Exact.ite (fun _ => Exact.error _)
  intro hrange
  generalize hvalue : d.table.insertCount + maxEntries = maxValue
  have hwrapped : maxValue / (2 * maxEntries) * (2 * maxEntries) ≤ maxValue :=
    Nat.div_mul_le_self maxValue (2 * maxEntries)
  apply Exact.step (Word.add_eq (by omega))
  rw [hvalue]
  apply Exact.step (Word.div_eq (by omega))
  apply Exact.step (Word.mul_eq (by omega))
  generalize maxValue / (2 * maxEntries) * (2 * maxEntries) = maxWrapped at hwrapped ⊢
  apply Exact.step (Word.add_eq (by omega))
  apply Exact.step (Word.sub_eq (by omega))
  by_cases hover : maxWrapped + encInsertCount - 1 > maxValue
  · simp only [hover, if_true, true_and]
    apply Exact.ite (fun _ => Exact.error _)
    intro hfull
    apply Exact.step (Word.sub_eq (by omega))
    exact nonzero_exact _
  · simp only [hover, if_false, false_and]
    exact nonzero_exact _

theorem decodeBase_exact (first : UInt8) (deltaBase ric : Nat) :
    Exact (decodeBase first deltaBase ric) (DynamicDecoder.decodeBase first deltaBase ric) := by
  apply Exact.ite
  · intro _
    apply Exact.ite (fun _ => Exact.error _)
    intro hric
    apply Exact.step (Word.sub_eq (by omega))
    exact Exact.lift (Word.sub_eq (by omega))
  · intro _
    cases DynamicTable.checkedAdd ric deltaBase with
    | none => exact Exact.error _
    | some base => exact Exact.ok base

/-- Only the size of all the fields together could be too large for a word. -/
theorem decodeFields_exact (t : DynamicTable)
    (maxFieldSectionSize base ric fuel totalSize offset : Nat) (data : Bytes) (hdata : offset + data.length < 2 ^ 63) :
    Exact (decodeFields t maxFieldSectionSize base ric fuel totalSize offset data)
      (DynamicDecoder.decodeFields t maxFieldSectionSize base ric fuel totalSize data) ∨
    ∃ hs rest, Reader.Items (DynamicDecoder.decodeHeader t · base ric) data hs rest ∧
      2 ^ 64 ≤ totalSize + (hs.map Header.size).sum := by
  induction fuel generalizing totalSize offset data with
  | zero => exact .inl (Exact.ok _)
  | succ fuel ih =>
    have hshort : data.length < 2 ^ 63 := by omega
    have hheader := decodeHeader_exact hshort t base ric
    unfold decodeFields DynamicDecoder.decodeFields
    by_cases hempty : data.isEmpty = true
    · rw [if_pos hempty, if_pos hempty]
      exact .inl (Exact.ok _)
    · rw [if_neg hempty, if_neg hempty]
      rcases hread : DynamicDecoder.decodeHeader t data base ric with e | ⟨h, consumed⟩
      · rw [hread] at hheader
        exact .inl hheader.bind_error
      · rw [hread] at hheader
        have hfits := DynamicDecoder.decodeHeader_fits hread
        have hsize : h.size = h.name.length + h.value.length + 32 := rfl
        by_cases hmemory : 2 ^ 64 ≤ totalSize + h.size
        · exact .inr ⟨[h], data.drop consumed, .cons hread (.nil _), by simpa using hmemory⟩
        · have hnext := @ih (totalSize + h.size) (offset + consumed) (data.drop consumed)
            (by rw [List.length_drop]; omega)
          dsimp only
          rcases hnext with hnext | ⟨hs, rest, hitems, hlarge⟩
          · left
            apply hheader.bind
            dsimp only
            apply Exact.step (Word.add_eq (by omega))
            apply Exact.step (Word.add_eq (by omega))
            apply Exact.step (Word.add_eq (by omega))
            apply Exact.ite (fun _ => Exact.error _)
            intro _
            apply Exact.step (Word.add_eq (by omega))
            rw [← hsize]
            generalize hfields : DynamicDecoder.decodeFields t maxFieldSectionSize base ric fuel
              (totalSize + h.size) (data.drop consumed) = r at hnext ⊢
            cases r with
            | error e => exact hnext.bind_error
            | ok hs => exact hnext.bind (Exact.ok _)
          · right
            refine ⟨h :: hs, rest, .cons hread hitems, ?_⟩
            rw [List.map_cons, List.sum_cons]
            omega

theorem decodeRest_exact (d : DynamicDecoder) (ric offset : Nat) (rest : Bytes)
    (hrest : offset + rest.length < 2 ^ 63) :
    Exact (decodeRest d ric offset rest) (d.decodeRest ric rest) ∨
    ∃ first tail deltaBase n base hs left, rest = first :: tail ∧
      Qpack.decodeInteger rest 7 = .ok (deltaBase, n) ∧
      DynamicDecoder.decodeBase first deltaBase ric = .ok base ∧
      Reader.Items (DynamicDecoder.decodeHeader d.table · base ric) (rest.drop n) hs left ∧
        2 ^ 64 ≤ (hs.map Header.size).sum := by
  cases rest with
  | nil => exact .inl (Exact.error _)
  | cons first tail =>
    have hint := decodeInteger_exact (first :: tail) 7
    unfold decodeRest DynamicDecoder.decodeRest
    dsimp only
    rcases hdelta : Qpack.decodeInteger (first :: tail) 7 with e | ⟨deltaBase, deltaLen⟩
    · rw [hdelta] at hint
      exact .inl hint.bind_error
    · rw [hdelta] at hint
      have hfits : deltaLen ≤ (first :: tail).length := (decodeInteger_stable 7).fits hdelta
      have hoffset : Word.add 64 offset deltaLen = some (offset + deltaLen) :=
        Word.add_eq (by omega)
      have hbase := decodeBase_exact first deltaBase ric
      dsimp only
      rcases hb : DynamicDecoder.decodeBase first deltaBase ric with e | base
      · rw [hb] at hbase
        exact .inl (hint.bind (Exact.step hoffset hbase.bind_error))
      · rw [hb] at hbase
        have hfields := decodeFields_exact d.table d.maxFieldSectionSize base ric
          (first :: tail).length 0 (offset + deltaLen) ((first :: tail).drop deltaLen)
          (by rw [List.length_drop]; omega)
        rcases hfields with hfields | ⟨hs, left, hitems, hlarge⟩
        · exact .inl (hint.bind (Exact.step hoffset (hbase.bind (hfields.map DecodeOutput.decoded))))
        · rw [Nat.zero_add] at hlarge
          exact .inr ⟨first, tail, deltaBase, deltaLen, base, hs, left, rfl, rfl, hb, hitems, hlarge⟩

/-- **No operation overflows**, unless the fields of a section take 2^64 bytes together. -/
theorem decode_exact {d : DynamicDecoder} (hcapacity : d.maxTableCapacity < 2 ^ 62)
    (hcount : d.table.insertCount < 2 ^ 62) {data : Bytes} (hdata : data.length < 2 ^ 63) :
    Exact (decode d data) (d.decode data).1 ∨
    ∃ ric base lines hs left, d.Announces data ric base lines ∧
      Reader.Items (DynamicDecoder.decodeHeader d.table · base ric) lines hs left ∧
        2 ^ 64 ≤ (hs.map Header.size).sum := by
  have hint := decodeInteger_exact data 8
  unfold decode DynamicDecoder.decode
  by_cases hshort : data.length < 2
  · rw [if_pos hshort, if_pos hshort]
    exact .inl (Exact.error _)
  · rw [if_neg hshort, if_neg hshort]
    rcases henc : Qpack.decodeInteger data 8 with e | ⟨encInsertCount, ricLen⟩
    · rw [henc] at hint
      exact .inl hint.bind_error
    · rw [henc] at hint
      have hfits : ricLen ≤ data.length := (decodeInteger_stable 8).fits henc
      have hcounts := decodeRequiredInsertCount_exact hcapacity hcount encInsertCount
      have hoffset : Word.add 64 0 ricLen = some ricLen := by
        rw [Word.add_eq (by omega), Nat.zero_add]
      dsimp only
      rcases hric : d.decodeRequiredInsertCount encInsertCount with e | ric
      · rw [hric] at hcounts
        exact .inl (hint.bind (Exact.step hoffset hcounts.bind_error))
      · rw [hric] at hcounts
        dsimp only
        by_cases hblocked : ric > 0 ∧ d.table.insertCount < ric
        · rw [if_pos hblocked]
          refine .inl (hint.bind (Exact.step hoffset (hcounts.bind ?_)))
          rw [if_pos hblocked]
          exact Exact.ok _
        · rw [if_neg hblocked]
          have hrest := decodeRest_exact d ric ricLen (data.drop ricLen)
            (by rw [List.length_drop]; omega)
          rcases hrest with hrest | ⟨first, tail, deltaBase, n, base, hs, left, hdrop, hdelta, hbase,
            hitems, hlarge⟩
          · refine .inl (hint.bind (Exact.step hoffset (hcounts.bind ?_)))
            rw [if_neg hblocked]
            exact hrest
          · rw [hdrop] at hdelta hitems
            exact .inr ⟨ric, base, _, hs, left, ⟨encInsertCount, first, deltaBase,
              ⟨Nat.le_of_not_lt hshort, ricLen, tail, n, henc, hdrop, hdelta, rfl⟩, hric, hbase⟩,
              hitems, hlarge⟩

end InWords

end Http3.Qpack
