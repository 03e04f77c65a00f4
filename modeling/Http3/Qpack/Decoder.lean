import Http3.Qpack.Wire
import Http3.Qpack.DynamicTable

/-!
# The decoder of field sections

`decode` first recovers the Required Insert Count from its residue and the number of inserts seen
so far; a section that needs more inserts is blocked.
-/

namespace Http3.Qpack

inductive DecodeOutput where
  | decoded (headers : List Header)
  | blocked
  deriving DecidableEq

structure DynamicDecoder where
  table : DynamicTable
  maxFieldSectionSize : Nat
  maxTableCapacity : Nat
  lastRequiredInsertCount : Nat
  deriving DecidableEq

namespace DynamicDecoder

def new : DynamicDecoder where
  table := .new
  maxFieldSectionSize := 16 * 1024
  maxTableCapacity := 0
  lastRequiredInsertCount := 0

def setMaxTableCapacity (d : DynamicDecoder) (capacity : Nat) : DynamicDecoder :=
  { d with maxTableCapacity := capacity }

def setMaxFieldSectionSize (d : DynamicDecoder) (size : Nat) : DynamicDecoder :=
  { d with maxFieldSectionSize := size }

/-! ## Field lines -/

def staticEntry (index : Nat) : Except QpackError Header :=
  match getStaticEntry index with
  | some h => .ok h
  | none => .error (.invalidIndex index)

/-- The entry a relative index names; an entry that the section did not announce is an error. -/
def relativeEntry (t : DynamicTable) (index base ric : Nat) : Except QpackError DynamicEntry :=
  if index < base ∧ base - index - 1 ≥ ric then .error .decodeFailed
  else
    match t.getByRelativeIndexRepr index base with
    | some e => .ok e
    | none => .error (.invalidIndex index)

def postBaseEntry (t : DynamicTable) (index base ric : Nat) : Except QpackError DynamicEntry :=
  match DynamicTable.checkedAdd base index with
  | none => .error .decodeFailed
  | some absoluteIndex =>
    if absoluteIndex ≥ ric then .error .decodeFailed
    else
      match t.getByPostBaseIndex index base with
      | some e => .ok e
      | none => .error (.invalidIndex index)

/-- A name that is known, followed by a value string at `offset`. -/
def withValue (name : Bytes) (data : Bytes) (offset : Nat) : Except QpackError (Header × Nat) :=
  match decodeString (data.drop offset) with
  | .error e => .error e
  | .ok (value, valueLen) => .ok (.fromDecoded name value, offset + valueLen)

def decodeIndexedField (t : DynamicTable) (first : UInt8) (data : Bytes) (base ric : Nat) :
    Except QpackError (Header × Nat) :=
  match decodeInteger data 6 with
  | .error e => .error e
  | .ok (index, consumed) =>
    if first &&& 0x40 != 0 then (staticEntry index).map fun h => (h, consumed)
    else (relativeEntry t index base ric).map fun e => (.fromDecoded e.name e.value, consumed)

def decodeIndexedFieldPostBase (t : DynamicTable) (data : Bytes) (base ric : Nat) :
    Except QpackError (Header × Nat) :=
  match decodeInteger data 4 with
  | .error e => .error e
  | .ok (index, consumed) =>
    (postBaseEntry t index base ric).map fun e => (.fromDecoded e.name e.value, consumed)

def decodeLiteralWithNameRef (t : DynamicTable) (first : UInt8) (data : Bytes) (base ric : Nat) :
    Except QpackError (Header × Nat) :=
  match decodeInteger data 4 with
  | .error e => .error e
  | .ok (index, indexLen) =>
    let name :=
      if first &&& 0x10 != 0 then (staticEntry index).map Header.name
      else (relativeEntry t index base ric).map DynamicEntry.name
    match name with
    | .error e => .error e
    | .ok name => withValue name data indexLen

def decodeLiteralWithPostBaseNameRef (t : DynamicTable) (data : Bytes) (base ric : Nat) :
    Except QpackError (Header × Nat) :=
  match decodeInteger data 3 with
  | .error e => .error e
  | .ok (index, indexLen) =>
    match postBaseEntry t index base ric with
    | .error e => .error e
    | .ok e => withValue e.name data indexLen

def decodeLiteralWithLiteralName (first : UInt8) (data : Bytes) :
    Except QpackError (Header × Nat) :=
  match decodeInteger data 3 with
  | .error e => .error e
  | .ok (nameLen, prefixLen) =>
    match decodeStringWithLen (data.drop prefixLen) nameLen (first &&& 0x08 != 0) with
    | .error e => .error e
    | .ok (name, nameBytes) => withValue name data (prefixLen + nameBytes)

def decodeHeader (t : DynamicTable) (data : Bytes) (base ric : Nat) :
    Except QpackError (Header × Nat) :=
  match data with
  | [] => .error .bufferTooShort
  | first :: _ =>
    if first &&& 0x80 != 0 then decodeIndexedField t first data base ric
    else if first &&& 0x40 != 0 then decodeLiteralWithNameRef t first data base ric
    else if first &&& 0x20 != 0 then decodeLiteralWithLiteralName first data
    else if first &&& 0x10 != 0 then decodeIndexedFieldPostBase t data base ric
    else decodeLiteralWithPostBaseNameRef t data base ric

/-! ## Sections -/

/-- The fields up to the end of the section; every field takes a byte, so the length of the
section bounds their number. -/
def decodeFields (t : DynamicTable) (maxFieldSectionSize base ric : Nat) :
    Nat → Nat → Bytes → Except QpackError (List Header)
  | 0, _, _ => .ok []
  | fuel + 1, totalSize, data =>
    if data.isEmpty then .ok []
    else
      match decodeHeader t data base ric with
      | .error e => .error e
      | .ok (h, consumed) =>
        let totalSize := totalSize + h.size
        if totalSize > maxFieldSectionSize then .error .decodeFailed
        else
          match decodeFields t maxFieldSectionSize base ric fuel totalSize (data.drop consumed) with
          | .error e => .error e
          | .ok hs => .ok (h :: hs)

def decodeRequiredInsertCount (d : DynamicDecoder) (encInsertCount : Nat) :
    Except QpackError Nat :=
  if encInsertCount = 0 then .ok 0
  else
    let maxEntries := d.maxTableCapacity / 32
    let fullRange := 2 * maxEntries
    if maxEntries = 0 then .error .decodeFailed
    else if encInsertCount > fullRange then .error .decodeFailed
    else
      let maxValue := d.table.insertCount + maxEntries
      let maxWrapped := maxValue / fullRange * fullRange
      let req := maxWrapped + encInsertCount - 1
      if req > maxValue ∧ req ≤ fullRange then .error .decodeFailed
      else
        let req := if req > maxValue then req - fullRange else req
        if req = 0 then .error .decodeFailed else .ok req

/-- The base of a section, from its sign bit and its distance to the insert count. -/
def decodeBase (first : UInt8) (deltaBase ric : Nat) : Except QpackError Nat :=
  if first &&& 0x80 != 0 then
    if ric ≤ deltaBase then .error .decodeFailed else .ok (ric - deltaBase - 1)
  else
    match DynamicTable.checkedAdd ric deltaBase with
    | some base => .ok base
    | none => .error .decodeFailed

/-- What follows the Required Insert Count of a section that is not blocked. -/
def decodeRest (d : DynamicDecoder) (ric : Nat) (rest : Bytes) : Except QpackError DecodeOutput :=
  match rest with
  | [] => .error .bufferTooShort
  | first :: _ =>
    match decodeInteger rest 7 with
    | .error e => .error e
    | .ok (deltaBase, deltaLen) =>
      match decodeBase first deltaBase ric with
      | .error e => .error e
      | .ok base =>
        (decodeFields d.table d.maxFieldSectionSize base ric rest.length 0
          (rest.drop deltaLen)).map .decoded

def decode (d : DynamicDecoder) (data : Bytes) :
    Except QpackError DecodeOutput × DynamicDecoder :=
  if data.length < 2 then (.error .bufferTooShort, d)
  else
    match decodeInteger data 8 with
    | .error e => (.error e, d)
    | .ok (encInsertCount, ricLen) =>
      match d.decodeRequiredInsertCount encInsertCount with
      | .error e => (.error e, d)
      | .ok ric =>
        let d' := { d with lastRequiredInsertCount := ric }
        if ric > 0 ∧ d.table.insertCount < ric then (.ok .blocked, d')
        else (d'.decodeRest ric (data.drop ricLen), d')

/-- Decoding a section reads the table only. -/
theorem decode_table (d : DynamicDecoder) (data : Bytes) : (d.decode data).2.table = d.table := by
  unfold decode
  repeat' split
  all_goals rfl

theorem decode_maxTableCapacity (d : DynamicDecoder) (data : Bytes) :
    (d.decode data).2.maxTableCapacity = d.maxTableCapacity := by
  unfold decode
  repeat' split
  all_goals rfl

end DynamicDecoder

/-! ## Without the dynamic table -/

/-- The fields up to the end of the section, as `field` reads them. -/
def fieldsWith (field : Bytes → Except QpackError (Header × Nat)) (maxFieldSectionSize : Nat) :
    Nat → Nat → Bytes → Except QpackError (List Header)
  | 0, _, _ => .ok []
  | fuel + 1, totalSize, data =>
    if data.isEmpty then .ok []
    else
      match field data with
      | .error e => .error e
      | .ok (h, consumed) =>
        let totalSize := totalSize + h.size
        if totalSize > maxFieldSectionSize then .error .decodeFailed
        else
          match fieldsWith field maxFieldSectionSize fuel totalSize (data.drop consumed) with
          | .error e => .error e
          | .ok hs => .ok (h :: hs)

structure Decoder where
  maxFieldSectionSize : Nat

namespace Decoder

open DynamicDecoder

def new : Decoder := ⟨16 * 1024⟩

def decodeIndexedField (first : UInt8) (data : Bytes) : Except QpackError (Header × Nat) :=
  if first &&& 0x40 == 0 then .error .decodeFailed
  else
    match decodeInteger data 6 with
    | .error e => .error e
    | .ok (index, consumed) => (staticEntry index).map fun h => (h, consumed)

def decodeLiteralWithNameRef (first : UInt8) (data : Bytes) : Except QpackError (Header × Nat) :=
  if first &&& 0x10 == 0 then .error .decodeFailed
  else
    match decodeInteger data 4 with
    | .error e => .error e
    | .ok (index, indexLen) =>
      match staticEntry index with
      | .error e => .error e
      | .ok h => withValue h.name data indexLen

def decodeHeader (data : Bytes) : Except QpackError (Header × Nat) :=
  match data with
  | [] => .error .bufferTooShort
  | first :: _ =>
    if first &&& 0x80 != 0 then decodeIndexedField first data
    else if first &&& 0x40 != 0 then decodeLiteralWithNameRef first data
    else if first &&& 0x20 != 0 then decodeLiteralWithLiteralName first data
    else .error .decodeFailed

def decode (d : Decoder) (data : Bytes) : Except QpackError (List Header) :=
  if data.length < 2 then .error .bufferTooShort
  else
    match decodeInteger data 8 with
    | .error e => .error e
    | .ok (ric, ricLen) =>
      if ric ≠ 0 then .error .decodeFailed
      else
        match data.drop ricLen with
        | [] => .error .bufferTooShort
        | rest =>
          match decodeInteger rest 7 with
          | .error e => .error e
          | .ok (_, deltaLen) =>
            fieldsWith decodeHeader d.maxFieldSectionSize rest.length 0 (rest.drop deltaLen)

end Decoder

/-! ## What the two decoders share -/

namespace DynamicDecoder

theorem decodeFields_eq (t : DynamicTable) (maxFieldSectionSize base ric fuel totalSize : Nat)
    (data : Bytes) : decodeFields t maxFieldSectionSize base ric fuel totalSize data =
      fieldsWith (decodeHeader t · base ric) maxFieldSectionSize fuel totalSize data := by
  induction fuel generalizing totalSize data with
  | zero => rfl
  | succ fuel ih => simp only [decodeFields, fieldsWith, ih]

/-- What is read without the dynamic table is read alike with one. -/
theorem decodeHeader_of_static {data : Bytes} {r : Header × Nat}
    (h : Decoder.decodeHeader data = .ok r) (t : DynamicTable) (base ric : Nat) :
    decodeHeader t data base ric = .ok r := by
  unfold Decoder.decodeHeader at h
  unfold decodeHeader
  split at h
  · cases h
  · rename_i first _
    split at h
    · rw [if_pos ‹_›]
      unfold Decoder.decodeIndexedField at h
      unfold decodeIndexedField
      split at h
      · cases h
      · rename_i hstatic
        have hstatic : (first &&& 0x40 != 0) = true := by simpa using hstatic
        split at h
        · cases h
        · rw [if_pos hstatic]
          exact h
    · rw [if_neg ‹_›]
      split at h
      · rw [if_pos ‹_›]
        unfold Decoder.decodeLiteralWithNameRef at h
        unfold decodeLiteralWithNameRef
        split at h
        · cases h
        · rename_i hstatic
          have hstatic : (first &&& 0x10 != 0) = true := by simpa using hstatic
          split at h
          · cases h
          · rename_i index indexLen hint
            simp only [hstatic, if_true]
            split at h
            · cases h
            · rename_i hentry
              rw [hentry]
              exact h
      · rw [if_neg ‹_›]
        split at h
        · rw [if_pos ‹_›]
          exact h
        · cases h

end DynamicDecoder

end Http3.Qpack
