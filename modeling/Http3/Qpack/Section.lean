import Http3.Qpack.FieldLine
import Http3.Qpack.Eviction
import Http3.Qpack.RequiredInsertCount

/-!
# Sections are read back

A decoder that holds the encoder's entries, and has seen neither fewer inserts than the section
needs nor too many more, reads the header list that was written.
-/

namespace Http3.Qpack

/-- What a field is read back as. -/
def readBack (h : Header) : Header := .fromDecoded h.name h.value

/-! ## One field -/

theorem readBack_of_eq {e h : Header} (hname : e.name = h.name) (hvalue : e.value = h.value)
    (hnever : e.neverIndexed = false) : e = readBack h := by
  cases e
  simp_all [readBack, Header.fromDecoded]

/-- The decoder without a dynamic table reads what is written without one. -/
theorem decodeHeader_static {h : Header} {useHuffman : Bool}
    (hlen : (encodeHeaderStaticOnly useHuffman h).length ≤ VarInt.max.get) (rest : Bytes) :
    Decoder.decodeHeader (encodeHeaderStaticOnly useHuffman h ++ rest) =
      .ok (readBack h, (encodeHeaderStaticOnly useHuffman h).length) := by
  obtain ⟨hexact, hname⟩ := findStaticEntry_spec h.name h.value
  unfold encodeHeaderStaticOnly at hlen ⊢
  split at hlen
  · rename_i i _ hfind
    obtain ⟨e, he, hn, hv⟩ := hexact i (by rw [hfind])
    rw [Decoder.decodeHeader_indexed he, readBack_of_eq hn hv (static_neverIndexed he)]
  · rename_i i hfind
    obtain ⟨e, he, hn⟩ := hname i (by rw [hfind])
    rw [encodeLiteralWithNameRefStatic, List.length_append] at hlen
    rw [Decoder.decodeHeader_nameRef he (by omega), hn]
    rfl
  · exact Decoder.decodeHeader_literal hlen rest

/-- The second table holds the entries of the first one, under the same indices. -/
def Mirrors (t u : DynamicTable) : Prop :=
  ∀ x ∈ t.entries, ∃ y, u.getByAbsoluteIndex x.absoluteIndex = some y ∧ y.name = x.name ∧
    y.value = x.value

/-- The second table holds the entries of the first one that have an index below `count`. -/
def MirrorsBelow (count : Nat) (t u : DynamicTable) : Prop :=
  ∀ x ∈ t.entries, x.absoluteIndex < count → ∃ y, u.getByAbsoluteIndex x.absoluteIndex = some y ∧
    y.name = x.name ∧ y.value = x.value

theorem Mirrors.below {t u : DynamicTable} (h : Mirrors t u) (count : Nat) :
    MirrorsBelow count t u := fun x hx _ => h x hx

/-- A well-formed table holds its own entries. -/
theorem Mirrors.refl {t : DynamicTable} (h : t.WellFormed) : Mirrors t t := by
  intro x hx
  obtain ⟨i, hi⟩ := List.mem_iff_getElem?.mp hx
  have hindex := h.index i x hi
  have hlt := (List.getElem?_eq_some_iff.mp hi).1
  have hdropped := h.dropped
  refine ⟨x, ?_, rfl, rfl⟩
  unfold DynamicTable.getByAbsoluteIndex
  rw [if_neg (by omega), if_neg (by omega), show t.insertCount - 1 - x.absoluteIndex = i by omega, hi]

namespace DynamicDecoder

theorem relativeEntry_eq {t : DynamicTable} {absIndex base ric : Nat} {e : DynamicEntry}
    (hbase : absIndex < base) (hric : absIndex < ric) (he : t.getByAbsoluteIndex absIndex = some e) :
    relativeEntry t (base - absIndex - 1) base ric = .ok e := by
  have hindex : base - (base - absIndex - 1) - 1 = absIndex := by omega
  unfold relativeEntry DynamicTable.getByRelativeIndexRepr
  rw [hindex, if_neg (by omega), if_neg (by omega), he]

theorem decodeHeader_indexedDynamic {t : DynamicTable} {absIndex base ric : Nat} {e : DynamicEntry}
    (hbase : absIndex < base) (hric : absIndex < ric) (he : t.getByAbsoluteIndex absIndex = some e)
    (hmax : base - absIndex - 1 ≤ VarInt.max.get) (rest : Bytes) :
    decodeHeader t (encodeIndexedFieldDynamic absIndex base ++ rest) base ric =
      .ok (.fromDecoded e.name e.value, (encodeIndexedFieldDynamic absIndex base).length) := by
  have hint := decodeInteger_encode (base - absIndex - 1) 6 0x80 rest hmax (by decide) (by decide)
    (by decide)
  obtain ⟨first, tail, hhead, hfirst⟩ :=
    head_encode (base - absIndex - 1) 6 0x80 rest (by decide) (by decide)
  unfold encodeIndexedFieldDynamic
  rw [hhead] at hint ⊢
  simp only [decodeHeader, decodeIndexedField, hfirst 0x80 (by decide), hfirst 0x40 (by decide),
    hint, relativeEntry_eq hbase hric he]
  rfl

theorem decodeHeader_nameRefDynamic {t : DynamicTable} {absIndex base ric : Nat} {e : DynamicEntry}
    (hbase : absIndex < base) (hric : absIndex < ric) (he : t.getByAbsoluteIndex absIndex = some e)
    (hmax : base - absIndex - 1 ≤ VarInt.max.get) {value : Bytes} {neverIndexed useHuffman : Bool}
    (hlen : (encodeString value useHuffman).length ≤ VarInt.max.get) (rest : Bytes) :
    decodeHeader t (encodeLiteralWithNameRefDynamic absIndex value base neverIndexed useHuffman ++ rest)
        base ric =
      .ok (.fromDecoded e.name value,
        (encodeLiteralWithNameRefDynamic absIndex value base neverIndexed useHuffman).length) := by
  unfold encodeLiteralWithNameRefDynamic
  generalize hhigh : (if neverIndexed then (0x60 : UInt8) else 0x40) = high
  have hbits : high &&& UInt8.ofNat (2 ^ 4 - 1) = 0 ∧ high &&& 0x80 = 0 ∧ high &&& 0x40 = 0x40 ∧
      high &&& 0x10 = 0 := by
    subst hhigh
    cases neverIndexed <;> decide
  obtain ⟨hfree, h80, h40, h10⟩ := hbits
  have hint := decodeInteger_encode (base - absIndex - 1) 4 high (encodeString value useHuffman ++ rest)
    hmax (by decide) (by decide) hfree
  obtain ⟨first, tail, hhead, hfirst⟩ := head_encode (base - absIndex - 1) 4 high
    (encodeString value useHuffman ++ rest) (by decide) (by decide)
  have hvalue := withValue_encode (encodeIntegerToVec (base - absIndex - 1) 4 high) e.name hlen
    rest
  rw [List.append_assoc, List.length_append]
  rw [hhead] at hint hvalue ⊢
  simp only [decodeHeader, decodeLiteralWithNameRef, hfirst 0x80 (by decide),
    hfirst 0x40 (by decide), hfirst 0x10 (by decide), h80, h40, h10, hint,
    relativeEntry_eq hbase hric he]
  exact hvalue

/-- A field is read back whatever it refers to. -/
theorem decodeHeader_dynamic {t u : DynamicTable} {ric : Nat} (hmirrors : MirrorsBelow ric t u)
    {h : Header} {useHuffman : Bool}
    (href : ∀ i, DynamicEncoder.reference t h = some i → i < ric ∧ ric - i - 1 ≤ VarInt.max.get)
    (hlen : (encodeHeaderWithDynamic t useHuffman h ric).length ≤ VarInt.max.get) (rest : Bytes) :
    decodeHeader u (encodeHeaderWithDynamic t useHuffman h ric ++ rest) ric ric =
      .ok (readBack h, (encodeHeaderWithDynamic t useHuffman h ric).length) := by
  obtain ⟨hexact, hname⟩ := findStaticEntry_spec h.name h.value
  obtain ⟨hdynExact, hdynName⟩ := findEntry_spec t h.name h.value
  unfold DynamicEncoder.reference at href
  unfold encodeHeaderWithDynamic at hlen ⊢
  rcases hdyn : t.findEntry h.name h.value with ⟨_ | a, b⟩ <;> rw [hdyn] at href hdynExact hdynName
  · rcases hstatic : findStaticEntry h.name h.value with ⟨_ | i, j⟩ <;>
      rw [hstatic] at href hexact hname
    · cases b with
      | some a =>
        simp only [hdyn, hstatic] at hlen ⊢
        rw [encodeLiteralWithNameRefDynamic, List.length_append] at hlen
        obtain ⟨x, hx, rfl, hxn⟩ := hdynName a rfl
        obtain ⟨hlt, hmax⟩ := href x.absoluteIndex rfl
        obtain ⟨y, hy, hyn, -⟩ := hmirrors x hx hlt
        rw [decodeHeader_nameRefDynamic hlt hlt hy hmax (by omega), hyn, hxn]
        rfl
      | none =>
        cases j with
        | some i =>
          simp only [hdyn, hstatic] at hlen ⊢
          rw [encodeLiteralWithNameRefStatic, List.length_append] at hlen
          obtain ⟨e, he, hn⟩ := hname i rfl
          rw [decodeHeader_of_static (Decoder.decodeHeader_nameRef he (by omega) rest), hn]
          rfl
        | none =>
          simp only [hdyn, hstatic] at hlen ⊢
          exact decodeHeader_of_static (Decoder.decodeHeader_literal hlen rest) u ric ric
    · simp only [hdyn, hstatic] at hlen ⊢
      obtain ⟨e, he, hn, hv⟩ := hexact i rfl
      rw [decodeHeader_of_static (Decoder.decodeHeader_indexed he rest),
        readBack_of_eq hn hv (static_neverIndexed he)]
  · simp only [hdyn] at hlen ⊢
    obtain ⟨x, hx, rfl, hxn, hxv⟩ := hdynExact a rfl
    obtain ⟨hlt, hmax⟩ := href x.absoluteIndex rfl
    obtain ⟨y, hy, hyn, hyv⟩ := hmirrors x hx hlt
    rw [decodeHeader_indexedDynamic hlt hlt hy hmax, hyn, hyv, hxn, hxv]
    rfl

end DynamicDecoder

/-! ## All fields -/

/-- Fields that are read back one by one are read back as a list. -/
theorem fieldsWith_flatMap (field : Bytes → Except QpackError (Header × Nat))
    {enc : Header → Bytes} {headers : List Header} (maxFieldSectionSize totalSize fuel : Nat)
    (hnil : ∀ r, field [] ≠ .ok r)
    (hfield : ∀ h ∈ headers, ∀ rest, field (enc h ++ rest) = .ok (readBack h, (enc h).length))
    (hsize : totalSize + (headers.map Header.size).sum ≤ maxFieldSectionSize)
    (hfuel : (headers.flatMap enc).length ≤ fuel) :
    fieldsWith field maxFieldSectionSize fuel totalSize (headers.flatMap enc) =
      .ok (headers.map readBack) := by
  induction headers generalizing totalSize fuel with
  | nil =>
    cases fuel <;> rfl
  | cons h headers ih =>
    have hhead := hfield h List.mem_cons_self
    have hne : enc h ≠ [] := by
      intro hempty
      have := hhead []
      rw [hempty, List.append_nil] at this
      exact hnil _ this
    have hpos := List.length_pos_iff.mpr hne
    rw [List.flatMap_cons, List.length_append] at hfuel
    rw [List.map_cons, List.sum_cons] at hsize
    obtain ⟨fuel, rfl⟩ : ∃ f, fuel = f + 1 := ⟨fuel - 1, by omega⟩
    have hrest := ih (totalSize + h.size) fuel
      (fun x hx => hfield x (List.mem_cons_of_mem h hx)) (by omega) (by omega)
    have hnonempty : (enc h ++ headers.flatMap enc).isEmpty = false := by
      simp [hne]
    have hback : (readBack h).size = h.size := rfl
    rw [List.flatMap_cons]
    simp only [fieldsWith, hnonempty, hhead, hback, List.drop_left' rfl, hrest]
    rw [if_neg (by simp), if_neg (by omega)]
    rfl

theorem encodeHeader_length_le (enc : Header → Bytes) {headers : List Header} {h : Header}
    (hmem : h ∈ headers) : (enc h).length ≤ (headers.flatMap enc).length := by
  obtain ⟨as, bs, rfl⟩ := List.append_of_mem hmem
  simp only [List.flatMap_append, List.flatMap_cons, List.length_append]
  omega

/-! ## The entries a section refers to -/

theorem counted_mem {t : DynamicTable} {h : Header} {i : Nat}
    (hi : DynamicEncoder.counted t h = some i) : ∃ x ∈ t.entries, x.absoluteIndex = i := by
  obtain ⟨hexact, hname⟩ := findEntry_spec t h.name h.value
  unfold DynamicEncoder.counted at hi
  rcases hfind : t.findEntry h.name h.value with ⟨_ | a, b⟩ <;> rw [hfind] at hexact hname hi
  · obtain ⟨x, hx, hxi, -⟩ := hname i hi
    exact ⟨x, hx, hxi⟩
  · obtain ⟨x, hx, hxi, -⟩ := hexact i hi
    exact ⟨x, hx, hxi⟩

theorem requiredInsertCount_le {t : DynamicTable} (h : t.WellFormed) (headers : List Header) :
    DynamicEncoder.requiredInsertCount t headers ≤ t.insertCount := by
  refine (DynamicEncoder.requiredInsertCount_le_iff t headers _).mpr fun x _ i hi => ?_
  obtain ⟨y, hy, rfl⟩ := counted_mem hi
  obtain ⟨j, hj⟩ := List.mem_iff_getElem?.mp hy
  have := h.index j y hj
  omega

theorem reference_mem {t : DynamicTable} {h : Header} {i : Nat}
    (hi : DynamicEncoder.reference t h = some i) : ∃ x ∈ t.entries, x.absoluteIndex = i :=
  counted_mem (DynamicEncoder.counted_of_reference hi)

theorem length_le_totalSize (entries : List DynamicEntry) :
    entries.length * 32 ≤ DynamicTable.totalSize entries := by
  induction entries with
  | nil => exact Nat.le_refl _
  | cons e entries ih =>
    have : 32 ≤ e.size := by
      unfold DynamicEntry.size entrySize entryOverhead
      omega
    rw [List.length_cons, DynamicTable.totalSize_cons]
    omega

/-- The indices of a table are close to each other. -/
theorem reference_bound {t : DynamicTable} (h : t.WellFormed) (hsize : t.currentSize < 2 ^ 64)
    {headers : List Header} {x : Header} (hx : x ∈ headers) {i : Nat}
    (hi : DynamicEncoder.reference t x = some i) :
    i < DynamicEncoder.requiredInsertCount t headers ∧
      DynamicEncoder.requiredInsertCount t headers - i - 1 ≤ VarInt.max.get := by
  have hlt := DynamicEncoder.lt_requiredInsertCount (List.mem_filterMap.mpr ⟨x, hx, hi⟩)
  refine ⟨hlt, ?_⟩
  have hle := requiredInsertCount_le h headers
  obtain ⟨y, hy, rfl⟩ := reference_mem hi
  obtain ⟨j, hj⟩ := List.mem_iff_getElem?.mp hy
  have hindex := h.index j y hj
  have hjlt := (List.getElem?_eq_some_iff.mp hj).1
  have hlength := length_le_totalSize t.entries
  rw [← h.size] at hlength
  have hmax : VarInt.max.get = 2 ^ 62 - 1 := rfl
  omega

/-! ## Sections -/

/-- An encoder and a decoder between which a section can pass: the decoder holds the encoder's
entries, and its insert count is in the window of the section's. The numbers are of 64 bits. -/
structure Synchronised (e : DynamicEncoder) (d : DynamicDecoder) (headers : List Header) : Prop where
  table : e.table.WellFormed
  size : e.table.currentSize < 2 ^ 64
  capacity : d.maxTableCapacity = e.maxTableCapacity
  enabled : 32 ≤ e.maxTableCapacity
  capacityRange : e.maxTableCapacity < 2 ^ 64
  mirrors : Mirrors e.table d.table
  received : DynamicEncoder.requiredInsertCount e.table headers ≤ d.table.insertCount
  recent : d.table.insertCount <
    DynamicEncoder.requiredInsertCount e.table headers + e.maxTableCapacity / 32
  countRange : d.table.insertCount < 2 ^ 64

theorem fit_eq_some {cap : Nat} {bs bytes : Bytes} (h : fit cap bs = some bytes) :
    bytes = bs ∧ bs.length ≤ cap := by
  unfold fit at h
  split at h
  · cases h
    exact ⟨rfl, ‹_›⟩
  · cases h

/-- What follows a base of its own, on either side. -/
theorem decodeInteger_base (fields : Bytes) : decodeInteger (0x00 :: fields) 7 = .ok (0, 1) :=
  decodeInteger_encode 0 7 0x00 fields (by decide) (by decide) (by decide) (by decide)

theorem decodeRest_encode {d : DynamicDecoder} {ric : Nat} (hric : ric < 2 ^ 64) (fields : Bytes) :
    d.decodeRest ric (0x00 :: fields) =
      (fieldsWith (DynamicDecoder.decodeHeader d.table · ric ric) d.maxFieldSectionSize
        (fields.length + 1) 0 fields).map .decoded := by
  have hbase : DynamicDecoder.decodeBase 0x00 0 ric = .ok ric := by
    unfold DynamicDecoder.decodeBase DynamicTable.checkedAdd
    rw [if_neg (by decide), Nat.add_zero, if_pos hric]
  simp only [DynamicDecoder.decodeRest, decodeInteger_base, hbase, List.drop_succ_cons,
    List.drop_zero, DynamicDecoder.decodeFields_eq, List.length_cons]

theorem encodeRequiredInsertCount_le {e : DynamicEncoder} (hrange : e.maxTableCapacity < 2 ^ 64)
    (ric : Nat) : e.encodeRequiredInsertCount ric ≤ VarInt.max.get := by
  have hmax : VarInt.max.get = 2 ^ 62 - 1 := rfl
  unfold DynamicEncoder.encodeRequiredInsertCount
  split
  · exact Nat.zero_le _
  · dsimp only
    split
    · exact Nat.zero_le _
    · have := Nat.mod_lt ric (show 0 < 2 * (e.maxTableCapacity / 32) by omega)
      omega

/-- How a section begins. -/
theorem encodeWithDynamic_head {e : DynamicEncoder} (hrange : e.maxTableCapacity < 2 ^ 64)
    (headers : List Header) :
    2 ≤ (e.encodeWithDynamic headers).length ∧
      decodeInteger (e.encodeWithDynamic headers) 8 =
        .ok (e.encodeRequiredInsertCount (DynamicEncoder.requiredInsertCount e.table headers),
          (encodeIntegerToVec (e.encodeRequiredInsertCount
            (DynamicEncoder.requiredInsertCount e.table headers)) 8 0x00).length) ∧
      (e.encodeWithDynamic headers).drop (encodeIntegerToVec (e.encodeRequiredInsertCount
          (DynamicEncoder.requiredInsertCount e.table headers)) 8 0x00).length =
        0x00 :: headers.flatMap (encodeHeaderWithDynamic e.table e.useHuffman ·
          (DynamicEncoder.requiredInsertCount e.table headers)) := by
  unfold DynamicEncoder.encodeWithDynamic
  dsimp only
  generalize DynamicEncoder.requiredInsertCount e.table headers = ric
  have hne := encodeIntegerToVec_ne_nil (e.encodeRequiredInsertCount ric) 8 0x00 (by decide)
    (by decide)
  refine ⟨?_, decodeInteger_encode (e.encodeRequiredInsertCount ric) 8 0x00 _
    (encodeRequiredInsertCount_le hrange ric) (by decide) (by decide) (by decide),
    List.drop_left' rfl⟩
  have hpos := List.length_pos_iff.mpr hne
  rw [List.length_append, List.length_cons]
  omega

/-- A section whose Required Insert Count is told, and reached, is read back from the entries below
that count. -/
theorem decode_written {e : DynamicEncoder} {d : DynamicDecoder} {headers : List Header} {ric : Nat}
    (hric : DynamicEncoder.requiredInsertCount e.table headers = ric) (htable : e.table.WellFormed)
    (hsize : e.table.currentSize < 2 ^ 64) (hrange : e.maxTableCapacity < 2 ^ 64)
    (hmirrors : MirrorsBelow ric e.table d.table)
    (htold : d.decodeRequiredInsertCount (e.encodeRequiredInsertCount ric) = .ok ric)
    (hreceived : ric ≤ d.table.insertCount) (hcount : ric < 2 ^ 64)
    (hlength : (e.encodeWithDynamic headers).length ≤ VarInt.max.get)
    (hlimit : (headers.map Header.size).sum ≤ d.maxFieldSectionSize) :
    (d.decode (e.encodeWithDynamic headers)).1 = .ok (.decoded (headers.map readBack)) := by
  have hbound := fun x (hx : x ∈ headers) i => reference_bound htable hsize hx (i := i)
  obtain ⟨hlong, hint, hrest⟩ := encodeWithDynamic_head hrange headers
  rw [hric] at hbound hint hrest
  generalize hfields : headers.flatMap (encodeHeaderWithDynamic e.table e.useHuffman · ric) = fields
    at hrest
  have hall : fieldsWith (DynamicDecoder.decodeHeader d.table · ric ric) d.maxFieldSectionSize
      (fields.length + 1) 0 fields = .ok (headers.map readBack) := by
    have hshorter : fields.length ≤ (e.encodeWithDynamic headers).length := by
      have hdrop := congrArg List.length hrest
      rw [List.length_drop, List.length_cons] at hdrop
      omega
    subst hfields
    refine fieldsWith_flatMap _ _ 0 _ (fun r => by simp [DynamicDecoder.decodeHeader]) (fun x hx rest => ?_)
      (by omega) (Nat.le_succ _)
    refine DynamicDecoder.decodeHeader_dynamic hmirrors (hbound x hx) ?_ rest
    have := encodeHeader_length_le (encodeHeaderWithDynamic e.table e.useHuffman · ric) hx
    omega
  unfold DynamicDecoder.decode
  rw [if_neg (Nat.not_lt.mpr hlong), hint]
  dsimp only
  rw [htold]
  dsimp only
  rw [if_neg (by omega), hrest, decodeRest_encode hcount]
  dsimp only
  rw [hall]
  rfl

theorem decode_dynamic {e : DynamicEncoder} {d : DynamicDecoder} {headers : List Header}
    (h : Synchronised e d headers) {cap : Nat} {bytes : Bytes} (hcap : cap ≤ VarInt.max.get)
    (hwritten : fit cap (e.encodeWithDynamic headers) = some bytes)
    (hlimit : (headers.map Header.size).sum ≤ d.maxFieldSectionSize) :
    (d.decode bytes).1 = .ok (.decoded (headers.map readBack)) := by
  obtain ⟨rfl, hlength⟩ := fit_eq_some hwritten
  have htold := decodeRequiredInsertCount_encode h.capacity h.enabled
    (Nat.le_add_right_of_le h.received) h.recent
  exact decode_written rfl h.table h.size h.capacityRange (h.mirrors.below _) htold h.received
    (h.received.trans_lt h.countRange) (hlength.trans hcap) hlimit

theorem decode_static {e : DynamicEncoder} {headers : List Header}
    (hlength : (e.encodeStaticOnly headers).length ≤ VarInt.max.get) {maxFieldSectionSize : Nat}
    (hlimit : (headers.map Header.size).sum ≤ maxFieldSectionSize) :
    (Decoder.mk maxFieldSectionSize).decode (e.encodeStaticOnly headers) =
        .ok (headers.map readBack) ∧
      ∀ d : DynamicDecoder, d.maxFieldSectionSize = maxFieldSectionSize →
        (d.decode (e.encodeStaticOnly headers)).1 = .ok (.decoded (headers.map readBack)) := by
  unfold DynamicEncoder.encodeStaticOnly at hlength ⊢
  generalize hfields : headers.flatMap (encodeHeaderStaticOnly e.useHuffman) = fields at hlength ⊢
  rw [List.length_cons, List.length_cons] at hlength
  have hint : decodeInteger (0x00 :: 0x00 :: fields) 8 = .ok (0, 1) :=
    decodeInteger_encode 0 8 0x00 (0x00 :: fields) (by decide) (by decide) (by decide) (by decide)
  have hshort : ¬(0x00 :: 0x00 :: fields : Bytes).length < 2 := by simp
  have hfield : ∀ x ∈ headers, ∀ rest,
      Decoder.decodeHeader (encodeHeaderStaticOnly e.useHuffman x ++ rest) =
        .ok (readBack x, (encodeHeaderStaticOnly e.useHuffman x).length) := by
    intro x hx rest
    refine decodeHeader_static ?_ rest
    have := encodeHeader_length_le (encodeHeaderStaticOnly e.useHuffman) hx
    rw [hfields] at this
    omega
  constructor
  · have hall := fieldsWith_flatMap Decoder.decodeHeader maxFieldSectionSize 0
      (fields.length + 1)
      (fun r => by simp [Decoder.decodeHeader]) hfield (by omega) (by rw [hfields]; omega)
    rw [hfields] at hall
    unfold Decoder.decode
    rw [if_neg hshort, hint]
    simp only [ne_eq, not_true, if_false, List.drop_succ_cons, List.drop_zero, decodeInteger_base,
      List.length_cons]
    exact hall
  · rintro d rfl
    have hall := fieldsWith_flatMap (DynamicDecoder.decodeHeader d.table · 0 0)
      d.maxFieldSectionSize 0 (fields.length + 1)
      (fun r => by simp [DynamicDecoder.decodeHeader])
      (fun x hx rest => DynamicDecoder.decodeHeader_of_static (hfield x hx rest) d.table 0 0)
      (by omega) (by rw [hfields]; omega)
    rw [hfields] at hall
    unfold DynamicDecoder.decode
    rw [if_neg hshort, hint]
    simp only [DynamicDecoder.decodeRequiredInsertCount, if_true, gt_iff_lt, Nat.lt_irrefl,
      false_and, if_false, List.drop_succ_cons, List.drop_zero, decodeRest_encode (by decide : 0 < 2 ^ 64)]
    rw [hall]
    rfl

/-- **Round trip** of a section, with the dynamic table and without it. -/
theorem sections_round_trip :
    (∀ (e : DynamicEncoder) (d : DynamicDecoder) (headers : List Header) (cap : Nat) (bytes : Bytes),
      Synchronised e d headers → cap ≤ VarInt.max.get →
      fit cap (e.encodeWithDynamic headers) = some bytes →
      (headers.map Header.size).sum ≤ d.maxFieldSectionSize →
      (d.decode bytes).1 = .ok (.decoded (headers.map readBack))) ∧
    ∀ (e : DynamicEncoder) (d : DynamicDecoder) (headers : List Header) (cap : Nat) (bytes : Bytes),
      cap ≤ VarInt.max.get → fit cap (e.encodeStaticOnly headers) = some bytes →
      (headers.map Header.size).sum ≤ d.maxFieldSectionSize →
      (Decoder.mk d.maxFieldSectionSize).decode bytes = .ok (headers.map readBack) ∧
        (d.decode bytes).1 = .ok (.decoded (headers.map readBack)) := by
  refine ⟨fun e d headers cap bytes h hcap hwritten hlimit => decode_dynamic h hcap hwritten hlimit,
    fun e d headers cap bytes hcap hwritten hlimit => ?_⟩
  obtain ⟨rfl, hlength⟩ := fit_eq_some hwritten
  obtain ⟨hstatic, hdynamic⟩ := decode_static (hlength.trans hcap) hlimit
  exact ⟨hstatic, hdynamic d rfl⟩

/-- An encoder with two entries. -/
def sampleEncoder : DynamicEncoder :=
  (Sender.new.run [.setMaxTableCapacity 100, .setTableCapacity 100, .insert [0x61] [0x62],
    .insert [0x63] [0x64]]).encoder

def sampleHeaders : List Header := [⟨[0x61], [0x62], false⟩, ⟨[0x63], [0x65], true⟩, ⟨[0x66], [], false⟩]

theorem sections_round_trip_of_entries :
    (DynamicDecoder.decode ⟨sampleEncoder.table, 1000, 100, 0⟩
        (sampleEncoder.encodeWithDynamic sampleHeaders)).1 =
      .ok (.decoded (sampleHeaders.map readBack)) ∧
    (Decoder.mk 1000).decode (sampleEncoder.encodeStaticOnly sampleHeaders) =
      .ok (sampleHeaders.map readBack) := by
  have hwf : sampleEncoder.table.WellFormed := (Sender.Inv.new.run _).table
  refine ⟨sections_round_trip.1 sampleEncoder _ sampleHeaders 100 _
    ⟨hwf, by decide +kernel, by decide +kernel, by decide +kernel, by decide +kernel,
      Mirrors.refl hwf, by decide +kernel, by decide +kernel, by decide +kernel⟩
    (by decide +kernel) (by decide +kernel) (by decide +kernel), ?_⟩
  exact (sections_round_trip.2 sampleEncoder ⟨.new, 1000, 100, 0⟩ sampleHeaders 100 _
    (by decide +kernel) (by decide +kernel) (by decide +kernel)).1

end Http3.Qpack
