import Http3.Qpack.References
import Http3.Qpack.SharedLog

/-!
# What a section is read as that was sent

A section is written from one part of the log and read from another one. A decoder that holds more
entries reads more, and one that holds the whole log reads what was written. So whatever has been
evicted in the meantime, a section is read as no other list, as long as the insert count of the
decoder is in the window of the section's.
-/

namespace Http3.Qpack

/-! ## Decoders that hold more entries -/

namespace DynamicDecoder

/-- The second decoder has seen as many inserts, and holds what the first one holds. -/
structure Covers (d' d : DynamicDecoder) : Prop where
  insertCount : d'.table.insertCount = d.table.insertCount
  maxTableCapacity : d'.maxTableCapacity = d.maxTableCapacity
  maxFieldSectionSize : d.maxFieldSectionSize ≤ d'.maxFieldSectionSize
  entries : ∀ i e, d.table.getByAbsoluteIndex i = some e → d'.table.getByAbsoluteIndex i = some e

section Covers

variable {d d' : DynamicDecoder} {base ric index : Nat} {e : DynamicEntry}

theorem Covers.relativeEntry (h : d'.Covers d)
    (he : relativeEntry d.table index base ric = .ok e) :
    relativeEntry d'.table index base ric = .ok e := by
  obtain ⟨hbase, hric, hget⟩ := relativeEntry_ok he
  unfold DynamicDecoder.relativeEntry DynamicTable.getByRelativeIndexRepr
  rw [if_neg (by omega), if_neg (by omega), h.entries _ _ hget]

theorem Covers.postBaseEntry (h : d'.Covers d)
    (he : postBaseEntry d.table index base ric = .ok e) :
    postBaseEntry d'.table index base ric = .ok e := by
  obtain ⟨hric, hget⟩ := postBaseEntry_ok he
  unfold DynamicDecoder.postBaseEntry at he ⊢
  unfold DynamicTable.getByPostBaseIndex
  cases hadd : DynamicTable.checkedAdd base index with
  | none =>
    rw [hadd] at he
    cases he
  | some i =>
    have hi : i = base + index := by
      unfold DynamicTable.checkedAdd at hadd
      split at hadd
      · exact (Option.some.inj hadd).symm
      · cases hadd
    dsimp only
    rw [if_neg (by omega), Option.bind_some, hi, h.entries _ _ hget]

theorem Covers.resolves (h : d'.Covers d) {w : WireLine} {x : Header}
    (hw : w.Resolves d.table base ric x) : w.Resolves d'.table base ric x := by
  rcases hw with hstatic | ⟨e, he, hx⟩
  · exact .inl hstatic
  · refine .inr ⟨e, ?_, hx⟩
    cases w with
    | indexed isStatic index =>
      cases isStatic with
      | false => exact h.relativeEntry he
      | true => cases he
    | nameRef isStatic index value =>
      cases isStatic with
      | false => exact h.relativeEntry he
      | true => cases he
    | literal name value => cases he
    | indexedPostBase index => exact h.postBaseEntry he
    | nameRefPostBase index value => exact h.postBaseEntry he

theorem Covers.decodeRequiredInsertCount (h : d'.Covers d) (n : Nat) :
    d'.decodeRequiredInsertCount n = d.decodeRequiredInsertCount n := by
  unfold DynamicDecoder.decodeRequiredInsertCount
  rw [h.insertCount, h.maxTableCapacity]

/-- What the first decoder reads, the second one reads too. -/
theorem Covers.decode (h : d'.Covers d) {data : Bytes} {hs : List Header}
    (hdecode : (d.decode data).1 = .ok (.decoded hs)) : (d'.decode data).1 = .ok (.decoded hs) := by
  obtain ⟨enc, first, delta, lines, ric, base, hhead, hric, hready, hbase, hitems, hsize⟩ :=
    (decode_ok_iff d data hs).mp hdecode
  refine (decode_ok_iff d' data hs).mpr ⟨enc, first, delta, lines, ric, base, hhead,
    (h.decodeRequiredInsertCount enc).trans hric, hready.trans_eq h.insertCount.symm, hbase,
    hitems.imp fun input x n hread => ?_, hsize.trans h.maxFieldSectionSize⟩
  obtain ⟨w, hparse, hw⟩ := (decodeHeader_ok_iff d.table base ric input x n).mp hread
  exact (decodeHeader_ok_iff d'.table base ric input x n).mpr ⟨w, hparse, h.resolves hw⟩

end Covers

end DynamicDecoder

/-! ## The whole log -/

namespace DynamicTable

/-- A table that holds every field. -/
def ofFields (fields : List Field) : DynamicTable :=
  fields.foldl (fun t f => t.pushFront f.1 f.2) .new

theorem Holds.pushAll {t : DynamicTable} {log : Log Field} (h : t.Holds log) (fields : List Field) :
    ∃ log', (fields.foldl (fun t f => t.pushFront f.1 f.2) t).Holds log' ∧
      log'.items = log.items ++ fields ∧ log'.dropped = log.dropped := by
  induction fields generalizing t log with
  | nil => exact ⟨log, h, (List.append_nil _).symm, rfl⟩
  | cons f fields ih =>
    obtain ⟨log', hlog', hitems, hdropped⟩ := ih (h.push f.1 f.2)
    refine ⟨log', hlog', ?_, hdropped⟩
    rw [hitems]
    simp [Log.push]

theorem ofFields_get (fields : List Field) (i : Nat) :
    (ofFields fields).getByAbsoluteIndex i = fields[i]?.map fun f => ⟨f.1, f.2, i⟩ := by
  obtain ⟨log, hlog, hitems, hdropped⟩ := (Holds.withCapacity 0).pushAll fields
  have hget := hlog.absolute i
  rw [entryAt, Log.get?, hitems, if_pos (by rw [hdropped]; exact Nat.zero_le i)] at hget
  exact hget

theorem ofFields_insertCount (fields : List Field) :
    (ofFields fields).insertCount = fields.length := by
  obtain ⟨log, hlog, hitems, -⟩ := (Holds.withCapacity 0).pushAll fields
  have hcount := hlog.count
  rw [Log.count, hitems] at hcount
  exact hcount

/-- Every entry is one of its log. -/
theorem Holds.field_of_get {t : DynamicTable} {log : Log Field} (h : t.Holds log) {i : Nat}
    {e : DynamicEntry} (he : t.getByAbsoluteIndex i = some e) :
    log.items[i]? = some e.field ∧ e.absoluteIndex = i := by
  rw [h.absolute, entryAt] at he
  obtain ⟨f, hf, rfl⟩ := Option.map_eq_some_iff.mp he
  exact ⟨(log.get?_eq_some_iff.mp hf).2, rfl⟩

theorem Holds.ofFields_covers {t : DynamicTable} {log : Log Field} (h : t.Holds log) {i : Nat}
    {e : DynamicEntry} (he : t.getByAbsoluteIndex i = some e) :
    (ofFields log.items).getByAbsoluteIndex i = some e := by
  obtain ⟨hfield, rfl⟩ := h.field_of_get he
  rw [ofFields_get, hfield]
  rfl

/-- Below a count that both have reached, two parts of one log do not differ. -/
theorem Holds.mirrorsBelow {t : DynamicTable} {log : Log Field} (h : t.Holds log)
    {fields all : List Field} (hlog : log.items <+: all) (hfields : fields <+: all) {count : Nat}
    (hcount : count ≤ fields.length) : MirrorsBelow count t (ofFields fields) := by
  intro x hx hbelow
  have hitem := (h.mem_iff x).mp hx
  obtain ⟨f, hf, hfx⟩ := Option.map_eq_some_iff.mp hitem
  have hfield := (log.get?_eq_some_iff.mp hf).2
  obtain ⟨later, rfl⟩ := hlog
  obtain ⟨missing, hsplit⟩ := hfields
  have hsame : fields[x.absoluteIndex]? = some f := by
    rw [← List.getElem?_append_left (hbelow.trans_le hcount), hsplit,
      List.getElem?_append_left (List.getElem?_eq_some_iff.mp hfield).1, hfield]
  refine ⟨_, by rw [ofFields_get, hsame]; rfl, ?_⟩
  rw [← hfx]
  exact ⟨rfl, rfl⟩

end DynamicTable

/-! ## Sections -/

/-- A section that was written, and is on its way. -/
structure WrittenSection where
  bytes : Bytes
  headers : List Header
  requiredInsertCount : Nat
  deriving DecidableEq

namespace WrittenSection

/-- The encoder wrote the section when `fields` were inserted at least. -/
structure Written (maxTableCapacity : Nat) (fields : List Field) (x : WrittenSection) : Prop where
  length : x.bytes.length ≤ VarInt.max.get
  encoder : ∃ (e : DynamicEncoder) (log : Log Field), e.table.Holds log ∧ log.items <+: fields ∧
    e.maxTableCapacity = maxTableCapacity ∧ e.table.Bounded maxTableCapacity ∧
      ((x.bytes = e.encodeStaticOnly x.headers ∧ x.requiredInsertCount = 0) ∨
        (x.bytes = e.encodeWithDynamic x.headers ∧
          x.requiredInsertCount = DynamicEncoder.requiredInsertCount e.table x.headers))

/-- The insert count is in the window of the section's. -/
def InWindow (d : DynamicDecoder) (x : WrittenSection) : Prop :=
  0 < x.requiredInsertCount →
    x.requiredInsertCount ≤ d.table.insertCount + d.maxTableCapacity / 32 ∧
      d.table.insertCount < x.requiredInsertCount + d.maxTableCapacity / 32

section Decode

variable {fields : List Field} {x : WrittenSection} {d : DynamicDecoder} {log : Log Field}

theorem Written.mono {maxTableCapacity : Nat} (h : Written maxTableCapacity fields x)
    {more : List Field} (hmore : fields <+: more) : Written maxTableCapacity more x := by
  obtain ⟨hlength, e, log, hlog, hearlier, hrest⟩ := h
  exact ⟨hlength, e, log, hlog, hearlier.trans hmore, hrest⟩

/-- As many inserts were made as a section needs. -/
theorem Written.requiredInsertCount_le {maxTableCapacity : Nat}
    (h : Written maxTableCapacity fields x) : x.requiredInsertCount ≤ fields.length := by
  obtain ⟨-, e, elog, helog, hearlier, -, -, ⟨-, hric⟩ | ⟨-, hric⟩⟩ := h
  · exact hric.trans_le (Nat.zero_le _)
  · have hle := Qpack.requiredInsertCount_le helog.wellFormed x.headers
    rw [helog.count] at hle
    exact hric.trans_le (hle.trans hearlier.length_le)

/-- A section that needs an entry was written with a table that had room for one. -/
theorem requiredInsertCount_pos {t : DynamicTable} {n : Nat} (h : t.WellFormed)
    (hbounded : t.Bounded n) {headers : List Header}
    (hpos : 0 < DynamicEncoder.requiredInsertCount t headers) : 32 ≤ n := by
  by_contra hlt
  have hempty : t.entries = [] := by
    have hlength := length_le_totalSize t.entries
    have hsize := hbounded.size
    rw [h.size] at hsize
    exact List.length_eq_zero_iff.mp (by omega)
  have hzero : DynamicEncoder.requiredInsertCount t headers ≤ 0 := by
    refine (DynamicEncoder.requiredInsertCount_le_iff t headers 0).mpr fun y _ i hi => ?_
    obtain ⟨z, hz, -⟩ := counted_mem hi
    rw [hempty] at hz
    cases hz
  omega

/-- The decoder is told the Required Insert Count. -/
theorem Written.told (h : Written d.maxTableCapacity fields x)
    (hrange : d.maxTableCapacity ≤ VarInt.max.get) (hwindow : x.InWindow d) :
    ∃ enc n, 2 ≤ x.bytes.length ∧ decodeInteger x.bytes 8 = .ok (enc, n) ∧
      d.decodeRequiredInsertCount enc = .ok x.requiredInsertCount := by
  obtain ⟨-, e, elog, helog, -, hcapacity, hbounded, ⟨hbytes, hric⟩ | ⟨hbytes, hric⟩⟩ := h
  · rw [hbytes, hric]
    refine ⟨0, 1, by simp [DynamicEncoder.encodeStaticOnly], ?_, rfl⟩
    exact decodeInteger_encode 0 8 0x00 _ (by decide) (by decide) (by decide) (by decide)
  · have hmax : VarInt.max.get = 2 ^ 62 - 1 := rfl
    obtain ⟨hlong, hint, -⟩ := encodeWithDynamic_head (e := e) (by omega) x.headers
    rw [← hric] at hint
    rw [hbytes]
    refine ⟨_, _, hlong, hint, ?_⟩
    rcases Nat.eq_zero_or_pos x.requiredInsertCount with hzero | hpos
    · rw [hzero]
      rfl
    · have hentries := requiredInsertCount_pos helog.wellFormed hbounded (hric ▸ hpos)
      obtain ⟨hahead, hrecent⟩ := hwindow hpos
      rw [← hcapacity] at hentries hahead hrecent
      exact decodeRequiredInsertCount_encode hcapacity.symm hentries hahead hrecent

/-- It is blocked until so many inserts have arrived. -/
theorem Written.blocked_iff (h : Written d.maxTableCapacity fields x)
    (hrange : d.maxTableCapacity ≤ VarInt.max.get) (hwindow : x.InWindow d) :
    (d.decode x.bytes).1 = .ok .blocked ↔ d.table.insertCount < x.requiredInsertCount := by
  obtain ⟨enc, n, hlong, hint, htold⟩ := h.told hrange hwindow
  rw [DynamicDecoder.decode_blocked_iff]
  constructor
  · rintro ⟨enc', n', ric, -, hint', htold', hlt⟩
    rw [hint] at hint'
    cases hint'
    rw [htold] at htold'
    cases htold'
    exact hlt
  · intro hlt
    exact ⟨enc, n, _, hlong, hint, htold, hlt⟩

theorem Written.lastRequiredInsertCount (h : Written d.maxTableCapacity fields x)
    (hrange : d.maxTableCapacity ≤ VarInt.max.get) (hwindow : x.InWindow d) :
    (d.decode x.bytes).2.lastRequiredInsertCount = x.requiredInsertCount := by
  obtain ⟨enc, n, hlong, hint, htold⟩ := h.told hrange hwindow
  unfold DynamicDecoder.decode
  rw [if_neg (Nat.not_lt.mpr hlong), hint]
  dsimp only
  rw [htold]
  dsimp only
  split <;> rfl

/-- **It is read as what was written**, if it is read at all. -/
theorem Written.decode (h : Written d.maxTableCapacity fields x)
    (hrange : d.maxTableCapacity ≤ VarInt.max.get) (hwindow : x.InWindow d)
    (hlog : d.table.Holds log) (hearlier : log.items <+: fields)
    (hcount : d.table.insertCount < 2 ^ 64) {hs : List Header}
    (hdecode : (d.decode x.bytes).1 = .ok (.decoded hs)) : hs = x.headers.map readBack := by
  have hready : x.requiredInsertCount ≤ d.table.insertCount := by
    by_contra hlt
    have hblocked := (h.blocked_iff hrange hwindow).mpr (Nat.lt_of_not_le hlt)
    rw [hblocked] at hdecode
    cases hdecode
  -- a decoder with the whole log, and without a limit of its own
  let d' : DynamicDecoder :=
    { d with
      table := .ofFields log.items
      maxFieldSectionSize := max d.maxFieldSectionSize (x.headers.map Header.size).sum }
  have hcovers : d'.Covers d := by
    refine ⟨?_, rfl, Nat.le_max_left _ _, fun i e he => hlog.ofFields_covers he⟩
    exact (DynamicTable.ofFields_insertCount log.items).trans hlog.count.symm
  have hread := hcovers.decode hdecode
  have hwritten : (d'.decode x.bytes).1 = .ok (.decoded (x.headers.map readBack)) := by
    have htold' := h.told (d := d') hrange (by
      intro hpos
      rw [hcovers.insertCount]
      exact hwindow hpos)
    obtain ⟨hlength, e, elog, helog, hbehind, hcapacity, hbounded, hbytes⟩ := h
    rcases hbytes with ⟨hbytes, -⟩ | ⟨hbytes, hric⟩
    · rw [hbytes] at hlength ⊢
      exact (decode_static hlength (Nat.le_max_right _ _)).2 d' rfl
    · have hmax : VarInt.max.get = 2 ^ 62 - 1 := rfl
      have hsize := hbounded.size
      obtain ⟨enc, n, -, hint, htold⟩ := htold'
      obtain ⟨-, hint', -⟩ := encodeWithDynamic_head (e := e) (by omega) x.headers
      rw [hbytes] at hlength hint ⊢
      rw [hint'] at hint
      cases hint
      rw [← hric] at htold
      refine decode_written hric.symm helog.wellFormed (by omega) (by omega) ?_ htold
        (hready.trans_eq hcovers.insertCount.symm) (by omega) hlength (Nat.le_max_right _ _)
      exact helog.mirrorsBelow hbehind hearlier (hready.trans_eq hlog.count)
  rw [hread] at hwritten
  cases hwritten
  rfl

end Decode

/-! ## What the encoder has written -/

section Encode

variable {e : DynamicEncoder} {log : Log Field} {cap : VarInt} {headers : List Header}
  {blockedStreams : Nat} {bytes : Bytes}

/-- The entries that a section needs were not dropped. -/
theorem droppedCount_lt {t : DynamicTable} (h : t.WellFormed)
    (hpos : 0 < DynamicEncoder.requiredInsertCount t headers) :
    t.droppedCount < DynamicEncoder.requiredInsertCount t headers := by
  by_contra hle
  have hzero : DynamicEncoder.requiredInsertCount t headers ≤ 0 := by
    refine (DynamicEncoder.requiredInsertCount_le_iff t headers 0).mpr fun y hy i hi => ?_
    have hlt := (DynamicEncoder.requiredInsertCount_le_iff t headers _).mp (Nat.le_of_not_lt hle)
      y hy i hi
    obtain ⟨z, hz, rfl⟩ := counted_mem hi
    obtain ⟨j, hj⟩ := List.mem_iff_getElem?.mp hz
    have hindex := h.index j z hj
    have hdropped := h.dropped
    have hlast := (List.getElem?_eq_some_iff.mp hj).1
    omega
  omega

theorem Written.of_encode (hlog : e.table.Holds log) (hbounded : e.table.Bounded e.maxTableCapacity)
    (h : (e.encode cap.get headers blockedStreams).1 = some bytes) :
    Written e.maxTableCapacity log.items
        ⟨bytes, headers, (e.encode cap.get headers blockedStreams).2.lastRequiredInsertCount⟩ ∧
      (0 < (e.encode cap.get headers blockedStreams).2.lastRequiredInsertCount →
        e.table.droppedCount < (e.encode cap.get headers blockedStreams).2.lastRequiredInsertCount) := by
  have hmax : cap.get ≤ VarInt.max.get := cap.le_max
  unfold DynamicEncoder.encode at h ⊢
  split at h
  · rename_i huses
    rw [if_pos huses]
    obtain ⟨rfl, hlength⟩ := fit_eq_some h
    refine ⟨⟨hlength.trans hmax, e, log, hlog, List.prefix_refl _, rfl, hbounded,
      .inr ⟨rfl, rfl⟩⟩, ?_⟩
    exact droppedCount_lt hlog.wellFormed
  · rename_i huses
    rw [if_neg huses]
    obtain ⟨rfl, hlength⟩ := fit_eq_some h
    exact ⟨⟨hlength.trans hmax, e, log, hlog, List.prefix_refl _, rfl, hbounded,
      .inl ⟨rfl, rfl⟩⟩, fun hpos => absurd hpos (Nat.lt_irrefl 0)⟩

end Encode

end WrittenSection

end Http3.Qpack
