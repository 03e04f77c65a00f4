import Http3.Qpack.Replication
import Http3.Qpack.TableRuns

/-!
# One log behind both tables

An instruction appends a field to the log behind a table, and the log alone decides which one. The
encoder's table and the decoder's hold different parts of one log: the decoder is behind with the
instructions that have not arrived, and the two evict at different times.
-/

namespace Http3.Qpack

/-! ## What an instruction appends -/

/-- The field that an instruction appends to what was inserted so far. -/
def EncoderInstruction.field (items : List Field) : EncoderInstruction → Option Field
  | .setDynamicTableCapacity _ => none
  | .insertWithNameReference true nameIndex value =>
    (getStaticEntry nameIndex).map fun h => (h.name, value)
  | .insertWithNameReference false nameIndex value =>
    items.reverse[nameIndex]?.map fun f => (f.1, value)
  | .insertWithLiteralName name value => some (name, value)
  | .duplicate relativeIndex => items.reverse[relativeIndex]?

def EncoderInstruction.grow (items : List Field) (i : EncoderInstruction) : List Field :=
  items ++ (i.field items).toList

theorem EncoderInstruction.prefix_grow (items : List Field)
    (instructions : List EncoderInstruction) : items <+: instructions.foldl grow items := by
  induction instructions generalizing items with
  | nil => exact List.prefix_refl items
  | cons i instructions ih => exact (List.prefix_append items _).trans (ih _)

/-- The field that an instruction inserts into a table. -/
def EncoderInstruction.fieldIn (t : DynamicTable) : EncoderInstruction → Option Field
  | .setDynamicTableCapacity _ => none
  | .insertWithNameReference isStatic nameIndex value =>
    match EncoderStreamReceiver.referencedName t isStatic nameIndex with
    | .ok name => some (name, value)
    | .error _ => none
  | .insertWithLiteralName name value => some (name, value)
  | .duplicate relativeIndex => (t.getByRelativeIndexEncoder relativeIndex).map DynamicEntry.field

namespace DynamicTable

/-- The entries of a table are the last items of its log. -/
theorem Holds.getElem?_reverse {t : DynamicTable} {log : Log Field} (h : t.Holds log) {r : Nat}
    {e : DynamicEntry} (he : t.entries[r]? = some e) : log.items.reverse[r]? = some e.field := by
  have hheld : log.held.reverse[r]? = some e.field := by
    rw [← h.fields, List.getElem?_map, he, Option.map_some]
  rw [Log.held, List.reverse_drop, List.getElem?_take] at hheld
  split at hheld
  · exact hheld
  · cases hheld

theorem Holds.field_eq {t : DynamicTable} {log : Log Field} (h : t.Holds log)
    {i : EncoderInstruction} {f : Field} (hf : i.fieldIn t = some f) :
    i.field log.items = some f := by
  cases i with
  | setDynamicTableCapacity capacity => cases hf
  | insertWithNameReference isStatic nameIndex value =>
    unfold EncoderInstruction.fieldIn EncoderStreamReceiver.referencedName at hf
    cases isStatic with
    | true =>
      cases hentry : getStaticEntry nameIndex with
      | none => simp [hentry] at hf
      | some x =>
        simp only [hentry, if_true, Option.map_some] at hf
        simp only [EncoderInstruction.field, hentry, Option.map_some]
        exact hf
    | false =>
      cases hentry : t.getByRelativeIndexEncoder nameIndex with
      | none => simp [hentry] at hf
      | some e =>
        simp only [hentry, Option.map_some] at hf
        simp only [EncoderInstruction.field, h.getElem?_reverse hentry, Option.map_some]
        exact hf
  | insertWithLiteralName name value => exact hf
  | duplicate relativeIndex =>
    simp only [EncoderInstruction.fieldIn] at hf
    cases hentry : t.getByRelativeIndexEncoder relativeIndex with
    | none =>
      rw [hentry] at hf
      cases hf
    | some e =>
      rw [hentry] at hf
      exact (h.getElem?_reverse hentry).trans hf

/-! ## What an instruction does to a table -/

theorem insert_cases {t t' : DynamicTable} (h : t.WellFormed) {name value : Bytes}
    (happly : inserted (t.insert name value) = some t') :
    ∃ gone t₁, Evicts (entrySize name value) t t₁ gone ∧ entrySize name value ≤ t.maxCapacity ∧
      totalSize t₁.entries + entrySize name value ≤ t.maxCapacity ∧
        t' = t₁.pushFront name value := by
  rcases insert_spec name value h with ⟨-, heq⟩ | ⟨hsize, gone, t₁, hevicts, hfits, heq⟩
  · rw [heq] at happly
    cases happly
  · rw [heq] at happly
    cases happly
    exact ⟨gone, t₁, hevicts, hsize, hfits, rfl⟩

/-- A capacity is set, or a field is inserted. -/
theorem apply_cases {t t' : DynamicTable} (h : t.WellFormed) {i : EncoderInstruction}
    (happly : t.apply i = some t') :
    (∃ capacity gone, i = .setDynamicTableCapacity capacity ∧
      Evicts 0 { t with maxCapacity := capacity } t' gone) ∨
      ∃ f gone t₁, i.fieldIn t = some f ∧ Evicts (entrySize f.1 f.2) t t₁ gone ∧
        entrySize f.1 f.2 ≤ t.maxCapacity ∧
          totalSize t₁.entries + entrySize f.1 f.2 ≤ t.maxCapacity ∧ t' = t₁.pushFront f.1 f.2 := by
  cases i with
  | setDynamicTableCapacity capacity =>
    cases happly
    obtain ⟨gone, hevicts⟩ := setCapacity_spec capacity h
    exact .inl ⟨capacity, gone, rfl, hevicts⟩
  | insertWithNameReference isStatic nameIndex value =>
    right
    simp only [apply] at happly
    simp only [EncoderInstruction.fieldIn]
    split at happly
    · rename_i name hname
      obtain ⟨gone, t₁, hinsert⟩ := insert_cases h happly
      exact ⟨(name, value), gone, t₁, by simp only [hname], hinsert⟩
    · cases happly
  | insertWithLiteralName name value =>
    right
    obtain ⟨gone, t₁, hinsert⟩ := insert_cases h happly
    exact ⟨(name, value), gone, t₁, rfl, hinsert⟩
  | duplicate relativeIndex =>
    right
    simp only [apply, duplicate] at happly
    simp only [EncoderInstruction.fieldIn]
    split at happly
    · cases happly
    · rename_i e he
      obtain ⟨gone, t₁, hinsert⟩ := insert_cases h happly
      exact ⟨e.field, gone, t₁, by rw [he, Option.map_some], hinsert⟩

/-- The log grows as the instruction says, and forgets what was evicted. -/
theorem Holds.apply {t t' : DynamicTable} {log : Log Field} (h : t.Holds log)
    {i : EncoderInstruction} (happly : t.apply i = some t') :
    ∃ log', t'.Holds log' ∧ log'.items = i.grow log.items := by
  rcases apply_cases h.wellFormed happly with
    ⟨capacity, gone, rfl, hevicts⟩ | ⟨f, gone, t₁, hf, hevicts, -, -, rfl⟩
  · have hsame : Holds { t with maxCapacity := capacity } log :=
      ⟨⟨h.wellFormed.size, h.wellFormed.index, h.wellFormed.dropped⟩, h.count, h.fields⟩
    exact ⟨_, hsame.evicts hevicts, (List.append_nil _).symm⟩
  · refine ⟨_, (h.evicts hevicts).push f.1 f.2, ?_⟩
    rw [EncoderInstruction.grow, h.field_eq hf]
    rfl

/-! ## What an instruction evicts -/

theorem Evicts.droppedCount_eq {size : Nat} {t t' : DynamicTable} {gone : List DynamicEntry}
    (hevicts : Evicts size t t' gone) (h : t.WellFormed) :
    t'.droppedCount = t.droppedCount + gone.length := by
  have hbefore := h.dropped
  have hafter := hevicts.wellFormed.dropped
  rw [hevicts.entries, List.length_append] at hbefore
  rw [hevicts.insertCount] at hafter
  omega

/-- Nothing is evicted as long as the oldest entry is below the limit. -/
theorem Evicts.kept {size : Nat} {t t' : DynamicTable} {gone : List DynamicEntry}
    (hevicts : Evicts size t t' gone) (h : t.WellFormed)
    (hlimit : t.droppedCount < t.evictionLimit) : t'.droppedCount = t.droppedCount := by
  rcases List.eq_nil_or_concat gone with rfl | ⟨newer, e, rfl⟩
  · exact hevicts.droppedCount_eq h
  · have hevictable := hevicts.evictable e (by simp)
    have hdropped := h.dropped
    have hlast := h.index (t.entries.length - 1) e (by
      rw [← List.getLast?_eq_getElem?, hevicts.entries, List.concat_eq_append, ← List.append_assoc,
        List.getLast?_concat])
    have hpos : 0 < t.entries.length := by
      rw [hevicts.entries]
      simp
    omega

/-- If only entries below `count` are evicted, not more than these are gone. -/
theorem Evicts.droppedCount_le {size : Nat} {t t' : DynamicTable} {gone : List DynamicEntry}
    (hevicts : Evicts size t t' gone) (h : t.WellFormed) {count : Nat}
    (hdropped : t.droppedCount ≤ count) (hgone : ∀ x ∈ gone, x.absoluteIndex < count) :
    t'.droppedCount ≤ count := by
  cases gone with
  | nil => exact (hevicts.droppedCount_eq h).trans_le hdropped
  | cons newest older =>
    have hindex := h.index t'.entries.length newest (by
      rw [hevicts.entries, List.getElem?_append_right (Nat.le_refl _), Nat.sub_self]
      rfl)
    have hbelow := hgone newest List.mem_cons_self
    have hafter := hevicts.wellFormed.dropped
    rw [hevicts.insertCount] at hafter
    omega

/-- An entry that an outstanding section may refer to keeps what is behind it. -/
theorem apply_kept {t t' : DynamicTable} (h : t.WellFormed) {i : EncoderInstruction}
    (happly : t.apply i = some t') (hlimit : t.droppedCount < t.evictionLimit) :
    t'.droppedCount = t.droppedCount := by
  rcases apply_cases h happly with
    ⟨capacity, gone, rfl, hevicts⟩ | ⟨f, gone, t₁, -, hevicts, -, -, rfl⟩
  · exact hevicts.kept ⟨h.size, h.index, h.dropped⟩ hlimit
  · exact hevicts.kept h hlimit

theorem apply_evictionLimit {t t' : DynamicTable} (h : t.WellFormed) {i : EncoderInstruction}
    (happly : t.apply i = some t') : t'.evictionLimit = t.evictionLimit := by
  rcases apply_cases h happly with
    ⟨capacity, gone, rfl, hevicts⟩ | ⟨f, gone, t₁, -, hevicts, -, -, rfl⟩
  · exact hevicts.evictionLimit
  · exact hevicts.evictionLimit

/-! ## Sizes -/

theorem Bounded.apply {n : Nat} {t t' : DynamicTable} (hbounded : t.Bounded n) (h : t.WellFormed)
    {i : EncoderInstruction} (happly : t.apply i = some t')
    (hcapacity : ∀ capacity, i = .setDynamicTableCapacity capacity → capacity ≤ n) :
    t'.Bounded n := by
  have hsize := hbounded.size
  have hmax := hbounded.capacity
  rcases apply_cases h happly with
    ⟨capacity, gone, rfl, hevicts⟩ | ⟨f, gone, t₁, -, hevicts, hentry, hfits, rfl⟩
  · refine ⟨?_, hevicts.maxCapacity.trans_le (hcapacity capacity rfl)⟩
    have hsplit : t.entries = t'.entries ++ gone := hevicts.entries
    rw [h.size, hsplit, totalSize_append] at hsize
    rw [hevicts.wellFormed.size]
    omega
  · refine ⟨?_, hevicts.maxCapacity.trans_le hmax⟩
    have hafter := hevicts.wellFormed.size
    simp only [pushFront]
    omega

/-- Every entry takes 32 bytes at least. -/
theorem Bounded.insertCount_le {n : Nat} {t : DynamicTable} (hbounded : t.Bounded n)
    (h : t.WellFormed) : t.insertCount ≤ t.droppedCount + n / 32 := by
  have hlength := length_le_totalSize t.entries
  have hsize := hbounded.size
  have hdropped := h.dropped
  rw [h.size] at hsize
  omega

end DynamicTable

/-! ## Room -/

namespace Sender

/-- Does a change of the table find the room it needs? -/
def findsRoomFor (e : DynamicEncoder) : EncoderInstruction → Bool
  | .setDynamicTableCapacity capacity => hasRoom e capacity 0
  | i => (i.fieldIn e.table).all fun f => hasRoomFor e f.1 f.2

theorem findsRoomFor_inserts {e : DynamicEncoder} {i : EncoderInstruction} {f : Field}
    (hf : i.fieldIn e.table = some f) (hroom : findsRoomFor e i = true) :
    hasRoomFor e f.1 f.2 = true := by
  cases i with
  | setDynamicTableCapacity capacity => cases hf
  | insertWithNameReference | insertWithLiteralName | duplicate =>
    simp only [findsRoomFor, hf, Option.all_some] at hroom
    exact hroom

/-- A change that finds room evicts confirmed entries only. -/
theorem droppedCount_le_of_room {e : DynamicEncoder} (h : e.table.WellFormed)
    {i : EncoderInstruction} {t' : DynamicTable} (happly : e.table.apply i = some t')
    (hroom : findsRoomFor e i = true) (hdropped : e.table.droppedCount ≤ e.knownReceivedCount) :
    t'.droppedCount ≤ e.knownReceivedCount := by
  rcases DynamicTable.apply_cases h happly with
    ⟨capacity, gone, rfl, hevicts⟩ | ⟨f, gone, t₁, hf, hevicts, hentry, -, rfl⟩
  · have hwf : DynamicTable.WellFormed { e.table with maxCapacity := capacity } :=
      ⟨h.size, h.index, h.dropped⟩
    exact hevicts.droppedCount_le hwf hdropped
      ((hevicts.below_iff hwf (Nat.zero_le _) _).mpr ((hasRoom_iff e capacity 0).mp hroom))
  · have hfound := findsRoomFor_inserts hf hroom
    rw [hasRoomFor, decide_eq_false (Nat.not_lt.mpr hentry), Bool.false_or] at hfound
    exact hevicts.droppedCount_le h hdropped
      ((hevicts.below_iff h hentry _).mpr ((hasRoom_iff e _ _).mp hfound))

end Sender

/-! ## What a call of the receiver has done -/

namespace EncoderStreamReceiver

section Inversion

variable {r r' : EncoderStreamReceiver} {t t' : DynamicTable} {i : EncoderInstruction}

theorem insertEntry_some {name value : Bytes} {consumed : Nat} {j : EncoderInstruction}
    (h : r.insertEntry t name value consumed i = (.ok (some j), r', t')) :
    j = i ∧ r' = r.drain consumed ∧ DynamicTable.inserted (t.insert name value) = some t' := by
  unfold insertEntry at h
  rcases hinsert : t.insert name value with ⟨_ | index, t₁⟩ <;> rw [hinsert] at h <;> cases h
  exact ⟨rfl, rfl, rfl⟩

/-- An instruction that is there is carried out, or fails for good. -/
theorem insertEntry_done {name value : Bytes} {consumed : Nat}
    {x : Except QpackError (Option EncoderInstruction)}
    (h : r.insertEntry t name value consumed i = (x, r', t')) :
    x ≠ .ok none ∧ x ≠ .error .bufferTooShort := by
  unfold insertEntry at h
  rcases hinsert : t.insert name value with ⟨_ | index, t₁⟩ <;> rw [hinsert] at h <;> cases h <;>
    simp

/-- Nothing has happened to an instruction that is incomplete. -/
theorem decodeInstruction_short {first : UInt8} {x : Except QpackError (Option EncoderInstruction)}
    (hx : x = .ok none ∨ x = .error .bufferTooShort)
    (h : r.decodeInstruction t first = (x, r', t')) : r' = r ∧ t' = t := by
  have hinsert : ∀ {name value : Bytes} {consumed : Nat} {i : EncoderInstruction},
      r.insertEntry t name value consumed i = (x, r', t') → r' = r ∧ t' = t := by
    intro name value consumed i h
    obtain ⟨hnone, hshort⟩ := insertEntry_done h
    exact absurd hx (not_or.mpr ⟨hnone, hshort⟩)
  unfold decodeInstruction at h
  split at h
  · unfold decodeInsertWithNameRef at h
    dsimp only at h
    split at h
    · cases h
      exact ⟨rfl, rfl⟩
    split at h
    · cases h
      exact ⟨rfl, rfl⟩
    split at h
    · cases h
      exact ⟨rfl, rfl⟩
    · exact hinsert h
  split at h
  · unfold decodeInsertWithLiteralName at h
    split at h
    · cases h
      exact ⟨rfl, rfl⟩
    split at h
    · cases h
      exact ⟨rfl, rfl⟩
    · exact hinsert h
  split at h
  · unfold decodeSetCapacity at h
    split at h
    · cases h
      exact ⟨rfl, rfl⟩
    split at h
    · cases h
      exact ⟨rfl, rfl⟩
    · cases h
      simp at hx
  · unfold decodeDuplicate at h
    split at h
    · cases h
      exact ⟨rfl, rfl⟩
    split at h <;> cases h <;> simp at hx

theorem decodeInstruction_some {first : UInt8} {rest : Bytes} (hbuf : r.recvBuffer = first :: rest)
    (h : r.decodeInstruction t first = (.ok (some i), r', t')) :
    ∃ n, EncoderInstruction.read r.recvBuffer = .ok (i, n) ∧ t.apply i = some t' ∧ r' = r.drain n ∧
      ∀ capacity, i = .setDynamicTableCapacity capacity → capacity ≤ r.maxTableCapacity := by
  rw [hbuf]
  change ∃ n, EncoderInstruction.readBody first (first :: rest) = .ok (i, n) ∧ _
  unfold EncoderInstruction.readBody
  unfold decodeInstruction at h
  split at h
  · rename_i h80
    rw [if_pos h80]
    unfold decodeInsertWithNameRef at h
    rw [hbuf] at h
    dsimp only at h
    split at h
    · cases h
    rename_i nameIndex n hint
    split at h
    · cases h
    rename_i value m hvalue
    split at h
    · cases h
    rename_i name hname
    obtain ⟨rfl, rfl, hinsert⟩ := insertEntry_some h
    refine ⟨n + (m + 0), ?_, ?_, rfl, fun c hc => by cases hc⟩
    · exact Reader.andThen_of_ok hint (Reader.andThen_of_ok hvalue rfl)
    · simp only [DynamicTable.apply, hname]
      exact hinsert
  rename_i h80
  rw [if_neg h80]
  split at h
  · rename_i h40
    rw [if_pos h40]
    unfold decodeInsertWithLiteralName at h
    rw [hbuf] at h
    split at h
    · cases h
    rename_i name n hname
    split at h
    · cases h
    rename_i value m hvalue
    obtain ⟨rfl, rfl, hinsert⟩ := insertEntry_some h
    refine ⟨n + (m + 0), ?_, hinsert, rfl, fun c hc => by cases hc⟩
    exact Reader.andThen_of_ok hname (Reader.andThen_of_ok hvalue rfl)
  rename_i h40
  rw [if_neg h40]
  split at h
  · rename_i h20
    rw [if_pos h20]
    unfold decodeSetCapacity at h
    rw [hbuf] at h
    split at h
    · cases h
    rename_i capacity n hint
    split at h
    · cases h
    rename_i hcapacity
    cases h
    refine ⟨n + 0, Reader.andThen_of_ok hint rfl, rfl, rfl, fun c hc => ?_⟩
    cases hc
    exact Nat.le_of_not_lt hcapacity
  · rename_i h20
    rw [if_neg h20]
    unfold decodeDuplicate at h
    rw [hbuf] at h
    split at h
    · cases h
    rename_i relativeIndex n hint
    rcases hduplicate : t.duplicate relativeIndex with ⟨_ | index, t₁⟩ <;> rw [hduplicate] at h <;>
      cases h
    refine ⟨n + 0, Reader.andThen_of_ok hint rfl, ?_, rfl, fun c hc => by cases hc⟩
    simp only [DynamicTable.apply, hduplicate]
    rfl

/-- The first instruction is carried out. -/
theorem process_some (h : r.process t = (.ok (some i), r', t')) :
    ∃ n, EncoderInstruction.read r.recvBuffer = .ok (i, n) ∧ t.apply i = some t' ∧ r' = r.drain n ∧
      ∀ capacity, i = .setDynamicTableCapacity capacity → capacity ≤ r.maxTableCapacity := by
  unfold process at h
  split at h
  · cases h
  · rename_i first rest hbuf
    split at h
    · cases h
    · exact decodeInstruction_some hbuf h

/-- No instruction is complete. -/
theorem process_none (h : r.process t = (.ok none, r', t')) : r' = r ∧ t' = t := by
  unfold process at h
  split at h
  · cases h
    exact ⟨rfl, rfl⟩
  · split at h
    · rename_i hshort
      cases h
      exact decodeInstruction_short (.inr rfl) hshort
    · exact decodeInstruction_short (.inl rfl) h

/-- What is carried out is the first of the instructions that were written. -/
theorem process_head {pending : List EncoderInstruction} {future : Bytes}
    (hencodable : ∀ j ∈ pending, j.Encodable)
    (hbytes : r.recvBuffer ++ future = (pending.map EncoderInstruction.bytes).flatten)
    (h : r.process t = (.ok (some i), r', t')) :
    ∃ rest, pending = i :: rest ∧ t.apply i = some t' ∧
      r'.recvBuffer ++ future = (rest.map EncoderInstruction.bytes).flatten ∧
        r'.maxTableCapacity = r.maxTableCapacity ∧
          ∀ capacity, i = .setDynamicTableCapacity capacity → capacity ≤ r.maxTableCapacity := by
  obtain ⟨n, hread, happly, rfl, hcapacity⟩ := process_some h
  have hlength := EncoderInstruction.read_stable.fits hread
  have hmore := EncoderInstruction.read_stable.append r.recvBuffer (by simp [hread]) future
  rw [hread] at hmore
  cases pending with
  | nil =>
    rw [hbytes] at hmore
    cases hmore
  | cons j rest =>
    have hfirst := EncoderInstruction.read_bytes (hencodable j List.mem_cons_self)
      (rest.map EncoderInstruction.bytes).flatten
    rw [List.map_cons, List.flatten_cons] at hbytes
    rw [hbytes, hfirst] at hmore
    cases hmore
    refine ⟨rest, rfl, happly, ?_, rfl, hcapacity⟩
    rw [drain, ← List.drop_append_of_le_length hlength, hbytes, List.drop_left' rfl]

end Inversion

end EncoderStreamReceiver

end Http3.Qpack
