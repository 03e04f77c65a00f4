import Http3.Qpack.Encoder

/-!
# What the encoder may evict

An encoder keeps the entries that an outstanding section refers to. Those that the decoder has not
confirmed yet it keeps only where the table has room for all of them, or where an outstanding
section bars every eviction.
-/

namespace Http3.Qpack

/-! ## Sections that were sent -/

/-- A section that was sent: its Required Insert Count and the entries it refers to. -/
structure SentSection where
  requiredInsertCount : Nat
  references : List Nat
  deriving DecidableEq

namespace DynamicEncoder

/-- The entry that a field line refers to. -/
def reference (t : DynamicTable) (h : Header) : Option Nat :=
  match t.findEntry h.name h.value, findStaticEntry h.name h.value with
  | (some absIndex, _), _ => some absIndex
  | (none, _), (some _, _) => none
  | (none, nameIndex), (none, _) => nameIndex

/-- The entries that a section refers to. -/
def references (e : DynamicEncoder) (headers : List Header) (blockedStreams : Nat) : List Nat :=
  if e.usesDynamic blockedStreams then headers.filterMap (reference e.table) else []

theorem counted_of_reference {t : DynamicTable} {h : Header} {i : Nat} (hi : reference t h = some i) :
    counted t h = some i := by
  revert hi
  unfold reference counted
  rcases t.findEntry h.name h.value with ⟨_ | a, b⟩
  · rcases findStaticEntry h.name h.value with ⟨_ | k, _⟩
    · exact fun hi => hi
    · exact fun hi => by cases hi
  · exact fun hi => hi

theorem lt_requiredInsertCount {t : DynamicTable} {headers : List Header} {i : Nat}
    (hi : i ∈ headers.filterMap (reference t)) : i < requiredInsertCount t headers := by
  obtain ⟨h, hh, hi⟩ := List.mem_filterMap.mp hi
  exact (requiredInsertCount_le_iff t headers _).mp (Nat.le_refl _) h hh i (counted_of_reference hi)

/-- The Required Insert Count is beyond every entry a section refers to. -/
theorem references_lt {e : DynamicEncoder} {cap blocked : Nat} {headers : List Header} :
    ∀ i ∈ e.references headers blocked,
      i < (e.encode cap headers blocked).2.lastRequiredInsertCount := by
  unfold references encode
  split
  · exact fun i hi => lt_requiredInsertCount hi
  · exact fun i hi => by cases hi

end DynamicEncoder

/-! ## Confirmed entries -/

namespace DynamicTable

theorem totalSize_filter_le (p : DynamicEntry → Bool) (entries : List DynamicEntry) :
    totalSize (entries.filter p) ≤ totalSize entries := by
  induction entries with
  | nil => exact Nat.le_refl _
  | cons x entries ih =>
    rw [List.filter_cons, totalSize_cons]
    split
    · rw [totalSize_cons]
      exact Nat.add_le_add_left ih _
    · exact ih.trans (Nat.le_add_left _ _)

/-- Only entries below `count` are evicted if and only if the others fit, or none may go. -/
theorem Evicts.below_iff {size : Nat} {t t' : DynamicTable} {gone : List DynamicEntry}
    (h : t.WellFormed) (hevicts : Evicts size t t' gone) (hsize : size ≤ t.maxCapacity)
    (count : Nat) :
    (∀ x ∈ gone, x.absoluteIndex < count) ↔
      t.Barred ∨
        totalSize (t.entries.filter fun x => count ≤ x.absoluteIndex) + size ≤ t.maxCapacity := by
  constructor
  · intro hgone
    have hfilter : (t.entries.filter fun x => count ≤ x.absoluteIndex) =
        t'.entries.filter fun x => count ≤ x.absoluteIndex := by
      have hnone : (gone.filter fun x => count ≤ x.absoluteIndex) = [] :=
        List.filter_eq_nil_iff.mpr fun x hx => by simpa using hgone x hx
      rw [hevicts.entries, List.filter_append, hnone, List.append_nil]
    rcases hevicts.all_or_nothing h hsize with hfits | ⟨-, hbarred⟩
    · refine .inr (le_trans (Nat.add_le_add_right ?_ _) hfits)
      rw [hfilter]
      exact totalSize_filter_le _ _
    · exact .inl hbarred
  · rintro (⟨e, he, hlt⟩ | hfits) x hx
    · have hlast : e ∈ gone := by
        rw [hevicts.entries, List.getLast?_append_of_ne_nil _ (List.ne_nil_of_mem hx)] at he
        exact List.mem_of_getLast? he
      have := hevicts.evictable e hlast
      omega
    · by_contra hcount
      obtain ⟨newer, older, hsplit⟩ := List.append_of_mem hx
      have hneeded := hevicts.needed newer x older hsplit
      have hentries : t.entries = (t'.entries ++ newer ++ [x]) ++ older := by
        rw [hevicts.entries, hsplit]
        simp
      have hkept : (t'.entries ++ newer ++ [x]).filter (fun x => count ≤ x.absoluteIndex) =
          t'.entries ++ newer ++ [x] := by
        rw [List.filter_eq_self]
        intro y hy
        rcases List.mem_append.mp hy with hy | hy
        · have hsplit' : t.entries = (t'.entries ++ newer) ++ ([x] ++ older) := by
            rw [hentries, List.append_assoc]
          have := h.index_lt hsplit' hy (List.mem_append_left _ (List.mem_singleton_self x))
          simp only [decide_eq_true_eq]
          omega
        · rw [List.mem_singleton.mp hy]
          simp only [decide_eq_true_eq]
          omega
      rw [hentries, List.filter_append, hkept, totalSize_append] at hfits
      omega

end DynamicTable

/-! ## Runs of an encoder -/

/-- What is done to an encoder. A section that was written is tracked. -/
inductive EncoderOp where
  | setMaxTableCapacity (capacity : Nat)
  | setPeerMaxBlockedStreams (max : Nat)
  | setTableCapacity (capacity : Nat)
  | insert (name value : Bytes)
  | duplicate (relativeIndex : Nat)
  | encode (streamId : Nat) (headers : List Header) (cap blockedStreams : Nat)
  | ackSection (streamId : Nat)
  | cancelStream (streamId : Nat)
  | acknowledge (count : Nat)

/-- An encoder and the sections it has sent that are neither acknowledged nor cancelled. -/
structure Sender where
  encoder : DynamicEncoder
  outstanding : Queues SentSection

namespace Sender

def new : Sender := ⟨.new, .empty⟩

def step (s : Sender) : EncoderOp → Sender
  | .setMaxTableCapacity capacity =>
    { s with encoder := s.encoder.setMaxTableCapacity capacity }
  | .setPeerMaxBlockedStreams max => { s with encoder := s.encoder.setPeerMaxBlockedStreams max }
  | .setTableCapacity capacity =>
    match s.encoder.setTableCapacity capacity with
    | .ok encoder => { s with encoder }
    | .error _ => s
  | .insert name value => { s with encoder := (s.encoder.insert name value).2 }
  | .duplicate relativeIndex => { s with encoder := (s.encoder.duplicate relativeIndex).2 }
  | .encode streamId headers cap blockedStreams =>
    let r := s.encoder.encode cap headers blockedStreams
    let ric := r.2.lastRequiredInsertCount
    if r.1.isSome then
      { encoder := r.2.trackSection streamId ric
        outstanding :=
          if 0 < ric then
            s.outstanding.push streamId ⟨ric, s.encoder.references headers blockedStreams⟩
          else s.outstanding }
    else { s with encoder := r.2 }
  | .ackSection streamId =>
    match s.encoder.ackSection streamId with
    | .ok encoder => { encoder, outstanding := s.outstanding.pop streamId }
    | .error _ => s
  | .cancelStream streamId =>
    { encoder := s.encoder.cancelStream streamId, outstanding := s.outstanding.clear streamId }
  | .acknowledge count => { s with encoder := s.encoder.acknowledge count }

def run (s : Sender) (ops : List EncoderOp) : Sender := ops.foldl step s

/-- The table is in order, its limit is the largest outstanding Required Insert Count, and every
section refers to entries below its own. -/
structure Inv (s : Sender) : Prop where
  table : s.encoder.table.WellFormed
  limit : s.encoder.table.evictionLimit = s.encoder.maxUnackedRic
  tracked : s.encoder.unacked = s.outstanding.map SentSection.requiredInsertCount
  references : ∀ k section', section' ∈ s.outstanding k →
    ∀ i ∈ section'.references, i < section'.requiredInsertCount

theorem Inv.new : new.Inv where
  table := .new
  limit := rfl
  tracked := Queues.ofMap_empty
  references k section' h := by cases h

/-- No outstanding section refers to an entry that may be evicted. -/
theorem Inv.not_referenced {s : Sender} (h : s.Inv) {i : Nat}
    (hi : s.encoder.table.evictionLimit ≤ i) {k : Nat} {section' : SentSection}
    (hs : section' ∈ s.outstanding k) : i ∉ section'.references := by
  intro hmem
  have hlt := h.references k section' hs i hmem
  have hunacked : section'.requiredInsertCount ∈ s.encoder.unacked k := by
    rw [h.tracked]
    exact List.mem_map_of_mem hs
  have hle := DynamicEncoder.le_maxUnackedRic hunacked
  rw [← h.limit] at hle
  omega

/-- Only the table changes. -/
theorem Inv.of_table {s : Sender} (h : s.Inv) {t : DynamicTable} (ht : t.WellFormed)
    (hlimit : t.evictionLimit = s.encoder.table.evictionLimit) :
    Inv { s with encoder := { s.encoder with table := t } } where
  table := ht
  limit := hlimit.trans h.limit
  tracked := h.tracked
  references := h.references

/-- The limit follows the sections. -/
theorem Inv.of_outstanding {e : DynamicEncoder} {outstanding : Queues SentSection}
    (ht : e.table.WellFormed) (htracked : e.unacked = outstanding.map SentSection.requiredInsertCount)
    (href : ∀ k section', section' ∈ outstanding k →
      ∀ i ∈ section'.references, i < section'.requiredInsertCount) :
    Inv ⟨e.updateEvictionLimit, outstanding⟩ where
  table := ht.setEvictionLimit _
  limit := rfl
  tracked := htracked
  references := href

theorem Inv.step {s : Sender} (h : s.Inv) (op : EncoderOp) : (s.step op).Inv := by
  cases op with
  | setMaxTableCapacity | setPeerMaxBlockedStreams => exact ⟨h.1, h.2, h.3, h.4⟩
  | setTableCapacity capacity =>
    simp only [Sender.step, DynamicEncoder.setTableCapacity]
    split
    · rename_i e he
      split at he <;> cases he
      obtain ⟨gone, hgone⟩ := DynamicTable.setCapacity_spec capacity h.table
      exact h.of_table hgone.wellFormed hgone.evictionLimit
    · exact h
  | insert name value =>
    exact h.of_table (h.table.insert name value) (DynamicTable.insert_evictionLimit ..)
  | duplicate relativeIndex =>
    exact h.of_table (h.table.duplicate relativeIndex) (DynamicTable.duplicate_evictionLimit ..)
  | encode streamId headers cap blocked =>
    have htable := s.encoder.encode_table cap headers blocked
    have hunacked : (s.encoder.encode cap headers blocked).2.unacked = s.encoder.unacked := by
      unfold DynamicEncoder.encode
      split <;> rfl
    have hencoded : Inv ⟨(s.encoder.encode cap headers blocked).2, s.outstanding⟩ := by
      refine ⟨htable ▸ h.table, ?_, hunacked.trans h.tracked, h.references⟩
      rw [htable, h.limit]
      unfold DynamicEncoder.encode
      split <;> rfl
    simp only [Sender.step]
    split
    · split
      · rename_i hric
        rw [DynamicEncoder.trackSection, if_pos hric]
        refine Inv.of_outstanding hencoded.table ?_ fun k section' hs => ?_
        · have := DynamicEncoder.trackSection_unacked
            (s.encoder.encode cap headers blocked).2 streamId hric
          rw [DynamicEncoder.trackSection, if_pos hric] at this
          refine this.trans ?_
          rw [hunacked, h.tracked, Queues.map_push]
        · rcases Queues.mem_push.mp hs with hs | ⟨-, rfl⟩
          · exact h.references k section' hs
          · exact DynamicEncoder.references_lt
      · rename_i hric
        rw [Nat.eq_zero_of_not_pos hric, DynamicEncoder.trackSection_zero]
        exact hencoded
    · exact hencoded
  | ackSection streamId =>
    simp only [Sender.step]
    cases hack : s.encoder.ackSection streamId with
    | error e => exact h
    | ok e =>
      obtain ⟨ric, rics, -, hpop, -⟩ := DynamicEncoder.ackSection_ok hack
      have htable : ∃ e', e = DynamicEncoder.updateEvictionLimit e' ∧ e'.table = s.encoder.table := by
        unfold DynamicEncoder.ackSection at hack
        split at hack <;> cases hack
        exact ⟨_, rfl, rfl⟩
      obtain ⟨e', rfl, htable⟩ := htable
      refine Inv.of_outstanding (htable ▸ h.table) ?_ fun k section' hs =>
        h.references k section' (Queues.mem_of_mem_pop hs)
      rw [Queues.map_pop, ← h.tracked]
      exact hpop
  | cancelStream streamId =>
    refine Inv.of_outstanding h.table ?_ fun k section' hs =>
      h.references k section' (Queues.mem_of_mem_clear hs)
    rw [Queues.map_clear, ← h.tracked]
    exact s.encoder.cancelStream_unacked streamId
  | acknowledge count => exact Inv.of_outstanding h.table h.tracked h.references

theorem Inv.run {s : Sender} (h : s.Inv) (ops : List EncoderOp) : (s.run ops).Inv := by
  induction ops generalizing s with
  | nil => exact h
  | cons op ops ih => exact ih (h.step op)

/-! ## What must be kept -/

/-- The operation drops the entry. -/
def Drops (s : Sender) (op : EncoderOp) (x : DynamicEntry) : Prop :=
  x ∈ s.encoder.table.entries ∧ x ∉ (s.step op).encoder.table.entries

instance (s : Sender) (op : EncoderOp) (x : DynamicEntry) : Decidable (s.Drops op x) :=
  inferInstanceAs (Decidable (_ ∧ ¬_))

/-- Only entries that the decoder has confirmed are dropped. -/
def KeepsUnconfirmed (s : Sender) (op : EncoderOp) : Prop :=
  ∀ x, s.Drops op x → x.absoluteIndex < s.encoder.knownReceivedCount

/-- No entry that an outstanding section refers to is dropped. -/
def KeepsReferenced (s : Sender) (op : EncoderOp) : Prop :=
  ∀ x, s.Drops op x → ∀ k section', section' ∈ s.outstanding k →
    x.absoluteIndex ∉ section'.references

/-- The entries that the decoder has not confirmed. -/
def unconfirmed (e : DynamicEncoder) : List DynamicEntry :=
  e.table.entries.filter fun x => e.knownReceivedCount ≤ x.absoluteIndex

/-- An outstanding section may refer to the oldest entry, so that nothing is evicted. -/
def barred (e : DynamicEncoder) : Bool :=
  e.table.entries.getLast?.any fun x => decide (x.absoluteIndex < e.table.evictionLimit)

/-- Is there room for an entry of this size beside the unconfirmed ones? -/
def hasRoom (e : DynamicEncoder) (capacity size : Nat) : Bool :=
  barred e || decide (DynamicTable.totalSize (unconfirmed e) + size ≤ capacity)

def hasRoomFor (e : DynamicEncoder) (name value : Bytes) : Bool :=
  decide (e.table.maxCapacity < entrySize name value) ||
    hasRoom e e.table.maxCapacity (entrySize name value)

/-- Does the operation find the room it needs? -/
def findsRoom (e : DynamicEncoder) : EncoderOp → Bool
  | .setTableCapacity capacity => decide (e.maxTableCapacity < capacity) || hasRoom e capacity 0
  | .insert name value => hasRoomFor e name value
  | .duplicate relativeIndex =>
    (e.table.getByRelativeIndexEncoder relativeIndex).all fun x => hasRoomFor e x.name x.value
  | _ => true

theorem barred_iff (e : DynamicEncoder) : barred e = true ↔ e.table.Barred := by
  simp [barred, DynamicTable.Barred, Option.any_eq_true]

theorem hasRoom_iff (e : DynamicEncoder) (capacity size : Nat) : hasRoom e capacity size = true ↔
    e.table.Barred ∨ DynamicTable.totalSize (unconfirmed e) + size ≤ capacity := by
  rw [hasRoom, Bool.or_eq_true, decide_eq_true_eq, barred_iff]

/-- What an operation drops. -/
structure Loses (s : Sender) (op : EncoderOp) (gone : List DynamicEntry) : Prop where
  drops : ∀ x, s.Drops op x ↔ x ∈ gone
  evictable : ∀ x ∈ gone, s.encoder.table.evictionLimit ≤ x.absoluteIndex
  confirmed : (∀ x ∈ gone, x.absoluteIndex < s.encoder.knownReceivedCount) ↔
    findsRoom s.encoder op = true

theorem Loses.nothing {s : Sender} {op : EncoderOp}
    (hstep : (s.step op).encoder.table.entries = s.encoder.table.entries)
    (hroom : findsRoom s.encoder op = true) : Loses s op [] where
  drops x := by
    rw [Drops, hstep]
    exact ⟨fun h => absurd h.1 h.2, fun h => by cases h⟩
  evictable x hx := by cases hx
  confirmed := ⟨fun _ => hroom, fun _ x hx => by cases hx⟩

/-- New entries do not bring back what was evicted. -/
theorem Loses.of_evicts {s : Sender} {op : EncoderOp} {size capacity : Nat} {t' : DynamicTable}
    {gone : List DynamicEntry} (new : List DynamicEntry) (h : s.encoder.table.WellFormed)
    (hevicts : DynamicTable.Evicts size { s.encoder.table with maxCapacity := capacity } t' gone)
    (hsize : size ≤ capacity) (hstep : (s.step op).encoder.table.entries = new ++ t'.entries)
    (hnew : ∀ x ∈ new, s.encoder.table.insertCount ≤ x.absoluteIndex)
    (hroom : findsRoom s.encoder op = hasRoom s.encoder capacity size) : Loses s op gone where
  drops x := by
    have hentries : s.encoder.table.entries = t'.entries ++ gone := hevicts.entries
    rw [Drops, hstep, hentries]
    constructor
    · rintro ⟨hx, hnot⟩
      exact (List.mem_append.mp hx).resolve_left fun h => hnot (List.mem_append_right _ h)
    · refine fun hx => ⟨List.mem_append_right _ hx, fun hmem => ?_⟩
      rcases List.mem_append.mp hmem with hmem | hmem
      · obtain ⟨i, hi, hix⟩ := List.mem_iff_getElem.mp
          (hentries ▸ List.mem_append_right t'.entries hx : x ∈ s.encoder.table.entries)
        have := h.index i x (by rw [List.getElem?_eq_getElem hi, hix])
        have := hnew x hmem
        omega
      · exact absurd (h.index_lt hentries hmem hx) (Nat.lt_irrefl _)
  evictable := hevicts.evictable
  confirmed := by
    rw [hroom, hasRoom_iff]
    exact hevicts.below_iff (t := { s.encoder.table with maxCapacity := capacity })
      ⟨h.size, h.index, h.dropped⟩ hsize _

/-- Inserting drops the oldest entries until the new one fits. -/
theorem loses_insert {s : Sender} (h : s.encoder.table.WellFormed) {op : EncoderOp}
    (name value : Bytes)
    (hstep : (s.step op).encoder.table = (s.encoder.table.insert name value).2)
    (hroom : findsRoom s.encoder op = hasRoomFor s.encoder name value) :
    ∃ gone, Loses s op gone := by
  rcases DynamicTable.insert_spec name value h with
    ⟨hrefused, hinsert⟩ | ⟨hsize, gone, t', hevicts, -, hinsert⟩
  · refine ⟨[], .nothing (by rw [hstep, hinsert]) ?_⟩
    rw [hroom, hasRoomFor, Bool.or_eq_true, decide_eq_true_eq, hasRoom_iff]
    rcases hrefused with hlarge | ⟨hbarred, -⟩
    · exact .inl hlarge
    · exact .inr (.inl hbarred)
  · refine ⟨gone, .of_evicts [⟨name, value, t'.insertCount⟩] h hevicts hsize
      (by rw [hstep, hinsert]; rfl) (fun x hx => ?_) ?_⟩
    · rw [List.mem_singleton.mp hx]
      exact hevicts.insertCount.ge
    · rw [hroom, hasRoomFor, decide_eq_false (Nat.not_lt.mpr hsize), Bool.false_or]

theorem loses {s : Sender} (h : s.Inv) (op : EncoderOp) : ∃ gone, Loses s op gone := by
  cases op with
  | setTableCapacity capacity =>
    by_cases hle : capacity ≤ s.encoder.maxTableCapacity
    · obtain ⟨gone, hevicts⟩ := DynamicTable.setCapacity_spec capacity h.table
      refine ⟨gone, .of_evicts [] h.table hevicts (Nat.zero_le _) ?_
        (fun x hx => by cases hx) ?_⟩
      · simp only [step, DynamicEncoder.setTableCapacity, if_neg (Nat.not_lt.mpr hle)]
        rfl
      · rw [findsRoom, decide_eq_false (Nat.not_lt.mpr hle), Bool.false_or]
    · refine ⟨[], .nothing ?_ ?_⟩
      · simp only [step, DynamicEncoder.setTableCapacity, if_pos (Nat.lt_of_not_le hle)]
      · rw [findsRoom, decide_eq_true (Nat.lt_of_not_le hle), Bool.true_or]
  | insert name value => exact loses_insert h.table name value rfl rfl
  | duplicate relativeIndex =>
    cases hentry : s.encoder.table.getByRelativeIndexEncoder relativeIndex with
    | none =>
      refine ⟨[], .nothing ?_ ?_⟩
      · simp only [step, DynamicEncoder.duplicate, DynamicTable.duplicate, hentry]
      · rw [findsRoom, hentry, Option.all_none]
    | some x =>
      refine loses_insert h.table x.name x.value ?_ ?_
      · simp only [step, DynamicEncoder.duplicate, DynamicTable.duplicate, hentry]
      · rw [findsRoom, hentry, Option.all_some]
  | encode streamId headers cap blocked =>
    refine ⟨[], .nothing ?_ rfl⟩
    simp only [step]
    split
    · rw [DynamicEncoder.trackSection_entries, DynamicEncoder.encode_table]
    · rw [DynamicEncoder.encode_table]
  | ackSection streamId =>
    refine ⟨[], .nothing ?_ rfl⟩
    simp only [step]
    split
    · exact DynamicEncoder.ackSection_entries ‹_›
    · rfl
  | setMaxTableCapacity | setPeerMaxBlockedStreams | cancelStream | acknowledge =>
    exact ⟨[], .nothing rfl rfl⟩

end Sender

/-- No operation drops an entry that an outstanding section refers to. One that the decoder has not
confirmed is dropped exactly by the operations that do not find the room they need. -/
theorem evicted_entries (ops : List EncoderOp) (op : EncoderOp) :
    (Sender.new.run ops).KeepsReferenced op ∧
      ((Sender.new.run ops).KeepsUnconfirmed op ↔
        Sender.findsRoom (Sender.new.run ops).encoder op = true) := by
  have hinv := Sender.Inv.new.run ops
  obtain ⟨gone, hloses⟩ := Sender.loses hinv op
  refine ⟨fun x hx k section' hs => ?_, ?_⟩
  · exact hinv.not_referenced (hloses.evictable x ((hloses.drops x).mp hx)) hs
  · rw [← hloses.confirmed]
    exact forall_congr' fun x => imp_congr_left (hloses.drops x)

/-- A second entry takes the place of the first one before the decoder has seen either of them. -/
theorem unconfirmed_entries_can_be_evicted :
    ¬∀ ops op, (Sender.new.run ops).KeepsReferenced op ∧ (Sender.new.run ops).KeepsUnconfirmed op := by
  intro hall
  have h := (hall [.setMaxTableCapacity 64, .setTableCapacity 64,
    .insert [0x61] [0x62]] (.insert [0x63] [0x64])).2
  exact absurd (h ⟨[0x61], [0x62], 0⟩ (by decide +kernel)) (by decide +kernel)

end Http3.Qpack
