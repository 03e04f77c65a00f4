import Http3.Qpack.StaticTable

/-!
# The dynamic table

Entries are kept newest first. Eviction takes entries from the old end while the table is too
large, and stops at the first entry below the eviction limit, which an unacknowledged section
may refer to.
-/

namespace Http3.Qpack

structure DynamicEntry where
  name : Bytes
  value : Bytes
  absoluteIndex : Nat
  deriving DecidableEq

def entryOverhead : Nat := 32

def entrySize (name value : Bytes) : Nat := entryOverhead + name.length + value.length

def DynamicEntry.size (e : DynamicEntry) : Nat := entrySize e.name e.value

structure DynamicTable where
  entries : List DynamicEntry
  maxCapacity : Nat
  currentSize : Nat
  insertCount : Nat
  droppedCount : Nat
  evictionLimit : Nat
  deriving DecidableEq

namespace DynamicTable

def withCapacity (capacity : Nat) : DynamicTable where
  entries := []
  maxCapacity := capacity
  currentSize := 0
  insertCount := 0
  droppedCount := 0
  evictionLimit := 0

def new : DynamicTable := withCapacity 0

def setEvictionLimit (t : DynamicTable) (limit : Nat) : DynamicTable :=
  { t with evictionLimit := limit }

section SetEvictionLimit

variable (t : DynamicTable) (limit : Nat)

@[simp] theorem setEvictionLimit_entries : (t.setEvictionLimit limit).entries = t.entries := rfl

@[simp] theorem setEvictionLimit_maxCapacity :
    (t.setEvictionLimit limit).maxCapacity = t.maxCapacity := rfl

@[simp] theorem setEvictionLimit_currentSize :
    (t.setEvictionLimit limit).currentSize = t.currentSize := rfl

@[simp] theorem setEvictionLimit_evictionLimit :
    (t.setEvictionLimit limit).evictionLimit = limit := rfl

end SetEvictionLimit

/-- Drop the oldest entry. -/
def evictLast (t : DynamicTable) (e : DynamicEntry) : DynamicTable :=
  { t with
    entries := t.entries.dropLast
    currentSize := t.currentSize - e.size
    droppedCount := t.droppedCount + 1 }

/-- Each round drops one entry, so as many rounds as there are entries are enough. -/
def evictLoop (requiredSize : Nat) : Nat → DynamicTable → DynamicTable
  | 0, t => t
  | fuel + 1, t =>
    if t.currentSize + requiredSize > t.maxCapacity then
      match t.entries.getLast? with
      | none => t
      | some e =>
        if e.absoluteIndex < t.evictionLimit then t else evictLoop requiredSize fuel (t.evictLast e)
    else t

def evictToFit (t : DynamicTable) (requiredSize : Nat) : DynamicTable :=
  evictLoop requiredSize t.entries.length t

def setCapacity (t : DynamicTable) (capacity : Nat) : DynamicTable :=
  { t with maxCapacity := capacity }.evictToFit 0

/-- Put an entry in front, with the next index. -/
def pushFront (t : DynamicTable) (name value : Bytes) : DynamicTable :=
  { t with
    entries := ⟨name, value, t.insertCount⟩ :: t.entries
    currentSize := t.currentSize + entrySize name value
    insertCount := t.insertCount + 1 }

/-- The index of the new entry. Where the oldest entry may not be evicted, the new one can still
be too large after the eviction. -/
def insert (t : DynamicTable) (name value : Bytes) : Option Nat × DynamicTable :=
  let size := entrySize name value
  if size > t.maxCapacity then (none, t)
  else
    let t' := t.evictToFit size
    if t'.currentSize + size > t'.maxCapacity then (none, t')
    else (some t'.insertCount, t'.pushFront name value)

def getByRelativeIndexEncoder (t : DynamicTable) (relativeIndex : Nat) : Option DynamicEntry :=
  t.entries[relativeIndex]?

def duplicate (t : DynamicTable) (relativeIndex : Nat) : Option Nat × DynamicTable :=
  match t.getByRelativeIndexEncoder relativeIndex with
  | none => (none, t)
  | some e => t.insert e.name e.value

def getByAbsoluteIndex (t : DynamicTable) (absoluteIndex : Nat) : Option DynamicEntry :=
  if absoluteIndex < t.droppedCount then none
  else if absoluteIndex ≥ t.insertCount then none
  else t.entries[t.insertCount - 1 - absoluteIndex]?

def getByRelativeIndexRepr (t : DynamicTable) (relativeIndex base : Nat) : Option DynamicEntry :=
  if relativeIndex ≥ base then none else t.getByAbsoluteIndex (base - relativeIndex - 1)

/-- Addition of `u64`, `none` on overflow. -/
def checkedAdd (a b : Nat) : Option Nat := if a + b < 2 ^ 64 then some (a + b) else none

def getByPostBaseIndex (t : DynamicTable) (postBaseIndex base : Nat) : Option DynamicEntry :=
  (checkedAdd base postBaseIndex).bind t.getByAbsoluteIndex

/-- Drop every entry. -/
def clear (t : DynamicTable) : DynamicTable :=
  { t with
    droppedCount := t.droppedCount + t.entries.length
    entries := []
    currentSize := 0 }

/-! ## The insert count only grows -/

theorem evictLoop_insertCount (size fuel : Nat) (t : DynamicTable) :
    (t.evictLoop size fuel).insertCount = t.insertCount := by
  induction fuel generalizing t with
  | zero => rfl
  | succ fuel ih =>
    unfold evictLoop
    split
    · split
      · rfl
      · split
        · rfl
        · exact ih _
    · rfl

@[simp] theorem setCapacity_insertCount (t : DynamicTable) (capacity : Nat) :
    (t.setCapacity capacity).insertCount = t.insertCount :=
  evictLoop_insertCount _ _ _

theorem insert_insertCount_le (t : DynamicTable) (name value : Bytes) :
    t.insertCount ≤ (t.insert name value).2.insertCount := by
  have hevict : (t.evictToFit (entrySize name value)).insertCount = t.insertCount :=
    evictLoop_insertCount _ _ _
  unfold insert
  dsimp only
  split
  · exact Nat.le_refl _
  · split
    · exact hevict.ge
    · exact hevict.ge.trans (Nat.le_succ _)

theorem duplicate_insertCount_le (t : DynamicTable) (relativeIndex : Nat) :
    t.insertCount ≤ (t.duplicate relativeIndex).2.insertCount := by
  unfold duplicate
  split
  · exact Nat.le_refl _
  · exact insert_insertCount_le t _ _

theorem evictLoop_evictionLimit (size fuel : Nat) (t : DynamicTable) :
    (t.evictLoop size fuel).evictionLimit = t.evictionLimit := by
  induction fuel generalizing t with
  | zero => rfl
  | succ fuel ih =>
    unfold evictLoop
    split
    · split
      · rfl
      · split
        · rfl
        · exact ih _
    · rfl

theorem insert_evictionLimit (t : DynamicTable) (name value : Bytes) :
    (t.insert name value).2.evictionLimit = t.evictionLimit := by
  unfold insert
  dsimp only
  split
  · rfl
  · split
    · exact evictLoop_evictionLimit _ _ _
    · exact evictLoop_evictionLimit _ _ _

theorem duplicate_evictionLimit (t : DynamicTable) (relativeIndex : Nat) :
    (t.duplicate relativeIndex).2.evictionLimit = t.evictionLimit := by
  unfold duplicate
  split
  · rfl
  · exact insert_evictionLimit t _ _

/-- A table without entries has nothing to evict. -/
theorem setCapacity_entries_nil {t : DynamicTable} (h : t.entries = []) (capacity : Nat) :
    (t.setCapacity capacity).entries = [] := by
  simp only [setCapacity, evictToFit, h, List.length_nil, evictLoop]

/-! ## Well-formed tables -/

/-- The size of a list of entries. -/
def totalSize (entries : List DynamicEntry) : Nat := (entries.map DynamicEntry.size).sum

@[simp] theorem totalSize_nil : totalSize [] = 0 := rfl

@[simp] theorem totalSize_cons (e : DynamicEntry) (es : List DynamicEntry) :
    totalSize (e :: es) = e.size + totalSize es := rfl

@[simp] theorem totalSize_append (as bs : List DynamicEntry) :
    totalSize (as ++ bs) = totalSize as + totalSize bs := by
  simp [totalSize]

/-- The entries are numbered downwards from the insert count without gaps, and the size is
theirs. -/
structure WellFormed (t : DynamicTable) : Prop where
  size : t.currentSize = totalSize t.entries
  index : ∀ i e, t.entries[i]? = some e → e.absoluteIndex + i + 1 = t.insertCount
  dropped : t.droppedCount + t.entries.length = t.insertCount

theorem WellFormed.withCapacity (capacity : Nat) : (withCapacity capacity).WellFormed where
  size := rfl
  index i e h := by cases h
  dropped := rfl

theorem WellFormed.new : new.WellFormed := .withCapacity 0

theorem WellFormed.setEvictionLimit {t : DynamicTable} (h : t.WellFormed) (limit : Nat) :
    (t.setEvictionLimit limit).WellFormed := ⟨h.size, h.index, h.dropped⟩

theorem WellFormed.evictLast {t : DynamicTable} (h : t.WellFormed) {es : List DynamicEntry}
    {e : DynamicEntry} (he : t.entries = es ++ [e]) :
    (t.evictLast e).WellFormed ∧ (t.evictLast e).entries = es := by
  have hes : (t.evictLast e).entries = es := by rw [DynamicTable.evictLast, he, List.dropLast_concat]
  refine ⟨⟨?_, fun i x hx => ?_, ?_⟩, hes⟩
  · rw [hes, DynamicTable.evictLast, h.size, he, totalSize_append, totalSize_cons, totalSize_nil,
      Nat.add_zero, Nat.add_sub_cancel]
  · rw [hes] at hx
    exact h.index i x (by rw [he, List.getElem?_append_left (List.getElem?_eq_some_iff.mp hx).1, hx])
  · have hdropped := h.dropped
    rw [he, List.length_append, List.length_singleton] at hdropped
    rw [hes, DynamicTable.evictLast]
    dsimp only
    omega

theorem WellFormed.pushFront {t : DynamicTable} (h : t.WellFormed) (name value : Bytes) :
    (t.pushFront name value).WellFormed := by
  refine ⟨?_, fun i x hx => ?_, ?_⟩
  · rw [DynamicTable.pushFront, h.size, totalSize_cons, Nat.add_comm]
    rfl
  · cases i with
    | zero =>
      cases hx
      rfl
    | succ i =>
      have := h.index i x hx
      simp only [DynamicTable.pushFront]
      omega
  · have hdropped := h.dropped
    simp only [DynamicTable.pushFront, List.length_cons]
    omega

/-- An entry of a well-formed table is older than the ones in front of it. -/
theorem WellFormed.index_lt {t : DynamicTable} (h : t.WellFormed) {as bs : List DynamicEntry}
    (hsplit : t.entries = as ++ bs) {a b : DynamicEntry} (ha : a ∈ as) (hb : b ∈ bs) :
    b.absoluteIndex < a.absoluteIndex := by
  obtain ⟨i, hi, hia⟩ := List.mem_iff_getElem.mp ha
  obtain ⟨j, hj, hjb⟩ := List.mem_iff_getElem.mp hb
  have h₁ := h.index i a (by rw [hsplit, List.getElem?_append_left hi, List.getElem?_eq_getElem hi,
    hia])
  have h₂ := h.index (as.length + j) b (by rw [hsplit, List.getElem?_append_right (by omega),
    Nat.add_sub_cancel_left, List.getElem?_eq_getElem hj, hjb])
  omega

/-! ## What is evicted -/

/-- The oldest entry may not be evicted. -/
def Barred (t : DynamicTable) : Prop :=
  ∃ e, t.entries.getLast? = some e ∧ e.absoluteIndex < t.evictionLimit

/-- The entries at the old end that are gone, each of them because the table was too large and
none of them below the limit; what is left fits, or cannot be evicted. -/
structure Evicts (size : Nat) (t t' : DynamicTable) (gone : List DynamicEntry) : Prop where
  wellFormed : t'.WellFormed
  entries : t.entries = t'.entries ++ gone
  maxCapacity : t'.maxCapacity = t.maxCapacity
  insertCount : t'.insertCount = t.insertCount
  evictionLimit : t'.evictionLimit = t.evictionLimit
  evictable : ∀ e ∈ gone, t.evictionLimit ≤ e.absoluteIndex
  needed : ∀ newer e older, gone = newer ++ e :: older →
    t.maxCapacity < totalSize (t'.entries ++ newer ++ [e]) + size
  enough : totalSize t'.entries + size ≤ t.maxCapacity ∨ t'.entries = [] ∨
    ∃ e, t'.entries.getLast? = some e ∧ e.absoluteIndex < t.evictionLimit

theorem Evicts.nothing {size : Nat} {t : DynamicTable} (h : t.WellFormed)
    (henough : totalSize t.entries + size ≤ t.maxCapacity ∨ t.entries = [] ∨
      ∃ e, t.entries.getLast? = some e ∧ e.absoluteIndex < t.evictionLimit) :
    Evicts size t t [] where
  wellFormed := h
  entries := (List.append_nil _).symm
  maxCapacity := rfl
  insertCount := rfl
  evictionLimit := rfl
  evictable e he := by cases he
  needed newer e older hgone := by cases newer <;> cases hgone
  enough := henough

theorem evictLoop_spec (size fuel : Nat) {t : DynamicTable} (h : t.WellFormed)
    (hfuel : t.entries.length ≤ fuel) : ∃ gone, Evicts size t (t.evictLoop size fuel) gone := by
  induction fuel generalizing t with
  | zero => exact ⟨[], .nothing h (.inr (.inl (List.length_eq_zero_iff.mp (by omega))))⟩
  | succ fuel ih =>
    unfold evictLoop
    split
    · rename_i hover
      split
      · rename_i hnone
        exact ⟨[], .nothing h (.inr (.inl (List.getLast?_eq_none_iff.mp hnone)))⟩
      · rename_i e he
        split
        · rename_i hlimit
          exact ⟨[], .nothing h (.inr (.inr ⟨e, he, hlimit⟩))⟩
        · rename_i hlimit
          obtain ⟨es, hes⟩ := List.getLast?_eq_some_iff.mp he
          obtain ⟨hwf, hentries⟩ := h.evictLast hes
          obtain ⟨gone, hgone⟩ := ih hwf (by
            rw [hes, List.length_append, List.length_singleton] at hfuel
            rw [hentries]
            omega)
          have hsplit := hgone.entries
          rw [hentries] at hsplit
          refine ⟨gone ++ [e], hgone.wellFormed, ?_, hgone.maxCapacity, hgone.insertCount,
            hgone.evictionLimit, fun x hx => ?_, fun newer x older hsplit' => ?_, hgone.enough⟩
          · rw [hes, hsplit, List.append_assoc]
          · rcases List.mem_append.mp hx with hx | hx
            · exact hgone.evictable x hx
            · rw [List.mem_singleton.mp hx]
              exact Nat.le_of_not_lt hlimit
          · rcases List.eq_nil_or_concat older with rfl | ⟨older, y, rfl⟩
            · obtain ⟨rfl, hx⟩ := List.append_inj' hsplit' rfl
              cases hx
              rw [← hsplit, ← hes, ← h.size]
              exact hover
            · rw [List.concat_eq_append, ← List.cons_append, ← List.append_assoc] at hsplit'
              exact hgone.needed newer x older (List.append_inj' hsplit' rfl).1
    · rename_i hfits
      exact ⟨[], .nothing h (.inl (by rw [← h.size]; exact Nat.le_of_not_lt hfits))⟩

theorem evictToFit_spec (size : Nat) {t : DynamicTable} (h : t.WellFormed) :
    ∃ gone, Evicts size t (t.evictToFit size) gone := evictLoop_spec size _ h (Nat.le_refl _)

theorem setCapacity_spec (capacity : Nat) {t : DynamicTable} (h : t.WellFormed) :
    ∃ gone, Evicts 0 { t with maxCapacity := capacity } (t.setCapacity capacity) gone :=
  evictToFit_spec 0 ⟨h.size, h.index, h.dropped⟩

/-- Eviction that may start is not stopped: the entries behind the oldest one are newer. -/
theorem Evicts.all_or_nothing {size : Nat} {t t' : DynamicTable} {gone : List DynamicEntry}
    (h : t.WellFormed) (hevicts : Evicts size t t' gone) (hsize : size ≤ t.maxCapacity) :
    totalSize t'.entries + size ≤ t.maxCapacity ∨ gone = [] ∧ t.Barred := by
  rcases hevicts.enough with hfits | hnil | ⟨e, he, hlimit⟩
  · exact .inl hfits
  · left
    rw [hnil, totalSize_nil, Nat.zero_add]
    exact hsize
  · right
    have hgone : gone = [] := by
      refine List.eq_nil_iff_forall_not_mem.mpr fun x hx => ?_
      have hold := h.index_lt hevicts.entries (List.mem_of_getLast? he) hx
      have hevictable := hevicts.evictable x hx
      omega
    subst hgone
    exact ⟨rfl, e, by rw [hevicts.entries, List.append_nil, he], hlimit⟩

/-- Nothing evicted, nothing changed. -/
theorem Evicts.eq_of_nil {size : Nat} {t t' : DynamicTable} (h : t.WellFormed)
    (hevicts : Evicts size t t' []) : t' = t := by
  have hentries : t.entries = t'.entries := by
    rw [hevicts.entries, List.append_nil]
  have hsize := hevicts.wellFormed.size
  have hdropped := hevicts.wellFormed.dropped
  have hbefore := h.dropped
  rw [← hentries, ← h.size] at hsize
  rw [← hentries, hevicts.insertCount] at hdropped
  have hcapacity := hevicts.maxCapacity
  have hcount := hevicts.insertCount
  have hlimit := hevicts.evictionLimit
  cases t
  cases t'
  simp only at hentries hsize hdropped hbefore hcapacity hcount hlimit
  subst hentries hcapacity hcount hlimit hsize
  congr 1
  omega

/-- **An insert that is refused leaves the table as it was.** One that is not evicts first; the new
entry comes in front. -/
theorem insert_spec (name value : Bytes) {t : DynamicTable} (h : t.WellFormed) :
    ((t.maxCapacity < entrySize name value ∨
        t.Barred ∧ t.maxCapacity < totalSize t.entries + entrySize name value) ∧
      t.insert name value = (none, t)) ∨
      entrySize name value ≤ t.maxCapacity ∧
        ∃ gone t', Evicts (entrySize name value) t t' gone ∧
          totalSize t'.entries + entrySize name value ≤ t.maxCapacity ∧
            t.insert name value = (some t.insertCount, t'.pushFront name value) := by
  unfold insert
  dsimp only
  split
  · exact .inl ⟨.inl ‹_›, rfl⟩
  · rename_i hsmall
    have hsize : entrySize name value ≤ t.maxCapacity := Nat.le_of_not_lt hsmall
    obtain ⟨gone, hgone⟩ := evictToFit_spec (entrySize name value) h
    rw [hgone.wellFormed.size, hgone.maxCapacity]
    split
    · rename_i hover
      obtain ⟨rfl, hbarred⟩ := (hgone.all_or_nothing h hsize).resolve_left (Nat.not_le.mpr hover)
      have hsame := hgone.eq_of_nil h
      rw [hsame] at hover ⊢
      exact .inl ⟨.inr ⟨hbarred, hover⟩, rfl⟩
    · rename_i hfits
      exact .inr ⟨hsize, gone, _, hgone, Nat.le_of_not_lt hfits, by rw [hgone.insertCount]⟩

theorem WellFormed.setCapacity {t : DynamicTable} (h : t.WellFormed) (capacity : Nat) :
    (t.setCapacity capacity).WellFormed := by
  obtain ⟨gone, hgone⟩ := setCapacity_spec capacity h
  exact hgone.wellFormed

theorem WellFormed.insert {t : DynamicTable} (h : t.WellFormed) (name value : Bytes) :
    (t.insert name value).2.WellFormed := by
  obtain ⟨-, heq⟩ | ⟨-, gone, t', hgone, -, heq⟩ := insert_spec name value h <;> rw [heq]
  · exact h
  · exact hgone.wellFormed.pushFront name value

theorem WellFormed.duplicate {t : DynamicTable} (h : t.WellFormed) (relativeIndex : Nat) :
    (t.duplicate relativeIndex).2.WellFormed := by
  unfold DynamicTable.duplicate
  split
  · exact h
  · exact h.insert _ _

/-! ## Searching -/

def findLoop (name value : Bytes) (nameMatch : Option Nat) :
    List DynamicEntry → Option Nat × Option Nat
  | [] => (none, nameMatch)
  | e :: rest =>
    if e.name = name then
      if e.value = value then (some e.absoluteIndex, some e.absoluteIndex)
      else findLoop name value (nameMatch <|> some e.absoluteIndex) rest
    else findLoop name value nameMatch rest

/-- The newest entry equal to the field, and the newest entry with its name. -/
def findEntry (t : DynamicTable) (name value : Bytes) : Option Nat × Option Nat :=
  findLoop name value none t.entries

end DynamicTable

end Http3.Qpack
