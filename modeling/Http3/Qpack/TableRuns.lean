import Http3.Lib.Log
import Http3.Lib.Runs
import Http3.Qpack.FieldLine
import Http3.Qpack.Eviction

/-!
# Runs of the dynamic table

The table is a log of the fields that were inserted, of which it holds the newest ones: every
operation is one of the log, and every way to count entries finds the one that the log has there.
A table is larger than its capacity only after a capacity was set that its oldest entry, which may
not be evicted, left no room for.
-/

namespace Http3.Qpack

/-- The name and the value of an entry. -/
abbrev Field : Type := Bytes × Bytes

def DynamicEntry.field (e : DynamicEntry) : Field := (e.name, e.value)

/-- The entry that the table should have under that index. -/
def entryAt (log : Log Field) (i : Nat) : Option DynamicEntry :=
  (log.get? i).map fun f => ⟨f.1, f.2, i⟩

/-- The entries that the table should have, newest first. -/
def entriesOf (log : Log Field) : List DynamicEntry :=
  ((log.held.zipIdx log.dropped).map fun p => ⟨p.1.1, p.1.2, p.2⟩).reverse

namespace DynamicTable

/-! ## Operations -/

inductive Op where
  | setCapacity (capacity : Nat)
  | setEvictionLimit (limit : Nat)
  | insert (name value : Bytes)
  | duplicate (relativeIndex : Nat)
  | clear

/-- The index of a new entry, and the table. -/
def call (t : DynamicTable) : Op → Option Nat × DynamicTable
  | .setCapacity capacity => (none, t.setCapacity capacity)
  | .setEvictionLimit limit => (none, t.setEvictionLimit limit)
  | .insert name value => t.insert name value
  | .duplicate relativeIndex => t.duplicate relativeIndex
  | .clear => (none, t.clear)

def step (t : DynamicTable) (op : Op) : DynamicTable := (t.call op).2

def run (t : DynamicTable) (ops : List Op) : DynamicTable := ops.foldl step t

/-- The operations that put in an entry, if they can. -/
def Op.Inserts : Op → Prop
  | .insert _ _ | .duplicate _ => True
  | _ => False

/-- What an operation does to the log, and what it returns. -/
inductive LogStep (log : Log Field) : Op → Option Nat → Log Field → Prop where
  | capacity (capacity n : Nat) : LogStep log (.setCapacity capacity) none (log.discard n)
  | limit (limit : Nat) : LogStep log (.setEvictionLimit limit) none log
  | clear : LogStep log .clear none (log.discard log.count)
  | insert (name value : Bytes) (n : Nat) :
    LogStep log (.insert name value) (some log.count) ((log.discard n).push (name, value))
  | duplicate (r n : Nat) (f : Field) (h : (log.fromNewest r).bind log.get? = some f) :
    LogStep log (.duplicate r) (some log.count) ((log.discard n).push f)
  | refuse (op : Op) (h : op.Inserts) : LogStep log op none log

/-- The operations of a run one after the other, with what they return. -/
inductive LogRun : Log Field → List (Op × Option Nat) → Log Field → Prop where
  | nil (log : Log Field) : LogRun log [] log
  | cons {log next last : Log Field} {op : Op} {r : Option Nat} {rest : List (Op × Option Nat)}
    (h : LogStep log op r next) (hrest : LogRun next rest last) : LogRun log ((op, r) :: rest) last

/-- The operations of a run, with what they return. -/
def traced (t : DynamicTable) : List Op → List (Op × Option Nat)
  | [] => []
  | op :: ops => (op, (t.call op).1) :: traced (t.step op) ops

/-! ## The table holds the newest fields of its log -/

/-- The table is in order, and its fields are the ones that the log holds. -/
structure Holds (t : DynamicTable) (log : Log Field) : Prop where
  wellFormed : t.WellFormed
  count : t.insertCount = log.count
  fields : t.entries.map DynamicEntry.field = log.held.reverse

theorem Holds.withCapacity (capacity : Nat) : Holds (withCapacity capacity) .empty where
  wellFormed := .withCapacity capacity
  count := rfl
  fields := rfl

theorem Holds.length {t : DynamicTable} {log : Log Field} (h : t.Holds log) :
    t.entries.length = log.held.length := by
  have hlength := congrArg List.length h.fields
  rwa [List.length_map, List.length_reverse] at hlength

theorem Holds.droppedCount {t : DynamicTable} {log : Log Field} (h : t.Holds log) :
    t.droppedCount = log.dropped := by
  have hdropped := h.wellFormed.dropped
  have hlength := log.held_length
  rw [h.length, h.count] at hdropped
  omega

/-- Entries evicted from the table are items discarded from the log. -/
theorem Holds.evicts {t t' : DynamicTable} {log : Log Field} {size : Nat}
    {gone : List DynamicEntry} (h : t.Holds log) (hevicts : Evicts size t t' gone) :
    t'.Holds (log.discard gone.length) where
  wellFormed := hevicts.wellFormed
  count := hevicts.insertCount.trans h.count
  fields := by
    have hfields := h.fields
    rw [hevicts.entries, List.map_append] at hfields
    have hheld : log.held =
        (gone.map DynamicEntry.field).reverse ++ (t'.entries.map DynamicEntry.field).reverse := by
      rw [← List.reverse_append, hfields, List.reverse_reverse]
    rw [Log.discard_held, hheld, List.drop_left' (by simp), List.reverse_reverse]

theorem Holds.push {t : DynamicTable} {log : Log Field} (h : t.Holds log) (name value : Bytes) :
    (t.pushFront name value).Holds (log.push (name, value)) where
  wellFormed := h.wellFormed.pushFront name value
  count := by
    rw [Log.push_count, ← h.count]
    rfl
  fields := by
    rw [Log.push_held, List.reverse_append, ← h.fields]
    rfl

theorem WellFormed.clear {t : DynamicTable} (h : t.WellFormed) : t.clear.WellFormed := by
  have hdropped := h.dropped
  refine ⟨rfl, fun i e he => (by cases he), ?_⟩
  simp only [DynamicTable.clear, List.length_nil]
  omega

theorem Holds.clear {t : DynamicTable} {log : Log Field} (h : t.Holds log) :
    t.clear.Holds (log.discard log.count) where
  wellFormed := h.wellFormed.clear
  count := h.count
  fields := by
    have hlength := log.held_length
    rw [Log.discard_held, List.drop_eq_nil_of_le (by omega)]
    rfl

/-- The entry that is counted down from the newest one is the log's. -/
theorem Holds.getElem? {t : DynamicTable} {log : Log Field} (h : t.Holds log) (r : Nat) :
    t.entries[r]? = (log.fromNewest r).bind (entryAt log) := by
  have hlog := log.getElem?_reverse r
  rw [← h.fields, List.getElem?_map] at hlog
  cases he : t.entries[r]? with
  | none =>
    rw [he, Option.map_none] at hlog
    cases hr : log.fromNewest r with
    | none => rfl
    | some i =>
      rw [hr, Option.bind_some] at hlog
      rw [Option.bind_some, entryAt, ← hlog, Option.map_none]
  | some e =>
    have hindex := h.wellFormed.index r e he
    have hr : log.fromNewest r = some e.absoluteIndex := by
      rw [h.count] at hindex
      rw [Log.fromNewest, if_pos (by omega)]
      congr 1
      omega
    rw [he, hr, Option.map_some, Option.bind_some] at hlog
    rw [hr, Option.bind_some, entryAt, ← hlog]
    rfl

/-! ## Every operation is one of the log -/

theorem Holds.insert {t : DynamicTable} {log : Log Field} (h : t.Holds log) (name value : Bytes) :
    (t.insert name value = (none, t)) ∨
      ∃ n t', t.insert name value = (some log.count, t') ∧
        t'.Holds ((log.discard n).push (name, value)) := by
  rcases insert_spec name value h.wellFormed with ⟨-, heq⟩ | ⟨-, gone, t', hevicts, -, heq⟩
  · exact .inl heq
  · exact .inr ⟨gone.length, _, by rw [heq, h.count], (h.evicts hevicts).push name value⟩

theorem Holds.call {t : DynamicTable} {log : Log Field} (h : t.Holds log) (op : Op) :
    ∃ next, LogStep log op (t.call op).1 next ∧ (t.step op).Holds next := by
  cases op with
  | setCapacity capacity =>
    obtain ⟨gone, hevicts⟩ := setCapacity_spec capacity h.wellFormed
    have hsame : Holds { t with maxCapacity := capacity } log :=
      ⟨⟨h.wellFormed.size, h.wellFormed.index, h.wellFormed.dropped⟩, h.count, h.fields⟩
    exact ⟨_, .capacity capacity gone.length, hsame.evicts hevicts⟩
  | setEvictionLimit limit =>
    exact ⟨log, .limit limit, h.wellFormed.setEvictionLimit limit, h.count, h.fields⟩
  | insert name value =>
    simp only [step, DynamicTable.call]
    rcases h.insert name value with heq | ⟨n, t', heq, hnext⟩
    · rw [heq]
      exact ⟨log, .refuse _ trivial, h⟩
    · rw [heq]
      exact ⟨_, .insert name value n, hnext⟩
  | duplicate relativeIndex =>
    simp only [step, DynamicTable.call, duplicate, getByRelativeIndexEncoder]
    have hget := h.getElem? relativeIndex
    split
    · exact ⟨log, .refuse _ trivial, h⟩
    · rename_i e he
      rcases h.insert e.name e.value with heq | ⟨n, t', heq, hnext⟩
      · rw [heq]
        exact ⟨log, .refuse _ trivial, h⟩
      · rw [heq]
        have hitem : (log.fromNewest relativeIndex).bind log.get? = some e.field := by
          rw [← log.getElem?_reverse, ← h.fields, List.getElem?_map, he, Option.map_some]
        exact ⟨_, .duplicate relativeIndex n e.field hitem, hnext⟩
  | clear => exact ⟨_, .clear, h.clear⟩

theorem Holds.run {t : DynamicTable} {log : Log Field} (h : t.Holds log) (ops : List Op) :
    ∃ last, LogRun log (t.traced ops) last ∧ (t.run ops).Holds last := by
  induction ops generalizing t log with
  | nil => exact ⟨log, .nil log, h⟩
  | cons op ops ih =>
    obtain ⟨next, hstep, hnext⟩ := h.call op
    obtain ⟨last, hrun, hlast⟩ := ih hnext
    exact ⟨last, .cons hstep hrun, hlast⟩

/-! ## What the table shows of its log -/

/-- Everything that can be asked of a table is answered from the log. -/
structure Represents (t : DynamicTable) (log : Log Field) : Prop where
  insertCount : t.insertCount = log.count
  droppedCount : t.droppedCount = log.dropped
  entries : t.entries = entriesOf log
  currentSize : t.currentSize = totalSize t.entries
  absolute : ∀ i, t.getByAbsoluteIndex i = entryAt log i
  relative : ∀ r, t.getByRelativeIndexEncoder r = (log.fromNewest r).bind (entryAt log)
  baseRelative : ∀ r base,
    t.getByRelativeIndexRepr r base = (Log.belowBase base r).bind (entryAt log)
  postBase : ∀ p base, log.count ≤ 2 ^ 64 →
    t.getByPostBaseIndex p base = entryAt log (base + p)
  found : ∀ name value i, (t.findEntry name value).1 = some i →
    entryAt log i = some ⟨name, value, i⟩
  finds : ∀ name value i, entryAt log i = some ⟨name, value, i⟩ →
    ((t.findEntry name value).1).isSome = true
  oldest : ∀ op, ∃ new kept, (t.step op).entries = new ++ t.entries.take kept ∧
    ∀ e ∈ new, e.absoluteIndex = t.insertCount
  refused : ∀ op, op.Inserts → (t.call op).1 = none → t.step op = t

theorem getElem?_entriesOf (log : Log Field) (r : Nat) :
    (entriesOf log)[r]? = (log.fromNewest r).bind (entryAt log) := by
  have hlength := log.held_length
  have hentries : (entriesOf log).length = log.held.length := by
    simp [entriesOf]
  unfold Log.fromNewest
  split
  · rename_i hr
    rw [Option.bind_some, entryAt]
    by_cases hheld : r < log.held.length
    · rw [entriesOf, List.getElem?_reverse (by simpa using hheld), List.getElem?_map,
        List.getElem?_zipIdx, Option.map_map, log.get?_held _ (by omega)]
      simp only [List.length_map, List.length_zipIdx]
      have hindex : log.count - 1 - r - log.dropped = log.held.length - 1 - r := by omega
      have habsolute : log.count - 1 - r = log.dropped + (log.held.length - 1 - r) := by omega
      rw [hindex, habsolute]
      rfl
    · rw [List.getElem?_eq_none (by omega), Log.get?, if_neg (by omega), Option.map_none]
  · rw [List.getElem?_eq_none (by omega), Option.bind_none]

theorem Holds.absolute {t : DynamicTable} {log : Log Field} (h : t.Holds log) (i : Nat) :
    t.getByAbsoluteIndex i = entryAt log i := by
  have hlength := log.held_length
  unfold getByAbsoluteIndex
  split
  · rename_i hlt
    rw [h.droppedCount] at hlt
    rw [entryAt, Log.get?, if_neg (by omega), Option.map_none]
  · split
    · rename_i hge
      rw [h.count] at hge
      rw [entryAt, log.get?_eq_none hge, Option.map_none]
    · rename_i hlt
      rw [h.count] at hlt
      rw [h.getElem?, h.count, Log.fromNewest, if_pos (by omega), Option.bind_some]
      congr 1
      omega

theorem Holds.postBase {t : DynamicTable} {log : Log Field} (h : t.Holds log) (p base : Nat)
    (hcount : log.count ≤ 2 ^ 64) : t.getByPostBaseIndex p base = entryAt log (base + p) := by
  unfold getByPostBaseIndex checkedAdd
  split
  · exact h.absolute _
  · rw [entryAt, log.get?_eq_none (by omega), Option.map_none]
    rfl

/-- An entry is in the table if and only if the log has it under its index. -/
theorem Holds.mem_iff {t : DynamicTable} {log : Log Field} (h : t.Holds log) (e : DynamicEntry) :
    e ∈ t.entries ↔ entryAt log e.absoluteIndex = some e := by
  constructor
  · intro he
    obtain ⟨r, hr⟩ := List.getElem?_of_mem he
    have hindex := h.wellFormed.index r e hr
    rw [h.count] at hindex
    rw [h.getElem?, Log.fromNewest, if_pos (by omega), Option.bind_some] at hr
    have hnumber : log.count - 1 - r = e.absoluteIndex := by omega
    rwa [hnumber] at hr
  · intro he
    rw [← h.absolute, getByAbsoluteIndex] at he
    split at he
    · cases he
    · split at he
      · cases he
      · exact List.mem_of_getElem? he

theorem findLoop_finds (name value : Bytes) (nameMatch : Option Nat) {entries : List DynamicEntry}
    {e : DynamicEntry} (he : e ∈ entries) (hname : e.name = name) (hvalue : e.value = value) :
    (findLoop name value nameMatch entries).1.isSome = true := by
  induction entries generalizing nameMatch with
  | nil => cases he
  | cons x rest ih =>
    unfold findLoop
    split
    · split
      · rfl
      · rename_i hother
        rcases List.mem_cons.mp he with rfl | he
        · exact absurd hvalue hother
        · exact ih _ he
    · rename_i hother
      rcases List.mem_cons.mp he with rfl | he
      · exact absurd hname hother
      · exact ih _ he

theorem Evicts.take {size : Nat} {t t' : DynamicTable} {gone : List DynamicEntry}
    (h : Evicts size t t' gone) : t'.entries = t.entries.take t'.entries.length := by
  rw [h.entries, List.take_left' rfl]

theorem insert_oldest {t : DynamicTable} (h : t.WellFormed) (name value : Bytes) :
    ∃ new kept, (t.insert name value).2.entries = new ++ t.entries.take kept ∧
      ∀ e ∈ new, e.absoluteIndex = t.insertCount := by
  rcases insert_spec name value h with ⟨-, heq⟩ | ⟨-, gone, t', hevicts, -, heq⟩
  · exact ⟨[], t.entries.length, by rw [heq, List.take_length]; rfl, fun e he => (by cases he)⟩
  · refine ⟨[⟨name, value, t'.insertCount⟩], t'.entries.length, ?_, fun e he => ?_⟩
    · rw [heq, ← hevicts.take]
      rfl
    · rw [List.mem_singleton.mp he]
      exact hevicts.insertCount

/-- An operation takes entries from the old end only. -/
theorem step_oldest {t : DynamicTable} (h : t.WellFormed) (op : Op) :
    ∃ new kept, (t.step op).entries = new ++ t.entries.take kept ∧
      ∀ e ∈ new, e.absoluteIndex = t.insertCount := by
  cases op with
  | setCapacity capacity =>
    obtain ⟨gone, hevicts⟩ := setCapacity_spec capacity h
    exact ⟨[], _, hevicts.take, fun e he => (by cases he)⟩
  | setEvictionLimit limit =>
    exact ⟨[], t.entries.length, (List.take_length).symm, fun e he => (by cases he)⟩
  | insert name value => exact insert_oldest h name value
  | duplicate relativeIndex =>
    simp only [step, call, duplicate]
    split
    · exact ⟨[], t.entries.length, (List.take_length).symm, fun e he => (by cases he)⟩
    · exact insert_oldest h _ _
  | clear => exact ⟨[], 0, rfl, fun e he => (by cases he)⟩

theorem insert_refused {t : DynamicTable} (h : t.WellFormed) {name value : Bytes}
    (hnone : (t.insert name value).1 = none) : (t.insert name value).2 = t := by
  rcases insert_spec name value h with ⟨-, heq⟩ | ⟨-, gone, t', hevicts, -, heq⟩
  · rw [heq]
  · rw [heq] at hnone
    cases hnone

theorem duplicate_refused {t : DynamicTable} (h : t.WellFormed) {relativeIndex : Nat}
    (hnone : (t.duplicate relativeIndex).1 = none) : (t.duplicate relativeIndex).2 = t := by
  unfold duplicate at hnone ⊢
  split at hnone
  · rfl
  · exact insert_refused h hnone

theorem Holds.represents {t : DynamicTable} {log : Log Field} (h : t.Holds log) :
    t.Represents log where
  insertCount := h.count
  droppedCount := h.droppedCount
  entries := List.ext_getElem? fun r => (h.getElem? r).trans (getElem?_entriesOf log r).symm
  currentSize := h.wellFormed.size
  absolute := h.absolute
  relative := h.getElem?
  baseRelative r base := by
    unfold getByRelativeIndexRepr Log.belowBase
    split
    · rw [if_neg (by omega), Option.bind_none]
    · rw [if_pos (by omega), Option.bind_some, h.absolute, Nat.sub_right_comm]
  postBase := h.postBase
  found name value i hi := by
    obtain ⟨e, he, rfl, rfl, rfl⟩ := (findEntry_spec t name value).1 i hi
    exact (h.mem_iff e).mp he
  finds name value i hi := findLoop_finds name value none ((h.mem_iff ⟨name, value, i⟩).mpr hi) rfl rfl
  oldest := step_oldest h.wellFormed
  refused op hop hnone := by
    cases op with
    | insert name value => exact insert_refused h.wellFormed hnone
    | duplicate relativeIndex => exact duplicate_refused h.wellFormed hnone
    | setCapacity | setEvictionLimit | clear => cases hop

end DynamicTable

/-- **The table is the log of what was inserted, of which it holds the newest fields.** -/
theorem table_refines_log (capacity : Nat) (ops : List DynamicTable.Op) :
    ∃ log, DynamicTable.LogRun .empty ((DynamicTable.withCapacity capacity).traced ops) log ∧
      ((DynamicTable.withCapacity capacity).run ops).Represents log := by
  obtain ⟨log, hrun, hholds⟩ := (DynamicTable.Holds.withCapacity capacity).run ops
  exact ⟨log, hrun, hholds.represents⟩

/-! ## Tables larger than their capacity -/

namespace DynamicTable

/-- The capacity is below the size, and the oldest entry may not be evicted. -/
def Sticks (t : DynamicTable) (capacity : Nat) : Prop := capacity < t.currentSize ∧ t.Barred

/-- The table is larger than its capacity since a capacity was set that stuck: no other was set,
and the entries are the same. -/
def Stuck (s : DynamicTable) (ops : List Op) : Prop :=
  ∃ pre capacity post, ops = pre ++ .setCapacity capacity :: post ∧ (s.run pre).Sticks capacity ∧
    (∀ op ∈ post, ∀ c, op ≠ .setCapacity c) ∧ (s.run ops).entries = (s.run pre).entries

theorem WellFormed.step {t : DynamicTable} (h : t.WellFormed) (op : Op) : (t.step op).WellFormed := by
  cases op with
  | setCapacity capacity => exact h.setCapacity capacity
  | setEvictionLimit limit => exact h.setEvictionLimit limit
  | insert name value => exact h.insert name value
  | duplicate relativeIndex => exact h.duplicate relativeIndex
  | clear => exact h.clear

theorem WellFormed.run {t : DynamicTable} (h : t.WellFormed) (ops : List Op) :
    (t.run ops).WellFormed := by
  induction ops generalizing t with
  | nil => exact h
  | cons op ops ih => exact ih (h.step op)

theorem step_maxCapacity {t : DynamicTable} (h : t.WellFormed) {op : Op}
    (hop : ∀ capacity, op ≠ .setCapacity capacity) : (t.step op).maxCapacity = t.maxCapacity := by
  have hinsert : ∀ name value, (t.insert name value).2.maxCapacity = t.maxCapacity := by
    intro name value
    rcases insert_spec name value h with ⟨-, heq⟩ | ⟨-, gone, t', hevicts, -, heq⟩ <;> rw [heq]
    exact hevicts.maxCapacity
  cases op with
  | setCapacity capacity => exact absurd rfl (hop capacity)
  | setEvictionLimit limit => rfl
  | insert name value => exact hinsert name value
  | duplicate relativeIndex =>
    simp only [DynamicTable.step, call, duplicate]
    split
    · rfl
    · exact hinsert _ _
  | clear => rfl

theorem run_maxCapacity {t : DynamicTable} (h : t.WellFormed) {ops : List Op}
    (hops : ∀ op ∈ ops, ∀ capacity, op ≠ .setCapacity capacity) :
    (t.run ops).maxCapacity = t.maxCapacity := by
  induction ops generalizing t with
  | nil => rfl
  | cons op ops ih =>
    have hstep := step_maxCapacity h (hops op List.mem_cons_self)
    exact (ih (h.step op) fun x hx => hops x (List.mem_cons_of_mem op hx)).trans hstep

/-- A capacity sticks with the table as it was, and otherwise the table fits. -/
theorem setCapacity_fits {t : DynamicTable} (h : t.WellFormed) (capacity : Nat) :
    (t.setCapacity capacity).maxCapacity = capacity ∧
      (t.Sticks capacity → (t.setCapacity capacity).entries = t.entries) ∧
      (¬t.Sticks capacity → (t.setCapacity capacity).currentSize ≤ capacity) := by
  have hwf : WellFormed { t with maxCapacity := capacity } := ⟨h.size, h.index, h.dropped⟩
  obtain ⟨gone, hevicts⟩ := setCapacity_spec capacity h
  refine ⟨hevicts.maxCapacity, fun hsticks => ?_, fun hnot => ?_⟩
  · obtain ⟨e, he, hlimit⟩ := hsticks.2
    have hgone : gone = [] := by
      by_contra hne
      have hlast : e ∈ gone := by
        have hentries : t.entries = (t.setCapacity capacity).entries ++ gone := hevicts.entries
        rw [hentries, List.getLast?_append_of_ne_nil _ hne] at he
        exact List.mem_of_getLast? he
      have hevictable : t.evictionLimit ≤ e.absoluteIndex := hevicts.evictable e hlast
      omega
    subst hgone
    rw [hevicts.eq_of_nil hwf]
  · rw [hevicts.wellFormed.size]
    rcases hevicts.all_or_nothing hwf (Nat.zero_le _) with hfits | ⟨rfl, hbarred⟩
    · exact hfits
    · rw [hevicts.eq_of_nil hwf]
      exact Nat.le_of_not_lt fun hlt => hnot ⟨h.size ▸ hlt, hbarred⟩

theorem insert_fits {t : DynamicTable} (h : t.WellFormed) (name value : Bytes) :
    (t.insert name value).2 = t ∨
      (t.insert name value).2.currentSize ≤ (t.insert name value).2.maxCapacity := by
  rcases insert_spec name value h with ⟨-, heq⟩ | ⟨-, gone, t', hevicts, hfits, heq⟩
  · exact .inl (by rw [heq])
  · right
    rw [heq, pushFront, hevicts.wellFormed.size, hevicts.maxCapacity]
    exact hfits

/-- An operation that does not set a capacity leaves the entries alone, or the table fits. -/
theorem step_fits {t : DynamicTable} (h : t.WellFormed) {op : Op}
    (hop : ∀ capacity, op ≠ .setCapacity capacity) :
    (t.step op).entries = t.entries ∨ (t.step op).currentSize ≤ (t.step op).maxCapacity := by
  cases op with
  | setCapacity capacity => exact absurd rfl (hop capacity)
  | setEvictionLimit limit => exact .inl rfl
  | insert name value => exact (insert_fits h name value).imp_left (congrArg entries)
  | duplicate relativeIndex =>
    simp only [step, call, duplicate]
    split
    · exact .inl rfl
    · exact (insert_fits h _ _).imp_left (congrArg entries)
  | clear => exact .inr (Nat.zero_le _)

theorem run_concat (t : DynamicTable) (ops : List Op) (op : Op) :
    t.run (ops ++ [op]) = (t.run ops).step op := by
  simp [run]

/-- A table that is too large was left so by the last capacity that was set. -/
theorem stuck_of_over (capacity : Nat) (ops : List Op)
    (hover : ((withCapacity capacity).run ops).maxCapacity <
      ((withCapacity capacity).run ops).currentSize) : Stuck (withCapacity capacity) ops := by
  induction ops using List.reverseRecOn with
  | nil => cases hover
  | append_singleton ops op ih =>
    have hwf := (WellFormed.withCapacity capacity).run ops
    have hwf' := hwf.step op
    rw [run_concat] at hover
    by_cases hop : ∃ c, op = .setCapacity c
    · obtain ⟨c, rfl⟩ := hop
      obtain ⟨hmax, hsticks, hfits⟩ := setCapacity_fits hwf c
      have hstuck : Sticks ((withCapacity capacity).run ops) c := by
        by_contra hnot
        have hle := hfits hnot
        simp only [step, call] at hover
        omega
      refine ⟨ops, c, [], rfl, hstuck, fun x hx => (by cases hx), ?_⟩
      rw [run_concat]
      exact hsticks hstuck
    · have hop : ∀ c, op ≠ .setCapacity c := fun c hc => hop ⟨c, hc⟩
      have hsame := (step_fits hwf hop).resolve_right (Nat.not_le.mpr hover)
      rw [hwf'.size, hsame, step_maxCapacity hwf hop, ← hwf.size] at hover
      obtain ⟨pre, c, post, rfl, hsticks, hpost, hentries⟩ := ih hover
      refine ⟨pre, c, post ++ [op], by simp, hsticks, fun x hx => ?_, ?_⟩
      · rcases List.mem_append.mp hx with hx | hx
        · exact hpost x hx
        · rw [List.mem_singleton.mp hx]
          exact hop
      · rw [run_concat, hsame, hentries]

theorem over_of_stuck {capacity : Nat} {ops : List Op} (h : Stuck (withCapacity capacity) ops) :
    ((withCapacity capacity).run ops).maxCapacity <
      ((withCapacity capacity).run ops).currentSize := by
  have hwf := (WellFormed.withCapacity capacity).run ops
  obtain ⟨pre, c, post, hsplit, hsticks, hpost, hentries⟩ := h
  have hpre := (WellFormed.withCapacity capacity).run pre
  have hrun : (withCapacity capacity).run ops =
      ((((withCapacity capacity).run pre).setCapacity c)).run post := by
    rw [hsplit, run, List.foldl_append, List.foldl_cons]
    rfl
  rw [hwf.size, hentries, ← hpre.size, hrun, run_maxCapacity (hpre.setCapacity c) hpost,
    (setCapacity_fits hpre c).1]
  exact hsticks.1

end DynamicTable

/-- **A table is larger than its capacity exactly while a capacity that stuck is in force.** The
encoder accepts such a capacity. -/
theorem table_over_capacity :
    (∀ (capacity : Nat) (ops : List DynamicTable.Op),
      ((DynamicTable.withCapacity capacity).run ops).maxCapacity <
          ((DynamicTable.withCapacity capacity).run ops).currentSize ↔
        DynamicTable.Stuck (DynamicTable.withCapacity capacity) ops) ∧
      ∀ (ops : List EncoderOp) (capacity : Nat) (e : DynamicEncoder),
        (Sender.new.run ops).encoder.setTableCapacity capacity = .ok e →
          e.table.maxCapacity = capacity ∧
            (e.table.currentSize ≤ capacity ↔
              ¬(Sender.new.run ops).encoder.table.Sticks capacity) := by
  constructor
  · intro capacity ops
    exact ⟨DynamicTable.stuck_of_over capacity ops, DynamicTable.over_of_stuck⟩
  · intro ops capacity e he
    have hwf := (Sender.Inv.new.run ops).table
    obtain ⟨hmax, hsticks, hfits⟩ := DynamicTable.setCapacity_fits hwf capacity
    unfold DynamicEncoder.setTableCapacity at he
    split at he
    · cases he
    · cases he
      refine ⟨hmax, fun hle hstuck => ?_, hfits⟩
      have hsize := (hwf.setCapacity capacity).size
      rw [hsticks hstuck, ← hwf.size] at hsize
      have hlt := hstuck.1
      dsimp only at hle
      omega

/-- The oldest entry may not be evicted, so the table keeps it. -/
theorem capacity_below_size_kept : ¬∀ (capacity : Nat) (ops : List DynamicTable.Op),
    ((DynamicTable.withCapacity capacity).run ops).currentSize ≤
      ((DynamicTable.withCapacity capacity).run ops).maxCapacity := by
  intro h
  exact absurd (h 32 [.insert [] [], .setEvictionLimit 1, .setCapacity 0]) (by decide)

end Http3.Qpack
