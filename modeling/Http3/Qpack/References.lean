import Http3.Qpack.WordDecoder

/-!
# References into the dynamic table

A line counts its reference down or up from the base. Whatever the base, a section is decoded only
if every reference stays below the Required Insert Count and names an entry that is still there.
-/

namespace Http3.Qpack

namespace WireLine

/-- The line refers to the dynamic table. -/
def isDynamic : WireLine → Bool
  | indexed isStatic _ | nameRef isStatic _ _ => !isStatic
  | literal _ _ => false
  | indexedPostBase _ | nameRefPostBase _ _ => true

/-- The number of the insert that a line refers to. -/
def absoluteIndex (base : Nat) : WireLine → Option Nat
  | indexed false index | nameRef false index _ =>
    if index < base then some (base - index - 1) else none
  | indexedPostBase index | nameRefPostBase index _ => some (base + index)
  | _ => none

/-- The reference is below the Required Insert Count and names an entry that is still there. -/
def Refers (t : DynamicTable) (base ric : Nat) (w : WireLine) (e : DynamicEntry) : Prop :=
  ∃ i, w.absoluteIndex base = some i ∧ i < ric ∧ t.droppedCount ≤ i ∧ i < t.insertCount ∧
    t.getByAbsoluteIndex i = some e

/-- The header of a line that refers to the dynamic table is the entry that it names. -/
def Denotes (t : DynamicTable) (base ric : Nat) (w : WireLine) (h : Header) : Prop :=
  w.isDynamic = true → ∃ e, w.Refers t base ric e ∧ h = w.entryHeader e

/-- A reference that a section may not make. -/
def Dangles (t : DynamicTable) (base ric : Nat) (w : WireLine) : Prop :=
  w.isDynamic = true ∧ ∀ e, ¬w.Refers t base ric e

end WireLine

/-! ## What a reference resolves to -/

section Entries

variable {t : DynamicTable} {base ric index : Nat} {e : DynamicEntry}

theorem getByAbsoluteIndex_some {i : Nat} (h : t.getByAbsoluteIndex i = some e) :
    t.droppedCount ≤ i ∧ i < t.insertCount ∧ t.entries[t.insertCount - 1 - i]? = some e := by
  unfold DynamicTable.getByAbsoluteIndex at h
  split at h
  · cases h
  · split at h
    · cases h
    · rename_i hdropped hcount
      exact ⟨Nat.le_of_not_lt hdropped, Nat.lt_of_not_le hcount, h⟩

theorem relativeEntry_ok (h : DynamicDecoder.relativeEntry t index base ric = .ok e) :
    index < base ∧ base - index - 1 < ric ∧ t.getByAbsoluteIndex (base - index - 1) = some e := by
  unfold DynamicDecoder.relativeEntry at h
  split at h
  · cases h
  · rename_i hannounced
    cases hentry : t.getByRelativeIndexRepr index base with
    | none =>
      rw [hentry] at h
      cases h
    | some e' =>
      rw [hentry] at h
      cases h
      unfold DynamicTable.getByRelativeIndexRepr at hentry
      split at hentry
      · cases hentry
      · exact ⟨by omega, by omega, hentry⟩

theorem postBaseEntry_ok (h : DynamicDecoder.postBaseEntry t index base ric = .ok e) :
    base + index < ric ∧ t.getByAbsoluteIndex (base + index) = some e := by
  unfold DynamicDecoder.postBaseEntry at h
  split at h
  · cases h
  · rename_i i hadd
    split at h
    · cases h
    · rename_i hannounced
      have hi : base + index = i := by
        unfold DynamicTable.checkedAdd at hadd
        split at hadd
        · exact Option.some.inj hadd
        · cases hadd
      cases hentry : t.getByPostBaseIndex index base with
      | none =>
        rw [hentry] at h
        cases h
      | some e' =>
        rw [hentry] at h
        cases h
        rw [DynamicTable.getByPostBaseIndex, hadd, Option.bind_some] at hentry
        exact ⟨by omega, by rw [hi]; exact hentry⟩

theorem WireLine.refers_of_some {w : WireLine} {i : Nat} (hindex : w.absoluteIndex base = some i)
    (hric : i < ric) (hentry : t.getByAbsoluteIndex i = some e) : w.Refers t base ric e := by
  obtain ⟨hdropped, hcount, -⟩ := getByAbsoluteIndex_some hentry
  exact ⟨i, hindex, hric, hdropped, hcount, hentry⟩

theorem WireLine.dynamicEntry_ok {w : WireLine} (h : w.dynamicEntry t base ric = .ok e) :
    w.Refers t base ric e := by
  have hrelative : ∀ {index}, DynamicDecoder.relativeEntry t index base ric = .ok e →
      w.absoluteIndex base = (if index < base then some (base - index - 1) else none) →
      w.Refers t base ric e := by
    intro index hentry hindex
    obtain ⟨hbase, hric, hget⟩ := relativeEntry_ok hentry
    rw [if_pos hbase] at hindex
    exact refers_of_some hindex hric hget
  cases w with
  | indexed isStatic index =>
    cases isStatic with
    | false => exact hrelative h rfl
    | true => cases h
  | nameRef isStatic index value =>
    cases isStatic with
    | false => exact hrelative h rfl
    | true => cases h
  | literal name value => cases h
  | indexedPostBase index => exact refers_of_some rfl (postBaseEntry_ok h).1 (postBaseEntry_ok h).2
  | nameRefPostBase index value =>
    exact refers_of_some rfl (postBaseEntry_ok h).1 (postBaseEntry_ok h).2

/-- A line that refers to the dynamic table has no header without it. -/
theorem WireLine.staticHeader_of_isDynamic {w : WireLine} (h : w.isDynamic = true) :
    w.staticHeader = none := by
  cases w with
  | indexed isStatic index =>
    cases isStatic with
    | false => rfl
    | true => cases h
  | nameRef isStatic index value =>
    cases isStatic with
    | false => rfl
    | true => cases h
  | literal name value => cases h
  | indexedPostBase index => rfl
  | nameRefPostBase index value => rfl

theorem WireLine.Resolves.denotes {w : WireLine} {h : Header} (hw : w.Resolves t base ric h) :
    w.Denotes t base ric h := by
  intro hdynamic
  rcases hw with hstatic | ⟨e, hentry, hheader⟩
  · rw [staticHeader_of_isDynamic hdynamic] at hstatic
    cases hstatic
  · exact ⟨e, dynamicEntry_ok hentry, hheader.symm⟩

/-- In a well-formed table the entry carries the number that was referred to. -/
theorem WireLine.Refers.absoluteIndex_eq {w : WireLine} (h : w.Refers t base ric e)
    (ht : t.WellFormed) : w.absoluteIndex base = some e.absoluteIndex ∧ e ∈ t.entries := by
  obtain ⟨i, hi, -, -, hcount, hentry⟩ := h
  obtain ⟨-, -, hget⟩ := getByAbsoluteIndex_some hentry
  have hindex := ht.index _ e hget
  refine ⟨?_, List.mem_of_getElem? hget⟩
  rw [hi]
  congr 1
  omega

end Entries

/-! ## Whole sections -/

namespace DynamicDecoder

variable {d : DynamicDecoder} {data : Bytes}

theorem Announces.unique {ric ric' base base' : Nat} {lines lines' : Bytes}
    (h : d.Announces data ric base lines) (h' : d.Announces data ric' base' lines') :
    ric = ric' ∧ base = base' ∧ lines = lines' := by
  obtain ⟨enc, first, delta, hhead, hric, hbase⟩ := h
  obtain ⟨enc', first', delta', hhead', hric', hbase'⟩ := h'
  obtain ⟨rfl, rfl, rfl, rfl⟩ := hhead.unique hhead'
  rw [hric] at hric'
  cases hric'
  rw [hbase] at hbase'
  cases hbase'
  exact ⟨rfl, rfl, rfl⟩

theorem decoded_lines {hs : List Header} (h : (d.decode data).1 = .ok (.decoded hs)) :
    ∃ ric base lines ws, d.Announces data ric base lines ∧ Reader.Items parseLine lines ws [] ∧
      List.Forall₂ (WireLine.Denotes d.table base ric) ws hs := by
  obtain ⟨enc, first, delta, lines, ric, base, hhead, hric, -, hbase, hitems, -⟩ :=
    (decode_ok_iff d data hs).mp h
  obtain ⟨ws, hws, hall⟩ := (Reader.items_factor (decodeHeader_ok_iff d.table base ric)).mp hitems
  exact ⟨ric, base, lines, ws, ⟨enc, first, delta, hhead, hric, hbase⟩, hws,
    hall.imp fun _ _ hw => hw.denotes⟩

/-- A section is blocked exactly if it announces more inserts than there were. -/
theorem decode_blocked_iff : (d.decode data).1 = .ok .blocked ↔
    ∃ enc n ric, 2 ≤ data.length ∧ decodeInteger data 8 = .ok (enc, n) ∧
      d.decodeRequiredInsertCount enc = .ok ric ∧ d.table.insertCount < ric := by
  have hrest : ∀ ric rest, d.decodeRest ric rest ≠ .ok .blocked := by
    intro ric rest h
    unfold decodeRest at h
    split at h
    · cases h
    · split at h
      · cases h
      · split at h
        · cases h
        · obtain ⟨hs, -, hblocked⟩ := map_ok_iff.mp h
          cases hblocked
  constructor
  · intro h
    unfold decode at h
    split at h
    · cases h
    · rename_i hlong
      split at h
      · cases h
      · rename_i enc n henc
        split at h
        · cases h
        · rename_i ric hric
          dsimp only at h
          split at h
          · rename_i hblocked
            exact ⟨enc, n, ric, Nat.le_of_not_lt hlong, henc, hric, hblocked.2⟩
          · exact absurd h (hrest ric _)
  · rintro ⟨enc, n, ric, hlong, henc, hric, hcount⟩
    unfold decode
    rw [if_neg (Nat.not_lt.mpr hlong), henc]
    dsimp only
    rw [hric]
    dsimp only
    rw [if_pos ⟨Nat.zero_lt_of_lt hcount, hcount⟩]

/-- A section with another reference is not decoded. -/
theorem decode_dangling {ric base : Nat} {lines left : Bytes} {ws : List WireLine}
    (hhead : d.Announces data ric base lines) (hready : ric ≤ d.table.insertCount)
    (hws : Reader.Items parseLine lines ws left)
    (hdangles : ∃ w ∈ ws, w.Dangles d.table base ric) : ∃ e, (d.decode data).1 = .error e := by
  rcases hresult : (d.decode data).1 with e | hs | _
  · exact ⟨e, rfl⟩
  · obtain ⟨ric', base', lines', ws', hhead', hws', hall⟩ := decoded_lines hresult
    obtain ⟨rfl, rfl, rfl⟩ := hhead.unique hhead'
    obtain ⟨w, hw, hdynamic, hnone⟩ := hdangles
    have hrefers : ∀ w ∈ ws', w.isDynamic = true → ∃ e, w.Refers d.table base ric e := by
      have hboth : List.Forall₂ (fun w h => (w.isDynamic = true → ∃ e, w.Refers d.table base ric e) ∧
          w.Denotes d.table base ric h) ws' hs := by
        refine hall.imp fun w h hdenotes => ⟨fun hdynamic => ?_, hdenotes⟩
        obtain ⟨e, he, -⟩ := hdenotes hdynamic
        exact ⟨e, he⟩
      exact ((List.forall₂_and_left _ _).mp hboth).1
    obtain ⟨e, he⟩ := hrefers w ((hws.isPrefix parseLine_nil hws').subset hw) hdynamic
    exact absurd he (hnone e)
  · obtain ⟨enc', n', ric', -, henc', hric', hcount⟩ := decode_blocked_iff.mp hresult
    obtain ⟨enc, first, delta, ⟨-, n, rest, m, henc, -⟩, hric, -⟩ := hhead
    rw [henc] at henc'
    cases henc'
    rw [hric] at hric'
    cases hric'
    omega

end DynamicDecoder

/-- **References are safe.** A section is decoded only if each of its references denotes an entry
below the Required Insert Count; with another reference it is an error, unless it is blocked. No
operation overflows on the way, short of 2^64 bytes of fields. -/
theorem references_safe (d : DynamicDecoder) (data : Bytes) :
    (∀ hs, (d.decode data).1 = .ok (.decoded hs) → ∃ ric base lines ws,
      d.Announces data ric base lines ∧ Reader.Items parseLine lines ws [] ∧
        List.Forall₂ (WireLine.Denotes d.table base ric) ws hs) ∧
    (∀ ric base lines ws left, d.Announces data ric base lines →
      Reader.Items parseLine lines ws left → (∃ w ∈ ws, w.Dangles d.table base ric) →
        (ric ≤ d.table.insertCount → ∃ e, (d.decode data).1 = .error e) ∧
        (d.table.insertCount < ric → (d.decode data).1 = .ok .blocked)) ∧
    ((d.decode data).1 = .ok .blocked ↔
      ∃ enc n ric, 2 ≤ data.length ∧ decodeInteger data 8 = .ok (enc, n) ∧
        d.decodeRequiredInsertCount enc = .ok ric ∧ d.table.insertCount < ric) ∧
    (d.table.WellFormed → ∀ base ric w e, WireLine.Refers d.table base ric w e →
      w.absoluteIndex base = some e.absoluteIndex ∧ e ∈ d.table.entries) ∧
    (d.maxTableCapacity < 2 ^ 62 → d.table.insertCount < 2 ^ 62 → data.length < 2 ^ 63 →
      Word.Exact (InWords.decode d data) (d.decode data).1 ∨
      ∃ ric base lines hs left, d.Announces data ric base lines ∧
        Reader.Items (DynamicDecoder.decodeHeader d.table · base ric) lines hs left ∧
          2 ^ 64 ≤ (hs.map Header.size).sum) := by
  refine ⟨fun hs h => DynamicDecoder.decoded_lines h, ?_, DynamicDecoder.decode_blocked_iff,
    fun hwf base ric w e h => h.absoluteIndex_eq hwf,
    fun hcapacity hcount hdata => InWords.decode_exact hcapacity hcount hdata⟩
  intro ric base lines ws left hhead hws hdangles
  constructor
  · intro hready
    exact DynamicDecoder.decode_dangling hhead hready hws hdangles
  · intro hcount
    obtain ⟨enc, first, delta, ⟨hlong, n, rest, m, henc, -⟩, hric, -⟩ := hhead
    exact DynamicDecoder.decode_blocked_iff.mpr ⟨enc, n, ric, hlong, henc, hric, hcount⟩

/-- A section that waits for two inserts is blocked, although its line refers to a third one. -/
theorem blocked_before_dangling :
    ¬∀ (d : DynamicDecoder) (data : Bytes) (ric base : Nat) (lines : Bytes) (ws : List WireLine)
      (left : Bytes), d.Announces data ric base lines → Reader.Items parseLine lines ws left →
        (∃ w ∈ ws, w.Dangles d.table base ric) → ∃ e, (d.decode data).1 = .error e := by
  intro h
  have hhead : (DynamicDecoder.new.setMaxTableCapacity 64).Announces [0x03, 0x00, 0x10] 2 2 [0x10] :=
    ⟨3, 0x00, 0, ⟨by decide, 1, [0x10], 1, rfl, rfl, rfl, rfl⟩, rfl, rfl⟩
  have hlines : Reader.Items parseLine [0x10] [.indexedPostBase 0] [] := .cons rfl (.nil _)
  have hdangles : (WireLine.indexedPostBase 0).Dangles DynamicTable.new 2 2 := by
    refine ⟨rfl, ?_⟩
    rintro e ⟨i, hi, hric, -⟩
    cases hi
    exact absurd hric (by decide)
  obtain ⟨e, he⟩ := h _ _ _ _ _ _ _ hhead hlines ⟨_, List.mem_cons_self, hdangles⟩
  cases he

end Http3.Qpack
