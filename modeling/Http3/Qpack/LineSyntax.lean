import Http3.Lib.Reader
import Http3.Qpack.Decoder

/-!
# The syntax of field lines

The bytes of a line tell how long it is and what it refers to, whatever the tables hold. Both
decoders read such lines one after the other; they differ in the references they resolve.
-/

namespace Http3.Qpack

/-- A line as it is on the wire, before its references are resolved. -/
inductive WireLine where
  | indexed (isStatic : Bool) (index : Nat)
  | nameRef (isStatic : Bool) (index : Nat) (value : Bytes)
  | literal (name value : Bytes)
  | indexedPostBase (index : Nat)
  | nameRefPostBase (index : Nat) (value : Bytes)

/-- A line with a value string at `offset`. -/
def valueLine (line : Bytes → WireLine) (data : Bytes) (offset : Nat) :
    Except QpackError (WireLine × Nat) :=
  match decodeString (data.drop offset) with
  | .error e => .error e
  | .ok (value, valueLen) => .ok (line value, offset + valueLen)

def literalLine (first : UInt8) (data : Bytes) (nameLen prefixLen : Nat) :
    Except QpackError (WireLine × Nat) :=
  match decodeStringWithLen (data.drop prefixLen) nameLen (first &&& 0x08 != 0) with
  | .error e => .error e
  | .ok (name, nameBytes) => valueLine (.literal name) data (prefixLen + nameBytes)

/-- The integer that a line starts with, and what follows it. -/
def lineBody (first : UInt8) (data : Bytes) (value len : Nat) : Except QpackError (WireLine × Nat) :=
  if first &&& 0x80 != 0 then .ok (.indexed (first &&& 0x40 != 0) value, len)
  else if first &&& 0x40 != 0 then valueLine (.nameRef (first &&& 0x10 != 0) value) data len
  else if first &&& 0x20 != 0 then literalLine first data value len
  else if first &&& 0x10 != 0 then .ok (.indexedPostBase value, len)
  else valueLine (.nameRefPostBase value) data len

/-- How many bits of the first byte the integer has. -/
def linePrefixBits (first : UInt8) : Nat :=
  if first &&& 0x80 != 0 then 6
  else if first &&& 0x40 != 0 then 4
  else if first &&& 0x20 != 0 then 3
  else if first &&& 0x10 != 0 then 4
  else 3

def parseLine : Reader QpackError UInt8 WireLine
  | [] => .error .bufferTooShort
  | first :: rest =>
    match decodeInteger (first :: rest) (linePrefixBits first) with
    | .error e => .error e
    | .ok (value, len) => lineBody first (first :: rest) value len

namespace WireLine

/-- The header of a line that refers to the static table, or to nothing. -/
def staticHeader : WireLine → Option Header
  | indexed true index => getStaticEntry index
  | nameRef true index value => (getStaticEntry index).map fun h => .fromDecoded h.name value
  | literal name value => some (.fromDecoded name value)
  | _ => none

/-- The header of a line that refers to the dynamic table. -/
def entryHeader (e : DynamicEntry) : WireLine → Header
  | nameRef _ _ value | nameRefPostBase _ value => .fromDecoded e.name value
  | _ => .fromDecoded e.name e.value

/-- The entry that a line refers to in the dynamic table. -/
def dynamicEntry (t : DynamicTable) (base ric : Nat) : WireLine → Except QpackError DynamicEntry
  | indexed false index | nameRef false index _ => DynamicDecoder.relativeEntry t index base ric
  | indexedPostBase index | nameRefPostBase index _ => DynamicDecoder.postBaseEntry t index base ric
  | _ => .error .decodeFailed

/-- A line is resolved in the static table, or else in the dynamic one. -/
def Resolves (t : DynamicTable) (base ric : Nat) (line : WireLine) (h : Header) : Prop :=
  line.staticHeader = some h ∨
    ∃ e, line.dynamicEntry t base ric = .ok e ∧ line.entryHeader e = h

end WireLine

/-! ## Lines are parsed, then resolved -/

section Lines

variable {h : Header} {n : Nat}

theorem valueLine_ok_iff {line : Bytes → WireLine} {data : Bytes} {offset : Nat} {w : WireLine} :
    valueLine line data offset = .ok (w, n) ↔
      ∃ value len, decodeString (data.drop offset) = .ok (value, len) ∧ line value = w ∧
        offset + len = n := by
  unfold valueLine
  cases decodeString (data.drop offset) with
  | error e => simp
  | ok r =>
    obtain ⟨value, len⟩ := r
    simp

theorem withValue_ok_iff {name data : Bytes} {offset : Nat} :
    DynamicDecoder.withValue name data offset = .ok (h, n) ↔
      ∃ value len, decodeString (data.drop offset) = .ok (value, len) ∧
        .fromDecoded name value = h ∧ offset + len = n := by
  unfold DynamicDecoder.withValue
  cases decodeString (data.drop offset) with
  | error e => simp
  | ok r =>
    obtain ⟨value, len⟩ := r
    simp

theorem staticEntry_ok_iff {index : Nat} :
    DynamicDecoder.staticEntry index = .ok h ↔ getStaticEntry index = some h := by
  unfold DynamicDecoder.staticEntry
  cases getStaticEntry index <;> simp

theorem map_ok_iff {α β : Type} {x : Except QpackError α} {f : α → β} {b : β} :
    x.map f = .ok b ↔ ∃ a, x = .ok a ∧ f a = b := by
  cases x with
  | error e => simp [Except.map]
  | ok a => simp [Except.map]

variable {t : DynamicTable} {first : UInt8} {data : Bytes} {base ric value len : Nat}

theorem decodeIndexedField_ok_iff (hint : decodeInteger data 6 = .ok (value, len)) :
    DynamicDecoder.decodeIndexedField t first data base ric = .ok (h, n) ↔
      WireLine.Resolves t base ric (.indexed (first &&& 0x40 != 0) value) h ∧ len = n := by
  unfold DynamicDecoder.decodeIndexedField
  simp only [hint]
  cases first &&& 0x40 != 0 with
  | false =>
    simp [map_ok_iff, WireLine.Resolves, WireLine.staticHeader, WireLine.dynamicEntry,
      WireLine.entryHeader, ← and_assoc, exists_and_right]
  | true =>
    simp [map_ok_iff, WireLine.Resolves, WireLine.staticHeader, WireLine.dynamicEntry,
      staticEntry_ok_iff]

theorem decodeIndexedFieldPostBase_ok_iff (hint : decodeInteger data 4 = .ok (value, len)) :
    DynamicDecoder.decodeIndexedFieldPostBase t data base ric = .ok (h, n) ↔
      WireLine.Resolves t base ric (.indexedPostBase value) h ∧ len = n := by
  unfold DynamicDecoder.decodeIndexedFieldPostBase
  simp [hint, map_ok_iff, WireLine.Resolves, WireLine.staticHeader, WireLine.dynamicEntry,
    WireLine.entryHeader, ← and_assoc, exists_and_right]

/-- A line whose name is known is decoded with its value. -/
theorem withValue_iff_line {name : Bytes} {line : Bytes → WireLine}
    (hline : ∀ v, (line v).Resolves t base ric h ↔ .fromDecoded name v = h) :
    DynamicDecoder.withValue name data len = .ok (h, n) ↔
      ∃ w, valueLine line data len = .ok (w, n) ∧ w.Resolves t base ric h := by
  rw [withValue_ok_iff]
  constructor
  · rintro ⟨v, m, hv, hh, hm⟩
    exact ⟨line v, valueLine_ok_iff.mpr ⟨v, m, hv, rfl, hm⟩, (hline v).mpr hh⟩
  · rintro ⟨w, hw, hresolves⟩
    obtain ⟨v, m, hv, rfl, hm⟩ := valueLine_ok_iff.mp hw
    exact ⟨v, m, hv, (hline v).mp hresolves, hm⟩

/-- A line whose name is not known is not resolved, whatever its value. -/
theorem not_resolved_line {line : Bytes → WireLine} (hline : ∀ v, ¬(line v).Resolves t base ric h) :
    ¬∃ w, valueLine line data len = .ok (w, n) ∧ w.Resolves t base ric h := by
  rintro ⟨w, hw, hresolves⟩
  obtain ⟨v, m, hv, rfl, hm⟩ := valueLine_ok_iff.mp hw
  exact hline v hresolves

theorem decodeLiteralWithNameRef_ok_iff (hint : decodeInteger data 4 = .ok (value, len)) :
    DynamicDecoder.decodeLiteralWithNameRef t first data base ric = .ok (h, n) ↔
      ∃ w, valueLine (.nameRef (first &&& 0x10 != 0) value) data len = .ok (w, n) ∧
        w.Resolves t base ric h := by
  unfold DynamicDecoder.decodeLiteralWithNameRef
  simp only [hint]
  cases first &&& 0x10 != 0 with
  | false =>
    simp only [Bool.false_eq_true, if_false]
    cases hentry : DynamicDecoder.relativeEntry t value base ric with
    | error e =>
      refine iff_of_false (by simp [Except.map]) (not_resolved_line fun v => ?_)
      simp [WireLine.Resolves, WireLine.staticHeader, WireLine.dynamicEntry, hentry]
    | ok e =>
      refine withValue_iff_line fun v => ?_
      simp [WireLine.Resolves, WireLine.staticHeader, WireLine.dynamicEntry, WireLine.entryHeader,
        hentry]
  | true =>
    simp only [if_true, DynamicDecoder.staticEntry]
    cases hentry : getStaticEntry value with
    | none =>
      refine iff_of_false (by simp [Except.map]) (not_resolved_line fun v => ?_)
      simp [WireLine.Resolves, WireLine.staticHeader, WireLine.dynamicEntry, hentry]
    | some e =>
      refine withValue_iff_line fun v => ?_
      simp [WireLine.Resolves, WireLine.staticHeader, WireLine.dynamicEntry, hentry]

theorem decodeLiteralWithPostBaseNameRef_ok_iff (hint : decodeInteger data 3 = .ok (value, len)) :
    DynamicDecoder.decodeLiteralWithPostBaseNameRef t data base ric = .ok (h, n) ↔
      ∃ w, valueLine (.nameRefPostBase value) data len = .ok (w, n) ∧ w.Resolves t base ric h := by
  unfold DynamicDecoder.decodeLiteralWithPostBaseNameRef
  simp only [hint]
  cases hentry : DynamicDecoder.postBaseEntry t value base ric with
  | error e =>
    refine iff_of_false (by simp) (not_resolved_line fun v => ?_)
    simp [WireLine.Resolves, WireLine.staticHeader, WireLine.dynamicEntry, hentry]
  | ok e =>
    refine withValue_iff_line fun v => ?_
    simp [WireLine.Resolves, WireLine.staticHeader, WireLine.dynamicEntry, WireLine.entryHeader,
      hentry]

theorem decodeLiteralWithLiteralName_ok_iff (hint : decodeInteger data 3 = .ok (value, len)) :
    DynamicDecoder.decodeLiteralWithLiteralName first data = .ok (h, n) ↔
      ∃ w, literalLine first data value len = .ok (w, n) ∧ w.Resolves t base ric h := by
  unfold DynamicDecoder.decodeLiteralWithLiteralName literalLine
  simp only [hint]
  cases decodeStringWithLen (data.drop len) value (first &&& 0x08 != 0) with
  | error e => simp
  | ok r =>
    refine withValue_iff_line fun v => ?_
    simp [WireLine.Resolves, WireLine.staticHeader, WireLine.dynamicEntry]

end Lines

/-- **A line is decoded** exactly when it is parsed and resolved. -/
theorem decodeHeader_ok_iff (t : DynamicTable) (base ric : Nat) (data : Bytes) (h : Header) (n : Nat) :
    DynamicDecoder.decodeHeader t data base ric = .ok (h, n) ↔
      ∃ w, parseLine data = .ok (w, n) ∧ w.Resolves t base ric h := by
  cases data with
  | nil => simp [DynamicDecoder.decodeHeader, parseLine]
  | cons first rest =>
    unfold DynamicDecoder.decodeHeader parseLine lineBody linePrefixBits
    dsimp only
    by_cases h80 : (first &&& 0x80 != 0) = true
    · simp only [h80, if_true]
      cases hint : decodeInteger (first :: rest) 6 with
      | error e => simp [DynamicDecoder.decodeIndexedField, hint]
      | ok r =>
        rw [decodeIndexedField_ok_iff hint]
        simp [and_comm]
    · simp only [h80, if_false, Bool.false_eq_true]
      by_cases h40 : (first &&& 0x40 != 0) = true
      · simp only [h40, if_true]
        cases hint : decodeInteger (first :: rest) 4 with
        | error e => simp [DynamicDecoder.decodeLiteralWithNameRef, hint]
        | ok r => exact decodeLiteralWithNameRef_ok_iff hint
      · simp only [h40, if_false, Bool.false_eq_true]
        by_cases h20 : (first &&& 0x20 != 0) = true
        · simp only [h20, if_true]
          cases hint : decodeInteger (first :: rest) 3 with
          | error e => simp [DynamicDecoder.decodeLiteralWithLiteralName, hint]
          | ok r => exact decodeLiteralWithLiteralName_ok_iff hint
        · simp only [h20, if_false, Bool.false_eq_true]
          by_cases h10 : (first &&& 0x10 != 0) = true
          · simp only [h10, if_true]
            cases hint : decodeInteger (first :: rest) 4 with
            | error e => simp [DynamicDecoder.decodeIndexedFieldPostBase, hint]
            | ok r =>
              rw [decodeIndexedFieldPostBase_ok_iff hint]
              simp [and_comm]
          · simp only [h10, if_false, Bool.false_eq_true]
            cases hint : decodeInteger (first :: rest) 3 with
            | error e => simp [DynamicDecoder.decodeLiteralWithPostBaseNameRef, hint]
            | ok r => exact decodeLiteralWithPostBaseNameRef_ok_iff hint

/-- In a table without entries nothing is resolved dynamically. -/
theorem resolves_iff_static {t : DynamicTable} (ht : t.entries = []) (base ric : Nat) {w : WireLine}
    {h : Header} : w.Resolves t base ric h ↔ w.staticHeader = some h := by
  have habsolute : ∀ i, t.getByAbsoluteIndex i = none := by
    intro i
    unfold DynamicTable.getByAbsoluteIndex
    rw [ht, List.getElem?_nil, ite_self, ite_self]
  have hrelative : ∀ i e, DynamicDecoder.relativeEntry t i base ric ≠ .ok e := by
    intro i e
    unfold DynamicDecoder.relativeEntry DynamicTable.getByRelativeIndexRepr
    rw [habsolute, ite_self]
    split <;> simp
  have hpostBase : ∀ i e, DynamicDecoder.postBaseEntry t i base ric ≠ .ok e := by
    intro i e
    unfold DynamicDecoder.postBaseEntry DynamicTable.getByPostBaseIndex
    cases DynamicTable.checkedAdd base i with
    | none => simp
    | some absolute =>
      dsimp only
      rw [Option.bind_some, habsolute]
      split <;> simp
  refine or_iff_left ?_
  rintro ⟨e, he, -⟩
  cases w with
  | indexed isStatic index =>
    cases isStatic with
    | false => exact hrelative index e he
    | true => cases he
  | nameRef isStatic index value =>
    cases isStatic with
    | false => exact hrelative index e he
    | true => cases he
  | literal name value => cases he
  | indexedPostBase index => exact hpostBase index e he
  | nameRefPostBase index value => exact hpostBase index e he

namespace Decoder

section Lines

variable {first : UInt8} {data : Bytes} {value len : Nat} {h : Header} {n : Nat}

theorem decodeIndexedField_ok_iff (hint : decodeInteger data 6 = .ok (value, len)) :
    decodeIndexedField first data = .ok (h, n) ↔
      (WireLine.indexed (first &&& 0x40 != 0) value).staticHeader = some h ∧ len = n := by
  unfold decodeIndexedField
  simp only [hint, bne]
  cases first &&& 0x40 == 0 with
  | false => simp [map_ok_iff, WireLine.staticHeader, staticEntry_ok_iff]
  | true => simp [WireLine.staticHeader]

theorem decodeLiteralWithNameRef_ok_iff (hint : decodeInteger data 4 = .ok (value, len)) :
    decodeLiteralWithNameRef first data = .ok (h, n) ↔
      ∃ w, valueLine (.nameRef (first &&& 0x10 != 0) value) data len = .ok (w, n) ∧
        w.staticHeader = some h := by
  unfold decodeLiteralWithNameRef
  simp only [hint, bne]
  simp only [← resolves_iff_static (t := .new) rfl 0 0]
  cases first &&& 0x10 == 0 with
  | false =>
    simp only [Bool.not_false, Bool.false_eq_true, if_false, DynamicDecoder.staticEntry]
    cases hentry : getStaticEntry value with
    | none =>
      refine iff_of_false (by simp) (not_resolved_line fun v => ?_)
      simp [WireLine.Resolves, WireLine.staticHeader, WireLine.dynamicEntry, hentry]
    | some e =>
      refine withValue_iff_line fun v => ?_
      simp [WireLine.Resolves, WireLine.staticHeader, WireLine.dynamicEntry, hentry]
  | true =>
    refine iff_of_false (by simp) (not_resolved_line fun v => ?_)
    rw [resolves_iff_static rfl 0 0]
    simp [WireLine.staticHeader]

end Lines

theorem decodeHeader_ok_iff (data : Bytes) (h : Header) (n : Nat) :
    decodeHeader data = .ok (h, n) ↔ ∃ w, parseLine data = .ok (w, n) ∧ w.staticHeader = some h := by
  cases data with
  | nil => simp [decodeHeader, parseLine]
  | cons first rest =>
    unfold decodeHeader parseLine lineBody linePrefixBits
    dsimp only
    by_cases h80 : (first &&& 0x80 != 0) = true
    · simp only [h80, if_true]
      cases hint : decodeInteger (first :: rest) 6 with
      | error e =>
        unfold decodeIndexedField
        rw [hint]
        refine iff_of_false ?_ (by simp)
        split <;> simp
      | ok r =>
        rw [decodeIndexedField_ok_iff hint]
        simp [and_comm]
    · simp only [h80, if_false, Bool.false_eq_true]
      by_cases h40 : (first &&& 0x40 != 0) = true
      · simp only [h40, if_true]
        cases hint : decodeInteger (first :: rest) 4 with
        | error e =>
          unfold decodeLiteralWithNameRef
          rw [hint]
          refine iff_of_false ?_ (by simp)
          split <;> simp
        | ok r => exact decodeLiteralWithNameRef_ok_iff hint
      · simp only [h40, if_false, Bool.false_eq_true]
        by_cases h20 : (first &&& 0x20 != 0) = true
        · simp only [h20, if_true]
          simp only [← resolves_iff_static (t := .new) rfl 0 0]
          cases hint : decodeInteger (first :: rest) 3 with
          | error e => simp [DynamicDecoder.decodeLiteralWithLiteralName, hint]
          | ok r => exact decodeLiteralWithLiteralName_ok_iff hint
        · simp only [h20, if_false, Bool.false_eq_true]
          refine iff_of_false (by simp) ?_
          rintro ⟨w, hw, hstatic⟩
          by_cases h10 : (first &&& 0x10 != 0) = true
          · simp only [h10, if_true] at hw
            split at hw <;> cases hw
            cases hstatic
          · simp only [h10, if_false, Bool.false_eq_true] at hw
            split at hw
            · cases hw
            · obtain ⟨v, m, hv, rfl, hm⟩ := valueLine_ok_iff.mp hw
              cases hstatic

end Decoder

/-! ## Lines to the end of the section -/

theorem valueLine_le {line : Bytes → WireLine} {data : Bytes} {offset n : Nat} {w : WireLine}
    (h : valueLine line data offset = .ok (w, n)) : offset ≤ n := by
  obtain ⟨v, m, -, -, rfl⟩ := valueLine_ok_iff.mp h
  exact Nat.le_add_right offset m

/-- A line takes at least a byte. -/
theorem parseLine_pos {data : Bytes} {w : WireLine} {n : Nat} (h : parseLine data = .ok (w, n)) :
    0 < n := by
  unfold parseLine at h
  split at h
  · cases h
  · split at h
    · cases h
    · rename_i first rest value len hint
      have hlen := decodeInteger_pos hint
      refine hlen.trans_le ?_
      unfold lineBody at h
      split at h
      · cases h
        exact Nat.le_refl _
      · split at h
        · exact valueLine_le h
        · split at h
          · unfold literalLine at h
            split at h
            · cases h
            · exact (Nat.le_add_right _ _).trans (valueLine_le h)
          · split at h
            · cases h
              exact Nat.le_refl _
            · exact valueLine_le h

section Fields

variable {field : Reader QpackError UInt8 Header} {limit fuel total : Nat} {data : Bytes}
  {hs : List Header}

/-- The fields are read one after the other, and together they keep to the limit. -/
theorem fieldsWith_sound (hpos : ∀ data h n, field data = .ok (h, n) → 0 < n)
    (hfuel : data.length ≤ fuel) (htotal : total ≤ limit)
    (h : fieldsWith field limit fuel total data = .ok hs) :
    Reader.Items field data hs [] ∧ total + (hs.map Header.size).sum ≤ limit := by
  induction fuel generalizing total data hs with
  | zero =>
    cases h
    rw [List.length_eq_zero_iff.mp (Nat.le_zero.mp hfuel)]
    exact ⟨.nil [], htotal⟩
  | succ fuel ih =>
    unfold fieldsWith at h
    split at h
    · rename_i hempty
      cases h
      rw [List.isEmpty_iff.mp hempty]
      exact ⟨.nil [], htotal⟩
    · split at h
      · cases h
      · rename_i x n hfield
        dsimp only at h
        split at h
        · cases h
        · rename_i hwithin
          split at h
          · cases h
          · rename_i xs hrest
            cases h
            have hshort : (data.drop n).length ≤ fuel := by
              have hn := hpos _ _ _ hfield
              rw [List.length_drop]
              omega
            obtain ⟨hitems, hsum⟩ := ih hshort (Nat.le_of_not_lt hwithin) hrest
            refine ⟨.cons hfield hitems, ?_⟩
            rw [List.map_cons, List.sum_cons]
            omega

theorem fieldsWith_complete (hnil : ∀ r, field [] ≠ .ok r)
    (hpos : ∀ data h n, field data = .ok (h, n) → 0 < n) (hfuel : data.length ≤ fuel)
    (hitems : Reader.Items field data hs [])
    (hsum : total + (hs.map Header.size).sum ≤ limit) :
    fieldsWith field limit fuel total data = .ok hs := by
  induction hs generalizing fuel total data with
  | nil =>
    cases hitems
    cases fuel <;> rfl
  | cons x xs ih =>
    cases hitems with
    | cons hfield hrest =>
      rename_i n
      have hne : data ≠ [] := by
        rintro rfl
        exact hnil _ hfield
      have hn := hpos _ _ _ hfield
      have hlength := List.length_pos_iff.mpr hne
      rw [List.map_cons, List.sum_cons] at hsum
      obtain ⟨fuel, rfl⟩ : ∃ f, fuel = f + 1 := ⟨fuel - 1, by omega⟩
      have hshort : (data.drop n).length ≤ fuel := by
        rw [List.length_drop]
        omega
      have hnext : fieldsWith field limit fuel (total + x.size) (data.drop n) = .ok xs :=
        ih hshort hrest (by omega)
      have hnonempty : data.isEmpty = false := by simp [hne]
      simp only [fieldsWith, hnonempty, Bool.false_eq_true, if_false, hfield, hnext]
      rw [if_neg (by omega)]

end Fields

/-! ## Sections -/

/-- The beginning of a section: the encoded count, the byte with the sign, the distance of the
base, and the lines behind. -/
def SectionHead (data : Bytes) (encInsertCount : Nat) (first : UInt8) (deltaBase : Nat)
    (lines : Bytes) : Prop :=
  2 ≤ data.length ∧ ∃ n rest m, decodeInteger data 8 = .ok (encInsertCount, n) ∧
    data.drop n = first :: rest ∧ decodeInteger (first :: rest) 7 = .ok (deltaBase, m) ∧
      lines = (first :: rest).drop m

/-- The section announces `ric` inserts and counts its references from `base`; its lines follow. -/
def DynamicDecoder.Announces (d : DynamicDecoder) (data : Bytes) (ric base : Nat) (lines : Bytes) :
    Prop :=
  ∃ encInsertCount first deltaBase, SectionHead data encInsertCount first deltaBase lines ∧
    d.decodeRequiredInsertCount encInsertCount = .ok ric ∧ decodeBase first deltaBase ric = .ok base

theorem parseLine_nil (r : WireLine × Nat) : parseLine [] ≠ .ok r := by
  simp [parseLine]

theorem DynamicDecoder.decodeHeader_pos {t : DynamicTable} {base ric : Nat} {data : Bytes}
    {h : Header} {n : Nat} (hread : decodeHeader t data base ric = .ok (h, n)) : 0 < n := by
  obtain ⟨w, hw, -⟩ := (decodeHeader_ok_iff t base ric data h n).mp hread
  exact parseLine_pos hw

theorem Decoder.decodeHeader_pos {data : Bytes} {h : Header} {n : Nat}
    (hread : decodeHeader data = .ok (h, n)) : 0 < n := by
  obtain ⟨w, hw, -⟩ := (Decoder.decodeHeader_ok_iff data h n).mp hread
  exact parseLine_pos hw

/-- What the decoder without a dynamic table accepts. -/
theorem Decoder.decode_ok_iff (limit : Nat) (data : Bytes) (hs : List Header) :
    (Decoder.mk limit).decode data = .ok hs ↔
      ∃ first deltaBase lines, SectionHead data 0 first deltaBase lines ∧
        Reader.Items decodeHeader lines hs [] ∧ (hs.map Header.size).sum ≤ limit := by
  constructor
  · intro h
    unfold Decoder.decode at h
    split at h
    · cases h
    · rename_i hlong
      split at h
      · cases h
      · rename_i ric n hric
        split at h
        · cases h
        · rename_i hzero
          have hzero : ric = 0 := Decidable.not_not.mp hzero
          subst hzero
          split at h
          · cases h
          · rename_i hne
            cases hrest : data.drop n with
            | nil => exact absurd hrest hne
            | cons first rest =>
              rw [hrest] at h
              split at h
              · cases h
              · rename_i delta m hdelta
                obtain ⟨hitems, hsum⟩ := fieldsWith_sound (fun _ _ _ => Decoder.decodeHeader_pos)
                  (by rw [List.length_drop]; omega) (Nat.zero_le _) h
                rw [Nat.zero_add] at hsum
                exact ⟨first, delta, _, ⟨Nat.le_of_not_lt hlong, n, rest, m, hric, hrest, hdelta, rfl⟩,
                  hitems, hsum⟩
  · rintro ⟨first, delta, lines, ⟨hlong, n, rest, m, hric, hrest, hdelta, rfl⟩, hitems, hsum⟩
    have hfields : fieldsWith decodeHeader limit (first :: rest).length 0
        ((first :: rest).drop m) = .ok hs :=
      fieldsWith_complete (fun r => by simp [decodeHeader]) (fun _ _ _ => decodeHeader_pos)
        (by simp) hitems (by rwa [Nat.zero_add])
    unfold Decoder.decode
    rw [if_neg (Nat.not_lt.mpr hlong), hric]
    simp only [ne_eq, not_true, if_false, hrest, hdelta]
    exact hfields

/-- What the decoder with a dynamic table accepts. -/
theorem DynamicDecoder.decode_ok_iff (d : DynamicDecoder) (data : Bytes) (hs : List Header) :
    (d.decode data).1 = .ok (.decoded hs) ↔
      ∃ encInsertCount first deltaBase lines ric base,
        SectionHead data encInsertCount first deltaBase lines ∧
        d.decodeRequiredInsertCount encInsertCount = .ok ric ∧ ric ≤ d.table.insertCount ∧
        decodeBase first deltaBase ric = .ok base ∧
        Reader.Items (decodeHeader d.table · base ric) lines hs [] ∧
          (hs.map Header.size).sum ≤ d.maxFieldSectionSize := by
  constructor
  · intro h
    unfold DynamicDecoder.decode at h
    split at h
    · cases h
    · rename_i hlong
      split at h
      · cases h
      · rename_i enc n henc
        split at h
        · cases h
        · rename_i ric hric
          dsimp only at h
          split at h
          · cases h
          · rename_i hready
            unfold decodeRest at h
            dsimp only at h
            split at h
            · cases h
            · rename_i first rest hrest
              split at h
              · cases h
              · rename_i delta m hdelta
                split at h
                · cases h
                · rename_i base hbase
                  obtain ⟨xs, hfields, hxs⟩ := map_ok_iff.mp h
                  cases hxs
                  rw [decodeFields_eq] at hfields
                  obtain ⟨hitems, hsum⟩ := fieldsWith_sound (fun _ _ _ => decodeHeader_pos)
                    (by rw [List.length_drop]; omega) (Nat.zero_le _) hfields
                  rw [Nat.zero_add] at hsum
                  rw [hrest] at hdelta hitems
                  exact ⟨enc, first, delta, _, ric, base,
                    ⟨Nat.le_of_not_lt hlong, n, rest, m, henc, hrest, hdelta, rfl⟩, hric, by omega,
                    hbase, hitems, hsum⟩
  · rintro ⟨enc, first, delta, lines, ric, base, ⟨hlong, n, rest, m, henc, hrest, hdelta, rfl⟩, hric,
      hready, hbase, hitems, hsum⟩
    have hfields : fieldsWith (decodeHeader d.table · base ric) d.maxFieldSectionSize
        (first :: rest).length 0 ((first :: rest).drop m) = .ok hs :=
      fieldsWith_complete (fun r => by simp [decodeHeader]) (fun _ _ _ => decodeHeader_pos)
        (by simp) hitems (by rwa [Nat.zero_add])
    unfold DynamicDecoder.decode
    rw [if_neg (Nat.not_lt.mpr hlong), henc]
    dsimp only
    rw [hric]
    dsimp only
    rw [if_neg (by omega), hrest]
    simp only [decodeRest, hdelta, hbase, decodeFields_eq]
    rw [hfields]
    rfl

/-- A section has one beginning. -/
theorem SectionHead.unique {data : Bytes} {enc enc' delta delta' : Nat} {first first' : UInt8}
    {lines lines' : Bytes} (h : SectionHead data enc first delta lines)
    (h' : SectionHead data enc' first' delta' lines') :
    enc = enc' ∧ first = first' ∧ delta = delta' ∧ lines = lines' := by
  obtain ⟨-, n, rest, m, henc, hrest, hdelta, rfl⟩ := h
  obtain ⟨-, n', rest', m', henc', hrest', hdelta', rfl⟩ := h'
  rw [henc] at henc'
  cases henc'
  rw [hrest] at hrest'
  cases hrest'
  rw [hdelta] at hdelta'
  cases hdelta'
  exact ⟨rfl, rfl, rfl, rfl⟩

end Http3.Qpack
