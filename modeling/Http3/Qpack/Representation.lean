import Http3.Qpack.Section

/-!
# Representations of a field

The encoder chooses one of five representations for each field, and writes them one after the
other. The Required Insert Count is computed before they are chosen: where a name in the dynamic
table loses to a match in the static one, it counts an entry that no line refers to.
-/

namespace Http3.Qpack

/-- How a field is written. Dynamic entries are named by their absolute index. -/
inductive FieldLine where
  | indexedStatic (index : Nat)
  | indexedDynamic (absoluteIndex : Nat)
  | nameRefStatic (index : Nat) (value : Bytes) (neverIndexed : Bool)
  | nameRefDynamic (absoluteIndex : Nat) (value : Bytes) (neverIndexed : Bool)
  | literal (name value : Bytes) (neverIndexed : Bool)

namespace FieldLine

def write (useHuffman : Bool) (base : Nat) : FieldLine → Bytes
  | indexedStatic index => encodeIndexedFieldStatic index
  | indexedDynamic absoluteIndex => encodeIndexedFieldDynamic absoluteIndex base
  | nameRefStatic index value neverIndexed =>
    encodeLiteralWithNameRefStatic index value neverIndexed useHuffman
  | nameRefDynamic absoluteIndex value neverIndexed =>
    encodeLiteralWithNameRefDynamic absoluteIndex value base neverIndexed useHuffman
  | literal name value neverIndexed =>
    encodeLiteralWithLiteralName name value neverIndexed useHuffman

/-- The dynamic entry that the line refers to. -/
def reference : FieldLine → Option Nat
  | indexedDynamic absoluteIndex => some absoluteIndex
  | nameRefDynamic absoluteIndex _ _ => some absoluteIndex
  | _ => none

/-- A literal whose N bit is set. -/
def neverIndexed : FieldLine → Bool
  | nameRefStatic _ _ neverIndexed => neverIndexed
  | nameRefDynamic _ _ neverIndexed => neverIndexed
  | literal _ _ neverIndexed => neverIndexed
  | _ => false

end FieldLine

/-- The line of a field in a section without dynamic references. -/
def staticLine (h : Header) : FieldLine :=
  match findStaticEntry h.name h.value with
  | (some index, _) => .indexedStatic index
  | (none, some index) => .nameRefStatic index h.value h.neverIndexed
  | (none, none) => .literal h.name h.value h.neverIndexed

def dynamicLine (t : DynamicTable) (h : Header) : FieldLine :=
  match t.findEntry h.name h.value, findStaticEntry h.name h.value with
  | (some absIndex, _), _ => .indexedDynamic absIndex
  | (none, _), (some index, _) => .indexedStatic index
  | (none, some absIndex), (none, _) => .nameRefDynamic absIndex h.value h.neverIndexed
  | (none, none), (none, some index) => .nameRefStatic index h.value h.neverIndexed
  | (none, none), (none, none) => .literal h.name h.value h.neverIndexed

theorem encodeHeaderStaticOnly_eq (useHuffman : Bool) (base : Nat) (h : Header) :
    encodeHeaderStaticOnly useHuffman h = (staticLine h).write useHuffman base := by
  unfold encodeHeaderStaticOnly staticLine
  rcases findStaticEntry h.name h.value with ⟨_ | i, _ | j⟩ <;> rfl

theorem encodeHeaderWithDynamic_eq (t : DynamicTable) (useHuffman : Bool) (base : Nat)
    (h : Header) : encodeHeaderWithDynamic t useHuffman h base =
      (dynamicLine t h).write useHuffman base := by
  unfold encodeHeaderWithDynamic dynamicLine
  rcases t.findEntry h.name h.value with ⟨_ | a, _ | b⟩ <;>
    rcases findStaticEntry h.name h.value with ⟨_ | i, _ | j⟩ <;> rfl

theorem staticLine_reference (h : Header) : (staticLine h).reference = none := by
  unfold staticLine
  rcases findStaticEntry h.name h.value with ⟨_ | i, _ | j⟩ <;> rfl

theorem dynamicLine_reference (t : DynamicTable) (h : Header) :
    (dynamicLine t h).reference = DynamicEncoder.reference t h := by
  unfold dynamicLine DynamicEncoder.reference
  rcases t.findEntry h.name h.value with ⟨_ | a, _ | b⟩ <;>
    rcases findStaticEntry h.name h.value with ⟨_ | i, _ | j⟩ <;> rfl

namespace DynamicEncoder

/-! ## The lines of a section -/

def lines (e : DynamicEncoder) (headers : List Header) (blockedStreams : Nat) : List FieldLine :=
  if e.usesDynamic blockedStreams then headers.map (dynamicLine e.table) else headers.map staticLine

/-- The bytes of a section: the count, a base equal to it, and the lines. -/
def sectionBytes (e : DynamicEncoder) (requiredInsertCount : Nat) (lines : List FieldLine) : Bytes :=
  encodeIntegerToVec (e.encodeRequiredInsertCount requiredInsertCount) 8 0x00 ++
    0x00 :: lines.flatMap (FieldLine.write e.useHuffman requiredInsertCount)

/-- What `encode` writes. -/
theorem encode_eq_some {e : DynamicEncoder} {cap : Nat} {headers : List Header}
    {blockedStreams : Nat} {bytes : Bytes} (h : (e.encode cap headers blockedStreams).1 = some bytes) :
    bytes = e.sectionBytes (e.encode cap headers blockedStreams).2.lastRequiredInsertCount
      (e.lines headers blockedStreams) := by
  unfold encode at h ⊢
  unfold lines
  split
  · rename_i huses
    rw [if_pos huses] at h
    obtain ⟨rfl, -⟩ := fit_eq_some h
    rw [encodeWithDynamic, sectionBytes, List.flatMap_map]
    simp only [encodeHeaderWithDynamic_eq]
  · rename_i huses
    rw [if_neg huses] at h
    obtain ⟨rfl, -⟩ := fit_eq_some h
    have hwrite : encodeHeaderStaticOnly e.useHuffman =
        fun h => (staticLine h).write e.useHuffman 0 :=
      funext fun h => encodeHeaderStaticOnly_eq e.useHuffman 0 h
    have hzero : encodeIntegerToVec (e.encodeRequiredInsertCount 0) 8 0x00 = [0x00] := by
      rw [encodeRequiredInsertCount, if_pos rfl]
      decide
    rw [encodeStaticOnly, sectionBytes, List.flatMap_map, hwrite]
    dsimp only
    rw [hzero]
    rfl

/-! ## The Required Insert Count is exact -/

/-- One more than the largest index that is referred to, or zero without any. -/
def Exact (requiredInsertCount : Nat) (references : List Nat) : Prop :=
  (references = [] ∧ requiredInsertCount = 0) ∨
    ∃ i ∈ references, requiredInsertCount = i + 1 ∧ ∀ j ∈ references, j ≤ i

/-- The newest entry with the name of the field, which only the static table has itself. -/
def Shadowed (t : DynamicTable) (h : Header) (j : Nat) : Prop :=
  t.findEntry h.name h.value = (none, some j) ∧
    (findStaticEntry h.name h.value).1.isSome = true

/-- The entry equals the field, or it has its name and the static table does not have the field. -/
def Matches (t : DynamicTable) (h : Header) (i : Nat) : Prop :=
  (t.findEntry h.name h.value).1 = some i ∨
    t.findEntry h.name h.value = (none, some i) ∧ (findStaticEntry h.name h.value).1 = none

/-- Every shadowed entry is as old as one that is matched. -/
def Covered (t : DynamicTable) (headers : List Header) : Prop :=
  ∀ h ∈ headers, ∀ j, Shadowed t h j → ∃ x ∈ headers, ∃ i, Matches t x i ∧ j ≤ i

theorem reference_eq_some_iff (t : DynamicTable) (h : Header) (i : Nat) :
    reference t h = some i ↔ Matches t h i := by
  unfold reference Matches
  rcases t.findEntry h.name h.value with ⟨_ | a, b⟩ <;>
    rcases findStaticEntry h.name h.value with ⟨_ | k, l⟩ <;> simp

/-- What is counted is referred to or shadowed. -/
theorem counted_cases {t : DynamicTable} {h : Header} {j : Nat} (hj : counted t h = some j) :
    reference t h = some j ∨ Shadowed t h j := by
  revert hj
  unfold counted reference Shadowed
  rcases t.findEntry h.name h.value with ⟨_ | a, b⟩
  · rintro rfl
    rcases findStaticEntry h.name h.value with ⟨_ | i, k⟩
    · exact .inl rfl
    · exact .inr ⟨rfl, rfl⟩
  · exact fun hj => .inl hj

theorem counted_of_shadowed {t : DynamicTable} {h : Header} {j : Nat} (hj : Shadowed t h j) :
    counted t h = some j := by
  unfold counted
  rw [hj.1]

theorem exact_iff_covered (t : DynamicTable) (headers : List Header) :
    Exact (requiredInsertCount t headers) (headers.filterMap (reference t)) ↔ Covered t headers := by
  constructor
  · rintro (⟨hnone, hzero⟩ | ⟨i, hi, hric, -⟩) h hh j hshadowed
    · have hlt := (requiredInsertCount_le_iff t headers _).mp (Nat.le_refl _) h hh j
        (counted_of_shadowed hshadowed)
      omega
    · have hlt := (requiredInsertCount_le_iff t headers _).mp (Nat.le_refl _) h hh j
        (counted_of_shadowed hshadowed)
      obtain ⟨x, hx, hxi⟩ := List.mem_filterMap.mp hi
      exact ⟨x, hx, i, (reference_eq_some_iff t x i).mp hxi, by omega⟩
  · intro hcovered
    have hcounted : ∀ h ∈ headers, ∀ j, counted t h = some j →
        ∃ i ∈ headers.filterMap (reference t), j ≤ i := by
      intro h hh j hj
      rcases counted_cases hj with href | hshadowed
      · exact ⟨j, List.mem_filterMap.mpr ⟨h, hh, href⟩, Nat.le_refl j⟩
      · obtain ⟨x, hx, i, hi, hle⟩ := hcovered h hh j hshadowed
        exact ⟨i, List.mem_filterMap.mpr ⟨x, hx, (reference_eq_some_iff t x i).mpr hi⟩, hle⟩
    cases hmax : (headers.filterMap (reference t)).max? with
    | none =>
      rw [List.max?_eq_none_iff] at hmax
      refine .inl ⟨hmax, Nat.le_zero.mp ?_⟩
      refine (requiredInsertCount_le_iff t headers 0).mpr fun h hh j hj => ?_
      obtain ⟨i, hi, -⟩ := hcounted h hh j hj
      rw [hmax] at hi
      cases hi
    | some i =>
      obtain ⟨hi, hlargest⟩ := List.max?_eq_some_iff.mp hmax
      refine .inr ⟨i, hi, Nat.le_antisymm ?_ (lt_requiredInsertCount hi), hlargest⟩
      refine (requiredInsertCount_le_iff t headers _).mpr fun h hh j hj => ?_
      obtain ⟨k, hk, hle⟩ := hcounted h hh j hj
      exact Nat.lt_succ_of_le (hle.trans (hlargest k hk))

/-- The references of a section are those of its lines. -/
theorem references_eq (e : DynamicEncoder) (headers : List Header) (blockedStreams : Nat) :
    (e.lines headers blockedStreams).filterMap FieldLine.reference =
      e.references headers blockedStreams := by
  unfold lines references
  split
  · rw [List.filterMap_map]
    exact congrArg (List.filterMap · headers) (funext (dynamicLine_reference e.table))
  · rw [List.filterMap_map]
    exact List.filterMap_eq_nil_iff.mpr fun h _ => staticLine_reference h

end DynamicEncoder

/-- **The Required Insert Count is exact** if and only if every entry that is counted for its name
only, and shadowed by the static table, is covered by an entry that a line refers to. -/
theorem required_insert_count_exact_iff (e : DynamicEncoder) (cap : Nat) (headers : List Header)
    (blockedStreams : Nat) (bytes : Bytes)
    (h : (e.encode cap headers blockedStreams).1 = some bytes) :
    bytes = e.sectionBytes (e.encode cap headers blockedStreams).2.lastRequiredInsertCount
        (e.lines headers blockedStreams) ∧
      (DynamicEncoder.Exact (e.encode cap headers blockedStreams).2.lastRequiredInsertCount
          ((e.lines headers blockedStreams).filterMap FieldLine.reference) ↔
        (e.usesDynamic blockedStreams = true → DynamicEncoder.Covered e.table headers)) := by
  refine ⟨DynamicEncoder.encode_eq_some h, ?_⟩
  rw [DynamicEncoder.references_eq]
  unfold DynamicEncoder.encode DynamicEncoder.references
  split
  · rename_i huses
    rw [DynamicEncoder.exact_iff_covered]
    exact ⟨fun hcovered _ => hcovered, fun hcovered => hcovered huses⟩
  · rename_i huses
    exact iff_of_true (.inl ⟨rfl, rfl⟩) fun h => absurd h huses

/-- An encoder whose table has the name of a field of the static table, with another value. -/
def shadowingEncoder : DynamicEncoder :=
  (Sender.new.run [.setPeerMaxBlockedStreams 1, .setMaxTableCapacity 100, .setTableCapacity 100,
    .insert (Bytes.ofString ":path") (Bytes.ofString "/x")]).encoder

/-- The entry itself is referred to, so the count is exact. -/
theorem required_insert_count_exact_entry :
    DynamicEncoder.Exact
      (shadowingEncoder.encode 16 [.fromStatic ":path" "/x"] 0).2.lastRequiredInsertCount
      ((shadowingEncoder.lines [.fromStatic ":path" "/x"] 0).filterMap FieldLine.reference) := by
  refine (required_insert_count_exact_iff shadowingEncoder 16 [.fromStatic ":path" "/x"] 0
    [0x02, 0x00, 0x80] (by decide +kernel)).2.mpr ?_
  rintro - h hh j hshadowed
  rw [List.mem_singleton.mp hh] at hshadowed
  have hexact : (shadowingEncoder.table.findEntry (Header.fromStatic ":path" "/x").name
      (Header.fromStatic ":path" "/x").value).1 = some 0 := by decide +kernel
  rw [hshadowed.1] at hexact
  cases hexact

/-- A count of one is announced for a section of which no line refers to the dynamic table. -/
theorem required_insert_count_not_exact :
    ¬∀ (e : DynamicEncoder) (cap : Nat) (headers : List Header) (blockedStreams : Nat)
      (bytes : Bytes), (e.encode cap headers blockedStreams).1 = some bytes →
        DynamicEncoder.Exact (e.encode cap headers blockedStreams).2.lastRequiredInsertCount
          ((e.lines headers blockedStreams).filterMap FieldLine.reference) := by
  intro h
  have hexact := h shadowingEncoder 16 [.fromStatic ":path" "/"] 0 [0x02, 0x00, 0xc1]
    (by decide +kernel)
  have hcount : (shadowingEncoder.encode 16 [.fromStatic ":path" "/"] 0).2.lastRequiredInsertCount =
      1 := by decide +kernel
  have hreferences : (shadowingEncoder.lines [.fromStatic ":path" "/"] 0).filterMap
      FieldLine.reference = [] := by decide +kernel
  rw [hcount, hreferences] at hexact
  rcases hexact with ⟨-, hzero⟩ | ⟨i, hi, -⟩
  · cases hzero
  · cases hi

end Http3.Qpack
