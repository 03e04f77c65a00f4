import Http3.Qpack.LineSyntax

/-!
# The decoder without a dynamic table

It accepts the sections that the other decoder accepts with an empty table, and those that begin
with a negative base: it does not look at the sign of the base.
-/

namespace Http3.Qpack

/-- The base is below zero: the sign bit is set, and the distance is not below the count. -/
def NegativeBase (ric : Nat) (first : UInt8) (deltaBase : Nat) : Prop :=
  (first &&& 0x80 != 0) = true ∧ ric ≤ deltaBase

/-- The decoders accept the same header lists, none of them under a negative base. -/
def DecodersAgree (limit : Nat) (data : Bytes) : Prop :=
  (∀ d : DynamicDecoder, d.table.entries = [] → d.maxTableCapacity = 0 →
    d.maxFieldSectionSize = limit → ∀ hs,
      (Decoder.mk limit).decode data = .ok hs ↔ (d.decode data).1 = .ok (.decoded hs)) ∧
    ∀ hs, (Decoder.mk limit).decode data = .ok hs → ∀ ric first deltaBase lines,
      SectionHead data ric first deltaBase lines → ¬NegativeBase ric first deltaBase

/-- Behind a sign bit stand static lines to the end, within the limit. -/
def SignedStatic (limit : Nat) (data : Bytes) : Prop :=
  ∃ first deltaBase lines ws hs, SectionHead data 0 first deltaBase lines ∧
    (first &&& 0x80 != 0) = true ∧ Reader.Items parseLine lines ws [] ∧
      List.Forall₂ (fun w h => WireLine.staticHeader w = some h) ws hs ∧
        (hs.map Header.size).sum ≤ limit

/-! ## An empty table -/

/-- With a capacity of zero only the count zero is decoded. -/
theorem decodeRequiredInsertCount_zero_capacity {d : DynamicDecoder} (hcapacity : d.maxTableCapacity = 0)
    {v ric : Nat} : d.decodeRequiredInsertCount v = .ok ric ↔ v = 0 ∧ ric = 0 := by
  unfold DynamicDecoder.decodeRequiredInsertCount
  rw [hcapacity]
  split
  · rename_i hzero
    constructor
    · intro h
      cases h
      exact ⟨hzero, rfl⟩
    · rintro ⟨-, rfl⟩
      rfl
  · rename_i hne
    simp [hne]

/-- Without entries to count, the base is the distance, which has no sign. -/
theorem decodeBase_zero {first : UInt8} {deltaBase base : Nat} (hdelta : deltaBase ≤ VarInt.max.get) :
    DynamicDecoder.decodeBase first deltaBase 0 = .ok base ↔
      (first &&& 0x80 != 0) = false ∧ base = deltaBase := by
  have hmax : VarInt.max.get = 2 ^ 62 - 1 := rfl
  unfold DynamicDecoder.decodeBase DynamicTable.checkedAdd
  cases first &&& 0x80 != 0 with
  | false =>
    rw [if_neg Bool.false_ne_true, Nat.zero_add, if_pos (by omega)]
    simp [eq_comm]
  | true => simp

theorem items_decodeHeader_iff {lines : Bytes} {hs : List Header} :
    Reader.Items Decoder.decodeHeader lines hs [] ↔ ∃ ws, Reader.Items parseLine lines ws [] ∧
      List.Forall₂ (fun w h => WireLine.staticHeader w = some h) ws hs :=
  Reader.items_factor Decoder.decodeHeader_ok_iff

theorem items_empty_iff {t : DynamicTable} (ht : t.entries = []) (base ric : Nat) {lines : Bytes}
    {hs : List Header} : Reader.Items (DynamicDecoder.decodeHeader t · base ric) lines hs [] ↔
      Reader.Items Decoder.decodeHeader lines hs [] := by
  rw [items_decodeHeader_iff]
  refine Reader.items_factor fun data h n => ?_
  simp only [decodeHeader_ok_iff, resolves_iff_static ht]

/-- With an empty table the dynamic decoder accepts what the static one does, but for the sign. -/
theorem decode_empty_iff {d : DynamicDecoder} (ht : d.table.entries = [])
    (hcapacity : d.maxTableCapacity = 0) (data : Bytes) (hs : List Header) :
    (d.decode data).1 = .ok (.decoded hs) ↔
      ∃ first deltaBase lines, SectionHead data 0 first deltaBase lines ∧
        (first &&& 0x80 != 0) = false ∧ Reader.Items Decoder.decodeHeader lines hs [] ∧
          (hs.map Header.size).sum ≤ d.maxFieldSectionSize := by
  rw [DynamicDecoder.decode_ok_iff]
  constructor
  · rintro ⟨v, first, delta, lines, ric, base, hhead, hric, -, hbase, hitems, hsum⟩
    obtain ⟨rfl, rfl⟩ := (decodeRequiredInsertCount_zero_capacity hcapacity).mp hric
    obtain ⟨-, n, rest, m, -, -, hdelta, -⟩ := id hhead
    obtain ⟨hsign, -⟩ := (decodeBase_zero (decodeInteger_le_max hdelta)).mp hbase
    exact ⟨first, delta, lines, hhead, hsign, (items_empty_iff ht _ _).mp hitems, hsum⟩
  · rintro ⟨first, delta, lines, hhead, hsign, hitems, hsum⟩
    obtain ⟨-, n, rest, m, -, -, hdelta, -⟩ := id hhead
    exact ⟨0, first, delta, lines, 0, delta, hhead,
      (decodeRequiredInsertCount_zero_capacity hcapacity).mpr ⟨rfl, rfl⟩, Nat.zero_le _,
      (decodeBase_zero (decodeInteger_le_max hdelta)).mpr ⟨hsign, rfl⟩,
      (items_empty_iff ht _ _).mpr hitems, hsum⟩

/-- **The decoders agree** on every section that does not put a sign before static lines. -/
theorem decoders_agree_iff (limit : Nat) (data : Bytes) :
    DecodersAgree limit data ↔ ¬SignedStatic limit data := by
  constructor
  · rintro ⟨-, hreject⟩ ⟨first, delta, lines, ws, hs, hhead, hsign, hws, hstatic, hsum⟩
    have hdecode := (Decoder.decode_ok_iff limit data hs).mpr
      ⟨first, delta, lines, hhead, items_decodeHeader_iff.mpr ⟨ws, hws, hstatic⟩, hsum⟩
    exact hreject hs hdecode 0 first delta lines hhead ⟨hsign, Nat.zero_le _⟩
  · intro hsigned
    have hclear : ∀ hs, (Decoder.mk limit).decode data = .ok hs → ∃ first delta lines,
        SectionHead data 0 first delta lines ∧ (first &&& 0x80 != 0) = false ∧
          Reader.Items Decoder.decodeHeader lines hs [] ∧ (hs.map Header.size).sum ≤ limit := by
      intro hs hdecode
      obtain ⟨first, delta, lines, hhead, hitems, hsum⟩ :=
        (Decoder.decode_ok_iff limit data hs).mp hdecode
      refine ⟨first, delta, lines, hhead, ?_, hitems, hsum⟩
      by_contra hsign
      obtain ⟨ws, hws, hstatic⟩ := items_decodeHeader_iff.mp hitems
      exact hsigned ⟨first, delta, lines, ws, hs, hhead, by simpa using hsign, hws, hstatic, hsum⟩
    constructor
    · rintro d ht hcapacity rfl hs
      rw [decode_empty_iff ht hcapacity]
      refine ⟨hclear hs, ?_⟩
      rintro ⟨first, delta, lines, hhead, -, hitems, hsum⟩
      exact (Decoder.decode_ok_iff _ data hs).mpr ⟨first, delta, lines, hhead, hitems, hsum⟩
    · rintro hs hdecode ric first delta lines hhead ⟨hsign, -⟩
      obtain ⟨first', delta', lines', hhead', hclear', -⟩ := hclear hs hdecode
      obtain ⟨-, rfl, -, -⟩ := hhead.unique hhead'
      rw [hsign] at hclear'
      cases hclear'

/-- The shortest section with a negative base is accepted by one decoder only. -/
theorem sign_is_not_read : ¬∀ (limit : Nat) (data : Bytes), DecodersAgree limit data := by
  intro h
  have hstatic : (Decoder.mk 0).decode [0x00, 0x80] = .ok [] := by decide
  have hdynamic := ((h 0 [0x00, 0x80]).1 ⟨.new, 0, 0, 0⟩ rfl rfl rfl []).mp hstatic
  exact absurd hdynamic (by decide)

end Http3.Qpack
