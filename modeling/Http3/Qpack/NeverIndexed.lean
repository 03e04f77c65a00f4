import Http3.Qpack.LineSyntax
import Http3.Qpack.Representation

/-!
# Fields that are never indexed

A field that asks not to be indexed is written as a literal with the N bit only where neither table
has it, and neither decoder reads the bit: every decoded field lets itself be indexed.
-/

namespace Http3.Qpack

/-! ## Where a line ends -/

/-- A string on the wire: an integer with the length of a body, and the body. Only the flag joins
the high bits. -/
theorem encodeStringWithPrefix_split (data : Bytes) (prefixBits : Nat) (high : UInt8)
    (useHuffman : Bool) (hp7 : prefixBits ≤ 7) (hfree : isFree prefixBits high = true) :
    ∃ high' body, high' &&& UInt8.ofNat (2 ^ prefixBits - 1) = 0 ∧
      (∀ mask, mask &&& UInt8.ofNat (2 ^ (prefixBits + 1) - 1) = 0 → high' &&& mask = high &&& mask) ∧
        encodeStringWithPrefix data prefixBits high useHuffman =
          encodeIntegerToVec body.length prefixBits high' ++ body := by
  obtain ⟨h₁, h₂, -⟩ := flag_spec hp7 hfree
  obtain ⟨isHuffman, body, -, heq⟩ := encodeStringWithPrefix_eq data prefixBits high useHuffman
  cases isHuffman with
  | false => exact ⟨high, body, h₁, fun mask _ => rfl, heq⟩
  | true =>
    have hflag : 1 <<< prefixBits ≤ 2 ^ (prefixBits + 1) - 1 := by
      rw [Nat.one_shiftLeft, Nat.pow_succ]
      have := Nat.two_pow_pos prefixBits
      omega
    exact ⟨_, body, h₂, fun mask hmask => first_byte_and high mask (by omega) hflag hmask, heq⟩

theorem decodeString_of_encode (value : Bytes) (useHuffman : Bool) (rest : Bytes) {x : Bytes} {n : Nat}
    (h : decodeString (encodeString value useHuffman ++ rest) = .ok (x, n)) :
    n = (encodeString value useHuffman).length := by
  obtain ⟨high', body, hlow, -, heq⟩ :=
    encodeStringWithPrefix_split value 7 0x00 useHuffman (by decide) (by decide)
  have hstring : encodeString value useHuffman = encodeIntegerToVec body.length 7 high' ++ body := heq
  rw [hstring, List.append_assoc] at h
  rw [hstring]
  unfold decodeString decodeStringWithPrefix at h
  split at h
  · cases h
  · rename_i first tail hdata
    dsimp only at h
    split at h
    · cases h
    · rename_i length prefixLen hint
      obtain ⟨rfl, rfl⟩ := decodeInteger_of_encode _ _ _ _ (by decide) (by decide) hlow hint
      split at h
      · cases h
      · split at h
        · obtain ⟨s, -, hs⟩ := map_ok_iff.mp h
          cases hs
          exact List.length_append.symm
        · cases h
          exact List.length_append.symm

theorem valueLine_of_encode {line : Bytes → WireLine} {pre value rest : Bytes} {useHuffman : Bool}
    {w : WireLine} {n : Nat}
    (h : valueLine line (pre ++ (encodeString value useHuffman ++ rest)) pre.length = .ok (w, n)) :
    n = (pre ++ encodeString value useHuffman).length := by
  obtain ⟨v, m, hv, -, rfl⟩ := valueLine_ok_iff.mp h
  rw [List.drop_left' rfl] at hv
  rw [decodeString_of_encode value useHuffman rest hv, List.length_append]

/-- An indexed line ends where its integer does. -/
theorem parse_indexed {value : Nat} {high : UInt8} {rest : Bytes}
    (hfree : high &&& UInt8.ofNat (2 ^ 6 - 1) = 0) (h80 : high &&& 0x80 = 0x80) {w : WireLine} {n : Nat}
    (h : parseLine (encodeIntegerToVec value 6 high ++ rest) = .ok (w, n)) :
    n = (encodeIntegerToVec value 6 high).length := by
  obtain ⟨first, tail, hhead, hfirst⟩ := head_encode value 6 high rest (by decide) (by decide)
  have hbit : (first &&& 0x80 != 0) = true := by rw [hfirst 0x80 (by decide), h80]; decide
  rw [hhead] at h
  simp only [parseLine, linePrefixBits, lineBody, hbit, if_true] at h
  split at h
  · cases h
  · rename_i x len hint
    cases h
    rw [← hhead] at hint
    exact (decodeInteger_of_encode value 6 high rest (by decide) (by decide) hfree hint).2

/-- A line that refers to a name ends where its value does. -/
theorem parse_nameRef {index : Nat} {high : UInt8} {value rest : Bytes} {useHuffman : Bool}
    (hfree : high &&& UInt8.ofNat (2 ^ 4 - 1) = 0) (h80 : high &&& 0x80 = 0)
    (h40 : high &&& 0x40 = 0x40) {w : WireLine} {n : Nat}
    (h : parseLine (encodeIntegerToVec index 4 high ++ (encodeString value useHuffman ++ rest)) =
      .ok (w, n)) :
    n = (encodeIntegerToVec index 4 high ++ encodeString value useHuffman).length := by
  obtain ⟨first, tail, hhead, hfirst⟩ := head_encode index 4 high
    (encodeString value useHuffman ++ rest) (by decide) (by decide)
  have hbit80 : (first &&& 0x80 != 0) = false := by rw [hfirst 0x80 (by decide), h80]; decide
  have hbit40 : (first &&& 0x40 != 0) = true := by rw [hfirst 0x40 (by decide), h40]; decide
  rw [hhead] at h
  simp only [parseLine, linePrefixBits, lineBody, hbit80, hbit40, Bool.false_eq_true, if_false,
    if_true] at h
  split at h
  · cases h
  · rename_i x len hint
    rw [← hhead] at hint h
    obtain ⟨-, rfl⟩ := decodeInteger_of_encode index 4 high _ (by decide) (by decide) hfree hint
    exact valueLine_of_encode h

/-- A line with a name of its own ends where its value does. -/
theorem parse_literal {name value rest : Bytes} {high : UInt8} {useHuffman : Bool}
    (hfree : isFree 3 high = true) (h80 : high &&& 0x80 = 0) (h40 : high &&& 0x40 = 0)
    (h20 : high &&& 0x20 = 0x20) {w : WireLine} {n : Nat}
    (h : parseLine (encodeStringWithPrefix name 3 high useHuffman ++
      (encodeString value useHuffman ++ rest)) = .ok (w, n)) :
    n = (encodeStringWithPrefix name 3 high useHuffman ++ encodeString value useHuffman).length := by
  obtain ⟨high', body, hlow, hbits, heq⟩ :=
    encodeStringWithPrefix_split name 3 high useHuffman (by decide) hfree
  rw [heq, List.append_assoc] at h
  rw [heq]
  obtain ⟨first, tail, hhead, hfirst⟩ := head_encode body.length 3 high'
    (body ++ (encodeString value useHuffman ++ rest)) (by decide) (by decide)
  have hbit80 : (first &&& 0x80 != 0) = false := by
    rw [hfirst 0x80 (by decide), hbits 0x80 (by decide), h80]
    decide
  have hbit40 : (first &&& 0x40 != 0) = false := by
    rw [hfirst 0x40 (by decide), hbits 0x40 (by decide), h40]
    decide
  have hbit20 : (first &&& 0x20 != 0) = true := by
    rw [hfirst 0x20 (by decide), hbits 0x20 (by decide), h20]
    decide
  rw [hhead] at h
  simp only [parseLine, linePrefixBits, lineBody, hbit80, hbit40, hbit20, Bool.false_eq_true,
    if_false, if_true] at h
  split at h
  · cases h
  · rename_i x len hint
    rw [← hhead] at hint h
    obtain ⟨rfl, rfl⟩ := decodeInteger_of_encode _ 3 high' _ (by decide) (by decide) hlow hint
    unfold literalLine at h
    split at h
    · cases h
    · rename_i name' nameBytes hname
      have hbytes : nameBytes = body.length := by
        unfold decodeStringWithLen at hname
        split at hname
        · cases hname
        · dsimp only at hname
          split at hname
          · obtain ⟨s, -, hs⟩ := map_ok_iff.mp hname
            cases hs
            rfl
          · cases hname
            rfl
      rw [hbytes, ← List.length_append, ← List.append_assoc] at h
      exact valueLine_of_encode h

/-- **Framing.** Where a line is parsed at all, it ends where it was written. -/
theorem FieldLine.parse_write (line : FieldLine) (useHuffman : Bool) (base : Nat) (rest : Bytes)
    {w : WireLine} {n : Nat} (h : parseLine (line.write useHuffman base ++ rest) = .ok (w, n)) :
    n = (line.write useHuffman base).length := by
  cases line with
  | indexedStatic index => exact parse_indexed (by decide) (by decide) h
  | indexedDynamic absoluteIndex => exact parse_indexed (by decide) (by decide) h
  | nameRefStatic index value neverIndexed =>
    rw [write, encodeLiteralWithNameRefStatic, List.append_assoc] at h
    cases neverIndexed <;> exact parse_nameRef (by decide) (by decide) (by decide) h
  | nameRefDynamic absoluteIndex value neverIndexed =>
    rw [write, encodeLiteralWithNameRefDynamic, List.append_assoc] at h
    cases neverIndexed <;> exact parse_nameRef (by decide) (by decide) (by decide) h
  | literal name value neverIndexed =>
    rw [write, encodeLiteralWithLiteralName, List.append_assoc] at h
    cases neverIndexed <;> exact parse_literal (by decide) (by decide) (by decide) (by decide) h

theorem FieldLine.write_ne_nil (line : FieldLine) (useHuffman : Bool) (base : Nat) :
    line.write useHuffman base ≠ [] := by
  cases line with
  | indexedStatic index => exact encodeIntegerToVec_ne_nil index 6 0xc0 (by decide) (by decide)
  | indexedDynamic absoluteIndex =>
    exact encodeIntegerToVec_ne_nil (base - absoluteIndex - 1) 6 0x80 (by decide) (by decide)
  | nameRefStatic index value neverIndexed =>
    refine List.append_ne_nil_of_left_ne_nil ?_ _
    exact encodeIntegerToVec_ne_nil index 4 _ (by decide) (by decide)
  | nameRefDynamic absoluteIndex value neverIndexed =>
    refine List.append_ne_nil_of_left_ne_nil ?_ _
    exact encodeIntegerToVec_ne_nil (base - absoluteIndex - 1) 4 _ (by decide) (by decide)
  | literal name value neverIndexed =>
    refine List.append_ne_nil_of_left_ne_nil ?_ _
    unfold encodeStringWithPrefix
    dsimp only
    split
    · refine List.append_ne_nil_of_left_ne_nil ?_ _
      exact encodeIntegerToVec_ne_nil _ 3 _ (by decide) (by decide)
    · refine List.append_ne_nil_of_left_ne_nil ?_ _
      exact encodeIntegerToVec_ne_nil _ 3 _ (by decide) (by decide)

/-! ## A section is decoded line by line, and no field keeps its flag -/

/-- A section that was written begins with a base of its own. -/
theorem sectionHead_of_encode {e : DynamicEncoder} {ric : Nat} {lines : List FieldLine}
    {enc : Nat} {first : UInt8} {delta : Nat} {rest : Bytes}
    (h : SectionHead (e.sectionBytes ric lines) enc first delta rest) :
    rest = lines.flatMap (FieldLine.write e.useHuffman ric) := by
  obtain ⟨-, n, tail, m, henc, htail, hdelta, rfl⟩ := h
  unfold DynamicEncoder.sectionBytes at henc htail
  obtain ⟨-, rfl⟩ := decodeInteger_of_encode _ 8 0x00 _ (by decide) (by decide) (by decide) henc
  rw [List.drop_left' rfl] at htail
  cases htail
  rw [decodeInteger_base] at hdelta
  cases hdelta
  rfl

/-- As many fields are decoded as lines were written. -/
theorem items_length {field : Reader QpackError UInt8 Header} {R : WireLine → Header → Prop}
    (hfield : ∀ data h n, field data = .ok (h, n) ↔ ∃ w, parseLine data = .ok (w, n) ∧ R w h)
    {lines : List FieldLine} {useHuffman : Bool} {base : Nat} {hs : List Header}
    (h : Reader.Items field (lines.flatMap (FieldLine.write useHuffman base)) hs []) :
    hs.length = lines.length := by
  obtain ⟨ws, hws, hall⟩ := (Reader.items_factor hfield).mp h
  rw [← hall.length_eq]
  exact hws.length_eq parseLine_nil (fun line => line.write_ne_nil useHuffman base)
    fun line rest w n hparse => line.parse_write useHuffman base rest hparse

theorem staticHeader_neverIndexed {w : WireLine} {h : Header} (hstatic : w.staticHeader = some h) :
    h.neverIndexed = false := by
  cases w with
  | indexed isStatic index =>
    cases isStatic with
    | false => cases hstatic
    | true => exact static_neverIndexed hstatic
  | nameRef isStatic index value =>
    cases isStatic with
    | false => cases hstatic
    | true =>
      obtain ⟨x, -, rfl⟩ := Option.map_eq_some_iff.mp hstatic
      rfl
  | literal name value =>
    cases hstatic
    rfl
  | indexedPostBase index => cases hstatic
  | nameRefPostBase index value => cases hstatic

theorem resolves_neverIndexed {t : DynamicTable} {base ric : Nat} {w : WireLine} {h : Header}
    (hresolves : w.Resolves t base ric h) : h.neverIndexed = false := by
  rcases hresolves with hstatic | ⟨e, -, rfl⟩
  · exact staticHeader_neverIndexed hstatic
  · cases w <;> rfl

/-- One of the decoders reads the header list from the bytes. -/
def DecodedAs (bytes : Bytes) (hs : List Header) : Prop :=
  (∃ limit, (Decoder.mk limit).decode bytes = .ok hs) ∨
    ∃ d : DynamicDecoder, (d.decode bytes).1 = .ok (.decoded hs)

/-- Every line is decoded to a field that lets itself be indexed. -/
theorem DecodedAs.fields {e : DynamicEncoder} {ric : Nat} {lines : List FieldLine} {hs : List Header}
    (h : DecodedAs (e.sectionBytes ric lines) hs) :
    hs.length = lines.length ∧ ∀ x ∈ hs, x.neverIndexed = false := by
  rcases h with ⟨limit, hdecode⟩ | ⟨d, hdecode⟩
  · obtain ⟨first, delta, rest, hhead, hitems, -⟩ := (Decoder.decode_ok_iff _ _ _).mp hdecode
    rw [sectionHead_of_encode hhead] at hitems
    refine ⟨items_length Decoder.decodeHeader_ok_iff hitems,
      hitems.forall_mem (P := fun x => x.neverIndexed = false) fun data x n hread => ?_⟩
    obtain ⟨w, -, hstatic⟩ := (Decoder.decodeHeader_ok_iff data x n).mp hread
    exact staticHeader_neverIndexed hstatic
  · obtain ⟨enc, first, delta, rest, ric', base, hhead, -, -, -, hitems, -⟩ :=
      (DynamicDecoder.decode_ok_iff _ _ _).mp hdecode
    rw [sectionHead_of_encode hhead] at hitems
    refine ⟨items_length (decodeHeader_ok_iff d.table base ric') hitems,
      hitems.forall_mem (P := fun x => x.neverIndexed = false) fun data x n hread => ?_⟩
    obtain ⟨w, -, hresolves⟩ := (decodeHeader_ok_iff d.table base ric' data x n).mp hread
    exact resolves_neverIndexed hresolves

/-! ## Which fields keep their flag on the wire -/

/-- Fields that ask for it are written as literals with the N bit. -/
def EmitsNeverIndexed (headers : List Header) (lines : List FieldLine) : Prop :=
  List.Forall₂ (fun h line => h.neverIndexed = true → FieldLine.neverIndexed line = true) headers lines

theorem staticLine_neverIndexed (h : Header) : (staticLine h).neverIndexed = true ↔
    h.neverIndexed = true ∧ (findStaticEntry h.name h.value).1 = none := by
  unfold staticLine
  rcases findStaticEntry h.name h.value with ⟨_ | i, _ | j⟩ <;> simp [FieldLine.neverIndexed]

theorem dynamicLine_neverIndexed (t : DynamicTable) (h : Header) :
    (dynamicLine t h).neverIndexed = true ↔ h.neverIndexed = true ∧
      (findStaticEntry h.name h.value).1 = none ∧ (t.findEntry h.name h.value).1 = none := by
  unfold dynamicLine
  rcases t.findEntry h.name h.value with ⟨_ | a, _ | b⟩ <;>
    rcases findStaticEntry h.name h.value with ⟨_ | i, _ | j⟩ <;> simp [FieldLine.neverIndexed]

theorem emitsNeverIndexed_iff (e : DynamicEncoder) (headers : List Header) (blockedStreams : Nat) :
    EmitsNeverIndexed headers (e.lines headers blockedStreams) ↔
      ∀ h ∈ headers, h.neverIndexed = true → (findStaticEntry h.name h.value).1 = none ∧
        (e.usesDynamic blockedStreams = true → (e.table.findEntry h.name h.value).1 = none) := by
  unfold EmitsNeverIndexed DynamicEncoder.lines
  split
  · rename_i huses
    rw [List.forall₂_map_right_iff, List.forall₂_same]
    simp only [dynamicLine_neverIndexed, huses, true_implies]
    exact forall₂_congr fun h _ => ⟨fun hline hflag => (hline hflag).2, fun hmatch hflag =>
      ⟨hflag, hmatch hflag⟩⟩
  · rename_i huses
    rw [List.forall₂_map_right_iff, List.forall₂_same]
    simp only [staticLine_neverIndexed]
    exact forall₂_congr fun h _ => ⟨fun hline hflag => ⟨(hline hflag).2, fun h => absurd h huses⟩,
      fun hmatch hflag => ⟨hflag, (hmatch hflag).1⟩⟩

theorem lines_length (e : DynamicEncoder) (headers : List Header) (blockedStreams : Nat) :
    (e.lines headers blockedStreams).length = headers.length := by
  unfold DynamicEncoder.lines
  split <;> rw [List.length_map]

/-- **The flag is kept from end to end** exactly for header lists without a flag. On the wire it is
kept by the fields that neither table has. -/
theorem never_indexed_honoured_iff (e : DynamicEncoder) (cap : Nat) (headers : List Header)
    (blockedStreams : Nat) (bytes : Bytes) (h : (e.encode cap headers blockedStreams).1 = some bytes)
    (hs : List Header) (hdecoded : DecodedAs bytes hs) :
    (EmitsNeverIndexed headers (e.lines headers blockedStreams) ∧
        hs.map Header.neverIndexed = headers.map Header.neverIndexed ↔
      ∀ x ∈ headers, x.neverIndexed = false) ∧
      (EmitsNeverIndexed headers (e.lines headers blockedStreams) ↔
        ∀ x ∈ headers, x.neverIndexed = true → (findStaticEntry x.name x.value).1 = none ∧
          (e.usesDynamic blockedStreams = true → (e.table.findEntry x.name x.value).1 = none)) := by
  rw [DynamicEncoder.encode_eq_some h] at hdecoded
  obtain ⟨hlength, hdropped⟩ := hdecoded.fields
  rw [lines_length] at hlength
  have hnone : hs.map Header.neverIndexed = List.replicate headers.length false := by
    refine List.eq_replicate_iff.mpr ⟨by rw [List.length_map, hlength], fun b hb => ?_⟩
    obtain ⟨x, hx, rfl⟩ := List.mem_map.mp hb
    exact hdropped x hx
  refine ⟨⟨?_, fun hclear => ⟨?_, ?_⟩⟩, emitsNeverIndexed_iff e headers blockedStreams⟩
  · rintro ⟨-, hflags⟩ x hx
    rw [hnone] at hflags
    exact List.eq_of_mem_replicate (hflags ▸ List.mem_map_of_mem hx)
  · refine (emitsNeverIndexed_iff e headers blockedStreams).mpr fun x hx hflag => ?_
    rw [hclear x hx] at hflag
    cases hflag
  · rw [hnone]
    refine (List.eq_replicate_iff.mpr ⟨List.length_map _, fun b hb => ?_⟩).symm
    obtain ⟨x, hx, rfl⟩ := List.mem_map.mp hb
    exact hclear x hx

/-- A section of one field without the flag. -/
theorem never_indexed_honoured_unflagged :
    EmitsNeverIndexed [⟨[0x61], [0x62], false⟩]
        (DynamicEncoder.new.lines [⟨[0x61], [0x62], false⟩] 0) ∧
      [⟨[0x61], [0x62], false⟩].map Header.neverIndexed =
        [⟨[0x61], [0x62], false⟩].map Header.neverIndexed :=
  (never_indexed_honoured_iff DynamicEncoder.new 8 [⟨[0x61], [0x62], false⟩] 0
    [0x00, 0x00, 0x21, 0x61, 0x01, 0x62] (by decide +kernel) [⟨[0x61], [0x62], false⟩]
    (.inl ⟨40, by decide +kernel⟩)).1.mpr (by simp)

/-- A secret is written with its flag, and decoded without it. -/
theorem flag_is_not_decoded :
    ¬∀ (e : DynamicEncoder) (cap : Nat) (headers : List Header) (blockedStreams : Nat)
      (bytes : Bytes) (hs : List Header), (e.encode cap headers blockedStreams).1 = some bytes →
        DecodedAs bytes hs → EmitsNeverIndexed headers (e.lines headers blockedStreams) ∧
          hs.map Header.neverIndexed = headers.map Header.neverIndexed := by
  intro h
  have hflags := (h DynamicEncoder.new 8 [⟨[0x61], [0x62], true⟩] 0
    [0x00, 0x00, 0x31, 0x61, 0x01, 0x62] [⟨[0x61], [0x62], false⟩] (by decide +kernel)
    (.inl ⟨40, by decide +kernel⟩)).2
  cases hflags

end Http3.Qpack
