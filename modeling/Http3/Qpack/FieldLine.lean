import Http3.Qpack.HuffmanCode
import Http3.Qpack.Encoder
import Http3.Qpack.Decoder

/-!
# Field lines are read back

Strings first, then the five representations that the encoder writes, each followed by anything,
and the tables that they refer to.
-/

namespace Http3.Qpack

/-! ## Strings -/

/-- A bit outside the prefix is the one that was given. -/
theorem first_byte_and {prefixBits x : Nat} (high mask : UInt8) (hp : prefixBits ≤ 8)
    (hx : x ≤ 2 ^ prefixBits - 1) (hmask : mask &&& UInt8.ofNat (2 ^ prefixBits - 1) = 0) :
    (high ||| UInt8.ofNat x) &&& mask = high &&& mask := by
  have hpow : 2 ^ prefixBits ≤ 2 ^ 8 := Nat.pow_le_pow_right (by decide) hp
  have hpos := Nat.two_pow_pos prefixBits
  have hlow : UInt8.ofNat x &&& UInt8.ofNat (2 ^ prefixBits - 1) = UInt8.ofNat x := by
    rw [← UInt8.toNat_inj, UInt8.toNat_and, UInt8.toNat_ofNat', UInt8.toNat_ofNat',
      Nat.mod_eq_of_lt (by omega), Nat.mod_eq_of_lt (by omega), Nat.and_two_pow_sub_one_eq_mod,
      Nat.mod_eq_of_lt (by omega)]
  have hnone : UInt8.ofNat x &&& mask = 0 := by
    rw [← hlow, UInt8.and_assoc, UInt8.and_comm _ mask, hmask, UInt8.and_zero]
  have hdistrib : (high ||| UInt8.ofNat x) &&& mask = high &&& mask ||| UInt8.ofNat x &&& mask := by
    rw [← UInt8.toNat_inj]
    simp only [UInt8.toNat_and, UInt8.toNat_or, Nat.and_or_distrib_right]
  rw [hdistrib, hnone, UInt8.or_zero]

/-- The prefix and the flag above it are free. -/
def isFree (prefixBits : Nat) (high : UInt8) : Bool :=
  high &&& UInt8.ofNat (2 ^ (prefixBits + 1) - 1) == 0

theorem flag_spec {prefixBits : Nat} {high : UInt8} (hp : prefixBits ≤ 7)
    (h : isFree prefixBits high = true) :
    high &&& UInt8.ofNat (2 ^ prefixBits - 1) = 0 ∧
      (high ||| UInt8.ofNat (1 <<< prefixBits)) &&& UInt8.ofNat (2 ^ prefixBits - 1) = 0 ∧
      UInt8.ofNat (1 <<< prefixBits) &&& UInt8.ofNat (2 ^ prefixBits - 1) = 0 ∧
      high &&& UInt8.ofNat (1 <<< prefixBits) = 0 ∧
      (high ||| UInt8.ofNat (1 <<< prefixBits)) &&& UInt8.ofNat (1 <<< prefixBits) ≠ 0 := by
  have key : ∀ p ≤ 7, ∀ i : Fin 256, isFree p (UInt8.ofNat i.val) = true →
      UInt8.ofNat i.val &&& UInt8.ofNat (2 ^ p - 1) = 0 ∧
      (UInt8.ofNat i.val ||| UInt8.ofNat (1 <<< p)) &&& UInt8.ofNat (2 ^ p - 1) = 0 ∧
      UInt8.ofNat (1 <<< p) &&& UInt8.ofNat (2 ^ p - 1) = 0 ∧
      UInt8.ofNat i.val &&& UInt8.ofNat (1 <<< p) = 0 ∧
      (UInt8.ofNat i.val ||| UInt8.ofNat (1 <<< p)) &&& UInt8.ofNat (1 <<< p) ≠ 0 := by
    decide +kernel
  have := key prefixBits hp ⟨high.toNat, high.toNat_lt⟩
  rw [UInt8.ofNat_toNat] at this
  exact this h

/-- What a string is read from, with or without the Huffman code. -/
def readString (isHuffman : Bool) (body : Bytes) : Except QpackError Bytes :=
  if isHuffman then Huffman.decode body else .ok body

/-- A string on the wire: a length with a flag, and so many bytes that read back as the string. -/
theorem encodeStringWithPrefix_eq (data : Bytes) (prefixBits : Nat) (high : UInt8)
    (useHuffman : Bool) : ∃ isHuffman body, readString isHuffman body = .ok data ∧
      encodeStringWithPrefix data prefixBits high useHuffman =
        encodeIntegerToVec body.length prefixBits
          (if isHuffman then high ||| UInt8.ofNat (1 <<< prefixBits) else high) ++ body := by
  unfold encodeStringWithPrefix
  dsimp only
  split
  · refine ⟨true, Huffman.encode data, Huffman.decode_encode data, ?_⟩
    rw [Huffman.encode_length, if_pos rfl]
  · exact ⟨false, data, rfl, rfl⟩

section Read

variable {prefixBits : Nat} {high : UInt8} {useHuffman : Bool} {data : Bytes}
  (hp : 0 < prefixBits) (hp7 : prefixBits ≤ 7) (hfree : isFree prefixBits high = true)
  (hlen : (encodeStringWithPrefix data prefixBits high useHuffman).length ≤ VarInt.max.get)

include hp hp7 hfree hlen

/-- The length of a string, the flag in the first byte, and the bytes behind. -/
theorem decodeInteger_string (rest : Bytes) : ∃ isHuffman body first tail prefixLen,
    readString isHuffman body = .ok data ∧
    encodeStringWithPrefix data prefixBits high useHuffman ++ rest = first :: tail ∧
    (∀ mask, mask &&& UInt8.ofNat (2 ^ (prefixBits + 1) - 1) = 0 → first &&& mask = high &&& mask) ∧
    (first &&& UInt8.ofNat (1 <<< prefixBits) != 0) = isHuffman ∧
    decodeInteger (encodeStringWithPrefix data prefixBits high useHuffman ++ rest) prefixBits =
      .ok (body.length, prefixLen) ∧
    (encodeStringWithPrefix data prefixBits high useHuffman ++ rest).drop prefixLen = body ++ rest ∧
    (encodeStringWithPrefix data prefixBits high useHuffman).length = prefixLen + body.length := by
  obtain ⟨h₁, h₂, h₃, h₄, h₅⟩ := flag_spec hp7 hfree
  obtain ⟨isHuffman, body, hread, heq⟩ :=
    encodeStringWithPrefix_eq data prefixBits high useHuffman
  rw [heq] at hlen ⊢
  generalize hhigh : (if isHuffman then high ||| UInt8.ofNat (1 <<< prefixBits) else high) = high'
    at hlen ⊢
  have hlow : high' &&& UInt8.ofNat (2 ^ prefixBits - 1) = 0 := by
    subst hhigh
    split
    · exact h₂
    · exact h₁
  have hbody : body.length ≤ VarInt.max.get := by
    rw [List.length_append] at hlen
    omega
  obtain ⟨x, tail, hx, hhead⟩ := encodeIntegerToVec_head body.length prefixBits high' (body ++ rest)
    hp (by omega)
  refine ⟨isHuffman, body, _, tail, _, hread, by rw [List.append_assoc, hhead], fun mask hmask => ?_,
    ?_, ?_, ?_, List.length_append⟩
  · have hbelow : mask &&& UInt8.ofNat (2 ^ prefixBits - 1) = 0 := by
      have key : ∀ p ≤ 7, UInt8.ofNat (2 ^ (p + 1) - 1) &&& UInt8.ofNat (2 ^ p - 1) =
          UInt8.ofNat (2 ^ p - 1) := by decide
      rw [← key prefixBits hp7, ← UInt8.and_assoc, hmask, UInt8.zero_and]
    have hflag : 1 <<< prefixBits ≤ 2 ^ (prefixBits + 1) - 1 := by
      rw [Nat.one_shiftLeft, Nat.pow_succ]
      have := Nat.two_pow_pos prefixBits
      omega
    rw [first_byte_and high' mask (by omega) hx hbelow]
    subst hhigh
    split
    · exact first_byte_and high mask (by omega) hflag hmask
    · rfl
  · rw [first_byte_and high' _ (by omega) hx h₃]
    subst hhigh
    cases isHuffman
    · simpa using h₄
    · simpa using h₅
  · rw [List.append_assoc]
    exact decodeInteger_encode _ _ _ _ hbody hp (by omega) hlow
  · rw [List.append_assoc, List.drop_left' rfl]

/-- **Round trip** of a string. -/
theorem decodeStringWithPrefix_encode (rest : Bytes) :
    decodeStringWithPrefix (encodeStringWithPrefix data prefixBits high useHuffman ++ rest)
      prefixBits = .ok (data, (encodeStringWithPrefix data prefixBits high useHuffman).length) := by
  obtain ⟨isHuffman, body, first, tail, prefixLen, hread, hbytes, -, hflag, hint, hdrop, hlength⟩ :=
    decodeInteger_string hp hp7 hfree hlen rest
  have htotal : ¬(encodeStringWithPrefix data prefixBits high useHuffman ++ rest).length <
      prefixLen + body.length := by
    rw [List.length_append, hlength]
    omega
  have hbody : ((encodeStringWithPrefix data prefixBits high useHuffman ++ rest).take
      (prefixLen + body.length)).drop prefixLen = body := by
    rw [List.drop_take, hdrop, Nat.add_sub_cancel_left, List.take_left' rfl]
  rw [hlength]
  rw [hbytes] at hint htotal hbody ⊢
  simp only [decodeStringWithPrefix, hint, if_neg htotal, hbody, hflag]
  cases isHuffman
  · cases hread
    rfl
  · rw [readString, if_pos rfl] at hread
    rw [if_pos rfl, hread]
    rfl

end Read

theorem decodeString_encode {data : Bytes} {useHuffman : Bool}
    (hlen : (encodeString data useHuffman).length ≤ VarInt.max.get) (rest : Bytes) :
    decodeString (encodeString data useHuffman ++ rest) =
      .ok (data, (encodeString data useHuffman).length) :=
  decodeStringWithPrefix_encode (by decide) (by decide) (by decide) hlen rest

/-! ## The tables -/

theorem findEntryLoop_spec (name value : Bytes) (table : List Header) (index : Nat)
    (nameMatch : Option Nat) :
    (∀ i, (findEntryLoop name value nameMatch index table).1 = some i →
      ∃ j h, i = index + j ∧ table[j]? = some h ∧ h.name = name ∧ h.value = value) ∧
    ∀ i, (findEntryLoop name value nameMatch index table).2 = some i → nameMatch = some i ∨
      ∃ j h, i = index + j ∧ table[j]? = some h ∧ h.name = name := by
  induction table generalizing index nameMatch with
  | nil => exact ⟨fun i hi => (by cases hi), fun i hi => .inl hi⟩
  | cons e rest ih =>
    have hlater : ∀ {P : Header → Prop} {i : Nat},
        (∃ j h, i = index + 1 + j ∧ rest[j]? = some h ∧ P h) →
        ∃ j h, i = index + j ∧ (e :: rest)[j]? = some h ∧ P h := by
      rintro P i ⟨j, h, rfl, hj, hP⟩
      exact ⟨j + 1, h, by omega, hj, hP⟩
    unfold findEntryLoop
    split
    · rename_i hname
      split
      · rename_i hvalue
        refine ⟨fun i hi => ?_, fun i hi => .inr ?_⟩ <;> cases hi
        · exact ⟨0, e, rfl, rfl, hname, hvalue⟩
        · exact ⟨0, e, rfl, rfl, hname⟩
      · obtain ⟨hexact, hnames⟩ := ih (index + 1) (nameMatch <|> some index)
        refine ⟨fun i hi => hlater (hexact i hi), fun i hi => ?_⟩
        rcases hnames i hi with hi | hi
        · cases nameMatch with
          | none =>
            cases hi
            exact .inr ⟨0, e, rfl, rfl, hname⟩
          | some n => exact .inl hi
        · exact .inr (hlater hi)
    · obtain ⟨hexact, hnames⟩ := ih (index + 1) nameMatch
      exact ⟨fun i hi => hlater (hexact i hi), fun i hi => (hnames i hi).imp_right hlater⟩

/-- What is found in the static table is there. -/
theorem findStaticEntry_spec (name value : Bytes) :
    (∀ i, (findStaticEntry name value).1 = some i →
      ∃ h, getStaticEntry i = some h ∧ h.name = name ∧ h.value = value) ∧
    ∀ i, (findStaticEntry name value).2 = some i → ∃ h, getStaticEntry i = some h ∧ h.name = name := by
  obtain ⟨hexact, hname⟩ := findEntryLoop_spec name value staticTable 0 none
  refine ⟨fun i hi => ?_, fun i hi => ?_⟩
  · obtain ⟨j, h, rfl, hj, hnv⟩ := hexact i hi
    exact ⟨h, by rwa [Nat.zero_add], hnv⟩
  · obtain hi | ⟨j, h, rfl, hj, hn⟩ := hname i hi
    · cases hi
    · exact ⟨h, by rwa [Nat.zero_add], hn⟩

theorem static_index_lt {i : Nat} {h : Header} (hi : getStaticEntry i = some h) : i < 99 :=
  (List.getElem?_eq_some_iff.mp hi).1

theorem static_neverIndexed {i : Nat} {h : Header} (hi : getStaticEntry i = some h) :
    h.neverIndexed = false := by
  have key : ∀ h ∈ staticTable, h.neverIndexed = false := by decide +kernel
  exact key h (List.mem_of_getElem? hi)

theorem findLoop_spec (name value : Bytes) (entries : List DynamicEntry) (nameMatch : Option Nat) :
    (∀ i, (DynamicTable.findLoop name value nameMatch entries).1 = some i →
      ∃ e ∈ entries, e.absoluteIndex = i ∧ e.name = name ∧ e.value = value) ∧
    ∀ i, (DynamicTable.findLoop name value nameMatch entries).2 = some i → nameMatch = some i ∨
      ∃ e ∈ entries, e.absoluteIndex = i ∧ e.name = name := by
  induction entries generalizing nameMatch with
  | nil => exact ⟨fun i hi => (by cases hi), fun i hi => .inl hi⟩
  | cons e rest ih =>
    have hlater : ∀ {P : DynamicEntry → Prop}, (∃ x ∈ rest, P x) → ∃ x ∈ e :: rest, P x :=
      fun ⟨x, hx, hP⟩ => ⟨x, List.mem_cons_of_mem e hx, hP⟩
    unfold DynamicTable.findLoop
    split
    · rename_i hname
      split
      · rename_i hvalue
        refine ⟨fun i hi => ?_, fun i hi => .inr ?_⟩ <;> cases hi
        · exact ⟨e, List.mem_cons_self, rfl, hname, hvalue⟩
        · exact ⟨e, List.mem_cons_self, rfl, hname⟩
      · obtain ⟨hexact, hnames⟩ := ih (nameMatch <|> some e.absoluteIndex)
        refine ⟨fun i hi => hlater (hexact i hi), fun i hi => ?_⟩
        rcases hnames i hi with hi | hi
        · cases nameMatch with
          | none =>
            cases hi
            exact .inr ⟨e, List.mem_cons_self, rfl, hname⟩
          | some n => exact .inl hi
        · exact .inr (hlater hi)
    · obtain ⟨hexact, hnames⟩ := ih nameMatch
      exact ⟨fun i hi => hlater (hexact i hi), fun i hi => (hnames i hi).imp_right hlater⟩

/-- What is found in the dynamic table is there. -/
theorem findEntry_spec (t : DynamicTable) (name value : Bytes) :
    (∀ i, (t.findEntry name value).1 = some i →
      ∃ e ∈ t.entries, e.absoluteIndex = i ∧ e.name = name ∧ e.value = value) ∧
    ∀ i, (t.findEntry name value).2 = some i → ∃ e ∈ t.entries, e.absoluteIndex = i ∧ e.name = name := by
  obtain ⟨hexact, hname⟩ := findLoop_spec name value t.entries none
  exact ⟨hexact, fun i hi => (hname i hi).resolve_left (by simp)⟩

/-! ## Static representations -/

/-- The first byte of an instruction that starts with an integer. -/
theorem head_encode (value prefixBits : Nat) (high : UInt8) (rest : Bytes) (hp : 0 < prefixBits)
    (hp8 : prefixBits ≤ 8) : ∃ first tail,
      encodeIntegerToVec value prefixBits high ++ rest = first :: tail ∧
      ∀ mask, mask &&& UInt8.ofNat (2 ^ prefixBits - 1) = 0 → first &&& mask = high &&& mask := by
  obtain ⟨x, tail, hx, hhead⟩ := encodeIntegerToVec_head value prefixBits high rest hp hp8
  exact ⟨_, tail, hhead, fun mask => first_byte_and high mask hp8 hx⟩

theorem withValue_encode (pre name : Bytes) {value : Bytes} {useHuffman : Bool}
    (hlen : (encodeString value useHuffman).length ≤ VarInt.max.get) (rest : Bytes) :
    DynamicDecoder.withValue name (pre ++ (encodeString value useHuffman ++ rest)) pre.length =
      .ok (.fromDecoded name value, pre.length + (encodeString value useHuffman).length) := by
  simp only [DynamicDecoder.withValue, List.drop_left' rfl, decodeString_encode hlen]

theorem index_le_max {i : Nat} {h : Header} (hi : getStaticEntry i = some h) :
    i ≤ VarInt.max.get := (static_index_lt hi).le.trans (by decide)

namespace Decoder

theorem decodeHeader_indexed {i : Nat} {h : Header} (hi : getStaticEntry i = some h)
    (rest : Bytes) : decodeHeader (encodeIndexedFieldStatic i ++ rest) =
      .ok (h, (encodeIndexedFieldStatic i).length) := by
  have hint := decodeInteger_encode i 6 0xc0 rest (index_le_max hi) (by decide) (by decide)
    (by decide)
  obtain ⟨first, tail, hhead, hfirst⟩ := head_encode i 6 0xc0 rest (by decide) (by decide)
  unfold encodeIndexedFieldStatic
  rw [hhead] at hint ⊢
  simp only [decodeHeader, decodeIndexedField, hfirst 0x80 (by decide), hfirst 0x40 (by decide), hint,
    DynamicDecoder.staticEntry, hi]
  rfl

theorem decodeHeader_nameRef {i : Nat} {h : Header} (hi : getStaticEntry i = some h)
    {value : Bytes} {neverIndexed useHuffman : Bool}
    (hlen : (encodeString value useHuffman).length ≤ VarInt.max.get) (rest : Bytes) :
    decodeHeader (encodeLiteralWithNameRefStatic i value neverIndexed useHuffman ++ rest) =
      .ok (.fromDecoded h.name value,
        (encodeLiteralWithNameRefStatic i value neverIndexed useHuffman).length) := by
  unfold encodeLiteralWithNameRefStatic
  generalize hhigh : (if neverIndexed then (0x70 : UInt8) else 0x50) = high
  have hbits : high &&& UInt8.ofNat (2 ^ 4 - 1) = 0 ∧ high &&& 0x80 = 0 ∧ high &&& 0x40 = 0x40 ∧
      high &&& 0x10 = 0x10 := by
    subst hhigh
    cases neverIndexed <;> decide
  obtain ⟨hfree, h80, h40, h10⟩ := hbits
  have hint := decodeInteger_encode i 4 high (encodeString value useHuffman ++ rest)
    (index_le_max hi) (by decide) (by decide) hfree
  obtain ⟨first, tail, hhead, hfirst⟩ := head_encode i 4 high
    (encodeString value useHuffman ++ rest) (by decide) (by decide)
  have hvalue := withValue_encode (encodeIntegerToVec i 4 high) h.name hlen rest
  rw [List.append_assoc, List.length_append]
  rw [hhead] at hint hvalue ⊢
  simp only [decodeHeader, decodeLiteralWithNameRef, hfirst 0x80 (by decide),
    hfirst 0x40 (by decide), hfirst 0x10 (by decide), h80, h40, h10, hint,
    DynamicDecoder.staticEntry, hi]
  exact hvalue

theorem decodeHeader_literal {name value : Bytes} {neverIndexed useHuffman : Bool}
    (hlen : (encodeLiteralWithLiteralName name value neverIndexed useHuffman).length ≤
      VarInt.max.get) (rest : Bytes) :
    decodeHeader (encodeLiteralWithLiteralName name value neverIndexed useHuffman ++ rest) =
      .ok (.fromDecoded name value,
        (encodeLiteralWithLiteralName name value neverIndexed useHuffman).length) := by
  unfold encodeLiteralWithLiteralName at hlen ⊢
  generalize hhigh : (if neverIndexed then (0x30 : UInt8) else 0x20) = high at hlen ⊢
  have hbits : isFree 3 high = true ∧ high &&& 0x80 = 0 ∧ high &&& 0x40 = 0 ∧
      high &&& 0x20 = 0x20 := by
    subst hhigh
    cases neverIndexed <;> decide
  obtain ⟨hfree, h80, h40, h20⟩ := hbits
  rw [List.length_append] at hlen ⊢
  have hnamelen : (encodeStringWithPrefix name 3 high useHuffman).length ≤ VarInt.max.get := by omega
  rw [List.append_assoc]
  obtain ⟨isHuffman, body, first, tail, prefixLen, hread, hbytes, hfirst, hflag, hint, hdrop,
    hlength⟩ := decodeInteger_string (by decide) (by decide) hfree hnamelen
      (encodeString value useHuffman ++ rest)
  have hvaluelen : (encodeString value useHuffman).length ≤ VarInt.max.get := by omega
  have hvalue := withValue_encode (encodeStringWithPrefix name 3 high useHuffman) name hvaluelen rest
  have hname : decodeStringWithLen (body ++ (encodeString value useHuffman ++ rest)) body.length
      isHuffman = .ok (name, body.length) := by
    unfold decodeStringWithLen
    rw [if_neg (by simp), List.take_left' rfl]
    cases isHuffman
    · cases hread
      rfl
    · rw [readString, if_pos rfl] at hread
      simp only [if_true, hread]
      rfl
  rw [hlength] at hvalue ⊢
  rw [hbytes] at hint hdrop hvalue ⊢
  have hflag' : (first &&& 8 != 0) = isHuffman := hflag
  simp only [decodeHeader, hfirst 0x80 (by decide), hfirst 0x40 (by decide),
    hfirst 0x20 (by decide), h80, h40, h20, DynamicDecoder.decodeLiteralWithLiteralName, hint, hdrop,
    hflag', hname]
  exact hvalue

end Decoder

end Http3.Qpack
