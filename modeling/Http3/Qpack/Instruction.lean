import Http3.Lib.Reader
import Http3.Qpack.EncoderStream
import Http3.Qpack.FieldLine

/-!
# Instructions that arrive in pieces

Integers and strings are read by stable readers: an answer does not change when more bytes
arrive. `EncoderInstruction.read` takes an instruction apart without carrying it out, and reads
back what the encoder writes.
-/

namespace Http3.Qpack

/-! ## Integers and strings -/

theorem decodeGroups_fits {value shift offset : Nat} {data : Bytes} {v n : Nat}
    (h : decodeGroups value shift offset data = .ok (v, n)) : n ≤ offset + data.length := by
  induction data generalizing value shift offset with
  | nil => cases h
  | cons byte rest ih =>
    unfold decodeGroups at h
    dsimp only at h
    rw [List.length_cons]
    split at h
    · split at h
      · cases h
      · cases h
        omega
    · split at h
      · cases h
      · have := ih h
        omega

theorem decodeGroups_append {value shift offset : Nat} {data : Bytes}
    (h : decodeGroups value shift offset data ≠ .error .bufferTooShort) (more : Bytes) :
    decodeGroups value shift offset (data ++ more) = decodeGroups value shift offset data := by
  induction data generalizing value shift offset with
  | nil => exact absurd rfl h
  | cons byte rest ih =>
    rw [List.cons_append]
    unfold decodeGroups at h ⊢
    dsimp only at h ⊢
    split
    · rfl
    · rename_i hmore
      rw [if_neg hmore] at h
      split
      · rfl
      · rename_i hshift
        rw [if_neg hshift] at h
        exact ih h

theorem decodeInteger_stable (prefixBits : Nat) :
    Reader.Stable QpackError.bufferTooShort (decodeInteger · prefixBits) where
  fits {data v n} h := by
    cases data with
    | nil => cases h
    | cons first rest =>
      simp only [decodeInteger] at h
      rw [List.length_cons, Nat.add_comm]
      split at h
      · cases h
      · split at h
        · cases h
          omega
        · exact decodeGroups_fits h
  append data h more := by
    cases data with
    | nil => exact absurd rfl h
    | cons first rest =>
      simp only [decodeInteger, List.cons_append] at h ⊢
      split
      · rfl
      · rename_i hbits
        rw [if_neg hbits] at h
        split
        · rfl
        · rename_i hstarts
          rw [if_neg hstarts] at h
          exact decodeGroups_append h more

theorem decodeStringWithPrefix_stable (prefixBits : Nat) :
    Reader.Stable QpackError.bufferTooShort (decodeStringWithPrefix · prefixBits) where
  fits {data s n} h := by
    cases data with
    | nil => cases h
    | cons first rest =>
      simp only [decodeStringWithPrefix] at h
      split at h
      · cases h
      · split at h
        · cases h
        · rename_i hlength
          split at h
          · rcases hbody : Huffman.decode _ with e | s' <;> rw [hbody] at h <;> cases h
            exact Nat.le_of_not_lt hlength
          · cases h
            exact Nat.le_of_not_lt hlength
  append data h more := by
    cases data with
    | nil => exact absurd rfl h
    | cons first rest =>
      have hstable := (decodeInteger_stable prefixBits).append (first :: rest)
      simp only [decodeStringWithPrefix, List.cons_append] at h hstable ⊢
      rcases hint : decodeInteger (first :: rest) prefixBits with e | ⟨length, prefixLen⟩
      · rw [hint] at hstable h
        rw [hstable (fun heq => h (by cases heq; rfl)) more]
      · rw [hint] at hstable h
        rw [hstable (by simp) more]
        dsimp only at h ⊢
        split at h
        · exact absurd rfl h
        · rename_i hlength
          rw [if_neg (by rw [← List.cons_append, List.length_append]; omega), if_neg hlength,
            ← List.cons_append, List.take_append_of_le_length (Nat.le_of_not_lt hlength)]

theorem decodeStringWithLen_fits {data : Bytes} {length : Nat} {isHuffman : Bool} {s : Bytes}
    {n : Nat} (h : decodeStringWithLen data length isHuffman = .ok (s, n)) : n ≤ data.length := by
  unfold decodeStringWithLen at h
  split at h
  · cases h
  · rename_i hlong
    dsimp only at h
    split at h
    · cases hdecode : Huffman.decode (data.take length) with
      | error e =>
        rw [hdecode] at h
        cases h
      | ok decoded =>
        rw [hdecode] at h
        cases h
        exact Nat.le_of_not_lt hlong
    · cases h
      exact Nat.le_of_not_lt hlong

/-! ## Instructions -/

namespace EncoderInstruction

open Reader (andThen done)

/-- What the bits of the first byte say. -/
def readBody (first : UInt8) : Reader QpackError UInt8 EncoderInstruction :=
  if first &&& 0x80 != 0 then
    andThen (decodeInteger · 6) fun nameIndex => andThen decodeString fun value =>
      done (.insertWithNameReference (first &&& 0x40 != 0) nameIndex value)
  else if first &&& 0x40 != 0 then
    andThen (decodeStringWithPrefix · 5) fun name => andThen decodeString fun value =>
      done (.insertWithLiteralName name value)
  else if first &&& 0x20 != 0 then
    andThen (decodeInteger · 5) fun capacity => done (.setDynamicTableCapacity capacity)
  else andThen (decodeInteger · 5) fun relativeIndex => done (.duplicate relativeIndex)

/-- The instruction at the front of the bytes, without its effect. -/
def read : Reader QpackError UInt8 EncoderInstruction
  | [] => .error .bufferTooShort
  | first :: rest => readBody first (first :: rest)

theorem readBody_stable (first : UInt8) : (readBody first).Stable .bufferTooShort := by
  unfold readBody
  split
  · exact (decodeInteger_stable 6).andThen fun _ => (decodeStringWithPrefix_stable 7).andThen
      fun _ => .done _
  split
  · exact (decodeStringWithPrefix_stable 5).andThen fun _ =>
      (decodeStringWithPrefix_stable 7).andThen fun _ => .done _
  split
  · exact (decodeInteger_stable 5).andThen fun _ => .done _
  · exact (decodeInteger_stable 5).andThen fun _ => .done _

theorem read_stable : read.Stable .bufferTooShort where
  fits {data i n} h := by
    cases data with
    | nil => cases h
    | cons first rest => exact (readBody_stable first).fits h
  append data h more := by
    cases data with
    | nil => exact absurd rfl h
    | cons first rest => exact (readBody_stable first).append (first :: rest) h more

/-- What is written for an instruction. -/
def bytes : EncoderInstruction → Bytes
  | .setDynamicTableCapacity capacity => encodeIntegerToVec capacity 5 0x20
  | .insertWithNameReference isStatic nameIndex value =>
    encodeIntegerToVec nameIndex 6 (if isStatic then 0xc0 else 0x80) ++ encodeString value true
  | .insertWithLiteralName name value =>
    encodeStringWithPrefix name 5 0x40 true ++ encodeString value true
  | .duplicate relativeIndex => encodeIntegerToVec relativeIndex 5 0x00

/-- Every integer in the instruction can be read back. -/
def Encodable : EncoderInstruction → Prop
  | .setDynamicTableCapacity capacity => capacity ≤ VarInt.max.get
  | .insertWithNameReference _ nameIndex value =>
    nameIndex ≤ VarInt.max.get ∧ (encodeString value true).length ≤ VarInt.max.get
  | .insertWithLiteralName name value =>
    (encodeStringWithPrefix name 5 0x40 true).length ≤ VarInt.max.get ∧
      (encodeString value true).length ≤ VarInt.max.get
  | .duplicate relativeIndex => relativeIndex ≤ VarInt.max.get

/-- An instruction that starts with an integer. -/
theorem read_integer {value prefixBits : Nat} {high : UInt8} {tail : Bytes}
    {i : EncoderInstruction} (hp : 0 < prefixBits) (hp8 : prefixBits ≤ 8)
    (hbody : ∀ first, (∀ mask, mask &&& UInt8.ofNat (2 ^ prefixBits - 1) = 0 →
      first &&& mask = high &&& mask) →
        (readBody first).Reads (encodeIntegerToVec value prefixBits high ++ tail) i) :
    read.Reads (encodeIntegerToVec value prefixBits high ++ tail) i := by
  intro rest
  obtain ⟨first, more, hhead, hfirst⟩ := head_encode value prefixBits high (tail ++ rest) hp hp8
  have hread := hbody first hfirst rest
  rw [List.append_assoc, hhead] at hread ⊢
  exact hread

theorem decodeInteger_reads (value prefixBits : Nat) (high : UInt8) (hv : value ≤ VarInt.max.get)
    (hp : 0 < prefixBits) (hp8 : prefixBits ≤ 8)
    (hfree : high &&& UInt8.ofNat (2 ^ prefixBits - 1) = 0) :
    Reader.Reads (decodeInteger · prefixBits) (encodeIntegerToVec value prefixBits high) value :=
  fun rest => decodeInteger_encode value prefixBits high rest hv hp hp8 hfree

theorem decodeString_reads {value : Bytes}
    (hlen : (encodeString value true).length ≤ VarInt.max.get) :
    Reader.Reads decodeString (encodeString value true) value := decodeString_encode hlen

/-- **Round trip** of an instruction. -/
theorem read_bytes {i : EncoderInstruction} (h : i.Encodable) : read.Reads i.bytes i := by
  cases i with
  | setDynamicTableCapacity capacity =>
    rw [bytes, ← List.append_nil (encodeIntegerToVec capacity 5 0x20)]
    refine read_integer (by decide) (by decide) fun first hfirst => ?_
    simp only [readBody, hfirst 0x80 (by decide), hfirst 0x40 (by decide), hfirst 0x20 (by decide)]
    change (andThen (decodeInteger · 5) fun capacity =>
      done (setDynamicTableCapacity capacity)).Reads _ _
    exact (decodeInteger_reads capacity 5 0x20 h (by decide) (by decide) (by decide)).andThen
      (.done _)
  | insertWithNameReference isStatic nameIndex value =>
    refine read_integer (by decide) (by decide) fun first hfirst => ?_
    have h80 : ((if isStatic then (0xc0 : UInt8) else 0x80) &&& 0x80 != 0) = true := by
      cases isStatic <;> decide
    have h40 : ((if isStatic then (0xc0 : UInt8) else 0x80) &&& 0x40 != 0) = isStatic := by
      cases isStatic <;> decide
    simp only [readBody, hfirst 0x80 (by decide), hfirst 0x40 (by decide), h80, h40, if_true]
    refine (decodeInteger_reads nameIndex 6 _ h.1 (by decide) (by decide)
      (by cases isStatic <;> decide)).andThen ?_
    rw [← List.append_nil (encodeString value true)]
    exact (decodeString_reads h.2).andThen (.done _)
  | insertWithLiteralName name value =>
    intro rest
    obtain ⟨isHuffman, body, first, tail, prefixLen, -, hhead, hfirst, -⟩ :=
      decodeInteger_string (by decide) (by decide) (by decide) h.1 (encodeString value true ++ rest)
    have hread : (readBody first).Reads
        (encodeStringWithPrefix name 5 0x40 true ++ (encodeString value true ++ []))
        (.insertWithLiteralName name value) := by
      simp only [readBody, hfirst 0x80 (by decide), hfirst 0x40 (by decide)]
      exact Reader.Reads.andThen (fun rest => decodeStringWithPrefix_encode (by decide) (by decide)
        (by decide) h.1 rest) ((decodeString_reads h.2).andThen (.done _))
    have hrest := hread rest
    rw [List.append_nil, List.append_assoc, hhead] at hrest
    rw [bytes, List.append_assoc, hhead]
    exact hrest
  | duplicate relativeIndex =>
    rw [bytes, ← List.append_nil (encodeIntegerToVec relativeIndex 5 0x00)]
    refine read_integer (by decide) (by decide) fun first hfirst => ?_
    simp only [readBody, hfirst 0x80 (by decide), hfirst 0x40 (by decide), hfirst 0x20 (by decide)]
    change (andThen (decodeInteger · 5) fun relativeIndex =>
      done (EncoderInstruction.duplicate relativeIndex)).Reads _ _
    exact (decodeInteger_reads relativeIndex 5 0x00 h (by decide) (by decide)
      (by decide)).andThen (.done _)

theorem bytes_ne_nil (i : EncoderInstruction) : i.bytes ≠ [] := by
  cases i with
  | setDynamicTableCapacity capacity => exact encodeIntegerToVec_ne_nil _ _ _ (by decide) (by decide)
  | insertWithNameReference isStatic nameIndex value =>
    exact List.append_ne_nil_of_left_ne_nil
      (encodeIntegerToVec_ne_nil _ _ _ (by decide) (by decide)) _
  | insertWithLiteralName name value =>
    refine List.append_ne_nil_of_left_ne_nil ?_ _
    obtain ⟨isHuffman, body, -, heq⟩ := encodeStringWithPrefix_eq name 5 0x40 true
    rw [heq]
    exact List.append_ne_nil_of_left_ne_nil
      (encodeIntegerToVec_ne_nil _ _ _ (by decide) (by decide)) _
  | duplicate relativeIndex => exact encodeIntegerToVec_ne_nil _ _ _ (by decide) (by decide)

end EncoderInstruction

end Http3.Qpack
