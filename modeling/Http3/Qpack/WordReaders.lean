import Http3.Lib.Word
import Http3.Qpack.HuffmanDecode
import Http3.Qpack.Instruction

/-!
# Integers and strings in machine words

The readers once more, with every addition, subtraction and shift on words of the width that it has
in the code. None of them overflows, whatever is read.
-/

namespace Http3.Qpack

namespace InWords

open Word (Exact)

abbrev Checked : Type → Type := Word.Checked QpackError

/-! ## Integers -/

def decodeGroups (value shift offset : Nat) : Bytes → Checked (Nat × Nat)
  | [] => throw .bufferTooShort
  | byte :: rest => do
    let group ← Word.shl 64 (byte &&& 0x7f).toNat shift
    let value ← Word.add 64 value group
    let offset ← Word.add 64 offset 1
    if byte &&& 0x80 == 0 then
      if value > VarInt.max.get then throw .decodeFailed else pure (value, offset)
    else do
      let shift ← Word.add 32 shift 7
      if shift > 56 then throw .decodeFailed else decodeGroups value shift offset rest

def decodeInteger (data : Bytes) (prefixBits : Nat) : Checked (Nat × Nat) :=
  match data with
  | [] => throw .bufferTooShort
  | first :: rest =>
    if prefixBits = 0 ∨ prefixBits > 8 then throw .decodeFailed
    else do
      let high ← Word.shl 16 1 prefixBits
      let maxPrefix ← Word.sub high 1
      let mask := UInt8.ofNat maxPrefix
      let prefixValue := first &&& mask
      if prefixValue < mask then pure (prefixValue.toNat, 1)
      else decodeGroups prefixValue.toNat 0 1 rest

/-! ## Huffman codes -/

namespace Huffman

open Qpack.Huffman (HuffmanSym huffmanTable)

def current (acc accBits : Nat) : Checked Nat :=
  if accBits ≥ 32 then do
    let distance ← Word.sub accBits 32
    let bits ← Word.shr 64 acc distance
    pure (bits % 2 ^ 32)
  else do
    let distance ← Word.sub 32 accBits
    let bits ← Word.shl 64 acc distance
    pure (bits % 2 ^ 32)

/-- The mask of the code words of a length. -/
def codeMask (bits : Nat) : Checked Nat :=
  if bits ≥ 32 then pure 0xffffffff
  else do
    let distance ← Word.sub 32 bits
    let high ← Word.shl 32 1 distance
    let low ← Word.sub high 1
    pure (0xffffffff - low)

def search (accBits bits : Nat) : Nat → List HuffmanSym → Checked (Option (Nat × Nat))
  | _, [] => pure none
  | index, s :: table =>
    if s.bits ≤ accBits then do
      let mask ← codeMask s.bits
      if bits &&& mask = s.code then pure (some (index, s.bits))
      else search accBits bits (index + 1) table
    else search accBits bits (index + 1) table

/-- The accumulator without the bits that were used. -/
def lowBits (acc accBits : Nat) : Checked Nat :=
  if accBits > 0 then do
    let high ← Word.shl 64 1 accBits
    let mask ← Word.sub high 1
    pure (acc &&& mask)
  else pure 0

def decodeSymbols : Nat → Nat → Nat → Checked (Bytes × Nat × Nat)
  | 0, acc, accBits => pure ([], acc, accBits)
  | fuel + 1, acc, accBits =>
    if accBits ≥ 5 then do
      let bits ← current acc accBits
      match ← search accBits bits 0 huffmanTable with
      | none => pure ([], acc, accBits)
      | some (index, bits) =>
        if index = 256 then throw .invalidHuffman
        else do
          let accBits ← Word.sub accBits bits
          let acc ← lowBits acc accBits
          let (out, rest) ← decodeSymbols fuel acc accBits
          pure (UInt8.ofNat index :: out, rest)
    else pure ([], acc, accBits)

def decodeLoop (acc accBits : Nat) : Bytes → Checked Bytes
  | [] =>
    if accBits > 0 ∧ accBits ≤ 7 then do
      let high ← Word.shl 64 1 accBits
      let mask ← Word.sub high 1
      if acc &&& mask = mask then pure [] else throw .invalidHuffman
    else if accBits > 7 then throw .invalidHuffman
    else pure []
  | byte :: data => do
    let shifted ← Word.shl 64 acc 8
    let accBits ← Word.add 32 accBits 8
    let (out, acc, accBits) ← decodeSymbols accBits (shifted ||| byte.toNat) accBits
    let out' ← decodeLoop acc accBits data
    pure (out ++ out')

def decode (data : Bytes) : Checked Bytes := decodeLoop 0 0 data

end Huffman

/-! ## Strings -/

def decodeStringWithLen (data : Bytes) (length : Nat) (isHuffman : Bool) : Checked (Bytes × Nat) :=
  if data.length < length then throw .bufferTooShort
  else
    let encoded := data.take length
    if isHuffman then do
      let decoded ← Huffman.decode encoded
      pure (decoded, length)
    else pure (encoded, length)

def decodeString (data : Bytes) : Checked (Bytes × Nat) :=
  match data with
  | [] => throw .bufferTooShort
  | first :: _ => do
    let isHuffman := first &&& 0x80 != 0
    let (length, prefixLen) ← decodeInteger data 7
    let totalLen ← Word.add 64 prefixLen length
    if data.length < totalLen then throw .bufferTooShort
    else
      let encoded := (data.take totalLen).drop prefixLen
      if isHuffman then do
        let decoded ← Huffman.decode encoded
        pure (decoded, totalLen)
      else pure (encoded, totalLen)

/-! ## No overflow -/

theorem and_seven_bits_lt (byte : UInt8) : (byte &&& 0x7f).toNat < 128 := by
  rw [UInt8.toNat_and]
  exact Nat.lt_succ_of_le Nat.and_le_right

/-- The groups that were read are below the next one, and the first byte is below `2 ^ 8`. -/
theorem decodeGroups_exact {value shift offset : Nat} (data : Bytes)
    (hvalue : value < 2 ^ 8 + 2 ^ shift) (hshift : shift ≤ 56) (hoffset : offset ≤ shift + 1) :
    Exact (decodeGroups value shift offset data) (Qpack.decodeGroups value shift offset data) := by
  induction data generalizing value shift offset with
  | nil => exact Exact.error _
  | cons byte rest ih =>
    unfold decodeGroups Qpack.decodeGroups
    dsimp only
    have hbyte := and_seven_bits_lt byte
    generalize (byte &&& 0x7f).toNat = group at hbyte ⊢
    have hpow : 2 ^ shift ≤ 2 ^ 56 := Nat.pow_le_pow_right (by decide) hshift
    have hgroup : group * 2 ^ shift ≤ 127 * 2 ^ shift := Nat.mul_le_mul_right _ (by omega)
    rw [← Nat.shiftLeft_eq] at hgroup
    apply Exact.step (Word.shl_eq (by omega) (by omega))
    apply Exact.step (Word.add_eq (by omega))
    apply Exact.step (Word.add_eq (by omega))
    apply Exact.ite
    · intro _
      exact Exact.ite (fun _ => Exact.error _) fun _ => Exact.ok _
    · intro _
      apply Exact.step (Word.add_eq (by omega))
      apply Exact.ite (fun _ => Exact.error _)
      intro hnext
      have hstep : 2 ^ (shift + 7) = 2 ^ shift * 128 := Nat.pow_add 2 shift 7
      exact ih (by omega) (by omega) (by omega)

theorem decodeInteger_exact (data : Bytes) (prefixBits : Nat) :
    Exact (decodeInteger data prefixBits) (Qpack.decodeInteger data prefixBits) := by
  cases data with
  | nil => exact Exact.error _
  | cons first rest =>
    unfold decodeInteger Qpack.decodeInteger
    dsimp only
    apply Exact.ite (fun _ => Exact.error _)
    intro hbits
    apply Exact.step (Word.shl_one (by omega))
    apply Exact.step (Word.sub_eq Nat.one_le_two_pow)
    apply Exact.ite (fun _ => Exact.ok _)
    intro _
    exact decodeGroups_exact rest ((UInt8.toNat_lt _).trans (by decide)) (by decide) (by decide)

namespace Huffman

open Qpack.Huffman (huffmanTable HuffmanSym)

theorem current_exact (acc : Nat) {accBits : Nat} (hbits : accBits < 64) :
    Exact (current acc accBits) (.ok (Qpack.Huffman.current acc accBits)) := by
  unfold current Qpack.Huffman.current
  by_cases hlong : accBits ≥ 32
  · rw [if_pos hlong, if_pos hlong]
    apply Exact.step (Word.sub_eq hlong)
    apply Exact.step (Word.shr_eq (by omega))
    exact Exact.ok _
  · rw [if_neg hlong, if_neg hlong]
    apply Exact.step (Word.sub_eq (Nat.le_of_not_le hlong))
    apply Exact.step (Word.shl_of_lt (by omega))
    rw [Nat.mod_mod_of_dvd _ (Nat.pow_dvd_pow 2 (by decide))]
    exact Exact.ok _

theorem codeMask_exact {bits : Nat} (hpos : 0 < bits) (hbits : bits < 32) :
    Exact (codeMask bits) (.ok (0xffffffff - ((1 <<< (32 - bits)) - 1))) := by
  unfold codeMask
  rw [if_neg (Nat.not_le.mpr hbits), Nat.one_shiftLeft]
  apply Exact.step (Word.sub_eq hbits.le)
  apply Exact.step (Word.shl_one (by omega))
  apply Exact.step (Word.sub_eq Nat.one_le_two_pow)
  exact Exact.ok _

theorem search_exact (acc accBits : Nat) {table : List HuffmanSym}
    (htable : ∀ s ∈ table, s ∈ huffmanTable) (index : Nat) :
    Exact (search accBits (Qpack.Huffman.current acc accBits) index table)
      (.ok (Qpack.Huffman.search acc accBits index table)) := by
  induction table generalizing index with
  | nil => exact Exact.ok _
  | cons s table ih =>
    have hnext := ih (fun t ht => htable t (List.mem_cons_of_mem s ht)) (index + 1)
    obtain ⟨hlow, hhigh, -⟩ := Qpack.Huffman.wellFormed_of_mem (htable s List.mem_cons_self)
    unfold search Qpack.Huffman.search
    dsimp only
    by_cases hle : s.bits ≤ accBits
    · rw [if_pos hle]
      apply (codeMask_exact (by omega) (by omega)).bind
      simp only [hle, true_and]
      split
      · exact Exact.ok _
      · exact hnext
    · rw [if_neg hle, if_neg (fun h => hle h.1)]
      exact hnext

theorem lowBits_exact (acc : Nat) {accBits : Nat} (hbits : accBits < 64) :
    Exact (lowBits acc accBits) (.ok (acc &&& ((1 <<< accBits) - 1))) := by
  unfold lowBits
  rw [Nat.one_shiftLeft]
  split
  · apply Exact.step (Word.shl_one hbits)
    apply Exact.step (Word.sub_eq Nat.one_le_two_pow)
    exact Exact.ok _
  · have hzero : accBits = 0 := by omega
    rw [hzero, Nat.pow_zero, Nat.sub_self, Nat.and_zero]
    exact Exact.ok _

/-- The bits that are not matched are in the accumulator, which is longer. -/
theorem decodeSymbols_exact (fuel : Nat) {acc accBits : Nat} (hacc : acc < 2 ^ accBits)
    (hbits : accBits < 64) :
    Exact (decodeSymbols fuel acc accBits) (Qpack.Huffman.decodeSymbols fuel acc accBits) := by
  induction fuel generalizing acc accBits with
  | zero => exact Exact.ok _
  | succ fuel ih =>
    unfold decodeSymbols Qpack.Huffman.decodeSymbols
    apply Exact.ite _ (fun _ => Exact.ok _)
    intro _
    apply (current_exact acc hbits).bind
    apply (search_exact acc accBits (fun _ hs => hs) 0).bind
    rcases hsearch : Qpack.Huffman.search acc accBits 0 huffmanTable with _ | ⟨index, bits⟩
    · exact Exact.ok _
    · apply Exact.ite (fun _ => Exact.error _)
      intro _
      obtain ⟨j, s, -, -, rfl, hword⟩ := Qpack.Huffman.search_some (fun _ hs => hs) hacc hsearch
      have hle : s.bits ≤ accBits := by simpa using hword.length_le
      apply Exact.step (Word.sub_eq hle)
      apply (lowBits_exact acc (by omega)).bind
      have hnext : acc &&& ((1 <<< (accBits - s.bits)) - 1) < 2 ^ (accBits - s.bits) := by
        rw [Nat.one_shiftLeft, Nat.and_two_pow_sub_one_eq_mod]
        exact Nat.mod_lt _ (Nat.two_pow_pos _)
      have hrest := ih hnext (by omega)
      rcases hsymbols : Qpack.Huffman.decodeSymbols fuel (acc &&& ((1 <<< (accBits - s.bits)) - 1))
        (accBits - s.bits) with e | ⟨out, rest⟩
      · rw [hsymbols] at hrest
        exact hrest.bind_error
      · rw [hsymbols] at hrest
        exact hrest.bind (Exact.ok _)

/-- Between two bytes the accumulator has less than 30 bits. -/
theorem decodeLoop_exact (data : Bytes) {acc accBits : Nat} (hacc : acc < 2 ^ accBits)
    (hbits : accBits < 30) :
    Exact (decodeLoop acc accBits data) (Qpack.Huffman.decodeLoop acc accBits data) := by
  induction data generalizing acc accBits with
  | nil =>
    unfold decodeLoop Qpack.Huffman.decodeLoop
    apply Exact.ite
    · intro _
      rw [Nat.one_shiftLeft]
      apply Exact.step (Word.shl_one (by omega))
      apply Exact.step (Word.sub_eq Nat.one_le_two_pow)
      exact Exact.ite (fun _ => Exact.ok _) fun _ => Exact.error _
    · intro _
      exact Exact.ite (fun _ => Exact.error _) fun _ => Exact.ok _
  | cons byte data ih =>
    unfold decodeLoop Qpack.Huffman.decodeLoop
    obtain ⟨hshift, hjoined⟩ := Qpack.Huffman.push_byte hacc hbits.le byte
    apply Exact.step (Word.shl_of_lt (by decide))
    apply Exact.step (Word.add_eq (by omega))
    rw [hshift]
    have hfirst := decodeSymbols_exact (accBits + 8) hjoined (by omega)
    rcases hsymbols : Qpack.Huffman.decodeSymbols (accBits + 8) (acc <<< 8 ||| byte.toNat)
      (accBits + 8) with e | ⟨out, acc', accBits'⟩
    · rw [hsymbols] at hfirst
      exact hfirst.bind_error
    · rw [hsymbols] at hfirst
      apply hfirst.bind
      obtain ⟨-, hacc', hbits'⟩ :=
        Qpack.Huffman.decodeSymbols_sound (accBits + 8) hjoined (Nat.le_refl _) hsymbols
      have hrest := ih hacc' hbits'
      dsimp only
      rcases hloop : Qpack.Huffman.decodeLoop acc' accBits' data with e | out'
      · rw [hloop] at hrest
        exact hrest.bind_error
      · rw [hloop] at hrest
        exact hrest.bind (Exact.ok _)

theorem decode_exact (data : Bytes) : Exact (decode data) (Qpack.Huffman.decode data) :=
  decodeLoop_exact data Nat.one_pos (by decide)

end Huffman

/-- A string as it is, or decoded. -/
theorem ite_decode_exact (isHuffman : Bool) (encoded : Bytes) (n : Nat) :
    Exact (if isHuffman then Huffman.decode encoded >>= fun s => pure (s, n) else pure (encoded, n))
      (if isHuffman then (Qpack.Huffman.decode encoded).map fun s => (s, n)
        else .ok (encoded, n)) := by
  apply Exact.ite
  · intro _
    exact (Huffman.decode_exact encoded).map fun s => (s, n)
  · intro _
    exact Exact.ok _

theorem decodeStringWithLen_exact (data : Bytes) (length : Nat) (isHuffman : Bool) :
    Exact (decodeStringWithLen data length isHuffman)
      (Qpack.decodeStringWithLen data length isHuffman) := by
  apply Exact.ite (fun _ => Exact.error _)
  intro _
  exact ite_decode_exact isHuffman _ length

theorem decodeString_exact {data : Bytes} (hdata : data.length < 2 ^ 63) :
    Exact (decodeString data) (Qpack.decodeString data) := by
  cases data with
  | nil => exact Exact.error _
  | cons first rest =>
    have hint := decodeInteger_exact (first :: rest) 7
    unfold decodeString Qpack.decodeString decodeStringWithPrefix
    dsimp only
    rcases hread : Qpack.decodeInteger (first :: rest) 7 with e | ⟨length, prefixLen⟩
    · rw [hread] at hint
      exact hint.bind_error
    · rw [hread] at hint
      apply hint.bind
      have hmax : length ≤ 2 ^ 62 - 1 := decodeInteger_le_max hread
      have hfits : prefixLen ≤ (first :: rest).length := (decodeInteger_stable 7).fits hread
      apply Exact.step (Word.add_eq (by omega))
      apply Exact.ite (fun _ => Exact.error _)
      intro _
      exact ite_decode_exact _ _ _

end InWords

end Http3.Qpack
