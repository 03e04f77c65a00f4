import Http3.Qpack.SliceEncoder
import Http3.Qpack.WordReaders

/-!
# Prefix integers, written three times and read once

An integer is written into a buffer, appended to a vector and measured by functions that were
written apart from each other. Nothing that is read takes more than ten bytes: one group of seven
bits for each shift that the guard lets through, behind the first byte.
-/

namespace Http3.Qpack

/-! ## The reader stops -/

/-- The guard on the shift is reached within `m` groups, so no byte behind them is looked at. -/
theorem decodeGroups_take (m value shift offset : Nat) (data : Bytes) (hshift : shift ≤ 56)
    (hm : 63 ≤ shift + 7 * m) :
    decodeGroups value shift offset (data.take m) = decodeGroups value shift offset data := by
  induction m generalizing value shift offset data with
  | zero => omega
  | succ m ih =>
    cases data with
    | nil => rfl
    | cons byte rest =>
      simp only [List.take_succ_cons, decodeGroups]
      by_cases hguard : shift + 7 > 56
      · simp only [if_pos hguard]
      · simp only [if_neg hguard]
        rw [ih _ (shift + 7) (offset + 1) rest (by omega) (by omega)]

/-- With as many groups at hand the reader has an answer. -/
theorem decodeGroups_answers (m value shift offset : Nat) (data : Bytes) (hshift : shift ≤ 56)
    (hm : 63 ≤ shift + 7 * m) (hlen : m ≤ data.length) :
    decodeGroups value shift offset data ≠ .error .bufferTooShort := by
  induction m generalizing value shift offset data with
  | zero => omega
  | succ m ih =>
    cases data with
    | nil => cases hlen
    | cons byte rest =>
      simp only [decodeGroups]
      split
      · split <;> simp
      · split
        · simp
        · rename_i hguard
          apply ih _ (shift + 7) (offset + 1) rest (by omega) (by omega)
          rw [List.length_cons] at hlen
          omega

theorem decodeInteger_take_ten (data : Bytes) (prefixBits : Nat) :
    decodeInteger (data.take 10) prefixBits = decodeInteger data prefixBits := by
  cases data with
  | nil => rfl
  | cons first rest =>
    simp only [List.take_succ_cons, decodeInteger]
    rw [decodeGroups_take 9 _ 0 1 rest (by decide) (by decide)]

theorem decodeInteger_answers {data : Bytes} (hlen : 10 ≤ data.length) (prefixBits : Nat) :
    decodeInteger data prefixBits ≠ .error .bufferTooShort := by
  cases data with
  | nil => cases hlen
  | cons first rest =>
    simp only [decodeInteger]
    split
    · simp
    · split
      · simp
      · apply decodeGroups_answers 9 _ 0 1 rest (by decide) (by decide)
        rw [List.length_cons] at hlen
        omega

theorem decodeInteger_le_ten {data : Bytes} {prefixBits v n : Nat}
    (h : decodeInteger data prefixBits = .ok (v, n)) : n ≤ 10 := by
  rw [← decodeInteger_take_ten] at h
  have hfits : n ≤ (data.take 10).length := (decodeInteger_stable prefixBits).fits h
  rw [List.length_take] at hfits
  omega

/-! ## The writers agree -/

theorem encodeInteger_eq (value : Nat) {prefixBits : Nat} (hp : 0 < prefixBits)
    (hp8 : prefixBits ≤ 8) (high : UInt8) (buf : Bytes) :
    SliceEncoder.encodeInteger value prefixBits high buf =
      if buf.length < encodedIntegerLen value prefixBits then none
      else some (encodedIntegerLen value prefixBits,
        encodeIntegerToVec value prefixBits high ++
          buf.drop (encodedIntegerLen value prefixBits)) := by
  rw [SliceEncoder.encodeInteger_writes value hp hp8 high buf, SliceWriter.copy,
    encodedIntegerLen_eq value hp hp8 high]

/-- **Prefix integers.** The three writers agree on every integer of 62 bits and it is read back;
whatever is read, no word overflows, ten bytes are enough for an answer, and an answer stays. -/
theorem prefix_integers :
    (∀ value < 2 ^ 62, ∀ prefixBits, 1 ≤ prefixBits → prefixBits ≤ 8 → ∀ high : UInt8,
      high &&& UInt8.ofNat (2 ^ prefixBits - 1) = 0 →
        (encodeIntegerToVec value prefixBits high).length = encodedIntegerLen value prefixBits ∧
        (∀ buf, SliceEncoder.encodeInteger value prefixBits high buf =
          if buf.length < encodedIntegerLen value prefixBits then none
          else some (encodedIntegerLen value prefixBits,
            encodeIntegerToVec value prefixBits high ++
              buf.drop (encodedIntegerLen value prefixBits))) ∧
        ∀ rest, decodeInteger (encodeIntegerToVec value prefixBits high ++ rest) prefixBits =
          .ok (value, encodedIntegerLen value prefixBits)) ∧
    (∀ data prefixBits,
      Word.Exact (InWords.decodeInteger data prefixBits) (decodeInteger data prefixBits) ∧
      (∀ value n, decodeInteger data prefixBits = .ok (value, n) → value < 2 ^ 62 ∧ n ≤ 10) ∧
      decodeInteger (data.take 10) prefixBits = decodeInteger data prefixBits ∧
      (10 ≤ data.length → decodeInteger data prefixBits ≠ .error .bufferTooShort) ∧
      (decodeInteger data prefixBits ≠ .error .bufferTooShort → ∀ more,
        decodeInteger (data ++ more) prefixBits = decodeInteger data prefixBits)) := by
  constructor
  · intro value hvalue prefixBits hp hp8 high hhigh
    have hlen := encodedIntegerLen_eq value hp hp8 high
    refine ⟨hlen, encodeInteger_eq value hp hp8 high, ?_⟩
    intro rest
    rw [← hlen]
    exact decodeInteger_encode value prefixBits high rest (Nat.le_sub_one_of_lt hvalue) hp hp8 hhigh
  · intro data prefixBits
    refine ⟨InWords.decodeInteger_exact data prefixBits, ?_, decodeInteger_take_ten data prefixBits,
      fun hlen => decodeInteger_answers hlen prefixBits,
      (decodeInteger_stable prefixBits).append data⟩
    intro value n h
    have hmax : VarInt.max.get = 2 ^ 62 - 1 := rfl
    have hvalue := decodeInteger_le_max h
    exact ⟨by omega, decodeInteger_le_ten h⟩

-- One group more than the guard on the shift lets through.
example : decodeInteger ([0xff] ++ List.replicate 9 0x80 ++ [0x00]) 7 = .error .decodeFailed := by
  decide

end Http3.Qpack
