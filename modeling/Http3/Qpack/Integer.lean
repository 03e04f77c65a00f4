import Http3.Error

/-!
# Prefix integers

An integer starts in the low bits of a byte whose high bits belong to the instruction around it,
and continues in groups of seven bits. `decodeInteger_encode` reads back what was written, for
every prefix whose low bits are free.
-/

namespace Http3.Qpack

/-- The groups after the first byte, least significant first. Ten groups hold any `u64`. -/
def integerGroups : Nat → Nat → Bytes
  | 0, _ => []
  | fuel + 1, remaining =>
    if remaining ≥ 128 then
      (0x80 ||| UInt8.ofNat (remaining &&& 0x7f)) :: integerGroups fuel (remaining >>> 7)
    else [UInt8.ofNat remaining]

/-- The bytes of an integer; nothing is written for a prefix of no bits or more than eight. -/
def encodeIntegerToVec (value prefixBits : Nat) (high : UInt8) : Bytes :=
  if prefixBits = 0 ∨ prefixBits > 8 then []
  else
    let maxPrefix := 2 ^ prefixBits - 1
    if value < maxPrefix then [high ||| UInt8.ofNat value]
    else (high ||| UInt8.ofNat maxPrefix) :: integerGroups 10 (value - maxPrefix)

/-- A writer into a slice of `cap` bytes fails exactly when its bytes do not fit. -/
def fit (cap : Nat) (bs : Bytes) : Option Bytes := if bs.length ≤ cap then some bs else none

/-- The groups of an integer: its value and the number of bytes up to its end. -/
def decodeGroups (value shift offset : Nat) : Bytes → Except QpackError (Nat × Nat)
  | [] => .error .bufferTooShort
  | byte :: rest =>
    let value := value + ((byte &&& 0x7f).toNat <<< shift)
    if byte &&& 0x80 == 0 then
      if value > VarInt.max.get then .error .decodeFailed else .ok (value, offset + 1)
    else if shift + 7 > 56 then .error .decodeFailed
    else decodeGroups value (shift + 7) (offset + 1) rest

def decodeInteger (data : Bytes) (prefixBits : Nat) : Except QpackError (Nat × Nat) :=
  match data with
  | [] => .error .bufferTooShort
  | first :: rest =>
    if prefixBits = 0 ∨ prefixBits > 8 then .error .decodeFailed
    else
      let mask := UInt8.ofNat (2 ^ prefixBits - 1)
      let prefixValue := first &&& mask
      if prefixValue < mask then .ok (prefixValue.toNat, 1)
      else decodeGroups prefixValue.toNat 0 1 rest

/-! ## Reading back what was written -/

theorem group_last (n : Nat) (h : n < 128) : UInt8.ofNat n &&& 0x80 = 0 ∧
    (UInt8.ofNat n &&& 0x7f).toNat = n := by
  have key : ∀ i : Fin 128, UInt8.ofNat i.val &&& 0x80 = 0 ∧
      (UInt8.ofNat i.val &&& 0x7f).toNat = i.val := by decide +kernel
  exact key ⟨n, h⟩

theorem group_more (n : Nat) (h : n < 128) : (0x80 ||| UInt8.ofNat n) &&& 0x80 ≠ 0 ∧
    ((0x80 ||| UInt8.ofNat n) &&& 0x7f).toNat = n := by
  have key : ∀ i : Fin 128, (0x80 ||| UInt8.ofNat i.val) &&& 0x80 ≠ 0 ∧
      ((0x80 ||| UInt8.ofNat i.val) &&& 0x7f).toNat = i.val := by decide +kernel
  exact key ⟨n, h⟩

/-- `k` more groups are in reach of the shift guard, and the value stays an integer of 62 bits. -/
theorem decodeGroups_encode (k fuel value shift offset remaining : Nat) (rest : Bytes)
    (hr : remaining < 2 ^ (7 * (k + 1))) (hfuel : k < fuel) (hshift : shift + 7 * k ≤ 56)
    (hv : value + remaining * 2 ^ shift ≤ VarInt.max.get) :
    decodeGroups value shift offset (integerGroups fuel remaining ++ rest) =
      .ok (value + remaining * 2 ^ shift, offset + (integerGroups fuel remaining).length) := by
  induction k generalizing fuel value shift offset remaining with
  | zero =>
    obtain ⟨fuel, rfl⟩ : ∃ f, fuel = f + 1 := ⟨fuel - 1, by omega⟩
    have hlt : remaining < 128 := by omega
    obtain ⟨h80, h7f⟩ := group_last remaining hlt
    rw [integerGroups, if_neg (by omega), List.singleton_append, decodeGroups, h80, h7f]
    rw [Nat.shiftLeft_eq]
    simp only [beq_self_eq_true, ↓reduceIte, List.length_singleton]
    rw [if_neg (by omega)]
  | succ k ih =>
    obtain ⟨fuel, rfl⟩ : ∃ f, fuel = f + 1 := ⟨fuel - 1, by omega⟩
    by_cases hlt : remaining < 128
    · obtain ⟨h80, h7f⟩ := group_last remaining hlt
      rw [integerGroups, if_neg (by omega), List.singleton_append, decodeGroups, h80, h7f]
      rw [Nat.shiftLeft_eq]
      simp only [beq_self_eq_true, ↓reduceIte, List.length_singleton]
      rw [if_neg (by omega)]
    · have hmod : remaining &&& 0x7f = remaining % 128 := Nat.and_two_pow_sub_one_eq_mod _ 7
      obtain ⟨h80, h7f⟩ := group_more (remaining % 128) (Nat.mod_lt _ (by decide))
      have hdiv : remaining >>> 7 = remaining / 128 := Nat.shiftRight_eq_div_pow _ 7
      -- one group and the rest make up the value
      have hsplit : value + remaining % 128 * 2 ^ shift + remaining / 128 * 2 ^ (shift + 7) =
          value + remaining * 2 ^ shift := by
        have hd := Nat.div_add_mod remaining 128
        calc value + remaining % 128 * 2 ^ shift + remaining / 128 * 2 ^ (shift + 7)
            = value + (128 * (remaining / 128) + remaining % 128) * 2 ^ shift := by
              rw [Nat.pow_add]; ring
          _ = value + remaining * 2 ^ shift := by rw [hd]
      rw [integerGroups, if_pos (by omega), hmod, hdiv, List.cons_append, decodeGroups, h7f]
      rw [Nat.shiftLeft_eq]
      simp only [beq_iff_eq, h80, ↓reduceIte]
      rw [if_neg (by omega), ih fuel _ (shift + 7) (offset + 1) (remaining / 128) ?_ (by omega)
        (by omega) (by omega), hsplit, List.length_cons]
      · congr 2
        omega
      · rw [Nat.div_lt_iff_lt_mul (by decide)]
        calc remaining < 2 ^ (7 * (k + 1 + 1)) := hr
          _ = 2 ^ (7 * (k + 1)) * 128 := by
            rw [show 7 * (k + 1 + 1) = 7 * (k + 1) + 7 by ring, Nat.pow_add]

/-- The bits of the first byte: the high ones as given, the low ones the start of the value. -/
theorem first_byte (prefixBits x : Nat) (high : UInt8) (hp : prefixBits ≤ 8)
    (hx : x ≤ 2 ^ prefixBits - 1) (hh : high &&& UInt8.ofNat (2 ^ prefixBits - 1) = 0) :
    ((high ||| UInt8.ofNat x) &&& UInt8.ofNat (2 ^ prefixBits - 1)).toNat = x := by
  have hpow : 2 ^ prefixBits ≤ 2 ^ 8 := Nat.pow_le_pow_right (by decide) hp
  have hpos : 0 < 2 ^ prefixBits := Nat.two_pow_pos _
  have hmask : (UInt8.ofNat (2 ^ prefixBits - 1)).toNat = 2 ^ prefixBits - 1 := by
    simp only [UInt8.toNat_ofNat']; omega
  have hxn : (UInt8.ofNat x).toNat = x := by simp only [UInt8.toNat_ofNat']; omega
  have hh' : high.toNat &&& (2 ^ prefixBits - 1) = 0 := by
    have := congrArg UInt8.toNat hh
    rwa [UInt8.toNat_and, hmask] at this
  rw [UInt8.toNat_and, UInt8.toNat_or, hmask, hxn, Nat.and_or_distrib_right, hh',
    Nat.zero_or, Nat.and_two_pow_sub_one_eq_mod, Nat.mod_eq_of_lt (by omega)]

/-- **Round trip** of a prefix integer, with anything after it. -/
theorem decodeInteger_encode (value prefixBits : Nat) (high : UInt8) (rest : Bytes)
    (hv : value ≤ VarInt.max.get) (hp : 0 < prefixBits) (hp8 : prefixBits ≤ 8)
    (hh : high &&& UInt8.ofNat (2 ^ prefixBits - 1) = 0) :
    decodeInteger (encodeIntegerToVec value prefixBits high ++ rest) prefixBits =
      .ok (value, (encodeIntegerToVec value prefixBits high).length) := by
  have hpow : 2 ^ prefixBits ≤ 2 ^ 8 := Nat.pow_le_pow_right (by decide) hp8
  have hpow1 : 2 ^ 1 ≤ 2 ^ prefixBits := Nat.pow_le_pow_right (by decide) hp
  have hmask : (UInt8.ofNat (2 ^ prefixBits - 1)).toNat = 2 ^ prefixBits - 1 := by
    simp only [UInt8.toNat_ofNat']; omega
  have hbits : ¬(prefixBits = 0 ∨ prefixBits > 8) := by omega
  unfold encodeIntegerToVec
  rw [if_neg hbits]
  by_cases hlt : value < 2 ^ prefixBits - 1
  · have hb := first_byte prefixBits value high hp8 (by omega) hh
    simp only [if_pos hlt, List.singleton_append, decodeInteger, if_neg hbits]
    rw [if_pos (by rw [UInt8.lt_iff_toNat_lt, hb, hmask]; exact hlt), hb]
    rfl
  · have hb := first_byte prefixBits (2 ^ prefixBits - 1) high hp8 (Nat.le_refl _) hh
    have hmax : VarInt.max.get = 2 ^ 62 - 1 := rfl
    simp only [if_neg hlt, List.cons_append, decodeInteger, if_neg hbits]
    rw [if_neg (by rw [UInt8.lt_iff_toNat_lt, hb, hmask]; omega), hb]
    rw [decodeGroups_encode 8 10 _ 0 1 (value - (2 ^ prefixBits - 1)) rest (by omega) (by decide)
      (by decide) (by omega)]
    simp only [pow_zero, Nat.mul_one, List.length_cons]
    congr 2 <;> omega

theorem encodeIntegerToVec_ne_nil (value prefixBits : Nat) (high : UInt8) (hp : 0 < prefixBits)
    (hp8 : prefixBits ≤ 8) : encodeIntegerToVec value prefixBits high ≠ [] := by
  unfold encodeIntegerToVec
  rw [if_neg (by omega)]
  dsimp only
  split <;> simp

theorem integerGroups_length_le (fuel : Nat) {a b : Nat} (h : a ≤ b) :
    (integerGroups fuel a).length ≤ (integerGroups fuel b).length := by
  induction fuel generalizing a b with
  | zero => exact Nat.le_refl _
  | succ fuel ih =>
    have hshift : a >>> 7 ≤ b >>> 7 := by
      simp only [Nat.shiftRight_eq_div_pow]
      exact Nat.div_le_div_right h
    unfold integerGroups
    split
    · rw [if_pos (by omega)]
      exact Nat.succ_le_succ (ih hshift)
    · split <;> simp

/-- A smaller number takes no more bytes; the high bits do not matter. -/
theorem encodeIntegerToVec_length_le {a b : Nat} (h : a ≤ b) (prefixBits : Nat)
    (high high' : UInt8) :
    (encodeIntegerToVec a prefixBits high).length ≤
      (encodeIntegerToVec b prefixBits high').length := by
  unfold encodeIntegerToVec
  split
  · exact Nat.le_refl _
  · dsimp only
    split
    · split <;> simp
    · rw [if_neg (by omega)]
      exact Nat.succ_le_succ (integerGroups_length_le 10 (Nat.sub_le_sub_right h _))

/-- The first byte carries the high bits it was given. -/
theorem encodeIntegerToVec_head (value prefixBits : Nat) (high : UInt8) (rest : Bytes)
    (hp : 0 < prefixBits) (hp8 : prefixBits ≤ 8) :
    ∃ x t, x ≤ 2 ^ prefixBits - 1 ∧
      encodeIntegerToVec value prefixBits high ++ rest = (high ||| UInt8.ofNat x) :: t := by
  unfold encodeIntegerToVec
  rw [if_neg (by omega)]
  dsimp only
  split
  · exact ⟨value, rest, by omega, rfl⟩
  · exact ⟨_, _, Nat.le_refl _, rfl⟩

/-! ## What is read -/

theorem decodeGroups_pos {value shift offset : Nat} {data : Bytes} {v n : Nat}
    (h : decodeGroups value shift offset data = .ok (v, n)) : 0 < n := by
  induction data generalizing value shift offset with
  | nil => cases h
  | cons byte rest ih =>
    unfold decodeGroups at h
    dsimp only at h
    split at h
    · split at h
      · cases h
      · cases h
        exact Nat.succ_pos offset
    · split at h
      · cases h
      · exact ih h

theorem decodeInteger_pos {data : Bytes} {prefixBits v n : Nat}
    (h : decodeInteger data prefixBits = .ok (v, n)) : 0 < n := by
  unfold decodeInteger at h
  split at h
  · cases h
  · dsimp only at h
    split at h
    · cases h
    · split at h
      · cases h
        exact Nat.one_pos
      · exact decodeGroups_pos h

theorem decodeGroups_le_max {value shift offset : Nat} {data : Bytes} {v n : Nat}
    (h : decodeGroups value shift offset data = .ok (v, n)) : v ≤ VarInt.max.get := by
  induction data generalizing value shift offset with
  | nil => cases h
  | cons byte rest ih =>
    unfold decodeGroups at h
    dsimp only at h
    split at h
    · split at h
      · cases h
      · rename_i hle
        cases h
        exact Nat.le_of_not_lt hle
    · split at h
      · cases h
      · exact ih h

/-- An integer that is read has 62 bits. -/
theorem decodeInteger_le_max {data : Bytes} {prefixBits v n : Nat}
    (h : decodeInteger data prefixBits = .ok (v, n)) : v ≤ VarInt.max.get := by
  unfold decodeInteger at h
  split at h
  · cases h
  · rename_i first rest
    dsimp only at h
    split at h
    · cases h
    · split at h
      · cases h
        have hbyte := UInt8.toNat_lt (first &&& UInt8.ofNat (2 ^ prefixBits - 1))
        have hmax : VarInt.max.get = 2 ^ 62 - 1 := rfl
        omega
      · exact decodeGroups_le_max h

/-- If the groups are read at all, they are read as they were written. -/
theorem decodeGroups_of_encode (fuel value shift offset remaining : Nat) (rest : Bytes)
    (hfuel : 63 ≤ shift + 7 * fuel) (hshift : shift ≤ 56) {x n : Nat}
    (h : decodeGroups value shift offset (integerGroups fuel remaining ++ rest) = .ok (x, n)) :
    x = value + remaining * 2 ^ shift ∧ n = offset + (integerGroups fuel remaining).length := by
  induction fuel generalizing value shift offset remaining with
  | zero => omega
  | succ fuel ih =>
    by_cases hlt : remaining < 128
    · obtain ⟨h80, h7f⟩ := group_last remaining hlt
      rw [integerGroups, if_neg (by omega)] at h ⊢
      rw [List.singleton_append, decodeGroups, h80, h7f, Nat.shiftLeft_eq] at h
      simp only [beq_self_eq_true, if_true] at h
      split at h
      · cases h
      · cases h
        exact ⟨rfl, rfl⟩
    · have hmod : remaining &&& 0x7f = remaining % 128 := Nat.and_two_pow_sub_one_eq_mod _ 7
      obtain ⟨h80, h7f⟩ := group_more (remaining % 128) (Nat.mod_lt _ (by decide))
      have hdiv : remaining >>> 7 = remaining / 128 := Nat.shiftRight_eq_div_pow _ 7
      rw [integerGroups, if_pos (by omega), hmod, hdiv] at h ⊢
      rw [List.cons_append, decodeGroups, h7f, Nat.shiftLeft_eq] at h
      simp only [beq_iff_eq, h80, if_false] at h
      split at h
      · cases h
      · obtain ⟨rfl, rfl⟩ := ih _ (shift + 7) (offset + 1) (remaining / 128) (by omega) (by omega) h
        refine ⟨?_, by rw [List.length_cons]; omega⟩
        have hd := Nat.div_add_mod remaining 128
        calc value + remaining % 128 * 2 ^ shift + remaining / 128 * 2 ^ (shift + 7)
            = value + (128 * (remaining / 128) + remaining % 128) * 2 ^ shift := by
              rw [Nat.pow_add]; ring
          _ = value + remaining * 2 ^ shift := by rw [hd]

/-- If an integer is read at all, it is read as it was written. -/
theorem decodeInteger_of_encode (value prefixBits : Nat) (high : UInt8) (rest : Bytes)
    (hp : 0 < prefixBits) (hp8 : prefixBits ≤ 8)
    (hh : high &&& UInt8.ofNat (2 ^ prefixBits - 1) = 0) {x n : Nat}
    (h : decodeInteger (encodeIntegerToVec value prefixBits high ++ rest) prefixBits = .ok (x, n)) :
    x = value ∧ n = (encodeIntegerToVec value prefixBits high).length := by
  have hpow : 2 ^ prefixBits ≤ 2 ^ 8 := Nat.pow_le_pow_right (by decide) hp8
  have hpow1 : 2 ^ 1 ≤ 2 ^ prefixBits := Nat.pow_le_pow_right (by decide) hp
  have hmask : (UInt8.ofNat (2 ^ prefixBits - 1)).toNat = 2 ^ prefixBits - 1 := by
    simp only [UInt8.toNat_ofNat']; omega
  have hbits : ¬(prefixBits = 0 ∨ prefixBits > 8) := by omega
  unfold encodeIntegerToVec at h ⊢
  rw [if_neg hbits] at h ⊢
  by_cases hlt : value < 2 ^ prefixBits - 1
  · have hb := first_byte prefixBits value high hp8 (by omega) hh
    simp only [if_pos hlt, List.singleton_append, decodeInteger, if_neg hbits] at h ⊢
    rw [if_pos (by rw [UInt8.lt_iff_toNat_lt, hb, hmask]; exact hlt), hb] at h
    cases h
    exact ⟨rfl, rfl⟩
  · have hb := first_byte prefixBits (2 ^ prefixBits - 1) high hp8 (Nat.le_refl _) hh
    simp only [if_neg hlt, List.cons_append, decodeInteger, if_neg hbits] at h ⊢
    rw [if_neg (by rw [UInt8.lt_iff_toNat_lt, hb, hmask]; omega), hb] at h
    obtain ⟨rfl, rfl⟩ := decodeGroups_of_encode 10 _ 0 1 _ rest (by decide) (by decide) h
    refine ⟨by omega, ?_⟩
    rw [List.length_cons]
    omega

end Http3.Qpack
