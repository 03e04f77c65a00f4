import Http3.Lib.Residue
import Http3.Qpack.Decoder
import Http3.Qpack.Encoder

/-!
# The Required Insert Count on the wire

The encoder sends one more than the residue of the count modulo twice the number of entries that
the largest table can have. The decoder knows its own insert count, and takes the number with that
residue that is not further from it than this number of entries.
-/

namespace Http3.Qpack

/-- A count that was told, which zero is not. -/
def told : Option Nat → Except QpackError Nat
  | some r => if r = 0 then .error .decodeFailed else .ok r
  | none => .error .decodeFailed

theorem told_eq_ok_iff (x : Option Nat) (r : Nat) : told x = .ok r ↔ 0 < r ∧ x = some r := by
  cases x with
  | none => simp [told]
  | some y =>
    unfold told
    dsimp only
    split
    · rename_i hzero
      refine iff_of_false (by simp) ?_
      rintro ⟨hr, heq⟩
      cases heq
      omega
    · rename_i hne
      constructor
      · intro h
        cases h
        exact ⟨Nat.pos_of_ne_zero hne, rfl⟩
      · rintro ⟨-, heq⟩
        cases heq
        rfl

section Window

variable (d : DynamicDecoder) {v : Nat}

/-- The decoder unwraps the residue in the window around its insert count. -/
theorem decodeRequiredInsertCount_eq (hv : v ≠ 0) :
    d.decodeRequiredInsertCount v =
      if v ≤ 2 * (d.maxTableCapacity / 32) then
        told (Residue.unwrap (2 * (d.maxTableCapacity / 32))
          (d.table.insertCount + d.maxTableCapacity / 32) (v - 1))
      else .error .decodeFailed := by
  unfold DynamicDecoder.decodeRequiredInsertCount Residue.unwrap
  rw [if_neg hv]
  generalize d.maxTableCapacity / 32 = entries
  generalize d.table.insertCount = count
  dsimp only
  rcases Nat.eq_zero_or_pos entries with rfl | hpos
  · rw [if_pos rfl, if_neg (by omega)]
  · rw [if_neg hpos.ne', Nat.add_sub_assoc (Nat.pos_of_ne_zero hv)]
    generalize (count + entries) / (2 * entries) * (2 * entries) + (v - 1) = x
    by_cases hrange : v ≤ 2 * entries
    · rw [if_neg (Nat.not_lt.mpr hrange), if_pos hrange]
      by_cases hle : x ≤ count + entries
      · have hwithin : ¬x > count + entries := Nat.not_lt.mpr hle
        simp only [hle, hwithin, false_and, if_false, if_true, told]
      · have hbeyond : x > count + entries := Nat.lt_of_not_le hle
        simp only [hle, hbeyond, true_and, if_false, if_true]
        by_cases hlow : 2 * entries ≤ x
        · rw [if_pos hlow, told]
          split
          · rw [if_pos (by omega)]
          · rfl
        · rw [if_neg hlow, if_pos (by omega), told]
    · rw [if_pos (Nat.lt_of_not_le hrange), if_neg hrange]

/-- What a value other than zero is taken for. -/
theorem decodeRequiredInsertCount_eq_ok_iff (hv : v ≠ 0) {r : Nat} :
    d.decodeRequiredInsertCount v = .ok r ↔
      v ≤ 2 * (d.maxTableCapacity / 32) ∧ 0 < r ∧ r % (2 * (d.maxTableCapacity / 32)) = v - 1 ∧
        d.table.insertCount < r + d.maxTableCapacity / 32 ∧
          r ≤ d.table.insertCount + d.maxTableCapacity / 32 := by
  rw [decodeRequiredInsertCount_eq d hv]
  split
  · rename_i hrange
    rw [told_eq_ok_iff, Residue.unwrap_eq_some_iff (by omega), and_iff_right hrange]
    constructor
    · rintro ⟨hr, hmod, hle, hlt⟩
      exact ⟨hr, hmod, by omega, hle⟩
    · rintro ⟨hr, hmod, hlt, hle⟩
      exact ⟨hr, hmod, hle, by omega⟩
  · rename_i hrange
    exact iff_of_false (by simp) fun h => hrange h.1

end Window

/-- The residue determines a count that is not too far from the decoder's. -/
theorem decodeRequiredInsertCount_encode {e : DynamicEncoder} {d : DynamicDecoder} {ric : Nat}
    (hcapacity : d.maxTableCapacity = e.maxTableCapacity) (hentries : 32 ≤ e.maxTableCapacity)
    (hahead : ric ≤ d.table.insertCount + e.maxTableCapacity / 32)
    (hrecent : d.table.insertCount < ric + e.maxTableCapacity / 32) :
    d.decodeRequiredInsertCount (e.encodeRequiredInsertCount ric) = .ok ric := by
  have hpos : 0 < e.maxTableCapacity / 32 := Nat.div_pos hentries (by decide)
  unfold DynamicEncoder.encodeRequiredInsertCount
  dsimp only
  by_cases hzero : ric = 0
  · rw [if_pos hzero, hzero]
    rfl
  · have hres := Nat.mod_lt ric (show 0 < 2 * (e.maxTableCapacity / 32) by omega)
    rw [if_neg hzero, if_neg hpos.ne', decodeRequiredInsertCount_eq_ok_iff d (Nat.succ_ne_zero _),
      hcapacity]
    exact ⟨hres, Nat.pos_of_ne_zero hzero, rfl, hrecent, hahead⟩

end Http3.Qpack
