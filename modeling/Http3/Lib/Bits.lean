import Mathlib.Data.Nat.Bitwise
import Mathlib.Data.List.Basic

/-!
# Numbers as bit strings

The lowest bits of a number, most significant first. Shifts take bits off the end, `drop` takes
them off the front, and disjoint numbers join with `|||`.
-/

namespace Bits

/-- The lowest `width` bits of `v`, most significant first. -/
def ofNat : Nat → Nat → List Bool
  | 0, _ => []
  | width + 1, v => v.testBit width :: ofNat width v

@[simp] theorem length_ofNat (width v : Nat) : (ofNat width v).length = width := by
  induction width with
  | zero => rfl
  | succ width ih => rw [ofNat, List.length_cons, ih]

theorem ofNat_congr {width u v : Nat} (h : ∀ j < width, u.testBit j = v.testBit j) :
    ofNat width u = ofNat width v := by
  induction width with
  | zero => rfl
  | succ width ih =>
    rw [ofNat, ofNat, h width (Nat.lt_succ_self _), ih fun j hj => h j (Nat.lt_succ_of_lt hj)]

theorem testBit_of_ofNat_eq {width u v : Nat} (h : ofNat width u = ofNat width v) :
    ∀ j < width, u.testBit j = v.testBit j := by
  induction width with
  | zero => exact fun j hj => absurd hj (Nat.not_lt_zero j)
  | succ width ih =>
    rw [ofNat, ofNat, List.cons.injEq] at h
    intro j hj
    rcases Nat.lt_succ_iff_lt_or_eq.mp hj with hj | rfl
    · exact ih h.2 j hj
    · exact h.1

/-- Numbers of so many bits are told apart by them. -/
theorem ofNat_inj {width u v : Nat} (hu : u < 2 ^ width) (hv : v < 2 ^ width) :
    ofNat width u = ofNat width v ↔ u = v := by
  refine ⟨fun h => Nat.eq_of_testBit_eq fun j => ?_, fun h => by rw [h]⟩
  by_cases hj : j < width
  · exact testBit_of_ofNat_eq h j hj
  · have hle := Nat.pow_le_pow_right (by decide : 0 < 2) (Nat.le_of_not_lt hj)
    rw [Nat.testBit_lt_two_pow (hu.trans_le hle), Nat.testBit_lt_two_pow (hv.trans_le hle)]

theorem ofNat_mod (width v : Nat) {n : Nat} (h : width ≤ n) :
    ofNat width (v % 2 ^ n) = ofNat width v :=
  ofNat_congr fun j hj => by simp [Nat.testBit_mod_two_pow, hj.trans_le h]

theorem ofNat_add (m n v : Nat) : ofNat (m + n) v = ofNat m (v >>> n) ++ ofNat n v := by
  induction m with
  | zero => rw [Nat.zero_add]; rfl
  | succ m ih =>
    rw [Nat.add_right_comm, ofNat, ih, ofNat, List.cons_append, Nat.testBit_shiftRight,
      Nat.add_comm n m]

theorem take_ofNat {k width : Nat} (h : k ≤ width) (v : Nat) :
    (ofNat width v).take k = ofNat k (v >>> (width - k)) := by
  obtain ⟨n, rfl⟩ := Nat.exists_eq_add_of_le h
  rw [ofNat_add, Nat.add_sub_cancel_left, List.take_left' (length_ofNat _ _)]

theorem drop_ofNat {k width : Nat} (h : k ≤ width) (v : Nat) :
    (ofNat width v).drop k = ofNat (width - k) v := by
  obtain ⟨n, rfl⟩ := Nat.exists_eq_add_of_le h
  rw [ofNat_add, Nat.add_sub_cancel_left, List.drop_left' (length_ofNat _ _)]

/-- A bit string is the start of another one if and only if it is its first bits. -/
theorem ofNat_prefix_iff {k width u v : Nat} (hu : u < 2 ^ k) (hv : v < 2 ^ width) :
    ofNat k u <+: ofNat width v ↔ k ≤ width ∧ v >>> (width - k) = u := by
  rw [List.prefix_iff_eq_take, length_ofNat]
  constructor
  · intro h
    have hk : k ≤ width := by
      have := congrArg List.length h
      rw [length_ofNat, List.length_take, length_ofNat] at this
      omega
    rw [take_ofNat hk, ofNat_inj hu] at h
    · exact ⟨hk, h.symm⟩
    · rw [Nat.shiftRight_eq_div_pow, Nat.div_lt_iff_lt_mul (Nat.two_pow_pos _), ← Nat.pow_add,
        Nat.add_sub_cancel' hk]
      exact hv
  · rintro ⟨hk, rfl⟩
    rw [take_ofNat hk]

/-- Bits behind others. -/
theorem ofNat_shiftLeft_or {m n u v : Nat} (hv : v < 2 ^ n) :
    ofNat (m + n) (u <<< n ||| v) = ofNat m u ++ ofNat n v := by
  rw [ofNat_add]
  congr 1
  · refine ofNat_congr fun j _ => ?_
    have : v.testBit (n + j) = false := Nat.testBit_lt_two_pow
      (hv.trans_le (Nat.pow_le_pow_right (by decide) (Nat.le_add_right n j)))
    simp [Nat.testBit_shiftRight, Nat.testBit_or, Nat.testBit_shiftLeft, this]
  · refine ofNat_congr fun j hj => ?_
    simp [Nat.testBit_or, Nat.testBit_shiftLeft, Nat.not_le.mpr hj]

/-- All ones. -/
theorem ofNat_two_pow_sub_one (width : Nat) :
    ofNat width (2 ^ width - 1) = List.replicate width true := by
  have key : ∀ n ≤ width, ofNat n (2 ^ width - 1) = List.replicate n true := by
    intro n
    induction n with
    | zero => exact fun _ => rfl
    | succ n ih =>
      intro h
      rw [ofNat, ih (Nat.le_of_succ_le h), Nat.testBit_two_pow_sub_one, List.replicate_succ,
        decide_eq_true (Nat.lt_of_succ_le h)]
  exact key width (Nat.le_refl _)

end Bits
