import Mathlib.Data.Nat.ModEq

/-!
# Numbers told by their residue

A number that is sent modulo `n` can be told again by a receiver that knows a window of `n` numbers
in which it lies.
-/

namespace Residue

/-- Among the last `n` numbers up to `top`, the one with that residue. -/
def unwrap (n top residue : Nat) : Option Nat :=
  let x := top / n * n + residue
  if x ≤ top then some x else if n ≤ x then some (x - n) else none

/-- Two numbers of one window with the same residue are the same. -/
theorem eq_of_window {n top a b : Nat} (hmod : a % n = b % n) (ha : a ≤ top) (hb : b ≤ top)
    (hta : top < a + n) (htb : top < b + n) : a = b := by
  have hmodEq : a ≡ b [MOD n] := hmod
  rcases Nat.le_total a b with hle | hle
  · have hdvd := (Nat.modEq_iff_dvd' hle).mp hmodEq
    have hzero := Nat.eq_zero_of_dvd_of_lt hdvd (by omega)
    omega
  · have hdvd := (Nat.modEq_iff_dvd' hle).mp hmodEq.symm
    have hzero := Nat.eq_zero_of_dvd_of_lt hdvd (by omega)
    omega

/-- What is told is in the window and has the residue. -/
theorem unwrap_sound {n top residue r : Nat} (hres : residue < n)
    (h : unwrap n top residue = some r) : r % n = residue ∧ r ≤ top ∧ top < r + n := by
  have hdiv := Nat.div_add_mod' top n
  have hmod := Nat.mod_lt top (Nat.zero_lt_of_lt hres)
  unfold unwrap at h
  dsimp only at h
  split at h
  · cases h
    exact ⟨by rw [Nat.mul_add_mod', Nat.mod_eq_of_lt hres], ‹_›, by omega⟩
  · split at h
    · rename_i hbeyond hle
      cases h
      refine ⟨?_, by omega, by omega⟩
      rw [← Nat.mod_eq_sub_mod hle, Nat.mul_add_mod', Nat.mod_eq_of_lt hres]
    · cases h

/-- Something is told whenever the window has a number with the residue. -/
theorem unwrap_isSome {n top r : Nat} (hr : r ≤ top) :
    (unwrap n top (r % n)).isSome = true := by
  unfold unwrap
  dsimp only
  split
  · rfl
  · split
    · rfl
    · rename_i hbeyond hsmall
      have hle := Nat.mod_le r n
      have hquotient : top / n = 0 := by
        by_contra hne
        have hmul := Nat.mul_le_mul_right n (Nat.pos_of_ne_zero hne)
        omega
      rw [hquotient, Nat.zero_mul] at hbeyond
      omega

theorem unwrap_eq_some_iff {n top residue r : Nat} (hres : residue < n) :
    unwrap n top residue = some r ↔ r % n = residue ∧ r ≤ top ∧ top < r + n := by
  constructor
  · exact unwrap_sound hres
  · rintro ⟨rfl, hle, hlt⟩
    obtain ⟨x, hx⟩ := Option.isSome_iff_exists.mp (unwrap_isSome hle)
    obtain ⟨hmod, hxle, hxlt⟩ := unwrap_sound hres hx
    rw [hx, eq_of_window hmod hxle hle hxlt hlt]

end Residue
