import Mathlib.Order.Monotone.Defs
import Mathlib.Data.Nat.Bitwise

/-!
# Numbers with some left out

`skip m` lists the numbers whose remainder by `m + 1` is not `m`, in ascending order, and `unskip m`
says at which place of the list a number stands.
-/

namespace Skip

def skip (m n : Nat) : Nat := n + n / m

def unskip (m x : Nat) : Nat := x - x / (m + 1)

theorem skip_strictMono (m : Nat) : StrictMono (skip m) := by
  intro a b h
  exact Nat.add_lt_add_of_lt_of_le h (Nat.div_le_div_right h.le)

/-- Each block of `m` numbers makes room for one more. -/
theorem skip_eq (m n : Nat) : skip m n = (m + 1) * (n / m) + n % m := by
  have hn := Nat.div_add_mod n m
  rw [skip, Nat.add_mul, Nat.one_mul]
  omega

section Positive

variable {m : Nat} (hm : 0 < m)

include hm

theorem skip_div (n : Nat) : skip m n / (m + 1) = n / m := by
  have hpos : 0 < m + 1 := Nat.succ_pos m
  have hlt : n % m < m + 1 := (Nat.mod_lt n hm).trans (Nat.lt_succ_self m)
  rw [skip_eq, Nat.mul_add_div hpos, Nat.div_eq_of_lt hlt, Nat.add_zero]

theorem skip_mod (n : Nat) : skip m n % (m + 1) = n % m := by
  have hlt : n % m < m + 1 := (Nat.mod_lt n hm).trans (Nat.lt_succ_self m)
  rw [skip_eq, Nat.mul_add_mod, Nat.mod_eq_of_lt hlt]

theorem skip_mod_ne (n : Nat) : skip m n % (m + 1) ≠ m := by
  rw [skip_mod hm]
  exact (Nat.mod_lt n hm).ne

theorem unskip_skip (n : Nat) : unskip m (skip m n) = n := by
  rw [unskip, skip_div hm, skip, Nat.add_sub_cancel]

theorem skip_unskip {x : Nat} (hx : x % (m + 1) ≠ m) : skip m (unskip m x) = x := by
  have hsplit := Nat.div_add_mod x (m + 1)
  have hpos : 0 < m + 1 := Nat.succ_pos m
  have hlt := Nat.mod_lt x hpos
  rw [Nat.add_mul, Nat.one_mul] at hsplit
  have hplace : unskip m x = m * (x / (m + 1)) + x % (m + 1) := by
    rw [unskip]
    omega
  have hdiv : unskip m x / m = x / (m + 1) := by
    have hlast : x % (m + 1) < m := by omega
    rw [hplace, Nat.mul_add_div hm, Nat.div_eq_of_lt hlast, Nat.add_zero]
  rw [skip, hdiv, hplace]
  omega

end Positive

end Skip
