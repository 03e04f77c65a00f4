import Mathlib.Data.Nat.Bitwise

/-!
# Arithmetic of machine words

An operation on words of a given width has no outcome where the result does not fit. A computation
with such steps is `Exact` when every step has one and nothing is lost: it then agrees with the
same computation on numbers.
-/

namespace Word

/-- A computation that can fail with an error, and that has no outcome after an overflow. -/
abbrev Checked (ε α : Type) : Type := ExceptT ε Option α

/-! ## Operations -/

def add (w a b : Nat) : Option Nat := if a + b < 2 ^ w then some (a + b) else none

def sub (a b : Nat) : Option Nat := if b ≤ a then some (a - b) else none

def mul (w a b : Nat) : Option Nat := if a * b < 2 ^ w then some (a * b) else none

def div (a b : Nat) : Option Nat := if b = 0 then none else some (a / b)

/-- The bits that are shifted out are lost. The distance has to be smaller than the width. -/
def shl (w a distance : Nat) : Option Nat :=
  if distance < w then some ((a <<< distance) % 2 ^ w) else none

def shr (w a distance : Nat) : Option Nat := if distance < w then some (a >>> distance) else none

section Operations

variable {w a b : Nat}

theorem add_eq (h : a + b < 2 ^ w) : add w a b = some (a + b) := if_pos h

theorem sub_eq (h : b ≤ a) : sub a b = some (a - b) := if_pos h

theorem mul_eq (h : a * b < 2 ^ w) : mul w a b = some (a * b) := if_pos h

theorem div_eq (h : b ≠ 0) : div a b = some (a / b) := if_neg h

theorem shl_of_lt (h : b < w) : shl w a b = some ((a <<< b) % 2 ^ w) := if_pos h

theorem shr_eq (h : b < w) : shr w a b = some (a >>> b) := if_pos h

theorem shl_eq (h : b < w) (hlow : a <<< b < 2 ^ w) : shl w a b = some (a <<< b) := by
  rw [shl_of_lt h, Nat.mod_eq_of_lt hlow]

theorem shl_one (h : b < w) : shl w 1 b = some (2 ^ b) := by
  have hlow : 1 <<< b < 2 ^ w := by
    rw [Nat.one_shiftLeft]
    exact Nat.pow_lt_pow_right (by decide) h
  rw [shl_eq h hlow, Nat.one_shiftLeft]

end Operations

/-! ## Exact computations -/

/-- There is an outcome, and it is the one on numbers. -/
def Exact {ε α : Type} (c : Checked ε α) (r : Except ε α) : Prop := c.run = some r

/-- A step without arithmetic. -/
def ofExcept {ε α : Type} (r : Except ε α) : Checked ε α := ExceptT.mk (some r)

namespace Exact

variable {ε α β : Type}

theorem ok (a : α) : Exact (pure a : Checked ε α) (.ok a) := rfl

theorem error (e : ε) : Exact (throw e : Checked ε α) (.error e) := rfl

/-- An operation with an outcome. -/
theorem lift {o : Option α} {a : α} (h : o = some a) : Exact (liftM o : Checked ε α) (.ok a) := by
  subst h
  rfl

theorem ofExcept (r : Except ε α) : Exact (ofExcept r) r := rfl

section Bind

variable {c : Checked ε α} {k : α → Checked ε β} {r : Except ε β}

/-- A step that succeeds. -/
theorem bind {a : α} (h : Exact c (.ok a)) (hk : Exact (k a) r) : Exact (c >>= k) r := by
  unfold Exact at *
  rw [ExceptT.run_bind, h]
  exact hk

theorem bind_error {e : ε} (h : Exact c (.error e)) : Exact (c >>= k) (.error e) := by
  unfold Exact at *
  rw [ExceptT.run_bind, h]
  rfl

/-- An operation with an outcome, and what follows. -/
theorem step {o : Option α} {a : α} (h : o = some a) (hk : Exact (k a) r) :
    Exact (liftM o >>= k) r := by
  subst h
  exact hk

end Bind

theorem map {c : Checked ε α} {r : Except ε α} (h : Exact c r) (f : α → β) :
    Exact (c >>= fun a => pure (f a)) (r.map f) := by
  cases r with
  | error e => exact h.bind_error
  | ok a => exact h.bind (ok (f a))

theorem ite {p : Prop} [Decidable p] {c d : Checked ε α} {r s : Except ε α}
    (hc : p → Exact c r) (hd : ¬p → Exact d s) :
    Exact (if p then c else d) (if p then r else s) := by
  by_cases hp : p
  · rw [if_pos hp, if_pos hp]
    exact hc hp
  · rw [if_neg hp, if_neg hp]
    exact hd hp

end Exact

end Word
