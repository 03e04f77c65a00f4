import Mathlib.Data.List.Basic
import Mathlib.Order.Basic

/-!
# Credit between two ends

A sender uses up a limit. The receiver grants more of it in messages that arrive in their order, and
what the sender used arrives after a while too. Whatever arrives first, the receiver never gets more
than it has granted, every message raises the limit, and once no message is on its way both ends
agree.
-/

structure Credit where
  sent : Nat
  limit : Nat
  /-- the grants on their way, the oldest first -/
  grants : List Nat
  received : Nat
  granted : Nat

namespace Credit

/-- Both ends at the beginning. -/
def new (width : Nat) : Credit := ⟨0, width, [], 0, width⟩

/-- What one of the ends, or the network, may do. -/
inductive Move (c : Credit) : Credit → Prop where
  | idle : Move c c
  | send (n : Nat) (h : c.sent + n ≤ c.limit) : Move c { c with sent := c.sent + n }
  | arrive (n : Nat) (h : c.received + n ≤ c.sent) : Move c { c with received := c.received + n }
  | grant (m : Nat) (h : c.granted < m) :
    Move c { c with grants := c.grants ++ [m], granted := m }
  | deliver (m : Nat) (rest : List Nat) (h : c.grants = m :: rest) :
    Move c { c with limit := m, grants := rest }

/-- The limits from the one in force to the one granted last. -/
def limits (c : Credit) : List Nat := c.limit :: c.grants

structure Sound (c : Credit) : Prop where
  received_le : c.received ≤ c.sent
  sent_le : c.sent ≤ c.limit
  increasing : c.limits.Pairwise (· < ·)
  last : c.grants.getLastD c.limit = c.granted

theorem Sound.new (width : Nat) : (new width).Sound where
  received_le := Nat.le_refl 0
  sent_le := Nat.zero_le width
  increasing := List.pairwise_singleton _ _
  last := rfl

section Sound

variable {c d : Credit}

theorem Sound.le_granted (h : c.Sound) {m : Nat} (hm : m ∈ c.limits) : m ≤ c.granted := by
  obtain ⟨-, -, hincreasing, hlast⟩ := h
  have hmem : c.limits = (c.limits.dropLast) ++ [c.granted] := by
    rw [← hlast, ← List.getLast_eq_getLastD (List.cons_ne_nil c.limit c.grants)]
    exact (List.dropLast_append_getLast _).symm
  rw [hmem] at hm hincreasing
  rw [List.mem_append, List.mem_singleton] at hm
  obtain hm | rfl := hm
  · exact Nat.le_of_lt ((List.pairwise_append.mp hincreasing).2.2 m hm _ (List.mem_singleton_self _))
  · exact Nat.le_refl _

theorem Sound.limit_le (h : c.Sound) : c.limit ≤ c.granted := h.le_granted List.mem_cons_self

/-- What arrives was granted. -/
theorem Sound.received_within (h : c.Sound) {n : Nat} (hn : c.received + n ≤ c.sent) :
    c.received + n ≤ c.granted :=
  Nat.le_trans hn (Nat.le_trans h.sent_le h.limit_le)

/-- The next message raises the limit. -/
theorem Sound.raises (h : c.Sound) {m : Nat} {rest : List Nat} (hm : c.grants = m :: rest) :
    c.limit < m := by
  have hincreasing := h.increasing
  rw [limits, hm, List.pairwise_cons] at hincreasing
  exact hincreasing.1 m List.mem_cons_self

/-- With no message on its way both ends know the same limit. -/
theorem Sound.settled (h : c.Sound) (hnone : c.grants = []) : c.limit = c.granted := by
  have hlast := h.last
  rw [hnone] at hlast
  exact hlast

theorem Move.sound (h : Move c d) (hc : c.Sound) : d.Sound := by
  cases h with
  | idle => exact hc
  | send n h => exact ⟨Nat.le_trans hc.received_le (Nat.le_add_right _ n), h, hc.increasing, hc.last⟩
  | arrive n h => exact ⟨h, hc.sent_le, hc.increasing, hc.last⟩
  | grant m h =>
    refine ⟨hc.received_le, hc.sent_le, ?_, List.getLastD_concat⟩
    show (c.limits ++ [m]).Pairwise (· < ·)
    rw [List.pairwise_append]
    refine ⟨hc.increasing, List.pairwise_singleton _ _, fun k hk m' hm' => ?_⟩
    rw [List.mem_singleton.mp hm']
    exact Nat.lt_of_le_of_lt (hc.le_granted hk) h
  | deliver m rest h =>
    have hincreasing := hc.increasing
    have hlast := hc.last
    rw [limits, h, List.pairwise_cons] at hincreasing
    rw [h] at hlast
    refine ⟨hc.received_le, ?_, hincreasing.2, ?_⟩
    · exact Nat.le_trans hc.sent_le (Nat.le_of_lt (hc.raises h))
    · rw [← hlast]
      exact (List.getLastD_cons ..).symm

end Sound

/-! ## Several credits on one channel -/

section Channel

variable {κ : Type} [DecidableEq κ]

/-- The grants of one credit among those on a channel. -/
def grantsFor (k : κ) (channel : List (κ × Nat)) : List Nat :=
  (channel.filter fun g => g.1 = k).map Prod.snd

theorem grantsFor_append (k : κ) (l l' : List (κ × Nat)) :
    grantsFor k (l ++ l') = grantsFor k l ++ grantsFor k l' := by
  simp only [grantsFor, List.filter_append, List.map_append]

theorem grantsFor_self (k : κ) (m : Nat) (l : List (κ × Nat)) :
    grantsFor k ((k, m) :: l) = m :: grantsFor k l := by
  simp only [grantsFor, decide_true, List.filter_cons_of_pos, List.map_cons]

theorem grantsFor_ne {k k' : κ} (h : k' ≠ k) (m : Nat) (l : List (κ × Nat)) :
    grantsFor k ((k', m) :: l) = grantsFor k l := by
  simp only [grantsFor, h, decide_false, Bool.false_eq_true, not_false_eq_true,
    List.filter_cons_of_neg]

end Channel

end Credit
