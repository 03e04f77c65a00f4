import Mathlib.Data.List.Basic

/-!
# Logs that forget their oldest items

A log numbers what is appended to it from zero. It holds what it has not discarded, and it discards
from the old end. What is held can be counted from three places: from the start of the log, from
its newest item downwards, and from a base, downwards or upwards.
-/

/-- Everything that was appended, and how many of the oldest items are gone. -/
structure Log (α : Type) where
  items : List α
  dropped : Nat
  dropped_le : dropped ≤ items.length

namespace Log

variable {α : Type}

def empty : Log α := ⟨[], 0, Nat.le_refl _⟩

/-- How many items were appended, which is the number of the next one. -/
def count (log : Log α) : Nat := log.items.length

/-- What is held, oldest first. -/
def held (log : Log α) : List α := log.items.drop log.dropped

/-- The item of that number, if it is held. -/
def get? (log : Log α) (i : Nat) : Option α := if log.dropped ≤ i then log.items[i]? else none

def push (log : Log α) (a : α) : Log α where
  items := log.items ++ [a]
  dropped := log.dropped
  dropped_le := by
    have := log.dropped_le
    rw [List.length_append]
    omega

/-- Discard so many of the oldest items, or all of them. -/
def discard (log : Log α) (n : Nat) : Log α where
  items := log.items
  dropped := min (log.dropped + n) log.items.length
  dropped_le := Nat.min_le_right _ _

/-- The number of an item that is counted down from the newest one. -/
def fromNewest (log : Log α) (r : Nat) : Option Nat :=
  if r < log.count then some (log.count - 1 - r) else none

/-- The number of an item that is counted down from below a base. -/
def belowBase (base r : Nat) : Option Nat := if r < base then some (base - 1 - r) else none

/-! ## What is held -/

section Held

variable (log : Log α)

theorem held_length : log.dropped + log.held.length = log.count := by
  have := log.dropped_le
  simp only [held, List.length_drop, count]
  omega

@[simp] theorem push_count (a : α) : (log.push a).count = log.count + 1 := List.length_append

@[simp] theorem push_dropped (a : α) : (log.push a).dropped = log.dropped := rfl

theorem push_held (a : α) : (log.push a).held = log.held ++ [a] :=
  List.drop_append_of_le_length log.dropped_le

@[simp] theorem discard_count (n : Nat) : (log.discard n).count = log.count := rfl

theorem discard_held (n : Nat) : (log.discard n).held = log.held.drop n := by
  simp only [discard, held, List.drop_drop]
  rcases Nat.le_total (log.dropped + n) log.items.length with hle | hge
  · rw [Nat.min_eq_left hle]
  · rw [Nat.min_eq_right hge, List.drop_length, List.drop_eq_nil_of_le hge]

theorem get?_held (i : Nat) (h : log.dropped ≤ i) : log.get? i = log.held[i - log.dropped]? := by
  rw [get?, if_pos h, held, List.getElem?_drop, Nat.add_sub_cancel' h]

theorem get?_eq_some_iff {i : Nat} {a : α} :
    log.get? i = some a ↔ log.dropped ≤ i ∧ log.items[i]? = some a := by
  unfold get?
  split
  · exact (and_iff_right ‹_›).symm
  · exact iff_of_false (by simp) fun h => absurd h.1 ‹_›

theorem get?_eq_none {i : Nat} (h : log.count ≤ i) : log.get? i = none := by
  unfold get?
  split
  · exact List.getElem?_eq_none h
  · rfl

/-- The list of what is held, newest first, is counted down from the newest item. -/
theorem getElem?_reverse (r : Nat) :
    log.held.reverse[r]? = (log.fromNewest r).bind log.get? := by
  have hlength := log.held_length
  unfold fromNewest
  split
  · rename_i hr
    rw [Option.bind_some]
    by_cases hheld : r < log.held.length
    · rw [List.getElem?_reverse hheld, log.get?_held _ (by omega)]
      congr 1
      omega
    · rw [List.getElem?_eq_none (by rw [List.length_reverse]; omega), get?, if_neg (by omega)]
  · rw [List.getElem?_eq_none (by rw [List.length_reverse]; omega), Option.bind_none]

end Held

end Log
