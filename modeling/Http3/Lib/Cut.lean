import Mathlib.Data.List.Basic

/-!
# Cutting a list at a mark

A list with a mark in it has a part before the first mark and one behind it, and a part before the
last mark and one behind that. A cut is known from the piece that is free of the mark.
-/

namespace Cut

variable {α : Type} {x : α}

theorem first_unique {a b c d : List α} (ha : x ∉ a) (hc : x ∉ c)
    (h : a ++ x :: b = c ++ x :: d) : a = c ∧ b = d := by
  induction a generalizing c with
  | nil =>
    cases c with
    | nil => exact ⟨rfl, (List.cons.inj h).2⟩
    | cons y c => exact absurd (List.cons.inj h).1 (List.ne_of_not_mem_cons hc)
  | cons z a ih =>
    cases c with
    | nil => exact absurd (List.cons.inj h).1.symm (List.ne_of_not_mem_cons ha)
    | cons y c =>
      obtain ⟨rfl, htail⟩ := List.cons.inj h
      obtain ⟨rfl, hbd⟩ :=
        ih (List.not_mem_of_not_mem_cons ha) (List.not_mem_of_not_mem_cons hc) htail
      exact ⟨rfl, hbd⟩

theorem last_unique {a b c d : List α} (hb : x ∉ b) (hd : x ∉ d)
    (h : a ++ x :: b = c ++ x :: d) : a = c ∧ b = d := by
  have hrev : b.reverse ++ x :: a.reverse = d.reverse ++ x :: c.reverse := by
    simpa using congrArg List.reverse h
  obtain ⟨hbd, hac⟩ := first_unique (by simpa using hb) (by simpa using hd) hrev
  exact ⟨List.reverse_inj.mp hac, List.reverse_inj.mp hbd⟩

variable [DecidableEq α]

theorem findIdx?_of_notMem {l : List α} (h : x ∉ l) : l.findIdx? (· == x) = none := by
  rw [List.findIdx?_eq_none_iff]
  intro y hy
  exact beq_eq_false_iff_ne.mpr (ne_of_mem_of_not_mem hy h)

theorem findIdx?_cut {before behind : List α} (h : x ∉ before) :
    (before ++ x :: behind).findIdx? (· == x) = some before.length := by
  rw [List.findIdx?_append, findIdx?_of_notMem h, List.findIdx?_cons, beq_self_eq_true]
  simp only [if_true, Option.map_some, Nat.zero_add, Option.none_or]

/-- Either there is no mark, or the list is cut at the first one. -/
theorem first_cases (x : α) (l : List α) :
    x ∉ l ∨ ∃ before behind, l = before ++ x :: behind ∧ x ∉ before := by
  by_cases h : x ∈ l
  · exact .inr (List.eq_append_cons_of_mem h)
  · exact .inl h

/-- Either there is no mark, or the list is cut at the last one. -/
theorem last_cases (x : α) (l : List α) :
    x ∉ l ∨ ∃ before behind, l = before ++ x :: behind ∧ x ∉ behind := by
  obtain h | ⟨behind, before, h, hx⟩ := first_cases x l.reverse
  · exact .inl fun hmem => h (List.mem_reverse.mpr hmem)
  · refine .inr ⟨before.reverse, behind.reverse, ?_, fun hmem => hx (List.mem_reverse.mp hmem)⟩
    rw [← List.reverse_reverse l, h]
    simp only [List.reverse_append, List.reverse_cons, List.append_assoc, List.singleton_append]

end Cut
