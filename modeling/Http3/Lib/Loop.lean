import Mathlib.Data.List.GetD

/-!
# Loops over an index

`whileLt i stop body` is a loop that counts `i` up to `stop` and is left early when the body has an
answer. Over the elements of a list it is a search of that list, from the front.
-/

namespace Loop

variable {α β : Type}

/-- At most so many rounds. -/
def rounds (body : Nat → Option β) : Nat → Nat → Option β
  | 0, _ => none
  | n + 1, i =>
    match body i with
    | some answer => some answer
    | none => rounds body n (i + 1)

def whileLt (i stop : Nat) (body : Nat → Option β) : Option β := rounds body (stop - i) i

theorem rounds_eq_none {body : Nat → Option β} {n i : Nat} :
    rounds body n i = none ↔ ∀ j, i ≤ j → j < i + n → body j = none := by
  induction n generalizing i with
  | zero => exact iff_of_true rfl fun j h h' => absurd h' (by omega)
  | succ n ih =>
    rw [rounds]
    cases hb : body i with
    | some answer =>
      refine iff_of_false nofun fun h => ?_
      rw [h i (Nat.le_refl i) (by omega)] at hb
      cases hb
    | none =>
      simp only [ih]
      constructor
      · intro h j hle hlt
        obtain rfl | hne := Nat.eq_or_lt_of_le hle
        · exact hb
        · exact h j hne (by omega)
      · intro h j hle hlt
        exact h j (by omega) (by omega)

theorem whileLt_eq_none {body : Nat → Option β} {i stop : Nat} :
    whileLt i stop body = none ↔ ∀ j, i ≤ j → j < stop → body j = none := by
  rw [whileLt, rounds_eq_none]
  constructor
  · intro h j hle hlt
    exact h j hle (by omega)
  · intro h j hle hlt
    exact h j hle (by omega)

theorem whileLt_some {body : Nat → Option β} {i stop : Nat} {answer : β}
    (h : whileLt i stop body = some answer) : ∃ j, body j = some answer := by
  unfold whileLt at h
  generalize stop - i = n at h
  induction n generalizing i with
  | zero => cases h
  | succ n ih =>
    rw [rounds] at h
    cases hb : body i with
    | none =>
      rw [hb] at h
      exact ih h
    | some first =>
      rw [hb] at h
      exact ⟨i, hb.trans h⟩

/-- A loop with one answer says whether a body has it. -/
theorem whileLt_getD {p : Nat → Bool} {i stop : Nat} {answer default : Bool}
    (hne : answer ≠ default) :
    (whileLt i stop fun j => if p j then some answer else none).getD default = default ↔
      ∀ j, i ≤ j → j < stop → p j = false := by
  have hnone : (whileLt i stop fun j => if p j then some answer else none) = none ↔
      ∀ j, i ≤ j → j < stop → p j = false := by
    rw [whileLt_eq_none]
    refine forall_congr' fun j => forall_congr' fun _ => forall_congr' fun _ => ?_
    cases p j with
    | false => exact iff_of_true rfl rfl
    | true => exact iff_of_false nofun nofun
  rw [← hnone]
  cases hloop : whileLt i stop fun j => if p j then some answer else none with
  | none => exact iff_of_true rfl rfl
  | some first =>
    obtain ⟨j, hj⟩ := whileLt_some hloop
    refine iff_of_false (fun h => hne ?_) nofun
    cases hp : p j with
    | false =>
      rw [hp] at hj
      cases hj
    | true =>
      rw [hp] at hj
      exact (Option.some.inj hj).trans h

theorem drop_eq_getD_cons {l : List α} {i : Nat} (h : i < l.length) (d : α) :
    l.drop i = l.getD i d :: l.drop (i + 1) := by
  rw [List.drop_eq_getElem_cons h, List.getD_eq_getElem _ _ h]

theorem rounds_list {l : List α} {n i : Nat} (h : i + n ≤ l.length) (d : α) (f : α → Option β) :
    rounds (fun j => f (l.getD j d)) n i = ((l.drop i).take n).findSome? f := by
  induction n generalizing i with
  | zero => rfl
  | succ n ih =>
    rw [rounds, drop_eq_getD_cons (by omega) d, List.take_succ_cons, List.findSome?_cons,
      ih (by omega)]
    cases f (l.getD i d) with
    | none => rfl
    | some answer => rfl

/-- A loop over the elements is a search among them. -/
theorem whileLt_list {l : List α} {i stop : Nat} (h : stop ≤ l.length) (d : α)
    (f : α → Option β) :
    whileLt i stop (fun j => f (l.getD j d)) = ((l.take stop).drop i).findSome? f := by
  rw [whileLt, List.drop_take]
  by_cases hi : i ≤ stop
  · exact rounds_list (by omega) d f
  · rw [Nat.sub_eq_zero_of_le (by omega)]
    rfl

theorem rounds_find {l : List α} {n i : Nat} (h : i + n ≤ l.length) (d : α) (p : α → Bool) :
    rounds (fun j => if p (l.getD j d) then some j else none) n i =
      (((l.drop i).take n).findIdx? p).map (i + ·) := by
  induction n generalizing i with
  | zero => rfl
  | succ n ih =>
    rw [rounds, drop_eq_getD_cons (by omega) d, List.take_succ_cons, List.findIdx?_cons,
      ih (by omega)]
    cases p (l.getD i d) with
    | true => rfl
    | false =>
      simp only [Bool.false_eq_true, if_false, Option.map_map]
      congr 1
      funext k
      exact Nat.add_right_comm i 1 k

/-- A loop that answers with the index finds the first one. -/
theorem whileLt_find (l : List α) (d : α) (p : α → Bool) :
    whileLt 0 l.length (fun j => if p (l.getD j d) then some j else none) = l.findIdx? p := by
  rw [whileLt, rounds_find (by omega) d p, List.drop_zero, Nat.sub_zero, List.take_length]
  cases l.findIdx? p with
  | none => rfl
  | some k => exact congrArg some (Nat.zero_add k)

end Loop
