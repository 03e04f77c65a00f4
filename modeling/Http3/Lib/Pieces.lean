import Mathlib.Data.List.Basic

/-!
# Items that arrive in pieces

Items are written one behind the other, and what is written arrives in pieces that need not end
where an item does. At any time some of the items have arrived, and a part of the next one.
-/

/-- Of the items `bs`, each written as `w` says, the input holds `done` and a part of what is next. -/
structure Arrived {α β : Type} (w : β → List α) (bs : List β) (input : List α)
    (done rest : List β) (part : List α) : Prop where
  split : bs = done ++ rest
  input : input = done.flatMap w ++ part
  short : ∀ b ∈ rest.head?, part.length < (w b).length

namespace Arrived

variable {α β : Type} {w : β → List α} {b : β} {bs done rest done' rest' : List β}
  {input more part part' : List α}

theorem none (h : ∀ b ∈ bs.head?, part.length < (w b).length) : Arrived w bs part [] bs part :=
  ⟨rfl, rfl, h⟩

theorem cons (h : Arrived w bs input done rest part) :
    Arrived w (b :: bs) (w b ++ input) (b :: done) rest part where
  split := congrArg (b :: ·) h.split
  input := by rw [h.input, List.flatMap_cons, List.append_assoc]
  short := h.short

/-- What arrives later is counted behind the part that is there. -/
theorem append (h : Arrived w bs input done rest part)
    (h' : Arrived w rest (part ++ more) done' rest' part') :
    Arrived w bs (input ++ more) (done ++ done') rest' part' where
  split := by rw [h.split, h'.split, List.append_assoc]
  input := by rw [h.input, List.append_assoc, h'.input, List.flatMap_append, List.append_assoc]
  short := h'.short

/-- What is yet to come behind the part. -/
theorem left (h : Arrived w bs input done rest part) (hall : input ++ more = bs.flatMap w) :
    part ++ more = rest.flatMap w := by
  rw [h.input, h.split, List.flatMap_append, List.append_assoc] at hall
  exact List.append_cancel_left hall

/-- When everything has arrived, nothing is left. -/
theorem all (h : Arrived w bs (bs.flatMap w) done rest part) : rest = [] ∧ done = bs := by
  have hsplit := h.split
  cases rest with
  | nil => exact ⟨rfl, by rw [hsplit, List.append_nil]⟩
  | cons b rest =>
    have hpart := h.left (List.append_nil _)
    have hshort := h.short b rfl
    rw [List.append_nil] at hpart
    rw [hpart, List.flatMap_cons, List.length_append] at hshort
    omega

/-- The next item is there, or the input ends within it. -/
theorem first_or_part (h : input ++ more = (b :: bs).flatMap w) :
    (∃ rest, input = w b ++ rest ∧ rest ++ more = bs.flatMap w) ∨
      ∃ m, m ≠ [] ∧ input ++ m = w b ∧ more = m ++ bs.flatMap w := by
  rw [List.flatMap_cons] at h
  obtain ⟨m, hb, hm⟩ | ⟨rest, hinput, hrest⟩ := List.append_eq_append_iff.mp h
  · cases m with
    | nil => exact .inl ⟨[], by rw [hb, List.append_nil, List.append_nil], hm⟩
    | cons a m => exact .inr ⟨a :: m, List.cons_ne_nil a m, hb.symm, hm⟩
  · exact .inl ⟨rest, hinput, hrest.symm⟩

end Arrived
