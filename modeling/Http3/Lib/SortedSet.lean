import Mathlib.Data.List.Basic

/-!
# Finite sets of pairs in ascending order

A set kept as a strictly ascending list, in the lexicographic order of pairs of numbers, so that
it can be read from the smallest element on. The order is part of the type.
-/

/-- The lexicographic order. -/
def pairLt (a b : Nat × Nat) : Prop := a.1 < b.1 ∨ a.1 = b.1 ∧ a.2 < b.2

instance : DecidableRel pairLt := fun a b => by unfold pairLt; infer_instance

theorem pairLt_trans {a b c : Nat × Nat} (h : pairLt a b) (h' : pairLt b c) : pairLt a c := by
  unfold pairLt at *
  omega

theorem pairLt_total {a b : Nat × Nat} (h : ¬pairLt a b) : a = b ∨ pairLt b a := by
  obtain ⟨a₁, a₂⟩ := a
  obtain ⟨b₁, b₂⟩ := b
  simp only [pairLt, Prod.mk.injEq] at *
  omega

structure SortedSet where
  elems : List (Nat × Nat)
  sorted : elems.Pairwise pairLt

namespace SortedSet

@[ext] theorem ext {s t : SortedSet} (h : s.elems = t.elems) : s = t := by
  cases s
  cases t
  simpa using h

def empty : SortedSet := ⟨[], List.Pairwise.nil⟩

def isEmpty (s : SortedSet) : Bool := s.elems.isEmpty

def length (s : SortedSet) : Nat := s.elems.length

def insertList (a : Nat × Nat) : List (Nat × Nat) → List (Nat × Nat)
  | [] => [a]
  | b :: l => if pairLt a b then a :: b :: l else if a = b then b :: l else b :: insertList a l

theorem mem_insertList {a b : Nat × Nat} {l : List (Nat × Nat)} :
    b ∈ insertList a l ↔ b = a ∨ b ∈ l := by
  induction l with
  | nil => simp [insertList]
  | cons c l ih =>
    unfold insertList
    split
    · simp
    · split
      · rename_i h
        subst h
        simp
      · rw [List.mem_cons, ih, List.mem_cons]
        tauto

theorem insertList_sorted {a : Nat × Nat} {l : List (Nat × Nat)} (h : l.Pairwise pairLt) :
    (insertList a l).Pairwise pairLt := by
  induction l with
  | nil => simp [insertList]
  | cons b l ih =>
    rw [List.pairwise_cons] at h
    unfold insertList
    split
    · rename_i hab
      refine List.pairwise_cons.mpr ⟨fun c hc => ?_, List.pairwise_cons.mpr h⟩
      rcases List.mem_cons.mp hc with rfl | hc
      · exact hab
      · exact pairLt_trans hab (h.1 c hc)
    · rename_i hab
      split
      · exact List.pairwise_cons.mpr h
      · rename_i hne
        refine List.pairwise_cons.mpr ⟨fun c hc => ?_, ih h.2⟩
        rcases mem_insertList.mp hc with rfl | hc
        · exact (pairLt_total hab).resolve_left hne
        · exact h.1 c hc

def insert (s : SortedSet) (a : Nat × Nat) : SortedSet :=
  ⟨insertList a s.elems, insertList_sorted s.sorted⟩

/-- The elements that satisfy `p`. -/
def filter (s : SortedSet) (p : Nat × Nat → Bool) : SortedSet :=
  ⟨s.elems.filter p, s.sorted.filter p⟩

def erase (s : SortedSet) (a : Nat × Nat) : SortedSet := s.filter (· ≠ a)

/-- The elements whose first component is at most `n`, in order. -/
def upTo (s : SortedSet) (n : Nat) : List (Nat × Nat) := s.elems.takeWhile fun a => a.1 ≤ n

instance : Membership (Nat × Nat) SortedSet := ⟨fun s a => a ∈ s.elems⟩

theorem mem_def {s : SortedSet} {a : Nat × Nat} : a ∈ s ↔ a ∈ s.elems := Iff.rfl

@[simp] theorem mem_empty {a : Nat × Nat} : a ∉ empty := List.not_mem_nil

@[simp] theorem mem_insert {s : SortedSet} {a b : Nat × Nat} : b ∈ s.insert a ↔ b = a ∨ b ∈ s :=
  mem_insertList

@[simp] theorem mem_filter {s : SortedSet} {p : Nat × Nat → Bool} {a : Nat × Nat} :
    a ∈ s.filter p ↔ a ∈ s ∧ p a := List.mem_filter

@[simp] theorem mem_erase {s : SortedSet} {a b : Nat × Nat} : b ∈ s.erase a ↔ b ∈ s ∧ b ≠ a := by
  simp [erase]

theorem nodup (s : SortedSet) : s.elems.Nodup :=
  s.sorted.imp fun {a b} h hab => by
    subst hab
    unfold pairLt at h
    omega

end SortedSet
