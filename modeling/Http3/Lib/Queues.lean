import Http3.Lib.IdMap

/-!
# Queues by key

One queue for each number, empty where nothing was put in. A map whose values are lists stands
for such queues, whether or not it keeps the keys of empty ones.
-/

/-- First in, first out, for each key. -/
abbrev Queues (α : Type) : Type := Nat → List α

namespace Queues

variable {α β : Type}

def empty : Queues α := fun _ => []

/-- Put one behind the others of its key. -/
def push (q : Queues α) (k : Nat) (a : α) : Queues α := fun j => if j = k then q j ++ [a] else q j

/-- Take the first one of a key away. -/
def pop (q : Queues α) (k : Nat) : Queues α := fun j => if j = k then (q j).tail else q j

def clear (q : Queues α) (k : Nat) : Queues α := fun j => if j = k then [] else q j

def map (f : α → β) (q : Queues α) : Queues β := fun j => (q j).map f

/-! ## Members -/

section Members

variable {q : Queues α} {k j : Nat} {a b : α}

theorem mem_push : b ∈ q.push k a j ↔ b ∈ q j ∨ j = k ∧ b = a := by
  by_cases h : j = k <;> simp [push, h]

theorem mem_of_mem_pop (h : b ∈ q.pop k j) : b ∈ q j := by
  unfold pop at h
  split at h
  · exact List.mem_of_mem_tail h
  · exact h

theorem mem_of_mem_clear (h : b ∈ q.clear k j) : b ∈ q j := by
  unfold clear at h
  split at h
  · cases h
  · exact h

end Members

/-! ## Images -/

section Map

variable (f : α → β) (q : Queues α) (k : Nat) (a : α)

theorem map_push : (q.push k a).map f = (q.map f).push k (f a) := by
  funext j
  by_cases h : j = k <;> simp [push, map, h]

theorem map_pop : (q.pop k).map f = (q.map f).pop k := by
  funext j
  by_cases h : j = k <;> simp [pop, map, h]

theorem map_clear : (q.clear k).map f = (q.map f).clear k := by
  funext j
  by_cases h : j = k <;> simp [clear, map, h]

end Map

/-! ## Maps of lists -/

/-- The queues a map stands for. -/
def ofMap (m : IdMap (List α)) : Queues α := fun k => (m.lookup k).getD []

@[simp] theorem ofMap_empty : ofMap (∅ : IdMap (List α)) = empty := by
  funext k
  simp [ofMap, empty]

theorem ofMap_insert (m : IdMap (List α)) (k : Nat) (l : List α) (j : Nat) :
    ofMap (m.insert k l) j = if j = k then l else ofMap m j := by
  by_cases h : j = k <;> simp [ofMap, IdMap.lookup_insert_eq, h]

theorem ofMap_append (m : IdMap (List α)) (k : Nat) (a : α) :
    ofMap (m.insert k (((m.lookup k).getD []) ++ [a])) = (ofMap m).push k a := by
  funext j
  rw [ofMap_insert, push]
  split
  · subst j
    rfl
  · rfl

theorem ofMap_erase (m : IdMap (List α)) (k : Nat) : ofMap (m.erase k) = (ofMap m).clear k := by
  funext j
  by_cases h : j = k <;> simp [clear, ofMap, IdMap.lookup_erase_eq, h]

/-- Taking the first one away, and the key with the last one. -/
theorem ofMap_pop (m : IdMap (List α)) {k : Nat} {a : α} {l : List α}
    (h : m.lookup k = some (a :: l)) :
    ofMap (if l.isEmpty then m.erase k else m.insert k l) = (ofMap m).pop k := by
  have hk : ofMap m k = a :: l := by rw [ofMap, h, Option.getD_some]
  split
  · rename_i hl
    rw [List.isEmpty_iff] at hl
    rw [ofMap_erase]
    funext j
    by_cases hj : j = k
    · subst j
      simp only [clear, pop, if_true, hk, List.tail_cons, hl]
    · simp only [clear, pop, if_neg hj]
  · funext j
    rw [ofMap_insert, pop]
    split
    · subst j
      rw [hk, List.tail_cons]
    · rfl

theorem mem_ofMap_iff {m : IdMap (List α)} {k : Nat} {a : α} :
    a ∈ ofMap m k ↔ ∃ l, m.lookup k = some l ∧ a ∈ l := by
  unfold ofMap
  cases m.lookup k <;> simp

/-- A member of a queue is a member of a value. -/
theorem mem_values {m : IdMap (List α)} {k : Nat} {a : α} (h : a ∈ ofMap m k) :
    a ∈ (IdMap.values m).flatMap fun l => l := by
  obtain ⟨l, hl, ha⟩ := mem_ofMap_iff.mp h
  rw [IdMap.lookup_eq_some_iff_mem] at hl
  exact List.mem_flatMap.mpr ⟨l, List.mem_map.mpr ⟨_, hl, rfl⟩, ha⟩

end Queues
