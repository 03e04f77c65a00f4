import Mathlib.Data.List.AList

/-!
# Maps from numbers

A hash map or a tree map keyed by a number, with the operations the programs use. The laws of
`lookup`, `insert` and `erase` are those of `AList`; here stand the ones for the operations
built from them.
-/

abbrev IdMap (α : Type) : Type := AList fun _ : Nat => α

namespace IdMap

variable {α : Type}

def contains (m : IdMap α) (k : Nat) : Bool := (m.lookup k).isSome

/-- Change the value of a key that is present. -/
def update (m : IdMap α) (k : Nat) (f : α → α) : IdMap α :=
  match m.lookup k with
  | some a => m.insert k (f a)
  | none => m

def values (m : IdMap α) : List α := m.entries.map fun e => e.2

/-- The map without the keys that satisfy `p`. -/
def dropKeys (m : IdMap α) (p : Nat → Bool) : IdMap α :=
  m.keys.foldl (fun acc k => if p k then acc.erase k else acc) m

/-- The map without the given keys. -/
def eraseAll (m : IdMap α) (ks : List Nat) : IdMap α := ks.foldl (fun acc k => acc.erase k) m

/-! ## Lookup -/

section Lookup

variable (m : IdMap α) (k j : Nat) (a : α) (f : α → α)

@[simp] theorem lookup_insert_self : AList.lookup k (m.insert k a) = some a := AList.lookup_insert m

theorem lookup_insert_of_ne {k j : Nat} (h : j ≠ k) :
    AList.lookup j (m.insert k a) = m.lookup j := AList.lookup_insert_ne h

theorem lookup_insert_eq : AList.lookup j (m.insert k a) = if j = k then some a else m.lookup j := by
  split
  · rename_i h; subst h; exact lookup_insert_self m j a
  · exact lookup_insert_of_ne m a ‹_›

@[simp] theorem lookup_erase_self : AList.lookup k (m.erase k) = none := AList.lookup_erase k m

theorem lookup_erase_of_ne {k j : Nat} (h : j ≠ k) :
    AList.lookup j (m.erase k) = m.lookup j := AList.lookup_erase_ne h

theorem lookup_erase_eq : AList.lookup j (m.erase k) = if j = k then none else m.lookup j := by
  split
  · rename_i h; subst h; exact lookup_erase_self m j
  · exact lookup_erase_of_ne m ‹_›

@[simp] theorem lookup_update_self : AList.lookup k (m.update k f) = (m.lookup k).map f := by
  unfold update
  cases h : m.lookup k with
  | none => simpa using h
  | some b => simp

theorem lookup_update_of_ne {k j : Nat} (h : j ≠ k) :
    AList.lookup j (m.update k f) = m.lookup j := by
  unfold update
  cases m.lookup k with
  | none => rfl
  | some b => exact lookup_insert_of_ne m _ h

theorem lookup_update_eq :
    AList.lookup j (m.update k f) = if j = k then (m.lookup j).map f else m.lookup j := by
  split
  · rename_i h; subst h; exact lookup_update_self m j f
  · exact lookup_update_of_ne m f ‹_›

@[simp] theorem lookup_empty : AList.lookup k (∅ : IdMap α) = none := AList.lookup_empty k

theorem lookup_eq_some_iff_mem : m.lookup k = some a ↔ (⟨k, a⟩ : Sigma fun _ : Nat => α) ∈ m.entries :=
  AList.mem_lookup_iff

theorem lookup_eraseAll (ks : List Nat) :
    AList.lookup j (m.eraseAll ks) = if j ∈ ks then none else m.lookup j := by
  unfold eraseAll
  induction ks generalizing m with
  | nil => simp
  | cons k ks ih =>
    rw [List.foldl_cons, ih, lookup_erase_eq]
    by_cases hk : j = k
    · simp [hk]
    · simp [hk]

theorem contains_iff : m.contains k = true ↔ ∃ b, m.lookup k = some b := by
  rw [contains, Option.isSome_iff_exists]

theorem mem_keys_iff : k ∈ m.keys ↔ ∃ b, m.lookup k = some b := by
  rw [← AList.mem_keys, ← AList.lookup_isSome, Option.isSome_iff_exists]

end Lookup

/-! ## Presence -/

/-- A value after many changes comes from one before them. -/
theorem lookup_updateEach {R : α → α → Prop} {f : α → α} (hrefl : ∀ a, R a a)
    (hf : ∀ a b, R (f a) b → R a b) (ks : List Nat) {m : IdMap α} {j : Nat} {b : α}
    (h : AList.lookup j (ks.foldl (fun (m : IdMap α) k => m.update k f) m) = some b) :
    ∃ a, m.lookup j = some a ∧ R a b := by
  induction ks generalizing m with
  | nil => exact ⟨b, h, hrefl b⟩
  | cons k ks ih =>
    obtain ⟨a, ha, hab⟩ := ih h
    rw [lookup_update_eq] at ha
    split at ha
    · obtain ⟨a₀, ha₀, rfl⟩ := Option.map_eq_some_iff.mp ha
      exact ⟨a₀, ha₀, hf a₀ b hab⟩
    · exact ⟨a, ha, hab⟩

section Contains

variable (m : IdMap α) (k j : Nat) (a : α) (f : α → α)

@[simp] theorem contains_empty : contains (∅ : IdMap α) k = false := by
  simp [contains]

@[simp] theorem contains_insert :
    contains (m.insert k a) j = (decide (j = k) || contains m j) := by
  by_cases h : j = k <;> simp [contains, lookup_insert_eq, h]

@[simp] theorem contains_erase :
    contains (m.erase k) j = (decide (j ≠ k) && contains m j) := by
  by_cases h : j = k <;> simp [contains, lookup_erase_eq, h]

@[simp] theorem contains_update : contains (m.update k f) j = contains m j := by
  by_cases h : j = k <;> simp [contains, lookup_update_eq, h]

@[simp] theorem contains_eraseAll (ks : List Nat) :
    contains (m.eraseAll ks) j = (decide (j ∉ ks) && contains m j) := by
  by_cases h : j ∈ ks <;> simp [contains, lookup_eraseAll, h]

/-- Changing the values of many keys keeps the keys. -/
theorem contains_updateEach (ks : List Nat) :
    contains (ks.foldl (fun (m : IdMap α) k => m.update k f) m) j = contains m j := by
  induction ks generalizing m with
  | nil => rfl
  | cons k ks ih => exact (ih _).trans (contains_update m k j f)

theorem contains_iff_mem_keys : contains m k = true ↔ k ∈ m.keys := by
  rw [contains_iff, mem_keys_iff]

end Contains

/-! ## Counting keys -/

section Count

variable (m : IdMap α) (k : Nat) (a : α)

theorem length_keys_insert_le : (AList.insert k a m).keys.length ≤ m.keys.length + 1 := by
  have herase := List.length_erase_le (a := k) (l := m.keys)
  rw [AList.keys_insert, List.length_cons]
  omega

theorem length_keys_insert_of_mem (hk : k ∈ m.keys) :
    (AList.insert k a m).keys.length = m.keys.length := by
  have hpos := List.length_pos_of_mem hk
  rw [AList.keys_insert, List.length_cons, List.length_erase_of_mem hk]
  omega

theorem length_keys_erase_le : (AList.erase k m).keys.length ≤ m.keys.length := by
  rw [AList.keys_erase]
  exact List.length_erase_le

end Count

/-! ## Keys that are not there -/

section Absent

variable {m : IdMap α} {k : Nat}

theorem kerase_absent (h : m.contains k = false) : m.entries.kerase k = m.entries := by
  refine List.kerase_of_notMem_keys fun hk => ?_
  have hpresent := (contains_iff_mem_keys m k).mpr hk
  rw [h] at hpresent
  cases hpresent

theorem erase_insert_absent (h : m.contains k = false) (a : α) : (m.insert k a).erase k = m := by
  refine AList.ext ?_
  show (m.insert k a).entries.kerase k = m.entries
  rw [AList.entries_insert, kerase_absent h]
  exact List.kerase_cons_eq rfl

theorem erase_absent (h : m.contains k = false) : m.erase k = m := AList.ext (kerase_absent h)

end Absent

/-! ## A property of all values -/

def All (P : α → Prop) (m : IdMap α) : Prop := ∀ k a, m.lookup k = some a → P a

section All

variable {P : α → Prop} {m : IdMap α}

theorem All.empty : All P (∅ : IdMap α) := by
  intro k a h
  rw [lookup_empty] at h
  cases h

theorem All.insert (h : All P m) (k : Nat) {a : α} (ha : P a) : All P (m.insert k a) := by
  intro j b hj
  rw [lookup_insert_eq] at hj
  split at hj
  · cases hj
    exact ha
  · exact h j b hj

theorem All.erase (h : All P m) (k : Nat) : All P (m.erase k) := by
  intro j b hj
  rw [lookup_erase_eq] at hj
  split at hj
  · cases hj
  · exact h j b hj

theorem All.update (h : All P m) (k : Nat) {f : α → α} (hf : ∀ a, P a → P (f a)) :
    All P (m.update k f) := by
  intro j b hj
  rw [lookup_update_eq] at hj
  split at hj
  · obtain ⟨a, ha, rfl⟩ := Option.map_eq_some_iff.mp hj
    exact hf a (h j a ha)
  · exact h j b hj

end All

end IdMap
