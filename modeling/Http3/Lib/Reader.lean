import Mathlib.Data.List.Basic

/-!
# Readers of a growing input

A reader takes something from the front of its input and says how long it was. One error stands
for an input that is too short; any other answer must not change when more input arrives
(`Reader.Stable`). So a reader that reads back what was written waits until all of it is there
(`Reader.Reads.waits`).
-/

/-- What was read, and how much of the input it took. -/
abbrev Reader (ε α β : Type) : Type := List α → Except ε (β × Nat)

namespace Reader

variable {ε δ α β γ : Type}

def done (b : β) : Reader ε α β := fun _ => .ok (b, 0)

/-- One after the other. -/
def andThen (f : Reader ε α β) (g : β → Reader ε α γ) : Reader ε α γ := fun input =>
  match f input with
  | .error e => .error e
  | .ok (b, n) =>
    match g b (input.drop n) with
    | .error e => .error e
    | .ok (c, m) => .ok (c, n + m)

/-- A result that takes nothing of the input. -/
def ofExcept (r : Except ε β) : Reader ε α β := fun _ => r.map fun b => (b, 0)

/-- The same reader with other errors. -/
def mapError (g : ε → δ) (f : Reader ε α β) : Reader δ α β := fun input =>
  match f input with
  | .error e => .error (g e)
  | .ok r => .ok r

/-- An answer stays when the input grows, and takes no more than there is. -/
structure Stable (short : ε) (f : Reader ε α β) : Prop where
  fits : ∀ {input b n}, f input = .ok (b, n) → n ≤ input.length
  append : ∀ input, f input ≠ .error short → ∀ more, f (input ++ more) = f input

/-- `written` is read back, whatever follows. -/
def Reads (f : Reader ε α β) (written : List α) (b : β) : Prop :=
  ∀ rest, f (written ++ rest) = .ok (b, written.length)

theorem mapError_of_error {g : ε → δ} {f : Reader ε α β} {input : List α} {e : ε}
    (h : f input = .error e) : mapError g f input = .error (g e) := by
  simp only [mapError, h]

theorem mapError_of_ok {g : ε → δ} {f : Reader ε α β} {input : List α} {r : β × Nat}
    (h : f input = .ok r) : mapError g f input = .ok r := by
  simp only [mapError, h]

section AndThen

variable {f : Reader ε α β} {g : β → Reader ε α γ} {input : List α} {b : β} {n : Nat}

theorem andThen_of_error {e : ε} (h : f input = .error e) : f.andThen g input = .error e := by
  simp only [andThen, h]

theorem andThen_of_next_error {e : ε} (h : f input = .ok (b, n))
    (hnext : g b (input.drop n) = .error e) : f.andThen g input = .error e := by
  simp only [andThen, h, hnext]

theorem andThen_of_ok {c : γ} {m : Nat} (h : f input = .ok (b, n))
    (hnext : g b (input.drop n) = .ok (c, m)) : f.andThen g input = .ok (c, n + m) := by
  simp only [andThen, h, hnext]

theorem andThen_eq_error {e : ε} (h : f.andThen g input = .error e) :
    f input = .error e ∨ ∃ b n, f input = .ok (b, n) ∧ g b (input.drop n) = .error e := by
  rcases hread : f input with e' | ⟨b, n⟩
  · rw [andThen_of_error hread] at h
    cases h
    exact .inl rfl
  · rcases hnext : g b (input.drop n) with e' | ⟨c, m⟩
    · rw [andThen_of_next_error hread hnext] at h
      cases h
      exact .inr ⟨b, n, rfl, hnext⟩
    · rw [andThen_of_ok hread hnext] at h
      cases h

theorem andThen_eq_ok {c : γ} {k : Nat} (h : f.andThen g input = .ok (c, k)) :
    ∃ b n m, f input = .ok (b, n) ∧ g b (input.drop n) = .ok (c, m) ∧ k = n + m := by
  rcases hread : f input with e | ⟨b, n⟩
  · rw [andThen_of_error hread] at h
    cases h
  · rcases hnext : g b (input.drop n) with e | ⟨c', m⟩
    · rw [andThen_of_next_error hread hnext] at h
      cases h
    · rw [andThen_of_ok hread hnext] at h
      cases h
      exact ⟨b, n, m, rfl, hnext, rfl⟩

end AndThen

/-! ## Stable readers -/

section Stable

variable {short : ε} {f : Reader ε α β} {g : β → Reader ε α γ}

theorem Stable.done (b : β) : (done b : Reader ε α β).Stable short where
  fits h := by
    cases h
    exact Nat.zero_le _
  append _ _ _ := rfl

theorem Stable.ofExcept (r : Except ε β) : (ofExcept r : Reader ε α β).Stable short where
  fits h := by
    cases r with
    | error e => cases h
    | ok b =>
      cases h
      exact Nat.zero_le _
  append _ _ _ := rfl

/-- The error for an input that is too short becomes the one of the new errors. -/
theorem Stable.mapError (k : ε → δ) (hf : f.Stable short) :
    (mapError k f).Stable (k short) where
  fits {input b n} h := by
    rcases hread : f input with e | r
    · rw [mapError_of_error hread] at h
      cases h
    · rw [mapError_of_ok hread] at h
      cases h
      exact hf.fits hread
  append input h more := by
    have hne : f input ≠ .error short := by
      intro hshort
      exact h (mapError_of_error hshort)
    simp only [Reader.mapError, hf.append input hne more]

theorem Stable.andThen (hf : f.Stable short) (hg : ∀ b, (g b).Stable short) :
    (f.andThen g).Stable short where
  fits {input c k} h := by
    obtain ⟨b, n, m, hread, hnext, rfl⟩ := andThen_eq_ok h
    have h₁ := hf.fits hread
    have h₂ := (hg b).fits hnext
    rw [List.length_drop] at h₂
    omega
  append input h more := by
    rcases hread : f input with e | ⟨b, k⟩
    · rw [andThen_of_error hread] at h ⊢
      have hne : f input ≠ .error short := by
        intro hshort
        cases hread.symm.trans hshort
        exact h rfl
      exact andThen_of_error ((hf.append input hne more).trans hread)
    · have hfirst := (hf.append input (by simp [hread]) more).trans hread
      have hdrop := @List.drop_append_of_le_length _ _ more _ (hf.fits hread)
      rcases hnext : g b (input.drop k) with e | ⟨c, m⟩
      · rw [andThen_of_next_error hread hnext] at h ⊢
        have hmore := (hg b).append _ (by rw [hnext]; exact h) more
        exact andThen_of_next_error hfirst (by rw [hdrop, hmore, hnext])
      · have hmore := (hg b).append (input.drop k) (by simp [hnext]) more
        rw [andThen_of_ok hread hnext]
        exact andThen_of_ok hfirst (by rw [hdrop, hmore, hnext])

end Stable

/-! ## Reading back -/

section Reads

variable {short : ε} {f : Reader ε α β} {g : β → Reader ε α γ} {written next : List α} {b : β}
  {c : γ}

theorem Reads.done (b : β) : (done b : Reader ε α β).Reads [] b := fun _ => rfl

theorem Reads.ofExcept {r : Except ε β} (h : r = .ok b) : (ofExcept r : Reader ε α β).Reads [] b := by
  intro rest
  rw [h]
  rfl

theorem Reads.mapError (k : ε → δ) (hf : f.Reads written b) :
    (mapError k f).Reads written b := by
  intro rest
  exact mapError_of_ok (hf rest)

theorem Reads.andThen (hf : f.Reads written b) (hg : (g b).Reads next c) :
    (f.andThen g).Reads (written ++ next) c := fun rest => by
  rw [List.append_assoc, List.length_append]
  exact andThen_of_ok (hf _) (by rw [List.drop_left' rfl, hg])

/-- Before the last item is there, a stable reader asks for more. -/
theorem Reads.waits (hstable : f.Stable short) (hreads : f.Reads written b) {input more : List α}
    (hsplit : written = input ++ more) (hmore : more ≠ []) : f input = .error short := by
  by_contra hne
  have hall : f input = .ok (b, written.length) := by
    rw [← hstable.append input hne more, ← hsplit, ← List.append_nil written, hreads []]
    simp
  have hle := hstable.fits hall
  have hpos := List.length_pos_iff.mpr hmore
  rw [hsplit, List.length_append] at hle
  omega

end Reads

/-! ## Items one after the other -/

/-- Items read from the front, and what is left of the input. -/
inductive Items (f : Reader ε α β) : List α → List β → List α → Prop where
  | nil (input : List α) : Items f input [] input
  | cons {input rest : List α} {b : β} {n : Nat} {bs : List β} (h : f input = .ok (b, n))
    (hrest : Items f (input.drop n) bs rest) : Items f input (b :: bs) rest

section Items

variable {f : Reader ε α β} {input rest : List α} {bs cs : List β}

/-- What is read from the front comes first in what is read to the end. -/
theorem Items.isPrefix (hnil : ∀ r, f [] ≠ .ok r) (h : Items f input bs rest)
    (hall : Items f input cs []) : bs <+: cs := by
  induction h generalizing cs with
  | nil input => exact List.nil_prefix
  | cons hitem _ ih =>
    cases hall with
    | nil => exact absurd hitem (hnil _)
    | cons hitem' hrest' =>
      rw [hitem] at hitem'
      cases hitem'
      exact List.cons_prefix_cons.mpr ⟨rfl, ih hrest'⟩

/-- The input determines what is read to its end. -/
theorem Items.unique (hnil : ∀ r, f [] ≠ .ok r) (h : Items f input bs []) (h' : Items f input cs []) :
    bs = cs :=
  (h.isPrefix hnil h').eq_of_length_le (h'.isPrefix hnil h).length_le

/-- As many items are read as were written, if each of them ends where it was written. -/
theorem Items.length_eq {enc : γ → List α} {xs : List γ} (hnil : ∀ r, f [] ≠ .ok r)
    (hne : ∀ x, enc x ≠ [])
    (hends : ∀ x more b n, f (enc x ++ more) = .ok (b, n) → n = (enc x).length)
    (h : Items f (xs.flatMap enc) bs []) : bs.length = xs.length := by
  induction xs generalizing bs with
  | nil =>
    cases h with
    | nil => rfl
    | cons hitem _ => exact absurd hitem (hnil _)
  | cons x xs ih =>
    rw [List.flatMap_cons] at h
    generalize hinput : enc x ++ xs.flatMap enc = input at h
    cases h with
    | nil => exact absurd (List.append_eq_nil_iff.mp hinput).1 (hne x)
    | cons hitem hrest =>
      rw [← hinput] at hitem hrest
      rw [hends x _ _ _ hitem, List.drop_left' rfl] at hrest
      rw [List.length_cons, List.length_cons, ih hrest]

/-- Every item is read somewhere in the input. -/
theorem Items.forall_mem {P : β → Prop} (hread : ∀ input b n, f input = .ok (b, n) → P b)
    (h : Items f input bs rest) : ∀ b ∈ bs, P b := by
  induction h with
  | nil input => exact fun b hb => by cases hb
  | cons hitem _ ih =>
    intro b hb
    rcases List.mem_cons.mp hb with rfl | hb
    · exact hread _ _ _ hitem
    · exact ih b hb

/-- A reader that reads more than another one reads the same items. -/
theorem Items.imp {g : Reader ε α β} (hmore : ∀ input b n, f input = .ok (b, n) → g input = .ok (b, n))
    (h : Items f input bs rest) : Items g input bs rest := by
  induction h with
  | nil input => exact .nil input
  | cons hitem _ ih => exact .cons (hmore _ _ _ hitem) ih

/-- Where each item is read and then turned into another one, so is the list. -/
theorem items_factor {p : Reader ε α γ} {R : γ → β → Prop}
    (hf : ∀ input b n, f input = .ok (b, n) ↔ ∃ c, p input = .ok (c, n) ∧ R c b) :
    Items f input bs rest ↔ ∃ ds, Items p input ds rest ∧ List.Forall₂ R ds bs := by
  constructor
  · intro h
    induction h with
    | nil input => exact ⟨[], .nil input, .nil⟩
    | cons hitem _ ih =>
      obtain ⟨c, hc, hR⟩ := (hf _ _ _).mp hitem
      obtain ⟨ds, hds, hall⟩ := ih
      exact ⟨c :: ds, .cons hc hds, .cons hR hall⟩
  · rintro ⟨ds, hds, hall⟩
    induction hds generalizing bs with
    | nil input =>
      cases hall
      exact .nil input
    | cons hc _ ih =>
      cases hall with
      | cons hR hall => exact .cons ((hf _ _ _).mpr ⟨_, hc, hR⟩) (ih hall)

end Items

end Reader
