/-!
# Runs of a step function

`Every` says that a property of one step holds all along a list of inputs. An invariant that the
good steps keep turns an equivalence of step properties into one of run properties.
-/

namespace Runs

variable {σ ι : Type}

/-- `P` holds of every step, as a property of the state before it and the input. -/
def Every (step : σ → ι → σ) (P : σ → ι → Prop) (s : σ) : List ι → Prop
  | [] => True
  | i :: is => P s i ∧ Every step P (step s i) is

section Rules

variable {step : σ → ι → σ} {P Q : σ → ι → Prop} {I : σ → Prop}

instance Every.decidable [∀ s i, Decidable (P s i)] : ∀ s is, Decidable (Every step P s is)
  | _, [] => .isTrue trivial
  | s, i :: is =>
    have : Decidable (Every step P (step s i) is) := Every.decidable _ is
    inferInstanceAs (Decidable (P s i ∧ Every step P (step s i) is))

/-- Two properties of a step that agree under an invariant, which the good steps keep. -/
theorem Every.congr (hiff : ∀ s i, I s → (P s i ↔ Q s i))
    (hkeeps : ∀ s i, I s → P s i → I (step s i)) {s : σ} (hs : I s) (is : List ι) :
    Every step P s is ↔ Every step Q s is := by
  induction is generalizing s with
  | nil => exact Iff.rfl
  | cons i is ih =>
    refine ⟨fun ⟨hi, his⟩ => ⟨(hiff s i hs).mp hi, (ih (hkeeps s i hs hi)).mp his⟩, fun ⟨hi, his⟩ => ?_⟩
    have hi := (hiff s i hs).mpr hi
    exact ⟨hi, (ih (hkeeps s i hs hi)).mpr his⟩

/-- What good steps do, when they keep the invariant. -/
theorem Every.mono (hstep : ∀ s i, I s → P s i → Q s i ∧ I (step s i)) {s : σ} (hs : I s)
    {is : List ι} (h : Every step P s is) : Every step Q s is := by
  induction is generalizing s with
  | nil => trivial
  | cons i is ih =>
    obtain ⟨hi, hnext⟩ := hstep s i hs h.1
    exact ⟨hi, ih hnext h.2⟩

/-- Good steps keep the invariant all along. -/
theorem Every.inv (hkeeps : ∀ s i, I s → P s i → I (step s i)) {s : σ} (hs : I s)
    {is : List ι} (h : Every step P s is) : I (is.foldl step s) := by
  induction is generalizing s with
  | nil => exact hs
  | cons i is ih => exact ih (hkeeps s i hs h.1) h.2

/-- What every step keeps holds at the end. -/
theorem foldl_inv (hkeeps : ∀ s i, I s → I (step s i)) {s : σ} (hs : I s) (is : List ι) :
    I (is.foldl step s) := by
  induction is generalizing s with
  | nil => exact hs
  | cons i is ih => exact ih (hkeeps s i hs)

theorem Every.append {s : σ} {is js : List ι} :
    Every step P s (is ++ js) ↔ Every step P s is ∧ Every step P (is.foldl step s) js := by
  induction is generalizing s with
  | nil => exact ⟨fun h => ⟨trivial, h⟩, fun h => h.2⟩
  | cons i is ih => simp only [List.cons_append, Every, List.foldl_cons, ih, and_assoc]

/-- At every place where a run can be cut. -/
theorem Every.iff_splits {s : σ} {is : List ι} :
    Every step P s is ↔ ∀ pre i post, is = pre ++ i :: post → P (pre.foldl step s) i := by
  constructor
  · rintro h pre i post rfl
    exact (Every.append.mp h).2.1
  · intro h
    induction is generalizing s with
    | nil => trivial
    | cons i is ih =>
      refine ⟨h [] i is rfl, ih fun pre j post hsplit => ?_⟩
      exact h (i :: pre) j post (by rw [hsplit]; rfl)

/-- The step at which a property starts to hold. -/
theorem exists_first [DecidablePred I] {s : σ} {is : List ι} (hs : ¬I s)
    (h : I (is.foldl step s)) :
    ∃ pre i post, is = pre ++ i :: post ∧ ¬I (pre.foldl step s) ∧ I (step (pre.foldl step s) i) := by
  induction is generalizing s with
  | nil => exact absurd h hs
  | cons i is ih =>
    by_cases hi : I (step s i)
    · exact ⟨[], i, is, rfl, hs, hi⟩
    · obtain ⟨pre, j, post, rfl, hpre, hj⟩ := ih hi h
      exact ⟨i :: pre, j, post, rfl, hpre, hj⟩

/-- The last step of a run. -/
theorem Every.last {s : σ} {is : List ι} {i : ι} (h : Every step P s (is ++ [i])) :
    P (is.foldl step s) i := (Every.append.mp h).2.1

end Rules

end Runs
