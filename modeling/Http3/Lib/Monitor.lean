import Http3.Lib.Proc

/-!
# Observers

An observer reads outputs one by one and moves between phases; some outputs it does not accept in
its phase. A run is watched by an observer when it is accepted and leads the observer
from the phase of the first state to that of the last.
-/

namespace Proc

variable {ω σ φ : Type} {I : σ → Prop} {watch : φ → ω → Option φ} {phase : σ → φ}

/-- From a state with `I` the output is accepted, and the observer keeps up with the state. -/
def Watched (I : σ → Prop) (watch : φ → ω → Option φ) (phase : σ → φ) : Flow ω σ :=
  fun s o _ t => I s → I t ∧ o.foldlM watch (phase s) = some (phase t)

theorem watched_composes : Composes (Watched I watch phase) where
  refl _ _ hs := ⟨hs, rfl⟩
  trans {s t u o o' _ _} h h' := by
    intro hs
    obtain ⟨ht, ho⟩ := h hs
    obtain ⟨hu, ho'⟩ := h' ht
    refine ⟨hu, ?_⟩
    rw [List.foldlM_append, ho]
    exact ho'

/-- Outputs that one phase takes no notice of. -/
theorem foldlM_stays {o : List ω} {ph : φ} (h : ∀ w ∈ o, watch ph w = some ph) :
    o.foldlM watch ph = some ph := by
  induction o with
  | nil => rfl
  | cons w o ih =>
    rw [List.foldlM_cons, h w List.mem_cons_self]
    exact ih fun v hv => h v (List.mem_cons_of_mem w hv)

/-- What every phase refuses does not come. -/
theorem notMem_of_foldlM {o : List ω} {ph ph' : φ} (h : o.foldlM watch ph = some ph') {w : ω}
    (hw : ∀ ph, watch ph w = none) : w ∉ o := by
  induction o generalizing ph with
  | nil => exact List.not_mem_nil
  | cons v o ih =>
    rw [List.foldlM_cons] at h
    intro hmem
    cases hv : watch ph v with
    | none =>
      rw [hv] at h
      cases h
    | some next =>
      rw [hv] at h
      rcases List.mem_cons.mp hmem with rfl | hmem
      · rw [hw] at hv
        cases hv
      · exact ih h hmem

theorem watched_of_stays {s t : σ} {o : List ω} {b : Bool} (hI : I s → I t)
    (ho : ∀ w ∈ o, watch (phase s) w = some (phase s)) (hphase : phase t = phase s) :
    Watched I watch phase s o b t := fun hs => ⟨hI hs, by rw [foldlM_stays ho, hphase]⟩

end Proc
