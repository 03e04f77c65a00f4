/-!
# Granting receivers

A receiver grants a total that the other side may use up, and counts what is used and what it is
done with. Once half of its width is left or less, finishing something raises the total to a full
width beyond what is done, up to a cap. More than a width is never open, and below the cap the
receiver that is done with everything has granted more.
-/

structure Grant where
  width : Nat
  granted : Nat
  finished : Nat
  used : Nat

namespace Grant

inductive Event where
  | use (n : Nat)
  | finish (n : Nat)

def new (width : Nat) : Grant := ⟨width, width, 0, 0⟩

/-- Grant more when at most half of the width is left. -/
def topUp (cap : Nat) (g : Grant) : Grant :=
  if g.granted - g.used ≤ g.width / 2 then
    { g with granted := max g.granted (min (g.finished + g.width) cap) }
  else g

def step (cap : Nat) (g : Grant) : Event → Grant
  | .use n => { g with used := g.used + n }
  | .finish n => { g with finished := g.finished + n }.topUp cap

/-- Only what is granted is used, and only what was used is finished. -/
def Admits (g : Grant) : Event → Prop
  | .use n => g.used + n ≤ g.granted
  | .finish n => g.finished + n ≤ g.used

/-! ## One step -/

section Step

variable {cap : Nat} {g : Grant}

@[simp] theorem topUp_width : (g.topUp cap).width = g.width := by
  unfold topUp
  split <;> rfl

@[simp] theorem topUp_finished : (g.topUp cap).finished = g.finished := by
  unfold topUp
  split <;> rfl

@[simp] theorem topUp_used : (g.topUp cap).used = g.used := by
  unfold topUp
  split <;> rfl

theorem le_topUp_granted : g.granted ≤ (g.topUp cap).granted := by
  unfold topUp
  split
  · exact Nat.le_max_left _ _
  · exact Nat.le_refl _

theorem topUp_granted_le_of_cap {n : Nat} (h : g.granted ≤ n) (hcap : cap ≤ n) :
    (g.topUp cap).granted ≤ n := by
  unfold topUp
  split
  · exact Nat.max_le.mpr ⟨h, Nat.le_trans (Nat.min_le_right _ _) hcap⟩
  · exact h

theorem topUp_granted_le (h : g.granted ≤ g.finished + g.width) :
    (g.topUp cap).granted ≤ g.finished + g.width := by
  unfold topUp
  split
  · exact Nat.max_le.mpr ⟨h, Nat.min_le_left _ _⟩
  · exact h

/-- Below the cap, nothing being open is enough for a raise. -/
theorem lt_topUp_granted (hwidth : 0 < g.width) (hcap : g.used < cap)
    (hall : g.finished = g.used) : g.used < (g.topUp cap).granted := by
  unfold topUp
  split
  · have hraise : g.used < min (g.finished + g.width) cap := by omega
    exact Nat.lt_of_lt_of_le hraise (Nat.le_max_right _ _)
  · omega

theorem step_granted_le {n : Nat} (e : Event) (h : g.granted ≤ n) (hcap : cap ≤ n) :
    (g.step cap e).granted ≤ n := by
  cases e with
  | use m => exact h
  | finish m => exact topUp_granted_le_of_cap (g := { g with finished := g.finished + m }) h hcap

end Step

/-! ## Runs -/

/-- What is granted is at most a width beyond what is finished, and more than what is used as soon
as nothing is open. -/
structure Sound (cap : Nat) (g : Grant) : Prop where
  width_pos : 0 < g.width
  finished_le : g.finished ≤ g.used
  used_le : g.used ≤ g.granted
  granted_le : g.granted ≤ g.finished + g.width
  opens : g.finished = g.used → g.used < cap → g.used < g.granted

theorem Sound.new (cap : Nat) {width : Nat} (h : 0 < width) : (new width).Sound cap where
  width_pos := h
  finished_le := Nat.le_refl _
  used_le := Nat.zero_le _
  granted_le := Nat.le_add_left width 0
  opens _ _ := h

theorem Sound.step {cap : Nat} {g : Grant} (h : g.Sound cap) {e : Event} (he : g.Admits e) :
    (g.step cap e).Sound cap := by
  obtain ⟨hwidth, hfinished, hused, hgranted, hopens⟩ := h
  cases e with
  | use n =>
    have hwithin : g.used + n ≤ g.granted := he
    refine ⟨hwidth, ?_, hwithin, hgranted, fun hall hcap => ?_⟩
    · exact Nat.le_trans hfinished (Nat.le_add_right _ _)
    · -- everything is finished only when nothing was used
      have hnone : n = 0 := by
        have : g.finished = g.used + n := hall
        omega
      subst hnone
      exact hopens hall hcap
  | finish n =>
    have hwithin : g.finished + n ≤ g.used := he
    let g' : Grant := { g with finished := g.finished + n }
    have hbehind : g'.granted ≤ g'.finished + g'.width := by
      show g.granted ≤ g.finished + n + g.width
      omega
    show (g'.topUp cap).Sound cap
    refine ⟨?_, ?_, ?_, ?_, fun hall hcap => ?_⟩
    · rw [topUp_width]
      exact hwidth
    · rw [topUp_finished, topUp_used]
      exact hwithin
    · rw [topUp_used]
      exact Nat.le_trans hused (le_topUp_granted (g := g'))
    · rw [topUp_finished, topUp_width]
      exact topUp_granted_le hbehind
    · rw [topUp_finished, topUp_used] at hall
      rw [topUp_used] at hcap ⊢
      exact lt_topUp_granted hwidth hcap hall

end Grant
