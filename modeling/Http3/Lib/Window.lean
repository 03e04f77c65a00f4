import Mathlib.Order.Lattice
import Mathlib.Tactic.Basic

/-!
# Credit windows

A sender uses up a limit that the receiver raises, and says so when it is blocked. A window keeps
what is used, the limit, and the limit that was announced as blocking since it was last raised. In
whatever order the moves come, the use stays within the limit and no limit is announced twice.
-/

structure Window (α : Type) where
  used : α
  limit : α
  blocked : Option α

namespace Window

variable {α : Type} [LinearOrder α]

/-- One move, with the limits that it announces. -/
inductive Move (w : Window α) : Window α → List α → Prop where
  | idle : Move w w []
  | use (used : α) (h : used ≤ w.used ∨ used ≤ w.limit) : Move w { w with used } []
  | raise (limit : α) (h : w.limit < limit) : Move w ⟨w.used, limit, none⟩ []
  | announce (h : w.blocked ≠ some w.limit) :
    Move w { w with blocked := some w.limit } [w.limit]

/-- The receiver raised the limit, or did nothing. -/
def Raised (w w' : Window α) : Prop :=
  w' = w ∨ ∃ limit, w.limit < limit ∧ w' = ⟨w.used, limit, none⟩

theorem Raised.move {w w' : Window α} (h : w.Raised w') : Move w w' [] := by
  obtain rfl | ⟨limit, hlt, rfl⟩ := h
  · exact .idle
  · exact .raise limit hlt

/-- Within its limit, after the announcements. -/
structure Sound (w : Window α) (announced : List α) : Prop where
  within : w.used ≤ w.limit
  blocked : ∀ m, w.blocked = some m → m = w.limit
  increasing : announced.Pairwise (· < ·)
  bounded : ∀ m ∈ announced, m ≤ w.limit
  fresh : w.blocked = none → ∀ m ∈ announced, m < w.limit

theorem Sound.of_unused {used limit : α} (h : used ≤ limit) :
    Sound (⟨used, limit, none⟩ : Window α) [] where
  within := h
  blocked := nofun
  increasing := List.Pairwise.nil
  bounded := nofun
  fresh := nofun

theorem Move.limit_le {w w' : Window α} {ms : List α} (h : Move w w' ms) : w.limit ≤ w'.limit := by
  cases h with
  | idle => exact le_refl _
  | use used h => exact le_refl _
  | raise limit h => exact le_of_lt h
  | announce h => exact le_refl _

theorem Move.sound {w w' : Window α} {announced ms : List α} (h : Move w w' ms)
    (hw : w.Sound announced) : w'.Sound (announced ++ ms) := by
  cases h with
  | idle => rwa [List.append_nil]
  | use used h =>
    rw [List.append_nil]
    refine ⟨?_, hw.blocked, hw.increasing, hw.bounded, hw.fresh⟩
    obtain h | h := h
    · exact le_trans h hw.within
    · exact h
  | raise limit h =>
    rw [List.append_nil]
    exact ⟨le_trans hw.within (le_of_lt h), nofun, hw.increasing,
      fun m hm => le_trans (hw.bounded m hm) (le_of_lt h),
      fun _ m hm => lt_of_le_of_lt (hw.bounded m hm) h⟩
  | announce h =>
    -- nothing was announced at this limit: the mark would still be there
    have hnone : w.blocked = none := by
      cases hb : w.blocked with
      | none => rfl
      | some m => exact absurd (hw.blocked m hb ▸ hb) h
    have hlt := hw.fresh hnone
    refine ⟨hw.within, fun m hm => by cases hm; rfl, ?_, ?_, nofun⟩
    · rw [List.pairwise_append]
      refine ⟨hw.increasing, List.pairwise_singleton _ _, ?_⟩
      intro m hm m' hm'
      rw [List.mem_singleton.mp hm']
      exact hlt m hm
    · intro m hm
      rw [List.mem_append, List.mem_singleton] at hm
      obtain hm | rfl := hm
      · exact hw.bounded m hm
      · exact le_refl _

end Window
