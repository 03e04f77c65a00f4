import Http3.Lib.Queues
import Mathlib.Algebra.Ring.Nat
import Mathlib.Data.List.Count
import Mathlib.Order.Basic

/-!
# Confirmations on their way back

A sender keeps, for each key, the numbers that it sent and that were not confirmed. The receiver
accepts a number of a key once it has received that much, and confirms it; it may abandon a key, and
it may report in between how much it has received. Its messages arrive in order, but late. So the
sender never believes that more was received than was, and whatever the receiver may still accept is
kept by the sender.
-/

namespace Feedback

inductive Message where
  | confirm (key : Nat)
  | abandon (key : Nat)
  | advance (n : Nat)
  deriving DecidableEq

/-- What a message adds to the reports. -/
def Message.amount : Message → Nat
  | confirm _ => 0
  | abandon _ => 0
  | advance n => n

/-- The sender knows `outstanding`, `known` and the sum `told` of the reports that have arrived; the
receiver knows `waiting`, `abandoned`, `received` and the sum `reported` of its reports. -/
structure State where
  outstanding : Queues Nat
  waiting : Queues Nat
  messages : List Message
  abandoned : List Nat
  known : Nat
  told : Nat
  reported : Nat
  received : Nat

inductive Step (s : State) : State → Prop where
  | send (k n : Nat) : Step s
    { s with outstanding := s.outstanding.push k n, waiting := s.waiting.push k n }
  | receive (n : Nat) (h : s.received ≤ n) : Step s { s with received := n }
  | accept (k n : Nat) (rest : List Nat) (hk : k ∉ s.abandoned) (h : s.waiting k = n :: rest)
    (hn : n ≤ s.received) : Step s
    { s with waiting := s.waiting.pop k, messages := s.messages ++ [.confirm k] }
  | abandon (k : Nat) : Step s
    { s with
      waiting := s.waiting.clear k
      messages := s.messages ++ [.abandon k]
      abandoned := k :: s.abandoned }
  | report (n : Nat) (h : s.reported + n ≤ s.received) : Step s
    { s with messages := s.messages ++ [.advance n], reported := s.reported + n }
  | confirmed (k n : Nat) (rest : List Nat) (ms : List Message)
    (hm : s.messages = .confirm k :: ms) (h : s.outstanding k = n :: rest) : Step s
    { s with outstanding := s.outstanding.pop k, messages := ms, known := max s.known n }
  | forgotten (k : Nat) (ms : List Message) (hm : s.messages = .abandon k :: ms) : Step s
    { s with outstanding := s.outstanding.clear k, messages := ms }
  | advanced (n : Nat) (ms : List Message) (hm : s.messages = .advance n :: ms) : Step s
    { s with messages := ms, known := max s.known (s.told + n), told := s.told + n }

/-- How many confirmations of a key are on their way. -/
def State.confirming (s : State) (k : Nat) : Nat := s.messages.count (Message.confirm k)

/-- The confirmations that are on their way are for the first numbers of their key. -/
structure Inv (s : State) : Prop where
  known_le : s.known ≤ s.received
  told : s.told + (s.messages.map Message.amount).sum = s.reported
  reported_le : s.reported ≤ s.received
  confirming_le : ∀ k, s.confirming k ≤ (s.outstanding k).length
  accepted : ∀ k, ∀ n ∈ (s.outstanding k).take (s.confirming k), n ≤ s.received
  waiting : ∀ k, k ∉ s.abandoned → (s.outstanding k).drop (s.confirming k) = s.waiting k
  last : s.messages.Pairwise fun a b => ∀ k, a = .abandon k → b ≠ .confirm k
  abandoned : ∀ k, .abandon k ∈ s.messages → k ∈ s.abandoned

/-- Nothing was sent yet. -/
theorem Inv.new : Inv ⟨.empty, .empty, [], [], 0, 0, 0, 0⟩ where
  known_le := Nat.le_refl 0
  told := rfl
  reported_le := Nat.le_refl 0
  confirming_le k := Nat.le_refl 0
  accepted k n hn := by cases hn
  waiting k hk := rfl
  last := .nil
  abandoned k hk := by cases hk

/-- What may still be accepted is outstanding. -/
theorem Inv.outstanding {s : State} (h : Inv s) {k n : Nat} (hk : k ∉ s.abandoned)
    (hn : n ∈ s.waiting k) : n ∈ s.outstanding k := by
  rw [← h.waiting k hk] at hn
  exact List.mem_of_mem_drop hn

namespace State

variable {s : State}

theorem confirming_append (m : Message) (k : Nat) :
    (s.messages ++ [m]).count (Message.confirm k) =
      s.confirming k + if m = .confirm k then 1 else 0 := by
  rw [List.count_append, List.count_singleton, confirming]
  simp only [beq_iff_eq]

theorem confirming_of_cons {m : Message} {ms : List Message} (h : s.messages = m :: ms) (k : Nat) :
    s.confirming k = ms.count (Message.confirm k) + if m = .confirm k then 1 else 0 := by
  rw [confirming, h, List.count_cons]
  simp only [beq_iff_eq]

end State

/-! ## Every step keeps the invariant -/

section Steps

variable {s : State} (h : Inv s)

include h

theorem Inv.send (k n : Nat) :
    Inv { s with outstanding := s.outstanding.push k n, waiting := s.waiting.push k n } where
  known_le := h.known_le
  told := h.told
  reported_le := h.reported_le
  confirming_le j := by
    have hle := h.confirming_le j
    by_cases hj : j = k
    · simp only [Queues.push, hj, if_true, List.length_append]
      subst hj
      exact hle.trans (Nat.le_add_right _ _)
    · simp only [Queues.push, hj, if_false]
      exact hle
  accepted j m hm := by
    have hle := h.confirming_le j
    by_cases hj : j = k
    · simp only [Queues.push, hj, if_true] at hm
      subst hj
      change m ∈ (s.outstanding j ++ [n]).take (s.confirming j) at hm
      rw [List.take_append_of_le_length hle] at hm
      exact h.accepted j m hm
    · simp only [Queues.push, hj, if_false] at hm
      exact h.accepted j m hm
  waiting j hj := by
    have hwaiting := h.waiting j hj
    have hle := h.confirming_le j
    by_cases hk : j = k
    · simp only [Queues.push, hk, if_true]
      subst hk
      show (s.outstanding j ++ [n]).drop (s.confirming j) = _
      rw [List.drop_append_of_le_length hle, hwaiting]
    · simp only [Queues.push, hk, if_false]
      exact hwaiting
  last := h.last
  abandoned := h.abandoned

theorem Inv.receive {n : Nat} (hn : s.received ≤ n) : Inv { s with received := n } where
  known_le := h.known_le.trans hn
  told := h.told
  reported_le := h.reported_le.trans hn
  confirming_le := h.confirming_le
  accepted k m hm := (h.accepted k m hm).trans hn
  waiting := h.waiting
  last := h.last
  abandoned := h.abandoned

theorem Inv.accept {k n : Nat} {rest : List Nat} (hk : k ∉ s.abandoned)
    (hwaiting : s.waiting k = n :: rest) (hn : n ≤ s.received) :
    Inv { s with waiting := s.waiting.pop k, messages := s.messages ++ [.confirm k] } := by
  have hdrop := (h.waiting k hk).trans hwaiting
  have hlt : s.confirming k < (s.outstanding k).length := by
    by_contra hge
    rw [List.drop_eq_nil_of_le (Nat.le_of_not_lt hge)] at hdrop
    cases hdrop
  have hconfirming : ∀ j, (s.messages ++ [Message.confirm k]).count (Message.confirm j) =
      s.confirming j + if k = j then 1 else 0 := by
    intro j
    rw [State.confirming_append]
    simp only [Message.confirm.injEq]
  refine ⟨h.known_le, ?_, h.reported_le, ?_, ?_, ?_, ?_, ?_⟩
  · simp only [List.map_append, List.sum_append]
    exact h.told
  · intro j
    have hle := h.confirming_le j
    show (s.messages ++ [Message.confirm k]).count (Message.confirm j) ≤ _
    rw [hconfirming]
    by_cases hj : k = j
    · subst hj
      rw [if_pos rfl]
      exact hlt
    · rw [if_neg hj]
      exact hle
  · intro j m hm
    change m ∈ (s.outstanding j).take
      ((s.messages ++ [Message.confirm k]).count (Message.confirm j)) at hm
    rw [hconfirming] at hm
    by_cases hj : k = j
    · subst hj
      rw [if_pos rfl, List.take_add_one, List.mem_append] at hm
      rcases hm with hm | hm
      · exact h.accepted k m hm
      · -- the number that is confirmed now
        have hhead : (s.outstanding k)[s.confirming k]? = some n := by
          rw [← List.head?_drop, hdrop]
          rfl
        rw [hhead] at hm
        cases List.mem_singleton.mp hm
        exact hn
    · rw [if_neg hj] at hm
      exact h.accepted j m hm
  · intro j hj
    have hsame := h.waiting j hj
    show (s.outstanding j).drop ((s.messages ++ [Message.confirm k]).count (Message.confirm j)) = _
    rw [hconfirming]
    by_cases hkj : k = j
    · subst hkj
      rw [if_pos rfl, ← List.tail_drop, hsame]
      simp only [Queues.pop, if_true]
    · rw [if_neg hkj, Nat.add_zero, hsame]
      simp only [Queues.pop, Ne.symm hkj, if_false]
  · refine List.pairwise_append.mpr ⟨h.last, List.pairwise_singleton _ _, ?_⟩
    intro a ha b hb j hab hconfirm
    rw [List.mem_singleton.mp hb] at hconfirm
    cases hconfirm
    exact hk (h.abandoned k (hab ▸ ha))
  · intro j hj
    rcases List.mem_append.mp hj with hj | hj
    · exact h.abandoned j hj
    · cases List.mem_singleton.mp hj

theorem Inv.abandon (k : Nat) :
    Inv { s with
      waiting := s.waiting.clear k
      messages := s.messages ++ [.abandon k]
      abandoned := k :: s.abandoned } := by
  have hconfirming : ∀ j,
      (s.messages ++ [Message.abandon k]).count (Message.confirm j) = s.confirming j := by
    intro j
    rw [State.confirming_append]
    rfl
  refine ⟨h.known_le, ?_, h.reported_le, ?_, ?_, ?_, ?_, ?_⟩
  · simp only [List.map_append, List.sum_append]
    exact h.told
  · intro j
    exact (hconfirming j).trans_le (h.confirming_le j)
  · intro j m hm
    change m ∈ (s.outstanding j).take
      ((s.messages ++ [Message.abandon k]).count (Message.confirm j)) at hm
    rw [hconfirming] at hm
    exact h.accepted j m hm
  · intro j hj
    obtain ⟨hne, hj⟩ := not_or.mp (List.mem_cons.not.mp hj)
    show (s.outstanding j).drop ((s.messages ++ [Message.abandon k]).count (Message.confirm j)) = _
    rw [hconfirming, h.waiting j hj]
    simp only [Queues.clear, hne, if_false]
  · refine List.pairwise_append.mpr ⟨h.last, List.pairwise_singleton _ _, ?_⟩
    intro a ha b hb j hab hconfirm
    rw [List.mem_singleton.mp hb] at hconfirm
    cases hconfirm
  · intro j hj
    rcases List.mem_append.mp hj with hj | hj
    · exact List.mem_cons_of_mem k (h.abandoned j hj)
    · cases List.mem_singleton.mp hj
      exact List.mem_cons_self

theorem Inv.report {n : Nat} (hn : s.reported + n ≤ s.received) :
    Inv { s with messages := s.messages ++ [.advance n], reported := s.reported + n } := by
  have hconfirming : ∀ j,
      (s.messages ++ [Message.advance n]).count (Message.confirm j) = s.confirming j := by
    intro j
    rw [State.confirming_append]
    rfl
  refine ⟨h.known_le, ?_, hn, ?_, ?_, ?_, ?_, ?_⟩
  · have htold := h.told
    simp only [List.map_append, List.sum_append, List.map_singleton, List.sum_singleton,
      Message.amount]
    omega
  · intro j
    exact (hconfirming j).trans_le (h.confirming_le j)
  · intro j m hm
    change m ∈ (s.outstanding j).take
      ((s.messages ++ [Message.advance n]).count (Message.confirm j)) at hm
    rw [hconfirming] at hm
    exact h.accepted j m hm
  · intro j hj
    exact (congrArg ((s.outstanding j).drop ·) (hconfirming j)).trans (h.waiting j hj)
  · refine List.pairwise_append.mpr ⟨h.last, List.pairwise_singleton _ _, ?_⟩
    intro a ha b hb j hab hconfirm
    rw [List.mem_singleton.mp hb] at hconfirm
    cases hconfirm
  · intro j hj
    rcases List.mem_append.mp hj with hj | hj
    · exact h.abandoned j hj
    · cases List.mem_singleton.mp hj

theorem Inv.confirmed {k n : Nat} {rest : List Nat} {ms : List Message}
    (hm : s.messages = .confirm k :: ms) (hout : s.outstanding k = n :: rest) :
    Inv { s with outstanding := s.outstanding.pop k, messages := ms, known := max s.known n } := by
  have hconfirming : ∀ j,
      s.confirming j = ms.count (Message.confirm j) + if k = j then 1 else 0 := by
    intro j
    rw [State.confirming_of_cons hm]
    simp only [Message.confirm.injEq]
  have htail : ∀ j, j ≠ k → (s.outstanding.pop k) j = s.outstanding j := by
    intro j hj
    simp only [Queues.pop, hj, if_false]
  have hfirst : (s.outstanding.pop k) k = rest := by
    simp only [Queues.pop, if_true, hout, List.tail_cons]
  have hk := hconfirming k
  rw [if_pos rfl] at hk
  have hn : n ≤ s.received := by
    apply h.accepted k n
    rw [hout, hk, List.take_succ_cons]
    exact List.mem_cons_self
  refine ⟨Nat.max_le.mpr ⟨h.known_le, hn⟩, ?_, h.reported_le, ?_, ?_, ?_, ?_, ?_⟩
  · have htold := h.told
    rw [hm, List.map_cons, List.sum_cons, Message.amount, Nat.zero_add] at htold
    exact htold
  · intro j
    have hle := h.confirming_le j
    show ms.count (Message.confirm j) ≤ ((s.outstanding.pop k) j).length
    by_cases hj : j = k
    · subst hj
      rw [hout, List.length_cons] at hle
      rw [hfirst]
      omega
    · have hj' := hconfirming j
      rw [if_neg (Ne.symm hj)] at hj'
      rw [htail j hj]
      omega
  · intro j m hmem
    change m ∈ ((s.outstanding.pop k) j).take (ms.count (Message.confirm j)) at hmem
    apply h.accepted j m
    by_cases hj : j = k
    · subst hj
      rw [hfirst] at hmem
      rw [hout, hk, List.take_succ_cons]
      exact List.mem_cons_of_mem n hmem
    · have hj' := hconfirming j
      rw [if_neg (Ne.symm hj), Nat.add_zero] at hj'
      rw [htail j hj] at hmem
      rw [hj']
      exact hmem
  · intro j hj
    have hsame := h.waiting j hj
    show ((s.outstanding.pop k) j).drop (ms.count (Message.confirm j)) = s.waiting j
    by_cases hjk : j = k
    · subst hjk
      rw [hout, hk, List.drop_succ_cons] at hsame
      rw [hfirst, hsame]
    · have hj' := hconfirming j
      rw [if_neg (Ne.symm hjk), Nat.add_zero] at hj'
      rw [hj'] at hsame
      rw [htail j hjk, hsame]
  · have hlast := h.last
    rw [hm] at hlast
    exact (List.pairwise_cons.mp hlast).2
  · intro j hj
    exact h.abandoned j (hm ▸ List.mem_cons_of_mem _ hj)

theorem Inv.forgotten {k : Nat} {ms : List Message} (hm : s.messages = .abandon k :: ms) :
    Inv { s with outstanding := s.outstanding.clear k, messages := ms } := by
  have hlast := h.last
  rw [hm, List.pairwise_cons] at hlast
  have hconfirming : ∀ j, s.confirming j = ms.count (Message.confirm j) := by
    intro j
    rw [State.confirming_of_cons hm]
    rfl
  -- a key is abandoned after its last confirmation
  have hnone : ms.count (Message.confirm k) = 0 := by
    apply List.count_eq_zero_of_not_mem
    intro hmem
    exact hlast.1 _ hmem k rfl rfl
  have hother : ∀ j, j ≠ k → (s.outstanding.clear k) j = s.outstanding j := by
    intro j hj
    simp only [Queues.clear, hj, if_false]
  refine ⟨h.known_le, ?_, h.reported_le, ?_, ?_, ?_, hlast.2, ?_⟩
  · have htold := h.told
    rw [hm, List.map_cons, List.sum_cons, Message.amount, Nat.zero_add] at htold
    exact htold
  · intro j
    show ms.count (Message.confirm j) ≤ ((s.outstanding.clear k) j).length
    by_cases hj : j = k
    · rw [hj, hnone]
      exact Nat.zero_le _
    · rw [hother j hj, ← hconfirming]
      exact h.confirming_le j
  · intro j m hmem
    change m ∈ ((s.outstanding.clear k) j).take (ms.count (Message.confirm j)) at hmem
    by_cases hj : j = k
    · rw [hj, hnone] at hmem
      cases hmem
    · rw [hother j hj, ← hconfirming] at hmem
      exact h.accepted j m hmem
  · intro j hj
    show ((s.outstanding.clear k) j).drop (ms.count (Message.confirm j)) = s.waiting j
    have hne : j ≠ k := by
      rintro rfl
      exact hj (h.abandoned j (hm ▸ List.mem_cons_self))
    rw [hother j hne, ← hconfirming]
    exact h.waiting j hj
  · intro j hj
    exact h.abandoned j (hm ▸ List.mem_cons_of_mem _ hj)

theorem Inv.advanced {n : Nat} {ms : List Message} (hm : s.messages = .advance n :: ms) :
    Inv { s with messages := ms, known := max s.known (s.told + n), told := s.told + n } := by
  have htold := h.told
  rw [hm, List.map_cons, List.sum_cons, Message.amount] at htold
  have hreported := h.reported_le
  have hknown := h.known_le
  have hlast := h.last
  rw [hm, List.pairwise_cons] at hlast
  have hconfirming : ∀ j, s.confirming j = ms.count (Message.confirm j) := by
    intro j
    rw [State.confirming_of_cons hm]
    rfl
  have htotal : s.told + n ≤ s.received := by omega
  refine ⟨Nat.max_le.mpr ⟨hknown, htotal⟩, ?_, hreported, ?_, ?_, ?_, hlast.2, ?_⟩
  · rw [← htold, Nat.add_assoc]
  · intro j
    exact (hconfirming j).symm.trans_le (h.confirming_le j)
  · intro j m hmem
    change m ∈ (s.outstanding j).take (ms.count (Message.confirm j)) at hmem
    rw [← hconfirming] at hmem
    exact h.accepted j m hmem
  · intro j hj
    exact (congrArg ((s.outstanding j).drop ·) (hconfirming j).symm).trans (h.waiting j hj)
  · intro j hj
    exact h.abandoned j (hm ▸ List.mem_cons_of_mem _ hj)

end Steps

theorem Inv.step {s s' : State} (h : Inv s) (hstep : Step s s') : Inv s' := by
  cases hstep with
  | send k n => exact h.send k n
  | receive n hn => exact h.receive hn
  | accept k n rest hk hwaiting hn => exact h.accept hk hwaiting hn
  | abandon k => exact h.abandon k
  | report n hn => exact h.report hn
  | confirmed k n rest ms hm hout => exact h.confirmed hm hout
  | forgotten k ms hm => exact h.forgotten hm
  | advanced n ms hm => exact h.advanced hm

end Feedback
