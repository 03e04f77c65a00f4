import Mathlib.Data.List.Basic

/-!
# Consumers of a growing buffer

A consumer has a state and looks at what has arrived: it waits for more, fails, or takes some of it
and goes on. When every answer but waiting stays as the buffer grows, where a stream was cut makes
no difference to the state that the consumer ends in (`Consumer.feed_pieces`).
-/

/-- What a consumer does with what it sees. -/
inductive Consumer.Answer (ε σ : Type) where
  | wait
  | fail (e : ε) (s : σ)
  | take (n : Nat) (s : σ)

abbrev Consumer (ε σ α : Type) : Type := σ → List α → Consumer.Answer ε σ

namespace Consumer

variable {ε σ α : Type}

/-- How far a consumer came. -/
structure Progress (ε σ α : Type) where
  state : σ
  rest : List α
  failure : Option ε

structure Stable (f : Consumer ε σ α) : Prop where
  bounds : ∀ {s buf n t}, f s buf = .take n t → 0 < n ∧ n ≤ buf.length
  append : ∀ {s buf}, f s buf ≠ .wait → ∀ more, f s (buf ++ more) = f s buf

/-- At most `fuel` answers; what was not taken when it fails is dropped. -/
def runWith (f : Consumer ε σ α) : Nat → σ → List α → Progress ε σ α
  | 0, s, buf => ⟨s, buf, none⟩
  | fuel + 1, s, buf =>
    match f s buf with
    | .wait => ⟨s, buf, none⟩
    | .fail e t => ⟨t, [], some e⟩
    | .take n t => f.runWith fuel t (buf.drop n)

/-- Until it waits or fails. -/
def run (f : Consumer ε σ α) (s : σ) (buf : List α) : Progress ε σ α :=
  f.runWith (buf.length + 1) s buf

/-- Something arrives; after a failure nothing matters. -/
def feed (f : Consumer ε σ α) (p : Progress ε σ α) (data : List α) : Progress ε σ α :=
  match p.failure with
  | some _ => p
  | none => f.run p.state (p.rest ++ data)

section Run

variable {f : Consumer ε σ α} {s t : σ} {buf : List α} {n : Nat} {e : ε}

theorem run_wait (h : f s buf = .wait) : f.run s buf = ⟨s, buf, none⟩ := by
  simp only [run, runWith, h]

theorem run_fail (h : f s buf = .fail e t) : f.run s buf = ⟨t, [], some e⟩ := by
  simp only [run, runWith, h]

variable (hf : f.Stable)

include hf

theorem runWith_fuel (fuel fuel' : Nat) (s : σ) (buf : List α) (h : buf.length < fuel)
    (h' : buf.length < fuel') : f.runWith fuel s buf = f.runWith fuel' s buf := by
  induction fuel generalizing fuel' s buf with
  | zero => exact absurd h (Nat.not_lt_zero _)
  | succ fuel ih =>
    cases fuel' with
    | zero => exact absurd h' (Nat.not_lt_zero _)
    | succ fuel' =>
      simp only [runWith]
      cases hanswer : f s buf with
      | wait => rfl
      | fail e t => rfl
      | take n t =>
        have hn := hf.bounds hanswer
        have hdrop : (buf.drop n).length = buf.length - n := List.length_drop
        exact ih fuel' t (buf.drop n) (by omega) (by omega)

theorem run_take (h : f s buf = .take n t) : f.run s buf = f.run t (buf.drop n) := by
  have hn := hf.bounds h
  have hdrop : (buf.drop n).length = buf.length - n := List.length_drop
  simp only [run, runWith, h]
  exact runWith_fuel hf buf.length ((buf.drop n).length + 1) t (buf.drop n) (by omega) (by omega)

/-- Every run is built from its answers. -/
theorem run_induct {P : σ → List α → Progress ε σ α → Prop}
    (wait : ∀ s buf, f s buf = .wait → P s buf ⟨s, buf, none⟩)
    (fail : ∀ s buf e t, f s buf = .fail e t → P s buf ⟨t, [], some e⟩)
    (take : ∀ s buf n t, f s buf = .take n t → P t (buf.drop n) (f.run t (buf.drop n)) →
      P s buf (f.run t (buf.drop n)))
    (s : σ) (buf : List α) : P s buf (f.run s buf) := by
  induction hlen : buf.length using Nat.strongRecOn generalizing s buf with
  | ind len ih =>
    cases hanswer : f s buf with
    | wait =>
      rw [run_wait hanswer]
      exact wait s buf hanswer
    | fail e t =>
      rw [run_fail hanswer]
      exact fail s buf e t hanswer
    | take n t =>
      have hn := hf.bounds hanswer
      have hdrop : (buf.drop n).length = buf.length - n := List.length_drop
      rw [run_take hf hanswer]
      exact take s buf n t hanswer (ih _ (by omega) t (buf.drop n) rfl)

/-- What is left is waited for. -/
theorem run_rest (s : σ) (buf : List α) (h : (f.run s buf).failure = none) :
    f (f.run s buf).state (f.run s buf).rest = .wait := by
  refine run_induct hf (P := fun _ _ p => p.failure = none → f p.state p.rest = .wait)
    ?_ ?_ ?_ s buf h
  · intro s buf hwait _
    exact hwait
  · intro s buf e t _ h
    cases h
  · intro s buf n t _ ih
    exact ih

theorem run_append (s : σ) (buf more : List α) :
    f.run s (buf ++ more) = f.feed (f.run s buf) more := by
  refine run_induct hf (P := fun s buf p => f.run s (buf ++ more) = f.feed p more) ?_ ?_ ?_ s buf
  · intro s buf _
    rfl
  · intro s buf e t hfail
    exact run_fail ((hf.append (by rw [hfail]; exact nofun) more).trans hfail)
  · intro s buf n t htake ih
    have hmore := (hf.append (by rw [htake]; exact nofun) more).trans htake
    rw [run_take hf hmore, List.drop_append_of_le_length (hf.bounds htake).2]
    exact ih

theorem feed_append (p : Progress ε σ α) (data more : List α) :
    f.feed p (data ++ more) = f.feed (f.feed p data) more := by
  cases hfailure : p.failure with
  | some e => simp only [feed, hfailure]
  | none =>
    simp only [feed, hfailure]
    rw [← List.append_assoc, run_append hf]
    rfl

/-- Where the stream was cut makes no difference. -/
theorem feed_pieces (p : Progress ε σ α) (pieces : List (List α)) (last : List α) :
    f.feed (pieces.foldl f.feed p) last = f.feed p (pieces.flatten ++ last) := by
  induction pieces generalizing p with
  | nil => rfl
  | cons piece pieces ih =>
    rw [List.foldl_cons, ih, List.flatten_cons, List.append_assoc, feed_append hf p piece]

end Run

end Consumer
