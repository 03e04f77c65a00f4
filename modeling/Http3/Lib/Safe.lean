import Http3.Lib.Proc

/-!
# Errors that cannot happen

`Safe bad I x` says that `x`, started where the invariant `I` holds, keeps it and does not end
with an error of `bad`. The rules follow the constructors of a procedure, as those for `Keeps`
do; what is read from the state is known to satisfy the invariant.
-/

namespace Proc

variable {ε ω σ τ α β : Type}

def Safe (bad : ε → Prop) (I : σ → Prop) (x : Proc ε ω σ α) : Prop :=
  ∀ s, I s → I (x s).st ∧ ∀ e, (x s).val = .error e → ¬bad e

section Rules

variable {bad : ε → Prop} {I : σ → Prop}

/-- The rest may use what is known of the result. -/
theorem Safe.bind_of {P : α → Prop} {x : Proc ε ω σ α} {f : α → Proc ε ω σ β}
    (hx : Safe bad I x) (hP : ∀ s a, (x s).val = .ok a → P a)
    (hf : ∀ a, P a → Safe bad I (f a)) : Safe bad I (x >>= f) := by
  intro s hs
  rw [bind_run]
  have ha := hP s
  obtain ⟨hi, he⟩ := hx s hs
  rcases hxs : x s with ⟨v, t, o⟩
  rw [hxs] at ha hi he
  cases v with
  | error e => exact ⟨hi, fun e' h' => he e' (by cases h'; rfl)⟩
  | ok a => exact hf a (ha a rfl) t hi

@[grind ←] theorem Safe.bind {x : Proc ε ω σ α} {f : α → Proc ε ω σ β} (hx : Safe bad I x)
    (hf : ∀ a, Safe bad I (f a)) : Safe bad I (x >>= f) :=
  Safe.bind_of (P := fun _ => True) hx (fun _ _ _ => trivial) fun a _ => hf a

@[grind ←] theorem Safe.ret (a : α) : Safe bad I (ret a : Proc ε ω σ α) :=
  fun _ hs => ⟨hs, fun _ h => by cases h⟩

@[grind ←] theorem Safe.throw {e : ε} (h : ¬bad e) : Safe bad I (throw e : Proc ε ω σ α) :=
  fun _ hs => ⟨hs, fun _ h' => by cases h'; exact h⟩

@[grind ←] theorem Safe.ofExcept {r : Except ε α} (h : ∀ e, r = .error e → ¬bad e) :
    Safe bad I (ofExcept r : Proc ε ω σ α) := by
  intro s hs
  rw [ofExcept_run]
  exact ⟨hs, h⟩

/-- Failing first: the rest may use what was checked. -/
theorem Safe.ofExcept_bind {r : Except ε α} {f : α → Proc ε ω σ β}
    (h : ∀ e, r = .error e → ¬bad e) (hf : ∀ a, r = .ok a → Safe bad I (f a)) :
    Safe bad I (Proc.ofExcept r >>= f) := by
  cases r with
  | ok a => exact hf a rfl
  | error e => exact Safe.throw (h e rfl)

@[grind ←] theorem Safe.get : Safe bad I (Proc.get : Proc ε ω σ σ) :=
  fun _ hs => ⟨hs, fun _ h => by cases h⟩

/-- The state that is read satisfies the invariant. -/
@[grind ←] theorem Safe.get_bind {f : σ → Proc ε ω σ β} (h : ∀ s, I s → Safe bad I (f s)) :
    Safe bad I (Proc.get >>= f) := fun s hs => h s hs s hs

@[grind ←] theorem Safe.modify {f : σ → σ} (h : ∀ s, I s → I (f s)) :
    Safe bad I (modify f : Proc ε ω σ Unit) := fun s hs => ⟨h s hs, fun _ h' => by cases h'⟩

@[grind ←] theorem Safe.emit (w : ω) : Safe bad I (emit w : Proc ε ω σ Unit) :=
  fun _ hs => ⟨hs, fun _ h => by cases h⟩

@[grind ←] theorem Safe.emitAll (l : List ω) : Safe bad I (emitAll l : Proc ε ω σ Unit) :=
  fun _ hs => ⟨hs, fun _ h => by cases h⟩

theorem Safe.ite {c : Prop} [Decidable c] {x y : Proc ε ω σ α} (hx : c → Safe bad I x)
    (hy : ¬c → Safe bad I y) : Safe bad I (if c then x else y) := by
  split
  · exact hx ‹_›
  · exact hy ‹_›

/-- A failure is handed over as a value. -/
theorem Safe.attempt {x : Proc ε ω σ α} (h : Safe bad I x) {f : Except ε α → Proc ε ω σ β}
    (hf : ∀ r, (∀ e, r = .error e → ¬bad e) → Safe bad I (f r)) :
    Safe bad I (attempt x >>= f) := by
  intro s hs
  obtain ⟨hi, he⟩ := h s hs
  rw [bind_run, attempt_run]
  exact hf (x s).val he (x s).st hi

@[grind ←] theorem Safe.loop {body : Proc ε ω σ Bool} (h : Safe bad I body) (fuel : Nat) :
    Safe bad I (loop body fuel) := by
  induction fuel with
  | zero => exact .ret _
  | succ fuel ih => exact h.bind fun again => .ite (fun _ => ih) fun _ => .ret _

@[grind ←] theorem Safe.each {body : α → Proc ε ω σ Unit} (l : List α)
    (h : ∀ a ∈ l, Safe bad I (body a)) : Safe bad I (each l body) := by
  induction l with
  | nil => exact .ret _
  | cons a l ih =>
    exact (h a List.mem_cons_self).bind fun _ => ih fun b hb => h b (List.mem_cons_of_mem a hb)

/-- A procedure on a part of the state, whose invariant is part of the whole one. -/
theorem Safe.zoom {J : τ → Prop} {part : σ → τ} {put : τ → σ → σ} {x : Proc ε ω τ α}
    (hpart : ∀ s, I s → J (part s)) (hput : ∀ t s, J t → I s → I (put t s))
    (h : Safe bad J x) : Safe bad I (zoom part put x) := by
  intro s hs
  rw [zoom_run]
  obtain ⟨hj, he⟩ := h (part s) (hpart s hs)
  exact ⟨hput _ _ hj hs, he⟩

/-- Without any error there is a result. -/
theorem Safe.succeeds {I : σ → Prop} {x : Proc ε ω σ α} (h : Safe (fun _ => True) I x) {s : σ}
    (hs : I s) : ∃ a, (x s).val = .ok a := by
  obtain ⟨_, herror⟩ := h s hs
  cases hx : (x s).val with
  | ok a => exact ⟨a, rfl⟩
  | error e => exact absurd trivial (herror e hx)

/-! ## From one invariant to another -/

/-- As `Safe`, but what holds at the end may be another invariant. -/
def Leads (bad : ε → Prop) (I J : σ → Prop) (x : Proc ε ω σ α) : Prop :=
  ∀ s, I s → J (x s).st ∧ ∀ e, (x s).val = .error e → ¬bad e

section Leads

variable {J : σ → Prop}

theorem Leads.of_safe {x : Proc ε ω σ α} (h : Safe bad I x) (hIJ : ∀ s, I s → J s) :
    Leads bad I J x := fun s hs => ⟨hIJ _ (h s hs).1, (h s hs).2⟩

theorem Leads.modify {f : σ → σ} (h : ∀ s, I s → J (f s)) :
    Leads bad I J (modify f : Proc ε ω σ Unit) := fun s hs => ⟨h s hs, fun _ h' => by cases h'⟩

theorem Leads.bind {x : Proc ε ω σ α} {f : α → Proc ε ω σ β} (hIJ : ∀ s, I s → J s)
    (hx : Safe bad I x) (hf : ∀ a, Leads bad I J (f a)) : Leads bad I J (x >>= f) := by
  intro s hs
  rw [bind_run]
  obtain ⟨hi, he⟩ := hx s hs
  rcases hxs : x s with ⟨v, t, o⟩
  rw [hxs] at hi he
  cases v with
  | error e => exact ⟨hIJ t hi, fun e' h' => he e' (by cases h'; rfl)⟩
  | ok a => exact hf a t hi

/-- What is read may narrow the invariant down. -/
theorem Leads.get_bind {f : σ → Proc ε ω σ β}
    (h : ∀ s, I s → ∃ K : σ → Prop, K s ∧ Leads bad K J (f s)) :
    Leads bad I J (Proc.get >>= f) := by
  intro s hs
  obtain ⟨K, hK, hf⟩ := h s hs
  exact hf s hK

theorem Leads.modify_bind {K : σ → Prop} {f : σ → σ} {k : Unit → Proc ε ω σ β}
    (h : ∀ s, I s → K (f s)) (hk : Leads bad K J (k ())) :
    Leads bad I J (Proc.modify f >>= k) := fun s hs => hk (f s) (h s hs)

theorem Leads.ofExcept_bind {r : Except ε α} {f : α → Proc ε ω σ β} (hIJ : ∀ s, I s → J s)
    (h : ∀ e, r = .error e → ¬bad e) (hf : ∀ a, r = .ok a → Leads bad I J (f a)) :
    Leads bad I J (Proc.ofExcept r >>= f) := by
  cases r with
  | ok a => exact hf a rfl
  | error e => exact .of_safe (.throw (h e rfl)) hIJ

/-- The result in another form. -/
theorem Leads.map {x : Proc ε ω σ α} (h : Leads bad I J x) (g : α → β) :
    Leads bad I J (x >>= fun a => Proc.ret (g a)) := by
  intro s hs
  obtain ⟨hj, he⟩ := h s hs
  rw [bind_run]
  rcases hxs : x s with ⟨v, t, o⟩
  rw [hxs] at hj he
  cases v with
  | error e => exact ⟨hj, fun e' h' => he e' (by cases h'; rfl)⟩
  | ok a => exact ⟨hj, fun _ h' => by cases h'⟩

/-- A run that leads back to the invariant keeps it. -/
theorem Safe.of_leads {x : Proc ε ω σ α} (h : Leads bad I I x) : Safe bad I x := h

end Leads

end Rules

end Proc
