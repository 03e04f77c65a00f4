import Http3.Lib.Proc

/-!
# Relations that see the error

As `Keeps`, but the relation is told which error a run ended with. `Tracks R s x` says that the run
of `x` from `s` stays inside `R`; the rules follow the constructors of a procedure.
-/

namespace Proc

variable {ε ω σ α β : Type}

/-- A relation on runs: start, output, error, end. -/
abbrev Track (ε ω σ : Type) := σ → List ω → Option ε → σ → Prop

/-- The error that a result is, if it is one. -/
def failure : Except ε α → Option ε
  | .ok _ => none
  | .error e => some e

@[simp] theorem failure_ok (a : α) : failure (.ok a : Except ε α) = none := rfl

@[simp] theorem failure_error (e : ε) : failure (.error e : Except ε α) = some e := rfl

/-- `R` holds of doing nothing, of failing at once, and of a success followed by another run. -/
structure Chains (R : Track ε ω σ) : Prop where
  refl : ∀ s e, R s [] e s
  trans : ∀ {s t u o o' e}, R s o none t → R t o' e u → R s (o ++ o') e u

/-- The run of `x` from `s` stays inside `R`. -/
def Tracks (R : Track ε ω σ) (s : σ) (x : Proc ε ω σ α) : Prop :=
  R s (x s).out (failure (x s).val) (x s).st

section Rules

variable {R : Track ε ω σ} {s : σ}

theorem Tracks.bind (hR : Chains R) {x : Proc ε ω σ α} {f : α → Proc ε ω σ β}
    (hx : Tracks R s x) (hf : ∀ a, (x s).val = .ok a → Tracks R (x s).st (f a)) :
    Tracks R s (x >>= f) := by
  unfold Tracks at *
  rw [bind_run]
  rcases hxs : x s with ⟨v, t, o⟩
  rw [hxs] at hx hf
  cases v with
  | error e => exact hx
  | ok a => exact hR.trans hx (hf a rfl)

theorem Tracks.ret (hR : Chains R) (a : α) : Tracks R s (ret a : Proc ε ω σ α) := hR.refl s none

theorem Tracks.throw (hR : Chains R) (e : ε) : Tracks R s (throw e : Proc ε ω σ α) :=
  hR.refl s (some e)

theorem Tracks.get_bind {f : σ → Proc ε ω σ β} (h : Tracks R s (f s)) :
    Tracks R s (Proc.get >>= f) := h

theorem Tracks.modify {f : σ → σ} (h : R s [] none (f s)) :
    Tracks R s (Proc.modify f : Proc ε ω σ Unit) := h

theorem Tracks.modify_bind (hR : Chains R) {f : σ → σ} {k : Unit → Proc ε ω σ β}
    (h : R s [] none (f s)) (hk : Tracks R (f s) (k ())) : Tracks R s (Proc.modify f >>= k) :=
  hR.trans h hk

theorem Tracks.emit_bind (hR : Chains R) {w : ω} {k : Unit → Proc ε ω σ β}
    (h : R s [w] none s) (hk : Tracks R s (k ())) : Tracks R s (Proc.emit w >>= k) :=
  Tracks.bind hR (x := Proc.emit w) h fun _ _ => hk

theorem Tracks.ofExcept_bind (hR : Chains R) {r : Except ε α} {f : α → Proc ε ω σ β}
    (hf : ∀ a, r = .ok a → Tracks R s (f a)) : Tracks R s (Proc.ofExcept r >>= f) := by
  cases r with
  | ok a => exact hf a rfl
  | error e => exact hR.refl s (some e)

/-- A clean-up that runs whether or not `x` fails; the failure is passed on after it. -/
theorem Tracks.attempt {S : Track ε ω σ}
    (hclean : ∀ {s t u o e}, R s o e t → S t [] none u → R s o e u)
    {x : Proc ε ω σ α} {f : σ → σ} (hx : Tracks R s x) (hf : ∀ t, S t [] none (f t)) :
    Tracks R s (Proc.attempt x >>= fun r => Proc.modify f >>= fun _ => Proc.ofExcept r) := by
  have h := hclean hx (hf (x s).st)
  unfold Tracks
  rw [bind_run, attempt_run]
  simp only [Proc.modify_bind, ofExcept_run, List.append_nil]
  exact h

/-- Rounds from wherever the rounds before them led. -/
theorem Tracks.loop (hR : Chains R) {body : Proc ε ω σ Bool} (h : ∀ s, Tracks R s body)
    (fuel : Nat) : Tracks R s (loop body fuel) := by
  induction fuel generalizing s with
  | zero => exact .ret hR ()
  | succ fuel ih =>
    refine .bind hR (h s) fun again _ => ?_
    cases again with
    | true => exact ih
    | false => exact .ret hR ()

theorem Tracks.each (hR : Chains R) {body : α → Proc ε ω σ Unit} (l : List α)
    (h : ∀ a ∈ l, ∀ s, Tracks R s (body a)) : Tracks R s (each l body) := by
  induction l generalizing s with
  | nil => exact .ret hR ()
  | cons a l ih =>
    refine .bind hR (h a List.mem_cons_self s) fun _ _ => ?_
    exact ih fun b hb => h b (List.mem_cons_of_mem a hb)

/-- A relation that does not look at the error. -/
theorem Tracks.of_keeps {S : Flow ω σ} (hS : ∀ {t o b u}, S t o b u → R t o none u)
    (he : ∀ {t o e u}, R t o none u → R t o (some e) u) {x : Proc ε ω σ α} (h : KeepsAt S s x) :
    Tracks R s x := by
  have hnone := hS h
  unfold Tracks
  cases (x s).val with
  | ok a => exact hnone
  | error e => exact he hnone

end Rules

end Proc
