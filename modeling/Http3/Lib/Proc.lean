import Mathlib.Logic.Relation

/-!
# Procedures with a state, an output and early exit

`Proc ε ω σ α` is a function on a mutable state `σ` that appends outputs `ω`, may stop early
with an error `ε` and otherwise returns an `α`. An early exit keeps the state and the output
reached so far, as a method on `&mut self` does.

The rules below follow the constructors of a procedure (`pure`, `>>=`, `get`, `modify`, `throw`,
`emit`, `zoom`, a bounded loop). `Keeps R x` says that every run of `x` stays inside the
relation `R`; for a relation closed under composition it is proved piece by piece. The rules are
tagged for `grind`, which takes a procedure apart with them.
-/

/-- What a procedure leaves behind. -/
structure Outcome (ε ω σ α : Type) where
  val : Except ε α
  st : σ
  out : List ω

def Proc (ε ω σ α : Type) : Type := σ → Outcome ε ω σ α

namespace Proc

variable {ε ω σ τ α β : Type}

/-! ## Constructors -/

def ret (a : α) : Proc ε ω σ α := fun s => ⟨.ok a, s, []⟩

def andThen (x : Proc ε ω σ α) (f : α → Proc ε ω σ β) : Proc ε ω σ β := fun s =>
  match x s with
  | ⟨.error e, t, o⟩ => ⟨.error e, t, o⟩
  | ⟨.ok a, t, o⟩ =>
    match f a t with
    | ⟨v, u, o'⟩ => ⟨v, u, o ++ o'⟩

instance : Monad (Proc ε ω σ) where
  pure := ret
  bind := andThen

def get : Proc ε ω σ σ := fun s => ⟨.ok s, s, []⟩

def gets (f : σ → α) : Proc ε ω σ α := fun s => ⟨.ok (f s), s, []⟩

def modify (f : σ → σ) : Proc ε ω σ Unit := fun s => ⟨.ok (), f s, []⟩

def throw (e : ε) : Proc ε ω σ α := fun s => ⟨.error e, s, []⟩

def emit (w : ω) : Proc ε ω σ Unit := fun s => ⟨.ok (), s, [w]⟩

def emitAll (l : List ω) : Proc ε ω σ Unit := fun s => ⟨.ok (), s, l⟩

/-- Run `x` and hand its result over as a value, error or not. -/
def attempt (x : Proc ε ω σ α) : Proc ε ω σ (Except ε α) := fun s =>
  match x s with
  | ⟨v, t, o⟩ => ⟨.ok v, t, o⟩

def ofExcept : Except ε α → Proc ε ω σ α
  | .ok a => ret a
  | .error e => throw e

/-- Run a procedure on a part of the state. -/
def zoom (part : σ → τ) (put : τ → σ → σ) (x : Proc ε ω τ α) : Proc ε ω σ α := fun s =>
  match x (part s) with
  | ⟨v, t, o⟩ => ⟨v, put t s, o⟩

/-- At most `fuel` rounds of `body`; a round answers whether another one follows. -/
def loop (body : Proc ε ω σ Bool) : Nat → Proc ε ω σ Unit
  | 0 => ret ()
  | fuel + 1 => body >>= fun again => if again then loop body fuel else ret ()

/-- `body` on each element in turn. -/
def each (l : List α) (body : α → Proc ε ω σ Unit) : Proc ε ω σ Unit :=
  match l with
  | [] => ret ()
  | a :: l => body a >>= fun _ => each l body

/-! ## Running -/

section Run

variable (s : σ) (x : Proc ε ω σ α) (f : α → Proc ε ω σ β)

@[simp] theorem pure_run (a : α) : (pure a : Proc ε ω σ α) s = ⟨.ok a, s, []⟩ := rfl

@[simp] theorem ret_run (a : α) : (ret a : Proc ε ω σ α) s = ⟨.ok a, s, []⟩ := rfl

theorem bind_run : (x >>= f) s =
    match x s with
    | ⟨.error e, t, o⟩ => ⟨.error e, t, o⟩
    | ⟨.ok a, t, o⟩ => ⟨(f a t).val, (f a t).st, o ++ (f a t).out⟩ := rfl

theorem bind_ok {a : α} {t : σ} {o : List ω} (h : x s = ⟨.ok a, t, o⟩) :
    (x >>= f) s = ⟨(f a t).val, (f a t).st, o ++ (f a t).out⟩ := by
  rw [bind_run, h]

theorem bind_error {e : ε} {t : σ} {o : List ω} (h : x s = ⟨.error e, t, o⟩) :
    (x >>= f) s = ⟨.error e, t, o⟩ := by
  rw [bind_run, h]

/-- A fixed answer behind a procedure adds no output. -/
theorem bind_ret_out (b : β) : ((x >>= fun _ => ret b) s).out = (x s).out := by
  rw [bind_run]
  cases hx : x s with
  | mk v t o =>
    cases v with
    | error e => rfl
    | ok a => exact List.append_nil o

@[simp] theorem get_run : (get : Proc ε ω σ σ) s = ⟨.ok s, s, []⟩ := rfl

@[simp] theorem gets_run (g : σ → α) : (gets g : Proc ε ω σ α) s = ⟨.ok (g s), s, []⟩ := rfl

@[simp] theorem modify_run (g : σ → σ) : (modify g : Proc ε ω σ Unit) s = ⟨.ok (), g s, []⟩ := rfl

@[simp] theorem throw_run (e : ε) : (throw e : Proc ε ω σ α) s = ⟨.error e, s, []⟩ := rfl

@[simp] theorem emit_run (w : ω) : (emit w : Proc ε ω σ Unit) s = ⟨.ok (), s, [w]⟩ := rfl

@[simp] theorem emitAll_run (l : List ω) :
    (emitAll l : Proc ε ω σ Unit) s = ⟨.ok (), s, l⟩ := rfl

@[simp] theorem get_bind (g : σ → Proc ε ω σ β) : (get >>= g) s = g s s := rfl

@[simp] theorem gets_bind (h : σ → α) : (gets h >>= f) s = f (h s) s := rfl

@[simp] theorem modify_bind (g : σ → σ) (k : Unit → Proc ε ω σ β) :
    (modify g >>= k) s = k () (g s) := rfl

@[simp] theorem throw_bind (e : ε) : ((throw e : Proc ε ω σ α) >>= f) s = ⟨.error e, s, []⟩ := rfl

@[simp] theorem ret_bind (a : α) : ((ret a : Proc ε ω σ α) >>= f) s = f a s := rfl

@[simp] theorem pure_bind_run (a : α) : ((pure a : Proc ε ω σ α) >>= f) s = f a s := rfl

@[simp] theorem emit_bind (w : ω) (k : Unit → Proc ε ω σ β) :
    (emit w >>= k) s = ⟨(k () s).val, (k () s).st, w :: (k () s).out⟩ := rfl

@[simp] theorem ite_run (c : Prop) [Decidable c] (y z : Proc ε ω σ α) :
    (if c then y else z) s = if c then y s else z s := by
  split <;> rfl

theorem zoom_run (part : σ → τ) (put : τ → σ → σ) (y : Proc ε ω τ α) :
    zoom part put y s = ⟨(y (part s)).val, put (y (part s)).st s, (y (part s)).out⟩ := rfl

theorem attempt_run : attempt x s = ⟨.ok (x s).val, (x s).st, (x s).out⟩ := rfl

@[simp] theorem ofExcept_ok (a : α) : (ofExcept (.ok a) : Proc ε ω σ α) = ret a := rfl

@[simp] theorem ofExcept_error (e : ε) : (ofExcept (.error e) : Proc ε ω σ α) = throw e := rfl

theorem ofExcept_run (r : Except ε α) : (ofExcept r : Proc ε ω σ α) s = ⟨r, s, []⟩ := by
  cases r <;> rfl

end Run

/-- Binding associates, so a procedure can be regrouped. -/
theorem bind_assoc {γ : Type} (x : Proc ε ω σ α) (f : α → Proc ε ω σ β)
    (g : β → Proc ε ω σ γ) : x >>= f >>= g = x >>= fun a => f a >>= g := by
  funext s
  simp only [bind_run]
  rcases x s with ⟨v, t, o⟩
  cases v with
  | error e => rfl
  | ok a =>
    simp only
    rcases f a t with ⟨v, u, o'⟩
    cases v with
    | error e => rfl
    | ok b => simp

theorem bind_ret (x : Proc ε ω σ Unit) : (x >>= fun _ => ret ()) = x := by
  funext s
  rw [bind_run]
  rcases x s with ⟨v, t, o⟩
  cases v with
  | error e => rfl
  | ok u => simp only [ret_run, List.append_nil]

/-- Rounds that cannot fail. -/
theorem each_ok {body : α → Proc ε ω σ Unit} (h : ∀ a s, (body a s).val = .ok ()) (l : List α)
    (s : σ) : (each l body s).val = .ok () := by
  induction l generalizing s with
  | nil => rfl
  | cons a l ih =>
    have hfirst : body a s = ⟨.ok (), (body a s).st, (body a s).out⟩ := by
      rw [← h a s]
    rw [each, bind_ok _ _ _ hfirst]
    exact ih _

/-! ## Postconditions -/

/-- `Q` holds of what the run of `x` from `s` leaves behind. -/
def Post (Q : Outcome ε ω σ α → Prop) (s : σ) (x : Proc ε ω σ α) : Prop := Q (x s)

section Post

variable {Q : Outcome ε ω σ α → Prop} {s : σ}

theorem Post.ret {a : α} (h : Q ⟨.ok a, s, []⟩) : Post Q s (ret a) := h

theorem Post.throw {e : ε} (h : Q ⟨.error e, s, []⟩) : Post Q s (throw e) := h

theorem Post.modify {Q : Outcome ε ω σ Unit → Prop} {f : σ → σ} (h : Q ⟨.ok (), f s, []⟩) :
    Post Q s (modify f) := h

theorem Post.get_bind {f : σ → Proc ε ω σ α} (h : Post Q s (f s)) : Post Q s (get >>= f) := h

theorem Post.modify_bind {f : σ → σ} {k : Unit → Proc ε ω σ α} (h : Post Q (f s) (k ())) :
    Post Q s (Proc.modify f >>= k) := h

theorem Post.ofExcept_bind {r : Except ε β} {f : β → Proc ε ω σ α}
    (he : ∀ e, r = .error e → Q ⟨.error e, s, []⟩) (ha : ∀ b, r = .ok b → Post Q s (f b)) :
    Post Q s (ofExcept r >>= f) := by
  cases r with
  | ok b => exact ha b rfl
  | error e => exact he e rfl

/-- The output of the first part comes in front. -/
theorem Post.bind {x : Proc ε ω σ β} {f : β → Proc ε ω σ α}
    (he : ∀ e t o, x s = ⟨.error e, t, o⟩ → Q ⟨.error e, t, o⟩)
    (ha : ∀ b t o, x s = ⟨.ok b, t, o⟩ →
      Post (fun r => Q ⟨r.val, r.st, o ++ r.out⟩) t (f b)) : Post Q s (x >>= f) := by
  unfold Post
  rw [bind_run]
  rcases hx : x s with ⟨v, t, o⟩
  cases v with
  | error e => exact he e t o hx
  | ok b => exact ha b t o hx

theorem Post.zoom_bind {part : σ → τ} {put : τ → σ → σ} {x : Proc ε ω τ β}
    {f : β → Proc ε ω σ α}
    (he : ∀ e t o, x (part s) = ⟨.error e, t, o⟩ → Q ⟨.error e, put t s, o⟩)
    (ha : ∀ b t o, x (part s) = ⟨.ok b, t, o⟩ →
      Post (fun r => Q ⟨r.val, r.st, o ++ r.out⟩) (put t s) (f b)) :
    Post Q s (zoom part put x >>= f) := by
  refine Post.bind (fun e t o h => ?_) fun b t o h => ?_ <;>
    rw [zoom_run, Outcome.mk.injEq] at h <;> obtain ⟨hv, rfl, ho⟩ := h
  · exact ho ▸ he e _ _ (by rw [← hv])
  · exact ho ▸ ha b _ _ (by rw [← hv])

theorem Post.mono {P : Outcome ε ω σ α → Prop} {x : Proc ε ω σ α} (h : Post P s x)
    (hPQ : ∀ r, P r → Q r) : Post Q s x := hPQ _ h

end Post

/-! ## A procedure that does the same on success -/

/-- Where `x` succeeds, `y` does the same; where `x` fails, `y` may go on. -/
def Extends (y x : Proc ε ω σ α) : Prop := ∀ s a, (x s).val = .ok a → y s = x s

section Extends

theorem Extends.refl (x : Proc ε ω σ α) : Extends x x := fun _ _ _ => rfl

/-- A success of the whole is one of both parts. -/
theorem bind_ok_inv {s : σ} {x : Proc ε ω σ α} {f : α → Proc ε ω σ β} {b : β}
    (h : ((x >>= f) s).val = .ok b) :
    ∃ a t o, x s = ⟨.ok a, t, o⟩ ∧ (f a t).val = .ok b := by
  rw [bind_run] at h
  rcases hx : x s with ⟨v, t, o⟩
  rw [hx] at h
  cases v with
  | error e => cases h
  | ok a => exact ⟨a, t, o, rfl, h⟩

/-- A check that was passed does nothing else. -/
theorem ofExcept_bind_inv {s : σ} {r : Except ε α} {f : α → Proc ε ω σ β} {b : β}
    (h : ((ofExcept r >>= f) s).val = .ok b) :
    ∃ a, r = .ok a ∧ (ofExcept r >>= f) s = f a s ∧ (f a s).val = .ok b := by
  cases r with
  | ok a => exact ⟨a, rfl, rfl, h⟩
  | error e => cases h

theorem Extends.bind {x y : Proc ε ω σ α} {f g : α → Proc ε ω σ β} (hx : Extends y x)
    (hf : ∀ a, Extends (g a) (f a)) : Extends (y >>= g) (x >>= f) := by
  intro s b h
  obtain ⟨a, t, o, hxs, hft⟩ := bind_ok_inv h
  have hy : y s = ⟨.ok a, t, o⟩ := (hx s a (by rw [hxs])).trans hxs
  rw [bind_ok s y g hy, bind_ok s x f hxs, hf a t b hft]

/-- A check that `y` leaves out. -/
theorem Extends.ofExcept_bind {r : Except ε α} {f : α → Proc ε ω σ β} {y : Proc ε ω σ β}
    (hf : ∀ a, r = .ok a → Extends y (f a)) : Extends y (Proc.ofExcept r >>= f) := by
  cases r with
  | ok a => exact hf a rfl
  | error e =>
    intro s b h
    cases h

theorem Extends.each {body body' : α → Proc ε ω σ Unit} (h : ∀ a, Extends (body' a) (body a))
    (l : List α) : Extends (each l body') (each l body) := by
  induction l with
  | nil => exact .refl _
  | cons a l ih => exact (h a).bind fun _ => ih

theorem Extends.zoom {part : σ → τ} {put : τ → σ → σ} {x y : Proc ε ω τ α} (h : Extends y x) :
    Extends (zoom part put y) (zoom part put x) := by
  intro s a hs
  rw [zoom_run, zoom_run, h (part s) a hs]

/-- A failure that `y` handles. -/
theorem Extends.attempt {x : Proc ε ω σ α} {f : Except ε α → Proc ε ω σ α}
    (hf : ∀ a, f (.ok a) = ret a) : Extends (attempt x >>= f) x := by
  intro s a h
  rw [bind_run, attempt_run, h]
  simp only [hf, ret_run, List.append_nil]
  rw [← h]

end Extends

/-! ## Relations that a procedure keeps -/

/-- Did it end without an error? -/
def succeeded : Except ε α → Bool
  | .ok _ => true
  | .error _ => false

@[simp] theorem succeeded_ok (a : α) : succeeded (.ok a : Except ε α) = true := rfl

@[simp] theorem succeeded_error (e : ε) : succeeded (.error e : Except ε α) = false := rfl

/-- A relation on runs: start, output, success, end. -/
abbrev Flow (ω σ : Type) := σ → List ω → Bool → σ → Prop

/-- `R` holds of doing nothing, of failing at once, and of one run after another; a failure
anywhere is a failure. -/
structure Composes (R : Flow ω σ) : Prop where
  refl : ∀ s b, R s [] b s
  trans : ∀ {s t u o o' b b'}, R s o b t → R t o' b' u → R s (o ++ o') (b && b') u

/-- Every run of `x` stays inside `R`. -/
def Keeps (R : Flow ω σ) (x : Proc ε ω σ α) : Prop :=
  ∀ s, R s (x s).out (succeeded (x s).val) (x s).st

/-- The run of `x` from `s` stays inside `R`. -/
def KeepsAt (R : Flow ω σ) (s : σ) (x : Proc ε ω σ α) : Prop :=
  R s (x s).out (succeeded (x s).val) (x s).st

theorem Keeps.mono {R S : Flow ω σ} {x : Proc ε ω σ α} (h : Keeps R x)
    (hRS : ∀ s o b t, R s o b t → S s o b t) : Keeps S x := fun s => hRS _ _ _ _ (h s)

section Rules

variable {R : Flow ω σ}

theorem KeepsAt.bind (hR : Composes R) {s : σ} {x : Proc ε ω σ α} {f : α → Proc ε ω σ β}
    (hx : KeepsAt R s x) (hf : ∀ a, (x s).val = .ok a → KeepsAt R (x s).st (f a)) :
    KeepsAt R s (x >>= f) := by
  unfold KeepsAt at *
  rw [bind_run]
  rcases hxs : x s with ⟨v, t, o⟩
  rw [hxs] at hx hf
  cases v with
  | error e => exact hx
  | ok a => simpa using hR.trans hx (hf a rfl)

@[grind ←] theorem Keeps.bind (hR : Composes R) {x : Proc ε ω σ α} {f : α → Proc ε ω σ β}
    (hx : Keeps R x) (hf : ∀ a, Keeps R (f a)) : Keeps R (x >>= f) :=
  fun s => KeepsAt.bind hR (hx s) fun a _ => hf a _

@[grind ←] theorem Keeps.ret (hR : Composes R) (a : α) : Keeps R (ret a : Proc ε ω σ α) :=
  fun s => hR.refl s true

@[grind ←] theorem Keeps.throw (hR : Composes R) (e : ε) : Keeps R (throw e : Proc ε ω σ α) :=
  fun s => hR.refl s false

@[grind ←] theorem Keeps.ofExcept (hR : Composes R) (r : Except ε α) :
    Keeps R (ofExcept r : Proc ε ω σ α) := by
  cases r with
  | ok a => exact Keeps.ret hR a
  | error e => exact Keeps.throw hR e

/-- Failing first: the rest may use what was checked. -/
theorem Keeps.ofExcept_bind (hR : Composes R) {r : Except ε α} {f : α → Proc ε ω σ β}
    (hf : ∀ a, r = .ok a → Keeps R (f a)) : Keeps R (Proc.ofExcept r >>= f) := by
  cases r with
  | ok a => exact hf a rfl
  | error e => exact Keeps.throw hR e

@[grind ←] theorem Keeps.get (hR : Composes R) : Keeps R (Proc.get : Proc ε ω σ σ) :=
  fun s => hR.refl s true

/-- Reading the state first: the rest may use what was read. -/
theorem Keeps.get_bind {f : σ → Proc ε ω σ β} (h : ∀ s, KeepsAt R s (f s)) :
    Keeps R (Proc.get >>= f) := h

@[grind ←] theorem Keeps.modify {f : σ → σ} (h : ∀ s, R s [] true (f s)) :
    Keeps R (modify f : Proc ε ω σ Unit) := h

@[grind ←] theorem Keeps.emit {w : ω} (h : ∀ s, R s [w] true s) : Keeps R (emit w : Proc ε ω σ Unit) := h

@[grind ←] theorem Keeps.emitAll {l : List ω} (h : ∀ s, R s l true s) :
    Keeps R (emitAll l : Proc ε ω σ Unit) := h

theorem Keeps.ite {c : Prop} [Decidable c] {x y : Proc ε ω σ α} (hx : c → Keeps R x)
    (hy : ¬c → Keeps R y) : Keeps R (if c then x else y) := by
  split
  · exact hx ‹_›
  · exact hy ‹_›

/-! The same at one state: what was read before is known to be part of it. -/

@[grind ←] theorem KeepsAt.of_keeps {s : σ} {x : Proc ε ω σ α} (h : Keeps R x) : KeepsAt R s x :=
  h s

@[grind ←] theorem KeepsAt.get_bind {s : σ} {f : σ → Proc ε ω σ β} (h : KeepsAt R s (f s)) :
    KeepsAt R s (Proc.get >>= f) := h

@[grind ←] theorem KeepsAt.modify {s : σ} {f : σ → σ} (h : R s [] true (f s)) :
    KeepsAt R s (Proc.modify f : Proc ε ω σ Unit) := h

@[grind ←] theorem KeepsAt.modify_bind (hR : Composes R) {s : σ} {f : σ → σ}
    {k : Unit → Proc ε ω σ β} (h : R s [] true (f s)) (hk : KeepsAt R (f s) (k ())) :
    KeepsAt R s (Proc.modify f >>= k) := hR.trans h hk

@[grind ←] theorem KeepsAt.bind_keeps (hR : Composes R) {s : σ} {x : Proc ε ω σ α}
    {f : α → Proc ε ω σ β} (hx : KeepsAt R s x) (hf : ∀ a, Keeps R (f a)) :
    KeepsAt R s (x >>= f) := KeepsAt.bind hR hx fun a _ => hf a _

theorem KeepsAt.emit_bind (hR : Composes R) {s : σ} {w : ω} {k : Unit → Proc ε ω σ β}
    (h : R s [w] true s) (hk : KeepsAt R s (k ())) : KeepsAt R s (Proc.emit w >>= k) :=
  KeepsAt.bind hR (x := Proc.emit w) h fun _ _ => hk

theorem KeepsAt.emitAll_bind (hR : Composes R) {s : σ} {l : List ω} {k : Unit → Proc ε ω σ β}
    (h : R s l true s) (hk : KeepsAt R s (k ())) : KeepsAt R s (Proc.emitAll l >>= k) :=
  KeepsAt.bind hR (x := Proc.emitAll l) h fun _ _ => hk

theorem KeepsAt.ofExcept_bind (hR : Composes R) {s : σ} {r : Except ε α}
    {f : α → Proc ε ω σ β} (hf : ∀ a, r = .ok a → KeepsAt R s (f a)) :
    KeepsAt R s (Proc.ofExcept r >>= f) := by
  cases r with
  | ok a => exact hf a rfl
  | error e => exact hR.refl s false

/-- A clean-up that runs whether or not `x` fails; the failure is passed on after it. -/
theorem Keeps.attempt (hR : Composes R) {x : Proc ε ω σ α} {y : Proc ε ω σ β} (hx : Keeps R x)
    (hy : Keeps R y) : Keeps R (attempt x >>= fun r => y >>= fun _ => Proc.ofExcept r) := by
  intro s
  have h := hR.trans (hx s) (hy (x s).st)
  simp only [bind_run, attempt_run]
  rcases hxs : x s with ⟨v, t, o⟩
  rcases hyt : y t with ⟨v', u, o'⟩
  simp only [hxs, hyt] at h ⊢
  cases v' with
  | error e => simpa using h
  | ok b =>
    cases v with
    | error e => simpa using h
    | ok a => simpa using h

/-- A failure that is looked at has to be passed on in the end. -/
theorem Keeps.attempt_bind (hR : Composes R) {x : Proc ε ω σ α} {f : Except ε α → Proc ε ω σ β}
    (hx : Keeps R x) (hok : ∀ a, Keeps R (f (.ok a))) (herror : ∀ e, Keeps R (f (.error e)))
    (hfails : ∀ e s, succeeded (f (.error e) s).val = false) : Keeps R (Proc.attempt x >>= f) := by
  intro s
  have h := hx s
  simp only [bind_run, attempt_run]
  rcases hxs : x s with ⟨v, t, o⟩
  rw [hxs] at h
  cases v with
  | ok a => simpa using hR.trans h (hok a t)
  | error e =>
    have hrest := hR.trans h (herror e t)
    rw [hfails e t] at hrest ⊢
    exact hrest

@[grind ←] theorem Keeps.loop (hR : Composes R) {body : Proc ε ω σ Bool} (h : Keeps R body) (fuel : Nat) :
    Keeps R (loop body fuel) := by
  induction fuel with
  | zero => exact Keeps.ret hR _
  | succ fuel ih =>
    refine Keeps.bind hR h fun again => ?_
    exact Keeps.ite (fun _ => ih) fun _ => Keeps.ret hR _

@[grind ←] theorem Keeps.each (hR : Composes R) {body : α → Proc ε ω σ Unit} (l : List α)
    (h : ∀ a ∈ l, Keeps R (body a)) : Keeps R (each l body) := by
  induction l with
  | nil => exact Keeps.ret hR _
  | cons a l ih =>
    refine Keeps.bind hR (h a List.mem_cons_self) fun _ => ?_
    exact ih fun b hb => h b (List.mem_cons_of_mem a hb)

end Rules

/-! ## A part that a procedure does not look at -/

/-- Whatever `put` writes into the state, the run is the same and leaves it there. -/
def Blind (put : τ → σ → σ) (x : Proc ε ω σ α) : Prop :=
  ∀ t s, x (put t s) = ⟨(x s).val, put t (x s).st, (x s).out⟩

section Blind

variable {put : τ → σ → σ}

theorem Blind.ret (a : α) : Blind put (ret a : Proc ε ω σ α) := fun _ _ => rfl

theorem Blind.throw (e : ε) : Blind put (throw e : Proc ε ω σ α) := fun _ _ => rfl

theorem Blind.emit (w : ω) : Blind put (emit w : Proc ε ω σ Unit) := fun _ _ => rfl

theorem Blind.emitAll (l : List ω) : Blind put (emitAll l : Proc ε ω σ Unit) := fun _ _ => rfl

theorem Blind.ofExcept (r : Except ε α) : Blind put (ofExcept r : Proc ε ω σ α) := by
  cases r <;> exact fun _ _ => rfl

theorem Blind.modify {f : σ → σ} (h : ∀ t s, f (put t s) = put t (f s)) :
    Blind put (modify f : Proc ε ω σ Unit) := by
  intro t s
  rw [modify_run, h]
  rfl

theorem Blind.bind {x : Proc ε ω σ α} {f : α → Proc ε ω σ β} (hx : Blind put x)
    (hf : ∀ a, Blind put (f a)) : Blind put (x >>= f) := by
  intro t s
  rw [bind_run, bind_run, hx t s]
  rcases x s with ⟨v, u, o⟩
  cases v with
  | error e => rfl
  | ok a => simp only [hf a t u]

/-- What is read of the state is not the part that `put` writes. -/
theorem Blind.get_bind {f : σ → Proc ε ω σ β} (hread : ∀ t s, f (put t s) = f s)
    (hf : ∀ s, Blind put (f s)) : Blind put (Proc.get >>= f) := by
  intro t s
  rw [Proc.get_bind, hread]
  exact hf s t s

theorem Blind.ite {c : Prop} [Decidable c] {x y : Proc ε ω σ α} (hx : Blind put x)
    (hy : Blind put y) : Blind put (if c then x else y) := by
  split
  · exact hx
  · exact hy

theorem Blind.each {body : α → Proc ε ω σ Unit} (h : ∀ a, Blind put (body a)) (l : List α) :
    Blind put (each l body) := by
  induction l with
  | nil => exact Blind.ret _
  | cons a l ih => exact Blind.bind (h a) fun _ => ih

/-- A procedure on another part. -/
theorem Blind.zoom {υ : Type} {part : σ → υ} {write : υ → σ → σ} (x : Proc ε ω υ α)
    (hread : ∀ t s, part (put t s) = part s)
    (hwrite : ∀ t u s, write u (put t s) = put t (write u s)) :
    Blind put (zoom part write x) := by
  intro t s
  simp only [zoom_run, hread, hwrite]

end Blind

/-! ## The relation that steps generate -/

/-- Finitely many steps of `S`, the last of which may have failed. -/
inductive Many (S : Flow ω σ) : Flow ω σ
  | refl (s : σ) (b : Bool) : Many S s [] b s
  | step {s t : σ} {o : List ω} {b : Bool} (h : S s o b t) : Many S s o b t
  | trans {s t u : σ} {o o' : List ω} {b b' : Bool} (h : Many S s o b t) (h' : Many S t o' b' u) :
      Many S s (o ++ o') (b && b') u

theorem Many.composes (S : Flow ω σ) : Composes (Many S) where
  refl := Many.refl
  trans := Many.trans

/-- A relation that composes and contains every step contains every run. -/
theorem Many.lift {S R : Flow ω σ} (hR : Composes R) (hS : ∀ s o b t, S s o b t → R s o b t)
    {s t : σ} {o : List ω} {b : Bool} (h : Many S s o b t) : R s o b t := by
  induction h with
  | refl s b => exact hR.refl s b
  | step h => exact hS _ _ _ _ h
  | trans h h' ih ih' => exact hR.trans ih ih'

end Proc
