import Mathlib.Data.List.Basic

/-!
# Items in a stream that arrives in pieces

A decoder takes one item off the front of a buffer, or asks for more, or fails. `scan` takes items
as long as it can and keeps the rest. When an answer stays as the buffer grows, the items of a
stream do not depend on where it was cut (`Decoder.scan_append`).
-/

/-- One item and its length; `ok none` asks for more. -/
abbrev Decoder (ε α β : Type) : Type := List α → Except ε (Option (β × Nat))

/-- The items of a buffer, what is left of it, and whether that cannot be decoded. -/
@[ext]
structure Scan (α β : Type) where
  items : List β
  rest : List α
  failed : Bool
  deriving DecidableEq

namespace Decoder

variable {ε α β : Type}

structure Lawful (f : Decoder ε α β) : Prop where
  nil : f [] = .ok none
  bounds : ∀ {buf b n}, f buf = .ok (some (b, n)) → 0 < n ∧ n ≤ buf.length
  append : ∀ {buf}, f buf ≠ .ok none → ∀ more, f (buf ++ more) = f buf

/-- At most `fuel` items. -/
def scanWith (f : Decoder ε α β) : Nat → List α → Scan α β
  | 0, buf => ⟨[], buf, false⟩
  | fuel + 1, buf =>
    match f buf with
    | .ok none => ⟨[], buf, false⟩
    | .error _ => ⟨[], buf, true⟩
    | .ok (some (b, n)) =>
      let r := scanWith f fuel (buf.drop n)
      ⟨b :: r.items, r.rest, r.failed⟩

/-- An item takes at least one element, so the length bounds their number. -/
def scan (f : Decoder ε α β) (buf : List α) : Scan α β := f.scanWith buf.length buf

section Scan

variable {f : Decoder ε α β} (hf : f.Lawful) {buf : List α}

include hf

theorem scanWith_fuel (fuel fuel' : Nat) (h : buf.length ≤ fuel) (h' : buf.length ≤ fuel') :
    f.scanWith fuel buf = f.scanWith fuel' buf := by
  induction fuel generalizing fuel' buf with
  | zero =>
    obtain rfl := List.length_eq_zero_iff.mp (Nat.le_zero.mp h)
    cases fuel' with
    | zero => rfl
    | succ fuel' => simp only [scanWith, hf.nil]
  | succ fuel ih =>
    cases fuel' with
    | zero =>
      obtain rfl := List.length_eq_zero_iff.mp (Nat.le_zero.mp h')
      simp only [scanWith, hf.nil]
    | succ fuel' =>
      simp only [scanWith]
      rcases hbuf : f buf with e | _ | ⟨b, n⟩
      · rfl
      · rfl
      · have hn := hf.bounds hbuf
        have hdrop : (buf.drop n).length = buf.length - n := List.length_drop
        have hrest : f.scanWith fuel (buf.drop n) = f.scanWith fuel' (buf.drop n) :=
          ih fuel' (by omega) (by omega)
        simp only [hrest]

theorem scan_none (h : f buf = .ok none) : f.scan buf = ⟨[], buf, false⟩ := by
  rw [scan, scanWith_fuel hf buf.length (buf.length + 1) (Nat.le_refl _) (Nat.le_succ _)]
  simp only [scanWith, h]

theorem scan_error {e : ε} (h : f buf = .error e) : f.scan buf = ⟨[], buf, true⟩ := by
  rw [scan, scanWith_fuel hf buf.length (buf.length + 1) (Nat.le_refl _) (Nat.le_succ _)]
  simp only [scanWith, h]

theorem scan_item {b : β} {n : Nat} (h : f buf = .ok (some (b, n))) :
    f.scan buf =
      ⟨b :: (f.scan (buf.drop n)).items, (f.scan (buf.drop n)).rest,
        (f.scan (buf.drop n)).failed⟩ := by
  have hdrop : (buf.drop n).length = buf.length - n := List.length_drop
  rw [scan, scanWith_fuel hf buf.length (buf.length + 1) (Nat.le_refl _) (Nat.le_succ _)]
  have hrest : f.scanWith buf.length (buf.drop n) = f.scan (buf.drop n) :=
    scanWith_fuel hf _ _ (by omega) (Nat.le_refl _)
  simp only [scanWith, h, hrest]

/-- Nothing more can be taken off what is left. -/
theorem scan_rest (buf : List α) :
    f.scan (f.scan buf).rest = ⟨[], (f.scan buf).rest, (f.scan buf).failed⟩ := by
  induction hn : buf.length using Nat.strongRecOn generalizing buf with
  | ind n ih =>
    rcases hbuf : f buf with e | _ | ⟨b, m⟩
    · simp only [scan_error hf hbuf]
    · simp only [scan_none hf hbuf]
    · have hm := hf.bounds hbuf
      have hdrop : (buf.drop m).length = buf.length - m := List.length_drop
      simp only [scan_item hf hbuf]
      exact ih _ (by omega) (buf.drop m) rfl

/-- What arrives later is scanned behind what was left. -/
theorem scan_append (buf more : List α) :
    f.scan (buf ++ more) =
      ⟨(f.scan buf).items ++ (f.scan ((f.scan buf).rest ++ more)).items,
        (f.scan ((f.scan buf).rest ++ more)).rest,
        (f.scan ((f.scan buf).rest ++ more)).failed⟩ := by
  induction hn : buf.length using Nat.strongRecOn generalizing buf with
  | ind n ih =>
    rcases hbuf : f buf with e | _ | ⟨b, m⟩
    · simp only [scan_error hf hbuf, List.nil_append]
    · simp only [scan_none hf hbuf, List.nil_append]
    · have hm := hf.bounds hbuf
      have hdrop : (buf.drop m).length = buf.length - m := List.length_drop
      have hmore : f (buf ++ more) = .ok (some (b, m)) := by
        rw [hf.append (by rw [hbuf]; exact nofun) more, hbuf]
      have hcut : (buf ++ more).drop m = buf.drop m ++ more :=
        List.drop_append_of_le_length hm.2
      simp only [scan_item hf hmore, scan_item hf hbuf, hcut, List.cons_append]
      rw [ih _ (by omega) (buf.drop m) rfl]

/-- What cannot be decoded stays so. -/
theorem scan_failed (h : (f.scan buf).failed = true) (more : List α) :
    f.scan ((f.scan buf).rest ++ more) = ⟨[], (f.scan buf).rest ++ more, true⟩ := by
  have hrest := scan_rest hf buf
  rcases hbuf : f (f.scan buf).rest with e | _ | ⟨b, m⟩
  · refine scan_error hf (e := e) ?_
    rw [hf.append (by rw [hbuf]; exact nofun) more, hbuf]
  · rw [scan_none hf hbuf, h] at hrest
    cases hrest
  · rw [scan_item hf hbuf] at hrest
    cases hrest

end Scan

end Decoder
