import Http3.Lib.Reader

/-!
# Writers into a buffer

A writer puts something at the front of a buffer it may not outgrow and says how long it was. What
it leaves behind is stated once: `SliceWriter.Writes w written` fixes its answer on every buffer.
-/

/-- How much was written, and the buffer with it; `none` when it does not fit. -/
abbrev SliceWriter (α : Type) : Type := List α → Option (Nat × List α)

namespace SliceWriter

variable {α : Type}

/-- Copy to the front of the buffer. -/
def copy (written : List α) : SliceWriter α := fun buf =>
  if buf.length < written.length then none
  else some (written.length, written ++ buf.drop written.length)

/-- One after the other; the second gets what is behind the first. -/
def andThen (w v : SliceWriter α) : SliceWriter α := fun buf =>
  match w buf with
  | none => none
  | some (n, buf) =>
    match v (buf.drop n) with
    | none => none
    | some (m, rest) => some (n + m, buf.take n ++ rest)

/-- All of them, in order. -/
def each {β : Type} (f : β → SliceWriter α) : List β → SliceWriter α
  | [] => copy []
  | b :: rest => (f b).andThen (each f rest)

/-- `written` is put at the front of every buffer that has room for it, and nothing else changes. -/
def Writes (w : SliceWriter α) (written : List α) : Prop := ∀ buf, w buf = copy written buf

theorem Writes.copy (written : List α) : (copy written).Writes written := fun _ => rfl

theorem Writes.andThen {w v : SliceWriter α} {first second : List α} (hw : w.Writes first)
    (hv : v.Writes second) : (w.andThen v).Writes (first ++ second) := by
  intro buf
  unfold SliceWriter.andThen
  rw [hw]
  unfold SliceWriter.copy
  by_cases hfirst : buf.length < first.length
  · have hshort : buf.length < (first ++ second).length := by
      rw [List.length_append]
      omega
    rw [if_pos hfirst, if_pos hshort]
  · rw [if_neg hfirst]
    simp only [List.drop_left, List.take_left]
    rw [hv]
    unfold SliceWriter.copy
    by_cases hsecond : (buf.drop first.length).length < second.length
    · have hshort : buf.length < (first ++ second).length := by
        rw [List.length_drop] at hsecond
        rw [List.length_append]
        omega
      rw [if_pos hsecond, if_pos hshort]
    · have hlong : ¬buf.length < (first ++ second).length := by
        rw [List.length_drop] at hsecond
        rw [List.length_append]
        omega
      rw [if_neg hsecond, if_neg hlong]
      simp only [List.length_append, List.drop_drop, List.append_assoc]

theorem Writes.each {β : Type} {f : β → SliceWriter α} {g : β → List α}
    (h : ∀ b, (f b).Writes (g b)) (bs : List β) : (each f bs).Writes (bs.flatMap g) := by
  induction bs with
  | nil => exact .copy []
  | cons b bs ih =>
    rw [List.flatMap_cons]
    exact (h b).andThen ih

end SliceWriter
