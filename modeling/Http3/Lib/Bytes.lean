import Mathlib.Data.List.Induction
import Mathlib.Data.Nat.Bitwise
import Mathlib.Tactic.Ring

/-!
# Big-endian numbers

`beBytes n v` is the low `n` bytes of `v`, most significant first, and `beValue` reads them back
(`beValue_beBytes`). The two mask lemmas say what a flag in the top bits does to the number.
-/

abbrev Bytes : Type := List UInt8

namespace Bytes

/-- The bytes of a literal. -/
def ofString (s : String) : Bytes := s.toUTF8.toList

/-- The number a big-endian byte string stands for. -/
def beValue (bs : Bytes) : Nat := bs.foldl (fun v b => v * 256 + b.toNat) 0

/-- The low `n` bytes of `v`, most significant first. -/
def beBytes : Nat → Nat → Bytes
  | 0, _ => []
  | n + 1, v => beBytes n (v / 256) ++ [UInt8.ofNat (v % 256)]

@[simp] theorem beBytes_length (n v : Nat) : (beBytes n v).length = n := by
  induction n generalizing v with
  | zero => rfl
  | succ n ih => simp [beBytes, ih]

/-- The most significant byte comes first. -/
theorem beBytes_succ (n v : Nat) :
    beBytes (n + 1) v = UInt8.ofNat (v / 256 ^ n % 256) :: beBytes n v := by
  induction n generalizing v with
  | zero => simp [beBytes]
  | succ n ih =>
    rw [beBytes, ih, beBytes, pow_succ, Nat.mul_comm, ← Nat.div_div_eq_div_mul]
    rfl

theorem beValue_append_singleton (bs : Bytes) (b : UInt8) :
    beValue (bs ++ [b]) = beValue bs * 256 + b.toNat := by
  simp [beValue]

theorem beValue_beBytes (n v : Nat) : beValue (beBytes n v) = v % 256 ^ n := by
  induction n generalizing v with
  | zero => simp [beBytes, beValue, Nat.mod_one]
  | succ n ih =>
    have hb : (UInt8.ofNat (v % 256)).toNat = v % 256 := by simp
    rw [beBytes, beValue_append_singleton, ih, hb, pow_succ, Nat.mul_comm (256 ^ n) 256,
      Nat.mod_mul]
    ring

/-- Setting bit `k` of a number below `2 ^ k` adds it. -/
theorem or_flag {v k : Nat} (h : v < 2 ^ k) (c : Nat) : v ||| (2 ^ k * c) = 2 ^ k * c + v := by
  rw [Nat.or_comm, ← Nat.two_pow_add_eq_or_of_lt h]

theorem and_mask (v k : Nat) : v &&& (2 ^ k - 1) = v % 2 ^ k := Nat.and_two_pow_sub_one_eq_mod v k

theorem take_append_exact (bs rest : Bytes) (n : Nat) (h : bs.length = n) :
    (bs ++ rest).take n = bs := by
  subst h; simp

/-- Every byte is one of 256. -/
theorem forall_byte {p : UInt8 → Prop} (h : ∀ n : Fin 256, p (UInt8.ofFin n)) (b : UInt8) : p b :=
  h b.toFin

end Bytes
