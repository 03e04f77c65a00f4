import Http3.Lib.Bytes

/-!
# QUIC variable-length integers

The value carries its bound, so every `VarInt` has an encoding: `encode` never runs out of
cases and `decode` reads back what `encode` wrote, whatever follows (`decode_encode`).
-/

namespace Http3

open Bytes

inductive VarIntError where
  | outOfRange (value : Nat)
  deriving DecidableEq, Repr

/-- An integer of `0 ..= 2^62 - 1`. -/
structure VarInt where
  get : Nat
  le_max : get ≤ 2 ^ 62 - 1
  deriving DecidableEq

namespace VarInt

def max : VarInt := ⟨2 ^ 62 - 1, Nat.le_refl _⟩

theorem zero_le_max : 0 ≤ 2 ^ 62 - 1 := Nat.zero_le _

theorem one_le_max : 1 ≤ 2 ^ 62 - 1 := by decide

theorem eq_of_get {a b : VarInt} (h : a.get = b.get) : a = b := by
  cases a
  cases b
  cases h
  rfl

def zero : VarInt := ⟨0, zero_le_max⟩

def new (value : Nat) : Except VarIntError VarInt :=
  if h : value > 2 ^ 62 - 1 then .error (.outOfRange value)
  else .ok ⟨value, Nat.le_of_not_gt h⟩

/-- A literal that is checked when it is written. -/
def fromStatic (value : Nat) (h : value ≤ 2 ^ 62 - 1 := by decide) : VarInt := ⟨value, h⟩

def encodedLen (v : VarInt) : Nat :=
  if v.get < 64 then 1
  else if v.get < 16384 then 2
  else if v.get < 1073741824 then 4
  else 8

inductive DecodeError where
  | bufferTooShort
  deriving DecidableEq, Repr

/-- The bytes `encode` writes: the length in the top two bits, then the value. -/
def encode (v : VarInt) : Bytes :=
  match v.encodedLen with
  | 1 => beBytes 1 v.get
  | 2 => beBytes 2 (v.get ||| 0x4000)
  | 4 => beBytes 4 (v.get ||| 0x80000000)
  | _ => beBytes 8 (v.get ||| 0xc000000000000000)

/-- The encoded length that the first byte announces. -/
def prefixLen (b : UInt8) : Nat := 1 <<< (b.toNat >>> 6)

theorem decode_bound (v k : Nat) (hk : k ≤ 62) : v &&& (2 ^ k - 1) ≤ 2 ^ 62 - 1 := by
  have h : 2 ^ k ≤ 2 ^ 62 := Nat.pow_le_pow_right (by decide) hk
  have := Nat.and_le_right (n := v) (m := 2 ^ k - 1)
  omega

/-- The value and the number of bytes it took. -/
def decode (buf : Bytes) : Except DecodeError (VarInt × Nat) :=
  match buf with
  | [] => .error .bufferTooShort
  | b :: _ =>
    let len := prefixLen b
    if buf.length < len then .error .bufferTooShort
    else
      match len with
      | 1 => .ok (⟨beValue (buf.take 1) &&& (2 ^ 6 - 1), decode_bound _ 6 (by decide)⟩, 1)
      | 2 => .ok (⟨beValue (buf.take 2) &&& (2 ^ 14 - 1), decode_bound _ 14 (by decide)⟩, 2)
      | 4 => .ok (⟨beValue (buf.take 4) &&& (2 ^ 30 - 1), decode_bound _ 30 (by decide)⟩, 4)
      | _ => .ok (⟨beValue (buf.take 8) &&& (2 ^ 62 - 1), decode_bound _ 62 (by decide)⟩, 8)

def peekLen (buf : Bytes) : Option Nat := buf.head?.map prefixLen

/-! ## Reading back what was written -/

/-- The number of bytes and the tag of an encoding: `2 ^ k` bytes, `k` in the top two bits. -/
theorem encode_cases (v : VarInt) :
    (v.encodedLen = 1 ∧ encode v = beBytes 1 v.get ∧ v.get < 2 ^ 6) ∨
    (v.encodedLen = 2 ∧ encode v = beBytes 2 (2 ^ 14 * 1 + v.get) ∧ v.get < 2 ^ 14) ∨
    (v.encodedLen = 4 ∧ encode v = beBytes 4 (2 ^ 30 * 2 + v.get) ∧ v.get < 2 ^ 30) ∨
    (v.encodedLen = 8 ∧ encode v = beBytes 8 (2 ^ 62 * 3 + v.get) ∧ v.get < 2 ^ 62) := by
  have hm := v.le_max
  by_cases h1 : v.get < 64
  · have hl : v.encodedLen = 1 := by simp [encodedLen, h1]
    exact .inl ⟨hl, by simp [encode, hl], by omega⟩
  by_cases h2 : v.get < 16384
  · have hl : v.encodedLen = 2 := by simp [encodedLen, h1, h2]
    have hv : v.get < 2 ^ 14 := by omega
    refine .inr (.inl ⟨hl, ?_, hv⟩)
    rw [← or_flag hv]
    simp [encode, hl]
  by_cases h3 : v.get < 1073741824
  · have hl : v.encodedLen = 4 := by simp [encodedLen, h1, h2, h3]
    have hv : v.get < 2 ^ 30 := by omega
    refine .inr (.inr (.inl ⟨hl, ?_, hv⟩))
    rw [← or_flag hv]
    simp [encode, hl]
  · have hl : v.encodedLen = 8 := by simp [encodedLen, h1, h2, h3]
    have hv : v.get < 2 ^ 62 := by omega
    refine .inr (.inr (.inr ⟨hl, ?_, hv⟩))
    rw [← or_flag hv]
    simp [encode, hl]

theorem encode_length (v : VarInt) : (encode v).length = v.encodedLen := by
  rcases encode_cases v with ⟨hl, he, _⟩ | ⟨hl, he, _⟩ | ⟨hl, he, _⟩ | ⟨hl, he, _⟩ <;>
    rw [hl, he, beBytes_length]

theorem encodedLen_pos (v : VarInt) : 0 < v.encodedLen := by
  unfold encodedLen
  split_ifs <;> decide

theorem encodedLen_le (v : VarInt) : v.encodedLen ≤ 8 := by
  unfold encodedLen
  split_ifs <;> decide

theorem encode_ne_nil (v : VarInt) : encode v ≠ [] := by
  intro h
  have := encode_length v
  have := encodedLen_pos v
  simp_all

theorem prefixLen_ofNat (n : Nat) (h : n < 256) : prefixLen (UInt8.ofNat n) = 2 ^ (n / 64) := by
  have hn : (UInt8.ofNat n).toNat = n := by simp; omega
  rw [prefixLen, hn, Nat.shiftRight_eq_div_pow, Nat.shiftLeft_eq, Nat.one_mul]

/-- Reading an encoding whose tag announces its own length. -/
theorem decode_beBytes (n k c : Nat) (v : VarInt) (rest : Bytes)
    (hn : n = 1 ∧ k = 6 ∧ c = 0 ∨ n = 2 ∧ k = 14 ∧ c = 1 ∨
      n = 4 ∧ k = 30 ∧ c = 2 ∨ n = 8 ∧ k = 62 ∧ c = 3) (hv : v.get < 2 ^ k) :
    decode (beBytes n (2 ^ k * c + v.get) ++ rest) = .ok (v, n) := by
  have hmask : beValue ((beBytes n (2 ^ k * c + v.get) ++ rest).take n) &&& (2 ^ k - 1) = v.get := by
    rw [take_append_exact _ _ _ (beBytes_length _ _), beValue_beBytes, and_mask]
    rcases hn with ⟨rfl, rfl, rfl⟩ | ⟨rfl, rfl, rfl⟩ | ⟨rfl, rfl, rfl⟩ | ⟨rfl, rfl, rfl⟩ <;> omega
  rcases v with ⟨v, hm⟩
  rcases hn with ⟨rfl, rfl, rfl⟩ | ⟨rfl, rfl, rfl⟩ | ⟨rfl, rfl, rfl⟩ | ⟨rfl, rfl, rfl⟩
  all_goals
    simp only at hv hmask ⊢
    rw [beBytes_succ, List.cons_append] at hmask ⊢
    rw [decode, prefixLen_ofNat _ (Nat.mod_lt _ (by decide))]
    simp only [List.length_cons, List.length_append, beBytes_length]
  · rw [show (2 ^ 6 * 0 + v) / 256 ^ 0 % 256 / 64 = 0 by omega] at *
    simp_all
  · rw [show (2 ^ 14 * 1 + v) / 256 ^ 1 % 256 / 64 = 1 by omega] at *
    simp_all
  · rw [show (2 ^ 30 * 2 + v) / 256 ^ 3 % 256 / 64 = 2 by omega] at *
    simp_all
  · rw [show (2 ^ 62 * 3 + v) / 256 ^ 7 % 256 / 64 = 3 by omega] at *
    simp_all

/-- **Round trip**, with anything after the encoding. -/
theorem decode_encode (v : VarInt) (rest : Bytes) :
    decode (encode v ++ rest) = .ok (v, v.encodedLen) := by
  rcases encode_cases v with ⟨hl, he, hv⟩ | ⟨hl, he, hv⟩ | ⟨hl, he, hv⟩ | ⟨hl, he, hv⟩ <;> rw [hl, he]
  · have := decode_beBytes 1 6 0 v rest (by omega) hv
    rwa [Nat.mul_zero, Nat.zero_add] at this
  · exact decode_beBytes 2 14 1 v rest (by omega) hv
  · exact decode_beBytes 4 30 2 v rest (by omega) hv
  · exact decode_beBytes 8 62 3 v rest (by omega) hv

end VarInt

end Http3
