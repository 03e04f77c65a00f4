import Http3.Lib.Reader
import Http3.Lib.Scan
import Http3.Frame
import Http3.WebTransport.Capsule

/-!
# Frames and capsules in a growing buffer

QUIC delivers a stream in pieces, so integers, frames and capsules are read from a buffer that may
end in the middle of one. What is complete is read the same way whatever follows, and no decoder
reports more than it was shown.
-/

namespace Http3

open Bytes

/-! ## Integers -/

namespace VarInt

theorem prefixLen_cases (b : UInt8) :
    prefixLen b = 1 ∨ prefixLen b = 2 ∨ prefixLen b = 4 ∨ prefixLen b = 8 := by
  have hlt := b.toNat_lt
  have hq : b.toNat >>> 6 = b.toNat / 64 := Nat.shiftRight_eq_div_pow _ 6
  have h4 : b.toNat / 64 = 0 ∨ b.toNat / 64 = 1 ∨ b.toNat / 64 = 2 ∨ b.toNat / 64 = 3 := by omega
  unfold prefixLen
  rw [hq]
  rcases h4 with h | h | h | h <;> rw [h] <;> decide

/-- An integer is the first bytes of the buffer, as many as the first byte says. -/
theorem decode_cons (b : UInt8) (rest : Bytes) :
    (decode (b :: rest) = .error .bufferTooShort ∧ (b :: rest).length < prefixLen b) ∨
      ∃ v, decode (b :: rest) = .ok (v, prefixLen b) ∧ prefixLen b ≤ (b :: rest).length ∧
        ∀ more, decode (b :: rest ++ more) = .ok (v, prefixLen b) := by
  by_cases hlen : (b :: rest).length < prefixLen b
  · exact .inl ⟨by simp only [decode, if_pos hlen], hlen⟩
  · have htake : ∀ more, (b :: rest ++ more).take (prefixLen b) = (b :: rest).take (prefixLen b) :=
      fun more => List.take_append_of_le_length (Nat.le_of_not_lt hlen)
    have hmore : ∀ more, ¬(b :: (rest ++ more)).length < prefixLen b := by
      intro more
      simp only [List.length_cons, List.length_append] at hlen ⊢
      omega
    have hsame : ∀ more, decode (b :: rest ++ more) = decode (b :: rest) := by
      intro more
      have htake := htake more
      have hmore := hmore more
      rcases prefixLen_cases b with h | h | h | h <;>
      · simp only [h, List.cons_append] at hlen htake hmore ⊢
        simp only [decode, h, if_neg hlen, if_neg hmore, htake]
    have hok : ∃ v, decode (b :: rest) = .ok (v, prefixLen b) := by
      rcases prefixLen_cases b with h | h | h | h <;>
      · simp only [h] at hlen ⊢
        simp only [decode, h, if_neg hlen]
        exact ⟨_, rfl⟩
    obtain ⟨v, hv⟩ := hok
    exact .inr ⟨v, hv, Nat.le_of_not_lt hlen, fun more => (hsame more).trans hv⟩

theorem decode_stable : Reader.Stable .bufferTooShort decode where
  fits {input v n} h := by
    cases input with
    | nil => cases h
    | cons b rest =>
      obtain ⟨he, -⟩ | ⟨v, hv, hle, -⟩ := decode_cons b rest
      · cases he.symm.trans h
      · cases hv.symm.trans h
        exact hle
  append input h more := by
    cases input with
    | nil => exact absurd rfl h
    | cons b rest =>
      obtain ⟨he, -⟩ | ⟨v, hv, -, hmore⟩ := decode_cons b rest
      · exact absurd he h
      · rw [hv]
        exact hmore more

theorem decode_pos {input : Bytes} {v : VarInt} {n : Nat} (h : decode input = .ok (v, n)) :
    0 < n := by
  cases input with
  | nil => cases h
  | cons b rest =>
    obtain ⟨he, -⟩ | ⟨v, hv, -, -⟩ := decode_cons b rest
    · cases he.symm.trans h
    · cases hv.symm.trans h
      rcases prefixLen_cases b with h | h | h | h <;> omega

/-- There is one error, and it asks for more. -/
theorem decode_append {input : Bytes} {v : VarInt} {n : Nat} (h : decode input = .ok (v, n))
    (more : Bytes) : decode (input ++ more) = .ok (v, n) := by
  rw [decode_stable.append input (by rw [h]; exact nofun) more, h]

end VarInt

/-! ## Capsules -/

namespace Capsule

/-- Type, length and payload of a capsule that is complete. -/
theorem decode_complete {buf : Bytes} (h : decode buf ≠ .ok none) :
    ∃ t tn l ln, VarInt.decode buf = .ok (t, tn) ∧ VarInt.decode (buf.drop tn) = .ok (l, ln) ∧
      tn + ln + l.get ≤ buf.length ∧
      decode buf =
        match decodePayload t.get ((buf.take (tn + ln + l.get)).drop (tn + ln)) with
        | some capsule => .ok (some (capsule, tn + ln + l.get))
        | none => .error .malformed := by
  unfold decode at h ⊢
  rcases ht : VarInt.decode buf with e | ⟨t, tn⟩
  · simp [ht] at h
  rw [ht] at h
  simp only at h ⊢
  rcases hl : VarInt.decode (buf.drop tn) with e | ⟨l, ln⟩
  · simp [hl] at h
  rw [hl] at h
  simp only at h
  by_cases hlen : buf.length < tn + ln + l.get
  · simp [hlen] at h
  · refine ⟨t, tn, l, ln, rfl, hl, Nat.le_of_not_lt hlen, ?_⟩
    exact (if_neg hlen).trans rfl

/-- A complete capsule is read the same way, whatever follows. -/
theorem decode_append {buf : Bytes} (h : decode buf ≠ .ok none) (more : Bytes) :
    decode (buf ++ more) = decode buf := by
  obtain ⟨t, tn, l, ln, ht, hl, hlen, hdecode⟩ := decode_complete h
  have htn : tn ≤ buf.length := VarInt.decode_stable.fits ht
  have hdrop : (buf ++ more).drop tn = buf.drop tn ++ more := List.drop_append_of_le_length htn
  have hlong : ¬(buf ++ more).length < tn + ln + l.get := by
    rw [List.length_append]
    omega
  rw [hdecode, decode, VarInt.decode_append ht more]
  dsimp only
  rw [hdrop, VarInt.decode_append hl more]
  dsimp only
  rw [List.take_append_of_le_length hlen]
  exact (if_neg hlong).trans rfl

/-- A capsule takes at least two bytes, and no more than there are. -/
theorem decode_bounds {buf : Bytes} {capsule : Capsule} {n : Nat}
    (h : decode buf = .ok (some (capsule, n))) : 2 ≤ n ∧ n ≤ buf.length := by
  obtain ⟨t, tn, l, ln, ht, hl, hlen, hdecode⟩ := decode_complete (by rw [h]; exact nofun)
  have hn : n = tn + ln + l.get := by
    rw [hdecode] at h
    split at h <;> cases h
    rfl
  have := VarInt.decode_pos ht
  have := VarInt.decode_pos hl
  omega

theorem decode_lawful : Decoder.Lawful decode where
  nil := rfl
  bounds h := ⟨Nat.lt_of_lt_of_le Nat.zero_lt_two (decode_bounds h).1, (decode_bounds h).2⟩
  append h more := decode_append h more

end Capsule

/-! ## Frames -/

theorem decodeFrameHeader_bounds {buf : Bytes} {header : FrameHeader}
    (h : decodeFrameHeader buf = .ok header) :
    2 ≤ header.headerLen ∧ header.headerLen ≤ buf.length := by
  unfold decodeFrameHeader at h
  rcases ht : VarInt.decode buf with e | ⟨t, tn⟩ <;> rw [ht] at h
  · cases h
  simp only at h
  rcases hl : VarInt.decode (buf.drop tn) with e | ⟨l, ln⟩ <;> rw [hl] at h
  · cases h
  simp only at h
  split at h <;> cases h
  have := VarInt.decode_pos ht
  have := VarInt.decode_pos hl
  have := VarInt.decode_stable.fits ht
  have hle := VarInt.decode_stable.fits hl
  rw [List.length_drop] at hle
  simp only
  omega

/-- The bytes of an integer are enough to read it. -/
theorem VarInt.decode_take {buf : Bytes} {v : VarInt} {n m : Nat}
    (h : VarInt.decode buf = .ok (v, n)) (hm : n ≤ m) :
    VarInt.decode (buf.take m) = .ok (v, n) := by
  cases buf with
  | nil => cases h
  | cons b rest =>
    have hpos := VarInt.decode_pos h
    obtain ⟨k, rfl⟩ : ∃ k, m = k + 1 := ⟨m - 1, by omega⟩
    have hwhole : b :: rest.take k ++ rest.drop k = b :: rest := by
      rw [List.cons_append, List.take_append_drop]
    have hn : n = prefixLen b ∧ prefixLen b ≤ (b :: rest).length := by
      obtain ⟨hshort, -⟩ | ⟨v', hv, hle, -⟩ := decode_cons b rest
      · cases h.symm.trans hshort
      · cases h.symm.trans hv
        exact ⟨rfl, hle⟩
    obtain ⟨-, hshort⟩ | ⟨v', hv, -, hmore⟩ := decode_cons b (rest.take k)
    · simp only [List.length_cons, List.length_take] at hshort hn
      omega
    · have hsame := hmore (rest.drop k)
      rw [hwhole, h] at hsame
      cases hsame
      exact hv

/-- Anything but a short buffer is an answer that stays. -/
theorem decodeFrameHeader_append {buf : Bytes} (h : decodeFrameHeader buf ≠ .error .bufferTooShort)
    (more : Bytes) : decodeFrameHeader (buf ++ more) = decodeFrameHeader buf := by
  unfold decodeFrameHeader at h ⊢
  rcases ht : VarInt.decode buf with e | ⟨t, tn⟩
  · simp [ht] at h
  rw [ht] at h
  simp only at h
  have hdrop : (buf ++ more).drop tn = buf.drop tn ++ more :=
    List.drop_append_of_le_length (VarInt.decode_stable.fits ht)
  rcases hl : VarInt.decode (buf.drop tn) with e | ⟨l, ln⟩
  · simp [hl] at h
  simp only [VarInt.decode_append ht more, hdrop, VarInt.decode_append hl more, hl]

theorem decodeFrame_length {buf : Bytes} {frame : Frame} {n : Nat}
    (h : decodeFrame buf = .ok (frame, n)) :
    ∃ header, decodeFrameHeader buf = .ok header ∧ n = header.totalLen ∧ n ≤ buf.length := by
  unfold decodeFrame at h
  split at h
  · cases h
  · rename_i header hheader
    split at h
    · cases h
    · rename_i hlen
      dsimp only at h
      rcases hp : decodePayload header.frameType (decodeFrameHeader_notHttp2 hheader)
        ((buf.take header.totalLen).drop header.headerLen) with e | f <;> rw [hp] at h
      · cases h
      · cases h
        exact ⟨header, hheader, rfl, Nat.le_of_not_lt hlen⟩

theorem decodeFrame_bounds {buf : Bytes} {frame : Frame} {n : Nat}
    (h : decodeFrame buf = .ok (frame, n)) : 2 ≤ n ∧ n ≤ buf.length := by
  obtain ⟨header, hheader, hn, hle⟩ := decodeFrame_length h
  have := (decodeFrameHeader_bounds hheader).1
  unfold FrameHeader.totalLen at hn
  omega

/-- What follows the header of a frame decides, once it is all there. -/
theorem decodeFrame_of_header {buf : Bytes} {header : FrameHeader}
    (h : decodeFrameHeader buf = .ok header) :
    decodeFrame buf =
      if buf.length < header.totalLen then .error .bufferTooShort
      else
        (decodePayload header.frameType (decodeFrameHeader_notHttp2 h)
          ((buf.take header.totalLen).drop header.headerLen)).map
            fun frame => (frame, header.totalLen) := by
  unfold decodeFrame
  split
  · rename_i e he
    cases he.symm.trans h
  · rename_i header' h'
    obtain rfl : header' = header := by
      cases h'.symm.trans h
      rfl
    rfl

/-- A complete frame is read the same way, whatever follows. -/
theorem decodeFrame_append {buf : Bytes} {frame : Frame} {n : Nat}
    (h : decodeFrame buf = .ok (frame, n)) (more : Bytes) :
    decodeFrame (buf ++ more) = .ok (frame, n) := by
  obtain ⟨header, hheader, rfl, hle⟩ := decodeFrame_length h
  have hmore : decodeFrameHeader (buf ++ more) = .ok header :=
    (decodeFrameHeader_append (by rw [hheader]; exact nofun) more).trans hheader
  have hlong : ¬(buf ++ more).length < header.totalLen := by
    rw [List.length_append]
    omega
  rw [decodeFrame_of_header hheader, if_neg (Nat.not_lt.mpr hle)] at h
  rw [decodeFrame_of_header hmore, if_neg hlong, List.take_append_of_le_length hle]
  exact h

theorem decodeFrameHeader_take {buf : Bytes} {header : FrameHeader} {m : Nat}
    (h : decodeFrameHeader buf = .ok header) (hm : header.headerLen ≤ m) :
    decodeFrameHeader (buf.take m) = .ok header := by
  have hshort : decodeFrameHeader (buf.take m) ≠ .error .bufferTooShort := by
    unfold decodeFrameHeader at h ⊢
    rcases ht : VarInt.decode buf with e | ⟨t, tn⟩ <;> rw [ht] at h
    · cases h
    simp only at h
    rcases hl : VarInt.decode (buf.drop tn) with e | ⟨l, ln⟩ <;> rw [hl] at h
    · cases h
    simp only at h
    split at h <;> cases h
    rename_i hnot
    simp only at hm
    have htype := VarInt.decode_take ht (Nat.le_trans (Nat.le_add_right tn ln) hm)
    have hlength := VarInt.decode_take hl (m := m - tn) (by omega)
    rw [← List.drop_take] at hlength
    simp only [htype, hlength, hnot]
    split <;> nofun
  have hwhole := decodeFrameHeader_append hshort (buf.drop m)
  rw [List.take_append_drop] at hwhole
  rw [← hwhole, h]

/-- The bytes of a frame are enough to read it. -/
theorem decodeFrame_take {buf : Bytes} {frame : Frame} {n : Nat}
    (h : decodeFrame buf = .ok (frame, n)) : decodeFrame (buf.take n) = .ok (frame, n) := by
  obtain ⟨header, hheader, rfl, hle⟩ := decodeFrame_length h
  have htake := decodeFrameHeader_take (m := header.totalLen) hheader (Nat.le_add_right _ _)
  have hlen : ¬(buf.take header.totalLen).length < header.totalLen := by
    rw [List.length_take]
    omega
  rw [decodeFrame_of_header hheader, if_neg (Nat.not_lt.mpr hle)] at h
  rw [decodeFrame_of_header htake, if_neg hlen, List.take_take, Nat.min_self]
  exact h

end Http3
