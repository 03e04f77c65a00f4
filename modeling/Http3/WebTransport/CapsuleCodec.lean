import Http3.Codec
import Http3.WebTransport.Sendable

/-!
# The capsule codec

What `Capsule.encode` writes is read back, whatever follows it; the message of a closed session is
cut to its longest beginning of at most 1024 bytes. An answer of the decoder stays when more bytes
come, and it asks for more just as long as something is missing.
-/

namespace Http3

open WebTransport

/-! ## Cutting a message -/

/-- The longest beginning of a string that is a string of at most `limit` bytes. -/
structure LongestString (limit : Nat) (message s : Bytes) : Prop where
  begins : s <+: message
  valid : Utf8.isValid s = true
  short : s.length ≤ limit
  longest : ∀ t, t <+: message → Utf8.isValid t = true → t.length ≤ limit → t.length ≤ s.length

theorem isCharBoundary_iff {message : Bytes} (h : Utf8.isValid message = true) {i : Nat}
    (hi : i ≤ message.length) :
    isCharBoundary message i = true ↔ Utf8.isValid (message.take i) = true := by
  have htake := @Utf8.isValidAfter_take [] _ (fun _ hr => absurd hr List.not_mem_nil) h i
  rw [Utf8.isValid, htake, isCharBoundary]
  simp only [Bool.or_eq_true, decide_eq_true_eq, Option.any_eq_true, Option.mem_def,
    Utf8.isContinuation_iff]
  constructor
  · rintro ((rfl | rfl) | hnext)
    · exact htake.mp rfl
    · exact .inl (Nat.le_refl _)
    · exact .inr hnext
  · rintro (hle | hnext)
    · exact .inl (.inr (Nat.le_antisymm hi hle))
    · exact .inr hnext

theorem charBoundaryBefore_boundary (message : Bytes) (i : Nat) :
    isCharBoundary message (charBoundaryBefore message i) = true := by
  induction i with
  | zero => rfl
  | succ i ih =>
    unfold charBoundaryBefore
    split
    · assumption
    · exact ih

theorem charBoundaryBefore_last (message : Bytes) {i j : Nat} (hj : j ≤ i)
    (h : isCharBoundary message j = true) : j ≤ charBoundaryBefore message i := by
  induction i with
  | zero => exact hj
  | succ i ih =>
    unfold charBoundaryBefore
    split
    · exact hj
    · rename_i hnot
      have hne : j ≠ i + 1 := by
        rintro rfl
        exact hnot h
      exact ih (by omega)

theorem truncateMessage_longest {message : Bytes} (h : Utf8.isValid message = true) :
    LongestString MAX_CLOSE_SESSION_MESSAGE_LEN message (truncateMessage message) := by
  unfold truncateMessage
  split
  · rename_i hlong
    have hle := Capsule.charBoundaryBefore_le message MAX_CLOSE_SESSION_MESSAGE_LEN
    have hcut : charBoundaryBefore message MAX_CLOSE_SESSION_MESSAGE_LEN ≤ message.length := by
      omega
    refine ⟨List.take_prefix _ _, ?_, ?_, fun t ht hvalid hshort => ?_⟩
    · exact (isCharBoundary_iff h hcut).mp (charBoundaryBefore_boundary message _)
    · rw [List.length_take]
      omega
    · have htake : t = message.take t.length := List.prefix_iff_eq_take.mp ht
      rw [htake] at hvalid
      have hboundary := (isCharBoundary_iff h ht.length_le).mpr hvalid
      have hlast := charBoundaryBefore_last message hshort hboundary
      rw [List.length_take]
      omega
  · exact ⟨List.prefix_refl _, h, by omega, fun t ht _ _ => ht.length_le⟩

namespace Capsule

/-! ## What is written -/

/-- The values that are written fit their fields. The length of the payload is one of them. -/
def Encodable : Capsule → Prop
  | closeSession errorCode message => errorCode < 2 ^ 32 ∧ Utf8.isValid message = true
  | drainSession => True
  | maxData maximum | dataBlocked maximum | maxStreams _ maximum | streamsBlocked _ maximum =>
    maximum ≤ VarInt.max.get
  | unknown capsuleType payload =>
    capsuleType ≤ VarInt.max.get ∧ payload.length ≤ VarInt.max.get ∧
      CapsuleType.fromType capsuleType = none

/-- What a capsule is read as. -/
def ReadAs : Capsule → Capsule → Prop
  | closeSession errorCode message, closeSession errorCode' message' =>
    errorCode' = errorCode ∧ LongestString MAX_CLOSE_SESSION_MESSAGE_LEN message message'
  | c, c' => c' = c

theorem encodeVarint_eq {value : Nat} (h : value ≤ VarInt.max.get) :
    encodeVarint value = some (VarInt.encode ⟨value, h⟩) := by
  unfold encodeVarint
  rw [show VarInt.new value = .ok ⟨value, h⟩ from dif_neg (Nat.not_lt.mpr h)]

theorem encodeVarint_inv {value : Nat} {bytes : Bytes} (h : encodeVarint value = some bytes) :
    ∃ v : VarInt, v.get = value ∧ bytes = v.encode := by
  unfold encodeVarint VarInt.new at h
  split at h
  · rename_i v hv
    split at hv
    · cases hv
    · cases hv
      cases h
      exact ⟨_, rfl, rfl⟩
  · cases h

/-- A capsule is written as a header and a payload that the header announces. -/
theorem decode_written {t : Nat} {payload header : Bytes}
    (h : encodeCapsuleHeader t payload.length = some header) (rest : Bytes) :
    decode (header ++ payload ++ rest) =
      match decodePayload t payload with
      | some c => .ok (some (c, (header ++ payload).length))
      | none => .error .malformed := by
  unfold encodeCapsuleHeader at h
  obtain ⟨first, hfirst, h⟩ := Option.bind_eq_some_iff.mp h
  obtain ⟨second, hsecond, h⟩ := Option.bind_eq_some_iff.mp h
  cases h
  obtain ⟨vt, rfl, rfl⟩ := encodeVarint_inv hfirst
  obtain ⟨vl, hvl, rfl⟩ := encodeVarint_inv hsecond
  have htype : VarInt.decode (vt.encode ++ vl.encode ++ payload ++ rest) =
      .ok (vt, vt.encodedLen) := by
    simp only [List.append_assoc, VarInt.decode_encode]
  have hdrop : (vt.encode ++ vl.encode ++ payload ++ rest).drop vt.encodedLen =
      vl.encode ++ (payload ++ rest) := by
    rw [← VarInt.encode_length]
    simp only [List.append_assoc, List.drop_left]
  have hhead : (vt.encode ++ vl.encode).length = vt.encodedLen + vl.encodedLen := by
    rw [List.length_append, VarInt.encode_length, VarInt.encode_length]
  have hstop : (vt.encode ++ vl.encode ++ payload).length =
      vt.encodedLen + vl.encodedLen + vl.get := by
    rw [List.length_append, hhead, hvl]
  have hlong : ¬(vt.encode ++ vl.encode ++ payload ++ rest).length <
      vt.encodedLen + vl.encodedLen + vl.get := by
    rw [List.length_append, hstop]
    omega
  have hpayload : ((vt.encode ++ vl.encode ++ payload ++ rest).take
      (vt.encodedLen + vl.encodedLen + vl.get)).drop (vt.encodedLen + vl.encodedLen) =
        payload := by
    rw [← hstop, List.take_left, ← hhead, List.drop_left]
  unfold decode
  rw [htype]
  dsimp only
  rw [hdrop, VarInt.decode_encode]
  dsimp only
  rw [if_neg hlong]
  cases hdecode : decodePayload vt.get payload with
  | none => simp only [hpayload, hdecode]
  | some c => simp only [hpayload, hdecode, hstop]

/-- A payload of one integer. -/
theorem decode_integer (t : Nat) {value : Nat} (ht : t ≤ VarInt.max.get) (hv : value ≤ VarInt.max.get)
    {make : Nat → Capsule}
    (hmake : ∀ payload, decodePayload t payload = (decodeExactVarint payload).map make) :
    ∃ bytes, encodeInteger t value = some bytes ∧
      ∀ rest, decode (bytes ++ rest) = .ok (some (make value, bytes.length)) := by
  have hlen : (VarInt.encode ⟨value, hv⟩).length ≤ VarInt.max.get := by
    rw [VarInt.encode_length]
    exact (VarInt.encodedLen_le _).trans (by decide)
  obtain ⟨header, hheader⟩ := encodeCapsuleHeader_some ht hlen
  have hwritten : encodeInteger t value = some (header ++ VarInt.encode ⟨value, hv⟩) := by
    rw [VarInt.encode_length] at hheader
    rw [encodeInteger, varintEncodedLen,
      show VarInt.new value = .ok ⟨value, hv⟩ from dif_neg (Nat.not_lt.mpr hv), encodeVarint_eq hv]
    simp only [Option.bind_eq_bind, Option.bind_some, hheader]
    rfl
  have hexact : decodeExactVarint (VarInt.encode ⟨value, hv⟩) = some value := by
    have hread := VarInt.decode_encode ⟨value, hv⟩ []
    rw [List.append_nil] at hread
    rw [decodeExactVarint, hread]
    simp only [VarInt.encode_length, ne_eq, not_true_eq_false, if_false]
  refine ⟨_, hwritten, fun rest => ?_⟩
  rw [decode_written hheader, hmake, hexact]
  rfl

theorem decode_closeSession {errorCode : Nat} {message : Bytes} (hcode : errorCode < 2 ^ 32)
    (hvalid : Utf8.isValid message = true) :
    ∃ bytes, encode (closeSession errorCode message) = some bytes ∧
      ∀ rest, decode (bytes ++ rest) =
        .ok (some (closeSession errorCode (truncateMessage message), bytes.length)) := by
  have hcut := truncateMessage_longest hvalid
  have hshort := hcut.short
  generalize hm : truncateMessage message = m at hcut hshort ⊢
  have hfour : (Bytes.beBytes 4 errorCode).length = 4 := Bytes.beBytes_length 4 errorCode
  have hlen : (Bytes.beBytes 4 errorCode ++ m).length = 4 + m.length := by
    rw [List.length_append, hfour]
  obtain ⟨header, hheader⟩ := encodeCapsuleHeader_some (by decide : 0x2843 ≤ VarInt.max.get)
    ((Nat.add_le_add_left hshort 4).trans (by decide))
  have hwritten : encode (closeSession errorCode message) =
      some (header ++ (Bytes.beBytes 4 errorCode ++ m)) := by
    rw [encode]
    simp only [truncateCloseSessionMessage, hm, hheader, Option.bind_eq_bind, Option.bind_some]
    rfl
  have hpayload : decodePayload 0x2843 (Bytes.beBytes 4 errorCode ++ m) =
      some (closeSession errorCode m) := by
    have hdrop : (Bytes.beBytes 4 errorCode ++ m).drop 4 = m := List.drop_left' hfour
    have htake : (Bytes.beBytes 4 errorCode ++ m).take 4 = Bytes.beBytes 4 errorCode :=
      Bytes.take_append_exact _ _ _ hfour
    have hvalue : Bytes.beValue (Bytes.beBytes 4 errorCode) = errorCode := by
      rw [Bytes.beValue_beBytes]
      omega
    have htype : CapsuleType.fromType 0x2843 = some .closeSession := rfl
    have hfits : ¬(Bytes.beBytes 4 errorCode ++ m).length < 4 := by omega
    simp only [decodePayload, htype, hdrop, htake, hvalue, if_neg hfits,
      if_neg (Nat.not_lt.mpr hshort), hcut.valid, if_true]
  rw [← hlen] at hheader
  refine ⟨_, hwritten, fun rest => ?_⟩
  rw [decode_written hheader, hpayload]

/-- **Round trip**, with anything after the capsule. -/
theorem decode_encode {c : Capsule} (h : c.Encodable) :
    ∃ bytes c', c.encode = some bytes ∧ c.ReadAs c' ∧
      ∀ rest, decode (bytes ++ rest) = .ok (some (c', bytes.length)) := by
  cases c with
  | closeSession errorCode message =>
    obtain ⟨bytes, hbytes, hread⟩ := decode_closeSession h.1 h.2
    exact ⟨bytes, closeSession errorCode (truncateMessage message), hbytes,
      ⟨rfl, truncateMessage_longest h.2⟩, hread⟩
  | drainSession =>
    obtain ⟨header, hheader⟩ :=
      encodeCapsuleHeader_some (by decide : 0x78ae ≤ VarInt.max.get) (Nat.zero_le _)
    refine ⟨header, drainSession, hheader, rfl, fun rest => ?_⟩
    have hread := @decode_written _ [] _ hheader rest
    rw [List.append_nil] at hread
    exact hread
  | maxData maximum =>
    obtain ⟨bytes, hbytes, hread⟩ :=
      @decode_integer 0x190b4d3d maximum (by decide) h maxData fun _ => rfl
    exact ⟨bytes, _, hbytes, rfl, hread⟩
  | maxStreams bidirectional maximum =>
    cases bidirectional with
    | false =>
      obtain ⟨bytes, hbytes, hread⟩ :=
        @decode_integer 0x190b4d40 maximum (by decide) h (maxStreams false) fun _ => rfl
      exact ⟨bytes, _, hbytes, rfl, hread⟩
    | true =>
      obtain ⟨bytes, hbytes, hread⟩ :=
        @decode_integer 0x190b4d3f maximum (by decide) h (maxStreams true) fun _ => rfl
      exact ⟨bytes, _, hbytes, rfl, hread⟩
  | dataBlocked maximum =>
    obtain ⟨bytes, hbytes, hread⟩ :=
      @decode_integer 0x190b4d41 maximum (by decide) h dataBlocked fun _ => rfl
    exact ⟨bytes, _, hbytes, rfl, hread⟩
  | streamsBlocked bidirectional maximum =>
    cases bidirectional with
    | false =>
      obtain ⟨bytes, hbytes, hread⟩ :=
        @decode_integer 0x190b4d44 maximum (by decide) h (streamsBlocked false) fun _ => rfl
      exact ⟨bytes, _, hbytes, rfl, hread⟩
    | true =>
      obtain ⟨bytes, hbytes, hread⟩ :=
        @decode_integer 0x190b4d43 maximum (by decide) h (streamsBlocked true) fun _ => rfl
      exact ⟨bytes, _, hbytes, rfl, hread⟩
  | unknown capsuleType payload =>
    obtain ⟨htype, hlen, hunknown⟩ := h
    obtain ⟨header, hheader⟩ := encodeCapsuleHeader_some htype hlen
    refine ⟨header ++ payload, unknown capsuleType payload, ?_, rfl, fun rest => ?_⟩
    · rw [encode, hheader]
      rfl
    · rw [decode_written hheader, decodePayload, hunknown]

/-! ## Asking for more -/

/-- More bytes are asked for just as long as something is missing. -/
theorem decode_none_iff (buf : Bytes) : decode buf = .ok none ↔ ¬AllPresent buf := by
  constructor
  · rintro h ⟨t, len, n, ⟨tn, ln, ht, hl, rfl⟩, hle⟩
    rw [decode, ht] at h
    dsimp only at h
    rw [hl] at h
    dsimp only at h
    rw [if_neg (Nat.not_lt.mpr hle)] at h
    split at h <;> cases h
  · intro h
    by_contra hdone
    obtain ⟨t, tn, l, ln, ht, hl, hle, -⟩ := decode_complete hdone
    exact h ⟨t, l, tn + ln, ⟨tn, ln, ht, hl, rfl⟩, hle⟩

/-! ## The codec as a whole -/

theorem capsule_codec :
    (∀ c : Capsule, c.Encodable → ∃ bytes c', c.encode = some bytes ∧ c.ReadAs c' ∧
      ∀ rest, decode (bytes ++ rest) = .ok (some (c', bytes.length))) ∧
    (∀ buf : Bytes, decode buf ≠ .ok none → ∀ more, decode (buf ++ more) = decode buf) ∧
    ∀ buf : Bytes, decode buf = .ok none ↔ ¬AllPresent buf :=
  ⟨fun _ => decode_encode, fun _ => decode_append, decode_none_iff⟩

end Capsule

end Http3
