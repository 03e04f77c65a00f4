import Http3.Framing

/-!
# The headers of WebTransport streams

A stream that carries data for a session starts with a type or a signal value and the id of its
session. The header and the kind of a unidirectional stream are parsed apart from each other, and
the two answers agree (`classifyUniStreamChecked_eq`).
-/

namespace Http3

def UNIDIRECTIONAL_STREAM_TYPE : Nat := 0x54

def BIDIRECTIONAL_SIGNAL_VALUE : Nat := 0x41

def UNI_TYPE_VARINT : VarInt := .fromStatic UNIDIRECTIONAL_STREAM_TYPE

def BIDI_SIGNAL_VARINT : VarInt := .fromStatic BIDIRECTIONAL_SIGNAL_VALUE

inductive StreamHeaderDecodeError where
  | bufferTooShort
  | invalidFormat
  | invalidSessionId
  | sessionIdOutOfRange
  deriving DecidableEq, Repr

/-- The session is the id of a bidirectional stream of the client. -/
structure StreamHeader where
  sessionIdVarint : VarInt
  isMultipleOfFour : sessionIdVarint.get % 4 = 0
  deriving DecidableEq

namespace StreamHeader

def sessionId (h : StreamHeader) : Nat := h.sessionIdVarint.get

/-- What is left to check of an id that is in range. -/
def ofVarint (id : VarInt) : Except StreamHeaderDecodeError StreamHeader :=
  if h : id.get % 4 = 0 then .ok ⟨id, h⟩ else .error .invalidSessionId

def new (sessionId : Nat) : Except StreamHeaderDecodeError StreamHeader :=
  match VarInt.new sessionId with
  | .error _ => .error .sessionIdOutOfRange
  | .ok id => ofVarint id

def encodeWith (first : VarInt) (h : StreamHeader) : Bytes :=
  first.encode ++ h.sessionIdVarint.encode

def encodeUnidirectional (h : StreamHeader) : Bytes := h.encodeWith UNI_TYPE_VARINT

def encodeBidirectional (h : StreamHeader) : Bytes := h.encodeWith BIDI_SIGNAL_VARINT

/-- The header and its length, where the first integer has to be `first`. -/
def decodeWith (first : Nat) (buf : Bytes) : Except StreamHeaderDecodeError (StreamHeader × Nat) :=
  match VarInt.decode buf with
  | .error _ => .error .bufferTooShort
  | .ok (value, valueLen) =>
    if value.get ≠ first then .error .invalidFormat
    else
      match VarInt.decode (buf.drop valueLen) with
      | .error _ => .error .bufferTooShort
      | .ok (id, idLen) =>
        match ofVarint id with
        | .error e => .error e
        | .ok h => .ok (h, valueLen + idLen)

def decodeUnidirectionalChecked : Bytes → Except StreamHeaderDecodeError (StreamHeader × Nat) :=
  decodeWith UNIDIRECTIONAL_STREAM_TYPE

def decodeUnidirectional (buf : Bytes) : Option (StreamHeader × Nat) :=
  (decodeUnidirectionalChecked buf).toOption

def decodeBidirectionalChecked : Bytes → Except StreamHeaderDecodeError (StreamHeader × Nat) :=
  decodeWith BIDIRECTIONAL_SIGNAL_VALUE

def decodeBidirectional (buf : Bytes) : Option (StreamHeader × Nat) :=
  (decodeBidirectionalChecked buf).toOption

/-- The type of a unidirectional stream takes as many bytes as the signal value. -/
def encodedSize (h : StreamHeader) : Nat :=
  BIDI_SIGNAL_VARINT.encodedLen + h.sessionIdVarint.encodedLen

end StreamHeader

inductive ClassifiedUniStream where
  | webTransport (sessionId dataOffset : Nat)
  | http3 (streamType dataOffset : Nat)
  deriving DecidableEq, Repr

def classifyUniStreamChecked (buf : Bytes) :
    Except StreamHeaderDecodeError ClassifiedUniStream :=
  match VarInt.decode buf with
  | .error _ => .error .bufferTooShort
  | .ok (streamType, typeLen) =>
    if streamType.get = UNIDIRECTIONAL_STREAM_TYPE then
      match VarInt.decode (buf.drop typeLen) with
      | .error _ => .error .bufferTooShort
      | .ok (sessionId, sessionIdLen) =>
        if sessionId.get % 4 ≠ 0 then .error .invalidSessionId
        else .ok (.webTransport sessionId.get (typeLen + sessionIdLen))
    else .ok (.http3 streamType.get typeLen)

/-- A datagram takes all of the frame it came in. -/
def Datagram.decodeConsumed (buf : Bytes) : Except DatagramDecodeError (Datagram × Nat) :=
  (Datagram.decode buf).map fun d => (d, buf.length)

/-! ## The ids that are accepted -/

namespace StreamHeader

theorem ofVarint_eq_ok {id : VarInt} {h : StreamHeader} :
    ofVarint id = .ok h ↔ h.sessionIdVarint = id := by
  unfold ofVarint
  constructor
  · intro hid
    split_ifs at hid
    cases hid
    rfl
  · rintro rfl
    rw [dif_pos h.isMultipleOfFour]

theorem ofVarint_eq_error {id : VarInt} (h : id.get % 4 ≠ 0) :
    ofVarint id = .error .invalidSessionId := by
  rw [ofVarint, dif_neg h]

theorem new_eq_ok {id : Nat} {h : StreamHeader} : new id = .ok h ↔ h.sessionId = id := by
  constructor
  · intro hnew
    unfold new VarInt.new at hnew
    by_cases hrange : id > 2 ^ 62 - 1
    · simp only [hrange, dite_true] at hnew
      cases hnew
    · simp only [hrange, dite_false] at hnew
      rw [sessionId, ofVarint_eq_ok.mp hnew]
  · rintro rfl
    have hid : VarInt.new h.sessionId = .ok h.sessionIdVarint :=
      dif_neg (Nat.not_lt.mpr h.sessionIdVarint.le_max)
    rw [new, hid]
    exact ofVarint_eq_ok.mpr rfl

theorem new_isOk (id : Nat) : (∃ h, new id = .ok h) ↔ id ≤ 2 ^ 62 - 1 ∧ id % 4 = 0 := by
  constructor
  · rintro ⟨h, hnew⟩
    rw [← new_eq_ok.mp hnew]
    exact ⟨h.sessionIdVarint.le_max, h.isMultipleOfFour⟩
  · rintro ⟨hle, hfour⟩
    exact ⟨⟨⟨id, hle⟩, hfour⟩, new_eq_ok.mpr rfl⟩

end StreamHeader

/-! ## Headers are read back -/

namespace StreamHeader

/-- The buffer starts with the integer `first` and an id, `len` bytes in any of their encodings. -/
def Starts (first : Nat) (buf : Bytes) (sessionId len : Nat) : Prop :=
  ∃ value n id m, VarInt.decode buf = .ok (value, n) ∧ value.get = first ∧
    VarInt.decode (buf.drop n) = .ok (id, m) ∧ id.get = sessionId ∧ sessionId % 4 = 0 ∧
    len = n + m

/-- An integer of a header; one that is cut off asks for more. -/
def readVarint : Reader StreamHeaderDecodeError UInt8 VarInt :=
  Reader.mapError (fun _ => .bufferTooShort) VarInt.decode

theorem readVarint_stable : readVarint.Stable .bufferTooShort :=
  VarInt.decode_stable.mapError fun _ => StreamHeaderDecodeError.bufferTooShort

theorem readVarint_reads (v : VarInt) : readVarint.Reads v.encode v := by
  apply Reader.Reads.mapError
  intro rest
  rw [VarInt.decode_encode, VarInt.encode_length]

/-- One integer, then the other: what `decodeWith` does, as a reader made of readers. -/
theorem decodeWith_eq (first : Nat) : decodeWith first =
    readVarint.andThen fun value =>
      (Reader.ofExcept (if value.get ≠ first then .error .invalidFormat else .ok ())).andThen
        fun _ => readVarint.andThen fun id => Reader.ofExcept (ofVarint id) := by
  funext buf
  simp only [decodeWith, readVarint, Reader.andThen, Reader.mapError, Reader.ofExcept]
  cases VarInt.decode buf with
  | error e => rfl
  | ok read =>
    obtain ⟨value, n⟩ := read
    by_cases hvalue : value.get = first
    · simp only [hvalue, ne_eq, not_true_eq_false, if_false, Except.map, List.drop_zero]
      cases VarInt.decode (buf.drop n) with
      | error e => rfl
      | ok read =>
        obtain ⟨id, m⟩ := read
        cases hid : ofVarint id with
        | error e => simp only [hid]
        | ok h => simp only [hid, Nat.zero_add, Nat.add_zero]
    · simp only [ne_eq, hvalue, not_false_eq_true, if_true, Except.map]

theorem decodeWith_stable (first : Nat) : Reader.Stable .bufferTooShort (decodeWith first) := by
  rw [decodeWith_eq]
  apply readVarint_stable.andThen
  intro value
  apply (Reader.Stable.ofExcept _).andThen
  intro _
  apply readVarint_stable.andThen
  intro id
  exact .ofExcept _

theorem decodeWith_reads (first : VarInt) (h : StreamHeader) :
    Reader.Reads (decodeWith first.get) (h.encodeWith first) h := by
  have hpieces : h.encodeWith first = first.encode ++ ([] ++ (h.sessionIdVarint.encode ++ [])) := by
    rw [encodeWith, List.nil_append, List.append_nil]
  rw [decodeWith_eq, hpieces]
  apply (readVarint_reads first).andThen
  apply Reader.Reads.andThen
  · exact Reader.Reads.ofExcept (if_neg (not_not_intro rfl))
  · apply (readVarint_reads h.sessionIdVarint).andThen
    exact Reader.Reads.ofExcept (ofVarint_eq_ok.mpr rfl)

/-- Both kinds of header take `encodedSize` bytes. -/
theorem encodeWith_length {first : VarInt} (hfirst : first.encodedLen = 2) (h : StreamHeader) :
    (h.encodeWith first).length = h.encodedSize := by
  rw [encodeWith, List.length_append, VarInt.encode_length, VarInt.encode_length, hfirst]
  rfl

theorem decodeUnidirectional_encode (h : StreamHeader) (payload : Bytes) :
    decodeUnidirectionalChecked (h.encodeUnidirectional ++ payload) = .ok (h, h.encodedSize) := by
  have hread := decodeWith_reads UNI_TYPE_VARINT h payload
  rw [encodeWith_length rfl] at hread
  exact hread

theorem decodeBidirectional_encode (h : StreamHeader) (payload : Bytes) :
    decodeBidirectionalChecked (h.encodeBidirectional ++ payload) = .ok (h, h.encodedSize) := by
  have hread := decodeWith_reads BIDI_SIGNAL_VARINT h payload
  rw [encodeWith_length rfl] at hread
  exact hread

/-! ## What is rejected -/

section Decode

variable {first : Nat} {buf : Bytes} {value id : VarInt} {n m : Nat}

/-- The two integers of a header, each of any length that it can have. -/
theorem decodeWith_of_varints (hvalue : VarInt.decode buf = .ok (value, n))
    (hfirst : value.get = first) (hid : VarInt.decode (buf.drop n) = .ok (id, m)) :
    decodeWith first buf = (ofVarint id).map fun h => (h, n + m) := by
  simp only [decodeWith, hvalue, hfirst, ne_eq, not_true_eq_false, if_false, hid]
  cases ofVarint id <;> rfl

theorem decodeWith_of_other (hvalue : VarInt.decode buf = .ok (value, n))
    (hfirst : value.get ≠ first) : decodeWith first buf = .error .invalidFormat := by
  simp only [decodeWith, hvalue, if_pos hfirst]

theorem decodeWith_eq_ok {h : StreamHeader} {k : Nat} :
    decodeWith first buf = .ok (h, k) ↔ Starts first buf h.sessionId k := by
  constructor
  · intro hdecode
    rcases hvalue : VarInt.decode buf with e | ⟨value, n⟩
    · simp [decodeWith, hvalue] at hdecode
    by_cases hfirst : value.get = first
    · rcases hid : VarInt.decode (buf.drop n) with e | ⟨id, m⟩
      · simp [decodeWith, hvalue, hfirst, hid] at hdecode
      · rw [decodeWith_of_varints hvalue hfirst hid] at hdecode
        rcases hh : ofVarint id with e | h'
        · rw [hh] at hdecode
          cases hdecode
        · rw [hh] at hdecode
          cases hdecode
          have hsession := congrArg VarInt.get (ofVarint_eq_ok.mp hh)
          exact ⟨value, n, id, m, hvalue, hfirst, hid, hsession.symm, h.isMultipleOfFour, rfl⟩
    · rw [decodeWith_of_other hvalue hfirst] at hdecode
      cases hdecode
  · rintro ⟨value, n, id, m, hvalue, hfirst, hid, hsession, -, rfl⟩
    have hh : ofVarint id = .ok h := ofVarint_eq_ok.mpr (VarInt.eq_of_get hsession.symm)
    rw [decodeWith_of_varints hvalue hfirst hid, hh]
    rfl

end Decode

end StreamHeader

/-! ## The kind of a unidirectional stream -/

/-- The first integer of the stream decides; the header of a session's stream is the same one. -/
theorem classifyUniStreamChecked_eq (buf : Bytes) : classifyUniStreamChecked buf =
    match VarInt.decode buf with
    | .error _ => .error .bufferTooShort
    | .ok (streamType, typeLen) =>
      if streamType.get = UNIDIRECTIONAL_STREAM_TYPE then
        (StreamHeader.decodeUnidirectionalChecked buf).map fun (h, n) =>
          .webTransport h.sessionId n
      else .ok (.http3 streamType.get typeLen) := by
  unfold classifyUniStreamChecked
  cases htype : VarInt.decode buf with
  | error e => rfl
  | ok read =>
    obtain ⟨streamType, n⟩ := read
    by_cases hwt : streamType.get = UNIDIRECTIONAL_STREAM_TYPE
    · simp only [if_pos hwt]
      cases hid : VarInt.decode (buf.drop n) with
      | error e =>
        simp only [StreamHeader.decodeUnidirectionalChecked, StreamHeader.decodeWith, htype, hwt,
          ne_eq, not_true_eq_false, if_false, hid, Except.map]
      | ok read =>
        obtain ⟨id, m⟩ := read
        rw [StreamHeader.decodeUnidirectionalChecked,
          StreamHeader.decodeWith_of_varints htype hwt hid]
        by_cases hfour : id.get % 4 = 0
        · rw [show StreamHeader.ofVarint id = .ok ⟨id, hfour⟩ from
            StreamHeader.ofVarint_eq_ok.mpr rfl]
          simp only [hfour, ne_eq, not_true_eq_false, if_false]
          rfl
        · rw [StreamHeader.ofVarint_eq_error hfour]
          simp only [ne_eq, hfour, not_false_eq_true, if_true]
          rfl
    · simp only [if_neg hwt]

-- The id takes eight bytes here although one would do.
example : classifyUniStreamChecked [0x40, 0x54, 0xc0, 0, 0, 0, 0, 0, 0, 4, 7] =
    .ok (.webTransport 4 10) := by decide

theorem classifyUniStreamChecked_append {buf : Bytes}
    (h : classifyUniStreamChecked buf ≠ .error .bufferTooShort) (more : Bytes) :
    classifyUniStreamChecked (buf ++ more) = classifyUniStreamChecked buf := by
  rw [classifyUniStreamChecked_eq] at h
  rw [classifyUniStreamChecked_eq, classifyUniStreamChecked_eq]
  cases htype : VarInt.decode buf with
  | error e =>
    rw [htype] at h
    exact absurd rfl h
  | ok read =>
    obtain ⟨streamType, n⟩ := read
    rw [htype] at h
    rw [VarInt.decode_append htype more]
    by_cases hwt : streamType.get = UNIDIRECTIONAL_STREAM_TYPE
    · simp only [if_pos hwt] at h ⊢
      have hne : StreamHeader.decodeUnidirectionalChecked buf ≠ .error .bufferTooShort := by
        intro hshort
        rw [hshort] at h
        exact h rfl
      have hsame : StreamHeader.decodeUnidirectionalChecked (buf ++ more) =
          StreamHeader.decodeUnidirectionalChecked buf :=
        (StreamHeader.decodeWith_stable _).append buf hne more
      rw [hsame]
    · simp only [if_neg hwt]

theorem classifyUniStreamChecked_webTransport (buf : Bytes) (id offset : Nat) :
    classifyUniStreamChecked buf = .ok (.webTransport id offset) ↔
      ∃ h, StreamHeader.decodeUnidirectionalChecked buf = .ok (h, offset) ∧ h.sessionId = id := by
  rw [classifyUniStreamChecked_eq]
  cases htype : VarInt.decode buf with
  | error e =>
    simp [StreamHeader.decodeUnidirectionalChecked, StreamHeader.decodeWith, htype]
  | ok read =>
    obtain ⟨streamType, n⟩ := read
    by_cases hwt : streamType.get = UNIDIRECTIONAL_STREAM_TYPE
    · simp only [if_pos hwt]
      cases StreamHeader.decodeUnidirectionalChecked buf with
      | error e => simp [Except.map]
      | ok read =>
        obtain ⟨h, m⟩ := read
        simp only [Except.map, Except.ok.injEq, ClassifiedUniStream.webTransport.injEq,
          Prod.mk.injEq]
        constructor
        · rintro ⟨hid, hoffset⟩
          exact ⟨h, ⟨rfl, hoffset⟩, hid⟩
        · rintro ⟨h', ⟨rfl, hoffset⟩, hid⟩
          exact ⟨hid, hoffset⟩
    · rw [StreamHeader.decodeUnidirectionalChecked, StreamHeader.decodeWith_of_other htype hwt]
      simp [hwt]

theorem classifyUniStreamChecked_error {buf : Bytes} {streamType : VarInt} {n : Nat}
    (htype : VarInt.decode buf = .ok (streamType, n))
    (hwt : streamType.get = UNIDIRECTIONAL_STREAM_TYPE) (e : StreamHeaderDecodeError) :
    classifyUniStreamChecked buf = .error e ↔
      StreamHeader.decodeUnidirectionalChecked buf = .error e := by
  rw [classifyUniStreamChecked_eq, htype]
  simp only [if_pos hwt]
  cases StreamHeader.decodeUnidirectionalChecked buf with
  | error e' => simp [Except.map]
  | ok read => simp [Except.map]

/-! ## Datagrams -/

namespace Datagram

theorem new_eq_ok {id : Nat} {payload : Bytes} {d : Datagram} :
    new id payload = .ok d ↔ d = ⟨id, payload⟩ ∧ id ≤ 2 ^ 62 - 1 ∧ id % 4 = 0 := by
  unfold new VarInt.max
  constructor
  · intro h
    split_ifs at h with hrange hfour
    cases h
    exact ⟨rfl, Nat.not_lt.mp hrange, not_not.mp hfour⟩
  · rintro ⟨rfl, hrange, hfour⟩
    rw [if_neg (Nat.not_lt.mpr hrange), if_neg (not_not_intro hfour)]

theorem decode_eq_ok {buf : Bytes} {d : Datagram} :
    decode buf = .ok d ↔ ∃ q n, VarInt.decode buf = .ok (q, n) ∧ q.get ≤ 2 ^ 60 - 1 ∧
      d = ⟨q.get * 4, buf.drop n⟩ := by
  unfold decode
  constructor
  · intro h
    rcases hq : VarInt.decode buf with e | ⟨q, n⟩
    · rw [hq] at h
      cases h
    · rw [hq] at h
      simp only at h
      split_ifs at h with hrange
      cases h
      exact ⟨q, n, rfl, Nat.not_lt.mp hrange, rfl⟩
  · rintro ⟨q, n, hq, hrange, rfl⟩
    simp only [hq, if_neg (Nat.not_lt.mpr hrange)]

theorem decode_of_large {buf : Bytes} {q : VarInt} {n : Nat}
    (hq : VarInt.decode buf = .ok (q, n)) (hlarge : 2 ^ 60 - 1 < q.get) :
    decode buf = .error .invalidQuarterStreamId := by
  simp only [decode, hq, if_pos hlarge]

/-- The quarter of an id in range is one that has an encoding, and four times it is the id again. -/
theorem decode_encode {d : Datagram} (hrange : d.sessionId ≤ 2 ^ 62 - 1)
    (hfour : d.sessionId % 4 = 0) : ∃ bytes, d.encode = some bytes ∧ decode bytes = .ok d := by
  have hle : d.quarterStreamId ≤ 2 ^ 62 - 1 := by
    unfold quarterStreamId
    omega
  have hq : VarInt.new d.quarterStreamId = .ok ⟨d.quarterStreamId, hle⟩ :=
    dif_neg (Nat.not_lt.mpr hle)
  refine ⟨_, by rw [encode, hq], ?_⟩
  refine decode_eq_ok.mpr ⟨_, _, VarInt.decode_encode _ _, ?_, ?_⟩
  · show d.sessionId / 4 ≤ 2 ^ 60 - 1
    omega
  · have hid : d.sessionId / 4 * 4 = d.sessionId := by omega
    rw [← VarInt.encode_length, List.drop_left' rfl]
    show d = ⟨d.sessionId / 4 * 4, d.payload⟩
    rw [hid]

theorem decodeConsumed_eq_ok {buf : Bytes} {d : Datagram} {n : Nat} :
    decodeConsumed buf = .ok (d, n) ↔ decode buf = .ok d ∧ n = buf.length := by
  unfold decodeConsumed
  cases decode buf with
  | error e => simp [Except.map]
  | ok d' =>
    simp only [Except.map, Except.ok.injEq, Prod.mk.injEq]
    rw [@eq_comm _ buf.length]

/-- What is decoded could have been sent. -/
theorem new_of_decode {buf : Bytes} {d : Datagram} (h : decode buf = .ok d) :
    new d.sessionId d.payload = .ok d := by
  obtain ⟨q, n, -, hrange, rfl⟩ := decode_eq_ok.mp h
  refine new_eq_ok.mpr ⟨rfl, ?_, ?_⟩
  · show q.get * 4 ≤ 2 ^ 62 - 1
    omega
  · exact Nat.mul_mod_left q.get 4

end Datagram

/-- **Headers and datagrams** are read back with the id they were made for, an id that no session
can have is rejected in every encoding, and the parser that classifies a stream says of a session's
stream what the parser of its header says. -/
theorem stream_headers_and_datagrams :
    (∀ id, (∃ h, StreamHeader.new id = .ok h) ↔ id ≤ 2 ^ 62 - 1 ∧ id % 4 = 0) ∧
    (∀ id h, StreamHeader.new id = .ok h → h.sessionId = id ∧ ∀ payload,
      StreamHeader.decodeUnidirectionalChecked (h.encodeUnidirectional ++ payload) =
          .ok (h, h.encodedSize) ∧
        StreamHeader.decodeBidirectionalChecked (h.encodeBidirectional ++ payload) =
          .ok (h, h.encodedSize) ∧
        h.encodeUnidirectional.length = h.encodedSize ∧
        h.encodeBidirectional.length = h.encodedSize) ∧
    (∀ id payload d, Datagram.new id payload = .ok d → d.sessionId = id ∧ d.payload = payload ∧
      ∃ bytes, d.encode = some bytes ∧ Datagram.decodeConsumed bytes = .ok (d, bytes.length)) ∧
    (∀ buf first n id m, VarInt.decode buf = .ok (first, n) →
      VarInt.decode (buf.drop n) = .ok (id, m) → id.get % 4 ≠ 0 →
        (first.get = UNIDIRECTIONAL_STREAM_TYPE →
          StreamHeader.decodeUnidirectionalChecked buf = .error .invalidSessionId) ∧
        (first.get = BIDIRECTIONAL_SIGNAL_VALUE →
          StreamHeader.decodeBidirectionalChecked buf = .error .invalidSessionId)) ∧
    (∀ buf h k, (StreamHeader.decodeUnidirectionalChecked buf = .ok (h, k) ↔
        StreamHeader.Starts UNIDIRECTIONAL_STREAM_TYPE buf h.sessionId k) ∧
      (StreamHeader.decodeBidirectionalChecked buf = .ok (h, k) ↔
        StreamHeader.Starts BIDIRECTIONAL_SIGNAL_VALUE buf h.sessionId k)) ∧
    (∀ buf q n, VarInt.decode buf = .ok (q, n) → 2 ^ 60 - 1 < q.get →
      Datagram.decodeConsumed buf = .error .invalidQuarterStreamId) ∧
    (∀ buf d n, Datagram.decodeConsumed buf = .ok (d, n) →
      Datagram.new d.sessionId d.payload = .ok d) ∧
    (∀ buf id offset, classifyUniStreamChecked buf = .ok (.webTransport id offset) ↔
      ∃ h, StreamHeader.decodeUnidirectionalChecked buf = .ok (h, offset) ∧ h.sessionId = id) ∧
    (∀ buf streamType n e, VarInt.decode buf = .ok (streamType, n) →
      streamType.get = UNIDIRECTIONAL_STREAM_TYPE →
        (classifyUniStreamChecked buf = .error e ↔
          StreamHeader.decodeUnidirectionalChecked buf = .error e)) ∧
    (∀ buf more,
      (classifyUniStreamChecked buf ≠ .error .bufferTooShort →
        classifyUniStreamChecked (buf ++ more) = classifyUniStreamChecked buf) ∧
      (StreamHeader.decodeUnidirectionalChecked buf ≠ .error .bufferTooShort →
        StreamHeader.decodeUnidirectionalChecked (buf ++ more) =
          StreamHeader.decodeUnidirectionalChecked buf) ∧
      (StreamHeader.decodeBidirectionalChecked buf ≠ .error .bufferTooShort →
        StreamHeader.decodeBidirectionalChecked (buf ++ more) =
          StreamHeader.decodeBidirectionalChecked buf)) := by
  refine ⟨StreamHeader.new_isOk, ?_, ?_, ?_, ?_, ?_, ?_,
    classifyUniStreamChecked_webTransport, ?_, ?_⟩
  · intro id h hnew
    refine ⟨StreamHeader.new_eq_ok.mp hnew, ?_⟩
    intro payload
    exact ⟨h.decodeUnidirectional_encode payload, h.decodeBidirectional_encode payload,
      StreamHeader.encodeWith_length rfl h, StreamHeader.encodeWith_length rfl h⟩
  · intro id payload d hnew
    obtain ⟨rfl, hrange, hfour⟩ := Datagram.new_eq_ok.mp hnew
    obtain ⟨bytes, hencode, hdecode⟩ := Datagram.decode_encode (d := ⟨id, payload⟩) hrange hfour
    exact ⟨rfl, rfl, bytes, hencode, Datagram.decodeConsumed_eq_ok.mpr ⟨hdecode, rfl⟩⟩
  · intro buf first n id m hfirst hid hfour
    have hreject : ∀ value, first.get = value →
        StreamHeader.decodeWith value buf = .error .invalidSessionId := by
      intro value hvalue
      rw [StreamHeader.decodeWith_of_varints hfirst hvalue hid,
        StreamHeader.ofVarint_eq_error hfour]
      rfl
    exact ⟨hreject _, hreject _⟩
  · intro buf h k
    exact ⟨StreamHeader.decodeWith_eq_ok, StreamHeader.decodeWith_eq_ok⟩
  · intro buf q n hq hlarge
    rw [Datagram.decodeConsumed, Datagram.decode_of_large hq hlarge]
    rfl
  · intro buf d n hdecode
    exact Datagram.new_of_decode (Datagram.decodeConsumed_eq_ok.mp hdecode).1
  · intro buf streamType n e htype hwt
    exact classifyUniStreamChecked_error htype hwt e
  · intro buf more
    refine ⟨?_, ?_, ?_⟩
    · intro h
      exact classifyUniStreamChecked_append h more
    · intro h
      exact (StreamHeader.decodeWith_stable _).append buf h more
    · intro h
      exact (StreamHeader.decodeWith_stable _).append buf h more

end Http3
