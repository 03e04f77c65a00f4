import Http3.Framing
import Http3.Stream.Request

/-!
# Reading a request stream

HEADERS and DATA as a request stream takes them off its buffer: a frame that is complete is handed
out whatever follows it, and one that is not is waited for.
-/

namespace Http3

open Bytes

/-- The frames that make up a message. -/
def isMessage : Frame → Bool
  | .data _ | .headers _ => true
  | _ => false

theorem fromType_message {t : Nat} (h : FrameType.fromType t = some .data ∨
    FrameType.fromType t = some .headers) : t < 2 := by
  unfold FrameType.fromType at h
  split at h <;> simp at h ⊢

theorem decodePayload_message {t : VarInt} {hn : FrameType.isHttp2Only t.get = false}
    {payload : Bytes} {frame : Frame} (h : decodePayload t hn payload = .ok frame)
    (hm : isMessage frame = true) : t.get < 2 := by
  unfold decodePayload at h
  split at h
  · exact fromType_message (.inl ‹_›)
  · exact fromType_message (.inr ‹_›)
  · simp only [decodeSettingsFrame] at h
    cases hp : decodeSettingsLoop .new payload.length payload <;> rw [hp] at h <;> cases h
    cases hm
  · simp only [decodeGoawayFrame] at h
    cases hp : decodeSingleVarInt payload <;> rw [hp] at h <;> cases h
    cases hm
  · simp only [decodeMaxPushIdFrame] at h
    cases hp : decodeSingleVarInt payload <;> rw [hp] at h <;> cases h
    cases hm
  · cases h
  · cases h
  · cases h
    cases hm

theorem decodeFrame_message {bytes : Bytes} {frame : Frame} {n : Nat}
    (h : decodeFrame bytes = .ok (frame, n)) (hm : isMessage frame = true) :
    ∃ header, decodeFrameHeader bytes = .ok header ∧ n = header.totalLen ∧
      header.frameType.get < 2 := by
  obtain ⟨header, hheader, hn, hle⟩ := decodeFrame_length h
  refine ⟨header, hheader, hn, ?_⟩
  rw [decodeFrame_of_header hheader, if_neg (Nat.not_lt.mpr (hn ▸ hle))] at h
  cases hp : decodePayload header.frameType (decodeFrameHeader_notHttp2 hheader)
      ((bytes.take header.totalLen).drop header.headerLen) with
  | error e =>
    rw [hp] at h
    cases h
  | ok f =>
    rw [hp] at h
    cases h
    exact decodePayload_message hp hm

/-- No prefix of such a frame looks like a WT_STREAM. -/
theorem message_notWtStream {bytes : Bytes} {frame : Frame} {n : Nat}
    (h : decodeFrame bytes = .ok (frame, n)) (hm : isMessage frame = true) {buf : Bytes}
    (rest more : Bytes) (hbuf : buf ++ more = bytes ++ rest) : isWtStreamFrameType buf = false := by
  obtain ⟨header, hheader, -, htype⟩ := decodeFrame_message h hm
  unfold isWtStreamFrameType decodeFrameType
  rcases ht : VarInt.decode buf with e | ⟨t, tn⟩
  · rfl
  · have hfull := VarInt.decode_append ht more
    rw [hbuf] at hfull
    have hsame : t = header.frameType := by
      unfold decodeFrameHeader at hheader
      rcases ht' : VarInt.decode bytes with e | ⟨t', tn'⟩ <;> rw [ht'] at hheader
      · cases hheader
      · rw [VarInt.decode_append ht' rest] at hfull
        dsimp only at hheader
        split at hheader
        · cases hheader
        · split at hheader <;> cases hheader
          cases hfull
          rfl
    subst hsame
    simp only [beq_eq_false_iff_ne]
    omega

/-- A type that is not reserved, a length and a payload are read back as one frame. -/
theorem decodeFrame_encodeWithHeader {t : VarInt} {payload bytes : Bytes}
    (hn : FrameType.isHttp2Only t.get = false) (h : encodeWithHeader t payload = some bytes) :
    decodeFrame bytes =
      (decodePayload t hn payload).map fun frame => (frame, bytes.length) := by
  unfold encodeWithHeader at h
  rcases hlen : VarInt.new payload.length with e | len
  · rw [hlen] at h
    cases h
  · rw [hlen] at h
    cases h
    have hget : len.get = payload.length := by
      unfold VarInt.new at hlen
      split at hlen <;> cases hlen
      rfl
    have hheader : decodeFrameHeader (t.encode ++ len.encode ++ payload) =
        .ok ⟨t, len, (t.encode ++ len.encode).length⟩ := by
      have hfirst : VarInt.decode (t.encode ++ len.encode ++ payload) = .ok (t, t.encodedLen) := by
        rw [List.append_assoc]
        exact VarInt.decode_encode t _
      have hdrop : (t.encode ++ len.encode ++ payload).drop t.encodedLen =
          len.encode ++ payload := by
        rw [← VarInt.encode_length, List.append_assoc, List.drop_left]
      simp only [decodeFrameHeader, hfirst, hdrop, VarInt.decode_encode len payload, hn,
        Bool.false_eq_true, if_false, List.length_append, VarInt.encode_length]
    have htotal : (⟨t, len, (t.encode ++ len.encode).length⟩ : FrameHeader).totalLen =
        (t.encode ++ len.encode ++ payload).length := by
      simp only [FrameHeader.totalLen, List.length_append, hget]
    rw [decodeFrame_of_header hheader, htotal, if_neg (Nat.lt_irrefl _), List.take_length]
    simp only [List.drop_left]

theorem decodeFrame_encode {frame : Frame} {bytes : Bytes} (h : encodeFrame frame = some bytes)
    (hm : isMessage frame = true) : decodeFrame bytes = .ok (frame, bytes.length) := by
  cases frame with
  | data payload => exact decodeFrame_encodeWithHeader (by decide) h
  | headers encoded => exact decodeFrame_encodeWithHeader (by decide) h
  | _ => cases hm

namespace RequestStream

variable {s : RequestStream} {bytes rest : Bytes} {frame : Frame}

/-- The stream without its first frame. -/
def dropFrame (s : RequestStream) (rest : Bytes) : RequestStream :=
  { s with recvBuf := { s.recvBuf with data := rest }, firstFrameProcessed := true }

theorem nextFrame_complete (h : decodeFrame bytes = .ok (frame, bytes.length))
    (hm : isMessage frame = true) (hbuf : s.recvBuf.data = bytes ++ rest) :
    s.nextFrame = (.ok (some frame), s.dropFrame rest) := by
  obtain ⟨header, hheader, hn, htype⟩ := decodeFrame_message h hm
  have hwt : isWtStreamFrameType s.recvBuf.peek = false :=
    message_notWtStream h hm rest [] (by rw [List.append_nil]; exact hbuf)
  have hmore : decodeFrameHeader s.recvBuf.peek = .ok header := by
    rw [RecvBuffer.peek, hbuf, decodeFrameHeader_append (by rw [hheader]; exact nofun), hheader]
  have hlong : ¬s.recvBuf.peek.length < header.totalLen := by
    rw [RecvBuffer.peek, hbuf, List.length_append]
    omega
  have hsettings : header.frameType.get ≠ 0x04 := by omega
  have hframe : decodeFrame s.recvBuf.peek = .ok (frame, bytes.length) := by
    rw [RecvBuffer.peek, hbuf]
    exact decodeFrame_append h rest
  simp only [nextFrame, hwt, Bool.and_false, Bool.false_eq_true, if_false, hmore, if_neg hlong,
    if_neg hsettings, hframe, dropFrame, RecvBuffer.consume, hbuf, List.drop_left]

theorem nextFrame_partial (h : decodeFrame bytes = .ok (frame, bytes.length))
    (hm : isMessage frame = true) (hfin : s.recvBuf.fin = false)
    (hbuf : s.recvBuf.data ++ rest = bytes) (hrest : rest ≠ []) :
    s.nextFrame = (.ok none, s) := by
  obtain ⟨header, hheader, hn, htype⟩ := decodeFrame_message h hm
  have hwt : isWtStreamFrameType s.recvBuf.peek = false :=
    message_notWtStream h hm [] rest (by rw [List.append_nil]; exact hbuf)
  have hlen : s.recvBuf.data.length < bytes.length := by
    have := List.length_pos_iff.mpr hrest
    rw [← hbuf, List.length_append]
    omega
  simp only [nextFrame, hwt, Bool.and_false, Bool.false_eq_true, if_false, RecvBuffer.isFin, hfin]
  by_cases hshort : decodeFrameHeader s.recvBuf.peek = .error .bufferTooShort
  · simp only [hshort]
  · have hfull := decodeFrameHeader_append hshort rest
    rw [RecvBuffer.peek, hbuf, hheader] at hfull
    rw [RecvBuffer.peek, ← hfull]
    simp only [if_pos (hn ▸ hlen)]

theorem processRaw_of_frame (h : decodeFrame bytes = .ok (frame, bytes.length))
    (hm : isMessage frame = true) (hbuf : s.recvBuf.data = bytes ++ rest) :
    s.processRaw =
      match frame with
      | .headers encoded => (s.dropFrame rest).processHeaders encoded
      | .data payload => (s.dropFrame rest).processData payload
      | _ => (.ok none, s) := by
  have hlen := (decodeFrame_bounds h).1
  have hnonempty : s.recvBuf.peek.isEmpty = false := by
    rw [RecvBuffer.peek, hbuf, List.isEmpty_eq_false_iff]
    intro he
    rw [(List.append_eq_nil_iff.mp he).1] at hlen
    cases hlen
  simp only [processRaw, processRawLoop, hnonempty, Bool.false_eq_true, if_false,
    nextFrame_complete h hm hbuf]
  cases frame with
  | data payload => rfl
  | headers encoded => rfl
  | _ => cases hm

/-- The stream with a piece of the body; what belongs to a session is not kept. -/
def keepBody (s : RequestStream) (payload : Bytes) : RequestStream :=
  if s.isWtConnect then s else { s with recvBody := s.recvBody ++ payload }

/-- Does the stream take so much more? -/
def Takes (s : RequestStream) (n : Nat) : Prop :=
  s.isWtConnect = true ∨ s.recvBody.length + n ≤ s.maxReceivedBodySize

theorem processRaw_data {payload : Bytes}
    (h : decodeFrame bytes = .ok (.data payload, bytes.length))
    (hbuf : s.recvBuf.data = bytes ++ rest) (hbody : s.recvState = .receivingBody)
    (htakes : s.Takes payload.length) :
    s.processRaw = (.ok (some (.data payload)), (s.dropFrame rest).keepBody payload) := by
  rw [processRaw_of_frame h rfl hbuf]
  simp only [processData, dropFrame, hbody, keepBody]
  obtain hwt | hsize := htakes
  · simp [hwt]
  · cases hwt : s.isWtConnect with
    | true => simp
    | false => simp [Nat.not_lt.mpr hsize]

/-- Without a complete frame the stream waits. -/
theorem processRaw_waits (hfin : s.recvBuf.fin = false)
    (hwait : s.recvBuf.data = [] ∨ s.nextFrame = (.ok none, s)) :
    s.processRaw = (.ok none, s) := by
  cases hempty : s.recvBuf.peek.isEmpty with
  | true =>
    simp only [processRaw, processRawLoop, hempty, if_true, processEmpty, RecvBuffer.isFin, hfin,
      Bool.false_and, Bool.false_eq_true, if_false]
  | false =>
    obtain hnil | hnext := hwait
    · rw [RecvBuffer.peek, hnil] at hempty
      cases hempty
    · simp only [processRaw, processRawLoop, hempty, Bool.false_eq_true, if_false, hnext]

end RequestStream

end Http3
