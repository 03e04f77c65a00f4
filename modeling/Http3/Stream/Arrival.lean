import Http3.Framing
import Http3.Stream.Request

/-!
# The frame at the front of a buffer

Request streams and the control stream look for the next frame in the same way: WT_STREAM has no
length and is seen by its type alone, a header is needed to know how long the frame is, and the
payload is read once all of it is there. They differ in the errors.
-/

namespace Http3

open Bytes

/-- The errors of a stream: for WT_STREAM, for a complete SETTINGS, and for what does not decode. -/
structure FrameRules where
  wtStream : Option Error
  settings : Option Error
  undecoded : FrameDecodeError → Error

/-- The first frame and its length; `none` while it may still be arriving. -/
def frameAt (rules : FrameRules) (data : Bytes) : Option (Except Error (Frame × Nat)) :=
  match if isWtStreamFrameType data then rules.wtStream else none with
  | some e => some (.error e)
  | none =>
    match decodeFrameHeader data with
    | .error .bufferTooShort => none
    | .error e => some (.error (ControlStreamRecv.frameHeaderError e))
    | .ok header =>
      if data.length < header.totalLen then none
      else
        match if header.frameType.get = 0x04 then rules.settings else none with
        | some e => some (.error e)
        | none => some ((decodeFrame data).mapError rules.undecoded)

section FrameAt

variable {rules : FrameRules} {data : Bytes} {frame : Frame} {n : Nat}

theorem isWtStreamFrameType_append (h : isWtStreamFrameType data = true) (more : Bytes) :
    isWtStreamFrameType (data ++ more) = true := by
  unfold isWtStreamFrameType decodeFrameType at h ⊢
  rcases ht : VarInt.decode data with e | ⟨t, tn⟩
  · simp [ht] at h
  · simpa [VarInt.decode_append ht more, ht] using h

/-- With a header the type is known, and it stays. -/
theorem isWtStreamFrameType_stays (h : decodeFrameHeader data ≠ .error .bufferTooShort)
    (more : Bytes) : isWtStreamFrameType (data ++ more) = isWtStreamFrameType data := by
  unfold decodeFrameHeader at h
  unfold isWtStreamFrameType decodeFrameType
  rcases ht : VarInt.decode data with e | ⟨t, tn⟩
  · simp [ht] at h
  · rw [VarInt.decode_append ht more]

theorem isWtStreamFrameType_of_header {header : FrameHeader}
    (h : decodeFrameHeader data = .ok header) :
    isWtStreamFrameType data = (header.frameType.get == 0x41) := by
  unfold decodeFrameHeader at h
  unfold isWtStreamFrameType decodeFrameType
  rcases ht : VarInt.decode data with e | ⟨t, tn⟩ <;> rw [ht] at h
  · cases h
  · dsimp only at h
    split at h
    · cases h
    · split at h <;> cases h
      rfl

theorem frameAt_early {e : Error} (hwt : isWtStreamFrameType data = true)
    (he : rules.wtStream = some e) : frameAt rules data = some (.error e) := by
  simp only [frameAt, hwt, if_true, he]

theorem frameAt_noHeader {e : FrameDecodeError}
    (hwt : (if isWtStreamFrameType data then rules.wtStream else none) = none)
    (h : decodeFrameHeader data = .error e) :
    frameAt rules data =
      if e = .bufferTooShort then none
      else some (.error (ControlStreamRecv.frameHeaderError e)) := by
  simp only [frameAt, hwt, h]
  cases e <;> rfl

theorem frameAt_header {header : FrameHeader}
    (hwt : (if isWtStreamFrameType data then rules.wtStream else none) = none)
    (h : decodeFrameHeader data = .ok header) :
    frameAt rules data =
      if data.length < header.totalLen then none
      else
        match if header.frameType.get = 0x04 then rules.settings else none with
        | some e => some (.error e)
        | none => some ((decodeFrame data).mapError rules.undecoded) := by
  simp only [frameAt, hwt, h]

/-- What was said of a frame stays, whatever follows. -/
theorem frameAt_append (h : frameAt rules data ≠ none) (more : Bytes) :
    frameAt rules (data ++ more) = frameAt rules data := by
  cases hwt : if isWtStreamFrameType data then rules.wtStream else none with
  | some e =>
    have htype : isWtStreamFrameType data = true := by
      by_contra hne
      simp [hne] at hwt
    rw [if_pos htype] at hwt
    rw [frameAt_early htype hwt, frameAt_early (isWtStreamFrameType_append htype more) hwt]
  | none =>
    have hshort : decodeFrameHeader data ≠ .error .bufferTooShort := by
      intro hshort
      rw [frameAt_noHeader hwt hshort] at h
      exact h rfl
    have hmore := decodeFrameHeader_append hshort more
    have hwt' : (if isWtStreamFrameType (data ++ more) then rules.wtStream else none) = none := by
      rw [isWtStreamFrameType_stays hshort more, hwt]
    cases hheader : decodeFrameHeader data with
    | error e =>
      rw [hheader] at hmore
      rw [frameAt_noHeader hwt hheader, frameAt_noHeader hwt' hmore]
    | ok header =>
      rw [hheader] at hmore
      rw [frameAt_header hwt hheader] at h ⊢
      rw [frameAt_header hwt' hmore]
      by_cases hlen : data.length < header.totalLen
      · exact absurd (if_pos hlen) h
      · have hlong : ¬(data ++ more).length < header.totalLen := by
          rw [List.length_append]
          omega
        have hframe : decodeFrame (data ++ more) = decodeFrame data := by
          rw [decodeFrame_of_header hheader, decodeFrame_of_header hmore, if_neg hlen,
            if_neg hlong, List.take_append_of_le_length (Nat.le_of_not_lt hlen)]
        rw [if_neg hlen, if_neg hlong, hframe]

theorem frameAt_ok (h : frameAt rules data = some (.ok (frame, n))) :
    decodeFrame data = .ok (frame, n) := by
  cases hwt : if isWtStreamFrameType data then rules.wtStream else none with
  | some e =>
    simp only [frameAt, hwt] at h
    cases h
  | none =>
    cases hheader : decodeFrameHeader data with
    | error e =>
      rw [frameAt_noHeader hwt hheader] at h
      split at h <;> cases h
    | ok header =>
      rw [frameAt_header hwt hheader] at h
      split at h
      · cases h
      · split at h
        · cases h
        · cases hframe : decodeFrame data with
          | error e =>
            rw [hframe] at h
            cases h
          | ok r =>
            rw [hframe] at h
            cases h
            rfl

theorem frameAt_bounds (h : frameAt rules data = some (.ok (frame, n))) :
    2 ≤ n ∧ n ≤ data.length :=
  decodeFrame_bounds (frameAt_ok h)

end FrameAt

/-! ## Request streams -/

namespace RequestStream

/-- WT_STREAM is an error except in the first bytes that a client sends on a stream of its own. -/
def frameRules (s : RequestStream) : FrameRules where
  wtStream := if s.serverFirstFrame then none else some (.connectionError .frameUnexpected)
  settings := some (.connectionError .frameUnexpected)
  undecoded := frameError

/-- The stream without its first `n` bytes, which were a frame. -/
def take (s : RequestStream) (n : Nat) : RequestStream :=
  { s with recvBuf := s.recvBuf.consume n, firstFrameProcessed := true }

theorem nextFrame_eq (s : RequestStream) :
    s.nextFrame =
      match frameAt s.frameRules s.recvBuf.peek with
      | none => (if s.recvBuf.isFin then .error (.connectionError .frameError) else .ok none, s)
      | some (.error e) => (.error e, s)
      | some (.ok (frame, n)) => (.ok (some frame), s.take n) := by
  unfold nextFrame
  dsimp only
  by_cases hearly : (!s.serverFirstFrame && isWtStreamFrameType s.recvBuf.peek) = true
  · obtain ⟨hfirst, hwt⟩ := Bool.and_eq_true_iff.mp hearly
    have hrule : s.frameRules.wtStream = some (.connectionError .frameUnexpected) := by
      rw [Bool.not_eq_true'] at hfirst
      simp only [frameRules, hfirst, Bool.false_eq_true, if_false]
    rw [if_pos hearly, frameAt_early hwt hrule]
  · have hwt : (if isWtStreamFrameType s.recvBuf.peek then s.frameRules.wtStream else none) =
        none := by
      cases hfirst : s.serverFirstFrame with
      | true => simp only [frameRules, hfirst, if_true, ite_self]
      | false =>
        rw [hfirst, Bool.not_false, Bool.true_and] at hearly
        rw [if_neg hearly]
    rw [if_neg hearly]
    cases hheader : decodeFrameHeader s.recvBuf.peek with
    | error e =>
      rw [frameAt_noHeader hwt hheader]
      cases e <;> rfl
    | ok header =>
      rw [frameAt_header hwt hheader]
      by_cases hlen : s.recvBuf.peek.length < header.totalLen
      · simp only [if_pos hlen]
      · by_cases htype : header.frameType.get = 0x04
        · simp only [if_neg hlen, if_pos htype, frameRules]
        · simp only [if_neg hlen, if_neg htype]
          cases decodeFrame s.recvBuf.peek <;> rfl

/-- What a frame does to the stream; `ok none` when it is ignored. -/
def processFrame (s : RequestStream) : Frame → Except Error (Option RawReceivedData) × RequestStream
  | .headers encoded => s.processHeaders encoded
  | .data data => s.processData data
  | .unknown _ => (.ok none, s)
  | _ => (.error (.connectionError .frameUnexpected), s)

theorem processRawLoop_fuel (fuel fuel' : Nat) (s : RequestStream)
    (h : s.recvBuf.peek.length < fuel) (h' : s.recvBuf.peek.length < fuel') :
    processRawLoop fuel s = processRawLoop fuel' s := by
  induction fuel generalizing fuel' s with
  | zero => exact absurd h (Nat.not_lt_zero _)
  | succ fuel ih =>
    cases fuel' with
    | zero => exact absurd h' (Nat.not_lt_zero _)
    | succ fuel' =>
      simp only [processRawLoop, nextFrame_eq]
      split
      · rfl
      · rcases hframe : frameAt s.frameRules s.recvBuf.peek with _ | e | ⟨frame, n⟩
        · cases s.recvBuf.isFin <;> rfl
        · rfl
        · have hn := frameAt_bounds hframe
          have hdrop : (s.take n).recvBuf.peek.length = s.recvBuf.peek.length - n :=
            List.length_drop
          cases frame with
          | unknown u => exact ih fuel' (s.take n) (by omega) (by omega)
          | _ => rfl

/-- One frame after the other, until one is reported. -/
theorem processRaw_eq (s : RequestStream) :
    s.processRaw =
      if s.recvBuf.peek.isEmpty then s.processEmpty
      else
        match frameAt s.frameRules s.recvBuf.peek with
        | none => (if s.recvBuf.isFin then .error (.connectionError .frameError) else .ok none, s)
        | some (.error e) => (.error e, s)
        | some (.ok (frame, n)) =>
          match (s.take n).processFrame frame with
          | (.ok none, t) => t.processRaw
          | r => r := by
  have hraw : s.processRaw = processRawLoop (s.recvBuf.peek.length + 1) s := rfl
  rw [hraw]
  simp only [processRawLoop, nextFrame_eq]
  split
  · rfl
  · rcases hframe : frameAt s.frameRules s.recvBuf.peek with _ | e | ⟨frame, n⟩
    · cases s.recvBuf.isFin <;> rfl
    · rfl
    · have hn := frameAt_bounds hframe
      have hdrop : (s.take n).recvBuf.peek.length = s.recvBuf.peek.length - n :=
        List.length_drop
      cases frame with
      | unknown u =>
        exact processRawLoop_fuel s.recvBuf.peek.length _ (s.take n) (by omega)
          (Nat.lt_succ_self _)
      | headers encoded =>
        simp only [processFrame, processHeaders]
        cases (s.take n).recvState <;> cases (s.take n).isConnect <;> rfl
      | data data =>
        simp only [processFrame, processData]
        split
        · rfl
        · split
          · rfl
          · split <;> rfl
      | _ => rfl

end RequestStream

/-! ## The control stream -/

namespace ControlStreamRecv

def frameRules (c : ControlStreamRecv) : FrameRules where
  wtStream := some (.connectionError
    (if c.recvState = .waitingSettings then .missingSettings else .frameUnexpected))
  settings := none
  undecoded := frameError

/-- The state behind a frame that may stand where it stands. -/
def accept (state : ControlRecvState) (frame : Frame) : Except Error ControlRecvState :=
  if state = .waitingSettings then
    match frame with
    | .settings _ => .ok .ready
    | _ => .error (.connectionError .missingSettings)
  else if checkReady frame then .ok state
  else .error (.connectionError .frameUnexpected)

/-- The stream without its first `n` bytes. -/
def take (c : ControlStreamRecv) (n : Nat) : ControlStreamRecv :=
  { c with recvBuf := c.recvBuf.consume n }

theorem processFrame_eq (c : ControlStreamRecv) :
    c.processFrame =
      match frameAt c.frameRules c.recvBuf.peek with
      | none => (.ok none, c)
      | some (.error e) => (.error e, c)
      | some (.ok (frame, n)) =>
        match accept c.recvState frame with
        | .error e => (.error e, c.take n)
        | .ok recvState => (.ok (some frame), { c.take n with recvState }) := by
  unfold processFrame
  dsimp only
  by_cases hwt : isWtStreamFrameType c.recvBuf.peek = true
  · rw [if_pos hwt, frameAt_early hwt rfl]
  · have hrule : (if isWtStreamFrameType c.recvBuf.peek then c.frameRules.wtStream else none) =
        none := if_neg hwt
    rw [if_neg hwt]
    cases hheader : decodeFrameHeader c.recvBuf.peek with
    | error e =>
      rw [frameAt_noHeader hrule hheader]
      cases e <;> rfl
    | ok header =>
      rw [frameAt_header hrule hheader]
      by_cases hlen : c.recvBuf.peek.length < header.totalLen
      · simp only [if_pos hlen]
      · simp only [if_neg hlen, frameRules, ite_self]
        rcases decodeFrame c.recvBuf.peek with e | ⟨frame, n⟩
        · rfl
        · by_cases hstate : c.recvState = .waitingSettings
          · cases frame <;> simp [accept, hstate, Except.mapError, take]
          · simp only [accept, if_neg hstate, Except.mapError]
            split <;> rfl

theorem process_eq {c : ControlStreamRecv} (h : c.recvState ≠ .waitingType) :
    c.process = c.processFrame := by
  unfold process
  split
  · rename_i hempty
    rw [processFrame_eq, hempty]
    rfl
  · split
    · contradiction
    · rfl
    · rfl

end ControlStreamRecv

end Http3
