import Http3.Lib.Writer
import Http3.Stream.Reading

/-!
# The frame codec

`encodedFrameLen`, `encodeFrameInto` and `decodeFrame` are three walks over one format. The first
two agree with the bytes of `encodeFrame`, and the third reads these back whatever follows them.
-/

namespace Http3

open Bytes

/-! ## The length of a frame -/

/-- The length of an encoding, as the length field of a frame. -/
def VarInt.encodedLenVarInt (v : VarInt) : VarInt :=
  ⟨v.encodedLen, Nat.le_trans v.encodedLen_le (by decide)⟩

def VarInt.ofLength (n : Nat) : Option VarInt := (VarInt.new n).toOption

def encodedSettingsPayloadLen (p : SettingsPayload) : Option VarInt :=
  VarInt.ofLength <| p.settings.foldl
    (fun total s => total + s.asWire.1.encodedLen + s.asWire.2.encodedLen) 0

def Frame.frameType : Frame → VarInt
  | .data _ => FrameType.data.code
  | .headers _ => FrameType.headers.code
  | .settings _ => FrameType.settings.code
  | .goaway _ => FrameType.goaway.code
  | .maxPushId _ => FrameType.maxPushId.code
  | .unknown f => f.frameType

def encodedPayloadLen : Frame → Option VarInt
  | .data payload => VarInt.ofLength payload.length
  | .headers fieldSection => VarInt.ofLength fieldSection.length
  | .settings p => encodedSettingsPayloadLen p
  | .goaway id => some id.encodedLenVarInt
  | .maxPushId id => some id.encodedLenVarInt
  | .unknown f => VarInt.ofLength f.payload.length

def encodedFrameLen (frame : Frame) : Option Nat :=
  (encodedPayloadLen frame).map fun payloadLen =>
    frame.frameType.encodedLen + payloadLen.encodedLen + payloadLen.get

/-! ## Writing into a buffer -/

def VarInt.encodeInto (v : VarInt) : SliceWriter UInt8 := fun buf =>
  if buf.length < v.encodedLen then none
  else some (v.encodedLen, v.encode ++ buf.drop v.encodedLen)

def encodeFrameHeader (frameType payloadLen : VarInt) : SliceWriter UInt8 := fun buf =>
  if buf.length < frameType.encodedLen + payloadLen.encodedLen then none
  else (frameType.encodeInto.andThen payloadLen.encodeInto) buf

/-- A payload that is copied as it is. -/
def encodePayloadFrame (frameType : VarInt) (payload : Bytes) : SliceWriter UInt8 := fun buf =>
  match VarInt.ofLength payload.length with
  | none => none
  | some payloadLen => ((encodeFrameHeader frameType payloadLen).andThen (.copy payload)) buf

def encodeDataFrame (payload : Bytes) : SliceWriter UInt8 :=
  encodePayloadFrame FrameType.data.code payload

def encodeHeadersFrame (fieldSection : Bytes) : SliceWriter UInt8 :=
  encodePayloadFrame FrameType.headers.code fieldSection

def encodeSettingsFrame (p : SettingsPayload) : SliceWriter UInt8 := fun buf =>
  match encodedSettingsPayloadLen p with
  | none => none
  | some payloadLen =>
    ((encodeFrameHeader FrameType.settings.code payloadLen).andThen
      (.each (fun s => s.asWire.1.encodeInto.andThen s.asWire.2.encodeInto) p.settings)) buf

/-- A payload that is one integer. -/
def encodeIdFrame (frameType id : VarInt) : SliceWriter UInt8 :=
  (encodeFrameHeader frameType id.encodedLenVarInt).andThen id.encodeInto

def encodeGoawayFrame (id : VarInt) : SliceWriter UInt8 := encodeIdFrame FrameType.goaway.code id

def encodeMaxPushIdFrame (id : VarInt) : SliceWriter UInt8 := encodeIdFrame FrameType.maxPushId.code id

def encodeUnknownFrame (f : UnknownFrame) : SliceWriter UInt8 := fun buf =>
  if f.frameType.get = 0x41 then none else encodePayloadFrame f.frameType f.payload buf

/-- `encode_frame` on a buffer of the caller. -/
def encodeFrameInto (frame : Frame) : SliceWriter UInt8 := fun buf =>
  match encodedFrameLen frame with
  | none => none
  | some required =>
    if buf.length < required then none
    else
      match frame with
      | .data payload => encodeDataFrame payload buf
      | .headers fieldSection => encodeHeadersFrame fieldSection buf
      | .settings p => encodeSettingsFrame p buf
      | .goaway id => encodeGoawayFrame id buf
      | .maxPushId id => encodeMaxPushIdFrame id buf
      | .unknown f => encodeUnknownFrame f buf

/-! ## One format -/

theorem VarInt.encodeInto_writes (v : VarInt) : v.encodeInto.Writes v.encode := by
  intro buf
  simp only [VarInt.encodeInto, SliceWriter.copy, VarInt.encode_length]

theorem VarInt.ofLength_eq (n : Nat) :
    VarInt.ofLength n = if h : n ≤ 2 ^ 62 - 1 then some ⟨n, h⟩ else none := by
  unfold VarInt.ofLength VarInt.new
  by_cases h : n > 2 ^ 62 - 1
  · rw [dif_pos h, dif_neg (by omega)]
    rfl
  · rw [dif_neg h, dif_pos (by omega)]
    rfl

theorem encodeFrameHeader_writes (t len : VarInt) :
    (encodeFrameHeader t len).Writes (t.encode ++ len.encode) := by
  intro buf
  have hboth := (t.encodeInto_writes.andThen len.encodeInto_writes) buf
  unfold encodeFrameHeader
  rw [hboth]
  simp only [SliceWriter.copy, List.length_append, VarInt.encode_length]
  split <;> rfl

theorem encodeWithHeader_eq (t : VarInt) (payload : Bytes) :
    encodeWithHeader t payload =
      (VarInt.ofLength payload.length).map fun len => t.encode ++ len.encode ++ payload := by
  unfold encodeWithHeader VarInt.ofLength
  cases VarInt.new payload.length <;> rfl

theorem settings_length (settings : List Setting) (n : Nat) :
    settings.foldl (fun total s => total + s.asWire.1.encodedLen + s.asWire.2.encodedLen) n =
      n + (settings.flatMap fun s => s.asWire.1.encode ++ s.asWire.2.encode).length := by
  induction settings generalizing n with
  | nil => rfl
  | cons s settings ih =>
    rw [List.foldl_cons, ih, List.flatMap_cons]
    simp only [List.length_append, VarInt.encode_length]
    omega

theorem encodedSettingsPayloadLen_eq (p : SettingsPayload) :
    encodedSettingsPayloadLen p = VarInt.ofLength (encodeSettings p).length := by
  unfold encodedSettingsPayloadLen encodeSettings
  rw [settings_length, Nat.zero_add]

/-- The payload of a frame on the wire. -/
def Frame.payload : Frame → Bytes
  | .data payload => payload
  | .headers fieldSection => fieldSection
  | .settings p => encodeSettings p
  | .goaway id => id.encode
  | .maxPushId id => id.encode
  | .unknown f => f.payload

theorem ofLength_encode (v : VarInt) :
    VarInt.ofLength v.encode.length = some v.encodedLenVarInt := by
  rw [VarInt.encode_length, VarInt.ofLength_eq,
    dif_pos (Nat.le_trans v.encodedLen_le (by decide))]
  rfl

theorem encodedPayloadLen_eq (frame : Frame) :
    encodedPayloadLen frame = VarInt.ofLength frame.payload.length := by
  cases frame with
  | data payload => rfl
  | headers fieldSection => rfl
  | settings p => exact encodedSettingsPayloadLen_eq p
  | goaway id => exact (ofLength_encode id).symm
  | maxPushId id => exact (ofLength_encode id).symm
  | unknown f => rfl

/-- Every frame but WT_STREAM is its type, the length of its payload and the payload. -/
theorem encodeFrame_eq {frame : Frame} (hwt : frame.frameType.get ≠ 0x41) :
    encodeFrame frame = encodeWithHeader frame.frameType frame.payload := by
  cases frame with
  | unknown f => exact if_neg hwt
  | _ => rfl

theorem encodedFrameLen_eq {frame : Frame} (hwt : frame.frameType.get ≠ 0x41) :
    encodedFrameLen frame = (encodeFrame frame).map List.length := by
  rw [encodeFrame_eq hwt, encodeWithHeader_eq]
  unfold encodedFrameLen
  rw [encodedPayloadLen_eq, VarInt.ofLength_eq]
  split
  · simp only [Option.map_some, List.length_append, VarInt.encode_length]
  · rfl

theorem encodePayloadFrame_writes {t : VarInt} {payload bytes : Bytes}
    (h : encodeWithHeader t payload = some bytes) : (encodePayloadFrame t payload).Writes bytes := by
  intro buf
  rw [encodeWithHeader_eq] at h
  unfold encodePayloadFrame
  cases hlen : VarInt.ofLength payload.length with
  | none =>
    rw [hlen] at h
    cases h
  | some len =>
    rw [hlen] at h
    cases h
    exact ((encodeFrameHeader_writes t len).andThen (.copy payload)) buf

theorem encodeSettingsFrame_writes {p : SettingsPayload} {bytes : Bytes}
    (h : encodeWithHeader FrameType.settings.code (encodeSettings p) = some bytes) :
    (encodeSettingsFrame p).Writes bytes := by
  intro buf
  rw [encodeWithHeader_eq] at h
  unfold encodeSettingsFrame
  rw [encodedSettingsPayloadLen_eq]
  cases hlen : VarInt.ofLength (encodeSettings p).length with
  | none =>
    rw [hlen] at h
    cases h
  | some len =>
    rw [hlen] at h
    cases h
    have hsettings := SliceWriter.Writes.each
      (fun s : Setting => s.asWire.1.encodeInto_writes.andThen s.asWire.2.encodeInto_writes)
      p.settings
    exact ((encodeFrameHeader_writes FrameType.settings.code len).andThen hsettings) buf

theorem encodeIdFrame_writes {t id : VarInt} {bytes : Bytes}
    (h : encodeWithHeader t id.encode = some bytes) : (encodeIdFrame t id).Writes bytes := by
  rw [encodeWithHeader_eq, ofLength_encode] at h
  cases h
  exact (encodeFrameHeader_writes t _).andThen id.encodeInto_writes

/-- The buffer gets the bytes of `encodeFrame` when there are any and they fit. -/
theorem encodeFrameInto_eq {frame : Frame} (hwt : frame.frameType.get ≠ 0x41) (buf : Bytes) :
    encodeFrameInto frame buf = (encodeFrame frame).bind fun bytes => SliceWriter.copy bytes buf := by
  unfold encodeFrameInto
  rw [encodedFrameLen_eq hwt]
  cases hframe : encodeFrame frame with
  | none => rfl
  | some bytes =>
    simp only [Option.map_some, Option.bind_some]
    by_cases hroom : buf.length < bytes.length
    · simp only [if_pos hroom, SliceWriter.copy]
    · simp only [if_neg hroom]
      rw [encodeFrame_eq hwt] at hframe
      cases frame with
      | data payload => exact encodePayloadFrame_writes hframe buf
      | headers fieldSection => exact encodePayloadFrame_writes hframe buf
      | settings p => exact encodeSettingsFrame_writes hframe buf
      | goaway id => exact encodeIdFrame_writes hframe buf
      | maxPushId id => exact encodeIdFrame_writes hframe buf
      | unknown f =>
        show (if f.frameType.get = 0x41 then none else encodePayloadFrame f.frameType f.payload buf) =
          SliceWriter.copy bytes buf
        rw [if_neg (show f.frameType.get ≠ 0x41 from hwt)]
        exact encodePayloadFrame_writes hframe buf

/-! ## Reading back -/

theorem Setting.fromWire_asWire (s : Setting) : Setting.fromWire s.asWire.1 s.asWire.2 = .ok s := by
  cases s with
  | enableConnectProtocol b => cases b <;> rfl
  | h3Datagram b => cases b <;> rfl
  | enableWebTransportDraft02 b => cases b <;> rfl
  | unknown u =>
    have hu := u.unknown
    unfold Setting.isKnownId at hu
    simp only [Bool.or_eq_false_iff, List.contains_eq_mem, decide_eq_false_iff_not, List.mem_cons,
      not_or] at hu
    simp [Setting.fromWire, Setting.asWire, hu]
  | _ => rfl

theorem decodeSettingsLoop_read (settings : List Setting) (acc : SettingsPayload) (fuel : Nat)
    (hnodup : ((acc.settings ++ settings).map Setting.id).Nodup)
    (hfuel : (settings.flatMap fun s => s.asWire.1.encode ++ s.asWire.2.encode).length ≤ fuel) :
    decodeSettingsLoop acc fuel
      (settings.flatMap fun s => s.asWire.1.encode ++ s.asWire.2.encode) =
        .ok ⟨acc.settings ++ settings, hnodup⟩ := by
  induction settings generalizing acc fuel with
  | nil =>
    have hacc : (⟨acc.settings ++ [], hnodup⟩ : SettingsPayload) = acc := by
      cases acc
      simp
    rw [hacc]
    cases fuel <;> rfl
  | cons s settings ih =>
    rw [List.flatMap_cons] at hfuel ⊢
    have hpos := VarInt.encodedLen_pos s.asWire.1
    cases fuel with
    | zero =>
      simp only [List.length_append, VarInt.encode_length] at hfuel
      omega
    | succ fuel =>
      have hadd : ∃ h, acc.add s = .ok ⟨acc.settings ++ [s], h⟩ := by
        have hnew : s.id ∉ acc.settings.map Setting.id := by
          rw [List.map_append, List.map_cons] at hnodup
          intro hmem
          exact (List.nodup_append.mp hnodup).2.2 _ hmem _ List.mem_cons_self rfl
        exact ⟨_, dif_neg hnew⟩
      obtain ⟨hacc, hadd⟩ := hadd
      have hne : s.asWire.1.encode ≠ [] := VarInt.encode_ne_nil _
      have hsecond : ∀ rest, (s.asWire.1.encode ++ rest).drop s.asWire.1.encodedLen = rest := by
        intro rest
        rw [← VarInt.encode_length, List.drop_left]
      have hrest : ∀ rest, (s.asWire.2.encode ++ rest).drop s.asWire.2.encodedLen = rest := by
        intro rest
        rw [← VarInt.encode_length, List.drop_left]
      simp only [decodeSettingsLoop, List.append_assoc, List.isEmpty_iff, List.append_eq_nil_iff,
        hne, false_and, if_false, VarInt.decode_encode, hsecond, Setting.fromWire_asWire, hadd,
        hrest]
      have hnext := ih ⟨acc.settings ++ [s], hacc⟩ fuel
        (by simpa only [List.append_assoc, List.singleton_append] using hnodup)
        (by
          simp only [List.length_append, VarInt.encode_length] at hfuel
          omega)
      simpa only [List.append_assoc, List.singleton_append] using hnext

theorem decodeSingleVarInt_encode (id : VarInt) : decodeSingleVarInt id.encode = .ok id := by
  have hread := VarInt.decode_encode id []
  rw [List.append_nil] at hread
  unfold decodeSingleVarInt
  rw [hread]
  simp only [VarInt.encode_length, ne_eq, not_true_eq_false, if_false]

theorem decodePayload_payload (frame : Frame)
    (hn : FrameType.isHttp2Only frame.frameType.get = false) :
    decodePayload frame.frameType hn frame.payload = .ok frame := by
  cases frame with
  | data payload => rfl
  | headers fieldSection => rfl
  | settings p =>
    have hloop := decodeSettingsLoop_read p.settings .new (encodeSettings p).length p.nodup
      (Nat.le_refl _)
    show decodeSettingsFrame (encodeSettings p) = .ok (.settings p)
    unfold decodeSettingsFrame encodeSettings
    unfold encodeSettings at hloop
    rw [hloop]
    rfl
  | goaway id =>
    show (decodeSingleVarInt id.encode).map Frame.goaway = _
    rw [decodeSingleVarInt_encode]
    rfl
  | maxPushId id =>
    show (decodeSingleVarInt id.encode).map Frame.maxPushId = _
    rw [decodeSingleVarInt_encode]
    rfl
  | unknown f =>
    have hunknown := f.unknown
    simp only [Frame.frameType, Frame.payload]
    unfold decodePayload
    split <;> rename_i ht <;> first | (rw [hunknown] at ht; cases ht) | rfl

theorem Frame.frameType_notHttp2 (frame : Frame) :
    FrameType.isHttp2Only frame.frameType.get = false := by
  cases frame with
  | unknown f => exact f.notHttp2
  | _ => rfl

/-- **Round trip**, with anything after the frame. -/
theorem decodeFrame_encodeFrame {frame : Frame} {bytes : Bytes}
    (hwt : frame.frameType.get ≠ 0x41) (h : encodeFrame frame = some bytes) (suffix : Bytes) :
    decodeFrame (bytes ++ suffix) = .ok (frame, bytes.length) := by
  have hn := frame.frameType_notHttp2
  rw [encodeFrame_eq hwt] at h
  have hread := decodeFrame_encodeWithHeader hn h
  rw [decodePayload_payload frame hn] at hread
  exact decodeFrame_append hread suffix

/-! ## What a decoder asks for -/

/-- The two integers of a header, and how long they are together. -/
def Announces (buf : Bytes) (frameType payloadLen : VarInt) (headerLen : Nat) : Prop :=
  ∃ typeLen lenLen, VarInt.decode buf = .ok (frameType, typeLen) ∧
    VarInt.decode (buf.drop typeLen) = .ok (payloadLen, lenLen) ∧ headerLen = typeLen + lenLen

/-- The header and the payload it declares are there. -/
def AllPresent (buf : Bytes) : Prop :=
  ∃ frameType payloadLen headerLen, Announces buf frameType payloadLen headerLen ∧
    headerLen + payloadLen.get ≤ buf.length

/-- The header is there, with a type that HTTP/3 does not have. -/
def AnnouncesHttp2Only (buf : Bytes) : Prop :=
  ∃ frameType payloadLen headerLen, Announces buf frameType payloadLen headerLen ∧
    FrameType.isHttp2Only frameType.get = true

theorem decodeFrameHeader_cases (buf : Bytes) :
    (decodeFrameHeader buf = .error .bufferTooShort ∧
        ∀ t len n, ¬Announces buf t len n) ∨
      ∃ t len n, Announces buf t len n ∧
        (∀ t' len' n', Announces buf t' len' n' → t' = t ∧ len' = len ∧ n' = n) ∧
        decodeFrameHeader buf =
          if FrameType.isHttp2Only t.get then .error (.http2Frame t) else .ok ⟨t, len, n⟩ := by
  unfold decodeFrameHeader
  cases ht : VarInt.decode buf with
  | error e =>
    refine .inl ⟨rfl, ?_⟩
    rintro t len n ⟨tn, ln, h, -⟩
    cases ht.symm.trans h
  | ok read =>
    obtain ⟨t, tn⟩ := read
    cases hl : VarInt.decode (buf.drop tn) with
    | error e =>
      refine .inl ⟨by simp only [hl], ?_⟩
      rintro t' len' n' ⟨tn', ln', h, h', -⟩
      cases ht.symm.trans h
      cases hl.symm.trans h'
    | ok read =>
      obtain ⟨len, ln⟩ := read
      refine .inr ⟨t, len, tn + ln, ⟨tn, ln, ht, hl, rfl⟩, ?_, by simp only [hl]⟩
      rintro t' len' n' ⟨tn', ln', h, h', rfl⟩
      cases ht.symm.trans h
      cases hl.symm.trans h'
      exact ⟨rfl, rfl, rfl⟩

theorem decodeSettingsLoop_error {acc : SettingsPayload} {fuel : Nat} {payload : Bytes}
    {e : FrameDecodeError} (h : decodeSettingsLoop acc fuel payload = .error e) :
    e ≠ .bufferTooShort := by
  induction fuel generalizing acc payload with
  | zero => cases h
  | succ fuel ih =>
    unfold decodeSettingsLoop at h
    split at h
    · cases h
    · split at h
      · cases h
        exact nofun
      · split at h
        · cases h
          exact nofun
        · split at h
          · cases h
            exact nofun
          · split at h
            · cases h
              exact nofun
            · exact ih h

/-- A payload that is all there is never too short. -/
theorem decodePayload_error {t : VarInt} {hn : FrameType.isHttp2Only t.get = false}
    {payload : Bytes} {e : FrameDecodeError} (h : decodePayload t hn payload = .error e) :
    e ≠ .bufferTooShort := by
  have hsingle : ∀ e, decodeSingleVarInt payload = .error e → e ≠ .bufferTooShort := by
    intro e he
    unfold decodeSingleVarInt at he
    split at he
    · cases he
      exact nofun
    · split at he <;> cases he
      exact nofun
  unfold decodePayload at h
  split at h
  · cases h
  · cases h
  · unfold decodeSettingsFrame at h
    cases hloop : decodeSettingsLoop .new payload.length payload with
    | error e' =>
      rw [hloop] at h
      cases h
      exact decodeSettingsLoop_error hloop
    | ok p =>
      rw [hloop] at h
      cases h
  · unfold decodeGoawayFrame at h
    cases hid : decodeSingleVarInt payload with
    | error e' =>
      rw [hid] at h
      cases h
      exact hsingle _ hid
    | ok id =>
      rw [hid] at h
      cases h
  · unfold decodeMaxPushIdFrame at h
    cases hid : decodeSingleVarInt payload with
    | error e' =>
      rw [hid] at h
      cases h
      exact hsingle _ hid
    | ok id =>
      rw [hid] at h
      cases h
  · cases h
    exact nofun
  · cases h
    exact nofun
  · cases h

theorem decodeFrame_of_header_error {buf : Bytes} {e : FrameDecodeError}
    (h : decodeFrameHeader buf = .error e) : decodeFrame buf = .error e := by
  unfold decodeFrame
  split
  · rename_i e' he
    cases he.symm.trans h
    rfl
  · rename_i header hheader
    cases hheader.symm.trans h

/-- More bytes are asked for as long as something is missing, and the type may be one of HTTP/3. -/
theorem decodeFrame_short (buf : Bytes) :
    decodeFrame buf = .error .bufferTooShort ↔ ¬AllPresent buf ∧ ¬AnnouncesHttp2Only buf := by
  obtain ⟨hheader, hnone⟩ | ⟨t, len, n, hannounced, hsame, hheader⟩ := decodeFrameHeader_cases buf
  · refine iff_of_true (decodeFrame_of_header_error hheader) ⟨?_, ?_⟩
    · rintro ⟨t, len, n, h, -⟩
      exact hnone t len n h
    · rintro ⟨t, len, n, h, -⟩
      exact hnone t len n h
  · by_cases hhttp2 : FrameType.isHttp2Only t.get = true
    · rw [if_pos hhttp2] at hheader
      rw [decodeFrame_of_header_error hheader]
      refine iff_of_false nofun ?_
      rintro ⟨-, h⟩
      exact h ⟨t, len, n, hannounced, hhttp2⟩
    · rw [if_neg hhttp2] at hheader
      rw [decodeFrame_of_header hheader]
      have hpresent : AllPresent buf ↔ n + len.get ≤ buf.length := by
        constructor
        · rintro ⟨t', len', n', h, hle⟩
          obtain ⟨rfl, rfl, rfl⟩ := hsame t' len' n' h
          exact hle
        · exact fun hle => ⟨t, len, n, hannounced, hle⟩
      have hno : ¬AnnouncesHttp2Only buf := by
        rintro ⟨t', len', n', h, htype⟩
        obtain ⟨rfl, rfl, rfl⟩ := hsame t' len' n' h
        exact hhttp2 htype
      rw [hpresent, and_iff_left hno, FrameHeader.totalLen]
      by_cases hlen : buf.length < n + len.get
      · rw [if_pos hlen]
        exact iff_of_true rfl (Nat.not_le.mpr hlen)
      · rw [if_neg hlen]
        refine iff_of_false ?_ (not_not.mpr (Nat.le_of_not_lt hlen))
        dsimp only
        intro h
        cases hp : decodePayload t (decodeFrameHeader_notHttp2 hheader)
            ((buf.take (n + len.get)).drop n) with
        | error e =>
          rw [hp] at h
          cases h
          exact decodePayload_error hp rfl
        | ok f =>
          rw [hp] at h
          cases h

/-- Anything but a short buffer is an answer that stays. -/
theorem decodeFrame_stable {buf : Bytes} (h : decodeFrame buf ≠ .error .bufferTooShort)
    (more : Bytes) : decodeFrame (buf ++ more) = decodeFrame buf := by
  cases hheader : decodeFrameHeader buf with
  | error e =>
    rw [decodeFrame_of_header_error hheader] at h ⊢
    have hne : decodeFrameHeader buf ≠ .error .bufferTooShort := by
      rw [hheader]
      rintro ⟨⟩
      exact h rfl
    exact decodeFrame_of_header_error ((decodeFrameHeader_append hne more).trans hheader)
  | ok header =>
    have hmore : decodeFrameHeader (buf ++ more) = .ok header :=
      (decodeFrameHeader_append (by rw [hheader]; exact nofun) more).trans hheader
    rw [decodeFrame_of_header hheader] at h ⊢
    have hle : ¬buf.length < header.totalLen := by
      intro hlt
      rw [if_pos hlt] at h
      exact h rfl
    have hlong : ¬(buf ++ more).length < header.totalLen := by
      rw [List.length_append]
      omega
    rw [decodeFrame_of_header hmore, if_neg hlong, if_neg hle,
      List.take_append_of_le_length (Nat.le_of_not_lt hle)]

/-! ## The codec as a whole -/

theorem frame_codec :
    (∀ frame : Frame, frame.frameType.get ≠ 0x41 → ∀ buf : Bytes,
      ((encodeFrameInto frame buf).isSome = true ↔
        ∃ n, encodedFrameLen frame = some n ∧ n ≤ buf.length) ∧
      ∀ n out, encodeFrameInto frame buf = some (n, out) →
        encodedFrameLen frame = some n ∧ out.length = buf.length ∧ out.drop n = buf.drop n ∧
          ∀ suffix, decodeFrame (out.take n ++ suffix) = .ok (frame, n)) ∧
    (∀ buf : Bytes, decodeFrame buf ≠ .error .bufferTooShort →
      ∀ more, decodeFrame (buf ++ more) = decodeFrame buf) ∧
    ∀ buf : Bytes,
      decodeFrame buf = .error .bufferTooShort ↔ ¬AllPresent buf ∧ ¬AnnouncesHttp2Only buf := by
  refine ⟨?_, fun buf => decodeFrame_stable, decodeFrame_short⟩
  intro frame hwt buf
  rw [encodeFrameInto_eq hwt, encodedFrameLen_eq hwt]
  cases hframe : encodeFrame frame with
  | none =>
    refine ⟨iff_of_false nofun ?_, nofun⟩
    rintro ⟨n, h, -⟩
    cases h
  | some bytes =>
    simp only [Option.bind_some, Option.map_some, SliceWriter.copy]
    by_cases hroom : buf.length < bytes.length
    · rw [if_pos hroom]
      refine ⟨iff_of_false nofun ?_, nofun⟩
      rintro ⟨n, h, hle⟩
      cases h
      omega
    · rw [if_neg hroom]
      refine ⟨iff_of_true rfl ⟨_, rfl, Nat.le_of_not_lt hroom⟩, ?_⟩
      intro n out h
      cases h
      refine ⟨rfl, ?_, List.drop_left, fun suffix => ?_⟩
      · rw [List.length_append, List.length_drop]
        omega
      · rw [List.take_left]
        exact decodeFrame_encodeFrame hwt hframe suffix

/-- A type of HTTP/2 is refused before its payload is there. -/
theorem http2_frame_is_not_waited_for :
    ¬∀ buf : Bytes, decodeFrame buf = .error .bufferTooShort ↔ ¬AllPresent buf := by
  intro h
  have hheader : decodeFrameHeader [0x02, 0x05] = .error (.http2Frame (.fromStatic 2)) := rfl
  have hmissing : ¬AllPresent [0x02, 0x05] := by
    rintro ⟨t, len, n, ⟨tn, ln, ht, hl, hn⟩, hle⟩
    have hfirst : VarInt.decode [0x02, 0x05] = .ok (.fromStatic 2, 1) := rfl
    cases hfirst.symm.trans ht
    have hsecond : VarInt.decode [0x05] = .ok (.fromStatic 5, 1) := rfl
    cases hsecond.symm.trans hl
    subst hn
    exact absurd hle (by decide)
  have hshort := (h [0x02, 0x05]).mpr hmissing
  rw [decodeFrame_of_header_error hheader] at hshort
  cases hshort

end Http3
