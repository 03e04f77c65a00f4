import Http3.Connection.Beside
import Http3.Qpack.Section
import Http3.Stream.Reading

/-!
# The reader of a message

What an endpoint makes of a message, frame by frame: a reader without buffers, streams or sessions.
It knows how far the message has come, its last header section and its body, and it takes no frame
that is out of place.
-/

namespace Http3

/-- A frame of a message, a section with the fields it is read as. -/
inductive Part where
  | section (headers : List Header)
  | data (payload : Bytes)

/-- What is told of a part. -/
def Part.events (s : Nat) : Part → List Obs
  | .section headers => Connection.headerEvents s headers
  | .data payload => [.event (.data s payload)]

/-- A section that every decoder with room for it reads, whatever its table holds. -/
def Legible (encoded : Bytes) (headers : List Header) : Prop :=
  ∀ d : Qpack.DynamicDecoder, (headers.map Header.size).sum ≤ d.maxFieldSectionSize →
    d.decode encoded = (.ok (.decoded headers), { d with lastRequiredInsertCount := 0 })

/-- The bytes are one frame that says this. -/
inductive Part.Written (bytes : Bytes) : Part → Prop
  | section {encoded : Bytes} {headers : List Header}
      (reads : decodeFrame bytes = .ok (.headers encoded, bytes.length))
      (legible : Legible encoded headers) : Written bytes (.section headers)
  | data {payload : Bytes} (reads : decodeFrame bytes = .ok (.data payload, bytes.length)) :
      Written bytes (.data payload)

/-- A frame of a message, however its type, its length and its fields are written. -/
structure PartFrame where
  bytes : Bytes
  part : Part
  written : part.Written bytes

theorem Part.Written.reads {bytes : Bytes} {part : Part} (h : part.Written bytes) :
    ∃ frame, decodeFrame bytes = .ok (frame, bytes.length) ∧ isMessage frame = true := by
  cases h with
  | «section» reads legible => exact ⟨_, reads, rfl⟩
  | data reads => exact ⟨_, reads, rfl⟩

/-- The type of the frame takes one byte. -/
def PartFrame.HasShortType (f : PartFrame) : Prop := ∀ b ∈ f.bytes.head?, b < 0x40

/-! ## Frames that are written -/

section Written

open Qpack

theorem readBack_size (headers : List Header) :
    ((headers.map readBack).map Header.size).sum = (headers.map Header.size).sum := by
  rw [List.map_map]
  rfl

/-- What is written without entries is read by every decoder with room for it. -/
theorem legible_static (e : DynamicEncoder) {headers : List Header}
    (hlength : (e.encodeStaticOnly headers).length ≤ VarInt.max.get) :
    Legible (e.encodeStaticOnly headers) (headers.map readBack) := by
  intro d hroom
  rw [readBack_size] at hroom
  have hdecode := (decode_static hlength hroom).2 d rfl
  have hstate : (d.decode (e.encodeStaticOnly headers)).2 =
      { d with lastRequiredInsertCount := 0 } := by
    unfold DynamicEncoder.encodeStaticOnly
    have hint : ∀ fields, decodeInteger (0x00 :: 0x00 :: fields) 8 = .ok (0, 1) := fun fields =>
      decodeInteger_encode 0 8 0x00 (0x00 :: fields) (by decide) (by decide) (by decide) (by decide)
    unfold DynamicDecoder.decode
    rw [if_neg (by simp), hint]
    rfl
  exact Prod.ext hdecode hstate

theorem encodeWithHeader_length {t : VarInt} {payload bytes : Bytes}
    (h : encodeWithHeader t payload = some bytes) : payload.length ≤ VarInt.max.get := by
  unfold encodeWithHeader VarInt.new at h
  split at h
  · rename_i hlen
    split at hlen
    · cases hlen
    · exact Nat.not_lt.mp ‹_›
  · cases h

/-- A frame begins as its type does. -/
theorem encodeWithHeader_head {t : VarInt} {payload bytes : Bytes}
    (h : encodeWithHeader t payload = some bytes) : bytes.head? = t.encode.head? := by
  unfold encodeWithHeader at h
  split at h <;> cases h
  rw [List.append_assoc, List.head?_append_of_ne_nil _ t.encode_ne_nil]

variable {e : DynamicEncoder} {headers : List Header} {payload bytes : Bytes}

def PartFrame.ofSection (h : encodeFrame (.headers (e.encodeStaticOnly headers)) = some bytes) :
    PartFrame :=
  ⟨bytes, .section (headers.map readBack),
    .section (decodeFrame_encode h rfl) (legible_static e (encodeWithHeader_length h))⟩

def PartFrame.ofData (h : encodeFrame (.data payload) = some bytes) : PartFrame :=
  ⟨bytes, .data payload, .data (decodeFrame_encode h rfl)⟩

theorem PartFrame.ofSection_shortType
    (h : encodeFrame (.headers (e.encodeStaticOnly headers)) = some bytes) :
    (PartFrame.ofSection h).HasShortType := by
  have hhead : bytes.head? = some 1 := encodeWithHeader_head h
  intro b hb
  cases hhead.symm.trans hb
  decide

theorem PartFrame.ofData_shortType (h : encodeFrame (.data payload) = some bytes) :
    (PartFrame.ofData h).HasShortType := by
  have hhead : bytes.head? = some 0 := encodeWithHeader_head h
  intro b hb
  cases hhead.symm.trans hb
  decide

end Written

/-! ## The reader -/

/-- How far a message has come. -/
structure Reading where
  recvState : RequestRecvState
  headers : List Header
  body : Bytes
  isConnect : Bool
  deriving DecidableEq

def Reading.new : Reading := ⟨.waitingHeaders, [], [], false⟩

/-- The end that reads; what it sent matters if that was the request. -/
structure Recipient where
  role : Role
  isHeadRequest : Bool
  isConnectRequest : Bool
  maxFieldSectionSize : Nat
  maxReceivedBodySize : Nat

namespace Recipient

def ofRequests (maxFieldSectionSize maxReceivedBodySize : Nat) : Recipient :=
  ⟨.server, false, false, maxFieldSectionSize, maxReceivedBodySize⟩

/-- The reader of the response to a request with these headers. -/
def ofResponse (headers : List Header) (maxFieldSectionSize maxReceivedBodySize : Nat) :
    Recipient :=
  ⟨.client, hasHeader headers ":method" "HEAD", isPlainConnect headers, maxFieldSectionSize,
    maxReceivedBodySize⟩

variable (p : Recipient)

/-- A header section; one of an interim response is not the last. -/
def begin (r : Reading) (headers : List Header) : Reading :=
  { r with
    recvState :=
      if p.role = .client && isInformationalStatus headers then .waitingHeaders else .receivingBody
    headers
    isConnect := r.isConnect || (p.role = .server && isPlainConnect headers) ||
      (p.role = .client && isSuccessStatus headers && p.isConnectRequest) }

/-- The reading behind a part that is in place. Sessions have a reader of their own. -/
def hear (r : Reading) : Part → Option Reading
  | .section headers =>
    if p.maxFieldSectionSize < (headers.map Header.size).sum then none
    else
      match r.recvState with
      | .waitingHeaders =>
        if (Validation.validateHeaders headers p.role).toBool &&
            !(p.role = .server && isWebtransportConnect headers) then some (p.begin r headers)
        else none
      | .receivingBody =>
        if !r.isConnect && (Validation.validateTrailerHeaders headers).toBool then
          some { r with recvState := .trailersReceived }
        else none
      | .trailersReceived | .complete => none
  | .data payload =>
    if r.recvState = .receivingBody &&
        r.body.length + payload.length ≤ p.maxReceivedBodySize then
      some { r with body := r.body ++ payload }
    else none

def hears (r : Reading) (parts : List Part) : Option Reading := parts.foldlM p.hear r

/-- May the message end here? -/
def mayEnd (r : Reading) : Bool :=
  (r.recvState = .receivingBody || r.recvState = .trailersReceived) &&
    (Validation.validateContentLength r.headers r.body.length
      (p.role = .client && (p.isHeadRequest || isNoBodyStatus r.headers))).toBool

theorem hear_section {r r' : Reading} {headers : List Header}
    (h : p.hear r (.section headers) = some r') :
    (headers.map Header.size).sum ≤ p.maxFieldSectionSize ∧
    ((r.recvState = .waitingHeaders ∧ Validation.validateHeaders headers p.role = .ok () ∧
      (p.role = .server → isWebtransportConnect headers = false) ∧ r' = p.begin r headers) ∨
    (r.recvState = .receivingBody ∧ r.isConnect = false ∧
      Validation.validateTrailerHeaders headers = .ok () ∧
      r' = { r with recvState := .trailersReceived })) := by
  have hok : ∀ x : Except Error Unit, x.toBool = true → x = .ok () := by
    intro x hx
    cases x with
    | error e => cases hx
    | ok u => rfl
  unfold hear at h
  dsimp only at h
  split at h
  · cases h
  refine ⟨Nat.not_lt.mp ‹_›, ?_⟩
  split at h
  · split at h
    · rename_i hstate hcond
      cases h
      simp only [Bool.and_eq_true, Bool.not_eq_true', Bool.and_eq_false_iff,
        decide_eq_false_iff_not] at hcond
      exact .inl ⟨hstate, hok _ hcond.1, fun hserver => hcond.2.resolve_left (absurd hserver), rfl⟩
    · cases h
  · split at h
    · rename_i hstate hcond
      cases h
      simp only [Bool.and_eq_true, Bool.not_eq_true'] at hcond
      exact .inr ⟨hstate, hcond.1, hok _ hcond.2, rfl⟩
    · cases h
  · cases h
  · cases h

theorem hear_data {r r' : Reading} {payload : Bytes} (h : p.hear r (.data payload) = some r') :
    r.recvState = .receivingBody ∧
      r.body.length + payload.length ≤ p.maxReceivedBodySize ∧
      r' = { r with body := r.body ++ payload } := by
  simp only [hear] at h
  split at h
  · rename_i hcond
    cases h
    simp only [Bool.and_eq_true, decide_eq_true_eq] at hcond
    exact ⟨hcond.1, hcond.2, rfl⟩
  · cases h

theorem hears_cons {r r' : Reading} {part : Part} {parts : List Part}
    (h : p.hears r (part :: parts) = some r') :
    ∃ t, p.hear r part = some t ∧ p.hears t parts = some r' := by
  unfold hears at h ⊢
  rw [List.foldlM_cons] at h
  exact Option.bind_eq_some_iff.mp h

end Recipient

end Http3
