import Http3.Lib.Safe
import Http3.Connection.Runs

/-!
# Session ids in the range of QUIC

A session id is written as a QUIC integer when the session ends. The ids of all tables are ids
of streams, so the integer exists while stream ids stay in the range of QUIC: no procedure on the
WebTransport tables panics.
-/

namespace Http3

namespace Connection

open Proc

/-! ## Ids in the range of QUIC -/

def KeysFit {α : Type} (m : IdMap α) : Prop := ∀ k, m.contains k = true → k ≤ VarInt.max.get

def ValuesFit (m : IdMap Nat) : Prop := ∀ k v, m.lookup k = some v → v ≤ VarInt.max.get

section Maps

variable {α : Type} {m : IdMap α} {n : IdMap Nat} {k : Nat}

theorem KeysFit.empty : KeysFit (∅ : IdMap α) := by
  intro k h
  rw [IdMap.contains_empty] at h
  cases h

@[grind ←] theorem KeysFit.insert (h : KeysFit m) (hk : k ≤ VarInt.max.get) (a : α) :
    KeysFit (m.insert k a) := by
  intro j hj
  rw [IdMap.contains_insert, Bool.or_eq_true, decide_eq_true_iff] at hj
  rcases hj with rfl | hj
  · exact hk
  · exact h j hj

@[grind ←] theorem KeysFit.erase (h : KeysFit m) (k : Nat) : KeysFit (m.erase k) := by
  intro j hj
  rw [IdMap.contains_erase, Bool.and_eq_true] at hj
  exact h j hj.2

@[grind ←] theorem KeysFit.update (h : KeysFit m) (k : Nat) (f : α → α) :
    KeysFit (m.update k f) := by
  intro j hj
  rw [IdMap.contains_update] at hj
  exact h j hj

@[grind →] theorem KeysFit.le_of_lookup {a : α} (h : KeysFit m) (hk : m.lookup k = some a) :
    k ≤ VarInt.max.get := h k ((IdMap.contains_iff m k).mpr ⟨a, hk⟩)

theorem ValuesFit.empty : ValuesFit ∅ := by
  intro k v h
  rw [IdMap.lookup_empty] at h
  cases h

@[grind ←] theorem ValuesFit.insert (h : ValuesFit n) {v : Nat} (hv : v ≤ VarInt.max.get) (k : Nat) :
    ValuesFit (n.insert k v) := by
  intro j u hj
  rw [IdMap.lookup_insert_eq] at hj
  split at hj
  · cases hj
    exact hv
  · exact h j u hj

@[grind ←] theorem ValuesFit.erase (h : ValuesFit n) (k : Nat) : ValuesFit (n.erase k) := by
  intro j u hj
  rw [IdMap.lookup_erase_eq] at hj
  split at hj
  · cases hj
  · exact h j u hj

@[grind ←] theorem ValuesFit.eraseAll (h : ValuesFit n) (ks : List Nat) :
    ValuesFit (n.eraseAll ks) := by
  intro j u hj
  rw [IdMap.lookup_eraseAll] at hj
  split at hj
  · cases hj
  · exact h j u hj

end Maps

/-- Sessions are named by the ids of their CONNECT streams. -/
@[mk_iff]
structure WtFits (w : WtState) : Prop where
  sessions : KeysFit w.wtSessions
  deferred : KeysFit w.deferredWtConnects
  uni : ValuesFit w.wtUniStreams
  bidi : ValuesFit w.wtBidiStreams

/-- The one error that is not returned. -/
def IsPanic (e : Error) : Prop := e = .panicked

abbrev WtSafe {α : Type} (x : WtProc α) : Prop := Safe IsPanic WtFits x

attribute [grind =] IsPanic

/-! ## Sessions -/

section Wt

variable (env : Env) {bad : Error → Prop}

theorem varInt_le (v : VarInt) : v.get ≤ VarInt.max.get := v.le_max

grind_pattern varInt_le => v.get

section State

variable {w : WtState} {sessionId streamId : Nat}

@[grind ←] theorem WtFits.putSession (h : WtFits w) (hs : sessionId ≤ VarInt.max.get)
    (session : WtSession) : WtFits (putSession sessionId session w) :=
  ⟨h.sessions.insert hs session, h.deferred, h.uni, h.bidi⟩

@[grind ←] theorem WtFits.dropSession (h : WtFits w) (sessionId : Nat) :
    WtFits (dropSession sessionId w) := ⟨h.sessions.erase sessionId, h.deferred, h.uni, h.bidi⟩

@[grind ←] theorem WtFits.enterStream (h : WtFits w) (hs : sessionId ≤ VarInt.max.get)
    (isBidi : Bool) (streamId : Nat) : WtFits (enterStream isBidi streamId sessionId w) := by
  unfold Connection.enterStream
  grind [wtFits_iff]

@[grind ←] theorem WtFits.leaveStream (h : WtFits w) (isBidi : Bool) (streamId : Nat) :
    WtFits (leaveStream isBidi streamId w) := by
  unfold Connection.leaveStream
  grind [wtFits_iff]

@[grind ←] theorem WtFits.setPending (h : WtFits w) (isBidi : Bool) (streamId : Nat) (buf : Bytes) :
    WtFits (setPending isBidi streamId buf w) := by
  unfold Connection.setPending
  grind [wtFits_iff]

@[grind ←] theorem WtFits.dropPending (h : WtFits w) (isBidi : Bool) (streamId : Nat) :
    WtFits (dropPending isBidi streamId w) := by
  unfold Connection.dropPending
  grind [wtFits_iff]

@[grind ←] theorem WtFits.returnCredit (h : WtFits w) (isBidi : Bool) (streamId sessionId : Nat) :
    WtFits (returnCredit isBidi streamId sessionId w) :=
  ⟨h.sessions.update _ _, h.deferred, h.uni, h.bidi⟩

@[grind ←] theorem WtFits.markFin (h : WtFits w) (streamId sessionId : Nat) :
    WtFits (markFin streamId sessionId w) := ⟨h.sessions.update _ _, h.deferred, h.uni, h.bidi⟩

@[grind ←] theorem WtFits.eraseClosed (h : WtFits w) (closed : List (Nat × Bool)) :
    WtFits (eraseClosed closed w) :=
  ⟨h.sessions, h.deferred, h.uni.eraseAll _, h.bidi.eraseAll _⟩

theorem WtFits.eraseStreams (h : WtFits w) (streams : List Nat) :
    WtFits { w with
      wtUniStreams := w.wtUniStreams.eraseAll streams
      wtBidiStreams := w.wtBidiStreams.eraseAll streams } :=
  ⟨h.sessions, h.deferred, h.uni.eraseAll _, h.bidi.eraseAll _⟩

end State

/-- The header of a data stream can be written. -/
theorem wtStreamHeaderLen_ok {w : WtState} (h : WtFits w) (streamId : Nat) :
    ∃ n, wtStreamHeaderLen w streamId = .ok n := by
  unfold wtStreamHeaderLen
  split
  · exact ⟨0, rfl⟩
  · rename_i sessionId hs
    have hle : sessionId ≤ VarInt.max.get := by
      rcases hb : w.wtBidiStreams.lookup streamId with _ | v <;> rw [hb] at hs
      · exact h.uni _ _ hs
      · cases hs
        exact h.bidi _ _ hb
    rw [show VarInt.new sessionId = .ok ⟨sessionId, hle⟩ from dif_neg (Nat.not_lt.mpr hle)]
    exact ⟨_, rfl⟩

theorem mapM_resetOf_ok {w : WtState} (h : WtFits w) (streams : List Nat) :
    ∃ resets, streams.mapM (resetOf w) = .ok resets := by
  induction streams with
  | nil => exact ⟨[], rfl⟩
  | cons streamId streams ih =>
    obtain ⟨n, hn⟩ := wtStreamHeaderLen_ok h streamId
    obtain ⟨resets, hresets⟩ := ih
    exact ⟨⟨streamId, n⟩ :: resets, by rw [List.mapM_cons, resetOf, hn, hresets]; rfl⟩

@[grind ←] theorem terminateWtSessionWith_safe (sessionId errorCode closeErrorCode : Nat)
    (closeMessage : Bytes) :
    Safe bad WtFits (terminateWtSessionWith env sessionId errorCode closeErrorCode closeMessage) := by
  refine Safe.get_bind fun w hw => ?_
  split
  · exact .ret ()
  · split
    · exact .ret ()
    · rename_i session _ _
      obtain ⟨resets, hresets⟩ := mapM_resetOf_ok hw
        (env.order.walk (.associatedStreams sessionId) session.associatedStreams)
      dsimp only
      rw [hresets]
      refine Safe.bind (.ret resets) fun resets => ?_
      refine Safe.bind (.modify fun w hw => ?_) fun _ => by grind
      exact (hw.eraseStreams _).dropSession sessionId

@[grind ←] theorem terminateWtSession_safe (sessionId : Nat) :
    Safe bad WtFits (terminateWtSession env sessionId) := terminateWtSessionWith_safe env _ _ _ _

@[grind ←] theorem terminateFlowControl_safe (sessionId : Nat) :
    Safe bad WtFits (terminateFlowControl env sessionId) := terminateWtSessionWith_safe env _ _ _ _

@[grind ←] theorem abandonSession_safe (sessionId : Nat) (session : WtSession) :
    WtSafe (abandonSession sessionId session) := by
  unfold abandonSession
  grind

@[grind ←] theorem deliverBufferedStreams_safe (sessionId : Nat) :
    WtSafe (deliverBufferedStreams sessionId) := by
  refine Safe.get_bind fun w hw => ?_
  split
  · grind
  · rename_i session hs
    have hle := hw.sessions.le_of_lookup hs
    dsimp only
    grind

@[grind ←] theorem associateOrBufferStream_safe (goaway : Option VarInt) (streamId : Nat)
    {sessionId : Nat} (hs : sessionId ≤ VarInt.max.get) (isBidi : Bool) :
    Safe bad WtFits (associateOrBufferStream env goaway streamId sessionId isBidi) := by
  refine Safe.get_bind fun w hw => ?_
  split
  · split <;> grind
  · grind

/-! ## Data streams and datagrams -/

@[grind ←] theorem rejectStream_safe (streamId : Nat) (code : WtErrorCode) :
    Safe bad WtFits (rejectStream streamId code) := .emit _

@[grind ←] theorem bufferStreamData_safe (isBidi : Bool) (streamId : Nat) {sessionId : Nat}
    (data : Bytes) : Safe bad WtFits (bufferStreamData isBidi streamId sessionId data) := by
  refine Safe.get_bind fun w hw => ?_
  split
  · grind
  · rename_i session hs
    have hle := hw.sessions.le_of_lookup hs
    grind

@[grind ←] theorem WtFits.update (w : WtState) (h : WtFits w) (sessionId : Nat)
    (f : WtSession → WtSession) :
    WtFits { w with wtSessions := w.wtSessions.update sessionId f } :=
  ⟨h.sessions.update sessionId f, h.deferred, h.uni, h.bidi⟩

@[grind ←] theorem receiveStreamData_safe (isBidi : Bool) (streamId sessionId : Nat)
    (data : Bytes) : Safe bad WtFits (receiveStreamData env isBidi streamId sessionId data) := by
  unfold receiveStreamData
  grind

@[grind ←] theorem openStream_safe (goaway : Option VarInt) (isBidi : Bool) (streamId : Nat)
    {sessionId : Nat} (hs : sessionId ≤ VarInt.max.get) (payload : Bytes) :
    Safe bad WtFits (openStream env goaway isBidi streamId sessionId payload) := by
  unfold openStream
  refine Safe.bind (by grind) fun _ => ?_
  refine Safe.bind (by grind) fun r => ?_
  split <;> grind

@[grind ←] theorem resolveWtUniStreamSessionId_safe (goaway : Option VarInt) (streamId : Nat)
    (data : Bytes) : WtSafe (resolveWtUniStreamSessionId env goaway streamId data) := by
  unfold resolveWtUniStreamSessionId
  grind

@[grind ←] theorem resolveWtBidiStreamHeader_safe (goaway : Option VarInt) (streamId : Nat)
    (data : Bytes) : WtSafe (resolveWtBidiStreamHeader env goaway streamId data) := by
  refine Safe.get_bind fun w hw => ?_
  dsimp only
  split
  · grind
  · split <;> grind

@[grind ←] theorem finishBidi_safe (streamId sessionId : Nat) :
    WtSafe (finishBidi env streamId sessionId) := by
  unfold finishBidi
  grind

@[grind ←] theorem continueWtBidiStream_safe (streamId sessionId : Nat) (data : Bytes)
    (fin : Bool) : WtSafe (continueWtBidiStream env streamId sessionId data fin) := by
  unfold continueWtBidiStream
  grind

@[grind ←] theorem finishResolved_safe (streamId : Nat) : Safe bad WtFits (finishResolved streamId) := by
  unfold finishResolved
  grind

@[grind ←] theorem handleWtBidiStream_safe (goaway : Option VarInt) (streamId : Nat)
    (data : Bytes) (fin : Bool) : WtSafe (handleWtBidiStream env goaway streamId data fin) := by
  unfold handleWtBidiStream
  grind

@[grind ←] theorem handleWtUniStreamData_safe (streamId : Nat) (data : Bytes) :
    WtSafe (handleWtUniStreamData env streamId data) := by
  unfold handleWtUniStreamData
  grind

@[grind ←] theorem handleWtUniStreamFin_safe (streamId : Nat) :
    WtSafe (handleWtUniStreamFin env streamId) := by
  refine Safe.get_bind fun w hw => ?_
  split
  · grind
  · rename_i sessionId hs
    have hle := hw.uni _ _ hs
    grind

/-! ## Capsules and CONNECT -/

@[grind ←] theorem handleWtCapsule_safe {sessionId : Nat} (hs : sessionId ≤ VarInt.max.get)
    (capsule : Capsule) : WtSafe (handleWtCapsule env sessionId capsule) := by
  unfold handleWtCapsule
  split <;> grind

@[grind ←] theorem processWtCapsule_safe (sessionId : Nat) :
    WtSafe (processWtCapsule env sessionId) := by
  refine Safe.get_bind fun w hw => ?_
  split
  · grind
  · rename_i session hs
    have hle := hw.sessions.le_of_lookup hs
    split
    · grind
    · split <;> grind

@[grind ←] theorem processWtCapsuleData_safe (sessionId : Nat) (data : Bytes) :
    WtSafe (processWtCapsuleData env sessionId data) := by
  refine Safe.get_bind fun w hw => ?_
  split
  · grind
  · rename_i session hs
    have hle := hw.sessions.le_of_lookup hs
    dsimp only
    grind

@[grind ←] theorem handleWtDataFrame_safe (peer : Option Settings) (bodyLen streamId : Nat)
    (data : Bytes) : WtSafe (handleWtDataFrame env peer bodyLen streamId data) := by
  refine Safe.get_bind fun w hw => ?_
  split
  · grind
  · split
    · grind
    · rename_i session hs
      have hle := hw.sessions.le_of_lookup hs
      split <;> grind

@[grind ←] theorem handleWtStreamEnd_safe (streamId : Nat) :
    WtSafe (handleWtStreamEnd env streamId) := by
  unfold handleWtStreamEnd
  grind [wtFits_iff]

@[grind ←] theorem registerSession_safe {streamId : Nat} (hs : streamId ≤ VarInt.max.get)
    (headers : List Header) : WtSafe (registerSession streamId headers) := by
  unfold registerSession
  grind

@[grind ←] theorem deferSession_safe {streamId : Nat} (hs : streamId ≤ VarInt.max.get)
    (headers : List Header) : WtSafe (deferSession streamId headers) := by
  unfold deferSession
  grind [wtFits_iff]

@[grind ←] theorem establish_safe (peer : Option Settings) {sessionId : Nat}
    (hs : sessionId ≤ VarInt.max.get) (session : WtSession) :
    WtSafe (establish env peer sessionId session) := by
  unfold establish
  grind

@[grind ←] theorem handleWtConnectResponse_safe (peer : Option Settings) (streamId : Nat)
    (headers : List Header) : WtSafe (handleWtConnectResponse env peer streamId headers) := by
  refine Safe.get_bind fun w hw => ?_
  split
  · grind
  · split
    · grind
    · rename_i session hs
      have hle := hw.sessions.le_of_lookup hs
      grind [messageError]

@[grind ←] theorem processBufferedCapsules_safe (streamId : Nat) :
    WtSafe (processBufferedCapsules env streamId) := by
  refine Safe.get_bind fun w hw => ?_
  split
  · refine Safe.attempt (by grind) fun r hr => ?_
    split
    · grind
    · exact Safe.bind (by grind) fun _ => .throw (hr _ rfl)
  · grind

@[grind ←] theorem establishWtSessionServer_safe (peer : Option Settings) (streamId : Nat)
    (headers : List Header) : WtSafe (establishWtSessionServer env peer streamId headers) := by
  refine Safe.get_bind fun w hw => ?_
  split
  · grind
  · split
    · grind
    · rename_i session hs
      have hle := hw.sessions.le_of_lookup hs
      grind

@[grind ←] theorem rejectWtSession_safe (streamId : Nat) (headers : List Header) :
    WtSafe (rejectWtSession streamId headers) := by
  unfold rejectWtSession
  grind

/-! ## Resets -/

theorem removeBuffered_fits (streamId : Nat) (sids : List Nat) {m : IdMap WtSession}
    (h : KeysFit m) : KeysFit (removeBuffered streamId sids m).2 := by
  induction sids generalizing m with
  | nil => exact h
  | cons sid sids ih =>
    rw [removeBuffered]
    split
    · exact ih h
    · rename_i session hs
      have hput : ∀ session, KeysFit (m.insert sid session) := h.insert (h.le_of_lookup hs)
      split
      · exact hput _
      · exact ih (hput _)

@[grind ←] theorem accountWtStreamReset_safe (sessionId streamId finalSize : Nat) :
    WtSafe (accountWtStreamReset env sessionId streamId finalSize) := by
  refine Safe.get_bind fun w hw => ?_
  obtain ⟨n, hn⟩ := wtStreamHeaderLen_ok hw streamId
  refine Safe.bind (.ofExcept fun e he => ?_) fun _ => ?_
  · rw [hn] at he
    split at he <;> cases he
  · split
    · grind
    · rename_i session hs
      have hle := hw.sessions.le_of_lookup hs
      dsimp only
      grind

@[grind ←] theorem resetDataStream_safe (sessionId streamId errorCode finalSize : Nat) :
    WtSafe (resetDataStream env sessionId streamId errorCode finalSize) := by
  refine Safe.get_bind fun w hw => ?_
  dsimp only
  refine Safe.bind (by grind) fun _ => ?_
  split
  · grind
  · refine Safe.bind (.modify fun w hw => ?_) fun _ => by grind
    exact ⟨hw.sessions.update _ _, hw.deferred, hw.uni.erase _, hw.bidi.erase _⟩

@[grind ←] theorem handleWtStreamReset_safe (streamId errorCode finalSize : Nat) :
    WtSafe (handleWtStreamReset env streamId errorCode finalSize) := by
  refine Safe.get_bind fun w hw => ?_
  have hfits := removeBuffered_fits streamId (env.order.walk .wtSessions w.wtSessions.keys)
    hw.sessions
  split
  · grind
  split
  · grind
  split
  · grind [wtFits_iff]
  split
  · grind [wtFits_iff]
  split
  · grind
  · split <;> rename_i hr <;> rw [hr] at hfits <;> grind [wtFits_iff]

@[grind ←] theorem handleWtStopSending_safe (streamId errorCode : Nat) :
    WtSafe (handleWtStopSending env streamId errorCode) := by
  unfold handleWtStopSending
  grind

/-! ## What waits for SETTINGS -/

@[grind ←] theorem ignorePreNegotiation_safe (streamId : Nat) :
    WtSafe (ignorePreNegotiation streamId) := by
  unfold ignorePreNegotiation
  grind [wtFits_iff]

@[grind ←] theorem bufferPreNegotiationWtBidi_safe (streamId : Nat) (data : Bytes) (fin : Bool) :
    WtSafe (bufferPreNegotiationWtBidi streamId data fin) := by
  unfold bufferPreNegotiationWtBidi
  grind [wtFits_iff]

@[grind ←] theorem releasePreNegotiation_safe (goaway : Option VarInt) (negotiated : Bool) :
    WtSafe (releasePreNegotiation env goaway negotiated) := by
  have hone : ∀ pending streamId, WtSafe (releaseWaiting env goaway negotiated pending streamId) := by
    intro pending streamId
    unfold releaseWaiting
    grind
  unfold releasePreNegotiation
  grind [wtFits_iff]

@[grind ←] theorem drainSession_safe (id sessionId : Nat) : WtSafe (drainSession id sessionId) := by
  refine Safe.get_bind fun w hw => ?_
  split
  · grind
  · rename_i session hs
    have hle := hw.sessions.le_of_lookup hs
    grind

@[grind ←] theorem finishNewUni_safe (streamId : Nat) : WtSafe (finishNewUni streamId) := by
  unfold finishNewUni
  grind

/-- A quarter stream id is bounded by that of the largest stream. -/
theorem decode_sessionId_le {data : Bytes} {d : Datagram} (h : Datagram.decode data = .ok d) :
    d.sessionId ≤ VarInt.max.get := by
  unfold Datagram.decode at h
  split at h
  · cases h
  · split at h <;> cases h
    simp only [VarInt.max]
    omega

@[grind ←] theorem receiveDatagram_safe (goaway : Option VarInt) {sessionId : Nat}
    (hs : sessionId ≤ VarInt.max.get) (payload : Bytes) :
    WtSafe (receiveDatagram env goaway sessionId payload) := by
  refine Safe.get_bind fun w hw => ?_
  split
  · split <;> grind
  · grind

@[grind ←] theorem takeWtPendingCapsules_safe (sessionId : Nat) :
    WtSafe (takeWtPendingCapsules sessionId) := by
  refine Safe.get_bind fun w hw => ?_
  split
  · grind
  · rename_i session hs
    have hle := hw.sessions.le_of_lookup hs
    grind

end Wt

end Connection

end Http3
