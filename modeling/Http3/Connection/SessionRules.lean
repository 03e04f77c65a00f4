import Http3.Connection.CallMoves
import Http3.Connection.SessionIds

/-!
# Properties that sessions keep

A session changes through few operations. `Inherited` lists what a property of one session has to
be closed under; then every procedure on the tables keeps it for all sessions. Two operations are
left to the results that need them, since they may announce a window: `wtDataConsumed` and the
reset of a data stream.
-/

namespace Http3

/-- Buffers and states differ, flow control does not. -/
structure WtSession.SameCredit (s t : WtSession) : Prop where
  flowControlEnabled : t.flowControlEnabled = s.flowControlEnabled
  recvStreamFcUni : t.recvStreamFcUni = s.recvStreamFcUni
  recvStreamFcBidi : t.recvStreamFcBidi = s.recvStreamFcBidi
  recvDataFc : t.recvDataFc = s.recvDataFc
  streamReceivedData : t.streamReceivedData = s.streamReceivedData
  pendingCapsules : t.pendingCapsules = s.pendingCapsules

namespace WtSession.SameCredit

variable {s t u : WtSession}

theorem refl (s : WtSession) : SameCredit s s := ⟨rfl, rfl, rfl, rfl, rfl, rfl⟩

theorem trans (h : SameCredit s t) (h' : SameCredit t u) : SameCredit s u where
  flowControlEnabled := h'.flowControlEnabled.trans h.flowControlEnabled
  recvStreamFcUni := h'.recvStreamFcUni.trans h.recvStreamFcUni
  recvStreamFcBidi := h'.recvStreamFcBidi.trans h.recvStreamFcBidi
  recvDataFc := h'.recvDataFc.trans h.recvDataFc
  streamReceivedData := h'.streamReceivedData.trans h.streamReceivedData
  pendingCapsules := h'.pendingCapsules.trans h.pendingCapsules

end WtSession.SameCredit

namespace Connection

open Proc WtSession

/-- A property that sessions start with and that their operations keep. -/
structure Inherited (env : Env) (P : WtSession → Prop) : Prop where
  new : P .new
  same : ∀ {s t}, SameCredit s t → P s → P t
  establishes : ∀ peer {s}, P s → P (establishedSession env peer s)
  opens : ∀ {s} b, s.checkReceivedStream b = true → P s → P (s.addReceivedStream b)
  receives : ∀ {s} streamId n, s.checkReceivedData n = true → P s →
    P (s.addReceivedDataAndTrack streamId n)
  finishes : ∀ {s} b, P s → P (s.onRemoteStreamClosed b)
  forgets : ∀ {s} streamId, P s → P (s.removeStreamReceivedData streamId)
  hands : ∀ {s}, P s → P { s with pendingCapsules := [] }

/-- All sessions have the property. -/
def AllSessions (P : WtSession → Prop) (w : WtState) : Prop := w.wtSessions.All P

/-- The procedure keeps the property of all sessions. -/
abbrev KeepsSessions (P : WtSession → Prop) {α : Type} (x : WtProc α) : Prop :=
  Safe (fun _ => False) (AllSessions P) x

section State

variable {P : WtSession → Prop} {w : WtState}

theorem AllSessions.of_eq {w' : WtState} (h : AllSessions P w) (heq : w'.wtSessions = w.wtSessions) :
    AllSessions P w' := by
  unfold AllSessions
  rw [heq]
  exact h

theorem AllSessions.put (h : AllSessions P w) (sessionId : Nat) {session : WtSession}
    (hs : P session) : AllSessions P (putSession sessionId session w) := h.insert sessionId hs

theorem AllSessions.drop (h : AllSessions P w) (sessionId : Nat) :
    AllSessions P (dropSession sessionId w) := h.erase sessionId

@[simp] theorem enterStream_wtSessions (b : Bool) (streamId sessionId : Nat) (w : WtState) :
    (enterStream b streamId sessionId w).wtSessions = w.wtSessions := by
  unfold enterStream
  split <;> rfl

@[simp] theorem leaveStream_wtSessions (b : Bool) (streamId : Nat) (w : WtState) :
    (leaveStream b streamId w).wtSessions = w.wtSessions := by
  unfold leaveStream
  split <;> rfl

@[simp] theorem setPending_wtSessions (b : Bool) (streamId : Nat) (buf : Bytes) (w : WtState) :
    (setPending b streamId buf w).wtSessions = w.wtSessions := by
  unfold setPending
  split <;> rfl

@[simp] theorem dropPending_wtSessions (b : Bool) (streamId : Nat) (w : WtState) :
    (dropPending b streamId w).wtSessions = w.wtSessions := by
  unfold dropPending
  split <;> rfl

@[simp] theorem eraseClosed_wtSessions (closed : List (Nat × Bool)) (w : WtState) :
    (eraseClosed closed w).wtSessions = w.wtSessions := rfl

end State

/-- A change of the other tables. -/
theorem keepsSessions_modify {P : WtSession → Prop} {f : WtState → WtState}
    (h : ∀ w, (f w).wtSessions = w.wtSessions) : KeepsSessions P (modify f) :=
  .modify fun w hw => hw.of_eq (h w)

theorem keepsSessions_update {P : WtSession → Prop} (sessionId : Nat) {f : WtSession → WtSession}
    (hf : ∀ s, P s → P (f s)) {g : WtState → WtState}
    (hg : ∀ w, (g w).wtSessions = w.wtSessions.update sessionId f) :
    KeepsSessions P (modify g) := by
  refine .modify fun w hw => ?_
  unfold AllSessions
  rw [hg]
  exact hw.update sessionId hf

section Wt

variable {env : Env} {P : WtSession → Prop} (hP : Inherited env P)

include hP

/-! ## One session -/

namespace Inherited

theorem offer {s : WtSession} (hs : P s) (headers : List Header) : P (s.offer headers) := by
  refine hP.same ?_ hs
  unfold WtSession.offer
  split
  · split <;> exact ⟨rfl, rfl, rfl, rfl, rfl, rfl⟩
  · exact ⟨rfl, rfl, rfl, rfl, rfl, rfl⟩

theorem state {s : WtSession} (hs : P s) (state : WtSessionState) : P { s with state } :=
  hP.same (s := s) ⟨rfl, rfl, rfl, rfl, rfl, rfl⟩ hs

theorem capsuleBuf {s : WtSession} (hs : P s) (capsuleBuf : Bytes) : P { s with capsuleBuf } :=
  hP.same (s := s) ⟨rfl, rfl, rfl, rfl, rfl, rfl⟩ hs

theorem associateStream {s : WtSession} (hs : P s) (streamId : Nat) :
    P (s.associateStream streamId) := hP.same (s := s) ⟨rfl, rfl, rfl, rfl, rfl, rfl⟩ hs

theorem bufferStream {s t : WtSession} {streamId : Nat} {isBidi : Bool} (hs : P s)
    (h : s.bufferStream streamId isBidi = some t) : P t := by
  unfold WtSession.bufferStream at h
  split at h
  · cases h
  · cases h
    exact hP.same (s := s) ⟨rfl, rfl, rfl, rfl, rfl, rfl⟩ hs

theorem appendBufferedStreamData {s t : WtSession} {streamId : Nat} {data : Bytes} (hs : P s)
    (h : s.appendBufferedStreamData streamId data = some t) : P t := by
  unfold WtSession.appendBufferedStreamData at h
  split at h
  · split at h
    · cases h
    · cases h
      exact hP.same (s := s) ⟨rfl, rfl, rfl, rfl, rfl, rfl⟩ hs
  · cases h

theorem dropEntry {s : WtSession} (hs : P s) (streamId : Nat) :
    P (s.dropBufferedStreamEntry streamId) := hP.same (s := s) ⟨rfl, rfl, rfl, rfl, rfl, rfl⟩ hs

theorem restore {s : WtSession} (hs : P s) (streamId : Nat) (entry : BufferedStreamEntry) :
    P (s.restoreBufferedStream streamId entry) := hP.same (s := s) ⟨rfl, rfl, rfl, rfl, rfl, rfl⟩ hs

theorem removeBufferedStream {s : WtSession} (hs : P s) (streamId : Nat) :
    P (s.removeBufferedStream streamId).2 := hP.same (s := s) ⟨rfl, rfl, rfl, rfl, rfl, rfl⟩ hs

theorem bufferDatagram {s : WtSession} (hs : P s) (data : Bytes) : P (s.bufferDatagram data) := by
  unfold WtSession.bufferDatagram
  split
  · exact hs
  · exact hP.same (s := s) ⟨rfl, rfl, rfl, rfl, rfl, rfl⟩ hs

theorem returnCredit {s : WtSession} (hs : P s) (isBidi : Bool) (streamId : Nat) :
    P ((s.onRemoteStreamClosed isBidi).removeStreamReceivedData streamId) :=
  hP.forgets streamId (hP.finishes isBidi hs)

theorem restoreRemaining {s : WtSession} (hs : P s) (order : List Nat) :
    P (s.restoreRemaining order) := by
  induction order generalizing s with
  | nil => exact hs
  | cons x xs ih =>
    unfold WtSession.restoreRemaining
    split
    · exact ih (hP.restore (hP.dropEntry hs x) x _)
    · exact ih hs

theorem deliverEnd {s : WtSession} (hs : P s) (streamId : Nat) (entry : BufferedStreamEntry) :
    P (s.deliverEnd streamId entry).1 := by
  unfold WtSession.deliverEnd
  split
  · exact hP.returnCredit hs entry.isBidi streamId
  · exact hs

theorem deliverLoop (sessionId : Nat) (order : List Nat) {s : WtSession} (hs : P s)
    (events : List WebTransportEvent) (closed : List (Nat × Bool)) (xs : List Nat) :
    P (WtSession.deliverLoop sessionId order s events closed xs).session := by
  induction xs generalizing s events closed with
  | nil => exact hs
  | cons x xs ih =>
    unfold WtSession.deliverLoop
    split
    · exact ih hs _ _
    rename_i entry _
    have hdrop := hP.dropEntry hs x
    dsimp only
    split
    · exact hP.restoreRemaining (hP.restore hdrop x entry) _
    rename_i hstream
    have hopen := hP.associateStream
      (hP.opens entry.isBidi (by simpa using hstream) hdrop) x
    split
    · exact ih (hP.deliverEnd hopen x entry) _ _
    split
    · exact hP.restore (hP.restoreRemaining hopen _) x entry
    · rename_i hdata
      exact ih (hP.deliverEnd (hP.receives x _ (by simpa using hdata) hopen) x entry) _ _

theorem deliver {s : WtSession} (hs : P s) (sessionId : Nat) : P (s.deliver sessionId).session :=
  hP.deliverLoop sessionId _ (s := { s with bufferedStreams := [] })
    (hP.same (s := s) ⟨rfl, rfl, rfl, rfl, rfl, rfl⟩ hs) _ _ _

end Inherited

/-! ## The end of a session, association and delivery -/

omit hP in
theorem terminateWtSessionWith_keeps (sessionId errorCode closeErrorCode : Nat)
    (closeMessage : Bytes) :
    KeepsSessions P
      (terminateWtSessionWith env sessionId errorCode closeErrorCode closeMessage) := by
  refine Safe.get_bind fun w hw => ?_
  split
  · exact .ret ()
  split
  · exact .ret ()
  · refine Safe.bind (.ofExcept fun _ _ h => h) fun resets => ?_
    refine Safe.bind (.modify fun w hw => ?_) fun _ => .bind (.emit _) fun _ => .emit _
    exact AllSessions.drop (w := { w with
      wtUniStreams := w.wtUniStreams.eraseAll _
      wtBidiStreams := w.wtBidiStreams.eraseAll _ }) hw sessionId

omit hP in
theorem terminateFlowControl_keeps (sessionId : Nat) :
    KeepsSessions P (terminateFlowControl env sessionId) :=
  terminateWtSessionWith_keeps _ _ _ _

omit hP in
theorem terminateWtSession_keeps (sessionId : Nat) :
    KeepsSessions P (terminateWtSession env sessionId) :=
  terminateWtSessionWith_keeps _ _ _ _

omit hP in
theorem abandonSession_keeps (sessionId : Nat) (session : WtSession) :
    KeepsSessions P (abandonSession sessionId session) :=
  Safe.bind (.modify fun _ hw => hw.drop sessionId) fun _ => .emit _

theorem deliverBufferedStreams_keeps (sessionId : Nat) :
    KeepsSessions P (deliverBufferedStreams sessionId) := by
  refine Safe.get_bind fun w hw => ?_
  split
  · exact .ret _
  rename_i session hs
  have hd := hP.deliver (hw _ _ hs) sessionId
  refine Safe.bind (.emitAll _) fun _ => ?_
  split
  · refine Safe.bind (.modify fun w hw => ?_) fun _ => .ret _
    exact (hw.put sessionId hd).of_eq (eraseClosed_wtSessions _ _)
  · refine Safe.bind (.modify fun w hw => ?_) fun _ => .bind (.emitAll _) fun _ => .ret _
    refine (hw.put sessionId ?_).of_eq (eraseClosed_wtSessions _ _)
    exact hP.same (s := (session.deliver sessionId).session) ⟨rfl, rfl, rfl, rfl, rfl, rfl⟩ hd

theorem associateOrBufferStream_keeps (goaway : Option VarInt) (streamId sessionId : Nat)
    (isBidi : Bool) :
    KeepsSessions P (associateOrBufferStream env goaway streamId sessionId isBidi) := by
  refine Safe.get_bind fun w hw => ?_
  split
  · rename_i session hs
    have hsession := hw _ _ hs
    split
    · refine Safe.bind (.modify fun w hw => ?_) fun _ => .ret _
      exact hw.put sessionId (hP.associateStream hsession streamId)
    · split
      · rename_i t ht
        exact Safe.bind (.modify fun w hw => hw.put sessionId (hP.bufferStream hsession ht))
          fun _ => .ret _
      · exact .ret _
    · exact .ret _
    · exact .ret _
  split
  · exact .ret _
  split
  · exact .ret _
  split
  · exact .ret _
  split
  · exact .ret _
  split
  · rename_i t ht
    exact Safe.bind (.modify fun w hw => hw.put sessionId (hP.bufferStream hP.new ht))
      fun _ => .ret _
  · exact Safe.bind (.modify fun w hw => hw.put sessionId hP.new) fun _ => .ret _

/-! ## Data streams -/

theorem bufferStreamData_keeps (isBidi : Bool) (streamId sessionId : Nat) (data : Bytes) :
    KeepsSessions P (bufferStreamData isBidi streamId sessionId data) := by
  refine Safe.get_bind fun w hw => ?_
  split
  · exact .ret _
  rename_i session hs
  have hsession := hw _ _ hs
  split
  · rename_i t ht
    exact .modify fun w hw => hw.put sessionId (hP.appendBufferedStreamData hsession ht)
  · refine Safe.bind (.modify fun w hw => ?_) fun _ => .emit _
    exact (hw.put sessionId (hP.dropEntry hsession streamId)).of_eq (leaveStream_wtSessions _ _ _)

theorem receiveStreamData_keeps (isBidi : Bool) (streamId sessionId : Nat) (data : Bytes) :
    KeepsSessions P (receiveStreamData env isBidi streamId sessionId data) := by
  refine Safe.of_leads (.get_bind fun w hw => ⟨fun d => d = w, rfl, ?_⟩)
  split
  · have hend : KeepsSessions P (terminateFlowControl env sessionId >>= fun _ => ret false) :=
      .bind (terminateFlowControl_keeps sessionId) fun _ => .ret _
    exact fun d hd => hend d (hd ▸ hw)
  · rename_i hfits
    refine .modify_bind (K := AllSessions P) (fun d hd => ?_)
      (.of_safe (.bind (.emit _) fun _ => .ret _) fun _ h => h)
    subst hd
    intro k t ht
    rw [IdMap.lookup_update_eq] at ht
    split at ht
    · rename_i hk
      subst hk
      obtain ⟨s, hs, rfl⟩ := Option.map_eq_some_iff.mp ht
      refine hP.receives streamId data.length ?_ (hw _ _ hs)
      simpa [hs] using hfits
    · exact hw _ _ ht

theorem openStream_keeps (goaway : Option VarInt) (isBidi : Bool) (streamId sessionId : Nat)
    (payload : Bytes) :
    KeepsSessions P (openStream env goaway isBidi streamId sessionId payload) := by
  have hleave : KeepsSessions P (modify (leaveStream isBidi streamId)) :=
    keepsSessions_modify (leaveStream_wtSessions _ _)
  refine Safe.bind (keepsSessions_modify fun w => ?_) fun _ => ?_
  · rw [enterStream_wtSessions, dropPending_wtSessions]
  refine Safe.bind (associateOrBufferStream_keeps hP goaway streamId sessionId isBidi) fun r => ?_
  split
  · exact .bind hleave fun _ => .emit _
  · exact .bind hleave fun _ => .emit _
  · exact .ite (fun _ => .ret _) fun _ => bufferStreamData_keeps hP _ _ _ _
  · refine Safe.of_leads (.get_bind fun w hw => ⟨fun d => d = w, rfl, ?_⟩)
    split
    · have hend : KeepsSessions P (modify (leaveStream isBidi streamId) >>= fun _ =>
          terminateFlowControl env sessionId) := .bind hleave fun _ => terminateFlowControl_keeps _
      exact fun d hd => hend d (hd ▸ hw)
    · rename_i hfits
      refine .modify_bind (K := AllSessions P) (fun d hd => ?_)
        (.of_safe (.bind (.emit _) fun _ => .ite (fun _ => .ret _) fun _ => ?_) fun _ h => h)
      · subst hd
        intro k t ht
        rw [IdMap.lookup_update_eq] at ht
        split at ht
        · rename_i hk
          subst hk
          obtain ⟨s, hs, rfl⟩ := Option.map_eq_some_iff.mp ht
          refine hP.opens isBidi ?_ (hw _ _ hs)
          simpa [hs] using hfits
        · exact hw _ _ ht
      · exact .bind (receiveStreamData_keeps hP _ _ _ _) fun _ => .ret _

theorem resolveWtUniStreamSessionId_keeps (goaway : Option VarInt) (streamId : Nat)
    (data : Bytes) : KeepsSessions P (resolveWtUniStreamSessionId env goaway streamId data) := by
  refine Safe.get_bind fun w hw => ?_
  dsimp only
  split
  · exact keepsSessions_modify (setPending_wtSessions _ _ _)
  · refine .ite (fun _ => .bind (keepsSessions_modify fun w => ?_) fun _ => .throw id) fun _ =>
      openStream_keeps hP _ _ _ _ _
    split
    · exact setPending_wtSessions _ _ _ _
    · rfl

theorem resolveWtBidiStreamHeader_keeps (goaway : Option VarInt) (streamId : Nat)
    (data : Bytes) : KeepsSessions P (resolveWtBidiStreamHeader env goaway streamId data) := by
  refine Safe.get_bind fun w hw => ?_
  have hkeep : ∀ buf, KeepsSessions P (modify fun w : WtState =>
      if w.pendingWtBidiStreams.contains streamId then setPending true streamId buf w else w) := by
    refine fun buf => keepsSessions_modify fun w => ?_
    split
    · exact setPending_wtSessions _ _ _ _
    · rfl
  dsimp only
  split
  · exact keepsSessions_modify (setPending_wtSessions _ _ _)
  · refine .ite (fun _ => .bind (hkeep _) fun _ => .throw id) fun _ => ?_
    split
    · exact keepsSessions_modify (setPending_wtSessions _ _ _)
    · exact .ite (fun _ => .bind (hkeep _) fun _ => .throw id) fun _ =>
        openStream_keeps hP _ _ _ _ _

theorem returnCredit_keeps (isBidi : Bool) (streamId sessionId : Nat) {w : WtState}
    (hw : AllSessions P w) : AllSessions P (returnCredit isBidi streamId sessionId w) :=
  hw.update sessionId fun _ hs => hP.returnCredit hs isBidi streamId

theorem markFin_keeps (streamId sessionId : Nat) {w : WtState} (hw : AllSessions P w) :
    AllSessions P (markFin streamId sessionId w) :=
  hw.update sessionId fun s hs => hP.same (s := s) ⟨rfl, rfl, rfl, rfl, rfl, rfl⟩ hs

theorem finishBidi_keeps (streamId sessionId : Nat) :
    KeepsSessions P (finishBidi env streamId sessionId) := by
  refine Safe.bind (.modify fun w hw => ?_) fun _ => .emit _
  split
  · exact hw
  · exact returnCredit_keeps hP _ _ _ (hw.of_eq (leaveStream_wtSessions _ _ _))

theorem continueWtBidiStream_keeps (streamId sessionId : Nat) (data : Bytes) (fin : Bool) :
    KeepsSessions P (continueWtBidiStream env streamId sessionId data fin) := by
  have hmark : KeepsSessions P
      (if fin then modify (markFin streamId sessionId) else ret () : WtProc Unit) :=
    .ite (fun _ => .modify fun w hw => markFin_keeps hP _ _ hw) fun _ => .ret _
  have hfinish : ∀ goesOn : Bool, KeepsSessions P
      (if goesOn && fin then finishBidi env streamId sessionId else ret ()) :=
    fun _ => .ite (fun _ => finishBidi_keeps hP _ _) fun _ => .ret _
  refine Safe.get_bind fun w hw => ?_
  dsimp only
  split
  · split
    · exact .bind (.ret _) fun _ => hmark
    · exact .bind (bufferStreamData_keeps hP _ _ _ _) fun _ => hmark
  · split
    · exact .bind (.ret _) fun _ => hfinish _
    · exact .bind (receiveStreamData_keeps hP _ _ _ _) fun _ => hfinish _

theorem finishResolved_keeps (streamId : Nat) : KeepsSessions P (finishResolved streamId) := by
  have hdrop : KeepsSessions P (modify (dropPending true streamId)) :=
    keepsSessions_modify (dropPending_wtSessions _ _)
  refine Safe.get_bind fun w hw => ?_
  dsimp only
  split
  · split
    · exact .bind (.modify fun w hw => markFin_keeps hP _ _ hw) fun _ => hdrop
    · refine Safe.bind (.modify fun w hw => ?_) fun _ => .bind (.emit _) fun _ => hdrop
      exact returnCredit_keeps hP _ _ _ (hw.of_eq (leaveStream_wtSessions _ _ _))
  · exact .bind (.ret _) fun _ => hdrop

theorem handleWtBidiStream_keeps (goaway : Option VarInt) (streamId : Nat) (data : Bytes)
    (fin : Bool) : KeepsSessions P (handleWtBidiStream env goaway streamId data fin) := by
  refine Safe.get_bind fun w hw => ?_
  split
  · exact continueWtBidiStream_keeps hP _ _ _ _
  · exact .bind (resolveWtBidiStreamHeader_keeps hP _ _ _) fun _ =>
      .ite (fun _ => finishResolved_keeps hP _) fun _ => .ret _

theorem handleWtUniStreamData_keeps (streamId : Nat) (data : Bytes) :
    KeepsSessions P (handleWtUniStreamData env streamId data) := by
  refine Safe.get_bind fun w hw => ?_
  split
  · exact .ret _
  · exact .ite (fun _ => .ret _) fun _ => .ite (fun _ => bufferStreamData_keeps hP _ _ _ _) fun _ =>
      .bind (receiveStreamData_keeps hP _ _ _ _) fun _ => .ret _

theorem handleWtUniStreamFin_keeps (streamId : Nat) :
    KeepsSessions P (handleWtUniStreamFin env streamId) := by
  refine Safe.get_bind fun w hw => ?_
  split
  · exact .ret _
  · refine .ite (fun _ => .ret _) fun _ => .ite (fun _ => .modify fun w hw => ?_) fun _ => ?_
    · refine (markFin_keeps hP _ _ ?_).of_eq (enterStream_wtSessions _ _ _ _)
      exact hw.of_eq (leaveStream_wtSessions _ _ _)
    · refine Safe.bind (.modify fun w hw => ?_) fun _ => .emit _
      exact returnCredit_keeps hP _ _ _ (hw.of_eq (leaveStream_wtSessions _ _ _))

/-! ## Capsules and CONNECT -/

theorem handleWtCapsule_keeps (sessionId : Nat) (capsule : Capsule) :
    KeepsSessions P (handleWtCapsule env sessionId capsule) := by
  unfold handleWtCapsule
  split
  · exact terminateWtSessionWith_keeps _ _ _ _
  · refine Safe.get_bind fun w hw => ?_
    split
    · rename_i session hs
      refine .ite (fun _ => .bind (.modify fun w hw' => ?_) fun _ => .emit _) fun _ => .ret _
      exact hw'.put sessionId (hP.state (hw _ _ hs) .draining)
    · exact .ret _
  any_goals exact Safe.get_bind fun w hw => .ite (fun _ => .emit _) fun _ => .ret _
  · exact .ite (fun _ => terminateWtSessionWith_keeps _ _ _ _) fun _ => .ret _

theorem processWtCapsule_keeps (sessionId : Nat) :
    KeepsSessions P (processWtCapsule env sessionId) := by
  refine Safe.get_bind fun w hw => ?_
  split
  · exact .ret _
  rename_i session hs
  refine .ite (fun _ => .ret _) fun _ => ?_
  split
  · exact .ret _
  · exact .throw id
  · refine Safe.bind (.modify fun w hw' => hw'.put sessionId (hP.capsuleBuf (hw _ _ hs) _)) fun _ => ?_
    exact .bind (handleWtCapsule_keeps hP _ _) fun _ => .ite (fun _ => .throw id) fun _ => .ret _

theorem processWtCapsuleData_keeps (sessionId : Nat) (data : Bytes) :
    KeepsSessions P (processWtCapsuleData env sessionId data) := by
  refine Safe.get_bind fun w hw => ?_
  split
  · exact .ret _
  rename_i session hs
  refine Safe.bind (.modify fun w hw' => hw'.put sessionId (hP.capsuleBuf (hw _ _ hs) _)) fun _ => ?_
  exact .loop (processWtCapsule_keeps hP sessionId) _

theorem handleWtDataFrame_keeps (peer : Option Settings) (bodyLen streamId : Nat) (data : Bytes) :
    KeepsSessions P (handleWtDataFrame env peer bodyLen streamId data) := by
  refine Safe.get_bind fun w hw => .ite (fun _ => .ite (fun _ => .throw id) fun _ => .ret _) fun _ => ?_
  split
  · exact .ite (fun _ => .throw id) fun _ => .ret _
  rename_i session hs
  split
  · exact .bind (processWtCapsuleData_keeps hP _ _) fun _ => .ret _
  · exact .bind (processWtCapsuleData_keeps hP _ _) fun _ => .ret _
  · refine .ite (fun _ => .ret _) fun _ => .ite (fun _ => .ite (fun _ => .throw id) fun _ => ?_)
      fun _ => .throw id
    exact .bind (.modify fun w hw' => hw'.put streamId (hP.capsuleBuf (hw _ _ hs) _)) fun _ => .ret _
  · exact .throw id

omit hP in
theorem handleWtStreamEnd_keeps (streamId : Nat) :
    KeepsSessions P (handleWtStreamEnd env streamId) := by
  refine Safe.get_bind fun w hw => .ite (fun _ => keepsSessions_modify fun _ => rfl) fun _ => ?_
  split
  · exact .ret _
  · exact .ite (fun _ => abandonSession_keeps _ _) fun _ => .ite (fun _ => .throw id) fun _ =>
      terminateWtSession_keeps _

theorem registerSession_keeps (streamId : Nat) (headers : List Header) :
    KeepsSessions P (registerSession streamId headers) := by
  refine Safe.bind (.emit _) fun _ => .modify fun w hw => hw.put streamId (hP.offer ?_ headers)
  cases hs : w.wtSessions.lookup streamId with
  | none => exact hP.new
  | some session => exact hw _ _ hs

omit hP in
theorem deferSession_keeps (streamId : Nat) (headers : List Header) :
    KeepsSessions P (deferSession streamId headers) :=
  Safe.bind (.emit _) fun _ => keepsSessions_modify fun _ => rfl

theorem establish_keeps (peer : Option Settings) (sessionId : Nat) {session : WtSession}
    (hs : P session) : KeepsSessions P (establish env peer sessionId session) := by
  refine Safe.bind (.modify fun w hw => hw.put sessionId (hP.establishes peer hs)) fun _ => ?_
  refine Safe.bind (.emit _) fun _ => .bind (deliverBufferedStreams_keeps hP sessionId) fun _ => ?_
  exact .ite (fun _ => .bind (terminateFlowControl_keeps _) fun _ => .ret _) fun _ => .ret _

theorem handleWtConnectResponse_keeps (peer : Option Settings) (streamId : Nat)
    (headers : List Header) :
    KeepsSessions P (handleWtConnectResponse env peer streamId headers) := by
  refine Safe.get_bind fun w hw => .ite (fun _ => .ret _) fun _ => ?_
  split
  · exact .ret _
  rename_i session hs
  refine .ite (fun _ => .throw id) fun _ => .ite (fun _ => .throw id) fun _ =>
    .ite (fun _ => .ret _) fun _ => .ite (fun _ => ?_) fun _ => ?_
  · exact .bind (terminateWtSessionWith_keeps _ _ _ _) fun _ => .ret _
  · exact .bind (establish_keeps hP peer streamId (hw _ _ hs)) fun _ => .ret _

theorem processBufferedCapsules_keeps (streamId : Nat) :
    KeepsSessions P (processBufferedCapsules env streamId) := by
  refine Safe.get_bind fun w hw => .ite (fun _ => ?_) fun _ => .ret _
  refine Safe.attempt (processWtCapsuleData_keeps hP _ _) fun r _ => ?_
  split
  · exact .ret _
  · exact .bind (terminateWtSession_keeps _) fun _ => .throw id

theorem establishWtSessionServer_keeps (peer : Option Settings) (streamId : Nat)
    (headers : List Header) :
    KeepsSessions P (establishWtSessionServer env peer streamId headers) := by
  refine Safe.get_bind fun w hw => .ite (fun _ => .ret _) fun _ => ?_
  split
  · exact .ret _
  rename_i session hs
  refine .ite (fun _ => .ret _) fun _ => .bind (establish_keeps hP peer streamId (hw _ _ hs)) fun _ => ?_
  exact .ite (fun _ => processBufferedCapsules_keeps hP _) fun _ => .ret _

omit hP in
theorem rejectWtSession_keeps (streamId : Nat) (headers : List Header) :
    KeepsSessions P (rejectWtSession streamId headers) := by
  refine .ite (fun _ => .ret _) fun _ => Safe.get_bind fun w hw => ?_
  split
  · exact .ite (fun _ => abandonSession_keeps _ _) fun _ => .ret _
  · exact .ret _

/-! ## The other procedures -/

omit hP in
theorem handleWtStopSending_keeps (streamId errorCode : Nat) :
    KeepsSessions P (handleWtStopSending env streamId errorCode) := by
  refine Safe.get_bind fun w hw => .ite (fun _ => .bind (terminateWtSession_keeps _) fun _ => .ret _)
    fun _ => .ite (fun _ => .ret _) fun _ => .ite (fun _ => .ret _) fun _ => ?_
  split
  · exact .bind (.emit _) fun _ => .ret _
  · exact .ret _

omit hP in
theorem ignorePreNegotiation_keeps (streamId : Nat) :
    KeepsSessions P (ignorePreNegotiation streamId) :=
  Safe.bind (keepsSessions_modify fun _ => rfl) fun _ => .emit _

omit hP in
theorem bufferPreNegotiationWtBidi_keeps (streamId : Nat) (data : Bytes) (fin : Bool) :
    KeepsSessions P (bufferPreNegotiationWtBidi streamId data fin) := by
  refine Safe.get_bind fun w hw => .ite (fun _ => ignorePreNegotiation_keeps _) fun _ =>
    .ite (fun _ => ?_) fun _ => keepsSessions_modify fun _ => rfl
  exact .bind (keepsSessions_modify fun _ => rfl) fun _ => ignorePreNegotiation_keeps _

theorem releasePreNegotiation_keeps (goaway : Option VarInt) (negotiated : Bool) :
    KeepsSessions P (releasePreNegotiation env goaway negotiated) := by
  refine Safe.get_bind fun w hw => .bind (keepsSessions_modify fun _ => rfl) fun _ =>
    .each _ fun streamId _ => ?_
  unfold releaseWaiting
  split
  · exact .ret _
  · exact .ite (fun _ => handleWtBidiStream_keeps hP _ _ _ _) fun _ => ignorePreNegotiation_keeps _

theorem drainSession_keeps (id sessionId : Nat) : KeepsSessions P (drainSession id sessionId) := by
  refine Safe.get_bind fun w hw => ?_
  split
  · exact .ret _
  rename_i session hs
  refine .ite (fun _ => .bind (.modify fun w hw' => ?_) fun _ => .emit _) fun _ => .ret _
  exact hw'.put sessionId (hP.state (hw _ _ hs) .draining)

omit hP in
theorem finishNewUni_keeps (streamId : Nat) : KeepsSessions P (finishNewUni streamId) := by
  have hdrop : KeepsSessions P (modify (dropPending false streamId)) :=
    keepsSessions_modify (dropPending_wtSessions _ _)
  refine Safe.get_bind fun w hw => .ite (fun _ => ?_) fun _ => .bind (.ret _) fun _ => hdrop
  exact .bind (keepsSessions_modify (leaveStream_wtSessions _ _)) fun _ => .bind (.emit _) fun _ =>
    hdrop

theorem receiveDatagram_keeps (goaway : Option VarInt) (sessionId : Nat) (payload : Bytes) :
    KeepsSessions P (receiveDatagram env goaway sessionId payload) := by
  refine Safe.get_bind fun w hw => ?_
  split
  · rename_i session hs
    split
    · exact .emit _
    · exact .emit _
    · exact .modify fun w hw' => hw'.put sessionId (hP.bufferDatagram (hw _ _ hs) payload)
    · exact .ret _
  · exact .ite (fun _ => .ret _) fun _ => .ite (fun _ => .ret _) fun _ => .ite (fun _ => .ret _)
      fun _ => .ite (fun _ => .ret _) fun _ => .modify fun w hw' =>
        hw'.put sessionId (hP.bufferDatagram hP.new payload)

theorem takeWtPendingCapsules_keeps (sessionId : Nat) :
    KeepsSessions P (takeWtPendingCapsules sessionId) := by
  refine Safe.get_bind fun w hw => ?_
  split
  · exact .ret _
  · rename_i session hs
    exact .bind (.modify fun w hw' => hw'.put sessionId (hP.hands (hw _ _ hs))) fun _ => .ret _

/-! ## Resets -/

omit hP in
theorem removeBuffered_same (streamId : Nat) (sids : List Nat) {m : IdMap WtSession} {k : Nat}
    {t : WtSession} (h : (removeBuffered streamId sids m).2.lookup k = some t) :
    ∃ s, m.lookup k = some s ∧ SameCredit s t := by
  induction sids generalizing m with
  | nil => exact ⟨t, h, .refl t⟩
  | cons sid sids ih =>
    have hput : ∀ {s u v : WtSession}, m.lookup sid = some s → SameCredit s u →
        (m.insert sid u).lookup k = some v → ∃ s, m.lookup k = some s ∧ SameCredit s v := by
      intro s u v hs hsame hv
      rw [IdMap.lookup_insert_eq] at hv
      split at hv
      · rename_i hk
        cases hv
        exact ⟨s, hk ▸ hs, hsame⟩
      · exact ⟨v, hv, .refl v⟩
    rw [removeBuffered] at h
    split at h
    · exact ih h
    · rename_i s hs
      have hsame : SameCredit s (s.removeBufferedStream streamId).2 :=
        ⟨rfl, rfl, rfl, rfl, rfl, rfl⟩
      split at h <;> rename_i u hu <;> rw [hu] at hsame
      · exact hput hs hsame h
      · obtain ⟨v, hv, hrest⟩ := ih h
        obtain ⟨s', hs', hfirst⟩ := hput hs hsame hv
        exact ⟨s', hs', hfirst.trans hrest⟩

/-- The bytes in front of the payload, as they count for a reset. -/
def resetHeaderLen (env : Env) (w : WtState) (streamId : Nat) : Except Error Nat :=
  if isLocalInitiatedBidi env.role (.fromStreamId streamId) then .ok 0
  else wtStreamHeaderLen w streamId

/-- The data of a stream that its reset accounts for. -/
def resetResidual (env : Env) (w : WtState) (streamId finalSize : Nat) (s : WtSession) : Nat :=
  match resetHeaderLen env w streamId with
  | .ok headerLen => finalSize - headerLen - s.getStreamReceivedData streamId
  | .error _ => 0

section Reset

variable {w : WtState} {sessionId streamId finalSize : Nat}

/-- The residual of a session is accounted for, and this keeps the property. -/
def AdmitsReset (env : Env) (P : WtSession → Prop) (w : WtState)
    (sessionId streamId finalSize : Nat) : Prop :=
  ∀ s, w.wtSessions.lookup sessionId = some s →
    s.checkReceivedData (resetResidual env w streamId finalSize s) = true → P s →
    P ((s.addReceivedData (resetResidual env w streamId finalSize s)).onDataConsumed
      (resetResidual env w streamId finalSize s))

omit hP in
theorem accountWtStreamReset_keeps (hw : AllSessions P w)
    (h : AdmitsReset env P w sessionId streamId finalSize) :
    AllSessions P (accountWtStreamReset env sessionId streamId finalSize w).st := by
  unfold accountWtStreamReset
  simp only [get_bind]
  have hlen : (if isLocalInitiatedBidi env.role (.fromStreamId streamId) then .ok 0
      else wtStreamHeaderLen w streamId) = resetHeaderLen env w streamId := rfl
  rw [hlen]
  cases hr : resetHeaderLen env w streamId with
  | error e => exact hw
  | ok headerLen =>
    rw [ofExcept_ok, bind_run]
    simp only [ret_run]
    cases hs : w.wtSessions.lookup sessionId with
    | none => exact hw
    | some session =>
      have hres : finalSize - headerLen - session.getStreamReceivedData streamId =
          resetResidual env w streamId finalSize session := by
        rw [resetResidual, hr]
      dsimp only
      rw [hres]
      split
      · have hend : KeepsSessions P (terminateFlowControl env sessionId >>= fun _ => ret true) :=
          .bind (terminateFlowControl_keeps sessionId) fun _ => .ret _
        exact (hend w hw).1
      · rename_i hcheck
        exact hw.put sessionId (h session hs (by simpa using hcheck) (hw _ _ hs))

theorem resetDataStream_keeps (errorCode : Nat) (hw : AllSessions P w)
    (h : AdmitsReset env P w sessionId streamId finalSize) :
    AllSessions P (resetDataStream env sessionId streamId errorCode finalSize w).st := by
  have hrest : ∀ isBidi : Bool, KeepsSessions P (modify fun w : WtState => { w with
      wtSessions := w.wtSessions.update sessionId fun session =>
        let session :=
          if isLocalInitiatedBidi env.role (.fromStreamId streamId) then session
          else session.onRemoteStreamClosed isBidi
        (session.removeStreamReceivedData streamId).disassociateStream streamId
      wtUniStreams := w.wtUniStreams.erase streamId
      wtBidiStreams := w.wtBidiStreams.erase streamId }) := by
    refine fun isBidi => keepsSessions_update sessionId (fun s hs => ?_) fun _ => rfl
    dsimp only
    split
    · exact hP.same (s := s.removeStreamReceivedData streamId)
        ⟨rfl, rfl, rfl, rfl, rfl, rfl⟩ (hP.forgets streamId hs)
    · exact hP.same (s := (s.onRemoteStreamClosed isBidi).removeStreamReceivedData streamId)
        ⟨rfl, rfl, rfl, rfl, rfl, rfl⟩ (hP.returnCredit hs isBidi streamId)
  unfold resetDataStream
  simp only [get_bind]
  rw [bind_run]
  have haccount := accountWtStreamReset_keeps hw h
  rcases hx : accountWtStreamReset env sessionId streamId finalSize w with ⟨val, d, out⟩
  rw [hx] at haccount
  cases val with
  | error e => exact haccount
  | ok ended =>
    cases ended with
    | true => exact haccount
    | false => exact (hrest _ d haccount).1

/-- The reset of a stream, when that of a data stream keeps the property. -/
theorem handleWtStreamReset_keeps (errorCode : Nat) (hw : AllSessions P w)
    (h : ∀ sessionId, sessionOf w streamId = some sessionId →
      ∀ sessions, (∀ k t, sessions.lookup k = some t → ∃ s, w.wtSessions.lookup k = some s ∧ SameCredit s t) →
      AdmitsReset env P { w with wtSessions := sessions } sessionId streamId finalSize) :
    AllSessions P (handleWtStreamReset env streamId errorCode finalSize w).st := by
  unfold handleWtStreamReset
  simp only [get_bind]
  split
  · exact (Safe.bind (terminateWtSession_keeps streamId) (fun _ => .ret _) w hw).1
  split
  · exact hw
  split
  · exact hw
  split
  · exact hw
  split
  · exact hw
  have hsame := fun k t => removeBuffered_same streamId
    (env.order.walk .wtSessions w.wtSessions.keys) (m := w.wtSessions) (k := k) (t := t)
  have hsessions : ∀ sessions, (∀ k t, sessions.lookup k = some t →
      ∃ s, w.wtSessions.lookup k = some s ∧ SameCredit s t) → IdMap.All P sessions := by
    intro sessions hall k t ht
    obtain ⟨s, hs, hst⟩ := hall k t ht
    exact hP.same hst (hw k s hs)
  rcases hremoved : removeBuffered streamId (env.order.walk .wtSessions w.wtSessions.keys)
    w.wtSessions with ⟨found, sessions⟩
  rw [hremoved] at hsame
  cases found with
  | true => exact hsessions sessions hsame
  | false =>
    simp only [modify_bind]
    cases hof : sessionOf w streamId with
    | none => exact hsessions sessions hsame
    | some sessionId =>
      dsimp only
      split
      · exact hsessions sessions hsame
      · rw [bind_run]
        have hreset := resetDataStream_keeps hP errorCode
          (w := { w with wtSessions := sessions }) (hsessions sessions hsame)
          (h sessionId hof sessions hsame)
        rcases hx : resetDataStream env sessionId streamId errorCode finalSize
          { w with wtSessions := sessions } with ⟨val, d, out⟩
        rw [hx] at hreset
        cases val <;> exact hreset

end Reset

end Wt

/-! ## One call -/

/-- The property of all sessions goes on. -/
def SessionFlow (P : WtSession → Prop) : Flow Obs Core :=
  fun c _ _ d => AllSessions P c.wt → AllSessions P d.wt

section Core

variable {env : Env} {P : WtSession → Prop}

theorem sessionFlow_composes (P : WtSession → Prop) : Composes (SessionFlow P) where
  refl _ _ h := h
  trans h h' := fun hc => h' (h hc)

theorem SessionFlow.of_eq {c d : Core} (h : d.wt = c.wt) (o : List Obs) (b : Bool) :
    SessionFlow P c o b d := fun hc => h ▸ hc

theorem sessionFlow_onWt {α : Type} {x : WtProc α} (h : KeepsSessions P x) :
    Keeps (SessionFlow P) (onWt x) := fun c hc => (h c.wt hc).1

theorem clearQpackBlocked_wt (streamId : Nat) (c : Core) :
    (clearQpackBlocked streamId c).wt = c.wt := by
  unfold clearQpackBlocked
  repeat' split
  all_goals rfl

theorem removeStreamIfDone_wt (streamId : Nat) (c : Core) :
    (removeStreamIfDone streamId c).wt = c.wt := by
  rw [removeStreamIfDone_eq]

section Inherited

variable (hP : Inherited env P)

include hP

theorem processDeferredWtConnect_flow (streamId : Nat) (headers : List Header) :
    Keeps (SessionFlow P) (processDeferredWtConnect env streamId headers) := by
  have hR := sessionFlow_composes P
  refine Keeps.bind hR (.get hR) fun c => .bind hR (.ofExcept hR _) fun _ => .bind hR ?_ fun _ => ?_
  · unfold registerWtConnectSession
    split
    · exact .ret hR ()
    · exact sessionFlow_onWt (registerSession_keeps hP streamId headers)
  · split
    · refine .bind hR (sessionFlow_onWt (.modify fun w hw => ?_)) fun _ => .emitAll fun c hc => hc
      exact hw.update streamId fun s hs => hP.capsuleBuf hs _
    · exact .bind hR (.ret hR ()) fun _ => .emitAll fun c hc => hc

theorem processDeferredWtConnects_flow :
    Keeps (SessionFlow P) (processDeferredWtConnects env) := by
  have hR := sessionFlow_composes P
  refine Keeps.bind hR (.get hR) fun c => .bind hR ?_ fun _ => .each hR _ fun streamId _ =>
    processDeferredWtConnect_flow hP streamId _
  exact sessionFlow_onWt (keepsSessions_modify fun _ => rfl)

theorem processData_flow (streamId bodyLen : Nat) (data : Bytes) :
    Keeps (SessionFlow P) (processData env streamId bodyLen data) := by
  have hR := sessionFlow_composes P
  refine Keeps.bind hR (.emit fun c hc => hc) fun _ => .bind hR (.get hR) fun c => ?_
  refine .bind hR (sessionFlow_onWt (handleWtDataFrame_keeps hP _ _ _ _)) fun _ => ?_
  exact .ite (fun _ => .ret hR ()) fun _ => .emit fun c hc => hc

theorem side_flow {c d : Core} {o : List Obs} {b : Bool} (h : Side env c o b d) :
    SessionFlow P c o b d := by
  cases h with
  | plain h ho => exact .of_eq h.wt _ _
  | wt c x h =>
    refine sessionFlow_onWt ?_ c
    cases h with
    | releasePreNegotiation => exact releasePreNegotiation_keeps hP _ _
    | drainSession => exact drainSession_keeps hP _ _
    | resolveUni => exact resolveWtUniStreamSessionId_keeps hP _ _ _
    | uniData => exact handleWtUniStreamData_keeps hP _ _
    | uniFin => exact handleWtUniStreamFin_keeps hP _
    | dropPendingUni => exact keepsSessions_modify (dropPending_wtSessions _ _)
    | finishNewUni => exact finishNewUni_keeps _
    | receiveDatagram => exact receiveDatagram_keeps hP _ _ _
  | deferred c => exact processDeferredWtConnects_flow hP c

theorem move_flow {c d : Core} {o : List Obs} {b : Bool} (h : Move env c o b d) :
    SessionFlow P c o b d := by
  cases h with
  | side h => exact side_flow hP h
  | «open» c streamId b =>
    have hwt : (ensureStream env streamId c).wt = c.wt := by rw [ensureStream_eq]
    exact .of_eq hwt _ _
  | touch | blocked | report => exact fun hc => hc
  | drop c streamId b => exact .of_eq (removeStreamIfDone_wt streamId c) _ _
  | wt c x h =>
    refine sessionFlow_onWt ?_ c
    cases h with
    | registerSession => exact registerSession_keeps hP _ _
    | deferSession => exact deferSession_keeps _ _
    | connectResponse => exact handleWtConnectResponse_keeps hP _ _ _
    | streamEnd => exact handleWtStreamEnd_keeps _
  | data c streamId bodyLen data => exact processData_flow hP streamId bodyLen data c

theorem feedMove_flow {c d : Core} {o : List Obs} {b : Bool} (h : FeedMove env c o b d) :
    SessionFlow P c o b d := by
  cases h with
  | move h => exact move_flow hP h
  | wt c x h =>
    refine sessionFlow_onWt ?_ c
    cases h with
    | wtBidi => exact handleWtBidiStream_keeps hP _ _ _ _
    | bufferPre => exact bufferPreNegotiationWtBidi_keeps _ _ _
    | ignorePre => exact ignorePreNegotiation_keeps _
    | setDispatch => exact keepsSessions_modify fun _ => rfl
    | dropDispatch => exact keepsSessions_modify fun _ => rfl

theorem keeps_of_moves {α : Type} {x : CoreProc α} (h : Keeps (Many (Move env)) x) :
    Keeps (SessionFlow P) x :=
  h.mono fun _ _ _ _ h => Many.lift (sessionFlow_composes P) (fun _ _ _ _ h => move_flow hP h) h

/-- The calls that may announce a window for data. -/
def consumesData : Call → Bool
  | .streamReset _ _ _ | .wtDataConsumed _ _ => true
  | _ => false

omit hP in
theorem setControlStreamId_flow (streamId : Nat) :
    Keeps (SessionFlow P) (setControlStreamId env streamId) := by
  have hR := sessionFlow_composes P
  refine Keeps.bind hR (.ofExcept hR _) fun _ => .bind hR (.get hR) fun c => ?_
  exact .ite (fun _ => .throw hR _) fun _ => .modify fun c hc => hc

omit hP in
theorem setEncoderStreamId_flow (streamId : Nat) :
    Keeps (SessionFlow P) (setEncoderStreamId env streamId) := by
  have hR := sessionFlow_composes P
  refine Keeps.bind hR (.ofExcept hR _) fun _ => .bind hR (.get hR) fun c => ?_
  split
  · exact .throw hR _
  · refine .bind hR (.modify fun c hc => hc) fun _ => ?_
    split
    · exact .ret hR _
    · split
      · exact .modify fun c hc => hc
      · exact .throw hR _

omit hP in
theorem setDecoderStreamId_flow (streamId : Nat) :
    Keeps (SessionFlow P) (setDecoderStreamId env streamId) := by
  have hR := sessionFlow_composes P
  refine Keeps.bind hR (.ofExcept hR _) fun _ => .bind hR (.get hR) fun c => ?_
  exact .ite (fun _ => .throw hR _) fun _ => .modify fun c hc => hc

omit hP in
theorem getStreamData_flow (streamId : Nat) :
    Keeps (SessionFlow P) (getStreamData env streamId) := by
  have hR := sessionFlow_composes P
  refine Keeps.bind hR (.get hR) fun c => .ite (fun _ => ?_) fun _ => .ret hR _
  refine .bind hR (.modify fun c hc => hc) fun _ => .bind hR ?_ fun _ => .ret hR _
  exact sessionFlow_onWt (terminateWtSession_keeps streamId)

omit hP in
theorem consumeStreamData_flow (streamId len : Nat) :
    Keeps (SessionFlow P) (consumeStreamData streamId len) := by
  have hR := sessionFlow_composes P
  refine Keeps.bind hR (.get hR) fun c => .ite (fun _ => ?_) fun _ =>
    .ite (fun _ => .modify fun c hc => hc) fun _ => .ite (fun _ => .modify fun c hc => hc) fun _ => ?_
  · split
    · exact .modify fun c hc => hc
    · exact .throw hR _
  · split
    · exact .ret hR _
    · split
      · exact .throw hR _
      · refine .bind hR (.modify fun c hc => hc) fun _ => .modify fun c => ?_
        exact .of_eq (removeStreamIfDone_wt streamId c) _ _

omit hP in
theorem takeStreamData_flow (streamId : Nat) :
    Keeps (SessionFlow P) (takeStreamData env streamId) := by
  have hR := sessionFlow_composes P
  refine Keeps.bind hR (getStreamData_flow streamId) fun r => ?_
  split
  · exact .ret hR _
  · exact .ite (fun _ => .ret hR _) fun _ => .bind hR (consumeStreamData_flow streamId _) fun _ =>
      .ret hR _

omit hP in
theorem initH3Streams_flow (control encoder decoder : Nat) :
    Keeps (SessionFlow P) (initH3Streams env control encoder decoder) := by
  have hR := sessionFlow_composes P
  have htake : ∀ streamId, Keeps (SessionFlow P) (takeBytes env streamId) := fun streamId =>
    .bind hR (takeStreamData_flow streamId) fun _ => .ret hR _
  refine Keeps.bind hR (setControlStreamId_flow control) fun _ =>
    .bind hR (setEncoderStreamId_flow encoder) fun _ =>
    .bind hR (setDecoderStreamId_flow decoder) fun _ => ?_
  exact .bind hR (htake _) fun _ => .bind hR (htake _) fun _ => .bind hR (htake _) fun _ =>
    .ret hR _

omit hP in
theorem encodeQpackHeaders_flow (headers : List Header) :
    Keeps (SessionFlow P) (encodeQpackHeaders headers) := by
  have hR := sessionFlow_composes P
  exact Keeps.bind hR (.get hR) fun c => .bind hR (.modify fun c hc => hc) fun _ => .ofExcept hR _

theorem sendRequestInner_flow (headers : List Header) (fin : Bool) :
    Keeps (SessionFlow P) (sendRequestInner env headers fin) := by
  have hR := sessionFlow_composes P
  refine Keeps.bind hR (.get hR) fun c => .bind hR (.ofExcept hR _) fun _ =>
    .bind hR (encodeQpackHeaders_flow headers) fun encoded => .bind hR (.modify fun c hc => hc)
    fun _ => .ite (fun _ => .throw hR _) fun _ => ?_
  refine .bind hR (.ofExcept hR _) fun stream => .bind hR (.modify fun c hc => hc) fun _ =>
    .bind hR (.modify fun c hc => hc) fun _ => .ite (fun _ => .bind hR ?_ fun _ => .ret hR _)
    fun _ => .bind hR (.ret hR _) fun _ => .ret hR _
  exact sessionFlow_onWt (.modify fun w hw => hw.put _ (hP.offer hP.new headers))

theorem sendResponseInner_flow (streamId : Nat) (headers : List Header) (fin : Bool) :
    Keeps (SessionFlow P) (sendResponseInner env streamId headers fin) := by
  have hR := sessionFlow_composes P
  have hqueue : ∀ encoded isInterim,
      Keeps (SessionFlow P) (queueHeaders streamId encoded fin isInterim) := by
    refine fun encoded isInterim => Keeps.bind hR (.get hR) fun c => ?_
    split
    · exact .throw hR _
    · exact .bind hR (.ofExcept hR _) fun _ => .modify fun c hc => hc
  refine Keeps.bind hR (.get hR) fun c => .bind hR (.ofExcept hR _) fun _ =>
    .bind hR (encodeQpackHeaders_flow headers) fun encoded => .bind hR (hqueue _ _) fun _ => ?_
  refine .bind hR (sessionFlow_onWt (rejectWtSession_keeps streamId headers)) fun _ =>
    .bind hR ?_ fun _ => .modify fun c hc => hc
  exact sessionFlow_onWt (establishWtSessionServer_keeps hP _ streamId headers)

omit hP in
theorem sendBodyInner_flow (streamId : Nat) (data : Bytes) (fin : Bool) :
    Keeps (SessionFlow P) (sendBodyInner streamId data fin) := by
  have hR := sessionFlow_composes P
  refine Keeps.bind hR (.get hR) fun c => ?_
  split
  · exact .throw hR _
  · exact .bind hR (.ofExcept hR _) fun _ => .modify fun c hc => hc

omit hP in
theorem sendGoawayInner_flow (id : VarInt) : Keeps (SessionFlow P) (sendGoawayInner env id) := by
  have hR := sessionFlow_composes P
  exact Keeps.bind hR (.get hR) fun c => .bind hR (.ofExcept hR _) fun _ =>
    .bind hR (.ofExcept hR _) fun _ => .bind hR (.ofExcept hR _) fun _ => .modify fun c hc => hc

theorem registerLocalWtStream_flow (sessionId streamId : Nat) :
    Keeps (SessionFlow P) (registerLocalWtStream env sessionId streamId) := by
  have hR := sessionFlow_composes P
  refine Keeps.get_bind fun c => ?_
  dsimp only
  split
  · exact .of_keeps (.throw hR _)
  split
  · exact .of_keeps (.throw hR _)
  split
  · exact .of_keeps (.throw hR _)
  split
  · exact .of_keeps (.throw hR _)
  rename_i session hs
  split
  · exact .of_keeps (.throw hR _)
  · intro hc
    refine (hc.put sessionId (hP.associateStream (hc _ _ hs) streamId)).of_eq ?_
    exact enterStream_wtSessions _ _ _ _

omit hP in
theorem stopSendingInner_flow (streamId errorCode : Nat) :
    Keeps (SessionFlow P) (stopSendingInner env streamId errorCode) := by
  have hR := sessionFlow_composes P
  refine Keeps.bind hR (.get hR) fun c => .ite (fun _ => .throw hR _) fun _ =>
    .bind hR (.modify fun c hc => hc) fun _ =>
    .bind hR (.modify fun c => .of_eq (clearQpackBlocked_wt streamId c) _ _) fun _ =>
    .bind hR (.modify fun c hc => hc) fun _ => .bind hR ?_ fun _ =>
    .modify fun c => .of_eq (removeStreamIfDone_wt streamId c) _ _
  refine .bind hR (sessionFlow_onWt (handleWtStopSending_keeps streamId errorCode)) fun _ => ?_
  exact .ite (fun _ => .ret hR _) fun _ => .emit fun c hc => hc

omit hP in
/-- RESET_STREAM, as far as the reset of a data stream keeps the property. -/
theorem streamResetInner_flow {c : Core} {streamId errorCode finalSize : Nat}
    (h : ∀ w, w.wtSessions = c.wt.wtSessions → w.wtUniStreams = c.wt.wtUniStreams →
      w.wtBidiStreams = c.wt.wtBidiStreams → AllSessions P w →
      AllSessions P (handleWtStreamReset env streamId errorCode finalSize w).st) :
    KeepsAt (SessionFlow P) c (streamResetInner env streamId errorCode finalSize) := by
  have hR := sessionFlow_composes P
  refine KeepsAt.get_bind ?_
  split
  · exact .of_keeps (.throw hR _)
  refine KeepsAt.modify_bind hR (fun hc => hc) ?_
  refine KeepsAt.bind hR (sessionFlow_onWt (keepsSessions_modify fun _ => rfl) _) fun _ _ => ?_
  refine KeepsAt.modify_bind hR (.of_eq (clearQpackBlocked_wt _ _) _ _) ?_
  refine KeepsAt.modify_bind hR (fun hc => hc) ?_
  refine KeepsAt.bind hR ?_ fun _ _ =>
    .of_keeps (.modify fun c => .of_eq (removeStreamIfDone_wt _ _) _ _)
  refine KeepsAt.bind hR ?_ fun wt _ => .of_keeps ?_
  · have hwt : ∀ d : Core, (modifyQpack (sendStreamCancellationIfNeeded env streamId)
        (Connection.clearQpackBlocked streamId d)).wt = d.wt := fun d => clearQpackBlocked_wt streamId d
    refine h _ ?_ ?_ ?_ <;> · rw [hwt]; rfl
  · exact .ite (fun _ => .ret hR ()) fun _ => .emit fun c hc => hc

theorem body_flow (call : Call) (hcall : consumesData call = false) :
    Keeps (SessionFlow P) (body env call) := by
  have hR := sessionFlow_composes P
  have hunit : ∀ {x : CoreProc Unit}, Keeps (SessionFlow P) x → Keeps (SessionFlow P) (unit x) :=
    fun h => .bind hR h fun _ => .ret hR _
  cases call with
  | streamReset | wtDataConsumed => cases hcall
  | setControlStreamId streamId => exact hunit (setControlStreamId_flow streamId)
  | setEncoderStreamId streamId => exact hunit (setEncoderStreamId_flow streamId)
  | setDecoderStreamId streamId => exact hunit (setDecoderStreamId_flow streamId)
  | initH3Streams control encoder decoder =>
    exact .bind hR (initH3Streams_flow _ _ _) fun _ => .ret hR _
  | setMaxReceivedBodySize size =>
    exact hunit (.modify fun c hc => hc)
  | setPreviousWtSettings settings =>
    exact hunit (sessionFlow_onWt (keepsSessions_modify fun _ => rfl))
  | setWebtransportTransportVerified datagrams resetStreamAt =>
    refine hunit (sessionFlow_onWt ?_)
    unfold setWebtransportTransportVerified
    exact .ite (fun _ => keepsSessions_modify fun _ => rfl) fun _ => .throw id
  | feedStream streamId data fin =>
    refine hunit ((feedStreamInner_moves env streamId data fin).mono fun _ _ _ _ h => ?_)
    exact Many.lift hR (fun _ _ _ _ h => feedMove_flow hP h) h
  | feedDatagram data =>
    exact hunit (keeps_of_moves hP (Side.keeps_move env (feedDatagramInner_side env data)))
  | stopSending streamId errorCode => exact hunit (stopSendingInner_flow _ _)
  | pollEvent | drainEvents => exact hunit (keeps_of_moves hP (retryBlockedStreams_move env))
  | getStreamData streamId => exact .bind hR (getStreamData_flow _) fun _ => .ret hR _
  | takeStreamData streamId => exact .bind hR (takeStreamData_flow _) fun _ => .ret hR _
  | consumeStreamData streamId len => exact hunit (consumeStreamData_flow _ _)
  | sendRequest headers fin => exact .bind hR (sendRequestInner_flow hP _ _) fun _ => .ret hR _
  | sendResponse streamId headers fin => exact hunit (sendResponseInner_flow hP _ _ _)
  | sendBody streamId data fin => exact hunit (sendBodyInner_flow _ _ _)
  | sendGoaway id => exact hunit (sendGoawayInner_flow id)
  | registerLocalWtStream sessionId streamId => exact hunit (registerLocalWtStream_flow hP _ _)
  | takeWtPendingCapsules sessionId =>
    exact .bind hR (sessionFlow_onWt (takeWtPendingCapsules_keeps hP sessionId)) fun _ => .ret hR _
  | sendDatagram sessionId payload => exact .bind hR (.get hR) fun _ => .ofExcept hR _

end Inherited

end Core

end Connection

end Http3
