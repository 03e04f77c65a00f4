import Http3.Connection.Told
import Http3.Lib.Track
import Http3.Lib.Runs

/-!
# Content-Length

What an application is told of a message is checked against what the message says of its own
length: a stream does not end in silence when the two differ.

A stream that is no WebTransport CONNECT is treated as one when a session of its id stands in the
table. Then its data goes to the session.
-/

namespace Http3

/-- The record of a stream is what was told of it. -/
structure Told.Agrees (head : Bool) (t : Told) (r : RequestStream) : Prop where
  block : r.recvHeaders.map Connection.asTold = t.block
  body : r.recvBody.length = t.body
  isWtConnect : r.isWtConnect = false
  isHeadRequest : r.isHeadRequest = true → head = true

theorem Told.Agrees.same {head : Bool} {t : Told} {r u : RequestStream} (h : t.Agrees head r)
    (hsame : Connection.SameMessage r u) : t.Agrees head u where
  block := hsame.recvHeaders ▸ h.block
  body := hsame.recvBody ▸ h.body
  isWtConnect := hsame.isWtConnect.trans h.isWtConnect
  isHeadRequest hhead := h.isHeadRequest (hsame.isHeadRequest ▸ hhead)

namespace Connection

open Proc

/-! ## Messages that end -/

/-- The peer ended the stream, or it was reset. -/
def isOver (stream : Option RequestStream) : Bool :=
  stream.any fun r => r.state = .remoteClosed || r.state = .closed || r.state = .reset

/-- The stream is over, or out of the table, and it was not before. -/
def cameToEnd (before after : Option RequestStream) : Bool :=
  !isOver before && (isOver after || (before.isSome && after.isNone))

theorem cameToEnd_self (stream : Option RequestStream) : cameToEnd stream stream = false := by
  unfold cameToEnd
  cases stream <;> cases isOver _ <;> rfl

theorem cameToEnd_of_state {r t : RequestStream} (h : t.state = r.state) :
    cameToEnd (some r) (some t) = false := by
  have hover : isOver (some t) = isOver (some r) := by
    simp only [isOver, Option.any_some, h]
  rw [cameToEnd, hover]
  cases isOver (some r) <;> rfl

/-- A message that ends in two steps ends in one of them. -/
theorem cameToEnd_trans {r t u : Option RequestStream} (h : cameToEnd r u = true) :
    cameToEnd r t = true ∨ cameToEnd t u = true := by
  unfold cameToEnd at *
  cases hr : isOver r <;> cases ht : isOver t <;> cases r <;> cases t <;> simp_all

/-- A request for a session, as a server reads it. -/
def asksForSession (role : Role) (s : Nat) : Obs → Bool
  | .fieldSection x headers isTrailer =>
    role = .server && x = s && !isTrailer && isWebtransportConnect headers
  | _ => false

/-- There is no session of this id, and there was none. -/
@[mk_iff]
structure Alone (s : Nat) (c : Core) : Prop where
  sessions : c.wt.wtSessions.contains s = false
  closed : c.wt.closedWtSessions.contains s = false

/-- Its CONNECT does not wait for SETTINGS, and its record is what was told. -/
structure Holds (s : Nat) (head : Bool) (t : Told) (c : Core) : Prop where
  waiting : c.wt.deferredWtConnects.contains s = false
  agrees : ∀ r, c.streams.lookup s = some r → t.Agrees head r

/-- From what was told before: the record is what is told now, the end is told of an intact message
only, and a message that ends without it ends with an error. -/
structure Tallied (role : Role) (s : Nat) (head : Bool) (t : Told) (c : Core) (o : List Obs)
    (e : Option Error) (d : Core) : Prop where
  holds : Holds s head (o.foldl (Told.hear s) t) d
  ends : Runs.Every (Told.hear s) (fun t w => w = .event (.streamEnd s) → Intact role head t) t o
  settles : cameToEnd (c.streams.lookup s) (d.streams.lookup s) = true →
    .event (.streamEnd s) ∈ o ∨ e = some messageError

/-- Unless the stream asks for a session, the account is kept. -/
def Tallies (role : Role) (s : Nat) (head : Bool) : Track Error Obs Core := fun c o e d =>
  (∀ w ∈ o, asksForSession role s w = false) → ∀ t, Holds s head t c → Alone s c →
    Tallied role s head t c o e d ∧ Alone s d

section Rules

variable {role : Role} {s : Nat} {head : Bool} {t : Told} {c d : Core} {o : List Obs}
  {e : Option Error}

theorem every_hear_of_others {P : Told → Prop} (h : ∀ w ∈ o, w ≠ .event (.streamEnd s)) :
    Runs.Every (Told.hear s) (fun t w => w = .event (.streamEnd s) → P t) t o := by
  induction o generalizing t with
  | nil => trivial
  | cons w o ih =>
    refine ⟨fun hw => absurd hw (h w List.mem_cons_self), ih fun v hv => ?_⟩
    exact h v (List.mem_cons_of_mem w hv)

theorem ne_streamEnd_of_other {w : Obs} (h : w.isOf s = false) : w ≠ .event (.streamEnd s) := by
  rintro rfl
  exact Bool.false_ne_true (h.symm.trans (beq_self_eq_true s))

/-- Nothing is reported of the stream, and it is left as it is. -/
theorem Mute.tallied {b : Bool} (h : Mute s c o b d) (hc : Holds s head t c) :
    Tallied role s head t c o e d := by
  obtain ⟨hwaiting, ho, hs⟩ := h hc.waiting
  refine ⟨⟨hwaiting, ?_⟩, every_hear_of_others fun w hw => ne_streamEnd_of_other (ho w hw), ?_⟩
  · rw [hear_others ho, hs]
    exact hc.agrees
  · rw [hs, cameToEnd_self]
    nofun

/-- Two runs, one after the other. -/
theorem Tallied.append {u : Core} {o' : List Obs} {e' e'' : Option Error}
    (h : Tallied role s head t c o e d)
    (h' : Tallied role s head (o.foldl (Told.hear s) t) d o' e' u)
    (he : e = some messageError → e'' = some messageError)
    (he' : e' = some messageError → e'' = some messageError) :
    Tallied role s head t c (o ++ o') e'' u := by
  refine ⟨?_, Runs.Every.append.mpr ⟨h.ends, h'.ends⟩, fun hend => ?_⟩
  · rw [List.foldl_append]
    exact h'.holds
  · obtain hend | hend := cameToEnd_trans (t := d.streams.lookup s) hend
    · exact (h.settles hend).imp (List.mem_append_left o') he
    · exact (h'.settles hend).imp (List.mem_append_right o) he'

theorem tallies_chains : Chains (Tallies role s head) where
  refl c e _ t hc halone :=
    ⟨Mute.tallied ((mute_composes s).refl c true) hc, halone⟩
  trans := by
    intro c d u o o' e h h' hasks t hc halone
    obtain ⟨hfirst, hd⟩ := h (fun w hw => hasks w (List.mem_append_left o' hw)) t hc halone
    obtain ⟨hsecond, hu⟩ :=
      h' (fun w hw => hasks w (List.mem_append_right o hw)) _ hfirst.holds hd
    exact ⟨hfirst.append hsecond nofun fun h => h, hu⟩

/-- What the account may be kept from. -/
theorem tracks_of_holds {α : Type} {x : CoreProc α}
    (h : ∀ t, Holds s head t c → Alone s c → Tracks (Tallies role s head) c x) :
    Tracks (Tallies role s head) c x :=
  fun hasks t hc halone => h t hc halone hasks t hc halone

theorem tracks_of_leaves {α : Type} {x : CoreProc α} (h : Keeps (Leaves s) x) :
    Tracks (Tallies role s head) c x := by
  intro _ t hc halone
  obtain ⟨hmute, hspares⟩ := h c
  obtain ⟨hsessions, hclosed⟩ := hspares halone.sessions
  exact ⟨hmute.tallied hc, hsessions, hclosed.trans halone.closed⟩

/-- A request for a session settles it. -/
theorem tracks_of_asks {α : Type} {w : Obs} {k : Unit → CoreProc α}
    (h : asksForSession role s w = true) : Tracks (Tallies role s head) c (emit w >>= k) := by
  intro hasks
  have hw : w ∈ ((emit w >>= k) c).out := by
    rw [bind_run]
    exact List.mem_append_left _ (List.mem_singleton.mpr rfl)
  exact absurd (h.symm.trans (hasks w hw)).symm Bool.false_ne_true

/-- The record changes as what is told does, and the stream does not end. -/
theorem tallies_told {f : RequestStream → RequestStream} {t' : Told} (hc : Holds s head t c)
    (halone : Alone s c) (hwt : d.wt = c.wt)
    (hs : d.streams.lookup s = (c.streams.lookup s).map f) (htold : o.foldl (Told.hear s) t = t')
    (hends : ∀ w ∈ o, w ≠ .event (.streamEnd s))
    (hf : ∀ r, c.streams.lookup s = some r → t.Agrees head r →
      t'.Agrees head (f r) ∧ (f r).state = r.state) :
    Tallied role s head t c o e d ∧ Alone s d := by
  refine ⟨⟨⟨by rw [hwt]; exact hc.waiting, fun u hu => ?_⟩, every_hear_of_others hends,
    fun hend => ?_⟩, ?_⟩
  · rw [hs] at hu
    obtain ⟨r, hr, rfl⟩ := Option.map_eq_some_iff.mp hu
    rw [htold]
    exact (hf r hr (hc.agrees r hr)).1
  · rw [hs] at hend
    cases hr : c.streams.lookup s with
    | none =>
      rw [hr] at hend
      cases hend
    | some r =>
      rw [hr, Option.map_some, cameToEnd_of_state (hf r hr (hc.agrees r hr)).2] at hend
      cases hend
  · exact ⟨hwt ▸ halone.sessions, hwt ▸ halone.closed⟩

/-- The record changes, but not in what was received. -/
theorem tallies_touch {f : RequestStream → RequestStream} (hwt : d.wt = c.wt)
    (hs : d.streams.lookup s = (c.streams.lookup s).map f)
    (hf : ∀ r, c.streams.lookup s = some r → SameMessage r (f r) ∧ (f r).state = r.state) :
    Tallies role s head c [] none d := fun _ _ hc halone =>
  tallies_told hc halone hwt hs rfl (fun _ hw => absurd hw List.not_mem_nil) fun r hr hagrees =>
    ⟨hagrees.same (hf r hr).1, (hf r hr).2⟩

end Rules

/-! ## Field sections -/

section Sections

variable (env : Env) {s : Nat} {head : Bool} {c : Core}

theorem tracks_touch {f : RequestStream → RequestStream}
    (hf : ∀ r, SameMessage r (f r) ∧ (f r).state = r.state) :
    Tracks (Tallies env.role s head) c (modify (modifyStream s f) : CoreProc Unit) :=
  .modify (tallies_touch rfl (IdMap.lookup_update_self _ _ _) fun r _ => hf r)

theorem registerBlocked_tracks (encoded : Bytes) (isTrailer : Bool) :
    Tracks (Tallies env.role s head) c
      (modify (registerBlocked s encoded isTrailer) : CoreProc Unit) :=
  .modify (tallies_touch rfl (IdMap.lookup_update_self _ _ _) fun _ _ => ⟨⟨rfl, rfl, rfl, rfl⟩, rfl⟩)

theorem registerWtConnectSession_tracks {headers : List Header}
    (h : (env.role = .server && isWebtransportConnect headers) = false) :
    Tracks (Tallies env.role s head) c (registerWtConnectSession env s headers) := by
  have hno : (env.role ≠ .server || !isWebtransportConnect headers) = true := by
    rcases hrole : env.role with _ | _ <;> simp_all
  unfold registerWtConnectSession
  rw [if_pos hno]
  exact .ret tallies_chains ()

theorem Alone.lookup (h : Alone s c) : c.wt.wtSessions.lookup s = none :=
  Option.isSome_eq_false_iff.mp h.sessions |> Option.isNone_iff_eq_none.mp

/-- Without a session no response establishes one. -/
theorem noteConnectResponse_alone (halone : Alone s c) (headers : List Header) :
    noteConnectResponse env s headers c = ⟨.ok (), c, []⟩ := by
  have hno : handleWtConnectResponse env c.peerSettings s headers c.wt = ⟨.ok false, c.wt, []⟩ := by
    unfold handleWtConnectResponse
    rw [get_bind]
    split
    · rfl
    · rw [halone.lookup]
      rfl
  have hwt : onWt (handleWtConnectResponse env c.peerSettings s headers) c = ⟨.ok false, c, []⟩ := by
    rw [onWt, zoom_run, hno]
  unfold noteConnectResponse
  rw [get_bind, bind_ok _ _ _ hwt]
  rfl

theorem headerEvents_ne_streamEnd (headers : List Header) :
    ∀ w ∈ headerEvents s headers, w ≠ .event (.streamEnd s) := by
  rintro w hw rfl
  simp [headerEvents] at hw

/-- A section becomes the one in force when it is told. -/
theorem setRecvHeaders_tracks {headers : List Header} (h : headers.any Validation.isPseudo = true) :
    Tracks (Tallies env.role s head) c
      (modify (modifyStream s fun r => { r with recvHeaders := headers }) >>= fun _ =>
        reportHeaders s headers) := by
  intro _ t hc halone
  refine tallies_told hc halone rfl (IdMap.lookup_update_self _ _ _) (hear_section s headers t)
    (headerEvents_ne_streamEnd headers) fun r _ hagrees => ⟨⟨?_, ?_, ?_, ?_⟩, rfl⟩
  · exact (if_pos h).symm
  · exact hagrees.body
  · exact hagrees.isWtConnect
  · exact hagrees.isHeadRequest

theorem acceptHeaders_tracks {headers : List Header}
    (hasks : (env.role = .server && isWebtransportConnect headers) = false)
    (h : headers.any Validation.isPseudo = true) :
    Tracks (Tallies env.role s head) c (acceptHeaders env s headers) := by
  have hR := @tallies_chains env.role s head
  refine .bind hR (registerWtConnectSession_tracks env hasks) fun _ _ => ?_
  refine .bind hR (tracks_touch env fun r => ?_) fun _ _ => tracks_of_holds fun t hc halone => ?_
  · unfold noteHeaders RequestStream.notifyInformational
    dsimp only
    repeat' split
    all_goals exact ⟨⟨rfl, rfl, rfl, rfl⟩, rfl⟩
  · refine .bind hR ?_ fun _ _ => setRecvHeaders_tracks env h
    unfold Tracks
    rw [noteConnectResponse_alone env halone]
    exact hR.refl _ none

/-- Trailers are told, but they are not in force. -/
theorem reportHeaders_tracks {headers : List Header}
    (h : headers.any Validation.isPseudo = false) :
    Tracks (Tallies env.role s head) c (reportHeaders s headers) := by
  intro _ t hc halone
  refine tallies_told hc halone rfl Option.map_id_apply.symm (hear_section s headers t)
    (headerEvents_ne_streamEnd headers) fun r _ hagrees => ⟨⟨?_, ?_, ?_, ?_⟩, rfl⟩
  · refine hagrees.block.trans (if_neg ?_).symm
    rw [h]
    exact Bool.false_ne_true
  · exact hagrees.body
  · exact hagrees.isWtConnect
  · exact hagrees.isHeadRequest

theorem emitHeaderEvents_tracks {headers : List Header} {isTrailer : Bool}
    (hasks : (env.role = .server && !isTrailer && isWebtransportConnect headers) = false) :
    Tracks (Tallies env.role s head) c (emitHeaderEvents env s headers isTrailer) := by
  have hR := @tallies_chains env.role s head
  cases isTrailer with
  | true =>
    exact .ofExcept_bind hR fun _ hvalid => reportHeaders_tracks env (any_isPseudo_of_trailers hvalid)
  | false =>
    rw [Bool.not_false, Bool.and_true] at hasks
    refine .ofExcept_bind hR fun _ hvalid => .get_bind (.ofExcept_bind hR fun _ _ => ?_)
    rw [if_neg]
    · exact acceptHeaders_tracks env hasks (any_isPseudo_of_valid hvalid)
    · rw [Bool.and_right_comm, hasks]
      exact Bool.false_ne_true

/-- The section is told, unless it asks for a session. -/
theorem fieldSection_tracks (headers : List Header) (isTrailer : Bool) {α : Type}
    {k : Unit → CoreProc α}
    (h : (env.role = .server && !isTrailer && isWebtransportConnect headers) = false →
      ∀ c, Tracks (Tallies env.role s head) c (k ())) :
    Tracks (Tallies env.role s head) c (emit (.fieldSection s headers isTrailer) >>= k) := by
  cases hasks : env.role = .server && !isTrailer && isWebtransportConnect headers with
  | true =>
    refine tracks_of_asks ?_
    simpa [asksForSession, and_assoc] using hasks
  | false =>
    refine .emit_bind tallies_chains (fun _ t hc halone => ?_) (h hasks c)
    exact tallies_told hc halone rfl Option.map_id_apply.symm rfl
      (fun w hw => by rw [List.mem_singleton.mp hw]; nofun) fun r _ hagrees => ⟨hagrees, rfl⟩

theorem processSection_tracks (encoded : Bytes) (isTrailer : Bool) :
    Tracks (Tallies env.role s head) c (processSection env s encoded isTrailer) := by
  have hR := @tallies_chains env.role s head
  refine .bind hR (tracks_of_leaves (decodeSection_leaves encoded)) fun r _ => ?_
  cases r with
  | decoded headers =>
    refine fieldSection_tracks env headers isTrailer fun hasks c => ?_
    exact .bind hR (emitHeaderEvents_tracks env hasks) fun _ _ => .ret hR true
  | blocked =>
    refine .get_bind ?_
    split
    · exact .throw hR _
    · exact .bind hR (registerBlocked_tracks env encoded isTrailer) fun _ _ => .ret hR false

end Sections

/-! ## Frames -/

/-- What one frame does to the record. -/
def TakesFrame (r : RequestStream) (res : Except Error (Option RawReceivedData)) (u : RequestStream) :
    Prop :=
  match res with
  | .ok (some (.data data)) =>
    SameMessage
      { r with recvBody := if r.isWtConnect then r.recvBody else r.recvBody ++ data } u ∧
      u.state = r.state
  | .ok (some .streamEnd) => SameMessage r u
  | _ => SameMessage r u ∧ u.state = r.state

section TakesFrame

variable {r t u : RequestStream} {res : Except Error (Option RawReceivedData)}

theorem TakesFrame.of_same (hsame : SameMessage r t ∧ t.state = r.state) (h : TakesFrame t res u) :
    TakesFrame r res u := by
  obtain ⟨⟨hheaders, hbody, hconnect, hhead⟩, hstate⟩ := hsame
  unfold TakesFrame at *
  split at h
  · obtain ⟨hmessage, hu⟩ := h
    refine ⟨⟨hmessage.recvHeaders.trans hheaders, ?_, hmessage.isWtConnect.trans hconnect,
      hmessage.isHeadRequest.trans hhead⟩, hu.trans hstate⟩
    rw [hmessage.recvBody]
    simp only [hbody, hconnect]
  · exact SameMessage.trans ⟨hheaders, hbody, hconnect, hhead⟩ h
  · exact ⟨SameMessage.trans ⟨hheaders, hbody, hconnect, hhead⟩ h.1, h.2.trans hstate⟩

theorem nextFrame_same (r : RequestStream) :
    SameMessage r r.nextFrame.2 ∧ r.nextFrame.2.state = r.state := by
  unfold RequestStream.nextFrame
  dsimp only
  repeat' split
  all_goals exact ⟨⟨rfl, rfl, rfl, rfl⟩, rfl⟩

theorem processEmpty_takesFrame (r : RequestStream) : TakesFrame r r.processEmpty.1 r.processEmpty.2 := by
  unfold RequestStream.processEmpty
  repeat' split
  · exact ⟨.refl r, rfl⟩
  · exact ⟨rfl, rfl, rfl, rfl⟩
  · exact ⟨.refl r, rfl⟩

theorem processHeaders_takesFrame (r : RequestStream) (encoded : Bytes) :
    TakesFrame r (r.processHeaders encoded).1 (r.processHeaders encoded).2 := by
  unfold RequestStream.processHeaders
  repeat' split
  all_goals exact ⟨⟨rfl, rfl, rfl, rfl⟩, rfl⟩

theorem processData_takesFrame (r : RequestStream) (data : Bytes) :
    TakesFrame r (r.processData data).1 (r.processData data).2 := by
  unfold RequestStream.processData
  split
  · exact ⟨.refl r, rfl⟩
  split
  · rename_i hconnect
    exact ⟨⟨rfl, (if_pos hconnect).symm, rfl, rfl⟩, rfl⟩
  split
  · exact ⟨.refl r, rfl⟩
  · rename_i hconnect _
    exact ⟨⟨rfl, (if_neg hconnect).symm, rfl, rfl⟩, rfl⟩

theorem processRawLoop_takesFrame (fuel : Nat) (r : RequestStream) :
    TakesFrame r (RequestStream.processRawLoop fuel r).1 (RequestStream.processRawLoop fuel r).2 := by
  induction fuel generalizing r with
  | zero => exact ⟨.refl r, rfl⟩
  | succ fuel ih =>
    have hnext := nextFrame_same r
    unfold RequestStream.processRawLoop
    split
    · exact processEmpty_takesFrame r
    · split <;> (rename_i heq; rw [heq] at hnext)
      · exact hnext
      · exact hnext
      · exact .of_same hnext (processHeaders_takesFrame _ _)
      · exact .of_same hnext (processData_takesFrame _ _)
      · exact .of_same hnext (ih _)
      · exact hnext

theorem processRaw_takesFrame (r : RequestStream) : TakesFrame r r.processRaw.1 r.processRaw.2 :=
  processRawLoop_takesFrame _ r

end TakesFrame

section Frames

variable (env : Env) {s : Nat} {head : Bool} {c : Core}

/-- Data of an ordinary stream goes to the application. -/
theorem processData_alone (hwaiting : c.wt.deferredWtConnects.contains s = false)
    (halone : Alone s c) (bodyLen : Nat) (data : Bytes) :
    processData env s bodyLen data c =
      ⟨.ok (), c, [.dataReceived s data, .event (.data s data)]⟩ := by
  have hno : handleWtDataFrame env c.peerSettings bodyLen s data c.wt =
      ⟨.ok false, c.wt, []⟩ := by
    unfold handleWtDataFrame
    rw [get_bind, hwaiting, if_neg Bool.false_ne_true, halone.lookup]
    dsimp only
    rw [halone.closed, if_neg Bool.false_ne_true]
    rfl
  have hwt : onWt (handleWtDataFrame env c.peerSettings bodyLen s data) c =
      ⟨.ok false, c, []⟩ := by
    rw [onWt, zoom_run, hno]
  unfold processData
  rw [bind_run, emit_run]
  dsimp only
  rw [get_bind, bind_ok _ _ _ hwt]
  rfl

/-- The end of an ordinary stream is told when its length is right, and an error otherwise. -/
theorem processStreamEnd_alone (hwaiting : c.wt.deferredWtConnects.contains s = false)
    (halone : Alone s c) (stream : RequestStream) :
    processStreamEnd env s stream c =
      match checkBody env stream stream.recvHeaders with
      | .ok () => ⟨.ok (), c, [.event (.streamEnd s)]⟩
      | .error e => ⟨.error e, c, []⟩ := by
  have hno : handleWtStreamEnd env s c.wt = ⟨.ok (), c.wt, []⟩ := by
    unfold handleWtStreamEnd
    rw [get_bind, hwaiting, if_neg Bool.false_ne_true, halone.lookup]
    rfl
  have hwt : onWt (handleWtStreamEnd env s) c = ⟨.ok (), c, []⟩ := by
    rw [onWt, zoom_run, hno]
  unfold processStreamEnd
  cases checkBody env stream stream.recvHeaders with
  | error e => rw [ofExcept_error, throw_bind]
  | ok u =>
    rw [ofExcept_ok, ret_bind, bind_ok _ _ _ hwt, get_bind, halone.closed,
      if_neg Bool.false_ne_true]
    rfl

/-- The check of the body, read off what was told. -/
theorem checkBody_intact {t : Told} {stream : RequestStream} (hagrees : t.Agrees head stream)
    (h : checkBody env stream stream.recvHeaders = .ok ()) : Intact env.role head t := by
  obtain ⟨hsingle, hright⟩ := validateContentLength_ok.mp h
  rw [← lengths_told, hagrees.block] at hsingle hright
  refine ⟨hsingle, fun v hv => ?_⟩
  obtain ⟨n, hn, hlen⟩ := hright v hv
  refine ⟨n, hn, fun hbody => (hlen ?_).trans hagrees.body⟩
  rw [isBodiless, ← hagrees.block, isNoBodyStatus_told] at hbody
  cases hhead : stream.isHeadRequest with
  | true =>
    rw [hagrees.isHeadRequest hhead] at hbody
    simpa using hbody
  | false => 
    revert hbody
    cases head <;> simp +contextual

theorem lookup_putStream_self (stream : RequestStream) :
    (putStream s stream c).streams.lookup s = some stream := IdMap.lookup_insert_self _ _ _

/-- A frame that is told of later. -/
theorem putStream_tracks {stream u : RequestStream} (hs : c.streams.lookup s = some stream)
    (hsame : SameMessage stream u ∧ u.state = stream.state) :
    Tallies env.role s head c [] none (putStream s u c) := by
  refine tallies_touch (f := fun _ => u) rfl ?_ fun r hr => ?_
  · rw [hs]
    exact lookup_putStream_self u
  · obtain rfl : stream = r := Option.some.inj (hs.symm.trans hr)
    exact hsame

/-- Data is added to the body when it is told. -/
theorem data_tracks {stream u : RequestStream} {data : Bytes} (hs : c.streams.lookup s = some stream)
    (htakes : TakesFrame stream (.ok (some (.data data))) u) :
    Tracks (Tallies env.role s head) c
      (modify (putStream s u) >>= fun _ => processData env s u.recvBody.length data) := by
  obtain ⟨⟨hheaders, hbody, hconnect, hhead⟩, hstate⟩ := htakes
  refine tracks_of_holds fun t hc halone => ?_
  have hrun := @processData_alone env s (putStream s u c) hc.waiting ⟨halone.sessions, halone.closed⟩
    u.recvBody.length data
  unfold Tracks
  rw [modify_bind, hrun]
  intro _ t hc halone
  have hbody' : ∀ r, c.streams.lookup s = some r → t.Agrees head r →
      ({ t with body := t.body + data.length } : Told).Agrees head u ∧ u.state = r.state := by
    intro r hr hagrees
    obtain rfl : stream = r := Option.some.inj (hs.symm.trans hr)
    refine ⟨⟨hheaders ▸ hagrees.block, ?_, hconnect.trans hagrees.isWtConnect,
      fun h => hagrees.isHeadRequest (hhead ▸ h)⟩, hstate⟩
    rw [hbody, hagrees.isWtConnect, if_neg Bool.false_ne_true, List.length_append, hagrees.body]
  refine tallies_told (f := fun _ => u) hc halone rfl ?_ ?_ ?_ hbody'
  · rw [hs]
    exact lookup_putStream_self u
  · simp [Told.hear]
  · rintro w hw rfl
    simp at hw

/-- The end of an ordinary stream is told of an intact message only. -/
theorem streamEnd_tracks {stream u : RequestStream} (hs : c.streams.lookup s = some stream)
    (hsame : SameMessage stream u) :
    Tracks (Tallies env.role s head) c
      (modify (putStream s u) >>= fun _ => processStreamEnd env s u) := by
  refine tracks_of_holds fun t hc halone => ?_
  have hrun := @processStreamEnd_alone env s (putStream s u c) hc.waiting
    ⟨halone.sessions, halone.closed⟩ u
  have hholds : ∀ t, Holds s head t c → Holds s head t (putStream s u c) := by
    intro t hc
    refine ⟨hc.waiting, fun r hr => ?_⟩
    obtain rfl : u = r := Option.some.inj ((lookup_putStream_self u).symm.trans hr)
    exact (hc.agrees stream hs).same hsame
  unfold Tracks
  rw [modify_bind, hrun]
  intro _ t hc halone
  cases hcheck : checkBody env u u.recvHeaders with
  | error e =>
    refine ⟨⟨hholds t hc, trivial, fun _ => .inr ?_⟩, halone.sessions, halone.closed⟩
    exact congrArg some (validateContentLength_error hcheck)
  | ok =>
    refine ⟨⟨hholds t hc, ⟨fun _ => ?_, trivial⟩, fun _ => .inl (List.mem_singleton.mpr rfl)⟩,
      halone.sessions, halone.closed⟩
    exact checkBody_intact env ((hc.agrees stream hs).same hsame) hcheck

theorem processStreamFrame_tracks :
    Tracks (Tallies env.role s head) c (processStreamFrame env s) := by
  have hR := @tallies_chains env.role s head
  refine .get_bind ?_
  split
  · exact .throw hR _
  rename_i stream hs
  have htakes := processRaw_takesFrame stream
  have hput := @putStream_tracks env s head c stream stream.processRaw.2 hs
  dsimp only
  cases hres : stream.processRaw.1 with
  | error e =>
    rw [hres] at htakes
    exact .modify_bind hR (hput htakes) (.throw hR e)
  | ok r =>
    rw [hres] at htakes
    cases r with
    | none => exact .modify_bind hR (hput htakes) (.ret hR false)
    | some r =>
      cases r with
      | headers encoded => exact .modify_bind hR (hput htakes) (processSection_tracks env encoded false)
      | trailers encoded => exact .modify_bind hR (hput htakes) (processSection_tracks env encoded true)
      | data data =>
        change Tracks _ c (modify (putStream s stream.processRaw.2) >>= fun _ =>
          processData env s stream.processRaw.2.recvBody.length data >>= fun _ => ret true)
        rw [← bind_assoc]
        exact .bind hR (data_tracks env hs htakes) fun _ _ => .ret hR true
      | streamEnd =>
        change Tracks _ c (modify (putStream s stream.processRaw.2) >>= fun _ =>
          processStreamEnd env s stream.processRaw.2 >>= fun _ => ret true)
        rw [← bind_assoc]
        exact .bind hR (streamEnd_tracks env hs htakes) fun _ _ => .ret hR true

/-- A stream leaves the table when it is over. -/
theorem removeStreamIfDone_alone (halone : Alone s c) :
    removeStreamIfDone s c = c ∨ isOver (c.streams.lookup s) = true ∧
      removeStreamIfDone s c = { c with streams := c.streams.erase s } := by
  unfold removeStreamIfDone
  rw [halone.closed, Bool.or_false]
  split
  · rename_i hdone
    obtain ⟨r, hr, hdone⟩ := (Option.any_eq_true _ _).mp hdone
    refine .inr ⟨?_, rfl⟩
    rw [hr, isOver, Option.any_some]
    simp only [isStreamDone, Bool.or_eq_true, Bool.and_eq_true, decide_eq_true_eq] at hdone ⊢
    obtain hreset | ⟨hclosed, -⟩ := hdone
    · exact .inr hreset
    · exact .inl (.inr hclosed)
  · exact .inl rfl

theorem removeStreamIfDone_tracks :
    Tracks (Tallies env.role s head) c (modify (removeStreamIfDone s) : CoreProc Unit) := by
  refine .modify fun _ t hc halone => ?_
  obtain heq | ⟨hover, heq⟩ := removeStreamIfDone_alone halone
  · rw [heq]
    exact (@tallies_chains env.role s head).refl c none (fun _ hw => absurd hw List.not_mem_nil) t hc
      halone
  · rw [heq]
    have hgone : AList.lookup s (c.streams.erase s) = none := IdMap.lookup_erase_self _ _
    refine ⟨⟨⟨hc.waiting, fun r hr => ?_⟩, trivial, fun hend => ?_⟩, halone.sessions, halone.closed⟩
    · cases hgone.symm.trans hr
    · rw [cameToEnd, hover] at hend
      cases hend

theorem processStreamFrames_tracks :
    Tracks (Tallies env.role s head) c (processStreamFrames env s) := by
  have hR := @tallies_chains env.role s head
  refine .get_bind (.bind hR ?_ fun _ _ => removeStreamIfDone_tracks env)
  exact .loop hR (fun c => processStreamFrame_tracks env) _

/-- A section that waited, and the frames behind it. -/
theorem retryStream_tracks : Tracks (Tallies env.role s head) c (retryStream env s) := by
  have hR := @tallies_chains env.role s head
  have htouch : ∀ b n w c, Tracks (Tallies env.role s head) c
      (modify (modifyStream s fun r => r.setQpackBlocked b n w) : CoreProc Unit) :=
    fun b n w c => tracks_touch env fun r => ⟨⟨rfl, rfl, rfl, rfl⟩, rfl⟩
  refine .get_bind ?_
  split
  · exact .ret hR ()
  rename_i encoded isTrailer _
  refine .bind hR (tracks_touch env fun r => ⟨⟨rfl, rfl, rfl, rfl⟩, rfl⟩) fun _ _ => ?_
  refine .bind hR (tracks_of_leaves (decodeSection_leaves encoded)) fun r _ => ?_
  cases r with
  | blocked => exact registerBlocked_tracks env encoded isTrailer
  | decoded headers =>
    refine fieldSection_tracks env headers isTrailer fun hasks c => ?_
    refine .bind hR (htouch false 0 none c) fun _ _ => .get_bind (.ofExcept_bind hR fun _ _ => ?_)
    exact .bind hR (emitHeaderEvents_tracks env hasks) fun _ _ => processStreamFrames_tracks env

end Frames

/-! ## Bytes of the stream -/

/-- As `Tallies`, for a stream that is used once: nothing was told before its record is made. -/
def Opening (role : Role) (s : Nat) (head : Bool) (q : Core → Prop) : Track Error Obs Core :=
  fun c o e d => (∀ w ∈ o, asksForSession role s w = false) → ∀ t, Holds s head t c → Alone s c →
    (c.streams.lookup s = none → t = .new) → Tallied role s head t c o e d ∧ q d

/-- What is left of `Opening` where streams of WebTransport may come in. -/
abbrev OpeningAny (role : Role) (s : Nat) (head : Bool) : Track Error Obs Core :=
  Opening role s head fun _ => True

section Bytes

variable (env : Env) {s : Nat} {head : Bool} {c : Core}

theorem opens_of_tallies {role : Role} {α : Type} {x : CoreProc α}
    (h : Tracks (Tallies role s head) c x) : Tracks (Opening role s head (Alone s)) c x :=
  fun hasks t hc halone _ => h hasks t hc halone

theorem opens_of_mute {role : Role} {α : Type} {x : CoreProc α} (h : Keeps (Mute s) x) :
    Tracks (OpeningAny role s head) c x := fun _ _ hc _ _ => ⟨(h c).tallied hc, trivial⟩

theorem opens_of_alone {role : Role} {q : Core → Prop} {α : Type} {x : CoreProc α}
    (h : Alone s c → Tracks (Opening role s head q) c x) : Tracks (Opening role s head q) c x :=
  fun hasks t hc halone => h halone hasks t hc halone

theorem opensAny {role : Role} {q : Core → Prop} {α : Type} {x : CoreProc α}
    (h : Tracks (Opening role s head q) c x) : Tracks (OpeningAny role s head) c x :=
  fun hasks t hc halone hopen => ⟨(h hasks t hc halone hopen).1, trivial⟩

/-- The account of the record that was made. -/
theorem Tallied.opened {role : Role} {t : Told} {d u : Core} {o : List Obs} {e : Option Error}
    (h : Tallied role s head t d o e u) (hc : c.streams.lookup s = none)
    (hd : isOver (d.streams.lookup s) = false) : Tallied role s head t c o e u := by
  refine ⟨h.holds, h.ends, fun hend => h.settles ?_⟩
  rw [hc] at hend
  unfold cameToEnd at *
  rw [hd]
  have hover : isOver (u.streams.lookup s) = true := by simpa [isOver] using hend
  rw [hover]
  rfl

theorem ensureStream_opens {α : Type} {k : Unit → CoreProc α}
    (hk : ∀ c, Tracks (Tallies env.role s head) c (k ())) :
    Tracks (Opening env.role s head (Alone s)) c (modify (ensureStream env s) >>= k) := by
  intro hasks t hc halone hopen
  have hrest := hk (ensureStream env s c)
  cases hs : c.streams.lookup s with
  | some r =>
    have hsame : ensureStream env s c = c := by
      unfold ensureStream
      rw [if_pos ((IdMap.contains_iff _ _).mpr ⟨r, hs⟩)]
    rw [modify_bind] at hasks ⊢
    rw [hsame] at hrest hasks ⊢
    exact hrest hasks t hc halone
  | none =>
    obtain rfl := hopen hs
    have hmade : ∃ n, ensureStream env s c =
        putStream s { RequestStream.new s env.role with maxReceivedBodySize := n } c := by
      refine ⟨_, if_neg fun hin => ?_⟩
      obtain ⟨r, hr⟩ := (IdMap.contains_iff _ _).mp hin
      cases hs.symm.trans hr
    obtain ⟨n, hmade⟩ := hmade
    rw [modify_bind] at hasks ⊢
    rw [hmade] at hrest hasks ⊢
    refine (hrest hasks .new ⟨hc.waiting, fun r hr => ?_⟩
      ⟨halone.sessions, halone.closed⟩).imp_left fun h => h.opened hs ?_
    · obtain rfl := Option.some.inj ((lookup_putStream_self _).symm.trans hr)
      exact ⟨rfl, rfl, rfl, nofun⟩
    · rw [lookup_putStream_self]
      rfl

theorem handleBidirectionalStream_opens (data : Bytes) (fin : Bool) :
    Tracks (Opening env.role s head (Alone s)) c (handleBidirectionalStream env s data fin) := by
  have hR := @tallies_chains env.role s head
  refine opens_of_alone fun halone => .get_bind ?_
  rw [halone.closed, if_neg Bool.false_ne_true]
  split
  · exact opens_of_tallies (.throw hR _)
  · refine ensureStream_opens env fun c => ?_
    refine .bind hR (tracks_touch env fun r => ⟨⟨rfl, rfl, rfl, rfl⟩, rfl⟩) fun _ _ => .get_bind ?_
    split
    · exact .ret hR ()
    · exact processStreamFrames_tracks env

theorem dropDispatch_opens {α : Type} {k : Unit → CoreProc α}
    (hk : ∀ c, Tracks (OpeningAny env.role s head) c (k ())) :
    Tracks (OpeningAny env.role s head) c (onWt (modify (dropDispatch s)) >>= k) := by
  intro hasks t hc halone hopen
  obtain ⟨h, -⟩ := hk { c with wt := dropDispatch s c.wt } hasks t ⟨hc.waiting, hc.agrees⟩
    ⟨halone.sessions, halone.closed⟩ hopen
  exact ⟨⟨h.holds, h.ends, h.settles⟩, trivial⟩

theorem dispatchClientBidiStream_opens (data : Bytes) (fin : Bool) :
    Tracks (OpeningAny env.role s head) c (dispatchClientBidiStream env s data fin) := by
  have hrequest := fun buf c => opensAny (@handleBidirectionalStream_opens env s head c buf fin)
  have hset : ∀ buf, Tracks (OpeningAny env.role s head) c (onWt (modify (setDispatch s buf))) :=
    fun buf => opens_of_mute (setDispatch_mute s buf)
  have hthrow : ∀ e c, Tracks (OpeningAny env.role s head) c (throw e : CoreProc Unit) := fun e c =>
    opensAny (opens_of_tallies (.throw tallies_chains e))
  refine .get_bind ?_
  dsimp only
  split
  · split
    · exact dropDispatch_opens env (hrequest [])
    · exact hset []
  split
  · exact dropDispatch_opens env (hrequest _)
  split
  · refine dropDispatch_opens env fun c => ?_
    split
    · exact opens_of_mute (dispatchWtStream_mute env s _ fin)
    · exact hrequest _ c
  · split
    · exact dropDispatch_opens env (hthrow _)
    · exact hset _

/-- A request stream, and its removal when it is over. -/
theorem attempt_opens (data : Bytes) (fin : Bool) :
    Tracks (Opening env.role s head (Alone s)) c
      (attempt (handleBidirectionalStream env s data fin) >>= fun r =>
        modify (removeStreamIfDone s) >>= fun _ => ofExcept r) := by
  have hremove : ∀ d, Tallies env.role s head d [] none (removeStreamIfDone s d) := fun d =>
    @removeStreamIfDone_tracks env s head d
  refine .attempt (fun h h' hasks t hc halone hopen => ?_)
    (handleBidirectionalStream_opens env data fin) hremove
  obtain ⟨hfirst, hd⟩ := h hasks t hc halone hopen
  obtain ⟨hsecond, hu⟩ := h' (fun _ hw => absurd hw List.not_mem_nil) _ hfirst.holds hd
  refine ⟨?_, hu⟩
  have happend := hfirst.append hsecond (fun h => h) nofun
  rwa [List.append_nil] at happend

theorem feedStreamInner_opens (data : Bytes) (fin : Bool) :
    Tracks (OpeningAny env.role s head) c (feedStreamInner env s data fin) := by
  have huni := @keeps_mute_of_side env s _ _ (handleUnidirectionalStream_side env s data fin)
  have hdispatch := @dispatchClientBidiStream_opens env s head c data fin
  have hwt := @handleWtBidiStream_mute env s c.lastSentGoawayId s data fin
  have hbuffer := @bufferPreNegotiationWtBidi_mute s s data fin
  refine .get_bind ?_
  dsimp only
  split
  · exact opens_of_mute huni
  split
  · split
    · exact opens_of_mute hwt
    · exact opensAny (opens_of_tallies (.throw tallies_chains _))
  split
  · exact opens_of_mute hwt
  split
  · exact hdispatch
  split
  · exact opensAny (opens_of_tallies (.ret tallies_chains _))
  split
  · exact opens_of_mute hbuffer
  split
  · exact hdispatch
  · exact opensAny (attempt_opens env data fin)

end Bytes

/-! ## Sections that waited -/

/-- As `Mute`, unless a section of the stream waits. -/
def Idle (s : Nat) : Flow Obs Core := fun c o b d =>
  (c.streams.lookup s).bind RequestStream.qpackBlockedHeader = none → Mute s c o b d

theorem idle_composes (s : Nat) : Composes (Idle s) where
  refl c b _ := (mute_composes s).refl c b
  trans h h' hidle hwaiting := by
    obtain ⟨hd, ho, hs⟩ := h hidle hwaiting
    obtain ⟨he, ho', hs'⟩ := h' (by rw [hs]; exact hidle) hd
    exact ⟨he, forall_mem_append s ho ho', hs'.trans hs⟩

section Waiting

variable (env : Env) {s : Nat} {head : Bool} {c : Core}

theorem setBlocked_leaves (f : Core → SortedSet) :
    Keeps (Leaves s) (modify fun c => { c with blockedByRicnt := f c } : CoreProc Unit) :=
  leaves_modify (fun _ => rfl) fun _ => rfl

theorem retryBlockedStreams_idle : Keeps (Idle s) (retryBlockedStreams env) := by
  have hR := idle_composes s
  have hone : ∀ x, Keeps (Idle s) (retryStream env x) := by
    intro x c hidle
    by_cases hx : x = s
    · subst hx
      have hrun : retryStream env x c = ⟨.ok (), c, []⟩ := by
        unfold retryStream
        rw [get_bind, hidle]
        rfl
      rw [hrun]
      exact (mute_composes x).refl c true
    · exact (retryStream_leaves env hx c).1
  have hblocked : ∀ f : Core → SortedSet, Keeps (Idle s)
      (modify fun c => { c with blockedByRicnt := f c } : CoreProc Unit) := fun f c _ =>
    (setBlocked_leaves f c).1
  exact .bind hR (.get hR) fun c => .bind hR (hblocked _) fun _ => .each hR _ fun e _ => hone e.2

theorem retryBlockedStreams_tracks :
    Tracks (Tallies env.role s head) c (retryBlockedStreams env) := by
  have hR := @tallies_chains env.role s head
  refine .get_bind (.bind hR (tracks_of_leaves (setBlocked_leaves _)) fun _ _ => ?_)
  refine .each hR _ fun e _ c => ?_
  by_cases hx : e.2 = s
  · rw [hx]
    exact retryStream_tracks env
  · exact tracks_of_leaves (retryStream_leaves env hx)

end Waiting

/-! ## Requests -/

section Request

variable (env : Env) {c : Core} {headers : List Header}

theorem sendEncodedHeaders_state {r u : RequestStream} {encoded : Bytes} {fin isInterim : Bool}
    (hr : r.state = .open) (h : r.sendEncodedHeaders encoded fin isInterim = .ok u) :
    isOver (some u) = false := by
  cases hcheck : r.checkSendHeaders fin isInterim with
  | error e => simp [RequestStream.sendEncodedHeaders, hcheck, bind, Except.bind] at h
  | ok =>
    cases hframe : encodeFrame (.headers encoded) with
    | none => simp [RequestStream.sendEncodedHeaders, hcheck, hframe, bind, Except.bind] at h
    | some frame =>
      simp only [RequestStream.sendEncodedHeaders, hcheck, hframe, bind, Except.bind,
        Except.ok.injEq] at h
      subst h
      cases fin <;> simp [isOver, RequestStream.finish, hr, StreamState.closeLocal]

/-- A request that fails touches no stream; one that is sent makes the record of its stream. -/
theorem sendRequestInner_cases (env : Env) (c : Core) (headers : List Header) (fin : Bool) :
    (∃ e q n, sendRequestInner env headers fin c =
      ⟨.error e, { c with qpack := q, nextStreamId := n }, []⟩) ∨
    ∃ q n w stream, sendRequestInner env headers fin c = ⟨.ok c.nextStreamId,
        { c with
          qpack := q
          nextStreamId := n
          streams := c.streams.insert c.nextStreamId stream
          wt := w }, []⟩ ∧
      w.deferredWtConnects = c.wt.deferredWtConnects ∧
      SameMessage (requestStream env c c.nextStreamId headers) stream ∧
      isOver (some stream) = false := by
  have hencode : ∃ v q, encodeQpackHeaders headers c = ⟨v, { c with qpack := q }, []⟩ := by
    refine ⟨(encodeQpackHeaders headers c).val, (encodeQpackHeaders headers c).st.qpack, ?_⟩
    unfold encodeQpackHeaders
    rw [get_bind, modify_bind, ofExcept_run]
    rfl
  obtain ⟨v, q, hencode⟩ := hencode
  unfold sendRequestInner
  rw [get_bind]
  cases hcheck : checkRequest env c headers with
  | error e => exact .inl ⟨e, c.qpack, c.nextStreamId, rfl⟩
  | ok =>
    rw [ofExcept_ok, ret_bind]
    cases v with
    | error e =>
      rw [bind_error _ _ _ hencode]
      exact .inl ⟨e, q, c.nextStreamId, rfl⟩
    | ok encoded =>
      rw [bind_ok _ _ _ hencode, modify_bind]
      dsimp only
      split
      · exact .inl ⟨_, q, c.nextStreamId + 4, rfl⟩
      cases hsend : (requestStream env c c.nextStreamId headers).sendEncodedHeaders encoded fin
        false with
      | error e => exact .inl ⟨e, q, c.nextStreamId + 4, rfl⟩
      | ok stream =>
        rw [ofExcept_ok, ret_bind, modify_bind, modify_bind]
        refine .inr ?_
        split
        · exact ⟨_, _, _, stream, rfl, rfl, sendEncodedHeaders_same hsend,
            sendEncodedHeaders_state rfl hsend⟩
        · exact ⟨_, _, _, stream, rfl, rfl, sendEncodedHeaders_same hsend,
            sendEncodedHeaders_state rfl hsend⟩

end Request

/-! ## Steps -/

/-- What a relation that sees the error says about the core, read off a step. -/
def Tracked (R : Track Error Obs Core) (c : Connection) (p : Step) : Prop :=
  R c.core p.obs (failure p.result) p.conn.core

section Step

variable {R : Track Error Obs Core} {c : Connection}

theorem tracks_unit {c : Core} {x : CoreProc Unit} (h : Tracks R c x) : Tracks R c (unit x) := by
  unfold Tracks unit at *
  rw [bind_run]
  rcases hx : x c with ⟨v, d, o⟩
  rw [hx] at h
  cases v with
  | error e => exact h
  | ok u =>
    simp only [ret_run, List.append_nil]
    exact h

theorem guarded_tracked {x : CoreProc Response} (hrefl : ∀ e, R c.core [] e c.core)
    (h : Tracks R c.core x) : Tracked R c (c.guarded x) := by
  unfold guarded
  split
  · exact hrefl _
  · exact h

theorem remember_tracked {p : Step} (h : Tracked R c p) : Tracked R c (remember p) := by
  unfold remember
  split <;> exact h

theorem popEvent_tracked {p : Step} (h : Tracked R c p) : Tracked R c (popEvent p) := by
  rcases p with ⟨r, d, o⟩
  cases r <;> exact h

theorem takeEvents_tracked {p : Step} (h : Tracked R c p) : Tracked R c (takeEvents p) := by
  rcases p with ⟨r, d, o⟩
  cases r <;> exact h

/-- A call stays inside a relation that its body tracks. -/
theorem step_tracked {env : Env} {call : Call} (hrefl : ∀ e, R c.core [] e c.core)
    (h : Tracks R c.core (body env call)) : Tracked R c (c.step env call) := by
  cases call with
  | feedStream | streamReset | stopSending | sendBody | sendGoaway =>
    exact remember_tracked (guarded_tracked hrefl h)
  | pollEvent => exact remember_tracked (popEvent_tracked (guarded_tracked hrefl h))
  | drainEvents => exact remember_tracked (takeEvents_tracked (guarded_tracked hrefl h))
  | feedDatagram | sendRequest | sendResponse => exact guarded_tracked hrefl h
  | _ => exact h

end Step

/-! ## Runs -/

/-- What was told of a stream so far, and which request it carries. -/
structure Account where
  told : Told
  /-- the client sent HEAD on it -/
  head : Bool
  /-- it asked for a session -/
  wtConnect : Bool

def Account.new : Account := ⟨.new, false, false⟩

/-- The request that a step sends on stream `s`. -/
def requested (s : Nat) (call : Call) (p : Step) : Option (List Header) :=
  match call, p.result with
  | .sendRequest headers _, .ok (.streamId x) => if x = s then some headers else none
  | _, _ => none

def Account.note (role : Role) (s : Nat) (call : Call) (p : Step) (a : Account) : Account where
  told := p.obs.foldl (Told.hear s) a.told
  head := a.head || (requested s call p).any fun headers => hasHeader headers ":method" "HEAD"
  wtConnect := a.wtConnect || (requested s call p).any isWebtransportConnect ||
    p.obs.any (asksForSession role s)

/-- One step, with the account of stream `s`. -/
def observe (cfg : Config) (s : Nat) (x : Connection × Account) (i : Input) :
    Connection × Account :=
  ((x.1.feed cfg i).conn, x.2.note cfg.role s i.call (x.1.feed cfg i))

/-- Are bytes or a section of stream `s` read? -/
def handsIn (s : Nat) (c : Core) : Call → Bool
  | .feedStream x _ _ => x = s
  | .pollEvent | .drainEvents =>
    ((c.streams.lookup s).bind RequestStream.qpackBlockedHeader).isSome
  | _ => false

/-- Is a record of stream `s` due? -/
def opens (s : Nat) (c : Core) : Call → Bool
  | .feedStream x _ _ => x = s && !c.streams.contains s
  | .sendRequest _ _ => c.nextStreamId = s
  | _ => false

instance (s : Nat) (c : Core) : Decidable (Alone s c) := decidable_of_iff _ (alone_iff s c).symm

/-- What is read of the stream meets no session of its id, and its record is made once. -/
def Undisturbed (s : Nat) (x : Connection × Account) (i : Input) : Prop :=
  (handsIn s x.1.core i.call = true → Alone s x.1.core) ∧
    (opens s x.1.core i.call = true → x.2.told = .new)

instance (s : Nat) (x : Connection × Account) (i : Input) : Decidable (Undisturbed s x i) :=
  inferInstanceAs (Decidable (_ ∧ _))

/-- The end of the stream is told of an intact message only, and a message that ends without it ends
with an error. -/
structure Integrity (cfg : Config) (s : Nat) (x : Connection × Account) (i : Input) : Prop where
  ends : ∀ o o', (x.1.feed cfg i).obs = o ++ .event (.streamEnd s) :: o' →
    Intact cfg.role x.2.head (o.foldl (Told.hear s) x.2.told)
  settles : handsIn s x.1.core i.call = true →
    cameToEnd (x.1.core.streams.lookup s) ((x.1.feed cfg i).conn.core.streams.lookup s) = true →
    .event (.streamEnd s) ∈ (x.1.feed cfg i).obs ∨ (x.1.feed cfg i).result = .error messageError

/-- As `Integrity`, unless the stream asks for a session. -/
def IntegrityHere (cfg : Config) (s : Nat) (x : Connection × Account) (i : Input) : Prop :=
  (observe cfg s x i).2.wtConnect = false → Integrity cfg s x i

/-- The account is that of the connection. -/
def Kept (s : Nat) (x : Connection × Account) : Prop :=
  x.2.wtConnect = false → Holds s x.2.head x.2.told x.1.core

section Run

variable {cfg : Config} {s : Nat} {x : Connection × Account} {i : Input}

theorem Holds.mono {head head' : Bool} {t : Told} {c : Core} (h : Holds s head t c)
    (himp : head = true → head' = true) : Holds s head' t c :=
  ⟨h.waiting, fun r hr => ⟨(h.agrees r hr).block, (h.agrees r hr).body, (h.agrees r hr).isWtConnect,
    fun hhead => himp ((h.agrees r hr).isHeadRequest hhead)⟩⟩

/-- What a step does to the account, from what it does to the core. -/
theorem integrity_of_tallied
    (h : Tracked (Tallied cfg.role s x.2.head x.2.told) x.1 (x.1.feed cfg i)) :
    Integrity cfg s x i ∧ Holds s (observe cfg s x i).2.head (observe cfg s x i).2.told
      (observe cfg s x i).1.core := by
  refine ⟨⟨fun o o' ho => ?_, fun _ hend => ?_⟩, h.holds.mono fun hhead => ?_⟩
  · exact Runs.Every.iff_splits.mp h.ends o _ o' ho rfl
  · refine (h.settles hend).imp_right fun he => ?_
    cases hr : (x.1.feed cfg i).result with
    | ok r =>
      rw [hr] at he
      cases he
    | error e =>
      rw [hr] at he
      exact congrArg Except.error (Option.some.inj he)
  · exact Bool.or_eq_true_iff.mpr (.inl hhead)

/-- A call that reads no request stream. -/
theorem integrity_of_silent (h : (x.1.feed cfg i).Stays (Silent s) x.1)
    (hc : Holds s x.2.head x.2.told x.1.core) (hhands : handsIn s x.1.core i.call = false) :
    Integrity cfg s x i ∧ Holds s (observe cfg s x i).2.head (observe cfg s x i).2.told
      (observe cfg s x i).1.core := by
  obtain ⟨hwaiting, ho, hs⟩ := h hc.waiting
  have htold : (observe cfg s x i).2.told = x.2.told := hear_others ho x.2.told
  refine ⟨⟨fun o o' hsplit => ?_, fun hyes => ?_⟩, ⟨hwaiting, fun u hu => ?_⟩⟩
  · exact absurd rfl (ne_streamEnd_of_other (ho _ (by rw [hsplit]; simp)))
  · rw [hhands] at hyes
    cases hyes
  · obtain ⟨r, hr, hsame⟩ := hs u hu
    rw [htold]
    obtain ⟨hblock, hbody, hconnect, hhead⟩ := (hc.agrees r hr).same hsame
    exact ⟨hblock, hbody, hconnect, fun h => Bool.or_eq_true_iff.mpr (.inl (hhead h))⟩

theorem observed_parts (hno : (observe cfg s x i).2.wtConnect = false) :
    x.2.wtConnect = false ∧
      (requested s i.call (x.1.feed cfg i)).any isWebtransportConnect = false ∧
      ∀ w ∈ (x.1.feed cfg i).obs, asksForSession cfg.role s w = false := by
  have hparts : x.2.wtConnect = false ∧
      (requested s i.call (x.1.feed cfg i)).any isWebtransportConnect = false ∧
      (x.1.feed cfg i).obs.any (asksForSession cfg.role s) = false := by
    simpa only [observe, Account.note, Bool.or_eq_false_iff, and_assoc] using hno
  refine ⟨hparts.1, hparts.2.1, fun w hw => Bool.eq_false_iff.mpr fun hasks => ?_⟩
  exact Bool.false_ne_true (hparts.2.2.symm.trans (List.any_eq_true.mpr ⟨w, hw, hasks⟩))

/-- A request reports nothing. One that fails touches no stream, and one that is sent makes the
record of its stream. -/
theorem feed_sendRequest {headers : List Header} {fin : Bool} (cfg : Config) (c : Connection)
    (order : HashOrder) :
    let p := c.feed cfg ⟨order, .sendRequest headers fin⟩
    p.obs = [] ∧ p.conn.core.wt.deferredWtConnects = c.core.wt.deferredWtConnects ∧
      ((∃ e, p.result = .error e) ∧ p.conn.core.streams = c.core.streams ∨
        p.result = .ok (.streamId c.core.nextStreamId) ∧ ∃ stream,
          p.conn.core.streams = c.core.streams.insert c.core.nextStreamId stream ∧
          SameMessage (requestStream (cfg.env order) c.core c.core.nextStreamId headers) stream) := by
  dsimp only [feed, step, guarded]
  split
  · exact ⟨rfl, rfl, .inl ⟨⟨_, rfl⟩, rfl⟩⟩
  · obtain ⟨e, q, n, hrun⟩ | ⟨q, n, w, stream, hrun, hwaiting, hsame, -⟩ :=
      sendRequestInner_cases (cfg.env order) c.core headers fin
    · simp only [exec, body, bind_error _ _ _ hrun]
      exact ⟨trivial, trivial, .inl ⟨⟨e, rfl⟩, trivial⟩⟩
    · simp only [exec, body, bind_ok _ _ _ hrun, ret_run, hwaiting]
      exact ⟨rfl, trivial, .inr ⟨trivial, stream, rfl, hsame⟩⟩

theorem integrity_of_request {headers : List Header} {fin : Bool}
    (hi : i.call = .sendRequest headers fin) (hc : Holds s x.2.head x.2.told x.1.core)
    (hopen : x.1.core.nextStreamId = s → x.2.told = .new)
    (hno : (observe cfg s x i).2.wtConnect = false) :
    Integrity cfg s x i ∧ Holds s (observe cfg s x i).2.head (observe cfg s x i).2.told
      (observe cfg s x i).1.core := by
  obtain ⟨-, hconnect, -⟩ := observed_parts hno
  rcases i with ⟨order, call⟩
  obtain rfl : call = .sendRequest headers fin := hi
  obtain ⟨hobs, hwaiting, hcases⟩ := @feed_sendRequest headers fin cfg x.1 order
  have htold : (observe cfg s x ⟨order, .sendRequest headers fin⟩).2.told = x.2.told := by
    rw [observe, Account.note, hobs]
    rfl
  refine ⟨⟨fun o o' hsplit => ?_, nofun⟩, ⟨?_, fun u hu => ?_⟩⟩
  · rw [hobs] at hsplit
    simp at hsplit
  · rw [observe, hwaiting]
    exact hc.waiting
  · rw [htold]
    have hold : ∀ r, x.1.core.streams.lookup s = some r → x.2.told.Agrees
        (observe cfg s x ⟨order, .sendRequest headers fin⟩).2.head r := fun r hr =>
      (hc.mono fun hhead => Bool.or_eq_true_iff.mpr (.inl hhead)).agrees r hr
    obtain ⟨-, hstreams⟩ | ⟨hresult, stream, hstreams, hsame⟩ := hcases
    · rw [observe, hstreams] at hu
      exact hold u hu
    · rw [observe, hstreams, IdMap.lookup_insert_eq] at hu
      split at hu
      · rename_i hs
        obtain rfl := Option.some.inj hu
        rw [hopen hs.symm]
        have hrequest : requested s (.sendRequest headers fin)
            (x.1.feed cfg ⟨order, .sendRequest headers fin⟩) = some headers := by
          simp only [requested, hresult, hs, if_true]
        rw [hrequest, Option.any_some] at hconnect
        refine ⟨?_, ?_, hsame.isWtConnect.trans hconnect, fun hhead => ?_⟩
        · rw [hsame.recvHeaders]
          rfl
        · rw [hsame.recvBody]
          rfl
        · rw [hsame.isHeadRequest] at hhead
          rw [observe, Account.note, hrequest, Option.any_some]
          exact Bool.or_eq_true_iff.mpr (.inr hhead)
      · exact hold u hu

theorem handsIn_of_outward {c : Core} {call : Call} (h : isOutward call = true) :
    handsIn s c call = false := by
  cases call <;> first | rfl | cases h

/-- One step of a connection that keeps the account. -/
theorem integrity_step (hkept : Kept s x) (hund : Undisturbed s x i)
    (hno : (observe cfg s x i).2.wtConnect = false) :
    Integrity cfg s x i ∧ Holds s (observe cfg s x i).2.head (observe cfg s x i).2.told
      (observe cfg s x i).1.core := by
  obtain ⟨hordinary, -, hasks⟩ := observed_parts hno
  have hc := hkept hordinary
  obtain ⟨halone, hopen⟩ := hund
  rcases x with ⟨c, a⟩
  rcases i with ⟨order, call⟩
  have hrefl : ∀ e, Tallied cfg.role s a.head a.told c.core [] e c.core := fun e =>
    Mute.tallied ((mute_composes s).refl c.core true) hc
  have htracks : ∀ y, body (cfg.env order) call = unit y →
      ((∀ w ∈ (y c.core).out, asksForSession cfg.role s w = false) →
        Tallied cfg.role s a.head a.told c.core (y c.core).out (failure (y c.core).val)
          (y c.core).st) →
      Tracked (Tallied cfg.role s a.head a.told) c (c.feed cfg ⟨order, call⟩) := by
    intro y hbody hy
    let R : Track Error Obs Core := fun c o e d =>
      (∀ w ∈ o, asksForSession cfg.role s w = false) → Tallied cfg.role s a.head a.told c o e d
    have hstep : Tracked R c (c.step (cfg.env order) call) := by
      refine step_tracked (fun e _ => hrefl e) ?_
      rw [hbody]
      exact tracks_unit (R := R) hy
    exact hstep hasks
  have hretry : ((handsIn s c.core .pollEvent) = true → Alone s c.core) →
      body (cfg.env order) call = unit (retryBlockedStreams (cfg.env order)) →
      Tracked (Tallied cfg.role s a.head a.told) c (c.feed cfg ⟨order, call⟩) := by
    intro halone hbody
    refine htracks _ hbody fun hasks => ?_
    cases hwaits : handsIn s c.core .pollEvent with
    | true => exact (retryBlockedStreams_tracks (cfg.env order) hasks a.told hc (halone hwaits)).1
    | false =>
      have hnone := Option.isNone_iff_eq_none.mp (Option.isSome_eq_false_iff.mp hwaits)
      exact Mute.tallied (retryBlockedStreams_idle (cfg.env order) c.core hnone) hc
  by_cases hout : isOutward call = true
  · exact integrity_of_silent (step_stays (silent_composes s) (body_silent (cfg.env order) call hout
      c.core)) hc (handsIn_of_outward hout)
  cases call with
  | sendRequest headers fin =>
    exact integrity_of_request rfl hc (fun hs => hopen (decide_eq_true hs)) hno
  | feedStream y data fin =>
    refine integrity_of_tallied (htracks _ rfl fun hasks => ?_)
    by_cases hy : y = s
    · subst hy
      refine (feedStreamInner_opens (cfg.env order) data fin hasks a.told hc
        (halone (decide_eq_true rfl)) fun hnone => hopen ?_).1
      have habsent : IdMap.contains c.core.streams y = false := by
        rw [IdMap.contains, hnone]
        rfl
      simp [opens, habsent]
    · exact Mute.tallied (feedStreamInner_mute (cfg.env order) hy data fin c.core) hc
  | pollEvent => exact integrity_of_tallied (hretry halone rfl)
  | drainEvents => exact integrity_of_tallied (hretry halone rfl)
  | _ => exact absurd rfl hout

theorem kept_new {c : Connection} (hc : Connection.new cfg = .ok c) : Kept s (c, .new) := by
  intro _
  have hcore : c.core.streams = ∅ ∧ c.core.wt.deferredWtConnects = ∅ := by
    simp only [Connection.new, Core.new, bind, Except.bind, pure, Except.pure] at hc
    split at hc
    · cases hc
    · cases hc
      exact ⟨rfl, rfl⟩
  refine ⟨?_, fun r hr => ?_⟩
  · rw [hcore.2]
    exact IdMap.contains_empty s
  · rw [hcore.1, IdMap.lookup_empty] at hr
    cases hr

end Run

/-- In a run in which a stream is used once, and nothing of it is read while a session of its id
stands, a message that ends is as long as it says, or the peer is told of its error. -/
theorem content_length_integrity {cfg : Config} {c : Connection} (hnew : Connection.new cfg = .ok c)
    (s : Nat) {is : List Input} (h : Runs.Every (observe cfg s) (Undisturbed s) (c, .new) is) :
    Runs.Every (observe cfg s) (IntegrityHere cfg s) (c, .new) is := by
  refine Runs.Every.mono (I := Kept s) (fun x i hkept hund => ⟨fun hno => ?_, fun hno => ?_⟩)
    (kept_new hnew) h
  · exact (integrity_step hkept hund hno).1
  · exact (integrity_step hkept hund hno).2

/-- A request with a body of three bytes. -/
def postHeaders : List Header :=
  [Sample.header ":method" "POST", Sample.header ":scheme" "https", Sample.header ":authority" "a",
    Sample.header ":path" "/", Sample.header "content-length" "3"]

/-- The frame of a body. -/
def dataBytes (body : Bytes) : Bytes := (encodeFrame (.data body)).getD []

/-- The request, and its body in two pieces. -/
def postRun : List Input :=
  (Sample.serverSetup ++ [Call.feedStream 0 (Sample.headersBytes postHeaders) false,
    .feedStream 0 ((dataBytes [1, 2, 3]).take 3) false,
    .feedStream 0 ((dataBytes [1, 2, 3]).drop 3) true]).map Call.listed

example : (Sample.results Sample.server (Sample.serverSetup ++
    [.feedStream 0 (Sample.headersBytes postHeaders ++ dataBytes [1, 2]) true])).getLast? = some (.error messageError) := by
  decide +kernel

theorem content_length_integrity_of_post :
    ∃ c, Connection.new Sample.server = .ok c ∧
      Runs.Every (observe Sample.server 0) (IntegrityHere Sample.server 0) (c, .new) postRun := by
  obtain ⟨c, hc, h⟩ := Sample.of_holdsAfter Sample.server []
    (p := fun c => decide (Runs.Every (observe Sample.server 0) (Undisturbed 0) (c, .new) postRun))
    (by decide +kernel)
  exact ⟨c, hc, content_length_integrity hc 0 (of_decide_eq_true h)⟩

/-- A WebTransport stream names the session 0, and from then on the body of request 0 goes to that
session: the application is told neither of the body nor of the end. -/
theorem stream_of_session_takes_the_body :
    ¬∀ cfg c s is, Connection.new cfg = .ok c →
      Runs.Every (observe cfg s) (IntegrityHere cfg s) (c, .new) is := by
  intro hall
  let calls : List Call := Sample.serverSetup ++
    [.feedStream 0 (Sample.headersBytes postHeaders) false, .feedStream 6 [0x40, 0x54, 0] false]
  let i : Input := (Call.feedStream 0 (dataBytes [1, 2, 3]) true).listed
  obtain ⟨c, hc, h⟩ := Sample.of_holdsAfter Sample.server []
    (p := fun c =>
      let x := (calls.map Call.listed).foldl (observe Sample.server 0) (c, .new)
      let p := x.1.feed Sample.server i
      !(observe Sample.server 0 x i).2.wtConnect && handsIn 0 x.1.core i.call &&
        cameToEnd (x.1.core.streams.lookup 0) (p.conn.core.streams.lookup 0) &&
        !p.obs.contains (.event (.streamEnd 0)) && decide (p.result = .ok .done))
    (by decide +kernel)
  simp only [Bool.and_eq_true, Bool.not_eq_true', decide_eq_true_eq] at h
  obtain ⟨⟨⟨⟨hno, hhands⟩, hend⟩, hobs⟩, hresult⟩ := h
  have hlast := (hall Sample.server c 0 (calls.map Call.listed ++ [i]) hc).last hno
  obtain htold | herror := hlast.settles hhands hend
  · exact Bool.false_ne_true (hobs.symm.trans (List.contains_iff_mem.mpr htold))
  · cases hresult.symm.trans herror

end Connection

end Http3
