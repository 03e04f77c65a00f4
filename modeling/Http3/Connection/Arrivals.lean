import Http3.Connection.MessageRun
import Http3.Connection.Requests

/-!
# Requests and responses that arrive

A server is told a request from the first bytes of its stream on, a client the response to a request
it has sent. Before that, the calls were about other streams.
-/

namespace Http3

namespace Connection

open Proc

/-! ## Before the stream -/

def isBodyLimit : Call → Bool
  | .setMaxReceivedBodySize _ => true
  | _ => false

/-- A call before the stream is opened. -/
def Precedes (s : Nat) (c : Connection) (i : Input) : Prop :=
  StandsAside s c.core i.call ∨ isBodyLimit i.call = true

instance (s : Nat) (c : Connection) (i : Input) : Decidable (Precedes s c i) :=
  inferInstanceAs (Decidable (_ ∨ _))

/-- Nothing of the stream was received, and nothing sent on it. -/
structure Unheard (s : Nat) (c : Core) : Prop where
  plainly : Plainly s c
  noStream : c.streams.lookup s = none

section Before

variable {cfg : Config} {s : Nat} {c : Connection}

theorem Unheard.new (h : Connection.new cfg = .ok c) : Unheard s c.core := by
  simp only [Connection.new, Core.new, bind, Except.bind, pure, Except.pure] at h
  split at h <;> cases h
  exact ⟨⟨rfl, rfl, rfl, rfl, rfl⟩, rfl⟩

theorem Unheard.feed {i : Input} (h : Unheard s c.core) (hi : Precedes s c i) :
    Unheard s (c.feed cfg i).conn.core := by
  obtain hi | hi := hi
  · have hstep : (c.feed cfg i).Stays (Aside s) c :=
      step_stays (aside_composes s) (body_standsAside (cfg.env i.order) hi)
    obtain ⟨hplainly, -, hs⟩ := hstep h.plainly
    exact ⟨hplainly, hs.trans h.noStream⟩
  · rcases i with ⟨order, call⟩
    cases call with
    | setMaxReceivedBodySize size =>
      have hnone : (setMaxReceivedBodySize size c.core).streams.lookup s = none := by
        have hkeys := IdMap.contains_updateEach c.core.streams s
          (fun s => { s with maxReceivedBodySize := size }) c.core.streams.keys
        rw [IdMap.contains, IdMap.contains, h.noStream] at hkeys
        exact Option.isNone_iff_eq_none.mp (Option.isSome_eq_false_iff.mp hkeys)
      refine ⟨⟨h.plainly.deferred, ?_, h.plainly.clear⟩, hnone⟩
      rw [show (c.feed cfg ⟨order, .setMaxReceivedBodySize size⟩).conn.core =
        setMaxReceivedBodySize size c.core from rfl, hnone]
      rfl
    | _ => cases hi

theorem Unheard.run (h : Unheard s c.core) {is : List Input}
    (his : EveryStep cfg (Precedes s) c is) : Unheard s (after cfg c is).core :=
  his.inv (I := fun c => Unheard s c.core) (fun _ _ hc hi => Unheard.feed hc hi) h

end Before

/-! ## Requests -/

/-- No frame is empty. -/
theorem shorter_of_frames (fs : List PartFrame) :
    ∀ f ∈ fs.head?, ([] : Bytes).length < f.bytes.length := by
  intro f _
  obtain ⟨frame, hreads, -⟩ := f.written.reads
  have hbytes := (decodeFrame_bounds hreads).1
  show 0 < f.bytes.length
  omega

theorem flatMap_shortType {fs : List PartFrame} (h : ∀ f ∈ fs, f.HasShortType) :
    ∀ b ∈ (fs.flatMap PartFrame.bytes).head?, b < 0x40 := by
  cases fs with
  | nil => nofun
  | cons f fs =>
    obtain ⟨frame, hreads, -⟩ := f.written.reads
    have hbytes := (decodeFrame_bounds hreads).1
    have hne : f.bytes ≠ [] := by
      intro hnil
      rw [hnil] at hbytes
      cases hbytes
    rw [List.flatMap_cons, List.head?_append_of_ne_nil _ hne]
    exact h f List.mem_cons_self

/-- What a part of the message has been told. -/
structure ToldPart (cfg : Config) (s : Nat) (c : Connection) (js : List Input)
    (fs : List PartFrame) (x : Bytes) (fin : Bool) : Prop where
  told : ∃ done left part, Arrived PartFrame.bytes fs x done left part ∧
    reports s (c.trace cfg js) = toldOf s done ++ endOf s fin
  accepted : EveryStep cfg (fun c i => isPiece s i.call = true →
    (c.feed cfg i).result = .ok .done) c js

/-- A request with two bytes of body. -/
def requestFrames : List PartFrame :=
  [.ofSection (show encodeFrame (.headers (Qpack.DynamicEncoder.new.encodeStaticOnly
      Sample.getHeaders)) = some (Sample.headersBytes Sample.getHeaders) by decide +kernel),
    .ofData (show encodeFrame (.data [1, 2]) = some [0, 2, 1, 2] by decide +kernel)]

/-- It comes in three pieces, between another request and a response. -/
def requestPieces : List Input :=
  [Call.feedStream 0 [1, 8, 0, 0, 209] false,
    .feedStream 4 (Sample.headersBytes Sample.getHeaders) true,
    .feedStream 0 [215, 80, 1, 97, 193, 0, 2, 1] false, .sendResponse 0 Sample.okHeaders false,
    .feedStream 0 [2] true].map Call.listed

/-- The next id goes up by multiples of four. -/
def Raises : Flow Obs Core := fun c _ _ d =>
  c.nextStreamId ≤ d.nextStreamId ∧ d.nextStreamId % 4 = c.nextStreamId % 4

theorem raises_composes : Composes Raises where
  refl _ _ := ⟨Nat.le_refl _, rfl⟩
  trans h h' := ⟨h.1.trans h'.1, h'.2.trans h.2⟩

theorem raises_modify {f : Core → Core} (h : ∀ c, (f c).nextStreamId = c.nextStreamId) :
    Keeps Raises (modify f : CoreProc Unit) := fun c => ⟨(h c).ge, congrArg (· % 4) (h c)⟩

theorem sendRequestInner_raises (env : Env) (headers : List Header) (fin : Bool) :
    Keeps Raises (sendRequestInner env headers fin) := by
  have hR := raises_composes
  refine .bind hR (.get hR) fun c => .bind hR (.ofExcept hR _) fun _ => ?_
  refine .bind hR (.bind hR (.get hR) fun _ => .bind hR (raises_modify fun _ => rfl) fun _ =>
    .ofExcept hR _) fun encoded => ?_
  refine .bind hR (fun c => ⟨Nat.le_add_right _ 4, Nat.add_mod_right _ 4⟩) fun _ => ?_
  refine .ite (fun _ => .throw hR _) fun _ => .bind hR (.ofExcept hR _) fun stream => ?_
  refine .bind hR (raises_modify fun _ => rfl) fun _ => .bind hR (raises_modify fun _ => rfl)
    fun _ => .ite (fun _ => ?_) fun _ => .bind hR (.ret hR ()) fun _ => .ret hR _
  exact .bind hR (fun _ => ⟨Nat.le_refl _, rfl⟩) fun _ => .ret hR _

theorem feed_raises (cfg : Config) (c : Connection) (i : Input) :
    (c.feed cfg i).Stays Raises c := by
  by_cases hi : ∃ headers fin, i.call = .sendRequest headers fin
  · obtain ⟨order, call⟩ := i
    obtain ⟨headers, fin, rfl⟩ := hi
    have hR := raises_composes
    exact step_stays hR (.bind_keeps hR (sendRequestInner_raises _ headers fin _) fun _ => .ret hR _)
  · have hid : (c.feed cfg i).conn.core.nextStreamId = c.core.nextStreamId :=
      (feed_quiet fun headers fin h => hi ⟨headers, fin, h⟩).1
    exact ⟨hid.ge, congrArg (· % 4) hid⟩

/-- A client numbers its requests. -/
theorem Reachable.requestKind {cfg : Config} {c : Connection} (hclient : cfg.role = .client)
    (hc : Reachable cfg c) : StreamKind.fromStreamId c.core.nextStreamId = .clientBidi := by
  have hmod : c.core.nextStreamId % 4 = 0 :=
    hc.rec_on (P := fun c => c.core.nextStreamId % 4 = 0)
      (fun c₀ hnew => by rw [(new_core hnew).2 hclient])
      fun c i hid => (feed_raises cfg c i).2.trans hid
  simp only [StreamKind.fromStreamId, hmod]

/-- A request that is sent makes its stream, and leaves alone what else belongs to receiving. -/
structure Asked (env : Env) (headers : List Header) (c : Core) (s : Nat) (d : Core) : Prop where
  id : s = c.nextStreamId
  wt : d.wt = c.wt
  limits : d.limits = c.limits
  stream : ∃ t, d.streams.lookup s = some t ∧ Answered (requestStream env c s headers) t

section Ask

variable {cfg : Config} {c : Connection} {i : Input} {s : Nat} {headers : List Header} {fin : Bool}

theorem sendRequestInner_asked (env : Env) (core : Core)
    (hplain : isWebtransportConnect headers = false) :
    Post (fun r => ∀ id, r.val = .ok id → Asked env headers core id r.st) core
      (sendRequestInner env headers fin) := by
  refine Post.get_bind (Post.ofExcept_bind (fun _ _ => nofun) fun _ _ => ?_)
  refine Post.bind (fun _ _ _ _ => nofun) fun encoded d o hrun => ?_
  rw [encodeQpackHeaders_run, Outcome.mk.injEq] at hrun
  obtain ⟨-, rfl, -⟩ := hrun
  refine Post.modify_bind ?_
  split
  · exact Post.throw nofun
  refine Post.ofExcept_bind (fun _ _ => nofun) fun stream hsend => ?_
  refine Post.modify_bind (Post.modify_bind ?_)
  rw [hplain, if_neg Bool.false_ne_true]
  intro id hid
  obtain rfl : core.nextStreamId = id := Except.ok.inj hid
  exact ⟨rfl, rfl, rfl, stream, IdMap.lookup_insert_self _ _ _, sendEncodedHeaders_answered hsend⟩

theorem feed_asked (hi : i.call = .sendRequest headers fin)
    (hid : (c.feed cfg i).result = .ok (.streamId s))
    (hplain : isWebtransportConnect headers = false) :
    Asked (cfg.env i.order) headers c.core s (c.feed cfg i).conn.core ∧
      (c.feed cfg i).conn.error = none := by
  rcases i with ⟨order, call⟩
  obtain rfl : call = .sendRequest headers fin := hi
  have hasked := @sendRequestInner_asked headers fin (cfg.env order) c.core hplain
  cases herror : c.error with
  | some e =>
    rw [show c.feed cfg ⟨order, .sendRequest headers fin⟩ = ⟨.error e, c, []⟩ from
      guarded_of_some herror _] at hid
    cases hid
  | none =>
    rcases hx : sendRequestInner (cfg.env order) headers fin c.core with ⟨val, st, out⟩
    rw [Post, hx] at hasked
    have hrun : c.feed cfg ⟨order, .sendRequest headers fin⟩ =
        ⟨val.map .streamId, ⟨st, c.events ++ eventsOf out, none⟩, out⟩ := by
      simp only [feed, step, guarded, herror, exec, body, wrapped_run hx]
    rw [hrun] at hid ⊢
    cases val with
    | error e => cases hid
    | ok id =>
      cases hid
      exact ⟨hasked s rfl, rfl⟩

end Ask

/-- A response is awaited as soon as the request is sent. -/
theorem Asked.awaits {env : Env} {headers : List Header} {maxFieldSectionSize maxReceivedBodySize s : Nat}
    {c d : Core} {fs : List PartFrame} {last : Reading} (h : Asked env headers c s d)
    (hunheard : Unheard s c)
    (hplain : isWebtransportConnect headers = false)
    (hosts : Hosts (.ofResponse headers maxFieldSectionSize maxReceivedBodySize) s d)
    (hhears : (Recipient.ofResponse headers maxFieldSectionSize maxReceivedBodySize).hears .new
      (fs.map PartFrame.part) = some last) :
    Awaits (.ofResponse headers maxFieldSectionSize maxReceivedBodySize) s last fs [] d := by
  obtain ⟨-, hwt, hlimits, t, ht, hanswered⟩ := h
  have hroom : maxReceivedBodySize ≤ c.limits.maxReceivedBodySize := by
    rw [← hlimits]
    exact hosts.body
  have hrequest : Mirrors (.ofResponse headers maxFieldSectionSize maxReceivedBodySize) .new
      (requestStream env c s headers) :=
    ⟨rfl, rfl, rfl, rfl, rfl, rfl, hplain, hroom, ⟨rfl, rfl⟩, .inl rfl⟩
  obtain ⟨hfollows, hbuf⟩ := hrequest.answer hanswered
  refine .midway ⟨t, .new, ⟨⟨?_, ?_, ?_⟩, hosts.alone, ht, hfollows, hosts.fields⟩, hhears, hbuf⟩
  · rw [hwt]; exact hunheard.plainly.deferred
  · rw [ht]; exact hfollows.unblocked.2
  · rw [hwt]; exact hunheard.plainly.clear

def hintHeaders : List Header := [Sample.header ":status" "103"]

/-- An interim response, then a final one with two bytes of body. -/
def responseFrames : List PartFrame :=
  [.ofSection (show encodeFrame (.headers (Qpack.DynamicEncoder.new.encodeStaticOnly
      hintHeaders)) = some (Sample.headersBytes hintHeaders) by decide +kernel),
    .ofSection (show encodeFrame (.headers (Qpack.DynamicEncoder.new.encodeStaticOnly
      Sample.okHeaders)) = some (Sample.headersBytes Sample.okHeaders) by decide +kernel),
    .ofData (show encodeFrame (.data [1, 2]) = some [0, 2, 1, 2] by decide +kernel)]

/-- It comes in three pieces, between SETTINGS and another request. -/
def responsePieces : List Input :=
  [Call.feedStream 0 (Sample.headersBytes hintHeaders ++ [1, 3, 0]) false,
    .feedStream 3 Sample.controlBytes false, .feedStream 0 [0, 217, 0] false,
    .sendRequest Sample.getHeaders true, .feedStream 0 [2, 1, 2] true].map Call.listed

end Connection

end Http3
