import Http3.RequestRules
import Http3.SettingsCodec
import Http3.Connection.Frames
import Http3.WebTransport.ConnectRequest

/-!
# Negotiation of WebTransport

Each end chooses the draft from its own SETTINGS and those it received. What SETTINGS carry is known
(`Settings.exchanged_eq`), so what both ends compute from the exchange can be compared.
-/

namespace Http3

open Bytes

/-! ## The drafts of both ends -/

namespace WtSettings

variable {a b : WtSettings} {d : DraftVersion}

theorem firstMutualDraft_comm (a b : WtSettings) : a.firstMutualDraft b = b.firstMutualDraft a := by
  unfold firstMutualDraft
  congr 1
  funext d
  exact Bool.and_comm _ _

theorem ne_new_of_advertises (h : a.advertisesDraftVersion d = true) : a ≠ new := by
  rintro rfl
  cases d <;> cases h

theorem advertises_of_firstMutualDraft (h : a.firstMutualDraft b = some d) :
    a.advertisesDraftVersion d = true ∧ b.advertisesDraftVersion d = true := by
  have hd := List.find?_some h
  rwa [Bool.and_eq_true] at hd

theorem firstMutualDraft_of_none (h : b.advertisesAnyDraftVersion = false) :
    a.firstMutualDraft b = none := by
  unfold firstMutualDraft
  unfold advertisesAnyDraftVersion at h
  rw [List.any_eq_false] at h
  rw [List.find?_eq_none]
  intro d hd
  simp [h d hd]

theorem onWire_some (h : a ≠ new) : onWire (some a) = some a := by
  simp [onWire, Option.filter, h]

theorem onWire_eq_some {o : Option WtSettings} (h : onWire o = some a) : o = some a ∧ a ≠ new := by
  unfold onWire at h
  rw [Option.filter_eq_some_iff] at h
  simpa using h

end WtSettings

namespace Connection

variable {client server : Settings} {order order' : HashOrder}

/-- The environment of an end that was given these settings. -/
def clientEnv (s : Settings) (order : HashOrder) : Env := ⟨⟨.client, s⟩, order⟩

def serverEnv (s : Settings) (order : HashOrder) : Env := ⟨⟨.server, s⟩, order⟩

/-- The draft that the client chooses is the one that the server chooses. -/
theorem drafts_agree {d : DraftVersion}
    (h : selectWtDraftVersion (clientEnv client order) server.exchanged = some d) :
    selectWtDraftVersion (serverEnv server order') client.exchanged = some d := by
  rw [Settings.exchanged_eq] at h ⊢
  simp only [selectWtDraftVersion, clientEnv, serverEnv, Option.bind_eq_bind,
    Option.bind_eq_some_iff] at h ⊢
  obtain ⟨localWt, hlocal, p, hp, wt, hwt, h⟩ := h
  cases hp
  obtain ⟨hserver, -⟩ := WtSettings.onWire_eq_some hwt
  refine ⟨wt, hserver, _, rfl, ?_⟩
  simp only [hlocal]
  cases hmutual : localWt.firstMutualDraft wt with
  | some draft =>
    rw [hmutual] at h
    cases h
    have hne := WtSettings.ne_new_of_advertises
      (WtSettings.advertises_of_firstMutualDraft hmutual).1
    simp only [WtSettings.onWire_some hne, Option.bind_some, WtSettings.firstMutualDraft_comm wt,
      hmutual]
  | none =>
    -- the client names no draft, and the server has the final one
    rw [hmutual] at h
    simp only [Bool.and_eq_true, Bool.not_eq_true', Option.ite_none_right_eq_some,
      Option.some.injEq] at h
    obtain ⟨⟨hnone, h17⟩, rfl⟩ := h
    have hpeer : (WtSettings.onWire (some localWt)).bind wt.firstMutualDraft = none := by
      rw [Option.bind_eq_none_iff]
      intro a ha
      obtain ⟨ha, -⟩ := WtSettings.onWire_eq_some ha
      cases ha
      exact WtSettings.firstMutualDraft_of_none hnone
    simp only [hpeer, h17, if_true]

/-- Both ends compute the same flow control mode. -/
theorem flow_control_agrees :
    isWtFlowControlEnabled (clientEnv client order) server.exchanged =
      isWtFlowControlEnabled (serverEnv server order') client.exchanged := by
  rw [Settings.exchanged_eq, Settings.exchanged_eq]
  simp only [isWtFlowControlEnabled, clientEnv, serverEnv, peerWt, Option.bind_some]
  have hnew : WtSettings.new.declaresFlowControl = false := by decide
  cases hc : client.wtSettings with
  | none =>
    cases hs : server.wtSettings with
    | none => rfl
    | some b => rfl
  | some a =>
    cases hs : server.wtSettings with
    | none => rfl
    | some b =>
      simp only [WtSettings.onWire, Option.filter]
      by_cases ha : a = .new
      · by_cases hb : b = .new <;>
          simp [ha, hb, WtSettings.flowControlEnabledWithPeer, hnew]
      · by_cases hb : b = .new
        · simp [ha, hb, WtSettings.flowControlEnabledWithPeer, hnew]
        · simp [ha, hb, WtSettings.flowControlEnabledWithPeer, Bool.and_comm]

/-! ## The checks of both ends -/

/-- No two `:protocol` fields differ. -/
def OneProtocol (headers : List Header) : Prop :=
  ∀ h ∈ headers, ∀ h' ∈ headers, h.name = ofString ":protocol" → h'.name = ofString ":protocol" →
    h.value = h'.value

/-- What both ends do about datagrams and the transport, and that the session would be the only
one. -/
structure Ready (client server : Settings) (w w' : WtState) (streamId : Nat) : Prop where
  clientDatagram : client.h3Datagram = some true
  serverDatagram : server.h3Datagram = some true
  clientTransport : w.wtTransportVerified = true ∧ w.wtResetStreamAtSupported = true
  serverTransport : w'.wtTransportVerified = true ∧ w'.wtResetStreamAtSupported = true
  clientAlone : countActiveWtSessions w = 0
  serverAlone : otherActive w' streamId = 0

/-- A request that the client lets through passes the checks of the server. -/
theorem requests_agree {w w' : WtState} {streamId : Nat} {headers : List Header}
    (hready : Ready client server w w' streamId)
    (hhttps : hasHeader headers ":scheme" "https" = true) (hprotocol : OneProtocol headers)
    (h : validateWtConnectRequest (clientEnv client order) server.exchanged w headers = .ok ()) :
    validateWtConnectRequestServer (serverEnv server order') client.exchanged w' streamId headers =
      .ok () := by
  unfold validateWtConnectRequest at h
  unfold validateWtConnectRequestServer
  cases hconnect : isWebtransportConnect headers with
  | false => simp
  | true =>
    have hrole : (serverEnv server order').role = .server := rfl
    simp only [hconnect, Bool.not_true, Bool.false_eq_true, if_false, ensure_bind] at h
    simp only [hrole, ne_eq, not_true_eq_false, decide_false, Bool.not_true, Bool.or_self,
      Bool.false_eq_true, if_false, ensure_bind]
    obtain ⟨hforbidden, h⟩ := h
    refine ⟨hforbidden, ?_⟩
    rw [Settings.exchanged_eq server] at h
    simp only [ensure_bind] at h
    obtain ⟨henabled, h⟩ := h
    have hserver : server.isWebtransportEnabled = true := by
      unfold Settings.isWebtransportEnabled at henabled ⊢
      cases hwt : server.wtSettings with
      | none =>
        rw [hwt] at henabled
        exact henabled
      | some wt =>
        by_cases hnew : wt = .new
        · rw [hwt, hnew] at henabled
          cases henabled
        · rwa [hwt, WtSettings.onWire_some hnew] at henabled
    refine ⟨hserver, ?_⟩
    rw [Settings.exchanged_eq client]
    simp only [ensure_bind]
    cases hdraft : selectWtDraftVersion (clientEnv client order)
        (some { server with wtSettings := WtSettings.onWire server.wtSettings }) with
    | none =>
      rw [hdraft] at h
      cases h
    | some draft =>
      rw [hdraft] at h
      simp only [ensure_bind, ensure_eq_ok] at h
      obtain ⟨-, -, -, -, htoken, -⟩ := h
      rw [← Settings.exchanged_eq] at hdraft
      have hagree : selectWtDraftVersion (serverEnv server order') client.exchanged = some draft :=
        drafts_agree hdraft
      rw [Settings.exchanged_eq] at hagree
      -- the first `:protocol` says the same as the one that the client looked for
      have hfound : ∃ f, headers.find? (fun f => f.name = ofString ":protocol") = some f ∧
          f.value = draft.protocolValue := by
        rw [List.any_eq_true] at htoken
        obtain ⟨g, hg, hgood⟩ := htoken
        simp only [Bool.and_eq_true, decide_eq_true_eq] at hgood
        cases hfind : headers.find? fun f => f.name = ofString ":protocol" with
        | none => exact absurd hgood.1 (by simpa using List.find?_eq_none.mp hfind g hg)
        | some f =>
          have hname : f.name = ofString ":protocol" := by simpa using List.find?_some hfind
          exact ⟨f, rfl, (hprotocol f (List.mem_of_find?_eq_some hfind) g hg hname hgood.1).trans
            hgood.2⟩
      obtain ⟨f, hfind, hvalue⟩ := hfound
      simp only [hagree, Option.isSome_some, Bool.true_or, true_and]
      simp only [hready.clientDatagram, hready.serverTransport.1, hready.serverTransport.2,
        hready.serverAlone, hfind, hvalue, hhttps, beq_self_eq_true, Bool.or_true, ensure_bind,
        ensure_eq_ok, and_self]

/-! ## Header fields that name the protocol -/

open Validation

/-- A request that passes validation names one protocol at most. -/
theorem oneProtocol_of_valid {headers : List Header} (h : validateRequestHeaders headers = .ok ()) :
    OneProtocol headers := by
  obtain ⟨f, hscan, -⟩ := validateRequestHeaders_ok.mp h
  have hv := keeps_values (scanRequest_ok.mp hscan).2.2.2
  have kept : ∀ x ∈ headers, x.name = Single.protocol.name → f.get .protocol = some x.value := by
    intro x hx hname
    refine (mem_values hv .protocol x.value).mp (List.mem_map.mpr ⟨x, ?_, rfl⟩)
    exact List.mem_filter.mpr ⟨hx, decide_eq_true hname⟩
  intro x hx y hy hname hname'
  exact Option.some.inj ((kept x hx hname).symm.trans (kept y hy hname'))

/-! ## Agreement -/

/-- **Negotiation**: what the client chooses, the server chooses, and a request that the client
lets through and that names one protocol passes the checks of the server. -/
theorem ends_agree (client server : Settings) (order order' : HashOrder) :
    (∀ d, selectWtDraftVersion (clientEnv client order) server.exchanged = some d →
      selectWtDraftVersion (serverEnv server order') client.exchanged = some d) ∧
    isWtFlowControlEnabled (clientEnv client order) server.exchanged =
      isWtFlowControlEnabled (serverEnv server order') client.exchanged ∧
    (∀ headers, validateRequestHeaders headers = .ok () → OneProtocol headers) ∧
    ∀ w w' streamId headers, Ready client server w w' streamId →
      hasHeader headers ":scheme" "https" = true → OneProtocol headers →
      validateWtConnectRequest (clientEnv client order) server.exchanged w headers = .ok () →
      validateWtConnectRequestServer (serverEnv server order') client.exchanged w' streamId
        headers = .ok () :=
  ⟨fun _ => drafts_agree, flow_control_agrees, fun _ => oneProtocol_of_valid,
    fun _ _ _ _ => requests_agree⟩

/-- An end that offers one session of draft 14. -/
def draft14Settings : Settings :=
  Settings.new.enableWebtransportServer
    { WtSettings.new with wtMaxSessionsDraft14 := some (.fromStatic 1 VarInt.one_le_max) }

def verifiedState : WtState :=
  { WtState.new with wtTransportVerified := true, wtResetStreamAtSupported := true }

def connectHeaders (protocols : List Header) : List Header :=
  [.fromStatic ":method" "CONNECT", .fromStatic ":scheme" "https",
    .fromStatic ":authority" "example.com", .fromStatic ":path" "/"] ++ protocols

theorem ready_of_draft14 : Ready draft14Settings draft14Settings verifiedState verifiedState 0 where
  clientDatagram := rfl
  serverDatagram := rfl
  clientTransport := ⟨rfl, rfl⟩
  serverTransport := ⟨rfl, rfl⟩
  clientAlone := rfl
  serverAlone := rfl

theorem draft14_exchanged : draft14Settings.exchanged = some draft14Settings := by
  rw [Settings.exchanged_eq]
  rfl

theorem ends_agree_on_draft14 :
    selectWtDraftVersion (serverEnv draft14Settings .asListed) draft14Settings.exchanged =
      some .draft14 ∧
    validateWtConnectRequestServer (serverEnv draft14Settings .asListed)
      draft14Settings.exchanged verifiedState 0
      (connectHeaders [.fromStatic ":protocol" "webtransport"]) = .ok () := by
  obtain ⟨hdraft, -, hone, hrequest⟩ :=
    ends_agree draft14Settings draft14Settings .asListed .asListed
  refine ⟨hdraft .draft14 ?_, hrequest verifiedState verifiedState 0 _ ready_of_draft14
    (by with_unfolding_all decide) (hone _ (by with_unfolding_all decide)) ?_⟩
  · rw [draft14_exchanged]
    decide
  · rw [draft14_exchanged]
    with_unfolding_all decide

/-- The client accepts the protocol anywhere in the list, the server reads the first one. -/
theorem second_protocol_is_not_read :
    ¬∀ headers, Ready draft14Settings draft14Settings verifiedState verifiedState 0 →
      hasHeader headers ":scheme" "https" = true →
      validateWtConnectRequest (clientEnv draft14Settings .asListed) draft14Settings.exchanged
        verifiedState headers = .ok () →
      validateWtConnectRequestServer (serverEnv draft14Settings .asListed)
        draft14Settings.exchanged verifiedState 0 headers = .ok () := by
  intro h
  rw [draft14_exchanged] at h
  have hserver := h (connectHeaders [.fromStatic ":protocol" "webtransport-h3",
    .fromStatic ":protocol" "webtransport"]) ready_of_draft14 (by with_unfolding_all decide)
    (by with_unfolding_all decide)
  exact absurd hserver (by with_unfolding_all decide)

/-! ## The offered protocols -/

/-- The values of the fields that offer protocols. -/
def offeredValues (headers : List Header) : List Bytes :=
  ConnectRequest.offers (ConnectRequest.pairs headers)

/-- A session takes the first field that offers protocols. -/
theorem offer_availableProtocols (s : WtSession) {headers : List Header}
    (hvalid : ∀ value ∈ offeredValues headers, Utf8.isValid value = true) :
    (s.offer headers).availableProtocols =
      ((offeredValues headers).head?.map SfParser.parseSfListStrings).getD
        s.availableProtocols := by
  have hcons : ∀ (h : Header) (rest : List Header), offeredValues (h :: rest) =
      if h.name = ofString "wt-available-protocols" then h.value :: offeredValues rest
      else offeredValues rest := fun h rest =>
    ConnectRequest.offers_cons h.name h.value (ConnectRequest.pairs rest)
  unfold WtSession.offer
  induction headers with
  | nil => rfl
  | cons h rest ih =>
    rw [hcons] at hvalid ⊢
    rw [List.find?_cons]
    by_cases hname : h.name = ofString "wt-available-protocols"
    · rw [if_pos hname] at hvalid ⊢
      simp only [decide_eq_true hname, hvalid h.value List.mem_cons_self, if_true]
      rfl
    · rw [if_neg hname] at hvalid ⊢
      simp only [decide_eq_false hname]
      exact ih hvalid

/-- The protocols that a server has recorded for the session of a stream. -/
def recordedProtocols (c : Core) (streamId : Nat) : Option (List Bytes) :=
  (c.wt.wtSessions.lookup streamId).map WtSession.availableProtocols

theorem registered_protocols (env : Env) (streamId : Nat) {headers : List Header} (c : Core)
    (hserver : env.role = .server) (hwt : isWebtransportConnect headers = true) :
    recordedProtocols (registerWtConnectSession env streamId headers c).st streamId =
      some (((c.wt.wtSessions.lookup streamId).getD .new).offer headers).availableProtocols := by
  simp [recordedProtocols, registerWtConnectSession, registerSession, hserver, hwt, onWt,
    Proc.bind_run, Proc.zoom_run, putSession, modifyStream]

/-- What the server records is what the request says, exactly when the first field that offers
protocols and the last one offer the same, and nothing was recorded before a request that has no
such field. -/
theorem offered_protocols_agree (env : Env) (streamId : Nat) (headers : List Header) (c : Core)
    (r : ConnectRequest) (hserver : env.role = .server)
    (hwt : isWebtransportConnect headers = true)
    (hread : ConnectRequest.fromHeaders (ConnectRequest.pairs headers) = .ok r) :
    recordedProtocols (registerWtConnectSession env streamId headers c).st streamId =
        some r.availableProtocols ↔
      (∀ first last, (offeredValues headers).head? = some first →
        (offeredValues headers).getLast? = some last →
        SfParser.parseSfListStrings first = SfParser.parseSfListStrings last) ∧
      (offeredValues headers = [] →
        ∀ s, c.wt.wtSessions.lookup streamId = some s → s.availableProtocols = []) := by
  obtain ⟨hvalid, hlast⟩ := ConnectRequest.fromHeaders_offer hread
  rw [registered_protocols env streamId c hserver hwt, offer_availableProtocols _ hvalid, hlast,
    Option.some.injEq]
  change (_ = ((offeredValues headers).getLast?.map SfParser.parseSfListStrings).getD []) ↔ _
  cases hoffered : offeredValues headers with
  | nil =>
    simp only [List.head?_nil, List.getLast?_nil, Option.map_none, Option.getD_none, reduceCtorEq,
      false_implies, implies_true, true_and, forall_const]
    cases c.wt.wtSessions.lookup streamId with
    | none => exact iff_of_true rfl nofun
    | some s => simp only [Option.getD_some, Option.some.injEq, forall_eq']
  | cons first rest =>
    obtain ⟨last, hlast'⟩ : ∃ last, (first :: rest).getLast? = some last :=
      ⟨_, List.getLast?_eq_some_getLast (List.cons_ne_nil first rest)⟩
    simp only [hlast', List.head?_cons, Option.map_some, Option.getD_some, Option.some.injEq,
      reduceCtorEq, false_implies, and_true]
    constructor
    · rintro h _ _ rfl rfl
      exact h
    · intro h
      exact h first last rfl rfl

/-- A WebTransport request with the given fields that offer protocols. -/
def offeringHeaders (values : List String) : List Header :=
  connectHeaders (.fromStatic ":protocol" "webtransport" ::
    values.map (Header.fromStatic "wt-available-protocols"))

def offeringRequest (protocols : List Bytes) : ConnectRequest where
  protocolToken := .webTransport
  scheme := ⟨ofString "https", ConnectRequest.https_isUtf8⟩
  authority := ⟨ofString "example.com", by with_unfolding_all decide⟩
  path := ⟨ofString "/", ConnectRequest.slash_isUtf8⟩
  origin := none
  availableProtocols := protocols

theorem newServer_ok : ∃ c, Core.new ⟨.server, draft14Settings⟩ = .ok c := by
  have hok : (Core.new ⟨.server, draft14Settings⟩).isOk = true := by decide
  cases hnew : Core.new ⟨.server, draft14Settings⟩ with
  | error e => rw [hnew] at hok; cases hok
  | ok c => exact ⟨c, rfl⟩

theorem offered_protocols_agree_single :
    ∃ c, Core.new ⟨.server, draft14Settings⟩ = .ok c ∧
      (recordedProtocols (registerWtConnectSession (serverEnv draft14Settings .asListed) 0
          (offeringHeaders ["\"a\""]) c).st 0 = some [ofString "a"] ↔
        (∀ first last, (offeredValues (offeringHeaders ["\"a\""])).head? = some first →
          (offeredValues (offeringHeaders ["\"a\""])).getLast? = some last →
          SfParser.parseSfListStrings first = SfParser.parseSfListStrings last) ∧
        (offeredValues (offeringHeaders ["\"a\""]) = [] →
          ∀ s, c.wt.wtSessions.lookup 0 = some s → s.availableProtocols = [])) := by
  obtain ⟨c, hc⟩ := newServer_ok
  exact ⟨c, hc, offered_protocols_agree (serverEnv draft14Settings .asListed) 0
    (offeringHeaders ["\"a\""]) c (offeringRequest [ofString "a"]) rfl (by with_unfolding_all decide)
    (by with_unfolding_all decide)⟩

/-- Of two fields the server records the first one, the request has the second one. -/
theorem second_field_is_not_recorded :
    Validation.validateRequestHeaders (offeringHeaders ["\"a\"", "\"b\""]) = .ok () ∧
    ConnectRequest.fromHeaders (ConnectRequest.pairs (offeringHeaders ["\"a\"", "\"b\""])) =
      .ok (offeringRequest [ofString "b"]) ∧
    ∃ c, Core.new ⟨.server, draft14Settings⟩ = .ok c ∧
      recordedProtocols (registerWtConnectSession (serverEnv draft14Settings .asListed) 0
        (offeringHeaders ["\"a\"", "\"b\""]) c).st 0 = some [ofString "a"] := by
  refine ⟨by with_unfolding_all decide, by with_unfolding_all decide, ?_⟩
  obtain ⟨c, hc⟩ := newServer_ok
  refine ⟨c, hc, ?_⟩
  have hsessions : c.wt.wtSessions.lookup 0 = none := by
    simp only [Core.new, bind, Except.bind, pure, Except.pure] at hc
    split at hc
    · cases hc
    · cases hc
      rfl
  rw [registered_protocols (serverEnv draft14Settings .asListed) 0 c rfl (by with_unfolding_all decide),
    hsessions]
  with_unfolding_all decide

end Connection

end Http3
