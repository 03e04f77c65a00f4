import Http3.Connection.Negotiation

/-!
# Versions that are offered

An end offers WebTransport from a list of drafts, or with the settings built for one draft. What
both ends then choose is computed from the lists alone.
-/

namespace Http3

open Bytes

/-! ## Settings from a list of drafts -/

namespace DraftVersion

/-- The drafts 07 and 14 are offered by the number of sessions, so zero sessions offer nothing. -/
def offeredWith (maxSessions : VarInt) (d : DraftVersion) : Bool :=
  (d != draft07 && d != draft14) || maxSessions != .zero

end DraftVersion

namespace WtSettings

def one : VarInt := .fromStatic 1 VarInt.one_le_max

/-- The number of sessions, when it is not zero. -/
def sessions (maxSessions : VarInt) : Option VarInt :=
  if maxSessions ≠ .zero then some maxSessions else none

/-- One round of the loop over the versions. -/
def advertise (maxSessions : VarInt) (settings : WtSettings) : DraftVersion → WtSettings
  | .draft02 => { settings with enableWebtransportDraft02 := some true }
  | .draft07 => { settings with webtransportMaxSessionsDraft07 := sessions maxSessions }
  | .draft14 => { settings with wtMaxSessionsDraft14 := sessions maxSessions }
  | .draft15 => { settings with wtEnabled := one }
  | .draft17 => { settings with wtEnabledDraft17 := one }

def forDraftVersions (versions : List DraftVersion) (maxSessions : VarInt) : WtSettings :=
  versions.foldl (advertise maxSessions) new

theorem get_pos (m : VarInt) : decide (0 < m.get) = (m != .zero) := by
  by_cases h : m = .zero
  · rw [h]
    rfl
  · have hpos : 0 < m.get := Nat.pos_of_ne_zero fun h0 => h (VarInt.eq_of_get h0)
    simp [hpos, h]

theorem one_ne_zero : (one != .zero) = true := by decide

theorem sessions_any (m : VarInt) : (sessions m).any (· != .zero) = (m != .zero) := by
  unfold sessions
  by_cases h : m = .zero
  · rw [if_neg (not_not_intro h), h]
    rfl
  · rw [if_pos h]
    rfl

/-- A round offers its version, as far as the number of sessions lets it, and keeps the others. -/
theorem advertise_advertises (m : VarInt) (wt : WtSettings) (v d : DraftVersion) :
    (wt.advertise m v).advertisesDraftVersion d =
      if v = d then d.offeredWith m else wt.advertisesDraftVersion d := by
  cases v <;> cases d <;>
    simp [advertise, advertisesDraftVersion, DraftVersion.offeredWith, sessions_any, get_pos,
      one_ne_zero]

theorem foldl_advertises (m : VarInt) (wt : WtSettings) (versions : List DraftVersion)
    (d : DraftVersion) :
    (versions.foldl (advertise m) wt).advertisesDraftVersion d =
      if d ∈ versions then d.offeredWith m else wt.advertisesDraftVersion d := by
  induction versions generalizing wt with
  | nil => simp
  | cons v versions ih =>
    rw [List.foldl_cons, ih, advertise_advertises]
    by_cases hv : v = d
    · simp [hv]
    · simp [hv, Ne.symm hv]

/-- A list of versions offers what it names, as far as the number of sessions lets it. -/
theorem forDraftVersions_advertises (versions : List DraftVersion) (m : VarInt)
    (d : DraftVersion) :
    (forDraftVersions versions m).advertisesDraftVersion d =
      (decide (d ∈ versions) && d.offeredWith m) := by
  have hnew : new.advertisesDraftVersion d = false := by cases d <;> rfl
  rw [forDraftVersions, foldl_advertises, hnew]
  by_cases hd : d ∈ versions <;> simp [hd]

end WtSettings

/-! ## The choice -/

namespace Connection

variable {client server : Settings} {order order' : HashOrder}

/-- What the client computes, with the parameters of the server as they are. -/
theorem client_choice {a b : WtSettings} (ha : client.wtSettings = some a)
    (hb : server.wtSettings = some b) :
    selectWtDraftVersion (clientEnv client order) server.exchanged =
      ((a.firstMutualDraft b).or
        (if !a.advertisesAnyDraftVersion && b.advertisesDraftVersion .draft17 then some .draft17
        else none)) := by
  rw [Settings.exchanged_eq]
  simp only [selectWtDraftVersion, clientEnv, ha, hb, Option.bind_eq_bind, Option.bind_some]
  by_cases hnew : b = .new
  · subst hnew
    have hnone : a.firstMutualDraft .new = none := WtSettings.firstMutualDraft_of_none rfl
    have h17 : WtSettings.new.advertisesDraftVersion .draft17 = false := rfl
    simp [hnone, h17, WtSettings.onWire, Option.filter]
  · rw [WtSettings.onWire_some hnew, Option.bind_some]
    cases a.firstMutualDraft b with
    | some d => rfl
    | none => rfl

/-- What the server computes: it falls back to the final draft for any client. -/
theorem server_choice {a b : WtSettings} (ha : client.wtSettings = some a)
    (hb : server.wtSettings = some b) :
    selectWtDraftVersion (serverEnv server order) client.exchanged =
      ((a.firstMutualDraft b).or
        (if b.advertisesDraftVersion .draft17 then some .draft17 else none)) := by
  rw [Settings.exchanged_eq]
  simp only [selectWtDraftVersion, serverEnv, ha, hb, Option.bind_eq_bind, Option.bind_some]
  rw [WtSettings.firstMutualDraft_comm a]
  by_cases hnew : a = .new
  · subst hnew
    have hnone : b.firstMutualDraft .new = none := WtSettings.firstMutualDraft_of_none rfl
    simp [hnone, WtSettings.onWire, Option.filter]
  · rw [WtSettings.onWire_some hnew, Option.bind_some]
    cases b.firstMutualDraft a with
    | some d => rfl
    | none => rfl

/-- Is this version among those that are offered? -/
def offers (versions : List DraftVersion) (maxSessions : VarInt) (d : DraftVersion) : Bool :=
  decide (d ∈ versions) && d.offeredWith maxSessions

/-- Does a list offer no version at all? -/
def offersNone (versions : List DraftVersion) (maxSessions : VarInt) : Bool :=
  versions.all fun d => !d.offeredWith maxSessions

/-- The most preferred version that both lists offer. -/
def common (versions versions' : List DraftVersion) (maxSessions maxSessions' : VarInt) :
    Option DraftVersion :=
  DraftVersion.selectionOrder.find? fun d =>
    offers versions maxSessions d && offers versions' maxSessions' d

/-- **The choice of lists**: both ends choose the most preferred version that both offer. Without
one, the server takes draft 17 when it offers that, and the client does so only when it offers no
version at all. -/
theorem lists_choose (client server : Settings) (order order' : HashOrder)
    (versions versions' : List DraftVersion) (maxSessions maxSessions' : VarInt)
    (hclient : client.wtSettings = some (WtSettings.forDraftVersions versions maxSessions))
    (hserver : server.wtSettings = some (WtSettings.forDraftVersions versions' maxSessions')) :
    selectWtDraftVersion (clientEnv client order) server.exchanged =
      ((common versions versions' maxSessions maxSessions').or
        (if offersNone versions maxSessions && offers versions' maxSessions' .draft17 then
          some .draft17 else none)) ∧
    selectWtDraftVersion (serverEnv server order') client.exchanged =
      ((common versions versions' maxSessions maxSessions').or
        (if offers versions' maxSessions' .draft17 then some .draft17 else none)) := by
  have hall : ∀ (vs : List DraftVersion) (m : VarInt),
      (WtSettings.forDraftVersions vs m).advertisesDraftVersion = offers vs m := by
    intro vs m
    funext d
    exact WtSettings.forDraftVersions_advertises vs m d
  have hcommon : (WtSettings.forDraftVersions versions maxSessions).firstMutualDraft
      (WtSettings.forDraftVersions versions' maxSessions') =
        common versions versions' maxSessions maxSessions' := by
    unfold WtSettings.firstMutualDraft common
    simp only [hall]
  have hany : (!(WtSettings.forDraftVersions versions maxSessions).advertisesAnyDraftVersion) =
      offersNone versions maxSessions := by
    have horder : ∀ d, d ∈ DraftVersion.selectionOrder := fun d => by cases d <;> decide
    rw [Bool.eq_iff_iff]
    simp [WtSettings.advertisesAnyDraftVersion, hall, offers, offersNone, horder]
  refine ⟨?_, ?_⟩
  · rw [client_choice hclient hserver, hcommon, hall versions']
    rw [hany]
  · rw [server_choice hclient hserver, hcommon, hall versions']

/-- A client that prefers Safari's drafts meets a server that has all of them. -/
theorem lists_choose_draft07 :
    selectWtDraftVersion
        (clientEnv (Settings.new.enableWebtransportClient
          (WtSettings.forDraftVersions [.draft14, .draft07] WtSettings.one)) .asListed)
        (Settings.new.enableWebtransportServer
          (WtSettings.forDraftVersions [.draft02, .draft07, .draft14, .draft15, .draft17]
            WtSettings.one)).exchanged =
      some .draft07 := by
  have hchoice := (lists_choose
    (Settings.new.enableWebtransportClient
      (WtSettings.forDraftVersions [.draft14, .draft07] WtSettings.one))
    (Settings.new.enableWebtransportServer
      (WtSettings.forDraftVersions [.draft02, .draft07, .draft14, .draft15, .draft17]
        WtSettings.one)) .asListed .asListed _ _ _ _ rfl rfl).1
  rw [hchoice]
  decide

end Connection

/-! ## Settings for one draft -/

structure ServerSettingsParams where
  maxSessions : VarInt
  initialMaxStreamsUni : VarInt
  initialMaxStreamsBidi : VarInt
  initialMaxData : VarInt
  deriving DecidableEq

namespace ServerSettingsParams

theorem hundred_le_max : 100 ≤ 2 ^ 62 - 1 := by decide

theorem eightMiB_le_max : 8 * 1024 * 1024 ≤ 2 ^ 62 - 1 := by decide

def default : ServerSettingsParams where
  maxSessions := WtSettings.one
  initialMaxStreamsUni := .fromStatic 100 hundred_le_max
  initialMaxStreamsBidi := .fromStatic 100 hundred_le_max
  initialMaxData := .fromStatic (8 * 1024 * 1024) eightMiB_le_max

/-- The settings with the initial limits of these parameters. -/
def limits (params : ServerSettingsParams) (wt : WtSettings) : WtSettings :=
  { wt with
    wtInitialMaxStreamsUni := params.initialMaxStreamsUni
    wtInitialMaxStreamsBidi := params.initialMaxStreamsBidi
    wtInitialMaxData := params.initialMaxData }

/-- Is there a limit that is not zero? -/
def declaresLimits (params : ServerSettingsParams) : Bool :=
  params.initialMaxStreamsUni.get != 0 || params.initialMaxStreamsBidi.get != 0 ||
    params.initialMaxData.get != 0

end ServerSettingsParams

namespace DraftVersion

def buildServerSettings (d : DraftVersion) (params : ServerSettingsParams) : WtSettings :=
  match d with
  | .draft17 => params.limits { WtSettings.new with wtEnabledDraft17 := WtSettings.one }
  | .draft15 => params.limits { WtSettings.new with wtEnabled := WtSettings.one }
  -- draft 07 beside draft 14, and no initial limits: Safari refuses them here
  | .draft14 =>
    { WtSettings.new with
      wtMaxSessionsDraft14 := some params.maxSessions
      webtransportMaxSessionsDraft07 := some params.maxSessions }
  | .draft07 => { WtSettings.new with webtransportMaxSessionsDraft07 := some params.maxSessions }
  | .draft02 => { WtSettings.new with enableWebtransportDraft02 := some true }

def buildClientSettings (d : DraftVersion) (params : ServerSettingsParams) : WtSettings :=
  match d with
  | .draft17 => params.limits { WtSettings.new with wtEnabledDraft17 := WtSettings.one }
  | .draft15 => params.limits { WtSettings.new with wtEnabled := WtSettings.one }
  | .draft14 =>
    params.limits { WtSettings.new with wtMaxSessionsDraft14 := some params.maxSessions }
  | .draft07 => { WtSettings.new with webtransportMaxSessionsDraft07 := some params.maxSessions }
  | .draft02 => { WtSettings.new with enableWebtransportDraft02 := some true }

variable {p p' : ServerSettingsParams} {d v : DraftVersion}

/-- A client's settings offer their draft and no other. -/
theorem buildClientSettings_advertises :
    (d.buildClientSettings p).advertisesDraftVersion v =
      (decide (v = d) && d.offeredWith p.maxSessions) := by
  cases d <;> cases v <;>
    simp [buildClientSettings, WtSettings.advertisesDraftVersion, ServerSettingsParams.limits,
      WtSettings.new, offeredWith, WtSettings.get_pos, WtSettings.one_ne_zero]

/-- A server's settings for draft 14 offer draft 07 too. -/
theorem buildServerSettings_advertises :
    (d.buildServerSettings p).advertisesDraftVersion v =
      (decide (v = d ∨ d = .draft14 ∧ v = .draft07) && d.offeredWith p.maxSessions) := by
  cases d <;> cases v <;>
    simp [buildServerSettings, WtSettings.advertisesDraftVersion, ServerSettingsParams.limits,
      WtSettings.new, offeredWith, WtSettings.get_pos, WtSettings.one_ne_zero]

/-- The draft that both ends were built for is the one that both offer. -/
theorem built_mutual (hp : d.offeredWith p.maxSessions = true)
    (hp' : d.offeredWith p'.maxSessions = true) :
    (d.buildClientSettings p).firstMutualDraft (d.buildServerSettings p') = some d := by
  have hmutual : (fun v => (d.buildClientSettings p).advertisesDraftVersion v &&
      (d.buildServerSettings p').advertisesDraftVersion v) = fun v => decide (v = d) := by
    funext v
    rw [buildClientSettings_advertises, buildServerSettings_advertises, hp, hp']
    by_cases hv : v = d <;> simp [hv]
  unfold WtSettings.firstMutualDraft
  rw [hmutual]
  cases d <;> rfl

/-- Whether the ends declare flow control: by limits, or by a second session in draft 14, where
the server has no limits. -/
def flowControlWith (d : DraftVersion) (p p' : ServerSettingsParams) : Bool :=
  match d with
  | .draft17 | .draft15 => p.declaresLimits && p'.declaresLimits
  | .draft14 => (decide (1 < p.maxSessions.get) || p.declaresLimits) && decide (1 < p'.maxSessions.get)
  | .draft07 | .draft02 => false

theorem built_flowControl :
    (d.buildClientSettings p).flowControlEnabledWithPeer (d.buildServerSettings p') =
      d.flowControlWith p p' := by
  have hone : (WtSettings.one.get != 0) = true := by decide
  have hzero : (VarInt.zero.get != 0) = false := by decide
  cases d <;>
    simp [buildClientSettings, buildServerSettings, WtSettings.flowControlEnabledWithPeer,
      WtSettings.declaresFlowControl, ServerSettingsParams.limits, WtSettings.new, hone, hzero,
      flowControlWith, ServerSettingsParams.declaresLimits, Bool.or_assoc]

end DraftVersion

/-! ## The request -/

def ProtocolToken.fromDraftVersion : DraftVersion → ProtocolToken
  | .draft02 | .draft07 | .draft14 => .webTransport
  | .draft15 | .draft17 => .webTransportH3

namespace ProtocolToken

theorem asStr_fromDraftVersion (d : DraftVersion) : (fromDraftVersion d).asStr = d.protocolValue := by
  cases d <;> rfl

end ProtocolToken

namespace ConnectRequest

theorem hasHeader_pairs (headers : List Header) (name value : String) :
    hasHeader headers name value =
      (pairs headers).any fun field => field.1 = ofString name && field.2 = ofString value := by
  unfold hasHeader pairs
  rw [List.any_map]
  rfl

/-- The names of the fields that a request may have. -/
def fieldNames : List Bytes :=
  [":method", ":protocol", ":scheme", ":authority", ":path", "origin",
    "wt-available-protocols"].map ofString

theorem fieldPairs_names {r : ConnectRequest} {field : Bytes × Bytes} (h : field ∈ r.fieldPairs) :
    field.1 ∈ fieldNames := by
  unfold fieldPairs at h
  simp only [List.mem_append, List.mem_cons, List.not_mem_nil, or_false, List.mem_map] at h
  obtain ((rfl | rfl | rfl | rfl | rfl) | ⟨origin, -, rfl⟩) | h := h
  · simp [fieldNames]
  · simp [fieldNames]
  · simp [fieldNames]
  · simp [fieldNames]
  · simp [fieldNames]
  · simp [fieldNames]
  · split at h
    · cases h
    · rw [List.mem_singleton.mp h]
      simp [fieldNames]

section Written

variable {r : ConnectRequest} {headers : List Header} (h : r.toHeaders = .ok headers)

include h

theorem mem_written {header : Header} (hmem : header ∈ headers) :
    (header.name, header.value) ∈ r.fieldPairs := by
  rw [← pairs_toHeaders h]
  exact List.mem_map.mpr ⟨header, hmem, rfl⟩

theorem written_notForbidden : hasForbiddenCapsuleHeaders headers = false := by
  unfold hasForbiddenCapsuleHeaders
  rw [List.any_eq_false]
  intro header hmem
  have hname := fieldPairs_names (mem_written h hmem)
  have hother : ∀ n ∈ fieldNames, ¬(n = ofString "content-length" || n = ofString "content-type") = true := by
    with_unfolding_all decide
  exact hother _ hname

theorem written_isConnect : isWebtransportConnect headers = true := by
  unfold isWebtransportConnect
  rw [hasHeader_pairs, hasHeader_pairs, hasHeader_pairs, pairs_toHeaders h]
  unfold fieldPairs
  cases htoken : r.protocolToken with
  | webTransportH3 => simp [ProtocolToken.asStr]
  | webTransport => simp [ProtocolToken.asStr]

theorem written_protocol {header : Header} (hmem : header ∈ headers)
    (hname : header.name = ofString ":protocol") : header.value = r.protocolToken.asStr := by
  have hfield := mem_written h hmem
  have hother : ∀ n ∈ [":method", ":scheme", ":authority", ":path", "origin",
      "wt-available-protocols"], ofString ":protocol" ≠ ofString n := by with_unfolding_all decide
  have absurdName : ∀ n ∈ [":method", ":scheme", ":authority", ":path", "origin",
      "wt-available-protocols"], ∀ {v : Bytes},
      (header.name, header.value) = (ofString n, v) → header.value = r.protocolToken.asStr :=
    fun n hn _ heq => absurd (hname.symm.trans (Prod.mk.inj heq).1) (hother n hn)
  unfold fieldPairs at hfield
  simp only [List.mem_append, List.mem_cons, List.not_mem_nil, or_false, List.mem_map] at hfield
  obtain ((heq | heq | heq | heq | heq) | ⟨origin, -, heq⟩) | hfield := hfield
  · exact absurdName ":method" (by simp) heq
  · exact (Prod.mk.inj heq).2
  · exact absurdName ":scheme" (by simp) heq
  · exact absurdName ":authority" (by simp) heq
  · exact absurdName ":path" (by simp) heq
  · exact absurdName "origin" (by simp) heq.symm
  · split at hfield
    · cases hfield
    · exact absurdName "wt-available-protocols" (by simp) (List.mem_singleton.mp hfield)

theorem written_token : (headers.any fun f =>
    f.name = ofString ":protocol" && f.value = r.protocolToken.asStr) = true := by
  have hany : (headers.any fun f => f.name = ofString ":protocol" && f.value = r.protocolToken.asStr) =
      (pairs headers).any fun field =>
        field.1 = ofString ":protocol" && field.2 = r.protocolToken.asStr := by
    unfold pairs
    rw [List.any_map]
    rfl
  rw [hany, pairs_toHeaders h]
  unfold fieldPairs
  simp

theorem written_https (hvalid : r.validate = .ok ()) :
    hasHeader headers ":scheme" "https" = true := by
  have hscheme : r.scheme.bytes = ofString "https" := by
    unfold validate at hvalid
    split at hvalid
    · cases hvalid
    · next hscheme => exact not_not.mp hscheme
  rw [hasHeader_pairs, pairs_toHeaders h]
  unfold fieldPairs
  simp [hscheme]

end Written

end ConnectRequest

namespace Connection

theorem oneProtocol_of_written {r : ConnectRequest} {headers : List Header}
    (h : r.toHeaders = .ok headers) : OneProtocol headers := by
  intro x hx y hy hnameX hnameY
  rw [ConnectRequest.written_protocol h hx hnameX, ConnectRequest.written_protocol h hy hnameY]

/-- The settings of a client, and of a server, that were built for a draft. -/
def builtClient (s : Settings) (d : DraftVersion) (p : ServerSettingsParams) : Settings :=
  s.enableWebtransportClient (d.buildClientSettings p)

def builtServer (s : Settings) (d : DraftVersion) (p : ServerSettingsParams) : Settings :=
  s.enableWebtransportServer (d.buildServerSettings p)

end Connection

end Http3
