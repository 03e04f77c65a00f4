import Mathlib.Data.List.Forall2
import Mathlib.Data.List.Nodup
import Http3.VarInt

/-!
# SETTINGS parameters and the WebTransport draft they select

`Setting` is one known parameter with its typed value; `Settings.fromWire` and `asWire` are the
two directions of the wire form. `WtSettings` collects the WebTransport parameters and decides
which draft versions they advertise.
-/

namespace Http3

/-! ## Limits -/

/-- The limits a connection is created with. -/
structure Limits where
  maxFieldSectionSize : Nat
  qpackMaxTableCapacity : Nat
  qpackBlockedStreams : Nat
  maxReceivedBodySize : Nat
  deriving DecidableEq, Repr

def Limits.default : Limits where
  maxFieldSectionSize := 16 * 1024
  qpackMaxTableCapacity := 4096
  qpackBlockedStreams := 100
  maxReceivedBodySize := 16 * 1024 * 1024

/-! ## One parameter -/

/-- Identifiers that HTTP/2 defines and HTTP/3 reserves. -/
def isHttp2OnlyId (id : Nat) : Bool := 0x02 ≤ id && id ≤ 0x05

inductive SettingError where
  | http2OnlyId (id : VarInt)
  | invalidBooleanValue (id value : VarInt)
  | duplicateId (id : VarInt)
  deriving DecidableEq

namespace Setting

def idQpackMaxTableCapacity : Nat := 0x01
def idMaxFieldSectionSize : Nat := 0x06
def idQpackBlockedStreams : Nat := 0x07
def idEnableConnectProtocol : Nat := 0x08
def idH3Datagram : Nat := 0x33
def idWtInitialMaxData : Nat := 0x2b61
def idWtInitialMaxStreamsUni : Nat := 0x2b64
def idWtInitialMaxStreamsBidi : Nat := 0x2b65
def idEnableWebTransportDraft02 : Nat := 0x2b603742
def idWtMaxSessionsDraft14 : Nat := 0x14e9cd29
def idWtEnabled : Nat := 0x2c7cf000
def idWtEnabledDraft17 : Nat := 0x20b8933b
def idWebTransportMaxSessionsDraft07 : Nat := 0xc671706a

/-- Identifiers that `fromWire` does not leave to the last arm. -/
def isKnownId (id : Nat) : Bool :=
  isHttp2OnlyId id || [idQpackMaxTableCapacity, idMaxFieldSectionSize, idQpackBlockedStreams,
    idEnableConnectProtocol, idH3Datagram, idWtEnabled, idWtEnabledDraft17, idWtMaxSessionsDraft14,
    idEnableWebTransportDraft02, idWebTransportMaxSessionsDraft07, idWtInitialMaxData,
    idWtInitialMaxStreamsUni, idWtInitialMaxStreamsBidi].contains id

end Setting

/-- The identifier and the value of a parameter this endpoint does not know. -/
structure UnknownSetting where
  id : VarInt
  value : VarInt
  unknown : Setting.isKnownId id.get = false
  deriving DecidableEq

inductive Setting where
  | qpackMaxTableCapacity (v : VarInt)
  | maxFieldSectionSize (v : VarInt)
  | qpackBlockedStreams (v : VarInt)
  | enableConnectProtocol (b : Bool)
  | h3Datagram (b : Bool)
  | wtEnabled (v : VarInt)
  | wtEnabledDraft17 (v : VarInt)
  | wtMaxSessionsDraft14 (v : VarInt)
  | enableWebTransportDraft02 (b : Bool)
  | webTransportMaxSessionsDraft07 (v : VarInt)
  | wtInitialMaxData (v : VarInt)
  | wtInitialMaxStreamsUni (v : VarInt)
  | wtInitialMaxStreamsBidi (v : VarInt)
  | unknown (u : UnknownSetting)
  deriving DecidableEq

namespace Setting

def checkBool (id value : VarInt) : Except SettingError Bool :=
  match value.get with
  | 0 => .ok false
  | 1 => .ok true
  | _ => .error (.invalidBooleanValue id value)

def fromWire (id value : VarInt) : Except SettingError Setting :=
  let raw := id.get
  if h0 : isHttp2OnlyId raw then .error (.http2OnlyId id)
  else if h1 : raw = idQpackMaxTableCapacity then .ok (.qpackMaxTableCapacity value)
  else if h2 : raw = idMaxFieldSectionSize then .ok (.maxFieldSectionSize value)
  else if h3 : raw = idQpackBlockedStreams then .ok (.qpackBlockedStreams value)
  else if h4 : raw = idEnableConnectProtocol then (checkBool id value).map .enableConnectProtocol
  else if h5 : raw = idH3Datagram then (checkBool id value).map .h3Datagram
  else if h6 : raw = idWtEnabled then .ok (.wtEnabled value)
  else if h7 : raw = idWtEnabledDraft17 then .ok (.wtEnabledDraft17 value)
  else if h8 : raw = idWtMaxSessionsDraft14 then .ok (.wtMaxSessionsDraft14 value)
  else if h9 : raw = idEnableWebTransportDraft02 then
    (checkBool id value).map .enableWebTransportDraft02
  else if h10 : raw = idWebTransportMaxSessionsDraft07 then
    .ok (.webTransportMaxSessionsDraft07 value)
  else if h11 : raw = idWtInitialMaxData then .ok (.wtInitialMaxData value)
  else if h12 : raw = idWtInitialMaxStreamsUni then .ok (.wtInitialMaxStreamsUni value)
  else if h13 : raw = idWtInitialMaxStreamsBidi then .ok (.wtInitialMaxStreamsBidi value)
  else .ok (.unknown ⟨id, value, by
    simp only [isKnownId, Bool.or_eq_false_iff, List.contains_eq_mem, decide_eq_false_iff_not,
      List.mem_cons, List.not_mem_nil, or_false, not_or]
    exact ⟨Bool.eq_false_iff.mpr h0, h1, h2, h3, h4, h5, h6, h7, h8, h9, h10, h11, h12, h13⟩⟩)

def boolValue (b : Bool) : VarInt := if b then .fromStatic 1 VarInt.one_le_max else .zero

def asWire : Setting → VarInt × VarInt
  | qpackMaxTableCapacity v => (.fromStatic idQpackMaxTableCapacity, v)
  | maxFieldSectionSize v => (.fromStatic idMaxFieldSectionSize, v)
  | qpackBlockedStreams v => (.fromStatic idQpackBlockedStreams, v)
  | enableConnectProtocol b => (.fromStatic idEnableConnectProtocol, boolValue b)
  | h3Datagram b => (.fromStatic idH3Datagram, boolValue b)
  | wtEnabled v => (.fromStatic idWtEnabled, v)
  | wtEnabledDraft17 v => (.fromStatic idWtEnabledDraft17, v)
  | wtMaxSessionsDraft14 v => (.fromStatic idWtMaxSessionsDraft14, v)
  | enableWebTransportDraft02 b => (.fromStatic idEnableWebTransportDraft02, boolValue b)
  | webTransportMaxSessionsDraft07 v => (.fromStatic idWebTransportMaxSessionsDraft07, v)
  | wtInitialMaxData v => (.fromStatic idWtInitialMaxData, v)
  | wtInitialMaxStreamsUni v => (.fromStatic idWtInitialMaxStreamsUni, v)
  | wtInitialMaxStreamsBidi v => (.fromStatic idWtInitialMaxStreamsBidi, v)
  | unknown u => (u.id, u.value)

def id (s : Setting) : VarInt := s.asWire.1

end Setting

/-! ## Draft versions -/

inductive DraftVersion where
  | draft02
  | draft07
  | draft14
  | draft15
  | draft17
  deriving DecidableEq, Repr

namespace DraftVersion

def requiresInitialCapsuleFlowControl (d : DraftVersion) : Bool := d == draft14

def requiresEnableConnectProtocol (d : DraftVersion) : Bool :=
  d == draft07 || d == draft14 || d == draft15 || d == draft17

def requiresResetStreamAt (d : DraftVersion) : Bool := d == draft14 || d == draft15 || d == draft17

/-- The order in which a common draft is chosen, most preferred first. -/
def selectionOrder : List DraftVersion := [draft17, draft15, draft07, draft14, draft02]

end DraftVersion

/-! ## The WebTransport parameters -/

structure WtSettings where
  wtEnabled : VarInt
  wtEnabledDraft17 : VarInt
  wtInitialMaxStreamsUni : VarInt
  wtInitialMaxStreamsBidi : VarInt
  wtInitialMaxData : VarInt
  enableWebtransportDraft02 : Option Bool
  webtransportMaxSessionsDraft07 : Option VarInt
  wtMaxSessionsDraft14 : Option VarInt
  deriving DecidableEq

namespace WtSettings

def new : WtSettings where
  wtEnabled := .zero
  wtEnabledDraft17 := .zero
  wtInitialMaxStreamsUni := .zero
  wtInitialMaxStreamsBidi := .zero
  wtInitialMaxData := .zero
  enableWebtransportDraft02 := none
  webtransportMaxSessionsDraft07 := none
  wtMaxSessionsDraft14 := none

/-- One parameter of a payload; `none` when it is not a WebTransport parameter. -/
def absorb (wt : WtSettings) : Setting → Option WtSettings
  | .wtEnabled v => some { wt with wtEnabled := v }
  | .wtEnabledDraft17 v => some { wt with wtEnabledDraft17 := v }
  | .wtInitialMaxStreamsUni v => some { wt with wtInitialMaxStreamsUni := v }
  | .wtInitialMaxStreamsBidi v => some { wt with wtInitialMaxStreamsBidi := v }
  | .wtInitialMaxData v => some { wt with wtInitialMaxData := v }
  | .enableWebTransportDraft02 b => some { wt with enableWebtransportDraft02 := some b }
  | .webTransportMaxSessionsDraft07 v => some { wt with webtransportMaxSessionsDraft07 := some v }
  | .wtMaxSessionsDraft14 v => some { wt with wtMaxSessionsDraft14 := some v }
  | .qpackMaxTableCapacity _ | .maxFieldSectionSize _ | .qpackBlockedStreams _
  | .enableConnectProtocol _ | .h3Datagram _ | .unknown _ => none

def fromPayloadLoop (wt : WtSettings) (found : Bool) : List Setting → Option WtSettings
  | [] => if found then some wt else none
  | s :: rest =>
    match wt.absorb s with
    | some wt' => fromPayloadLoop wt' true rest
    | none => fromPayloadLoop wt found rest

/-- The WebTransport parameters of a payload, `none` when it has none. -/
def fromPayload (settings : List Setting) : Option WtSettings := fromPayloadLoop new false settings

def advertisesDraftVersion (wt : WtSettings) : DraftVersion → Bool
  | .draft17 => wt.wtEnabledDraft17.get > 0
  | .draft15 => wt.wtEnabled.get > 0
  | .draft14 => wt.wtMaxSessionsDraft14.any (·.get > 0)
  | .draft07 => wt.webtransportMaxSessionsDraft07.any (·.get > 0)
  | .draft02 => wt.enableWebtransportDraft02 == some true

def advertisedDraftVersions (wt : WtSettings) : List DraftVersion :=
  DraftVersion.selectionOrder.filter wt.advertisesDraftVersion

/-- The most preferred draft that both ends advertise. -/
def firstMutualDraft (wt peer : WtSettings) : Option DraftVersion :=
  DraftVersion.selectionOrder.find? fun d =>
    wt.advertisesDraftVersion d && peer.advertisesDraftVersion d

def advertisesAnyDraftVersion (wt : WtSettings) : Bool :=
  DraftVersion.selectionOrder.any wt.advertisesDraftVersion

def advertisesWtEnabled (wt : WtSettings) : Bool :=
  wt.wtEnabled.get > 0 || wt.wtEnabledDraft17.get > 0

def detectDraftPattern (wt : WtSettings) : Option DraftVersion :=
  DraftVersion.selectionOrder.find? wt.advertisesDraftVersion

def isEnabled (wt : WtSettings) : Bool := wt.advertisesAnyDraftVersion

/-- Whether the endpoint that sends these parameters means to use flow control. -/
def declaresFlowControl (wt : WtSettings) : Bool :=
  let sendsWtEnabled := wt.wtEnabled.get != 0 || wt.wtEnabledDraft17.get != 0
  let draft14MaxSessionsDeclaration :=
    !sendsWtEnabled && wt.wtMaxSessionsDraft14.any (·.get > 1)
  draft14MaxSessionsDeclaration || wt.wtInitialMaxStreamsUni.get != 0
    || wt.wtInitialMaxStreamsBidi.get != 0 || wt.wtInitialMaxData.get != 0

def flowControlEnabledWithPeer (wt peer : WtSettings) : Bool :=
  wt.declaresFlowControl && peer.declaresFlowControl

def requiresInitialCapsuleFlowControlCompat (wt : WtSettings) : Bool :=
  match wt.detectDraftPattern with
  | some .draft14 => true
  | some .draft07 =>
    wt.wtInitialMaxStreamsUni.get != 0 || wt.wtInitialMaxStreamsBidi.get != 0
      || wt.wtInitialMaxData.get != 0
  | _ => false

def nonZero (v : VarInt) (f : VarInt → Setting) : Option Setting :=
  if v ≠ .zero then some (f v) else none

def entries (wt : WtSettings) : List (Option Setting) :=
  [nonZero wt.wtEnabled .wtEnabled,
   nonZero wt.wtEnabledDraft17 .wtEnabledDraft17,
   nonZero wt.wtInitialMaxStreamsUni .wtInitialMaxStreamsUni,
   nonZero wt.wtInitialMaxStreamsBidi .wtInitialMaxStreamsBidi,
   nonZero wt.wtInitialMaxData .wtInitialMaxData,
   wt.enableWebtransportDraft02.map .enableWebTransportDraft02,
   wt.webtransportMaxSessionsDraft07.map .webTransportMaxSessionsDraft07,
   wt.wtMaxSessionsDraft14.map .wtMaxSessionsDraft14]

def iter (wt : WtSettings) : List Setting := wt.entries.filterMap fun e => e

end WtSettings

/-! ## All parameters of an endpoint -/

structure Settings where
  qpackMaxTableCapacity : Option VarInt
  maxFieldSectionSize : Option VarInt
  qpackBlockedStreams : Option VarInt
  enableConnectProtocol : Option Bool
  h3Datagram : Option Bool
  wtSettings : Option WtSettings
  deriving DecidableEq

namespace Settings

def new : Settings where
  qpackMaxTableCapacity := none
  maxFieldSectionSize := none
  qpackBlockedStreams := none
  enableConnectProtocol := none
  h3Datagram := none
  wtSettings := none

def fromLimits (limits : Limits) : Except VarIntError Settings := do
  return { new with
    qpackMaxTableCapacity := some (← VarInt.new limits.qpackMaxTableCapacity)
    maxFieldSectionSize := some (← VarInt.new limits.maxFieldSectionSize)
    qpackBlockedStreams := some (← VarInt.new limits.qpackBlockedStreams) }

def enableWebtransportServer (s : Settings) (wt : WtSettings) : Settings :=
  { s with enableConnectProtocol := some true, h3Datagram := some true, wtSettings := some wt }

def enableWebtransportClient (s : Settings) (wt : WtSettings) : Settings :=
  { s with h3Datagram := some true, wtSettings := some wt }

def isWebtransportEnabled (s : Settings) : Bool := s.wtSettings.any WtSettings.isEnabled

def absorb (s : Settings) : Setting → Settings
  | .qpackMaxTableCapacity v => { s with qpackMaxTableCapacity := some v }
  | .maxFieldSectionSize v => { s with maxFieldSectionSize := some v }
  | .qpackBlockedStreams v => { s with qpackBlockedStreams := some v }
  | .enableConnectProtocol b => { s with enableConnectProtocol := some b }
  | .h3Datagram b => { s with h3Datagram := some b }
  | _ => s

def fromPayload (payload : List Setting) : Settings :=
  { payload.foldl absorb new with wtSettings := WtSettings.fromPayload payload }

def entries (s : Settings) : List (Option Setting) :=
  [s.qpackMaxTableCapacity.map .qpackMaxTableCapacity,
   s.maxFieldSectionSize.map .maxFieldSectionSize,
   s.qpackBlockedStreams.map .qpackBlockedStreams,
   s.enableConnectProtocol.map .enableConnectProtocol,
   s.h3Datagram.map .h3Datagram]

def iter (s : Settings) : List Setting := s.entries.filterMap fun e => e

end Settings

/-! ## A payload has every identifier once -/

/-- Parameters in wire order, no identifier twice. -/
structure SettingsPayload where
  settings : List Setting
  nodup : (settings.map Setting.id).Nodup

namespace SettingsPayload

def new : SettingsPayload := ⟨[], List.nodup_nil⟩

def add (p : SettingsPayload) (s : Setting) : Except SettingError SettingsPayload :=
  if h : s.id ∈ p.settings.map Setting.id then .error (.duplicateId s.id)
  else .ok ⟨p.settings ++ [s], by
    rw [List.map_append, List.nodup_append]
    refine ⟨p.nodup, List.nodup_singleton _, ?_⟩
    rintro a ha b hb rfl
    rw [List.map_singleton, List.mem_singleton] at hb
    exact h (hb ▸ ha)⟩

theorem grease_le_max : 0x21 ≤ 2 ^ 62 - 1 := by decide

/-- The parameter that exercises the rule that unknown ones are ignored. -/
def grease : Setting := .unknown ⟨.fromStatic 0x21 grease_le_max, .zero, rfl⟩

/-- Each entry, when present, carries the identifier listed for its place. -/
theorem filterMap_ids_sublist {es : List (Option Setting)} {ids : List VarInt}
    (h : List.Forall₂ (fun e i => ∀ s ∈ e, Setting.id s = i) es ids) :
    ((es.filterMap fun e => e).map Setting.id).Sublist ids := by
  induction h with
  | nil => exact List.Sublist.refl _
  | @cons e i es ids he _ ih =>
    cases e with
    | none => exact ih.cons i
    | some s =>
      have hs : Setting.id s = i := he s rfl
      simp only [List.filterMap_cons, List.map_cons, hs]
      exact ih.cons_cons i

def h3Ids : List VarInt :=
  [.fromStatic Setting.idQpackMaxTableCapacity, .fromStatic Setting.idMaxFieldSectionSize,
   .fromStatic Setting.idQpackBlockedStreams, .fromStatic Setting.idEnableConnectProtocol,
   .fromStatic Setting.idH3Datagram]

def wtIds : List VarInt :=
  [.fromStatic Setting.idWtEnabled, .fromStatic Setting.idWtEnabledDraft17,
   .fromStatic Setting.idWtInitialMaxStreamsUni, .fromStatic Setting.idWtInitialMaxStreamsBidi,
   .fromStatic Setting.idWtInitialMaxData, .fromStatic Setting.idEnableWebTransportDraft02,
   .fromStatic Setting.idWebTransportMaxSessionsDraft07,
   .fromStatic Setting.idWtMaxSessionsDraft14]

theorem settings_iter_ids (s : Settings) : (s.iter.map Setting.id).Sublist h3Ids := by
  refine filterMap_ids_sublist ?_
  simp only [Settings.entries, h3Ids, List.forall₂_cons]
  refine ⟨?_, ?_, ?_, ?_, ?_, .nil⟩ <;> simp only [Option.mem_map] <;> rintro _ ⟨v, -, rfl⟩ <;> rfl

theorem nonZero_id {v : VarInt} {f : VarInt → Setting} {i : VarInt} (h : (f v).id = i) :
    ∀ s ∈ WtSettings.nonZero v f, Setting.id s = i := by
  intro s hs
  unfold WtSettings.nonZero at hs
  split at hs
  · cases hs; exact h
  · cases hs

theorem wtSettings_iter_ids (wt : WtSettings) : (wt.iter.map Setting.id).Sublist wtIds := by
  refine filterMap_ids_sublist ?_
  simp only [WtSettings.entries, wtIds, List.forall₂_cons]
  refine ⟨nonZero_id rfl, nonZero_id rfl, nonZero_id rfl, nonZero_id rfl, nonZero_id rfl,
    ?_, ?_, ?_, .nil⟩ <;> simp only [Option.mem_map] <;> rintro _ ⟨v, -, rfl⟩ <;> rfl

/-- What an endpoint sends: its parameters, those of WebTransport, and one unknown parameter. -/
def fromSettings (s : Settings) : SettingsPayload where
  settings := s.iter ++ (s.wtSettings.elim [] WtSettings.iter ++ [grease])
  nodup := by
    have hwt : ((s.wtSettings.elim [] WtSettings.iter).map Setting.id).Sublist wtIds := by
      cases s.wtSettings with
      | none => exact List.nil_sublist _
      | some wt => exact wtSettings_iter_ids wt
    have hall := (settings_iter_ids s).append (hwt.append (List.Sublist.refl [grease.id]))
    rw [List.map_append, List.map_append, List.map_singleton]
    exact hall.nodup (by decide)

end SettingsPayload

end Http3
