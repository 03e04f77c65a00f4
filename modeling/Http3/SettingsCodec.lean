import Http3.Codec

/-!
# Settings on the wire

An endpoint's settings become a list of parameters, the payload of a SETTINGS frame, and settings
again on the other end. All of it arrives, but for WebTransport parameters that say nothing. What the
decoder accepts has every identifier once and no value that its parameter cannot have.
-/

namespace Http3

open Bytes

/-! ## Parameters, one after another -/

namespace SettingsPayload

/-- Parameters are added in order; `none` where the code gives up. -/
def addAll (p : SettingsPayload) : List Setting → Option SettingsPayload
  | [] => some p
  | s :: rest => (p.add s).toOption.bind fun p => addAll p rest

/-- `fromSettings` as the code has it, with `none` for each of its `expect`s. -/
def fromSettingsAdding (s : Settings) : Option SettingsPayload :=
  (addAll new s.iter).bind fun payload =>
    (match s.wtSettings with
      | some wt => addAll payload wt.iter
      | none => some payload).bind fun payload =>
        (Setting.fromWire (.fromStatic 0x21 SettingsPayload.grease_le_max) .zero).toOption.bind fun grease =>
          (payload.add grease).toOption

theorem addAll_eq (p : SettingsPayload) (settings : List Setting)
    (h : ((p.settings ++ settings).map Setting.id).Nodup) :
    p.addAll settings = some ⟨p.settings ++ settings, h⟩ := by
  induction settings generalizing p with
  | nil =>
    cases p
    simp [addAll]
  | cons s settings ih =>
    have hnew : s.id ∉ p.settings.map Setting.id := by
      rw [List.map_append, List.map_cons] at h
      exact fun hmem => (List.nodup_append.mp h).2.2 _ hmem _ List.mem_cons_self rfl
    rw [addAll, add, dif_neg hnew]
    refine (ih _ (by simpa only [List.append_assoc, List.singleton_append] using h)).trans ?_
    simp only [List.append_assoc, List.singleton_append]

theorem addAll_append (p : SettingsPayload) (ss ts : List Setting) :
    p.addAll (ss ++ ts) = (p.addAll ss).bind fun p => p.addAll ts := by
  induction ss generalizing p with
  | nil => rfl
  | cons s ss ih =>
    rw [List.cons_append, addAll, addAll, Option.bind_assoc]
    congr 1
    funext p
    exact ih p

/-- No `expect` fails. -/
theorem fromSettingsAdding_eq (s : Settings) : fromSettingsAdding s = some (fromSettings s) := by
  have hall := addAll_eq new (fromSettings s).settings (fromSettings s).nodup
  have hsettings : (fromSettings s).settings =
      s.iter ++ (s.wtSettings.elim [] WtSettings.iter ++ [grease]) := rfl
  have hgrease : ∀ p : SettingsPayload, p.addAll [grease] = (p.add grease).toOption := by
    intro p
    rw [addAll]
    cases p.add grease <;> rfl
  have hcode : fromSettingsAdding s = new.addAll (fromSettings s).settings := by
    rw [hsettings, addAll_append]
    unfold fromSettingsAdding
    congr 1
    funext p
    rw [addAll_append]
    cases s.wtSettings with
    | none => exact (hgrease p).symm
    | some wt =>
      congr 1
      funext p
      exact (hgrease p).symm
  rw [hcode, hall]
  rfl

end SettingsPayload

/-! ## What SETTINGS carry -/

/-- The settings that the other end reads from the SETTINGS frame of these. -/
def Settings.exchanged (s : Settings) : Option Settings :=
  (encodeFrame (.settings (SettingsPayload.fromSettings s))).bind fun bytes =>
    match decodeFrame bytes with
    | .ok (.settings payload, _) => some (Settings.fromPayload payload.settings)
    | _ => none

namespace WtSettings

variable {wt : WtSettings} {found : Bool} {rest : List Setting}

theorem fromPayloadLoop_skip {s : Setting} (h : wt.absorb s = none) :
    fromPayloadLoop wt found (s :: rest) = fromPayloadLoop wt found rest := by
  simp only [fromPayloadLoop, h]

/-- A parameter that is left out when it is 0; `set` writes its field. -/
theorem fromPayloadLoop_nonZero (wt : WtSettings) (set : VarInt → WtSettings)
    (f : VarInt → Setting) (v : VarInt) (hset : wt.absorb (f v) = some (set v))
    (hzero : set .zero = wt) :
    fromPayloadLoop wt found ((nonZero v f).toList ++ rest) =
      fromPayloadLoop (set v) (found || decide (v ≠ .zero)) rest := by
  unfold nonZero
  by_cases hv : v = .zero
  · simp [hv, hzero]
  · simp [hv, fromPayloadLoop, hset]

/-- A parameter that is left out when it is not given. -/
theorem fromPayloadLoop_map {α : Type} (wt : WtSettings) (set : Option α → WtSettings)
    (f : α → Setting) (o : Option α) (hset : ∀ a, wt.absorb (f a) = some (set (some a)))
    (hnone : set none = wt) :
    fromPayloadLoop wt found ((o.map f).toList ++ rest) =
      fromPayloadLoop (set o) (found || o.isSome) rest := by
  cases o with
  | none => simp [hnone]
  | some a => simp [fromPayloadLoop, hset]

theorem filterMap_cons_toList (e : Option Setting) (es : List (Option Setting)) :
    (e :: es).filterMap (fun e => e) = e.toList ++ es.filterMap fun e => e := by
  cases e <;> rfl

theorem fromPayloadLoop_iter (wt : WtSettings) (rest : List Setting) :
    fromPayloadLoop new false (wt.iter ++ rest) =
      fromPayloadLoop wt (decide (wt ≠ new)) rest := by
  obtain ⟨enabled, draft17, uni, bidi, data, draft02, draft07, draft14⟩ := wt
  unfold iter entries
  simp only [filterMap_cons_toList, List.filterMap_nil, List.append_assoc, List.nil_append]
  rw [fromPayloadLoop_nonZero new
      (fun v => ⟨v, .zero, .zero, .zero, .zero, none, none, none⟩) _ _ rfl rfl,
    fromPayloadLoop_nonZero ⟨enabled, .zero, .zero, .zero, .zero, none, none, none⟩
      (fun v => ⟨enabled, v, .zero, .zero, .zero, none, none, none⟩) _ _ rfl rfl,
    fromPayloadLoop_nonZero ⟨enabled, draft17, .zero, .zero, .zero, none, none, none⟩
      (fun v => ⟨enabled, draft17, v, .zero, .zero, none, none, none⟩) _ _ rfl rfl,
    fromPayloadLoop_nonZero ⟨enabled, draft17, uni, .zero, .zero, none, none, none⟩
      (fun v => ⟨enabled, draft17, uni, v, .zero, none, none, none⟩) _ _ rfl rfl,
    fromPayloadLoop_nonZero ⟨enabled, draft17, uni, bidi, .zero, none, none, none⟩
      (fun v => ⟨enabled, draft17, uni, bidi, v, none, none, none⟩) _ _ rfl rfl,
    fromPayloadLoop_map ⟨enabled, draft17, uni, bidi, data, none, none, none⟩
      (fun o => ⟨enabled, draft17, uni, bidi, data, o, none, none⟩) _ _ (fun _ => rfl) rfl,
    fromPayloadLoop_map ⟨enabled, draft17, uni, bidi, data, draft02, none, none⟩
      (fun o => ⟨enabled, draft17, uni, bidi, data, draft02, o, none⟩) _ _ (fun _ => rfl) rfl,
    fromPayloadLoop_map ⟨enabled, draft17, uni, bidi, data, draft02, draft07, none⟩
      (fun o => ⟨enabled, draft17, uni, bidi, data, draft02, draft07, o⟩) _ _ (fun _ => rfl) rfl]
  congr 1
  rw [Bool.eq_iff_iff]
  simp only [new, ne_eq, mk.injEq, Bool.or_eq_true, decide_eq_true_eq, Bool.false_or,
    Option.isSome_iff_ne_none]
  tauto

/-- WebTransport parameters that say nothing are not received. -/
def onWire (wt : Option WtSettings) : Option WtSettings := wt.filter fun wt => wt ≠ new

theorem fromPayloadLoop_skip_all {ss : List Setting} (h : ∀ s ∈ ss, wt.absorb s = none) :
    fromPayloadLoop wt found (ss ++ rest) = fromPayloadLoop wt found rest := by
  induction ss with
  | nil => rfl
  | cons s ss ih =>
    rw [List.cons_append, fromPayloadLoop_skip (h s List.mem_cons_self)]
    exact ih fun s hs => h s (List.mem_cons_of_mem _ hs)

/-- The WebTransport parameters that SETTINGS were built from. -/
def elimIter (wt : Option WtSettings) : List Setting := wt.elim [] iter

theorem iter_mem {s : Setting} (h : s ∈ wt.iter) : (new.absorb s).isSome = true := by
  have hnonZero : ∀ {v f}, nonZero v f = some s → ∃ v, s = f v := by
    intro v f hs
    unfold nonZero at hs
    split at hs <;> cases hs
    exact ⟨v, rfl⟩
  simp only [iter, entries, List.mem_filterMap, List.mem_cons, List.not_mem_nil, or_false,
    exists_eq_right] at h
  obtain h | h | h | h | h | h | h | h := h
  all_goals
    first
    | (obtain ⟨v, rfl⟩ := hnonZero h.symm; rfl)
    | (obtain ⟨v, -, rfl⟩ := Option.map_eq_some_iff.mp h.symm; rfl)

theorem fromPayload_sent (h3 : List Setting) (h : ∀ s ∈ h3, new.absorb s = none)
    (wt : Option WtSettings) :
    fromPayload (h3 ++ (elimIter wt ++ [SettingsPayload.grease])) = onWire wt := by
  unfold fromPayload
  rw [fromPayloadLoop_skip_all h]
  cases wt with
  | none => rfl
  | some wt =>
    rw [elimIter, Option.elim_some, fromPayloadLoop_iter,
      fromPayloadLoop_skip (show wt.absorb SettingsPayload.grease = none from rfl)]
    unfold fromPayloadLoop onWire
    by_cases hwt : wt = new <;> simp [hwt, Option.filter]

end WtSettings

namespace Settings

variable {s : Settings}

theorem iter_absorb_none (s : Settings) (wt : WtSettings) : ∀ x ∈ s.iter, wt.absorb x = none := by
  intro x hx
  simp only [iter, entries, List.mem_filterMap, List.mem_cons, List.not_mem_nil, or_false,
    exists_eq_right] at hx
  obtain h | h | h | h | h := hx <;>
  · obtain ⟨v, -, rfl⟩ := Option.map_eq_some_iff.mp h.symm
    rfl

/-- Parameters of WebTransport change nothing else. -/
theorem foldl_absorb_wt {ss : List Setting}
    (h : ∀ x ∈ ss, (WtSettings.new.absorb x).isSome = true ∨ x = SettingsPayload.grease) :
    ss.foldl absorb s = s := by
  induction ss with
  | nil => rfl
  | cons x ss ih =>
    have hx : s.absorb x = s := by
      obtain hx | rfl := h x List.mem_cons_self
      · cases x <;> first | rfl | cases hx
      · rfl
    rw [List.foldl_cons, hx]
    exact ih fun y hy => h y (List.mem_cons_of_mem _ hy)

theorem foldl_absorb_iter (s : Settings) :
    s.iter.foldl absorb new = { s with wtSettings := none } := by
  obtain ⟨capacity, fieldSection, blocked, connect, datagram, wt⟩ := s
  cases capacity <;> cases fieldSection <;> cases blocked <;> cases connect <;>
    cases datagram <;> rfl

/-- The settings as the other end takes them from the parameters that are sent. -/
theorem fromPayload_fromSettings (s : Settings) :
    fromPayload (SettingsPayload.fromSettings s).settings =
      { s with wtSettings := WtSettings.onWire s.wtSettings } := by
  unfold fromPayload
  have hsent : (SettingsPayload.fromSettings s).settings =
      s.iter ++ (WtSettings.elimIter s.wtSettings ++ [SettingsPayload.grease]) := rfl
  rw [hsent, WtSettings.fromPayload_sent _ (iter_absorb_none s .new), List.foldl_append,
    foldl_absorb_iter, foldl_absorb_wt]
  intro x hx
  rw [List.mem_append, List.mem_singleton] at hx
  obtain hx | rfl := hx
  · left
    cases hwt : s.wtSettings with
    | none =>
      rw [hwt] at hx
      cases hx
    | some wt =>
      rw [hwt] at hx
      exact WtSettings.iter_mem hx
  · exact .inr rfl

/-! ## The frame of the settings -/

theorem encodeSettings_length_le (settings : List Setting) :
    (settings.flatMap fun s => s.asWire.1.encode ++ s.asWire.2.encode).length ≤
      16 * settings.length := by
  induction settings with
  | nil => exact Nat.le_refl 0
  | cons s settings ih =>
    have h1 := s.asWire.1.encodedLen_le
    have h2 := s.asWire.2.encodedLen_le
    rw [List.flatMap_cons, List.length_append, List.length_append, VarInt.encode_length,
      VarInt.encode_length, List.length_cons]
    omega

theorem fromSettings_length (s : Settings) :
    (SettingsPayload.fromSettings s).settings.length ≤ 14 := by
  have hids : ((SettingsPayload.fromSettings s).settings.map Setting.id).length ≤
      (SettingsPayload.h3Ids ++ (SettingsPayload.wtIds ++ [SettingsPayload.grease.id])).length := by
    have hwt : ((WtSettings.elimIter s.wtSettings).map Setting.id).Sublist SettingsPayload.wtIds := by
      cases s.wtSettings with
      | none => exact List.nil_sublist _
      | some wt => exact SettingsPayload.wtSettings_iter_ids wt
    have hall := (SettingsPayload.settings_iter_ids s).append
      (hwt.append (List.Sublist.refl [SettingsPayload.grease.id]))
    have hsent : (SettingsPayload.fromSettings s).settings.map Setting.id =
        s.iter.map Setting.id ++ ((WtSettings.elimIter s.wtSettings).map Setting.id ++
          [SettingsPayload.grease.id]) := by
      show (s.iter ++ (WtSettings.elimIter s.wtSettings ++ [SettingsPayload.grease])).map
        Setting.id = _
      rw [List.map_append, List.map_append, List.map_singleton]
    rw [hsent]
    exact hall.length_le
  rw [List.length_map] at hids
  exact Nat.le_trans hids (by decide)

/-- The frame of any settings is read back, whatever follows it. -/
theorem frame_read (s : Settings) :
    ∃ bytes, encodeFrame (.settings (SettingsPayload.fromSettings s)) = some bytes ∧
      ∀ suffix, decodeFrame (bytes ++ suffix) =
        .ok (.settings (SettingsPayload.fromSettings s), bytes.length) := by
  have hlen : (encodeSettings (SettingsPayload.fromSettings s)).length ≤ 2 ^ 62 - 1 := by
    have h1 := encodeSettings_length_le (SettingsPayload.fromSettings s).settings
    have h2 := fromSettings_length s
    unfold encodeSettings
    omega
  have hframe : ∃ bytes, encodeFrame (.settings (SettingsPayload.fromSettings s)) = some bytes := by
    rw [encodeFrame, encodeWithHeader_eq, VarInt.ofLength_eq, dif_pos hlen]
    exact ⟨_, rfl⟩
  obtain ⟨bytes, hbytes⟩ := hframe
  have htype : (Frame.settings (SettingsPayload.fromSettings s)).frameType.get ≠ 0x41 := by
    show (0x04 : Nat) ≠ 0x41
    decide
  exact ⟨bytes, hbytes, decodeFrame_encodeFrame htype hbytes⟩

/-- **The exchange**: everything arrives but WebTransport parameters that say nothing. -/
theorem exchanged_eq (s : Settings) :
    s.exchanged = some { s with wtSettings := WtSettings.onWire s.wtSettings } := by
  obtain ⟨bytes, hbytes, hread⟩ := frame_read s
  have hread := hread []
  rw [List.append_nil] at hread
  simp only [exchanged, hbytes, Option.bind_some, hread, fromPayload_fromSettings]

end Settings

/-! ## What the decoder accepts -/

/-- A payload as identifiers and values, one after another. -/
inductive Parameters : Bytes → List (VarInt × VarInt) → Prop where
  | nil : Parameters [] []
  | cons {payload : Bytes} {id value : VarInt} {n m : Nat} {pairs : List (VarInt × VarInt)}
      (hid : VarInt.decode payload = .ok (id, n))
      (hvalue : VarInt.decode (payload.drop n) = .ok (value, m))
      (hrest : Parameters ((payload.drop n).drop m) pairs) :
      Parameters payload ((id, value) :: pairs)

/-- The identifiers of parameters that are 0 or 1. -/
def Setting.isBooleanId (id : Nat) : Bool :=
  id == idEnableConnectProtocol || id == idH3Datagram || id == idEnableWebTransportDraft02

theorem Setting.checkBool_ok {id value : VarInt} {b : Bool} (h : checkBool id value = .ok b) :
    boolValue b = value ∧ (value.get = 0 ∨ value.get = 1) := by
  unfold checkBool at h
  split at h
  · rename_i hvalue
    cases h
    exact ⟨VarInt.eq_of_get hvalue.symm, .inl hvalue⟩
  · rename_i hvalue
    cases h
    exact ⟨VarInt.eq_of_get hvalue.symm, .inr hvalue⟩
  · cases h

theorem dite_eq_cases {α : Type} {c : Prop} [Decidable c] {f : c → α} {g : ¬c → α} {a : α}
    (h : dite c f g = a) : (∃ hc, f hc = a) ∨ ∃ hc, g hc = a := by
  by_cases hc : c
  · rw [dif_pos hc] at h
    exact .inl ⟨hc, h⟩
  · rw [dif_neg hc] at h
    exact .inr ⟨hc, h⟩

/-- A parameter is read as it stands on the wire. -/
theorem Setting.fromWire_ok {id value : VarInt} {s : Setting} (h : fromWire id value = .ok s) :
    s.asWire = (id, value) ∧ isHttp2OnlyId id.get = false ∧
      (isBooleanId id.get = true → value.get = 0 ∨ value.get = 1) := by
  have hwire : ∀ {n : Nat} (hn : n ≤ 2 ^ 62 - 1), id.get = n → VarInt.fromStatic n hn = id :=
    fun hn h => VarInt.eq_of_get h.symm
  have hplain : ∀ {n : Nat} {f : VarInt → Setting} (hn : n ≤ 2 ^ 62 - 1), id.get = n →
      (f value).asWire = (.fromStatic n hn, value) → isHttp2OnlyId n = false →
      isBooleanId n = false → .ok (f value) = (.ok s : Except SettingError Setting) →
      s.asWire = (id, value) ∧ isHttp2OnlyId id.get = false ∧
        (isBooleanId id.get = true → value.get = 0 ∨ value.get = 1) := by
    rintro n f hn hid hf hhttp2 hbool hs
    cases hs
    rw [hf, hwire hn hid, hid, hhttp2, hbool]
    exact ⟨rfl, rfl, nofun⟩
  have hbool : ∀ {n : Nat} {f : Bool → Setting} (hn : n ≤ 2 ^ 62 - 1), id.get = n →
      (∀ b, (f b).asWire = (.fromStatic n hn, boolValue b)) → isHttp2OnlyId n = false →
      (checkBool id value).map f = .ok s →
      s.asWire = (id, value) ∧ isHttp2OnlyId id.get = false ∧
        (isBooleanId id.get = true → value.get = 0 ∨ value.get = 1) := by
    intro n f hn hid hf hhttp2 hs
    cases hb : checkBool id value with
    | error e =>
      rw [hb] at hs
      cases hs
    | ok b =>
      rw [hb] at hs
      cases hs
      obtain ⟨hvalue, hrange⟩ := checkBool_ok hb
      rw [hf, hvalue, hwire hn hid, hid, hhttp2]
      exact ⟨rfl, rfl, fun _ => hrange⟩
  unfold fromWire at h
  obtain ⟨-, h⟩ | ⟨hhttp2, h⟩ := dite_eq_cases h
  · cases h
  obtain ⟨hid, h⟩ | ⟨_, h⟩ := dite_eq_cases h
  · exact hplain (by decide) hid rfl rfl rfl h
  obtain ⟨hid, h⟩ | ⟨_, h⟩ := dite_eq_cases h
  · exact hplain (by decide) hid rfl rfl rfl h
  obtain ⟨hid, h⟩ | ⟨_, h⟩ := dite_eq_cases h
  · exact hplain (by decide) hid rfl rfl rfl h
  obtain ⟨hid, h⟩ | ⟨h4, h⟩ := dite_eq_cases h
  · exact hbool (by decide) hid (fun _ => rfl) rfl h
  obtain ⟨hid, h⟩ | ⟨h5, h⟩ := dite_eq_cases h
  · exact hbool (by decide) hid (fun _ => rfl) rfl h
  obtain ⟨hid, h⟩ | ⟨_, h⟩ := dite_eq_cases h
  · exact hplain (by decide) hid rfl rfl rfl h
  obtain ⟨hid, h⟩ | ⟨_, h⟩ := dite_eq_cases h
  · exact hplain (by decide) hid rfl rfl rfl h
  obtain ⟨hid, h⟩ | ⟨_, h⟩ := dite_eq_cases h
  · exact hplain (by decide) hid rfl rfl rfl h
  obtain ⟨hid, h⟩ | ⟨h9, h⟩ := dite_eq_cases h
  · exact hbool (by decide) hid (fun _ => rfl) rfl h
  obtain ⟨hid, h⟩ | ⟨_, h⟩ := dite_eq_cases h
  · exact hplain (by decide) hid rfl rfl rfl h
  obtain ⟨hid, h⟩ | ⟨_, h⟩ := dite_eq_cases h
  · exact hplain (by decide) hid rfl rfl rfl h
  obtain ⟨hid, h⟩ | ⟨_, h⟩ := dite_eq_cases h
  · exact hplain (by decide) hid rfl rfl rfl h
  obtain ⟨hid, h⟩ | ⟨_, h⟩ := dite_eq_cases h
  · exact hplain (by decide) hid rfl rfl rfl h
  cases h
  refine ⟨rfl, Bool.eq_false_iff.mpr hhttp2, fun hboolean => ?_⟩
  simp only [isBooleanId, Bool.or_eq_true, beq_iff_eq] at hboolean
  obtain (hid | hid) | hid := hboolean
  · exact absurd hid h4
  · exact absurd hid h5
  · exact absurd hid h9

theorem decodeSettingsLoop_ok {acc p : SettingsPayload} {fuel : Nat} {payload : Bytes}
    (hfuel : payload.length ≤ fuel) (h : decodeSettingsLoop acc fuel payload = .ok p) :
    ∃ settings, p.settings = acc.settings ++ settings ∧
      Parameters payload (settings.map Setting.asWire) ∧
      ∀ s ∈ settings, Setting.fromWire s.asWire.1 s.asWire.2 = .ok s := by
  have hdone : ∀ {acc : SettingsPayload} {payload : Bytes}, payload = [] → acc = p →
      ∃ settings, p.settings = acc.settings ++ settings ∧
        Parameters payload (settings.map Setting.asWire) ∧
        ∀ s ∈ settings, Setting.fromWire s.asWire.1 s.asWire.2 = .ok s := by
    rintro _ _ rfl rfl
    exact ⟨[], (List.append_nil _).symm, .nil, fun _ hs => absurd hs List.not_mem_nil⟩
  induction fuel generalizing acc payload with
  | zero =>
    cases h
    exact hdone (List.length_eq_zero_iff.mp (Nat.le_zero.mp hfuel)) rfl
  | succ fuel ih =>
    unfold decodeSettingsLoop at h
    split at h
    · cases h
      exact hdone (List.isEmpty_iff.mp ‹_›) rfl
    split at h
    · cases h
    rename_i id n hid
    split at h
    · cases h
    rename_i value m hvalue
    split at h
    · cases h
    rename_i setting hsetting
    split at h
    · cases h
    rename_i acc' hadd
    have hpos := VarInt.decode_pos hid
    have hacc : acc'.settings = acc.settings ++ [setting] := by
      unfold SettingsPayload.add at hadd
      split at hadd
      · cases hadd
      · cases hadd
        rfl
    have hless : ((payload.drop n).drop m).length ≤ fuel := by
      simp only [List.length_drop]
      omega
    obtain ⟨settings, hsettings, hparameters, hwire⟩ := ih hless h
    refine ⟨setting :: settings, ?_, ?_, ?_⟩
    · rw [hsettings, hacc, List.append_assoc]
      rfl
    · rw [List.map_cons, (Setting.fromWire_ok hsetting).1]
      exact .cons hid hvalue hparameters
    · intro s hs
      obtain rfl | hs := List.mem_cons.mp hs
      · rw [(Setting.fromWire_ok hsetting).1]
        exact hsetting
      · exact hwire s hs

/-! ## The wire as a whole -/

/-- `expect` never fails, and the other end reads the settings back, but for WebTransport parameters
that all are zero or left out. What the decoder accepts has distinct identifiers, none of HTTP/2, and
0 or 1 for a boolean. -/
theorem settings_survive :
    (∀ s : Settings, SettingsPayload.fromSettingsAdding s = some (.fromSettings s) ∧
      ∃ bytes, encodeFrame (.settings (.fromSettings s)) = some bytes ∧
        (∀ suffix, decodeFrame (bytes ++ suffix) =
          .ok (.settings (.fromSettings s), bytes.length)) ∧
        Settings.fromPayload (SettingsPayload.fromSettings s).settings =
          { s with wtSettings := s.wtSettings.filter fun wt => wt ≠ .new }) ∧
    ∀ payload p, decodeSettingsFrame payload = .ok (.settings p) →
      ∃ pairs, Parameters payload pairs ∧ p.settings.map Setting.asWire = pairs ∧
        (pairs.map Prod.fst).Nodup ∧
        ∀ id value, (id, value) ∈ pairs → isHttp2OnlyId id.get = false ∧
          (Setting.isBooleanId id.get = true → value.get = 0 ∨ value.get = 1) := by
  refine ⟨fun s => ⟨SettingsPayload.fromSettingsAdding_eq s, ?_⟩, fun payload p h => ?_⟩
  · obtain ⟨bytes, hbytes, hread⟩ := s.frame_read
    exact ⟨bytes, hbytes, hread, s.fromPayload_fromSettings⟩
  · have hloop : decodeSettingsLoop .new payload.length payload = .ok p := by
      unfold decodeSettingsFrame at h
      cases hr : decodeSettingsLoop .new payload.length payload with
      | error e =>
        rw [hr] at h
        cases h
      | ok p' =>
        rw [hr] at h
        cases h
        rfl
    obtain ⟨settings, hsettings, hparameters, hwire⟩ := decodeSettingsLoop_ok (Nat.le_refl _) hloop
    have hp : p.settings = settings := hsettings
    refine ⟨_, hparameters, by rw [hp], ?_, fun id value hmem => ?_⟩
    · have hnodup := p.nodup
      rw [hp] at hnodup
      rwa [List.map_map]
    · obtain ⟨s, hs, hpair⟩ := List.mem_map.mp hmem
      have hread := hwire s hs
      rw [hpair] at hread
      exact (Setting.fromWire_ok hread).2

/-- A limit of no session is sent and received. -/
theorem zero_sessions_arrive :
    ¬∀ s : Settings, (∀ wt ∈ s.wtSettings, wt.advertisesAnyDraftVersion = false ∧
        ∀ x ∈ wt.iter, x.asWire.2 = .zero) →
      Settings.fromPayload (SettingsPayload.fromSettings s).settings =
        { s with wtSettings := none } := by
  intro h
  have hzero := h { Settings.new with
    wtSettings := some { WtSettings.new with wtMaxSessionsDraft14 := some .zero } }
    (by decide)
  exact absurd hzero (by decide)

end Http3
