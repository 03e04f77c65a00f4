import Http3.Authority

/-!
# Well-formed requests

What a list of fields has to satisfy to be a request, said of the list as a whole. The scan keeps
the value of each field that may come once, so the checks behind it speak about the list
(`scanRequest_ok`), and the validation accepts the well-formed requests and no others.
-/

namespace Http3.Validation

open Bytes

/-! ## The rules -/

/-- The fields that may come once. -/
inductive Single where
  | method
  | scheme
  | path
  | authority
  | protocol
  | host
  deriving DecidableEq

namespace Single

def name : Single → Bytes
  | method => ofString ":method"
  | scheme => ofString ":scheme"
  | path => ofString ":path"
  | authority => ofString ":authority"
  | protocol => ofString ":protocol"
  | host => ofString "host"

/-- The values that a list has for a field. -/
def values (s : Single) (headers : List Header) : List Bytes :=
  (headers.filter fun h => h.name = s.name).map Header.value

end Single

/-- A field that may stand in a request. -/
def FieldAllowed (h : Header) : Prop :=
  isValidFieldValue h.value = true ∧
    if isPseudo h then ∃ s, s ≠ Single.host ∧ h.name = s.name
    else isValidFieldName h.name = true ∧ h.name ∉ connectionSpecificFields ∧
      (h.name = ofString "te" → h.value = ofString "trailers")

/-- Pseudo headers come before all others. -/
def PseudoFirst (headers : List Header) : Prop :=
  headers.Pairwise fun earlier later => isPseudo later = true → isPseudo earlier = true

/-- The scheme is `http` or `https`. -/
def HttpScheme (headers : List Header) : Prop :=
  ∃ scheme ∈ Single.scheme.values headers, scheme = ofString "http" ∨ scheme = ofString "https"

/-- The three forms of a request. -/
inductive Form (headers : List Header) (method : Bytes) : Prop
  | extendedConnect (protocol scheme path : Bytes) :
      method = ofString "CONNECT" →
      protocol ∈ Single.protocol.values headers → isValidProtocol protocol = true →
      scheme ∈ Single.scheme.values headers → isValidScheme scheme = true →
      path ∈ Single.path.values headers → isValidHttpPath path method = true →
      Form headers method
  | connect (authority : Bytes) :
      method = ofString "CONNECT" → Single.protocol.values headers = [] →
      Single.scheme.values headers = [] → Single.path.values headers = [] →
      authority ∈ Single.authority.values headers → isValidConnectAuthority authority = true →
      Form headers method
  | ordinary (scheme path : Bytes) :
      method ≠ ofString "CONNECT" → Single.protocol.values headers = [] →
      scheme ∈ Single.scheme.values headers → isValidScheme scheme = true →
      path ∈ Single.path.values headers → path ≠ [] →
      (HttpScheme headers → isValidHttpPath path method = true) →
      Form headers method

/-- The authority in effect. -/
def effectiveAuthority (headers : List Header) : Option Bytes :=
  (Single.authority.values headers).head?.or (Single.host.values headers).head?

structure WellFormedRequest (headers : List Header) : Prop where
  order : PseudoFirst headers
  fields : ∀ h ∈ headers, FieldAllowed h
  once : ∀ s : Single, (s.values headers).length ≤ 1
  form : ∃ method ∈ Single.method.values headers, isToken method = true ∧ Form headers method
  authorityGiven : HttpScheme headers → effectiveAuthority headers ≠ none
  agree : ∀ a ∈ Single.authority.values headers, ∀ h ∈ Single.host.values headers, a = h
  notEmpty : [] ∉ Single.authority.values headers ∧ [] ∉ Single.host.values headers
  inEffect : ∀ a ∈ effectiveAuthority headers, isValidAuthority a = true

/-! ## The fields that were kept -/

theorem require_bind {α : Type} {c : Bool} {f : Unit → Except Error α} {a : α} :
    (require c >>= f) = .ok a ↔ c = true ∧ f () = .ok a := by
  cases c with
  | false => exact iff_of_false nofun fun h => nomatch h.1
  | true => exact (and_iff_right rfl).symm

theorem pure_ok {α : Type} {a b : α} : (pure a : Except Error α) = .ok b ↔ b = a :=
  ⟨fun h => (Except.ok.inj h).symm, fun h => congrArg Except.ok h.symm⟩

theorem require_ok {c : Bool} : require c = .ok () ↔ c = true := by
  cases c with
  | false => exact iff_of_false nofun nofun
  | true => exact iff_of_true rfl rfl

namespace RequestFields

def get (f : RequestFields) : Single → Option Bytes
  | .method => f.method
  | .scheme => f.scheme
  | .path => f.path
  | .authority => f.authority
  | .protocol => f.protocol
  | .host => f.host

def set (f : RequestFields) (s : Single) (value : Bytes) : RequestFields :=
  match s with
  | .method => { f with method := some value }
  | .scheme => { f with scheme := some value }
  | .path => { f with path := some value }
  | .authority => { f with authority := some value }
  | .protocol => { f with protocol := some value }
  | .host => { f with host := some value }

theorem get_set (f : RequestFields) (s t : Single) (value : Bytes) :
    (f.set s value).get t = if t = s then some value else f.get t := by
  cases s <;> cases t <;> rfl

@[simp] theorem pseudoDone_set (f : RequestFields) (s : Single) (value : Bytes) :
    (f.set s value).pseudoDone = f.pseudoDone := by
  cases s <;> rfl

def setDone (f : RequestFields) (done : Bool) : RequestFields := { f with pseudoDone := done }

@[simp] theorem get_setDone (f : RequestFields) (done : Bool) (s : Single) :
    (f.setDone done).get s = f.get s := by
  cases s <;> rfl

@[simp] theorem pseudoDone_setDone (f : RequestFields) (done : Bool) :
    (f.setDone done).pseudoDone = done := rfl

theorem ext_get {f g : RequestFields} (h : ∀ s, f.get s = g.get s)
    (hdone : f.pseudoDone = g.pseudoDone) : f = g := by
  obtain ⟨m, s, p, a, pr, ho, d⟩ := f
  obtain ⟨m', s', p', a', pr', ho', d'⟩ := g
  obtain rfl : m = m' := h .method
  obtain rfl : s = s' := h .scheme
  obtain rfl : p = p' := h .path
  obtain rfl : a = a' := h .authority
  obtain rfl : pr = pr' := h .protocol
  obtain rfl : ho = ho' := h .host
  obtain rfl : d = d' := hdone
  rfl

end RequestFields

theorem Single.name_inj {s t : Single} : s.name = t.name ↔ s = t := by
  constructor
  · cases s <;> cases t <;> first | exact fun _ => rfl | exact fun h => absurd h (by with_unfolding_all decide)
  · rintro rfl
    rfl

theorem isPseudo_single {h : Header} {s : Single} (hname : h.name = s.name) :
    isPseudo h = true ↔ s ≠ .host := by
  rw [isPseudo, hname]
  cases s <;> with_unfolding_all decide

theorem scanPseudo_ok {f g : RequestFields} {h : Header} :
    scanPseudo f h = .ok g ↔ f.pseudoDone = false ∧ isValidFieldValue h.value = true ∧
      ∃ s, s ≠ .host ∧ h.name = Single.name s ∧ f.get s = none ∧ g = f.set s h.value := by
  have names : scanPseudo f h = (do
      require (!f.pseudoDone)
      require (isValidFieldValue h.value)
      if h.name = Single.method.name then
        require f.method.isNone
        return f.set .method h.value
      else if h.name = Single.scheme.name then
        require f.scheme.isNone
        return f.set .scheme h.value
      else if h.name = Single.path.name then
        require f.path.isNone
        return f.set .path h.value
      else if h.name = Single.authority.name then
        require f.authority.isNone
        return f.set .authority h.value
      else if h.name = Single.protocol.name then
        require f.protocol.isNone
        return f.set .protocol h.value
      else throw messageError) := rfl
  rw [names, require_bind, require_bind, Bool.not_eq_true']
  refine and_congr_right fun _ => and_congr_right fun _ => ?_
  have kept : ∀ s, s ≠ .host → h.name = Single.name s →
      (require (f.get s).isNone >>= fun _ => pure (f.set s h.value)) = .ok g →
      ∃ s, s ≠ .host ∧ h.name = Single.name s ∧ f.get s = none ∧ g = f.set s h.value := by
    intro s hs hname hg
    rw [require_bind, pure_ok, Option.isNone_iff_eq_none] at hg
    exact ⟨s, hs, hname, hg⟩
  constructor
  · intro hs
    split at hs
    · next hname => exact kept .method nofun hname hs
    split at hs
    · next hname => exact kept .scheme nofun hname hs
    split at hs
    · next hname => exact kept .path nofun hname hs
    split at hs
    · next hname => exact kept .authority nofun hname hs
    split at hs
    · next hname => exact kept .protocol nofun hname hs
    · cases hs
  · rintro ⟨s, hs, hname, hnone, rfl⟩
    simp only [hname, Single.name_inj]
    cases s with
    | host => exact absurd rfl hs
    | _ =>
      simp only [reduceCtorEq, if_true, if_false, require_bind, pure_ok, Option.isNone_iff_eq_none,
        and_true]
      exact hnone

theorem scanRegular_ok {f g : RequestFields} {h : Header} :
    scanRegular f h = .ok g ↔ isValidFieldValue h.value = true ∧
      (isValidFieldName h.name = true ∧ h.name ∉ connectionSpecificFields ∧
        (h.name = ofString "te" → h.value = ofString "trailers")) ∧
      ((h.name = Single.host.name ∧ f.get .host = none ∧
          g = (f.set .host h.value).setDone true) ∨
        (h.name ≠ Single.host.name ∧ g = f.setDone true)) := by
  have hte : (!(h.name == ofString "te" && h.value != ofString "trailers")) = true ↔
      (h.name = ofString "te" → h.value = ofString "trailers") := by
    simp only [Bool.not_eq_true', Bool.and_eq_false_imp, beq_iff_eq, bne_eq_false_iff_eq]
  unfold scanRegular
  simp only [require_bind, hte, Bool.not_eq_true', List.contains_eq_mem, decide_eq_false_iff_not]
  constructor
  · rintro ⟨hname, hconn, htrailers, hvalue, hs⟩
    refine ⟨hvalue, ⟨hname, hconn, htrailers⟩, ?_⟩
    split at hs
    · next hhost =>
      rw [require_bind, Option.isNone_iff_eq_none, pure_ok] at hs
      exact .inl ⟨hhost, hs⟩
    · next hhost => exact .inr ⟨hhost, pure_ok.mp hs⟩
  · rintro ⟨hvalue, ⟨hname, hconn, htrailers⟩, ⟨hhost, hnone, rfl⟩ | ⟨hhost, rfl⟩⟩
    · refine ⟨hname, hconn, htrailers, hvalue, ?_⟩
      rw [if_pos (show h.name = ofString "host" from hhost), require_bind, Option.isNone_iff_eq_none]
      exact ⟨hnone, rfl⟩
    · refine ⟨hname, hconn, htrailers, hvalue, ?_⟩
      rw [if_neg (show h.name ≠ ofString "host" from hhost)]
      rfl

/-! ## What the scan keeps -/

theorem Single.values_cons (s : Single) (h : Header) (rest : List Header) :
    s.values (h :: rest) = s.values [h] ++ s.values rest := by
  unfold values
  rw [← List.map_append, ← List.filter_append, List.singleton_append]

theorem Single.values_of_name {s : Single} {h : Header} (hname : h.name = s.name) (t : Single) :
    t.values [h] = if t = s then [h.value] else [] := by
  unfold values
  by_cases ht : t = s
  · subst ht
    simp only [List.filter_cons, hname, decide_true, if_true, List.filter_nil, List.map_cons,
      List.map_nil]
  · have hne : ¬ h.name = t.name := fun he =>
      ht (Single.name_inj.mp (he.symm.trans hname))
    simp only [List.filter_cons, hne, decide_false, Bool.false_eq_true, if_false, ht,
      List.filter_nil, List.map_nil]

theorem Single.values_of_other {h : Header} (hname : ∀ s : Single, h.name ≠ s.name) (t : Single) :
    t.values [h] = [] := by
  unfold values
  simp only [List.filter_cons, hname t, decide_false, Bool.false_eq_true, if_false, List.filter_nil,
    List.map_nil]

theorem toList_inj {a b : Option Bytes} (h : a.toList = b.toList) : a = b := by
  cases a with
  | none =>
    cases b with
    | none => rfl
    | some w => cases h
  | some v =>
    cases b with
    | none => cases h
    | some w => exact congrArg some (List.cons.inj h).1

/-- What was kept of a list of fields, each at most once. -/
def Keeps (f : RequestFields) (headers : List Header) (g : RequestFields) : Prop :=
  (∀ s, (g.get s).toList = (f.get s).toList ++ s.values headers) ∧
    g.pseudoDone = (f.pseudoDone || headers.any (!isPseudo ·))

theorem keeps_single {f g : RequestFields} {h : Header} {s : Single} (hname : h.name = s.name) :
    Keeps f [h] g ↔
      f.get s = none ∧ g = (f.set s h.value).setDone (f.pseudoDone || !isPseudo h) := by
  constructor
  · rintro ⟨hget, hdone⟩
    have hs := hget s
    rw [Single.values_of_name hname, if_pos rfl] at hs
    have hnone : f.get s = none := by
      cases hf : f.get s with
      | none => rfl
      | some v =>
        rw [hf] at hs
        cases hg : g.get s with
        | none =>
          rw [hg] at hs
          cases hs
        | some w =>
          rw [hg] at hs
          cases hs
    refine ⟨hnone, RequestFields.ext_get (fun t => toList_inj ?_) ?_⟩
    · rw [hget t, Single.values_of_name hname, RequestFields.get_setDone, RequestFields.get_set]
      by_cases ht : t = s
      · subst ht
        rw [if_pos rfl, if_pos rfl, hnone]
        rfl
      · rw [if_neg ht, if_neg ht, List.append_nil]
    · simpa using hdone
  · rintro ⟨hnone, rfl⟩
    refine ⟨fun t => ?_, by simp⟩
    rw [Single.values_of_name hname, RequestFields.get_setDone, RequestFields.get_set]
    by_cases ht : t = s
    · subst ht
      rw [if_pos rfl, if_pos rfl, hnone]
      rfl
    · rw [if_neg ht, if_neg ht, List.append_nil]

theorem keeps_other {f g : RequestFields} {h : Header} (hname : ∀ s : Single, h.name ≠ s.name) :
    Keeps f [h] g ↔ g = f.setDone (f.pseudoDone || !isPseudo h) := by
  constructor
  · rintro ⟨hget, hdone⟩
    refine RequestFields.ext_get (fun t => toList_inj ?_) ?_
    · rw [hget t, Single.values_of_other hname, List.append_nil, RequestFields.get_setDone]
    · simpa using hdone
  · rintro rfl
    refine ⟨fun t => ?_, by simp⟩
    rw [Single.values_of_other hname, List.append_nil, RequestFields.get_setDone]

theorem keeps_cons {f g : RequestFields} {h : Header} {rest : List Header} :
    Keeps f (h :: rest) g ↔ ∃ m, Keeps f [h] m ∧ Keeps m rest g := by
  have hany : ∀ done : Bool, (done || (h :: rest).any (!isPseudo ·)) =
      ((done || !isPseudo h) || rest.any (!isPseudo ·)) := by
    intro done
    rw [List.any_cons, Bool.or_assoc]
  constructor
  · rintro ⟨hget, hdone⟩
    rw [hany] at hdone
    by_cases hname : ∃ s : Single, h.name = s.name
    · obtain ⟨s, hname⟩ := hname
      have hnone : f.get s = none := by
        have hs := congrArg List.length (hget s)
        rw [Single.values_cons, Single.values_of_name hname, if_pos rfl] at hs
        simp only [List.length_append, List.length_singleton] at hs
        have hle : (g.get s).toList.length ≤ 1 := by
          cases g.get s <;> simp
        cases hf : f.get s with
        | none => rfl
        | some v =>
          rw [hf] at hs
          simp only [Option.toList_some, List.length_singleton] at hs
          omega
      refine ⟨(f.set s h.value).setDone (f.pseudoDone || !isPseudo h),
        (keeps_single hname).mpr ⟨hnone, rfl⟩, fun t => ?_, hdone⟩
      rw [hget t, Single.values_cons, Single.values_of_name hname, RequestFields.get_setDone,
        RequestFields.get_set]
      by_cases ht : t = s
      · subst ht
        rw [if_pos rfl, if_pos rfl, hnone]
        rfl
      · rw [if_neg ht, if_neg ht, List.nil_append]
    · have hname : ∀ s : Single, h.name ≠ s.name := fun s hs => hname ⟨s, hs⟩
      refine ⟨f.setDone (f.pseudoDone || !isPseudo h), (keeps_other hname).mpr rfl, fun t => ?_,
        hdone⟩
      rw [hget t, Single.values_cons, Single.values_of_other hname, List.nil_append,
        RequestFields.get_setDone]
  · rintro ⟨m, ⟨hget, hdone⟩, hget', hdone'⟩
    refine ⟨fun s => ?_, ?_⟩
    · rw [hget' s, hget s, Single.values_cons s h rest, List.append_assoc]
    · rw [hdone', hdone, hany, List.any_cons, List.any_nil, Bool.or_false]

/-- One field of the scan. -/
theorem scanField_ok {f g : RequestFields} {h : Header} :
    (if isPseudo h then scanPseudo f h else scanRegular f h) = .ok g ↔
      FieldAllowed h ∧ (isPseudo h = true → f.pseudoDone = false) ∧ Keeps f [h] g := by
  unfold FieldAllowed
  cases hpseudo : isPseudo h with
  | true =>
    rw [if_pos rfl, if_pos rfl, scanPseudo_ok]
    constructor
    · rintro ⟨hdone, hvalue, s, hs, hname, hnone, rfl⟩
      refine ⟨⟨hvalue, s, hs, hname⟩, fun _ => hdone, (keeps_single hname).mpr ⟨hnone, ?_⟩⟩
      refine RequestFields.ext_get (fun t => (RequestFields.get_setDone _ _ t).symm) ?_
      rw [RequestFields.pseudoDone_set, RequestFields.pseudoDone_setDone, hpseudo, hdone]
      rfl
    · rintro ⟨⟨hvalue, s, hs, hname⟩, hdone, hkeep⟩
      obtain ⟨hnone, rfl⟩ := (keeps_single hname).mp hkeep
      refine ⟨hdone rfl, hvalue, s, hs, hname, hnone, ?_⟩
      refine RequestFields.ext_get (RequestFields.get_setDone _ _) ?_
      rw [RequestFields.pseudoDone_set, RequestFields.pseudoDone_setDone, hpseudo, hdone rfl]
      rfl
  | false =>
    have hother : h.name ≠ Single.host.name → ∀ s : Single, h.name ≠ s.name := by
      rintro hhost s hname
      have hs : ¬ s ≠ .host := fun hne => by
        rw [(isPseudo_single hname).mpr hne] at hpseudo
        cases hpseudo
      rw [Classical.not_not.mp hs] at hname
      exact hhost hname
    have hmark : (f.pseudoDone || !isPseudo h) = true := by
      rw [hpseudo]
      exact Bool.or_true _
    rw [if_neg Bool.false_ne_true, if_neg Bool.false_ne_true, scanRegular_ok]
    constructor
    · rintro ⟨hvalue, hregular, ⟨hhost, hnone, rfl⟩ | ⟨hhost, rfl⟩⟩
      · refine ⟨⟨hvalue, hregular⟩, nofun, (keeps_single hhost).mpr ⟨hnone, ?_⟩⟩
        rw [hmark]
      · refine ⟨⟨hvalue, hregular⟩, nofun, (keeps_other (hother hhost)).mpr ?_⟩
        rw [hmark]
    · rintro ⟨⟨hvalue, hregular⟩, -, hkeep⟩
      refine ⟨hvalue, hregular, ?_⟩
      by_cases hhost : h.name = Single.host.name
      · obtain ⟨hnone, hg⟩ := (keeps_single hhost).mp hkeep
        rw [hmark] at hg
        exact .inl ⟨hhost, hnone, hg⟩
      · have hg := (keeps_other (hother hhost)).mp hkeep
        rw [hmark] at hg
        exact .inr ⟨hhost, hg⟩

theorem scanRequest_cons {f g : RequestFields} {h : Header} {rest : List Header} :
    scanRequest f (h :: rest) = .ok g ↔
      ∃ m, (if isPseudo h then scanPseudo f h else scanRegular f h) = .ok m ∧
        scanRequest m rest = .ok g := by
  rw [scanRequest]
  constructor
  · intro hs
    split at hs
    · cases hs
    · next m hm => exact ⟨m, hm, hs⟩
  · rintro ⟨m, hm, hs⟩
    rw [hm]
    exact hs

/-- The whole scan: the induction is on the list, and what was kept of its front is `f`. -/
theorem scanRequest_ok {f g : RequestFields} {headers : List Header} :
    scanRequest f headers = .ok g ↔
      PseudoFirst headers ∧ (f.pseudoDone = true → ∀ h ∈ headers, isPseudo h = false) ∧
        (∀ h ∈ headers, FieldAllowed h) ∧ Keeps f headers g := by
  induction headers generalizing f with
  | nil =>
    constructor
    · intro hs
      obtain rfl := Except.ok.inj hs
      exact ⟨List.Pairwise.nil, fun _ => nofun, nofun,
        fun s => (List.append_nil _).symm, (Bool.or_false _).symm⟩
    · rintro ⟨-, -, -, hget, hdone⟩
      refine congrArg Except.ok (RequestFields.ext_get (fun s => toList_inj ?_) ?_)
      · rw [hget s]
        exact (List.append_nil _).symm
      · rw [hdone]
        exact (Bool.or_false _).symm
  | cons h rest ih =>
    rw [scanRequest_cons, keeps_cons]
    have hpair : PseudoFirst (h :: rest) ↔
        (∀ later ∈ rest, isPseudo later = true → isPseudo h = true) ∧ PseudoFirst rest :=
      List.pairwise_cons
    rw [hpair]
    simp only [scanField_ok, ih, List.forall_mem_cons]
    constructor
    · rintro ⟨m, ⟨hallowed, hdone, hkeep⟩, hpairs, hrest, hall, hkeep'⟩
      have hm : m.pseudoDone = (f.pseudoDone || !isPseudo h) := by
        rw [hkeep.2, List.any_cons, List.any_nil, Bool.or_false]
      refine ⟨⟨fun later hlater hp => ?_, hpairs⟩, fun hf => ⟨?_, ?_⟩, ⟨hallowed, hall⟩, m, hkeep,
        hkeep'⟩
      · by_contra hnot
        rw [Bool.not_eq_true] at hnot
        rw [hrest (by rw [hm, hnot]; exact Bool.or_true _) later hlater] at hp
        cases hp
      · cases hpseudo : isPseudo h with
        | false => rfl
        | true =>
          rw [hdone hpseudo] at hf
          cases hf
      · exact hrest (by rw [hm, hf]; rfl)
    · rintro ⟨⟨hfirst, hpairs⟩, hdone, ⟨hallowed, hall⟩, m, hkeep, hkeep'⟩
      have hm : m.pseudoDone = (f.pseudoDone || !isPseudo h) := by
        rw [hkeep.2, List.any_cons, List.any_nil, Bool.or_false]
      refine ⟨m, ⟨hallowed, fun hp => ?_, hkeep⟩, hpairs, fun hmdone later hlater => ?_, hall, hkeep'⟩
      · cases hf : f.pseudoDone with
        | false => rfl
        | true =>
          rw [(hdone hf).1] at hp
          cases hp
      · cases hp : isPseudo later with
        | false => rfl
        | true =>
          rw [hm, hfirst later hlater hp, Bool.not_true, Bool.or_false] at hmdone
          rw [(hdone hmdone).2 later hlater] at hp
          cases hp

/-! ## The checks behind the scan -/

section Checks

variable {f : RequestFields} {method : Bytes}

theorem checkExtendedConnect_ok : checkExtendedConnect f method = .ok () ↔
    (f.scheme.isSome && f.path.isSome) = true ∧ f.protocol.all isValidProtocol = true ∧
    f.scheme.all isValidScheme = true ∧ f.path.all (isValidHttpPath · method) = true ∧
    (!(isHttpScheme f.scheme && f.authority.isNone && f.host.isNone)) = true ∧
    (!conflicts f.authority f.host) = true ∧ f.authority.all (!·.isEmpty) = true ∧
    f.host.all (!·.isEmpty) = true := by
  simp only [checkExtendedConnect, require_bind, require_ok]

theorem checkPlainConnect_ok : checkPlainConnect f = .ok () ↔
    (f.scheme.isNone && f.path.isNone) = true ∧
      ∃ a, f.authority = some a ∧ isValidConnectAuthority a = true := by
  simp only [checkPlainConnect, require_bind]
  refine and_congr_right fun _ => ?_
  cases f.authority with
  | none => exact iff_of_false nofun fun ⟨_, h, _⟩ => nomatch h
  | some a => simp only [require_ok, Option.some.injEq, exists_eq_left']

theorem checkOrdinary_ok : checkOrdinary f method = .ok () ↔
    f.protocol.isNone = true ∧ (f.scheme.isSome && f.path.isSome) = true ∧
    f.scheme.all isValidScheme = true ∧ f.path.all (!·.isEmpty) = true ∧
    (f.path.all fun p => !isHttpScheme f.scheme || isValidHttpPath p method) = true ∧
    (!(isHttpScheme f.scheme && f.authority.isNone && f.host.isNone)) = true := by
  simp only [checkOrdinary, require_bind, require_ok]

theorem checkAuthority_ok : checkAuthority f method = .ok () ↔
    (!conflicts f.authority f.host) = true ∧
    (f.authority.all fun a => !a.isEmpty || method == ofString "CONNECT") = true ∧
    f.host.all (!·.isEmpty) = true ∧
    (f.authority.isSome || f.host.all isValidAuthority) = true ∧
    (!isHttpScheme f.scheme || f.authority.all (!·.contains 0x40)) = true ∧
    ((method == ofString "CONNECT" && f.protocol.isNone) ||
      f.authority.all isValidAuthority) = true := by
  simp only [checkAuthority, require_bind, require_ok]

theorem validateRequestHeaders_ok {headers : List Header} :
    validateRequestHeaders headers = .ok () ↔
      ∃ f, scanRequest .empty headers = .ok f ∧ ∃ method, f.method = some method ∧
        isToken method = true ∧
        (if method = ofString "CONNECT" then
          if f.protocol.isSome then checkExtendedConnect f method else checkPlainConnect f
        else checkOrdinary f method) = .ok () ∧
        checkAuthority f method = .ok () := by
  rw [validateRequestHeaders]
  cases scanRequest .empty headers with
  | error e => exact iff_of_false nofun fun ⟨_, h, _⟩ => nomatch h
  | ok f =>
    have hbind : ∀ k : RequestFields → Except Error Unit, (Except.ok f >>= k) = k f := fun _ => rfl
    have hseq : ∀ a b : Except Error Unit, (a >>= fun _ => b) = .ok () ↔ a = .ok () ∧ b = .ok () := by
      intro a b
      cases a with
      | error e => exact iff_of_false nofun fun h => nomatch h.1
      | ok u => exact (and_iff_right rfl).symm
    rw [hbind]
    simp only [Except.ok.injEq, exists_eq_left']
    cases hm : f.method with
    | none => exact iff_of_false nofun fun ⟨_, h, _⟩ => nomatch h
    | some method =>
      simp only [Option.some.injEq, exists_eq_left']
      rw [require_bind, isValidMethod]
      refine and_congr_right fun _ => ?_
      split
      · split
        · exact hseq _ _
        · exact hseq _ _
      · exact hseq _ _

end Checks

/-! ## The whole list -/

/-- What is left of the rules when the fields are in order, allowed and single. -/
structure Rules (headers : List Header) : Prop where
  form : ∃ method ∈ Single.method.values headers, isToken method = true ∧ Form headers method
  authorityGiven : HttpScheme headers → effectiveAuthority headers ≠ none
  agree : ∀ a ∈ Single.authority.values headers, ∀ h ∈ Single.host.values headers, a = h
  notEmpty : [] ∉ Single.authority.values headers ∧ [] ∉ Single.host.values headers
  inEffect : ∀ a ∈ effectiveAuthority headers, isValidAuthority a = true

section Kept

variable {f : RequestFields} {headers : List Header}

theorem keeps_values (h : Keeps .empty headers f) (s : Single) :
    s.values headers = (f.get s).toList := by
  have hs := h.1 s
  have hempty : RequestFields.empty.get s = none := by
    cases s <;> rfl
  rw [hempty] at hs
  exact hs.symm

/-- A list in which no field comes twice can be kept. -/
theorem exists_keeps (h : ∀ s : Single, (s.values headers).length ≤ 1) :
    ∃ f, Keeps .empty headers f := by
  have hlist : ∀ l : List Bytes, l.length ≤ 1 → l.head?.toList = l := by
    intro l hl
    cases l with
    | nil => rfl
    | cons v rest =>
      cases rest with
      | nil => rfl
      | cons w rest => exact absurd hl (by simp)
  let first := fun s : Single => (s.values headers).head?
  refine ⟨⟨first .method, first .scheme, first .path, first .authority, first .protocol,
    first .host, headers.any (!isPseudo ·)⟩, fun s => ?_, rfl⟩
  cases s <;> exact hlist _ (h _)

variable (hv : ∀ s : Single, s.values headers = (f.get s).toList)

include hv

theorem mem_values (s : Single) (v : Bytes) : v ∈ s.values headers ↔ f.get s = some v := by
  rw [hv s, Option.mem_toList]

theorem values_nil (s : Single) : s.values headers = [] ↔ f.get s = none := by
  rw [hv s]
  cases f.get s with
  | none => exact iff_of_true rfl rfl
  | some v => exact iff_of_false nofun nofun

theorem effectiveAuthority_eq : effectiveAuthority headers = f.authority.or f.host := by
  have hhead : ∀ o : Option Bytes, o.toList.head? = o := fun o => by
    cases o <;> rfl
  rw [effectiveAuthority, hv, hv, hhead, hhead]
  rfl

theorem httpScheme_iff : HttpScheme headers ↔ isHttpScheme f.scheme = true := by
  unfold HttpScheme
  simp only [mem_values hv]
  change (∃ scheme, f.scheme = some scheme ∧ _) ↔ _
  unfold isHttpScheme
  cases f.scheme with
  | none => exact iff_of_false (fun ⟨_, h, _⟩ => nomatch h) nofun
  | some scheme => simp

theorem form_of_checks {method : Bytes}
    (h : (if method = ofString "CONNECT" then
      if f.protocol.isSome then checkExtendedConnect f method else checkPlainConnect f
      else checkOrdinary f method) = .ok ()) : Form headers method := by
  have mem : ∀ (s : Single) (v : Bytes), f.get s = some v → v ∈ s.values headers := fun s v =>
    (mem_values hv s v).mpr
  have nil : ∀ s : Single, f.get s = none → s.values headers = [] := fun s => (values_nil hv s).mpr
  split at h
  · next hconnect =>
    split at h
    · next hprotocol =>
      obtain ⟨hsome, hp, hs, hq, -⟩ := checkExtendedConnect_ok.mp h
      rw [Bool.and_eq_true] at hsome
      obtain ⟨protocol, hprotocol⟩ := Option.isSome_iff_exists.mp hprotocol
      obtain ⟨scheme, hscheme⟩ := Option.isSome_iff_exists.mp hsome.1
      obtain ⟨path, hpath⟩ := Option.isSome_iff_exists.mp hsome.2
      rw [hprotocol] at hp
      rw [hscheme] at hs
      rw [hpath] at hq
      exact .extendedConnect protocol scheme path hconnect (mem .protocol _ hprotocol) hp
        (mem .scheme _ hscheme) hs (mem .path _ hpath) hq
    · next hprotocol =>
      obtain ⟨hnone, authority, hauthority, hvalid⟩ := checkPlainConnect_ok.mp h
      rw [Bool.and_eq_true, Option.isNone_iff_eq_none, Option.isNone_iff_eq_none] at hnone
      rw [Option.not_isSome_iff_eq_none] at hprotocol
      exact .connect authority hconnect (nil .protocol hprotocol) (nil .scheme hnone.1)
        (nil .path hnone.2) (mem .authority _ hauthority) hvalid
  · next hconnect =>
    obtain ⟨hnone, hsome, hs, hne, hq, -⟩ := checkOrdinary_ok.mp h
    rw [Bool.and_eq_true] at hsome
    obtain ⟨scheme, hscheme⟩ := Option.isSome_iff_exists.mp hsome.1
    obtain ⟨path, hpath⟩ := Option.isSome_iff_exists.mp hsome.2
    rw [Option.isNone_iff_eq_none] at hnone
    rw [hpath] at hne hq
    refine .ordinary scheme path hconnect (nil .protocol hnone) (mem .scheme _ hscheme) ?_
      (mem .path _ hpath) ?_ fun hhttp => ?_
    · rw [hscheme] at hs
      exact hs
    · simpa using hne
    · rw [httpScheme_iff hv] at hhttp
      rw [hhttp] at hq
      exact hq

theorem rules_of_checks {method : Bytes} (hm : f.method = some method)
    (htoken : isToken method = true)
    (hform : (if method = ofString "CONNECT" then
      if f.protocol.isSome then checkExtendedConnect f method else checkPlainConnect f
      else checkOrdinary f method) = .ok ())
    (hauth : checkAuthority f method = .ok ()) : Rules headers := by
  obtain ⟨hconf, hane, hhne, hheff, -, haeff⟩ := checkAuthority_ok.mp hauth
  have hplain : method = ofString "CONNECT" → f.protocol = none → checkPlainConnect f = .ok () := by
    intro hconnect hprotocol
    rw [if_pos hconnect, if_neg (by rw [hprotocol]; exact nofun)] at hform
    exact hform
  have hvalid : ∀ a, f.authority = some a → isValidAuthority a = true := by
    intro a ha
    rw [Bool.or_eq_true, Bool.and_eq_true, beq_iff_eq, Option.isNone_iff_eq_none] at haeff
    obtain ⟨hconnect, hprotocol⟩ | haeff := haeff
    · obtain ⟨-, a', ha', hconn⟩ := checkPlainConnect_ok.mp (hplain hconnect hprotocol)
      rw [ha] at ha'
      obtain rfl := Option.some.inj ha'
      exact isValidAuthority_of_connect hconn
    · rw [ha] at haeff
      exact haeff
  have hhost : ∀ h, f.host = some h → h ≠ [] := by
    intro h hh
    rw [hh] at hhne
    simpa using hhne
  refine ⟨⟨method, (mem_values hv .method _).mpr hm, htoken, form_of_checks hv hform⟩, fun hhttp => ?_,
    fun a ha h hh => ?_, ⟨fun ha => ?_, fun hh => ?_⟩, fun a ha => ?_⟩
  · rw [effectiveAuthority_eq hv]
    rw [httpScheme_iff hv] at hhttp
    have hgiven : (!(isHttpScheme f.scheme && f.authority.isNone && f.host.isNone)) = true := by
      split at hform
      · split at hform
        · exact (checkExtendedConnect_ok.mp hform).2.2.2.2.1
        · obtain ⟨hnone, -⟩ := checkPlainConnect_ok.mp hform
          rw [Bool.and_eq_true, Option.isNone_iff_eq_none] at hnone
          rw [hnone.1] at hhttp
          cases hhttp
      · exact (checkOrdinary_ok.mp hform).2.2.2.2.2
    rw [hhttp] at hgiven
    intro hnone
    obtain ⟨ha, hh⟩ := Option.or_eq_none_iff.mp hnone
    rw [ha, hh] at hgiven
    cases hgiven
  · have ha := (mem_values hv .authority a).mp ha
    have hh := (mem_values hv .host h).mp hh
    change f.authority = some a at ha
    change f.host = some h at hh
    rw [ha, hh] at hconf
    simpa [conflicts] using hconf
  · have ha := (mem_values hv .authority []).mp ha
    exact absurd (hvalid [] ha) nofun
  · exact hhost [] ((mem_values hv .host []).mp hh) rfl
  · rw [effectiveAuthority_eq hv, Option.mem_def, Option.or_eq_some_iff] at ha
    obtain ha | ⟨hnone, hh⟩ := ha
    · exact hvalid a ha
    · rw [hnone, hh] at hheff
      exact hheff

section FromRules

variable (hrules : Rules headers)

include hrules

theorem authorityGiven_of_rules :
    (!(isHttpScheme f.scheme && f.authority.isNone && f.host.isNone)) = true := by
  have hgiven := hrules.authorityGiven
  rw [httpScheme_iff hv, effectiveAuthority_eq hv] at hgiven
  cases hs : isHttpScheme f.scheme with
  | false => rfl
  | true =>
    have hne := hgiven hs
    rw [ne_eq, Option.or_eq_none_iff, not_and_or] at hne
    cases ha : f.authority with
    | some a => rfl
    | none =>
      cases hh : f.host with
      | some h => rfl
      | none =>
        rw [ha, hh] at hne
        exact absurd hne (by simp)

theorem not_conflicts_of_rules : (!conflicts f.authority f.host) = true := by
  cases ha : f.authority with
  | none => rfl
  | some a =>
    cases hh : f.host with
    | none => rfl
    | some h =>
      have heq := hrules.agree a ((mem_values hv .authority a).mpr ha) h
        ((mem_values hv .host h).mpr hh)
      simpa [conflicts] using heq

theorem authority_notEmpty : f.authority.all (!·.isEmpty) = true := by
  cases ha : f.authority with
  | none => rfl
  | some a =>
    refine Bool.not_eq_true' _ |>.mpr (List.isEmpty_eq_false_iff.mpr ?_)
    rintro rfl
    exact hrules.notEmpty.1 ((mem_values hv .authority []).mpr ha)

theorem host_notEmpty : f.host.all (!·.isEmpty) = true := by
  cases hh : f.host with
  | none => rfl
  | some h =>
    refine Bool.not_eq_true' _ |>.mpr (List.isEmpty_eq_false_iff.mpr ?_)
    rintro rfl
    exact hrules.notEmpty.2 ((mem_values hv .host []).mpr hh)

theorem inEffect_of_rules {a : Bytes} (ha : f.authority.or f.host = some a) :
    isValidAuthority a = true := by
  refine hrules.inEffect a ?_
  rw [effectiveAuthority_eq hv]
  exact ha

theorem checkAuthority_of_rules (method : Bytes) : checkAuthority f method = .ok () := by
  have hvalid : f.authority.all isValidAuthority = true := by
    cases ha : f.authority with
    | none => rfl
    | some a => exact inEffect_of_rules hv hrules (by rw [ha]; rfl)
  refine checkAuthority_ok.mpr ⟨not_conflicts_of_rules hv hrules, ?_, host_notEmpty hv hrules, ?_, ?_,
    ?_⟩
  · have hne := authority_notEmpty hv hrules
    cases ha : f.authority with
    | none => rfl
    | some a =>
      rw [ha] at hne
      simp only [Option.all_some] at hne ⊢
      rw [hne]
      rfl
  · cases ha : f.authority with
    | some a => rfl
    | none =>
      cases hh : f.host with
      | none => rfl
      | some h => exact inEffect_of_rules hv hrules (by rw [ha, hh]; rfl)
  · cases ha : f.authority with
    | none => exact Bool.or_true _
    | some a =>
      rw [ha] at hvalid
      have hat : a.contains 0x40 = false := by
        rw [List.contains_eq_mem, decide_eq_false_iff_not]
        exact at_notMem_of_authority hvalid
      rw [Option.all_some, hat]
      exact Bool.or_true _
  · rw [hvalid]
    exact Bool.or_true _

theorem checks_of_form {method : Bytes} (hform : Form headers method) :
    (if method = ofString "CONNECT" then
      if f.protocol.isSome then checkExtendedConnect f method else checkPlainConnect f
      else checkOrdinary f method) = .ok () := by
  have get : ∀ (s : Single) (v : Bytes), v ∈ s.values headers → f.get s = some v := fun s v =>
    (mem_values hv s v).mp
  have hgiven := authorityGiven_of_rules hv hrules
  cases hform with
  | extendedConnect protocol scheme path hconnect hp hp' hs hs' hq hq' =>
    have hp := get .protocol _ hp
    have hs := get .scheme _ hs
    have hq := get .path _ hq
    change f.protocol = some protocol at hp
    change f.scheme = some scheme at hs
    change f.path = some path at hq
    rw [if_pos hconnect, if_pos (by rw [hp]; rfl), checkExtendedConnect_ok]
    refine ⟨by rw [hs, hq]; rfl, by rw [hp]; exact hp', by rw [hs]; exact hs', by rw [hq]; exact hq',
      hgiven, not_conflicts_of_rules hv hrules, authority_notEmpty hv hrules,
      host_notEmpty hv hrules⟩
  | connect authority hconnect hp hs hq ha ha' =>
    have hp := (values_nil hv .protocol).mp hp
    have hs := (values_nil hv .scheme).mp hs
    have hq := (values_nil hv .path).mp hq
    change f.protocol = none at hp
    change f.scheme = none at hs
    change f.path = none at hq
    rw [if_pos hconnect, if_neg (by rw [hp]; exact nofun), checkPlainConnect_ok]
    exact ⟨by rw [hs, hq]; rfl, authority, get .authority _ ha, ha'⟩
  | ordinary scheme path hconnect hp hs hs' hq hq' hhttp =>
    have hp := (values_nil hv .protocol).mp hp
    have hs := get .scheme _ hs
    have hq := get .path _ hq
    change f.protocol = none at hp
    change f.scheme = some scheme at hs
    change f.path = some path at hq
    rw [httpScheme_iff hv] at hhttp
    rw [if_neg hconnect, checkOrdinary_ok]
    refine ⟨by rw [hp]; rfl, by rw [hs, hq]; rfl, by rw [hs]; exact hs', ?_, ?_, hgiven⟩
    · rw [hq]
      exact Bool.not_eq_true' _ |>.mpr (List.isEmpty_eq_false_iff.mpr hq')
    · rw [hq]
      cases hh : isHttpScheme f.scheme with
      | false => rfl
      | true =>
        simp only [Option.all_some, Bool.not_true, Bool.false_or]
        exact hhttp hh

end FromRules

end Kept

/-- The validation accepts the well-formed requests and no others. So a request for `http` or
`https` has an authority in effect, which is not empty and has no user information. -/
theorem request_rules (headers : List Header) :
    (validateRequestHeaders headers = .ok () ↔ WellFormedRequest headers) ∧
    (validateRequestHeaders headers = .ok () → HttpScheme headers →
      ∃ a, effectiveAuthority headers = some a ∧ a ≠ [] ∧ isValidAuthority a = true ∧ 0x40 ∉ a) := by
  have hiff : validateRequestHeaders headers = .ok () ↔ WellFormedRequest headers := by
    rw [validateRequestHeaders_ok]
    constructor
    · rintro ⟨f, hscan, method, hm, htoken, hform, hauth⟩
      obtain ⟨horder, -, hfields, hkeep⟩ := scanRequest_ok.mp hscan
      have hv := keeps_values hkeep
      obtain ⟨form, given, agree, notEmpty, inEffect⟩ := rules_of_checks hv hm htoken hform hauth
      refine ⟨horder, hfields, fun s => ?_, form, given, agree, notEmpty, inEffect⟩
      rw [hv s]
      cases f.get s with
      | none => exact Nat.zero_le 1
      | some v => exact Nat.le_refl 1
    · intro h
      obtain ⟨f, hkeep⟩ := exists_keeps h.once
      have hv := keeps_values hkeep
      have hrules : Rules headers :=
        ⟨h.form, h.authorityGiven, h.agree, h.notEmpty, h.inEffect⟩
      obtain ⟨method, hm, htoken, hform⟩ := h.form
      exact ⟨f, scanRequest_ok.mpr ⟨h.order, nofun, h.fields, hkeep⟩, method,
        (mem_values hv .method method).mp hm, htoken, checks_of_form hv hrules hform,
        checkAuthority_of_rules hv hrules method⟩
  refine ⟨hiff, fun hok hhttp => ?_⟩
  have h := hiff.mp hok
  obtain ⟨a, ha⟩ := Option.ne_none_iff_exists'.mp (h.authorityGiven hhttp)
  have hvalid := h.inEffect a ha
  refine ⟨a, ha, ?_, hvalid, at_notMem_of_authority hvalid⟩
  rintro rfl
  cases hvalid

end Http3.Validation
