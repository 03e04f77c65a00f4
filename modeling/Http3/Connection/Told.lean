import Http3.Connection.OtherStreams
import Http3.RequestRules

/-!
# What is told of a message

The events of a stream tell its field sections and its data. Whether a message is as long as it
says can be read off them, so that neither the division of the bytes nor the QPACK table matters.
-/

namespace Http3

/-- What the events tell of one stream. -/
structure Told where
  /-- the section that is being told -/
  fields : List Header
  /-- the last header section; trailers are none -/
  block : List Header
  /-- the length of all data -/
  body : Nat
  deriving DecidableEq

namespace Told

def new : Told := ⟨[], [], 0⟩

/-- Trailers have no pseudo headers, header sections have one. -/
def hear (s : Nat) (t : Told) : Obs → Told
  | .event (.headersBegin x) => if x = s then { t with fields := [] } else t
  | .event (.header x name value) =>
    if x = s then { t with fields := t.fields ++ [⟨name, value, false⟩] } else t
  | .event (.headersEnd x) =>
    if x = s ∧ t.fields.any Validation.isPseudo then { t with block := t.fields } else t
  | .event (.data x data) => if x = s then { t with body := t.body + data.length } else t
  | _ => t

end Told

/-- The values of the fields that give a length. -/
def lengths (block : List Header) : List Bytes :=
  (block.filter fun h => h.name = Bytes.ofString "content-length").map Header.value

/-- Some responses have no body, whatever length they give. -/
def isBodiless (role : Role) (head : Bool) (block : List Header) : Bool :=
  role = .client && (head || isNoBodyStatus block)

/-- The length is given at most once, as a number of 64 bits, and it is that of the body. -/
structure Intact (role : Role) (head : Bool) (t : Told) : Prop where
  single : (lengths t.block).length ≤ 1
  right : ∀ v ∈ lengths t.block, ∃ n, Validation.parseU64 v = some n ∧
    (isBodiless role head t.block = false → n = t.body)

namespace Connection

open Proc

/-! ## The check -/

theorem scanContentLength_ok (found : Option Nat) (headers : List Header) (r : Option Nat) :
    Validation.scanContentLength found headers = .ok r ↔
      (lengths headers = [] ∧ r = found) ∨
        ∃ v n, found = none ∧ lengths headers = [v] ∧ Validation.parseU64 v = some n ∧
          r = some n := by
  induction headers generalizing found with
  | nil => simp [Validation.scanContentLength, lengths, eq_comm]
  | cons h rest ih =>
    unfold Validation.scanContentLength
    by_cases hname : h.name = Bytes.ofString "content-length"
    · have hcons : lengths (h :: rest) = h.value :: lengths rest := by
        simp [lengths, hname]
      rw [if_pos hname, hcons]
      cases found with
      | some n => simp
      | none =>
        rw [if_neg (show ¬(none : Option Nat).isSome = true from Bool.false_ne_true)]
        cases hvalue : Validation.parseU64 h.value with
        | none =>
          refine iff_of_false nofun ?_
          rintro (⟨h, -⟩ | ⟨v, n, -, hv, hn, -⟩)
          · cases h
          · obtain ⟨rfl, -⟩ := List.cons.inj hv
            rw [hvalue] at hn
            cases hn
        | some n =>
          refine (ih (some n)).trans ?_
          constructor
          · rintro (⟨hnil, rfl⟩ | ⟨v, m, hnone, -⟩)
            · exact .inr ⟨h.value, n, rfl, by rw [hnil], hvalue, rfl⟩
            · cases hnone
          · rintro (⟨h, -⟩ | ⟨v, m, -, hv, hm, rfl⟩)
            · cases h
            · obtain ⟨rfl, hnil⟩ := List.cons.inj hv
              rw [hvalue] at hm
              exact .inl ⟨hnil, hm.symm⟩
    · have hcons : lengths (h :: rest) = lengths rest := by
        simp [lengths, hname]
      rw [if_neg hname, hcons, ih]

theorem validateContentLength_ok {headers : List Header} {n : Nat} {skip : Bool} :
    Validation.validateContentLength headers n skip = .ok () ↔
      (lengths headers).length ≤ 1 ∧ ∀ v ∈ lengths headers, ∃ m,
        Validation.parseU64 v = some m ∧ (skip = false → m = n) := by
  unfold Validation.validateContentLength
  cases hscan : Validation.scanContentLength none headers with
  | error e =>
    refine iff_of_false nofun ?_
    rintro ⟨hsingle, hright⟩
    have hr : ∃ r, Validation.scanContentLength none headers = .ok r := by
      cases hl : lengths headers with
      | nil => exact ⟨none, (scanContentLength_ok _ _ _).mpr (.inl ⟨hl, rfl⟩)⟩
      | cons v rest =>
        rw [hl] at hsingle hright
        obtain rfl : rest = [] := List.length_eq_zero_iff.mp (by simpa using hsingle)
        obtain ⟨m, hm, -⟩ := hright v List.mem_cons_self
        exact ⟨some m, (scanContentLength_ok _ _ _).mpr (.inr ⟨v, m, rfl, hl, hm, rfl⟩)⟩
    obtain ⟨r, hr⟩ := hr
    rw [hscan] at hr
    cases hr
  | ok r =>
    obtain ⟨hnil, rfl⟩ | ⟨v, m, -, hv, hm, rfl⟩ := (scanContentLength_ok _ _ _).mp hscan
    · rw [hnil]
      exact iff_of_true rfl ⟨Nat.zero_le 1, fun v hv => absurd hv List.not_mem_nil⟩
    · change Validation.require (skip || m == n) = .ok () ↔ _
      rw [Validation.require_ok, hv]
      simp only [List.length_singleton, Nat.le_refl, List.mem_singleton, forall_eq, hm,
        Option.some.injEq, true_and, exists_eq_left']
      cases skip <;> simp

/-- Any error of the check is the same one. -/
theorem validateContentLength_error {headers : List Header} {n : Nat} {skip : Bool} {e : Error}
    (h : Validation.validateContentLength headers n skip = .error e) : e = messageError := by
  have hscan : ∀ (found : Option Nat) (headers : List Header) (e : Error),
      Validation.scanContentLength found headers = .error e → e = messageError := by
    intro found headers
    induction headers generalizing found with
    | nil => nofun
    | cons h rest ih =>
      intro e he
      unfold Validation.scanContentLength at he
      split at he
      · split at he
        · cases he
          rfl
        · split at he
          · cases he
            rfl
          · exact ih _ e he
      · exact ih _ e he
  unfold Validation.validateContentLength at h
  cases hs : Validation.scanContentLength none headers with
  | error e' =>
    rw [hs] at h
    cases h
    exact hscan none headers e hs
  | ok r =>
    rw [hs] at h
    cases r with
    | none => cases h
    | some m =>
      change Validation.require (skip || m == n) = .error e at h
      unfold Validation.require at h
      split at h
      · cases h
      · cases h
        rfl

/-! ## What the events tell -/

/-- A field as the events tell it. -/
def asTold (h : Header) : Header := ⟨h.name, h.value, false⟩

theorem lengths_told (headers : List Header) :
    lengths (headers.map asTold) = lengths headers := by
  rw [lengths, List.filter_map, List.map_map]
  rfl

theorem isNoBodyStatus_told (headers : List Header) :
    isNoBodyStatus (headers.map asTold) = isNoBodyStatus headers := by
  have hfind : (headers.map asTold).find? (fun h => h.name = Bytes.ofString ":status") =
      (headers.find? fun h => h.name = Bytes.ofString ":status").map asTold := by
    rw [List.find?_map]
    rfl
  unfold isNoBodyStatus statusCode
  rw [hfind]
  cases headers.find? fun h => h.name = Bytes.ofString ":status" <;> rfl

theorem any_isPseudo_told (headers : List Header) :
    (headers.map asTold).any Validation.isPseudo = headers.any Validation.isPseudo := by
  rw [List.any_map]
  rfl

/-- Events of other streams tell nothing. -/
theorem hear_other {s : Nat} {w : Obs} (h : w.isOf s = false) (t : Told) : t.hear s w = t := by
  rcases w with e | _ | _ | _ | _ | _
  · cases e with
    | headersBegin x | header x name value | data x data =>
      have hne : x ≠ s := beq_eq_false_iff_ne.mp h
      simp only [Told.hear, if_neg hne]
    | headersEnd x =>
      have hne : x ≠ s := beq_eq_false_iff_ne.mp h
      simp only [Told.hear, if_neg fun hand : x = s ∧ _ => hne hand.1]
    | _ => rfl
  all_goals rfl

theorem hear_others {s : Nat} {o : List Obs} (h : ∀ w ∈ o, w.isOf s = false) (t : Told) :
    o.foldl (Told.hear s) t = t := by
  induction o with
  | nil => rfl
  | cons w o ih =>
    rw [List.foldl_cons, hear_other (h w List.mem_cons_self)]
    exact ih fun v hv => h v (List.mem_cons_of_mem w hv)

/-- A section, told field by field. -/
theorem hear_section (s : Nat) (headers : List Header) (t : Told) :
    (headerEvents s headers).foldl (Told.hear s) t =
      { t with
        fields := headers.map asTold
        block := if headers.any Validation.isPseudo then headers.map asTold else t.block } := by
  have hfields : ∀ (l : List Header) (u : Told),
      (l.map fun h => Obs.event (.header s h.name h.value)).foldl (Told.hear s) u =
        { u with fields := u.fields ++ l.map asTold } := by
    intro l
    induction l with
    | nil =>
      intro u
      simp
    | cons h l ih =>
      intro u
      rw [List.map_cons, List.foldl_cons, ih]
      simp [Told.hear, asTold]
  rw [headerEvents, List.cons_append, List.foldl_cons, List.foldl_append, hfields]
  simp only [List.foldl_cons, List.foldl_nil, Told.hear, if_true, List.nil_append, true_and,
    any_isPseudo_told]
  split <;> rfl

/-- A header section that is valid has a pseudo header. -/
theorem any_isPseudo_of_valid {headers : List Header} {role : Role}
    (h : Validation.validateHeaders headers role = .ok ()) :
    headers.any Validation.isPseudo = true := by
  cases role with
  | server =>
    obtain ⟨f, hscan, method, hm, -⟩ := Validation.validateRequestHeaders_ok.mp h
    have hkeep := (Validation.scanRequest_ok.mp hscan).2.2.2
    have hvalues := Validation.keeps_values hkeep .method
    have hmem : method ∈ Validation.Single.method.values headers := by
      rw [hvalues]
      exact Option.mem_toList.mpr hm
    obtain ⟨field, hfield, -⟩ := List.mem_map.mp hmem
    obtain ⟨hin, hname⟩ := List.mem_filter.mp hfield
    have hmethod : field.name = Bytes.ofString ":method" := of_decide_eq_true hname
    refine List.any_eq_true.mpr ⟨field, hin, ?_⟩
    rw [Validation.isPseudo, hmethod]
    decide +kernel
  | client =>
    have hscan : ∀ (status done : Bool) (l : List Header),
        Validation.scanResponse status done l = .ok true →
        status = true ∨ l.any Validation.isPseudo = true := by
      intro status done l
      induction l generalizing status done with
      | nil =>
        intro hl
        exact .inl (Except.ok.inj hl)
      | cons field l ih =>
        intro hl
        cases hpseudo : Validation.isPseudo field with
        | true => exact .inr (by rw [List.any_cons, hpseudo, Bool.true_or])
        | false =>
          rw [List.any_cons, hpseudo, Bool.false_or]
          unfold Validation.scanResponse at hl
          rw [hpseudo, if_neg Bool.false_ne_true] at hl
          split at hl
          · cases hl
          · exact ih _ _ hl
    change (Validation.scanResponse false false headers >>= Validation.require) = .ok () at h
    cases hs : Validation.scanResponse false false headers with
    | error e =>
      rw [hs] at h
      cases h
    | ok status =>
      rw [hs] at h
      obtain rfl : status = true := Validation.require_ok.mp h
      exact (hscan false false headers hs).resolve_left Bool.false_ne_true

theorem any_isPseudo_of_trailers {headers : List Header}
    (h : Validation.validateTrailerHeaders headers = .ok ()) :
    headers.any Validation.isPseudo = false := by
  induction headers with
  | nil => rfl
  | cons field l ih =>
    unfold Validation.validateTrailerHeaders at h
    split at h
    · cases h
    · rename_i hpseudo
      split at h
      · cases h
      · rw [List.any_cons, Bool.eq_false_iff.mpr hpseudo, Bool.false_or]
        exact ih h

end Connection

end Http3
