import Http3.Header
import Http3.WebTransport.SfLists

/-!
# The CONNECT request of WebTransport

`to_headers` writes a request as fields and `from_headers` reads fields as a request. The list of
protocols is written as a List of Strings, so it comes back when it is read as one: when no
protocol has a comma.
-/

namespace Http3

open Bytes

inductive ProtocolToken where
  | webTransportH3
  | webTransport
  deriving DecidableEq

namespace ProtocolToken

def asStr : ProtocolToken → Bytes
  | webTransportH3 => ofString "webtransport-h3"
  | webTransport => ofString "webtransport"

def fromBytes (value : Bytes) : Option ProtocolToken :=
  if value = ofString "webtransport-h3" then some webTransportH3
  else if value = ofString "webtransport" then some webTransport
  else none

theorem fromBytes_asStr (t : ProtocolToken) : fromBytes t.asStr = some t := by
  cases t <;> with_unfolding_all decide

end ProtocolToken

inductive ConnectError where
  | invalidScheme
  | missingAuthority
  | missingPath
  | invalidMethod
  | invalidProtocol
  | invalidEncoding
  deriving DecidableEq

/-- A string, as its bytes. -/
structure Text where
  bytes : Bytes
  isUtf8 : Utf8.isValid bytes = true
  deriving DecidableEq

namespace Text

def empty : Text := ⟨[], rfl⟩

def fromUtf8 (value : Bytes) : Except ConnectError Text :=
  if h : Utf8.isValid value = true then .ok ⟨value, h⟩ else .error .invalidEncoding

theorem fromUtf8_bytes (t : Text) : fromUtf8 t.bytes = .ok t := dif_pos t.isUtf8

end Text

structure ConnectRequest where
  protocolToken : ProtocolToken
  scheme : Text
  authority : Text
  path : Text
  origin : Option Text
  availableProtocols : List Bytes
  deriving DecidableEq

namespace ConnectRequest

/-! ## Reading -/

/-- What the fields have said so far. -/
structure Fields where
  method : Option Bytes
  protocol : Option Bytes
  scheme : Option Text
  authority : Option Text
  path : Option Text
  origin : Option Text
  wtAvailableProtocols : Option Text
  seenRegular : Bool
  deriving DecidableEq

def Fields.empty : Fields := ⟨none, none, none, none, none, none, none, false⟩

/-- A pseudo header may come once. -/
def once {α : Type} (o : Option α) : Except ConnectError Unit :=
  if o.isSome then .error .invalidEncoding else .ok ()

def readField (f : Fields) (name value : Bytes) : Except ConnectError Fields :=
  let isPseudo := name.head? == some 0x3a
  if isPseudo && f.seenRegular then .error .invalidEncoding
  else
    let f := { f with seenRegular := f.seenRegular || !isPseudo }
    if name = ofString ":method" then do
      once f.method
      return { f with method := some value }
    else if name = ofString ":protocol" then do
      once f.protocol
      return { f with protocol := some value }
    else if name = ofString ":scheme" then do
      once f.scheme
      return { f with scheme := some (← Text.fromUtf8 value) }
    else if name = ofString ":authority" then do
      once f.authority
      return { f with authority := some (← Text.fromUtf8 value) }
    else if name = ofString ":path" then do
      once f.path
      return { f with path := some (← Text.fromUtf8 value) }
    else if name = ofString "origin" then do
      return { f with origin := some (← Text.fromUtf8 value) }
    else if name = ofString "wt-available-protocols" then do
      return { f with wtAvailableProtocols := some (← Text.fromUtf8 value) }
    else .ok f

def readFields : Fields → List (Bytes × Bytes) → Except ConnectError Fields
  | f, [] => .ok f
  | f, (name, value) :: rest =>
    match readField f name value with
    | .error e => .error e
    | .ok f => readFields f rest

/-- What the fields make together. -/
def Fields.request (f : Fields) : Except ConnectError ConnectRequest :=
  if f.method ≠ some (ofString "CONNECT") then .error .invalidMethod
  else
    match f.protocol.bind ProtocolToken.fromBytes with
    | none => .error .invalidProtocol
    | some protocolToken =>
      .ok {
        protocolToken
        scheme := f.scheme.getD .empty
        authority := f.authority.getD .empty
        path := f.path.getD .empty
        origin := f.origin
        availableProtocols :=
          match f.wtAvailableProtocols with
          | some value => SfParser.parseSfListStrings value.bytes
          | none => [] }

def fromHeaders (headers : List (Bytes × Bytes)) : Except ConnectError ConnectRequest := do
  let f ← readFields .empty headers
  f.request

/-! ## Writing -/

/-- Write some bytes in place of one. -/
def replaceByte (b : UInt8) (written s : Bytes) : Bytes :=
  s.flatMap fun x => if x = b then written else [x]

def quote (p : Bytes) : Bytes :=
  0x22 :: (replaceByte 0x22 [0x5c, 0x22] (replaceByte 0x5c [0x5c, 0x5c] p) ++ [0x22])

def joinProtocols (protocols : List Bytes) : Bytes :=
  [0x2c, 0x20].intercalate (protocols.map quote)

def originField : Option Text → Except HeaderError (List Header)
  | none => .ok []
  | some origin => (Header.new (ofString "origin") origin.bytes).map ([·])

def protocolsField (protocols : List Bytes) : Except HeaderError (List Header) :=
  if protocols.isEmpty then .ok []
  else (Header.new (ofString "wt-available-protocols") (joinProtocols protocols)).map ([·])

def toHeaders (r : ConnectRequest) : Except HeaderError (List Header) := do
  let method ← Header.new (ofString ":method") (ofString "CONNECT")
  let protocol ← Header.new (ofString ":protocol") r.protocolToken.asStr
  let scheme ← Header.new (ofString ":scheme") r.scheme.bytes
  let authority ← Header.new (ofString ":authority") r.authority.bytes
  let path ← Header.new (ofString ":path") r.path.bytes
  let origin ← originField r.origin
  let protocols ← protocolsField r.availableProtocols
  return [method, protocol, scheme, authority, path] ++ origin ++ protocols

/-- What a server requires of a request that was read. -/
def validate (r : ConnectRequest) : Except ConnectError Unit :=
  if r.scheme.bytes ≠ ofString "https" then .error .invalidScheme
  else if r.authority.bytes.isEmpty then .error .missingAuthority
  else if r.path.bytes.isEmpty then .error .missingPath
  else .ok ()

/-- The fields as `from_headers` takes them. -/
def pairs (headers : List Header) : List (Bytes × Bytes) :=
  headers.map fun h => (h.name, h.value)

/-! ## The last offer counts -/

theorem bind_inv {ε α β : Type} {x : Except ε α} {f : α → Except ε β} {b : β}
    (h : (x >>= f) = .ok b) : ∃ a, x = .ok a ∧ f a = .ok b := by
  cases x with
  | error e => cases h
  | ok a => exact ⟨a, rfl, h⟩

/-- The values of the fields that offer protocols. -/
def offers (headers : List (Bytes × Bytes)) : List Bytes :=
  (headers.filter fun field => field.1 = ofString "wt-available-protocols").map Prod.snd

theorem fromUtf8_inv {value : Bytes} {t : Text} (h : Text.fromUtf8 value = .ok t) :
    t.bytes = value := by
  unfold Text.fromUtf8 at h
  split at h
  · rw [← Except.ok.inj h]
  · cases h

theorem readField_offer {f g : Fields} {name value : Bytes} (h : readField f name value = .ok g) :
    g.wtAvailableProtocols.map Text.bytes =
      if name = ofString "wt-available-protocols" then some value
      else f.wtAvailableProtocols.map Text.bytes := by
  have other : ∀ n, n ≠ ofString "wt-available-protocols" → name = n →
      g.wtAvailableProtocols = f.wtAvailableProtocols →
      g.wtAvailableProtocols.map Text.bytes =
        if name = ofString "wt-available-protocols" then some value
        else f.wtAvailableProtocols.map Text.bytes := by
    rintro n hn rfl hg
    rw [if_neg hn, hg]
  unfold readField at h
  dsimp only at h
  split at h
  · cases h
  split at h
  · next hname =>
    obtain ⟨-, -, h⟩ := bind_inv h
    exact other _ (by with_unfolding_all decide) hname (by rw [← Except.ok.inj h])
  split at h
  · next hname =>
    obtain ⟨-, -, h⟩ := bind_inv h
    exact other _ (by with_unfolding_all decide) hname (by rw [← Except.ok.inj h])
  split at h
  · next hname =>
    obtain ⟨-, -, h⟩ := bind_inv h
    obtain ⟨t, -, h⟩ := bind_inv h
    exact other _ (by with_unfolding_all decide) hname (by rw [← Except.ok.inj h])
  split at h
  · next hname =>
    obtain ⟨-, -, h⟩ := bind_inv h
    obtain ⟨t, -, h⟩ := bind_inv h
    exact other _ (by with_unfolding_all decide) hname (by rw [← Except.ok.inj h])
  split at h
  · next hname =>
    obtain ⟨-, -, h⟩ := bind_inv h
    obtain ⟨t, -, h⟩ := bind_inv h
    exact other _ (by with_unfolding_all decide) hname (by rw [← Except.ok.inj h])
  split at h
  · next hname =>
    obtain ⟨t, -, h⟩ := bind_inv h
    exact other _ (by with_unfolding_all decide) hname (by rw [← Except.ok.inj h])
  split at h
  · next hname =>
    obtain ⟨t, ht, h⟩ := bind_inv h
    rw [← Except.ok.inj h, if_pos hname, Option.map_some, fromUtf8_inv ht]
  · next hname => rw [← Except.ok.inj h, if_neg hname]

theorem offers_cons (name value : Bytes) (rest : List (Bytes × Bytes)) :
    offers ((name, value) :: rest) =
      if name = ofString "wt-available-protocols" then value :: offers rest else offers rest := by
  unfold offers
  rw [List.filter_cons]
  by_cases hname : name = ofString "wt-available-protocols"
  · rw [if_pos (decide_eq_true hname), if_pos hname, List.map_cons]
  · rw [if_neg (by simpa using hname), if_neg hname]

theorem readFields_offer {f g : Fields} {headers : List (Bytes × Bytes)}
    (h : readFields f headers = .ok g) :
    g.wtAvailableProtocols.map Text.bytes =
      (offers headers).getLast?.or (f.wtAvailableProtocols.map Text.bytes) := by
  induction headers generalizing f with
  | nil => rw [← Except.ok.inj h]; rfl
  | cons field rest ih =>
    obtain ⟨name, value⟩ := field
    rw [readFields] at h
    split at h
    · cases h
    · next mid hmid =>
      rw [ih h, readField_offer hmid, offers_cons]
      by_cases hname : name = ofString "wt-available-protocols"
      · rw [if_pos hname, if_pos hname, List.getLast?_cons]
        cases (offers rest).getLast? with
        | none => rfl
        | some last => rfl
      · rw [if_neg hname, if_neg hname]

/-- What was read is text. -/
theorem offers_valid {f g : Fields} {headers : List (Bytes × Bytes)}
    (h : readFields f headers = .ok g) : ∀ value ∈ offers headers, Utf8.isValid value = true := by
  induction headers generalizing f with
  | nil => exact nofun
  | cons field rest ih =>
    obtain ⟨name, value⟩ := field
    rw [readFields] at h
    split at h
    · cases h
    · next mid hmid =>
      rw [offers_cons]
      split
      · next hname =>
        have hvalue := readField_offer hmid
        rw [if_pos hname, Option.map_eq_some_iff] at hvalue
        obtain ⟨t, -, rfl⟩ := hvalue
        exact List.forall_mem_cons.mpr ⟨t.isUtf8, ih h⟩
      · exact ih h

/-- The protocols of a request are those of the last field that offers some. -/
theorem fromHeaders_offer {headers : List (Bytes × Bytes)} {r : ConnectRequest}
    (h : fromHeaders headers = .ok r) :
    (∀ value ∈ offers headers, Utf8.isValid value = true) ∧
      r.availableProtocols =
        ((offers headers).getLast?.map SfParser.parseSfListStrings).getD [] := by
  unfold fromHeaders at h
  obtain ⟨f, hread, h⟩ := bind_inv h
  refine ⟨offers_valid hread, ?_⟩
  have hlast := readFields_offer hread
  rw [show Fields.empty.wtAvailableProtocols.map Text.bytes = none from rfl, Option.or_none] at hlast
  unfold Fields.request at h
  split at h
  · cases h
  split at h
  · cases h
  · rw [← Except.ok.inj h, ← hlast]
    cases f.wtAvailableProtocols with
    | none => rfl
    | some value => rfl

/-! ## The list of protocols -/

def Printable (p : Bytes) : Prop := ∀ b ∈ p, 0x20 ≤ b ∧ b ≤ 0x7e

theorem isUnescaped_iff : ∀ b : UInt8,
    StructuredField.isUnescaped b = true ↔ (0x20 ≤ b ∧ b ≤ 0x7e) ∧ b ≠ 0x22 ∧ b ≠ 0x5c :=
  Bytes.forall_byte (by decide +kernel)

theorem chars_escape {p : Bytes} (h : Printable p) :
    StructuredField.Chars (replaceByte 0x22 [0x5c, 0x22] (replaceByte 0x5c [0x5c, 0x5c] p)) p := by
  induction p with
  | nil => exact .nil
  | cons b p ih =>
    have hrest := ih fun b hb => h b (List.mem_cons_of_mem _ hb)
    unfold replaceByte at hrest ⊢
    rw [List.flatMap_cons, List.flatMap_append]
    by_cases hslash : b = 0x5c
    · subst hslash
      exact .escaped (.inr rfl) hrest
    by_cases hquote : b = 0x22
    · subst hquote
      exact .escaped (.inl rfl) hrest
    · rw [if_neg hslash, List.flatMap_cons, if_neg hquote]
      exact .unescaped ((isUnescaped_iff b).mpr ⟨h b List.mem_cons_self, hquote, hslash⟩) hrest

theorem stringItem_quote {p : Bytes} (h : Printable p) : StructuredField.StringItem (quote p) p :=
  .intro (chars_escape h) .nil

theorem joinProtocols_cons (p q : Bytes) (ps : List Bytes) :
    joinProtocols (p :: q :: ps) = quote p ++ ([] ++ 0x2c :: ([0x20] ++ joinProtocols (q :: ps))) := by
  unfold joinProtocols
  rw [List.map_cons, List.map_cons, List.intercalate_cons_cons, ← List.map_cons, List.append_assoc]
  rfl

theorem members_join {p : Bytes} {ps : List Bytes} (h : ∀ q ∈ p :: ps, Printable q) :
    StructuredField.Members (joinProtocols (p :: ps)) (p :: ps) := by
  induction ps generalizing p with
  | nil =>
    have hlast := @StructuredField.Members.last _ _ [] (stringItem_quote (h p List.mem_cons_self))
      nofun
    rw [List.append_nil] at hlast
    unfold joinProtocols
    rw [List.map_singleton, List.intercalate_singleton]
    exact hlast
  | cons q ps ih =>
    rw [joinProtocols_cons]
    refine .cons (stringItem_quote (h p List.mem_cons_self)) nofun ?_
      (ih fun q hq => h q (List.mem_cons_of_mem _ hq))
    intro b hb
    rw [List.mem_singleton.mp hb]
    rfl

theorem count_replaceByte {b c : UInt8} {written : Bytes} (hne : b ≠ c) (hc : c ∉ written)
    (s : Bytes) : (replaceByte b written s).count c = s.count c := by
  unfold replaceByte
  induction s with
  | nil => rfl
  | cons x s ih =>
    rw [List.flatMap_cons, List.count_append, ih]
    by_cases hx : x = b
    · rw [if_pos hx, List.count_eq_zero.mpr hc, hx, List.count_cons_of_ne hne, Nat.zero_add]
    · rw [if_neg hx, ← List.count_append, List.singleton_append]

theorem count_quote (p : Bytes) : (quote p).count 0x2c = p.count 0x2c := by
  rw [quote, List.count_cons_of_ne (by decide), List.count_append,
    count_replaceByte (by decide) (by decide), count_replaceByte (by decide) (by decide)]
  exact Nat.add_zero _

theorem count_join (p : Bytes) (ps : List Bytes) :
    (joinProtocols (p :: ps)).count 0x2c =
      ps.length + ((p :: ps).map (List.count 0x2c)).sum := by
  induction ps generalizing p with
  | nil =>
    unfold joinProtocols
    rw [List.map_singleton, List.intercalate_singleton, count_quote]
    simp
  | cons q ps ih =>
    rw [joinProtocols_cons, List.count_append, count_quote, List.nil_append, List.count_cons_self,
      List.singleton_append, List.count_cons_of_ne (by decide), ih q, List.length_cons,
      List.map_cons (l := q :: ps), List.sum_cons]
    omega

/-- The commas of the written list only separate when no protocol has one. -/
theorem join_separated {protocols : List Bytes} (hne : protocols ≠ []) :
    (joinProtocols protocols).count 0x2c < protocols.length ↔ ∀ p ∈ protocols, 0x2c ∉ p := by
  obtain ⟨p, ps, rfl⟩ := List.exists_cons_of_ne_nil hne
  rw [count_join, List.length_cons]
  have hzero : ps.length + ((p :: ps).map (List.count 0x2c)).sum < ps.length + 1 ↔
      ((p :: ps).map (List.count 0x2c)).sum = 0 := by
    omega
  rw [hzero, List.sum_eq_zero_iff_forall_eq_nat]
  simp only [List.mem_map, forall_exists_index, and_imp, forall_apply_eq_imp_iff₂,
    List.count_eq_zero]

theorem mem_replaceByte {b x : UInt8} {written s : Bytes} (h : x ∈ replaceByte b written s) :
    x ∈ written ∨ x ∈ s := by
  obtain ⟨y, hy, hx⟩ := List.mem_flatMap.mp h
  split at hx
  · exact .inl hx
  · rw [List.mem_singleton.mp hx]
    exact .inr hy

theorem printable_quote {p : Bytes} (h : Printable p) : Printable (quote p) := by
  intro x hx
  simp only [quote, List.mem_cons, List.mem_append, List.not_mem_nil, or_false] at hx
  have hmark : ∀ y : UInt8, y = 0x22 ∨ y = 0x5c → 0x20 ≤ y ∧ y ≤ 0x7e := by
    rintro y (rfl | rfl) <;> decide
  obtain rfl | hx | rfl := hx
  · decide
  · obtain hx | hx := mem_replaceByte hx
    · exact hmark x (by simpa [or_comm] using hx)
    · obtain hx | hx := mem_replaceByte hx
      · exact hmark x (by simp at hx; exact .inr hx)
      · exact h x hx
  · decide

theorem printable_join {protocols : List Bytes} (h : ∀ p ∈ protocols, Printable p) :
    Printable (joinProtocols protocols) := by
  cases protocols with
  | nil => exact nofun
  | cons p ps =>
    induction ps generalizing p with
    | nil =>
      unfold joinProtocols
      rw [List.map_singleton, List.intercalate_singleton]
      exact printable_quote (h p List.mem_cons_self)
    | cons q ps ih =>
      rw [joinProtocols_cons]
      intro x hx
      simp only [List.mem_append, List.mem_cons, List.not_mem_nil, false_or, or_false] at hx
      obtain hx | rfl | rfl | hx := hx
      · exact printable_quote (h p List.mem_cons_self) x hx
      · decide
      · decide
      · exact ih q (fun q hq => h q (List.mem_cons_of_mem _ hq)) x hx

/-- The list comes back exactly when no protocol has a comma. -/
theorem parse_join_iff {protocols : List Bytes} (hne : protocols ≠ [])
    (hprint : ∀ p ∈ protocols, Printable p)
    (hmost : protocols.length ≤ SfParser.MAX_SF_ELEMENTS)
    (hlen : (joinProtocols protocols).length ≤ SfParser.MAX_SF_INPUT_LEN) :
    SfParser.parseSfListStrings (joinProtocols protocols) = protocols ↔
      ∀ p ∈ protocols, 0x2c ∉ p := by
  have hctl : ∀ b ∈ joinProtocols protocols, 0x20 ≤ b ∧ b ≠ 0x7f := fun b hb => by
    obtain ⟨hlow, hhigh⟩ := printable_join hprint b hb
    refine ⟨hlow, ?_⟩
    rintro rfl
    exact absurd hhigh (by decide)
  have hlist : StructuredField.StringList (joinProtocols protocols) protocols := by
    obtain ⟨p, ps, rfl⟩ := List.exists_cons_of_ne_nil hne
    exact @StructuredField.StringList.members [] _ _ nofun (members_join hprint)
  rw [SfParser.parse_members_iff hlen hctl hlist hne hmost, join_separated hne]

/-! ## The round trip -/

theorem new_ok {name value : Bytes} {h : Header} (hok : Header.new name value = .ok h) :
    h = ⟨name, value, false⟩ := by
  unfold Header.new at hok
  split at hok
  · exact (Except.ok.inj hok).symm
  all_goals cases hok

/-- The fields that a request is written as. -/
def fieldPairs (r : ConnectRequest) : List (Bytes × Bytes) :=
  [(ofString ":method", ofString "CONNECT"), (ofString ":protocol", r.protocolToken.asStr),
    (ofString ":scheme", r.scheme.bytes), (ofString ":authority", r.authority.bytes),
    (ofString ":path", r.path.bytes)] ++
  r.origin.toList.map (fun origin => (ofString "origin", origin.bytes)) ++
  if r.availableProtocols.isEmpty then []
  else [(ofString "wt-available-protocols", joinProtocols r.availableProtocols)]

theorem pairs_toHeaders {r : ConnectRequest} {headers : List Header}
    (h : r.toHeaders = .ok headers) : pairs headers = r.fieldPairs := by
  unfold toHeaders at h
  obtain ⟨method, hmethod, h⟩ := bind_inv h
  obtain ⟨protocol, hprotocol, h⟩ := bind_inv h
  obtain ⟨scheme, hscheme, h⟩ := bind_inv h
  obtain ⟨authority, hauthority, h⟩ := bind_inv h
  obtain ⟨path, hpath, h⟩ := bind_inv h
  obtain ⟨origin, horigin, h⟩ := bind_inv h
  obtain ⟨protocols, hprotocols, h⟩ := bind_inv h
  have horigin' : pairs origin = r.origin.toList.map fun origin => (ofString "origin", origin.bytes) := by
    cases ho : r.origin with
    | none =>
      rw [ho] at horigin
      obtain rfl := Except.ok.inj horigin
      rfl
    | some o =>
      rw [ho, originField] at horigin
      cases hnew : Header.new (ofString "origin") o.bytes with
      | error e =>
        rw [hnew] at horigin
        cases horigin
      | ok field =>
        rw [hnew] at horigin
        obtain rfl := Except.ok.inj horigin
        rw [new_ok hnew]
        rfl
  have hprotocols' : pairs protocols =
      if r.availableProtocols.isEmpty then []
      else [(ofString "wt-available-protocols", joinProtocols r.availableProtocols)] := by
    unfold protocolsField at hprotocols
    split at hprotocols
    · next hempty =>
      obtain rfl := Except.ok.inj hprotocols
      rw [if_pos hempty]
      rfl
    · next hempty =>
      rw [if_neg hempty]
      cases hnew : Header.new (ofString "wt-available-protocols")
          (joinProtocols r.availableProtocols) with
      | error e =>
        rw [hnew] at hprotocols
        cases hprotocols
      | ok field =>
        rw [hnew] at hprotocols
        obtain rfl := Except.ok.inj hprotocols
        rw [new_ok hnew]
        rfl
  obtain rfl := Except.ok.inj h
  rw [fieldPairs, ← horigin', ← hprotocols', new_ok hmethod, new_ok hprotocol, new_ok hscheme,
    new_ok hauthority, new_ok hpath]
  unfold pairs
  rw [List.map_append, List.map_append]
  rfl

section ReadField

variable {f : Fields}

/-- A field that is no pseudo header marks that the pseudo headers are over. -/
theorem readField_origin (t : Text) :
    readField f (ofString "origin") t.bytes =
      .ok { f with origin := some t, seenRegular := true } := by
  have hpseudo : ((ofString "origin").head? == some 0x3a) = false := by with_unfolding_all decide
  have hnames : ∀ n ∈ [":method", ":protocol", ":scheme", ":authority", ":path"],
      ofString "origin" ≠ ofString n := by with_unfolding_all decide
  simp only [List.forall_mem_cons] at hnames
  unfold readField
  rw [hpseudo]
  simp only [Bool.false_and, Bool.false_eq_true, if_false, Bool.not_false, Bool.or_true, hnames,
    if_true, Text.fromUtf8_bytes]
  rfl

theorem readField_protocols (t : Text) :
    readField f (ofString "wt-available-protocols") t.bytes =
      .ok { f with wtAvailableProtocols := some t, seenRegular := true } := by
  have hpseudo : ((ofString "wt-available-protocols").head? == some 0x3a) = false := by
    with_unfolding_all decide
  have hnames : ∀ n ∈ [":method", ":protocol", ":scheme", ":authority", ":path", "origin"],
      ofString "wt-available-protocols" ≠ ofString n := by with_unfolding_all decide
  simp only [List.forall_mem_cons] at hnames
  unfold readField
  rw [hpseudo]
  simp only [Bool.false_and, Bool.false_eq_true, if_false, Bool.not_false, Bool.or_true, hnames,
    if_true, Text.fromUtf8_bytes]
  rfl

variable (hfirst : f.seenRegular = false)

include hfirst

theorem readField_method (hnone : f.method = none) (value : Bytes) :
    readField f (ofString ":method") value = .ok { f with method := some value } := by
  have hpseudo : ((ofString ":method").head? == some 0x3a) = true := by with_unfolding_all decide
  unfold readField
  rw [hpseudo, hfirst]
  simp only [Bool.true_and, Bool.false_eq_true, if_false, Bool.not_true, Bool.or_false, if_true]
  rw [hnone]
  rfl

theorem readField_protocol (hnone : f.protocol = none) (value : Bytes) :
    readField f (ofString ":protocol") value = .ok { f with protocol := some value } := by
  have hpseudo : ((ofString ":protocol").head? == some 0x3a) = true := by with_unfolding_all decide
  have hname : ofString ":protocol" ≠ ofString ":method" := by with_unfolding_all decide
  unfold readField
  rw [hpseudo, hfirst]
  simp only [Bool.true_and, Bool.false_eq_true, if_false, Bool.not_true, Bool.or_false, hname,
    if_true]
  rw [hnone]
  rfl

theorem readField_scheme (hnone : f.scheme = none) (t : Text) :
    readField f (ofString ":scheme") t.bytes = .ok { f with scheme := some t } := by
  have hpseudo : ((ofString ":scheme").head? == some 0x3a) = true := by with_unfolding_all decide
  have hnames : ∀ n ∈ [":method", ":protocol"], ofString ":scheme" ≠ ofString n := by
    with_unfolding_all decide
  simp only [List.forall_mem_cons] at hnames
  unfold readField
  rw [hpseudo, hfirst]
  simp only [Bool.true_and, Bool.false_eq_true, if_false, Bool.not_true, Bool.or_false, hnames,
    if_true, Text.fromUtf8_bytes]
  rw [hnone]
  rfl

theorem readField_authority (hnone : f.authority = none) (t : Text) :
    readField f (ofString ":authority") t.bytes = .ok { f with authority := some t } := by
  have hpseudo : ((ofString ":authority").head? == some 0x3a) = true := by with_unfolding_all decide
  have hnames : ∀ n ∈ [":method", ":protocol", ":scheme"], ofString ":authority" ≠ ofString n := by
    with_unfolding_all decide
  simp only [List.forall_mem_cons] at hnames
  unfold readField
  rw [hpseudo, hfirst]
  simp only [Bool.true_and, Bool.false_eq_true, if_false, Bool.not_true, Bool.or_false, hnames,
    if_true, Text.fromUtf8_bytes]
  rw [hnone]
  rfl

theorem readField_path (hnone : f.path = none) (t : Text) :
    readField f (ofString ":path") t.bytes = .ok { f with path := some t } := by
  have hpseudo : ((ofString ":path").head? == some 0x3a) = true := by with_unfolding_all decide
  have hnames : ∀ n ∈ [":method", ":protocol", ":scheme", ":authority"],
      ofString ":path" ≠ ofString n := by with_unfolding_all decide
  simp only [List.forall_mem_cons] at hnames
  unfold readField
  rw [hpseudo, hfirst]
  simp only [Bool.true_and, Bool.false_eq_true, if_false, Bool.not_true, Bool.or_false, hnames,
    if_true, Text.fromUtf8_bytes]
  rw [hnone]
  rfl

end ReadField

theorem readFields_ok {f g : Fields} {name value : Bytes} (h : readField f name value = .ok g)
    (rest : List (Bytes × Bytes)) : readFields f ((name, value) :: rest) = readFields g rest := by
  rw [readFields, h]

/-- The list of protocols as text. -/
def protocolsText (protocols : List Bytes) (hprint : ∀ p ∈ protocols, Printable p) : Text where
  bytes := joinProtocols protocols
  isUtf8 := Utf8.isValid_ascii fun b hb =>
    UInt8.le_trans (printable_join hprint b hb).2 (by decide)

theorem readFields_written (r : ConnectRequest)
    (hprint : ∀ p ∈ r.availableProtocols, Printable p) :
    ∃ seenRegular, readFields .empty r.fieldPairs = .ok
      ⟨some (ofString "CONNECT"), some r.protocolToken.asStr, some r.scheme, some r.authority,
        some r.path, r.origin,
        if r.availableProtocols.isEmpty then none
        else some (protocolsText r.availableProtocols hprint), seenRegular⟩ := by
  unfold fieldPairs
  rw [List.append_assoc, List.cons_append, readFields_ok (readField_method rfl rfl _),
    List.cons_append, readFields_ok (readField_protocol rfl rfl _),
    List.cons_append, readFields_ok (readField_scheme rfl rfl r.scheme),
    List.cons_append, readFields_ok (readField_authority rfl rfl r.authority),
    List.cons_append, readFields_ok (readField_path rfl rfl r.path), List.nil_append]
  cases r.origin with
  | none =>
    split
    · exact ⟨_, rfl⟩
    · exact ⟨true, readFields_ok (readField_protocols (protocolsText _ hprint)) []⟩
  | some origin =>
    rw [Option.toList_some, List.map_singleton, List.singleton_append,
      readFields_ok (readField_origin origin)]
    split
    · exact ⟨_, rfl⟩
    · exact ⟨true, readFields_ok (readField_protocols (protocolsText _ hprint)) []⟩

theorem fromHeaders_of_fields {headers : List (Bytes × Bytes)} {f : Fields} {t : ProtocolToken}
    (hread : readFields .empty headers = .ok f) (hmethod : f.method = some (ofString "CONNECT"))
    (htoken : f.protocol.bind ProtocolToken.fromBytes = some t) :
    fromHeaders headers = .ok {
      protocolToken := t
      scheme := f.scheme.getD .empty
      authority := f.authority.getD .empty
      path := f.path.getD .empty
      origin := f.origin
      availableProtocols :=
        match f.wtAvailableProtocols with
        | some value => SfParser.parseSfListStrings value.bytes
        | none => [] } := by
  have hbind : ∀ k : Fields → Except ConnectError ConnectRequest, (Except.ok f >>= k) = k f :=
    fun _ => rfl
  rw [fromHeaders, hread, hbind, Fields.request, if_neg (not_not_intro hmethod), htoken]

/-- A request that was written is read as itself, exactly when no protocol has a comma. -/
theorem connect_round_trip (r : ConnectRequest) (headers : List Header)
    (hwritten : r.toHeaders = .ok headers) (hprint : ∀ p ∈ r.availableProtocols, Printable p)
    (hmost : r.availableProtocols.length ≤ SfParser.MAX_SF_ELEMENTS)
    (hlen : (joinProtocols r.availableProtocols).length ≤ SfParser.MAX_SF_INPUT_LEN) :
    fromHeaders (pairs headers) = .ok r ↔ ∀ p ∈ r.availableProtocols, 0x2c ∉ p := by
  obtain ⟨seenRegular, hread⟩ := readFields_written r hprint
  have htoken : (some r.protocolToken.asStr).bind ProtocolToken.fromBytes = some r.protocolToken :=
    ProtocolToken.fromBytes_asStr _
  rw [pairs_toHeaders hwritten, fromHeaders_of_fields hread rfl htoken]
  obtain ⟨token, scheme, authority, path, origin, protocols⟩ := r
  simp only [Option.getD_some, Except.ok.injEq, mk.injEq, true_and]
  cases protocols with
  | nil => exact iff_of_true rfl nofun
  | cons p ps => exact parse_join_iff (List.cons_ne_nil p ps) hprint hmost hlen

/-- A request that offers some protocols. -/
theorem https_isUtf8 : Utf8.isValid (ofString "https") = true := by with_unfolding_all decide

theorem slash_isUtf8 : Utf8.isValid (ofString "/") = true := by with_unfolding_all decide

def offering (protocols : List Bytes) : ConnectRequest where
  protocolToken := .webTransportH3
  scheme := ⟨ofString "https", https_isUtf8⟩
  authority := ⟨ofString "a", by with_unfolding_all decide⟩
  path := ⟨ofString "/", slash_isUtf8⟩
  origin := none
  availableProtocols := protocols

def written (r : ConnectRequest) : List Header :=
  r.fieldPairs.map fun field => Header.fromDecoded field.1 field.2

/-- The request that offers `a;` and `"\`. -/
theorem connect_round_trip_two :
    fromHeaders (pairs (written (offering [[0x61, 0x3b], [0x22, 0x5c]]))) =
        .ok (offering [[0x61, 0x3b], [0x22, 0x5c]]) ↔
      ∀ p ∈ (offering [[0x61, 0x3b], [0x22, 0x5c]]).availableProtocols, 0x2c ∉ p :=
  connect_round_trip (offering [[0x61, 0x3b], [0x22, 0x5c]])
    (written (offering [[0x61, 0x3b], [0x22, 0x5c]])) (by with_unfolding_all decide)
    (by unfold Printable; decide +kernel) (by decide) (by decide)

/-- The request that offers `a,b` comes back with no protocol. -/
theorem comma_lost :
    (offering [[0x61, 0x2c, 0x62]]).toHeaders = .ok (written (offering [[0x61, 0x2c, 0x62]])) ∧
      fromHeaders (pairs (written (offering [[0x61, 0x2c, 0x62]]))) = .ok (offering []) := by
  with_unfolding_all decide

end ConnectRequest

end Http3
