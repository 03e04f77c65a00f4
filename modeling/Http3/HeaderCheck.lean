import Http3.Lib.Loop
import Http3.RequestRules

/-!
# The check at construction

`check_header` runs at compile time too, so it is written with loops over an index and byte tables
of its own. It is the check of `Header.new`, and it accepts of each field what the validation of a
received list accepts.
-/

namespace Http3.HeaderCheck

open Bytes

/-! ## Bytes -/

def isLowercaseTokenByte (b : UInt8) : Bool :=
  b == 0x21 || b == 0x23 || b == 0x24 || b == 0x25 || b == 0x26 || b == 0x27 || b == 0x2a ||
    b == 0x2b || b == 0x2d || b == 0x2e || b == 0x5e || b == 0x5f || b == 0x60 || b == 0x7c ||
    b == 0x7e || (0x30 ≤ b && b ≤ 0x39) || (0x61 ≤ b && b ≤ 0x7a)

def isFieldVchar (b : UInt8) : Bool := (0x21 ≤ b && b ≤ 0x7e) || (0x80 ≤ b && b ≤ 0xff)

def isTchar (b : UInt8) : Bool :=
  b == 0x21 || b == 0x23 || b == 0x24 || b == 0x25 || b == 0x26 || b == 0x27 || b == 0x2a ||
    b == 0x2b || b == 0x2d || b == 0x2e || b == 0x5e || b == 0x5f || b == 0x60 || b == 0x7c ||
    b == 0x7e || (0x30 ≤ b && b ≤ 0x39) || (0x41 ≤ b && b ≤ 0x5a) || (0x61 ≤ b && b ≤ 0x7a)

def isSchemeByte (b : UInt8) : Bool :=
  isAlpha b || isDigit b || b == 0x2b || b == 0x2d || b == 0x2e

/-! ## Loops -/

def bytesEq (a b : Bytes) : Bool :=
  if a.length != b.length then false
  else
    (Loop.whileLt 0 a.length fun i =>
      if a.getD i 0 != b.getD i 0 then some false else none).getD true

def isKnownPseudoHeader (name : Bytes) : Bool :=
  (Loop.whileLt 0 knownPseudoHeaders.length fun i =>
    if bytesEq (knownPseudoHeaders.getD i []) name then some true else none).getD false

/-- A loop over the bytes of a pseudo header's value that is left at the first one not allowed. -/
def checkBytes (allowed : UInt8 → Bool) (value : Bytes) (i stop : Nat) : CheckResult :=
  (Loop.whileLt i stop fun j =>
    if !allowed (value.getD j 0) then some CheckResult.invalidPseudoHeaderValue else none).getD .ok

def checkUpgradeToken (value : Bytes) : CheckResult :=
  if value.isEmpty then .invalidPseudoHeaderValue
  else
    -- the source marks that there is no slash with the largest `usize`
    match Loop.whileLt 0 value.length fun i =>
      if value.getD i 0 == 0x2f then some i else none with
    | none => checkBytes isTchar value 0 value.length
    | some slash =>
      if slash == 0 then .invalidPseudoHeaderValue
      else
        match checkBytes isTchar value 0 slash with
        | .ok =>
          if slash + 1 ≥ value.length then .invalidPseudoHeaderValue
          else checkBytes isTchar value (slash + 1) value.length
        | other => other

def checkPseudoValue (name value : Bytes) : CheckResult :=
  if bytesEq name (ofString ":method") then
    if value.isEmpty then .invalidPseudoHeaderValue
    else checkBytes isTchar value 0 value.length
  else if bytesEq name (ofString ":scheme") then
    if value.isEmpty then .invalidPseudoHeaderValue
    else if !isAlpha (value.getD 0 0) then .invalidPseudoHeaderValue
    else checkBytes isSchemeByte value 1 value.length
  else if bytesEq name (ofString ":status") then
    if value.length != 3 then .invalidPseudoHeaderValue
    else checkBytes isDigit value 0 3
  else if bytesEq name (ofString ":protocol") then checkUpgradeToken value
  else .ok

/-- The body of the loop over a name. -/
def refuseNameByte (b : UInt8) : Option CheckResult :=
  if isUpper b then some .uppercaseFieldName
  else if !isLowercaseTokenByte b then some (.invalidFieldNameByte b)
  else none

/-- The body of the loop over a value. -/
def refuseValueByte (b : UInt8) : Option CheckResult :=
  if !(isFieldVchar b || b == 0x20 || b == 0x09) then some (.invalidFieldValueByte b) else none

def checkHeader (name value : Bytes) : CheckResult :=
  if name.isEmpty then .emptyFieldName
  else
    let isPseudo := name.getD 0 0 == 0x3a
    let nameStart := if isPseudo then 1 else 0
    match Loop.whileLt nameStart name.length fun i => refuseNameByte (name.getD i 0) with
    | some refused => refused
    | none =>
      if isPseudo && name.length == 1 then .unknownPseudoHeader
      else if isPseudo && !isKnownPseudoHeader name then .unknownPseudoHeader
      else
        match Loop.whileLt 0 value.length fun i => refuseValueByte (value.getD i 0) with
        | some refused => refused
        | none =>
          if !value.isEmpty && (!isFieldVchar (value.getD 0 0)
              || !isFieldVchar (value.getD (value.length - 1) 0)) then
            .fieldValueLeadingOrTrailingWhitespace
          else if isPseudo then checkPseudoValue name value
          else .ok

/-! ## The same tables and searches -/

theorem isLowercaseTokenByte_eq : isLowercaseTokenByte = Http3.isLowercaseTokenByte :=
  funext (Bytes.forall_byte (by decide +kernel))

theorem isFieldVchar_eq : isFieldVchar = Http3.isFieldVchar :=
  funext (Bytes.forall_byte (by decide +kernel))

theorem isTchar_eq : isTchar = Http3.isTchar :=
  funext (Bytes.forall_byte (by decide +kernel))

theorem isSchemeByte_eq :
    isSchemeByte = fun b => isAlpha b || isDigit b || (ofString "+-.").contains b :=
  funext (Bytes.forall_byte (by decide +kernel))

theorem bytesEq_iff (a b : Bytes) : bytesEq a b = true ↔ a = b := by
  unfold bytesEq
  by_cases hlen : a.length = b.length
  · have hbne : (a.length != b.length) = false := by
      rw [hlen]
      exact bne_self_eq_false _
    rw [hbne, if_neg Bool.false_ne_true, Loop.whileLt_getD Bool.false_ne_true]
    constructor
    · intro h
      refine List.ext_getElem hlen fun i hi hi' => ?_
      have hget := h i (Nat.zero_le i) hi
      rw [List.getD_eq_getElem _ _ hi, List.getD_eq_getElem _ _ hi'] at hget
      exact bne_eq_false_iff_eq.mp hget
    · rintro rfl i - -
      exact bne_self_eq_false _
  · rw [if_pos (bne_iff_ne.mpr hlen)]
    exact iff_of_false nofun fun h => hlen (congrArg List.length h)

theorem isKnownPseudoHeader_iff (name : Bytes) :
    isKnownPseudoHeader name = true ↔ name ∈ knownPseudoHeaders := by
  have hfalse : isKnownPseudoHeader name = false ↔ name ∉ knownPseudoHeaders := by
    unfold isKnownPseudoHeader
    rw [Loop.whileLt_getD Bool.false_ne_true.symm]
    constructor
    · intro h hmem
      obtain ⟨i, hi, hget⟩ := List.mem_iff_getElem.mp hmem
      have heq := h i (Nat.zero_le i) hi
      rw [List.getD_eq_getElem _ _ hi, hget, (bytesEq_iff name name).mpr rfl] at heq
      cases heq
    · intro h i _ hi
      by_contra hne
      rw [Bool.not_eq_false, bytesEq_iff, List.getD_eq_getElem _ _ hi] at hne
      exact h (hne ▸ List.getElem_mem hi)
  rw [← not_iff_not, Bool.not_eq_true, hfalse]

theorem checkBytes_eq (allowed : UInt8 → Bool) {value : Bytes} {i stop : Nat}
    (h : stop ≤ value.length) :
    checkBytes allowed value i stop = ofBool (((value.take stop).drop i).all allowed) := by
  unfold checkBytes
  have hloop := Loop.whileLt_list (i := i) h 0 fun b =>
    if !allowed b then some CheckResult.invalidPseudoHeaderValue else none
  rw [hloop]
  induction (value.take stop).drop i with
  | nil => rfl
  | cons b rest ih =>
    rw [List.findSome?_cons, List.all_cons]
    cases allowed b with
    | false => rfl
    | true => exact ih

theorem checkBytes_all (allowed : UInt8 → Bool) (value : Bytes) :
    checkBytes allowed value 0 value.length = ofBool (value.all allowed) := by
  rw [checkBytes_eq allowed (Nat.le_refl _), List.take_length, List.drop_zero]

/-! ## The same check -/

theorem checkUpgradeToken_eq (value : Bytes) :
    checkUpgradeToken value = Http3.checkUpgradeToken value := by
  unfold checkUpgradeToken Http3.checkUpgradeToken
  cases value with
  | nil => rfl
  | cons first rest =>
    have hne : (first :: rest).isEmpty = false := rfl
    rw [hne, if_neg Bool.false_ne_true, Loop.whileLt_find (first :: rest) 0 (· == 0x2f), isTchar_eq]
    generalize first :: rest = value at *
    cases hfind : value.findIdx? (· == 0x2f) with
    | none =>
      simp only [checkBytes_all, isToken, hne, Bool.not_false, Bool.true_and]
    | some slash =>
      have hlt : slash < value.length := by
        obtain ⟨h, -⟩ := List.findIdx?_eq_some_iff_getElem.mp hfind
        exact h
      have hname : (value.take slash).isEmpty = (slash == 0) := by
        cases slash with
        | zero => rfl
        | succ n =>
          cases value with
          | nil => exact absurd hlt (Nat.not_lt_zero _)
          | cons b rest => rfl
      have hversion : (value.drop (slash + 1)).isEmpty = decide (slash + 1 ≥ value.length) := by
        rw [Bool.eq_iff_iff, List.isEmpty_iff, List.drop_eq_nil_iff, decide_eq_true_eq]
      simp only [checkBytes_eq Http3.isTchar (Nat.le_of_lt hlt), List.drop_zero, isToken, hname,
        hversion, checkBytes_eq Http3.isTchar (Nat.le_refl value.length), List.take_length]
      cases slash == 0 with
      | true => rfl
      | false =>
        cases (value.take slash).all Http3.isTchar with
        | false => rfl
        | true =>
          simp only [Bool.false_eq_true, if_false, ofBool, if_true, Bool.not_false, Bool.true_and]
          by_cases hend : slash + 1 ≥ value.length
          · simp only [hend, if_true, decide_true, Bool.not_true, Bool.false_and, Bool.false_eq_true,
              if_false]
          · simp only [hend, if_false, decide_false, Bool.not_false, Bool.true_and]

theorem checkPseudoValue_eq (name value : Bytes) :
    checkPseudoValue name value = Http3.checkPseudoValue name value := by
  unfold checkPseudoValue Http3.checkPseudoValue
  simp only [bytesEq_iff, checkUpgradeToken_eq]
  split
  · cases value with
    | nil => rfl
    | cons first rest =>
      rw [isTchar_eq, checkBytes_all]
      rfl
  split
  · cases value with
    | nil => rfl
    | cons first rest =>
      have hall : ((first :: rest).drop 1).all isSchemeByte =
          rest.all fun b => isAlpha b || isDigit b || (ofString "+-.").contains b := by
        rw [isSchemeByte_eq]
        rfl
      rw [checkBytes_eq isSchemeByte (Nat.le_refl _), List.take_length, hall]
      simp only [List.isEmpty_cons, Bool.false_eq_true, if_false, List.getD_cons_zero, checkScheme]
      cases isAlpha first with
      | false => rfl
      | true => rfl
  split
  · by_cases hlen : value.length = 3
    · have hstop : (3 : Nat) ≤ value.length := Nat.le_of_eq hlen.symm
      have htake : value.take 3 = value := List.take_of_length_le (Nat.le_of_eq hlen)
      rw [checkBytes_eq isDigit hstop, htake, List.drop_zero, hlen]
      rfl
    · simp only [bne_iff_ne, ne_eq, hlen, not_false_eq_true, if_true,
        beq_eq_false_iff_ne.mpr hlen, Bool.false_and]
      rfl
  · rfl

theorem nameLoop_eq (name : Bytes) (i : Nat) :
    (Loop.whileLt i name.length fun j => refuseNameByte (name.getD j 0)) =
      match checkNameBytes (name.drop i) with
      | .ok => none
      | other => some other := by
  rw [Loop.whileLt_list (Nat.le_refl _) 0 refuseNameByte, List.take_length]
  induction name.drop i with
  | nil => rfl
  | cons b rest ih =>
    rw [List.findSome?_cons, checkNameBytes, refuseNameByte, isLowercaseTokenByte_eq]
    cases isUpper b with
    | true => rfl
    | false =>
      cases Http3.isLowercaseTokenByte b with
      | false => rfl
      | true => exact ih

theorem valueLoop_eq (value : Bytes) :
    (Loop.whileLt 0 value.length fun j => refuseValueByte (value.getD j 0)) =
      (value.find? fun b => !isValueByte b).map .invalidFieldValueByte := by
  rw [Loop.whileLt_list (Nat.le_refl _) 0 refuseValueByte, List.take_length, List.drop_zero]
  induction value with
  | nil => rfl
  | cons b rest ih =>
    rw [List.findSome?_cons, List.find?_cons, refuseValueByte, isFieldVchar_eq, isValueByte]
    cases Http3.isFieldVchar b || b == 0x20 || b == 0x09 with
    | false => rfl
    | true => exact ih

/-- The check of a value is its loop, and then a look at both ends. -/
theorem checkValue_eq (value : Bytes) :
    checkValue value =
      match Loop.whileLt 0 value.length fun i => refuseValueByte (value.getD i 0) with
      | some refused => refused
      | none =>
        if !value.isEmpty && (!isFieldVchar (value.getD 0 0)
            || !isFieldVchar (value.getD (value.length - 1) 0)) then
          .fieldValueLeadingOrTrailingWhitespace
        else .ok := by
  rw [valueLoop_eq, checkValue, isFieldVchar_eq]
  cases value.find? fun b => !isValueByte b with
  | some b => rfl
  | none =>
    cases value with
    | nil => rfl
    | cons first rest =>
      have hlast : (first :: rest).getLast? =
          some ((first :: rest).getD ((first :: rest).length - 1) 0) := by
        rw [List.getLast?_eq_getElem?, List.getD_eq_getElem?_getD,
          List.getElem?_eq_getElem (by simp)]
        rfl
      rw [hlast]
      rfl

theorem checkHeader_eq (name value : Bytes) :
    checkHeader name value = Http3.checkHeader name value := by
  cases name with
  | nil => rfl
  | cons first rest =>
    have hstart : (first :: rest).drop (if first == 0x3a then 1 else 0) =
        if first == 0x3a then rest else first :: rest := by
      cases first == 0x3a <;> rfl
    have hknown :
        isKnownPseudoHeader (first :: rest) = knownPseudoHeaders.contains (first :: rest) := by
      rw [Bool.eq_iff_iff, isKnownPseudoHeader_iff, List.contains_iff_mem]
    have hvalue : ∀ k : CheckResult,
        (match Loop.whileLt 0 value.length fun i => refuseValueByte (value.getD i 0) with
          | some refused => refused
          | none =>
            if !value.isEmpty && (!isFieldVchar (value.getD 0 0)
                || !isFieldVchar (value.getD (value.length - 1) 0)) then
              .fieldValueLeadingOrTrailingWhitespace
            else k) =
          match checkValue value with
          | .ok => k
          | other => other := by
      intro k
      rw [checkValue_eq, valueLoop_eq]
      cases value.find? fun b => !isValueByte b with
      | some b => rfl
      | none =>
        simp only [Option.map_none]
        split
        · rfl
        · rfl
    simp only [checkHeader, Http3.checkHeader, List.isEmpty_cons, Bool.false_eq_true, if_false,
      List.getD_cons_zero, nameLoop_eq, hstart, hknown, hvalue, checkPseudoValue_eq]
    cases checkNameBytes (if first == 0x3a then rest else first :: rest) <;> rfl

/-! ## Agreement with the validation of a list -/

open Validation

/-- A field that `Header.new` builds. -/
def Built (name value : Bytes) : Prop := ∃ h, Header.new name value = .ok h

theorem built_iff (name value : Bytes) :
    Built name value ↔ Http3.checkHeader name value = .ok := by
  unfold Built Header.new
  cases Http3.checkHeader name value with
  | ok => exact iff_of_true ⟨_, rfl⟩ rfl
  | _ => exact iff_of_false (fun ⟨_, h⟩ => nomatch h) nofun

theorem not_upper_of_token : ∀ b : UInt8, Http3.isLowercaseTokenByte b = true → isUpper b = false :=
  Bytes.forall_byte (by decide +kernel)

theorem checkNameBytes_ok (name : Bytes) :
    checkNameBytes name = .ok ↔ name.all Http3.isLowercaseTokenByte = true := by
  induction name with
  | nil => exact iff_of_true rfl rfl
  | cons b rest ih =>
    rw [checkNameBytes, List.all_cons, Bool.and_eq_true]
    cases hb : Http3.isLowercaseTokenByte b with
    | true =>
      rw [not_upper_of_token b hb, ← ih]
      exact (and_iff_right rfl).symm
    | false =>
      refine iff_of_false ?_ fun h => nomatch h.1
      cases isUpper b with
      | true => exact nofun
      | false => exact nofun

theorem checkValue_ok (value : Bytes) : checkValue value = .ok ↔ isValidFieldValue value = true := by
  unfold checkValue isValidFieldValue
  cases hfind : value.find? fun b => !isValueByte b with
  | some b =>
    have hall : value.all isValueByte = false := by
      rw [List.all_eq_false]
      exact ⟨b, List.mem_of_find?_eq_some hfind, by simpa using List.find?_some hfind⟩
    rw [hall]
    refine iff_of_false nofun ?_
    cases value with
    | nil => cases hfind
    | cons first rest =>
      cases hlast : (first :: rest).getLast? with
      | none => exact absurd hlast (by simp)
      | some last =>
        simp only [List.head?_cons, Bool.and_false, Bool.false_eq_true, not_false_eq_true]
  | none =>
    have hall : value.all isValueByte = true := by
      rw [List.all_eq_true]
      intro b hb
      simpa using List.find?_eq_none.mp hfind b hb
    rw [hall]
    cases value.head? with
    | none => exact iff_of_true rfl rfl
    | some first =>
      cases value.getLast? with
      | none => exact iff_of_true rfl rfl
      | some last =>
        simp only [Bool.and_true]
        cases Http3.isFieldVchar first with
        | false => exact iff_of_false nofun nofun
        | true =>
          cases Http3.isFieldVchar last with
          | false => exact iff_of_false nofun nofun
          | true => exact iff_of_true rfl rfl

theorem checkHeader_regular {name : Bytes} (h : name.head? ≠ some 0x3a) (value : Bytes) :
    Http3.checkHeader name value = .ok ↔
      isValidFieldName name = true ∧ isValidFieldValue value = true := by
  cases name with
  | nil => exact iff_of_false nofun fun h => nomatch h.1
  | cons first rest =>
    have hfirst : (first == 0x3a) = false :=
      beq_eq_false_iff_ne.mpr fun he => h (congrArg some he)
    simp only [Http3.checkHeader, hfirst, Bool.false_eq_true, if_false, Bool.false_and]
    rw [isValidFieldName, List.isEmpty_cons, Bool.not_false, Bool.true_and, ← checkNameBytes_ok,
      ← checkValue_ok]
    cases checkNameBytes (first :: rest) with
    | ok =>
      simp only [true_and]
      cases checkValue value <;> simp
    | _ => exact iff_of_false nofun fun h => nomatch h.1

theorem checkHeader_pseudo {name : Bytes} (h : name ∈ knownPseudoHeaders) (value : Bytes) :
    Http3.checkHeader name value = .ok ↔
      isValidFieldValue value = true ∧ Http3.checkPseudoValue name value = .ok := by
  have hshape : ∀ n ∈ knownPseudoHeaders, n.head? = some 0x3a ∧
      checkNameBytes n.tail = .ok ∧ (n.length == 1) = false := by
    with_unfolding_all decide
  obtain ⟨hhead, hbytes, hlen⟩ := hshape name h
  cases name with
  | nil => cases hhead
  | cons first rest =>
    obtain rfl := Option.some.inj hhead
    have hknown : knownPseudoHeaders.contains (0x3a :: rest) = true := by
      rw [List.contains_iff_mem]
      exact h
    rw [List.tail_cons] at hbytes
    simp only [Http3.checkHeader, beq_self_eq_true, if_true, hbytes, hlen, hknown, Bool.and_false,
      Bool.not_true, Bool.false_eq_true, if_false]
    rw [← checkValue_ok]
    cases checkValue value with
    | ok => exact (and_iff_right rfl).symm
    | _ => exact iff_of_false nofun fun h => nomatch h.1

theorem checkHeader_unknown {name : Bytes} (hhead : name.head? = some 0x3a)
    (h : name ∉ knownPseudoHeaders) (value : Bytes) : Http3.checkHeader name value ≠ .ok := by
  cases name with
  | nil => cases hhead
  | cons first rest =>
    obtain rfl := Option.some.inj hhead
    have hknown : knownPseudoHeaders.contains (0x3a :: rest) = false := by
      rw [List.contains_eq_mem, decide_eq_false_iff_not]
      exact h
    simp only [Http3.checkHeader, beq_self_eq_true, if_true, hknown, Bool.not_false, Bool.true_and]
    cases checkNameBytes rest with
    | ok => split <;> simp
    | _ => exact nofun

theorem ofBool_ok (b : Bool) : ofBool b = .ok ↔ b = true := by
  cases b with
  | false => exact iff_of_false nofun nofun
  | true => exact iff_of_true rfl rfl

theorem checkUpgradeToken_ok (value : Bytes) :
    Http3.checkUpgradeToken value = .ok ↔ isValidProtocol value = true := by
  unfold Http3.checkUpgradeToken isValidProtocol
  cases value.findIdx? (· == 0x2f) with
  | none => exact ofBool_ok _
  | some slash => exact ofBool_ok _

/-! ## Lists with a field that no section has -/

theorem isPseudo_of_head {h : Header} (hhead : h.name.head? = some 0x3a) : isPseudo h = true :=
  beq_iff_eq.mpr hhead

theorem request_pseudo_known {headers : List Header} (hok : validateRequestHeaders headers = .ok ())
    {h : Header} (hmem : h ∈ headers) (hhead : h.name.head? = some 0x3a) :
    h.name ∈ knownPseudoHeaders := by
  obtain ⟨f, hscan, -⟩ := validateRequestHeaders_ok.mp hok
  obtain ⟨-, hallowed⟩ := (scanRequest_ok.mp hscan).2.2.1 h hmem
  rw [if_pos (isPseudo_of_head hhead)] at hallowed
  obtain ⟨s, hs, hname⟩ := hallowed
  rw [hname]
  revert hs
  cases s <;> with_unfolding_all decide

theorem scanResponse_pseudo {status done r : Bool} {headers : List Header}
    (hok : scanResponse status done headers = .ok r) {h : Header} (hmem : h ∈ headers)
    (hhead : h.name.head? = some 0x3a) : h.name = ofString ":status" := by
  induction headers generalizing status done with
  | nil => cases hmem
  | cons first rest ih =>
    rw [scanResponse] at hok
    split at hok
    · split at hok
      · cases hok
      · next hcheck =>
        obtain rfl | hmem := List.mem_cons.mp hmem
        · rw [require_bind, require_bind, checkStatusField, require_bind, beq_iff_eq] at hcheck
          exact hcheck.2.2.1
        · exact ih hok hmem
    · next hpseudo =>
      split at hok
      · cases hok
      · obtain rfl | hmem := List.mem_cons.mp hmem
        · exact absurd (isPseudo_of_head hhead) hpseudo
        · exact ih hok hmem

theorem trailer_pseudo {headers : List Header} (hok : validateTrailerHeaders headers = .ok ())
    {h : Header} (hmem : h ∈ headers) : h.name.head? ≠ some 0x3a := by
  induction headers with
  | nil => cases hmem
  | cons first rest ih =>
    rw [validateTrailerHeaders] at hok
    split at hok
    · cases hok
    · next hpseudo =>
      split at hok
      · cases hok
      · obtain rfl | hmem := List.mem_cons.mp hmem
        · exact fun hhead => hpseudo (isPseudo_of_head hhead)
        · exact ih hok hmem

/-- A response of one status field. -/
theorem response_status (value : Bytes) :
    validateResponseHeaders [Header.fromDecoded (ofString ":status") value] = .ok () ↔
      (value.length = 3 ∧ value.all isDigit = true) ∧ value ≠ ofString "101" := by
  have hcheck : (require (!false) >>= fun _ =>
      require (!false || ofString ":status" != ofString ":status") >>= fun _ =>
        checkStatusField (Header.fromDecoded (ofString ":status") value)) = .ok () ↔
      (value.length = 3 ∧ value.all isDigit = true) ∧ value ≠ ofString "101" := by
    simp only [Header.fromDecoded, checkStatusField, require_bind, require_ok, Bool.not_false,
      Bool.true_or, beq_self_eq_true, true_and, Bool.and_eq_true, beq_iff_eq, bne_iff_ne, ne_eq]
  have hpseudo : isPseudo (Header.fromDecoded (ofString ":status") value) = true :=
    isPseudo_of_head (show (ofString ":status").head? = some 0x3a by with_unfolding_all decide)
  rw [← hcheck, validateResponseHeaders, scanResponse, if_pos hpseudo]
  split
  · next e he =>
    refine iff_of_false nofun fun h => ?_
    exact absurd (he.symm.trans h) nofun
  · next u hu => exact iff_of_true rfl hu

theorem isValidFieldValue_digits {value : Bytes} (h : value.all isDigit = true) :
    isValidFieldValue value = true := by
  have hdigit : ∀ b : UInt8, isDigit b = true → Http3.isFieldVchar b = true ∧ isValueByte b = true :=
    Bytes.forall_byte (by decide +kernel)
  rw [List.all_eq_true] at h
  have hall : value.all isValueByte = true :=
    List.all_eq_true.mpr fun b hb => (hdigit b (h b hb)).2
  unfold isValidFieldValue
  split
  · next first last hfirst hlast =>
    rw [hall, (hdigit first (h first (List.mem_of_head? hfirst))).1,
      (hdigit last (h last (List.mem_of_getLast? hlast))).1]
    rfl
  · rfl

section Named

variable (value : Bytes)

theorem checkPseudoValue_method :
    Http3.checkPseudoValue (ofString ":method") value = ofBool (isToken value) := if_pos rfl

theorem checkPseudoValue_scheme :
    Http3.checkPseudoValue (ofString ":scheme") value = ofBool (checkScheme value) := by
  rw [Http3.checkPseudoValue, if_neg (by with_unfolding_all decide), if_pos rfl]

theorem checkPseudoValue_status :
    Http3.checkPseudoValue (ofString ":status") value =
      ofBool (value.length == 3 && value.all isDigit) := by
  rw [Http3.checkPseudoValue, if_neg (by with_unfolding_all decide), if_neg (by with_unfolding_all decide), if_pos rfl]

theorem checkPseudoValue_protocol :
    Http3.checkPseudoValue (ofString ":protocol") value = Http3.checkUpgradeToken value := by
  rw [Http3.checkPseudoValue, if_neg (by with_unfolding_all decide), if_neg (by with_unfolding_all decide),
    if_neg (by with_unfolding_all decide), if_pos rfl]

theorem checkPseudoValue_rest {name : Bytes} (h : name ∈ [ofString ":path", ofString ":authority"]) :
    Http3.checkPseudoValue name value = .ok := by
  have hnames : ∀ n ∈ [ofString ":path", ofString ":authority"], n ≠ ofString ":method" ∧
      n ≠ ofString ":scheme" ∧ n ≠ ofString ":status" ∧ n ≠ ofString ":protocol" := by
    with_unfolding_all decide
  obtain ⟨hm, hs, ht, hp⟩ := hnames name h
  rw [Http3.checkPseudoValue, if_neg hm, if_neg hs, if_neg ht, if_neg hp]

end Named

/-- The two checks of a field agree, whatever its name and value. -/
theorem header_checks_agree (name value : Bytes) :
    checkHeader name value = Http3.checkHeader name value ∧
    (name.head? ≠ some 0x3a →
      (Built name value ↔ isValidFieldName name = true ∧ isValidFieldValue value = true)) ∧
    (Built (ofString ":method") value ↔
      isValidFieldValue value = true ∧ isValidMethod value = true) ∧
    (Built (ofString ":scheme") value ↔
      isValidFieldValue value = true ∧ isValidScheme value = true) ∧
    (Built (ofString ":protocol") value ↔
      isValidFieldValue value = true ∧ isValidProtocol value = true) ∧
    (Built (ofString ":status") value ↔
      validateResponseHeaders [Header.fromDecoded (ofString ":status") value] = .ok () ∨
        value = ofString "101") ∧
    (Built (ofString ":path") value ↔ isValidFieldValue value = true) ∧
    (Built (ofString ":authority") value ↔ isValidFieldValue value = true) ∧
    (name.head? = some 0x3a → name ∉ knownPseudoHeaders → ¬ Built name value ∧
      ∀ headers : List Header, (∃ h ∈ headers, h.name = name) →
        validateRequestHeaders headers ≠ .ok () ∧ validateResponseHeaders headers ≠ .ok () ∧
          validateTrailerHeaders headers ≠ .ok ()) := by
  have hpseudo : ∀ n ∈ knownPseudoHeaders, Built n value ↔
      isValidFieldValue value = true ∧ Http3.checkPseudoValue n value = .ok := fun n hn =>
    (built_iff n value).trans (checkHeader_pseudo hn value)
  refine ⟨checkHeader_eq name value, fun h => (built_iff name value).trans (checkHeader_regular h value),
    ?_, ?_, ?_, ?_, ?_, ?_, ?_⟩
  · rw [hpseudo _ (by with_unfolding_all decide), checkPseudoValue_method, ofBool_ok, isValidMethod]
  · rw [hpseudo _ (by with_unfolding_all decide), checkPseudoValue_scheme, ofBool_ok, isValidScheme]
  · rw [hpseudo _ (by with_unfolding_all decide), checkPseudoValue_protocol, checkUpgradeToken_ok]
  · rw [hpseudo _ (by with_unfolding_all decide), checkPseudoValue_status, ofBool_ok, response_status,
      Bool.and_eq_true, beq_iff_eq]
    constructor
    · rintro ⟨-, hdigits⟩
      by_cases h101 : value = ofString "101"
      · exact .inr h101
      · exact .inl ⟨hdigits, h101⟩
    · rintro (⟨hdigits, -⟩ | rfl)
      · exact ⟨isValidFieldValue_digits hdigits.2, hdigits⟩
      · with_unfolding_all decide
  · rw [hpseudo _ (by with_unfolding_all decide), checkPseudoValue_rest value List.mem_cons_self]
    exact and_iff_left rfl
  · rw [hpseudo _ (by with_unfolding_all decide),
      checkPseudoValue_rest value (List.mem_cons_of_mem _ List.mem_cons_self)]
    exact and_iff_left rfl
  · intro hhead hknown
    refine ⟨fun h => checkHeader_unknown hhead hknown value ((built_iff name value).mp h), ?_⟩
    rintro headers ⟨h, hmem, rfl⟩
    refine ⟨fun hok => hknown (request_pseudo_known hok hmem hhead), fun hok => ?_,
      fun hok => trailer_pseudo hok hmem hhead⟩
    rw [validateResponseHeaders] at hok
    cases hscan : scanResponse false false headers with
    | error e =>
      rw [hscan] at hok
      cases hok
    | ok r =>
      refine hknown ?_
      rw [scanResponse_pseudo hscan hmem hhead]
      with_unfolding_all decide

end Http3.HeaderCheck
