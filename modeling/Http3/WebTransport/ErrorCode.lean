import Http3.Lib.Skip
import Http3.WebTransport.Session

/-!
# The error codes of WebTransport

The codes of an application lie in one range of the codes of HTTP/3. The code points
`0x1f * N + 0x21` are reserved, so one number in 31 is left out on the way there and back.
-/

namespace Http3

def WtErrorCode.fromCode (code : Nat) : Option WtErrorCode :=
  if code = 0x3994bd84 then some .bufferedStreamRejected
  else if code = 0x170d7b68 then some .sessionGone
  else if code = 0x045d4487 then some .flowControlError
  else if code = 0x0817b3dd then some .alpnError
  else if code = 0x212c0d48 then some .requirementsNotMet
  else none

theorem WtErrorCode.code_of_fromCode {code : Nat} {e : WtErrorCode} (h : fromCode code = some e) :
    e.code = code := by
  unfold fromCode at h
  split_ifs at h <;> cases h <;> exact Eq.symm ‹_›

namespace WebTransport

namespace ApplicationErrorCode

def FIRST : Nat := 0x52e4a40fa8db

def LAST : Nat := 0x52e5ac983162

def toHttp3Code (appCode : Nat) : Nat := FIRST + appCode + appCode / 0x1e

def fromHttp3Code (http3Code : Nat) : Option Nat :=
  if ¬(FIRST ≤ http3Code ∧ http3Code ≤ LAST) then none
  else if (http3Code + 2 ^ 64 - 0x21) % 2 ^ 64 % 0x1f = 0 then none
  else
    let shifted := http3Code - FIRST
    let appCode := shifted - shifted / 0x1f
    if appCode < 2 ^ 32 then some appCode else none

def isApplicationError (http3Code : Nat) : Bool := FIRST ≤ http3Code && http3Code ≤ LAST

open Skip (skip unskip)

theorem toHttp3Code_eq (appCode : Nat) : toHttp3Code appCode = FIRST + skip 30 appCode := by
  rw [toHttp3Code, skip, Nat.add_assoc]

theorem toHttp3Code_strictMono : StrictMono toHttp3Code := by
  intro a b h
  rw [toHttp3Code_eq, toHttp3Code_eq]
  exact Nat.add_lt_add_left (Skip.skip_strictMono 30 h) FIRST

theorem toHttp3Code_le_last {appCode : Nat} (h : appCode < 2 ^ 32) : toHttp3Code appCode ≤ LAST := by
  unfold toHttp3Code FIRST LAST
  omega

/-- The range starts where the numbers that are left out are those with the remainder 30. -/
theorem reserved_iff {offset : Nat} :
    (∃ n, FIRST + offset = 0x1f * n + 0x21) ↔ offset % (30 + 1) = 30 := by
  unfold FIRST
  constructor
  · rintro ⟨n, hn⟩
    omega
  · intro h
    exact ⟨(0x52e4a40fa8db + offset - 0x21) / 0x1f, by omega⟩

theorem toHttp3Code_not_reserved (appCode n : Nat) : toHttp3Code appCode ≠ 0x1f * n + 0x21 := by
  intro h
  rw [toHttp3Code_eq] at h
  exact Skip.skip_mod_ne (by decide) appCode (reserved_iff.mp ⟨n, h⟩)

/-- What is read back is the place of the code among those that are not reserved. -/
theorem fromHttp3Code_eq_some {http3Code appCode : Nat} :
    fromHttp3Code http3Code = some appCode ↔
      ∃ offset, http3Code = FIRST + offset ∧ http3Code ≤ LAST ∧ offset % (30 + 1) ≠ 30 ∧
        unskip 30 offset = appCode ∧ appCode < 2 ^ 32 := by
  unfold fromHttp3Code
  by_cases hrange : FIRST ≤ http3Code ∧ http3Code ≤ LAST
  · obtain ⟨hfirst, hlast⟩ := hrange
    obtain ⟨offset, rfl⟩ := Nat.exists_eq_add_of_le hfirst
    have hwrap : (FIRST + offset + 2 ^ 64 - 0x21) % 2 ^ 64 = FIRST + offset - 0x21 := by
      unfold FIRST LAST at *
      omega
    have hreserved : (FIRST + offset + 2 ^ 64 - 0x21) % 2 ^ 64 % 0x1f = 0 ↔
        offset % (30 + 1) = 30 := by
      rw [hwrap]
      unfold FIRST
      omega
    rw [if_neg (not_not_intro ⟨hfirst, hlast⟩)]
    by_cases hskipped : offset % (30 + 1) = 30
    · rw [if_pos (hreserved.mpr hskipped)]
      refine iff_of_false (by simp) ?_
      rintro ⟨other, hother, -, hne, -⟩
      obtain rfl := Nat.add_left_cancel hother
      exact hne hskipped
    · rw [if_neg (mt hreserved.mp hskipped), Nat.add_sub_cancel_left]
      constructor
      · intro h
        dsimp only at h
        split at h
        · rename_i hsmall
          cases h
          exact ⟨offset, rfl, hlast, hskipped, rfl, hsmall⟩
        · cases h
      · rintro ⟨other, hother, -, -, rfl, hsmall⟩
        obtain rfl := Nat.add_left_cancel hother
        exact if_pos hsmall
  · rw [if_pos hrange]
    refine iff_of_false (by simp) ?_
    rintro ⟨offset, rfl, hlast, -⟩
    exact hrange ⟨Nat.le_add_right FIRST offset, hlast⟩

/-- Reading back is the inverse on the codes that are written, and on no others. -/
theorem fromHttp3Code_iff {http3Code appCode : Nat} :
    fromHttp3Code http3Code = some appCode ↔ appCode < 2 ^ 32 ∧ toHttp3Code appCode = http3Code := by
  rw [fromHttp3Code_eq_some, toHttp3Code_eq]
  constructor
  · rintro ⟨offset, rfl, -, hkept, rfl, hsmall⟩
    exact ⟨hsmall, by rw [Skip.skip_unskip (by decide) hkept]⟩
  · rintro ⟨hsmall, rfl⟩
    have hlast := toHttp3Code_le_last hsmall
    rw [toHttp3Code_eq] at hlast
    exact ⟨skip 30 appCode, rfl, hlast, Skip.skip_mod_ne (by decide) appCode,
      Skip.unskip_skip (by decide) appCode, hsmall⟩

end ApplicationErrorCode

namespace Error

def fromHttp3Code (code : Nat) : Error :=
  match WtErrorCode.fromCode code with
  | some errorCode => .protocol errorCode
  | none =>
    match ApplicationErrorCode.fromHttp3Code code with
    | some appCode => .application appCode []
    | none => .unknown code

def toHttp3Code : Error → Nat
  | protocol code => code.code
  | application code _ => ApplicationErrorCode.toHttp3Code code
  | unknown code => code

theorem toHttp3Code_fromHttp3Code (code : Nat) : (fromHttp3Code code).toHttp3Code = code := by
  unfold fromHttp3Code
  cases hprotocol : WtErrorCode.fromCode code with
  | some errorCode => exact WtErrorCode.code_of_fromCode hprotocol
  | none =>
    cases hcode : ApplicationErrorCode.fromHttp3Code code with
    | some appCode => exact (ApplicationErrorCode.fromHttp3Code_iff.mp hcode).2
    | none => rfl

end Error

open ApplicationErrorCode in
/-- **The codes of an application** keep their order among the codes of HTTP/3, off the reserved
ones, and are read back from there and from nowhere else. -/
theorem application_codes_embed :
    (∀ a < 2 ^ 32, ∀ b < 2 ^ 32, a < b → toHttp3Code a < toHttp3Code b) ∧
    (∀ a < 2 ^ 32, ∀ b < 2 ^ 32, toHttp3Code a = toHttp3Code b → a = b) ∧
    (∀ a < 2 ^ 32, isApplicationError (toHttp3Code a) = true ∧ toHttp3Code a < 2 ^ 64 ∧
      ∀ n, toHttp3Code a ≠ 0x1f * n + 0x21) ∧
    (∀ c < 2 ^ 64, ∀ a, fromHttp3Code c = some a ↔ a < 2 ^ 32 ∧ toHttp3Code a = c) ∧
    ∀ c < 2 ^ 64, (Error.fromHttp3Code c).toHttp3Code = c := by
  refine ⟨fun a _ b _ h => toHttp3Code_strictMono h,
    fun a _ b _ h => toHttp3Code_strictMono.injective h, fun a ha => ?_,
    fun c _ a => fromHttp3Code_iff, fun c _ => Error.toHttp3Code_fromHttp3Code c⟩
  have hlast := toHttp3Code_le_last ha
  have hfirst : FIRST ≤ toHttp3Code a := by
    rw [toHttp3Code_eq]
    exact Nat.le_add_right FIRST _
  refine ⟨?_, ?_, toHttp3Code_not_reserved a⟩
  · rw [isApplicationError, decide_eq_true hfirst, decide_eq_true hlast, Bool.and_self]
  · exact hlast.trans_lt (by decide)

end WebTransport

end Http3
