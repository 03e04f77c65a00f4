import Http3.Header
import Http3.Stream.Buffer

/-!
# Validation of requests, responses and trailers

The checks that depend on a whole list of fields. A list that was decoded has not been through
`Header.new`, so names and values are checked again here. Every failure is the same stream error.
-/

namespace Http3

open Bytes

namespace Validation

def messageError : Error := .streamError .messageError

/-- Fail unless the condition holds. -/
def require (c : Bool) : Except Error Unit := if c then .ok () else .error messageError

def connectionSpecificFields : List Bytes :=
  ["connection", "keep-alive", "proxy-connection", "transfer-encoding", "upgrade"].map ofString

/-! ## Syntax of single values -/

def isAlnum (b : UInt8) : Bool := isAlpha b || isDigit b

def isHexDigit (b : UInt8) : Bool :=
  isDigit b || (0x41 ≤ b && b ≤ 0x46) || (0x61 ≤ b && b ≤ 0x66)

def isValidMethod (method : Bytes) : Bool := isToken method

def isValidScheme (scheme : Bytes) : Bool := checkScheme scheme

def isValidProtocol (value : Bytes) : Bool :=
  match value.findIdx? (· == 0x2f) with
  | none => isToken value
  | some slash => isToken (value.take slash) && isToken (value.drop (slash + 1))

/-- Plain characters and percent-encoded bytes. -/
def isPctString (plain : UInt8 → Bool) : Bytes → Bool
  | [] => true
  | b :: rest =>
    if b == 0x25 then
      match rest with
      | h₁ :: h₂ :: tail => isHexDigit h₁ && isHexDigit h₂ && isPctString plain tail
      | _ => false
    else plain b && isPctString plain rest

def isPchar (b : UInt8) : Bool := isAlnum b || (ofString "-._~!$&'()*+,;=:@").contains b

def isValidPathChars (path : Bytes) : Bool := isPctString (fun b => b == 0x2f || isPchar b) path

def isValidQueryChars (query : Bytes) : Bool :=
  isPctString (fun b => b == 0x2f || b == 0x3f || isPchar b) query

def isValidHttpPath (path method : Bytes) : Bool :=
  if path.isEmpty then false
  else if method = ofString "OPTIONS" ∧ path = ofString "*" then true
  else if path.head? != some 0x2f then false
  else if path.contains 0x23 then false
  else
    match path.findIdx? (· == 0x3f) with
    | some pos => isValidPathChars (path.take pos) && isValidQueryChars (path.drop (pos + 1))
    | none => isValidPathChars path

def isValidFieldName (name : Bytes) : Bool := !name.isEmpty && name.all isLowercaseTokenByte

def isValidFieldValue (value : Bytes) : Bool :=
  match value.head?, value.getLast? with
  | some first, some last =>
    isFieldVchar first && isFieldVchar last && value.all isValueByte
  | _, _ => true

def isRegNameChar (b : UInt8) : Bool := isAlnum b || (ofString "-._~!$&'()*+,;=%").contains b

def isValidRegName (host : Bytes) : Bool := isPctString isRegNameChar host

def isValidIpLiteralContent (content : Bytes) : Bool :=
  match content with
  | [] => false
  | first :: rest =>
    if first == 0x76 then
      content.length ≥ 4 && rest.contains 0x2e
        && rest.all fun b => isHexDigit b || (ofString ".:-_~!$&'()*+,;=").contains b
    else content.all fun b => isHexDigit b || b == 0x3a || b == 0x2e

/-- The last position of a byte. -/
def rposition (b : UInt8) (l : Bytes) : Option Nat :=
  (l.reverse.findIdx? (· == b)).map fun i => l.length - 1 - i

def isValidAuthority (value : Bytes) : Bool :=
  match value with
  | [] => false
  | first :: _ =>
    if first == 0x5b then
      match value.findIdx? (· == 0x5d) with
      | none => false
      | some bracketEnd =>
        if !isValidIpLiteralContent ((value.take bracketEnd).drop 1) then false
        else
          match value.drop (bracketEnd + 1) with
          | [] => true
          | colon :: port => colon == 0x3a && port.all isDigit
    else
      match rposition 0x3a value with
      | some colonPos =>
        let host := value.take colonPos
        let port := value.drop (colonPos + 1)
        if !port.isEmpty && port.all isDigit then !host.isEmpty && isValidRegName host
        else isValidRegName value
      | none => isValidRegName value

def isValidConnectAuthority (value : Bytes) : Bool :=
  match value with
  | [] => false
  | first :: _ =>
    if first == 0x5b then
      match value.findIdx? (· == 0x5d) with
      | none => false
      | some bracketEnd =>
        match value.drop (bracketEnd + 1) with
        | [] => false
        | colon :: port =>
          colon == 0x3a && isValidIpLiteralContent ((value.take bracketEnd).drop 1)
            && !port.isEmpty && port.all isDigit
    else
      match rposition 0x3a value with
      | none => false
      | some colonPos =>
        let host := value.take colonPos
        let port := value.drop (colonPos + 1)
        !host.isEmpty && !port.isEmpty && isValidRegName host && port.all isDigit

/-! ## Requests -/

/-- What a request has said so far. -/
structure RequestFields where
  method : Option Bytes
  scheme : Option Bytes
  path : Option Bytes
  authority : Option Bytes
  protocol : Option Bytes
  host : Option Bytes
  pseudoDone : Bool
  deriving DecidableEq

def RequestFields.empty : RequestFields := ⟨none, none, none, none, none, none, false⟩

def isPseudo (h : Header) : Bool := h.name.head? == some 0x3a

/-- A pseudo header, each of which may come once. -/
def scanPseudo (f : RequestFields) (h : Header) : Except Error RequestFields := do
  require (!f.pseudoDone)
  require (isValidFieldValue h.value)
  if h.name = ofString ":method" then
    require f.method.isNone
    return { f with method := some h.value }
  else if h.name = ofString ":scheme" then
    require f.scheme.isNone
    return { f with scheme := some h.value }
  else if h.name = ofString ":path" then
    require f.path.isNone
    return { f with path := some h.value }
  else if h.name = ofString ":authority" then
    require f.authority.isNone
    return { f with authority := some h.value }
  else if h.name = ofString ":protocol" then
    require f.protocol.isNone
    return { f with protocol := some h.value }
  else throw messageError

def scanRegular (f : RequestFields) (h : Header) : Except Error RequestFields := do
  let f := { f with pseudoDone := true }
  require (isValidFieldName h.name)
  require (!connectionSpecificFields.contains h.name)
  require (!(h.name == ofString "te" && h.value != ofString "trailers"))
  require (isValidFieldValue h.value)
  if h.name = ofString "host" then
    require f.host.isNone
    return { f with host := some h.value }
  else return f

def scanRequest : RequestFields → List Header → Except Error RequestFields
  | f, [] => .ok f
  | f, h :: rest =>
    match if isPseudo h then scanPseudo f h else scanRegular f h with
    | .error e => .error e
    | .ok f => scanRequest f rest

def isHttpScheme (scheme : Option Bytes) : Bool :=
  scheme == some (ofString "http") || scheme == some (ofString "https")

/-- Both are given and differ. -/
def conflicts (authority host : Option Bytes) : Bool :=
  match authority, host with
  | some a, some h => a != h
  | _, _ => false

def checkExtendedConnect (f : RequestFields) (method : Bytes) : Except Error Unit := do
  require (f.scheme.isSome && f.path.isSome)
  require (f.protocol.all isValidProtocol)
  require (f.scheme.all isValidScheme)
  require (f.path.all (isValidHttpPath · method))
  require (!(isHttpScheme f.scheme && f.authority.isNone && f.host.isNone))
  require (!conflicts f.authority f.host)
  require (f.authority.all (!·.isEmpty))
  require (f.host.all (!·.isEmpty))

def checkPlainConnect (f : RequestFields) : Except Error Unit := do
  require (f.scheme.isNone && f.path.isNone)
  match f.authority with
  | none => throw messageError
  | some a => require (isValidConnectAuthority a)

def checkOrdinary (f : RequestFields) (method : Bytes) : Except Error Unit := do
  require f.protocol.isNone
  require (f.scheme.isSome && f.path.isSome)
  require (f.scheme.all isValidScheme)
  require (f.path.all (!·.isEmpty))
  require (f.path.all fun p => !isHttpScheme f.scheme || isValidHttpPath p method)
  require (!(isHttpScheme f.scheme && f.authority.isNone && f.host.isNone))

def checkAuthority (f : RequestFields) (method : Bytes) : Except Error Unit := do
  let connect := method == ofString "CONNECT"
  require (!conflicts f.authority f.host)
  require (f.authority.all fun a => !a.isEmpty || connect)
  require (f.host.all (!·.isEmpty))
  require (f.authority.isSome || f.host.all isValidAuthority)
  require (!isHttpScheme f.scheme || f.authority.all (!·.contains 0x40))
  require ((connect && f.protocol.isNone) || f.authority.all isValidAuthority)

def validateRequestHeaders (headers : List Header) : Except Error Unit := do
  let f ← scanRequest .empty headers
  match f.method with
  | none => throw messageError
  | some method =>
    require (isValidMethod method)
    if method = ofString "CONNECT" then
      if f.protocol.isSome then checkExtendedConnect f method else checkPlainConnect f
    else checkOrdinary f method
    checkAuthority f method

/-! ## Responses and trailers -/

def checkStatusField (h : Header) : Except Error Unit := do
  require (h.name == ofString ":status")
  require (h.value.length == 3 && h.value.all isDigit)
  require (h.value != ofString "101")

/-- A field of a response or a trailer that is not a pseudo header. -/
def checkRegular (h : Header) : Except Error Unit := do
  require (isValidFieldName h.name)
  require (!connectionSpecificFields.contains h.name)
  require (h.name != ofString "te")
  require (isValidFieldValue h.value)

/-- The fields of a response, after a status or regular fields have been seen. -/
def scanResponse (status pseudoDone : Bool) : List Header → Except Error Bool
  | [] => .ok status
  | h :: rest =>
    if isPseudo h then
      match (do require (!pseudoDone); require (!status || h.name != ofString ":status");
                checkStatusField h : Except Error Unit) with
      | .error e => .error e
      | .ok _ => scanResponse true false rest
    else
      match checkRegular h with
      | .error e => .error e
      | .ok _ => scanResponse status true rest

def validateResponseHeaders (headers : List Header) : Except Error Unit := do
  require (← scanResponse false false headers)

def validateHeaders (headers : List Header) : Role → Except Error Unit
  | .server => validateRequestHeaders headers
  | .client => validateResponseHeaders headers

def validateTrailerHeaders : List Header → Except Error Unit
  | [] => .ok ()
  | h :: rest =>
    if isPseudo h then .error messageError
    else
      match checkRegular h with
      | .error e => .error e
      | .ok _ => validateTrailerHeaders rest

/-! ## Sizes -/

/-- A decimal `u64`. -/
def parseU64 (value : Bytes) : Option Nat :=
  if value.isEmpty || !value.all isDigit then none
  else
    let n := value.foldl (fun n b => n * 10 + (b.toNat - 0x30)) 0
    if n < 2 ^ 64 then some n else none

def scanContentLength (found : Option Nat) : List Header → Except Error (Option Nat)
  | [] => .ok found
  | h :: rest =>
    if h.name = ofString "content-length" then
      if found.isSome then .error messageError
      else
        match parseU64 h.value with
        | none => .error messageError
        | some n => scanContentLength (some n) rest
    else scanContentLength found rest

def validateContentLength (headers : List Header) (receivedBodySize : Nat) (skipBodyCheck : Bool) :
    Except Error Unit := do
  match ← scanContentLength none headers with
  | none => return ()
  | some expected => require (skipBodyCheck || expected == receivedBodySize)

def calculateFieldSectionSize (headers : List Header) : Nat := (headers.map Header.size).sum

def checkFieldSectionSize (headers : List Header) (peerMax : Option Nat) : Except Error Unit :=
  match peerMax with
  | some maxSize =>
    if calculateFieldSectionSize headers > maxSize then .error (.connectionError .internalError)
    else .ok ()
  | none => .ok ()

end Validation

end Http3
