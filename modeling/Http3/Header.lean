import Http3.Error

/-!
# Header fields

`Header.new` checks one field on its own: the name, the value, and the value of a pseudo header.
What depends on the whole list is checked by the validation of requests and responses.
-/

namespace Http3

open Bytes

structure Header where
  name : Bytes
  value : Bytes
  neverIndexed : Bool
  deriving DecidableEq

inductive HeaderError where
  | emptyFieldName
  | uppercaseFieldName (name : Bytes)
  | invalidFieldNameByte (name : Bytes) (byte : UInt8)
  | invalidFieldValueByte (name : Bytes) (byte : UInt8)
  | fieldValueLeadingOrTrailingWhitespace (name : Bytes)
  | unknownPseudoHeader (name : Bytes)
  | invalidPseudoHeaderValue (name value : Bytes)
  deriving DecidableEq

/-! ## Character classes -/

def isDigit (b : UInt8) : Bool := 0x30 ≤ b && b ≤ 0x39

def isUpper (b : UInt8) : Bool := 0x41 ≤ b && b ≤ 0x5a

def isLower (b : UInt8) : Bool := 0x61 ≤ b && b ≤ 0x7a

def isAlpha (b : UInt8) : Bool := isUpper b || isLower b

/-- The characters of a token that are neither letters nor digits. -/
def tokenMarks : Bytes := ofString "!#$%&'*+-.^_\x60|~"

def isLowercaseTokenByte (b : UInt8) : Bool := tokenMarks.contains b || isDigit b || isLower b

def isFieldVchar (b : UInt8) : Bool := (0x21 ≤ b && b ≤ 0x7e) || 0x80 ≤ b

def isTchar (b : UInt8) : Bool := tokenMarks.contains b || isDigit b || isAlpha b

/-! ## The check of one field -/

inductive CheckResult where
  | ok
  | emptyFieldName
  | uppercaseFieldName
  | invalidFieldNameByte (byte : UInt8)
  | invalidFieldValueByte (byte : UInt8)
  | fieldValueLeadingOrTrailingWhitespace
  | unknownPseudoHeader
  | invalidPseudoHeaderValue
  deriving DecidableEq

def knownPseudoHeaders : List Bytes :=
  [":method", ":scheme", ":authority", ":path", ":status", ":protocol"].map ofString

/-- The first byte of a name that is not allowed. -/
def checkNameBytes : Bytes → CheckResult
  | [] => .ok
  | b :: rest =>
    if isUpper b then .uppercaseFieldName
    else if !isLowercaseTokenByte b then .invalidFieldNameByte b
    else checkNameBytes rest

def isValueByte (b : UInt8) : Bool := isFieldVchar b || b == 0x20 || b == 0x09

def ofBool (b : Bool) : CheckResult := if b then .ok else .invalidPseudoHeaderValue

def isToken (value : Bytes) : Bool := !value.isEmpty && value.all isTchar

/-- A token, or two tokens with a slash between them. -/
def checkUpgradeToken (value : Bytes) : CheckResult :=
  match value.findIdx? (· == 0x2f) with
  | none => ofBool (isToken value)
  | some slash => ofBool (isToken (value.take slash) && isToken (value.drop (slash + 1)))

def checkScheme : Bytes → Bool
  | [] => false
  | first :: rest =>
    isAlpha first && rest.all fun b => isAlpha b || isDigit b || (ofString "+-.").contains b

def checkPseudoValue (name value : Bytes) : CheckResult :=
  if name = ofString ":method" then ofBool (isToken value)
  else if name = ofString ":scheme" then ofBool (checkScheme value)
  else if name = ofString ":status" then ofBool (value.length == 3 && value.all isDigit)
  else if name = ofString ":protocol" then checkUpgradeToken value
  else .ok

def checkValue (value : Bytes) : CheckResult :=
  match value.find? fun b => !isValueByte b with
  | some b => .invalidFieldValueByte b
  | none =>
    match value.head?, value.getLast? with
    | some first, some last =>
      if !isFieldVchar first || !isFieldVchar last then .fieldValueLeadingOrTrailingWhitespace
      else .ok
    | _, _ => .ok

def checkHeader (name value : Bytes) : CheckResult :=
  match name with
  | [] => .emptyFieldName
  | first :: rest =>
    let isPseudo := first == 0x3a
    match checkNameBytes (if isPseudo then rest else name) with
    | .ok =>
      if isPseudo && name.length == 1 then .unknownPseudoHeader
      else if isPseudo && !knownPseudoHeaders.contains name then .unknownPseudoHeader
      else
        match checkValue value with
        | .ok => if isPseudo then checkPseudoValue name value else .ok
        | other => other
    | other => other

def Header.new (name value : Bytes) : Except HeaderError Header :=
  match checkHeader name value with
  | .ok => .ok ⟨name, value, false⟩
  | .emptyFieldName => .error .emptyFieldName
  | .uppercaseFieldName => .error (.uppercaseFieldName name)
  | .invalidFieldNameByte byte => .error (.invalidFieldNameByte name byte)
  | .invalidFieldValueByte byte => .error (.invalidFieldValueByte name byte)
  | .fieldValueLeadingOrTrailingWhitespace => .error (.fieldValueLeadingOrTrailingWhitespace name)
  | .unknownPseudoHeader => .error (.unknownPseudoHeader name)
  | .invalidPseudoHeaderValue => .error (.invalidPseudoHeaderValue name value)

namespace Header

/-- A field that was decoded; nothing about it has been checked. -/
def fromDecoded (name value : Bytes) : Header := ⟨name, value, false⟩

def fromStatic (name value : String) : Header := ⟨ofString name, ofString value, false⟩

def size (h : Header) : Nat := h.name.length + h.value.length + 32

def withNeverIndexed (h : Header) (neverIndexed : Bool) : Header :=
  { h with neverIndexed := neverIndexed }

end Header

end Http3
