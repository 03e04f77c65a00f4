import Http3.Lib.Utf8

/-!
# Structured fields

The two header fields of a WebTransport CONNECT that carry structured fields: a list of strings
and one string. Strings are their UTF-8 bytes.
-/

namespace Http3.SfParser

def MAX_SF_INPUT_LEN : Nat := 8192

def MAX_SF_ELEMENTS : Nat := 256

/-- The value up to the first `;` outside a quoted string. -/
def stripLoop (inString escaped : Bool) : Bytes → Bytes
  | [] => []
  | b :: bs =>
    if escaped then b :: stripLoop inString false bs
    else if b = 0x22 then b :: stripLoop (!inString) false bs
    else if b = 0x5c && inString then b :: stripLoop inString true bs
    else if b = 0x3b && !inString then []
    else b :: stripLoop inString false bs

def stripSfParameters (value : Bytes) : Bytes := stripLoop false false value

/-- Replace each occurrence of the pair `a b` by `c`, from the left. -/
def replacePair (a b c : UInt8) : Bytes → Bytes
  | [] => []
  | [x] => [x]
  | x :: y :: rest =>
    if x = a ∧ y = b then c :: replacePair a b c rest else x :: replacePair a b c (y :: rest)

def unescape (inner : Bytes) : Bytes :=
  let unescaped := replacePair 0x5c 0x22 0x22 (replacePair 0x5c 0x5c 0x00 inner)
  unescaped.map fun b => if b = 0x00 then 0x5c else b

def parseSfItemString (value : Bytes) : Option Bytes :=
  let value := Utf8.trim (stripSfParameters (Utf8.trim value))
  if value.head? = some 0x22 ∧ value.getLast? = some 0x22 ∧ 2 ≤ value.length then
    some (unescape (value.tail.dropLast))
  else none

/-- The items between commas, empty ones included. -/
def splitComma (value : Bytes) : List Bytes := value.splitOnP (· == 0x2c)

def parseItems : List Bytes → List Bytes → List Bytes
  | [], result => result
  | item :: items, result =>
    if MAX_SF_ELEMENTS ≤ result.length then []
    else
      let item := Utf8.trim item
      if item.isEmpty then parseItems items result
      else
        match parseSfItemString item with
        | some s => parseItems items (result ++ [s])
        | none => []

def parseSfListStrings (value : Bytes) : List Bytes :=
  if MAX_SF_INPUT_LEN < value.length then []
  else if value.any fun b => b < 0x20 || b = 0x7f then []
  else parseItems (splitComma value) []

end Http3.SfParser
