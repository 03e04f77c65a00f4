import Http3.Qpack.Huffman

/-!
# String literals

A string is its length, with a flag just above the prefix bits that says whether the bytes are a
Huffman code, and then the bytes.
-/

namespace Http3.Qpack

def encodeStringWithPrefix (data : Bytes) (prefixBits : Nat) (high : UInt8) (useHuffman : Bool) :
    Bytes :=
  let huffmanLen := Huffman.encodedLen data
  if useHuffman ∧ huffmanLen < data.length then
    encodeIntegerToVec huffmanLen prefixBits (high ||| UInt8.ofNat (1 <<< prefixBits))
      ++ Huffman.encode data
  else encodeIntegerToVec data.length prefixBits high ++ data

def encodeString (data : Bytes) (useHuffman : Bool) : Bytes :=
  encodeStringWithPrefix data 7 0x00 useHuffman

/-- The string of a given length, and that length. -/
def decodeStringWithLen (data : Bytes) (length : Nat) (isHuffman : Bool) :
    Except QpackError (Bytes × Nat) :=
  if data.length < length then .error .bufferTooShort
  else
    let encoded := data.take length
    if isHuffman then (Huffman.decode encoded).map fun s => (s, length)
    else .ok (encoded, length)

/-- The string and the number of bytes it took. -/
def decodeStringWithPrefix (data : Bytes) (prefixBits : Nat) : Except QpackError (Bytes × Nat) :=
  match data with
  | [] => .error .bufferTooShort
  | first :: _ =>
    let isHuffman := first &&& UInt8.ofNat (1 <<< prefixBits) != 0
    match decodeInteger data prefixBits with
    | .error e => .error e
    | .ok (length, prefixLen) =>
      let totalLen := prefixLen + length
      if data.length < totalLen then .error .bufferTooShort
      else
        let encoded := (data.take totalLen).drop prefixLen
        if isHuffman then (Huffman.decode encoded).map fun s => (s, totalLen)
        else .ok (encoded, totalLen)

def decodeString (data : Bytes) : Except QpackError (Bytes × Nat) := decodeStringWithPrefix data 7

end Http3.Qpack
