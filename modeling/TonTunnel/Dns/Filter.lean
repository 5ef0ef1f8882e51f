import TonTunnel.Lib.Buffer
import TonTunnel.Lib.WhiteSpace
import TonTunnel.Protocol.Android

/-!
The DNS filter of the Android client: `DnsPacketHandler`.

`Int` is a 32-bit number, and the two sums that are compared with `packetLength` wrap
(`addInt`). The offset itself does not: it is the index of a byte that was read, plus one
or plus the length of a label that was read. An access outside an array, or a buffer with
a negative capacity, is the exception that is thrown.

A string is the list of its characters. Lower case beyond ASCII is a matter of the
Unicode tables, which are a parameter (`UnicodeData`).
-/

namespace TonTunnel.DnsFilter

open Buffer BigEndian Android
open WhiteSpace (isWhitespace trim)

abbrev Text := List Char

/-- A `ByteArray`: its size is an `Int`. -/
structure JavaArray where
  bytes : Bytes
  size_lt : bytes.length < 2 ^ 31

/-- `a + b` on `Int`. -/
def addInt (a b : Int) : Int :=
  (a + b).bmod (2 ^ 32)

inductive Thrown where
  /-- `IndexOutOfBoundsException` -/
  | outOfBounds (fault : Fault)
  /-- `IllegalArgumentException` of `ByteBuffer.allocate` -/
  | illegalArgument
  /-- `BufferOverflowException` -/
  | overflow
  deriving DecidableEq, Repr

def access {α : Type} : Except Fault α → Except Thrown α
  | .ok v => .ok v
  | .error fault => .error (.outOfBounds fault)

/-- What a `ByteBuffer` does with a `put`. -/
def fill : Option ByteBuffer → Except Thrown ByteBuffer
  | some b => .ok b
  | none => .error .overflow

/-! ### Lower case -/

/-- What the Unicode tables say about the characters beyond ASCII: the lower case of a
character, and whether it is cased and whether it is ignored between cased ones. -/
structure UnicodeData where
  lower : Char → Text
  cased : Char → Bool
  caseIgnorable : Char → Bool

section LowerCase

variable (u : UnicodeData)

def isAscii (c : Char) : Bool :=
  c.toNat < 128

/-- Apostrophe, full stop, colon, circumflex and grave accent. -/
def asciiIgnorable (c : Char) : Bool :=
  c = Char.ofNat 39 || c = '.' || c = ':' || c = '^' || c = Char.ofNat 96

def lowerChar (c : Char) : Text :=
  if isAscii c then [c.toLower] else u.lower c

def isCased (c : Char) : Bool :=
  if isAscii c then c.isAlpha else u.cased c

def isCaseIgnorable (c : Char) : Bool :=
  if isAscii c then asciiIgnorable c else u.caseIgnorable c

/-- Some ignored characters, then a cased one. -/
def meetsCased : Text → Bool
  | [] => false
  | c :: rest => isCased u c || isCaseIgnorable u c && meetsCased rest

/-- The characters behind `before`, which is in reverse. A capital sigma has a form of its
own at the end of a word; no other rule of `Locale.US` looks at the neighbours. -/
def lowercaseLoop (before : Text) : Text → Text
  | [] => []
  | c :: rest =>
      let lower :=
        if c = 'Σ' then if meetsCased u before && !meetsCased u rest then ['ς'] else ['σ']
        else lowerChar u c
      lower ++ lowercaseLoop (c :: before) rest

/-- `text.lowercase(Locale.US)`. -/
def lowercase (text : Text) : Text :=
  lowercaseLoop u [] text

end LowerCase

example (u : UnicodeData) : lowercase u "Ads.EXAMPLE.com".toList = "ads.example.com".toList := by
  rfl

/-! ### The question -/

structure ParsedQuestion where
  domainName : Text
  questionEndOffset : Int
  deriving DecidableEq, Repr

/-- The loop of `parseQuestion`: the offset behind the name and the labels, or `none` for
`return null`. -/
def parseLabels (packetBytes : Bytes) (packetLength : Int) (offset : Nat) (labels : List Text) :
    Except Thrown (Option (Nat × List Text)) :=
  if (offset : Int) < packetLength then do
    let labelLength := (← access (get packetBytes offset)).toNat
    let offset' := offset + 1
    if labelLength = 0 then
      return some (offset', labels)
    else if labelLength &&& 0xC0 = 0xC0 then
      return none
    else if addInt offset' labelLength > packetLength then
      return none
    else
      let label ← access (getSlice packetBytes offset' labelLength)
      parseLabels packetBytes packetLength (offset' + labelLength) (labels ++ [decodeUtf8 label])
  else
    return some (offset, labels)
termination_by packetLength.toNat - offset

/-- `parseQuestion` behind its loop. -/
def questionBehind (packetLength : Int) : Option (Nat × List Text) → Option ParsedQuestion
  | none => none
  | some (offset, labels) =>
      if addInt offset 4 > packetLength then none
      else some { domainName := ['.'].intercalate labels, questionEndOffset := addInt offset 4 }

def parseQuestion (packetBytes : Bytes) (packetLength : Int) :
    Except Thrown (Option ParsedQuestion) := do
  let header ← access (getSlice packetBytes 0 12)
  let qdCount ← access (get16 header 4)
  if qdCount < 1 then
    return none
  else
    return questionBehind packetLength (← parseLabels packetBytes packetLength 12 [])

/-! ### The response -/

/-- `ByteBuffer.allocate`. -/
def allocate (capacity : Int) : Except Thrown ByteBuffer :=
  if capacity < 0 then .error .illegalArgument else .ok (ByteBuffer.allocate capacity.toNat)

/-- The range of `response.put(requestBytes, offset, length)`. -/
def getRange (bytes : Bytes) (offset : Nat) (length : Int) : Except Thrown Bytes :=
  if length < 0 then .error (.outOfBounds (.read offset))
  else access (getSlice bytes offset length.toNat)

def buildNxdomainResponse (requestBytes : Bytes) (_requestLength questionEndOffset : Int) :
    Except Thrown Bytes := do
  let requestFlags ← access (get16 requestBytes 2)
  let rdFlag := requestFlags &&& 0x0100
  let responseFlags := 0x8000 ||| 0x0080 ||| rdFlag ||| 0x0003
  let responseLength := addInt 12 (addInt questionEndOffset (-12))
  let response ← allocate responseLength
  let response ← fill (response.put [← access (get requestBytes 0)])
  let response ← fill (response.put [← access (get requestBytes 1)])
  let response ← fill (response.putShort responseFlags.toInt16)
  let response ← fill (response.putShort 1)
  let response ← fill (response.putShort 0)
  let response ← fill (response.putShort 0)
  let response ← fill (response.putShort 0)
  let response ← fill (response.put
    (← getRange requestBytes 12 (addInt questionEndOffset (-12))))
  return response.array

/-! ### `handleQuery` -/

inductive Result where
  | blocked (domain : Text) (responseBytes : Bytes) (responseLength : Nat)
  | allowed (domain : Text) (originalPacket : Bytes) (originalLength : Int)
  | invalid
  deriving DecidableEq, Repr

/-- `DnsPacketHandler(blockedDomains)`. -/
structure DnsPacketHandler where
  unicode : UnicodeData
  blockedDomains : List Text

namespace DnsPacketHandler

variable (handler : DnsPacketHandler)

def blockedDomainSet : List Text :=
  handler.blockedDomains.map fun domain =>
    lowercase handler.unicode (trim (fun c => isWhitespace c.toNat) domain)

/-- `handleQuery` behind the call of `parseQuestion`. The packet is not longer than its
array, so `copyOf` cuts it and never fills it up. -/
def verdict (packetBytes : Bytes) (packetLength : Int) :
    Option ParsedQuestion → Except Thrown Result
  | none => return .invalid
  | some parseResult => do
      let normalizedDomain := lowercase handler.unicode parseResult.domainName
      if normalizedDomain ∈ handler.blockedDomainSet then
        let response ← buildNxdomainResponse packetBytes packetLength
          parseResult.questionEndOffset
        return .blocked normalizedDomain response response.length
      else
        return .allowed normalizedDomain (packetBytes.take packetLength.toNat) packetLength

def handleQuery (packetBytes : JavaArray) (packetLength : Int) : Except Thrown Result := do
  if packetLength < 12 then
    return .invalid
  else
    handler.verdict packetBytes.bytes packetLength
      (← parseQuestion packetBytes.bytes packetLength)

end DnsPacketHandler

end TonTunnel.DnsFilter
