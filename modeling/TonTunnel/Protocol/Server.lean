import TonTunnel.Lib.BigEndian

/-!
The egress node's wire codec: `ton-egress-node/src/protocol.cpp` and the frame
loop of `EgressNode::onAdnlMessage`.

A frame starts with a type byte and a big-endian `u32` stream id. The server
measures a frame with `tryGetFrameLength`, cuts that many bytes out of the
payload and decodes the cut with `decodeMessage`; the two functions walk the
same fields independently. Every index is guarded before it is read, and the
guard is what the read takes as its proof, so an out-of-range read cannot be
expressed here.

`std::string` and `std::vector<uint8_t>` are both byte lists; `size_t` is 64
bits wide, so no sum of a buffer index and a 32-bit length wraps.
-/

namespace TonTunnel

open BigEndian

/-- `std::vector<uint8_t>`, `std::string` and `ByteArray`. -/
abbrev Bytes := List UInt8

/-- The bytes of a string literal of the source (they are all ASCII). -/
def ascii (s : String) : Bytes :=
  s.toList.map fun c => c.toNat.toUInt8

/-- `enum class MessageType : uint8_t`. -/
inductive MessageType where
  | opn | data | close | error
  deriving DecidableEq, Repr

/-- The enumerator's value on the wire. -/
def MessageType.code : MessageType → UInt8
  | .opn => 1
  | .data => 2
  | .close => 3
  | .error => 4

structure OpenMessage where
  streamId : UInt32
  host : Bytes
  port : UInt16
  token : Bytes
  deriving DecidableEq, Repr

structure DataMessage where
  streamId : UInt32
  payload : Bytes
  deriving DecidableEq, Repr

structure CloseMessage where
  streamId : UInt32
  deriving DecidableEq, Repr

structure ErrorMessage where
  streamId : UInt32
  message : Bytes
  deriving DecidableEq, Repr

/-- `DecodedMessage`: the source keeps a type next to four optionals and fills
the one that belongs to the type. -/
inductive DecodedMessage where
  | opn (m : OpenMessage)
  | data (m : DataMessage)
  | close (m : CloseMessage)
  | error (m : ErrorMessage)
  deriving DecidableEq, Repr

/-! ### Decoding -/

section Guards

variable {input : Bytes} {offset : Nat}

/-- A complete header has its type byte. -/
theorem type_inside (h : offset + 5 ≤ input.length) : offset < input.length := by omega

/-- A message that is not shorter than a header has its stream id. -/
theorem streamId_inside (h : ¬ input.length < 5) : 1 + 4 ≤ input.length := Nat.le_of_not_lt h

/-- The length field of a DATA frame. -/
theorem payloadLen_inside (h : ¬ offset + 5 + 4 > input.length) :
    offset + 5 + 4 ≤ input.length := Nat.le_of_not_lt h

/-- The length field of an ERROR frame. -/
theorem msgLen_inside (h : ¬ offset + 5 + 2 > input.length) :
    offset + 5 + 2 ≤ input.length := Nat.le_of_not_lt h

end Guards

/-- `tryGetFrameLength`: the length of the frame that starts at `offset`, when
it lies completely inside `input`. -/
def tryGetFrameLength (input : Bytes) (offset : Nat) : Option Nat :=
  if h : offset + 5 > input.length then none
  else
    let type := input[offset]
    if type = MessageType.opn.code then
      if h2 : offset + 5 + 2 > input.length then none
      else
        let hostLen := (readU16 input (offset + 5) (by omega)).toNat
        if h3 : offset + 5 + 2 + hostLen + 2 + 2 > input.length then none
        else
          -- `cursor` stands after the port, on the token length
          let tokenLen := (readU16 input (offset + 5 + 2 + hostLen + 2) (by omega)).toNat
          let cursor := offset + 5 + 2 + hostLen + 2 + 2
          if cursor + tokenLen > input.length then none
          else some (cursor + tokenLen - offset)
    else if type = MessageType.data.code then
      if h2 : offset + 5 + 4 > input.length then none
      else
        let payloadLen := (readU32 input (offset + 5) (by omega)).toNat
        let cursor := offset + 5 + 4
        if cursor + payloadLen > input.length then none
        else some (cursor + payloadLen - offset)
    else if type = MessageType.close.code then some 5
    else if type = MessageType.error.code then
      if h2 : offset + 5 + 2 > input.length then none
      else
        let msgLen := (readU16 input (offset + 5) (by omega)).toNat
        let cursor := offset + 5 + 2
        if cursor + msgLen > input.length then none
        else some (cursor + msgLen - offset)
    else none

/-- `decodeMessage`: decodes the frame at the start of `input`. Bytes after the
frame are ignored. -/
def decodeMessage (input : Bytes) : Option DecodedMessage :=
  if h : input.length < 5 then none
  else
    let type := input[0]
    let streamId := readU32 input 1 (streamId_inside h)
    if type = MessageType.opn.code then
      if h2 : input.length < 5 + 2 then none
      else
        let hostLen := (readU16 input 5 (by omega)).toNat
        if h3 : input.length < 5 + 2 + hostLen + 2 + 2 then none
        else
          let host := slice input (5 + 2) (5 + 2 + hostLen)
          let port := readU16 input (5 + 2 + hostLen) (by omega)
          let tokenLen := (readU16 input (5 + 2 + hostLen + 2) (by omega)).toNat
          let cursor := 5 + 2 + hostLen + 2 + 2
          if input.length < cursor + tokenLen then none
          else
            let token := slice input cursor (cursor + tokenLen)
            some (.opn { streamId, host, port, token })
    else if type = MessageType.data.code then
      if h2 : input.length < 5 + 4 then none
      else
        let payloadLen := (readU32 input 5 (by omega)).toNat
        let cursor := 5 + 4
        if input.length < cursor + payloadLen then none
        else some (.data { streamId, payload := slice input cursor (cursor + payloadLen) })
    else if type = MessageType.close.code then some (.close { streamId })
    else if type = MessageType.error.code then
      if h2 : input.length < 5 + 2 then none
      else
        let msgLen := (readU16 input 5 (by omega)).toNat
        let cursor := 5 + 2
        if input.length < cursor + msgLen then none
        else some (.error { streamId, message := slice input cursor (cursor + msgLen) })
    else none

/-- The two ways one turn of the loop of `onAdnlMessage` gives up. -/
inductive FrameFault where
  | invalidFormat
  | invalidDecode
  deriving DecidableEq, Repr

/-- One turn of the loop of `onAdnlMessage`: measure, cut, decode. Returns the
message and `frameLen`. -/
def parseFrame (payload : Bytes) (offset : Nat) : Except FrameFault (DecodedMessage × Nat) :=
  match tryGetFrameLength payload offset with
  | none => .error .invalidFormat
  | some frameLen =>
      if frameLen = 0 then .error .invalidFormat
      else
        match decodeMessage (slice payload offset (offset + frameLen)) with
        | none => .error .invalidDecode
        | some msg => .ok (msg, frameLen)

theorem parseFrame_pos {payload : Bytes} {offset n : Nat} {msg : DecodedMessage}
    (h : parseFrame payload offset = .ok (msg, n)) : 0 < n := by
  unfold parseFrame at h
  split at h
  · cases h
  · split at h
    · cases h
    · split at h
      · cases h
      · cases h
        omega

/-- Where the loop of `onAdnlMessage` stopped. -/
inductive ParseEnd where
  | exhausted
  | failed (fault : FrameFault) (offset : Nat)
  deriving DecidableEq, Repr

/-- The messages the loop yields from `offset` on, in order, and how it ended. -/
def parseLoop (payload : Bytes) (offset : Nat) : List DecodedMessage × ParseEnd :=
  if _h : offset < payload.length then
    match _hp : parseFrame payload offset with
    | .error fault => ([], .failed fault offset)
    | .ok (msg, frameLen) =>
        let rest := parseLoop payload (offset + frameLen)
        (msg :: rest.1, rest.2)
  else ([], .exhausted)
termination_by payload.length - offset
decreasing_by
  have := parseFrame_pos _hp
  omega

/-! ### Encoding -/

/-- `encodeData`. -/
def encodeData (msg : DataMessage) : Bytes :=
  [MessageType.data.code] ++ writeU32 msg.streamId ++ writeU32 msg.payload.length.toUInt32 ++
    msg.payload

/-- `encodeOpen`: the OPEN ACK, a bare header. -/
def encodeOpen (msg : CloseMessage) : Bytes :=
  [MessageType.opn.code] ++ writeU32 msg.streamId

/-- `encodeError`. -/
def encodeError (msg : ErrorMessage) : Bytes :=
  [MessageType.error.code] ++ writeU32 msg.streamId ++ writeU16 msg.message.length.toUInt16 ++
    msg.message

/-- `encodeClose`. -/
def encodeClose (msg : CloseMessage) : Bytes :=
  [MessageType.close.code] ++ writeU32 msg.streamId

end TonTunnel
