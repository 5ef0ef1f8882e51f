import TonTunnel.Protocol.Server

/-!
The Android client's codec: the frame construction in
`NativeTonTransport.openStream`, `closeStream` and
`sendStreamDataImmediateSegmented`, and `decodeInboundFrames`.

Frames are built with `java.nio.ByteBuffer` in big-endian order. A `ByteArray`
is a byte list (Kotlin's signed `Byte` and `UInt8` share their bit patterns),
`Int` is `Int32` and `Short` is `Int16`.
-/

namespace TonTunnel.Android

open TonTunnel BigEndian

/-! ### `java.nio.ByteBuffer` -/

/-- A heap buffer that is being filled: its capacity and the bytes put so far. -/
structure ByteBuffer where
  capacity : Nat
  written : Bytes

namespace ByteBuffer

def allocate (capacity : Nat) : ByteBuffer :=
  { capacity, written := [] }

/-- Relative bulk put; `none` is `BufferOverflowException`. -/
def put (b : ByteBuffer) (src : Bytes) : Option ByteBuffer :=
  if b.written.length + src.length ≤ b.capacity then
    some { b with written := b.written ++ src }
  else none

def putInt (b : ByteBuffer) (v : Int32) : Option ByteBuffer :=
  b.put (writeU32 v.toUInt32)

def putShort (b : ByteBuffer) (v : Int16) : Option ByteBuffer :=
  b.put (writeU16 v.toUInt16)

/-- The backing array: what was put, then the zeros it was allocated with. -/
def array (b : ByteBuffer) : Bytes :=
  b.written ++ List.replicate (b.capacity - b.written.length) 0

end ByteBuffer

/-! ### `String` and UTF-8 -/

/-- `text.toByteArray(StandardCharsets.UTF_8)`. -/
def toByteArray (text : String) : Bytes :=
  text.toList.flatMap String.utf8EncodeChar

/-- The characters of `String(bytes, StandardCharsets.UTF_8)`. A byte that starts
no well-formed sequence is replaced by U+FFFD; the platform leaves open how many
bytes one replacement covers, and here it is one. -/
def decodeUtf8 (bytes : Bytes) : List Char :=
  match bytes with
  | [] => []
  | b :: rest =>
      match (b :: rest).toByteArray.utf8DecodeChar? 0 with
      | some c => c :: decodeUtf8 (rest.drop (c.utf8Size - 1))
      | none => Char.ofNat 0xFFFD :: decodeUtf8 rest
termination_by bytes.length

/-- `String(bytes, StandardCharsets.UTF_8)`. -/
def stringOf (bytes : Bytes) : String :=
  String.ofList (decodeUtf8 bytes)

/-! ### Frame types -/

/-- `NativeTonTransport.FrameType`. -/
inductive FrameType where
  | unknown | opn | data | close | error
  deriving DecidableEq, Repr

namespace FrameType

def id : FrameType → UInt8
  | .unknown => 0
  | .opn => 1
  | .data => 2
  | .close => 3
  | .error => 4

def entries : List FrameType := [.unknown, .opn, .data, .close, .error]

def fromId (id : UInt8) : FrameType :=
  (entries.find? fun t => t.id = id).getD .unknown

end FrameType

structure InboundFrame where
  type : FrameType
  streamId : Int32
  payload : Bytes := []
  errorMessage : Option String := none
  rawFrame : Bytes := []
  deriving DecidableEq, Repr

/-! ### Building frames -/

/-- The OPEN frame of `openStream`; `none` is the early `return -1` for bad
arguments. -/
def openFrame (streamId : Int32) (hostBytes : Bytes) (port : Int32) (tokenBytes : Bytes) :
    Option Bytes := do
  if hostBytes.length > 0xFFFF ∨ tokenBytes.length > 0xFFFF ∨ ¬ (1 ≤ port ∧ port ≤ 65535) then
    none
  else
    let b := ByteBuffer.allocate (1 + 4 + 2 + hostBytes.length + 2 + 2 + tokenBytes.length)
    let b ← b.put [FrameType.opn.id]
    let b ← b.putInt streamId
    let b ← b.putShort (Int32.ofNat hostBytes.length).toInt16
    let b ← b.put hostBytes
    let b ← b.putShort port.toInt16
    let b ← b.putShort (Int32.ofNat tokenBytes.length).toInt16
    let b ← b.put tokenBytes
    return b.array

/-- The CLOSE frame of `closeStream`. -/
def closeFrame (streamId : Int32) : Option Bytes := do
  let b := ByteBuffer.allocate (1 + 4)
  let b ← b.put [FrameType.close.id]
  let b ← b.putInt streamId
  return b.array

/-- The DATA frame `sendStreamDataImmediateSegmented` builds for `len` payload
bytes from `offset` on. -/
def dataFrame (streamId : Int32) (payload : Bytes) (offset len : Nat) : Option Bytes := do
  let b := ByteBuffer.allocate (1 + 4 + 4 + len)
  let b ← b.put [FrameType.data.id]
  let b ← b.putInt streamId
  let b ← b.putInt (Int32.ofNat len)
  let b ← b.put (slice payload offset (offset + len))
  return b.array

/-- `DATA_SEGMENT_SIZE`. -/
def dataSegmentSize : Nat := 1200

/-- The loop of `sendStreamDataImmediateSegmented` from `offset` on: the frames
handed to `sendPacket`, in order, and the returned code. `sendCode k` is what the
`k`-th `sendPacket` of the call returns. -/
def segmentLoop (sendCode : Nat → Int32) (streamId : Int32) (payload : Bytes) (offset k : Nat) :
    Option (List Bytes × Int32) :=
  if _h : offset < payload.length then
    let len := min dataSegmentSize (payload.length - offset)
    match dataFrame streamId payload offset len with
    | none => none
    | some frame =>
        if sendCode k ≠ 0 then some ([frame], sendCode k)
        else
          (segmentLoop sendCode streamId payload (offset + len) (k + 1)).map fun rest =>
            (frame :: rest.1, rest.2)
  else some ([], 0)
termination_by payload.length - offset
decreasing_by
  simp only [dataSegmentSize]
  omega

/-- `sendStreamDataImmediateSegmented`. -/
def sendStreamDataImmediateSegmented (sendCode : Nat → Int32) (streamId : Int32)
    (payload : Bytes) : Option (List Bytes × Int32) :=
  segmentLoop sendCode streamId payload 0 0

/-! ### Decoding -/

/-- One turn of the loop of `decodeInboundFrames`: the frame at `frameStart` and
the buffer position behind it; `none` is `return emptyList()`. -/
def decodeFrame (bytes : Bytes) (frameStart : Nat) (h : frameStart + 5 ≤ bytes.length) :
    Option (InboundFrame × Nat) :=
  let type := FrameType.fromId (getElem bytes frameStart (type_inside h))
  let streamId := (readU32 bytes (frameStart + 1) (by omega)).toInt32
  let position := frameStart + 5
  let finish (decoded : InboundFrame) (frameEnd : Nat) : InboundFrame × Nat :=
    ({ decoded with rawFrame := slice bytes frameStart frameEnd }, frameEnd)
  match type with
  | .unknown => some (finish { type, streamId } position)
  | .data =>
      if h2 : bytes.length - (frameStart + 5) < 4 then none
      else
        let payloadSize := (readU32 bytes (frameStart + 5) (by omega)).toInt32
        let position := frameStart + 5 + 4
        if payloadSize < 0 ∨ ((bytes.length - position : Nat) : Int) < payloadSize.toInt then none
        else
          let frameEnd := position + payloadSize.toInt.toNat
          let payload := slice bytes position frameEnd
          some (finish { type, streamId, payload } frameEnd)
  | .close => some (finish { type, streamId } position)
  | .error =>
      if h2 : bytes.length - (frameStart + 5) < 2 then none
      else
        let msgSize := (readU16 bytes (frameStart + 5) (by omega)).toInt16.toInt32 &&& 0xFFFF
        let position := frameStart + 5 + 2
        if ((bytes.length - position : Nat) : Int) < msgSize.toInt then none
        else
          let frameEnd := position + msgSize.toInt.toNat
          let messageBytes := slice bytes position frameEnd
          some (finish { type, streamId, errorMessage := some (stringOf messageBytes) } frameEnd)
  | .opn => some (finish { type, streamId } position)

theorem decodeFrame_position {bytes : Bytes} {frameStart next : Nat}
    {h : frameStart + 5 ≤ bytes.length} {f : InboundFrame}
    (hd : decodeFrame bytes frameStart h = some (f, next)) : frameStart + 5 ≤ next := by
  unfold decodeFrame at hd
  simp only at hd
  split at hd
  · cases hd
    exact le_rfl
  · split at hd
    · cases hd
    · split at hd
      · cases hd
      · cases hd
        omega
  · cases hd
    exact le_rfl
  · split at hd
    · cases hd
    · split at hd
      · cases hd
      · cases hd
        omega
  · cases hd
    exact le_rfl

/-- The loop of `decodeInboundFrames` from `position` on, with the frames decoded
so far in `out`. -/
def decodeLoop (bytes : Bytes) (position : Nat) (out : List InboundFrame) : List InboundFrame :=
  if h : position + 5 ≤ bytes.length then
    match _hd : decodeFrame bytes position h with
    | none => []
    | some (f, next) => decodeLoop bytes next (out ++ [f])
  else out
termination_by bytes.length - position
decreasing_by
  have := decodeFrame_position _hd
  omega

/-- `decodeInboundFrames`. -/
def decodeInboundFrames (bytes : Bytes) : List InboundFrame :=
  decodeLoop bytes 0 []

end TonTunnel.Android
