import TonTunnel.Protocol.Server

/-!
The desktop client's codec: `TON-Tunnel/TonProtocol.cpp`.

The encoders build the frames the client sends; `decodeInboundFrames` reads the
packets the server sends. OPEN request and OPEN ACK share a type byte, so after
an OPEN header the decoder tries to read a request body and, if the bytes that
follow do not hold a complete one, rewinds and takes the frame for an ACK.
-/

namespace TonTunnel.Desktop

open TonTunnel BigEndian

/-- `enum class FrameType : uint8_t`. -/
inductive FrameType where
  | unknown | opn | data | close | error
  deriving DecidableEq, Repr

/-- The enumerator's value on the wire. -/
def FrameType.code : FrameType → UInt8
  | .unknown => 0
  | .opn => 1
  | .data => 2
  | .close => 3
  | .error => 4

structure InboundFrame where
  type : FrameType
  streamId : UInt32
  payload : Bytes := []
  errorMessage : Bytes := []
  rawFrame : Bytes := []
  deriving DecidableEq, Repr

/-! ### Encoding -/

/-- `encodeOpenFrame`. -/
def encodeOpenFrame (streamId : UInt32) (host : Bytes) (port : UInt16) (token : Bytes) : Bytes :=
  [FrameType.opn.code] ++ writeU32 streamId ++ writeU16 host.length.toUInt16 ++ host ++
    writeU16 port ++ writeU16 token.length.toUInt16 ++ token

/-- `encodeDataFrame`. -/
def encodeDataFrame (streamId : UInt32) (payload : Bytes) : Bytes :=
  [FrameType.data.code] ++ writeU32 streamId ++ writeU32 payload.length.toUInt32 ++ payload

/-- `encodeCloseFrame`. -/
def encodeCloseFrame (streamId : UInt32) : Bytes :=
  [FrameType.close.code] ++ writeU32 streamId

/-- `encodeErrorFrame`. -/
def encodeErrorFrame (streamId : UInt32) (message : Bytes) : Bytes :=
  [FrameType.error.code] ++ writeU32 streamId ++ writeU16 message.length.toUInt16 ++ message

/-! ### Decoding -/

/-- Where the speculative parse of an OPEN request body that starts at `cursor`
ends, if the bytes of the packet hold a complete body. -/
def openBodyEnd (bytes : Bytes) (cursor : Nat) : Option Nat :=
  if h : cursor + 2 ≤ bytes.length then
    let hostLen := (readU16 bytes cursor h).toNat
    if h2 : cursor + 2 + hostLen + 2 + 2 ≤ bytes.length then
      -- past the host bytes and the port
      let tokenLen := (readU16 bytes (cursor + 2 + hostLen + 2) (by omega)).toNat
      let tokenStart := cursor + 2 + hostLen + 2 + 2
      if tokenStart + tokenLen ≤ bytes.length then some (tokenStart + tokenLen)
      else none
    else none
  else none

/-- One turn of the loop of `decodeInboundFrames`: the frame that starts at
`frameStart` and the cursor behind it; `none` is `return {}`. -/
def decodeFrame (bytes : Bytes) (frameStart : Nat) (h : frameStart + 5 ≤ bytes.length) :
    Option (InboundFrame × Nat) :=
  let type := getElem bytes frameStart (type_inside h)
  let streamId := readU32 bytes (frameStart + 1) (by omega)
  let cursor := frameStart + 5
  let finish (f : InboundFrame) (cursor : Nat) : InboundFrame × Nat :=
    ({ f with rawFrame := slice bytes frameStart cursor }, cursor)
  if type = FrameType.opn.code then
    -- without a complete request body the cursor is rewound: an OPEN ACK
    let cursor := (openBodyEnd bytes cursor).getD cursor
    some (finish { type := .opn, streamId } cursor)
  else if type = FrameType.close.code then some (finish { type := .close, streamId } cursor)
  else if type = FrameType.data.code then
    if h2 : frameStart + 5 + 4 > bytes.length then none
    else
      let payloadLen := (readU32 bytes (frameStart + 5) (payloadLen_inside h2)).toNat
      let cursor := frameStart + 5 + 4
      if cursor + payloadLen > bytes.length then none
      else
        let payload := slice bytes cursor (cursor + payloadLen)
        some (finish { type := .data, streamId, payload } (cursor + payloadLen))
  else if type = FrameType.error.code then
    if h2 : frameStart + 5 + 2 > bytes.length then none
    else
      let msgLen := (readU16 bytes (frameStart + 5) (msgLen_inside h2)).toNat
      let cursor := frameStart + 5 + 2
      if cursor + msgLen > bytes.length then none
      else
        let errorMessage := slice bytes cursor (cursor + msgLen)
        some (finish { type := .error, streamId, errorMessage } (cursor + msgLen))
  else none

theorem openBodyEnd_ge {bytes : Bytes} {cursor stop : Nat}
    (h : openBodyEnd bytes cursor = some stop) : cursor + 6 ≤ stop ∧ stop ≤ bytes.length := by
  unfold openBodyEnd at h
  split at h
  · simp only at h
    split at h
    · split at h
      · cases h
        omega
      · cases h
    · cases h
  · cases h

/-- Every turn of the loop moves the cursor past a five-byte header and leaves
it inside the packet. -/
theorem decodeFrame_cursor {bytes : Bytes} {frameStart next : Nat}
    {h : frameStart + 5 ≤ bytes.length} {f : InboundFrame}
    (hd : decodeFrame bytes frameStart h = some (f, next)) :
    frameStart + 5 ≤ next ∧ next ≤ bytes.length := by
  unfold decodeFrame at hd
  simp only at hd
  split at hd
  · cases hd
    cases hb : openBodyEnd bytes (frameStart + 5) with
    | none => exact ⟨le_rfl, h⟩
    | some stop =>
        have := openBodyEnd_ge hb
        simp only [Option.getD_some]
        omega
  · split at hd
    · cases hd
      exact ⟨le_rfl, h⟩
    · split at hd
      · split at hd
        · cases hd
        · split at hd
          · cases hd
          · cases hd
            omega
      · split at hd
        · split at hd
          · cases hd
          · split at hd
            · cases hd
            · cases hd
              omega
        · cases hd

/-- The loop of `decodeInboundFrames` from `cursor` on, with the frames decoded
so far in `out`. -/
def decodeLoop (bytes : Bytes) (cursor : Nat) (out : List InboundFrame) : List InboundFrame :=
  if h : cursor + 5 ≤ bytes.length then
    match _hd : decodeFrame bytes cursor h with
    | none => []
    | some (f, next) => decodeLoop bytes next (out ++ [f])
  else out
termination_by bytes.length - cursor
decreasing_by
  have := decodeFrame_cursor _hd
  omega

/-- `decodeInboundFrames`. -/
def decodeInboundFrames (bytes : Bytes) : List InboundFrame :=
  decodeLoop bytes 0 []

end TonTunnel.Desktop
