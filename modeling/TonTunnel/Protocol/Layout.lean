import TonTunnel.Protocol.Server

/-!
Where the fields of a frame stand inside a buffer.

Every frame of the protocol is a type byte, a stream id and a body, and every
decoder of the repository reads a frame that starts somewhere inside a larger
buffer. `FrameAt b offset t streamId body` says that such a frame stands at
`offset`; its lemmas give the value of each read the decoders make, so a decoder
is analysed without taking the buffer apart again.
-/

namespace TonTunnel

open BigEndian

/-- A frame: type byte, stream id, body. -/
def frame (t : UInt8) (streamId : UInt32) (body : Bytes) : Bytes :=
  [t] ++ writeU32 streamId ++ body

@[simp] theorem length_frame (t : UInt8) (streamId : UInt32) (body : Bytes) :
    (frame t streamId body).length = 5 + body.length := by
  simp [frame]
  omega

/-- The frame of type `t` for `streamId` with body `body` stands at `offset` in `b`. -/
def FrameAt (b : Bytes) (offset : Nat) (t : UInt8) (streamId : UInt32) (body : Bytes) : Prop :=
  ∃ pre suf, b = pre ++ frame t streamId body ++ suf ∧ offset = pre.length

/-- A frame stands where it was appended. -/
theorem frameAt_append (pre suf : Bytes) (t : UInt8) (streamId : UInt32) (body : Bytes) :
    FrameAt (pre ++ frame t streamId body ++ suf) pre.length t streamId body :=
  ⟨pre, suf, rfl, rfl⟩

namespace FrameAt

variable {b body x y m : Bytes} {offset i j : Nat} {t : UInt8} {streamId : UInt32}

theorem length_le (hf : FrameAt b offset t streamId body) :
    offset + 5 + body.length ≤ b.length := by
  obtain ⟨pre, suf, rfl, rfl⟩ := hf
  simp
  omega

theorem type_eq (hf : FrameAt b offset t streamId body) (h : offset < b.length) :
    b[offset] = t := by
  obtain ⟨pre, suf, rfl, rfl⟩ := hf
  simp [frame]

theorem streamId_eq (hf : FrameAt b offset t streamId body) (h : offset + 1 + 4 ≤ b.length) :
    readU32 b (offset + 1) h = streamId := by
  obtain ⟨pre, suf, rfl, rfl⟩ := hf
  exact readU32_at (pre ++ [t]) (body ++ suf) (by simp [frame]) (by simp) h

/-- A 16-bit field of the body, behind the body bytes `x`. -/
theorem readU16_eq {v : UInt16} (hf : FrameAt b offset t streamId body)
    (hbody : body = x ++ writeU16 v ++ y) (hi : i = offset + 5 + x.length)
    (h : i + 2 ≤ b.length) : readU16 b i h = v := by
  obtain ⟨pre, suf, rfl, rfl⟩ := hf
  exact readU16_at (pre ++ [t] ++ writeU32 streamId ++ x) (y ++ suf)
    (by simp [frame, hbody]) (by simp [hi]; omega) h

/-- A 32-bit field of the body, behind the body bytes `x`. -/
theorem readU32_eq {v : UInt32} (hf : FrameAt b offset t streamId body)
    (hbody : body = x ++ writeU32 v ++ y) (hi : i = offset + 5 + x.length)
    (h : i + 4 ≤ b.length) : readU32 b i h = v := by
  obtain ⟨pre, suf, rfl, rfl⟩ := hf
  exact readU32_at (pre ++ [t] ++ writeU32 streamId ++ x) (y ++ suf)
    (by simp [frame, hbody]) (by simp [hi]; omega) h

/-- A byte-string field `m` of the body, behind the body bytes `x`. -/
theorem slice_eq (hf : FrameAt b offset t streamId body) (hbody : body = x ++ m ++ y)
    (hi : i = offset + 5 + x.length) (hj : j = i + m.length) : slice b i j = m := by
  obtain ⟨pre, suf, rfl, rfl⟩ := hf
  refine slice_at (pre ++ [t] ++ writeU32 streamId ++ x) (y ++ suf)
    (by simp [frame, hbody]) ?_ ?_
  · simp [hi]
    omega
  · simp [hj, hi]
    omega

/-- Cutting the frame out of the buffer gives the frame. -/
theorem slice_frame (hf : FrameAt b offset t streamId body)
    (hj : j = offset + 5 + body.length) : slice b offset j = frame t streamId body := by
  obtain ⟨pre, suf, rfl, rfl⟩ := hf
  exact slice_at _ _ rfl rfl (by simp [hj]; omega)

end FrameAt

/-! ### Length fields -/

theorem toNat_toUInt16 {n : Nat} (h : n < 65536) : n.toUInt16.toNat = n := by
  simp [Nat.toUInt16]
  omega

theorem toNat_toUInt32 {n : Nat} (h : n < 2 ^ 32) : n.toUInt32.toNat = n := by
  simp [Nat.toUInt32]
  omega

/-! ### Bodies -/

/-- The body of an OPEN request. -/
def openBody (host : Bytes) (port : UInt16) (token : Bytes) : Bytes :=
  writeU16 host.length.toUInt16 ++ host ++ writeU16 port ++ writeU16 token.length.toUInt16 ++ token

/-- The body of a DATA frame. -/
def dataBody (payload : Bytes) : Bytes :=
  writeU32 payload.length.toUInt32 ++ payload

/-- The body of an ERROR frame. -/
def errorBody (message : Bytes) : Bytes :=
  writeU16 message.length.toUInt16 ++ message

@[simp] theorem length_openBody (host : Bytes) (port : UInt16) (token : Bytes) :
    (openBody host port token).length = 2 + host.length + 2 + 2 + token.length := by
  simp [openBody]
  omega

@[simp] theorem length_dataBody (payload : Bytes) :
    (dataBody payload).length = 4 + payload.length := by
  simp [dataBody]

@[simp] theorem length_errorBody (message : Bytes) :
    (errorBody message).length = 2 + message.length := by
  simp [errorBody]

namespace FrameAt

variable {b host token payload message : Bytes} {offset i : Nat} {t : UInt8}
  {streamId : UInt32} {port : UInt16}

theorem hostLen_eq (hf : FrameAt b offset t streamId (openBody host port token))
    (hh : host.length < 65536) (h : offset + 5 + 2 ≤ b.length) :
    (readU16 b (offset + 5) h).toNat = host.length := by
  rw [hf.readU16_eq (x := []) (v := host.length.toUInt16)
    (y := host ++ writeU16 port ++ writeU16 token.length.toUInt16 ++ token)
    (by simp [openBody]) (by simp)]
  exact toNat_toUInt16 hh

theorem port_eq (hf : FrameAt b offset t streamId (openBody host port token))
    (hi : i = offset + 5 + 2 + host.length) (h : i + 2 ≤ b.length) :
    readU16 b i h = port :=
  hf.readU16_eq (x := writeU16 host.length.toUInt16 ++ host)
    (y := writeU16 token.length.toUInt16 ++ token) (by simp [openBody]) (by simp [hi]; omega) h

theorem tokenLen_eq (hf : FrameAt b offset t streamId (openBody host port token))
    (ht : token.length < 65536) (hi : i = offset + 5 + 2 + host.length + 2)
    (h : i + 2 ≤ b.length) : (readU16 b i h).toNat = token.length := by
  rw [hf.readU16_eq (x := writeU16 host.length.toUInt16 ++ host ++ writeU16 port)
    (v := token.length.toUInt16) (y := token) (by simp [openBody]) (by simp [hi]; omega)]
  exact toNat_toUInt16 ht

theorem payloadLen_eq (hf : FrameAt b offset t streamId (dataBody payload))
    (hp : payload.length < 2 ^ 32) (h : offset + 5 + 4 ≤ b.length) :
    (readU32 b (offset + 5) h).toNat = payload.length := by
  rw [hf.readU32_eq (x := []) (v := payload.length.toUInt32) (y := payload)
    (by simp [dataBody]) (by simp)]
  exact toNat_toUInt32 hp

theorem msgLen_eq (hf : FrameAt b offset t streamId (errorBody message))
    (hm : message.length < 65536) (h : offset + 5 + 2 ≤ b.length) :
    (readU16 b (offset + 5) h).toNat = message.length := by
  rw [hf.readU16_eq (x := []) (v := message.length.toUInt16) (y := message)
    (by simp [errorBody]) (by simp)]
  exact toNat_toUInt16 hm

theorem payload_eq (hf : FrameAt b offset t streamId (dataBody payload))
    (hi : i = offset + 5 + 4) : slice b i (i + payload.length) = payload :=
  hf.slice_eq (x := writeU32 payload.length.toUInt32) (y := []) (by simp [dataBody])
    (by simp [hi]) rfl

theorem message_eq (hf : FrameAt b offset t streamId (errorBody message))
    (hi : i = offset + 5 + 2) : slice b i (i + message.length) = message :=
  hf.slice_eq (x := writeU16 message.length.toUInt16) (y := []) (by simp [errorBody])
    (by simp [hi]) rfl

end FrameAt

end TonTunnel
