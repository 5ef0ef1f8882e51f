import TonTunnel.Protocol.Layout
import TonTunnel.Protocol.Desktop
import TonTunnel.Protocol.Android

/-!
Client to server: the frame loop of `onAdnlMessage` inverts the client encoders.

* `parseFrame_encode`: one turn of the loop on a client frame yields the message
  and the frame's length, whatever surrounds the frame.
* `parseFrame_sound`: conversely a turn that yields a message stood on that
  message's encoding.
* `parseLoop_encodeAll`, `parseLoop_sound`: the same for whole payloads, by
  induction over the messages and over the loop.
* `openFrame_eq`, `closeFrame_eq`, `dataFrame_eq`: what the Android client builds
  with a `ByteBuffer` is the desktop encoding of the same fields.
-/

namespace TonTunnel

open BigEndian

/-! ### Client messages -/

/-- The desktop encoder for each message. -/
def encodeClient : DecodedMessage → Bytes
  | .opn m => Desktop.encodeOpenFrame m.streamId m.host m.port m.token
  | .data m => Desktop.encodeDataFrame m.streamId m.payload
  | .close m => Desktop.encodeCloseFrame m.streamId
  | .error m => Desktop.encodeErrorFrame m.streamId m.message

/-- Every byte-string field fits its length prefix. -/
def DecodedMessage.WithinLimits : DecodedMessage → Prop
  | .opn m => m.host.length < 65536 ∧ m.token.length < 65536
  | .data m => m.payload.length < 2 ^ 32
  | .close _ => True
  | .error m => m.message.length < 65536

namespace DecodedMessage

def type : DecodedMessage → MessageType
  | .opn _ => .opn
  | .data _ => .data
  | .close _ => .close
  | .error _ => .error

def streamId : DecodedMessage → UInt32
  | .opn m => m.streamId
  | .data m => m.streamId
  | .close m => m.streamId
  | .error m => m.streamId

def body : DecodedMessage → Bytes
  | .opn m => openBody m.host m.port m.token
  | .data m => dataBody m.payload
  | .close _ => []
  | .error m => errorBody m.message

end DecodedMessage

/-- A client encoding is a frame in the sense of `Layout`. -/
theorem encodeClient_eq_frame (m : DecodedMessage) :
    encodeClient m = frame m.type.code m.streamId m.body := by
  cases m <;>
    simp [encodeClient, frame, DecodedMessage.type, DecodedMessage.streamId, DecodedMessage.body,
      Desktop.encodeOpenFrame, Desktop.encodeDataFrame, Desktop.encodeCloseFrame,
      Desktop.encodeErrorFrame, openBody, dataBody, errorBody, MessageType.code,
      Desktop.FrameType.code]

theorem length_encodeClient (m : DecodedMessage) :
    (encodeClient m).length = 5 + m.body.length := by
  rw [encodeClient_eq_frame, length_frame]

/-- A message stands at `offset` in `b`. -/
abbrev MessageAt (b : Bytes) (offset : Nat) (m : DecodedMessage) : Prop :=
  FrameAt b offset m.type.code m.streamId m.body

theorem messageAt_append (pre suf : Bytes) (m : DecodedMessage) :
    MessageAt (pre ++ encodeClient m ++ suf) pre.length m := by
  rw [encodeClient_eq_frame]
  exact frameAt_append ..

/-! ### One frame -/

/-- The server measures a client frame at its encoded length. -/
theorem tryGetFrameLength_of_messageAt {b : Bytes} {offset : Nat} {m : DecodedMessage}
    (hm : m.WithinLimits) (hf : MessageAt b offset m) :
    tryGetFrameLength b offset = some (encodeClient m).length := by
  have hlen := hf.length_le
  have htype : ∀ h : offset < b.length, b[offset] = m.type.code := hf.type_eq
  rw [length_encodeClient, tryGetFrameLength, dif_neg (by omega)]
  cases m with
  | opn m =>
      obtain ⟨hh, ht⟩ := hm
      simp only [DecodedMessage.body, length_openBody] at hlen ⊢
      simp only [htype, DecodedMessage.type, if_true]
      rw [dif_neg (by omega)]
      simp only [hf.hostLen_eq hh]
      rw [dif_neg (by omega)]
      simp only [hf.tokenLen_eq ht rfl]
      rw [if_neg (by omega), Option.some.injEq]
      omega
  | data m =>
      simp only [DecodedMessage.body, length_dataBody] at hlen ⊢
      simp only [htype, DecodedMessage.type, MessageType.code]
      rw [if_neg (by decide), if_pos trivial, dif_neg (by omega)]
      simp only [hf.payloadLen_eq hm]
      rw [if_neg (by omega), Option.some.injEq]
      omega
  | close m =>
      simp only [htype, DecodedMessage.type, MessageType.code]
      rfl
  | error m =>
      simp only [DecodedMessage.body, length_errorBody] at hlen ⊢
      simp only [htype, DecodedMessage.type, MessageType.code]
      rw [if_neg (by decide), if_neg (by decide), if_neg (by decide), if_pos trivial,
        dif_neg (by omega)]
      simp only [hf.msgLen_eq hm]
      rw [if_neg (by omega), Option.some.injEq]
      omega

/-- The server decodes a client frame at the start of a buffer to its message. -/
theorem decodeMessage_of_messageAt {b : Bytes} {m : DecodedMessage}
    (hm : m.WithinLimits) (hf : MessageAt b 0 m) : decodeMessage b = some m := by
  have hlen := hf.length_le
  have htype : ∀ h : 0 < b.length, b[0] = m.type.code := hf.type_eq
  have hid : ∀ h, readU32 b 1 h = m.streamId := hf.streamId_eq
  rw [decodeMessage, dif_neg (by omega)]
  cases m with
  | opn m =>
      obtain ⟨hh, ht⟩ := hm
      have hhost : ∀ h, (readU16 b 5 h).toNat = m.host.length := hf.hostLen_eq hh
      simp only [DecodedMessage.body, length_openBody] at hlen
      simp only [htype, hid, DecodedMessage.type, if_true]
      rw [dif_neg (by omega)]
      simp only [hhost]
      rw [dif_neg (by omega)]
      simp only [hf.tokenLen_eq ht (i := 5 + 2 + m.host.length + 2) rfl,
        hf.port_eq (i := 5 + 2 + m.host.length) rfl]
      rw [if_neg (by omega)]
      have ehost : slice b (5 + 2) (5 + 2 + m.host.length) = m.host :=
        hf.slice_eq (x := writeU16 m.host.length.toUInt16)
          (y := writeU16 m.port ++ writeU16 m.token.length.toUInt16 ++ m.token)
          (by simp [DecodedMessage.body, openBody]) rfl rfl
      have etoken : slice b (5 + 2 + m.host.length + 2 + 2)
          (5 + 2 + m.host.length + 2 + 2 + m.token.length) = m.token :=
        hf.slice_eq (x := writeU16 m.host.length.toUInt16 ++ m.host ++ writeU16 m.port ++
            writeU16 m.token.length.toUInt16) (y := [])
          (by simp [DecodedMessage.body, openBody]) (by simp; omega) rfl
      rw [ehost, etoken]
      rfl
  | data m =>
      have hpay : ∀ h, (readU32 b 5 h).toNat = m.payload.length := hf.payloadLen_eq hm
      simp only [DecodedMessage.body, length_dataBody] at hlen
      simp only [htype, hid, DecodedMessage.type, MessageType.code]
      rw [if_neg (by decide), if_pos trivial, dif_neg (by omega)]
      simp only [hpay]
      rw [if_neg (by omega), hf.payload_eq (i := 5 + 4) rfl]
      rfl
  | close m =>
      simp only [htype, hid, DecodedMessage.type, MessageType.code]
      rfl
  | error m =>
      have hmsg : ∀ h, (readU16 b 5 h).toNat = m.message.length := hf.msgLen_eq hm
      simp only [DecodedMessage.body, length_errorBody] at hlen
      simp only [htype, hid, DecodedMessage.type, MessageType.code]
      rw [if_neg (by decide), if_neg (by decide), if_neg (by decide), if_pos trivial,
        dif_neg (by omega)]
      simp only [hmsg]
      rw [if_neg (by omega), hf.message_eq (i := 5 + 2) rfl]
      rfl

/-- **One turn of the loop inverts the client encoder**, whatever precedes and
follows the frame. -/
theorem parseFrame_encode {m : DecodedMessage} (hm : m.WithinLimits) (pre suf : Bytes) :
    parseFrame (pre ++ encodeClient m ++ suf) pre.length = .ok (m, (encodeClient m).length) := by
  have hf := messageAt_append pre suf m
  have hcut : slice (pre ++ encodeClient m ++ suf) pre.length
      (pre.length + (encodeClient m).length) = encodeClient m := slice_at _ _ rfl rfl rfl
  have hdec : decodeMessage (encodeClient m) = some m :=
    decodeMessage_of_messageAt hm (by simpa using messageAt_append [] [] m)
  have hpos : (encodeClient m).length ≠ 0 := by rw [length_encodeClient]; omega
  unfold parseFrame
  rw [tryGetFrameLength_of_messageAt hm hf]
  simp only [hpos, if_false, hcut, hdec]

/-- A buffer whose header and body fields are those of `m` starts with the
encoding of `m`. -/
theorem eq_encodeClient_append {b suf : Bytes} {m : DecodedMessage} (h : 5 ≤ b.length)
    (htype : b[0] = m.type.code) (hid : readU32 b 1 (by omega) = m.streamId)
    (hbody : b.drop 5 = m.body ++ suf) : b = encodeClient m ++ suf := by
  have hid' := drop_eq_writeU32 (b := b) (i := 1) (by omega)
  have hhead : b = b[0] :: b.drop 1 := by
    rw [← List.drop_eq_getElem_cons (by omega), List.drop_zero]
  rw [hid, hbody] at hid'
  rw [hid', htype] at hhead
  rw [encodeClient_eq_frame, frame]
  simpa using hhead

/-- A length prefix is the length of the bytes cut out after it. -/
private theorem toUInt16_length_slice {b : Bytes} {i : Nat} (v : UInt16)
    (h : i + v.toNat ≤ b.length) : (slice b i (i + v.toNat)).length.toUInt16 = v := by
  rw [length_slice (by omega) h, Nat.add_sub_cancel_left]
  exact UInt16.ofNat_toNat

private theorem toUInt32_length_slice {b : Bytes} {i : Nat} (v : UInt32)
    (h : i + v.toNat ≤ b.length) : (slice b i (i + v.toNat)).length.toUInt32 = v := by
  rw [length_slice (by omega) h, Nat.add_sub_cancel_left]
  exact UInt32.ofNat_toNat

/-- The bytes from `i` on start with the OPEN body whose fields are read there. -/
theorem drop_eq_openBody {b : Bytes} {i : Nat} {hostLen port tokenLen : UInt16}
    (h2 : i + 2 ≤ b.length) (ehost : readU16 b i h2 = hostLen)
    (h4 : i + 2 + hostLen.toNat + 2 + 2 ≤ b.length)
    (eport : readU16 b (i + 2 + hostLen.toNat) (by omega) = port)
    (etoken : readU16 b (i + 2 + hostLen.toNat + 2) (by omega) = tokenLen)
    (hend : i + 2 + hostLen.toNat + 2 + 2 + tokenLen.toNat ≤ b.length) :
    b.drop i =
      openBody (slice b (i + 2) (i + 2 + hostLen.toNat)) port
          (slice b (i + 2 + hostLen.toNat + 2 + 2)
            (i + 2 + hostLen.toNat + 2 + 2 + tokenLen.toNat)) ++
        b.drop (i + 2 + hostLen.toNat + 2 + 2 + tokenLen.toNat) := by
  rw [openBody, toUInt16_length_slice hostLen (by omega), toUInt16_length_slice tokenLen hend]
  rw [drop_eq_writeU16 h2, ehost,
    drop_eq_slice (b := b) (i := i + 2) (j := i + 2 + hostLen.toNat) (by omega),
    drop_eq_writeU16 (b := b) (i := i + 2 + hostLen.toNat) (by omega), eport,
    drop_eq_writeU16 (b := b) (i := i + 2 + hostLen.toNat + 2) (by omega), etoken,
    drop_eq_slice (b := b) (i := i + 2 + hostLen.toNat + 2 + 2)
      (j := i + 2 + hostLen.toNat + 2 + 2 + tokenLen.toNat) (by omega)]
  simp only [List.append_assoc]

/-- The bytes from `i` on start with the DATA body whose length is read there. -/
theorem drop_eq_dataBody {b : Bytes} {i : Nat} {payloadLen : UInt32} (h4 : i + 4 ≤ b.length)
    (elen : readU32 b i h4 = payloadLen) (hend : i + 4 + payloadLen.toNat ≤ b.length) :
    b.drop i =
      dataBody (slice b (i + 4) (i + 4 + payloadLen.toNat)) ++
        b.drop (i + 4 + payloadLen.toNat) := by
  rw [dataBody, toUInt32_length_slice payloadLen hend, drop_eq_writeU32 h4, elen,
    drop_eq_slice (b := b) (i := i + 4) (j := i + 4 + payloadLen.toNat) (by omega),
    List.append_assoc]

/-- The bytes from `i` on start with the ERROR body whose length is read there. -/
theorem drop_eq_errorBody {b : Bytes} {i : Nat} {msgLen : UInt16} (h2 : i + 2 ≤ b.length)
    (elen : readU16 b i h2 = msgLen) (hend : i + 2 + msgLen.toNat ≤ b.length) :
    b.drop i =
      errorBody (slice b (i + 2) (i + 2 + msgLen.toNat)) ++ b.drop (i + 2 + msgLen.toNat) := by
  rw [errorBody, toUInt16_length_slice msgLen hend, drop_eq_writeU16 h2, elen,
    drop_eq_slice (b := b) (i := i + 2) (j := i + 2 + msgLen.toNat) (by omega),
    List.append_assoc]

/-- Bytes that the server decodes start with the encoding of what it decoded. -/
theorem decodeMessage_sound {b : Bytes} {m : DecodedMessage} (h : decodeMessage b = some m) :
    m.WithinLimits ∧ ∃ suf, b = encodeClient m ++ suf := by
  unfold decodeMessage at h
  split at h
  · cases h
  rename_i h5
  simp only at h
  split at h
  · rename_i htype
    split at h
    · cases h
    split at h
    · cases h
    split at h
    · cases h
    rename_i h7 h11 hend
    cases h
    have hbody := drop_eq_openBody (b := b) (i := 5) (by omega) rfl (by omega) rfl rfl (by omega)
    refine ⟨⟨?_, ?_⟩, _, eq_encodeClient_append (by omega) htype rfl hbody⟩
    · rw [length_slice (by omega) (by omega), Nat.add_sub_cancel_left]
      exact UInt16.toNat_lt _
    · rw [length_slice (by omega) (by omega), Nat.add_sub_cancel_left]
      exact UInt16.toNat_lt _
  split at h
  · rename_i htype
    split at h
    · cases h
    split at h
    · cases h
    rename_i h9 hend
    cases h
    have hbody := drop_eq_dataBody (b := b) (i := 5) (by omega) rfl (by omega)
    refine ⟨?_, _, eq_encodeClient_append (by omega) htype rfl hbody⟩
    rw [DecodedMessage.WithinLimits, length_slice (by omega) (by omega), Nat.add_sub_cancel_left]
    exact UInt32.toNat_lt _
  split at h
  · rename_i htype
    cases h
    exact ⟨trivial, _, eq_encodeClient_append (by omega) htype rfl rfl⟩
  split at h
  · rename_i htype
    split at h
    · cases h
    split at h
    · cases h
    rename_i h7 hend
    cases h
    have hbody := drop_eq_errorBody (b := b) (i := 5) (by omega) rfl (by omega)
    refine ⟨?_, _, eq_encodeClient_append (by omega) htype rfl hbody⟩
    rw [DecodedMessage.WithinLimits, length_slice (by omega) (by omega), Nat.add_sub_cancel_left]
    exact UInt16.toNat_lt _
  · cases h

/-- A successful measurement stays inside the buffer. -/
theorem tryGetFrameLength_le {b : Bytes} {offset n : Nat}
    (h : tryGetFrameLength b offset = some n) : offset + n ≤ b.length := by
  unfold tryGetFrameLength at h
  simp only at h
  repeat' split at h
  all_goals cases h
  all_goals omega

/-- **One turn of the loop is sound**: a turn that yields a message stood on
exactly that message's encoding. -/
theorem parseFrame_sound {b : Bytes} {offset n : Nat} {m : DecodedMessage}
    (h : parseFrame b offset = .ok (m, n)) :
    m.WithinLimits ∧ n = (encodeClient m).length ∧ offset + n ≤ b.length ∧
      b.drop offset = encodeClient m ++ b.drop (offset + n) := by
  unfold parseFrame at h
  split at h
  · cases h
  rename_i len hlen
  split at h
  · cases h
  split at h
  · cases h
  rename_i msg hdec
  cases h
  have hle := tryGetFrameLength_le hlen
  obtain ⟨hm, suf, hcut⟩ := decodeMessage_sound hdec
  have hdrop := drop_eq_slice (b := b) (i := offset) (j := offset + n) (by omega)
  have hb : b = b.take offset ++ encodeClient m ++ (suf ++ b.drop (offset + n)) := by
    rw [List.append_assoc, ← List.append_assoc (encodeClient m), ← hcut, ← hdrop,
      List.take_append_drop]
  -- The measured length is the encoded length, so the cut holds nothing after the frame.
  have hmeasure : n = (encodeClient m).length := by
    have hf := messageAt_append (b.take offset) (suf ++ b.drop (offset + n)) m
    rw [← hb, List.length_take, Nat.min_eq_left (by omega)] at hf
    have := tryGetFrameLength_of_messageAt hm hf
    rw [hlen] at this
    exact Option.some.inj this
  have hsuf : suf = [] := by
    have hl := congrArg List.length hcut
    rw [length_slice (by omega) hle, List.length_append, Nat.add_sub_cancel_left] at hl
    exact List.length_eq_zero_iff.mp (by omega)
  refine ⟨hm, hmeasure, hle, ?_⟩
  rw [hdrop, hcut, hsuf, List.append_nil]

/-! ### Whole payloads -/

/-- Running the loop over client frames yields their messages and goes on behind
them. -/
theorem parseLoop_encodeAll (ms : List DecodedMessage) (hms : ∀ m ∈ ms, m.WithinLimits)
    (pre suf : Bytes) :
    parseLoop (pre ++ ms.flatMap encodeClient ++ suf) pre.length =
      let rest := parseLoop (pre ++ ms.flatMap encodeClient ++ suf)
        (pre ++ ms.flatMap encodeClient).length
      (ms ++ rest.1, rest.2) := by
  induction ms generalizing pre with
  | nil => simp
  | cons m ms ih =>
      have hm := hms m List.mem_cons_self
      have hlen := length_encodeClient m
      have hsplit : pre ++ (m :: ms).flatMap encodeClient ++ suf =
          pre ++ encodeClient m ++ (ms.flatMap encodeClient ++ suf) := by simp
      have hframe := parseFrame_encode hm pre (ms.flatMap encodeClient ++ suf)
      have hrest := ih (fun m hm => hms m (List.mem_cons_of_mem _ hm)) (pre ++ encodeClient m)
      rw [parseLoop, dif_pos (by simp; omega)]
      split
      · rename_i heq
        rw [hsplit, hframe] at heq
        cases heq
      · rename_i heq
        rw [hsplit, hframe] at heq
        cases heq
        simp only [List.length_append, List.flatMap_cons, List.append_assoc,
          List.cons_append] at hrest ⊢
        rw [hrest]

/-- **The loop on a payload of client frames** yields exactly their messages and
reaches the end. -/
theorem parseLoop_flatMap (ms : List DecodedMessage) (hms : ∀ m ∈ ms, m.WithinLimits) :
    parseLoop (ms.flatMap encodeClient) 0 = (ms, .exhausted) := by
  have h := parseLoop_encodeAll ms hms [] []
  have hend : parseLoop (ms.flatMap encodeClient) (ms.flatMap encodeClient).length =
      ([], .exhausted) := by
    rw [parseLoop, dif_neg (by omega)]
  simp only [List.nil_append, List.append_nil, List.length_nil, hend] at h
  exact h

/-- **The loop is sound**: a payload it consumes to the end is the concatenation of
the encodings of what it yielded. -/
theorem parseLoop_sound {b : Bytes} {offset : Nat} (hle : offset ≤ b.length)
    (h : (parseLoop b offset).2 = .exhausted) :
    (∀ m ∈ (parseLoop b offset).1, m.WithinLimits) ∧
      b.drop offset = (parseLoop b offset).1.flatMap encodeClient := by
  fun_induction parseLoop b offset with
  | case1 offset hlt fault heq => cases h
  | case2 offset hlt msg frameLen heq rest ih =>
      obtain ⟨hm, -, hin, hdrop⟩ := parseFrame_sound heq
      obtain ⟨hrest, htail⟩ := ih hin h
      refine ⟨?_, ?_⟩
      · intro m hmem
        rcases List.mem_cons.mp hmem with rfl | hmem
        · exact hm
        · exact hrest m hmem
      · rw [hdrop, htail, List.flatMap_cons]
  | case3 offset hge => exact ⟨by simp, by simpa using by omega⟩

/-! ### The Android frames -/

namespace Android

theorem ByteBuffer.put_eq {b : ByteBuffer} {src : Bytes}
    (h : b.written.length + src.length ≤ b.capacity) :
    b.put src = some { b with written := b.written ++ src } := if_pos h

/-- A buffer that was filled to its capacity holds exactly what was put. -/
theorem ByteBuffer.array_full {b : ByteBuffer} (h : b.written.length = b.capacity) :
    b.array = b.written := by
  simp [ByteBuffer.array, h]

/-- `Int.toShort()` keeps the low sixteen bits. -/
theorem toUInt16_toInt16 (v : Int32) : v.toInt16.toUInt16 = v.toUInt32.toUInt16 := by
  apply UInt16.toBitVec_inj.mp
  show v.toBitVec.signExtend 16 = v.toBitVec.setWidth 16
  exact BitVec.signExtend_eq_setWidth_of_le _ (by decide)

theorem toUInt16_ofNat (n : Nat) : (Int32.ofNat n).toUInt32.toUInt16 = n.toUInt16 := by
  apply UInt16.toNat_inj.mp
  show (BitVec.setWidth 16 (BitVec.ofNat 32 n)).toNat = _
  simp [Nat.toUInt16]

/-- `openStream` refuses bad arguments and otherwise sends the desktop encoding. -/
theorem openFrame_eq (streamId port : Int32) (hostBytes tokenBytes : Bytes) :
    openFrame streamId hostBytes port tokenBytes =
      if hostBytes.length ≤ 0xFFFF ∧ tokenBytes.length ≤ 0xFFFF ∧ 1 ≤ port ∧ port ≤ 65535 then
        some (Desktop.encodeOpenFrame streamId.toUInt32 hostBytes port.toUInt32.toUInt16
          tokenBytes)
      else none := by
  unfold openFrame
  by_cases h : hostBytes.length ≤ 0xFFFF ∧ tokenBytes.length ≤ 0xFFFF ∧ 1 ≤ port ∧ port ≤ 65535
  · obtain ⟨hh, ht, hp⟩ := h
    have haccept : ¬ (hostBytes.length > 0xFFFF ∨ tokenBytes.length > 0xFFFF ∨
        ¬ (1 ≤ port ∧ port ≤ 65535)) := by
      simp only [not_or, not_not]
      exact ⟨by omega, by omega, hp⟩
    rw [if_neg haccept, if_pos ⟨hh, ht, hp⟩]
    simp only [ByteBuffer.putInt, ByteBuffer.putShort, ByteBuffer.allocate, toUInt16_toInt16,
      toUInt16_ofNat, Option.bind_eq_bind]
    repeat rw [ByteBuffer.put_eq (by simp; try omega), Option.bind_some]
    show some (ByteBuffer.array _) = _
    rw [ByteBuffer.array_full (by simp; omega)]
    simp [Desktop.encodeOpenFrame, FrameType.id, Desktop.FrameType.code]
  · have hreject : hostBytes.length > 0xFFFF ∨ tokenBytes.length > 0xFFFF ∨
        ¬ (1 ≤ port ∧ port ≤ 65535) := by
      by_contra hc
      simp only [not_or, not_not] at hc
      exact h ⟨by omega, by omega, hc.2.2⟩
    rw [if_pos hreject, if_neg h]

/-- The port an accepted OPEN carries is the port that was asked for. -/
theorem openFrame_of_port (streamId : Int32) (hostBytes tokenBytes : Bytes) (port : UInt16)
    (hhost : hostBytes.length < 65536) (htoken : tokenBytes.length < 65536) (hport : 1 ≤ port) :
    openFrame streamId hostBytes port.toUInt32.toInt32 tokenBytes =
      some (Desktop.encodeOpenFrame streamId.toUInt32 hostBytes port tokenBytes) := by
  have hlt := port.toNat_lt
  have hone : 1 ≤ port.toNat := by simpa [UInt16.le_iff_toNat_le] using hport
  have hint : port.toUInt32.toInt32.toInt = port.toNat := by
    show port.toUInt32.toBitVec.toInt = _
    rw [BitVec.toInt_eq_toNat_of_lt]
    · simp
    · show 2 * (port.toUInt32).toNat < 2 ^ 32
      simp
      omega
  have hlow : port.toUInt32.toInt32.toUInt32.toUInt16 = port := by
    show port.toUInt32.toUInt16 = port
    simp
  have hrange : (1 : Int32) ≤ port.toUInt32.toInt32 ∧ port.toUInt32.toInt32 ≤ 65535 := by
    rw [Int32.le_iff_toInt_le, Int32.le_iff_toInt_le, hint]
    exact ⟨by simpa using hone, by simp; omega⟩
  rw [openFrame_eq, if_pos ⟨by omega, by omega, hrange⟩, hlow]

theorem closeFrame_eq (streamId : Int32) :
    closeFrame streamId = some (Desktop.encodeCloseFrame streamId.toUInt32) := by
  unfold closeFrame
  simp only [ByteBuffer.putInt, ByteBuffer.allocate, Option.bind_eq_bind]
  repeat rw [ByteBuffer.put_eq (by simp), Option.bind_some]
  show some (ByteBuffer.array _) = _
  rw [ByteBuffer.array_full (by simp)]
  simp [Desktop.encodeCloseFrame, FrameType.id, Desktop.FrameType.code]

theorem dataFrame_eq (streamId : Int32) {payload : Bytes} {offset len : Nat}
    (h : offset + len ≤ payload.length) :
    dataFrame streamId payload offset len =
      some (Desktop.encodeDataFrame streamId.toUInt32 (slice payload offset (offset + len))) := by
  have hlen : (slice payload offset (offset + len)).length = len := by
    rw [length_slice (by omega) h, Nat.add_sub_cancel_left]
  unfold dataFrame
  simp only [ByteBuffer.putInt, ByteBuffer.allocate, Option.bind_eq_bind]
  repeat rw [ByteBuffer.put_eq (by simp [hlen]; try omega), Option.bind_some]
  show some (ByteBuffer.array _) = _
  rw [ByteBuffer.array_full (by simp [hlen]; omega)]
  simp only [Desktop.encodeDataFrame, hlen, FrameType.id, Desktop.FrameType.code]
  rfl

/-- A segment is not empty and not longer than it may be. -/
theorem length_segment {payload : Bytes} {offset : Nat} (within : offset < payload.length) :
    1 ≤ (slice payload offset (offset + min dataSegmentSize (payload.length - offset))).length ∧
      (slice payload offset (offset + min dataSegmentSize (payload.length - offset))).length ≤
        dataSegmentSize := by
  rw [length_slice (by omega) (by omega), Nat.add_sub_cancel_left, dataSegmentSize]
  omega

/-- The segment loop sends the desktop DATA encodings of consecutive chunks of the
payload, whichever send fails; of the whole payload if none does. -/
theorem segmentLoop_eq (sendCode : Nat → Int32) (streamId : Int32) (payload : Bytes)
    (offset k : Nat) :
    ∃ (chunks : List Bytes) (code : Int32),
      segmentLoop sendCode streamId payload offset k =
          some (chunks.map (Desktop.encodeDataFrame streamId.toUInt32), code) ∧
        chunks.flatten <+: payload.drop offset ∧
        (code = 0 → chunks.flatten = payload.drop offset) ∧
        ∀ chunk ∈ chunks, 1 ≤ chunk.length ∧ chunk.length ≤ dataSegmentSize := by
  fun_induction segmentLoop sendCode streamId payload offset k with
  | case1 offset k hlt len hframe =>
      rw [dataFrame_eq streamId (by omega)] at hframe
      cases hframe
  | case2 offset k hlt len frame hframe hcode =>
      rw [dataFrame_eq streamId (by omega)] at hframe
      cases hframe
      refine ⟨[slice payload offset (offset + len)], sendCode k, rfl,
        ⟨payload.drop (offset + len), ?_⟩, fun sent => absurd sent hcode, ?_⟩
      · simpa using (drop_eq_slice (by omega)).symm
      · intro chunk mem
        cases List.mem_singleton.mp mem
        exact length_segment hlt
  | case3 offset k hlt len frame hframe hcode ih =>
      rw [dataFrame_eq streamId (by omega)] at hframe
      cases hframe
      obtain ⟨chunks, code, hrest, ⟨tail, htail⟩, whole, sizes⟩ := ih
      have first : payload.drop offset =
          slice payload offset (offset + len) ++ payload.drop (offset + len) :=
        drop_eq_slice (by omega)
      refine ⟨slice payload offset (offset + len) :: chunks, code, ?_, ⟨tail, ?_⟩, ?_, ?_⟩
      · rw [hrest]
        rfl
      · rw [List.flatten_cons, List.append_assoc, htail, first]
      · intro sent
        rw [List.flatten_cons, whole sent, first]
      · intro chunk mem
        rcases List.mem_cons.mp mem with rfl | mem
        · exact length_segment hlt
        · exact sizes chunk mem
  | case4 offset k hge =>
      refine ⟨[], 0, rfl, List.nil_prefix, fun _ => ?_, fun _ mem => absurd mem List.not_mem_nil⟩
      rw [List.flatten_nil, List.drop_eq_nil_of_le (by omega)]

end Android

/-! ### The result -/

/-- **The server's frame loop and the client encoders are inverse to each other.**
Any list of client messages within the limits of its length fields comes back from
the concatenated encodings, in order and to the last byte; any payload the loop
consumes to the end is the concatenation of the encodings of what it yielded; and
the Android client's OPEN, DATA and CLOSE frames are the desktop encodings of the
same fields. Its DATA frames carry chunks of 1 to 1200 bytes that together are the
payload, unless a send fails. -/
theorem server_loop_inverts_client_encoders :
    (∀ ms : List DecodedMessage, (∀ m ∈ ms, m.WithinLimits) →
      parseLoop (ms.flatMap encodeClient) 0 = (ms, .exhausted)) ∧
    (∀ b : Bytes, (parseLoop b 0).2 = .exhausted →
      b = (parseLoop b 0).1.flatMap encodeClient ∧
        ∀ m ∈ (parseLoop b 0).1, m.WithinLimits) ∧
    (∀ (streamId : Int32) (host token : Bytes) (port : UInt16),
      host.length < 65536 → token.length < 65536 → 1 ≤ port →
      Android.openFrame streamId host port.toUInt32.toInt32 token =
        some (Desktop.encodeOpenFrame streamId.toUInt32 host port token)) ∧
    (∀ (sendCode : Nat → Int32) (streamId : Int32) (payload : Bytes),
      ∃ (chunks : List Bytes) (code : Int32),
        Android.sendStreamDataImmediateSegmented sendCode streamId payload =
            some (chunks.map (Desktop.encodeDataFrame streamId.toUInt32), code) ∧
          chunks.flatten <+: payload ∧ (code = 0 → chunks.flatten = payload) ∧
          ∀ chunk ∈ chunks, 1 ≤ chunk.length ∧ chunk.length ≤ 1200) ∧
    (∀ streamId : Int32,
      Android.closeFrame streamId = some (Desktop.encodeCloseFrame streamId.toUInt32)) := by
  refine ⟨parseLoop_flatMap, ?_, ?_, ?_, Android.closeFrame_eq⟩
  · intro b h
    obtain ⟨hlimits, hdrop⟩ := parseLoop_sound (Nat.zero_le _) h
    exact ⟨by simpa using hdrop, hlimits⟩
  · intro streamId host token port hhost htoken hport
    exact Android.openFrame_of_port streamId host token port hhost htoken hport
  · intro sendCode streamId payload
    exact Android.segmentLoop_eq sendCode streamId payload 0 0

end TonTunnel
