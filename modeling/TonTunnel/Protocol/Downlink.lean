import TonTunnel.Protocol.Layout
import TonTunnel.Protocol.Desktop
import TonTunnel.Protocol.Android
import TonTunnel.Protocol.Uplink

/-!
Server to client: what the two client decoders make of a packet of server frames.

The Android decoder reads every OPEN as a bare header, so it returns exactly the
frames that were concatenated (`Android.decodeInboundFrames_flatMap`). The desktop
decoder first tries to read an OPEN request body behind an OPEN header. When the
frames behind an ACK happen to spell such a body they are swallowed, and the
decoder returns the frames that were sent exactly when that happens nowhere in the
packet (`decodeLoop_of_swallowFree`, `decodeLoop_of_swallowed`).
-/

namespace TonTunnel

open BigEndian

/-- The frames the server hands to the transport; `τ` is how an error text is
represented. -/
inductive ServerFrame (τ : Type) where
  | ack (streamId : UInt32)
  | data (streamId : UInt32) (payload : Bytes)
  | close (streamId : UInt32)
  | error (streamId : UInt32) (message : τ)

namespace ServerFrame

/-- The server encoder for each frame. -/
def encode : ServerFrame Bytes → Bytes
  | .ack streamId => encodeOpen { streamId }
  | .data streamId payload => encodeData { streamId, payload }
  | .close streamId => encodeClose { streamId }
  | .error streamId message => encodeError { streamId, message }

/-- Payload and text fit their length prefixes. -/
def WithinLimits : ServerFrame Bytes → Prop
  | .ack _ => True
  | .data _ payload => payload.length < 2 ^ 32
  | .close _ => True
  | .error _ message => message.length < 65536

def type {τ : Type} : ServerFrame τ → MessageType
  | .ack _ => .opn
  | .data .. => .data
  | .close _ => .close
  | .error .. => .error

def streamId {τ : Type} : ServerFrame τ → UInt32
  | .ack streamId => streamId
  | .data streamId _ => streamId
  | .close streamId => streamId
  | .error streamId _ => streamId

def body : ServerFrame Bytes → Bytes
  | .ack _ => []
  | .data _ payload => dataBody payload
  | .close _ => []
  | .error _ message => errorBody message

theorem encode_eq_frame (f : ServerFrame Bytes) :
    f.encode = frame f.type.code f.streamId f.body := by
  cases f <;>
    simp [encode, frame, type, streamId, body, encodeOpen, encodeData, encodeClose, encodeError,
      dataBody, errorBody]

theorem length_encode (f : ServerFrame Bytes) : f.encode.length = 5 + f.body.length := by
  rw [encode_eq_frame, length_frame]

/-- A server frame stands at `offset` in `b`. -/
abbrev At (f : ServerFrame Bytes) (b : Bytes) (offset : Nat) : Prop :=
  FrameAt b offset f.type.code f.streamId f.body

theorem at_append (pre suf : Bytes) (f : ServerFrame Bytes) :
    f.At (pre ++ f.encode ++ suf) pre.length := by
  rw [encode_eq_frame]
  exact frameAt_append ..

/-- Cutting the frame out of a buffer it stands in gives its encoding. -/
theorem At.slice_encode {f : ServerFrame Bytes} {b : Bytes} {offset j : Nat} (hf : f.At b offset)
    (hj : j = offset + f.encode.length) : slice b offset j = f.encode := by
  rw [encode_eq_frame]
  exact hf.slice_frame (by rw [hj, length_encode]; omega)

end ServerFrame

/-! ### The desktop decoder -/

/-- The bytes begin with a complete OPEN request body. -/
def HoldsOpenBody (b : Bytes) : Prop :=
  ∃ (host : Bytes) (port : UInt16) (token suf : Bytes),
    host.length < 65536 ∧ token.length < 65536 ∧ b = openBody host port token ++ suf

/-- No OPEN ACK of the packet is followed by bytes that begin with a complete OPEN
request body. -/
def SwallowFree : List (ServerFrame Bytes) → Prop
  | [] => True
  | .ack _ :: fs => ¬ HoldsOpenBody (fs.flatMap ServerFrame.encode) ∧ SwallowFree fs
  | _ :: fs => SwallowFree fs

namespace Desktop

/-- What a decoded frame says, without the record of its raw bytes. -/
def InboundFrame.content (f : InboundFrame) : InboundFrame :=
  { f with rawFrame := [] }

/-- The frame a client should see for a server frame. -/
def inbound : ServerFrame Bytes → InboundFrame
  | .ack streamId => { type := .opn, streamId }
  | .data streamId payload => { type := .data, streamId, payload }
  | .close streamId => { type := .close, streamId }
  | .error streamId errorMessage => { type := .error, streamId, errorMessage }

/-- The speculative parse succeeds exactly on a complete OPEN request body. -/
theorem openBodyEnd_isSome_iff {b : Bytes} {cursor : Nat} :
    (openBodyEnd b cursor).isSome ↔ HoldsOpenBody (b.drop cursor) := by
  constructor
  · intro h
    unfold openBodyEnd at h
    split at h
    · rename_i h2
      simp only at h
      split at h
      · rename_i h4
        split at h
        · rename_i hend
          refine ⟨_, _, _, _, ?_, ?_, drop_eq_openBody h2 rfl h4 rfl rfl hend⟩
          · rw [length_slice (by omega) (by omega), Nat.add_sub_cancel_left]
            exact UInt16.toNat_lt _
          · rw [length_slice (by omega) (by omega), Nat.add_sub_cancel_left]
            exact UInt16.toNat_lt _
        · cases h
      · cases h
    · cases h
  · rintro ⟨host, port, token, suf, hh, ht, hb⟩
    have hlen := congrArg List.length hb
    simp only [List.length_drop, List.length_append, length_openBody] at hlen
    have hsplit : b = b.take cursor ++ openBody host port token ++ suf := by
      rw [List.append_assoc, ← hb, List.take_append_drop]
    have hcursor : cursor = (b.take cursor).length := by
      rw [List.length_take]
      omega
    have hhost : ∀ h, readU16 b cursor h = host.length.toUInt16 :=
      readU16_at (b.take cursor)
        (host ++ writeU16 port ++ writeU16 token.length.toUInt16 ++ token ++ suf)
        (hsplit.trans (by simp [openBody])) hcursor
    have htoken : ∀ h, readU16 b (cursor + 2 + host.length + 2) h = token.length.toUInt16 :=
      readU16_at (b.take cursor ++ writeU16 host.length.toUInt16 ++ host ++ writeU16 port)
        (token ++ suf) (hsplit.trans (by simp [openBody]))
        (by simp only [List.length_append, length_writeU16]; omega)
    unfold openBodyEnd
    rw [dif_pos (by omega)]
    simp only [hhost, toNat_toUInt16 hh]
    rw [dif_pos (by omega)]
    simp only [htoken, toNat_toUInt16 ht]
    rw [if_pos (by omega)]
    rfl

/-- One turn of the loop on a frame that is not an ACK followed by an OPEN body. -/
theorem decodeFrame_of_at {f : ServerFrame Bytes} {b : Bytes} {offset : Nat}
    (hf : f.At b offset) (hlim : f.WithinLimits) (h : offset + 5 ≤ b.length)
    (hack : f.type = .opn → ¬ HoldsOpenBody (b.drop (offset + 5))) :
    decodeFrame b offset h =
      some ({ inbound f with rawFrame := f.encode }, offset + f.encode.length) := by
  have hlen := hf.length_le
  have htype : ∀ h : offset < b.length, b[offset] = f.type.code := hf.type_eq
  have hid : ∀ h, readU32 b (offset + 1) h = f.streamId := hf.streamId_eq
  have hraw := hf.slice_encode (j := offset + f.encode.length) rfl
  rw [ServerFrame.length_encode] at hraw ⊢
  unfold decodeFrame
  cases f with
  | ack streamId =>
      have hnone : openBodyEnd b (offset + 5) = none := by
        rw [← Option.not_isSome_iff_eq_none, openBodyEnd_isSome_iff]
        exact hack rfl
      simp only [ServerFrame.body, List.length_nil] at hraw
      simp only [htype, hid, ServerFrame.type, MessageType.code, FrameType.code, if_true, hnone,
        Option.getD_none, hraw]
      rfl
  | data streamId payload =>
      simp only [ServerFrame.body, length_dataBody] at hlen hraw ⊢
      simp only [htype, hid, ServerFrame.type, MessageType.code, FrameType.code]
      rw [if_neg (by decide), if_neg (by decide), if_pos trivial, dif_neg (by omega)]
      simp only [hf.payloadLen_eq hlim]
      rw [if_neg (by omega), hf.payload_eq rfl]
      rw [show offset + 5 + 4 + payload.length = offset + (5 + (4 + payload.length)) by omega, hraw]
      rfl
  | close streamId =>
      simp only [ServerFrame.body, List.length_nil] at hraw
      simp only [htype, hid, ServerFrame.type, MessageType.code, FrameType.code]
      rw [if_neg (by decide), if_pos trivial, hraw]
      rfl
  | error streamId message =>
      simp only [ServerFrame.body, length_errorBody] at hlen hraw ⊢
      simp only [htype, hid, ServerFrame.type, MessageType.code, FrameType.code]
      rw [if_neg (by decide), if_neg (by decide), if_neg (by decide), if_pos trivial,
        dif_neg (by omega)]
      simp only [hf.msgLen_eq hlim]
      rw [if_neg (by omega), hf.message_eq rfl]
      rw [show offset + 5 + 2 + message.length = offset + (5 + (2 + message.length)) by omega, hraw]
      rfl

/-! ### Packets that decode as sent -/

/-- One step of the loop, when the turn yields a frame. -/
theorem decodeLoop_step {b : Bytes} {cursor next : Nat} {out : List InboundFrame}
    {f : InboundFrame} (h : cursor + 5 ≤ b.length)
    (hd : decodeFrame b cursor h = some (f, next)) :
    decodeLoop b cursor out = decodeLoop b next (out ++ [f]) := by
  rw [decodeLoop, dif_pos h]
  split
  · rename_i heq
    rw [hd] at heq
    cases heq
  · rename_i heq
    rw [hd] at heq
    cases heq
    rfl

/-- The bytes behind the header of a frame that was appended. -/
private theorem drop_header (pre suf : Bytes) (f : ServerFrame Bytes) :
    (pre ++ f.encode ++ suf).drop (pre.length + 5) = f.body ++ suf := by
  have hsplit : pre ++ f.encode ++ suf =
      (pre ++ [f.type.code] ++ writeU32 f.streamId) ++ (f.body ++ suf) := by
    simp [ServerFrame.encode_eq_frame, frame]
  have hlen : pre.length + 5 = (pre ++ [f.type.code] ++ writeU32 f.streamId).length := by
    simp
  rw [hsplit, hlen, List.drop_left]

/-- The loop moves over a frame unless it is an ACK whose followers spell an OPEN
body. -/
theorem decodeLoop_frame {f : ServerFrame Bytes} (hlim : f.WithinLimits) (pre suf : Bytes)
    (hack : f.type = .opn → ¬ HoldsOpenBody suf) (out : List InboundFrame) :
    decodeLoop (pre ++ f.encode ++ suf) pre.length out =
      decodeLoop (pre ++ f.encode ++ suf) (pre ++ f.encode).length
        (out ++ [{ inbound f with rawFrame := f.encode }]) := by
  have hlen := f.length_encode
  have h : pre.length + 5 ≤ (pre ++ f.encode ++ suf).length := by
    simp only [List.length_append]
    omega
  rw [decodeLoop_step h (decodeFrame_of_at (f.at_append pre suf) hlim h ?_)]
  · rw [List.length_append]
  · intro hopn
    rw [drop_header]
    cases f with
    | ack streamId => exact hack rfl
    | data streamId payload => cases hopn
    | close streamId => cases hopn
    | error streamId message => cases hopn

/-- The loop yields the frames of a packet in which no ACK swallows its followers. -/
theorem decodeLoop_of_swallowFree (fs : List (ServerFrame Bytes))
    (hlim : ∀ f ∈ fs, f.WithinLimits) (hfree : SwallowFree fs) (pre : Bytes)
    (out : List InboundFrame) :
    decodeLoop (pre ++ fs.flatMap ServerFrame.encode) pre.length out =
      out ++ fs.map fun f => { inbound f with rawFrame := f.encode } := by
  induction fs generalizing pre out with
  | nil =>
      rw [decodeLoop, dif_neg (by simp)]
      simp
  | cons f fs ih =>
      have hack : f.type = .opn → ¬ HoldsOpenBody (fs.flatMap ServerFrame.encode) := by
        intro hopn
        cases f with
        | ack streamId => exact hfree.1
        | data streamId payload => cases hopn
        | close streamId => cases hopn
        | error streamId message => cases hopn
      have htail : SwallowFree fs := by
        cases f with
        | ack streamId => exact hfree.2
        | data streamId payload => exact hfree
        | close streamId => exact hfree
        | error streamId message => exact hfree
      rw [List.flatMap_cons, ← List.append_assoc,
        decodeLoop_frame (hlim f List.mem_cons_self) pre _ hack,
        ih (fun g hg => hlim g (List.mem_cons_of_mem _ hg)) htail]
      simp

/-! ### Packets that do not

The bytes a turn consumes are at least the encoded size of what it yields, so a
packet from which some bytes were swallowed cannot yield all its frames. -/

/-- The encoded size of a server frame with this content. -/
def InboundFrame.size (f : InboundFrame) : Nat :=
  match f.type with
  | .data => 9 + f.payload.length
  | .error => 7 + f.errorMessage.length
  | _ => 5

theorem size_inbound (f : ServerFrame Bytes) : (inbound f).size = f.encode.length := by
  rw [ServerFrame.length_encode]
  cases f <;> simp [inbound, InboundFrame.size, ServerFrame.body] <;> omega

/-- A turn consumes at least the size of the frame it yields. -/
theorem decodeFrame_size {b : Bytes} {cursor next : Nat} {h : cursor + 5 ≤ b.length}
    {f : InboundFrame} (hd : decodeFrame b cursor h = some (f, next)) :
    cursor + f.size ≤ next := by
  have hcursor := (decodeFrame_cursor hd).1
  unfold decodeFrame at hd
  simp only at hd
  split at hd
  · cases hd
    exact hcursor
  · split at hd
    · cases hd
      exact hcursor
    · split at hd
      · split at hd
        · cases hd
        · split at hd
          · cases hd
          · cases hd
            simp only [InboundFrame.size]
            rw [length_slice (by omega) (by omega)]
            omega
      · split at hd
        · split at hd
          · cases hd
          · split at hd
            · cases hd
            · cases hd
              simp only [InboundFrame.size]
              rw [length_slice (by omega) (by omega)]
              omega
        · cases hd

/-- The loop gives up with nothing, or adds frames no larger than what was left. -/
theorem decodeLoop_size (b : Bytes) (cursor : Nat) (out : List InboundFrame) :
    decodeLoop b cursor out = [] ∨
      ∃ fs, decodeLoop b cursor out = out ++ fs ∧
        (fs.map InboundFrame.size).sum ≤ b.length - cursor := by
  fun_induction decodeLoop b cursor out with
  | case1 cursor out h hd => exact .inl rfl
  | case2 cursor out h f next hd ih =>
      have hsize := decodeFrame_size hd
      have hnext := (decodeFrame_cursor hd).2
      rcases ih with hnil | ⟨fs, hfs, hsum⟩
      · exact .inl hnil
      · refine .inr ⟨f :: fs, by rw [hfs]; simp, ?_⟩
        simp only [List.map_cons, List.sum_cons]
        omega
  | case3 cursor out h => exact .inr ⟨[], by simp, by simp⟩

@[simp] theorem size_content (f : InboundFrame) : f.content.size = f.size := rfl

/-- Frames with the contents of `fs` have the size of the encodings of `fs`. -/
private theorem sum_size_of_content {gs : List InboundFrame} {fs : List (ServerFrame Bytes)}
    (h : gs.map InboundFrame.content = fs.map inbound) :
    (gs.map InboundFrame.size).sum = (fs.flatMap ServerFrame.encode).length := by
  have hsizes := congrArg (List.map InboundFrame.size) h
  simp only [List.map_map, Function.comp_def, size_content, size_inbound] at hsizes
  rw [hsizes, List.length_flatMap]

/-- The first turn on an ACK whose followers spell an OPEN body swallows at least
six of their bytes. -/
theorem decodeFrame_swallows (pre suf : Bytes) (streamId : UInt32) (hbody : HoldsOpenBody suf)
    (h : pre.length + 5 ≤ (pre ++ (ServerFrame.ack streamId).encode ++ suf).length) :
    ∃ (f : InboundFrame) (next : Nat),
      decodeFrame (pre ++ (ServerFrame.ack streamId).encode ++ suf) pre.length h =
          some (f, next) ∧ f.content = inbound (.ack streamId) ∧ pre.length + 11 ≤ next := by
  have hf := (ServerFrame.ack streamId).at_append pre suf
  generalize hb : pre ++ (ServerFrame.ack streamId).encode ++ suf = b at *
  have htype : ∀ h : pre.length < b.length, b[pre.length] = 1 := hf.type_eq
  have hid : ∀ h, readU32 b (pre.length + 1) h = streamId := hf.streamId_eq
  have hsome : (openBodyEnd b (pre.length + 5)).isSome := by
    rw [openBodyEnd_isSome_iff, ← hb, drop_header]
    exact hbody
  obtain ⟨stop, hstop⟩ := Option.isSome_iff_exists.mp hsome
  have hge := (openBodyEnd_ge hstop).1
  unfold decodeFrame
  simp only [htype, hid, hstop, FrameType.code, if_true, Option.getD_some]
  exact ⟨_, _, rfl, rfl, by omega⟩

/-- **A swallowed packet never decodes as sent.** -/
theorem decodeLoop_of_swallowed (fs : List (ServerFrame Bytes))
    (hlim : ∀ f ∈ fs, f.WithinLimits) (hswallow : ¬ SwallowFree fs) (pre : Bytes)
    (out : List InboundFrame) :
    (decodeLoop (pre ++ fs.flatMap ServerFrame.encode) pre.length out).map
        InboundFrame.content ≠ out.map InboundFrame.content ++ fs.map inbound := by
  induction fs generalizing pre out with
  | nil => exact absurd trivial hswallow
  | cons f fs ih =>
      -- Either this frame swallows its followers, or a later one does.
      by_cases hhere : f.type = .opn ∧ HoldsOpenBody (fs.flatMap ServerFrame.encode)
      · obtain ⟨hopn, hbody⟩ := hhere
        cases f with
        | data streamId payload => cases hopn
        | close streamId => cases hopn
        | error streamId message => cases hopn
        | ack streamId =>
            have h : pre.length + 5 ≤
                (pre ++ (ServerFrame.ack streamId).encode ++
                  fs.flatMap ServerFrame.encode).length := by
              simp [ServerFrame.length_encode]
              omega
            obtain ⟨g, next, hd, hcontent, hnext⟩ :=
              decodeFrame_swallows pre (fs.flatMap ServerFrame.encode) streamId hbody h
            rw [List.flatMap_cons, ← List.append_assoc, decodeLoop_step h hd]
            intro heq
            rcases decodeLoop_size (pre ++ (ServerFrame.ack streamId).encode ++
              fs.flatMap ServerFrame.encode) next (out ++ [g]) with hnil | ⟨gs, hgs, hsum⟩
            · rw [hnil] at heq
              simp at heq
            · rw [hgs] at heq
              simp only [List.map_append, List.map_cons, List.append_assoc,
                List.append_cancel_left_eq, List.cons_append, List.nil_append,
                List.cons.injEq] at heq
              have hsize := sum_size_of_content heq.2
              simp only [List.length_append, ServerFrame.length_encode, ServerFrame.body,
                List.length_nil] at hsum
              obtain ⟨host, port, token, suf, -, -, hb⟩ := hbody
              have hblen := congrArg List.length hb
              rw [List.length_append, length_openBody] at hblen
              omega
      · have hack : f.type = .opn → ¬ HoldsOpenBody (fs.flatMap ServerFrame.encode) :=
          fun hopn hbody => hhere ⟨hopn, hbody⟩
        have htail : ¬ SwallowFree fs := by
          intro hfree
          apply hswallow
          cases f with
          | ack streamId => exact ⟨hack rfl, hfree⟩
          | data streamId payload => exact hfree
          | close streamId => exact hfree
          | error streamId message => exact hfree
        rw [List.flatMap_cons, ← List.append_assoc,
          decodeLoop_frame (hlim f List.mem_cons_self) pre _ hack]
        have hrest := ih (fun g hg => hlim g (List.mem_cons_of_mem _ hg)) htail
          (pre ++ f.encode) (out ++ [{ inbound f with rawFrame := f.encode }])
        intro heq
        apply hrest
        rw [heq]
        cases f <;> simp [InboundFrame.content, inbound]

/-- **The desktop decoder returns the frames of a packet exactly when no ACK in it
swallows what follows.** -/
theorem decodeInboundFrames_eq_iff_swallowFree (fs : List (ServerFrame Bytes))
    (hlim : ∀ f ∈ fs, f.WithinLimits) :
    (decodeInboundFrames (fs.flatMap ServerFrame.encode)).map InboundFrame.content =
        fs.map inbound ↔ SwallowFree fs := by
  constructor
  · intro h
    by_contra hswallow
    exact decodeLoop_of_swallowed fs hlim hswallow [] [] h
  · intro hfree
    have h := decodeLoop_of_swallowFree fs hlim hfree [] []
    simp only [List.nil_append, List.length_nil] at h
    rw [decodeInboundFrames, h, List.map_map]
    refine List.map_congr_left fun f _ => ?_
    cases f <;> rfl

/-- An ACK, a DATA frame and a CLOSE in one packet, the DATA too short to hold an
OPEN body: the packet decodes as sent. -/
theorem decodeInboundFrames_eq_of_short_packet :
    SwallowFree [.ack 7, .data 7 [1, 2, 3], .close 7] ∧
      (decodeInboundFrames ([.ack 7, .data 7 [1, 2, 3], .close 7].flatMap
        ServerFrame.encode)).map InboundFrame.content =
      [.ack 7, .data 7 [1, 2, 3], .close 7].map inbound := by
  have hfree : SwallowFree [.ack 7, .data 7 [1, 2, 3], .close 7] := by
    refine ⟨?_, trivial⟩
    have hnone : ¬ (openBodyEnd ([.data 7 [1, 2, 3], .close 7].flatMap ServerFrame.encode)
        0).isSome := by decide
    rwa [openBodyEnd_isSome_iff] at hnone
  refine ⟨hfree, (decodeInboundFrames_eq_iff_swallowFree _ ?_).mpr hfree⟩
  intro f hf
  simp only [List.mem_cons, List.not_mem_nil, or_false] at hf
  rcases hf with rfl | rfl | rfl
  · trivial
  · simp [ServerFrame.WithinLimits]
  · trivial

/-- An ACK followed by one DATA frame with 600 zero bytes: the DATA frame's type byte
and stream id read as a host length of 512. -/
theorem decodeInboundFrames_swallows_data :
    (∀ f ∈ [ServerFrame.ack 1, .data 1 (List.replicate 600 0)], f.WithinLimits) ∧
      (decodeInboundFrames ([.ack 1, .data 1 (List.replicate 600 0)].flatMap
          ServerFrame.encode)).map InboundFrame.content ≠
        [.ack 1, .data 1 (List.replicate 600 0)].map inbound := by
  have hlim : ∀ f ∈ [ServerFrame.ack 1, .data 1 (List.replicate 600 0)], f.WithinLimits := by
    intro f hf
    simp only [List.mem_cons, List.not_mem_nil, or_false] at hf
    rcases hf with rfl | rfl
    · trivial
    · rw [ServerFrame.WithinLimits, List.length_replicate]
      decide
  refine ⟨hlim, decodeLoop_of_swallowed _ hlim ?_ [] []⟩
  rintro ⟨hbody, -⟩
  apply hbody
  refine ⟨[0, 0, 1, 0, 0, 2, 88] ++ List.replicate 505 0, 0, [], List.replicate 91 0, ?_, ?_, ?_⟩
  · rw [List.length_append, List.length_replicate]
    decide
  · decide
  · decide +kernel

end Desktop

/-! ### The Android decoder -/

namespace Android

theorem decodeUtf8_flatMap (cs : List Char) :
    decodeUtf8 (cs.flatMap String.utf8EncodeChar) = cs := by
  induction cs with
  | nil => simp [decodeUtf8]
  | cons c cs ih =>
      have hdec : (String.utf8EncodeChar c ++
          cs.flatMap String.utf8EncodeChar).toByteArray.utf8DecodeChar? 0 = some c := by
        rw [List.toByteArray_append]
        exact ByteArray.utf8DecodeChar?_utf8EncodeChar_append
      have hlen := String.length_utf8EncodeChar c
      rw [List.flatMap_cons]
      cases henc : String.utf8EncodeChar c with
      | nil => exact absurd henc String.utf8EncodeChar_ne_nil
      | cons b bs =>
          rw [henc] at hdec hlen
          simp only [List.length_cons] at hlen
          rw [List.cons_append] at hdec ⊢
          rw [decodeUtf8, hdec]
          simp only [← hlen, Nat.add_sub_cancel, List.drop_left, ih]

/-- Decoding the UTF-8 bytes of a text gives the text. -/
theorem stringOf_toByteArray (text : String) : stringOf (toByteArray text) = text := by
  rw [stringOf, toByteArray, decodeUtf8_flatMap, String.ofList_toList]

theorem toInt_toInt32 {v : UInt32} (h : v.toNat < 2 ^ 31) : v.toInt32.toInt = v.toNat := by
  show v.toBitVec.toInt = _
  rw [BitVec.toInt_eq_toNat_of_lt]
  · rfl
  · show 2 * v.toNat < 2 ^ 32
    omega

/-- `short.toInt() and 0xFFFF` is the unsigned value of the field. -/
theorem toInt_short_and (v : UInt16) : (v.toInt16.toInt32 &&& 0xFFFF).toInt = v.toNat := by
  have hv := v.toNat_lt
  have hbits : (v.toBitVec.signExtend 32 &&& 65535#32).toNat = v.toNat := by
    rw [BitVec.toNat_and, BitVec.toNat_signExtend, show (65535#32).toNat = 2 ^ 16 - 1 from rfl,
      Nat.and_two_pow_sub_one_eq_mod]
    simp only [BitVec.toNat_setWidth, UInt16.toNat_toBitVec]
    split <;> omega
  show (v.toBitVec.signExtend 32 &&& 65535#32).toInt = _
  rw [BitVec.toInt_eq_toNat_of_lt]
  · rw [hbits]
  · rw [hbits]
    omega

/-- The text of an ERROR frame as the server puts it on the wire. -/
def serverFrame : ServerFrame String → ServerFrame Bytes
  | .ack streamId => .ack streamId
  | .data streamId payload => .data streamId payload
  | .close streamId => .close streamId
  | .error streamId text => .error streamId (toByteArray text)

/-- What the server encodes for a frame. -/
def encode (f : ServerFrame String) : Bytes :=
  (serverFrame f).encode

/-- The payload is a valid `ByteArray` and the text fits its length prefix. -/
def WithinLimits : ServerFrame String → Prop
  | .ack _ => True
  | .data _ payload => payload.length < 2 ^ 31
  | .close _ => True
  | .error _ text => (toByteArray text).length < 65536

/-- The frame the Android client should see for a server frame, with its raw bytes. -/
def inbound (f : ServerFrame String) : InboundFrame :=
  match f with
  | .ack streamId => { type := .opn, streamId := streamId.toInt32, rawFrame := encode f }
  | .data streamId payload =>
      { type := .data, streamId := streamId.toInt32, payload, rawFrame := encode f }
  | .close streamId => { type := .close, streamId := streamId.toInt32, rawFrame := encode f }
  | .error streamId text =>
      { type := .error, streamId := streamId.toInt32, errorMessage := some text,
        rawFrame := encode f }

/-- One turn of the loop on a server frame. -/
theorem decodeFrame_of_at {f : ServerFrame String} {b : Bytes} {offset : Nat}
    (hf : (serverFrame f).At b offset) (hlim : WithinLimits f) (h : offset + 5 ≤ b.length) :
    decodeFrame b offset h = some (inbound f, offset + (encode f).length) := by
  have hlen := hf.length_le
  have htype : ∀ h : offset < b.length, b[offset] = (serverFrame f).type.code := hf.type_eq
  have hid : ∀ h, readU32 b (offset + 1) h = (serverFrame f).streamId := hf.streamId_eq
  have hraw := hf.slice_encode (j := offset + (encode f).length) rfl
  rw [encode, ServerFrame.length_encode] at hraw ⊢
  unfold decodeFrame
  cases f with
  | ack streamId =>
      simp only [serverFrame, ServerFrame.body, List.length_nil] at hraw
      simp only [htype, hid, serverFrame, ServerFrame.type]
      rw [show FrameType.fromId MessageType.opn.code = .opn by decide]
      simp only [hraw]
      rfl
  | data streamId payload =>
      simp only [serverFrame, ServerFrame.body, length_dataBody] at hlen hraw ⊢
      have hsize : ∀ h, (readU32 b (offset + 5) h).toInt32.toInt = payload.length := by
        intro h
        have hval : (readU32 b (offset + 5) h).toNat = payload.length :=
          hf.payloadLen_eq (Nat.lt_trans hlim (by decide)) h
        rw [toInt_toInt32 (by rw [hval]; exact hlim), hval]
      have hneg : ∀ h, ¬ (readU32 b (offset + 5) h).toInt32 < 0 := by
        intro h
        rw [Int32.lt_iff_toInt_lt, hsize]
        simp
      simp only [htype, hid, serverFrame, ServerFrame.type]
      rw [show FrameType.fromId MessageType.data.code = .data by decide]
      simp only
      rw [dif_neg (by omega)]
      simp only [hsize, hneg, false_or, Int.toNat_natCast]
      rw [if_neg (by omega), hf.payload_eq rfl,
        show offset + 5 + 4 + payload.length = offset + (5 + (4 + payload.length)) by omega, hraw]
      rfl
  | close streamId =>
      simp only [serverFrame, ServerFrame.body, List.length_nil] at hraw
      simp only [htype, hid, serverFrame, ServerFrame.type]
      rw [show FrameType.fromId MessageType.close.code = .close by decide]
      simp only [hraw]
      rfl
  | error streamId text =>
      simp only [serverFrame, ServerFrame.body, length_errorBody] at hlen hraw ⊢
      simp only [htype, hid, serverFrame, ServerFrame.type]
      rw [show FrameType.fromId MessageType.error.code = .error by decide]
      simp only
      rw [dif_neg (by omega)]
      have hsize : ∀ h, (readU16 b (offset + 5) h).toNat = (toByteArray text).length :=
        hf.msgLen_eq hlim
      simp only [toInt_short_and, hsize, Int.toNat_natCast]
      rw [if_neg (by omega), hf.message_eq rfl, stringOf_toByteArray,
        show offset + 5 + 2 + (toByteArray text).length =
          offset + (5 + (2 + (toByteArray text).length)) by omega, hraw]
      rfl

/-- The loop yields the frames of a packet. -/
theorem decodeLoop_flatMap (fs : List (ServerFrame String)) (hlim : ∀ f ∈ fs, WithinLimits f)
    (pre : Bytes) (out : List InboundFrame) :
    decodeLoop (pre ++ fs.flatMap encode) pre.length out = out ++ fs.map inbound := by
  induction fs generalizing pre out with
  | nil =>
      rw [decodeLoop, dif_neg (by simp)]
      simp
  | cons f fs ih =>
      have hlen := (serverFrame f).length_encode
      rw [List.flatMap_cons, ← List.append_assoc]
      have h : pre.length + 5 ≤ (pre ++ encode f ++ fs.flatMap encode).length := by
        simp only [List.length_append, encode]
        omega
      have hd := decodeFrame_of_at ((serverFrame f).at_append pre (fs.flatMap encode))
        (hlim f List.mem_cons_self) h
      rw [decodeLoop, dif_pos h]
      split
      · rename_i heq
        cases hd.symm.trans heq
      · rename_i heq
        cases hd.symm.trans heq
        rw [← List.length_append, ih (fun g hg => hlim g (List.mem_cons_of_mem _ hg))]
        simp

/-- **The Android decoder returns the frames of a packet**, and their raw slices are
the packet. -/
theorem decodeInboundFrames_flatMap (fs : List (ServerFrame String))
    (hlim : ∀ f ∈ fs, WithinLimits f) :
    decodeInboundFrames (fs.flatMap encode) = fs.map inbound ∧
      ((decodeInboundFrames (fs.flatMap encode)).map InboundFrame.rawFrame).flatten =
        fs.flatMap encode := by
  have h := decodeLoop_flatMap fs hlim [] []
  simp only [List.nil_append, List.length_nil] at h
  rw [decodeInboundFrames, h, List.map_map]
  refine ⟨rfl, ?_⟩
  rw [List.flatMap_def]
  congr 1
  refine List.map_congr_left fun f _ => ?_
  cases f <;> rfl

/-- A packet with one frame of each kind. -/
theorem decodeInboundFrames_flatMap_each_kind :
    decodeInboundFrames
        ([.ack 3, .data 3 [104, 105], .error 3 "host is blocked", .close 0xFFFFFFFF].flatMap
          encode) =
      [.ack 3, .data 3 [104, 105], .error 3 "host is blocked", .close 0xFFFFFFFF].map inbound := by
  refine (decodeInboundFrames_flatMap _ ?_).1
  intro f hf
  simp only [List.mem_cons, List.not_mem_nil, or_false] at hf
  rcases hf with rfl | rfl | rfl | rfl
  · trivial
  · simp [WithinLimits]
  · simp only [WithinLimits]
    decide
  · trivial

end Android

end TonTunnel
