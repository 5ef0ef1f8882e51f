import TonTunnel.Client.SocksMoves
import TonTunnel.Egress.Threads
import TonTunnel.Lib.Segments
import TonTunnel.Protocol.Measure

/-!
What the senders put on the wire.

Three loops cut a byte sequence into DATA frames: `sendStreamData` of the desktop
client, its namesake in the Android client and the loop of the server's rx threads.
They keep their offsets in different ways and are all `handOver` on the same list
of frames (`sendLoop_eq`, `segmentLoop_handOver`, `chunkLoop_eq`). The threads of
the step models go through the same frames (`sendStreamDataStep_turn`,
`rxStep_turn`).

The desktop client's `openStream` narrows the lengths of host and token to sixteen
bits and appends the whole strings (`openStream_asks_iff`).
-/

namespace TonTunnel

open BigEndian Segments

/-! ### The DATA loops -/

namespace Client

/-- The loop of `sendStreamData` from `offset` on: the frames handed to `sendPacket`, in order, and
the returned code. `sendCode k` is what the `k`-th `sendPacket` of the call returns. -/
def sendLoop (sendCode : Nat → Int) (streamId : UInt32) (payload : Bytes) (offset k : Nat) :
    List Bytes × Int :=
  if _h : offset < payload.length then
    let len := min kDataSegmentSize (payload.length - offset)
    let chunk := slice payload offset (offset + len)
    let dataFrame := Desktop.encodeDataFrame streamId chunk
    if sendCode k ≠ 0 then ([dataFrame], -1)
    else
      let rest := sendLoop sendCode streamId payload (offset + len) (k + 1)
      (dataFrame :: rest.1, rest.2)
  else ([], 0)
termination_by payload.length - offset
decreasing_by
  simp only [kDataSegmentSize]
  omega

/-- `TonClientCore::sendStreamData`. -/
def sendStreamData (sendCode : Nat → Int) (streamId : UInt32) (payload : Bytes) : List Bytes × Int :=
  if payload.isEmpty then ([], 0) else sendLoop sendCode streamId payload 0 0

end Client

namespace Android

/-- `NativeTonTransport.sendStreamData`. -/
def sendStreamData (sendCode : Nat → Int32) (streamId : Int32) (payload : Bytes) :
    Option (List Bytes × Int32) :=
  if payload.isEmpty then some ([], 0)
  else sendStreamDataImmediateSegmented sendCode streamId payload

end Android

namespace Egress

/-- The `for` loop of the rx thread over what `recv` returned, from `offset` on: the frames handed to
`sendToClient`, in order, and `ok` behind the loop. `sendOk k` is what the `k`-th `sendToClient`
returns. The offset goes on by the whole segment size, also behind a shorter last segment. -/
def chunkLoop (sendOk : Nat → Bool) (streamId : UInt32) (buf : Bytes) (offset k : Nat) :
    List Bytes × Bool :=
  if _h : offset < buf.length then
    let len := min kMaxDataChunkBytes (buf.length - offset)
    let chunk := slice buf offset (offset + len)
    let out := encodeData { streamId := streamId, payload := chunk }
    if sendOk k then
      let rest := chunkLoop sendOk streamId buf (offset + kMaxDataChunkBytes) (k + 1)
      (out :: rest.1, rest.2)
    else ([out], false)
  else ([], true)
termination_by buf.length - offset
decreasing_by
  simp only [kMaxDataChunkBytes]
  omega

end Egress

/-- The DATA frames of a byte sequence. -/
def dataFrames (streamId : UInt32) (d : Bytes) : List Bytes :=
  (segments 1200 d).map (Desktop.encodeDataFrame streamId)

section Loops

variable {streamId : UInt32} {payload : Bytes} {offset k : Nat}

/-- The segment at an offset. -/
theorem slice_segment (payload : Bytes) (offset : Nat) :
    slice payload offset (offset + min 1200 (payload.length - offset)) = (payload.drop offset).take 1200 := by
  rw [slice_eq_take, ← List.length_drop, ← List.take_eq_take_min]

/-- The frames from an offset on. -/
theorem dataFrames_drop (low : offset < payload.length) :
    dataFrames streamId (payload.drop offset) =
      Desktop.encodeDataFrame streamId ((payload.drop offset).take 1200) ::
        dataFrames streamId (payload.drop (offset + 1200)) := by
  have some_ : payload.drop offset ≠ [] := by
    rw [ne_eq, List.drop_eq_nil_iff]
    omega
  rw [dataFrames, segments_cons (by decide) some_, List.map_cons, List.drop_drop]
  rfl

/-- Going on by the length of the segment or by the segment size is the same. -/
theorem drop_segment (payload : Bytes) (offset : Nat) :
    payload.drop (offset + min 1200 (payload.length - offset)) = payload.drop (offset + 1200) := by
  by_cases short : payload.length - offset ≤ 1200
  · rw [Nat.min_eq_right short, List.drop_eq_nil_of_le (by omega), List.drop_eq_nil_of_le (by omega)]
  · rw [Nat.min_eq_left (by omega)]

theorem dataFrames_end (high : ¬ offset < payload.length) :
    dataFrames streamId (payload.drop offset) = [] := by
  rw [dataFrames, List.drop_eq_nil_of_le (by omega), segments_nil, List.map_nil]

/-- The code that `sendStreamData` of the desktop client returns. -/
def desktopCode (ok : Bool) : Int := if ok then 0 else -1

/-- The code that `sendStreamData` of the Android client returns: that of the last send, if it
failed. -/
def androidCode (sendCode : Nat → Int32) (k : Nat) (sent : List Bytes × Bool) : Int32 :=
  if sent.2 then 0 else sendCode (k + (sent.1.length - 1))

theorem Client.sendLoop_eq (sendCode : Nat → Int) :
    Client.sendLoop sendCode streamId payload offset k =
      let sent := handOver (fun i => sendCode i = 0) k (dataFrames streamId (payload.drop offset))
      (sent.1, desktopCode sent.2) := by
  fun_induction Client.sendLoop sendCode streamId payload offset k with
  | case1 offset k low len chunk dataFrame refused =>
      have segment : chunk = (payload.drop offset).take 1200 := slice_segment payload offset
      rw [dataFrames_drop low, handOver, if_neg (by simpa using refused)]
      simp only [dataFrame, segment]
      rfl
  | case2 offset k low len chunk dataFrame accepted rest ih =>
      have segment : chunk = (payload.drop offset).take 1200 := slice_segment payload offset
      have further : payload.drop (offset + len) = payload.drop (offset + 1200) := drop_segment payload offset
      rw [further] at ih
      rw [dataFrames_drop low, handOver, if_pos (by simpa using accepted)]
      simp only [rest, ih, dataFrame, segment]
  | case3 offset k high =>
      rw [dataFrames_end high]
      rfl

theorem Egress.chunkLoop_eq (sendOk : Nat → Bool) :
    Egress.chunkLoop sendOk streamId payload offset k =
      handOver sendOk k (dataFrames streamId (payload.drop offset)) := by
  fun_induction Egress.chunkLoop sendOk streamId payload offset k with
  | case1 offset k low len chunk out accepted rest ih =>
      have segment : chunk = (payload.drop offset).take 1200 := slice_segment payload offset
      rw [dataFrames_drop low, handOver, if_pos accepted]
      simp only [rest, ih, out, segment]
      rfl
  | case2 offset k low len chunk out refused =>
      have segment : chunk = (payload.drop offset).take 1200 := slice_segment payload offset
      rw [dataFrames_drop low, handOver, if_neg refused]
      simp only [out, segment]
      rfl
  | case3 offset k high =>
      rw [dataFrames_end high]
      rfl

theorem Android.segmentLoop_handOver (sendCode : Nat → Int32) (streamId : Int32) :
    Android.segmentLoop sendCode streamId payload offset k =
      let sent := handOver (fun i => sendCode i = 0) k (dataFrames streamId.toUInt32 (payload.drop offset))
      some (sent.1, androidCode sendCode k sent) := by
  fun_induction Android.segmentLoop sendCode streamId payload offset k with
  | case1 offset k low len failed =>
      rw [dataFrame_eq streamId (by omega)] at failed
      cases failed
  | case2 offset k low len frame built refused =>
      rw [dataFrame_eq streamId (by omega)] at built
      cases built
      have segment : slice payload offset (offset + len) = (payload.drop offset).take 1200 :=
        slice_segment payload offset
      rw [dataFrames_drop low, handOver, if_neg (by simpa using refused), segment]
      rfl
  | case3 offset k low len frame built accepted ih =>
      rw [dataFrame_eq streamId (by omega)] at built
      cases built
      have segment : slice payload offset (offset + len) = (payload.drop offset).take 1200 :=
        slice_segment payload offset
      have further : payload.drop (offset + len) = payload.drop (offset + 1200) := drop_segment payload offset
      rw [further] at ih
      rw [dataFrames_drop low, handOver, if_pos (by simpa using accepted), ih, segment, Option.map_some]
      -- the send that failed has the same number, counted from here or from the next one
      have code : androidCode sendCode (k + 1) (handOver (fun i => sendCode i = 0) (k + 1)
          (dataFrames streamId.toUInt32 (payload.drop (offset + 1200)))) = androidCode sendCode k
            ((Desktop.encodeDataFrame streamId.toUInt32 ((payload.drop offset).take 1200) ::
              (handOver (fun i => sendCode i = 0) (k + 1)
                (dataFrames streamId.toUInt32 (payload.drop (offset + 1200)))).1),
              (handOver (fun i => sendCode i = 0) (k + 1)
                (dataFrames streamId.toUInt32 (payload.drop (offset + 1200)))).2) := by
        unfold androidCode
        split
        · rfl
        · next refused =>
            have some_ := length_pos_of_refused (Bool.eq_false_iff.mpr refused)
            rw [List.length_cons]
            congr 1
            omega
      rw [code]
  | case4 offset k high =>
      rw [dataFrames_end high]
      rfl

end Loops

/-! ### The threads of the step models -/

/-- A turn of the desktop client's loop, as its uplink threads take it: what is left behind `offset`
is cut at the same place. -/
theorem sendStreamDataStep_turn {c : Client.Core} {id : UInt32} {payload : Bytes} {offset : Nat}
    (low : offset < payload.length) (code : Int) :
    Client.sendStreamDataStep id (payload.drop offset) c (.sendRet code) =
      some (if code = 0 then
            .inl (payload.drop (offset + min Client.kDataSegmentSize (payload.length - offset)))
          else .inr (some (-1)),
        c.sendPacket (Desktop.encodeDataFrame id
          (slice payload offset (offset + min Client.kDataSegmentSize (payload.length - offset)))) code) := by
  have some_ : payload.drop offset ≠ [] := by
    rw [ne_eq, List.drop_eq_nil_iff]
    omega
  have segment : slice payload offset (offset + min Client.kDataSegmentSize (payload.length - offset)) =
    (payload.drop offset).take Client.kDataSegmentSize := slice_segment payload offset
  have further : payload.drop (offset + min Client.kDataSegmentSize (payload.length - offset)) =
      (payload.drop offset).drop Client.kDataSegmentSize := by
    rw [List.drop_drop]
    exact drop_segment payload offset
  rw [segment, further, Client.sendStreamDataStep, if_neg some_]
  split <;> rfl

/-- A turn of the server's loop, as its rx threads take it. -/
theorem rxStep_turn {n : Egress.Node} {r : Egress.Ref} {buf : Bytes} {offset : Nat}
    (low : offset < buf.length) (ok : Bool) :
    ∃ call, Egress.rxStep r (.push (buf.drop offset)) n (.sent ok) =
      some (if ok then { pc := .push (buf.drop (offset + Egress.kMaxDataChunkBytes)) }
          else { pc := .push (buf.drop offset), call := call },
        n.sendToClient (.rx r) (n.heap r).clientId (encodeData
          { streamId := (n.heap r).streamId
            payload := slice buf offset (offset + min Egress.kMaxDataChunkBytes (buf.length - offset)) }) ok) := by
  have segment : slice buf offset (offset + min Egress.kMaxDataChunkBytes (buf.length - offset)) =
    (buf.drop offset).take Egress.kMaxDataChunkBytes := slice_segment buf offset
  refine ⟨Egress.rxClose n r .pushFailed, ?_⟩
  rw [segment, ← List.drop_drop]
  cases rest : buf.drop offset with
  | nil =>
      rw [List.drop_eq_nil_iff] at rest
      omega
  | cons b rest =>
      cases ok with
      | true | false => rfl

/-! ### Segmentation -/

section Senders

variable {streamId : UInt32} {d : Bytes}

theorem Client.sendStreamData_eq (sendCode : Nat → Int) :
    Client.sendStreamData sendCode streamId d =
      let sent := handOver (fun i => sendCode i = 0) 0 (dataFrames streamId d)
      (sent.1, desktopCode sent.2) := by
  cases d with
  | nil => simp [Client.sendStreamData, dataFrames, handOver, desktopCode]
  | cons b d => exact Client.sendLoop_eq sendCode

theorem Android.sendStreamData_eq (sendCode : Nat → Int32) :
    Android.sendStreamData sendCode streamId.toInt32 d =
      let sent := handOver (fun i => sendCode i = 0) 0 (dataFrames streamId d)
      some (sent.1, androidCode sendCode 0 sent) := by
  cases d with
  | nil => simp [Android.sendStreamData, dataFrames, handOver, androidCode]
  | cons b d =>
      have loop : Android.segmentLoop sendCode streamId.toInt32 (b :: d) 0 0 = _ :=
        Android.segmentLoop_handOver sendCode streamId.toInt32
      exact loop

end Senders

/-- **The three senders cut a byte sequence alike and lose nothing.** The segments of `d` have between
one and 1200 bytes, all but the last exactly 1200, together they are `d`, and the frame of a segment
is decoded to DATA of the stream with that segment. If no send fails, each sender hands over the
frames of the segments, one by one and in order, and reports success; if the send number `j` is the
first to fail, each hands over the frames up to that one and none behind it, accepted are the `j`
frames before it, and the caller is told. -/
theorem senders_segment_alike (streamId : UInt32) (d : Bytes) :
    (segments 1200 d).flatten = d ∧
    (∀ c ∈ segments 1200 d, 1 ≤ c.length ∧ c.length ≤ 1200 ∧
      decodeMessage (Desktop.encodeDataFrame streamId c) = some (.data ⟨streamId, c⟩)) ∧
    (∀ c ∈ (segments 1200 d).dropLast, c.length = 1200) ∧
    (d = [] → dataFrames streamId d = []) ∧
    (∀ (code₁ : Nat → Int) (code₂ : Nat → Int32) (ok₃ : Nat → Bool),
      (∀ i < (dataFrames streamId d).length, code₁ i = 0 ∧ code₂ i = 0 ∧ ok₃ i = true) →
        Client.sendStreamData code₁ streamId d = (dataFrames streamId d, 0) ∧
        Android.sendStreamData code₂ streamId.toInt32 d = some (dataFrames streamId d, 0) ∧
        Egress.chunkLoop ok₃ streamId d 0 0 = (dataFrames streamId d, true)) ∧
    ∀ (code₁ : Nat → Int) (code₂ : Nat → Int32) (ok₃ : Nat → Bool) (j : Nat),
      j < (dataFrames streamId d).length →
      (∀ i < j, code₁ i = 0 ∧ code₂ i = 0 ∧ ok₃ i = true) →
      code₁ j ≠ 0 → code₂ j ≠ 0 → ok₃ j = false →
        Client.sendStreamData code₁ streamId d = ((dataFrames streamId d).take (j + 1), -1) ∧
        Android.sendStreamData code₂ streamId.toInt32 d =
          some ((dataFrames streamId d).take (j + 1), code₂ j) ∧
        Egress.chunkLoop ok₃ streamId d 0 0 = ((dataFrames streamId d).take (j + 1), false) ∧
        accepted (fun i => code₁ i = 0) 0 ((dataFrames streamId d).take (j + 1)) =
          (dataFrames streamId d).take j ∧
        accepted (fun i => code₂ i = 0) 0 ((dataFrames streamId d).take (j + 1)) =
          (dataFrames streamId d).take j ∧
        accepted ok₃ 0 ((dataFrames streamId d).take (j + 1)) = (dataFrames streamId d).take j := by
  refine ⟨flatten_segments (by decide), ?_, fun c mem => length_of_mem_dropLast mem, ?_, ?_, ?_⟩
  · intro c mem
    obtain ⟨low, high⟩ := length_of_mem_segments mem
    have within : (DecodedMessage.data ⟨streamId, c⟩).WithinLimits := by
      change c.length < 2 ^ 32
      omega
    exact ⟨low, high, decodeMessage_of_messageAt within
      (by simpa [encodeClient] using messageAt_append [] [] (.data ⟨streamId, c⟩))⟩
  · rintro rfl
    rw [dataFrames, segments_nil, List.map_nil]
  · intro code₁ code₂ ok₃ fine
    rw [Client.sendStreamData_eq, Android.sendStreamData_eq, Egress.chunkLoop_eq, List.drop_zero]
    have first : handOver (fun i => decide (code₁ i = 0)) 0 (dataFrames streamId d) =
        (dataFrames streamId d, true) := handOver_all fun i low => by simpa using (fine i low).1
    have second : handOver (fun i => decide (code₂ i = 0)) 0 (dataFrames streamId d) =
        (dataFrames streamId d, true) := handOver_all fun i low => by simpa using (fine i low).2.1
    have third : handOver ok₃ 0 (dataFrames streamId d) =
        (dataFrames streamId d, true) := handOver_all fun i low => by simpa using (fine i low).2.2
    rw [first, second, third]
    exact ⟨rfl, rfl, rfl⟩
  · intro code₁ code₂ ok₃ j low fine refused₁ refused₂ refused₃
    -- each of the three refuses number `j` first
    have stops (ok : Nat → Bool) (fine : ∀ i < j, ok i = true) (refused : ok j = false) :
        handOver ok 0 (dataFrames streamId d) = ((dataFrames streamId d).take (j + 1), false) ∧
          accepted ok 0 ((dataFrames streamId d).take (j + 1)) = (dataFrames streamId d).take j :=
      handOver_refused low (fun i before => by rw [Nat.zero_add]; exact fine i before)
        (by rw [Nat.zero_add]; exact refused)
    obtain ⟨first, took₁⟩ := stops (fun i => decide (code₁ i = 0))
      (fun i before => by simpa using (fine i before).1) (by simpa using refused₁)
    obtain ⟨second, took₂⟩ := stops (fun i => decide (code₂ i = 0))
      (fun i before => by simpa using (fine i before).2.1) (by simpa using refused₂)
    obtain ⟨third, took₃⟩ := stops ok₃ (fun i before => (fine i before).2.2) refused₃
    rw [Client.sendStreamData_eq, Android.sendStreamData_eq, Egress.chunkLoop_eq, List.drop_zero,
      first, second, third]
    refine ⟨rfl, ?_, rfl, took₁, took₂, took₃⟩
    have count : ((dataFrames streamId d).take (j + 1)).length = j + 1 := by
      rw [List.length_take]
      omega
    simp only [androidCode, count, Nat.zero_add, Nat.add_sub_cancel, Bool.false_eq_true, if_false]

/-! ### The OPEN of the desktop client -/

namespace Client

/-- Whatever a step of `openStream` sends, the server reads it as the one OPEN that was asked for. -/
def Asks (id : UInt32) (host : Bytes) (port : UInt16) (token : Bytes) : Prop :=
  ∀ caller c pc a out c', openStep caller id host port token c pc a = some (out, c') →
    c'.sent = c.sent ∨ ∃ packet, c'.sent = c.sent ++ [packet] ∧
      parseLoop packet 0 = ([.opn ⟨id, host, port, token⟩], .exhausted)

theorem asks_of_within {id : UInt32} {host token : Bytes} {port : UInt16} (hostFits : host.length < 65536)
    (tokenFits : token.length < 65536) : Asks id host port token := by
  intro caller c pc a out c' step
  rcases Socks.openMove_sent (openStep_move step) with same | one
  · exact .inl same
  · refine .inr ⟨_, one, ?_⟩
    have parsed := parseLoop_flatMap [.opn ⟨id, host, port, token⟩]
      (by simpa [DecodedMessage.WithinLimits] using ⟨hostFits, tokenFits⟩)
    simpa [encodeClient] using parsed

/-- What the server reads as one OPEN has fields that fit. -/
theorem within_of_asks {id : UInt32} {host token : Bytes} {port : UInt16} (asks : Asks id host port token) :
    host.length < 65536 ∧ token.length < 65536 := by
  rcases asks 0 {} .sendOpen (.sendRet 0) _ _ rfl with same | ⟨packet, -, parsed⟩
  · cases same
  · have read := parseLoop_sound (Nat.zero_le packet.length) (by rw [parsed])
    rw [parsed] at read
    exact read.1 _ List.mem_cons_self

/-- **`openStream` asks for what it was asked for exactly if host and token fit their length fields.** -/
theorem openStream_asks_iff (id : UInt32) (host : Bytes) (port : UInt16) (token : Bytes) :
    Asks id host port token ↔ host.length < 65536 ∧ token.length < 65536 :=
  ⟨within_of_asks, fun fits => asks_of_within fits.1 fits.2⟩

/-- A token of 65536 bytes goes out under the length 0, and the server takes its bytes for frames. -/
theorem long_token_is_not_asked : ¬ Asks 7 (ascii "h") 80 (List.replicate 65536 97) := by
  intro asks
  have fits := (within_of_asks asks).2
  rw [List.length_replicate] at fits
  omega

end Client

end TonTunnel
