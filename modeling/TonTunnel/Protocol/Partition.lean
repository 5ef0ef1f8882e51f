import TonTunnel.Protocol.Unknown
import TonTunnel.Lib.Buffer

/-!
The desktop decoder cuts its input into frames and leaves out no byte.

`decodeInboundFrames` reads the packet at indices that it has compared with the size. Here
the same loop reads through `Buffer`, where an access outside the packet is a fault: it
never faults and decodes the same (`decodeInboundFramesChecked_eq`). What a turn yields is
the slice between two cursors (`decodeFrame_cases`, `decodeFrame_whole`), so the slices of
a decoded packet stand side by side, up to fewer than five bytes at its end
(`packet_partitioned`). An OPEN frame may rewind, but only to behind its own header.
-/

namespace TonTunnel.Desktop

open TonTunnel BigEndian Buffer

/-! ### Checked reads -/

/-- `openBodyEnd`, with its reads checked. -/
def openBodyEndChecked (bytes : Bytes) (cursor : Nat) : Except Fault (Option Nat) :=
  if cursor + 2 ≤ bytes.length then do
    let hostLen := (← get16 bytes cursor).toNat
    if cursor + 2 + hostLen + 2 + 2 ≤ bytes.length then
      let tokenLen := (← get16 bytes (cursor + 2 + hostLen + 2)).toNat
      let tokenStart := cursor + 2 + hostLen + 2 + 2
      return if tokenStart + tokenLen ≤ bytes.length then some (tokenStart + tokenLen) else none
    else
      return none
  else
    return none

/-- `f.rawFrame.assign(..)`, at the end of a turn. -/
def finishChecked (bytes : Bytes) (frameStart : Nat) (f : InboundFrame) (cursor : Nat) :
    Except Fault (Option (InboundFrame × Nat)) := do
  let rawFrame ← getSlice bytes frameStart (cursor - frameStart)
  return some ({ f with rawFrame }, cursor)

/-- `decodeFrame`, with its reads checked. -/
def decodeFrameChecked (bytes : Bytes) (frameStart : Nat) :
    Except Fault (Option (InboundFrame × Nat)) := do
  let type ← get bytes frameStart
  let streamId ← get32 bytes (frameStart + 1)
  let cursor := frameStart + 5
  if type = FrameType.opn.code then
    let stop ← openBodyEndChecked bytes cursor
    finishChecked bytes frameStart { type := .opn, streamId } (stop.getD cursor)
  else if type = FrameType.close.code then
    finishChecked bytes frameStart { type := .close, streamId } cursor
  else if type = FrameType.data.code then
    if cursor + 4 > bytes.length then
      return none
    else
      let payloadLen := (← get32 bytes cursor).toNat
      let cursor := cursor + 4
      if cursor + payloadLen > bytes.length then
        return none
      else
        let payload ← getSlice bytes cursor payloadLen
        finishChecked bytes frameStart { type := .data, streamId, payload } (cursor + payloadLen)
  else if type = FrameType.error.code then
    if cursor + 2 > bytes.length then
      return none
    else
      let msgLen := (← get16 bytes cursor).toNat
      let cursor := cursor + 2
      if cursor + msgLen > bytes.length then
        return none
      else
        let errorMessage ← getSlice bytes cursor msgLen
        finishChecked bytes frameStart { type := .error, streamId, errorMessage } (cursor + msgLen)
  else
    return none

section Checked

variable {b : Bytes} {i cursor frameStart : Nat}

theorem openBodyEndChecked_eq : openBodyEndChecked b cursor = .ok (openBodyEnd b cursor) := by
  unfold openBodyEndChecked openBodyEnd
  split
  · next inside =>
      rw [get16_of_le inside, ok_bind]
      dsimp only
      split
      · next body =>
          rw [get16_of_le (by omega), ok_bind]
          rfl
      · rfl
  · rfl

theorem finishChecked_eq {f : InboundFrame} (start : frameStart ≤ cursor)
    (inside : cursor ≤ b.length) : finishChecked b frameStart f cursor =
      .ok (some ({ f with rawFrame := slice b frameStart cursor }, cursor)) := by
  rw [finishChecked, getSlice_of_le (by omega)]
  rfl

/-- No read of a turn is outside the packet. -/
theorem decodeFrameChecked_eq (h : frameStart + 5 ≤ b.length) :
    decodeFrameChecked b frameStart = .ok (decodeFrame b frameStart h) := by
  unfold decodeFrameChecked decodeFrame
  rw [get_of_lt (by omega : frameStart < b.length), ok_bind,
    get32_of_le (by omega : frameStart + 1 + 4 ≤ b.length), ok_bind,
    getElem!_pos b frameStart (by omega)]
  dsimp only
  split
  · rw [openBodyEndChecked_eq, ok_bind]
    cases body : openBodyEnd b (frameStart + 5) with
    | none => exact finishChecked_eq (Nat.le_add_right _ _) h
    | some stop =>
        have := openBodyEnd_ge body
        exact finishChecked_eq (by rw [Option.getD_some]; omega) this.2
  · split
    · exact finishChecked_eq (by omega) h
    · split
      · split
        · rfl
        · next header =>
            rw [get32_of_le (by omega), ok_bind]
            split
            · rfl
            · next body =>
                rw [getSlice_eq (by omega), ok_bind]
                exact finishChecked_eq (by omega) (by omega)
      · split
        · split
          · rfl
          · next header =>
              rw [get16_of_le (by omega), ok_bind]
              split
              · rfl
              · next body =>
                  rw [getSlice_eq (by omega), ok_bind]
                  exact finishChecked_eq (by omega) (by omega)
        · rfl

end Checked

/-- The loop of `decodeInboundFrames`, with its reads checked. -/
def decodeLoopChecked (bytes : Bytes) (cursor : Nat) (out : List InboundFrame) :
    Except Fault (List InboundFrame) :=
  if _h : cursor + 5 ≤ bytes.length then
    match _hd : decodeFrameChecked bytes cursor with
    | .error fault => .error fault
    | .ok none => .ok []
    | .ok (some (f, next)) => decodeLoopChecked bytes next (out ++ [f])
  else .ok out
termination_by bytes.length - cursor
decreasing_by
  rw [decodeFrameChecked_eq _h] at _hd
  have := decodeFrame_cursor (Except.ok.inj _hd)
  omega

/-- `decodeInboundFrames`, with its reads checked. -/
def decodeInboundFramesChecked (bytes : Bytes) : Except Fault (List InboundFrame) :=
  decodeLoopChecked bytes 0 []

theorem decodeLoopChecked_eq (b : Bytes) (cursor : Nat) (out : List InboundFrame) :
    decodeLoopChecked b cursor out = .ok (decodeLoop b cursor out) := by
  fun_induction decodeLoop b cursor out with
  | case1 cursor out h hd =>
      rw [decodeLoopChecked, dif_pos h]
      split <;> rename_i read <;> rw [decodeFrameChecked_eq h, hd] at read <;> cases read
  | case2 cursor out h f next hd ih =>
      rw [decodeLoopChecked, dif_pos h]
      split <;> rename_i read <;> rw [decodeFrameChecked_eq h, hd] at read <;> cases read
      exact ih
  | case3 cursor out h => rw [decodeLoopChecked, dif_neg h]

/-! ### Frames -/

section Frames

variable {b : Bytes} {cursor next : Nat} {f : InboundFrame}

/-- What a turn can yield. -/
theorem decodeFrame_cases {h : cursor + 5 ≤ b.length}
    (hd : decodeFrame b cursor h = some (f, next)) :
    getElem b cursor (type_inside h) = f.type.code ∧
      f.streamId = readU32 b (cursor + 1) (by omega) ∧
      f.rawFrame = slice b cursor next ∧
      (f.type = .opn ∨ f.type = .close ∧ next = cursor + 5 ∨
        (f.type = .data ∧ ∃ h4 : cursor + 5 + 4 ≤ b.length,
          next = cursor + 9 + (readU32 b (cursor + 5) h4).toNat ∧
          f.payload = slice b (cursor + 9) next) ∨
        f.type = .error ∧ ∃ h2 : cursor + 5 + 2 ≤ b.length,
          next = cursor + 7 + (readU16 b (cursor + 5) h2).toNat ∧
          f.errorMessage = slice b (cursor + 7) next) := by
  unfold decodeFrame at hd
  simp only at hd
  split at hd
  · next type =>
      cases hd
      exact ⟨type, rfl, rfl, Or.inl rfl⟩
  · split at hd
    · next type =>
        cases hd
        exact ⟨type, rfl, rfl, Or.inr (Or.inl ⟨rfl, rfl⟩)⟩
    · split at hd
      · next type =>
          split at hd
          · cases hd
          · next header =>
              split at hd
              · cases hd
              · cases hd
                exact ⟨type, rfl, rfl, Or.inr (Or.inr (Or.inl ⟨rfl, by omega, rfl, rfl⟩))⟩
      · split at hd
        · next type =>
            split at hd
            · cases hd
            · next header =>
                split at hd
                · cases hd
                · cases hd
                  exact ⟨type, rfl, rfl, Or.inr (Or.inr (Or.inr ⟨rfl, by omega, rfl, rfl⟩))⟩
        · cases hd

/-- The frame is what its bytes say: type and stream id, and behind them a payload or a
message of the declared length. -/
structure Whole (f : InboundFrame) : Prop where
  typed : 1 ≤ f.type.code ∧ f.type.code ≤ 4
  header : ∃ body, f.rawFrame = f.type.code :: writeU32 f.streamId ++ body
  data : f.type = .data → f.payload = f.rawFrame.drop 9 ∧
    ∃ declared : UInt32, slice f.rawFrame 5 9 = writeU32 declared ∧
      f.payload.length = declared.toNat
  error : f.type = .error → f.errorMessage = f.rawFrame.drop 7 ∧
    ∃ declared : UInt16, slice f.rawFrame 5 7 = writeU16 declared ∧
      f.errorMessage.length = declared.toNat
  close : f.type = .close → f.rawFrame.length = 5

/-- A slice of a slice. -/
theorem slice_slice {i j k : Nat} (h : cursor + k ≤ j) :
    slice (slice b cursor j) i k = slice b (cursor + i) (cursor + k) := by
  simp only [slice, List.drop_take, List.drop_drop, List.take_take]
  congr 1
  omega

theorem decodeFrame_whole {h : cursor + 5 ≤ b.length}
    (hd : decodeFrame b cursor h = some (f, next)) : Whole f := by
  obtain ⟨type, streamId, raw, body⟩ := decodeFrame_cases hd
  obtain ⟨behind, inside⟩ := decodeFrame_cursor hd
  have length_raw : f.rawFrame.length = next - cursor := by
    rw [raw, length_slice (by omega) inside]
  have drop_raw {k : Nat} : f.rawFrame.drop k = slice b (cursor + k) next := by
    rw [raw, slice, slice, List.drop_take, List.drop_drop]
    congr 1
    omega
  have declared32 (h4 : cursor + 5 + 4 ≤ b.length) (fits : cursor + 9 ≤ next) :
      slice f.rawFrame 5 9 = writeU32 (readU32 b (cursor + 5) h4) := by
    rw [raw, slice_slice fits, slice, drop_eq_writeU32 h4, Nat.add_sub_add_left]
    rfl
  have declared16 (h2 : cursor + 5 + 2 ≤ b.length) (fits : cursor + 7 ≤ next) :
      slice f.rawFrame 5 7 = writeU16 (readU16 b (cursor + 5) h2) := by
    rw [raw, slice_slice fits, slice, drop_eq_writeU16 h2, Nat.add_sub_add_left]
    rfl
  have header : f.rawFrame = f.type.code :: writeU32 f.streamId ++ slice b (cursor + 5) next := by
    have rest : next - cursor = next - (cursor + 5) + 5 := by omega
    rw [raw, slice, List.drop_eq_getElem_cons (by omega),
      drop_eq_writeU32 (by omega : cursor + 1 + 4 ≤ b.length), type, ← streamId, rest]
    rfl
  rcases body with opn | ⟨close, stop⟩ | ⟨data, h4, stop, payload⟩ | ⟨error, h2, stop, message⟩
  · exact
      { typed := by rw [opn]; decide
        header := ⟨_, header⟩
        data := fun is => by cases opn.symm.trans is
        error := fun is => by cases opn.symm.trans is
        close := fun is => by cases opn.symm.trans is }
  · have length : f.rawFrame.length = 5 := by omega
    exact
      { typed := by rw [close]; decide
        header := ⟨_, header⟩
        data := fun is => by cases close.symm.trans is
        error := fun is => by cases close.symm.trans is
        close := fun _ => length }
  · have length : f.payload.length = (readU32 b (cursor + 5) h4).toNat := by
      rw [payload, length_slice (by omega) inside]
      omega
    exact
      { typed := by rw [data]; decide
        header := ⟨_, header⟩
        data := fun _ => ⟨payload.trans drop_raw.symm, _, declared32 h4 (by omega), length⟩
        error := fun is => by cases data.symm.trans is
        close := fun is => by cases data.symm.trans is }
  · have length : f.errorMessage.length = (readU16 b (cursor + 5) h2).toNat := by
      rw [message, length_slice (by omega) inside]
      omega
    exact
      { typed := by rw [error]; decide
        header := ⟨_, header⟩
        data := fun is => by cases error.symm.trans is
        error := fun _ => ⟨message.trans drop_raw.symm, _, declared16 h2 (by omega), length⟩
        close := fun is => by cases error.symm.trans is }

end Frames

/-! ### Packets -/

section Packets

variable {b : Bytes} {i j cursor : Nat} {fs : List InboundFrame}

theorem cutFrame_eq {f : InboundFrame} (cut : cutFrame b i = some (f, j)) :
    ∃ h : i + 5 ≤ b.length, decodeFrame b i h = some (f, j) := by
  unfold cutFrame at cut
  split at cut
  · next inside => exact ⟨inside, cut⟩
  · cases cut

/-- The slices of the frames stand side by side. -/
theorem rawFrames_of_cuts (cuts : Cuts (cutFrame b) i fs j) :
    (fs.map InboundFrame.rawFrame).flatten ++ b.drop j = b.drop i := by
  induction cuts with
  | nil => rfl
  | @cons i k j f fs cut tail ih =>
      obtain ⟨h, hd⟩ := cutFrame_eq cut
      obtain ⟨-, -, raw, -⟩ := decodeFrame_cases hd
      have forward := (decodeFrame_cursor hd).1
      rw [List.map_cons, List.flatten_cons, List.append_assoc, ih, raw,
        ← drop_eq_slice (by omega)]

theorem whole_of_cuts (cuts : Cuts (cutFrame b) i fs j) : ∀ f ∈ fs, Whole f := by
  induction cuts with
  | nil =>
      intro f mem
      cases mem
  | cons cut tail ih =>
      intro f mem
      rcases List.mem_cons.mp mem with rfl | mem
      · obtain ⟨h, hd⟩ := cutFrame_eq cut
        exact decodeFrame_whole hd
      · exact ih f mem

/-- The loop gives up with nothing, or it cuts off frames until no header is left. -/
theorem decodeLoop_cuts (b : Bytes) (cursor : Nat) (out : List InboundFrame) :
    decodeLoop b cursor out = [] ∨
      ∃ fs stop, Cuts (cutFrame b) cursor fs stop ∧ decodeLoop b cursor out = out ++ fs ∧
        b.length < stop + 5 := by
  fun_induction decodeLoop b cursor out with
  | case1 cursor out h hd => exact Or.inl rfl
  | case2 cursor out h f next hd ih =>
      rcases ih with nothing | ⟨fs, stop, cuts, decoded, short⟩
      · exact Or.inl nothing
      · refine Or.inr ⟨f :: fs, stop, .cons ?_ cuts, ?_, short⟩
        · rw [cutFrame, dif_pos h, hd]
        · rw [decoded, List.append_assoc, List.singleton_append]
  | case3 cursor out h => exact Or.inr ⟨[], cursor, .nil, (List.append_nil _).symm, by omega⟩

/-- A DATA or ERROR frame whose header is in the packet and whose body is not. -/
def TruncatedAt (b : Bytes) (i : Nat) : Prop :=
  ∃ h : i + 5 ≤ b.length,
    getElem b i (type_inside h) = FrameType.data.code ∧ (∀ h4 : i + 5 + 4 ≤ b.length,
      b.length < i + 9 + (readU32 b (i + 5) h4).toNat) ∨
    getElem b i (type_inside h) = FrameType.error.code ∧ ∀ h2 : i + 5 + 2 ≤ b.length,
      b.length < i + 7 + (readU16 b (i + 5) h2).toNat

theorem decodeLoop_truncated (truncated : TruncatedAt b i) (out : List InboundFrame) :
    decodeLoop b i out = [] := by
  obtain ⟨h, short⟩ := truncated
  rw [decodeLoop, dif_pos h]
  split
  · rfl
  · next f next hd =>
      obtain ⟨type, -, -, body⟩ := decodeFrame_cases hd
      have inside := (decodeFrame_cursor hd).2
      rw [type] at short
      rcases body with opn | ⟨close, -⟩ | ⟨data, h4, stop, -⟩ | ⟨error, h2, stop, -⟩
      · rw [opn] at short
        rcases short with ⟨other, -⟩ | ⟨other, -⟩ <;> cases other
      · rw [close] at short
        rcases short with ⟨other, -⟩ | ⟨other, -⟩ <;> cases other
      · rw [data] at short
        rcases short with ⟨-, short⟩ | ⟨other, -⟩
        · have := short h4
          omega
        · cases other
      · rw [error] at short
        rcases short with ⟨other, -⟩ | ⟨-, short⟩
        · cases other
        · have := short h2
          omega

end Packets

/-- **Decoding partitions the packet.** No read is outside the packet. A decoded packet is
its raw frames side by side and fewer than five bytes behind them, and each frame is what
its bytes say. A packet is not decoded if a DATA or ERROR frame that the decoder comes to
is truncated. -/
theorem packet_partitioned (b : Bytes) :
    decodeInboundFramesChecked b = .ok (decodeInboundFrames b) ∧
    (decodeInboundFrames b ≠ [] → ∃ rest, rest.length < 5 ∧
      ((decodeInboundFrames b).map InboundFrame.rawFrame).flatten ++ rest = b ∧
      ∀ f ∈ decodeInboundFrames b, Whole f) ∧
    ∀ fs cursor, Cuts (cutFrame b) 0 fs cursor → TruncatedAt b cursor →
      decodeInboundFrames b = [] := by
  refine ⟨decodeLoopChecked_eq b 0 [], ?_, ?_⟩
  · intro decoded
    rcases decodeLoop_cuts b 0 [] with nothing | ⟨fs, stop, cuts, frames, short⟩
    · exact absurd nothing decoded
    · rw [List.nil_append] at frames
      rw [decodeInboundFrames, frames]
      refine ⟨b.drop stop, ?_, rawFrames_of_cuts cuts, whole_of_cuts cuts⟩
      rw [List.length_drop]
      omega
  · intro fs cursor cuts truncated
    rw [decodeInboundFrames, decodeLoop_of_cuts cuts, decodeLoop_truncated truncated]

end TonTunnel.Desktop
