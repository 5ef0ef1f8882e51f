import TonTunnel.Lib.Buffer
import TonTunnel.Protocol.Uplink

/-!
Frames delimit themselves.

`tryGetFrameLength` and `decodeMessage` walk the same fields with different cursors.
`tryGetFrameLength_eq` says that they accept the same bytes: the measure of what stands
at an offset is the encoded length of what is decoded there. So bytes behind a frame
have no part in how it is measured or decoded, and the loop of `onAdnlMessage` on a
payload `p ++ q`, where it consumes `p`, does on `p` what it does on `p` alone and
then what it does on `q` (`parseLoop_append`).

Both functions read at indices that they have compared with the size. Here they also read
through `Buffer`, where an access outside the buffer is a fault, and never fault
(`tryGetFrameLengthChecked_eq`, `decodeMessageChecked_eq`).
-/

namespace TonTunnel

open BigEndian Buffer

/-! ### Checked reads -/

/-- `tryGetFrameLength`, with its reads checked. -/
def tryGetFrameLengthChecked (input : Bytes) (offset : Nat) : Except Fault (Option Nat) :=
  if offset + 5 > input.length then
    return none
  else do
    let type ← get input offset
    if type = MessageType.opn.code then
      if offset + 5 + 2 > input.length then
        return none
      else
        let hostLen := (← get16 input (offset + 5)).toNat
        if offset + 5 + 2 + hostLen + 2 + 2 > input.length then
          return none
        else
          let tokenLen := (← get16 input (offset + 5 + 2 + hostLen + 2)).toNat
          let cursor := offset + 5 + 2 + hostLen + 2 + 2
          return if cursor + tokenLen > input.length then none else some (cursor + tokenLen - offset)
    else if type = MessageType.data.code then
      if offset + 5 + 4 > input.length then
        return none
      else
        let payloadLen := (← get32 input (offset + 5)).toNat
        let cursor := offset + 5 + 4
        return if cursor + payloadLen > input.length then none
          else some (cursor + payloadLen - offset)
    else if type = MessageType.close.code then
      return some 5
    else if type = MessageType.error.code then
      if offset + 5 + 2 > input.length then
        return none
      else
        let msgLen := (← get16 input (offset + 5)).toNat
        let cursor := offset + 5 + 2
        return if cursor + msgLen > input.length then none else some (cursor + msgLen - offset)
    else
      return none

/-- `decodeMessage`, with its reads checked. -/
def decodeMessageChecked (input : Bytes) : Except Fault (Option DecodedMessage) :=
  if input.length < 5 then
    return none
  else do
    let type ← get input 0
    let streamId ← get32 input 1
    if type = MessageType.opn.code then
      if input.length < 5 + 2 then
        return none
      else
        let hostLen := (← get16 input 5).toNat
        if input.length < 5 + 2 + hostLen + 2 + 2 then
          return none
        else
          let host ← getSlice input (5 + 2) hostLen
          let port ← get16 input (5 + 2 + hostLen)
          let tokenLen := (← get16 input (5 + 2 + hostLen + 2)).toNat
          let cursor := 5 + 2 + hostLen + 2 + 2
          if input.length < cursor + tokenLen then
            return none
          else
            let token ← getSlice input cursor tokenLen
            return some (.opn { streamId, host, port, token })
    else if type = MessageType.data.code then
      if input.length < 5 + 4 then
        return none
      else
        let payloadLen := (← get32 input 5).toNat
        let cursor := 5 + 4
        if input.length < cursor + payloadLen then
          return none
        else
          let payload ← getSlice input cursor payloadLen
          return some (.data { streamId, payload })
    else if type = MessageType.close.code then
      return some (.close { streamId })
    else if type = MessageType.error.code then
      if input.length < 5 + 2 then
        return none
      else
        let msgLen := (← get16 input 5).toNat
        let cursor := 5 + 2
        if input.length < cursor + msgLen then
          return none
        else
          let message ← getSlice input cursor msgLen
          return some (.error { streamId, message })
    else
      return none

/-- No read of `tryGetFrameLength` is outside the buffer. -/
theorem tryGetFrameLengthChecked_eq (b : Bytes) (offset : Nat) :
    tryGetFrameLengthChecked b offset = .ok (tryGetFrameLength b offset) := by
  unfold tryGetFrameLengthChecked tryGetFrameLength
  split
  · rfl
  · next header =>
      rw [get_of_lt (by omega : offset < b.length), ok_bind, getElem!_pos b offset (by omega)]
      dsimp only
      split
      · split
        · rfl
        · next host =>
            rw [get16_of_le (by omega), ok_bind]
            split
            · rfl
            · next port =>
                rw [get16_of_le (by omega), ok_bind]
                rfl
      · split
        · split
          · rfl
          · next length =>
              rw [get32_of_le (by omega), ok_bind]
              rfl
        · split
          · rfl
          · split
            · split
              · rfl
              · next length =>
                  rw [get16_of_le (by omega), ok_bind]
                  rfl
            · rfl

/-- No read of `decodeMessage` is outside the buffer. -/
theorem decodeMessageChecked_eq (b : Bytes) :
    decodeMessageChecked b = .ok (decodeMessage b) := by
  unfold decodeMessageChecked decodeMessage
  split
  · rfl
  · next header =>
      rw [get_of_lt (by omega : 0 < b.length), ok_bind, getElem!_pos b 0 (by omega),
        get32_of_le (by omega : 1 + 4 ≤ b.length), ok_bind]
      dsimp only
      split
      · split
        · rfl
        · next host =>
            rw [get16_of_le (by omega), ok_bind]
            split
            · rfl
            · next port =>
                rw [getSlice_eq (by omega), ok_bind, get16_of_le (by omega), ok_bind,
                  get16_of_le (by omega), ok_bind]
                split
                · rfl
                · next token =>
                    rw [getSlice_eq (by omega), ok_bind]
                    rfl
      · split
        · split
          · rfl
          · next length =>
              rw [get32_of_le (by omega), ok_bind]
              split
              · rfl
              · next body =>
                  rw [getSlice_eq (by omega), ok_bind]
                  rfl
        · split
          · rfl
          · split
            · split
              · rfl
              · next length =>
                  rw [get16_of_le (by omega), ok_bind]
                  split
                  · rfl
                  · next body =>
                      rw [getSlice_eq (by omega), ok_bind]
                      rfl
            · rfl

/-! ### Measuring and decoding -/

section Measure

variable {b : Bytes} {offset n : Nat}

/-- What can be measured can be decoded. -/
theorem decodeMessage_of_measured (h : tryGetFrameLength b offset = some n) :
    decodeMessage (b.drop offset) ≠ none := by
  have length : (b.drop offset).length = b.length - offset := List.length_drop
  unfold tryGetFrameLength at h
  simp only at h
  split at h
  · cases h
  rw [decodeMessage, dif_neg (by omega)]
  simp only [List.getElem_drop, Nat.add_zero, readU16_drop, readU32_drop]
  split at h
  · next type =>
      rw [if_pos type]
      split at h
      · cases h
      split at h
      · cases h
      split at h
      · cases h
      rw [dif_neg (by omega), dif_neg (by omega)]
      simp only [← Nat.add_assoc]
      rw [if_neg (by omega)]
      exact Option.some_ne_none _
  · next type =>
      rw [if_neg type]
      split at h
      · next type =>
          rw [if_pos type]
          split at h
          · cases h
          split at h
          · cases h
          rw [dif_neg (by omega), if_neg (by omega)]
          exact Option.some_ne_none _
      · next type =>
          rw [if_neg type]
          split at h
          · next type =>
              rw [if_pos type]
              exact Option.some_ne_none _
          · next type =>
              rw [if_neg type]
              split at h
              · next type =>
                  rw [if_pos type]
                  split at h
                  · cases h
                  split at h
                  · cases h
                  rw [dif_neg (by omega), if_neg (by omega)]
                  exact Option.some_ne_none _
              · cases h

/-- **The measure of what stands at an offset is the encoded length of what is decoded there.** -/
theorem tryGetFrameLength_eq (b : Bytes) (offset : Nat) :
    tryGetFrameLength b offset = (decodeMessage (b.drop offset)).map fun m => (encodeClient m).length := by
  cases decoded : decodeMessage (b.drop offset) with
  | none =>
      rw [Option.map_none, Option.eq_none_iff_forall_ne_some]
      exact fun n measured => decodeMessage_of_measured measured decoded
  | some m =>
      obtain ⟨within, suf, tail⟩ := decodeMessage_sound decoded
      have low : offset ≤ b.length := by
        by_contra high
        rw [List.drop_eq_nil_of_le (by omega)] at tail
        have lengths := congrArg List.length tail
        simp only [List.length_nil, List.length_append, length_encodeClient] at lengths
        omega
      have at_ : MessageAt b offset m := by
        have placed := messageAt_append (b.take offset) suf m
        rwa [List.append_assoc, ← tail, List.take_append_drop, List.length_take, Nat.min_eq_left low] at placed
      rw [Option.map_some, tryGetFrameLength_of_messageAt within at_]

/-- What is decoded at the start of a buffer is decoded whatever follows it. -/
theorem decodeMessage_append {m : DecodedMessage} (decoded : decodeMessage b = some m) (suf : Bytes) :
    decodeMessage (b ++ suf) = some m := by
  obtain ⟨within, rest, rfl⟩ := decodeMessage_sound decoded
  refine decodeMessage_of_messageAt within ?_
  have placed := messageAt_append [] (rest ++ suf) m
  simpa using placed

theorem slice_eq_take (b : Bytes) (i k : Nat) : slice b i (i + k) = (b.drop i).take k := by
  rw [slice, Nat.add_sub_cancel_left]

/-- A message at an offset, its measure and the bytes it takes. -/
theorem frame_of_decoded {m : DecodedMessage} (decoded : decodeMessage (b.drop offset) = some m) :
    ∃ n, tryGetFrameLength b offset = some n ∧ 5 ≤ n ∧ n ≤ b.length - offset ∧
      slice b offset (offset + n) = encodeClient m := by
  obtain ⟨-, suf, tail⟩ := decodeMessage_sound decoded
  have lengths := congrArg List.length tail
  rw [List.length_drop, List.length_append] at lengths
  refine ⟨(encodeClient m).length, ?_, ?_, by omega, ?_⟩
  · rw [tryGetFrameLength_eq, decoded, Option.map_some]
  · rw [length_encodeClient]
    omega
  · rw [slice_eq_take, tail, List.take_left]

/-- A proper prefix of a frame is not decoded. -/
theorem decodeMessage_take {m : DecodedMessage} {k : Nat} (decoded : decodeMessage b = some m)
    (short : k < (encodeClient m).length) : decodeMessage (b.take k) = none := by
  rw [Option.eq_none_iff_forall_ne_some]
  intro m' cut
  -- what the prefix holds would be decoded in the whole as well
  have whole := decodeMessage_append cut (b.drop k)
  rw [List.take_append_drop, decoded] at whole
  cases whole
  obtain ⟨-, suf, all⟩ := decodeMessage_sound cut
  have lengths := congrArg List.length all
  rw [List.length_append, List.length_take] at lengths
  omega

/-- A frame that was measured is decoded. -/
theorem parseFrame_ne_invalidDecode (b : Bytes) (offset : Nat) :
    parseFrame b offset ≠ .error .invalidDecode := by
  intro fault
  unfold parseFrame at fault
  split at fault
  · cases fault
  · next n measured =>
      split at fault
      · cases fault
      · split at fault
        · next undecoded =>
            obtain ⟨m, decoded⟩ := Option.ne_none_iff_exists'.mp (decodeMessage_of_measured measured)
            obtain ⟨n', measured', -, -, cut⟩ := frame_of_decoded decoded
            cases measured.symm.trans measured'
            obtain ⟨within, -⟩ := decodeMessage_sound decoded
            rw [cut] at undecoded
            have again := decodeMessage_of_messageAt within (by simpa using messageAt_append [] [] m)
            cases undecoded.symm.trans again
        · cases fault

end Measure

/-- The loop gives up at what cannot be measured only. -/
theorem parseLoop_ne_invalidDecode (b : Bytes) (offset at_ : Nat) :
    (parseLoop b offset).2 ≠ .failed .invalidDecode at_ := by
  fun_induction parseLoop b offset with
  | case1 _ _ _ failed =>
      intro ended
      cases ended
      exact parseFrame_ne_invalidDecode b _ failed
  | case2 _ _ _ _ _ _ ih => exact ih
  | case3 =>
      intro ended
      cases ended

/-- Every turn of the loop takes five bytes at least. -/
theorem parseLoop_turns {b : Bytes} {offset : Nat} (low : offset ≤ b.length) :
    offset + 5 * (parseLoop b offset).1.length ≤ b.length := by
  fun_induction parseLoop b offset with
  | case1 => simpa using low
  | case2 offset _ msg frameLen parsed rest ih =>
      obtain ⟨-, len, inside, -⟩ := parseFrame_sound parsed
      have after := ih inside
      rw [length_encodeClient] at len
      change offset + 5 * ((parseLoop b (offset + frameLen)).1.length + 1) ≤ b.length
      omega
  | case3 => simpa using low

/-- **Measuring a frame agrees with decoding it.** At every offset of every buffer
`tryGetFrameLength` succeeds exactly if `decodeMessage` succeeds on the rest of the buffer. Then
the length lies between five and what is left, the frame cut out by it is decoded to the same
message, and no shorter piece is decoded at all. So the loop of `onAdnlMessage` never stops at a
frame it could measure and not decode, and it comes to its end after at most a fifth as many
turns as the payload has bytes. No read of the two functions is outside their input. -/
theorem measuring_agrees_with_decoding (b : Bytes) (offset : Nat) :
    ((∃ n, tryGetFrameLength b offset = some n) ↔ ∃ m, decodeMessage (b.drop offset) = some m) ∧
    (∀ n m, tryGetFrameLength b offset = some n → decodeMessage (b.drop offset) = some m →
      5 ≤ n ∧ n ≤ b.length - offset ∧ decodeMessage (slice b offset (offset + n)) = some m ∧
        ∀ k < n, decodeMessage (slice b offset (offset + k)) = none) ∧
    (∀ at_, (parseLoop b 0).2 ≠ .failed .invalidDecode at_) ∧
    5 * (parseLoop b 0).1.length ≤ b.length ∧
    tryGetFrameLengthChecked b offset = .ok (tryGetFrameLength b offset) ∧
    decodeMessageChecked b = .ok (decodeMessage b) := by
  refine ⟨⟨?_, ?_⟩, ?_, parseLoop_ne_invalidDecode b 0, ?_, tryGetFrameLengthChecked_eq b offset,
    decodeMessageChecked_eq b⟩
  · rintro ⟨n, measured⟩
    exact Option.ne_none_iff_exists'.mp (decodeMessage_of_measured measured)
  · rintro ⟨m, decoded⟩
    obtain ⟨n, measured, -⟩ := frame_of_decoded decoded
    exact ⟨n, measured⟩
  · intro n m measured decoded
    obtain ⟨n', measured', five, inside, cut⟩ := frame_of_decoded decoded
    cases measured.symm.trans measured'
    obtain ⟨within, -⟩ := decodeMessage_sound decoded
    have length : n = (encodeClient m).length := by
      rw [tryGetFrameLength_eq, decoded, Option.map_some] at measured
      exact (Option.some.inj measured).symm
    refine ⟨five, inside, ?_, ?_⟩
    · rw [cut]
      exact decodeMessage_of_messageAt within (by simpa using messageAt_append [] [] m)
    · intro k short
      rw [slice_eq_take]
      exact decodeMessage_take decoded (length ▸ short)
  · have turns := parseLoop_turns (b := b) (Nat.zero_le _)
    omega

/-! ### Payloads side by side -/

/-- A frame is parsed the same way whatever precedes and follows the payload. -/
theorem parseFrame_append {p : Bytes} {offset n : Nat} {m : DecodedMessage}
    (parsed : parseFrame p offset = .ok (m, n)) (q : Bytes) : parseFrame (p ++ q) offset = .ok (m, n) := by
  obtain ⟨within, rfl, inside, tail⟩ := parseFrame_sound parsed
  have split_ : p ++ q =
      p.take offset ++ encodeClient m ++ (p.drop (offset + (encodeClient m).length) ++ q) := by
    rw [List.append_assoc, ← List.append_assoc (encodeClient m), ← tail, ← List.append_assoc,
      List.take_append_drop]
  have start : (p.take offset).length = offset := by
    rw [List.length_take]
    omega
  have again := parseFrame_encode within (p.take offset) (p.drop (offset + (encodeClient m).length) ++ q)
  rwa [← split_, start] at again

/-- Behind a payload the next one is parsed as it is alone. -/
theorem parseFrame_shift (p q : Bytes) (offset : Nat) :
    parseFrame (p ++ q) (p.length + offset) = parseFrame q offset := by
  have tail : (p ++ q).drop (p.length + offset) = q.drop offset := by
    rw [List.drop_append, List.drop_eq_nil_of_le (Nat.le_add_right _ _), List.nil_append,
      Nat.add_sub_cancel_left]
  have measured : tryGetFrameLength (p ++ q) (p.length + offset) = tryGetFrameLength q offset := by
    rw [tryGetFrameLength_eq, tryGetFrameLength_eq, tail]
  have cut (n : Nat) : slice (p ++ q) (p.length + offset) (p.length + offset + n) =
      slice q offset (offset + n) := by
    rw [slice_eq_take, slice_eq_take, tail]
  unfold parseFrame
  rw [measured]
  simp only [cut]

/-! ### The calls of `onAdnlMessage` -/

/-- A call that the loop of `onAdnlMessage` makes. -/
inductive HandlerCall where
  | handleOpen (clientId : Bytes) (streamId : UInt32) (host : Bytes) (port : UInt16) (token : Bytes)
  | handleData (clientId : Bytes) (streamId : UInt32) (payload : Bytes)
  | handleClose (clientId : Bytes) (streamId : UInt32)
  deriving DecidableEq, Repr

/-- The call for a message; an ERROR is passed over. -/
def handlerCall (clientId : Bytes) : DecodedMessage → Option HandlerCall
  | .opn m => some (.handleOpen clientId m.streamId m.host m.port m.token)
  | .data m => some (.handleData clientId m.streamId m.payload)
  | .close m => some (.handleClose clientId m.streamId)
  | .error _ => none

/-- How a call of `onAdnlMessage` ended. -/
inductive HandlingEnd where
  | exhausted
  | failed (fault : FrameFault)
  /-- a handler let an exception out, and a `catch` block of `onAdnlMessage` took it -/
  | caught
  deriving DecidableEq, Repr

/-- What a call of `onAdnlMessage` did: the state it left, the calls it made, in order, and how it
ended. -/
structure Handling (S : Type) where
  state : S
  calls : List HandlerCall
  ended : HandlingEnd

/-- `onAdnlMessage`, from `offset` on. `handle` is what the handlers do to the state of the node,
with whether they let an exception out. -/
def onAdnlMessage {S : Type} (handle : HandlerCall → S → S × Bool) (clientId payload : Bytes)
    (offset : Nat) (s : S) : Handling S :=
  if _h : offset < payload.length then
    match _hp : parseFrame payload offset with
    | .error fault => ⟨s, [], .failed fault⟩
    | .ok (msg, frameLen) =>
        match handlerCall clientId msg with
        | none => onAdnlMessage handle clientId payload (offset + frameLen) s
        | some call =>
            if (handle call s).2 then ⟨(handle call s).1, [call], .caught⟩
            else
              let rest := onAdnlMessage handle clientId payload (offset + frameLen) (handle call s).1
              { rest with calls := call :: rest.calls }
  else ⟨s, [], .exhausted⟩
termination_by payload.length - offset
decreasing_by
  all_goals
    have := parseFrame_pos _hp
    omega

section Handling

variable {S : Type} {handle : HandlerCall → S → S × Bool} {clientId p q : Bytes} {offset : Nat} {s : S}

/-- One turn of the loop that finds a message. -/
theorem onAdnlMessage_turn {m : DecodedMessage} {n : Nat} (parsed : parseFrame p offset = .ok (m, n)) :
    onAdnlMessage handle clientId p offset s =
      match handlerCall clientId m with
      | none => onAdnlMessage handle clientId p (offset + n) s
      | some call =>
          if (handle call s).2 then ⟨(handle call s).1, [call], .caught⟩
          else
            let rest := onAdnlMessage handle clientId p (offset + n) (handle call s).1
            { rest with calls := call :: rest.calls } := by
  have inside := (parseFrame_sound parsed).2.2.1
  have some_ := parseFrame_pos parsed
  rw [onAdnlMessage, dif_pos (by omega)]
  split
  · next fault => cases parsed.symm.trans fault
  · next found =>
      cases parsed.symm.trans found
      rfl

/-- Behind a payload the loop does what it does on the next one alone. -/
theorem onAdnlMessage_shift (p q : Bytes) (offset : Nat) (s : S) :
    onAdnlMessage handle clientId (p ++ q) (p.length + offset) s =
      onAdnlMessage handle clientId q offset s := by
  fun_induction onAdnlMessage handle clientId q offset s with
  | case1 offset s low fault failed =>
      rw [onAdnlMessage, dif_pos (by simp; omega)]
      rw [← parseFrame_shift p q offset] at failed
      split
      · next found =>
          cases failed.symm.trans found
          rfl
      · next found => cases failed.symm.trans found
  | case2 offset s low m n parsed ignored ih =>
      rw [← parseFrame_shift p q offset] at parsed
      rw [onAdnlMessage_turn parsed, ignored, Nat.add_assoc]
      exact ih
  | case3 offset s low m n parsed call is threw =>
      rw [← parseFrame_shift p q offset] at parsed
      rw [onAdnlMessage_turn parsed, is]
      exact if_pos threw
  | case4 offset s low m n parsed call is calm rest ih =>
      rw [← parseFrame_shift p q offset] at parsed
      rw [onAdnlMessage_turn parsed, is, Nat.add_assoc]
      simp only [if_neg calm, ih]
      rfl
  | case5 offset s high =>
      rw [onAdnlMessage, dif_neg (by simp; omega)]

/-- A payload that is consumed to its end, and anything behind it. -/
theorem onAdnlMessage_append (q : Bytes) (low : offset ≤ p.length)
    (consumed : (onAdnlMessage handle clientId p offset s).ended = .exhausted) :
    onAdnlMessage handle clientId (p ++ q) offset s =
      let first := onAdnlMessage handle clientId p offset s
      let second := onAdnlMessage handle clientId q 0 first.state
      { second with calls := first.calls ++ second.calls } := by
  fun_induction onAdnlMessage handle clientId p offset s with
  | case1 => cases consumed
  | case2 offset s _ m n parsed ignored ih =>
      rw [onAdnlMessage_turn (parseFrame_append parsed q), ignored]
      exact ih (parseFrame_sound parsed).2.2.1 consumed
  | case3 => cases consumed
  | case4 offset s _ m n parsed call is calm rest ih =>
      rw [onAdnlMessage_turn (parseFrame_append parsed q), is]
      simp only [if_neg calm, ih (parseFrame_sound parsed).2.2.1 consumed]
      rfl
  | case5 offset s high =>
      have at_ : offset = p.length + 0 := by omega
      rw [at_, onAdnlMessage_shift]
      rfl

end Handling

/-- **How a client groups its frames into payloads is not observable.** Whatever the handlers do, on
a payload `p` that the loop consumes to its end, followed by any bytes `q`, `onAdnlMessage` makes the
calls that it makes on `p` and then on `q`, with the same arguments and in the same order, and leaves
the state that the two leave. -/
theorem payload_grouping_unobservable {S : Type} (handle : HandlerCall → S → S × Bool)
    (clientId p q : Bytes) (s : S)
    (consumed : (onAdnlMessage handle clientId p 0 s).ended = .exhausted) :
    (onAdnlMessage handle clientId (p ++ q) 0 s).calls =
        (onAdnlMessage handle clientId p 0 s).calls ++
          (onAdnlMessage handle clientId q 0 (onAdnlMessage handle clientId p 0 s).state).calls ∧
      (onAdnlMessage handle clientId (p ++ q) 0 s).state =
        (onAdnlMessage handle clientId q 0 (onAdnlMessage handle clientId p 0 s).state).state := by
  rw [onAdnlMessage_append q (Nat.zero_le _) consumed]
  exact ⟨rfl, rfl⟩

/-- A CLOSE frame in front of bytes that are no frame, with handlers that count their calls. -/
theorem close_before_garbage_is_handled :
    (onAdnlMessage (fun _ n => (n + 1, false)) (ascii "A") [3, 0, 0, 0, 7] 0 0).ended = .exhausted ∧
      (onAdnlMessage (fun _ n => (n + 1, false)) (ascii "A") ([3, 0, 0, 0, 7] ++ [9, 9]) 0 0).calls =
        [.handleClose (ascii "A") 7] := by
  have close : parseFrame [3, 0, 0, 0, 7] 0 = .ok (.close ⟨7⟩, 5) := rfl
  have first : onAdnlMessage (fun _ n => (n + 1, false)) (ascii "A") [3, 0, 0, 0, 7] 0 0 =
      ⟨1, [.handleClose (ascii "A") 7], .exhausted⟩ := by
    rw [onAdnlMessage_turn close]
    simp only [handlerCall, Bool.false_eq_true, if_false]
    rw [onAdnlMessage, dif_neg (by decide)]
  have second : (onAdnlMessage (fun _ n => (n + 1, false)) (ascii "A") [9, 9] 0 1).calls = [] := by
    rw [onAdnlMessage, dif_pos (by decide)]
    rfl
  have consumed : (onAdnlMessage (fun _ n => (n + 1, false)) (ascii "A") [3, 0, 0, 0, 7] 0 0).ended =
      .exhausted := by rw [first]
  refine ⟨consumed, ?_⟩
  rw [(payload_grouping_unobservable _ _ _ [9, 9] _ consumed).1, first, second]
  rfl

end TonTunnel
