import TonTunnel.Protocol.Downlink
import TonTunnel.Protocol.Uplink

/-!
What the three decoders make of a frame type outside `1..4`.

The specification calls it a decode failure. The desktop decoder returns nothing
for such a packet and the server's loop stops at the frame; the Android decoder
takes the five header bytes for a frame of type `UNKNOWN` and goes on behind
them, in the middle of whatever the frame held. `unknown_types_fail_iff` gives
the packets for which that still ends in a failure: those whose remaining bytes,
cut that way, end in a frame that declares more bytes than are left.
-/

namespace TonTunnel

open BigEndian

/-! ### Frame boundaries -/

/-- The frames that a one-frame parser cuts off from position `i` on, one after the
other, up to position `j`. -/
inductive Cuts {α : Type} (cut : Nat → Option (α × Nat)) : Nat → List α → Nat → Prop
  | nil {i : Nat} : Cuts cut i [] i
  | cons {i j k : Nat} {f : α} {fs : List α} :
      cut i = some (f, j) → Cuts cut j fs k → Cuts cut i (f :: fs) k

/-- A complete header with a type byte that is no message type. -/
def UnknownAt (b : Bytes) (i : Nat) : Prop :=
  ∃ h : i + 5 ≤ b.length, ∀ t : MessageType, b[i] ≠ t.code

/-- Where the frame at `i` ends: a DATA or ERROR frame behind the body it declares
(`none` if that is not in the packet, or does not fit an `Int`), and any other
frame behind its header. -/
def frameEnd (b : Bytes) (i : Nat) (h : i + 5 ≤ b.length) : Option Nat :=
  if b[i] = MessageType.data.code then
    if h4 : i + 5 + 4 ≤ b.length then
      let payloadLen := (readU32 b (i + 5) (by omega)).toNat
      if payloadLen < 2 ^ 31 ∧ i + 5 + 4 + payloadLen ≤ b.length then
        some (i + 5 + 4 + payloadLen)
      else none
    else none
  else if b[i] = MessageType.error.code then
    if h2 : i + 5 + 2 ≤ b.length then
      let msgLen := (readU16 b (i + 5) (by omega)).toNat
      if i + 5 + 2 + msgLen ≤ b.length then some (i + 5 + 2 + msgLen) else none
    else none
  else some (i + 5)

/-- The frames from position `i` on, unknown ones being five bytes long, come to one
that does not fit into the packet. -/
inductive RunsShort (b : Bytes) : Nat → Prop
  | short {i : Nat} (h : i + 5 ≤ b.length) : frameEnd b i h = none → RunsShort b i
  | skip {i j : Nat} (h : i + 5 ≤ b.length) : frameEnd b i h = some j → RunsShort b j →
      RunsShort b i

/-! ### The server -/

/-- One turn of the loop of `onAdnlMessage`. -/
def cutMessage (b : Bytes) (i : Nat) : Option (DecodedMessage × Nat) :=
  match parseFrame b i with
  | .error _ => none
  | .ok (msg, frameLen) => some (msg, i + frameLen)

theorem parseLoop_step {b : Bytes} {i j : Nat} {m : DecodedMessage}
    (h : cutMessage b i = some (m, j)) :
    (parseLoop b i).1 = m :: (parseLoop b j).1 := by
  unfold cutMessage at h
  split at h
  · cases h
  · rename_i msg frameLen hp
    cases h
    have hlt : i < b.length := by
      have hle := (parseFrame_sound hp).2
      have hpos := parseFrame_pos hp
      omega
    rw [parseLoop, dif_pos hlt]
    split
    · rename_i heq
      rw [hp] at heq
      cases heq
    · rename_i heq
      rw [hp] at heq
      cases heq
      rfl

theorem parseLoop_of_cuts {b : Bytes} {i j : Nat} {ms : List DecodedMessage}
    (h : Cuts (cutMessage b) i ms j) : (parseLoop b i).1 = ms ++ (parseLoop b j).1 := by
  induction h with
  | nil => rfl
  | cons hcut _ ih => rw [parseLoop_step hcut, ih, List.cons_append]

/-- `tryGetFrameLength` has no length for an unknown type. -/
theorem parseLoop_unknown {b : Bytes} {i : Nat} (h : UnknownAt b i) : (parseLoop b i).1 = [] := by
  obtain ⟨hlen, htype⟩ := h
  have hnone : tryGetFrameLength b i = none := by
    unfold tryGetFrameLength
    rw [dif_neg (by omega)]
    simp only [htype, if_false]
  have hp : parseFrame b i = .error .invalidFormat := by
    rw [parseFrame, hnone]
  rw [parseLoop, dif_pos (by omega)]
  split
  · rfl
  · rename_i heq
    rw [hp] at heq
    cases heq

/-! ### The desktop decoder -/

namespace Desktop

/-- One turn of the loop of `decodeInboundFrames`. -/
def cutFrame (b : Bytes) (i : Nat) : Option (InboundFrame × Nat) :=
  if h : i + 5 ≤ b.length then decodeFrame b i h else none

theorem decodeLoop_of_cuts {b : Bytes} {i j : Nat} {fs : List InboundFrame}
    (h : Cuts (cutFrame b) i fs j) (out : List InboundFrame) :
    decodeLoop b i out = decodeLoop b j (out ++ fs) := by
  induction h generalizing out with
  | nil => rw [List.append_nil]
  | @cons i j k f fs hcut _ ih =>
      unfold cutFrame at hcut
      split at hcut
      · rename_i hlen
        rw [decodeLoop_step hlen hcut, ih, List.append_assoc, List.singleton_append]
      · cases hcut

theorem decodeLoop_unknown {b : Bytes} {i : Nat} (h : UnknownAt b i) (out : List InboundFrame) :
    decodeLoop b i out = [] := by
  obtain ⟨hlen, htype⟩ := h
  have hnone : decodeFrame b i hlen = none := by
    have hopn : b[i] ≠ FrameType.opn.code := htype .opn
    have hclose : b[i] ≠ FrameType.close.code := htype .close
    have hdata : b[i] ≠ FrameType.data.code := htype .data
    have herror : b[i] ≠ FrameType.error.code := htype .error
    simp [decodeFrame, hopn, hclose, hdata, herror]
  rw [decodeLoop, dif_pos hlen]
  split
  · rfl
  · rename_i heq
    rw [hnone] at heq
    cases heq

end Desktop

/-! ### The Android decoder -/

namespace Android

theorem fromId_code (t : MessageType) : FrameType.fromId t.code ≠ .unknown := by
  cases t <;> decide

/-- `fromId` maps exactly the values outside `1..4` to `UNKNOWN`. -/
theorem fromId_eq_unknown {v : UInt8} (h : ∀ t : MessageType, v ≠ t.code) :
    FrameType.fromId v = .unknown := by
  have hopn : ¬ FrameType.opn.id = v := (h .opn).symm
  have hdata : ¬ FrameType.data.id = v := (h .data).symm
  have hclose : ¬ FrameType.close.id = v := (h .close).symm
  have herror : ¬ FrameType.error.id = v := (h .error).symm
  unfold FrameType.fromId FrameType.entries
  by_cases h0 : FrameType.unknown.id = v
  · simp [h0]
  · simp [List.find?, h0, hopn, hdata, hclose, herror]

/-- One turn of the loop of `decodeInboundFrames` at a frame of a known type. -/
def cutFrame (b : Bytes) (i : Nat) : Option (InboundFrame × Nat) :=
  if h : i + 5 ≤ b.length then
    if FrameType.fromId b[i] = .unknown then none else decodeFrame b i h
  else none

theorem decodeLoop_step {b : Bytes} {i j : Nat} {out : List InboundFrame} {f : InboundFrame}
    (h : i + 5 ≤ b.length) (hd : decodeFrame b i h = some (f, j)) :
    decodeLoop b i out = decodeLoop b j (out ++ [f]) := by
  rw [decodeLoop, dif_pos h]
  split
  · rename_i heq
    rw [hd] at heq
    cases heq
  · rename_i heq
    rw [hd] at heq
    cases heq
    rfl

theorem decodeLoop_of_cuts {b : Bytes} {i j : Nat} {fs : List InboundFrame}
    (h : Cuts (cutFrame b) i fs j) (out : List InboundFrame) :
    decodeLoop b i out = decodeLoop b j (out ++ fs) := by
  induction h generalizing out with
  | nil => rw [List.append_nil]
  | @cons i j k f fs hcut _ ih =>
      unfold cutFrame at hcut
      split at hcut
      · rename_i hlen
        split at hcut
        · cases hcut
        · rw [decodeLoop_step hlen hcut, ih, List.append_assoc, List.singleton_append]
      · cases hcut

/-- A type other than `UNKNOWN` comes from its own value. -/
theorem eq_of_fromId {v : UInt8} {t : FrameType} (h : FrameType.fromId v = t)
    (ht : t ≠ .unknown) : v = t.id := by
  unfold FrameType.fromId at h
  cases hfind : FrameType.entries.find? fun t => t.id = v with
  | none =>
      rw [hfind] at h
      exact absurd h.symm ht
  | some t' =>
      rw [hfind, Option.getD_some] at h
      subst h
      have hid := List.find?_some hfind
      simp only [decide_eq_true_eq] at hid
      exact hid.symm

/-- A length from 2³¹ on is read as a negative `Int`. -/
theorem toInt32_neg {v : UInt32} (h : ¬ v.toNat < 2 ^ 31) : v.toInt32 < 0 := by
  rw [Int32.lt_iff_toInt_lt]
  have hlt := v.toNat_lt
  have hval : v.toInt32.toInt = (v.toNat : Int).bmod (2 ^ 32) := by
    change v.toBitVec.toInt = _
    rw [BitVec.toInt_eq_toNat_bmod]
    rfl
  rw [hval, Int.bmod_def]
  simp only [Int32.toInt_zero]
  omega

/-- The position behind a frame is the one its length field declares. -/
theorem decodeFrame_end {b : Bytes} {i : Nat} (h : i + 5 ≤ b.length) :
    (decodeFrame b i h).map Prod.snd = frameEnd b i h := by
  unfold decodeFrame frameEnd
  simp only
  split
  · rename_i htype
    have hdata : b[i] ≠ MessageType.data.code := fun heq => fromId_code .data (heq ▸ htype)
    have herror : b[i] ≠ MessageType.error.code := fun heq => fromId_code .error (heq ▸ htype)
    rw [if_neg hdata, if_neg herror, Option.map_some]
  · rename_i htype
    have hdata : b[i] = MessageType.data.code := eq_of_fromId htype (by decide)
    rw [if_pos hdata]
    by_cases h4 : i + 5 + 4 ≤ b.length
    · rw [dif_neg (by omega), dif_pos h4]
      by_cases hint : (readU32 b (i + 5) (by omega)).toNat < 2 ^ 31
      · have hval := toInt_toInt32 hint
        have hneg : ¬ (readU32 b (i + 5) (by omega)).toInt32 < 0 := by
          rw [Int32.lt_iff_toInt_lt, hval]
          simp
        by_cases hfit : i + 5 + 4 + (readU32 b (i + 5) (by omega)).toNat ≤ b.length
        · rw [if_neg, if_pos ⟨hint, hfit⟩, Option.map_some, hval, Int.toNat_natCast]
          rw [hval]
          rintro (hlt | hlt)
          · exact hneg hlt
          · omega
        · rw [if_pos, if_neg fun h => hfit h.2, Option.map_none]
          rw [hval]
          exact .inr (by omega)
      · have hneg := toInt32_neg hint
        rw [if_pos (.inl hneg), if_neg fun h => hint h.1, Option.map_none]
    · rw [dif_pos (by omega), dif_neg h4, Option.map_none]
  · rename_i htype
    have hclose : b[i] = MessageType.close.code := eq_of_fromId htype (by decide)
    rw [hclose, if_neg (by decide), if_neg (by decide), Option.map_some]
  · rename_i htype
    have herror : b[i] = MessageType.error.code := eq_of_fromId htype (by decide)
    rw [herror, if_neg (by decide), if_pos rfl]
    by_cases h2 : i + 5 + 2 ≤ b.length
    · rw [dif_neg (by omega), dif_pos h2]
      simp only [toInt_short_and]
      by_cases hfit : i + 5 + 2 + (readU16 b (i + 5) (by omega)).toNat ≤ b.length
      · rw [if_neg (by omega), if_pos hfit, Option.map_some, Int.toNat_natCast]
      · rw [if_pos (by omega), if_neg hfit, Option.map_none]
    · rw [dif_pos (by omega), dif_neg h2, Option.map_none]
  · rename_i htype
    have hopn : b[i] = MessageType.opn.code := eq_of_fromId htype (by decide)
    rw [hopn, if_neg (by decide), if_neg (by decide), Option.map_some]

/-- Once a frame was decoded, the decoder returns nothing exactly if it runs into a
frame that does not fit. -/
theorem decodeLoop_eq_nil_iff {b : Bytes} {i : Nat} {out : List InboundFrame} (hout : out ≠ []) :
    decodeLoop b i out = [] ↔ RunsShort b i := by
  fun_induction decodeLoop b i out with
  | case1 i out h hd =>
      have hend := decodeFrame_end h
      rw [hd, Option.map_none] at hend
      exact ⟨fun _ => .short h hend.symm, fun _ => rfl⟩
  | case2 i out h f j hd ih =>
      have hend := decodeFrame_end h
      rw [hd, Option.map_some] at hend
      rw [ih (by simp)]
      constructor
      · intro hshort
        exact .skip h hend.symm hshort
      · intro hshort
        cases hshort with
        | short _ hnone =>
            rw [hnone] at hend
            cases hend
        | skip _ hskip hrest =>
            rw [hskip] at hend
            cases hend
            exact hrest
  | case3 i out h =>
      constructor
      · intro hnil
        exact absurd hnil hout
      · intro hshort
        cases hshort with
        | short h' => exact absurd h' h
        | skip h' => exact absurd h' h

/-- At an unknown type the decoder yields a frame and goes on behind the header. -/
theorem decodeLoop_unknown {b : Bytes} {i : Nat} (h : UnknownAt b i) (out : List InboundFrame) :
    decodeLoop b i out = [] ↔ RunsShort b (i + 5) := by
  obtain ⟨hlen, htype⟩ := h
  have hunknown := fromId_eq_unknown htype
  have hd : ∃ f, decodeFrame b i hlen = some (f, i + 5) := by
    unfold decodeFrame
    simp only [hunknown]
    exact ⟨_, rfl⟩
  obtain ⟨f, hd⟩ := hd
  rw [decodeLoop_step hlen hd]
  apply decodeLoop_eq_nil_iff
  simp

end Android

/-! ### The failure rule -/

/-- The failure rule for unknown types, for one packet: where a decoder's frames lead
to a header with an unknown type, the client decoders return no frames and the
server's loop dispatches the frames before it. -/
structure UnknownFails (b : Bytes) : Prop where
  desktop {fs j} : Cuts (Desktop.cutFrame b) 0 fs j → UnknownAt b j →
    Desktop.decodeInboundFrames b = []
  android {fs j} : Cuts (Android.cutFrame b) 0 fs j → UnknownAt b j →
    Android.decodeInboundFrames b = []
  server {ms j} : Cuts (cutMessage b) 0 ms j → UnknownAt b j → (parseLoop b 0).1 = ms

/-- **Unknown frame types.** The three decoders share the failure rule on exactly the
packets in which the bytes behind the header that the Android decoder skips lead
it to a frame that does not fit into the packet. -/
theorem unknown_types_fail_iff (b : Bytes) :
    UnknownFails b ↔
      ∀ fs j, Cuts (Android.cutFrame b) 0 fs j → UnknownAt b j → RunsShort b (j + 5) := by
  constructor
  · intro hfails fs j hcuts hunknown
    have hnil := hfails.android hcuts hunknown
    rw [Android.decodeInboundFrames, Android.decodeLoop_of_cuts hcuts] at hnil
    exact (Android.decodeLoop_unknown hunknown _).mp hnil
  · intro hshort
    constructor
    · intro fs j hcuts hunknown
      rw [Desktop.decodeInboundFrames, Desktop.decodeLoop_of_cuts hcuts]
      exact Desktop.decodeLoop_unknown hunknown _
    · intro fs j hcuts hunknown
      rw [Android.decodeInboundFrames, Android.decodeLoop_of_cuts hcuts]
      exact (Android.decodeLoop_unknown hunknown _).mpr (hshort fs j hcuts hunknown)
    · intro ms j hcuts hunknown
      rw [parseLoop_of_cuts hcuts, parseLoop_unknown hunknown, List.append_nil]

/-- A header of type 9, then five bytes that read as a CLOSE of stream 7. -/
def garbledPacket : Bytes := [9, 0, 0, 0, 1, 3, 0, 0, 0, 7]

/-- The Android decoder closes stream 7. -/
theorem android_skips_unknown_type :
    UnknownAt garbledPacket 0 ∧
      (Android.decodeInboundFrames garbledPacket).map (fun f => (f.type, f.streamId)) =
        [(.unknown, 1), (.close, 7)] ∧
      ¬ UnknownFails garbledPacket := by
  have hunknown : UnknownAt garbledPacket 0 := by
    refine ⟨by decide, fun t => ?_⟩
    cases t <;> decide
  have hframes : (Android.decodeInboundFrames garbledPacket).map (fun f => (f.type, f.streamId)) =
      [(.unknown, 1), (.close, 7)] := by
    have first : Android.decodeFrame garbledPacket 0 (by decide) =
        some (⟨.unknown, 1, [], none, [9, 0, 0, 0, 1]⟩, 5) := by decide
    have second : Android.decodeFrame garbledPacket 5 (by decide) =
        some (⟨.close, 7, [], none, [3, 0, 0, 0, 7]⟩, 10) := by decide
    rw [Android.decodeInboundFrames, Android.decodeLoop_step _ first,
      Android.decodeLoop_step _ second, Android.decodeLoop, dif_neg (by decide)]
    decide
  refine ⟨hunknown, hframes, fun hfails => ?_⟩
  rw [hfails.android .nil hunknown] at hframes
  cases hframes

end TonTunnel
