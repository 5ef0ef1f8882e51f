import TonTunnel.Client.Queues

/-!
Demultiplexing in `TonClientCore`: one FIFO for every stream id.

`receiverLoop` distributes the frames of a packet to the queues of their ids, and
any number of callers wait for frames, register and unregister ids. As long as
the queue of an id exists, what `awaitStreamFrame` has returned for the id and what
the queue holds are together the frames of that id that the receiver took up since
the queue was created, in order (`demux_fifo`). The receiver takes up the frames
of all packets in order, and a step on other ids changes none of this.
-/

namespace TonTunnel.Client

open TonTunnel Desktop
open Interleaving (Reach anyStep)

/-- What `awaitStreamFrame` returned for the id since its queue was created. -/
def returned (id : UInt32) (notes : List (Note UInt32 UInt32 InboundFrame)) : List InboundFrame :=
  Fifo.since (Note.creates id) (Note.takes id) notes

/-- The frames of the id that the receiver took up since the queue was created. -/
def decoded (id : UInt32) (notes : List (Note UInt32 UInt32 InboundFrame)) : List InboundFrame :=
  Fifo.since (Note.creates id) (Note.arrives id) notes

/-- The frames that the receiver took up. -/
def takenUp : Note UInt32 UInt32 InboundFrame → Option InboundFrame
  | .inbound _ f => some f
  | _ => none

/-- The frames that the receiver has decoded and not yet taken up. -/
def ReceiverPc.inHand : ReceiverPc → List InboundFrame
  | .deliver frames => frames
  | _ => []

/-! ### The frames of an existing queue -/

namespace Core

variable {w : Scope} {c c' : Core} {id : UInt32}

/-- As long as the id has a queue, the receiver puts every frame it takes up there. -/
def PutsAll (id : UInt32) (c : Core) : Prop :=
  (c.streamQueues.lookup id).isSome = true →
    decoded id c.notes = Fifo.since (Note.creates id) (Note.puts id) c.notes

/-- A note that is neither a creation of the queue nor a frame for it. -/
theorem PutsAll.note {n : Note UInt32 UInt32 InboundFrame} (h : c.PutsAll id)
    (arrives : n.arrives id = none) (puts : n.puts id = none) : (c.note n).PutsAll id := by
  intro found
  have before := h found
  rw [decoded] at before
  rw [decoded, Core.note, Fifo.since_concat, Fifo.since_concat, arrives, puts, before]

theorem PutsAll.insert_other {j : UInt32} {l : List InboundFrame} (h : c.PutsAll id)
    (other : j ≠ id) :
    ({ c with streamQueues := c.streamQueues.insert j l } : Core).PutsAll id := by
  intro found
  rw [AList.lookup_insert_ne (Ne.symm other)] at found
  exact h found

theorem PutsAll.tryEmplace {j : UInt32} (h : c.PutsAll id) : (c.tryEmplace j).PutsAll id := by
  unfold Core.tryEmplace
  split
  · exact h
  · by_cases same : j = id
    · subst same
      intro _
      rw [decoded, Core.note, Fifo.since_concat, Fifo.since_concat]
      simp [Note.creates]
    · exact (h.insert_other same).note rfl rfl

/-- A frame that is taken up and put into its queue. -/
theorem PutsAll.pushBack {f : InboundFrame} {q : List InboundFrame} (h : c.PutsAll id)
    (found : c.streamQueues.lookup f.streamId = some q) :
    ((c.note (.inbound f.streamId f)).pushBack f q).PutsAll id := by
  by_cases same : f.streamId = id
  · intro _
    have before := h (by rw [← same, found, Option.isSome_some])
    rw [decoded] at before
    simp only [decoded, Core.pushBack, Core.note, Fifo.since_concat]
    simp [Note.creates, Note.arrives, Note.puts, same, before]
  · have noted : (c.note (.inbound f.streamId f)).PutsAll id :=
      h.note (by simp [Note.arrives, same]) rfl
    exact (noted.insert_other same).note rfl (by simp [Note.puts, same])

theorem Move.putsAll (move : Move w c c') (h : c.PutsAll id) : c'.PutsAll id := by
  cases move with
  | same queues notes _ =>
      rw [PutsAll, queues, notes]
      exact h
  | packet bytes _ => exact h
  | @dispatch f _ _ =>
      unfold Core.dispatch
      split
      · next found => exact h.pushBack found
      · next absent =>
          split
          · exact h.tryEmplace.pushBack (lookup_tryEmplace_of_none absent)
          · intro found
            have other : f.streamId ≠ id := by
              rintro rfl
              rw [show (c.note _).streamQueues = c.streamQueues from rfl, absent] at found
              cases found
            exact h.note (n := .inbound f.streamId f) (by simp [Note.arrives, other]) rfl found
  | register _ => exact h.tryEmplace.note rfl rfl
  | @unregister j _ =>
      by_cases same : j = id
      · subst same
        intro found
        simp [Core.unregisterStream, Core.note] at found
      · have erased : ({ c with streamQueues := c.streamQueues.erase j } : Core).PutsAll id := by
          intro found
          rw [AList.lookup_erase_ne (Ne.symm same)] at found
          exact h found
        exact (erased.note (n := .removed j) rfl rfl).note rfl rfl
  | @pop i o j f rest _ _ found =>
      by_cases same : j = id
      · subst same
        have present : (c.streamQueues.lookup j).isSome = true := by rw [found, Option.isSome_some]
        refine PutsAll.note (fun _ => h present) rfl rfl
      · exact (h.insert_other same).note rfl rfl
  | openSent _ _ => exact h.note rfl rfl
  | opened _ _ _ => exact h.note rfl rfl

/-! ### The order in which frames are taken up -/

/-- What the receiver took up, and the packets it took it from, are those of `c`. -/
def TookUp (c c' : Core) (fs : List InboundFrame) : Prop :=
  c'.notes.filterMap takenUp = c.notes.filterMap takenUp ++ fs ∧ c'.received = c.received

theorem TookUp.refl (c : Core) : TookUp c c [] := ⟨by simp, rfl⟩

theorem TookUp.trans {mid : Core} {fs gs : List InboundFrame} (h : TookUp c mid fs)
    (h' : TookUp mid c' gs) : TookUp c c' (fs ++ gs) :=
  ⟨by rw [h'.1, h.1, List.append_assoc], h'.2.trans h.2⟩

theorem tookUp_note (c : Core) (n : Note UInt32 UInt32 InboundFrame) :
    TookUp c (c.note n) (takenUp n).toList := by
  refine ⟨?_, rfl⟩
  rw [Core.note, List.filterMap_append]
  cases found : takenUp n with
  | none => simp [found]
  | some f => simp [found]

theorem tookUp_tryEmplace (c : Core) (id : UInt32) : TookUp c (c.tryEmplace id) [] := by
  unfold tryEmplace
  split
  · exact .refl c
  · exact tookUp_note _ (.created id)

theorem tookUp_pushBack (c : Core) (f : InboundFrame) (q : List InboundFrame) :
    TookUp c (c.pushBack f q) [] :=
  tookUp_note { c with streamQueues := c.streamQueues.insert f.streamId (q ++ [f]) }
    (.put f.streamId f)

theorem tookUp_dispatch (c : Core) (f : InboundFrame) : TookUp c (c.dispatch f) [f] := by
  unfold dispatch
  split
  · exact (tookUp_note c (.inbound f.streamId f)).trans (tookUp_pushBack _ f _)
  · split
    · exact ((tookUp_tryEmplace c f.streamId).trans (tookUp_note _ (.inbound f.streamId f))).trans
        (tookUp_pushBack _ f [])
    · exact tookUp_note c (.inbound f.streamId f)

theorem tookUp_dispatchAll (c : Core) (fs : List InboundFrame) : TookUp c (c.dispatchAll fs) fs := by
  induction fs using List.reverseRecOn with
  | nil => exact .refl c
  | append_singleton fs f ih =>
      rw [dispatchAll, List.foldl_append]
      exact ih.trans (tookUp_dispatch _ f)

/-- The other threads take up nothing. -/
theorem Move.tookUp (other : ¬ w.recv) (h : Move w c c') : TookUp c c' [] := by
  cases h with
  | same _ notes received => exact ⟨by simp [notes], received⟩
  | packet _ recv | dispatch recv _ => exact absurd recv other
  | register _ => exact (tookUp_tryEmplace c _).trans (tookUp_note _ (.registered _))
  | @unregister j _ =>
      exact (tookUp_note { c with streamQueues := c.streamQueues.erase j } (.removed j)).trans
        (tookUp_note _ (.unregistered j))
  | @pop i o j f rest _ _ _ =>
      exact tookUp_note { c with streamQueues := c.streamQueues.insert j rest } (.taken i o j f)
  | openSent _ _ => exact tookUp_note c (.openSent _ _)
  | opened _ _ _ => exact tookUp_note c (.opened _ _)

theorem Moves.tookUp (other : ¬ w.recv) (h : Moves w c c') : TookUp c c' [] := by
  induction h with
  | none => exact .refl c
  | more _ move ih => exact ih.trans (move.tookUp other)

end Core

/-- What the receiver took up, and what it has in hand, are the frames of the packets. -/
def PacketOrder (pc : ReceiverPc) (c : Core) : Prop :=
  c.notes.filterMap takenUp ++ pc.inHand = c.received.flatMap decodeInboundFrames

theorem Core.TookUp.packetOrder {pc : ReceiverPc} {c c' : Core} (h : Core.TookUp c c' [])
    (before : PacketOrder pc c) : PacketOrder pc c' := by
  rw [PacketOrder, h.1, h.2, List.append_nil]
  exact before

theorem receiverStep_packetOrder {pc pc' : ReceiverPc} {c c' : Core} {a : Act}
    (h : receiverStep pc c a = some (pc', c')) (before : PacketOrder pc c) :
    PacketOrder pc' c' := by
  unfold receiverStep at h
  split at h
  · split at h
    · split at h
      · cases h
        exact before
      · cases h
        exact before
    · next frames =>
        cases h
        obtain ⟨notes, received⟩ := Core.tookUp_dispatchAll c frames
        rw [PacketOrder, notes, received,
          show ReceiverPc.inHand .loop = [] from rfl, List.append_nil]
        exact before
    · split at h
      · cases h
        exact before
      · cases h
    · cases h
  · next bytes =>
      split at h
      · next atReceive =>
          subst atReceive
          have before : c.notes.filterMap takenUp = c.received.flatMap decodeInboundFrames := by
            simpa [PacketOrder, ReceiverPc.inHand] using before
          simp only at h
          split at h
          · next none =>
              cases h
              simp [PacketOrder, ReceiverPc.inHand, before, none]
          · next f fs some =>
              cases h
              simp [PacketOrder, ReceiverPc.inHand, before, some]
      · cases h
  · split at h
    · next atReceive =>
        subst atReceive
        cases h
        exact before
    · cases h
  · split at h
    · next atReceive =>
        subst atReceive
        cases h
        exact before
    · cases h
  · cases h

theorem packetOrder_of_reach {s : State} (h : Reach machine anyStep initial s) :
    PacketOrder (s.loc .receiver) s.shared := by
  have start : PacketOrder (initial.loc .receiver) initial.shared := rfl
  refine h.invariant (I := fun s => PacketOrder (s.loc .receiver) s.shared) start ?_
  intro s s' t a _ before _ next
  obtain ⟨l, c, step, rfl⟩ := Interleaving.Machine.next_eq_some next
  show PacketOrder (Function.update s.loc t l .receiver) c
  by_cases receiver : t = .receiver
  · subst receiver
    simpa using receiverStep_packetOrder step before
  · rw [Function.update_of_ne (Ne.symm receiver)]
    exact ((step_moves step).tookUp receiver).packetOrder before

/-! ### Steps on other ids -/

/-- Notes on other ids are not seen in what `since` finds for the id. -/
theorem since_eq_of_about {pick : Note UInt32 UInt32 InboundFrame → Option InboundFrame}
    {id : UInt32} {notes new : List (Note UInt32 UInt32 InboundFrame)}
    (about : ∀ n ∈ new, n.about ≠ id) (picks : ∀ n, n.about ≠ id → pick n = none) :
    Fifo.since (Note.creates id) pick (notes ++ new) = Fifo.since (Note.creates id) pick notes := by
  rw [Fifo.since_append]
  · rw [List.filterMap_eq_nil_iff.mpr fun n mem => picks n (about n mem), List.append_nil]
  · intro n mem
    have other := about n mem
    cases n with
    | created j => exact decide_eq_false other
    | _ => rfl

theorem Core.Extends.other {w : Core.Scope} {c c' : Core} {id : UInt32}
    (h : Core.Extends w c c') (off : ¬ w.ids id) :
    c'.streamQueues.lookup id = c.streamQueues.lookup id ∧
      returned id c'.notes = returned id c.notes ∧ decoded id c'.notes = decoded id c.notes := by
  obtain ⟨new, notes, run, covers⟩ := h
  have others : ∀ n ∈ new, n.about ≠ id := by
    rintro n mem rfl
    exact off (covers n mem).ids
  refine ⟨run.frame ?_, ?_, ?_⟩
  · intro o mem
    obtain ⟨n, hn, same⟩ := List.mem_filterMap.mp mem
    have other := others n hn
    cases n with
    | created | removed | put | taken =>
        cases same
        exact other
    | _ => cases same
  · rw [returned, notes]
    refine since_eq_of_about others fun n other => ?_
    cases n with
    | taken i o j f => exact if_neg other
    | _ => rfl
  · rw [decoded, notes]
    refine since_eq_of_about others fun n other => ?_
    cases n with
    | inbound j f => exact if_neg other
    | _ => rfl

/-- Stream 7 is registered; one packet brings an ACK for 7, a CLOSE for 8 and DATA for 7, and
a caller waits for 7. -/
def mixedPacketRun : List (ThreadId × Act) :=
  [(.owner, .start), (.receiver, .go), (.caller 0, .call (.registerStream 7)), (.caller 0, .go),
    (.receiver, .go),
    (.receiver, .packet ([1, 0, 0, 0, 7] ++ [3, 0, 0, 0, 8] ++ [2, 0, 0, 0, 7, 0, 0, 0, 1, 65])),
    (.receiver, .go), (.caller 1, .call (.awaitStreamFrame 7 100)), (.caller 1, .go),
    (.caller 1, .go)]

end TonTunnel.Client
