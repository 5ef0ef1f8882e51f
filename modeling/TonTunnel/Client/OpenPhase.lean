import TonTunnel.Client.Queues
import TonTunnel.Client.TransportQueues

/-!
The open phase and the data phase share one queue.

The wait loop of `openStream` takes frames of every type until it finds the ACK.
DATA that stands in front of the ACK is dropped there, in both clients
(`data_before_ack_dropped`). What stands behind the ACK is safe: the call takes
nothing after it, and the frames go to `awaitStreamFrame` in order
(`open_keeps_frames_behind_ack`).
-/

namespace TonTunnel

open Interleaving (Reach anyStep)

/-! ### The desktop client -/

namespace Client

open Desktop

/-- The OPEN ACK. -/
def isAck (f : InboundFrame) : Bool := f.type = .opn

/-- A caller that is looking at a frame took it last. -/
def CallerPc.Looking (i : Nat) (notes : List (Note UInt32 UInt32 InboundFrame)) : CallerPc → Prop
  | .opening id _ _ _ (.got _ _ f) => TookLast i id f notes
  | _ => True

@[inherit_doc CallerPc.Looking]
def Local.Looking (c : Core) : (t : ThreadId) → Local t → Prop
  | .caller i, pc => CallerPc.Looking i c.notes pc
  | _, _ => True

section Steps

variable {c c' : Core} {a : Act}

theorem awaitStep_looking {i : Nat} {id : UInt32} {pc : AwaitPc} {f : InboundFrame}
    (h : awaitStep i true id c pc a = some (.done (some f), c')) : TookLast i id f c'.notes := by
  unfold awaitStep at h
  split at h
  · cases h
  · split at h
    · cases h
      exact .concat i id f c.notes
    · cases h
  · split at h
    · cases h
    · split at h
      · cases h
      · cases h
  · cases h
  · cases h

theorem OpenMove.looking {i : Nat} {id : UInt32} {host : Bytes} {port : UInt16} {token : Bytes}
    {pc pc' : OpenPc} (h : OpenMove i id host port token c pc a (.more pc') c') :
    CallerPc.Looking i c'.notes (.opening id host port token pc') := by
  cases h with
  | took awaited => exact awaitStep_looking awaited
  | _ => trivial

/-- Notes that are not by the caller leave it looking at what it took last. -/
theorem CallerPc.Looking.append {i : Nat} {pc : CallerPc}
    {notes new : List (Note UInt32 UInt32 InboundFrame)} (h : CallerPc.Looking i notes pc)
    (others : ∀ n ∈ new, n.caller ≠ some i) : CallerPc.Looking i (notes ++ new) pc := by
  unfold CallerPc.Looking at h ⊢
  split
  · exact TookLast.append h fun n mem => Note.opens_of_caller_ne (others n mem)
  · trivial

/-- Every call that returned 0 had taken the ACK. -/
def Core.Acked (c : Core) : Prop := AcksTaken isAck (fun id => id) c.notes

/-- A step that is not a return of `openStream` with 0. -/
theorem Core.Acked.of_extends {w : Core.Scope} (before : c.Acked) (h : Core.Extends w c c')
    (plain : ¬ w.opens) : c'.Acked := by
  obtain ⟨new, notes, -, covers⟩ := h
  rw [Core.Acked, notes]
  refine AtOpened.append before fun n mem i j same => ?_
  exact plain ((covers n mem).opens i j same)

/-- `openStream` returns 0 only when it is looking at the ACK. -/
theorem OpenMove.acked_of_looking {i : Nat} {id : UInt32} {host : Bytes} {port : UInt16}
    {token : Bytes} {pc : OpenPc} {out : OpenOut} (h : OpenMove i id host port token c pc a out c')
    (looking : CallerPc.Looking i c.notes (.opening id host port token pc)) (before : c.Acked) :
    c'.Acked := by
  have extended := h.moves.extends
  by_cases zero : out = .ret 0
  · cases h with
    | @acked d seen f type =>
        refine AtOpened.concat before fun j k same => ?_
        cases same
        exact ⟨id, f, rfl, by simp [isAck, type], looking⟩
    | _ => simp at zero
  · exact before.of_extends extended zero

theorem CallerMove.looking {i : Nat} {pc pc' : CallerPc} (h : CallerMove i c pc a pc' c') :
    CallerPc.Looking i c'.notes pc' := by
  cases h with
  | enter call =>
      cases call with
      | _ => trivial
  | opening m => exact m.looking
  | _ => trivial

theorem CallerMove.acked {i : Nat} {pc pc' : CallerPc} (h : CallerMove i c pc a pc' c')
    (looking : CallerPc.Looking i c.notes pc) (before : c.Acked) : c'.Acked := by
  have plain : ∀ id, c.Moves (callScope i id False) c' → c'.Acked := by
    intro id moves
    exact before.of_extends moves.extends False.elim
  cases h with
  | enter call => exact before
  | @register id => exact plain id (.one (.register rfl))
  | @unregister id => exact plain id (.one (.unregister rfl))
  | opening m | opened m => exact m.acked_of_looking looking before
  | @sending id _ _ _ _ h | @sent id _ _ _ _ h => exact plain id (sendStreamDataStep_moves h)
  | @closed id _ _ _ h => exact plain id (closeStreamStep_moves h)
  | awaiting h | awaited h => exact plain _ (awaitStep_moves h)

theorem acked_of_reach {s : State} (h : Reach machine anyStep initial s) : s.shared.Acked := by
  have holds : Interleaving.Holds Core.Acked (fun t l c => Local.Looking c t l) s := by
    refine h.threadModular ?_ ?_ ?_
    · refine ⟨?_, fun t => ?_⟩
      · exact .nil
      · cases t with
        | _ => trivial
    · intro s t a l c _ before _ step
      have extended := (step_moves step).extends
      cases t with
      | caller i =>
          have move := callerStep_move step
          exact ⟨move.acked (before.loc (.caller i)) before.shared, move.looking⟩
      | receiver | owner | clock =>
          refine ⟨before.shared.of_extends extended ?_, trivial⟩
          rintro ⟨i, same⟩
          cases same
    · intro s t a l c _ before _ step t' other
      cases t' with
      | caller i =>
          obtain ⟨new, notes, -, covers⟩ := (step_moves step).extends
          have looking : CallerPc.Looking i c.notes (s.loc (.caller i)) := by
            rw [notes]
            refine CallerPc.Looking.append (before.loc (.caller i)) fun n mem same => ?_
            exact other ((covers n mem).callers i same).symm
          exact looking
      | _ => trivial
  exact holds.shared

end Steps

end Client

/-! ### The Android client -/

namespace Transport

open Android Client NativeTonTransport

/-- The OPEN ACK. -/
def isAck (f : InboundFrame) : Bool := f.type = .opn

/-- A caller that polls a queue, or is looking at a frame of one: the queue is its
stream's, and it took the frame last. -/
def CallerPc.Looking (i : Nat) (notes : List (Note Int32 Ref InboundFrame)) : CallerPc → Prop
  | .opening id _ _ (.poll _ _ _ r) => r.1 = id
  | .opening id _ _ (.got _ _ f) => ∃ r : Ref, r.1 = id ∧ TookLast i r f notes
  | _ => True

@[inherit_doc CallerPc.Looking]
def Local.Looking (n : NativeTonTransport) : (t : ThreadId) → Local t → Prop
  | .caller i, pc => CallerPc.Looking i n.notes pc
  | _, _ => True

/-- Every call that returned 0 had taken the ACK. -/
def Acked (n : NativeTonTransport) : Prop := AcksTaken isAck Prod.fst n.notes

section Steps

variable {n n' : NativeTonTransport} {a : Act}

theorem CallerMove.looking {i : Nat} {pc pc' : CallerPc} (named : Named n)
    (before : CallerPc.Looking i n.notes pc) (h : CallerMove i n pc a pc' n') :
    CallerPc.Looking i n'.notes pc' := by
  cases h with
  | enter call | enterAgain call =>
      cases call with
      | _ => trivial
  | opening m =>
      cases m with
      | found h => exact congrArg Prod.fst (named.entry _ _ h).1
      | took h =>
          obtain ⟨rest, -, rfl⟩ := pollStep_took h
          exact ⟨_, before, .concat i _ _ n.notes⟩
      | _ => trivial
  | sends h =>
      obtain ⟨rfl | ⟨offset, rfl⟩, -, -⟩ := sendStep_inv h
      · trivial
      · trivial
  | _ => trivial

/-- Notes that are not by the caller leave it looking at what it took last. -/
theorem CallerPc.Looking.append {i : Nat} {pc : CallerPc}
    {notes new : List (Note Int32 Ref InboundFrame)} (h : CallerPc.Looking i notes pc)
    (others : ∀ e ∈ new, e.caller ≠ some i) : CallerPc.Looking i (notes ++ new) pc := by
  unfold CallerPc.Looking at h ⊢
  split
  · exact h
  · obtain ⟨r, own, took⟩ := h
    exact ⟨r, own, took.append fun e mem => Note.opens_of_caller_ne (others e mem)⟩
  · trivial

/-- A step that is not a return of `openStream` with 0. -/
theorem Acked.of_extends {w : Scope} (before : Acked n) (h : Extends w n n') (plain : ¬ w.opens) :
    Acked n' := by
  obtain ⟨new, notes, -, covers⟩ := h
  rw [Acked, notes]
  refine AtOpened.append before fun e mem i j same => ?_
  exact plain ((covers e mem).opens i j same)

/-- The step with which `openStream` returns 0. -/
theorem CallerMove.opened_zero {i : Nat} {pc : CallerPc} (h : CallerMove i n pc a (.opened 0) n') :
    ∃ id host port t₀ seen f, pc = .opening id host port (.got t₀ seen f) ∧ f.type = .opn ∧
      n' = n.note (.opened i id) := by
  generalize after : CallerPc.opened 0 = pc' at h
  cases h with
  | opened m =>
      cases after
      cases m with
      | @acked t₀ seen f type => exact ⟨_, _, _, t₀, seen, f, rfl, type, rfl⟩
      | refused nonzero | rejected nonzero => exact absurd rfl nonzero
  | enter call | enterAgain call =>
      cases call with
      | _ => cases after
  | sends sends =>
      obtain ⟨rfl | ⟨offset, rfl⟩, -, -⟩ := sendStep_inv sends
      · cases after
      · cases after
  | _ => cases after

/-- `openStream` returns 0 only when it is looking at the ACK. -/
theorem CallerMove.acked {i : Nat} {pc pc' : CallerPc} (h : CallerMove i n pc a pc' n')
    (named : Named n) (looking : CallerPc.Looking i n.notes pc) (before : Acked n) : Acked n' := by
  have extended := h.move.extends named
  by_cases zero : pc' = .opened 0
  · subst zero
    obtain ⟨id, host, port, t₀, seen, f, rfl, type, rfl⟩ := h.opened_zero
    obtain ⟨r, own, took⟩ := looking
    refine AtOpened.concat before fun j k same => ?_
    cases same
    exact ⟨r, f, own, by simp [isAck, type], took⟩
  · exact before.of_extends extended zero

theorem acked_of_reach {authToken : String} {s : State}
    (h : Reach machine anyStep (initial authToken) s) : Acked s.shared := by
  have holds : Interleaving.Holds Acked (fun t l n => Local.Looking n t l) s := by
    refine h.threadModular ?_ ?_ ?_
    · refine ⟨?_, fun t => ?_⟩
      · exact .nil
      · cases t with
        | _ => trivial
    · intro s t a l n reached before _ step
      have named := named_of_reach reached
      have extended := (step_move (named.loc t) step).extends named.shared
      cases t with
      | caller i =>
          have move := callerStep_move step
          have looking := before.loc (.caller i)
          exact ⟨move.acked named.shared looking before.shared, move.looking named.shared looking⟩
      | receiver | clock =>
          refine ⟨before.shared.of_extends extended ?_, trivial⟩
          rintro ⟨i, same⟩
          cases same
    · intro s t a l n reached before _ step t' other
      have named := named_of_reach reached
      cases t' with
      | caller i =>
          obtain ⟨new, notes, -, covers⟩ := (step_move (named.loc t) step).extends named.shared
          have looking : CallerPc.Looking i n.notes (s.loc (.caller i)) := by
            rw [notes]
            refine CallerPc.Looking.append (before.loc (.caller i)) fun e mem same => ?_
            exact other ((covers e mem).callers i same).symm
          exact looking
      | _ => trivial
  exact holds.shared

end Steps

end Transport

/-! ### Both clients -/

open Client (Note KeepsBehindAck)

/-- **Nothing behind the ACK is lost.** In every reachable state of either client: a call of
`openStream` that returned 0 took the ACK last, and the frames that stood behind the ACK and
those that came later went to `awaitStreamFrame` in order, or are still in the queue. -/
theorem open_keeps_frames_behind_ack {s : Client.State} {authToken : String}
    {s' : Transport.State} (desktop : Reach Client.machine anyStep Client.initial s)
    (android : Reach Transport.machine anyStep (Transport.initial authToken) s') :
    KeepsBehindAck Client.isAck (fun id => id) s.shared.notes s.shared.content ∧
      KeepsBehindAck Transport.isAck Prod.fst s'.shared.notes s'.shared.heap := by
  constructor
  · exact (Client.acked_of_reach desktop).keepsBehindAck (Client.replays_of_reach desktop)
  · exact (Transport.acked_of_reach android).keepsBehindAck (Transport.replays_of_reach android)

/-- The ACK of stream 1, and a DATA frame of stream 1. -/
def ackPacket : Bytes := [1, 0, 0, 0, 1]

@[inherit_doc ackPacket]
def dataPacket : Bytes := [2, 0, 0, 0, 1, 0, 0, 0, 1, 65]

/-- `openStream(1, ..)` up to its first wait. -/
def Client.openingRun : List (Client.ThreadId × Client.Act) :=
  [(.owner, .start), (.receiver, .go), (.receiver, .go),
    (.caller 0, .call (.openStream 1 [104] 80 [])), (.caller 0, .go), (.caller 0, .sendRet 0),
    (.caller 0, .go), (.caller 0, .go), (.caller 0, .go), (.caller 0, .go)]

@[inherit_doc Client.openingRun]
def Transport.openingRun : List (Transport.ThreadId × Transport.Act) :=
  [(.caller 0, .call (.openStream 1 "h" 80)), (.caller 0, .go), (.caller 0, .go),
    (.caller 0, .sendRet 0), (.caller 0, .go), (.caller 0, .go)]

/-- The ACK arrives before the DATA. -/
def Client.ackFirstRun : List (Client.ThreadId × Client.Act) :=
  List.append Client.openingRun
    [(.receiver, .packet ackPacket), (.receiver, .go), (.receiver, .go),
      (.receiver, .packet dataPacket), (.receiver, .go), (.caller 0, .go), (.caller 0, .go),
      (.caller 0, .call (.awaitStreamFrame 1 100)), (.caller 0, .go), (.caller 0, .go)]

@[inherit_doc Client.ackFirstRun]
def Transport.ackFirstRun : List (Transport.ThreadId × Transport.Act) :=
  List.append Transport.openingRun
    [(.receiver, .packet (some ackPacket)), (.receiver, .go), (.receiver, .go), (.receiver, .go),
      (.receiver, .packet (some dataPacket)), (.receiver, .go), (.receiver, .go), (.caller 0, .go),
      (.caller 0, .go), (.caller 0, .call (.awaitStreamFrame 1 100)), (.caller 0, .go),
      (.caller 0, .go)]

theorem ackFirstRun_keeps_data :
    Note.opened 0 1 ∈ (Client.machine.run Client.initial Client.ackFirstRun).shared.notes ∧
      KeepsBehindAck Client.isAck (fun id => id)
        (Client.machine.run Client.initial Client.ackFirstRun).shared.notes
        (Client.machine.run Client.initial Client.ackFirstRun).shared.content ∧
      KeepsBehindAck Transport.isAck Prod.fst
        (Transport.machine.run (Transport.initial "") Transport.ackFirstRun).shared.notes
        (Transport.machine.run (Transport.initial "") Transport.ackFirstRun).shared.heap := by
  have desktop : Client.machine.follows (fun _ _ _ => true) Client.initial Client.ackFirstRun =
      true := by
    decide +kernel
  have android : Transport.machine.follows (fun _ _ _ => true) (Transport.initial "")
      Transport.ackFirstRun = true := by
    decide +kernel
  exact ⟨by decide +kernel,
    open_keeps_frames_behind_ack (Reach.run desktop).any (Reach.run android).any⟩

/-- A call of `openStream` that returned 0 took no DATA frame since it sent its OPEN. -/
def TakesNoData {Id Queue Frame : Type} (isData : Frame → Bool)
    (notes : List (Note Id Queue Frame)) : Prop :=
  ∀ pre mid post i id, notes = pre ++ .openSent i id :: (mid ++ .opened i id :: post) →
    ∀ q f, isData f = true → .taken i true q f ∉ mid

/-- The DATA arrives before the ACK. -/
def Client.dataFirstRun : List (Client.ThreadId × Client.Act) :=
  List.append Client.openingRun
    [(.receiver, .packet dataPacket), (.receiver, .go), (.caller 0, .go), (.caller 0, .go),
      (.receiver, .go), (.receiver, .packet ackPacket), (.receiver, .go), (.caller 0, .go),
      (.caller 0, .go), (.caller 0, .go), (.caller 0, .go), (.caller 0, .go)]

@[inherit_doc Client.dataFirstRun]
def Transport.dataFirstRun : List (Transport.ThreadId × Transport.Act) :=
  List.append Transport.openingRun
    [(.receiver, .packet (some dataPacket)), (.receiver, .go), (.receiver, .go), (.receiver, .go),
      (.caller 0, .go), (.caller 0, .go), (.caller 0, .go), (.caller 0, .go),
      (.receiver, .packet (some ackPacket)), (.receiver, .go), (.receiver, .go), (.caller 0, .go),
      (.caller 0, .go)]

/-- Both clients drop DATA that arrives before the ACK. -/
theorem data_before_ack_dropped :
    (¬ ∀ s, Reach Client.machine anyStep Client.initial s →
      TakesNoData (fun f => f.type = .data) s.shared.notes) ∧
    (¬ ∀ s, Reach Transport.machine anyStep (Transport.initial "") s →
      TakesNoData (fun f => f.type = .data) s.shared.notes) := by
  constructor
  · intro never
    have follows : Client.machine.follows (fun _ _ _ => true) Client.initial Client.dataFirstRun =
        true := by
      decide +kernel
    let notes := (Client.machine.run Client.initial Client.dataFirstRun).shared.notes
    have split : notes = notes.take 2 ++ .openSent 0 1 :: ((notes.drop 3).take 6 ++
        .opened 0 1 :: notes.drop 10) := by
      decide +kernel
    have dropped := never _ (Reach.run follows).any _ _ _ _ _ split 1
      ⟨.data, 1, [65], [], dataPacket⟩ rfl
    exact dropped (by decide +kernel)
  · intro never
    have follows : Transport.machine.follows (fun _ _ _ => true) (Transport.initial "")
        Transport.dataFirstRun = true := by
      decide +kernel
    let notes := (Transport.machine.run (Transport.initial "") Transport.dataFirstRun).shared.notes
    have split : notes = notes.take 2 ++ .openSent 0 1 :: ((notes.drop 3).take 6 ++
        .opened 0 1 :: notes.drop 10) := by
      decide +kernel
    have dropped := never _ (Reach.run follows).any _ _ _ _ _ split (1, 0)
      ⟨.data, 1, [65], none, dataPacket⟩ rfl
    exact dropped (by decide +kernel)

end TonTunnel
