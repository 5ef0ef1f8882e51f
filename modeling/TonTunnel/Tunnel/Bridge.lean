import TonTunnel.Tunnel.NearEnd

/-!
One call of `bridgeViaBackend`, from the OPEN to the return.

What the bridge writes to the SOCKS client is the data of the frames it took
behind the ACK (`PumpOk`). Its queue hands on every frame of the stream that
arrives, in order, from the registration to the end of the call (`QueueOk`). What
goes out for the stream is an OPEN, then the bytes that the pump read, then a
CLOSE unless the other side ended the stream (`Says`, `Fed`).
-/

namespace TonTunnel.Socks

open TonTunnel Desktop Client
open Interleaving (Reach anyStep)

/-! ### What the bridge writes -/

/-- The last frame that `openStream` took is an ACK. -/
def Acked (opened : List InboundFrame) : Prop :=
  ∃ pre ack, opened = pre ++ [ack] ∧ ack.type = .opn

/-- No frame among these ends the stream. -/
def Unended (pumped : List InboundFrame) : Prop :=
  ∀ f ∈ pumped, f.type ≠ .close ∧ f.type ≠ .error

/-- The bytes written against the frames taken, at each position of the bridge. -/
def PumpOk (opened pumped : List InboundFrame) (written : Bytes) : BridgePc → Prop
  | .idle | .failed | .returned false => pumped = [] ∧ written = []
  | .opening pc =>
      pumped = [] ∧ written = [] ∧ ∀ d seen f, pc = .got d seen f → ∃ pre, opened = pre ++ [f]
  | .spawn => Acked opened ∧ pumped = [] ∧ written = []
  | .testAlive | .testRunning | .await _ =>
      Acked opened ∧ Unended pumped ∧ written = dataBytes pumped
  | .got f =>
      Acked opened ∧ ∃ before, pumped = before ++ [f] ∧ Unended before ∧ written = dataBytes before
  | .sendAll rest => Acked opened ∧ Unended pumped ∧ written ++ rest = dataBytes pumped
  | .leaving true | .join true => Acked opened ∧ ¬ Unended pumped ∧ written = dataBytes pumped
  | .leaving false | .join false | .close =>
      Acked opened ∧ Unended pumped ∧ written <+: dataBytes pumped
  | .unregister | .returned true | .escaped =>
      Acked opened ∧ written <+: dataBytes pumped ∧ (¬ Unended pumped → written = dataBytes pumped)

theorem Unended.concat {fs : List InboundFrame} {f : InboundFrame} (h : Unended fs)
    (last : f.type ≠ .close ∧ f.type ≠ .error) : Unended (fs ++ [f]) := by
  intro g mem
  rcases List.mem_append.mp mem with mem | mem
  · exact h g mem
  · cases List.mem_singleton.mp mem
    exact last

theorem not_unended_concat {fs : List InboundFrame} {f : InboundFrame}
    (last : f.type = .close ∨ f.type = .error) : ¬ Unended (fs ++ [f]) := by
  intro h
  have plain := h f (by simp)
  exact last.elim plain.1 plain.2

/-- An end frame carries no data. -/
theorem dataBytes_end {f : InboundFrame} (type : f.type = .close ∨ f.type = .error) :
    dataBytes [f] = [] := by
  rw [dataBytes_singleton, if_neg]
  intro data
  rcases type with type | type
  · cases type.symm.trans data
  · cases type.symm.trans data

section Positions

variable {o p : List InboundFrame} {w : Bytes} {pc : BridgePc}

/-- At each position the bytes written are a prefix of the data taken. -/
theorem PumpOk.isPrefix (h : PumpOk o p w pc) : w <+: dataBytes p := by
  unfold PumpOk at h
  split at h
  · exact h.2 ▸ List.nil_prefix
  · exact h.2 ▸ List.nil_prefix
  · exact h.2 ▸ List.nil_prefix
  · exact h.2.1 ▸ List.nil_prefix
  · exact h.2.2 ▸ List.nil_prefix
  · exact h.2.2 ▸ List.prefix_rfl
  · exact h.2.2 ▸ List.prefix_rfl
  · exact h.2.2 ▸ List.prefix_rfl
  · obtain ⟨-, before, rfl, -, rfl⟩ := h
    exact dataBytes_append _ _ ▸ List.prefix_append _ _
  · exact h.2.2 ▸ List.prefix_append _ _
  · exact h.2.2 ▸ List.prefix_rfl
  · exact h.2.2 ▸ List.prefix_rfl
  · exact h.2.2
  · exact h.2.2
  · exact h.2.2
  · exact h.2.1
  · exact h.2.1
  · exact h.2.1

/-- The bridge takes frames in its loop after the ACK. -/
theorem PumpOk.acked (h : PumpOk o p w pc) (some_ : p ≠ []) : Acked o := by
  unfold PumpOk at h
  split at h
  · exact absurd h.1 some_
  · exact absurd h.1 some_
  · exact absurd h.1 some_
  · exact absurd h.1 some_
  all_goals exact h.1

/-- When the bridge has taken an end frame it has written all data before it. -/
theorem PumpOk.complete (h : PumpOk o p w pc) (ended : ¬ Unended p) : w = dataBytes p := by
  unfold PumpOk at h
  split at h
  · exact absurd (h.1 ▸ nofun) ended
  · exact absurd (h.1 ▸ nofun) ended
  · exact absurd (h.1 ▸ nofun) ended
  · exact absurd (h.1 ▸ nofun) ended
  · exact absurd (h.2.1 ▸ nofun) ended
  · exact h.2.2
  · exact h.2.2
  · exact h.2.2
  · obtain ⟨-, before, rfl, unended, rfl⟩ := h
    have last : ¬ (_ ∧ _) := fun plain => ended (unended.concat plain)
    rw [dataBytes_append, dataBytes_end, List.append_nil]
    by_contra neither
    exact last ⟨fun type => neither (.inl type), fun type => neither (.inr type)⟩
  · exact absurd h.2.1 ended
  · exact h.2.2
  · exact h.2.2
  · exact absurd h.2.1 ended
  · exact absurd h.2.1 ended
  · exact absurd h.2.1 ended
  · exact h.2.2 ended
  · exact h.2.2 ended
  · exact h.2.2 ended

end Positions

section Steps

variable {authToken : Bytes} {d d' : Server} {i : Nat} {a : Act}

theorem takenBy_popFront (c : Core) (o o' : Bool) (id : UInt32) (f : InboundFrame)
    (rest : List InboundFrame) :
    takenBy i o' (c.popFront i o id f rest).notes =
      takenBy i o' c.notes ++ if o = o' then [f] else [] := by
  rw [Core.popFront, Core.note, takenBy_append]
  by_cases same : o = o'
  · simp [takenBy, same]
  · simp [takenBy, same]

/-- `openStream` takes frames as such, and a frame it has just taken is the last one. -/
theorem openMove_taken {id : UInt32} {host token : Bytes} {port : UInt16} {c c' : Core} {pc : OpenPc}
    {out : OpenOut} {a : Client.Act} (m : OpenMove i id host port token c pc a out c') :
    pumped i c' = pumped i c ∧
      (opened i c' = opened i c ∧ (∀ d seen f, out ≠ .more (.got d seen f)) ∧
          (pc ≠ .register → c'.streamQueues = c.streamQueues) ∨
        ∃ d seen f rest, out = .more (.got d seen f) ∧ opened i c' = opened i c ++ [f] ∧
          c.streamQueues.lookup id = some (f :: rest) ∧ c' = c.popFront i true id f rest) := by
  cases m with
  | register =>
      refine ⟨?_, .inl ⟨?_, nofun, fun h => absurd rfl h⟩⟩
      · unfold Core.registerStream Core.tryEmplace
        split <;> simp [pumped, takenBy, Core.note]
      · unfold Core.registerStream Core.tryEmplace
        split <;> simp [opened, takenBy, Core.note]
  | sent | acked => simp [opened, pumped, takenBy, Core.note, Core.sendPacket]
  | waits h | nothing h =>
      cases awaitStep_did h
      refine ⟨rfl, .inl ⟨rfl, ?_, fun _ => rfl⟩⟩
      rintro _ _ _ ⟨⟩
  | @took d seen _ _ _ f h =>
      obtain ⟨rest, found, rfl⟩ := awaitStep_did h
      refine ⟨by simp [takenBy_popFront], .inr ⟨d, seen, f, rest, rfl, ?_, found, rfl⟩⟩
      simp [takenBy_popFront]
  | refused | sendThrows | deadline | inTime | timedOut | wait | closeSeen | graceOver | graceLeft
  | rejected | closed | ignored =>
      refine ⟨rfl, .inl ⟨rfl, ?_, fun _ => rfl⟩⟩
      rintro _ _ _ ⟨⟩

/-- **One step of a bridge writes what it took.** -/
theorem PumpOk.step {pc pc' : BridgePc} (m : BridgeMove authToken i d pc a pc' d')
    (h : PumpOk (opened i d.core) (pumped i d.core) (d.bridges i).written pc) :
    PumpOk (opened i d'.core) (pumped i d'.core) (d'.bridges i).written pc' := by
  cases m with
  | request =>
      simp only [Server.allocate, Function.update_self]
      refine ⟨h.1, rfl, ?_⟩
      rintro _ _ _ ⟨⟩
  | opening move =>
      obtain ⟨pumped, ⟨-, other, -⟩ | ⟨_, _, f, _, same, more, -⟩⟩ := openMove_taken move
      · refine ⟨pumped.trans h.1, h.2.1, fun d seen f same => ?_⟩
        exact absurd (congrArg _ same) (other d seen f)
      · refine ⟨pumped.trans h.1, h.2.1, fun d seen g same' => ?_⟩
        cases same
        cases same'
        exact ⟨_, more⟩
  | opened move =>
      cases move with
      | acked type =>
          obtain ⟨pre, last⟩ := h.2.2 _ _ _ rfl
          refine ⟨⟨pre, _, ?_, type⟩, ?_, h.2.1⟩
          · simpa [takenBy, Core.note] using last
          · simpa [takenBy, Core.note] using h.1
  | openFails _ move => exact ⟨(openMove_taken move).1.trans h.1, h.2.1⟩
  | unregisterFailed =>
      refine ⟨?_, h.2⟩
      simpa [takenBy, Core.unregisterStream, Core.note] using h.1
  | spawn =>
      simp only [Server.setBridge, Function.update_self]
      obtain ⟨acked, pumped, written⟩ := h
      refine ⟨acked, ?_, ?_⟩
      · rw [pumped]
        intro f mem
        cases mem
      · rw [pumped, written]
        rfl
  | spawnThrows =>
      obtain ⟨acked, pumped, written⟩ := h
      rw [pumped, written]
      exact ⟨acked, List.prefix_rfl, fun _ => rfl⟩
  | alive | running | waits | nothing => exact h
  | dead | stopped => exact ⟨h.1, h.2.1, h.2.2 ▸ List.prefix_rfl⟩
  | took found =>
      refine ⟨?_, pumped i d.core, ?_, h.2.1, h.2.2⟩
      · simpa [takenBy_popFront] using h.1
      · simp [takenBy_popFront]
  | data type =>
      obtain ⟨acked, before, last, unended, written⟩ := h
      rw [last]
      refine ⟨acked, unended.concat (by rw [type]; decide), ?_⟩
      rw [dataBytes_append, dataBytes_singleton, if_pos type, written]
  | skip empty type =>
      obtain ⟨acked, before, last, unended, written⟩ := h
      rw [last]
      refine ⟨acked, unended.concat type, ?_⟩
      rw [dataBytes_append, dataBytes_singleton, written]
      split
      · next data => rw [empty data, List.append_nil]
      · rw [List.append_nil]
  | ended type =>
      obtain ⟨acked, before, last, -, written⟩ := h
      rw [last]
      refine ⟨acked, not_unended_concat type, ?_⟩
      rw [dataBytes_append, dataBytes_end type, written, List.append_nil]
  | wrote =>
      simp only [Server.setBridge, Function.update_self]
      obtain ⟨acked, unended, written⟩ := h
      refine ⟨acked, unended, ?_⟩
      rw [List.append_assoc, List.take_append_drop]
      exact written
  | wroteAll => exact ⟨h.1, h.2.1, by simpa using h.2.2⟩
  | writeFails => exact ⟨h.1, h.2.1, h.2.2 ▸ List.prefix_append _ _⟩
  | @leave remoteEnded =>
      simp only [Server.setBridge, Function.update_self]
      cases remoteEnded with
      | true | false => exact h
  | joinEnded => exact ⟨h.1, h.2.2 ▸ List.prefix_rfl, fun _ => h.2.2⟩
  | joinOpen => exact h
  | close =>
      unfold Core.sendPacket
      split
      · exact ⟨h.1, h.2.2, fun ended => absurd h.2.1 ended⟩
      · exact ⟨h.1, h.2.2, fun ended => absurd h.2.1 ended⟩
  | closeThrows => exact ⟨h.1, h.2.2, fun ended => absurd h.2.1 ended⟩
  | unregister =>
      simpa [PumpOk, takenBy, Core.unregisterStream, Core.note] using h

end Steps

section Runs

variable {authToken : Bytes} {ok : State → ThreadId → Act → Prop} {s : State} {i : Nat}

/-- **What a bridge writes it took from its queue, in order.** -/
theorem pump_of_reach (h : Reach (machine authToken) ok initial s) (i : Nat) :
    PumpOk (opened i s.shared.core) (pumped i s.shared.core) (s.shared.bridges i).written
      (s.loc (.bridge i)) := by
  refine Reach.invariant (I := fun s => PumpOk (opened i s.shared.core) (pumped i s.shared.core)
    (s.shared.bridges i).written (s.loc (.bridge i))) ?_ ?_ h
  · exact ⟨rfl, rfl⟩
  intro s s' t a _ before _ next
  obtain ⟨l, d, m, rfl⟩ := next_move next
  by_cases bridge : t = .bridge i
  · subst bridge
    simp only [Function.update_self]
    exact before.step m
  · simp only [Function.update_of_ne (Ne.symm bridge)]
    have written : (d.bridges i).written = (s.shared.bridges i).written := by
      by_cases uplink : t = .uplink i
      · subst uplink
        generalize s.loc (.uplink i) = pc at m
        cases m with
        | received | leave => simp only [Server.setBridge, Function.update_self]
        | _ => rfl
      · rw [m.bridges bridge uplink]
    have opened_ : opened i d.core = opened i s.shared.core := m.taken bridge true
    have pumped_ : pumped i d.core = pumped i s.shared.core := m.taken bridge false
    rw [opened_, pumped_, written]
    exact before

end Runs

/-! ### The queue of the stream -/

/-- The frames of the stream in the receiver's hand. -/
def hand (id : UInt32) : ReceiverPc → List InboundFrame
  | .deliver fs => fs.filter (·.streamId = id)
  | _ => []

/-- What arrived against what the bridge took and what waits for it. -/
def QueueOk (i : Nat) (id : UInt32) (c : Core) (receiver : ReceiverPc) : BridgePc → Prop
  | .idle | .opening .register =>
      opened i c = [] ∧ pumped i c = [] ∧
        (inbox id c = [] → hand id receiver = [] ∧ ∀ q, c.streamQueues.lookup id = some q → q = [])
  | .returned _ => opened i c ++ pumped i c <+: inbox id c
  | _ =>
      ∃ q, c.streamQueues.lookup id = some q ∧
        opened i c ++ pumped i c ++ q ++ hand id receiver = inbox id c

section Steps

variable {authToken : Bytes} {d d' : Server} {i : Nat} {id : UInt32} {a : Act} {c c' : Core}

/-- A queue that exists gets the frames of its stream, in order. -/
theorem lookup_dispatchAll {fs q : List InboundFrame} (found : c.streamQueues.lookup id = some q) :
    (c.dispatchAll fs).streamQueues.lookup id = some (q ++ fs.filter (·.streamId = id)) := by
  induction fs generalizing c q with
  | nil => simpa [Core.dispatchAll] using found
  | cons f fs ih =>
      rw [Core.dispatchAll, List.foldl_cons, ← Core.dispatchAll]
      by_cases mine : f.streamId = id
      · have pushed : (c.dispatch f).streamQueues.lookup id = some (q ++ [f]) := by
          subst mine
          simp [Core.dispatch, found, Core.pushBack, Core.note]
        rw [ih pushed]
        simp [mine]
      · have same : (c.dispatch f).streamQueues.lookup id = some q := by
          rw [← found]
          exact lookup_of_extends
            (Core.extends_dispatch (w := ⟨True, (· = f.streamId), fun _ => False, False⟩) rfl)
            fun h => mine (Eq.symm h)
        rw [ih same]
        simp [mine]

/-- Without frames of the stream its queue stays as it is. -/
theorem lookup_dispatchAll_of_none {fs : List InboundFrame} (none_ : fs.filter (·.streamId = id) = []) :
    (c.dispatchAll fs).streamQueues.lookup id = c.streamQueues.lookup id := by
  refine lookup_of_extends (dispatchAll_moves fs).extends ?_
  rintro ⟨f, mem, mine⟩
  have among : f ∈ fs.filter (·.streamId = id) := List.mem_filter.mpr ⟨mem, by simpa using mine⟩
  rw [none_] at among
  exact absurd among List.not_mem_nil

theorem inbox_packet (id : UInt32) (c : Core) (bytes : Bytes) :
    inbox id { c with received := c.received ++ [bytes] } =
      inbox id c ++ (decodeInboundFrames bytes).filter (·.streamId = id) := by
  simp [inbox]

/-- The positions of a bridge whose queue is registered. -/
def BridgePc.Held : BridgePc → Prop
  | .idle | .opening .register | .returned _ => False
  | _ => True

theorem queueOk_of_held {receiver : ReceiverPc} {pc : BridgePc} (held : pc.Held) :
    QueueOk i id c receiver pc ↔ ∃ q, c.streamQueues.lookup id = some q ∧
      opened i c ++ pumped i c ++ q ++ hand id receiver = inbox id c := by
  cases pc with
  | idle | returned => exact held.elim
  | opening pc =>
      cases pc with
      | register => exact held.elim
      | _ => rfl
  | _ => rfl

/-- The queue stays as it is when the core keeps it, and history and packets stay. -/
theorem QueueOk.congr {receiver : ReceiverPc} {pc : BridgePc} (h : QueueOk i id c receiver pc)
    (queue : c'.streamQueues.lookup id = c.streamQueues.lookup id)
    (taken : ∀ o, takenBy i o c'.notes = takenBy i o c.notes) (received : c'.received = c.received) :
    QueueOk i id c' receiver pc := by
  have opened_ : opened i c' = opened i c := taken true
  have pumped_ : pumped i c' = pumped i c := taken false
  have inbox_ : inbox id c' = inbox id c := by rw [inbox, received, ← inbox]
  unfold QueueOk
  rw [opened_, pumped_, inbox_, queue]
  exact h

/-- Between two positions with a registered queue. -/
theorem QueueOk.goes {receiver : ReceiverPc} {pc pc' : BridgePc} (h : QueueOk i id c receiver pc)
    (held : pc.Held) (held' : pc'.Held) : QueueOk i id c receiver pc' :=
  (queueOk_of_held held').mpr ((queueOk_of_held held).mp h)

theorem QueueOk.receiverStep {pc : BridgePc} {r r' : ReceiverPc} {a : Client.Act}
    (m : ReceiverMove c r a r' c')
    (h : QueueOk i id c r pc) : QueueOk i id c' r' pc := by
  cases m with
  | idle before after queues notes received =>
      have none_ {r : ReceiverPc} (calm : ∀ fs, r ≠ .deliver fs) : hand id r = [] := by
        cases r with
        | deliver fs => exact absurd rfl (calm fs)
        | _ => rfl
      have same : QueueOk i id c r' pc := by
        unfold QueueOk at h ⊢
        rw [none_ before] at h
        rw [none_ after]
        exact h
      exact same.congr (by rw [queues]) (fun o => by rw [notes]) received
  | @packet bytes _ decoded =>
      have grown : hand id r' = (decodeInboundFrames bytes).filter (·.streamId = id) := by
        rcases decoded with rfl | ⟨none_, rfl⟩
        · rfl
        · rw [none_]
          rfl
      unfold QueueOk at h ⊢
      rw [inbox_packet, grown]
      split at h
      · obtain ⟨opened_, pumped_, quiet⟩ := h
        refine ⟨opened_, pumped_, fun nothing => ?_⟩
        obtain ⟨before, now⟩ := List.append_eq_nil_iff.mp nothing
        exact ⟨now, (quiet before).2⟩
      · obtain ⟨opened_, pumped_, quiet⟩ := h
        refine ⟨opened_, pumped_, fun nothing => ?_⟩
        obtain ⟨before, now⟩ := List.append_eq_nil_iff.mp nothing
        exact ⟨now, (quiet before).2⟩
      · exact h.trans (List.prefix_append _ _)
      · obtain ⟨q, found, all⟩ := h
        refine ⟨q, found, ?_⟩
        rw [← all]
        simp [hand]
  | @deliver fs =>
      have opened_ : opened i (c.dispatchAll fs) = opened i c :=
        takenBy_of_extends (dispatchAll_moves fs).extends (fun h => h) true
      have pumped_ : pumped i (c.dispatchAll fs) = pumped i c :=
        takenBy_of_extends (dispatchAll_moves fs).extends (fun h => h) false
      have inbox_ : inbox id (c.dispatchAll fs) = inbox id c := by
        rw [inbox, (packets_dispatchAll c fs).2, ← inbox]
      unfold QueueOk at h ⊢
      rw [opened_, pumped_, inbox_]
      split at h
      · refine ⟨h.1, h.2.1, fun nothing => ⟨rfl, ?_⟩⟩
        obtain ⟨none_, empty⟩ := h.2.2 nothing
        rw [lookup_dispatchAll_of_none none_]
        exact empty
      · refine ⟨h.1, h.2.1, fun nothing => ⟨rfl, ?_⟩⟩
        obtain ⟨none_, empty⟩ := h.2.2 nothing
        rw [lookup_dispatchAll_of_none none_]
        exact empty
      · exact h
      · obtain ⟨q, found, all⟩ := h
        refine ⟨_, lookup_dispatchAll found, ?_⟩
        rw [← all]
        simp [hand]

/-- The registration starts the account if nothing has arrived before it. -/
theorem QueueOk.register {r : ReceiverPc} (h : QueueOk i id c r (.opening .register))
    (nothing : inbox id c = []) : QueueOk i id (c.registerStream id) r (.opening .sendOpen) := by
  obtain ⟨opened_, pumped_, quiet⟩ := h
  obtain ⟨none_, empty⟩ := quiet nothing
  have taken (o : Bool) : takenBy i o (c.registerStream id).notes = takenBy i o c.notes := by
    unfold Core.registerStream Core.tryEmplace
    split <;> simp [takenBy, Core.note]
  have received : (c.registerStream id).received = c.received := by
    unfold Core.registerStream Core.tryEmplace
    split <;> rfl
  refine ⟨[], ?_, ?_⟩
  · unfold Core.registerStream Core.tryEmplace
    split
    · next q found =>
        cases empty q found
        exact found
    · simp [Core.note]
  · have opened' : opened i (c.registerStream id) = [] := (taken true).trans opened_
    have pumped' : pumped i (c.registerStream id) = [] := (taken false).trans pumped_
    rw [inbox, received, ← inbox, nothing, none_, opened', pumped']
    rfl

/-- A step of `openStream` on a registered queue. -/
theorem QueueOk.openMove {host token : Bytes} {port : UInt16} {r : ReceiverPc} {pc : OpenPc}
    {pc' : BridgePc} {out : OpenOut} {a : Client.Act} (m : OpenMove i id host port token c pc a out c')
    (registered : pc ≠ .register) (held : pc'.Held) (quiet : pumped i c = [])
    (h : QueueOk i id c r (.opening pc)) : QueueOk i id c' r pc' := by
  have held₀ : (BridgePc.opening pc).Held := by
    cases pc with
    | register => exact absurd rfl registered
    | _ => trivial
  have received : c'.received = c.received := received_of_moves m.moves fun h => h
  obtain ⟨pumped_, ⟨opened_, -, queues⟩ | ⟨_, _, f, rest, -, -, found, rfl⟩⟩ := openMove_taken m
  · refine (h.congr (by rw [queues registered]) (fun o => ?_) received).goes held₀ held
    cases o with
    | true => exact opened_
    | false => exact pumped_
  · obtain ⟨q, found', all⟩ := (queueOk_of_held held₀).mp h
    cases found.symm.trans found'
    refine (queueOk_of_held held).mpr ⟨rest, by simp [Core.popFront, Core.note], ?_⟩
    rw [show inbox id (c.popFront i true id f rest) = inbox id c from rfl, ← all]
    simp [takenBy_popFront, quiet]

/-- **A step of the bridge keeps the queue's account**, if nothing has arrived when it registers. -/
theorem QueueOk.bridgeStep {r : ReceiverPc} {pc pc' : BridgePc}
    (m : BridgeMove authToken i d pc a pc' d') (named : pc ≠ .idle → d.idOf i = id)
    (pump : PumpOk (opened i d.core) (pumped i d.core) (d.bridges i).written pc)
    (fresh : pc = .opening .register → inbox id d.core = [])
    (h : QueueOk i id d.core r pc) : QueueOk i id d'.core r pc' := by
  cases m with
  | request => exact h
  | @opening pc _ pc' _ move =>
      cases named (by rintro ⟨⟩)
      by_cases registers : pc = .register
      · subst registers
        cases move with
        | register => exact h.register (fresh rfl)
      · refine h.openMove move registers ?_ pump.1
        cases move with
        | register => exact absurd rfl registers
        | _ => trivial
  | opened move =>
      cases named (by rintro ⟨⟩)
      refine h.openMove move ?_ trivial pump.1
      rintro rfl
      cases move
  | openFails _ move =>
      cases named (by rintro ⟨⟩)
      refine h.openMove move ?_ trivial pump.1
      rintro rfl
      cases move
  | unregisterFailed | unregister =>
      obtain ⟨q, -, all⟩ := h
      refine (?_ : opened i _ ++ pumped i _ <+: inbox id _)
      have inbox_ : inbox id (d.core.unregisterStream (d.idOf i)) = inbox id d.core := rfl
      rw [inbox_, ← all]
      simp [takenBy, Core.unregisterStream, Core.note]
  | @took _ _ f rest found =>
      cases named (by rintro ⟨⟩)
      obtain ⟨q, found', all⟩ := h
      cases found.symm.trans found'
      refine ⟨rest, by simp [Core.popFront, Core.note], ?_⟩
      rw [show inbox _ (d.core.popFront i false _ f rest) = inbox _ d.core from rfl, ← all]
      simp [takenBy_popFront]
  | close =>
      unfold Core.sendPacket
      split
      · exact h
      · exact h
  | _ => exact h

end Steps

section Runs

variable {authToken : Bytes} {ok : State → ThreadId → Act → Prop} {s : State} {i : Nat} {id : UInt32}

/-- The bridge has this stream id if it has one. -/
def Called (i : Nat) (id : UInt32) (d : Server) : Prop := ∀ j, (d.bridges i).streamId = some j → j = id

theorem Called.before {t : ThreadId} {a : Act} {l : Local t} {d : Server}
    (m : Move authToken t s.shared (s.loc t) a l d) (steady : Steady s) (called : Called i id d) :
    Called i id s.shared :=
  fun j named => called j (m.streamId steady named)

theorem Called.idOf (called : Called i id s.shared) (steady : Steady s)
    (busy : s.loc (.bridge i) ≠ .idle) : s.shared.idOf i = id := by
  obtain ⟨j, named⟩ := (steady i).named busy
  rw [Server.idOf, named]
  exact called j named

/-- Nothing has arrived for the stream when its bridge registers it. -/
def FreshStart (i : Nat) (id : UInt32) (s : State) : Prop :=
  Lone i id s.shared → Called i id s.shared → s.loc (.bridge i) = .opening .register →
    inbox id s.shared.core = []

/-- **The queue of a lone stream hands on what arrives, in order.** -/
theorem queue_of_reach (fresh : ∀ s t a, ok s t a → FreshStart i id s)
    (h : Reach (machine authToken) ok initial s) (lone : Lone i id s.shared)
    (called : Called i id s.shared) :
    QueueOk i id s.shared.core (s.loc .receiver) (s.loc (.bridge i)) := by
  revert lone called
  refine Reach.invariant (I := fun s => Lone i id s.shared → Called i id s.shared →
    QueueOk i id s.shared.core (s.loc .receiver) (s.loc (.bridge i))) ?_ ?_ h
  · exact fun _ _ => ⟨rfl, rfl, fun _ => ⟨rfl, nofun⟩⟩
  intro s s' t a reached before allowed next lone called
  obtain ⟨l, d, m, rfl⟩ := next_move next
  have steady := steady_of_reach reached
  have lone₀ := Lone.before m steady lone
  have called₀ := Called.before m steady called
  have old := before lone₀ called₀
  by_cases bridge : t = .bridge i
  · subst bridge
    simp only [Function.update_self, Function.update_of_ne, ne_eq, reduceCtorEq, not_false_eq_true]
    exact old.bridgeStep m (called₀.idOf steady) (pump_of_reach reached i)
      (fresh _ _ _ allowed lone₀ called₀)
  · simp only [Function.update_of_ne (Ne.symm bridge)]
    by_cases receiver : t = .receiver
    · subst receiver
      simp only [Function.update_self]
      obtain ⟨b, c, -, move, rfl⟩ := m
      exact old.receiverStep move
    · simp only [Function.update_of_ne (Ne.symm receiver)]
      exact old.congr (m.lookup steady lone₀ bridge receiver) (m.taken bridge) (m.received receiver)

/-- What the bridge took is what arrived first. -/
theorem QueueOk.isPrefix {c : Core} {r : ReceiverPc} {pc : BridgePc} (h : QueueOk i id c r pc) :
    opened i c ++ pumped i c <+: inbox id c := by
  unfold QueueOk at h
  split at h
  · rw [h.1, h.2.1]
    exact List.nil_prefix
  · rw [h.1, h.2.1]
    exact List.nil_prefix
  · exact h
  · obtain ⟨q, -, all⟩ := h
    rw [← all, List.append_assoc]
    exact List.prefix_append _ _

end Runs

/-! ### What the client sends -/

/-- An OPEN and then data. -/
def Opened (ms : List DecodedMessage) : Prop :=
  ∃ q ds, ms = .opn q :: ds ∧ ∀ m ∈ ds, ∃ d, m = .data d

/-- The messages of the stream that went out, at each position of the bridge. -/
def Says (id : UInt32) (pumped : List InboundFrame) (ms : List DecodedMessage) : BridgePc → Prop
  | .idle | .opening .register | .opening .sendOpen => ms = []
  | .opening _ | .spawn => ∃ q, ms = [.opn q]
  | .failed | .returned false => ms = [] ∨ ∃ q, ms = [.opn q]
  | .unregister | .returned true | .escaped =>
      Opened ms ∨ ∃ before, ms = before ++ [.close ⟨id⟩] ∧ Opened before ∧ Unended pumped
  | _ => Opened ms

theorem Opened.concat {ms : List DecodedMessage} (h : Opened ms) (d : DataMessage) :
    Opened (ms ++ [DecodedMessage.data d]) := by
  obtain ⟨q, ds, rfl, all⟩ := h
  refine ⟨q, ds ++ [DecodedMessage.data d], rfl, ?_⟩
  intro m mem
  rcases List.mem_append.mp mem with mem | mem
  · exact all m mem
  · exact ⟨d, List.mem_singleton.mp mem⟩

theorem Opened.single (q : OpenMessage) : Opened [.opn q] := ⟨q, [], rfl, nofun⟩

theorem Opened.unclosed {ms : List DecodedMessage} (h : Opened ms) (c : CloseMessage) :
    .close c ∉ ms := by
  obtain ⟨q, ds, rfl, all⟩ := h
  intro mem
  rcases List.mem_cons.mp mem with same | mem
  · cases same
  · obtain ⟨d, same⟩ := all _ mem
    cases same

/-- At each position: nothing, an OPEN with data, or these and a CLOSE. -/
theorem Says.shape {id : UInt32} {pumped : List InboundFrame} {ms : List DecodedMessage}
    {pc : BridgePc} (h : Says id pumped ms pc) :
    ms = [] ∨ Opened ms ∨
      ∃ before, ms = before ++ [.close ⟨id⟩] ∧ Opened before ∧ Unended pumped := by
  have single (h : ∃ q, ms = [.opn q]) : Opened ms := by
    obtain ⟨q, rfl⟩ := h
    exact .single q
  unfold Says at h
  split at h
  · exact .inl h
  · exact .inl h
  · exact .inl h
  · exact .inr (.inl (single h))
  · exact .inr (.inl (single h))
  · exact h.imp_right fun h => .inl (single h)
  · exact h.imp_right fun h => .inl (single h)
  · exact .inr h
  · exact .inr h
  · exact .inr h
  · exact .inr (.inl h)

/-- A bridge that has taken an end frame sends no CLOSE. -/
theorem Says.unclosed {id : UInt32} {pumped : List InboundFrame} {ms : List DecodedMessage}
    {pc : BridgePc} (h : Says id pumped ms pc) (ended : ¬ Unended pumped) (c : CloseMessage) :
    .close c ∉ ms := by
  rcases h.shape with rfl | opened | ⟨_, _, _, unended⟩
  · exact List.not_mem_nil
  · exact opened.unclosed c
  · exact absurd unended ended

theorem up_one (id : UInt32) (sent : List Bytes) {m : DecodedMessage} (within : m.WithinLimits)
    (mine : m.streamId = id) : up id (sent ++ [encodeClient m]) = up id sent ++ [m] := by
  rw [up_append, up_single id within, if_pos mine]

/-- The bytes that went out against the bytes that the pump read, at each of its positions. -/
def Fed (ms : List DecodedMessage) (read : Bytes) : UplinkPc → Prop
  | .sending rest => payloadBytes ms ++ rest = read
  | .leaving | .exited => payloadBytes ms <+: read
  | _ => payloadBytes ms = read

theorem Fed.isPrefix {ms : List DecodedMessage} {read : Bytes} {upc : UplinkPc} (h : Fed ms read upc) :
    payloadBytes ms <+: read := by
  cases upc with
  | sending => exact h ▸ List.prefix_append _ _
  | leaving | exited => exact h
  | _ => exact h ▸ List.prefix_rfl

section Steps

variable {authToken : Bytes} {d d' : Server} {i : Nat} {id : UInt32} {a : Act} {c c' : Core}

/-- `openStream` sends its OPEN and nothing else. -/
theorem openMove_told {host token : Bytes} {port : UInt16} {pc : OpenPc} {out : OpenOut}
    {a : Client.Act} (m : OpenMove i id host port token c pc a out c') (brief : host.length ≤ 512)
    (short : token.length < 65536) (pumped : List InboundFrame) {pc' : BridgePc}
    (goes : (∃ pc₁, out = .more pc₁ ∧ pc' = .opening pc₁) ∨ (∃ code, out = .ret code) ∧
      (pc' = .failed ∨ pc' = .spawn ∧ out = .ret 0))
    (h : Says id pumped (up id c.sent) (.opening pc)) : Says id pumped (up id c'.sent) pc' := by
  rcases goes with ⟨pc₁, rfl, rfl⟩ | ⟨⟨code, rfl⟩, rfl | ⟨rfl, zero⟩⟩
  · cases m with
    | register =>
        have sent : (c.registerStream id).sent = c.sent := by
          unfold Core.registerStream Core.tryEmplace
          split <;> rfl
        rw [sent]
        exact h
    | sent =>
        refine ⟨⟨id, host, port, token⟩, ?_⟩
        have within : (DecodedMessage.opn ⟨id, host, port, token⟩).WithinLimits :=
          ⟨lt_of_le_of_lt brief (by decide), short⟩
        have nothing : up id c.sent = [] := h
        have one := up_one id c.sent within rfl
        rw [nothing] at one
        exact one
    | waits did | nothing did | took did =>
        rw [(awaitStep_did did).sent]
        exact h
    | deadline | inTime | wait | closeSeen | graceLeft | closed | ignored => exact h
  · cases m with
    | refused | sendThrows => exact .inl h
    | timedOut | graceOver | acked | rejected => exact .inr h
  · cases zero
    cases m with
    | acked => exact h

/-- **One step of a bridge keeps the order of its messages.** -/
theorem Says.bridgeStep {pc pc' : BridgePc} (m : BridgeMove authToken i d pc a pc' d')
    (named : pc ≠ .idle → d.idOf i = id) (short : authToken.length < 65536)
    (brief : (d.bridges i).targetHost.length ≤ 512)
    (pump : PumpOk (opened i d.core) (pumped i d.core) (d.bridges i).written pc)
    (h : Says id (pumped i d.core) (up id d.core.sent) pc) :
    Says id (pumped i d'.core) (up id d'.core.sent) pc' := by
  cases m with
  | request => exact h
  | opening move =>
      cases named nofun
      have told := openMove_told move brief short _ (.inl ⟨_, rfl, rfl⟩) h
      rw [← (openMove_taken move).1] at told
      exact told
  | opened move =>
      cases named nofun
      have told := openMove_told move brief short _ (.inr ⟨⟨_, rfl⟩, .inr ⟨rfl, rfl⟩⟩) h
      rw [← (openMove_taken move).1] at told
      exact told
  | openFails _ move =>
      cases named nofun
      have told := openMove_told move brief short _ (.inr ⟨⟨_, rfl⟩, .inl rfl⟩) h
      rw [← (openMove_taken move).1] at told
      exact told
  | spawn =>
      obtain ⟨q, one⟩ := h
      exact one ▸ Opened.single q
  | spawnThrows =>
      obtain ⟨q, one⟩ := h
      exact .inl (one ▸ Opened.single q)
  | @close code =>
      cases named nofun
      unfold Core.sendPacket
      split
      · have one := up_one (d.idOf i) d.core.sent (m := .close ⟨d.idOf i⟩) trivial rfl
        exact .inr ⟨_, one, h, pump.2.1⟩
      · exact .inl h
  | joinEnded | closeThrows => exact .inl h
  | unregister => simpa [Says, takenBy, Core.unregisterStream, Core.note] using h
  | unregisterFailed => exact h
  | wrote | leave => exact h
  | alive | dead | running | stopped | waits | nothing | took | data | skip | ended | wroteAll
  | writeFails | joinOpen => exact h

/-- While the pump runs, the bridge is in its loop or waits for the pump. -/
theorem Says.opened {pc : BridgePc} {upc : UplinkPc} {b : Bridge} {pumped : List InboundFrame}
    {ms : List DecodedMessage} (h : Says id pumped ms pc) (tied : Tied b pc upc)
    (running : b.uplink = .running) : Opened ms ∧ ∀ ms', Opened ms' → Says id pumped ms' pc := by
  have early : ¬ pc.Early := fun h => nomatch (tied.early h).symm.trans running
  have late : ¬ pc.Late := fun h => nomatch (tied.late h).symm.trans running
  cases pc with
  | idle | opening | failed | spawn => exact absurd trivial early
  | close | unregister => exact absurd trivial late
  | escaped => exact absurd running (tied.escaped rfl)
  | returned ok =>
      cases ok with
      | false => exact absurd trivial early
      | true => exact absurd trivial late
  | testAlive | testRunning | await | got | sendAll | leaving | join => exact ⟨h, fun _ h' => h'⟩

theorem Says.uplinkStep {pc : BridgePc} {upc upc' : UplinkPc} {pumped : List InboundFrame}
    (m : UplinkMove i d upc a upc' d') (tied : Tied (d.bridges i) pc upc)
    (named : d.idOf i = id) (h : Says id pumped (up id d.core.sent) pc) :
    Says id pumped (up id d'.core.sent) pc := by
  rcases m.sends with same | ⟨rest, -, one⟩
  · rw [same]
    exact h
  · cases named
    have within : (DecodedMessage.data ⟨d.idOf i, rest.take kDataSegmentSize⟩).WithinLimits :=
      lt_of_le_of_lt (List.length_take_le _ _) (by decide)
    obtain ⟨opened, again⟩ := h.opened tied (tied.running m)
    rw [one, up_one (d.idOf i) d.core.sent within rfl]
    exact again _ (opened.concat _)

/-- The bridge itself sends no bytes. -/
theorem Fed.bridgeStep {pc pc' : BridgePc} {upc : UplinkPc} (m : BridgeMove authToken i d pc a pc' d')
    (tied : Tied (d.bridges i) pc upc) (short : authToken.length < 65536)
    (h : Fed (up id d.core.sent) (d.bridges i).read upc) :
    Fed (up id d'.core.sent) (d'.bridges i).read upc := by
  have read : (d'.bridges i).read = (d.bridges i).read := by
    cases m with
    | request =>
        rw [tied.fresh rfl]
        simp [Server.allocate]
    | spawn | wrote | leave => simp [Server.setBridge]
    | _ => rfl
  have bytes : payloadBytes (up id d'.core.sent) = payloadBytes (up id d.core.sent) := by
    rcases m.sent short tied.short with same | ⟨msg, within, -, none_, one⟩
    · rw [same]
    · rw [one, up_append, up_single id within, payloadBytes_append]
      split
      · rw [none_, List.append_nil]
      · rw [payloadBytes_nil, List.append_nil]
  unfold Fed at h ⊢
  rw [read, bytes]
  exact h

/-- **One step of a pump sends the bytes it read, in order.** -/
theorem Fed.uplinkStep {upc upc' : UplinkPc} (m : UplinkMove i d upc a upc' d') (named : d.idOf i = id)
    (h : Fed (up id d.core.sent) (d.bridges i).read upc) :
    Fed (up id d'.core.sent) (d'.bridges i).read upc' := by
  cases m with
  | alive | running | sentAll => simpa [Fed] using h
  | dead | stopped | ended => exact h ▸ List.prefix_rfl
  | @received data =>
      simp only [Server.setBridge, Function.update_self]
      exact congrArg (· ++ data) h
  | @sent rest =>
      cases named
      have within : (DecodedMessage.data ⟨d.idOf i, rest.take kDataSegmentSize⟩).WithinLimits :=
        lt_of_le_of_lt (List.length_take_le _ _) (by decide)
      have one := up_one (d.idOf i) d.core.sent within rfl
      have all : payloadBytes (up (d.idOf i) d.core.sent) ++ rest = (d.bridges i).read := h
      have grown : payloadBytes (up (d.idOf i)
          (d.core.sendPacket (encodeDataFrame (d.idOf i) (rest.take kDataSegmentSize)) 0).sent) =
          payloadBytes (up (d.idOf i) d.core.sent) ++ rest.take kDataSegmentSize := by
        refine (congrArg payloadBytes one).trans ?_
        simp [payloadBytes]
      rw [Fed, grown, List.append_assoc, List.take_append_drop]
      exact all
  | refused | throws => exact h.isPrefix
  | leave =>
      simp only [Server.setBridge, Function.update_self]
      exact h

end Steps

section Runs

variable {authToken : Bytes} {ok : State → ThreadId → Act → Prop} {s : State} {i : Nat} {id : UInt32}

/-- **The messages of a lone stream go out in order**, and carry the bytes that the pump read. -/
theorem says_of_reach (short : authToken.length < 65536) (h : Reach (machine authToken) ok initial s)
    (lone : Lone i id s.shared) (called : Called i id s.shared) :
    Says id (pumped i s.shared.core) (up id s.shared.core.sent) (s.loc (.bridge i)) ∧
      Fed (up id s.shared.core.sent) (s.shared.bridges i).read (s.loc (.uplink i)) := by
  revert lone called
  refine Reach.invariant (I := fun s => Lone i id s.shared → Called i id s.shared →
    Says id (pumped i s.shared.core) (up id s.shared.core.sent) (s.loc (.bridge i)) ∧
      Fed (up id s.shared.core.sent) (s.shared.bridges i).read (s.loc (.uplink i))) ?_ ?_ h
  · exact fun _ _ => ⟨rfl, rfl⟩
  intro s s' t a reached before _ next lone called
  obtain ⟨l, d, m, rfl⟩ := next_move next
  have steady := steady_of_reach reached
  have lone₀ := Lone.before m steady lone
  have called₀ := Called.before m steady called
  obtain ⟨told, fed⟩ := before lone₀ called₀
  by_cases bridge : t = .bridge i
  · subst bridge
    simp only [Function.update_self, Function.update_of_ne, ne_eq, reduceCtorEq, not_false_eq_true]
    refine ⟨told.bridgeStep m (called₀.idOf steady) short (steady i).short (pump_of_reach reached i), ?_⟩
    exact fed.bridgeStep m (steady i) short
  · have pumped_ : pumped i d.core = pumped i s.shared.core := m.taken bridge false
    by_cases uplink : t = .uplink i
    · subst uplink
      simp only [Function.update_self, Function.update_of_ne, ne_eq, reduceCtorEq, not_false_eq_true]
      have named := called₀.idOf steady ((steady i).busy ((steady i).running m))
      rw [pumped_]
      exact ⟨told.uplinkStep m (steady i) named, fed.uplinkStep m named⟩
    · simp only [Function.update_of_ne (Ne.symm bridge), Function.update_of_ne (Ne.symm uplink)]
      rw [m.bridges bridge uplink, pumped_, m.up steady short lone₀ bridge uplink]
      exact ⟨told, fed⟩

end Runs

end TonTunnel.Socks
