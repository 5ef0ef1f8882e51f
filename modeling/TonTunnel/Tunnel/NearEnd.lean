import TonTunnel.Client.SocksMoves
import TonTunnel.Tunnel.Wire

/-!
One stream at the desktop client.

What the client sends for a stream is `up`, what the bridge takes from its queue
is `opened` (within `openStream`) and `pumped` (behind it), and `inbox` is what
has arrived. A stream id that no other bridge has (`Lone`) makes all of these the
business of one bridge, its pump and the receiver thread: every other thread
leaves them alone. `Steady` says how a bridge and its pump stand to each other.
-/

namespace TonTunnel.Socks

open TonTunnel Desktop Client
open Interleaving (Reach anyStep)

/-! ### One stream in the history of the client -/

/-- The messages of a stream among the packets that were sent. -/
def up (id : UInt32) (sent : List Bytes) : List DecodedMessage :=
  (sent.filterMap messageOf).filter (·.streamId = id)

@[simp] theorem up_nil (id : UInt32) : up id [] = [] := rfl

@[simp] theorem up_append (id : UInt32) (sent sent' : List Bytes) :
    up id (sent ++ sent') = up id sent ++ up id sent' := by
  simp [up]

theorem up_single (id : UInt32) {m : DecodedMessage} (within : m.WithinLimits) :
    up id [encodeClient m] = if m.streamId = id then [m] else [] := by
  by_cases same : m.streamId = id
  · simp [up, messageOf_encodeClient within, same]
  · simp [up, messageOf_encodeClient within, same]

/-- The frames that a caller took, in `openStream` or behind it. -/
def takenBy (i : Nat) (opening : Bool) (notes : List (Note UInt32 UInt32 InboundFrame)) :
    List InboundFrame :=
  notes.filterMap fun
    | .taken j o _ f => if j = i ∧ o = opening then some f else none
    | _ => none

@[simp] theorem takenBy_append (i : Nat) (o : Bool) (notes new : List (Note UInt32 UInt32 InboundFrame)) :
    takenBy i o (notes ++ new) = takenBy i o notes ++ takenBy i o new := List.filterMap_append

theorem takenBy_of_callers {i : Nat} {new : List (Note UInt32 UInt32 InboundFrame)}
    (others : ∀ n ∈ new, n.caller ≠ some i) (o : Bool) : takenBy i o new = [] := by
  rw [takenBy, List.filterMap_eq_nil_iff]
  intro n mem
  cases n with
  | taken j o' q f =>
      have other : j ≠ i := fun same => others _ mem (by rw [same]; rfl)
      simp [other]
  | _ => rfl

/-- The frames that the bridge took in `openStream`. -/
abbrev opened (i : Nat) (c : Core) : List InboundFrame := takenBy i true c.notes

/-- The frames that the bridge took in its loop. -/
abbrev pumped (i : Nat) (c : Core) : List InboundFrame := takenBy i false c.notes

/-- The frames of the stream in the packets that were received. -/
def inbox (id : UInt32) (c : Core) : List InboundFrame :=
  (c.received.flatMap decodeInboundFrames).filter (·.streamId = id)

/-- No other bridge has the stream id. -/
def Lone (i : Nat) (id : UInt32) (d : Server) : Prop := ∀ j, (d.bridges j).streamId = some id → j = i

/-! ### A bridge and its pump -/

/-- The bridge has not started its pump. -/
def BridgePc.Early : BridgePc → Prop
  | .idle | .opening _ | .failed | .spawn | .returned false => True
  | _ => False

/-- The pump of the bridge has ended. -/
def BridgePc.Late : BridgePc → Prop
  | .close | .unregister | .returned true => True
  | _ => False

/-- A bridge and its pump: what their positions say about the variables they share. -/
structure Tied (b : Bridge) (pc : BridgePc) (upc : UplinkPc) : Prop where
  fresh : pc = .idle → b = {}
  named : pc ≠ .idle → ∃ id, b.streamId = some id
  short : b.targetHost.length ≤ 512
  early : pc.Early → b.uplink = .unstarted
  late : pc.Late → b.uplink = .exited
  asleep : b.uplink = .unstarted → upc = .testAlive ∧ b.read = []
  exited : b.uplink = .exited → upc = .exited
  escaped : pc = .escaped → b.uplink ≠ .running

section Steps

variable {authToken : Bytes} {d d' : Server} {i : Nat} {a : Act}

theorem Tied.bridgeStep {pc pc' : BridgePc} {upc : UplinkPc} (h : Tied (d.bridges i) pc upc)
    (m : BridgeMove authToken i d pc a pc' d') : Tied (d'.bridges i) pc' upc := by
  obtain ⟨fresh, named, short, early, late, asleep, exited, escaped⟩ := h
  cases m with
  | request brief =>
      have idle := fresh rfl
      have still := asleep (by rw [idle])
      simp only [Server.allocate, Function.update_self]
      exact ⟨nofun, fun _ => ⟨_, rfl⟩, brief, fun _ => rfl, False.elim, fun _ => ⟨still.1, rfl⟩, nofun,
        nofun⟩
  | opening | opened | openFails | unregisterFailed =>
      exact ⟨nofun, fun _ => named nofun, short, fun _ => early trivial, False.elim, asleep, exited,
        nofun⟩
  | spawn =>
      simp only [Server.setBridge, Function.update_self]
      exact ⟨nofun, fun _ => named nofun, short, False.elim, False.elim, nofun, nofun, nofun⟩
  | wrote | leave =>
      simp only [Server.setBridge, Function.update_self]
      exact ⟨nofun, fun _ => named nofun, short, False.elim, False.elim, asleep, exited, nofun⟩
  | joinEnded ended | joinOpen ended =>
      exact ⟨nofun, fun _ => named nofun, short, False.elim, fun _ => ended, asleep, exited, nofun⟩
  | close | unregister =>
      exact ⟨nofun, fun _ => named nofun, short, False.elim, fun _ => late trivial, asleep, exited, nofun⟩
  | spawnThrows =>
      have unstarted : (d.bridges i).uplink = .unstarted := early trivial
      refine ⟨nofun, fun _ => named nofun, short, False.elim, False.elim, asleep, exited, fun _ => ?_⟩
      rw [unstarted]
      nofun
  | closeThrows =>
      have ended : (d.bridges i).uplink = .exited := late trivial
      refine ⟨nofun, fun _ => named nofun, short, False.elim, False.elim, asleep, exited, fun _ => ?_⟩
      rw [ended]
      nofun
  | alive | dead | running | stopped | waits | nothing | took | data | skip | ended | wroteAll
  | writeFails =>
      exact ⟨nofun, fun _ => named nofun, short, False.elim, False.elim, asleep, exited, nofun⟩

/-- A pump that moves has been started and has not ended. -/
theorem Tied.running {pc : BridgePc} {upc upc' : UplinkPc} (h : Tied (d.bridges i) pc upc)
    (m : UplinkMove i d upc a upc' d') : (d.bridges i).uplink = .running := by
  cases life : (d.bridges i).uplink with
  | running => rfl
  | unstarted =>
      cases (h.asleep life).1
      cases m with
      | alive running | dead running => exact life.symm.trans running
  | exited =>
      cases h.exited life
      cases m

theorem Tied.busy {b : Bridge} {pc : BridgePc} {upc : UplinkPc} (h : Tied b pc upc)
    (running : b.uplink = .running) : pc ≠ .idle := by
  intro idle
  rw [h.fresh idle] at running
  cases running

theorem Tied.uplinkStep {pc : BridgePc} {upc upc' : UplinkPc} (h : Tied (d.bridges i) pc upc)
    (m : UplinkMove i d upc a upc' d') : Tied (d'.bridges i) pc upc' := by
  have started := h.running m
  have busy := h.busy started
  obtain ⟨fresh, named, short, early, late, asleep, exited, escaped⟩ := h
  have notEarly : ¬ pc.Early := fun h => nomatch (early h).symm.trans started
  have notLate : ¬ pc.Late := fun h => nomatch (late h).symm.trans started
  have rest (b : Bridge) (same : b.streamId = (d.bridges i).streamId)
      (host : b.targetHost = (d.bridges i).targetHost) (life : b.uplink ≠ .unstarted)
      (ended : b.uplink = .exited → upc' = .exited) : Tied b pc upc' :=
    ⟨fun idle => absurd idle busy, fun _ => same ▸ named busy, host ▸ short,
      fun h => absurd h notEarly, fun h => absurd h notLate, fun h => absurd h life, ended,
      fun h => absurd started (escaped h)⟩
  have going : (d.bridges i).uplink ≠ .unstarted := by
    rw [started]
    nofun
  have unended : (d.bridges i).uplink ≠ .exited := by
    rw [started]
    nofun
  cases m with
  | received =>
      simp only [Server.setBridge, Function.update_self]
      exact rest _ rfl rfl going fun h => absurd h unended
  | leave =>
      simp only [Server.setBridge, Function.update_self]
      exact rest _ rfl rfl nofun fun _ => rfl
  | alive | dead | running | stopped | ended | sent | sentAll | refused | throws =>
      exact rest _ rfl rfl going fun h => absurd h unended

/-- A step of any other thread leaves the variables of a bridge alone. -/
theorem Move.bridges {t : ThreadId} {l l' : Local t} (m : Move authToken t d l a l' d')
    (bridge : t ≠ .bridge i) (uplink : t ≠ .uplink i) : d'.bridges i = d.bridges i := by
  have other {j : Nat} (f : Bridge → Bridge) (ne : j ≠ i) :
      (d.setBridge j f).bridges i = d.bridges i := Function.update_of_ne (Ne.symm ne) _ _
  cases t with
  | receiver =>
      obtain ⟨b, c, -, -, rfl⟩ := m
      rfl
  | owner | clock =>
      cases m with
      | _ => rfl
  | bridge j =>
      have ne : j ≠ i := fun same => bridge (congrArg _ same)
      cases m with
      | request => exact Function.update_of_ne (Ne.symm ne) _ _
      | spawn | wrote | leave => exact other _ ne
      | _ => rfl
  | uplink j =>
      have ne : j ≠ i := fun same => uplink (congrArg _ same)
      cases m with
      | received | leave => exact other _ ne
      | _ => rfl

end Steps

/-- The variables of every bridge fit the positions of the bridge and its pump. -/
def Steady (s : State) : Prop :=
  ∀ i, Tied (s.shared.bridges i) (s.loc (.bridge i)) (s.loc (.uplink i))

theorem steady_of_reach {authToken : Bytes} {ok : State → ThreadId → Act → Prop} {s : State}
    (h : Reach (machine authToken) ok initial s) : Steady s := by
  refine Reach.invariant (I := Steady) ?_ ?_ h
  · exact fun i => ⟨fun _ => rfl, fun busy => absurd rfl busy, Nat.zero_le _, fun _ => rfl,
      False.elim, fun _ => ⟨rfl, rfl⟩, nofun, nofun⟩
  · intro s s' t a _ steady _ next i
    have before := steady i
    obtain ⟨l, d, m, rfl⟩ := next_move next
    by_cases bridge : t = .bridge i
    · subst bridge
      simp only [Function.update_self, Function.update_of_ne, ne_eq, reduceCtorEq, not_false_eq_true]
      exact before.bridgeStep m
    · by_cases uplink : t = .uplink i
      · subst uplink
        simp only [Function.update_self, Function.update_of_ne, ne_eq, reduceCtorEq,
          not_false_eq_true]
        exact before.uplinkStep m
      · simp only [Function.update_of_ne (Ne.symm bridge), Function.update_of_ne (Ne.symm uplink)]
        rw [m.bridges bridge uplink]
        exact before

/-! ### What a step leaves alone -/

section Frames

variable {w : Core.Scope} {c c' : Core} {i : Nat} {id : UInt32}

theorem takenBy_of_extends (h : Core.Extends w c c') (others : ¬ w.callers i) (o : Bool) :
    takenBy i o c'.notes = takenBy i o c.notes := by
  obtain ⟨new, notes, -, covers⟩ := h
  have none_ : takenBy i o new = [] :=
    takenBy_of_callers (fun n mem acts => others ((covers n mem).callers i acts)) o
  rw [notes, takenBy_append, none_, List.append_nil]

theorem lookup_of_extends (h : Core.Extends w c c') (other : ¬ w.ids id) :
    c'.streamQueues.lookup id = c.streamQueues.lookup id := by
  obtain ⟨new, -, run, covers⟩ := h
  refine run.frame (q := id) ?_
  intro o mem same
  obtain ⟨n, among, op⟩ := List.mem_filterMap.mp mem
  have about : n.about = o.queue := by
    cases n with
    | created | removed | put | taken =>
        cases op
        rfl
    | _ => cases op
  exact other (same ▸ about ▸ (covers n among).ids)

/-- The loop in `receiverLoop` neither sends nor receives packets. -/
theorem packets_dispatchAll (c : Core) (fs : List InboundFrame) :
    (c.dispatchAll fs).sent = c.sent ∧ (c.dispatchAll fs).received = c.received := by
  induction fs generalizing c with
  | nil => exact ⟨rfl, rfl⟩
  | cons f fs ih =>
      have one : (c.dispatch f).sent = c.sent ∧ (c.dispatch f).received = c.received := by
        unfold Core.dispatch Core.tryEmplace
        split
        · exact ⟨rfl, rfl⟩
        · split
          · split <;> exact ⟨rfl, rfl⟩
          · exact ⟨rfl, rfl⟩
      rw [Core.dispatchAll, List.foldl_cons, ← Core.dispatchAll]
      exact ⟨(ih _).1.trans one.1, (ih _).2.trans one.2⟩

theorem received_of_moves (h : c.Moves w c') (other : ¬ w.recv) : c'.received = c.received := by
  induction h with
  | none => rfl
  | more _ move ih =>
      rw [← ih]
      cases move with
      | same _ _ received => exact received
      | packet _ recv => exact absurd recv other
      | dispatch recv => exact absurd recv other
      | register =>
          unfold Core.registerStream Core.tryEmplace
          split <;> rfl
      | _ => rfl

variable {authToken : Bytes} {d d' : Server} {a : Act}

theorem BridgeMove.moves {j : Nat} {pc pc' : BridgePc} (m : BridgeMove authToken j d pc a pc' d') :
    d.core.Moves (callScope j (d.idOf j) True) d'.core := by
  have opens {P : Prop} : (callScope j (d.idOf j) P).Sub (callScope j (d.idOf j) True) :=
    ⟨fun h => h, fun _ h => h, fun _ h => h, fun _ => trivial⟩
  cases m with
  | opening move | opened move | openFails _ move => exact move.moves.mono opens
  | unregisterFailed | unregister => exact .one (.unregister rfl)
  | took found => exact .one (.pop rfl rfl found)
  | close => exact sendPacket_moves _ _
  | _ => exact .none

/-- A step of a bridge sends nothing, or one frame of its stream. -/
theorem BridgeMove.sent {j : Nat} {pc pc' : BridgePc} (m : BridgeMove authToken j d pc a pc' d')
    (token : authToken.length < 65536) (host : (d.bridges j).targetHost.length ≤ 512) :
    d'.core.sent = d.core.sent ∨ ∃ msg : DecodedMessage, msg.WithinLimits ∧ msg.streamId = d.idOf j ∧
      payloadBytes [msg] = [] ∧ d'.core.sent = d.core.sent ++ [encodeClient msg] := by
  have open_ {pc : OpenPc} {out : OpenOut} {a : Client.Act} {c : Core}
      (move : OpenMove j (d.idOf j) (d.bridges j).targetHost (d.bridges j).targetPort authToken
        d.core pc a out c) : c.sent = d.core.sent ∨ ∃ msg : DecodedMessage, msg.WithinLimits ∧
          msg.streamId = d.idOf j ∧ payloadBytes [msg] = [] ∧
          c.sent = d.core.sent ++ [encodeClient msg] := by
    rcases openMove_sent move with same | one
    · exact .inl same
    · exact .inr ⟨.opn ⟨_, _, _, _⟩, ⟨lt_of_le_of_lt host (by decide), token⟩, rfl, rfl, one⟩
  cases m with
  | opening move | opened move | openFails _ move => exact open_ move
  | @close code =>
      by_cases accepted : code = 0
      · subst accepted
        exact .inr ⟨.close ⟨_⟩, trivial, rfl, rfl, rfl⟩
      · simp [Core.sendPacket, accepted]
  | _ => exact .inl rfl

/-- A step of a pump sends nothing, or one frame of its stream. -/
theorem UplinkMove.sends {j : Nat} {pc pc' : UplinkPc} (m : UplinkMove j d pc a pc' d') :
    d'.core.sent = d.core.sent ∨ ∃ rest, pc = .sending rest ∧
      d'.core.sent = d.core.sent ++
        [encodeClient (.data ⟨d.idOf j, rest.take kDataSegmentSize⟩)] := by
  cases m with
  | @sent rest => exact .inr ⟨rest, rfl, rfl⟩
  | _ => exact .inl rfl

variable {t : ThreadId} {l l' : Local t}

/-- Only a bridge takes frames as its own. -/
theorem Move.taken (m : Move authToken t d l a l' d') (bridge : t ≠ .bridge i) (o : Bool) :
    takenBy i o d'.core.notes = takenBy i o d.core.notes := by
  cases t with
  | receiver =>
      obtain ⟨b, c, -, move, rfl⟩ := m
      cases move with
      | idle _ _ _ notes => exact congrArg _ notes
      | packet => rfl
      | deliver => exact takenBy_of_extends (dispatchAll_moves _).extends (fun h => h) o
  | owner | clock =>
      cases m with
      | running => rfl
      | core _ notes => exact congrArg _ notes
  | bridge j =>
      refine takenBy_of_extends (BridgeMove.moves m).extends ?_ o
      intro same
      exact bridge (congrArg _ (Eq.symm same))
  | uplink j =>
      cases m with
      | _ => rfl

/-- Only the receiver takes in packets. -/
theorem Move.received (m : Move authToken t d l a l' d') (receiver : t ≠ .receiver) :
    d'.core.received = d.core.received := by
  cases t with
  | receiver => exact absurd rfl receiver
  | owner | clock =>
      cases m with
      | running => rfl
      | core _ _ received => exact received
  | bridge j => exact received_of_moves (BridgeMove.moves m) fun h => h
  | uplink j =>
      cases m with
      | _ => rfl

variable {s : State} {l : Local t}

/-- A bridge that has its stream id keeps it. -/
theorem Move.streamId (m : Move authToken t s.shared (s.loc t) a l d') (steady : Steady s) {j : Nat}
    (named : (s.shared.bridges j).streamId = some id) : (d'.bridges j).streamId = some id := by
  by_cases bridge : t = .bridge j
  · subst bridge
    generalize here : s.loc (.bridge j) = pc at m
    cases m with
    | request =>
        rw [(steady j).fresh here] at named
        cases named
    | spawn | wrote | leave =>
        simp only [Server.setBridge, Function.update_self]
        exact named
    | _ => exact named
  · by_cases uplink : t = .uplink j
    · subst uplink
      generalize s.loc (.uplink j) = pc at m
      cases m with
      | received | leave =>
          simp only [Server.setBridge, Function.update_self]
          exact named
      | _ => exact named
    · rw [m.bridges bridge uplink]
      exact named

theorem Lone.before (m : Move authToken t s.shared (s.loc t) a l d') (steady : Steady s)
    (lone : Lone i id d') : Lone i id s.shared :=
  fun j named => lone j (m.streamId steady named)

/-- Another bridge that is at work has another stream id. -/
theorem Lone.idOf_ne (lone : Lone i id s.shared) (steady : Steady s) {j : Nat} (other : j ≠ i)
    (busy : s.loc (.bridge j) ≠ .idle) : s.shared.idOf j ≠ id := by
  obtain ⟨k, named⟩ := (steady j).named busy
  rintro rfl
  refine other (lone j ?_)
  rw [Server.idOf, named]
  rfl

/-- A pump at work belongs to a bridge that is. -/
theorem Steady.busy (steady : Steady s) {j : Nat} (awake : s.loc (.uplink j) ≠ .testAlive) :
    s.loc (.bridge j) ≠ .idle := by
  intro idle
  refine awake ((steady j).asleep ?_).1
  rw [(steady j).fresh idle]

/-- The queue of a lone stream is its bridge's and the receiver's. -/
theorem Move.lookup (m : Move authToken t s.shared (s.loc t) a l d') (steady : Steady s)
    (lone : Lone i id s.shared) (bridge : t ≠ .bridge i) (receiver : t ≠ .receiver) :
    d'.core.streamQueues.lookup id = s.shared.core.streamQueues.lookup id := by
  cases t with
  | receiver => exact absurd rfl receiver
  | owner | clock =>
      cases m with
      | running => rfl
      | core queues => rw [queues]
  | bridge j =>
      have other : j ≠ i := fun same => bridge (congrArg _ same)
      by_cases idle : s.loc (.bridge j) = .idle
      · rw [idle] at m
        cases m with
        | request => rfl
      · refine lookup_of_extends (BridgeMove.moves m).extends ?_
        intro same
        exact lone.idOf_ne steady other idle (Eq.symm same)
  | uplink j =>
      generalize s.loc (.uplink j) = pc at m
      cases m with
      | _ => rfl

/-- What is sent for a lone stream its bridge and its pump send. -/
theorem Move.up (m : Move authToken t s.shared (s.loc t) a l d') (steady : Steady s)
    (token : authToken.length < 65536) (lone : Lone i id s.shared) (bridge : t ≠ .bridge i)
    (uplink : t ≠ .uplink i) : up id d'.core.sent = up id s.shared.core.sent := by
  cases t with
  | receiver =>
      obtain ⟨b, c, -, move, rfl⟩ := m
      generalize s.loc .receiver = pc at move
      cases move with
      | idle _ _ _ _ _ sent => exact congrArg _ sent
      | packet => rfl
      | deliver => exact congrArg _ (packets_dispatchAll _ _).1
  | owner | clock =>
      cases m with
      | running => rfl
      | core _ _ _ sent => exact congrArg _ sent
  | bridge j =>
      have other : j ≠ i := fun same => bridge (congrArg _ same)
      rcases BridgeMove.sent m token (steady j).short with same | ⟨msg, within, named, -, one⟩
      · rw [same]
      · have busy : s.loc (.bridge j) ≠ .idle := by
          intro idle
          rw [idle] at m
          cases m with
          | request => simp [Server.allocate] at one
        have apart : msg.streamId ≠ id := named ▸ lone.idOf_ne steady other busy
        rw [one, up_append, up_single id within, if_neg apart, List.append_nil]
  | uplink j =>
      have other : j ≠ i := fun same => uplink (congrArg _ same)
      rcases UplinkMove.sends m with same | ⟨rest, here, one⟩
      · rw [same]
      · have busy := steady.busy (by rw [here]; nofun)
        have within : (DecodedMessage.data ⟨s.shared.idOf j, rest.take kDataSegmentSize⟩).WithinLimits :=
          lt_of_le_of_lt (List.length_take_le _ _) (by decide)
        have apart := lone.idOf_ne steady other busy
        rw [one, up_append, up_single id within]
        simp [DecodedMessage.streamId, apart]

/-- A step sends nothing, or one frame that fits its length fields, with at most a segment of
data. -/
theorem Move.sent (m : Move authToken t s.shared (s.loc t) a l d') (steady : Steady s)
    (token : authToken.length < 65536) :
    d'.core.sent = s.shared.core.sent ∨ ∃ msg : DecodedMessage, msg.WithinLimits ∧
      (payloadBytes [msg]).length ≤ kDataSegmentSize ∧
      d'.core.sent = s.shared.core.sent ++ [encodeClient msg] := by
  cases t with
  | receiver =>
      obtain ⟨b, c, -, move, rfl⟩ := m
      generalize s.loc .receiver = pc at move
      cases move with
      | idle _ _ _ _ _ sent => exact .inl sent
      | packet => exact .inl rfl
      | deliver => exact .inl (packets_dispatchAll _ _).1
  | owner | clock =>
      cases m with
      | running => exact .inl rfl
      | core _ _ _ sent => exact .inl sent
  | bridge j =>
      rcases BridgeMove.sent m token (steady j).short with same | ⟨msg, within, -, none_, one⟩
      · exact .inl same
      · exact .inr ⟨msg, within, by rw [none_]; exact Nat.zero_le _, one⟩
  | uplink j =>
      rcases UplinkMove.sends m with same | ⟨rest, -, one⟩
      · exact .inl same
      · refine .inr ⟨_, lt_of_le_of_lt (List.length_take_le _ _) (by decide), ?_, one⟩
        simp [payloadBytes]

end Frames

/-- The packet is one frame, with at most a segment of data. -/
def Framed (packet : Bytes) : Prop :=
  ∃ msg : DecodedMessage, msg.WithinLimits ∧ (payloadBytes [msg]).length ≤ kDataSegmentSize ∧
    packet = encodeClient msg

/-- **Every packet of the client is one frame.** -/
theorem sent_of_reach {authToken : Bytes} {ok : State → ThreadId → Act → Prop} {s : State}
    (token : authToken.length < 65536) (h : Reach (machine authToken) ok initial s) :
    ∀ p ∈ s.shared.core.sent, Framed p := by
  refine Reach.invariant (I := fun s => ∀ p ∈ s.shared.core.sent, Framed p) ?_ ?_ h
  · intro p mem
    exact absurd mem List.not_mem_nil
  intro s s' t a reached before _ next p mem
  obtain ⟨l, d, m, rfl⟩ := next_move next
  rcases m.sent (steady_of_reach reached) token with same | ⟨msg, within, short, one⟩
  · exact before p (same ▸ mem)
  · rcases List.mem_append.mp (one ▸ mem) with mem | mem
    · exact before p mem
    · exact ⟨msg, within, short, List.mem_singleton.mp mem⟩

end TonTunnel.Socks
