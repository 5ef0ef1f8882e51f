import TonTunnel.Egress.Ownership
import TonTunnel.Egress.Table
import TonTunnel.Protocol.Downlink

/-!
What a stream's two ends say to each other, read off the history of the egress
node.

`down` is the frames of one stream that the server's transport accepted for the
client, as the desktop client decodes them, and `heard` the messages of the
stream that `onAdnlMessage` dispatched; `pulled` is what the stream's rx thread
received from its socket and `fed` what a socket took of the payloads written to
it. `Move.records` says what one step adds to them: nothing, one frame with the
position it is sent from (`Speaks`), one message, or bytes.
-/

namespace TonTunnel

open BigEndian

/-! ### Packets of one frame -/

/-- The message that a packet with one frame of a client says. -/
def messageOf (packet : Bytes) : Option DecodedMessage :=
  match parseFrame packet 0 with
  | .ok (m, _) => some m
  | .error _ => none

theorem parseFrame_single {m : DecodedMessage} (within : m.WithinLimits) :
    parseFrame (encodeClient m) 0 = .ok (m, (encodeClient m).length) := by
  simpa using parseFrame_encode within [] []

theorem messageOf_encodeClient {m : DecodedMessage} (within : m.WithinLimits) :
    messageOf (encodeClient m) = some m := by
  rw [messageOf, parseFrame_single within]

/-- The frame of the desktop client for a frame of the server. -/
def Desktop.received (f : ServerFrame Bytes) : Desktop.InboundFrame :=
  { Desktop.inbound f with rawFrame := f.encode }

/-- A server frame alone in its packet is decoded as sent. -/
theorem Desktop.decodeInboundFrames_single {f : ServerFrame Bytes} (within : f.WithinLimits) :
    Desktop.decodeInboundFrames f.encode = [Desktop.received f] := by
  have free : SwallowFree [f] := by
    cases f with
    | ack id =>
        refine ⟨?_, trivial⟩
        rintro ⟨host, port, token, suf, -, -, empty⟩
        have short := congrArg List.length empty
        simp [length_openBody] at short
        omega
    | data | close | error => trivial
  have decoded := Desktop.decodeLoop_of_swallowFree [f] (by simpa using within) free [] []
  simpa [Desktop.decodeInboundFrames, Desktop.received] using decoded

/-- The bytes that DATA frames carry, in order. -/
def dataBytes (fs : List Desktop.InboundFrame) : Bytes :=
  fs.flatMap fun f => if f.type = .data then f.payload else []

@[simp] theorem dataBytes_nil : dataBytes [] = [] := rfl

@[simp] theorem dataBytes_append (fs gs : List Desktop.InboundFrame) :
    dataBytes (fs ++ gs) = dataBytes fs ++ dataBytes gs := List.flatMap_append

theorem dataBytes_singleton (f : Desktop.InboundFrame) :
    dataBytes [f] = if f.type = .data then f.payload else [] := by
  simp [dataBytes]

/-- The bytes that DATA messages carry, in order. -/
def payloadBytes (ms : List DecodedMessage) : Bytes :=
  ms.flatMap fun
    | .data d => d.payload
    | _ => []

@[simp] theorem payloadBytes_nil : payloadBytes [] = [] := rfl

@[simp] theorem payloadBytes_append (ms ms' : List DecodedMessage) :
    payloadBytes (ms ++ ms') = payloadBytes ms ++ payloadBytes ms' := List.flatMap_append

namespace Egress

open Desktop (InboundFrame decodeInboundFrames)

/-! ### One stream in the history -/

namespace Event

/-- A packet for the client that its transport accepted. -/
def packetTo (me : Bytes) : Event → Option Bytes
  | .sentToClient _ c frame true => if c = me then some frame else none
  | _ => none

/-- Frames of the stream, as the desktop client decodes them. -/
def down (me : Bytes) (id : UInt32) : Event → List InboundFrame
  | .sentToClient _ c frame true =>
      if c = me then (decodeInboundFrames frame).filter (·.streamId = id) else []
  | _ => []

/-- A message of the stream. -/
def heard (me : Bytes) (id : UInt32) : Event → List DecodedMessage
  | .received c m => if c = me ∧ m.streamId = id then [m] else []
  | _ => []

/-- What the rx thread of `r` received. -/
def pulled (r : Ref) : Event → Bytes
  | .tcpRecv r' _ data => if r' = r then data else []
  | _ => []

/-- What `send` took for the socket. -/
def fed (k : Sock) : Event → Bytes
  | .tcpSend k' payload sent => if k' = k then payload.take sent.toNat else []
  | _ => []

/-- The event is none of the four kinds. -/
def Aside : Event → Prop
  | .sentToClient .. | .received .. | .tcpRecv .. | .tcpSend .. => False
  | _ => True

end Event

/-- The packets for the client that its transport accepted, in order. -/
def packetsTo (me : Bytes) (log : List Event) : List Bytes := log.filterMap (Event.packetTo me)

@[inherit_doc Event.down]
def down (me : Bytes) (id : UInt32) (log : List Event) : List InboundFrame :=
  log.flatMap (Event.down me id)

@[inherit_doc Event.heard]
def heard (me : Bytes) (id : UInt32) (log : List Event) : List DecodedMessage :=
  log.flatMap (Event.heard me id)

@[inherit_doc Event.pulled]
def pulled (r : Ref) (log : List Event) : Bytes := log.flatMap (Event.pulled r)

@[inherit_doc Event.fed]
def fed (k : Sock) (log : List Event) : Bytes := log.flatMap (Event.fed k)

/-- The frames of a stream are those of the accepted packets. -/
theorem down_eq_packets (me : Bytes) (id : UInt32) (log : List Event) :
    down me id log =
      ((packetsTo me log).flatMap decodeInboundFrames).filter (·.streamId = id) := by
  induction log with
  | nil => rfl
  | cons e log ih =>
      rw [down, List.flatMap_cons, ← down, ih]
      cases e with
      | sentToClient t c frame ok =>
          cases ok with
          | false => rfl
          | true =>
              by_cases same : c = me
              · simp [Event.down, packetsTo, Event.packetTo, same]
              · simp [Event.down, packetsTo, Event.packetTo, same]
      | _ => rfl

section Views

variable (me : Bytes) (id : UInt32) (r : Ref) (k : Sock) (log es : List Event)

@[simp] theorem down_append : down me id (log ++ es) = down me id log ++ down me id es :=
  List.flatMap_append

@[simp] theorem heard_append : heard me id (log ++ es) = heard me id log ++ heard me id es :=
  List.flatMap_append

@[simp] theorem pulled_append : pulled r (log ++ es) = pulled r log ++ pulled r es :=
  List.flatMap_append

@[simp] theorem fed_append : fed k (log ++ es) = fed k log ++ fed k es := List.flatMap_append

@[simp] theorem packetsTo_append :
    packetsTo me (log ++ es) = packetsTo me log ++ packetsTo me es := List.filterMap_append

variable {es}

/-- Other events add nothing to what is read off the four kinds. -/
theorem flatMap_aside {β : Type} {view : Event → List β} (blind : ∀ e, e.Aside → view e = [])
    (aside : ∀ e ∈ es, e.Aside) : es.flatMap view = [] := by
  rw [List.flatMap_eq_nil_iff]
  exact fun e mem => blind e (aside e mem)

theorem down_aside (aside : ∀ e ∈ es, e.Aside) : down me id es = [] :=
  flatMap_aside (fun e h => by cases e <;> first | rfl | exact h.elim) aside

theorem heard_aside (aside : ∀ e ∈ es, e.Aside) : heard me id es = [] :=
  flatMap_aside (fun e h => by cases e <;> first | rfl | exact h.elim) aside

theorem pulled_aside (aside : ∀ e ∈ es, e.Aside) : pulled r es = [] :=
  flatMap_aside (fun e h => by cases e <;> first | rfl | exact h.elim) aside

theorem fed_aside (aside : ∀ e ∈ es, e.Aside) : fed k es = [] :=
  flatMap_aside (fun e h => by cases e <;> first | rfl | exact h.elim) aside

theorem heard_received (client : Bytes) (m : DecodedMessage) :
    heard me id [.received client m] = if client = me ∧ m.streamId = id then [m] else [] := by
  simp [heard, Event.heard]

/-- A frame that is sent reaches its own stream only. -/
theorem down_sent {t : ThreadId} {client : Bytes} {f : ServerFrame Bytes} {ok : Bool}
    (within : f.WithinLimits) :
    down me id [.sentToClient t client f.encode ok] =
      if ok = true ∧ client = me ∧ f.streamId = id then [Desktop.received f] else [] := by
  have named : (Desktop.received f).streamId = f.streamId := by
    cases f with
    | ack | data | close | error => rfl
  cases ok with
  | false => rfl
  | true =>
      by_cases same : client = me
      · by_cases mine : f.streamId = id
        · simp [down, Event.down, same, Desktop.decodeInboundFrames_single within, named, mine]
        · simp [down, Event.down, same, Desktop.decodeInboundFrames_single within, named, mine]
      · simp [down, Event.down, same]

end Views

/-! ### What a step adds to it -/

/-- Why `handleData` answers with an error. -/
def DataRefused (n : Node) (client : Bytes) (d : DataMessage) : DataPc → Prop
  | .check => True
  | .lookup => n.streams.lookup (keyFor client d.streamId) = none
  | .test _ => True
  | _ => False

/-- The text of the error that `handleOpen` sends from this point. -/
inductive OpenPc.Refuses : OpenPc → Bytes → Prop
  | fail (text : Bytes) : Refuses (.fail text) text
  | quota : Refuses .quota (ascii "max streams reached")
  | caught (what : Option Bytes) : Refuses (.caught what) (caughtText what)

/-- From which position a thread sends a frame to a client, and where it is afterwards. -/
inductive Speaks (n : Node) :
    (t : ThreadId) → Loc t → Act → Loc t → Bytes → ServerFrame Bytes → Bool → Prop
  | ack {ctx q r ok} :
      Speaks n .msg { pc := .opening ctx q (.ack r) } (.sent ok)
        { pc := .opening ctx q (.startThread r) } ctx.clientId (.ack q.streamId) ok
  | openError {ctx q pc text ok} (refuses : OpenPc.Refuses pc text) :
      Speaks n .msg { pc := .opening ctx q pc } (.sent ok) { pc := .parsing ctx } ctx.clientId
        (.error q.streamId text) ok
  | dataError {ctx d pc text ok} (refused : DataRefused n ctx.clientId d pc)
      (short : text.length < 65536) :
      Speaks n .msg { pc := .dataing ctx d pc } (.sent ok) { pc := .parsing ctx } ctx.clientId
        (.error d.streamId text) ok
  | reply {ctx streamId ok} :
      Speaks n .msg { pc := .closeReply ctx streamId } (.sent ok) { pc := .parsing ctx }
        ctx.clientId (.close streamId) ok
  | notify {t : ThreadId} {l l' : Loc t} {c r ok}
      (calls : activeCall t l = some ⟨c, .tear r .notify⟩)
      (calls' : activeCall t l' = some ⟨c, .tear r .testJoin⟩) :
      Speaks n t l (.sent ok) l' c.clientId (.close c.streamId) ok
  | push {r rest} :
      Speaks n (.rx r) { pc := .push rest } (.sent true)
        { pc := .push (rest.drop kMaxDataChunkBytes) } (n.heap r).clientId
        (.data (n.heap r).streamId (rest.take kMaxDataChunkBytes)) true
  | pushFails {r rest call} :
      Speaks n (.rx r) { pc := .push rest } (.sent false) { pc := .push rest, call := call }
        (n.heap r).clientId (.data (n.heap r).streamId (rest.take kMaxDataChunkBytes)) false

/-- What a step adds to the history. -/
inductive Records (n : Node) : (t : ThreadId) → Loc t → Act → Loc t → List Event → Prop
  | aside {t : ThreadId} {l : Loc t} {a : Act} {l' : Loc t} {es : List Event}
      (aside : ∀ e ∈ es, e.Aside) : Records n t l a l' es
  | speaks {t : ThreadId} {l : Loc t} {a : Act} {l' : Loc t} {client : Bytes}
      {f : ServerFrame Bytes} {ok : Bool} (speaks : Speaks n t l a l' client f ok) :
      Records n t l a l' [.sentToClient t client f.encode ok]
  | hears {ctx m len} {l' : Thread MsgPc}
      (frame : parseFrame ctx.payload ctx.offset = .ok (m, len)) :
      Records n .msg { pc := .parsing ctx } .go l' [.received ctx.clientId m]
  | feeds {ctx d r fd k sent} {l' : Thread MsgPc} (good : n.fds fd = some k) :
      Records n .msg { pc := .dataing ctx d (.send r fd) } (.sendRet sent) l'
        [.tcpSend k d.payload sent]
  | pulls {r fd k data} (good : n.fds fd = some k) :
      Records n (.rx r) { pc := .recv fd } (.recvRet (some data)) { pc := .touch data }
        [.tcpRecv r k data]

section Steps

variable {cfg : Config} {t : ThreadId} {l l' : Loc t} {n n' : Node} {a : Act}

/-- The history grew by what the step records. -/
def Adds (t : ThreadId) (l : Loc t) (a : Act) (l' : Loc t) (n n' : Node) : Prop :=
  ∃ es, n'.log = n.log ++ es ∧ Records n t l a l' es

theorem Adds.same (h : n'.log = n.log) : Adds t l a l' n n' :=
  ⟨[], by simp [h], .aside (by simp)⟩

theorem Adds.one {e : Event} (h : n'.log = n.log ++ [e]) (aside : e.Aside) : Adds t l a l' n n' := by
  refine ⟨[e], h, .aside ?_⟩
  intro e' mem
  cases List.mem_singleton.mp mem
  exact aside

theorem Adds.speaks {client : Bytes} {f : ServerFrame Bytes} {ok : Bool}
    (h : n'.log = n.log ++ [Egress.Event.sentToClient t client f.encode ok])
    (speaks : Speaks n t l a l' client f ok) : Adds t l a l' n n' :=
  ⟨_, h, .speaks speaks⟩

theorem TearMove.adds {call : Option CloseCall} {r : Ref} {p : TearPc} {out : TearOut}
    (m : TearMove t call r n p a out n')
    (calls : ∀ c, call = some c → activeCall t l = some ⟨c, .tear r p⟩)
    (calls' : ∀ c p', call = some c → out = .more p' → activeCall t l' = some ⟨c, .tear r p'⟩) :
    Adds t l a l' n n' := by
  cases m with
  | shutdown =>
      rcases n.shutdownFd_eq (n.heap r).fd with same | ⟨k, shut⟩
      · rw [same]
        exact .same rfl
      · rw [shut]
        exact .one rfl trivial
  | close => exact .same (log_closeFd n _)
  | notify is =>
      exact .speaks (f := .close _) rfl (.notify (calls _ is) (calls' _ _ is rfl))
  | _ => exact .same rfl

theorem CloseMove.adds {c : CloseCall} {pc : ClosePc} {out : CloseOut}
    (m : CloseMove t c n pc a out n') (calls : activeCall t l = some ⟨c, pc⟩)
    (calls' : ∀ pc', out = .more pc' → activeCall t l' = some ⟨c, pc'⟩) : Adds t l a l' n n' := by
  cases m with
  | absent | throws | lose => exact .same rfl
  | take found => exact .one (log_take n t c _) trivial
  | tear move =>
      refine move.adds (fun c' is => ?_) (fun c' p' is out => ?_)
      · cases is
        exact calls
      · cases is
        cases out
        exact calls' _ rfl
  | finish move =>
      refine move.adds (fun c' is => ?_) (fun c' p' is out => ?_)
      · cases is
        exact calls
      · cases out

theorem OpenMove.adds {ctx : MsgCtx} {q : OpenMessage} {pc : OpenPc} {out : OpenOut}
    {l' : Thread MsgPc} (m : OpenMove cfg ctx.clientId q n pc a out n')
    (goes : ∀ pc', out = .more pc' → l' = { pc := .opening ctx q pc' })
    (returns : out = .returned → l' = { pc := .parsing ctx }) :
    Adds .msg { pc := .opening ctx q pc } a l' n n' := by
  cases m with
  | failed =>
      cases returns rfl
      exact .speaks (f := .error _ _) rfl (.openError (.fail _))
  | quotaFull =>
      cases returns rfl
      exact .speaks (f := .error _ _) rfl (.openError .quota)
  | reported =>
      cases returns rfl
      exact .speaks (f := .error _ _) rfl (.openError (.caught _))
  | ack =>
      cases goes _ rfl
      exact .speaks (f := .ack _) rfl .ack
  | unresolved | resolved | attempt | socket | register | registerThrows => exact .one rfl trivial
  | connected =>
      rcases log_noteSelect n _ _ _ with h | h
      · exact .same h
      · exact .one h trivial
  | disconnected =>
      rcases log_noteSelect n _ _ _ with h | h
      · exact .same ((log_closeFd _ _).trans h)
      · exact .one ((log_closeFd _ _).trans h) trivial
  | _ => exact .same rfl

theorem DataMove.adds {ctx : MsgCtx} {d : DataMessage} {pc : DataPc} {out : DataOut}
    {l' : Thread MsgPc} (m : DataMove cfg ctx.clientId d n pc a out n')
    (returns : out = .returned → l' = { pc := .parsing ctx }) :
    Adds .msg { pc := .dataing ctx d pc } a l' n n' := by
  cases m with
  | tooLong =>
      cases returns rfl
      exact .speaks (f := .error _ _) rfl (.dataError trivial (by decide))
  | notFound absent =>
      cases returns rfl
      exact .speaks (f := .error _ _) rfl (.dataError absent (by decide))
  | streamClosed =>
      cases returns rfl
      exact .speaks (f := .error _ _) rfl (.dataError trivial (by decide))
  | sendFails good | sends good => exact ⟨_, rfl, .feeds good⟩
  | _ => exact .same rfl

theorem MsgMove.adds {pc : MsgPc} {l' : Thread MsgPc} (m : MsgMove cfg n pc a l' n') :
    Adds .msg { pc } a l' n n' := by
  cases m with
  | dispatchOpen frame | dispatchData frame | dispatchClose frame | dispatchError frame =>
      exact ⟨_, rfl, .hears frame⟩
  | opening move =>
      refine move.adds (fun pc' out => ?_) nofun
      cases out
      rfl
  | opened move => exact move.adds nofun fun _ => rfl
  | openEscaped move => exact move.adds nofun nofun
  | dataing move => exact move.adds nofun
  | dataCloses move => exact move.adds nofun
  | dataDone move => exact move.adds fun _ => rfl
  | closeReply => exact .speaks (f := .close _) rfl .reply
  | deliver | leave | closeReplyThrows => exact .same rfl

theorem RxMove.adds {r : Ref} {pc : RxPc} {l' : Thread RxPc} (m : RxMove r n pc a l' n') :
    Adds (.rx r) { pc } a l' n n' := by
  cases m with
  | received good => exact ⟨_, rfl, .pulls good⟩
  | push => exact .speaks (f := .data _ _) rfl .push
  | pushFails => exact .speaks (f := .data _ _) rfl .pushFails
  | _ => exact .same rfl

theorem MainMove.adds {l l' : MainPc} (m : MainMove n l a l' n') : Adds .main l a l' n n' := by
  cases m with
  | @snapshot refs =>
      refine ⟨refs.map (.taken .main none), rfl, .aside fun e mem => ?_⟩
      obtain ⟨r, _, rfl⟩ := List.mem_map.mp mem
      trivial
  | tear move | finish move => exact move.adds nofun nofun
  | _ => exact .same rfl

/-- **What a step adds to the history**, and from where. -/
theorem Move.records (m : Move cfg t n l a l' n') : Adds t l a l' n n' := by
  cases t with
  | msg =>
      cases m with
      | base move => exact move.adds
      | call move =>
          refine move.adds rfl fun pc' out => ?_
          cases out
          rfl
      | ret move => exact move.adds rfl nofun
  | idle =>
      cases m with
      | base move =>
          cases move with
          | _ => exact .same rfl
      | call move =>
          refine move.adds rfl fun pc' out => ?_
          cases out
          rfl
      | ret move => exact move.adds rfl nofun
  | main => exact MainMove.adds m
  | rx r =>
      cases m with
      | base move => exact move.adds
      | call move =>
          refine move.adds rfl fun pc' out => ?_
          cases out
          rfl
      | ret move => exact move.adds rfl nofun
  | clock =>
      obtain ⟨ms, rfl⟩ := m
      exact .same rfl

end Steps

end Egress

end TonTunnel
