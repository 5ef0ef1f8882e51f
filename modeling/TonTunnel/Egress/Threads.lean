import TonTunnel.Egress.Node
import TonTunnel.Lib.Interleaving

/-!
The threads of `EgressNode`, cut into steps at the points where another thread
can come in: a section under `mu_` is one step, so is each load of `stream->fd`,
each system call and each call of the transport. What the environment decides at
a step (the result of a system call, the order in which a hash map is walked,
whether an allocation or `std::thread` throws) is the step's `Act`.

`closeStream` is called from three kinds of threads, so a thread that may call
it carries a `Closing` beside its own program counter; the call's steps are
those of `closeStep` whoever the caller is, and its result is handed back by the
caller's `resume` function. `stop` tears streams down with the same steps,
without the notification.
-/

namespace TonTunnel.Egress

/-- How the non-blocking `connect` of `connectIPv4WithTimeout` went. -/
inductive ConnectRet where
  | fcntlFails
  | connected
  | refused
  | inProgress (sel : Int) (soError : Bool)
  deriving DecidableEq, Repr

/-- What the environment answers at a step. -/
inductive Act where
  | go
  /-- the transport accepted the frame, or did not -/
  | sent (ok : Bool)
  /-- an exception with this `what()`, or one that is no `std::exception` -/
  | throw (what : Option Bytes)
  /-- the same in the middle of a section, after its first update -/
  | throwMid (what : Option Bytes)
  | resolved (addrs : Option (List UInt32))
  | socketRet (fd : Option Int)
  | connectRet (ret : ConnectRet)
  | sendRet (sent : Int)
  | recvRet (data : Option Bytes)
  | deliver (clientId payload : Bytes)
  | order (refs : List Ref)
  | tick (ms : Nat)
  deriving DecidableEq, Repr

def kRecentlyClosedGraceMs : Int := 2000

def kMaxDataChunkBytes : Nat := 1200

/-! ### Teardown and `closeStream` -/

/-- Where a teardown of a stream stands, after the stream left `streams_`. -/
inductive TearPc where
  | flag
  | testFd
  | shutdown
  | closeFd
  | clearFd
  | notify
  | testJoin
  | join
  deriving DecidableEq, Repr

/-- A teardown goes on, or it is over; `had` is what `closeStream` returns. -/
inductive TearOut where
  | more (p : TearPc)
  | finished (had : Bool)
  deriving DecidableEq, Repr

/-- One step of a teardown of `r` by thread `t`: the second half of `closeStream`
for that call, or the body of the last loop of `stop` (`none`). -/
def tearStep (t : ThreadId) (call : Option CloseCall) (r : Ref) (p : TearPc) (n : Node)
    (a : Act) : Option (TearOut × Node) :=
  match p, a with
  | .flag, .go =>
      -- `closeStream` skips the socket if `closed` was set already, `stop` does not look
      if call.isSome && (n.heap r).closed then some (.more .testJoin, n)
      else some (.more .testFd, n.setStream r fun s => { s with closed := true })
  | .testFd, .go =>
      if (n.heap r).fd ≥ 0 then some (.more .shutdown, n)
      else some (.more (if call.isSome then .notify else .testJoin), n)
  -- after publication only the teardown itself writes `fd`, so its loads need no step of their own
  | .shutdown, .go => some (.more .closeFd, n.shutdownFd (n.heap r).fd)
  | .closeFd, .go => some (.more .clearFd, n.closeFd (n.heap r).fd)
  | .clearFd, .go =>
      some (.more (if call.isSome then .notify else .testJoin),
        n.setStream r fun s => { s with fd := -1 })
  | .notify, .sent ok =>
      call.map fun c => (.more .testJoin,
        n.sendToClient t c.clientId (encodeClose { streamId := c.streamId }) ok)
  | .notify, .throw _ => some (.finished false, n)
  | .testJoin, .go =>
      if (n.heap r).rxThread.isSome then some (.more .join, n) else some (.finished true, n)
  | .join, .go =>
      match (n.heap r).rxThread with
      | none => some (.finished false, n)
      | some t' =>
          -- `detach` on the own thread, `join` on another one
          if t' = t ∨ n.exited t' then
            some (.finished true, n.setStream r fun s => { s with rxThread := none })
          else none
  | _, _ => none

/-- Program counter of a call of `closeStream`. -/
inductive ClosePc where
  | enter
  | tear (r : Ref) (p : TearPc)
  deriving DecidableEq, Repr

/-- An active call of `closeStream`. -/
structure Closing where
  call : CloseCall
  pc : ClosePc
  deriving DecidableEq, Repr

/-- A call goes on, or it has returned. -/
inductive CloseOut where
  | more (pc : ClosePc)
  | returned (had : Bool)
  deriving DecidableEq, Repr

/-- One step of `closeStream`. -/
def closeStep (t : ThreadId) (c : CloseCall) (pc : ClosePc) (n : Node) (a : Act) :
    Option (CloseOut × Node) :=
  let key := keyFor c.clientId c.streamId
  match pc with
  | .enter =>
      match n.streams.lookup key, a with
      | none, .go => some (.returned false, n.noteClosed key)
      | some r, .go => some (.more (.tear r .flag), n.take t c r)
      | _, .throw _ => some (.returned false, n)
      -- the entry is erased when the insertion into `recently_closed_streams_ms_` throws
      | some _, .throwMid _ => some (.returned false, { n with streams := n.streams.erase key })
      | _, _ => none
  | .tear r p =>
      (tearStep t (some c) r p n a).map fun
        | (.more p', n') => (.more (.tear r p'), n')
        | (.finished had, n') => (.returned had, n')

/-! ### `handleOpen` -/

/-- Program counter of `handleOpen`. `count` is what the quota check read; `fd` and
`k` the connected descriptor and its socket. -/
inductive OpenPc where
  | check
  | fail (text : Bytes)
  | quota
  | resolve (count : UInt32)
  | connect (count : UInt32) (addrs : List UInt32) (blockedOnly : Bool)
  | socket (count : UInt32) (ip : Bytes) (rest : List UInt32)
  | connecting (count : UInt32) (ip : Bytes) (rest : List UInt32) (fd : Int) (k : Sock)
  | makeStream (fd : Int) (k : Sock)
  | register (r : Ref)
  | ack (r : Ref)
  | startThread (r : Ref)
  | assign (r : Ref)
  | caught (what : Option Bytes)
  deriving DecidableEq, Repr

/-- `handleOpen` goes on, returns, or lets an exception of its `catch` blocks out. -/
inductive OpenOut where
  | more (pc : OpenPc)
  | returned
  | escaped
  deriving DecidableEq, Repr

/-- The checks of `handleOpen` up to the quota, in their order; the text of the
error they answer with. -/
def checkOpen (cfg : Config) (client : Bytes) (q : OpenMessage) : Option Bytes :=
  if !cfg.egress.enabled then some (ascii "egress disabled")
  else if q.host.isEmpty || q.host.length > 255 then some (ascii "invalid host")
  else if !isPortAllowed cfg q.port then some (ascii "port is not allowed")
  else if isHostBlocked q.host then some (ascii "host is blocked")
  else if cfg.authRequired && !isClientAllowed cfg client q.token then some (ascii "unauthorized")
  else none

/-- What the two `catch` blocks of `handleOpen` report. -/
def caughtText : Option Bytes → Bytes
  | some what => ascii "internal: " ++ what
  | none => ascii "internal error"

/-- Whether `connectIPv4WithTimeout` returns the descriptor, after `socket()`. -/
def connectSucceeds (ip : Bytes) : ConnectRet → Bool
  | .fcntlFails => false
  | .connected => (inetPton ip).isSome
  | .refused => false
  | .inProgress sel soError => (inetPton ip).isSome && sel > 0 && !soError

/-- `FD_SET` is reached when the connection is in progress. -/
def noteSelect (n : Node) (ip : Bytes) (fd : Int) : ConnectRet → Node
  | .inProgress _ _ => if (inetPton ip).isSome then n.emit (.fdSet fd) else n
  | _ => n

/-- The wait for the connection changes nothing but the history. -/
theorem noteSelect_eq (n : Node) (ip : Bytes) (fd : Int) (ret : ConnectRet) :
    noteSelect n ip fd ret = n ∨ noteSelect n ip fd ret = n.emit (.fdSet fd) := by
  unfold noteSelect
  split
  · split
    · exact .inr rfl
    · exact .inl rfl
  · exact .inl rfl

/-- One step of `handleOpen(client, q.streamId, q.host, q.port, q.token)`. -/
def openStep (cfg : Config) (client : Bytes) (q : OpenMessage) (pc : OpenPc) (n : Node)
    (a : Act) : Option (OpenOut × Node) :=
  let sendError (text : Bytes) (ok : Bool) : Node :=
    n.sendToClient .msg client (encodeError { streamId := q.streamId, message := text }) ok
  match pc, a with
  | .check, .go =>
      match checkOpen cfg client q with
      | some text => some (.more (.fail text), n)
      | none => some (.more .quota, n)
  | .check, .throw what => some (.more (.caught what), n)
  | .fail text, .sent ok => some (.returned, sendError text ok)
  | .fail _, .throw what => some (.more (.caught what), n)
  -- the quota section; its error is sent while `mu_` is held
  | .quota, .go =>
      if n.count client ≥ cfg.maxStreams then none
      else some (.more (.resolve (n.count client)), n.touchCount client)
  | .quota, .sent ok =>
      if n.count client ≥ cfg.maxStreams then
        some (.returned, (sendError (ascii "max streams reached") ok).touchCount client)
      else none
  | .quota, .throw what => some (.more (.caught what), n)
  | .quota, .throwMid what =>
      if n.count client ≥ cfg.maxStreams then some (.more (.caught what), n.touchCount client)
      else none
  | .resolve count, .resolved addrs =>
      let n' := n.emit (.getaddrinfo (cString q.host))
      match addrs with
      | none | some [] => some (.more (.fail (ascii "DNS resolve failed")), n')
      | some (addr :: rest) => some (.more (.connect count (addr :: rest) true), n')
  | .connect _ [] blockedOnly, .go =>
      some (.more (.fail (if blockedOnly then ascii "destination blocked"
        else ascii "tcp connect failed")), n)
  | .connect count (addr :: rest) blockedOnly, .go =>
      match inetNtop addr with
      | none => some (.more (.connect count rest blockedOnly), n)
      | some ip =>
          if cfg.egress.blockPrivateIps && isAddressBlocked ip then
            some (.more (.connect count rest blockedOnly), n)
          else some (.more (.socket count ip rest), n.emit (.connect client q count ip))
  | .socket count _ rest, .socketRet none => some (.more (.connect count rest false), n)
  | .socket count ip rest, .socketRet (some fd) =>
      if fd ≥ 0 ∧ n.fds fd = none then
        some (.more (.connecting count ip rest fd n.nextSock),
          (n.openSocket fd).emit (.socket client q fd n.nextSock))
      else none
  | .connecting count ip rest fd k, .connectRet ret =>
      let n' := noteSelect n ip fd ret
      if connectSucceeds ip ret then some (.more (.makeStream fd k), n')
      else some (.more (.connect count rest false), n'.closeFd fd)
  | .makeStream fd k, .go =>
      some (.more (.register n.nextRef), n.makeStream client q.streamId fd k)
  | .makeStream _ _, .throw what => some (.more (.caught what), n)
  | .register r, .go =>
      some (.more (.ack r), n.register client (keyFor client q.streamId) r)
  | .register _, .throw what => some (.more (.caught what), n)
  -- `streams_per_client_[client]` allocates only if the entry is absent
  | .register r, .throwMid what =>
      if (n.streamsPerClient.lookup client).isNone then
        some (.more (.caught what), n.putStream (keyFor client q.streamId) r)
      else none
  | .ack r, .sent ok =>
      some (.more (.startThread r),
        n.sendToClient .msg client (encodeOpen { streamId := q.streamId }) ok)
  | .ack _, .throw what => some (.more (.caught what), n)
  | .startThread r, .go =>
      some (.more (.assign r), { n with rxLife := Function.update n.rxLife r .running })
  | .startThread _, .throw what => some (.more (.caught what), n)
  | .assign r, .go =>
      some (.returned, n.setStream r fun s => { s with rxThread := some (.rx r) })
  | .caught what, .sent ok => some (.returned, sendError (caughtText what) ok)
  | .caught _, .throw _ => some (.escaped, n)
  | _, _ => none

/-! ### `handleData` -/

/-- Program counter of `handleData`. At `closing` the call of `closeStream` is active. -/
inductive DataPc where
  | check
  | lookup
  | test (r : Ref)
  | load (r : Ref)
  | send (r : Ref) (fd : Int)
  | touch (r : Ref)
  | closing (r : Ref)
  deriving DecidableEq, Repr

/-- `handleData` goes on, calls `closeStream`, or returns. -/
inductive DataOut where
  | more (pc : DataPc)
  | close (r : Ref) (call : CloseCall)
  | returned
  deriving DecidableEq, Repr

/-- Whether late DATA for the key is dropped silently. -/
def inGrace (n : Node) (key : Bytes) : Bool :=
  match n.recentlyClosedMs.lookup key with
  | none => false
  | some at_ => n.nowMs - at_ ≤ kRecentlyClosedGraceMs

/-- One step of `handleData(client, d.streamId, d.payload)`. -/
def dataStep (cfg : Config) (client : Bytes) (d : DataMessage) (pc : DataPc) (n : Node)
    (a : Act) : Option (DataOut × Node) :=
  let key := keyFor client d.streamId
  let sendError (text : Bytes) (ok : Bool) : Node :=
    n.sendToClient .msg client (encodeError { streamId := d.streamId, message := text }) ok
  let tooLong := d.payload.length > cfg.egress.maxPayloadBytes.toNat
  match pc, a with
  | .check, .go => if tooLong then none else some (.more .lookup, n)
  | .check, .sent ok =>
      if tooLong then some (.returned, sendError (ascii "payload exceeds max_payload_bytes") ok)
      else none
  | .check, .throw _ => some (.returned, n)
  | .lookup, .go =>
      match n.streams.lookup key with
      | some r => some (.more (.test r), n)
      | none => if inGrace n key then some (.returned, n) else none
  | .lookup, .sent ok =>
      if (n.streams.lookup key).isNone && !inGrace n key then
        some (.returned, sendError (ascii "stream not found") ok)
      else none
  | .lookup, .throw _ => some (.returned, n)
  -- `closed` is set before `fd` is cleared, so reading both at once loses no behaviour
  | .test r, .go =>
      if (n.heap r).fd < 0 || (n.heap r).closed then none
      else if d.payload.isEmpty then some (.returned, n)
      else some (.more (.load r), n)
  | .test r, .sent ok =>
      if (n.heap r).fd < 0 || (n.heap r).closed then
        some (.returned, sendError (ascii "stream closed") ok)
      else none
  | .test _, .throw _ => some (.returned, n)
  | .load r, .go => some (.more (.send r (n.heap r).fd), n)
  | .send r fd, .sendRet sent =>
      match n.fds fd with
      | none =>
          -- `EBADF`
          if sent ≤ 0 then
            some (.close r ⟨client, d.streamId, .tcpWriteFailed, some r⟩, n)
          else none
      | some k =>
          let n' := n.emit (.tcpSend k d.payload sent)
          if sent > d.payload.length then none
          else if sent ≤ 0 then
            some (.close r ⟨client, d.streamId, .tcpWriteFailed, some r⟩, n')
          else some (.more (.touch r), n')
  | .touch r, .go => some (.returned, n.touch r)
  | _, _ => none

/-! ### The message thread -/

/-- The payload being handled; `offset` already stands after the frame at hand. -/
structure MsgCtx where
  clientId : Bytes
  payload : Bytes
  offset : Nat
  deriving DecidableEq, Repr

/-- Program counter of the message thread: between messages, in the frame loop of
`onAdnlMessage`, or in one of the three handlers. -/
inductive MsgPc where
  | waiting
  | parsing (ctx : MsgCtx)
  | opening (ctx : MsgCtx) (q : OpenMessage) (pc : OpenPc)
  | dataing (ctx : MsgCtx) (d : DataMessage) (pc : DataPc)
  | closing (ctx : MsgCtx) (streamId : UInt32)
  | closeReply (ctx : MsgCtx) (streamId : UInt32)
  deriving DecidableEq, Repr

/-- A thread that may have a call of `closeStream` active. -/
structure Thread (Pc : Type) where
  pc : Pc
  call : Option Closing := none
  deriving DecidableEq, Repr

/-- A caller of `closeStream`, after the call returned `had`. -/
def MsgPc.resume (had : Bool) : MsgPc → MsgPc
  | .dataing ctx _ (.closing _) => .parsing ctx
  | .closing ctx streamId => if had then .parsing ctx else .closeReply ctx streamId
  | pc => pc

/-- One step of the message thread outside `closeStream`. -/
def msgStep (cfg : Config) (pc : MsgPc) (n : Node) (a : Act) : Option (Thread MsgPc × Node) :=
  match pc with
  | .waiting =>
      match a with
      | .deliver client payload =>
          if n.transportUp then some ({ pc := .parsing ⟨client, payload, 0⟩ }, n) else none
      | _ => none
  | .parsing ctx =>
      match a with
      | .go =>
          if ctx.offset < ctx.payload.length then
            match parseFrame ctx.payload ctx.offset with
            | .error _ => some ({ pc := .waiting }, n)
            | .ok (msg, frameLen) =>
                let ctx' := { ctx with offset := ctx.offset + frameLen }
                let n' := n.emit (.received ctx.clientId msg)
                match msg with
                | .opn q => some ({ pc := .opening ctx' q .check }, n')
                | .data d => some ({ pc := .dataing ctx' d .check }, n')
                | .close c =>
                    some ({ pc := .closing ctx' c.streamId,
                            call := some ⟨⟨ctx.clientId, c.streamId, .clientClose, none⟩,
                              .enter⟩ }, n')
                | .error _ => some ({ pc := .parsing ctx' }, n')
          else some ({ pc := .waiting }, n)
      -- the `catch` blocks of `onAdnlMessage`
      | .throw _ => some ({ pc := .waiting }, n)
      | _ => none
  | .opening ctx q opc =>
      (openStep cfg ctx.clientId q opc n a).map fun
        | (.more opc', n') => ({ pc := .opening ctx q opc' }, n')
        | (.returned, n') => ({ pc := .parsing ctx }, n')
        | (.escaped, n') => ({ pc := .waiting }, n')
  | .dataing ctx d dpc =>
      (dataStep cfg ctx.clientId d dpc n a).map fun
        | (.more dpc', n') => ({ pc := .dataing ctx d dpc' }, n')
        | (.close r call, n') => ({ pc := .dataing ctx d (.closing r), call := some ⟨call, .enter⟩ }, n')
        | (.returned, n') => ({ pc := .parsing ctx }, n')
  | .closing _ _ => none
  | .closeReply ctx streamId =>
      match a with
      | .sent ok =>
          some ({ pc := .parsing ctx },
            n.sendToClient .msg ctx.clientId (encodeClose { streamId := streamId }) ok)
      | .throw _ => some ({ pc := .parsing ctx }, n)
      | _ => none

/-! ### The rx threads -/

/-- Program counter of the lambda that `handleOpen` starts. -/
inductive RxPc where
  | loop
  | loadFd
  | recv (fd : Int)
  | touch (data : Bytes)
  | push (rest : Bytes)
  | leaving
  | exited
  deriving DecidableEq, Repr

/-- After `closeStream` the lambda breaks out of its loop. -/
def RxPc.resume (_had : Bool) (_ : RxPc) : RxPc := .leaving

/-- The call of `closeStream` that the rx thread of `r` makes. -/
def rxClose (n : Node) (r : Ref) (reason : CloseReason) : Option Closing :=
  some ⟨⟨(n.heap r).clientId, (n.heap r).streamId, reason, some r⟩, .enter⟩

/-- One step of the rx thread of `r` outside `closeStream`. -/
def rxStep (r : Ref) (pc : RxPc) (n : Node) (a : Act) : Option (Thread RxPc × Node) :=
  match pc, a with
  | .loop, .go =>
      if n.rxLife r ≠ .running then none
      else if (n.heap r).closed then some ({ pc := .leaving }, n)
      else some ({ pc := .loadFd }, n)
  | .loadFd, .go => some ({ pc := .recv (n.heap r).fd }, n)
  | .recv fd, .recvRet data =>
      match n.fds fd, data with
      -- `EBADF`, an error or the end of the stream
      | _, none => some ({ pc := .recv fd, call := rxClose n r .remoteClosed }, n)
      | none, some _ => none
      | some k, some data =>
          if data.isEmpty ∨ data.length > 16 * 1024 then none
          else some ({ pc := .touch data }, n.emit (.tcpRecv r k data))
  | .touch data, .go => some ({ pc := .push data }, n.touch r)
  | .push [], .go => some ({ pc := .loop }, n)
  | .push (b :: rest), .sent ok =>
      let chunk := (b :: rest).take kMaxDataChunkBytes
      let s := n.heap r
      let n' := n.sendToClient (.rx r) s.clientId
        (encodeData { streamId := s.streamId, payload := chunk }) ok
      if ok then some ({ pc := .push ((b :: rest).drop kMaxDataChunkBytes) }, n')
      else some ({ pc := .push (b :: rest), call := rxClose n r .pushFailed }, n')
  | .push (b :: rest), .throw what =>
      some ({ pc := .push (b :: rest),
              call := rxClose n r (if what.isSome then .rxException else .rxUnknownException) }, n)
  | .leaving, .go =>
      some ({ pc := .exited }, { n with rxLife := Function.update n.rxLife r .exited })
  | _, _ => none

/-! ### The idle monitor -/

/-- An entry of the `stale` vector; `found` is the stream the scan looked at. -/
structure Stale where
  clientId : Bytes
  streamId : UInt32
  found : Ref
  deriving DecidableEq, Repr

/-- Program counter of `monitorIdleTimeoutLoop`. -/
inductive IdlePc where
  | loop
  | sleeping
  | scan (now : Int)
  | closing (stale : List Stale)
  | exited
  deriving DecidableEq, Repr

/-- The loop over `stale` goes on whatever `closeStream` returned. -/
def IdlePc.resume (_had : Bool) (pc : IdlePc) : IdlePc := pc

/-- Whether the scan at time `now` puts the stream into `stale`. -/
def isStale (cfg : Config) (n : Node) (now : Int) (r : Ref) : Bool :=
  now - (n.heap r).lastActivityMs > (cfg.idleTimeoutSec.toNat : Int) * 1000

/-- The streams in `streams_`, in the order of the entry list. -/
def Node.refs (n : Node) : List Ref := n.streams.entries.map Sigma.snd

/-- One step of the idle monitor outside `closeStream`. -/
def idleStep (cfg : Config) (pc : IdlePc) (n : Node) (a : Act) :
    Option (Thread IdlePc × Node) :=
  match pc, a with
  | .loop, .go =>
      if n.running then some ({ pc := .sleeping }, n)
      else some ({ pc := .exited }, { n with idleExited := true })
  | .sleeping, .go => some ({ pc := .scan n.nowMs }, n)
  | .scan now, .order refs =>
      if refs.isPerm n.refs then
        let stale := (refs.filter (isStale cfg n now)).map fun r =>
          (⟨(n.heap r).clientId, (n.heap r).streamId, r⟩ : Stale)
        some ({ pc := .closing stale }, n.pruneClosed now kRecentlyClosedGraceMs)
      else none
  | .closing [], .go => some ({ pc := .loop }, n)
  | .closing (e :: rest), .go =>
      some ({ pc := .closing rest,
              call := some ⟨⟨e.clientId, e.streamId, .idleTimeout, some e.found⟩, .enter⟩ }, n)
  | _, _ => none

/-! ### `stop` -/

/-- Program counter of the main thread. `held` is the snapshot, which lives until
`stop` returns; the head of `todo` is being torn down. -/
inductive MainPc where
  | running
  | transportStop
  | joinIdle
  | snapshot
  | tearing (held todo : List Ref) (p : TearPc)
  | stopped
  deriving DecidableEq, Repr

/-- One step of the main thread, in `stop`. -/
def mainStep (pc : MainPc) (n : Node) (a : Act) : Option (MainPc × Node) :=
  match pc with
  | .running =>
      match a with
      | .go => some (.transportStop, { n with running := false })
      | _ => none
  | .transportStop =>
      match a with
      | .go => some (.joinIdle, { n with transportUp := false })
      | _ => none
  | .joinIdle =>
      match a with
      | .go => if n.exited .idle then some (.snapshot, n) else none
      | _ => none
  | .snapshot =>
      match a with
      | .order refs =>
          if refs.isPerm n.refs then some (.tearing refs refs .flag, n.takeAll .main refs) else none
      | _ => none
  | .tearing _ [] _ =>
      match a with
      | .go => some (.stopped, n)
      | _ => none
  | .tearing held (r :: rest) p =>
      (tearStep .main none r p n a).map fun
        | (.more p', n') => (.tearing held (r :: rest) p', n')
        | (.finished _, n') => (.tearing held rest .flag, n')
  | .stopped => none

/-! ### The system -/

/-- Local state of each thread. -/
@[reducible] def Loc : ThreadId → Type
  | .msg => Thread MsgPc
  | .idle => Thread IdlePc
  | .main => MainPc
  | .rx _ => Thread RxPc
  | .clock => Unit

/-- A thread's step: its active call of `closeStream` first, else its own code. -/
def Thread.step {Pc : Type} (t : ThreadId) (resume : Bool → Pc → Pc)
    (base : Pc → Node → Act → Option (Thread Pc × Node)) (l : Thread Pc) (n : Node) (a : Act) :
    Option (Thread Pc × Node) :=
  match l.call with
  | none => base l.pc n a
  | some ⟨c, pc⟩ =>
      (closeStep t c pc n a).map fun
        | (.more pc', n') => ({ pc := l.pc, call := some ⟨c, pc'⟩ }, n')
        | (.returned had, n') => ({ pc := resume had l.pc }, n')

/-- The steady clock goes on. -/
def clockStep (n : Node) (a : Act) : Option (Unit × Node) :=
  match a with
  | .tick ms => some ((), { n with nowMs := n.nowMs + ms })
  | _ => none

/-- One step of a thread. -/
def step (cfg : Config) : (t : ThreadId) → Loc t → Node → Act → Option (Loc t × Node)
  | .msg, l, n, a => Thread.step .msg MsgPc.resume (msgStep cfg) l n a
  | .idle, l, n, a => Thread.step .idle IdlePc.resume (idleStep cfg) l n a
  | .main, l, n, a => mainStep l n a
  | .rx r, l, n, a => Thread.step (.rx r) RxPc.resume (rxStep r) l n a
  | .clock, _, n, a => clockStep n a

/-- `EgressNode` as a machine. -/
def machine (cfg : Config) : Interleaving.Machine ThreadId Loc Node Act := ⟨step cfg⟩

/-- A state of the whole process. -/
abbrev System := Interleaving.State Loc Node

/-- The local states after `start()`. -/
def initLoc : (t : ThreadId) → Loc t
  | .msg => { pc := .waiting }
  | .idle => { pc := .loop }
  | .main => .running
  | .rx _ => { pc := .loop }
  | .clock => ()

/-- The process after `start()` returned true. -/
def init : System := ⟨initLoc, {}⟩

/-- States of the runs whose steps all satisfy `ok`. -/
abbrev ReachesBy (cfg : Config) (ok : System → ThreadId → Act → Prop) (s : System) : Prop :=
  Interleaving.Reach (machine cfg) ok init s

/-- States of all runs. -/
abbrev Reaches (cfg : Config) (s : System) : Prop := ReachesBy cfg Interleaving.anyStep s

end TonTunnel.Egress
