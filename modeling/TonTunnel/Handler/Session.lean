import TonTunnel.Handler.Handshake
import TonTunnel.Lib.Interleaving
import TonTunnel.Protocol.Desktop

/-!
One accepted connection of the desktop client's `LocalSocks5Server`: the worker
thread in `handleClient`, the uplink thread that `bridgeViaBackend` starts, and the
world around them, which moves the clock and starts or stops the server.

`core` says whether the server has a `TonClientCore` or connects itself. The calls
of the core, of the resolver and of the sockets are answered by the environment with
any result they may have. A `recv` on the client's socket takes any number of the
bytes that are there up to the length asked for, or it ends at the end of the stream,
with an error, or with the timeout of 5000 ms that `handleClient` sets; how long a
`recv` of the handshake has waited makes no difference there and is not kept.

An exception leaves the worker where the code allocates, logs, starts a thread or
calls into the core. `acceptLoop` catches it: the worker has then `escaped`. One that
leaves the uplink ends the process. `frames`, `delivered` and `log` are history.
-/

namespace TonTunnel.Handler

open Desktop (FrameType)

/-! ### The connection -/

/-- The life of the uplink thread. -/
inductive Life where
  | unstarted
  | running
  | exited
  deriving DecidableEq, Repr

/-- What `handleClient` itself sends to the client. -/
inductive Reply where
  | method
  | fail4
  | ok (v : Version)
  deriving DecidableEq, Repr

/-- The byte arrays of the source. -/
def Reply.bytes : Reply → Bytes
  | .method => [0x05, 0x00]
  | .fail4 => [0x00, 0x5B, 0, 0, 0, 0, 0, 0]
  | .ok .socks4 => [0x00, 0x5A, 0, 0, 0, 0, 0, 0]
  | .ok .socks5 => [0x05, 0x00, 0x00, 0x01, 0, 0, 0, 0, 0, 0]

/-- A socket of `connectRemoteTcp`. -/
abbrev Remote := Nat

inductive Event where
  /-- `sendAll` of a reply returned true -/
  | replied (r : Reply)
  /-- `bridgeViaBackend` was called, with these bytes still to be received -/
  | bridged (targetHost : Bytes) (targetPort : UInt16) (payload : Bytes)
  | openRet (code : Int)
  | connectRet (ok : Bool)
  /-- `closeStream` of the core returned -/
  | closeSent
  deriving DecidableEq, Repr

/-- The variables of the connection. -/
structure Session where
  /-- what the client sends and no `recv` has taken yet -/
  unread : Bytes := []
  /-- how often the client's socket was closed -/
  closes : Nat := 0
  nextRemote : Remote := 0
  remoteCloses : Remote → Nat := fun _ => 0
  alive : Bool := true
  uplink : Life := .unstarted
  running : Bool := true
  now : Nat := 0
  terminated : Bool := false
  /-- the payloads of the DATA frames that the bridge took -/
  frames : List Bytes := []
  /-- the bytes that `send` took from the bridge -/
  delivered : Bytes := []
  log : List Event := []

namespace Session

def emit (s : Session) (e : Event) : Session := { s with log := s.log ++ [e] }

/-- `gracefulCloseClient`; its `shutdown` shows to the client only. -/
def closeNow (s : Session) : Session := { s with closes := s.closes + 1 }

/-- `closesocket` of a remote socket. -/
def closeRemote (s : Session) (r : Remote) : Session :=
  { s with remoteCloses := Function.update s.remoteCloses r (s.remoteCloses r + 1) }

/-- A `recv` on the client's socket takes `n` bytes. -/
def receive (s : Session) (n : Nat) : Session := { s with unread := s.unread.drop n }

end Session

/-- The result of a `recv` on the client's socket. -/
inductive Recv where
  | data (n : Nat)
  | endOfStream
  | error
  | timeout
  deriving DecidableEq, Repr

/-- What the environment answers at a step. -/
inductive Act where
  | go
  | throw
  | recvRet (r : Recv)
  | sendRet (n : Int)
  /-- `openStream` returned -/
  | openRet (code : Int)
  /-- `awaitStreamFrame` returned -/
  | frame (f : Option (FrameType × Bytes))
  /-- `sendStreamData` returned -/
  | dataRet (code : Int)
  /-- `getaddrinfo` failed, or gave a list of this length -/
  | resolved (n : Option Nat)
  | socketRet (ok : Bool)
  | connectRet (ok : Bool)
  /-- `recv` on the remote socket -/
  | remoteRecv (data : Option Bytes)
  | running (on : Bool)
  | tick (ms : Nat)
  deriving DecidableEq, Repr

/-- `SO_RCVTIMEO`. -/
def receiveTimeoutMs : Nat := 5000

/-! ### `handleClient` -/

/-- What follows a reply. -/
inductive Then where
  | request
  | close
  | bridge (targetHost : Bytes) (targetPort : UInt16)
  deriving DecidableEq, Repr

/-- Where `handleClient` is. In a bridge, `remote` is the socket of the direct path and `none`
with a core. -/
inductive Pc where
  | reading (st : Stage) (got : Bytes)
  | accepted (v : Version) (targetHost : Bytes) (targetPort : UInt16)
  /-- in `sendAll` of a reply, with the bytes from `sent` on -/
  | replying (r : Reply) (rest : Bytes) (k : Then)
  /-- before a `closeNow` that ends the handshake -/
  | closing (logs : Bool)
  | bridge (targetHost : Bytes) (targetPort : UInt16)
  | opening (targetHost : Bytes) (targetPort : UInt16)
  | openFailed
  | opened
  | resolving (targetHost : Bytes) (targetPort : UInt16)
  /-- the loop of `connectRemoteTcp`, with this many addresses left -/
  | addresses (left : Nat)
  | connecting (r : Remote) (left : Nat)
  | spawn (remote : Option Remote)
  | testAlive (remote : Option Remote)
  | testRunning (remote : Option Remote)
  | await
  | recvRemote (r : Remote)
  | sendAll (remote : Option Remote) (rest : Bytes)
  /-- behind the loop -/
  | leaving (remote : Option Remote) (remoteEnded : Bool)
  | closeRemote (r : Remote)
  | closeNow (remote : Option Remote) (remoteEnded : Bool)
  | join (remote : Option Remote) (remoteEnded : Bool)
  | closeStream
  | unregister
  | returned
  | escaped
  deriving DecidableEq, Repr

/-- From the end of one field to the next point where something happens. -/
def goOn : Next → Pc
  | .read st => .reading st []
  | .methodReply => .replying .method Reply.method.bytes .request
  | .refuse4 => .replying .fail4 Reply.fail4.bytes .close
  | .drop logs => .closing logs
  | .connect v targetHost targetPort => .accepted v targetHost targetPort

/-- A reply was sent. -/
def replySent (s : Session) : Then → Pc × Session
  | .request => (.reading .reqHead [], s)
  | .close => (.closing false, s)
  | .bridge targetHost targetPort =>
      (.bridge targetHost targetPort, s.emit (.bridged targetHost targetPort s.unread))

/-- One step of the worker. -/
def workerStep (ntop6 : Bytes → Option Bytes) (core : Bool) (pc : Pc) (s : Session) (a : Act) :
    Option (Pc × Session) :=
  match pc, a with
  | .reading st got, .recvRet (.data n) =>
      if 0 < n ∧ got.length + n ≤ st.want ∧ n ≤ s.unread.length then
        let got' := got ++ s.unread.take n
        some (if got'.length = st.want then goOn (after ntop6 st got') else .reading st got',
          s.receive n)
      else none
  | .reading st _, .recvRet _ => some (.closing st.logs, s)
  | .reading st [], .throw => if st.allocates then some (.escaped, s) else none
  | .accepted v targetHost targetPort, .go =>
      some (.replying (.ok v) (Reply.ok v).bytes (.bridge targetHost targetPort), s)
  | .accepted .socks4 _ _, .throw => some (.escaped, s)
  | .replying r [] k, .go => some (replySent (s.emit (.replied r)) k)
  | .replying r (b :: rest) k, .sendRet n =>
      if n > (b :: rest).length then none
      else if n ≤ 0 then some (.closing false, s)
      else some (.replying r ((b :: rest).drop n.toNat) k, s)
  | .closing _, .go => some (.returned, s.closeNow)
  | .closing true, .throw => some (.escaped, s)
  | .bridge targetHost targetPort, .go =>
      some (if core then .opening targetHost targetPort else .resolving targetHost targetPort, s)
  | .bridge _ _, .throw => some (.escaped, s)
  -- with a core
  | .opening _ _, .openRet code =>
      some (if code = 0 then .opened else .openFailed, s.emit (.openRet code))
  | .opening _ _, .throw => some (.escaped, s)
  | .openFailed, .go => some (.returned, s)
  | .openFailed, .throw => some (.escaped, s)
  | .opened, .go => some (.spawn none, s)
  | .opened, .throw => some (.escaped, s)
  -- without one
  | .resolving _ _, .resolved none => some (.returned, s.emit (.connectRet false))
  | .resolving _ _, .resolved (some n) => some (.addresses n, s)
  | .addresses 0, .go => some (.returned, s.emit (.connectRet false))
  | .addresses (left + 1), .socketRet false => some (.addresses left, s)
  | .addresses (left + 1), .socketRet true =>
      some (.connecting s.nextRemote left, { s with nextRemote := s.nextRemote + 1 })
  | .connecting r _, .connectRet true => some (.spawn (some r), s.emit (.connectRet true))
  | .connecting r left, .connectRet false => some (.addresses left, s.closeRemote r)
  -- the bridge
  | .spawn remote, .go => some (.testAlive remote, { s with uplink := .running })
  | .spawn _, .throw => some (.escaped, s)
  | .testAlive remote, .go => some (if s.alive then .testRunning remote else .leaving remote false, s)
  | .testRunning remote, .go =>
      if s.running then
        match remote with
        | none => some (.await, s)
        | some r => some (.recvRemote r, s)
      else some (.leaving remote false, s)
  | .await, .frame none => some (.testAlive none, s)
  | .await, .frame (some (type, payload)) =>
      match type with
      | .data =>
          some (if payload.isEmpty then .testAlive none else .sendAll none payload,
            { s with frames := s.frames ++ [payload] })
      | .close | .error => some (.leaving none true, s)
      | .opn | .unknown => some (.testAlive none, s)
  | .recvRemote r, .remoteRecv none => some (.leaving (some r) false, s)
  | .recvRemote r, .remoteRecv (some data) =>
      if data.isEmpty ∨ data.length > 16 * 1024 then none else some (.sendAll (some r) data, s)
  | .sendAll remote [], .go => some (.testAlive remote, s)
  | .sendAll remote (b :: rest), .sendRet n =>
      if n > (b :: rest).length then none
      else if n ≤ 0 then some (.leaving remote false, s)
      else some (.sendAll remote ((b :: rest).drop n.toNat),
        { s with delivered := s.delivered ++ (b :: rest).take n.toNat })
  | .leaving remote remoteEnded, .go =>
      some (match remote with
        | none => .closeNow none remoteEnded
        | some r => .closeRemote r, { s with alive := false })
  | .closeRemote r, .go => some (.closeNow (some r) false, s.closeRemote r)
  | .closeNow remote remoteEnded, .go => some (.join remote remoteEnded, s.closeNow)
  | .join remote remoteEnded, .go =>
      if s.uplink = .exited then
        some (if remote.isSome then .returned else if remoteEnded then .unregister else .closeStream, s)
      else none
  | .closeStream, .go => some (.unregister, s.emit .closeSent)
  | .closeStream, .throw => some (.escaped, s)
  | .unregister, .go => some (.returned, s)
  | _, _ => none

/-! ### The uplink thread -/

inductive UplinkPc where
  | testAlive
  | testRunning
  /-- in `recv`, called at this time -/
  | recv (since : Nat)
  /-- in `sendStreamData` -/
  | sending (payload : Bytes)
  /-- in the loop of `send` on the remote socket, with the bytes from `sent` on -/
  | forwarding (rest : Bytes)
  /-- behind the loop -/
  | leaving
  | exited
  deriving DecidableEq, Repr

/-- One step of the uplink thread. -/
def uplinkStep (core : Bool) (pc : UplinkPc) (s : Session) (a : Act) :
    Option (UplinkPc × Session) :=
  match pc, a with
  | .testAlive, .go =>
      if s.uplink = .running then some (if s.alive then .testRunning else .leaving, s) else none
  | .testRunning, .go => some (if s.running then .recv s.now else .leaving, s)
  | .recv _, .recvRet (.data n) =>
      if 0 < n ∧ n ≤ 16 * 1024 ∧ n ≤ s.unread.length ∧ s.closes = 0 then
        some (if core then .sending (s.unread.take n) else .forwarding (s.unread.take n), s.receive n)
      else none
  | .recv since, .recvRet .timeout =>
      if since + receiveTimeoutMs ≤ s.now then some (.leaving, s) else none
  | .recv _, .recvRet _ => some (.leaving, s)
  | .sending _, .dataRet code => some (if code = 0 then .testAlive else .leaving, s)
  | .sending _, .throw => some (.exited, { s with terminated := true })
  | .forwarding [], .go => some (.testAlive, s)
  | .forwarding (b :: rest), .sendRet n =>
      if n > (b :: rest).length then none
      else if n ≤ 0 then some (.leaving, s)
      else some (.forwarding ((b :: rest).drop n.toNat), s)
  | .leaving, .go => some (.exited, { s with alive := false, uplink := .exited })
  | _, _ => none

/-! ### The machine -/

inductive ThreadId where
  | worker
  | uplink
  | world
  deriving DecidableEq, Repr

@[reducible] def Local : ThreadId → Type
  | .worker => Pc
  | .uplink => UplinkPc
  | .world => Unit

/-- The clock goes on; the server is started or stopped. -/
def worldStep (s : Session) (a : Act) : Option (Unit × Session) :=
  match a with
  | .tick ms => some ((), { s with now := s.now + ms })
  | .running on => some ((), { s with running := on })
  | _ => none

def threadStep (ntop6 : Bytes → Option Bytes) (core : Bool) :
    (t : ThreadId) → Local t → Session → Act → Option (Local t × Session)
  | .worker, pc, s, a => workerStep ntop6 core pc s a
  | .uplink, pc, s, a => uplinkStep core pc s a
  | .world, _, s, a => worldStep s a

/-- One step of a thread, as long as the process lives. -/
def step (ntop6 : Bytes → Option Bytes) (core : Bool) (t : ThreadId) (l : Local t) (s : Session)
    (a : Act) : Option (Local t × Session) :=
  if s.terminated then none else threadStep ntop6 core t l s a

/-- A connection as a machine. -/
def machine (ntop6 : Bytes → Option Bytes) (core : Bool) :
    Interleaving.Machine ThreadId Local Session Act := ⟨step ntop6 core⟩

abbrev State := Interleaving.State Local Session

def startLocal : (t : ThreadId) → Local t
  | .worker => .reading .greetingHead []
  | .uplink => .testAlive
  | .world => ()

/-- `handleClient` was entered, for a client that sends `stream`. -/
def start (stream : Bytes) : State := ⟨startLocal, { unread := stream }⟩

/-- States of all runs on `stream`. -/
abbrev Reaches (ntop6 : Bytes → Option Bytes) (core : Bool) (stream : Bytes) (s : State) : Prop :=
  Interleaving.Reach (machine ntop6 core) Interleaving.anyStep (start stream) s

end TonTunnel.Handler
