import TonTunnel.Lib.Interleaving
import TonTunnel.Protocol.Server

/-!
The threads of the desktop application from one START to the next.

`startTunnel` makes an ADNL client, a `TonClientCore` and a `LocalSocks5Server`, and
`stopCore` takes them down again, both on the thread of the window. In between run
the scheduler thread of the client, which puts what it receives into
`g_adnlInboundQueue`, the receiver thread of the core, which takes it out, the accept
thread of the server, and for every accepted connection a worker with its uplink
thread. Workers and uplinks send through `g_adnlHandle`, which nothing guards:
that the client is still there when they do follows from the order in which
`stopCore` joins the threads.

The objects of a START are known by its number. A queued packet carries the number of
the client that received it; the code has only its bytes. `arrived` and `pulled` are
history. System proxy, log and window are left out, and so is the TUN bridge, whose
thread touches none of this.
-/

namespace TonTunnel.Sessions

inductive Life where
  | unborn
  | alive
  | ended
  deriving DecidableEq, Repr

/-- The workers of all servers are numbered through. -/
inductive ThreadId where
  | ui
  | scheduler (k : Nat)
  | receiver (k : Nat)
  | acceptor (k : Nat)
  | worker (w : Nat)
  | uplink (w : Nat)
  deriving DecidableEq, Repr

/-- A `TonAdnlClientRuntime`. -/
structure Client where
  callback : Bool := false
  running : Bool := false
  deriving DecidableEq, Repr

structure Process where
  /-- number of the last START that made a client -/
  session : Nat := 0
  /-- `g_adnlHandle` -/
  handle : Option Nat := none
  /-- `g_adnlStarted` -/
  started : Bool := false
  /-- `g_adnlInboundQueue` -/
  queue : List (Nat × Bytes) := []
  /-- the clients that were made and not deleted -/
  clients : Nat → Option Client := fun _ => none
  /-- `g_core`, and `running_` of every core -/
  core : Option Nat := none
  coreRunning : Nat → Bool := fun _ => false
  /-- `g_socks5`, and `running_` and `workerThreads_` of every server -/
  socks : Option Nat := none
  socksRunning : Nat → Bool := fun _ => false
  workerThreads : Nat → List Nat := fun _ => []
  nextWorker : Nat := 0
  life : ThreadId → Life := fun _ => .unborn
  arrived : List (Nat × Bytes) := []
  /-- the core whose receiver took it, and the packet -/
  pulled : List (Nat × Nat × Bytes) := []

namespace Process

def spawn (n : Process) (t : ThreadId) : Process :=
  { n with life := Function.update n.life t .alive }

def exit (n : Process) (t : ThreadId) : Process :=
  { n with life := Function.update n.life t .ended }

/-- `join` on `t` returns. -/
def joined (n : Process) (t : ThreadId) : Bool := n.life t != .alive

def setClient (n : Process) (k : Nat) (c : Option Client) : Process :=
  { n with clients := Function.update n.clients k c }

def setCoreRunning (n : Process) (k : Nat) (b : Bool) : Process :=
  { n with coreRunning := Function.update n.coreRunning k b }

def setSocksRunning (n : Process) (k : Nat) (b : Bool) : Process :=
  { n with socksRunning := Function.update n.socksRunning k b }

def setWorkers (n : Process) (k : Nat) (ws : List Nat) : Process :=
  { n with workerThreads := Function.update n.workerThreads k ws }

/-- `onAdnlMessage`, called by client `k`. -/
def push (n : Process) (k : Nat) (bytes : Bytes) : Process :=
  { n with queue := n.queue ++ [(k, bytes)], arrived := n.arrived ++ [(k, bytes)] }

/-- The head of the queue goes to the receiver of core `k`. -/
def pop (n : Process) (k : Nat) (packet : Nat × Bytes) (rest : List (Nat × Bytes)) : Process :=
  { n with queue := rest, pulled := n.pulled ++ [(k, packet)] }

end Process

/-- What the environment answers at a step. -/
inductive Act where
  | go
  /-- START (or the automatic start), and STOP (or the end of the window) -/
  | press (start : Bool)
  /-- what is called at this step fails -/
  | fails
  /-- the ADNL stack has a message for the callback -/
  | message (bytes : Bytes)
  /-- `wait_for` ran out of time -/
  | timeout
  /-- a connection sends a packet -/
  | send
  deriving DecidableEq, Repr

/-! ### The thread of the window -/

/-- What follows `stopCore`. -/
inductive Then where
  | wait
  /-- the rest of `startTunnel` -/
  | start
  /-- the backend whose start failed goes out of scope -/
  | drop
  deriving DecidableEq, Repr

/-- Where the lines that take a client down stand: in `DirectAdnlBackend::stop`, called when
`g_core` goes, at the end of `stopCore`, or in the `stop` of a backend whose start failed. -/
inductive Release where
  | backend (next : Then)
  | own (next : Then)
  | failed
  deriving DecidableEq, Repr

/-- `g_socks5->stop(); g_socks5.reset()`. -/
inductive SocksPc where
  | stop
  | joinAcceptor
  | takeWorkers
  | joinWorkers (ws : List Nat)
  | reset
  deriving DecidableEq, Repr

/-- `g_core->stop(); g_core.reset()`. -/
inductive CorePc where
  | stop
  | joinReceiver
  | reset
  deriving DecidableEq, Repr

/-- The lines that take a client down. -/
inductive ReleasePc where
  | unset
  | clear
  | testHandle
  | stop
  | joinScheduler
  | destroy
  | forget
  deriving DecidableEq, Repr

/-- `startTunnel` behind its call of `stopCore`. -/
inductive StartPc where
  | loadConfig
  | create
  | subscribe
  | startClient
  | setStarted
  | startCore
  | startSocks
  deriving DecidableEq, Repr

inductive UiPc where
  | waiting
  | socks (pc : SocksPc) (next : Then)
  | core (pc : CorePc) (next : Then)
  | release (pc : ReleasePc) (r : Release)
  | start (pc : StartPc)
  deriving DecidableEq, Repr

/-- `none` for the line behind the last one. -/
def socksStep (pc : SocksPc) (n : Process) : Option (Option SocksPc × Process) :=
  match pc with
  | .stop =>
      match n.socks with
      | none => some (none, n)
      | some k =>
          if n.socksRunning k then some (some .joinAcceptor, n.setSocksRunning k false)
          else some (some .reset, n)
  | .joinAcceptor =>
      n.socks.bind fun k => if n.joined (.acceptor k) then some (some .takeWorkers, n) else none
  | .takeWorkers => n.socks.map fun k => (some (.joinWorkers (n.workerThreads k)), n.setWorkers k [])
  | .joinWorkers [] => some (some .reset, n)
  | .joinWorkers (w :: ws) => if n.joined (.worker w) then some (some (.joinWorkers ws), n) else none
  | .reset => some (none, { n with socks := none })

/-- What follows: another line, or the end with or without a core. The core holds the last
reference to its backend. -/
def coreStep (pc : CorePc) (next : Then) (n : Process) : Option (UiPc × Process) :=
  match pc with
  | .stop =>
      match n.core with
      | none => some (.release .unset (.own next), n)
      | some k =>
          if n.coreRunning k then some (.core .joinReceiver next, n.setCoreRunning k false)
          else some (.core .reset next, n)
  | .joinReceiver =>
      n.core.bind fun k => if n.joined (.receiver k) then some (.core .reset next, n) else none
  | .reset => some (.release .unset (.backend next), { n with core := none })

@[inherit_doc socksStep]
def releaseStep (pc : ReleasePc) (n : Process) : Option (Option ReleasePc × Process) :=
  match pc with
  | .unset => some (some .clear, { n with started := false })
  | .clear => some (some .testHandle, { n with queue := [] })
  | .testHandle => some (if n.handle.isSome then some .stop else none, n)
  -- `ton_adnl_client_stop`
  | .stop =>
      n.handle.bind fun h => (n.clients h).map fun c =>
        if c.running then (some .joinScheduler, n.setClient h (some { c with running := false }))
        else (some .destroy, n)
  | .joinScheduler =>
      n.handle.bind fun h => if n.joined (.scheduler h) then some (some .destroy, n) else none
  | .destroy => n.handle.bind fun h => (n.clients h).map fun _ => (some .forget, n.setClient h none)
  | .forget => some (none, { n with handle := none })

def Release.resume : Release → UiPc
  | .backend next => .release .unset (.own next)
  | .own .wait | .failed => .waiting
  | .own .start => .start .loadConfig
  | .own .drop => .release .unset .failed

def startStep (pc : StartPc) (n : Process) (a : Act) : Option (UiPc × Process) :=
  match pc, a with
  | .loadConfig, .go => some (.start .create, n)
  | .loadConfig, .fails => some (.waiting, n)
  -- `DirectAdnlBackend::start`
  | .create, .go =>
      let k := n.session + 1
      some (.start .subscribe, { n with session := k, handle := some k }.setClient k (some {}))
  | .create, .fails => some (.socks .stop .drop, { n with handle := none })
  | .subscribe, .go =>
      n.handle.bind fun h => (n.clients h).map fun c =>
        (.start .startClient, n.setClient h (some { c with callback := true }))
  | .startClient, .go =>
      n.handle.bind fun h => (n.clients h).map fun c =>
        (.start .setStarted, (n.setClient h (some { c with running := true })).spawn (.scheduler h))
  | .setStarted, .go => some (.start .startCore, { n with started := true })
  | .startCore, .go =>
      let k := n.session
      some (.start .startSocks, ({ n with core := some k }.setCoreRunning k true).spawn (.receiver k))
  -- `LocalSocks5Server::start`
  | .startSocks, .go =>
      let k := n.session
      some (.waiting, ({ n with socks := some k }.setSocksRunning k true).spawn (.acceptor k))
  | .startSocks, .fails =>
      some (.socks .stop .wait, { n with socks := some n.session }.setSocksRunning n.session false)
  | _, _ => none

/-- `stopCore` and `startTunnel`. -/
def uiStep (pc : UiPc) (n : Process) (a : Act) : Option (UiPc × Process) :=
  match pc, a with
  | .waiting, .press start => some (.socks .stop (if start then .start else .wait), n)
  | .socks pc next, .go =>
      (socksStep pc n).map fun p => (p.1.elim (.core .stop next) fun pc => .socks pc next, p.2)
  | .core pc next, .go => coreStep pc next n
  | .release pc r, .go =>
      (releaseStep pc n).map fun p => (p.1.elim r.resume fun pc => .release pc r, p.2)
  | .start pc, a => startStep pc n a
  | _, _ => none

/-! ### The threads of a session -/

/-- The scheduler thread of a client: the loop of `TonAdnlClientRuntime::start`. -/
inductive SchedulerPc where
  | test
  | run
  deriving DecidableEq, Repr

def schedulerStep (k : Nat) (pc : SchedulerPc) (n : Process) (a : Act) :
    Option (SchedulerPc × Process) :=
  (n.clients k).bind fun c =>
    match pc, a with
    | .test, .go => if c.running then some (.run, n) else some (.test, n.exit (.scheduler k))
    | .run, .go => some (.test, n)
    -- `emit_inbound`
    | .run, .message bytes =>
        if c.callback = false || bytes = [] then some (.run, n) else some (.run, n.push k bytes)
    | _, _ => none

/-- `TonClientCore::receiverLoop`, with `DirectAdnlBackend::receivePacket`. -/
inductive ReceiverPc where
  | test
  | receive
  deriving DecidableEq, Repr

def receiverStep (k : Nat) (pc : ReceiverPc) (n : Process) (a : Act) :
    Option (ReceiverPc × Process) :=
  match pc, a with
  | .test, .go =>
      if n.coreRunning k then some (.receive, n) else some (.test, n.exit (.receiver k))
  | .receive, .go =>
      match n.queue with
      | packet :: rest => some (.test, n.pop k packet rest)
      | [] => if n.started then none else some (.test, n)
  | .receive, .timeout => if n.queue = [] then some (.test, n) else none
  | _, _ => none

/-- `LocalSocks5Server::acceptLoop`. -/
inductive AcceptorPc where
  | test
  | accept
  /-- `accept` failed -/
  | refused
  | spawn
  | keep (w : Nat)
  deriving DecidableEq, Repr

def acceptorStep (k : Nat) (pc : AcceptorPc) (n : Process) (a : Act) :
    Option (AcceptorPc × Process) :=
  match pc, a with
  | .test, .go =>
      if n.socksRunning k then some (.accept, n) else some (.test, n.exit (.acceptor k))
  | .accept, .go => some (.spawn, n)
  | .accept, .fails => some (.refused, n)
  | .refused, .go =>
      if n.socksRunning k then some (.test, n) else some (.test, n.exit (.acceptor k))
  | .spawn, .go =>
      some (.keep n.nextWorker, { n with nextWorker := n.nextWorker + 1 }.spawn (.worker n.nextWorker))
  | .spawn, .fails => some (.test, n)
  | .keep w, .go => some (.test, n.setWorkers k (n.workerThreads k ++ [w]))
  | _, _ => none

/-- `DirectAdnlBackend::sendPacket`. -/
inductive SendPc where
  | away
  | testStarted
  | testHandle
  /-- before `g_adnlHandle` is read for the call -/
  | load
  /-- in `TonAdnlClientRuntime::send` of this client -/
  | inside (h : Nat)
  deriving DecidableEq, Repr

def sendStep (n : Process) : SendPc → Act → Option SendPc
  | .away, .send => some .testStarted
  | .testStarted, .go => some (if n.started then .testHandle else .away)
  | .testHandle, .go => some (if n.handle.isSome then .load else .away)
  -- `ton_adnl_client_send` refuses a null handle
  | .load, .go => some (match n.handle with | none => .away | some h => .inside h)
  | .inside _, .go => some .away
  | _, _ => none

/-- `LocalSocks5Server::handleClient`, as far as it sends: `openStream`, the join of the uplink
thread, and `closeStream`. -/
inductive WorkerPc where
  | opening (pc : SendPc)
  | joining
  | closing (pc : SendPc)
  deriving DecidableEq, Repr

def workerStep (w : Nat) (pc : WorkerPc) (n : Process) (a : Act) : Option (WorkerPc × Process) :=
  match pc, a with
  -- a connection that is not bridged, and the start of the uplink thread
  | .opening .away, .fails => some (.closing .away, n.exit (.worker w))
  | .opening .away, .go => some (.joining, n.spawn (.uplink w))
  | .opening pc, a => (sendStep n pc a).map fun pc => (.opening pc, n)
  | .joining, .go => if n.joined (.uplink w) then some (.closing .away, n) else none
  | .closing .away, .go => some (.closing .away, n.exit (.worker w))
  | .closing pc, a => (sendStep n pc a).map fun pc => (.closing pc, n)
  | _, _ => none

/-- The uplink thread. -/
def uplinkStep (w : Nat) (pc : SendPc) (n : Process) (a : Act) : Option (SendPc × Process) :=
  match pc, a with
  | .away, .go => some (.away, n.exit (.uplink w))
  | pc, a => (sendStep n pc a).map fun pc => (pc, n)

/-! ### The process -/

@[reducible] def Local : ThreadId → Type
  | .ui => UiPc
  | .scheduler _ => SchedulerPc
  | .receiver _ => ReceiverPc
  | .acceptor _ => AcceptorPc
  | .worker _ => WorkerPc
  | .uplink _ => SendPc

/-- A thread that was not started, or has ended, does nothing. -/
def step : (t : ThreadId) → Local t → Process → Act → Option (Local t × Process)
  | .ui, pc, n, a => uiStep pc n a
  | .scheduler k, pc, n, a =>
      if n.life (.scheduler k) = .alive then schedulerStep k pc n a else none
  | .receiver k, pc, n, a =>
      if n.life (.receiver k) = .alive then receiverStep k pc n a else none
  | .acceptor k, pc, n, a =>
      if n.life (.acceptor k) = .alive then acceptorStep k pc n a else none
  | .worker w, pc, n, a => if n.life (.worker w) = .alive then workerStep w pc n a else none
  | .uplink w, pc, n, a => if n.life (.uplink w) = .alive then uplinkStep w pc n a else none

def machine : Interleaving.Machine ThreadId Local Process Act := ⟨step⟩

abbrev State := Interleaving.State Local Process

def initialLocal : (t : ThreadId) → Local t
  | .ui => UiPc.waiting
  | .scheduler _ => SchedulerPc.test
  | .receiver _ => ReceiverPc.test
  | .acceptor _ => AcceptorPc.test
  | .worker _ => WorkerPc.opening .away
  | .uplink _ => SendPc.away

/-- The window has just been made. -/
def initial : State := ⟨initialLocal, {}⟩

/-- States of all runs. -/
abbrev Reaches (s : State) : Prop := Interleaving.Reach machine Interleaving.anyStep initial s

end TonTunnel.Sessions
