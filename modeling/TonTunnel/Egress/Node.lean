import Mathlib.Data.List.AList
import TonTunnel.Egress.Policy

/-!
The state that the threads of `EgressNode` share: the members of the class, the
`Stream` objects, and the part of the operating system they act on (descriptor
table, threads, clock).

A `Stream` object is known by its address `Ref` in a heap that only grows, and a
kernel socket by a `Sock` that is never used twice, while a descriptor number may
be handed out again once it is closed. The last three fields of `Node` are
history: no step reads them.
-/

namespace TonTunnel.Egress

/-- Address of a `Stream` object. -/
abbrev Ref := Nat

/-- Identity of a kernel socket, whatever descriptor names it. -/
abbrev Sock := Nat

/-- The threads of the process. `msg` is whichever transport thread holds the
mutex of `onMessageBridge`: calls of `onAdnlMessage` are serialised by it. -/
inductive ThreadId where
  | msg
  | idle
  | main
  | rx (r : Ref)
  | clock
  deriving DecidableEq, Repr

/-- `EgressNode::Stream`. An `rxThread` that holds a thread is joinable. `sock`
is the socket that `fd` was opened for. -/
structure Stream where
  clientId : Bytes := []
  streamId : UInt32 := 0
  fd : Int := -1
  closed : Bool := false
  lastActivityMs : Int := 0
  rxThread : Option ThreadId := none
  sock : Sock := 0
  deriving DecidableEq, Repr

/-- Life of a started thread. -/
inductive Life where
  | unstarted
  | running
  | exited
  deriving DecidableEq, Repr

/-- The reasons `closeStream` is called with. -/
inductive CloseReason where
  | remoteClosed
  | idleTimeout
  | clientClose
  | tcpWriteFailed
  | pushFailed
  | rxException
  | rxUnknownException
  deriving DecidableEq, Repr

/-- Arguments of a call of `closeStream`. `behalf` is the stream the caller had in
mind; the function itself is only told the client and the stream id. -/
structure CloseCall where
  clientId : Bytes
  streamId : UInt32
  reason : CloseReason
  behalf : Option Ref
  deriving DecidableEq, Repr

/-- What the process has done, for an observer of its calls. -/
inductive Event where
  /-- `onAdnlMessage` dispatched a frame of the client's payload -/
  | received (clientId : Bytes) (msg : DecodedMessage)
  /-- `sendToClient` was called, and whether the transport accepted the frame -/
  | sentToClient (thread : ThreadId) (clientId frame : Bytes) (ok : Bool)
  /-- `getaddrinfo` was called on this C string -/
  | getaddrinfo (name : Bytes)
  /-- `connectIPv4WithTimeout` was called; `count` is what the quota check read -/
  | connect (clientId : Bytes) (q : OpenMessage) (count : UInt32) (ip : Bytes)
  /-- `socket()` succeeded inside that call -/
  | socket (clientId : Bytes) (q : OpenMessage) (fd : Int) (sock : Sock)
  /-- `FD_SET` was executed on this descriptor -/
  | fdSet (fd : Int)
  | registered (r : Ref)
  /-- a stream was taken out of `streams_`: by `closeStream`, or by `stop` (`none`) -/
  | taken (thread : ThreadId) (call : Option CloseCall) (r : Ref)
  | shutdown (sock : Sock)
  | tcpSend (sock : Sock) (payload : Bytes) (sent : Int)
  | tcpRecv (r : Ref) (sock : Sock) (data : Bytes)
  deriving DecidableEq, Repr

/-- The shared state. -/
structure Node where
  running : Bool := true
  /-- whether the transport still delivers messages -/
  transportUp : Bool := true
  /-- `streams_` -/
  streams : AList (fun _ : Bytes => Ref) := ∅
  /-- `streams_per_client_` -/
  streamsPerClient : AList (fun _ : Bytes => UInt32) := ∅
  /-- `recently_closed_streams_ms_` -/
  recentlyClosedMs : AList (fun _ : Bytes => Int) := ∅
  /-- `g_active_streams` -/
  activeStreams : Int := 0
  heap : Ref → Stream := fun _ => {}
  nextRef : Ref := 0
  fds : Int → Option Sock := fun _ => none
  nextSock : Sock := 0
  nowMs : Int := 0
  idleExited : Bool := false
  rxLife : Ref → Life := fun _ => .unstarted
  /-- how often each socket was closed -/
  closes : Sock → Nat := fun _ => 0
  /-- the threads that took a stream out of `streams_` to tear it down -/
  teardowns : Ref → List ThreadId := fun _ => []
  log : List Event := []

/-- The key a stream is registered under. -/
def Stream.key (s : Stream) : Bytes := keyFor s.clientId s.streamId

/-- `streams_per_client_[client]`, absent counting as 0. -/
def Node.count (n : Node) (client : Bytes) : UInt32 :=
  (n.streamsPerClient.lookup client).getD 0

/-! ### Operations -/

namespace Node

/-- Appends to the history. -/
def emit (n : Node) (e : Event) : Node := { n with log := n.log ++ [e] }

/-- One call of `transport_->sendToClient`. -/
def sendToClient (n : Node) (t : ThreadId) (client frame : Bytes) (ok : Bool) : Node :=
  n.emit (.sentToClient t client frame ok)

/-- Writes fields of a `Stream` object. -/
def setStream (n : Node) (r : Ref) (f : Stream → Stream) : Node :=
  { n with heap := Function.update n.heap r (f (n.heap r)) }

/-- `stream->last_activity_ms.store(nowMs())`. -/
def touch (n : Node) (r : Ref) : Node :=
  n.setStream r fun s => { s with lastActivityMs := n.nowMs }

/-- `socket()` returned `fd`: a new socket under that number. -/
def openSocket (n : Node) (fd : Int) : Node :=
  { n with fds := Function.update n.fds fd (some n.nextSock), nextSock := n.nextSock + 1 }

/-- `close(fd)`. -/
def closeFd (n : Node) (fd : Int) : Node :=
  match n.fds fd with
  | none => n
  | some k =>
      { n with
        fds := Function.update n.fds fd none
        closes := Function.update n.closes k (n.closes k + 1) }

/-- `close` touches the descriptor table and its history only. -/
theorem closeFd_eq (n : Node) (fd : Int) :
    ∃ fds closes, n.closeFd fd = { n with fds := fds, closes := closes } := by
  unfold closeFd
  split
  · exact ⟨n.fds, n.closes, rfl⟩
  · exact ⟨_, _, rfl⟩

/-- `shutdown(fd, SHUT_RDWR)`. -/
def shutdownFd (n : Node) (fd : Int) : Node :=
  match n.fds fd with
  | none => n
  | some k => n.emit (.shutdown k)

/-- `shutdown` changes nothing but the history. -/
theorem shutdownFd_eq (n : Node) (fd : Int) :
    n.shutdownFd fd = n ∨ ∃ k, n.shutdownFd fd = n.emit (.shutdown k) := by
  unfold shutdownFd
  split
  · exact .inl rfl
  · exact .inr ⟨_, rfl⟩

/-- `std::make_shared<Stream>()` and the four stores after it. -/
def makeStream (n : Node) (client : Bytes) (streamId : UInt32) (fd : Int) (k : Sock) : Node :=
  { n with
    heap := Function.update n.heap n.nextRef
      { clientId := client, streamId := streamId, fd := fd, lastActivityMs := n.nowMs, sock := k }
    nextRef := n.nextRef + 1 }

/-- `streams_per_client_[client]` as an lvalue: an absent entry is created. -/
def touchCount (n : Node) (client : Bytes) : Node :=
  { n with streamsPerClient := n.streamsPerClient.insert client (n.count client) }

/-- `streams_[key] = stream`, an existing entry being overwritten. -/
def putStream (n : Node) (key : Bytes) (r : Ref) : Node :=
  ({ n with streams := n.streams.insert key r }).emit (.registered r)

/-- The section of `handleOpen` that registers a stream. -/
def register (n : Node) (client key : Bytes) (r : Ref) : Node :=
  let n := n.putStream key r
  { n with
    streamsPerClient := n.streamsPerClient.insert client (n.count client + 1)
    activeStreams := n.streams.entries.length }

/-- `recently_closed_streams_ms_[key] = nowMs()`. -/
def noteClosed (n : Node) (key : Bytes) : Node :=
  { n with recentlyClosedMs := n.recentlyClosedMs.insert key n.nowMs }

/-- `countIt->second -= 1` where the client has a positive count. -/
def dropCount (n : Node) (client : Bytes) : Node :=
  match n.streamsPerClient.lookup client with
  | none => n
  | some c =>
      if c > 0 then { n with streamsPerClient := n.streamsPerClient.insert client (c - 1) } else n

/-- Records that a thread now tears `r` down. -/
def noteTaken (n : Node) (t : ThreadId) (call : Option CloseCall) (r : Ref) : Node :=
  ({ n with teardowns := Function.update n.teardowns r (n.teardowns r ++ [t]) }).emit
    (.taken t call r)

/-- The section of `closeStream` when the entry was found. -/
def take (n : Node) (t : ThreadId) (c : CloseCall) (r : Ref) : Node :=
  let key := keyFor c.clientId c.streamId
  ((({ n with streams := n.streams.erase key }).noteClosed key).dropCount c.clientId).noteTaken
    t (some c) r

/-- The section of `stop`: every stream moves to the snapshot. -/
def takeAll (n : Node) (t : ThreadId) (refs : List Ref) : Node :=
  { n with
    streams := ∅
    streamsPerClient := ∅
    teardowns := fun r => if r ∈ refs then n.teardowns r ++ [t] else n.teardowns r
    log := n.log ++ refs.map (.taken t none) }

/-- Whether a thread has finished, so that `join` on it returns. -/
def exited (n : Node) : ThreadId → Bool
  | .rx r => n.rxLife r == .exited
  | .idle => n.idleExited
  | _ => false

/-- The pruning loop of the idle monitor. -/
def pruneClosed (n : Node) (now graceMs : Int) : Node :=
  { n with
    recentlyClosedMs :=
      ⟨n.recentlyClosedMs.entries.filter fun e => ¬ now - e.2 > graceMs,
        n.recentlyClosedMs.nodupKeys.sublist List.filter_sublist⟩ }

end Node

end TonTunnel.Egress
