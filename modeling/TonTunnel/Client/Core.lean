import Mathlib.Data.List.AList
import TonTunnel.Lib.Interleaving
import TonTunnel.Client.History
import TonTunnel.Protocol.Desktop

/-!
The desktop client's `TonClientCore`: the stream queues, the receiver thread and
the calls that other threads make.

A section under `mu_` is one step, and so is each call of the backend and each
reading of the clock. The wait in `awaitStreamFrame` ends when the stream's
queue holds a frame, or at its deadline if it still holds none; both are tested
under `mu_`. Allocation does not fail here; an exception of the backend or of the
wait is an answer of the environment (`Act.throw`), and the calls treat it as
their `catch` blocks do.

`pendingOpenMs_` and the counters are written and never read by these functions;
they are left out. `notes` and `received` are history: no step reads them.
-/

namespace TonTunnel.Client

open TonTunnel Desktop

/-- The members of `TonClientCore`, the steady clock, the packets that the backend
accepted, and the history. -/
structure Core where
  running : Bool := false
  /-- `receiverThread_` has been started and has not left its loop -/
  receiving : Bool := false
  /-- `streamQueues_` -/
  streamQueues : AList (fun _ : UInt32 => List InboundFrame) := ∅
  nowMs : Int := 0
  sent : List Bytes := []
  /-- the packets that `receivePacket` returned -/
  received : List Bytes := []
  notes : List (Note UInt32 UInt32 InboundFrame) := []

def kOpenTimeoutMs : Int := 20000

def kOpenCloseGraceMs : Int := 250

def kDataSegmentSize : Nat := 1200

/-! ### The sections under `mu_` -/

/-- The frames for which `receiverLoop` creates a missing queue. -/
def isControl (f : InboundFrame) : Bool :=
  f.type = .opn || f.type = .close || f.type = .error

namespace Core

/-- Appends to the history. -/
def note (c : Core) (n : Note UInt32 UInt32 InboundFrame) : Core :=
  { c with notes := c.notes ++ [n] }

/-- `streamQueues_.try_emplace(streamId)`. -/
def tryEmplace (c : Core) (id : UInt32) : Core :=
  match c.streamQueues.lookup id with
  | some _ => c
  | none => ({ c with streamQueues := c.streamQueues.insert id [] }).note (.created id)

def registerStream (c : Core) (id : UInt32) : Core :=
  (c.tryEmplace id).note (.registered id)

/-- `streamQueues_.erase(streamId)`. -/
def unregisterStream (c : Core) (id : UInt32) : Core :=
  (({ c with streamQueues := c.streamQueues.erase id }).note (.removed id)).note (.unregistered id)

/-- `it->second.push_back(frame)`. -/
def pushBack (c : Core) (f : InboundFrame) (q : List InboundFrame) : Core :=
  ({ c with streamQueues := c.streamQueues.insert f.streamId (q ++ [f]) }).note (.put f.streamId f)

/-- One turn of the loop in `receiverLoop`: a frame without a queue gets one if it is
an OPEN, CLOSE or ERROR, and is dropped otherwise. -/
def dispatch (c : Core) (f : InboundFrame) : Core :=
  match c.streamQueues.lookup f.streamId with
  | some q => (c.note (.inbound f.streamId f)).pushBack f q
  | none =>
      if isControl f then ((c.tryEmplace f.streamId).note (.inbound f.streamId f)).pushBack f []
      else c.note (.inbound f.streamId f)

/-- The loop in `receiverLoop`, over the frames of one packet. -/
def dispatchAll (c : Core) (fs : List InboundFrame) : Core := fs.foldl dispatch c

/-- `q.front()` and `q.pop_front()`. -/
def popFront (c : Core) (caller : Nat) (opening : Bool) (id : UInt32) (f : InboundFrame)
    (rest : List InboundFrame) : Core :=
  ({ c with streamQueues := c.streamQueues.insert id rest }).note (.taken caller opening id f)

/-- `backend_->sendPacket(packet)`; the packet goes out if it returns 0. -/
def sendPacket (c : Core) (packet : Bytes) (code : Int) : Core :=
  if code = 0 then { c with sent := c.sent ++ [packet] } else c

end Core

/-! ### The calls -/

/-- Calls of the core's functions. -/
inductive Call where
  | registerStream (id : UInt32)
  | unregisterStream (id : UInt32)
  | openStream (id : UInt32) (host : Bytes) (port : UInt16) (token : Bytes)
  | sendStreamData (id : UInt32) (payload : Bytes)
  | closeStream (id : UInt32)
  | awaitStreamFrame (id : UInt32) (timeoutMs : Int)
  deriving DecidableEq, Repr

/-- What the environment answers at a step. -/
inductive Act where
  | go
  /-- an idle thread makes a call -/
  | call (c : Call)
  /-- `receivePacket` returned a packet -/
  | packet (bytes : Bytes)
  /-- a wait ended without a result -/
  | timeout
  /-- the backend, or the wait, threw -/
  | throw
  /-- `sendPacket` returned -/
  | sendRet (code : Int)
  | start
  | stop
  /-- the clock moved on -/
  | tick (ms : Nat)
  deriving DecidableEq, Repr

/-- Where a call of `awaitStreamFrame` is. -/
inductive AwaitPc where
  | enter (timeoutMs : Int)
  | wait (deadline : Int)
  deriving DecidableEq, Repr

inductive AwaitOut where
  | more (pc : AwaitPc)
  | done (f : Option InboundFrame)
  deriving DecidableEq, Repr

/-- `awaitStreamFrame`. The lock is given up while it waits, so other threads move on. -/
def awaitStep (caller : Nat) (opening : Bool) (id : UInt32) (c : Core) :
    AwaitPc → Act → Option (AwaitOut × Core)
  | .enter timeoutMs, .go => some (.more (.wait (c.nowMs + timeoutMs)), c)
  | .wait _, .go =>
      match c.streamQueues.lookup id with
      | some (f :: rest) => some (.done (some f), c.popFront caller opening id f rest)
      | _ => none
  | .wait deadline, .timeout =>
      match c.streamQueues.lookup id with
      | some (_ :: _) => none
      | _ => if deadline ≤ c.nowMs then some (.done none, c) else none
  | .wait _, .throw => some (.done none, c)
  | _, _ => none

/-- Where a call of `openStream` is. -/
inductive OpenPc where
  | register
  | sendOpen
  | deadline
  /-- the test of the `while` -/
  | loop (deadline : Int) (closeSeenAt : Option Int)
  | waitMs (deadline : Int) (closeSeenAt : Option Int)
  | grace (deadline closeSeenAt waitMs : Int)
  | await (deadline : Int) (closeSeenAt : Option Int) (pc : AwaitPc)
  | got (deadline : Int) (closeSeenAt : Option Int) (f : InboundFrame)
  deriving DecidableEq, Repr

inductive OpenOut where
  | more (pc : OpenPc)
  | ret (code : Int)
  deriving DecidableEq, Repr

/-- `openStream`. -/
def openStep (caller : Nat) (id : UInt32) (host : Bytes) (port : UInt16) (token : Bytes)
    (c : Core) : OpenPc → Act → Option (OpenOut × Core)
  | .register, .go => some (.more .sendOpen, c.registerStream id)
  | .sendOpen, .sendRet code =>
      let c := c.sendPacket (encodeOpenFrame id host port token) code
      if code = 0 then some (.more .deadline, c.note (.openSent caller id))
      else some (.ret (-1), c)
  | .sendOpen, .throw => some (.ret (-99), c)
  | .deadline, .go => some (.more (.loop (c.nowMs + kOpenTimeoutMs) none), c)
  | .loop deadline closeSeenAt, .go =>
      if c.nowMs < deadline then some (.more (.waitMs deadline closeSeenAt), c)
      else some (.ret (-2), c)
  | .waitMs deadline closeSeenAt, .go =>
      let waitMs := deadline - c.nowMs
      match closeSeenAt with
      | none => some (.more (.await deadline none (.enter waitMs)), c)
      | some seen => some (.more (.grace deadline seen waitMs), c)
  | .grace deadline seen waitMs, .go =>
      let remainingClose := kOpenCloseGraceMs - (c.nowMs - seen)
      if remainingClose ≤ 0 then some (.ret (-4), c)
      else some (.more (.await deadline (some seen) (.enter (min waitMs remainingClose))), c)
  | .await deadline closeSeenAt pc, a =>
      match awaitStep caller true id c pc a with
      | some (.more pc, c) => some (.more (.await deadline closeSeenAt pc), c)
      | some (.done none, c) => some (.more (.loop deadline closeSeenAt), c)
      | some (.done (some f), c) => some (.more (.got deadline closeSeenAt f), c)
      | none => none
  | .got deadline closeSeenAt f, .go =>
      match f.type with
      | .opn => some (.ret 0, c.note (.opened caller id))
      | .error => some (.ret (-3), c)
      | .close => some (.more (.loop deadline (some (closeSeenAt.getD c.nowMs))), c)
      | .data | .unknown => some (.more (.loop deadline closeSeenAt), c)
  | _, _ => none

/-- One turn of the loop in `sendStreamData`, with the bytes from `offset` on: what is left
to send, or the code it returns; `none` inside is an exception of the backend. -/
def sendStreamDataStep (id : UInt32) (rest : Bytes) (c : Core) :
    Act → Option ((Bytes ⊕ Option Int) × Core)
  | .go => if rest = [] then some (.inr (some 0), c) else none
  | .sendRet code =>
      if rest = [] then none
      else
        let c := c.sendPacket (encodeDataFrame id (rest.take kDataSegmentSize)) code
        if code = 0 then some (.inl (rest.drop kDataSegmentSize), c) else some (.inr (some (-1)), c)
  | .throw => if rest = [] then none else some (.inr none, c)
  | _ => none

/-- `closeStream`; `none` inside is an exception of the backend. -/
def closeStreamStep (id : UInt32) (c : Core) : Act → Option (Option Int × Core)
  | .sendRet code => some (some code, c.sendPacket (encodeCloseFrame id) code)
  | .throw => some (none, c)
  | _ => none

/-! ### The receiver thread -/

inductive ReceiverPc where
  | loop
  | receive
  /-- before the section under `mu_` -/
  | deliver (frames : List InboundFrame)
  | ended
  deriving DecidableEq, Repr

/-- `receiverLoop`. -/
def receiverStep (pc : ReceiverPc) (c : Core) : Act → Option (ReceiverPc × Core)
  | .go =>
      match pc with
      | .loop =>
          if c.running then some (.receive, c) else some (.ended, { c with receiving := false })
      | .deliver frames => some (.loop, c.dispatchAll frames)
      | .ended => if c.receiving then some (.loop, c) else none
      | .receive => none
  | .packet bytes =>
      if pc = .receive then
        let c := { c with received := c.received ++ [bytes] }
        match decodeInboundFrames bytes with
        | [] => some (.loop, c)
        | f :: fs => some (.deliver (f :: fs), c)
      else none
  | .timeout => if pc = .receive then some (.loop, c) else none
  | .throw => if pc = .receive then some (.loop, c) else none
  | _ => none

/-! ### The core and its callers -/

/-- The threads that use one core: its receiver, the owner, who starts and stops it, and
any number of callers. The clock moves on its own. -/
inductive ThreadId where
  | receiver
  | owner
  | clock
  | caller (i : Nat)
  deriving DecidableEq, Repr

inductive OwnerPc where
  | idle
  /-- `stop` waits for the receiver thread -/
  | joining
  deriving DecidableEq, Repr

/-- A caller between its calls and in one. -/
inductive CallerPc where
  | idle
  | registering (id : UInt32)
  | unregistering (id : UInt32)
  | opening (id : UInt32) (host : Bytes) (port : UInt16) (token : Bytes) (pc : OpenPc)
  | sending (id : UInt32) (rest : Bytes)
  | closing (id : UInt32)
  | awaiting (id : UInt32) (pc : AwaitPc)
  deriving DecidableEq, Repr

def Call.enter : Call → CallerPc
  | .registerStream id => .registering id
  | .unregisterStream id => .unregistering id
  | .openStream id host port token => .opening id host port token .register
  | .sendStreamData id payload => .sending id payload
  | .closeStream id => .closing id
  | .awaitStreamFrame id timeoutMs => .awaiting id (.enter timeoutMs)

/-- A caller. What a call returned does not restrict its next call. -/
def callerStep (i : Nat) (pc : CallerPc) (c : Core) (a : Act) : Option (CallerPc × Core) :=
  match pc with
  | .idle =>
      match a with
      | .call call => some (call.enter, c)
      | _ => none
  | .registering id => if a = .go then some (.idle, c.registerStream id) else none
  | .unregistering id => if a = .go then some (.idle, c.unregisterStream id) else none
  | .opening id host port token pc =>
      match openStep i id host port token c pc a with
      | some (.more pc, c) => some (.opening id host port token pc, c)
      | some (.ret _, c) => some (.idle, c)
      | none => none
  | .sending id rest =>
      match sendStreamDataStep id rest c a with
      | some (.inl rest, c) => some (.sending id rest, c)
      | some (.inr _, c) => some (.idle, c)
      | none => none
  | .closing id => (closeStreamStep id c a).map fun p => (.idle, p.2)
  | .awaiting id pc =>
      match awaitStep i false id c pc a with
      | some (.more pc, c) => some (.awaiting id pc, c)
      | some (.done _, c) => some (.idle, c)
      | none => none

/-- `start` and `stop`. -/
def ownerStep (pc : OwnerPc) (c : Core) : Act → Option (OwnerPc × Core)
  | .start =>
      if pc = .idle then
        if c.running then some (.idle, c) else some (.idle, { c with running := true, receiving := true })
      else none
  | .stop =>
      if pc = .idle then
        if c.running then some (.joining, { c with running := false }) else some (.idle, c)
      else none
  | .go => if pc = .joining ∧ c.receiving = false then some (.idle, c) else none
  | _ => none

def clockStep (c : Core) : Act → Option (Unit × Core)
  | .tick ms => some ((), { c with nowMs := c.nowMs + ms })
  | _ => none

def Local : ThreadId → Type
  | .receiver => ReceiverPc
  | .owner => OwnerPc
  | .clock => Unit
  | .caller _ => CallerPc

def step : (t : ThreadId) → Local t → Core → Act → Option (Local t × Core)
  | .receiver, pc, c, a => receiverStep pc c a
  | .owner, pc, c, a => ownerStep pc c a
  | .clock, _, c, a => clockStep c a
  | .caller i, pc, c, a => callerStep i pc c a

def machine : Interleaving.Machine ThreadId Local Core Act := ⟨step⟩

abbrev State := Interleaving.State Local Core

def initialLocal : (t : ThreadId) → Local t
  | .receiver => ReceiverPc.ended
  | .owner => OwnerPc.idle
  | .clock => ()
  | .caller _ => CallerPc.idle

/-- A core that was just built. -/
def initial : State := ⟨initialLocal, {}⟩

end TonTunnel.Client
