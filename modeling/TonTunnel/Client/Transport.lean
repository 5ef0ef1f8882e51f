import Mathlib.Data.List.AList
import TonTunnel.Lib.Interleaving
import TonTunnel.Client.History
import TonTunnel.Protocol.Android

/-!
The Android client's `NativeTonTransport`: the stream queues, the receiver loop
and the calls that other threads make.

`streamQueues` is a `ConcurrentHashMap` of references to `LinkedBlockingQueue`s.
Each operation of the map, of a queue, of the native layer and of the clock is one
step, so a caller may poll, and the receiver may fill, a queue that
`unregisterStream` has taken out of the map meanwhile. A queue is named by its
stream id and the number of `unregisterStream` calls for that id before its
creation: between two creations for one id lies such a call.

`currentTimeMillis` may jump. `poll` returns a frame if its queue holds one; when
its time is over is up to the environment. `pendingOpen`, `lateOpenAckLogged` and
the counters only feed log messages and are left out. `notes` is history: no
step reads it.
-/

namespace TonTunnel.Transport

open TonTunnel Android
open TonTunnel.Client (Note)

/-- A `LinkedBlockingQueue`: its stream id and the calls of `unregisterStream` before it. -/
abbrev Ref := Int32 × Nat

/-- The members of `NativeTonTransport`, the objects its queues are, the clock, the packets
that were accepted for sending, and the history. -/
structure NativeTonTransport where
  streamQueues : AList (fun _ : Int32 => Ref) := ∅
  /-- calls of `unregisterStream` so far -/
  epoch : Int32 → Nat := fun _ => 0
  heap : Ref → Option (List InboundFrame) := fun _ => none
  /-- `runtimeConfig?.authToken.orEmpty()` -/
  authToken : String := ""
  nowMs : Int := 0
  sent : List Bytes := []
  notes : List (Note Int32 Ref InboundFrame) := []

def openTimeoutMs : Int := 20000

def openCloseGraceMs : Int := 250

/-- The frames for which the receiver loop creates a missing queue. -/
def isControl (f : InboundFrame) : Bool :=
  f.type = .opn || f.type = .error || f.type = .close

namespace NativeTonTransport

/-- Appends to the history. -/
def note (n : NativeTonTransport) (e : Note Int32 Ref InboundFrame) : NativeTonTransport :=
  { n with notes := n.notes ++ [e] }

/-- `streamQueues[streamId]`. -/
def queueOf (n : NativeTonTransport) (id : Int32) : Option Ref := n.streamQueues.lookup id

/-- The name of a queue that is created now. -/
def newRef (n : NativeTonTransport) (id : Int32) : Ref := (id, n.epoch id)

/-- `putIfAbsent(streamId, LinkedBlockingQueue())`, which is also what `computeIfAbsent`
does. -/
def putIfAbsent (n : NativeTonTransport) (id : Int32) : NativeTonTransport :=
  match n.queueOf id with
  | some _ => n
  | none =>
      ({ n with
          streamQueues := n.streamQueues.insert id (n.newRef id)
          heap := Function.update n.heap (n.newRef id) (some []) }).note (.created (n.newRef id))

def registerStream (n : NativeTonTransport) (id : Int32) : NativeTonTransport :=
  (n.putIfAbsent id).note (.registered id)

def unregisterStream (n : NativeTonTransport) (id : Int32) : NativeTonTransport :=
  ({ n with
      streamQueues := n.streamQueues.erase id
      epoch := Function.update n.epoch id (n.epoch id + 1) }).note (.unregistered id)

/-- `queue.offer(decoded)`. -/
def offer (n : NativeTonTransport) (r : Ref) (f : InboundFrame) : NativeTonTransport :=
  ({ n with heap := Function.update n.heap r (some ((n.heap r).getD [] ++ [f])) }).note (.put r f)

/-- The head of a queue goes to a caller. -/
def pollHead (n : NativeTonTransport) (i : Nat) (opening : Bool) (r : Ref) (f : InboundFrame)
    (rest : List InboundFrame) : NativeTonTransport :=
  ({ n with heap := Function.update n.heap r (some rest) }).note (.taken i opening r f)

/-- `sendPacket(packet)`; the packet goes out if it returns 0. -/
def sendPacket (n : NativeTonTransport) (packet : Bytes) (code : Int) : NativeTonTransport :=
  if code = 0 then { n with sent := n.sent ++ [packet] } else n

end NativeTonTransport

/-! ### The calls -/

/-- Calls of the transport's functions. -/
inductive Call where
  | registerStream (id : Int32)
  | unregisterStream (id : Int32)
  | openStream (id : Int32) (host : String) (port : Int32)
  | sendStreamData (id : Int32) (payload : Bytes)
  | closeStream (id : Int32)
  | awaitStreamFrame (id : Int32) (timeoutMs : Int)
  deriving DecidableEq, Repr

/-- What the environment answers at a step. -/
inductive Act where
  | go
  /-- an idle thread makes a call -/
  | call (c : Call)
  /-- `receivePacket` returned -/
  | packet (bytes : Option Bytes)
  /-- `poll` ran out of time -/
  | timeout
  /-- the thread was interrupted in `poll` -/
  | interrupt
  /-- the native layer threw -/
  | throw
  /-- `sendPacket` returned -/
  | sendRet (code : Int)
  /-- `currentTimeMillis` is now this -/
  | clock (ms : Int)
  deriving DecidableEq, Repr

/-- `queue.poll(..)`: the frame, no frame, or `none` for an interrupt. -/
def pollStep (i : Nat) (opening : Bool) (r : Ref) (n : NativeTonTransport) :
    Act → Option (Option (Option InboundFrame) × NativeTonTransport)
  | .go =>
      match n.heap r with
      | some (f :: rest) => some (some (some f), n.pollHead i opening r f rest)
      | _ => none
  | .timeout =>
      match n.heap r with
      | some (_ :: _) => none
      | _ => some (some none, n)
  | .interrupt => some (none, n)
  | _ => none

/-- Where a call of `openStream` is. -/
inductive OpenPc where
  | start
  | register (startedAt : Int)
  | send (startedAt : Int)
  | loop (startedAt : Int) (closeSeenAt : Option Int)
  /-- `closeStream` after the timeout -/
  | timedOut
  /-- `awaitStreamFrame` before it reads the map -/
  | await (startedAt : Int) (closeSeenAt : Option Int) (waitMs : Int)
  | poll (startedAt : Int) (closeSeenAt : Option Int) (waitMs : Int) (r : Ref)
  | got (startedAt : Int) (closeSeenAt : Option Int) (f : InboundFrame)
  deriving DecidableEq, Repr

inductive OpenOut where
  | more (pc : OpenPc)
  | ret (code : Int)
  /-- an exception of the native layer leaves the call -/
  | threw
  deriving DecidableEq, Repr

/-- `openStream`. -/
def openStep (i : Nat) (id : Int32) (host : String) (port : Int32) (n : NativeTonTransport) :
    OpenPc → Act → Option (OpenOut × NativeTonTransport)
  | .start, .go => some (.more (.register n.nowMs), n)
  | .register startedAt, .go => some (.more (.send startedAt), n.registerStream id)
  | .send startedAt, a =>
      match openFrame id (toByteArray host) port (toByteArray n.authToken), a with
      | none, .go => some (.ret (-1), n)
      | some frame, .sendRet code =>
          let n := n.sendPacket frame code
          if code = 0 then some (.more (.loop startedAt none), n.note (.openSent i id))
          else some (.ret code, n)
      | some _, .throw => some (.threw, n)
      | _, _ => none
  | .loop startedAt closeSeenAt, .go =>
      let remaining := startedAt + openTimeoutMs - n.nowMs
      if remaining ≤ 0 then some (.more .timedOut, n)
      else
        match closeSeenAt with
        | some seen =>
            let closeRemaining := openCloseGraceMs - (n.nowMs - seen)
            if closeRemaining ≤ 0 then some (.ret (-4), n)
            else some (.more (.await startedAt closeSeenAt (min remaining closeRemaining)), n)
        | none => some (.more (.await startedAt closeSeenAt remaining), n)
  | .timedOut, .sendRet code =>
      some (.ret (-2), n.sendPacket ((closeFrame id).getD []) code)
  | .timedOut, .throw => some (.ret (-2), n)
  | .await startedAt closeSeenAt waitMs, .go =>
      match n.queueOf id with
      | none => some (.more (.loop startedAt closeSeenAt), n)
      | some r => some (.more (.poll startedAt closeSeenAt waitMs r), n)
  | .poll startedAt closeSeenAt _ r, a =>
      match pollStep i true r n a with
      | none => none
      | some (none, n) => some (.ret (-5), n)
      | some (some none, n) => some (.more (.loop startedAt closeSeenAt), n)
      | some (some (some f), n) => some (.more (.got startedAt closeSeenAt f), n)
  | .got startedAt closeSeenAt f, .go =>
      match f.type with
      | .opn => some (.ret 0, n.note (.opened i id))
      | .error => some (.ret (-3), n)
      | .close =>
          match closeSeenAt with
          | none => some (.more (.loop startedAt (some n.nowMs)), n)
          | some seen =>
              if openCloseGraceMs ≤ n.nowMs - seen then some (.ret (-4), n)
              else some (.more (.loop startedAt (some seen)), n)
      | .data | .unknown => some (.more (.loop startedAt closeSeenAt), n)
  | _, _ => none

/-! ### The receiver -/

inductive ReceiverPc where
  | receive
  /-- `streamQueues[decoded.streamId]` for the first of the frames -/
  | find (frames : List InboundFrame)
  /-- `computeIfAbsent` -/
  | create (f : InboundFrame) (frames : List InboundFrame)
  | offer (r : Ref) (f : InboundFrame) (frames : List InboundFrame)
  deriving DecidableEq, Repr

/-- `startReceiverLoop`. -/
def receiverStep (pc : ReceiverPc) (n : NativeTonTransport) (a : Act) :
    Option (ReceiverPc × NativeTonTransport) :=
  match pc, a with
  | .receive, .packet bytes =>
      match bytes with
      | none | some [] => some (.receive, n)
      | some (b :: bs) => some (.find (decodeInboundFrames (b :: bs)), n)
  | .receive, .throw => some (.receive, n)
  | .find [], .go => some (.receive, n)
  | .find (f :: frames), .go =>
      match n.queueOf f.streamId with
      | some r => some (.offer r f frames, n.note (.inbound f.streamId f))
      | none =>
          if isControl f then some (.create f frames, n)
          else some (.find frames, n.note (.inbound f.streamId f))
  | .create f frames, .go =>
      let n := n.putIfAbsent f.streamId
      (n.queueOf f.streamId).map fun r => (.offer r f frames, n.note (.inbound f.streamId f))
  | .offer r f frames, .go => some (.find frames, n.offer r f)
  | _, _ => none

/-! ### The transport and its callers -/

/-- The threads that use the transport: its receiver and any number of callers, such as the
threads of `LocalSocks5Server` in all its lifetimes. -/
inductive ThreadId where
  | receiver
  | clock
  | caller (i : Nat)
  deriving DecidableEq, Repr

/-- A caller between its calls and in one. -/
inductive CallerPc where
  | idle
  | registering (id : Int32)
  | unregistering (id : Int32)
  | opening (id : Int32) (host : String) (port : Int32) (pc : OpenPc)
  /-- `openStream` returned -/
  | opened (code : Int)
  | sending (id : Int32) (payload : Bytes) (offset : Nat)
  | closing (id : Int32)
  | awaiting (id : Int32)
  | polling (id : Int32) (r : Ref)
  deriving DecidableEq, Repr

def Call.enter : Call → CallerPc
  | .registerStream id => .registering id
  | .unregisterStream id => .unregistering id
  | .openStream id host port => .opening id host port .start
  | .sendStreamData id payload => .sending id payload 0
  | .closeStream id => .closing id
  | .awaitStreamFrame id _ => .awaiting id

/-- One turn of the loop of `sendStreamDataImmediateSegmented`. -/
def sendStep (id : Int32) (payload : Bytes) (offset : Nat) (n : NativeTonTransport) :
    Act → Option (CallerPc × NativeTonTransport)
  | .go => if payload.length ≤ offset then some (.idle, n) else none
  | .sendRet code =>
      if payload.length ≤ offset then none
      else
        let len := min dataSegmentSize (payload.length - offset)
        let n := n.sendPacket ((dataFrame id payload offset len).getD []) code
        if code = 0 then some (.sending id payload (offset + len), n) else some (.idle, n)
  | .throw => if payload.length ≤ offset then none else some (.idle, n)
  | _ => none

/-- A caller. What a call returned does not restrict its next call. -/
def callerStep (i : Nat) (pc : CallerPc) (n : NativeTonTransport) (a : Act) :
    Option (CallerPc × NativeTonTransport) :=
  match pc with
  | .idle | .opened _ =>
      match a with
      | .call c => some (c.enter, n)
      | _ => none
  | .registering id => if a = .go then some (.idle, n.registerStream id) else none
  | .unregistering id => if a = .go then some (.idle, n.unregisterStream id) else none
  | .opening id host port pc =>
      match openStep i id host port n pc a with
      | some (.more pc, n) => some (.opening id host port pc, n)
      | some (.ret code, n) => some (.opened code, n)
      | some (.threw, n) => some (.idle, n)
      | none => none
  | .sending id payload offset => sendStep id payload offset n a
  | .closing id =>
      match a with
      | .sendRet code => some (.idle, n.sendPacket ((closeFrame id).getD []) code)
      | .throw => some (.idle, n)
      | _ => none
  | .awaiting id =>
      if a = .go then
        match n.queueOf id with
        | none => some (.idle, n)
        | some r => some (.polling id r, n)
      else none
  | .polling _ r => (pollStep i false r n a).map fun p => (.idle, p.2)

def clockStep (n : NativeTonTransport) : Act → Option (Unit × NativeTonTransport)
  | .clock ms => some ((), { n with nowMs := ms })
  | _ => none

def Local : ThreadId → Type
  | .receiver => ReceiverPc
  | .clock => Unit
  | .caller _ => CallerPc

def step : (t : ThreadId) → Local t → NativeTonTransport → Act →
    Option (Local t × NativeTonTransport)
  | .receiver, pc, n, a => receiverStep pc n a
  | .clock, _, n, a => clockStep n a
  | .caller i, pc, n, a => callerStep i pc n a

def machine : Interleaving.Machine ThreadId Local NativeTonTransport Act := ⟨step⟩

abbrev State := Interleaving.State Local NativeTonTransport

def initialLocal : (t : ThreadId) → Local t
  | .receiver => ReceiverPc.receive
  | .clock => ()
  | .caller _ => CallerPc.idle

/-- The transport after `initialize`, with its token. -/
def initial (authToken : String) : State := ⟨initialLocal, { authToken }⟩

end TonTunnel.Transport
