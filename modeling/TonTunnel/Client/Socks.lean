import TonTunnel.Client.Core

/-!
The desktop client's `LocalSocks5Server` over one `TonClientCore`: the calls of
`bridgeViaBackend`, one for each accepted connection, and the uplink pump that
each of them starts.

A bridge and its pump share `alive`; all of them share `running_`,
`nextStreamId_` and the core, whose functions take the steps they take in
`Client.Core`. Each load and store of an atomic is a step, and so is each `recv`
and `send` on the client's socket, with any result the socket may give: what
`closeNow` does to the socket shows in these results only. `running_` may change
at any time, which covers every call of `start` and `stop`.

The SOCKS handshake before `bridgeViaBackend` is left out but for what it hands
over, a port and a host name of at most 512 bytes; so is the direct TCP path
without a core. An exception that leaves the pump ends the process; one that
leaves a bridge is caught by its thread, and the bridge has then not returned.
`read` and `written` are history: no step reads them.
-/

namespace TonTunnel.Socks

open TonTunnel Desktop Client

/-- The life of an uplink pump. -/
inductive Life where
  | unstarted
  | running
  | exited
  deriving DecidableEq, Repr

/-- The variables of one call of `bridgeViaBackend`. -/
structure Bridge where
  /-- set by `nextStreamId_.fetch_add(1)` -/
  streamId : Option UInt32 := none
  targetHost : Bytes := []
  targetPort : UInt16 := 0
  alive : Bool := true
  uplink : Life := .unstarted
  /-- the bytes that `recv` on the client's socket gave the pump -/
  read : Bytes := []
  /-- the bytes that `send` on the client's socket took -/
  written : Bytes := []

/-- The members of `LocalSocks5Server`, its core, and the bridges. -/
structure Server where
  core : Core := {}
  running : Bool := false
  nextStreamId : UInt32 := 1000
  bridges : Nat → Bridge := fun _ => {}
  /-- `std::terminate` was called -/
  terminated : Bool := false

namespace Server

/-- The stream id of a bridge. -/
def idOf (d : Server) (i : Nat) : UInt32 := (d.bridges i).streamId.getD 0

/-- Writes variables of a bridge. -/
def setBridge (d : Server) (i : Nat) (f : Bridge → Bridge) : Server :=
  { d with bridges := Function.update d.bridges i (f (d.bridges i)) }

/-- `nextStreamId_.fetch_add(1)`, in a call with this target. -/
def allocate (d : Server) (i : Nat) (host : Bytes) (port : UInt16) : Server :=
  { d with
    nextStreamId := d.nextStreamId + 1
    bridges := Function.update d.bridges i
      { streamId := some d.nextStreamId, targetHost := host, targetPort := port } }

end Server

/-- What the environment answers at a step. -/
inductive Act where
  /-- what it answers the core -/
  | core (a : Client.Act)
  /-- the handshake of a connection ended with this target -/
  | request (host : Bytes) (port : UInt16)
  /-- `recv` returned these bytes, or at most 0 -/
  | recvRet (data : Option Bytes)
  /-- `send` returned -/
  | sendRet (n : Int)
  | running (on : Bool)
  deriving DecidableEq, Repr

/-! ### `bridgeViaBackend` -/

/-- Where a call of `bridgeViaBackend` is. -/
inductive BridgePc where
  | idle
  | opening (pc : OpenPc)
  /-- `openStream` did not return 0 -/
  | failed
  /-- before the pump is started -/
  | spawn
  | testAlive
  | testRunning
  | await (pc : AwaitPc)
  | got (f : InboundFrame)
  /-- in `sendAll`, with the bytes from `sent` on -/
  | sendAll (rest : Bytes)
  /-- behind the loop -/
  | leaving (remoteEnded : Bool)
  | join (remoteEnded : Bool)
  | close
  | unregister
  | returned (ok : Bool)
  /-- an exception left the call -/
  | escaped
  deriving DecidableEq, Repr

/-- One step of a bridge. -/
def bridgeStep (authToken : Bytes) (i : Nat) (pc : BridgePc) (d : Server) (a : Act) :
    Option (BridgePc × Server) :=
  match pc, a with
  | .idle, .request host port =>
      if host.length ≤ 512 then some (.opening .register, d.allocate i host port) else none
  | .opening pc, .core a =>
      let b := d.bridges i
      match openStep i (d.idOf i) b.targetHost b.targetPort authToken d.core pc a with
      | some (.more pc, c) => some (.opening pc, { d with core := c })
      | some (.ret code, c) => some (if code = 0 then .spawn else .failed, { d with core := c })
      | none => none
  | .failed, .core .go =>
      some (.returned false, { d with core := d.core.unregisterStream (d.idOf i) })
  | .spawn, .core .go => some (.testAlive, d.setBridge i fun b => { b with uplink := .running })
  | .spawn, .core .throw => some (.escaped, d)
  | .testAlive, .core .go =>
      some (if (d.bridges i).alive then .testRunning else .leaving false, d)
  | .testRunning, .core .go =>
      some (if d.running then .await (.enter 100) else .leaving false, d)
  | .await pc, .core a =>
      match awaitStep i false (d.idOf i) d.core pc a with
      | some (.more pc, c) => some (.await pc, { d with core := c })
      | some (.done none, c) => some (.testAlive, { d with core := c })
      | some (.done (some f), c) => some (.got f, { d with core := c })
      | none => none
  | .got f, .core .go =>
      match f.type with
      | .data => some (if f.payload.isEmpty then .testAlive else .sendAll f.payload, d)
      | .close | .error => some (.leaving true, d)
      | .opn | .unknown => some (.testAlive, d)
  | .sendAll [], .core .go => some (.testAlive, d)
  | .sendAll (b :: rest), .sendRet n =>
      if n > (b :: rest).length then none
      else if n ≤ 0 then some (.leaving false, d)
      else
        some (.sendAll ((b :: rest).drop n.toNat),
          d.setBridge i fun v => { v with written := v.written ++ (b :: rest).take n.toNat })
  | .leaving remoteEnded, .core .go =>
      some (.join remoteEnded, d.setBridge i fun b => { b with alive := false })
  | .join remoteEnded, .core .go =>
      if (d.bridges i).uplink = .exited then
        some (if remoteEnded then .unregister else .close, d)
      else none
  | .close, .core a =>
      match closeStreamStep (d.idOf i) d.core a with
      | some (some _, c) => some (.unregister, { d with core := c })
      | some (none, c) => some (.escaped, { d with core := c })
      | none => none
  | .unregister, .core .go =>
      some (.returned true, { d with core := d.core.unregisterStream (d.idOf i) })
  | _, _ => none

/-! ### The uplink pump -/

/-- Where an uplink pump is. -/
inductive UplinkPc where
  | testAlive
  | testRunning
  | recv
  /-- in `sendStreamData`, with the bytes from `offset` on -/
  | sending (rest : Bytes)
  /-- behind the loop -/
  | leaving
  | exited
  deriving DecidableEq, Repr

/-- One step of an uplink pump. -/
def uplinkStep (i : Nat) (pc : UplinkPc) (d : Server) (a : Act) : Option (UplinkPc × Server) :=
  match pc, a with
  | .testAlive, .core .go =>
      if (d.bridges i).uplink = .running then
        some (if (d.bridges i).alive then .testRunning else .leaving, d)
      else none
  | .testRunning, .core .go => some (if d.running then .recv else .leaving, d)
  | .recv, .recvRet none => some (.leaving, d)
  | .recv, .recvRet (some data) =>
      if data.isEmpty ∨ data.length > 16 * 1024 then none
      else some (.sending data, d.setBridge i fun b => { b with read := b.read ++ data })
  | .sending rest, .core a =>
      match sendStreamDataStep (d.idOf i) rest d.core a with
      | some (.inl rest, c) => some (.sending rest, { d with core := c })
      | some (.inr (some code), c) =>
          some (if code = 0 then .testAlive else .leaving, { d with core := c })
      | some (.inr none, c) => some (.exited, { d with core := c, terminated := true })
      | none => none
  | .leaving, .core .go =>
      some (.exited, d.setBridge i fun b => { b with alive := false, uplink := .exited })
  | _, _ => none

/-! ### The process -/

/-- The receiver of the core, the owner of core and server, the clock, and a bridge with its
pump for every connection. -/
inductive ThreadId where
  | receiver
  | owner
  | clock
  | bridge (i : Nat)
  | uplink (i : Nat)
  deriving DecidableEq, Repr

@[reducible] def Local : ThreadId → Type
  | .receiver => ReceiverPc
  | .owner => OwnerPc
  | .clock => Unit
  | .bridge _ => BridgePc
  | .uplink _ => UplinkPc

/-- A step of a thread of the core. -/
def coreStep {L : Type} (step : L → Core → Client.Act → Option (L × Core)) (l : L) (d : Server)
    (a : Act) : Option (L × Server) :=
  match a with
  | .core a => (step l d.core a).map fun p => (p.1, { d with core := p.2 })
  | _ => none

/-- `start` and `stop` of the core and of the server. -/
def ownerStep (pc : OwnerPc) (d : Server) (a : Act) : Option (OwnerPc × Server) :=
  match a with
  | .running on => some (pc, { d with running := on })
  | a => coreStep Client.ownerStep pc d a

def threadStep (authToken : Bytes) : (t : ThreadId) → Local t → Server → Act → Option (Local t × Server)
  | .receiver, pc, d, a => coreStep receiverStep pc d a
  | .owner, pc, d, a => ownerStep pc d a
  | .clock, l, d, a => coreStep (fun _ => clockStep) l d a
  | .bridge i, pc, d, a => bridgeStep authToken i pc d a
  | .uplink i, pc, d, a => uplinkStep i pc d a

/-- One step of a thread, as long as the process lives. -/
def step (authToken : Bytes) (t : ThreadId) (l : Local t) (d : Server) (a : Act) :
    Option (Local t × Server) :=
  if d.terminated then none else threadStep authToken t l d a

/-- The desktop client as a machine. -/
def machine (authToken : Bytes) : Interleaving.Machine ThreadId Local Server Act := ⟨step authToken⟩

abbrev State := Interleaving.State Local Server

def initialLocal : (t : ThreadId) → Local t
  | .receiver => .ended
  | .owner => .idle
  | .clock => ()
  | .bridge _ => .idle
  | .uplink _ => .testAlive

/-- Core and server were just built. -/
def initial : State := ⟨initialLocal, {}⟩

end TonTunnel.Socks
