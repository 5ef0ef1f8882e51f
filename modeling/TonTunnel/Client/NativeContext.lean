import TonTunnel.Lib.Interleaving
import TonTunnel.Protocol.Server

/-!
How the Android client sets up its native layer: `NativeTonTransport.initialize`, and the
functions of the JNI layer that it and the other threads run.

Any number of threads call `initialize` and `sendPacket`, while `receiverExecutor` takes
packets and the ADNL library delivers them. `initialize` tests `nativeContextPtr` twice,
the second time in `synchronized(this)`. A line that reads or writes a shared variable is
one step.

`ton_adnl_client_create` and `ton_adnl_client_start` may fail, and so may the allocation
of the array that `receivePacket` returns. `sendPacketDirect`, which differs from
`sendPacket` in its codes, is left out, as are the metrics and the log.
-/

namespace TonTunnel.NativeContext

open Interleaving

/-- `NativeTonTransport.TransportConfig`. -/
structure TransportConfig where
  egressAdnlAddress : String
  clientPrivateKey : String
  authToken : String
  localUdpAdvertiseHost : String
deriving DecidableEq

/-- A `TonAdnlClientRuntime`: the arguments of its constructor, and whether `onAdnlMessage`
is its callback. -/
structure Client where
  privateKey : String
  egressAdnlAddress : String
  localAdvertise : String
  hears : Bool := false
deriving DecidableEq

/-- What `initialize` makes of a configuration. -/
def TransportConfig.client (t : TransportConfig) : Client :=
  ⟨t.clientPrivateKey, t.egressAdnlAddress, t.localUdpAdvertiseHost, true⟩

/-- An `AdnlContext`. -/
structure AdnlContext where
  clientHandle : Option Nat := none
deriving DecidableEq

/-- The six members that a set-up assigns, in this order from `gContext` on. A null
pointer is `none`. -/
structure SetUp where
  gContext : Option Nat := none
  gNativeReady : Bool := false
  nativeContextPtr : Option Nat := none
  runtimeConfig : Option TransportConfig := none
  receiverRunning : Bool := false
  /-- tasks of `receiverExecutor` -/
  receiverLoops : Nat := 0

/-- What `configureAdnlPeer` stores. -/
structure Peer where
  gPendingAddress : String := ""
  gPendingPrivateKey : String := ""
  gPendingToken : String := ""
  gPendingLocalAdvertiseHost : String := ""

/-- The objects that were made and not deleted. -/
structure Objects where
  contexts : Nat → Option AdnlContext := fun _ => none
  clients : Nat → Option Client := fun _ => none
  /-- the number of the next object that is made -/
  fresh : Nat := 0

/-- What only a thread in `synchronized(this)` writes. -/
structure Guarded extends SetUp, Peer, Objects

/-- The queue and the history of the packets. -/
structure Packets where
  gInboundQueue : List Bytes := []
  arrived : List Bytes := []
  /-- what `receivePacket` returned -/
  received : List Bytes := []
  /-- `NewByteArray` has failed -/
  refused : Bool := false

/-- The members of `NativeTonTransport`, the globals of the JNI layer and the history. -/
structure Process extends Guarded, Packets where
  /-- who is in `synchronized(this)` -/
  monitor : Option Nat := none
  gLastError : String := ""

/-- What the environment answers: a call, a failure, a packet that a client receives. -/
inductive Act where
  | go
  | fails
  | callInitialize (t : TransportConfig)
  | send (packet : Bytes)
  | arrives (client : Nat) (data : Bytes)

/-! ### `initialize` -/

inductive InitPc where
  /-- `nativeContextPtr != 0L` -/
  | enter (t : TransportConfig)
  /-- `return nativeContextPtr` before the monitor -/
  | fast
  | lock (t : TransportConfig)
  | check (t : TransportConfig)
  | configure (t : TransportConfig)
  | newContext (t : TransportConfig)
  /-- `gContext != nullptr` -/
  | testOld (t : TransportConfig) (c : Nat)
  | destroyOld (t : TransportConfig) (c old : Nat)
  | deleteOld (t : TransportConfig) (c old : Nat)
  | forgetOld (t : TransportConfig) (c : Nat)
  | testPending (t : TransportConfig) (c : Nat)
  | create (t : TransportConfig) (c : Nat)
  | setCallback (t : TransportConfig) (c h : Nat)
  | start (t : TransportConfig) (c h : Nat)
  | destroy (t : TransportConfig) (c h : Nat)
  | failed (t : TransportConfig) (c : Nat)
  | notReady (t : TransportConfig)
  | publish (t : TransportConfig) (c : Nat)
  | clearError (t : TransportConfig) (c : Nat)
  | ready (t : TransportConfig) (c : Nat)
  /-- `nativeContextPtr = initAdnlContext(…)` -/
  | store (t : TransportConfig) (p : Option Nat)
  | stored (t : TransportConfig)
  | config (t : TransportConfig)
  /-- `receiverRunning.compareAndSet(false, true)` -/
  | startReceiver
  | execute
  | unlock
deriving DecidableEq

/-- What a step of `initialize` goes on with: the next line, or the result. -/
inductive InitOut where
  | next (pc : InitPc)
  | returns (p : Option Nat)

namespace Process

variable (n : Process)

def setLastError (message : String) : Process := { n with gLastError := message }

@[simp] theorem setLastError_text (message : String) :
    (n.setLastError message).gLastError = message := rfl

def configureAdnlPeer (t : TransportConfig) : Process :=
  { n with
    gPendingAddress := t.egressAdnlAddress
    gPendingPrivateKey := t.clientPrivateKey
    gPendingToken := t.authToken
    gPendingLocalAdvertiseHost := t.localUdpAdvertiseHost }

def newContext : Process :=
  { n with contexts := Function.update n.contexts n.fresh (some {}), fresh := n.fresh + 1 }

def deleteContext (c : Nat) : Process :=
  { n with contexts := Function.update n.contexts c none }

/-- `context->client_handle = ton_adnl_client_create(…)`. -/
def createClient (c : Nat) : Process :=
  { n with
    clients := Function.update n.clients n.fresh
      (some ⟨n.gPendingPrivateKey, n.gPendingAddress, n.gPendingLocalAdvertiseHost, false⟩)
    contexts := Function.update n.contexts c (some ⟨some n.fresh⟩)
    fresh := n.fresh + 1 }

/-- `ton_adnl_client_set_on_message`. -/
def setOnMessage (h : Nat) : Process :=
  { n with
    clients := Function.update n.clients h ((n.clients h).map fun cl => { cl with hears := true }) }

/-- `ton_adnl_client_destroy`. -/
def destroyClient (h : Nat) : Process :=
  { n with clients := Function.update n.clients h none }

/-- `gContext->client_handle`; no step where the context was deleted. -/
def handle : Option (Option Nat) :=
  (n.gContext.bind n.contexts).map AdnlContext.clientHandle

end Process

/-! The texts of `setLastError`, which `getLastNativeError` returns. -/

def incomplete : String :=
  "ADNL peer config is incomplete. Call configureAdnlPeer before initialize."

def createFailed : String := "ton_adnl_client_create returned null"

def startFailed : String := "ton_adnl_client_start returned non-zero"

def notInitialized : String := "sendPacket: native context is not initialized."

def contextEmpty : String := "receivePacket: ADNL context is empty."

def allocationFailed : String := "Failed to allocate jbyteArray in receivePacket."

/-- A step of `initialize` on thread `i`. -/
def initStep (i : Nat) : InitPc → Process → Act → Option (InitOut × Process)
  | .enter t, n, _ =>
      if n.nativeContextPtr ≠ none then some (.next .fast, n) else some (.next (.lock t), n)
  | .fast, n, _ => some (.returns n.nativeContextPtr, n)
  | .lock t, n, _ =>
      if n.monitor = none then some (.next (.check t), { n with monitor := some i }) else none
  | .check t, n, _ =>
      if n.nativeContextPtr = none then some (.next (.configure t), n) else some (.next .unlock, n)
  | .configure t, n, _ => some (.next (.newContext t), n.configureAdnlPeer t)
  | .newContext t, n, _ => some (.next (.testOld t n.fresh), n.newContext)
  | .testOld t c, n, _ =>
      match n.gContext with
      | none => some (.next (.testPending t c), n)
      | some old => some (.next (.destroyOld t c old), n)
  | .destroyOld t c old, n, _ =>
      n.handle.map fun
        | none => (.next (.deleteOld t c old), n)
        | some h => (.next (.deleteOld t c old), n.destroyClient h)
  | .deleteOld t c old, n, _ => some (.next (.forgetOld t c), n.deleteContext old)
  | .forgetOld t c, n, _ => some (.next (.testPending t c), { n with gContext := none })
  | .testPending t c, n, _ =>
      if n.gPendingAddress = "" ∨ n.gPendingPrivateKey = "" then
        some (.next (.failed t c), n.setLastError incomplete)
      else some (.next (.create t c), n)
  | .create t c, n, .fails =>
      some (.next (.failed t c), n.setLastError createFailed)
  | .create t c, n, _ => some (.next (.setCallback t c n.fresh), n.createClient c)
  | .setCallback t c h, n, _ => some (.next (.start t c h), n.setOnMessage h)
  | .start t c h, n, .fails =>
      some (.next (.destroy t c h), n.setLastError startFailed)
  | .start t c _, n, _ => some (.next (.publish t c), n)
  | .destroy t c h, n, _ => some (.next (.failed t c), n.destroyClient h)
  | .failed t c, n, _ => some (.next (.notReady t), n.deleteContext c)
  | .notReady t, n, _ => some (.next (.store t none), { n with gNativeReady := false })
  | .publish t c, n, _ => some (.next (.clearError t c), { n with gContext := some c })
  | .clearError t c, n, _ => some (.next (.ready t c), n.setLastError "")
  | .ready t c, n, _ => some (.next (.store t (some c)), { n with gNativeReady := true })
  | .store t p, n, _ => some (.next (.stored t), { n with nativeContextPtr := p })
  | .stored t, n, _ =>
      if n.nativeContextPtr ≠ none then some (.next (.config t), n) else some (.next .unlock, n)
  | .config t, n, _ => some (.next .startReceiver, { n with runtimeConfig := some t })
  | .startReceiver, n, _ =>
      if n.receiverRunning then some (.next .unlock, n)
      else some (.next .execute, { n with receiverRunning := true })
  | .execute, n, _ => some (.next .unlock, { n with receiverLoops := n.receiverLoops + 1 })
  | .unlock, n, _ => some (.returns n.nativeContextPtr, { n with monitor := none })

/-! ### The threads -/

/-- A thread that uses the object: between two calls, with what the last one returned,
or in a call. -/
inductive CallerPc where
  | idle
  | returned (p : Option Nat)
  | sent (code : Int)
  | init (pc : InitPc)
  /-- `!gNativeReady.load()` -/
  | testReady (packet : Bytes)
  /-- `gContext == nullptr` -/
  | testContext (packet : Bytes)
  /-- `gContext->client_handle` -/
  | useContext (packet : Bytes)
  /-- in `ton_adnl_client_send` -/
  | inside (h : Nat) (packet : Bytes)
deriving DecidableEq

/-- A call that the thread makes next. -/
def callStep (n : Process) : Act → Option (CallerPc × Process)
  | .callInitialize t => some (.init (.enter t), n)
  | .send packet => some (if packet = [] then .sent (-2) else .testReady packet, n)
  | _ => none

def InitOut.pc : InitOut → CallerPc
  | .next pc => .init pc
  | .returns p => .returned p

def callerStep (i : Nat) : CallerPc → Process → Act → Option (CallerPc × Process)
  | .idle, n, a | .returned _, n, a | .sent _, n, a => callStep n a
  | .init pc, n, a => (initStep i pc n a).map fun r => (r.1.pc, r.2)
  | .testReady packet, n, _ =>
      if n.gNativeReady then some (.testContext packet, n)
      else some (.sent (-4), n.setLastError notInitialized)
  | .testContext packet, n, _ =>
      if n.gContext = none then some (.sent (-4), n.setLastError notInitialized)
      else some (.useContext packet, n)
  | .useContext packet, n, _ =>
      n.handle.map fun
        | none => (.sent (-5), n)
        | some h => (.inside h packet, n)
  | .inside _ _, n, .fails => some (.sent (-5), n)
  | .inside _ _, n, _ => some (.sent 0, n)

/-- `startReceiverLoop` and the lines of `receivePacket`. -/
inductive ReceiverPc where
  /-- `receiverRunning.get()` -/
  | head
  /-- `!gNativeReady.load()` -/
  | testReady
  /-- `gContext == nullptr || gContext->client_handle == nullptr` -/
  | testContext
  | pop
  | hand (packet : Bytes)
  | ended
deriving DecidableEq

def receiverStep : ReceiverPc → Process → Act → Option (ReceiverPc × Process)
  | .head, n, _ =>
      if n.receiverLoops = 0 then none
      else if n.receiverRunning then some (.testReady, n) else some (.ended, n)
  | .testReady, n, _ => if n.gNativeReady then some (.testContext, n) else some (.head, n)
  | .testContext, n, _ =>
      if n.gContext = none then some (.head, n.setLastError contextEmpty)
      else n.handle.map fun
        | none => (.head, n.setLastError contextEmpty)
        | some _ => (.pop, n)
  | .pop, n, _ =>
      match n.gInboundQueue with
      | [] => some (.head, n)
      | packet :: rest =>
          some (if packet = [] then .head else .hand packet, { n with gInboundQueue := rest })
  | .hand _, n, .fails =>
      some (.head, { n with gLastError := allocationFailed, refused := true })
  | .hand packet, n, _ => some (.head, { n with received := n.received ++ [packet] })
  | .ended, _, _ => none

/-- `onAdnlMessage`, which a client calls that is alive and has it as its callback. -/
def adnlStep (n : Process) : Act → Option Process
  | .arrives h data =>
      if ((n.clients h).map Client.hears).getD false then
        if data = [] then some n
        else some { n with gInboundQueue := n.gInboundQueue ++ [data], arrived := n.arrived ++ [data] }
      else none
  | _ => none

inductive ThreadId where
  | caller (i : Nat)
  | receiver
  | adnl
deriving DecidableEq

@[reducible] def Loc : ThreadId → Type
  | .caller _ => CallerPc
  | .receiver => ReceiverPc
  | .adnl => Unit

abbrev State := Interleaving.State Loc Process

def machine : Machine ThreadId Loc Process Act where
  step
    | .caller i, pc, n, a => callerStep i pc n a
    | .receiver, pc, n, a => receiverStep pc n a
    | .adnl, (), n, a => (adnlStep n a).map fun n' => ((), n')

def initial : State where
  loc
    | .caller _ => CallerPc.idle
    | .receiver => ReceiverPc.head
    | .adnl => ()
  shared := {}

end TonTunnel.NativeContext
