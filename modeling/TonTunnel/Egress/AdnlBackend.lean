import TonTunnel.Egress.Policy
import TonTunnel.Lib.Interleaving
import TonTunnel.Lib.Pending

/-!
The ADNL backend of the egress node: `AdnlBackendRuntime` of `ton_adnl_backend.cpp`.

A query of a client comes with a promise, which waits in `pending_query_promises_` under the
client and the stream id of the query until a frame for both is sent. Any number of calls
run at once. A call is known by a number and goes from one section under `mu_` or
`reply_mu_` to the next; its number also names the promise it came with. `serialize` is the
text of a short node id, which is the client id.
-/

namespace TonTunnel.AdnlBackend

open BigEndian Interleaving

/-- A call, and the promise it came with. -/
abbrev CallId := Nat

variable {NodeId : Type}

/-- The calls of the runtime. `switch` stands for what `start`, `stop` and the scheduler
thread do to `running_` and `adnl_`. -/
inductive Call (NodeId : Type) where
  | onAdnlQuery (src : NodeId) (payload : Bytes)
  | onAdnlMessage (src : NodeId) (payload : Bytes)
  | sendToClient (clientId payload : Bytes)
  | setOnMessage (set : Bool)
  | switch (running adnl : Bool)
  deriving DecidableEq, Repr

/-- `set_value` and `set_error`. -/
inductive Answer where
  | value (frame : Bytes)
  | error (message : Bytes)
  deriving DecidableEq, Repr

/-- What a promise was resolved with, and the call that did it. -/
structure Outcome where
  answer : Answer
  call : CallId
  deriving DecidableEq, Repr

/-- The members of the class. `calls`, `handled` and `sent` are history. -/
structure Runtime (NodeId : Type) where
  running : Bool := false
  adnl : Bool := false
  onMessage : Bool := false
  knownClients : AList (fun _ : Bytes => NodeId) := ∅
  /-- `pending_query_promises_` -/
  pending : Pending.Table Bytes CallId Outcome := {}
  calls : List (CallId × Call NodeId) := []
  handled : List (Bytes × Bytes) := []
  sent : List (NodeId × Bytes) := []

/-- `extract_stream_key`. -/
def extractStreamKey (clientId payload : Bytes) : Bytes :=
  if h : payload.length < 5 then []
  else clientId ++ ascii "#" ++ toString10 (readU32 payload 1 (by omega)).toNat

/-- Where a call stands. -/
inductive Pc (NodeId : Type) where
  | idle
  | queryEnter (src : NodeId) (payload : Bytes)
  | queryKnow (src : NodeId) (payload : Bytes)
  | queryStore (src : NodeId) (payload : Bytes)
  | queryHandler (src : NodeId) (payload : Bytes)
  | queryFail (src : NodeId) (payload : Bytes)
  | messageKnow (src : NodeId) (payload : Bytes)
  | handling (clientId payload : Bytes)
  | sendEnter (clientId payload : Bytes)
  | sendAnswer (clientId payload : Bytes)
  | sendFind (clientId payload : Bytes)
  | sendMessage (dst : NodeId) (payload : Bytes)
  | returned (result : Option Bool)
  deriving DecidableEq, Repr

/-- What happens at a step: a call comes in, or goes on. -/
inductive Act (NodeId : Type) where
  | call (call : Call NodeId)
  | go
  deriving DecidableEq, Repr

section Steps

variable (serialize : NodeId → Bytes)

/-- One step of a call. -/
def step (c : CallId) (pc : Pc NodeId) (n : Runtime NodeId) (a : Act NodeId) :
    Option (Pc NodeId × Runtime NodeId) :=
  match pc, a with
  | .idle, .call call =>
      let n' := { n with calls := n.calls ++ [(c, call)] }
      match call with
      | .onAdnlQuery src payload => some (.queryEnter src payload, n')
      | .onAdnlMessage src payload => some (.messageKnow src payload, n')
      | .sendToClient clientId payload => some (.sendEnter clientId payload, n')
      | .setOnMessage set => some (.returned none, { n' with onMessage := set })
      | .switch running adnl => some (.returned none, { n' with running, adnl })
  -- `on_adnl_query`
  | .queryEnter src payload, .go =>
      if extractStreamKey (serialize src) payload = [] then
        some (.returned none,
          { n with pending := n.pending.refuse c ⟨.error (ascii "invalid query frame"), c⟩ })
      else some (.queryKnow src payload, n)
  | .queryKnow src payload, .go =>
      some (.queryStore src payload,
        { n with knownClients := n.knownClients.insert (serialize src) src })
  | .queryStore src payload, .go =>
      some (.queryHandler src payload,
        { n with
          pending := n.pending.store (extractStreamKey (serialize src) payload) c
            ⟨.error (ascii "query superseded by new request"), c⟩ })
  | .queryHandler src payload, .go =>
      if n.onMessage then some (.handling (serialize src) payload, n)
      else some (.queryFail src payload, n)
  -- whatever promise waits under the key by now
  | .queryFail src payload, .go =>
      some (.returned none,
        { n with
          pending := n.pending.settle (extractStreamKey (serialize src) payload)
            ⟨.error (ascii "egress handler is not set"), c⟩ })
  -- `on_adnl_message`
  | .messageKnow src payload, .go =>
      let n' := { n with knownClients := n.knownClients.insert (serialize src) src }
      if n.onMessage then some (.handling (serialize src) payload, n')
      else some (.returned none, n')
  -- the handler answers by calls of `sendToClient`, which are calls of their own
  | .handling clientId payload, .go =>
      some (.returned none, { n with handled := n.handled ++ [(clientId, payload)] })
  -- `sendToClient`
  | .sendEnter clientId payload, .go =>
      if !n.running || payload = [] || !n.adnl then some (.returned (some false), n)
      else if extractStreamKey clientId payload = [] then some (.sendFind clientId payload, n)
      else some (.sendAnswer clientId payload, n)
  | .sendAnswer clientId payload, .go =>
      some (.sendFind clientId payload,
        { n with pending := n.pending.settle (extractStreamKey clientId payload) ⟨.value payload, c⟩ })
  | .sendFind clientId payload, .go =>
      match n.knownClients.lookup clientId with
      | none => some (.returned (some false), n)
      | some dst => some (.sendMessage dst payload, n)
  | .sendMessage dst payload, .go =>
      some (.returned (some true), { n with sent := n.sent ++ [(dst, payload)] })
  | _, _ => none

/-- The runtime with its calls. -/
def machine : Machine CallId (fun _ => Pc NodeId) (Runtime NodeId) (Act NodeId) :=
  ⟨step serialize⟩

end Steps

abbrev System (NodeId : Type) := State (fun _ : CallId => Pc NodeId) (Runtime NodeId)

def init : System NodeId := ⟨fun _ => .idle, {}⟩

/-- States of all runs. -/
abbrev Reaches (serialize : NodeId → Bytes) (s : System NodeId) : Prop :=
  Reach (machine serialize) anyStep init s

/-! ### What a step can do -/

section Moves

variable {serialize : NodeId → Bytes} {c : CallId} {pc pc' : Pc NodeId} {n n' : Runtime NodeId}
  {a : Act NodeId}

/-- The call that a position belongs to, as far as it may still store or resolve a promise with
a value. -/
def Pc.call : Pc NodeId → Option (Call NodeId)
  | .queryEnter src payload | .queryKnow src payload | .queryStore src payload =>
      some (.onAdnlQuery src payload)
  | .sendEnter clientId payload | .sendAnswer clientId payload =>
      some (.sendToClient clientId payload)
  | _ => none

/-- The promise of the call is still in the call's hands. -/
def Pc.holds : Pc NodeId → Bool
  | .idle | .queryEnter _ _ | .queryKnow _ _ | .queryStore _ _ => true
  | _ => false

/-- Behind the test of the key. -/
def Pc.Keyed (serialize : NodeId → Bytes) : Pc NodeId → Prop
  | .queryKnow src payload | .queryStore src payload => extractStreamKey (serialize src) payload ≠ []
  | .sendAnswer clientId payload => extractStreamKey clientId payload ≠ []
  | _ => True

/-- The steps that matter to promises, one constructor each. -/
inductive Move (serialize : NodeId → Bytes) (c : CallId) (n : Runtime NodeId) :
    Pc NodeId → Pc NodeId → Runtime NodeId → Prop
  | comes {call : Call NodeId} {pc' : Pc NodeId} {n' : Runtime NodeId}
      (calls : n'.calls = n.calls ++ [(c, call)]) (pending : n'.pending = n.pending)
      (busy : pc' ≠ .idle) (holds : ∀ src payload, call = .onAdnlQuery src payload → pc'.holds = true)
      (serves : ∀ call', pc'.call = some call' → call' = call)
      (keyed : pc'.Keyed serialize) : Move serialize c n .idle pc' n'
  | refuse {src payload o} :
      Move serialize c n (.queryEnter src payload) (.returned none)
        { n with pending := n.pending.refuse c ⟨.error o, c⟩ }
  | store {src payload o} :
      Move serialize c n (.queryStore src payload) (.queryHandler src payload)
        { n with pending := n.pending.store (extractStreamKey (serialize src) payload) c ⟨.error o, c⟩ }
  | fail {src payload o} :
      Move serialize c n (.queryFail src payload) (.returned none)
        { n with pending := n.pending.settle (extractStreamKey (serialize src) payload) ⟨.error o, c⟩ }
  | answer {clientId payload} :
      Move serialize c n (.sendAnswer clientId payload) (.sendFind clientId payload)
        { n with pending := n.pending.settle (extractStreamKey clientId payload) ⟨.value payload, c⟩ }
  | goes {pc pc' : Pc NodeId} {n' : Runtime NodeId}
      (calls : n'.calls = n.calls) (pending : n'.pending = n.pending)
      (busy : pc' ≠ .idle) (holds : pc'.holds = pc.holds)
      (serves : ∀ call, pc'.call = some call → pc.call = some call)
      (keyed : pc.Keyed serialize → pc'.Keyed serialize) : Move serialize c n pc pc' n'

theorem step_move (h : step serialize c pc n a = some (pc', n')) : Move serialize c n pc pc' n' := by
  unfold step at h
  split at h
  · dsimp only at h
    split at h <;> cases h
    · exact .comes rfl rfl nofun (fun _ _ _ => rfl) (by rintro _ ⟨⟩; rfl) trivial
    · exact .comes rfl rfl nofun nofun nofun trivial
    · exact .comes rfl rfl nofun nofun (by rintro _ ⟨⟩; rfl) trivial
    · exact .comes rfl rfl nofun nofun nofun trivial
    · exact .comes rfl rfl nofun nofun nofun trivial
  -- `on_adnl_query`
  · split at h <;> cases h
    · exact .refuse
    · exact .goes rfl rfl nofun rfl (fun _ is => is) (fun _ => ‹_›)
  · cases h
    exact .goes rfl rfl nofun rfl (fun _ is => is) (fun is => is)
  · cases h
    exact .store
  · split at h <;> cases h
    · exact .goes rfl rfl nofun rfl nofun (fun _ => trivial)
    · exact .goes rfl rfl nofun rfl nofun (fun _ => trivial)
  · cases h
    exact .fail
  -- `on_adnl_message`
  · dsimp only at h
    split at h <;> cases h
    · exact .goes rfl rfl nofun rfl nofun (fun _ => trivial)
    · exact .goes rfl rfl nofun rfl nofun (fun _ => trivial)
  · cases h
    exact .goes rfl rfl nofun rfl nofun (fun _ => trivial)
  -- `sendToClient`
  · split at h
    · cases h
      exact .goes rfl rfl nofun rfl nofun (fun _ => trivial)
    · split at h <;> cases h
      · exact .goes rfl rfl nofun rfl nofun (fun _ => trivial)
      · exact .goes rfl rfl nofun rfl (fun _ is => is) (fun _ => ‹_›)
  · cases h
    exact .answer
  · split at h <;> cases h
    · exact .goes rfl rfl nofun rfl nofun (fun _ => trivial)
    · exact .goes rfl rfl nofun rfl nofun (fun _ => trivial)
  · cases h
    exact .goes rfl rfl nofun rfl nofun (fun _ => trivial)
  · cases h

end Moves

/-! ### Keys -/

/-- The stream id of a frame. -/
def streamIdOf (payload : Bytes) : Option UInt32 :=
  if h : payload.length < 5 then none else some (readU32 payload 1 (by omega))

section Keys

variable {clientId clientId' payload payload' : Bytes} {id : UInt32}

theorem extractStreamKey_of_some (is : streamIdOf payload = some id) :
    extractStreamKey clientId payload = keyFor clientId id := by
  unfold streamIdOf at is
  split at is
  · cases is
  · next long =>
      cases is
      rw [extractStreamKey, dif_neg long]
      rfl

theorem streamIdOf_of_key (key : extractStreamKey clientId payload ≠ []) :
    ∃ id, streamIdOf payload = some id := by
  unfold extractStreamKey at key
  split at key
  · exact absurd rfl key
  · next long => exact ⟨_, dif_neg long⟩

/-- Equal keys are of the same client and the same stream, whatever the client ids are. -/
theorem extractStreamKey_inj (key : extractStreamKey clientId payload ≠ [])
    (same : extractStreamKey clientId payload = extractStreamKey clientId' payload') :
    clientId = clientId' ∧ ∃ id, streamIdOf payload = some id ∧ streamIdOf payload' = some id := by
  obtain ⟨id, is⟩ := streamIdOf_of_key key
  obtain ⟨id', is'⟩ := streamIdOf_of_key (same ▸ key)
  rw [extractStreamKey_of_some is, extractStreamKey_of_some is'] at same
  obtain ⟨clients, ids⟩ := keyFor_inj same
  exact ⟨clients, id, is, ids ▸ is'⟩

end Keys

end TonTunnel.AdnlBackend
