import TonTunnel.Egress.AdnlBackend

/-!
The promises of the queries that the ADNL backend has taken.

The map under `reply_mu_` is a table of pending requests, and the general facts about such a
table (`Pending.Sound`) are kept by every step, because a promise that is about to be stored
is in nobody else's hands (`At.fresh`). What is added here is whose promises they are: they
are stored under the key of their query, and the key determines the client and the stream.
`promises_kept` holds for every order of the steps of any number of calls.
-/

namespace TonTunnel.AdnlBackend

open Interleaving

variable {NodeId : Type}

/-! ### The invariant -/

section Invariant

variable {serialize : NodeId → Bytes} {c c' : CallId} {pc pc' : Pc NodeId}
  {n n' : Runtime NodeId}

/-- The promises that were stored came with queries, and the values are frames for them. -/
structure Good (serialize : NodeId → Bytes) (n : Runtime NodeId) : Prop where
  table : Pending.Sound n.pending
  asked {p : CallId} {key : Bytes} : n.pending.Stored p key → ∃ src payload,
    (p, .onAdnlQuery src payload) ∈ n.calls ∧ key = extractStreamKey (serialize src) payload ∧ key ≠ []
  value {p c : CallId} {frame : Bytes} : .settled p ⟨.value frame, c⟩ ∈ n.pending.history →
    ∃ src payload id, (p, .onAdnlQuery src payload) ∈ n.calls ∧
      (c, .sendToClient (serialize src) frame) ∈ n.calls ∧
      streamIdOf payload = some id ∧ streamIdOf frame = some id
  unique {c : CallId} {call call' : Call NodeId} :
    (c, call) ∈ n.calls → (c, call') ∈ n.calls → call = call'

/-- What a call holds at its position. -/
structure At (serialize : NodeId → Bytes) (c : CallId) (pc : Pc NodeId) (n : Runtime NodeId) :
    Prop where
  fresh : pc.holds = true → Pending.Fresh n.pending c
  serves {call : Call NodeId} : pc.call = some call → (c, call) ∈ n.calls
  new {call : Call NodeId} : pc = .idle → (c, call) ∉ n.calls
  keyed : pc.Keyed serialize
  passed {src : NodeId} {payload : Bytes} : pc.holds = false →
    (c, .onAdnlQuery src payload) ∈ n.calls → (∃ key, n.pending.Stored c key) ∨ n.pending.Settled c

/-- More calls are known, and the promises are the same. -/
theorem Good.more (h : Good serialize n) (pending : n'.pending = n.pending)
    (old : ∀ p call, (p, call) ∈ n.calls → (p, call) ∈ n'.calls)
    (unique : ∀ p call call', (p, call) ∈ n'.calls → (p, call') ∈ n'.calls → call = call') :
    Good serialize n' := by
  refine ⟨pending ▸ h.table, ?_, ?_, unique _ _ _⟩
  · intro p key stored
    rw [pending] at stored
    obtain ⟨src, payload, asked, key⟩ := h.asked stored
    exact ⟨src, payload, old _ _ asked, key⟩
  · intro p c frame settled
    rw [pending] at settled
    obtain ⟨src, payload, id, asked, given, ids⟩ := h.value settled
    exact ⟨src, payload, id, old _ _ asked, old _ _ given, ids⟩

theorem Good.comes {call : Call NodeId} (h : Good serialize n) (new : ∀ call, (c, call) ∉ n.calls)
    (calls : n'.calls = n.calls ++ [(c, call)]) (pending : n'.pending = n.pending) :
    Good serialize n' := by
  apply h.more pending
  · intro p call mem
    exact calls ▸ List.mem_append_left _ mem
  · intro p call₁ call₂ mem₁ mem₂
    rw [calls] at mem₁ mem₂
    obtain mem₁ | mem₁ := List.mem_append.mp mem₁
    · obtain mem₂ | mem₂ := List.mem_append.mp mem₂
      · exact h.unique mem₁ mem₂
      · cases List.mem_singleton.mp mem₂
        exact absurd mem₁ (new _)
    · obtain mem₂ | mem₂ := List.mem_append.mp mem₂
      · cases List.mem_singleton.mp mem₁
        exact absurd mem₂ (new _)
      · cases List.mem_singleton.mp mem₁
        cases List.mem_singleton.mp mem₂
        rfl

/-- The table changes, by entries that are accounted for. -/
theorem Good.pending {T : Pending.Table Bytes CallId Outcome} (h : Good serialize n)
    (table : Pending.Sound T)
    (stored : ∀ p key, T.Stored p key → n.pending.Stored p key ∨ ∃ src payload,
      (p, .onAdnlQuery src payload) ∈ n.calls ∧ key = extractStreamKey (serialize src) payload ∧
        key ≠ [])
    (value : ∀ p frame c, .settled p ⟨.value frame, c⟩ ∈ T.history →
      .settled p ⟨.value frame, c⟩ ∈ n.pending.history ∨
      ∃ src payload id, (p, .onAdnlQuery src payload) ∈ n.calls ∧
        (c, .sendToClient (serialize src) frame) ∈ n.calls ∧
        streamIdOf payload = some id ∧ streamIdOf frame = some id) :
    Good serialize { n with pending := T } := by
  refine ⟨table, ?_, ?_, h.unique⟩
  · intro p key mem
    exact (stored p key mem).elim h.asked id
  · intro p c frame mem
    exact (value p frame c mem).elim h.value id

/-- Settling with an error changes nothing about the stored promises and the values. -/
theorem Good.settleError {key message : Bytes} (h : Good serialize n) :
    Good serialize { n with pending := n.pending.settle key ⟨.error message, c⟩ } := by
  apply h.pending h.table.settle
  · intro p key' mem
    obtain mem | ⟨q, -, is⟩ := Pending.mem_settle.mp mem
    · exact .inl mem
    · cases is
  · intro p frame c' mem
    obtain mem | ⟨q, -, is⟩ := Pending.mem_settle.mp mem
    · exact .inl mem
    · cases is

theorem Good.answer {clientId payload : Bytes} (h : Good serialize n)
    (given : (c, .sendToClient clientId payload) ∈ n.calls)
    (keyed : extractStreamKey clientId payload ≠ []) :
    Good serialize
      { n with pending := n.pending.settle (extractStreamKey clientId payload) ⟨.value payload, c⟩ } := by
  apply h.pending h.table.settle
  · intro p key' mem
    obtain mem | ⟨q, -, is⟩ := Pending.mem_settle.mp mem
    · exact .inl mem
    · cases is
  · intro p frame c' mem
    obtain mem | ⟨q, waits, is⟩ := Pending.mem_settle.mp mem
    · exact .inl mem
    · cases is
      obtain ⟨src, asked, query, same, -⟩ := h.asked (h.table.latest waits).stored
      obtain ⟨rfl, id, here, there⟩ := extractStreamKey_inj keyed same
      exact .inr ⟨src, asked, id, query, given, there, here⟩

theorem Good.store {src : NodeId} {payload message : Bytes} (h : Good serialize n)
    (fresh : Pending.Fresh n.pending c) (query : (c, .onAdnlQuery src payload) ∈ n.calls)
    (keyed : extractStreamKey (serialize src) payload ≠ []) :
    Good serialize
      { n with
        pending := n.pending.store (extractStreamKey (serialize src) payload) c ⟨.error message, c⟩ } := by
  have settled := @Good.settleError _ _ c _ (extractStreamKey (serialize src) payload) message h
  apply h.pending (h.table.store fresh)
  · intro p key mem
    obtain mem | is := Pending.mem_store.mp mem
    · exact .inr (settled.asked mem)
    · cases is
      exact .inr ⟨src, payload, query, rfl, keyed⟩
  · intro p frame c' mem
    obtain mem | is := Pending.mem_store.mp mem
    · exact .inr (settled.value mem)
    · cases is

theorem Good.refuse {message : Bytes} (h : Good serialize n) (fresh : Pending.Fresh n.pending c) :
    Good serialize { n with pending := n.pending.refuse c ⟨.error message, c⟩ } := by
  apply h.pending (h.table.refuse fresh)
  · intro p key mem
    obtain mem | mem := List.mem_append.mp mem
    · exact .inl mem
    · cases List.mem_singleton.mp mem
  · intro p frame c' mem
    obtain mem | mem := List.mem_append.mp mem
    · exact .inl mem
    · cases List.mem_singleton.mp mem

/-- A step keeps the shared part. -/
theorem Move.good (m : Move serialize c n pc pc' n') (h : Good serialize n)
    (at_ : At serialize c pc n) : Good serialize n' := by
  cases m with
  | comes calls pending => exact h.comes (fun call => at_.new rfl) calls pending
  | refuse => exact h.refuse (at_.fresh rfl)
  | store => exact h.store (at_.fresh rfl) (at_.serves rfl) at_.keyed
  | fail => exact h.settleError
  | answer => exact h.answer (at_.serves rfl) at_.keyed
  | goes calls pending =>
      apply h.more pending
      · intro p call mem
        exact calls ▸ mem
      · intro p call call' mem mem'
        rw [calls] at mem mem'
        exact h.unique mem mem'

/-- A step of another call leaves a promise in the hands of its call. -/
theorem Move.fresh (m : Move serialize c n pc pc' n') (h : Good serialize n) (other : c' ≠ c)
    (fresh : Pending.Fresh n.pending c') : Pending.Fresh n'.pending c' := by
  cases m with
  | comes calls pending | goes calls pending =>
      rw [pending]
      exact fresh
  | refuse => exact fresh.refuse other
  | store => exact fresh.store h.table other
  | fail | answer => exact fresh.settle h.table

theorem Move.calls (m : Move serialize c n pc pc' n') :
    n'.calls = n.calls ∨ ∃ call, n'.calls = n.calls ++ [(c, call)] := by
  cases m with
  | comes calls => exact .inr ⟨_, calls⟩
  | goes calls => exact .inl calls
  | _ => exact .inl rfl

theorem Move.history (m : Move serialize c n pc pc' n') :
    ∀ e ∈ n.pending.history, e ∈ n'.pending.history := by
  intro e mem
  cases m with
  | comes calls pending | goes calls pending =>
      rw [pending]
      exact mem
  | refuse => exact List.mem_append_left _ mem
  | store => exact Pending.mem_store.mpr (.inl (Pending.mem_settle.mpr (.inl mem)))
  | fail | answer => exact Pending.mem_settle.mpr (.inl mem)

/-- A promise that was stored or resolved stays so. -/
theorem Move.passed (m : Move serialize c n pc pc' n') {p : CallId}
    (passed : (∃ key, n.pending.Stored p key) ∨ n.pending.Settled p) :
    (∃ key, n'.pending.Stored p key) ∨ n'.pending.Settled p := by
  obtain ⟨key, stored⟩ | ⟨o, settled⟩ := passed
  · exact .inl ⟨key, m.history _ stored⟩
  · exact .inr ⟨o, m.history _ settled⟩

/-- A step keeps the part of its call. -/
theorem Move.own (m : Move serialize c n pc pc' n') (at_ : At serialize c pc n) :
    At serialize c pc' n' := by
  have history := m.passed (p := c)
  cases m with
  | comes calls pending busy holds serves keyed =>
      refine ⟨?_, ?_, fun idle => absurd idle busy, keyed, ?_⟩
      · intro _
        rw [pending]
        exact at_.fresh rfl
      · intro call is
        rw [calls, serves call is]
        exact List.mem_append_right _ List.mem_cons_self
      · intro src payload lost mem
        rw [calls] at mem
        obtain mem | mem := List.mem_append.mp mem
        · exact absurd mem (at_.new rfl)
        · cases List.mem_singleton.mp mem
          rw [holds src payload rfl] at lost
          cases lost
  | goes calls pending busy holds serves keyed =>
      refine ⟨?_, ?_, fun idle => absurd idle busy, keyed at_.keyed, ?_⟩
      · intro held
        rw [pending]
        exact at_.fresh (holds ▸ held)
      · intro call is
        rw [calls]
        exact at_.serves (serves call is)
      · intro src payload lost mem
        rw [calls] at mem
        exact history (at_.passed (holds ▸ lost) mem)
  | refuse =>
      refine ⟨nofun, nofun, nofun, trivial, ?_⟩
      intro _ _ _ _
      exact .inr ⟨_, List.mem_append_right _ List.mem_cons_self⟩
  | store =>
      refine ⟨nofun, nofun, nofun, trivial, ?_⟩
      intro _ _ _ _
      exact .inl ⟨_, Pending.mem_store.mpr (.inr rfl)⟩
  | fail | answer =>
      refine ⟨nofun, nofun, nofun, trivial, ?_⟩
      intro src payload _ mem
      exact history (at_.passed rfl mem)

/-- A step keeps the parts of the other calls. -/
theorem Move.other {pc₀ : Pc NodeId} (m : Move serialize c n pc pc' n') (h : Good serialize n)
    (other : c' ≠ c) (at_ : At serialize c' pc₀ n) : At serialize c' pc₀ n' := by
  have known {call : Call NodeId} (mem : (c', call) ∈ n'.calls) : (c', call) ∈ n.calls := by
    obtain same | ⟨call', grown⟩ := m.calls
    · exact same ▸ mem
    · rw [grown] at mem
      obtain mem | mem := List.mem_append.mp mem
      · exact mem
      · cases List.mem_singleton.mp mem
        exact absurd rfl other
  refine ⟨fun held => m.fresh h other (at_.fresh held), ?_, ?_, at_.keyed, ?_⟩
  · intro call is
    obtain same | ⟨call', grown⟩ := m.calls
    · exact same ▸ at_.serves is
    · exact grown ▸ List.mem_append_left _ (at_.serves is)
  · intro call idle mem
    exact at_.new idle (known mem)
  · intro src payload lost mem
    exact m.passed (at_.passed lost (known mem))

theorem holds_of_reaches {s : System NodeId} (h : Reaches serialize s) :
    Holds (Good serialize) (At serialize) s := by
  apply Reach.threadModular ?_ ?_ ?_ h
  · constructor
    · exact ⟨.empty, nofun, nofun, nofun⟩
    · intro c
      exact ⟨fun _ => ⟨nofun, nofun⟩, nofun, nofun, trivial, nofun⟩
  · intro s c a pc n _ inv _ step
    have m := step_move step
    exact ⟨m.good inv.shared (inv.loc c), m.own (inv.loc c)⟩
  · intro s c a pc n _ inv _ step c' other
    exact (step_move step).other inv.shared other (inv.loc c')

end Invariant

/-! ### Promises -/

/-- The promise came with a query of this client for this stream. -/
def Asked (serialize : NodeId → Bytes) (n : Runtime NodeId) (p : CallId) (clientId : Bytes)
    (id : UInt32) : Prop :=
  ∃ src payload, (p, .onAdnlQuery src payload) ∈ n.calls ∧ serialize src = clientId ∧
    streamIdOf payload = some id

/-- What the runtime keeps of its promises. -/
structure PromisesKept (serialize : NodeId → Bytes) (s : System NodeId) : Prop where
  /-- at most one promise is stored for a client and a stream -/
  one {key key' : Bytes} {p p' : CallId} {clientId : Bytes} {id : UInt32} :
    s.shared.pending.waiting.lookup key = some p → s.shared.pending.waiting.lookup key' = some p' →
    Asked serialize s.shared p clientId id → Asked serialize s.shared p' clientId id →
      key = key' ∧ p = p'
  /-- it is that of the last query, and the only one that is not resolved -/
  latest {key : Bytes} {p : CallId} : s.shared.pending.waiting.lookup key = some p →
    ∃ clientId id, Asked serialize s.shared p clientId id ∧ key = keyFor clientId id ∧
      s.shared.pending.Latest key p ∧ ¬ s.shared.pending.Settled p ∧
      ∀ q key', Asked serialize s.shared q clientId id → s.shared.pending.Stored q key' →
        q = p ∨ s.shared.pending.Settled q
  /-- no promise is resolved twice -/
  once (p : CallId) : s.shared.pending.settlements p ≤ 1
  /-- a promise that is no longer stored is resolved -/
  gone {p : CallId} {key : Bytes} : s.shared.pending.Stored p key →
    (∀ key', s.shared.pending.waiting.lookup key' ≠ some p) → s.shared.pending.Settled p
  /-- and no promise is lost on the way to the map -/
  handed {p : CallId} {src : NodeId} {payload : Bytes} :
    (p, .onAdnlQuery src payload) ∈ s.shared.calls → (s.loc p).holds = false →
    (∃ key, s.shared.pending.waiting.lookup key = some p) ∨ s.shared.pending.Settled p
  /-- a value is a frame that was to be sent to the same client on the same stream -/
  value {p c : CallId} {frame : Bytes} :
    .settled p ⟨.value frame, c⟩ ∈ s.shared.pending.history →
    ∃ clientId id, Asked serialize s.shared p clientId id ∧
      (c, .sendToClient clientId frame) ∈ s.shared.calls ∧ streamIdOf frame = some id

section Kept

variable {serialize : NodeId → Bytes} {n : Runtime NodeId} {p : CallId} {key clientId : Bytes}
  {id : UInt32}

theorem Good.asked_of_stored (h : Good serialize n) (stored : n.pending.Stored p key) :
    ∃ clientId id, Asked serialize n p clientId id ∧ key = keyFor clientId id := by
  obtain ⟨src, payload, query, same, keyed⟩ := h.asked stored
  obtain ⟨id, is⟩ := streamIdOf_of_key (same ▸ keyed)
  exact ⟨serialize src, id, ⟨src, payload, query, rfl, is⟩, same.trans (extractStreamKey_of_some is)⟩

/-- A stored promise is stored under the key of its query. -/
theorem Good.key_of_asked (h : Good serialize n) (stored : n.pending.Stored p key)
    (asked : Asked serialize n p clientId id) : key = keyFor clientId id := by
  obtain ⟨src, payload, query, same, -⟩ := h.asked stored
  obtain ⟨src', payload', query', rfl, is⟩ := asked
  cases h.unique query query'
  exact same.trans (extractStreamKey_of_some is)

/-- **Pending queries** in every order of the calls' steps, for any client ids and payloads. -/
theorem promises_kept {s : System NodeId} (h : Reaches serialize s) : PromisesKept serialize s := by
  have inv := holds_of_reaches h
  have good := inv.shared
  constructor
  · intro key key' p p' clientId id found found' asked asked'
    have same := good.key_of_asked (good.table.latest found).stored asked
    have same' := good.key_of_asked (good.table.latest found').stored asked'
    have keys : key = key' := same.trans same'.symm
    rw [keys, found'] at found
    exact ⟨keys, (Option.some.inj found).symm⟩
  · intro key p found
    have last := good.table.latest found
    obtain ⟨clientId, id, asked, is⟩ := good.asked_of_stored last.stored
    refine ⟨clientId, id, asked, is, last, good.table.unsettled found, ?_⟩
    intro q key' asked' stored
    have same : key' = key := (good.key_of_asked stored asked').trans is.symm
    obtain waits | settled := good.table.accounted stored
    · rw [same, found] at waits
      exact .inl (Option.some.inj waits).symm
    · exact .inr settled
  · exact good.table.once
  · intro p key stored gone
    exact (good.table.accounted stored).resolve_left (gone key)
  · intro p src payload query passed
    obtain ⟨key, stored⟩ | settled := (inv.loc p).passed passed query
    · obtain waits | settled := good.table.accounted stored
      · exact .inl ⟨key, waits⟩
      · exact .inr settled
    · exact .inr settled
  · intro p c frame settled
    obtain ⟨src, payload, id, query, given, is, is'⟩ := good.value settled
    exact ⟨serialize src, id, ⟨src, payload, query, rfl, is⟩, given, is'⟩

end Kept

/-- Client `A` asks on stream 7, and a frame is sent to it on stream 7. -/
def answeredQuery : List (CallId × Act Bytes) :=
  [(0, .call (.switch true true)), (1, .call (.setOnMessage true)),
    (2, .call (.onAdnlQuery (ascii "A") [2, 0, 0, 0, 7])), (2, .go), (2, .go), (2, .go), (2, .go),
    (3, .call (.sendToClient (ascii "A") [3, 0, 0, 0, 7])), (3, .go), (3, .go)]

theorem query_answered :
    .settled 2 ⟨.value [3, 0, 0, 0, 7], 3⟩ ∈
      ((machine id).run init answeredQuery).shared.pending.history ∧
    PromisesKept id ((machine id).run init answeredQuery) := by
  have reaches : Reaches id ((machine id).run init answeredQuery) :=
    (Reach.run (by decide : (machine id).follows (fun _ _ _ => true) init answeredQuery)).any
  exact ⟨by decide, promises_kept reaches⟩

end TonTunnel.AdnlBackend
