import TonTunnel.Egress.Destinations
import TonTunnel.Egress.PendingQueries

/-!
Who a frame comes from and who it goes to.

The backend knows a client by the text of its node id and remembers which node that text
stands for. Between the backend and the egress node the text passes through C strings
twice, in `onMessageBridge` and in `TonTransportAdnl::sendToClient`.

* Every step either leaves what was received, known, handed up and sent as it is or adds one
  entry to it, and says which (`Carry`).
* Each frame that is handed up belongs to one call for a message or query, and each message
  that is sent to one call of `sendToClient` that returns true (`Matched`).
* If the texts of node ids are distinct and have no NUL, what the egress node sends to the
  client of a frame goes to the node that the frame came from (`replies_reach_sender`), for
  every order of the steps of any number of calls.
-/

namespace TonTunnel.AdnlBackend

open Interleaving

variable {NodeId : Type}

/-! ### Through the C interface -/

/-- `onMessageBridge`; `data()` of an empty vector is null. -/
def onMessageBridge (entry : Bytes × Bytes) : Option (Bytes × Bytes) :=
  if entry.2 = [] then none else some (cString entry.1, entry.2)

/-- What the handler of the egress node has been called with. -/
def Runtime.handedUp (n : Runtime NodeId) : List (Bytes × Bytes) :=
  n.handled.filterMap onMessageBridge

/-- The call that `TonTransportAdnl::sendToClient` makes. -/
def egressSend (clientId payload : Bytes) : Call NodeId :=
  .sendToClient (cString clientId) payload

/-! ### What a step adds -/

section Carry

variable {serialize : NodeId → Bytes} {c : CallId} {pc pc' : Pc NodeId} {n n' : Runtime NodeId}
  {a : Act NodeId}

/-- A message or query of this node came with this payload in call `c`. -/
def Came (n : Runtime NodeId) (c : CallId) (src : NodeId) (payload : Bytes) : Prop :=
  (c, .onAdnlMessage src payload) ∈ n.calls ∨ (c, .onAdnlQuery src payload) ∈ n.calls

/-- The position is one of this call. -/
def Pc.Of (serialize : NodeId → Bytes) (call : Call NodeId) : Pc NodeId → Prop
  | .queryEnter src payload | .queryKnow src payload | .queryStore src payload
  | .queryHandler src payload | .queryFail src payload => call = .onAdnlQuery src payload
  | .messageKnow src payload => call = .onAdnlMessage src payload
  | .handling clientId payload => ∃ src, serialize src = clientId ∧
      (call = .onAdnlMessage src payload ∨ call = .onAdnlQuery src payload)
  | .sendEnter clientId payload | .sendAnswer clientId payload | .sendFind clientId payload =>
      call = .sendToClient clientId payload
  | .sendMessage dst payload => call = .sendToClient (serialize dst) payload
  | .idle | .returned _ => True

/-- A node is known under this text. -/
def Known (serialize : NodeId → Bytes) (n : Runtime NodeId) (clientId : Bytes) : Prop :=
  ∃ dst, n.knownClients.lookup clientId = some dst ∧ serialize dst = clientId

/-- The sender is known before the frame is handed up, and whoever is sent to has spoken. -/
def Pc.Introduced (serialize : NodeId → Bytes) (n : Runtime NodeId) : Pc NodeId → Prop
  | .queryStore src _ | .queryHandler src _ => Known serialize n (serialize src)
  | .handling clientId _ => Known serialize n clientId
  | .sendMessage dst _ => ∃ c payload, Came n c dst payload
  | _ => True

/-- Apart from the lists named, what this module is about stays as it is. -/
structure Same (n n' : Runtime NodeId) : Prop where
  calls : n'.calls = n.calls
  known : n'.knownClients = n.knownClients
  handled : n'.handled = n.handled
  sent : n'.sent = n.sent

/-- The steps that matter to the way of a frame, one constructor each. -/
inductive Carry (serialize : NodeId → Bytes) (c : CallId) (n : Runtime NodeId) :
    Pc NodeId → Pc NodeId → Runtime NodeId → Prop
  | comes {call : Call NodeId} {pc' : Pc NodeId} {n' : Runtime NodeId}
      (calls : n'.calls = n.calls ++ [(c, call)]) (known : n'.knownClients = n.knownClients)
      (handled : n'.handled = n.handled) (sent : n'.sent = n.sent) (of : pc'.Of serialize call)
      (busy : pc' ≠ .idle) (unsent : pc' ≠ .returned (some true))
      (introduced : pc'.Introduced serialize n') : Carry serialize c n .idle pc' n'
  | know {pc pc' : Pc NodeId} {n' : Runtime NodeId} (src : NodeId) (payload : Bytes)
      (known : n'.knownClients = n.knownClients.insert (serialize src) src)
      (calls : n'.calls = n.calls) (handled : n'.handled = n.handled) (sent : n'.sent = n.sent)
      (source : ∀ call, pc.Of serialize call →
        call = .onAdnlMessage src payload ∨ call = .onAdnlQuery src payload)
      (of : ∀ call, pc.Of serialize call → pc'.Of serialize call) (busy : pc ≠ .idle ∧ pc' ≠ .idle)
      (unsent : pc' ≠ .returned (some true)) (introduced : pc'.Introduced serialize n') :
      Carry serialize c n pc pc' n'
  | hand {clientId payload} :
      Carry serialize c n (.handling clientId payload) (.returned none)
        { n with handled := n.handled ++ [(clientId, payload)] }
  | find {clientId payload dst} (known : n.knownClients.lookup clientId = some dst) :
      Carry serialize c n (.sendFind clientId payload) (.sendMessage dst payload) n
  | send {dst payload} :
      Carry serialize c n (.sendMessage dst payload) (.returned (some true))
        { n with sent := n.sent ++ [(dst, payload)] }
  | goes {pc pc' : Pc NodeId} {n' : Runtime NodeId} (same : Same n n')
      (of : ∀ call, pc.Of serialize call → pc'.Of serialize call) (busy : pc ≠ .idle ∧ pc' ≠ .idle)
      (unsent : pc' ≠ .returned (some true))
      (introduced : pc.Introduced serialize n → pc'.Introduced serialize n') :
      Carry serialize c n pc pc' n'

theorem step_carry (h : step serialize c pc n a = some (pc', n')) :
    Carry serialize c n pc pc' n' := by
  have here : Same n n := ⟨rfl, rfl, rfl, rfl⟩
  unfold step at h
  split at h
  · dsimp only at h
    split at h <;> cases h
    · exact .comes rfl rfl rfl rfl rfl nofun nofun trivial
    · exact .comes rfl rfl rfl rfl rfl nofun nofun trivial
    · exact .comes rfl rfl rfl rfl rfl nofun nofun trivial
    · exact .comes rfl rfl rfl rfl trivial nofun nofun trivial
    · exact .comes rfl rfl rfl rfl trivial nofun nofun trivial
  -- `on_adnl_query`
  · split at h <;> cases h
    · exact .goes ⟨rfl, rfl, rfl, rfl⟩ (fun _ _ => trivial) ⟨nofun, nofun⟩ nofun (fun _ => trivial)
    · exact .goes here (fun _ is => is) ⟨nofun, nofun⟩ nofun (fun _ => trivial)
  · next src payload =>
      cases h
      exact .know src payload rfl rfl rfl rfl (fun _ is => .inr is)
        (fun _ is => is) ⟨nofun, nofun⟩ nofun ⟨src, AList.lookup_insert _, rfl⟩
  · cases h
    exact .goes ⟨rfl, rfl, rfl, rfl⟩ (fun _ is => is) ⟨nofun, nofun⟩ nofun (fun known => known)
  · next src payload =>
      split at h <;> cases h
      · exact .goes here (fun _ is => ⟨src, rfl, .inr is⟩) ⟨nofun, nofun⟩ nofun
          (fun known => known)
      · exact .goes here (fun _ is => is) ⟨nofun, nofun⟩ nofun (fun _ => trivial)
  · cases h
    exact .goes ⟨rfl, rfl, rfl, rfl⟩ (fun _ _ => trivial) ⟨nofun, nofun⟩ nofun (fun _ => trivial)
  -- `on_adnl_message`
  · next src payload =>
      dsimp only at h
      split at h <;> cases h
      · exact .know src payload rfl rfl rfl rfl (fun _ is => .inl is)
          (fun _ is => ⟨src, rfl, .inl is⟩) ⟨nofun, nofun⟩ nofun
          ⟨src, AList.lookup_insert _, rfl⟩
      · exact .know src payload rfl rfl rfl rfl (fun _ is => .inl is)
          (fun _ _ => trivial) ⟨nofun, nofun⟩ nofun trivial
  · cases h
    exact .hand
  -- `sendToClient`
  · split at h
    · cases h
      exact .goes here (fun _ _ => trivial) ⟨nofun, nofun⟩ nofun (fun _ => trivial)
    · split at h <;> cases h
      · exact .goes here (fun _ is => is) ⟨nofun, nofun⟩ nofun (fun _ => trivial)
      · exact .goes here (fun _ is => is) ⟨nofun, nofun⟩ nofun (fun _ => trivial)
  · cases h
    exact .goes ⟨rfl, rfl, rfl, rfl⟩ (fun _ is => is) ⟨nofun, nofun⟩ nofun (fun _ => trivial)
  · split at h
    · cases h
      exact .goes here (fun _ _ => trivial) ⟨nofun, nofun⟩ nofun (fun _ => trivial)
    · next known =>
        cases h
        exact .find known
  · cases h
    exact .send
  · cases h

/-- A call that has returned takes no step. -/
theorem step_returned {result : Option Bool} : step serialize c (.returned result) n a = none := by
  cases a <;> rfl

end Carry

/-! ### The invariant -/

section Invariant

variable {serialize : NodeId → Bytes} {c c' : CallId} {pc pc' pc₀ : Pc NodeId}
  {n n' : Runtime NodeId} {clientId : Bytes}

/-- The known clients are known under their own texts, and have spoken; whoever a frame was
handed up for is among them, and nobody else has been sent anything. -/
structure Kept (serialize : NodeId → Bytes) (n : Runtime NodeId) : Prop where
  texts {clientId : Bytes} {dst : NodeId} :
    n.knownClients.lookup clientId = some dst → serialize dst = clientId
  spoke {clientId : Bytes} {dst : NodeId} : n.knownClients.lookup clientId = some dst →
    ∃ c payload, Came n c dst payload
  answerable : ∀ entry ∈ n.handled, Known serialize n entry.1
  sentTo : ∀ entry ∈ n.sent, ∃ c payload, Came n c entry.1 payload

/-- What holds at the position of a call. -/
structure Stands (serialize : NodeId → Bytes) (c : CallId) (pc : Pc NodeId) (n : Runtime NodeId) :
    Prop where
  of {call : Call NodeId} : (c, call) ∈ n.calls → pc.Of serialize call
  begun : pc ≠ .idle → ∃ call, (c, call) ∈ n.calls
  new {call : Call NodeId} : pc = .idle → (c, call) ∉ n.calls
  introduced : pc.Introduced serialize n

/-- A step forgets no call. -/
theorem Carry.calls (m : Carry serialize c n pc pc' n') : ∀ entry ∈ n.calls, entry ∈ n'.calls := by
  intro entry mem
  cases m with
  | comes calls => exact calls ▸ List.mem_append_left _ mem
  | know _ _ known calls => exact calls ▸ mem
  | goes same => exact same.calls ▸ mem
  | _ => exact mem

theorem Carry.came (m : Carry serialize c n pc pc' n') {src : NodeId} {payload : Bytes}
    (came : Came n c' src payload) : Came n' c' src payload :=
  came.imp (m.calls _) (m.calls _)

/-- A text that stands for a node goes on to do so. -/
theorem Carry.keeps_known (m : Carry serialize c n pc pc' n') (known : Known serialize n clientId) :
    Known serialize n' clientId := by
  obtain ⟨dst, found, text⟩ := known
  cases m with
  | comes calls known => exact ⟨dst, known ▸ found, text⟩
  | @know _ _ _ src _ known =>
      by_cases same : clientId = serialize src
      · refine ⟨src, ?_, same.symm⟩
        rw [known, same]
        exact AList.lookup_insert _
      · refine ⟨dst, ?_, text⟩
        rw [known, AList.lookup_insert_ne same]
        exact found
  | goes same => exact ⟨dst, same.known ▸ found, text⟩
  | _ => exact ⟨dst, found, text⟩

theorem Carry.keeps_introduced (m : Carry serialize c n pc pc' n')
    (introduced : pc₀.Introduced serialize n) : pc₀.Introduced serialize n' := by
  cases pc₀ with
  | queryStore | queryHandler | handling => exact m.keeps_known introduced
  | sendMessage =>
      obtain ⟨c', payload, came⟩ := introduced
      exact ⟨c', payload, m.came came⟩
  | _ => trivial

/-- A step keeps the shared part. -/
theorem Carry.kept (m : Carry serialize c n pc pc' n') (h : Kept serialize n)
    (stands : Stands serialize c pc n) : Kept serialize n' := by
  have came {c' : CallId} {src : NodeId} {payload : Bytes} := @Carry.came _ _ _ c' _ _ _ _ m src payload
  have known {clientId : Bytes} := @Carry.keeps_known _ _ _ _ _ _ _ clientId m
  have spoken {dst : NodeId} (spoke : ∃ c payload, Came n c dst payload) :
      ∃ c payload, Came n' c dst payload := by
    obtain ⟨c', payload, before⟩ := spoke
    exact ⟨c', payload, came before⟩
  have keep (same : n'.knownClients = n.knownClients)
      (answerable : ∀ entry ∈ n'.handled, Known serialize n entry.1)
      (sentTo : ∀ entry ∈ n'.sent, ∃ c payload, Came n c entry.1 payload) : Kept serialize n' :=
    ⟨fun found => h.texts (same ▸ found), fun found => spoken (h.spoke (same ▸ found)),
      fun e mem => known (answerable e mem), fun e mem => spoken (sentTo e mem)⟩
  cases m with
  | comes calls known handled sent => exact keep known (handled ▸ h.answerable) (sent ▸ h.sentTo)
  | goes same =>
      exact keep same.known (same.handled ▸ h.answerable) (same.sent ▸ h.sentTo)
  | find => exact keep rfl h.answerable h.sentTo
  | hand =>
      refine keep rfl ?_ h.sentTo
      intro entry mem
      rcases List.mem_append.mp mem with mem | mem
      · exact h.answerable entry mem
      · cases List.mem_singleton.mp mem
        exact stands.introduced
  | send =>
      refine keep rfl h.answerable ?_
      intro entry mem
      rcases List.mem_append.mp mem with mem | mem
      · exact h.sentTo entry mem
      · cases List.mem_singleton.mp mem
        exact stands.introduced
  | @know _ _ _ src payload inserted calls handled sent source _ busy =>
      obtain ⟨call, begun⟩ := stands.begun busy.1
      have source := source call (stands.of begun)
      have speaks : Came n c src payload := by
        rcases source with rfl | rfl
        · exact .inl begun
        · exact .inr begun
      refine ⟨?_, ?_, fun e mem => known (h.answerable e (handled ▸ mem)),
        fun e mem => spoken (h.sentTo e (sent ▸ mem))⟩
      · intro clientId dst found
        rw [inserted] at found
        by_cases same : clientId = serialize src
        · rw [same, AList.lookup_insert] at found
          cases found
          exact same.symm
        · rw [AList.lookup_insert_ne same] at found
          exact h.texts found
      · intro clientId dst found
        rw [inserted] at found
        by_cases same : clientId = serialize src
        · rw [same, AList.lookup_insert] at found
          cases found
          exact ⟨c, payload, came speaks⟩
        · rw [AList.lookup_insert_ne same] at found
          exact spoken (h.spoke found)

/-- A step keeps the part of its call. -/
theorem Carry.own (m : Carry serialize c n pc pc' n') (h : Kept serialize n)
    (stands : Stands serialize c pc n) : Stands serialize c pc' n' := by
  cases m with
  | @comes call _ _ calls known handled sent of busy unsent introduced =>
      refine ⟨?_, fun _ => ⟨call, ?_⟩, fun idle => absurd idle busy, introduced⟩
      · intro call' mem
        rw [calls] at mem
        rcases List.mem_append.mp mem with mem | mem
        · exact absurd mem (stands.new rfl)
        · cases List.mem_singleton.mp mem
          exact of
      · rw [calls]
        exact List.mem_append_right _ List.mem_cons_self
  | know _ _ known calls handled sent source of busy unsent introduced =>
      obtain ⟨call, begun⟩ := stands.begun busy.1
      refine ⟨?_, fun _ => ⟨call, calls ▸ begun⟩, fun idle => absurd idle busy.2, introduced⟩
      intro call' mem
      exact of call' (stands.of (calls ▸ mem))
  | hand =>
      obtain ⟨call, begun⟩ := stands.begun nofun
      exact ⟨fun _ => trivial, fun _ => ⟨call, begun⟩, nofun, trivial⟩
  | find known =>
      obtain ⟨call, begun⟩ := stands.begun nofun
      refine ⟨fun mem => ?_, fun _ => ⟨call, begun⟩, nofun, h.spoke known⟩
      have of := stands.of mem
      rwa [Pc.Of, ← h.texts known] at of
  | send =>
      obtain ⟨call, begun⟩ := stands.begun nofun
      exact ⟨fun _ => trivial, fun _ => ⟨call, begun⟩, nofun, trivial⟩
  | goes same of busy unsent introduced =>
      obtain ⟨call, begun⟩ := stands.begun busy.1
      refine ⟨?_, fun _ => ⟨call, same.calls ▸ begun⟩, fun idle => absurd idle busy.2,
        introduced stands.introduced⟩
      intro call' mem
      exact of call' (stands.of (same.calls ▸ mem))

/-- A step keeps the parts of the other calls. -/
theorem Carry.other (m : Carry serialize c n pc pc' n') (other : c' ≠ c)
    (stands : Stands serialize c' pc₀ n) : Stands serialize c' pc₀ n' := by
  have old {call : Call NodeId} (mem : (c', call) ∈ n'.calls) : (c', call) ∈ n.calls := by
    cases m with
    | comes calls =>
        rw [calls] at mem
        rcases List.mem_append.mp mem with mem | mem
        · exact mem
        · cases List.mem_singleton.mp mem
          exact absurd rfl other
    | know _ _ known calls => exact calls ▸ mem
    | goes same => exact same.calls ▸ mem
    | _ => exact mem
  refine ⟨fun mem => stands.of (old mem), fun busy => ?_, fun idle mem => stands.new idle (old mem),
    m.keeps_introduced stands.introduced⟩
  obtain ⟨call, begun⟩ := stands.begun busy
  exact ⟨call, m.calls _ begun⟩

theorem stands_of_reaches {s : System NodeId} (h : Reaches serialize s) :
    Holds (Kept serialize) (Stands serialize) s := by
  apply Reach.threadModular ?_ ?_ ?_ h
  · constructor
    · exact ⟨nofun, nofun, nofun, nofun⟩
    · intro c
      exact ⟨nofun, fun busy => absurd rfl busy, nofun, trivial⟩
  · intro s c a pc n _ inv _ step
    have m := step_carry step
    exact ⟨m.kept inv.shared (inv.loc c), m.own inv.shared (inv.loc c)⟩
  · intro s c a pc n _ inv _ step c' other
    exact (step_carry step).other other (inv.loc c')

end Invariant

/-! ### Each frame once -/

section Matched

variable {serialize : NodeId → Bytes}

/-- The call has returned and was the one that handed this frame up. -/
def Handed (serialize : NodeId → Bytes) (s : System NodeId) (c : CallId) (entry : Bytes × Bytes) :
    Prop :=
  s.loc c = .returned none ∧ ∃ src, serialize src = entry.1 ∧ Came s.shared c src entry.2

/-- The call has returned true and was for this node and this frame. -/
def Sent (serialize : NodeId → Bytes) (s : System NodeId) (c : CallId) (entry : NodeId × Bytes) :
    Prop :=
  s.loc c = .returned (some true) ∧ (c, .sendToClient (serialize entry.1) entry.2) ∈ s.shared.calls

/-- Every frame handed up and every message sent belongs to a call of its own, and every
call of `sendToClient` that returned true to a message. -/
structure Matched (serialize : NodeId → Bytes) (s : System NodeId) : Prop where
  handed : ∃ calls : List CallId, calls.Nodup ∧
    List.Forall₂ (Handed serialize s) calls s.shared.handled
  sent : ∃ calls : List CallId, calls.Nodup ∧ List.Forall₂ (Sent serialize s) calls s.shared.sent ∧
    ∀ c, s.loc c = .returned (some true) → c ∈ calls

theorem Forall₂_of_mem {α β : Type} {R : α → β → Prop} {as : List α} {bs : List β} {a : α}
    (all : List.Forall₂ R as bs) (mem : a ∈ as) : ∃ b ∈ bs, R a b := by
  induction all with
  | nil => cases mem
  | @cons a' b as bs first rest ih =>
      rcases List.mem_cons.mp mem with rfl | mem
      · exact ⟨b, List.mem_cons_self, first⟩
      · obtain ⟨b', inside, holds⟩ := ih mem
        exact ⟨b', List.mem_cons_of_mem b inside, holds⟩

theorem Forall₂_snoc {α β : Type} {R : α → β → Prop} {as : List α} {bs : List β} {a : α} {b : β}
    (all : List.Forall₂ R as bs) (last : R a b) : List.Forall₂ R (as ++ [a]) (bs ++ [b]) :=
  List.rel_append all (.cons last .nil)

theorem Matched.next {s : System NodeId} {c : CallId} {a : Act NodeId} {pc : Pc NodeId}
    {n : Runtime NodeId} (h : Matched serialize s) (inv : Holds (Kept serialize) (Stands serialize) s)
    (step : step serialize c (s.loc c) s.shared a = some (pc, n)) :
    Matched serialize ⟨Function.update s.loc c pc, n⟩ := by
  obtain ⟨⟨handers, once, handed⟩, senders, once', sent, complete⟩ := h
  have m := step_carry step
  have moves (result : Option Bool) : s.loc c ≠ .returned result := by
    intro there
    rw [there, step_returned] at step
    cases step
  have stays {c' : CallId} {result : Option Bool} (there : s.loc c' = .returned result) :
      Function.update s.loc c pc c' = .returned result := by
    rw [Function.update_of_ne]
    · exact there
    · rintro rfl
      exact moves result there
  have free : c ∉ handers ∧ c ∉ senders := by
    constructor <;> intro mem
    · obtain ⟨_, -, there, -⟩ := Forall₂_of_mem handed mem
      exact moves none there
    · obtain ⟨_, -, there, -⟩ := Forall₂_of_mem sent mem
      exact moves (some true) there
  -- what a call has done stays done
  have handed : List.Forall₂ (Handed serialize ⟨Function.update s.loc c pc, n⟩) handers
      s.shared.handled := by
    apply handed.imp
    rintro c' entry ⟨there, src, text, came⟩
    exact ⟨stays there, src, text, m.came came⟩
  have sent : List.Forall₂ (Sent serialize ⟨Function.update s.loc c pc, n⟩) senders
      s.shared.sent := by
    apply sent.imp
    rintro c' entry ⟨there, call⟩
    exact ⟨stays there, m.calls _ call⟩
  have others (unsent : pc ≠ .returned (some true)) (c' : CallId)
      (there : Function.update s.loc c pc c' = .returned (some true)) : c' ∈ senders := by
    apply complete
    by_cases same : c' = c
    · rw [same, Function.update_self] at there
      exact absurd there unsent
    · rwa [Function.update_of_ne same] at there
  have keep (handles : n.handled = s.shared.handled) (sends : n.sent = s.shared.sent)
      (unsent : pc ≠ .returned (some true)) :
      Matched serialize ⟨Function.update s.loc c pc, n⟩ :=
    ⟨⟨handers, once, handles ▸ handed⟩, senders, once', sends ▸ sent, others unsent⟩
  have stands := inv.loc c
  generalize position : s.loc c = pc₀ at m stands
  cases m with
  | comes _ _ handles sends _ _ unsent => exact keep handles sends unsent
  | know _ _ _ _ handles sends _ _ _ unsent => exact keep handles sends unsent
  | goes same _ _ unsent => exact keep same.handled same.sent unsent
  | find => exact keep rfl rfl nofun
  | @hand clientId payload =>
      refine ⟨⟨handers ++ [c], ?_, Forall₂_snoc handed ?_⟩, senders, once', sent, others nofun⟩
      · exact List.Nodup.append once (List.nodup_singleton c) (by simpa using free.1)
      · obtain ⟨call, begun⟩ := stands.begun nofun
        obtain ⟨src, text, is⟩ := stands.of begun
        refine ⟨Function.update_self .., src, text, ?_⟩
        rcases is with rfl | rfl
        · exact .inl begun
        · exact .inr begun
  | @send dst payload =>
      obtain ⟨call, begun⟩ := stands.begun nofun
      have of : call = .sendToClient (serialize dst) payload := stands.of begun
      refine ⟨⟨handers, once, handed⟩, senders ++ [c], ?_,
        Forall₂_snoc sent ⟨Function.update_self .., of ▸ begun⟩, ?_⟩
      · exact List.Nodup.append once' (List.nodup_singleton c) (by simpa using free.2)
      · intro c' there
        by_cases same : c' = c
        · rw [same]
          exact List.mem_append_right _ List.mem_cons_self
        · change Function.update s.loc c _ c' = _ at there
          rw [Function.update_of_ne same] at there
          exact List.mem_append_left _ (complete c' there)

theorem matched_of_reaches {s : System NodeId} (h : Reaches serialize s) : Matched serialize s := by
  refine h.invariant ?_ ?_
  · exact ⟨⟨[], List.nodup_nil, .nil⟩, [], List.nodup_nil, .nil, nofun⟩
  · intro s s' c a reached matched _ next
    obtain ⟨pc, n, step, rfl⟩ := Machine.next_eq_some next
    exact matched.next (stands_of_reaches reached) step

end Matched

/-! ### There and back -/

section Replies

variable {serialize : NodeId → Bytes}

/-- What holds between the ADNL nodes and the egress node. -/
structure Routed (serialize : NodeId → Bytes) (s : System NodeId) : Prop where
  /-- each frame handed up is that of one message or query, under a text that stands for its
  sender alone -/
  up : ∃ calls : List CallId, calls.Nodup ∧ List.Forall₂ (fun c entry =>
      ∃ src, Came s.shared c src entry.2 ∧ ∀ node, serialize node = entry.1 ↔ node = src)
    calls s.shared.handedUp
  /-- each message sent is that of one call -/
  down : ∃ calls : List CallId, calls.Nodup ∧ List.Forall₂ (Sent serialize s) calls s.shared.sent
  /-- a reply to the client of a frame that was handed up goes to its sender if it is sent at
  all, and it does not fail for want of an address -/
  reply {clientId payload frame : Bytes} {src : NodeId} {c : CallId} :
    (clientId, payload) ∈ s.shared.handedUp → serialize src = clientId →
    s.shared.knownClients.lookup (cString clientId) = some src ∧
    ((c, egressSend clientId frame) ∈ s.shared.calls → s.loc c = .returned (some true) →
      (src, frame) ∈ s.shared.sent)
  /-- nothing is sent to a node that has not spoken -/
  spoke {dst : NodeId} {frame : Bytes} : (dst, frame) ∈ s.shared.sent →
    ∃ c payload, Came s.shared c dst payload

theorem mem_handedUp {n : Runtime NodeId} {entry : Bytes × Bytes} (mem : entry ∈ n.handedUp) :
    ∃ clientId, (clientId, entry.2) ∈ n.handled ∧ entry.1 = cString clientId := by
  obtain ⟨⟨clientId, payload⟩, inside, passed⟩ := List.mem_filterMap.mp mem
  rw [onMessageBridge] at passed
  split at passed
  · cases passed
  · cases passed
    exact ⟨clientId, inside, rfl⟩

/-- What is handed up through the bridge is matched as what is handed to it. -/
theorem Forall₂_handedUp {R R' : CallId → Bytes × Bytes → Prop} {calls : List CallId}
    {entries : List (Bytes × Bytes)} (all : List.Forall₂ R calls entries)
    (passes : ∀ c e e', R c e → onMessageBridge e = some e' → R' c e') (once : calls.Nodup) :
    ∃ kept : List CallId, kept.Nodup ∧
      List.Forall₂ R' kept (entries.filterMap onMessageBridge) := by
  suffices part : ∃ kept : List CallId, kept.Sublist calls ∧
      List.Forall₂ R' kept (entries.filterMap onMessageBridge) by
    obtain ⟨kept, sub, matched⟩ := part
    exact ⟨kept, once.sublist sub, matched⟩
  clear once
  induction all with
  | nil => exact ⟨[], .slnil, .nil⟩
  | @cons c entry calls entries first rest ih =>
      obtain ⟨kept, sub, matched⟩ := ih
      cases passed : onMessageBridge entry with
      | none =>
          rw [List.filterMap_cons_none passed]
          exact ⟨kept, sub.cons c, matched⟩
      | some entry' =>
          rw [List.filterMap_cons_some passed]
          exact ⟨c :: kept, sub.cons_cons c, .cons (passes c entry entry' first passed) matched⟩

/-- **Replies reach the sender**, in every order of the steps of any number of calls, if the
texts of the node ids are distinct and have no NUL. -/
theorem replies_reach_sender {s : System NodeId} (distinct : Function.Injective serialize)
    (noNul : ∀ node, 0 ∉ serialize node) (h : Reaches serialize s) : Routed serialize s := by
  have kept := (stands_of_reaches h).shared
  have whole (node : NodeId) : cString (serialize node) = serialize node :=
    (Egress.cString_eq_self_iff _).mpr (noNul node)
  obtain ⟨⟨handers, once, handed⟩, senders, once', sent, complete⟩ := matched_of_reaches h
  have passes : ∀ c entry entry', Handed serialize s c entry → onMessageBridge entry = some entry' →
      ∃ src, Came s.shared c src entry'.2 ∧ ∀ node, serialize node = entry'.1 ↔ node = src := by
    rintro c ⟨clientId, payload⟩ entry' ⟨-, src, rfl, came⟩ passed
    rw [onMessageBridge] at passed
    split at passed
    · cases passed
    · cases passed
      refine ⟨src, came, fun node => ?_⟩
      rw [whole]
      exact distinct.eq_iff
  constructor
  · exact Forall₂_handedUp handed passes once
  · exact ⟨senders, once', sent⟩
  · intro clientId payload frame src c up text
    obtain ⟨id, mem, rfl⟩ := mem_handedUp up
    obtain ⟨dst, found, rfl⟩ := kept.answerable _ mem
    rw [whole] at text
    obtain rfl := distinct text
    rw [egressSend, whole, whole]
    refine ⟨found, fun call returned => ?_⟩
    obtain ⟨⟨dst, frame'⟩, inside, -, call'⟩ := Forall₂_of_mem sent (complete c returned)
    obtain ⟨ids, rfl⟩ := Call.sendToClient.inj ((holds_of_reaches h).shared.unique call call')
    obtain rfl := distinct ids
    exact inside
  · intro dst frame mem
    exact kept.sentTo _ mem

end Replies

/-- Two nodes. -/
def twoNodes (second : Bool) : Bytes := if second then ascii "B" else ascii "A"

/-- A frame of the first node, and an answer to it. -/
def answeredFrame : List (CallId × Act Bool) :=
  [(0, .call (.switch true true)), (1, .call (.setOnMessage true)),
    (2, .call (.onAdnlMessage false [1, 0, 0, 0, 7])), (2, .go), (2, .go),
    (3, .call (egressSend (ascii "A") [3, 0, 0, 0, 7])), (3, .go), (3, .go), (3, .go), (3, .go)]

theorem replies_reach_sender_answeredFrame :
    (false, [3, 0, 0, 0, 7]) ∈ ((machine twoNodes).run init answeredFrame).shared.sent ∧
    Routed twoNodes ((machine twoNodes).run init answeredFrame) := by
  have reaches : Reaches twoNodes ((machine twoNodes).run init answeredFrame) :=
    (Reach.run (by decide :
      (machine twoNodes).follows (fun _ _ _ => true) init answeredFrame)).any
  have distinct : Function.Injective twoNodes := by
    intro first second
    revert first second
    decide
  exact ⟨by decide, replies_reach_sender distinct (by decide) reaches⟩

end TonTunnel.AdnlBackend
