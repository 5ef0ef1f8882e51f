import TonTunnel.Lib.Coupled
import TonTunnel.Tunnel.Bridge
import TonTunnel.Tunnel.Downstream

/-!
The egress node and a desktop client, connected.

The client's packets reach the server from the client's address, any of them in any
order as far as the connection itself goes. To the client the connection delivers
every packet that the server's transport accepted, one by one and in order. Other
clients may send the server anything.

Both sides run in a coupled run as they do alone, so their invariants hold;
`Linked` is what the connection adds: what the server hears from the client the
client has sent, and what the client has received is where the server's packets
begin.
-/

namespace TonTunnel.Tunnel

open Interleaving
open Egress (packetsTo heard down MsgPc MsgCtx)
open Socks (up inbox Lone Framed)

/-- A server, a client and the address under which the server knows the client. -/
structure Setup where
  cfg : Config
  me : Bytes
  authToken : Bytes
  /-- the token fits the length field of an OPEN frame -/
  fits : authToken.length < 65536

/-- Whether the text of an exception fits the frame that reports it. -/
def terse : Egress.Act → Bool
  | .throw (some what) | .throwMid (some what) => what.length ≤ 65000
  | _ => true

/-- Packets are looked up by their bytes. -/
local instance : LawfulBEq Bytes := inferInstance

/-- What the connection can deliver. Its state is the number of the client's packets that it has
delivered. -/
def link (u : Setup) : Coupling Egress.Node Socks.Server Nat Egress.Act Socks.Act where
  left a s :=
    match a with
    | .deliver client packet =>
        if client = u.me then
          if packet ∈ s.right.core.sent then some (s.link + 1) else none
        else some s.link
    | a => if terse a then some s.link else none
  right a s :=
    match a with
    | .core (.packet bytes) =>
        if (packetsTo u.me s.left.log)[s.right.core.received.length]? = some bytes then some s.link
        else none
    | _ => some s.link

abbrev State :=
  Interleaving.State (CoupledLoc Egress.Loc Socks.Local) (Joint Egress.Node Socks.Server Nat)

abbrev ThreadId := Egress.ThreadId ⊕ Socks.ThreadId

abbrev Act := Egress.Act ⊕ Socks.Act

def machine (u : Setup) :
    Machine ThreadId (CoupledLoc Egress.Loc Socks.Local) (Joint Egress.Node Socks.Server Nat) Act :=
  (Egress.machine u.cfg).couple (Socks.machine u.authToken) (link u)

/-- Both sides have just been started. -/
def initial : State := State.join Egress.init Socks.initial 0

/-- The server's memory. -/
abbrev node (s : State) : Egress.Node := s.left.shared

/-- The client's memory. -/
abbrev client (s : State) : Socks.Server := s.right.shared

section Runs

variable {u : Setup} {ok : State → ThreadId → Act → Prop} {s : State}

theorem terse_of_allowed {a : Egress.Act} {n : Nat}
    (allowed : (link u).left a s.shared = some n) : a.Terse := by
  cases a with
  | throw what | throwMid what =>
      cases what with
      | none => trivial
      | some what =>
          simp only [link, terse, decide_eq_true_eq] at allowed
          split at allowed
          · next short => exact short
          · cases allowed
  | _ => trivial

/-- The guard of the server's part of a run. -/
def leftOk (_ : Egress.System) (_ : Egress.ThreadId) (a : Egress.Act) : Prop := a.Terse

theorem leftOk_terse : Egress.TerseRun leftOk := fun _ _ _ h => h

/-- The server's part of a run. -/
theorem server_of_reach (h : Reach (machine u) ok initial s) :
    Egress.ReachesBy u.cfg leftOk s.left :=
  Reach.left (fun _ _ _ _ _ _ allowed => terse_of_allowed allowed) h

/-- The client's part of a run. -/
theorem client_of_reach (h : Reach (machine u) ok initial s) :
    Reach (Socks.machine u.authToken) anyStep Socks.initial s.right :=
  Reach.right (fun _ _ _ _ _ _ _ => trivial) h

end Runs

/-! ### What the connection adds -/

/-- The payload that the message thread is at work on. -/
def ctxOf : MsgPc → Option MsgCtx
  | .waiting => none
  | .parsing ctx | .opening ctx _ _ | .dataing ctx _ _ | .closing ctx _ | .closeReply ctx _ => some ctx

theorem ctxOf_resume (had : Bool) (pc : MsgPc) : ctxOf (pc.resume had) = ctxOf pc := by
  cases pc with
  | dataing ctx d dpc =>
      cases dpc with
      | _ => rfl
  | closing =>
      cases had with
      | true | false => rfl
  | _ => rfl

/-- A packet of the client is one frame, which is taken up whole. -/
def Handles (u : Setup) (sent : List Bytes) (pc : MsgPc) : Prop :=
  ∀ ctx, ctxOf pc = some ctx → ctx.clientId = u.me → ctx.payload ∈ sent ∧
    (ctx.offset = ctx.payload.length ∨ pc = .parsing ctx ∧ ctx.offset = 0)

/-- What each side knows of the other. -/
structure Linked (u : Setup) (s : State) : Prop where
  handles : Handles u (client s).core.sent (s.left.loc .msg).pc
  heard (id : UInt32) : ∀ m ∈ heard u.me id (node s).log, m ∈ up id (client s).core.sent
  received : (client s).core.received <+: packetsTo u.me (node s).log

section Steps

variable {u : Setup} {n n' : Egress.Node} {l l' : Egress.Thread MsgPc} {a : Egress.Act}
  {sent : List Bytes}

/-- A frame that the message thread finds in a packet of the client is the whole packet. -/
theorem Handles.frame {ctx : MsgCtx} {m : DecodedMessage} {len : Nat}
    (handles : Handles u sent (.parsing ctx)) (mine : ctx.clientId = u.me)
    (frames : ∀ p ∈ sent, Framed p)
    (frame : parseFrame ctx.payload ctx.offset = .ok (m, len)) :
    ctx.payload ∈ sent ∧ messageOf ctx.payload = some m ∧ ctx.offset + len = ctx.payload.length := by
  obtain ⟨mem, behind | ⟨-, start⟩⟩ := handles ctx rfl mine
  · have some_ := parseFrame_pos frame
    have within := (parseFrame_sound frame).2.2.1
    omega
  · obtain ⟨m', within, -, whole⟩ := frames _ mem
    rw [start, whole, parseFrame_single within] at frame
    cases frame
    exact ⟨mem, by rw [whole, messageOf_encodeClient within], by rw [start, whole, Nat.zero_add]⟩

/-- The message thread keeps to the packets that were sent. -/
theorem Handles.own (m : Egress.Move u.cfg .msg n l a l' n') (handles : Handles u sent l.pc)
    (delivers : ∀ p, a = .deliver u.me p → p ∈ sent)
    (frames : ∀ p ∈ sent, Framed p) :
    Handles u sent l'.pc := by
  have same {pc' : MsgPc} (ctxs : ctxOf pc' = ctxOf l.pc) (busy : ∀ ctx, l.pc ≠ .parsing ctx) :
      Handles u sent pc' := by
    intro ctx is mine
    rw [ctxs] at is
    obtain ⟨mem, behind | ⟨at_, -⟩⟩ := handles ctx is mine
    · exact ⟨mem, .inl behind⟩
    · exact absurd at_ (busy ctx)
  cases m with
  | base move =>
      cases move with
      | deliver =>
          rintro ctx is mine
          cases is
          cases mine
          exact ⟨delivers _ rfl, .inr ⟨rfl, rfl⟩⟩
      | leave | openEscaped => nofun
      | dispatchOpen frame | dispatchData frame | dispatchClose frame | dispatchError frame =>
          rintro ctx is mine
          cases is
          obtain ⟨mem, -, whole⟩ := handles.frame mine frames frame
          exact ⟨mem, .inl whole⟩
      | opening | opened | dataing | dataCloses | dataDone | closeReply | closeReplyThrows =>
          exact same rfl nofun
  | call => exact handles
  | @ret pc c cpc a had n' move =>
      intro ctx is mine
      rw [ctxOf_resume] at is
      obtain ⟨mem, behind | ⟨at_, start⟩⟩ := handles ctx is mine
      · exact ⟨mem, .inl behind⟩
      · have at' : pc = .parsing ctx := at_
        subst at'
        exact ⟨mem, .inr ⟨rfl, start⟩⟩

theorem Handles.mono {pc : MsgPc} {new : List Bytes} (h : Handles u sent pc) :
    Handles u (sent ++ new) pc := by
  intro ctx is mine
  obtain ⟨mem, rest⟩ := h ctx is mine
  exact ⟨List.mem_append_left _ mem, rest⟩

end Steps

section Runs

variable {u : Setup} {ok : State → ThreadId → Act → Prop} {s s' : State}

theorem mem_sent_of_allowed {packet : Bytes} {n : Nat}
    (allowed : (link u).left (.deliver u.me packet) s.shared = some n) :
    packet ∈ (client s).core.sent := by
  simp only [link, if_true] at allowed
  split at allowed
  · next mem => exact mem
  · cases allowed

theorem packet_of_allowed {bytes : Bytes} {n : Nat}
    (allowed : (link u).right (.core (.packet bytes)) s.shared = some n) :
    (packetsTo u.me (node s).log)[(client s).core.received.length]? = some bytes := by
  simp only [link] at allowed
  split at allowed
  · next next => exact next
  · cases allowed

theorem concat_prefix_of_getElem? {α : Type} {xs ys : List α} {y : α} (h : xs <+: ys)
    (next : ys[xs.length]? = some y) : xs ++ [y] <+: ys := by
  obtain ⟨rest, rfl⟩ := h
  cases rest with
  | nil => simp at next
  | cons z rest =>
      obtain rfl : z = y := by simpa using next
      exact ⟨rest, by simp⟩

/-- A step of the client takes in the next packet of the server, or none. -/
theorem received_of_next {t : Socks.ThreadId} {a : Socks.Act} {s s' : Socks.State}
    {authToken : Bytes} (h : (Socks.machine authToken).next s t a = some s') :
    s'.shared.core.received = s.shared.core.received ∨ ∃ bytes, a = .core (.packet bytes) ∧
      s'.shared.core.received = s.shared.core.received ++ [bytes] := by
  obtain ⟨l, d, m, rfl⟩ := Socks.next_move h
  by_cases receiver : t = .receiver
  · subst receiver
    obtain ⟨b, c, rfl, move, rfl⟩ := m
    generalize s.loc .receiver = pc at move
    cases move with
    | idle _ _ _ _ received => exact .inl received
    | @packet bytes => exact .inr ⟨bytes, rfl, rfl⟩
    | deliver => exact .inl (Socks.packets_dispatchAll _ _).2
  · exact .inl (m.received receiver)

/-- A step of the client sends a packet, or none. -/
theorem sent_of_next {t : Socks.ThreadId} {a : Socks.Act} {s s' : Socks.State}
    {ok : Socks.State → Socks.ThreadId → Socks.Act → Prop}
    (h : Reach (Socks.machine u.authToken) ok Socks.initial s)
    (next : (Socks.machine u.authToken).next s t a = some s') :
    ∃ new, s'.shared.core.sent = s.shared.core.sent ++ new := by
  obtain ⟨l, d, m, rfl⟩ := Socks.next_move next
  rcases m.sent (Socks.steady_of_reach h) u.fits with same | ⟨msg, -, -, one⟩
  · exact ⟨[], by simp [same]⟩
  · exact ⟨_, one⟩

/-- **The two sides are linked in every run.** -/
theorem linked_of_reach (h : Reach (machine u) ok initial s) : Linked u s := by
  refine Reach.invariant (I := Linked u) ?_ ?_ h
  · exact ⟨nofun, fun _ m mem => absurd mem List.not_mem_nil, List.nil_prefix⟩
  intro s s' t a reached linked _ next
  have frames := Socks.sent_of_reach u.fits (client_of_reach reached)
  cases Machine.couple_next next with
  | @left t a allowed moves still =>
      obtain ⟨l, n, m, after⟩ := Egress.next_move moves
      obtain ⟨es, log, records⟩ := m.records
      have log' : (node s').log = (node s).log ++ es := by rw [node, after]; exact log
      have sent : (client s').core.sent = (client s).core.sent := by rw [client, still]
      refine ⟨?_, fun id m' mem => ?_, ?_⟩
      · rw [sent, after]
        by_cases mine : t = .msg
        · subst mine
          simp only [Function.update_self]
          refine linked.handles.own m (fun p is => ?_) frames
          subst is
          exact mem_sent_of_allowed allowed
        · simp only [Function.update_of_ne (Ne.symm mine)]
          exact linked.handles
      · rw [log', Egress.heard_append] at mem
        rw [sent]
        rcases List.mem_append.mp mem with mem | mem
        · exact linked.heard id m' mem
        · generalize here : s.left.loc t = l₀ at records
          cases records with
          | aside aside =>
              rw [Egress.heard_aside u.me id aside] at mem
              exact absurd mem List.not_mem_nil
          | speaks | feeds | pulls => exact absurd mem List.not_mem_nil
          | @hears ctx m₁ len l' frame =>
              rw [Egress.heard_received] at mem
              split at mem
              · next mine =>
                  cases List.mem_singleton.mp mem
                  have handles := linked.handles
                  rw [here] at handles
                  obtain ⟨among, says_, -⟩ := handles.frame mine.1 frames frame
                  refine List.mem_filter.mpr ⟨?_, by simpa using mine.2⟩
                  exact List.mem_filterMap.mpr ⟨_, among, says_⟩
              · exact absurd mem List.not_mem_nil
      · have received : (client s').core.received = (client s).core.received := by rw [client, still]
        rw [received, log', Egress.packetsTo_append]
        exact linked.received.trans (List.prefix_append _ _)
  | @right t a allowed moves still =>
      have log : (node s').log = (node s).log := by rw [node, still]
      have received : (client s').core.received <+: packetsTo u.me (node s).log := by
        rcases received_of_next moves with same | ⟨bytes, rfl, one⟩
        · rw [client, same]
          exact linked.received
        · rw [client, one]
          exact concat_prefix_of_getElem? linked.received (packet_of_allowed allowed)
      obtain ⟨new, sent⟩ := sent_of_next (client_of_reach reached) moves
      refine ⟨?_, fun id m' mem => ?_, by rw [log]; exact received⟩
      · rw [sent, still]
        exact linked.handles.mono
      · rw [log] at mem
        rw [sent, Socks.up_append]
        exact List.mem_append_left _ (linked.heard id m' mem)

/-- What has arrived for a stream is where the server's frames for it begin. -/
theorem Linked.inbox (linked : Linked u s) (id : UInt32) :
    inbox id (client s).core <+: down u.me id (node s).log := by
  obtain ⟨rest, all⟩ := linked.received
  rw [Egress.down_eq_packets, ← all, List.flatMap_append, List.filter_append]
  exact List.prefix_append _ _

/-- **Nothing arrives for a stream before its OPEN was sent.** -/
theorem freshStart_of_reach (h : Reach (machine u) ok initial s) (i : Nat) (id : UInt32) :
    Socks.FreshStart i id s.right := by
  intro lone called at_
  have linked := linked_of_reach h
  have unsaid := (Socks.says_of_reach u.fits (client_of_reach h) lone called).1
  rw [at_] at unsaid
  have unheard : heard u.me id (node s).log = [] := by
    refine List.eq_nil_iff_forall_not_mem.mpr fun m mem => ?_
    have said := linked.heard id m mem
    rw [show up id (client s).core.sent = [] from unsaid] at said
    exact absurd said List.not_mem_nil
  have silent := (Egress.unheard_of_reach leftOk_terse (server_of_reach h) unheard).silent
  have arrived := linked.inbox id
  rw [silent] at arrived
  exact List.prefix_nil.mp arrived

/-- The client's part of a run, with what the connection ensures. -/
theorem fresh_client_of_reach (h : Reach (machine u) ok initial s) (i : Nat) (id : UInt32) :
    Reach (Socks.machine u.authToken) (fun s _ _ => Socks.FreshStart i id s) Socks.initial s.right :=
  Reach.right (fun _ _ _ _ reached _ _ => freshStart_of_reach reached i id) h

end Runs

/-! ### Schedules -/

/-- Steps of one thread of the client, of one thread of the server. -/
def atClient (t : Socks.ThreadId) (answers : List Socks.Act) : List (ThreadId × Act) :=
  answers.map fun a => (.inr t, .inr a)

@[inherit_doc atClient]
def atServer (t : Egress.ThreadId) (answers : List Egress.Act) : List (ThreadId × Act) :=
  answers.map fun a => (.inl t, .inl a)

/-- The connection whose bridge or pump the thread is. -/
def connection : ThreadId → Option Nat
  | .inr (.bridge j) | .inr (.uplink j) => some j
  | _ => none

/-- In a schedule for one connection its bridge is the only one that gets a stream id. -/
theorem lone_of_exec {u : Setup} {s : State} {i : Nat} {w : List (ThreadId × Act)}
    (only : ∀ p ∈ w, connection p.1 = none ∨ connection p.1 = some i)
    (h : (machine u).exec initial w = some s) (id : UInt32) : Lone i id (client s) := by
  intro j named
  by_contra other
  have untouched : (client s).bridges j = {} := by
    refine Machine.exec_invariant (P := fun s => (client s).bridges j = {}) ?_ rfl h
    intro s₁ s₂ t a mem before next
    cases Machine.couple_next next with
    | left _ _ still =>
        rw [client, still]
        exact before
    | @right t a _ moves _ =>
        obtain ⟨l, d, m, after⟩ := Socks.next_move moves
        rw [client, after]
        have apart : connection (.inr t) ≠ some j := by
          intro same
          rcases only _ mem with none_ | one
          · cases none_.symm.trans same
          · exact other (Option.some.inj (same.symm.trans one))
        refine (m.bridges ?_ ?_).trans before
        · rintro rfl
          exact apart rfl
        · rintro rfl
          exact apart rfl
  rw [untouched] at named
  cases named

/-- A server with the default configuration, and a client without a token. -/
def plain : Setup := ⟨{}, ascii "A", [], by decide⟩

/-- The client starts, and a SOCKS client asks for port 80 of host `h`: `openStream` has sent its
OPEN and waits. -/
def requested : List (ThreadId × Act) :=
  atClient .owner [.core .start, .running true] ++ atClient .receiver [.core .go, .core .go] ++
    atClient (.bridge 0) [.request (ascii "h") 80, .core .go, .core (.sendRet 0), .core .go,
      .core .go, .core .go, .core .go]

/-- The server takes up the OPEN, to the end of `handleOpen`. -/
def served : List (ThreadId × Act) :=
  atServer .msg [.deliver (ascii "A") [1, 0, 0, 3, 232, 0, 1, 104, 0, 80, 0, 0], .go, .go, .go,
    .resolved (some [0x08080808]), .go, .socketRet (some 3), .connectRet .connected, .go, .go,
    .sent true, .go, .go, .go]

/-- The ACK arrives, and the bridge starts its pump. -/
def acknowledged : List (ThreadId × Act) :=
  atClient .receiver [.core (.packet [1, 0, 0, 3, 232]), .core .go] ++
    atClient (.bridge 0) [.core .go, .core .go, .core .go]

end TonTunnel.Tunnel
