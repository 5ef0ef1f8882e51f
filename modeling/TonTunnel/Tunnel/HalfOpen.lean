import TonTunnel.Tunnel.InOrder
import TonTunnel.Tunnel.Endings

/-!
Streams that outlive their bridge.

A bridge that ends a stream sends a CLOSE, one whose stream was ended by the other side
has a CLOSE or an ERROR of the server to go by. `openStream` gives up after 20000 ms
without sending anything, and the server sends an ERROR for a stream that it keeps: both
leave the stream in `streams_` with nobody to close it (`timed_out_open_stays`). In the
runs without such a step (`tidy`) nothing is left once the bridge has returned and the
last message of the stream is dealt with (`no_half_open_stream`).
-/

namespace TonTunnel.Socks

open TonTunnel Desktop Client
open Interleaving (Reach anyStep)

/-! ### What the bridge has seen when it returns -/

/-- `openStream` has seen a CLOSE. -/
def ClosedSeen : BridgePc → Prop
  | .opening (.loop _ seen) | .opening (.waitMs _ seen) | .opening (.await _ seen _)
  | .opening (.got _ seen _) => seen ≠ none
  | .opening (.grace _ _ _) => True
  | _ => False

variable {authToken : Bytes} {ok : State → ThreadId → Act → Prop} {s : State} {i : Nat} {id : UInt32}

/-- A CLOSE that `openStream` has seen it has taken. -/
theorem close_of_closedSeen (h : Reach (machine authToken) ok initial s)
    (seen : ClosedSeen (s.loc (.bridge i))) : ∃ f ∈ opened i s.shared.core, f.type = .close := by
  revert seen
  refine Reach.invariant (I := fun s => ClosedSeen (s.loc (.bridge i)) →
    ∃ f ∈ opened i s.shared.core, f.type = .close) ?_ ?_ h
  · exact False.elim
  intro s s' t a reached before _ next seen
  obtain ⟨l, d, m, rfl⟩ := next_move next
  by_cases bridge : t = .bridge i
  · subst bridge
    simp only [Function.update_self] at seen
    have pump := pump_of_reach reached i
    generalize here : s.loc (.bridge i) = pc at m before pump
    cases m with
    | @opening pc _ pc' c move =>
        have grows : ∀ f ∈ opened i s.shared.core, f ∈ opened i c := fun f mem => by
          rcases (openMove_taken move).2 with ⟨same, -⟩ | ⟨_, _, _, _, -, more, -⟩
          · rw [same]
            exact mem
          · rw [more]
            exact List.mem_append_left _ mem
        have kept (seen : ClosedSeen (.opening pc)) : ∃ f ∈ opened i c, f.type = .close := by
          obtain ⟨f, mem, type⟩ := before seen
          exact ⟨f, grows f mem, type⟩
        cases move with
        | inTime | waits | nothing | took => exact kept seen
        | closeSeen => exact kept nofun
        | graceLeft => exact kept trivial
        | @closed _ _ f type =>
            obtain ⟨pre, last⟩ := pump.2.2 _ _ _ rfl
            exact ⟨f, by rw [last]; simp, type⟩
        | ignored => exact kept seen
        | register | sent => exact seen.elim
        | deadline | wait => exact absurd rfl seen
    | _ => exact seen.elim
  · simp only [Function.update_of_ne (Ne.symm bridge)] at seen
    rw [show opened i d.core = opened i s.shared.core from m.taken bridge true]
    exact before seen

/-- A bridge that has ended the stream itself has sent a CLOSE, if the backend took it. -/
theorem close_of_returned (short : authToken.length < 65536)
    (sends : ∀ s t a, ok s t a → t = .bridge i → s.loc (.bridge i) = .close →
      ∀ code, a = .core (.sendRet code) → code = 0)
    (h : Reach (machine authToken) ok initial s) (lone : Lone i id s.shared)
    (called : Called i id s.shared)
    (at_ : s.loc (.bridge i) = .unregister ∨ s.loc (.bridge i) = .returned true)
    (unended : Unended (pumped i s.shared.core)) : .close ⟨id⟩ ∈ up id s.shared.core.sent := by
  revert lone called at_ unended
  refine Reach.invariant (I := fun s => Lone i id s.shared → Called i id s.shared →
    s.loc (.bridge i) = .unregister ∨ s.loc (.bridge i) = .returned true →
    Unended (pumped i s.shared.core) → .close ⟨id⟩ ∈ up id s.shared.core.sent) ?_ ?_ h
  · intro _ _ at_
    rcases at_ with at_ | at_ <;> cases at_
  intro s s' t a reached before allowed next lone called at_ unended
  obtain ⟨l, d, m, rfl⟩ := next_move next
  have steady := steady_of_reach reached
  have lone₀ := Lone.before m steady lone
  have called₀ := Called.before m steady called
  have grows (old : .close ⟨id⟩ ∈ up id s.shared.core.sent) : .close ⟨id⟩ ∈ up id d.core.sent := by
    rcases m.sent steady short with same | ⟨msg, -, -, one⟩
    · rw [same]
      exact old
    · rw [one, up_append]
      exact List.mem_append_left _ old
  by_cases bridge : t = .bridge i
  · subst bridge
    simp only [Function.update_self] at at_
    have pump := pump_of_reach reached i
    generalize here : s.loc (.bridge i) = pc at m before pump
    cases m with
    | joinEnded => exact absurd unended pump.2.1
    | unregister =>
        refine grows (before lone₀ called₀ (.inl rfl) ?_)
        simpa [takenBy, Core.unregisterStream, Core.note] using unended
    | @close code =>
        cases sends _ _ _ allowed rfl here code rfl
        have named := called₀.idOf steady (by rw [here]; rintro ⟨⟩)
        have one := up_one id s.shared.core.sent (m := .close ⟨s.shared.idOf i⟩) trivial named
        rw [named] at one
        change .close ⟨id⟩ ∈ up id (s.shared.core.sent ++ [encodeClient (.close ⟨s.shared.idOf i⟩)])
        rw [named, one]
        simp
    | _ => rcases at_ with at_ | at_ <;> cases at_
  · simp only [Function.update_of_ne (Ne.symm bridge)] at at_
    have same : pumped i d.core = pumped i s.shared.core := m.taken bridge false
    exact grows (before lone₀ called₀ at_ (same ▸ unended))

end TonTunnel.Socks

namespace TonTunnel.Tunnel

open Interleaving
open Egress (heard down MsgPc OpenPc)
open Socks (up opened pumped Lone Called Unended)

/-! ### The two sides -/

/-- The server has the stream. -/
def stored (u : Setup) (id : UInt32) (s : State) : Bool :=
  ((node s).streams.lookup (keyFor u.me id)).isSome

/-- What the message thread of the server must find. -/
def serverTidy (u : Setup) (i : Nat) (id : UInt32) (s : State) (a : Egress.Act) : Bool :=
  match (s.left.loc .msg).pc with
  | .opening ctx q pc =>
      !(ctx.clientId = u.me && q.streamId = id) ||
        match pc, a with
        -- the stream is stored while `openStream` still waits
        | .register _, .go | .register _, .throwMid _ =>
            match s.right.loc (.bridge i) with
            | .opening _ => true
            | _ => false
        -- an ERROR is sent for a stream that the server does not have
        | .fail _, .sent true | .quota, .sent true | .caught _, .sent true => !stored u id s
        | _, _ => true
  | .dataing ctx d _ =>
      !(ctx.clientId = u.me && d.streamId = id) || a ≠ .sent true || !stored u id s
  -- no exception keeps `closeStream` from looking the stream up
  | .closing ctx streamId =>
      !(ctx.clientId = u.me && streamId = id) ||
        match a with
        | .throw _ => !stored u id s
        | _ => true
  | _ => true

/-- What the bridge must find. -/
def bridgeTidy (u : Setup) (i : Nat) (id : UInt32) (s : State) (a : Socks.Act) : Bool :=
  match s.right.loc (.bridge i), a with
  -- `openStream` gives up on a stream that the server does not have
  | .opening (.loop deadline _), .core .go => (client s).core.nowMs < deadline || !stored u id s
  -- the CLOSE is taken
  | .close, .core (.sendRet code) => code = 0
  | _, _ => true

/-- The connection is `reliable`, and no step leaves the stream behind. -/
def tidy (u : Setup) (i : Nat) (id : UInt32) (s : State) (t : ThreadId) (a : Act) : Bool :=
  reliable u id s t a &&
    match t, a with
    | .inl .msg, .inl a => serverTidy u i id s a
    | .inr (.bridge j), .inr a => j ≠ i || bridgeTidy u i id s a
    | _, _ => true

/-- Nothing of the stream is on its way to the server or in the hands of its message thread. -/
structure Settled (u : Setup) (id : UInt32) (s : State) : Prop where
  delivered : up id ((client s).core.sent.drop s.link) = []
  unread : pending u.me id (s.left.loc .msg).pc = []
  idle : ¬ (s.left.loc .msg).pc.About u.me id

section Runs

variable {u : Setup} {s s' : State} {i : Nat} {id : UInt32}

theorem reliable_of_tidy {t : ThreadId} {a : Act} (h : tidy u i id s t a = true) :
    reliable u id s t a = true := (Bool.and_eq_true _ _ ▸ h).1

theorem absent_of_not_stored (h : (!stored u id s) = true) :
    (node s).streams.lookup (keyFor u.me id) = none := by
  simpa [stored] using h

/-- A tidy step is orderly on the server. -/
theorem orderliness_of_tidy {ok : State → ThreadId → Act → Prop} {t : Egress.ThreadId}
    {a : Egress.Act} {c : Nat} (h : Reach (machine u) ok initial s) (inStep : InStep u id s)
    (lone : Lone i id (client s)) (called : Called i id (client s))
    (tidy_ : tidy u i id s (.inl t) (.inl a) = true)
    (allowed : (link u).left a s.shared = some c) : Egress.Orderliness u.me id s.left t a where
  terse := terse_of_allowed allowed
  first := opensFirst_of_inStep h inStep lone called
  refuses := by
    rintro rfl rfl refusing
    have server : serverTidy u i id s (.sent true) = true := (Bool.and_eq_true _ _ ▸ tidy_).2
    apply absent_of_not_stored
    unfold serverTidy at server
    generalize (s.left.loc .msg).pc = pc at server refusing
    cases pc with
    | opening ctx q pc =>
        obtain ⟨mine, stream, text, refuses⟩ := refusing
        cases refuses with
        | _ => simpa [mine, stream] using server
    | dataing ctx d pc =>
        obtain ⟨mine, stream⟩ := refusing
        simpa [mine, stream] using server
    | _ => exact refusing.elim
  closes := by
    rintro what rfl rfl ⟨ctx, k, here, mine, -⟩
    have server : serverTidy u i id s (.throw what) = true := (Bool.and_eq_true _ _ ▸ tidy_).2
    apply absent_of_not_stored
    simpa [serverTidy, here, mine] using server

/-- The runs in which the id is nobody else's and no step leaves the stream behind. -/
abbrev LoneTidy (u : Setup) (i : Nat) (id : UInt32) (s : State) (t : ThreadId) (a : Act) : Prop :=
  tidy u i id s t a = true ∧ Lone i id (client s) ∧ Called i id (client s)

theorem ends_of_tidy (h : Reach (machine u) (LoneTidy u i id) initial s) :
    Egress.Ends u.me id s.left := by
  have server : Egress.ReachesBy u.cfg (Egress.Orderliness u.me id) s.left := by
    refine Reach.left (fun s t a c reached obeys allowed => ?_) h
    have inStep := inStep_of_reach (fun _ _ _ h => reliable_of_tidy h.1) reached
    exact orderliness_of_tidy reached inStep obeys.2.1 obeys.2.2 obeys.1 allowed
  exact Egress.ends_of_reach (fun _ _ _ h => h) server

/-- An end frame that the bridge has taken means that the stream is over. -/
theorem over_of_taken (h : Reach (machine u) (LoneTidy u i id) initial s)
    (lone : Lone i id (client s)) (called : Called i id (client s)) {f : Desktop.InboundFrame}
    (mem : f ∈ opened i (client s).core ++ pumped i (client s).core)
    (ending : f.type = .close ∨ f.type = .error) : Egress.Over u.me id s.left := by
  have queue := Socks.queue_of_reach (fun _ _ _ fresh => fresh) (fresh_client_of_reach h i id) lone called
  have begins : opened i (client s).core ++ pumped i (client s).core <+: down u.me id (node s).log :=
    queue.isPrefix.trans ((linked_of_reach h).inbox id)
  exact (ends_of_tidy h).told (begins.subset mem) ending

/-- A stream whose OPEN was not sent is not on the server. -/
theorem absent_of_unsaid {ok : State → ThreadId → Act → Prop} (h : Reach (machine u) ok initial s)
    (unsaid : up id (client s).core.sent = []) :
    (node s).streams.lookup (keyFor u.me id) = none := by
  have server := server_of_reach h
  have unheard : heard u.me id (node s).log = [] := by
    refine List.eq_nil_iff_forall_not_mem.mpr fun m mem => ?_
    have said := (linked_of_reach h).heard id m mem
    rw [unsaid] at said
    exact absurd said List.not_mem_nil
  have unnamed := (Egress.unheard_of_reach leftOk_terse server unheard).unnamed
  by_contra there
  obtain ⟨r, found⟩ := Option.ne_none_iff_exists'.mp there
  exact unnamed r ((Egress.Reaches.owned server.any).shared.named found)

/-- The client's part of a tidy run. -/
theorem sending_client_of_tidy
    (h : Reach (machine u) (fun s t a => tidy u i id s t a = true) initial s) :
    Reach (Socks.machine u.authToken) (fun s t a => t = .bridge i → s.loc (.bridge i) = .close →
      ∀ code, a = .core (.sendRet code) → code = 0) Socks.initial s.right := by
  refine Reach.right (fun s t a c _ tidy_ _ => ?_) h
  rintro rfl at_ code rfl
  have bridge : bridgeTidy u i id s (.core (.sendRet code)) = true := by
    simpa [tidy, reliable] using tidy_
  simpa [bridgeTidy, at_] using bridge

/-- The server does not store a stream whose bridge has left `openStream`. -/
theorem not_registering_of_tidy {a : Egress.Act}
    (tidy_ : tidy u i id s (.inl .msg) (.inl a) = true)
    (left : ∀ pc, s.right.loc (.bridge i) ≠ .opening pc)
    (stores : a = .go ∨ ∃ what, a = .throwMid what) :
    ¬ (s.left.loc .msg).pc.OpensAt OpenPc.Registering u.me id := by
  have server : serverTidy u i id s a = true := (Bool.and_eq_true _ _ ▸ tidy_).2
  unfold serverTidy at server
  intro opens
  generalize (s.left.loc .msg).pc = pc at server opens
  cases pc with
  | opening ctx q pc =>
      obtain ⟨mine, stream, registering⟩ := opens
      cases pc with
      | register r =>
          rcases stores with rfl | ⟨what, rfl⟩
          all_goals
            simp only [mine, stream, decide_true, Bool.and_self, Bool.not_true, Bool.false_or] at server
            cases server
      | _ => exact registering
  | _ => exact opens

/-- **A stream whose OPEN failed is not on the server.** -/
theorem absent_of_failed (h : Reach (machine u) (LoneTidy u i id) initial s)
    (lone : Lone i id (client s)) (called : Called i id (client s))
    (at_ : s.right.loc (.bridge i) = .failed ∨ s.right.loc (.bridge i) = .returned false) :
    (node s).streams.lookup (keyFor u.me id) = none := by
  revert lone called at_
  refine Reach.invariant (I := fun s => Lone i id (client s) → Called i id (client s) →
    s.right.loc (.bridge i) = .failed ∨ s.right.loc (.bridge i) = .returned false →
    (node s).streams.lookup (keyFor u.me id) = none) ?_ ?_ h
  · exact fun _ _ _ => rfl
  intro s s' t a reached before allowed next lone called at_
  obtain ⟨tidy_, lone₀, called₀⟩ := allowed
  cases Machine.couple_next next with
  | @left t a allowed moves still =>
      rw [still] at at_
      have absent := before lone₀ called₀ at_
      refine Egress.absent_next moves absent ?_
      rintro rfl stores
      refine not_registering_of_tidy tidy_ ?_ stores
      rcases at_ with at_ | at_
      · intro pc is
        cases at_.symm.trans is
      · intro pc is
        cases at_.symm.trans is
  | @right t a allowed moves still =>
      have same : (node s').streams = (node s).streams := by rw [node, still]
      rw [same]
      obtain ⟨l, d, m, after⟩ := Socks.next_move moves
      by_cases bridge : t = .bridge i
      · subst bridge
        rw [after] at at_
        simp only [Function.update_self] at at_
        have pump := Socks.pump_of_reach (client_of_reach reached) i
        have told := (Socks.says_of_reach u.fits (client_of_reach reached) lone₀ called₀).1
        have seen := Socks.close_of_closedSeen (i := i) (client_of_reach reached)
        generalize here : s.right.loc (.bridge i) = pc at m pump told seen before
        cases m with
        | openFails nonzero move =>
            cases move with
            | refused | sendThrows => exact absent_of_unsaid reached told
            | timedOut late =>
                have bridge : bridgeTidy u i id s (.core .go) = true := by
                  simpa [tidy, reliable] using tidy_
                apply absent_of_not_stored
                simpa [bridgeTidy, here, not_lt.mpr late] using bridge
            | graceOver =>
                obtain ⟨f, mem, type⟩ := seen trivial
                exact (over_of_taken reached lone₀ called₀ (List.mem_append_left _ mem)
                  (.inl type)).absent
            | rejected type =>
                obtain ⟨pre, last⟩ := pump.2.2 _ _ _ rfl
                refine (over_of_taken reached lone₀ called₀ (List.mem_append_left _ ?_)
                  (.inr type)).absent
                rw [last]
                simp
            | acked => exact absurd rfl nonzero
        | unregisterFailed => exact before lone₀ called₀ (.inl rfl)
        | _ => rcases at_ with at_ | at_ <;> cases at_
      · rw [after] at at_
        simp only [Function.update_of_ne (Ne.symm bridge)] at at_
        exact before lone₀ called₀ at_

/-- **No half-open stream.** In a tidy run, once the bridge has returned and the last message of the
stream is dealt with, the server does not have the stream. -/
theorem no_half_open_stream {b : Bool}
    (h : Reach (machine u) (fun s t a => tidy u i id s t a = true) initial s)
    (named : ((client s).bridges i).streamId = some id) (lone : Lone i id (client s))
    (returned : s.right.loc (.bridge i) = .returned b) (settled : Settled u id s) :
    (node s).streams.lookup (keyFor u.me id) = none := by
  have called := called_of_named named
  have lonely := lonely_of_reach h lone called
  cases b with
  | false => exact absent_of_failed lonely lone called (.inr returned)
  | true =>
      by_cases unended : Unended (pumped i (client s).core)
      · have sent : .close ⟨id⟩ ∈ up id (client s).core.sent :=
          Socks.close_of_returned u.fits (fun _ _ _ sends => sends) (sending_client_of_tidy h) lone
            called (.inr returned) unended
        have inStep := inStep_of_reach (fun _ _ _ h => reliable_of_tidy h) h
        have heard_ : .close ⟨id⟩ ∈ heard u.me id (node s).log := by
          have account := inStep.account
          rw [settled.unread, List.append_nil] at account
          rw [account]
          rw [← List.take_append_drop s.link (client s).core.sent, Socks.up_append,
            settled.delivered, List.append_nil] at sent
          exact sent
        rcases (ends_of_tidy lonely).closed heard_ with ended | ⟨ctx, c, here, mine, -⟩
        · exact ended.absent
        · refine absurd ?_ settled.idle
          rw [here]
          exact ⟨mine, rfl⟩
      · obtain ⟨f, mem, ending⟩ : ∃ f ∈ pumped i (client s).core, f.type = .close ∨ f.type = .error := by
          by_contra none_
          refine unended fun f mem => ⟨fun type => none_ ⟨f, mem, .inl type⟩,
            fun type => none_ ⟨f, mem, .inr type⟩⟩
        exact (over_of_taken lonely lone called (List.mem_append_right _ mem) ending).absent

/-- Between messages the message thread has nothing in its hands. -/
theorem settled_of_waiting (delivered : up id ((client s).core.sent.drop s.link) = [])
    (waiting : (s.left.loc .msg).pc = .waiting) : Settled u id s where
  delivered := delivered
  unread := by
    rw [waiting]
    rfl
  idle := by
    rw [waiting]
    exact fun about => about

end Runs

/-- The SOCKS client ends the stream, and the server takes up the CLOSE. -/
def clientEnds : List (ThreadId × Act) :=
  requested ++ served ++ acknowledged ++
    atClient (.uplink 0) [.core .go, .core .go, .recvRet none, .core .go] ++
    atClient (.bridge 0) [.core .go, .core .go, .core .go, .core (.sendRet 0), .core .go] ++
    atServer .msg [.deliver (ascii "A") [3, 0, 0, 3, 232], .go, .go, .go, .go, .go, .go, .go,
      .sent true, .go] ++
    atServer (.rx 0) [.go, .go] ++ atServer .msg [.go, .go]

theorem closed_stream_gone :
    ((machine plain).run initial clientEnds).right.loc (.bridge 0) = .returned true ∧
      (node ((machine plain).run initial clientEnds)).nextRef = 1 ∧
      (node ((machine plain).run initial clientEnds)).streams.lookup (keyFor plain.me 1000) = none := by
  have follows : (machine plain).follows (tidy plain 0 1000) initial clientEnds = true := by
    decide +kernel
  have lone := lone_of_exec (i := 0) (by decide +kernel) (Machine.exec_eq_run follows) 1000
  have returned : ((machine plain).run initial clientEnds).right.loc (.bridge 0) = .returned true := by
    decide +kernel
  have settled : Settled plain 1000 ((machine plain).run initial clientEnds) :=
    settled_of_waiting (by decide +kernel) (by decide +kernel)
  exact ⟨returned, by decide +kernel,
    no_half_open_stream (Reach.run follows) (by decide +kernel) lone returned settled⟩

/-- The OPEN is delivered after `openStream` has given up: the server stores the stream, and the
client drops the ACK. -/
def lateOpen : List (ThreadId × Act) :=
  requested ++ atClient .clock [.core (.tick 20000)] ++
    atClient (.bridge 0) [.core .timeout, .core .go, .core .go] ++ served ++
    atClient .receiver [.core (.packet [1, 0, 0, 3, 232]), .core .go]

/-- **A stream that is opened too late stays open.** The connection is reliable, everything that was
sent has arrived and is dealt with, the bridge has returned, and the server has the stream. -/
theorem timed_out_open_stays :
    ¬ ∀ (u : Setup) (s : State) (i : Nat) (id : UInt32) (b : Bool),
        Reach (machine u) (fun s t a => reliable u id s t a = true) initial s →
        ((client s).bridges i).streamId = some id → Lone i id (client s) →
        s.right.loc (.bridge i) = .returned b → Settled u id s →
        (client s).core.received = Egress.packetsTo u.me (node s).log →
        (node s).streams.lookup (keyFor u.me id) = none := by
  intro always
  have follows : (machine plain).follows (reliable plain 1000) initial lateOpen = true := by
    decide +kernel
  have lone := lone_of_exec (i := 0) (by decide +kernel) (Machine.exec_eq_run follows) 1000
  have settled : Settled plain 1000 ((machine plain).run initial lateOpen) :=
    settled_of_waiting (by decide +kernel) (by decide +kernel)
  have gone := always plain _ 0 1000 false (Reach.run follows) (by decide +kernel) lone
    (by decide +kernel) settled (by decide +kernel)
  revert gone
  decide +kernel

end TonTunnel.Tunnel
