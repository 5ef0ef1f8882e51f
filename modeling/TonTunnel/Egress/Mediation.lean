import TonTunnel.Egress.Registration

/-!
What a connection and the bytes on it go back to.

The checks of `handleOpen` are made once, at the top, while the call of
`connectIPv4WithTimeout` stands in a loop far below them, and the bytes sent on
the connection come by another handler through the stream table. `OpenFrom` and
`MsgFrom` carry, from point to point of the message thread, what has been checked
and where the frame at hand came from; `SockFrom` is what a stream keeps of it.
`connections_mediated` reads the two off the history of a run: every connection
attempt belongs to a received OPEN that passed every check, and every byte written
to a socket to a received DATA of the client and stream id the socket was opened
for.
-/

namespace TonTunnel.Egress

open Interleaving (Reach)

/-! ### What is carried along -/

/-- The OPEN passed the checks of `handleOpen`; `count` is what the quota check read. -/
structure Mediated (cfg : Config) (client : Bytes) (q : OpenMessage) (count : UInt32) : Prop where
  enabled : cfg.egress.enabled = true
  host : 1 ≤ q.host.length ∧ q.host.length ≤ 255
  hostFree : isHostBlocked q.host = false
  port : isPortAllowed cfg q.port = true
  auth : cfg.authRequired = true → isClientAllowed cfg client q.token = true
  quota : count < cfg.maxStreams

/-- The socket was opened for an OPEN of this client and stream id, in a connection
attempt. -/
def SockFrom (n : Node) (client : Bytes) (streamId : UInt32) (k : Sock) : Prop :=
  ∃ q fd count ip, q.streamId = streamId ∧ Event.connect client q count ip ∈ n.log ∧
    Event.socket client q fd k ∈ n.log

/-- What `handleOpen` has established at each of its points. -/
def OpenFrom (cfg : Config) (n : Node) (client : Bytes) (q : OpenMessage) : OpenPc → Prop
  | .quota => checkOpen cfg client q = none
  | .resolve count | .connect count _ _ => Mediated cfg client q count
  | .socket count ip _ => Mediated cfg client q count ∧ Event.connect client q count ip ∈ n.log
  | .connecting count _ _ _ k => Mediated cfg client q count ∧ SockFrom n client q.streamId k
  | .makeStream _ k => SockFrom n client q.streamId k
  | _ => True

/-- Where the frame that the message thread handles came from. -/
def MsgFrom (cfg : Config) : MsgPc → Node → Prop
  | .opening ctx q pc, n => Event.received ctx.clientId (.opn q) ∈ n.log ∧
      OpenFrom cfg n ctx.clientId q pc
  | .dataing ctx d _, n => Event.received ctx.clientId (.data d) ∈ n.log
  | _, _ => True

/-- What the history of a run bears out. -/
structure Borne (cfg : Config) (n : Node) : Prop where
  streams {r : Ref} : r < n.nextRef →
    SockFrom n (n.heap r).clientId (n.heap r).streamId (n.heap r).sock
  connects {client : Bytes} {q : OpenMessage} {count : UInt32} {ip : Bytes} :
    Event.connect client q count ip ∈ n.log →
      Event.received client (.opn q) ∈ n.log ∧ Mediated cfg client q count ∧
        (cfg.egress.blockPrivateIps = true → isAddressBlocked ip = false)
  sends {k : Sock} {payload : Bytes} {sent : Int} : Event.tcpSend k payload sent ∈ n.log →
    ∃ client streamId, Event.received client (.data ⟨streamId, payload⟩) ∈ n.log ∧
      SockFrom n client streamId k

/-! ### A step carries it on -/

section Steps

variable {cfg : Config} {t : ThreadId} {l l' : Loc t} {n n' : Node} {a : Act}
  {client : Bytes} {streamId : UInt32} {q : OpenMessage} {k : Sock}

/-- The checks before the quota check. -/
theorem mediated_of_checkOpen {count : UInt32} (h : checkOpen cfg client q = none)
    (below : count < cfg.maxStreams) : Mediated cfg client q count := by
  unfold checkOpen at h
  split_ifs at h with disabled invalid port host auth
  simp only [Bool.not_eq_true, Bool.not_eq_false'] at disabled port host
  simp only [Bool.or_eq_true, List.isEmpty_iff, decide_eq_true_eq, not_or, not_lt] at invalid
  refine ⟨disabled, ⟨List.length_pos_of_ne_nil invalid.1, invalid.2⟩, host, port, fun required => ?_,
    below⟩
  simpa [required] using auth

theorem Grows.old {e : Event} (h : Grows cfg t l n n') (he : e ∈ n.log) : e ∈ n'.log := by
  obtain ⟨es, hes, _⟩ := h
  rw [hes]
  exact List.mem_append_left _ he

theorem SockFrom.grows (g : ∀ e ∈ n.log, e ∈ n'.log) (h : SockFrom n client streamId k) :
    SockFrom n' client streamId k := by
  obtain ⟨q, fd, count, ip, hq, connects, opens⟩ := h
  exact ⟨q, fd, count, ip, hq, g _ connects, g _ opens⟩

theorem OpenFrom.grows {pc : OpenPc} (g : ∀ e ∈ n.log, e ∈ n'.log)
    (h : OpenFrom cfg n client q pc) : OpenFrom cfg n' client q pc := by
  cases pc with
  | socket => exact ⟨h.1, g _ h.2⟩
  | connecting => exact ⟨h.1, h.2.grows g⟩
  | makeStream => exact SockFrom.grows g h
  | _ => exact h

theorem MsgFrom.grows {pc : MsgPc} (g : ∀ e ∈ n.log, e ∈ n'.log) (h : MsgFrom cfg pc n) :
    MsgFrom cfg pc n' := by
  cases pc with
  | opening => exact ⟨g _ h.1, h.2.grows g⟩
  | dataing => exact g _ h
  | _ => exact trivial

/-- `handleOpen` carries its checks on. -/
theorem OpenMove.carries {pc pc' : OpenPc} (m : OpenMove cfg client q n pc a (.more pc') n')
    (g : ∀ e ∈ n.log, e ∈ n'.log) (h : OpenFrom cfg n client q pc) :
    OpenFrom cfg n' client q pc' := by
  cases m with
  | pass passed => exact passed
  | quotaLeft below => exact mediated_of_checkOpen h below
  | resolved => exact h
  | skip => exact h
  | attempt => exact ⟨h, List.mem_append_right _ List.mem_cons_self⟩
  | noSocket | disconnected => exact h.1
  | @socket count ip rest fd =>
      obtain ⟨mediated, connects⟩ := h
      exact ⟨mediated, q, fd, count, ip, rfl, g _ connects,
        List.mem_append_right _ List.mem_cons_self⟩
  | connected => exact h.2.grows g
  | _ => exact trivial

theorem MsgMove.carries {pc : MsgPc} {k : Thread MsgPc} (m : MsgMove cfg n pc a k n')
    (h : MsgFrom cfg pc n) : MsgFrom cfg k.pc n' := by
  have g := fun e => m.log.old (e := e)
  cases m with
  | dispatchOpen => exact ⟨List.mem_append_right _ List.mem_cons_self, trivial⟩
  | dispatchData => exact List.mem_append_right _ List.mem_cons_self
  | opening move => exact ⟨g _ h.1, move.carries g h.2⟩
  | dataing => exact g _ h
  | dataCloses => exact g _ h
  | _ => exact trivial

/-- **The message thread knows where its frame came from.** -/
theorem msgFrom_of_reaches {s : System} (h : Reaches cfg s) :
    MsgFrom cfg (s.loc .msg).pc s.shared := by
  refine h.msgPos (P := MsgFrom cfg) trivial (fun _ _ m hP => m.carries hP)
    (fun _ _ _ m hP => hP.grows fun e => m.log.old) (fun {n pc had} calls => ?_)
  obtain ⟨ctx, hpc | ⟨id, hpc⟩⟩ := MsgPc.resume_cases had calls
  · rw [hpc]
    exact trivial
  · rw [hpc]
    exact trivial

/-- `handleOpen` makes a stream of this name for this socket. -/
inductive Makes (client : Bytes) (streamId : UInt32) (k : Sock) : (t : ThreadId) → Loc t → Prop
  | mk {ctx : MsgCtx} {q : OpenMessage} {fd : Int} (hclient : ctx.clientId = client)
      (hstream : q.streamId = streamId) :
      Makes client streamId k .msg { pc := .opening ctx q (.makeStream fd k) }

theorem OpenMove.made {ctx : MsgCtx} {pc : OpenPc} {out : OpenOut} {r : Ref}
    (m : OpenMove cfg ctx.clientId q n pc a out n') (h : r < n'.nextRef) :
    r < n.nextRef ∨ Makes (n'.heap r).clientId (n'.heap r).streamId (n'.heap r).sock .msg
      { pc := .opening ctx q pc } := by
  cases m with
  | makeStream =>
      rcases Nat.lt_succ_iff_lt_or_eq.mp h with old | rfl
      · exact .inl old
      · refine .inr ?_
        simp only [Node.makeStream, Function.update_self]
        exact .mk rfl rfl
  | connected =>
      rw [(Mild.noteSelect n _ _ _).nextRef] at h
      exact .inl h
  | disconnected =>
      obtain ⟨fds, closes, hclose⟩ := (noteSelect n _ _ _).closeFd_eq _
      rw [hclose, (Mild.noteSelect n _ _ _).nextRef] at h
      exact .inl h
  | _ => exact .inl h

/-- **A stream is made by `handleOpen` only.** -/
theorem Move.made {r : Ref} (hn : Sound n) (hl : LocOk t l n) (m : Move cfg t n l a l' n')
    (h : r < n'.nextRef) :
    r < n.nextRef ∨ Makes (n'.heap r).clientId (n'.heap r).streamId (n'.heap r).sock t l := by
  have e := (m.own hn hl).1
  by_cases ht : t = .msg
  · subst ht
    cases m with
    | base move =>
        cases move with
        | opening move | opened move | openEscaped move => exact move.made h
        | dataing move | dataCloses move | dataDone move =>
            rw [move.mild.nextRef] at h
            exact .inl h
        | _ => exact .inl h
    | call move | ret move =>
        rw [move.frame.1] at h
        exact .inl h
  · rw [(e.shrinks hn ht).1] at h
    exact .inl h

end Steps

/-- **One step bears its events out.** -/
theorem Borne.step {cfg : Config} {s : System} {t : ThreadId} {a : Act} {l' : Loc t} {n' : Node}
    (hs : Owned s) (pos : MsgFrom cfg (s.loc .msg).pc s.shared) (borne : Borne cfg s.shared)
    (hstep : step cfg t (s.loc t) s.shared a = some (l', n')) : Borne cfg n' := by
  have m := step_move hstep
  have e := (m.own hs.shared (hs.loc t)).1
  have g {e : Event} (he : e ∈ s.shared.log) : e ∈ n'.log := m.log.old he
  constructor
  · intro r hr
    rcases m.made hs.shared (hs.loc t) hr with old | makes
    · obtain ⟨_, hclient, hstream, hsock⟩ := e.ident old
      rw [hclient, hstream, hsock]
      exact (borne.streams old).grows fun _ => g
    · generalize hl : s.loc t = l at makes
      generalize (n'.heap r).clientId = client, (n'.heap r).streamId = streamId,
        (n'.heap r).sock = k at makes
      cases makes with
      | mk hclient hstream =>
          subst hclient hstream
          rw [hl] at pos
          exact SockFrom.grows (fun _ => g) pos.2
  · intro client q count ip h
    rcases m.log.mem h with old | new
    · obtain ⟨received, mediated, free⟩ := borne.connects old
      exact ⟨g received, mediated, free⟩
    · generalize hl : s.loc t = l at new
      cases new with
      | connects _ free =>
          rw [hl] at pos
          exact ⟨g pos.1, pos.2, free⟩
  · intro k payload sent h
    rcases m.log.mem h with old | new
    · obtain ⟨client, streamId, received, hfrom⟩ := borne.sends old
      exact ⟨client, streamId, g received, hfrom.grows fun _ => g⟩
    · have hloc := (hs.loc t).pos
      generalize hl : s.loc t = l at new hloc
      cases new with
      | @tcpSend ctx d r fd k sent good =>
          obtain ⟨⟨⟨hr, hclient, hstream⟩, names⟩, -⟩ := hloc
          rw [hl] at pos
          refine ⟨ctx.clientId, d.streamId, g pos, ?_⟩
          rw [names k good, ← hclient, ← hstream]
          exact (borne.streams hr).grows fun _ => g

/-- Every run bears its events out. -/
theorem borne_of_reaches {cfg : Config} {s : System} (h : Reaches cfg s) : Borne cfg s.shared := by
  have start : Borne cfg init.shared :=
    ⟨fun hr => absurd hr (Nat.not_lt_zero _), fun h => (by cases h), fun h => (by cases h)⟩
  refine Reach.invariant (I := fun s => Borne cfg s.shared) start ?_ h
  intro s s' t a hr borne _ hnext
  obtain ⟨l, n, hstep, rfl⟩ := Interleaving.Machine.next_eq_some hnext
  exact borne.step (Reaches.owned hr) (msgFrom_of_reaches hr) hstep

/-- **Outbound connections are mediated.** In every run, `connectIPv4WithTimeout` is
called only for a received OPEN that passed every check of `handleOpen`, and with
an address that is not blocked where private addresses are; and what is passed to
`send` on a socket is the payload of a received DATA whose client and stream id are
those of an OPEN that the socket was opened for in such a call. -/
theorem connections_mediated {cfg : Config} {s : System} (h : Reaches cfg s) :
    (∀ client q count ip, Event.connect client q count ip ∈ s.shared.log →
      Event.received client (.opn q) ∈ s.shared.log ∧ Mediated cfg client q count ∧
        (cfg.egress.blockPrivateIps = true → isAddressBlocked ip = false)) ∧
    ∀ k payload sent, Event.tcpSend k payload sent ∈ s.shared.log →
      ∃ client q fd count ip,
        Event.received client (.data ⟨q.streamId, payload⟩) ∈ s.shared.log ∧
        Event.socket client q fd k ∈ s.shared.log ∧
        Event.connect client q count ip ∈ s.shared.log := by
  have borne := borne_of_reaches h
  refine ⟨fun _ _ _ _ => borne.connects, fun k payload sent hsend => ?_⟩
  obtain ⟨client, _, received, q, fd, count, ip, rfl, connects, opened⟩ := borne.sends hsend
  exact ⟨client, q, fd, count, ip, received, opened, connects⟩

/-- Client `A` opens stream 1 and sends the byte 120 on it. -/
def openAndSend : List (ThreadId × Act) :=
  (.msg, .deliver (ascii "A") (openStream1 ++ [2, 0, 0, 0, 1, 0, 0, 0, 1, 120])) ::
    openSchedule 3 ++ [.go, .go, .go, .go, .go, .sendRet 1, .go].map fun a => (.msg, a)

theorem sent_byte_mediated :
    ∃ client q fd count ip,
      Event.received client (.data ⟨q.streamId, [120]⟩) ∈
        ((machine {}).run init openAndSend).shared.log ∧
      Event.socket client q fd 0 ∈ ((machine {}).run init openAndSend).shared.log ∧
      Event.connect client q count ip ∈ ((machine {}).run init openAndSend).shared.log ∧
      Mediated {} client q count := by
  have h : Reaches {} ((machine {}).run init openAndSend) :=
    (Reach.run (by decide : (machine {}).follows (fun _ _ _ => true) init openAndSend)).any
  obtain ⟨client, q, fd, count, ip, received, opened, connects⟩ :=
    (connections_mediated h).2 0 [120] 1 (by decide)
  have mediated := ((connections_mediated h).1 client q count ip connects).2.1
  exact ⟨client, q, fd, count, ip, received, opened, connects, mediated⟩

end TonTunnel.Egress
