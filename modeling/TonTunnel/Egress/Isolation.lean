import TonTunnel.Egress.Registration

/-!
A client's payload and the other clients.

`streams_`, `recently_closed_streams_ms_` and `streams_per_client_` hold the
entries of all clients, the first two under the text `client#streamId`. While the
message thread handles a payload of client `A`, every name it uses is `A`'s
(`MsgFor`), so a step of it leaves alone whatever is stored under another
client's name (`Apart`), writes to no socket of another client's stream, and hands
the transport no frame for another client. `client_isolation` says this for every
step of the thread between the delivery and the return, whatever the other threads
do in between, and for the whole call when they do nothing.
-/

namespace TonTunnel.Egress

open Interleaving (Reach Machine)

/-! ### What belongs to a client -/

/-- The entries of client `B` in the three tables are as they were. -/
structure Apart (B : Bytes) (n n' : Node) : Prop where
  entry (streamId : UInt32) :
    n'.streams.lookup (keyFor B streamId) = n.streams.lookup (keyFor B streamId)
  closed (streamId : UInt32) :
    n'.recentlyClosedMs.lookup (keyFor B streamId) = n.recentlyClosedMs.lookup (keyFor B streamId)
  count : n'.streamsPerClient.lookup B = n.streamsPerClient.lookup B

/-- The socket belongs to a stream of client `B`. -/
def SockOf (n : Node) (B : Bytes) (k : Sock) : Prop :=
  ∃ r < n.nextRef, (n.heap r).clientId = B ∧ (n.heap r).sock = k

/-- The event is a frame for client `B`, or bytes on a socket of one of its streams. -/
def Event.Touches (n : Node) (B : Bytes) : Event → Prop
  | .sentToClient _ client _ _ => client = B
  | .tcpSend k _ _ => SockOf n B k
  | _ => False

/-- Nothing of client `B` changed, and nothing was sent to it or on its streams; the
streams it has in the table keep their identity, flags and sockets. -/
structure Untouched (B : Bytes) (n n' : Node) : Prop extends Apart B n n' where
  stream {streamId : UInt32} {r : Ref} : n.streams.lookup (keyFor B streamId) = some r → Kept n n' r
  sock {k : Sock} : SockOf n B k → SockOf n' B k
  events : ∃ es, n'.log = n.log ++ es ∧ ∀ e ∈ es, ¬ e.Touches n B

theorem Apart.refl {B : Bytes} (n : Node) : Apart B n n := ⟨fun _ => rfl, fun _ => rfl, rfl⟩

theorem Apart.trans {B : Bytes} {n n' n'' : Node} (h : Apart B n n') (h' : Apart B n' n'') :
    Apart B n n'' :=
  ⟨fun k => (h'.entry k).trans (h.entry k), fun k => (h'.closed k).trans (h.closed k),
    h'.count.trans h.count⟩

theorem Untouched.refl {B : Bytes} (n : Node) : Untouched B n n :=
  ⟨.refl n, fun _ => .quiet (.refl n), id, [], by simp, by simp⟩

theorem Untouched.trans {B : Bytes} {n n' n'' : Node} (h : Untouched B n n')
    (h' : Untouched B n' n'') : Untouched B n n'' := by
  refine ⟨h.toApart.trans h'.toApart, fun {id r} hin => ?_, fun hk => h'.sock (h.sock hk), ?_⟩
  · exact (h.stream hin).trans (h'.stream ((h.entry id).trans hin))
  · obtain ⟨es, hes, free⟩ := h.events
    obtain ⟨es', hes', free'⟩ := h'.events
    refine ⟨es ++ es', by rw [hes', hes, List.append_assoc], fun e he touches => ?_⟩
    rcases List.mem_append.mp he with old | new
    · exact free e old touches
    · refine free' e new ?_
      cases e with
      | sentToClient => exact touches
      | tcpSend => exact h.sock touches
      | _ => exact touches

/-! ### The message thread uses the names of its client -/

/-- The client whose payload the message thread handles. -/
def MsgPc.client : MsgPc → Option Bytes
  | .waiting => none
  | .parsing ctx | .opening ctx _ _ | .dataing ctx _ _ | .closing ctx _ | .closeReply ctx _ =>
      some ctx.clientId

/-- The message thread handles a payload of client `A` at most, and its call of
`closeStream` is for `A`. -/
structure MsgFor (A : Bytes) (l : Thread MsgPc) : Prop where
  client {c : Bytes} : l.pc.client = some c → c = A
  call {c : CloseCall} {pc : ClosePc} : l.call = some ⟨c, pc⟩ → c.clientId = A

section Steps

variable {cfg : Config} {A B : Bytes} {n n' : Node} {a : Act} {t : ThreadId}

theorem MsgMove.msgFor {pc : MsgPc} {k : Thread MsgPc} (m : MsgMove cfg n pc a k n')
    (same : ∀ client payload, a ≠ .deliver client payload) (h : MsgFor A { pc }) : MsgFor A k := by
  cases m with
  | deliver => exact absurd rfl (same _ _)
  | leave | openEscaped => exact ⟨nofun, nofun⟩
  | dispatchOpen | dispatchData | dispatchError | opening | opened | dataing | dataDone |
      closeReply | closeReplyThrows => exact ⟨fun hc => h.client hc, nofun⟩
  | dispatchClose =>
      refine ⟨fun hc => h.client hc, fun hc => ?_⟩
      cases hc
      exact h.client rfl
  | dataCloses move =>
      refine ⟨fun hc => h.client hc, fun hc => ?_⟩
      cases hc
      cases move with
      | badFd | sendFails => exact h.client rfl

theorem MsgPc.client_resume (had : Bool) (pc : MsgPc) : (pc.resume had).client = pc.client := by
  unfold MsgPc.resume
  split
  · rfl
  · cases had <;> rfl
  · rfl

/-- **The message thread goes on with the payload it has** until it waits again. -/
theorem Move.msgFor {l l' : Thread MsgPc} (m : Move cfg .msg n l a l' n')
    (same : ∀ client payload, a ≠ .deliver client payload) (h : MsgFor A l) : MsgFor A l' := by
  cases m with
  | base move => exact move.msgFor same h
  | call =>
      refine ⟨h.client, fun hc => ?_⟩
      cases hc
      exact h.call rfl
  | @ret pc _ _ _ had =>
      refine ⟨fun hc => h.client ?_, nofun⟩
      rwa [MsgPc.client_resume] at hc

/-! ### A step leaves the other clients alone -/

/-- Names of different clients are different. -/
theorem keyFor_ne (hne : B ≠ A) (id id' : UInt32) : keyFor B id ≠ keyFor A id' :=
  fun h => hne (keyFor_inj h).1

theorem Apart.noteSelect (n : Node) (ip : Bytes) (fd : Int) (ret : ConnectRet) :
    Apart B n (noteSelect n ip fd ret) := by
  rcases noteSelect_eq n ip fd ret with same | waits
  · rw [same]
    exact .refl n
  · rw [waits]
    exact ⟨fun _ => rfl, fun _ => rfl, rfl⟩

theorem Apart.closeFd (n : Node) (fd : Int) : Apart B n (n.closeFd fd) := by
  obtain ⟨fds, closes, h⟩ := n.closeFd_eq fd
  rw [h]
  exact ⟨fun _ => rfl, fun _ => rfl, rfl⟩

theorem Apart.touchCount (hne : B ≠ A) (n : Node) : Apart B n (n.touchCount A) :=
  ⟨fun _ => rfl, fun _ => rfl, AList.lookup_insert_ne hne⟩

theorem TearMove.apart {call : Option CloseCall} {r : Ref} {p : TearPc} {out : TearOut}
    (m : TearMove t call r n p a out n') : Apart B n n' := by
  cases m with
  | shutdown =>
      rcases n.shutdownFd_eq (n.heap r).fd with same | ⟨k, shut⟩
      · rw [same]
        exact .refl n
      · rw [shut]
        exact ⟨fun _ => rfl, fun _ => rfl, rfl⟩
  | close => exact .closeFd n _
  | flag | clear | notify | join => exact ⟨fun _ => rfl, fun _ => rfl, rfl⟩
  | _ => exact .refl n

theorem CloseMove.apart {c : CloseCall} {pc : ClosePc} {out : CloseOut} (hne : B ≠ c.clientId)
    (m : CloseMove t c n pc a out n') : Apart B n n' := by
  cases m with
  | absent =>
      refine ⟨fun _ => rfl, fun id => ?_, rfl⟩
      exact AList.lookup_insert_ne (keyFor_ne hne id _)
  | throws => exact .refl n
  | lose => exact ⟨fun id => AList.lookup_erase_ne (keyFor_ne hne id _), fun _ => rfl, rfl⟩
  | take =>
      have entry (id : UInt32) := AList.lookup_erase_ne (s := n.streams) (keyFor_ne hne id c.streamId)
      have closed (id : UInt32) :
          (n.recentlyClosedMs.insert (keyFor c.clientId c.streamId) n.nowMs).lookup (keyFor B id) =
            n.recentlyClosedMs.lookup (keyFor B id) :=
        AList.lookup_insert_ne (keyFor_ne hne id c.streamId)
      unfold Node.take Node.dropCount
      dsimp only
      split
      · exact ⟨entry, closed, rfl⟩
      · split
        · exact ⟨entry, closed, AList.lookup_insert_ne hne⟩
        · exact ⟨entry, closed, rfl⟩
  | tear move | finish move => exact move.apart

theorem OpenMove.apart {q : OpenMessage} {pc : OpenPc} {out : OpenOut} (hne : B ≠ A)
    (m : OpenMove cfg A q n pc a out n') : Apart B n n' := by
  cases m with
  | quotaLeft | quotaThrows => exact .touchCount hne n
  | quotaFull => exact ⟨fun _ => rfl, fun _ => rfl, AList.lookup_insert_ne hne⟩
  | connected => exact .noteSelect n _ _ _
  | disconnected => exact (Apart.noteSelect n _ _ _).trans (.closeFd _ _)
  | register =>
      refine ⟨fun id => ?_, fun _ => rfl, AList.lookup_insert_ne hne⟩
      exact AList.lookup_insert_ne (keyFor_ne hne id _)
  | registerThrows =>
      exact ⟨fun id => AList.lookup_insert_ne (keyFor_ne hne id _), fun _ => rfl, rfl⟩
  | _ => exact ⟨fun _ => rfl, fun _ => rfl, rfl⟩

theorem DataMove.apart {d : DataMessage} {pc : DataPc} {out : DataOut}
    (m : DataMove cfg A d n pc a out n') : Apart B n n' := by
  cases m with
  | _ => exact ⟨fun _ => rfl, fun _ => rfl, rfl⟩

theorem Move.apart {l l' : Thread MsgPc} (hne : B ≠ A) (hfor : MsgFor A l)
    (m : Move cfg .msg n l a l' n') : Apart B n n' := by
  cases m with
  | base move =>
      cases move with
      | @opening ctx | @opened ctx | @openEscaped ctx =>
          have hctx : ctx.clientId = A := hfor.client rfl
          rename_i move
          exact move.apart (hctx ▸ hne)
      | dataing move | dataCloses move | dataDone move => exact move.apart
      | _ => exact ⟨fun _ => rfl, fun _ => rfl, rfl⟩
  | call move | ret move =>
      refine move.apart ?_
      rw [hfor.call rfl]
      exact hne

/-- The events of the message thread are about its own client. -/
theorem Emits.not_touches {l : Thread MsgPc} {e : Event} (hn : Sound n) (hl : MsgOk n l.pc)
    (hne : B ≠ A) (hfor : MsgFor A l) (h : Emits cfg n .msg l e) : ¬ e.Touches n B := by
  intro touches
  cases h with
  | openSends | quotaSends | dataSends | replies =>
      exact hne (touches.symm.trans (hfor.client rfl))
  | notifies calls => exact hne (touches.symm.trans (hfor.call calls))
  | tcpSend good =>
      obtain ⟨⟨hr, hclient, -⟩, names⟩ := hl
      obtain ⟨r', hr', hB, hsock⟩ := touches
      have hsame := hn.sockInj hr' hr (hsock.trans (names _ good))
      rw [hsame, hclient, hfor.client rfl] at hB
      exact hne hB.symm
  | _ => exact touches

end Steps

/-- **One step of the message thread** with a payload of `A` leaves client `B` untouched. -/
theorem untouched_step {cfg : Config} {s s' : System} {a : Act} {A B : Bytes}
    (h : Reaches cfg s) (hfor : MsgFor A (s.loc .msg)) (hne : B ≠ A)
    (hnext : (machine cfg).next s .msg a = some s') : Untouched B s.shared s'.shared := by
  obtain ⟨l, n, m, rfl⟩ := next_move hnext
  have hs := h.owned
  have e := (m.own hs.shared (hs.loc .msg)).1
  refine ⟨m.apart hne hfor, fun {id r} hin => ?_, ?_, ?_⟩
  · refine e.kept hs.shared (hs.shared.bound hin) ?_
    simp [hs.shared.untaken hin]
  · rintro k ⟨r, hr, hclient, hsock⟩
    obtain ⟨hr', hclient', _, hsock'⟩ := e.ident hr
    exact ⟨r, hr', hclient'.trans hclient, hsock'.trans hsock⟩
  · obtain ⟨es, hes, emits⟩ := m.log
    refine ⟨es, hes, fun ev hev => ?_⟩
    exact (emits ev hev).not_touches hs.shared (hs.loc .msg).pos.1 hne hfor

/-- A step of any thread keeps the message thread with its payload. -/
theorem msgFor_step {cfg : Config} {s s' : System} {t : ThreadId} {a : Act} {A : Bytes}
    (hfor : MsgFor A (s.loc .msg)) (same : t = .msg → ∀ client payload, a ≠ .deliver client payload)
    (hnext : (machine cfg).next s t a = some s') : MsgFor A (s'.loc .msg) := by
  obtain ⟨l, n, m, rfl⟩ := next_move hnext
  by_cases ht : t = .msg
  · subst ht
    simpa using Move.msgFor m (same rfl) hfor
  · simpa [Function.update_of_ne (Ne.symm ht)] using hfor

/-- A schedule in which no further payload is delivered. -/
def NoDelivery (w : List (ThreadId × Act)) : Prop :=
  ∀ client payload, (ThreadId.msg, Act.deliver client payload) ∉ w

/-- **Client isolation.** The message thread has been given a payload of client `A`.
Each of its steps until it is given the next one leaves every other client `B`
untouched, whatever the other threads do in between; so does the whole call where
they do nothing. The names of two streams are the same only if both the clients and
the stream ids are. -/
theorem client_isolation {cfg : Config} {s : System} {A B payload : Bytes} (h : Reaches cfg s)
    (start : s.loc .msg = { pc := .parsing ⟨A, payload, 0⟩ }) (hne : B ≠ A) :
    (∀ w a s₁ s₂, NoDelivery (w ++ [(.msg, a)]) → (machine cfg).exec s w = some s₁ →
      (machine cfg).next s₁ .msg a = some s₂ → Untouched B s₁.shared s₂.shared) ∧
    (∀ w s', NoDelivery w → (∀ step ∈ w, step.1 = .msg) → (machine cfg).exec s w = some s' →
      Untouched B s.shared s'.shared) ∧
    ∀ c₁ c₂ s₁ s₂, keyFor c₁ s₁ = keyFor c₂ s₂ → c₁ = c₂ ∧ s₁ = s₂ := by
  have hfor : MsgFor A (s.loc .msg) := by
    rw [start]
    exact ⟨fun hc => (Option.some.inj hc).symm, nofun⟩
  -- a step keeps the process in a reached state, with the payload of `A`
  have keeps {w : List (ThreadId × Act)} (hw : NoDelivery w) (s s' : System) (t : ThreadId) (a : Act)
      (hmem : (t, a) ∈ w) (hs : Reaches cfg s ∧ MsgFor A (s.loc .msg))
      (hnext : (machine cfg).next s t a = some s') : Reaches cfg s' ∧ MsgFor A (s'.loc .msg) := by
    refine ⟨.step hs.1 trivial hnext, msgFor_step hs.2 ?_ hnext⟩
    rintro rfl client payload rfl
    exact hw client payload hmem
  refine ⟨fun w a s₁ s₂ hw hexec hnext => ?_, fun w s' hw hmsg hexec => ?_,
    fun _ _ _ _ => keyFor_inj⟩
  · have hw' : NoDelivery w := fun client payload hmem =>
      hw client payload (List.mem_append_left _ hmem)
    obtain ⟨hr, hfor'⟩ := Machine.exec_invariant (keeps hw') ⟨h, hfor⟩ hexec
    exact untouched_step hr hfor' hne hnext
  · refine (Machine.exec_invariant (P := fun s' =>
      (Reaches cfg s' ∧ MsgFor A (s'.loc .msg)) ∧ Untouched B s.shared s'.shared)
      (fun s₁ s₂ t a hmem hs hnext => ?_) ⟨⟨h, hfor⟩, .refl _⟩ hexec).2
    refine ⟨keeps hw s₁ s₂ t a hmem hs.1 hnext, ?_⟩
    obtain rfl : t = .msg := hmsg _ hmem
    exact hs.2.trans (untouched_step hs.1.1 hs.1.2 hne hnext)

/-- Client `B` opens stream 1; then client `A` closes its own stream 1, which does not
exist. -/
def foreignClose : List (ThreadId × Act) :=
  (.msg, .deliver (ascii "B") openStream1) :: openSchedule 3 ++
    [(.msg, .go), (.msg, .deliver (ascii "A") [3, 0, 0, 0, 1])]

/-- The message thread handles the payload of `A` to the end. -/
def foreignCloseHandled : List (ThreadId × Act) :=
  [.go, .go, .sent true, .go].map fun a => (.msg, a)

theorem foreign_close_leaves_stream :
    Untouched (ascii "B") ((machine {}).run init foreignClose).shared
      ((machine {}).run ((machine {}).run init foreignClose) foreignCloseHandled).shared := by
  have h : Reaches {} ((machine {}).run init foreignClose) :=
    (Reach.run (by decide : (machine {}).follows (fun _ _ _ => true) init foreignClose)).any
  have handled : (machine {}).follows (fun _ _ _ => true) ((machine {}).run init foreignClose)
      foreignCloseHandled = true := by decide
  have start : ((machine {}).run init foreignClose).loc .msg =
      { pc := .parsing ⟨ascii "A", [3, 0, 0, 0, 1], 0⟩ } := by decide
  have once : NoDelivery foreignCloseHandled := by
    simp [NoDelivery, foreignCloseHandled]
  exact (client_isolation h start (by decide)).2.1 foreignCloseHandled _ once (by decide)
    (Machine.exec_eq_run handled)

end TonTunnel.Egress
