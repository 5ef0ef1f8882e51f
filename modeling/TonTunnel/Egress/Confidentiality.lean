import TonTunnel.Egress.Mediation
import TonTunnel.Tunnel.Downstream

/-!
Whose socket a thread reads from and writes to.

`stream->fd` is a number that the rx thread loads outside `mu_` and passes to
`recv` in a later step. Between the two another thread may close the stream, and
`socket()` may hand the number out again. The message thread cannot be overtaken
in this way, because only the message thread opens sockets; an rx thread can.

* `Reads`: the rx thread of a stream may still call `recv` with the number.
* `Private`: a number that an rx thread may use names the stream's own socket, or
  nothing. Runs keep it as long as `socket()` returns no such number
  (`sparesNumbers`).
* `Confidential`: what follows for the bytes that were received and sent.
-/

namespace TonTunnel

open BigEndian

/-- A frame that reads as DATA is the DATA frame. -/
theorem ServerFrame.eq_data_of_encode {f : ServerFrame Bytes} {id : UInt32} {payload : Bytes}
    (h : f.encode = encodeData ⟨id, payload⟩) : f = .data id payload := by
  cases f with
  | ack | close | error => cases (List.cons.inj h).1
  | data id' payload' =>
      obtain ⟨head, payloads⟩ := List.append_inj h rfl
      obtain ⟨ids, -⟩ := List.append_inj head rfl
      have same := writeU32_injective (List.append_cancel_left ids)
      dsimp only at same payloads
      rw [same, payloads]

namespace Egress

open Interleaving (Reach)

/-! ### Descriptor numbers -/

instance (l : Thread RxPc) : Decidable (RxGone l) := inferInstanceAs (Decidable (_ ∨ _ ∨ _))

/-- The rx thread of `r` may still call `recv` with this number: it has loaded it, or will load it
from the stream. -/
def Reads (s : System) (r : Ref) (fd : Int) : Prop :=
  s.shared.rxLife r ≠ .unstarted ∧ ¬ RxGone (s.loc (.rx r)) ∧
    ((s.shared.heap r).fd = fd ∨ (s.loc (.rx r)).pc = .recv fd)

instance (s : System) (r : Ref) (fd : Int) : Decidable (Reads s r fd) :=
  inferInstanceAs (Decidable (_ ∧ _ ∧ _))

/-- `socket()` returns no number that an rx thread may still use. -/
def sparesNumbers (s : System) : ThreadId → Act → Bool
  | .msg, .socketRet (some fd) => (List.range s.shared.nextRef).all fun r => ¬ Reads s r fd
  | _, _ => true

/-- The number of the stream is, or will be, used by its rx thread. -/
def Uses (s : System) (r : Ref) (fd : Int) : Prop :=
  Reads s r fd ∨ WillStart r .msg (s.loc .msg) ∧ (s.shared.heap r).fd = fd

/-- A number that the rx thread of a stream uses names the socket of the stream, or nothing. -/
def Private (s : System) : Prop :=
  ∀ r fd k, Uses s r fd → s.shared.fds fd = some k → k = (s.shared.heap r).sock

/-- `socket()` is about to return the number. -/
inductive Opens (fd : Int) : (t : ThreadId) → Loc t → Act → Prop
  | mk {ctx q count ip rest} :
      Opens fd .msg { pc := .opening ctx q (.socket count ip rest) } (.socketRet (some fd))

section Steps

variable {cfg : Config} {t : ThreadId} {l l' : Loc t} {n n' : Node} {a : Act} {r : Ref} {fd : Int}
  {k : Sock}

theorem fds_of_closeFd {fd' : Int} (h : (n.closeFd fd').fds fd = some k) : n.fds fd = some k := by
  unfold Node.closeFd at h
  split at h
  · exact h
  · by_cases same : fd = fd'
    · subst same
      simp at h
    · simpa [same] using h

theorem TearMove.fds {call : Option CloseCall} {p : TearPc} {out : TearOut}
    (m : TearMove t call r n p a out n') (h : n'.fds fd = some k) : n.fds fd = some k := by
  cases m with
  | shutdown =>
      rcases n.shutdownFd_eq (n.heap r).fd with same | ⟨k', shut⟩
      · rwa [same] at h
      · rw [shut] at h
        exact h
  | close => exact fds_of_closeFd h
  | _ => exact h

theorem CloseMove.fds {c : CloseCall} {pc : ClosePc} {out : CloseOut}
    (m : CloseMove t c n pc a out n') (h : n'.fds fd = some k) : n.fds fd = some k := by
  cases m with
  | @take r =>
      obtain ⟨counts, after⟩ := Node.take_eq n t c r
      rw [after] at h
      exact h
  | tear move | finish move => exact move.fds h
  | absent | throws | lose => exact h

theorem OpenMove.fds {ctx : MsgCtx} {q : OpenMessage} {pc : OpenPc} {out : OpenOut}
    (m : OpenMove cfg ctx.clientId q n pc a out n') (h : n'.fds fd = some k) :
    n.fds fd = some k ∨ Opens fd .msg { pc := .opening ctx q pc } a := by
  have selects {ip : Bytes} {fd' : Int} {ret : ConnectRet} :
      (noteSelect n ip fd' ret).fds = n.fds := (Mild.noteSelect n ip fd' ret).fds
  cases m with
  | @socket _ _ _ fd' =>
      by_cases same : fd = fd'
      · subst same
        exact .inr .mk
      · exact .inl (by simpa [Node.openSocket, Node.emit, same] using h)
  | connected => exact .inl (selects ▸ h)
  | disconnected => exact .inl (selects ▸ fds_of_closeFd h)
  | _ => exact .inl h

/-- Only `socket()` gives a number a meaning. -/
theorem Move.fds (m : Move cfg t n l a l' n') (h : n'.fds fd = some k) :
    n.fds fd = some k ∨ Opens fd t l a := by
  cases t with
  | msg =>
      cases m with
      | base move =>
          cases move with
          | opening move | opened move | openEscaped move => exact move.fds h
          | dataing move | dataCloses move | dataDone move => exact .inl (move.mild.fds ▸ h)
          | _ => exact .inl h
      | call move | ret move => exact .inl (move.fds h)
  | idle =>
      cases m with
      | base move => exact .inl (move.mild.fds ▸ h)
      | call move | ret move => exact .inl (move.fds h)
  | rx r =>
      cases m with
      | base move => exact .inl (move.mild.fds ▸ h)
      | call move | ret move => exact .inl (move.fds h)
  | main =>
      cases m with
      | tear move | finish move => exact .inl (move.fds h)
      | _ => exact .inl h
  | clock =>
      obtain ⟨ms, rfl⟩ := m
      exact .inl h

/-- The number of a stream stays, or is cleared. -/
theorem Effect.fd_kept (e : Effect t n n') (known : r < n.nextRef) :
    (n'.heap r).fd = (n.heap r).fd ∨ (n'.heap r).fd = -1 := by
  have set {r' : Ref} {f : Stream → Stream} (hf : ∀ s, (f s).fd = s.fd ∨ (f s).fd = -1) :
      ((n.setStream r' f).heap r).fd = (n.heap r).fd ∨ ((n.setStream r' f).heap r).fd = -1 := by
    by_cases h : r = r'
    · subst h
      simpa [Node.setStream] using hf _
    · simp [Node.setStream, h]
  cases e with
  | quiet q | openSocket _ _ _ q | put _ _ _ _ q | take _ q | lose q | takeAll _ _ q =>
      exact .inl (q.fd r)
  | @dropSocket fd' _ _ _ _ q | @closeFd r' _ _ _ q =>
      obtain ⟨fds, closes, after⟩ := n.closeFd_eq _
      rw [after] at q
      exact .inl (q.fd r)
  | makeStream _ _ _ _ q =>
      refine .inl ((q.fd r).trans ?_)
      simp [Node.makeStream, Nat.ne_of_lt known]
  | flag _ q =>
      rw [q.fd]
      exact set fun _ => .inl rfl
  | clearFd _ _ q =>
      rw [q.fd]
      exact set fun _ => .inr rfl

/-- A stream that is made in a step is not closed. -/
theorem Effect.fresh (e : Effect t n n') (made : n.nextRef < n'.nextRef) :
    (n'.heap n.nextRef).closed = false := by
  cases e with
  | quiet q | openSocket _ _ _ q | put _ _ _ _ q | take _ q | lose q | takeAll _ _ q | flag _ q
  | clearFd _ _ q => exact absurd q.nextRef (Nat.ne_of_gt made)
  | @dropSocket fd' _ _ _ _ q | @closeFd r' _ _ _ q =>
      obtain ⟨fds, closes, after⟩ := n.closeFd_eq _
      rw [after] at q
      exact absurd q.nextRef (Nat.ne_of_gt made)
  | makeStream _ _ _ _ q =>
      rw [q.closed]
      simp [Node.makeStream]

/-- The rx thread gets a number by loading it. -/
theorem Move.loads {l l' : Thread RxPc} (m : Move cfg (.rx r) n l a l' n') (stays : ¬ RxGone l')
    (has : l'.pc = .recv fd) : (n.heap r).fd = fd := by
  cases m with
  | base move =>
      cases move with
      | load =>
          cases has
          rfl
      | ended => exact absurd (.inl nofun) stays
      | _ => cases has
  | call => exact absurd (.inl nofun) stays
  | ret => cases has

end Steps

section Runs

variable {cfg : Config} {s : System} {t : ThreadId} {a : Act} {l : Loc t} {n : Node} {r : Ref} {fd : Int}
  {k : Sock}

theorem WillStart.known {l : Thread MsgPc} (hl : LocOk .msg l n) (starts : WillStart r .msg l) :
    r < n.nextRef := by
  obtain ⟨ctx, q, pc, at_, holds⟩ := starts
  have ok := hl.pos.1
  rw [at_] at ok
  cases pc with
  | register =>
      cases holds
      exact ok.1.1
  | ack | startThread =>
      cases holds
      exact ok.1
  | _ => exact holds.elim

/-- A number that is in use and means something was in use before, or the stream is new. -/
theorem Uses.before (reached : Reaches cfg s) (m : Move cfg t s.shared (s.loc t) a l n)
    (uses : Uses ⟨Function.update s.loc t l, n⟩ r fd) (means : n.fds fd = some k) :
    (Uses s r fd ∧ r < s.shared.nextRef) ∨ (Attached n r ∧ (n.heap r).fd = fd) := by
  have owned := Reaches.owned reached
  have kin := kin_of_reaches reached
  obtain ⟨e, after⟩ := m.own owned.shared (owned.loc t)
  have sound := owned.shared.effect e
  have same (known : r < s.shared.nextRef) (is : (n.heap r).fd = fd) : (s.shared.heap r).fd = fd := by
    rcases e.fd_kept known with kept | cleared
    · exact kept.symm.trans is
    · have := (sound.fdOpen means).1
      omega
  rcases uses with ⟨started, stays, has⟩ | ⟨starts, has⟩
  · have reads (ran : s.shared.rxLife r ≠ .unstarted) : Reads s r fd := by
      have known := kin.shared.bound ran
      by_cases mine : t = .rx r
      · subst mine
        simp only [Function.update_self] at stays has
        refine ⟨ran, fun gone => stays (m.gone gone), .inl ?_⟩
        rcases has with is | is
        · exact same known is
        · exact m.loads stays is
      · simp only [Function.update_of_ne (Ne.symm mine)] at stays has
        exact ⟨ran, stays, has.imp_left (same known)⟩
    rcases m.rxLife r with life | ⟨-, starts | awake⟩
    · have ran : s.shared.rxLife r ≠ .unstarted := fun h => started (life.trans h)
      exact .inl ⟨.inl (reads ran), kin.shared.bound ran⟩
    · -- `handleOpen` has just started the thread, which has not moved yet
      generalize here : s.loc t = l₀ at starts
      cases starts with
      | mk =>
          have starts : WillStart r .msg (s.loc .msg) := by
            rw [here]
            exact ⟨_, _, _, rfl, rfl⟩
          have known := starts.known (owned.loc .msg)
          refine .inl ⟨.inr ⟨starts, same known (has.resolve_right ?_)⟩, known⟩
          intro loaded
          refine (kin.loc (.rx r)).awake ⟨rfl, .inl ?_⟩ ((kin.loc .msg).starts starts)
          intro looping
          cases looping.symm.trans loaded
    · have ran := (kin.loc t).awake awake
      exact .inl ⟨.inl (reads ran), kin.shared.bound ran⟩
  · have old (starts : WillStart r .msg (s.loc .msg)) : Uses s r fd ∧ r < s.shared.nextRef :=
      ⟨.inr ⟨starts, same (starts.known (owned.loc .msg)) has⟩, starts.known (owned.loc .msg)⟩
    by_cases mine : t = .msg
    · subst mine
      simp only [Function.update_self] at starts
      rcases m.comes_to_start starts with before | rfl
      · exact .inl (old before)
      · have made := starts.known after
        exact .inr ⟨sound.attached made (e.fresh made), has⟩
    · simp only [Function.update_of_ne (Ne.symm mine)] at starts
      exact .inl (old starts)

/-- **A step keeps the numbers private** if `socket()` returns none that is in use. -/
theorem Private.step (reached : Reaches cfg s) (before : Private s) (spares : sparesNumbers s t a = true)
    (m : Move cfg t s.shared (s.loc t) a l n) : Private ⟨Function.update s.loc t l, n⟩ := by
  have owned := Reaches.owned reached
  obtain ⟨e, -⟩ := m.own owned.shared (owned.loc t)
  intro r fd k uses means
  rcases uses.before reached m means with ⟨used, known⟩ | ⟨⟨-, attached⟩, is⟩
  · refine Eq.trans ?_ (e.ident known).2.2.2.symm
    rcases m.fds means with old | opens
    · exact before r fd k used old
    · exfalso
      generalize here : s.loc t = l₀ at opens
      cases opens with
      | mk =>
          rcases used with reads | ⟨⟨_, _, _, at_, holds⟩, -⟩
          · simp only [sparesNumbers, List.all_eq_true, List.mem_range, decide_eq_true_eq] at spares
            exact spares r known reads
          · rw [here] at at_
            cases at_
            exact holds
  · rw [is] at attached
    exact Option.some.inj (means.symm.trans attached)

/-- **The numbers in use are private** in every run in which `socket()` returns none of them. -/
theorem private_of_reach (h : ReachesBy cfg (fun s t a => sparesNumbers s t a = true) s) : Private s := by
  refine Reach.invariant (I := Private) ?_ ?_ h
  · intro r fd k _ means
    cases means
  · intro s s' t a reached before spares next
    obtain ⟨l, n, m, rfl⟩ := next_move next
    exact before.step reached.any spares m

end Runs

/-! ### Bytes -/

/-- Every byte stays with its stream. -/
structure Confidential (n : Node) : Prop where
  /-- the sockets of streams were opened for them, and are their own -/
  opened {r : Ref} : r < n.nextRef →
    SockFrom n (n.heap r).clientId (n.heap r).streamId (n.heap r).sock
  distinct {r r' : Ref} : r < n.nextRef → r' < n.nextRef → (n.heap r).sock = (n.heap r').sock → r = r'
  /-- an rx thread receives from the socket of its stream -/
  reads {r : Ref} {k : Sock} {data : Bytes} : .tcpRecv r k data ∈ n.log →
    r < n.nextRef ∧ k = (n.heap r).sock
  /-- DATA that is sent to a client came from the socket of the stream it names -/
  pushes {t : ThreadId} {client : Bytes} {id : UInt32} {chunk : Bytes} {ok : Bool} :
    .sentToClient t client (encodeData ⟨id, chunk⟩) ok ∈ n.log →
      ∃ r data, t = .rx r ∧ Named n client id r ∧ .tcpRecv r (n.heap r).sock data ∈ n.log ∧
        chunk <:+: data
  /-- what is written to a socket is DATA for its stream -/
  writes {k : Sock} {payload : Bytes} {sent : Int} : .tcpSend k payload sent ∈ n.log →
    ∃ client id r, Named n client id r ∧ k = (n.heap r).sock ∧
      .received client (.data ⟨id, payload⟩) ∈ n.log

/-- What an rx thread is about to push, it received from the socket of its stream. -/
def Carries (s : System) : Prop :=
  ∀ r rest, (s.loc (.rx r)).pc = .touch rest ∨ (s.loc (.rx r)).pc = .push rest →
    ∃ data, .tcpRecv r (s.shared.heap r).sock data ∈ s.shared.log ∧ rest <:+ data

section Bytes

variable {cfg : Config} {s : System} {t : ThreadId} {a : Act} {l : Loc t} {n : Node} {r : Ref}

/-- An rx thread at `recv` uses the number it has loaded. -/
theorem reads_of_recv {fd : Int} (reached : Reaches cfg s) (here : s.loc (.rx r) = ⟨.recv fd, none⟩) :
    Reads s r fd ∧ r < s.shared.nextRef := by
  have kin := kin_of_reaches reached
  have ran := (kin.loc (.rx r)).awake ⟨rfl, .inl (by rw [here]; nofun)⟩
  refine ⟨⟨ran, ?_, .inr (by rw [here])⟩, kin.shared.bound ran⟩
  rw [here]
  rintro (calls | leaving | exited)
  · exact calls rfl
  · cases leaving
  · cases exited

theorem Carries.step (reached : Reaches cfg s) (private_ : Private s) (before : Carries s)
    (m : Move cfg t s.shared (s.loc t) a l n) : Carries ⟨Function.update s.loc t l, n⟩ := by
  have owned := Reaches.owned reached
  have kin := kin_of_reaches reached
  obtain ⟨e, -⟩ := m.own owned.shared (owned.loc t)
  obtain ⟨es, log, -⟩ := m.records
  intro r rest at_
  -- the thread goes on with what it had, or with the rest of it
  have old {rest' : Bytes} (had : (s.loc (.rx r)).pc = .touch rest' ∨ (s.loc (.rx r)).pc = .push rest')
      (suffix : rest <:+ rest') : ∃ data, .tcpRecv r (n.heap r).sock data ∈ n.log ∧ rest <:+ data := by
    have ran : s.shared.rxLife r ≠ .unstarted := by
      refine (kin.loc (.rx r)).awake ⟨rfl, .inl fun looping => ?_⟩
      rcases had with had | had
      · cases looping.symm.trans had
      · cases looping.symm.trans had
    obtain ⟨data, mem, part⟩ := before r rest' had
    refine ⟨data, ?_, suffix.trans part⟩
    rw [(e.ident (kin.shared.bound ran)).2.2.2, log]
    exact List.mem_append_left _ mem
  by_cases mine : t = .rx r
  · subst mine
    simp only [Function.update_self] at at_
    generalize here : s.loc (.rx r) = l₀ at m old
    cases m with
    | base move =>
        cases move with
        | @received fd k data good =>
            obtain ⟨reads, -⟩ := reads_of_recv reached here
            have is : rest = data := by
              rcases at_ with at_ | at_
              · exact (RxPc.touch.inj at_).symm
              · cases at_
            refine ⟨data, List.mem_append_right _ (List.mem_singleton.mpr ?_), is ▸ List.suffix_rfl⟩
            rw [private_ r fd k (.inl reads) good]
            rfl
        | touch =>
            refine old (.inl rfl) ?_
            rcases at_ with at_ | at_
            · cases at_
            · cases at_
              exact List.suffix_rfl
        | push =>
            refine old (.inr rfl) ?_
            rcases at_ with at_ | at_
            · cases at_
            · rw [← RxPc.push.inj at_]
              exact List.drop_suffix _ _
        | pushFails | pushThrows =>
            refine old (.inr rfl) ?_
            rcases at_ with at_ | at_
            · cases at_
            · cases at_
              exact List.suffix_rfl
        | _ => exact at_.elim nofun nofun
    | call => exact old at_ List.suffix_rfl
    | ret => exact at_.elim nofun nofun
  · simp only [Function.update_of_ne (Ne.symm mine)] at at_
    exact old at_ List.suffix_rfl

/-- **A step keeps every byte with its stream.** -/
theorem Confidential.step (reached : Reaches cfg s) (private_ : Private s) (carries : Carries s)
    (before : Confidential s.shared) (m : Move cfg t s.shared (s.loc t) a l n)
    (after : Borne cfg n) : Confidential n := by
  have owned := Reaches.owned reached
  have kin := kin_of_reaches reached
  obtain ⟨e, -⟩ := m.own owned.shared (owned.loc t)
  obtain ⟨es, log, records⟩ := m.records
  have grows {ev : Event} (mem : ev ∈ s.shared.log) : ev ∈ n.log := by
    rw [log]
    exact List.mem_append_left _ mem
  refine ⟨after.streams, (owned.shared.effect e).sockInj, ?_, ?_, ?_⟩
  · intro r k data mem
    rcases m.log.mem mem with old | new
    · obtain ⟨known, own⟩ := before.reads old
      exact ⟨(e.ident known).1, own.trans (e.ident known).2.2.2.symm⟩
    · generalize here : s.loc t = l₀ at new
      cases new with
      | @tcpRecv _ fd _ _ good =>
          obtain ⟨reads, known⟩ := reads_of_recv reached here
          refine ⟨(e.ident known).1, ?_⟩
          rw [(e.ident known).2.2.2]
          exact private_ r fd k (.inl reads) good
  · intro t' client id chunk ok mem
    rw [log] at mem
    rcases List.mem_append.mp mem with old | new
    · obtain ⟨r, data, is, named, received, part⟩ := before.pushes old
      refine ⟨r, data, is, named.effect e, ?_, part⟩
      rw [(e.ident named.1).2.2.2]
      exact grows received
    · have pushed {r : Ref} {rest : Bytes} (at_ : (s.loc (.rx r)).pc = .push rest) :
          ∃ r' data, ThreadId.rx r = .rx r' ∧
            Named n (s.shared.heap r).clientId (s.shared.heap r).streamId r' ∧
            .tcpRecv r' (n.heap r').sock data ∈ n.log ∧ rest.take kMaxDataChunkBytes <:+: data := by
        have ran : s.shared.rxLife r ≠ .unstarted := by
          refine (kin.loc (.rx r)).awake ⟨rfl, .inl fun looping => ?_⟩
          cases looping.symm.trans at_
        have known := kin.shared.bound ran
        obtain ⟨data, received, part⟩ := carries r rest (.inr at_)
        refine ⟨r, data, rfl, Named.effect e ⟨known, rfl, rfl⟩, ?_, ?_⟩
        · rw [(e.ident known).2.2.2]
          exact grows received
        · exact (List.take_prefix _ _).isInfix.trans part.isInfix
      generalize here : s.loc t = l₀ at records
      cases records with
      | aside aside => exact (aside _ new).elim
      | speaks speaks =>
          obtain ⟨rfl, rfl, frame, rfl⟩ := Event.sentToClient.inj (List.mem_singleton.mp new)
          have is := ServerFrame.eq_data_of_encode frame.symm
          subst is
          cases speaks with
          | push => exact pushed (by rw [here])
          | pushFails => exact pushed (by rw [here])
      | hears | feeds | pulls => cases List.mem_singleton.mp new
  · intro k payload sent mem
    rcases m.log.mem mem with old | new
    · obtain ⟨client, id, r, named, own, heard⟩ := before.writes old
      exact ⟨client, id, r, named.effect e, own.trans (e.ident named.1).2.2.2.symm, grows heard⟩
    · have pos := (owned.loc t).pos
      have from_ := msgFrom_of_reaches reached
      generalize here : s.loc t = l₀ at new pos
      cases new with
      | @tcpSend ctx d r fd _ _ good =>
          obtain ⟨⟨named, names⟩, -⟩ := pos
          rw [here] at from_
          refine ⟨ctx.clientId, d.streamId, r, named.effect e, ?_, grows from_⟩
          rw [(e.ident named.1).2.2.2]
          exact names k good

/-- **Sockets are confidential.** In every run in which `socket()` returns no number that an rx thread may
still pass to `recv`, every byte stays with its stream: an rx thread receives from the socket that was
opened for its stream only, what it received goes as DATA to the client and stream id of the stream only,
and what is written to a socket is DATA for its stream. -/
theorem sockets_confidential (h : ReachesBy cfg (fun s t a => sparesNumbers s t a = true) s) :
    Confidential s.shared := by
  refine (Reach.invariant (I := fun s => Confidential s.shared ∧ Carries s) ?_ ?_ h).1
  · have none_ (r : Ref) : ¬ r < init.shared.nextRef := Nat.not_lt_zero r
    refine ⟨⟨fun h => absurd h (none_ _), fun h => absurd h (none_ _), ?_, ?_, ?_⟩, ?_⟩
    · intro r k data mem
      cases mem
    · intro t client id chunk ok mem
      cases mem
    · intro k payload sent mem
      cases mem
    · rintro r rest (at_ | at_)
      · cases at_
      · cases at_
  · rintro s s' t a reached ⟨confidential, carries⟩ spares next
    have after := borne_of_reaches (Reach.step reached.any trivial next)
    have private_ := private_of_reach reached
    obtain ⟨l, n, m, rfl⟩ := next_move next
    exact ⟨confidential.step reached.any private_ carries m after, carries.step reached.any private_ m⟩

end Bytes

/-- Client `A` has stream 1, whose rx thread is about to call `recv`; the idle monitor closes the socket,
and client `B` opens a stream for which `socket()` returns `fd`. -/
def overtakenReader (fd : Int) : List (ThreadId × Act) :=
  List.flatten [singleOpen, rxSchedule 0 [.go, .go],
    [(.clock, .tick 60001), (.idle, .go), (.idle, .go), (.idle, .order [0])],
    List.replicate 6 (.idle, .go), [(.msg, .go), (.msg, .deliver (ascii "B") openStream1)],
    openSchedule fd]

/-- The socket of `B` has another number, and `B` gets what the remote host sends. -/
def sparedReader : List (ThreadId × Act) :=
  overtakenReader 4 ++ rxSchedule 1 [.go, .go, .recvRet (some [115]), .go, .sent true]

theorem spared_reader_pushes_own_byte :
    ∃ r data, ThreadId.rx 1 = .rx r ∧
      Named ((machine {}).run init sparedReader).shared (ascii "B") 1 r ∧
      .tcpRecv r (((machine {}).run init sparedReader).shared.heap r).sock data ∈
        ((machine {}).run init sparedReader).shared.log ∧ [115] <:+: data := by
  have follows : (machine {}).follows sparesNumbers init sparedReader = true := by decide +kernel
  have sent : .sentToClient (.rx 1) (ascii "B") (encodeData ⟨1, [115]⟩) true ∈
      ((machine {}).run init sparedReader).shared.log := by decide +kernel
  exact (sockets_confidential (Reach.run follows)).pushes sent

/-- The socket of `B` has the number that the rx thread of `A` has loaded, and `A` gets what the remote host
sends to `B`. -/
def leakingReader : List (ThreadId × Act) :=
  overtakenReader 3 ++ rxSchedule 0 [.recvRet (some [115]), .go, .sent true]

theorem overtaken_reader_leaks :
    ¬ ∀ (cfg : Config) (s : System), Reaches cfg s → Confidential s.shared := by
  intro always
  have follows : (machine {}).follows (fun _ _ _ => true) init leakingReader = true := by decide +kernel
  -- the rx thread of `A` received the byte from the socket of `B`
  have own := (always {} _ (Reach.run follows).any).reads
    (by decide +kernel : .tcpRecv 0 1 [115] ∈ ((machine {}).run init leakingReader).shared.log)
  revert own
  decide +kernel

end Egress

end TonTunnel
