import TonTunnel.Egress.Registration

/-!
How `handleOpen` answers.

An OPEN should be answered once: with an ACK and a working stream (`Opened`), or
with an ERROR and everything as before (`Refused`). The early exits keep to this.
But the stream is registered and acknowledged before the last operations that can
fail, the socket has no owner until `make_shared` returns, the result of sending
the ACK is not looked at, and the `catch` blocks roll nothing back.
`open_answered_iff_calm` shows that these are all the ways to miss: the call ends in
exactly one of the two outcomes if and only if none of its steps is answered as in
`fatal`.
-/

namespace TonTunnel.Egress

open Interleaving (Machine Reach)

/-! ### The two outcomes -/

/-- The transport accepted an OPEN ACK from the message thread. -/
def Event.isAck (client : Bytes) (streamId : UInt32) : Event → Bool
  | .sentToClient .msg c frame true => c == client && frame == encodeOpen { streamId }
  | _ => false

/-- The message thread handed an ERROR to the transport. -/
def Event.isError : Event → Bool
  | .sentToClient .msg _ frame _ => frame.head? == some MessageType.error.code
  | _ => false

def Node.acks (n : Node) (client : Bytes) (streamId : UInt32) : Nat :=
  n.log.countP (Event.isAck client streamId)

def Node.errors (n : Node) : Nat := n.log.countP Event.isError

/-- One ACK was accepted and no ERROR handed over; a stream made by the call is in
`streams_` with an open descriptor and a started rx thread. -/
structure Opened (client : Bytes) (streamId : UInt32) (n₀ n : Node) : Prop where
  acks : n.acks client streamId = n₀.acks client streamId + 1
  errors : n.errors = n₀.errors
  stream : ∃ r, n₀.nextRef ≤ r ∧ n.streams.lookup (keyFor client streamId) = some r ∧
    (n.heap r).closed = false ∧ Attached n r ∧ (n.heap r).rxThread = some (.rx r) ∧
    n.rxLife r ≠ .unstarted

/-- One ERROR was handed over and no ACK accepted; `streams_` and the counts are as
before, and every socket that the call created has been closed. -/
structure Refused (client : Bytes) (streamId : UInt32) (n₀ n : Node) : Prop where
  acks : n.acks client streamId = n₀.acks client streamId
  errors : n.errors = n₀.errors + 1
  streams : n.streams = n₀.streams
  count (c : Bytes) : n.count c = n₀.count c
  closed {k : Sock} : n₀.nextSock ≤ k → k < n.nextSock → n.closes k = 1

/-- Exactly one of the two outcomes. -/
def AnsweredOnce (client : Bytes) (streamId : UInt32) (n₀ n : Node) : Prop :=
  (Opened client streamId n₀ n ∧ ¬ Refused client streamId n₀ n) ∨
    (Refused client streamId n₀ n ∧ ¬ Opened client streamId n₀ n)

/-- The answers that `handleOpen` does not recover from: an exception once the
connection stands, an ACK that the transport does not take, and an exception in a
`catch` block. -/
def fatal : OpenPc → Act → Bool
  | .makeStream _ _, .throw _ | .register _, .throw _ | .register _, .throwMid _
  | .ack _, .throw _ | .ack _, .sent false | .startThread _, .throw _ | .caught _, .throw _ => true
  | _, _ => false

/-- No step of `handleOpen` is answered fatally. -/
def calm (s : System) : ThreadId → Act → Bool
  | .msg, a =>
      match (s.loc .msg).pc with
      | .opening _ _ pc => !fatal pc a
      | _ => true
  | _, _ => true

/-- The message thread is in `handleOpen`. -/
def MsgPc.inOpen : MsgPc → Bool
  | .opening _ _ _ => true
  | _ => false

/-- The thread is neither in `closeStream` nor tears down in `stop`. -/
def closesNothing : (t : ThreadId) → Loc t → Bool
  | .msg, _ | .clock, _ => true
  | .main, l =>
      match l with
      | .running | .transportStop | .joinIdle => true
      | _ => false
  | .idle, l => l.call.isNone
  | .rx _, l => l.call.isNone

/-- The message thread is in `handleOpen`, and the other threads close no stream. -/
def duringOpen (s : System) (t : ThreadId) (_ : Act) : Bool :=
  (s.loc .msg).pc.inOpen && closesNothing t (s.loc t)

section Outcome

variable {cfg : Config} {client : Bytes} {streamId : UInt32} {n₀ n n' : Node}

theorem AnsweredOnce.of_opened (h : Opened client streamId n₀ n) :
    AnsweredOnce client streamId n₀ n := by
  refine .inl ⟨h, fun h' => ?_⟩
  have := h.acks.symm.trans h'.acks
  omega

theorem AnsweredOnce.of_refused (h : Refused client streamId n₀ n) :
    AnsweredOnce client streamId n₀ n := by
  refine .inr ⟨h, fun h' => ?_⟩
  have := h.acks.symm.trans h'.acks
  omega

/-! ### What is kept on the way -/

/-- The tables are as they were at the start, and nothing was answered. -/
structure Plain (client : Bytes) (streamId : UInt32) (n₀ n : Node) : Prop where
  streams : n.streams = n₀.streams
  count (c : Bytes) : n.count c = n₀.count c
  acks : n.acks client streamId = n₀.acks client streamId
  errors : n.errors = n₀.errors

/-- Every socket created since the start was closed, `but` one perhaps. -/
structure Socks (but : Option Sock) (n₀ n : Node) : Prop where
  nextSock : n₀.nextSock ≤ n.nextSock
  closed {k : Sock} : n₀.nextSock ≤ k → k < n.nextSock → some k ≠ but → n.closes k = 1
  nextRef : n₀.nextRef ≤ n.nextRef

/-- The stream was made since the start, with a socket created since, and is intact. -/
structure Made (n₀ n : Node) (r : Ref) : Prop where
  newRef : n₀.nextRef ≤ r
  newSock : n₀.nextSock ≤ (n.heap r).sock
  unclosed : (n.heap r).closed = false
  attached : Attached n r
  unassigned : (n.heap r).rxThread = none

/-- A socket created since the start is still open. -/
def Spoilt (n₀ n : Node) : Prop := ∃ k, n₀.nextSock ≤ k ∧ k < n.nextSock ∧ n.closes k = 0

/-- Where a call stands that was not answered fatally. -/
def Good (client : Bytes) (streamId : UInt32) (n₀ n : Node) : OpenPc → Prop
  | .connecting _ _ _ _ k | .makeStream _ k =>
      Plain client streamId n₀ n ∧ Socks (some k) n₀ n ∧ n₀.nextSock ≤ k
  | .register r =>
      n.acks client streamId = n₀.acks client streamId ∧ n.errors = n₀.errors ∧ Made n₀ n r
  | .ack r =>
      n.acks client streamId = n₀.acks client streamId ∧ n.errors = n₀.errors ∧ Made n₀ n r ∧
        n.streams.lookup (keyFor client streamId) = some r
  | .startThread r =>
      n.acks client streamId = n₀.acks client streamId + 1 ∧ n.errors = n₀.errors ∧ Made n₀ n r ∧
        n.streams.lookup (keyFor client streamId) = some r
  | .assign r =>
      n.acks client streamId = n₀.acks client streamId + 1 ∧ n.errors = n₀.errors ∧ Made n₀ n r ∧
        n.streams.lookup (keyFor client streamId) = some r ∧ n.rxLife r ≠ .unstarted
  | _ => Plain client streamId n₀ n ∧ Socks none n₀ n

/-- Where a call stands that was answered fatally. -/
def Doomed (client : Bytes) (streamId : UInt32) (n₀ n : Node) : OpenPc → Prop
  | .startThread _ | .assign _ => Spoilt n₀ n ∧ n.acks client streamId = n₀.acks client streamId
  | .caught _ =>
      Spoilt n₀ n ∧ (n.acks client streamId = n₀.acks client streamId ∨
        ∃ r, n.streams.lookup (keyFor client streamId) = some r ∧ (n.heap r).rxThread = none)
  | _ => False

/-! ### The counters -/

/-- Nothing was answered by the step. -/
structure Silent (client : Bytes) (streamId : UInt32) (n n' : Node) : Prop where
  acks : n'.acks client streamId = n.acks client streamId
  errors : n'.errors = n.errors

theorem Silent.same (h : n'.log = n.log) : Silent client streamId n n' := by
  constructor
  · rw [Node.acks, h, Node.acks]
  · rw [Node.errors, h, Node.errors]

/-- One more event. -/
theorem counts_append (client : Bytes) (streamId : UInt32) {e : Event}
    (h : n'.log = n.log ++ [e]) :
    n'.acks client streamId = n.acks client streamId + (e.isAck client streamId).toNat ∧
      n'.errors = n.errors + e.isError.toNat := by
  constructor
  · rw [Node.acks, h, List.countP_append, List.countP_singleton, Node.acks]
    cases e.isAck client streamId <;> rfl
  · rw [Node.errors, h, List.countP_append, List.countP_singleton, Node.errors]
    cases e.isError <;> rfl

theorem Silent.emit {e : Event} (h : n'.log = n.log ++ [e])
    (ack : e.isAck client streamId = false) (error : e.isError = false) :
    Silent client streamId n n' := by
  obtain ⟨acks, errors⟩ := counts_append client streamId h
  rw [ack] at acks
  rw [error] at errors
  exact ⟨acks, errors⟩

/-- An ERROR is no ACK. -/
theorem sendError_counts (client : Bytes) (streamId : UInt32) {client' : Bytes} {m : ErrorMessage}
    {ok : Bool} (h : n'.log = n.log ++ [Event.sentToClient .msg client' (encodeError m) ok]) :
    n'.acks client streamId = n.acks client streamId ∧ n'.errors = n.errors + 1 := by
  have ack : Event.isAck client streamId (.sentToClient .msg client' (encodeError m) ok) = false := by
    cases ok with
    | false => rfl
    | true => simp [Event.isAck, encodeError, encodeOpen, MessageType.code]
  have counts := counts_append client streamId h
  rw [ack] at counts
  exact counts

/-- An ACK is no ERROR, and counts if it is accepted. -/
theorem sendAck_counts (n : Node) (client : Bytes) (streamId : UInt32) (ok : Bool) :
    (n.sendToClient .msg client (encodeOpen { streamId }) ok).acks client streamId =
        n.acks client streamId + ok.toNat ∧
      (n.sendToClient .msg client (encodeOpen { streamId }) ok).errors = n.errors := by
  have ack : Event.isAck client streamId
      (.sentToClient .msg client (encodeOpen { streamId }) ok) = ok := by
    cases ok with
    | false => rfl
    | true => simp [Event.isAck]
  have counts := counts_append (n := n) client streamId
    (rfl : (n.sendToClient .msg client (encodeOpen { streamId }) ok).log = _)
  rw [ack] at counts
  exact counts

/-- A step that answers nothing and leaves the owned fields alone. -/
theorem Plain.mild (m : Mild n n') (silent : Silent client streamId n n')
    (h : Plain client streamId n₀ n) : Plain client streamId n₀ n' :=
  ⟨m.streams.trans h.streams, fun c => (m.count c).trans (h.count c), silent.acks.trans h.acks,
    silent.errors.trans h.errors⟩

theorem Socks.quiet {but : Option Sock} (m : Quiet n n') (h : Socks but n₀ n) :
    Socks but n₀ n' := by
  refine ⟨m.nextSock ▸ h.nextSock, fun {k} new bound other => ?_, m.nextRef ▸ h.nextRef⟩
  rw [m.closes]
  exact h.closed new (m.nextSock ▸ bound) other

/-- The socket just created is the one that may be open. -/
theorem Socks.opened (fd : Int) (h : Socks none n₀ n) :
    Socks (some n.nextSock) n₀ (n.openSocket fd) := by
  refine ⟨Nat.le_succ_of_le h.nextSock, fun {k} new bound other => ?_, h.nextRef⟩
  have hne : k ≠ n.nextSock := fun hk => other (congrArg some hk)
  exact h.closed new (Nat.lt_of_le_of_ne (Nat.le_of_lt_succ bound) hne) nofun

/-- The socket that may be open is closed. -/
theorem Socks.dropped {fd : Int} {k : Sock} (hn : Sound n) (opened : n.fds fd = some k)
    (h : Socks (some k) n₀ n) : Socks none n₀ (n.closeFd fd) := by
  rw [Node.closeFd_of_open opened]
  refine ⟨h.nextSock, fun {k'} new bound _ => ?_, h.nextRef⟩
  by_cases hk : k' = k
  · subst hk
    simp [(hn.fdOpen opened).2.2]
  · simp only [Function.update_of_ne hk]
    exact h.closed new bound fun h => hk (Option.some.inj h)

theorem Made.mild {r : Ref} (m : Mild n n') (h : Made n₀ n r) : Made n₀ n' r := by
  refine ⟨h.newRef, ?_, (m.closed r).trans h.unclosed, ?_, (m.rxThread r).trans h.unassigned⟩
  · rw [m.sock]
    exact h.newSock
  · rw [Attached, m.fd, m.sock, m.fds]
    exact h.attached

/-- An intact stream of the call has an open socket. -/
theorem Made.spoilt {r : Ref} (hn : Sound n) (h : Made n₀ n r) : Spoilt n₀ n := by
  obtain ⟨_, bound, open_⟩ := hn.fdOpen h.attached.2
  exact ⟨_, h.newSock, bound, open_⟩

theorem Spoilt.quiet (m : Quiet n n') (h : Spoilt n₀ n) : Spoilt n₀ n' := by
  obtain ⟨k, new, bound, open_⟩ := h
  exact ⟨k, new, m.nextSock ▸ bound, by rw [m.closes, open_]⟩

/-! ### The steps of `handleOpen` -/

variable {q : OpenMessage} {pc pc' : OpenPc} {a : Act}

theorem silent_noteSelect (n : Node) (ip : Bytes) (fd : Int) (ret : ConnectRet) :
    Silent client streamId n (noteSelect n ip fd ret) := by
  rcases log_noteSelect n ip fd ret with h | h
  · exact .same h
  · exact .emit h rfl rfl

/-- **A step that is not answered fatally** keeps the call on its way. -/
theorem Good.step (hn : Sound n) (ok : OpenOk n client q pc)
    (m : OpenMove cfg client q n pc a (.more pc') n') (safe : fatal pc a = false)
    (h : Good client q.streamId n₀ n pc) : Good client q.streamId n₀ n' pc' := by
  -- before the connection stands
  have early (mild : Mild n n') (silent : Silent client q.streamId n n')
      (h : Plain client q.streamId n₀ n ∧ Socks none n₀ n) :
      Plain client q.streamId n₀ n' ∧ Socks none n₀ n' :=
    ⟨h.1.mild mild silent, h.2.quiet mild.toQuiet⟩
  cases m with
  | refuse | pass | exhausted | skip | noSocket => exact h
  | quotaLeft | quotaThrows => exact early (.touchCount n client) (.same rfl) h
  | unresolved | resolved | attempt => exact early (.emit n _) (.emit rfl rfl rfl) h
  | @socket count ip rest fd =>
      obtain ⟨plain, socks⟩ := h
      have silent : Silent client q.streamId n
          ((n.openSocket fd).emit (.socket client q fd n.nextSock)) := .emit rfl rfl rfl
      refine ⟨⟨plain.streams, plain.count, silent.acks.trans plain.acks,
        silent.errors.trans plain.errors⟩, ?_, socks.nextSock⟩
      exact (socks.opened fd).quiet (Mild.emit _ _).toQuiet
  | @connected count ip rest fd k ret =>
      obtain ⟨plain, socks, new⟩ := h
      have mild := Mild.noteSelect n ip fd ret
      exact ⟨plain.mild mild (silent_noteSelect n ip fd ret), socks.quiet mild.toQuiet, new⟩
  | @disconnected count ip rest fd k ret =>
      obtain ⟨plain, socks, -⟩ := h
      obtain ⟨-, opened, -⟩ := ok
      have mild := Mild.noteSelect n ip fd ret
      have plain' := plain.mild mild (silent_noteSelect n ip fd ret)
      rw [← mild.fds] at opened
      refine ⟨?_, (socks.quiet mild.toQuiet).dropped (hn.quiet mild.toQuiet) opened⟩
      rw [Node.closeFd_of_open opened]
      exact ⟨plain'.streams, plain'.count, plain'.acks, plain'.errors⟩
  | makeStream =>
      obtain ⟨plain, socks, new⟩ := h
      obtain ⟨nonneg, opened, -⟩ := ok
      refine ⟨plain.acks, plain.errors, socks.nextRef, ?_, ?_, ?_, ?_⟩
      all_goals simp only [Attached, Node.makeStream, Function.update_self]
      · exact new
      · exact ⟨nonneg, opened⟩
  | @register r =>
      obtain ⟨acks, errors, made⟩ := h
      have silent : Silent client q.streamId n
          (n.register client (keyFor client q.streamId) r) := .emit rfl rfl rfl
      refine ⟨silent.acks.trans acks, silent.errors.trans errors, ⟨made.newRef, made.newSock,
        made.unclosed, made.attached, made.unassigned⟩, AList.lookup_insert _⟩
  | registerThrows => cases safe
  | @ack r accepted =>
      obtain ⟨acks, errors, made, found⟩ := h
      cases accepted with
      | false => cases safe
      | true =>
          obtain ⟨acks', errors'⟩ := sendAck_counts n client q.streamId true
          refine ⟨acks'.trans ?_, errors'.trans errors, made.mild (.sendToClient n _ _ _ _), found⟩
          rw [acks]
          rfl
  | startThread =>
      obtain ⟨acks, errors, made, found⟩ := h
      refine ⟨acks, errors, made.mild (.rxLife n _), found, ?_⟩
      simp
  | throws may =>
      cases pc with
      | check | fail | quota => exact h
      | makeStream | register | ack | startThread => cases safe
      | _ => cases may

/-- **A fatal answer** dooms the call. -/
theorem Good.doomed (hn : Sound n) (ok : OpenOk n client q pc)
    (m : OpenMove cfg client q n pc a (.more pc') n') (fatally : fatal pc a = true)
    (h : Good client q.streamId n₀ n pc) : Doomed client q.streamId n₀ n' pc' := by
  cases m with
  | @registerThrows r =>
      obtain ⟨acks, -, made⟩ := h
      have silent : Silent client q.streamId n
          (n.putStream (keyFor client q.streamId) r) := .emit rfl rfl rfl
      refine ⟨?_, .inl (silent.acks.trans acks)⟩
      obtain ⟨k, new, bound, open_⟩ := made.spoilt hn
      exact ⟨k, new, bound, open_⟩
  | @ack r accepted =>
      obtain ⟨acks, -, made, -⟩ := h
      cases accepted with
      | true => cases fatally
      | false =>
          refine ⟨(made.spoilt hn).quiet (Mild.sendToClient n _ _ _ _).toQuiet, ?_⟩
          exact (sendAck_counts n client q.streamId false).1.trans acks
  | throws may =>
      cases pc with
      | makeStream fd k =>
          obtain ⟨plain, -, new⟩ := h
          obtain ⟨-, bound, open_⟩ := hn.fdOpen ok.2.1
          exact ⟨⟨k, new, bound, open_⟩, .inl plain.acks⟩
      | register => exact ⟨h.2.2.spoilt hn, .inl h.1⟩
      | ack => exact ⟨h.2.2.1.spoilt hn, .inl h.1⟩
      | startThread r => exact ⟨h.2.2.1.spoilt hn, .inr ⟨r, h.2.2.2, h.2.2.1.unassigned⟩⟩
      | caught => cases may
      | _ => cases fatally
  | _ => cases fatally

/-- A doomed call stays doomed. -/
theorem Doomed.step (m : OpenMove cfg client q n pc a (.more pc') n')
    (h : Doomed client q.streamId n₀ n pc) : Doomed client q.streamId n₀ n' pc' := by
  cases m with
  | startThread => exact ⟨h.1.quiet (Mild.rxLife n _).toQuiet, h.2⟩
  | throws may =>
      cases pc with
      | startThread => exact ⟨h.1, .inl h.2⟩
      | caught | assign => cases may
      | _ => exact h.elim
  | _ => exact h.elim

/-! ### The last step -/

/-- An open socket rules a refusal out, and so does a missing ACK or handle an opening. -/
theorem not_answeredOnce (spoilt : Spoilt n₀ n)
    (unopened : n.acks client streamId = n₀.acks client streamId ∨
      ∃ r, n.streams.lookup (keyFor client streamId) = some r ∧ (n.heap r).rxThread = none) :
    ¬ AnsweredOnce client streamId n₀ n := by
  rintro (⟨opened, -⟩ | ⟨refused, -⟩)
  · rcases unopened with acks | ⟨r, found, none_⟩
    · have := acks.symm.trans opened.acks
      omega
    · obtain ⟨r', -, found', -, -, some_, -⟩ := opened.stream
      cases Option.some.inj (found.symm.trans found')
      rw [none_] at some_
      cases some_
  · obtain ⟨k, new, bound, open_⟩ := spoilt
    rw [refused.closed new bound] at open_
    cases open_

/-- An ERROR after nothing else. -/
theorem Refused.of_error {m : ErrorMessage} {client' : Bytes} {accepted : Bool}
    (mild : Mild n n') (log : n'.log = n.log ++ [Event.sentToClient .msg client' (encodeError m) accepted])
    (plain : Plain client streamId n₀ n) (socks : Socks none n₀ n) :
    Refused client streamId n₀ n' := by
  obtain ⟨acks, errors⟩ := sendError_counts client streamId log
  refine ⟨acks.trans plain.acks, ?_, mild.streams.trans plain.streams,
    fun c => (mild.count c).trans (plain.count c), fun {k} new bound => ?_⟩
  · rw [errors, plain.errors]
  · exact (socks.quiet mild.toQuiet).closed new bound nofun

/-- **The step that leaves `handleOpen`.** -/
theorem Good.last {out : OpenOut} (m : OpenMove cfg client q n pc a out n')
    (ends : ∀ pc', out ≠ .more pc') (h : Good client q.streamId n₀ n pc) :
    AnsweredOnce client q.streamId n₀ n' ↔ fatal pc a = false := by
  cases m with
  | failed | reported =>
      refine iff_of_true (.of_refused ?_) rfl
      exact .of_error (.sendToClient n _ _ _ _) rfl h.1 h.2
  | quotaFull =>
      refine iff_of_true (.of_refused ?_) rfl
      exact .of_error ((Mild.sendToClient n _ _ _ _).trans (.touchCount _ client)) rfl h.1 h.2
  | @assign r =>
      obtain ⟨acks, errors, made, found, started⟩ := h
      refine iff_of_true (.of_opened ⟨acks, errors, r, made.newRef, found, ?_, ?_, ?_, started⟩) rfl
      · simpa [Node.setStream] using made.unclosed
      · simpa [Attached, Node.setStream] using made.attached
      · simp [Node.setStream]
  | escaped =>
      obtain ⟨plain, -⟩ := h
      refine iff_of_false ?_ Bool.false_ne_true.symm
      rintro (⟨opened, -⟩ | ⟨refused, -⟩)
      · have := plain.acks.symm.trans opened.acks
        omega
      · have := plain.errors.symm.trans refused.errors
        omega
  | _ => exact absurd rfl (ends _)

theorem Doomed.last {out : OpenOut} (m : OpenMove cfg client q n pc a out n')
    (ends : ∀ pc', out ≠ .more pc') (h : Doomed client q.streamId n₀ n pc) :
    ¬ AnsweredOnce client q.streamId n₀ n' := by
  cases m with
  | reported =>
      obtain ⟨spoilt, unopened⟩ := h
      refine not_answeredOnce (spoilt.quiet (Mild.sendToClient n _ _ _ _).toQuiet) ?_
      refine unopened.imp_left fun acks => ?_
      exact (sendError_counts client q.streamId rfl).1.trans acks
  | assign => exact not_answeredOnce h.1 (.inl h.2)
  | escaped => exact not_answeredOnce h.1 h.2
  | failed | quotaFull => exact h.elim
  | _ => exact absurd rfl (ends _)

/-! ### The other threads -/

/-- What a step of another thread that closes nothing can change is of no concern. -/
structure Aside (client : Bytes) (streamId : UInt32) (n n' : Node) : Prop
    extends Silent client streamId n n' where
  mild : Mild n n'
  started {r : Ref} : n.rxLife r ≠ .unstarted → n'.rxLife r ≠ .unstarted

/-- Only the message thread sends ACK and ERROR frames. -/
theorem Grows.silent (client : Bytes) (streamId : UInt32) {t : ThreadId} {l : Loc t} (ht : t ≠ .msg)
    (g : Grows cfg t l n n') : Silent client streamId n n' := by
  obtain ⟨es, hes, emits⟩ := g
  have foreign (e : Event) (he : e ∈ es) : e.isAck client streamId = false ∧ e.isError = false := by
    cases emits e he with
    | @notifies _ _ _ _ ok =>
        cases t with
        | msg => exact absurd rfl ht
        | _ => exact ⟨rfl, rfl⟩
    | takes | shutdown | pushes | tcpRecv | stopTakes => exact ⟨rfl, rfl⟩
    | _ => exact absurd rfl ht
  have acks : es.countP (Event.isAck client streamId) = 0 :=
    List.countP_eq_zero.mpr fun e he => by simp [(foreign e he).1]
  have errors : es.countP Event.isError = 0 :=
    List.countP_eq_zero.mpr fun e he => by simp [(foreign e he).2]
  constructor
  · rw [Node.acks, hes, List.countP_append, acks]
    rfl
  · rw [Node.errors, hes, List.countP_append, errors]
    rfl

theorem Good.aside (h : Aside client streamId n n') (good : Good client streamId n₀ n pc) :
    Good client streamId n₀ n' pc := by
  have hfound {r : Ref} (found : n.streams.lookup (keyFor client streamId) = some r) :
      n'.streams.lookup (keyFor client streamId) = some r := by rwa [h.mild.streams]
  cases pc with
  | connecting | makeStream =>
      obtain ⟨plain, socks, new⟩ := good
      exact ⟨plain.mild h.mild h.toSilent, socks.quiet h.mild.toQuiet, new⟩
  | register =>
      obtain ⟨acks, errors, made⟩ := good
      exact ⟨h.acks.trans acks, h.errors.trans errors, made.mild h.mild⟩
  | ack | startThread =>
      obtain ⟨acks, errors, made, found⟩ := good
      exact ⟨h.acks.trans acks, h.errors.trans errors, made.mild h.mild, hfound found⟩
  | assign =>
      obtain ⟨acks, errors, made, found, started⟩ := good
      exact ⟨h.acks.trans acks, h.errors.trans errors, made.mild h.mild, hfound found,
        h.started started⟩
  | _ => exact ⟨good.1.mild h.mild h.toSilent, good.2.quiet h.mild.toQuiet⟩

theorem Doomed.aside (h : Aside client streamId n n') (doomed : Doomed client streamId n₀ n pc) :
    Doomed client streamId n₀ n' pc := by
  cases pc with
  | startThread | assign =>
      exact ⟨doomed.1.quiet h.mild.toQuiet, h.acks.trans doomed.2⟩
  | caught =>
      obtain ⟨spoilt, unopened⟩ := doomed
      refine ⟨spoilt.quiet h.mild.toQuiet, unopened.imp h.acks.trans ?_⟩
      rintro ⟨r, found, none_⟩
      exact ⟨r, by rwa [h.mild.streams], (h.mild.rxThread r).trans none_⟩
  | _ => exact doomed.elim

end Outcome

/-- **The steps of the other threads during `handleOpen`.** -/
theorem Move.aside {cfg : Config} {t : ThreadId} {a : Act} {l l' : Loc t} {n n' : Node}
    (client : Bytes) (streamId : UInt32) (ht : t ≠ .msg) (hok : closesNothing t l = true)
    (m : Move cfg t n l a l' n') : Aside client streamId n n' := by
  have silent := m.log.silent client streamId ht
  cases t with
  | msg => exact absurd rfl ht
  | clock =>
      obtain ⟨ms, rfl⟩ := m
      exact ⟨silent, ⟨⟨rfl, rfl, rfl, rfl, rfl, rfl, fun _ => rfl⟩, fun _ => rfl, fun _ => rfl⟩, id⟩
  | main =>
      cases m with
      | stop | transportStop | joinIdle =>
          exact ⟨silent, ⟨⟨rfl, rfl, rfl, rfl, rfl, rfl, fun _ => rfl⟩, fun _ => rfl, fun _ => rfl⟩, id⟩
      | snapshot | tear | finish | leave => cases hok
  | idle =>
      cases m with
      | base move =>
          refine ⟨silent, move.mild, fun {r} h => ?_⟩
          cases move <;> exact h
      | call | ret => cases hok
  | rx r =>
      cases m with
      | base move =>
          refine ⟨silent, move.mild, fun {r'} h => ?_⟩
          cases move with
          | leave =>
              by_cases hr : r' = r
              · simp [hr]
              · simpa [hr] using h
          | _ => exact h
      | call | ret => cases hok

/-! ### The whole call -/

/-- Once `handleOpen` is left, the call is over. -/
theorem over_of_left {cfg : Config} {s : System} {w : List (ThreadId × Act)}
    (left : (s.loc .msg).pc.inOpen = false)
    (during : (machine cfg).follows duringOpen s w = true) : w = [] := by
  cases w with
  | nil => rfl
  | cons head rest =>
      simp [Machine.follows, duringOpen, left] at during

/-- **From any point of `handleOpen` to its end.** -/
theorem answered_from {cfg : Config} {ctx : MsgCtx} {q : OpenMessage} {n₀ : Node} {s' : System}
    (ended : (s'.loc .msg).pc.inOpen = false) (w : List (ThreadId × Act)) (s : System) (pc : OpenPc)
    (h : Reaches cfg s) (at_ : s.loc .msg = { pc := .opening ctx q pc })
    (during : (machine cfg).follows duringOpen s w = true)
    (hexec : (machine cfg).exec s w = some s') :
    (Good ctx.clientId q.streamId n₀ s.shared pc →
      (AnsweredOnce ctx.clientId q.streamId n₀ s'.shared ↔ (machine cfg).follows calm s w = true)) ∧
    (Doomed ctx.clientId q.streamId n₀ s.shared pc →
      ¬ AnsweredOnce ctx.clientId q.streamId n₀ s'.shared) := by
  induction w generalizing s pc with
  | nil =>
      cases hexec
      rw [at_] at ended
      cases ended
  | cons head rest ih =>
      obtain ⟨t, a⟩ := head
      rw [Machine.exec, Option.bind_eq_some_iff] at hexec
      obtain ⟨mid, hnext, hexec⟩ := hexec
      simp only [Machine.follows, hnext, Bool.and_eq_true] at during ⊢
      obtain ⟨hok, during⟩ := during
      have hmid : Reaches cfg mid := .step h trivial hnext
      obtain ⟨l, n, m, rfl⟩ := next_move hnext
      by_cases ht : t = .msg
      · subst ht
        have hs := h.owned
        obtain ⟨ok, -⟩ := (hs.loc .msg).pos
        have hcalm : calm s .msg a = !fatal pc a := by simp [calm, at_]
        rw [at_] at m ok
        cases m with
        | base move =>
            cases move with
            | @opening _ _ _ _ pc' _ move =>
                obtain ⟨goes, stays⟩ := ih _ pc' hmid (by simp) during hexec
                refine ⟨fun good => ?_, fun doomed => stays (doomed.step move)⟩
                cases hf : fatal pc a with
                | false => simpa [hcalm, hf] using goes (good.step hs.shared ok move hf)
                | true =>
                    have missed := stays (good.doomed hs.shared ok move hf)
                    simpa [hcalm, hf] using missed
            | opened move | openEscaped move =>
                obtain rfl := over_of_left (by simp [MsgPc.inOpen]) during
                cases hexec
                refine ⟨fun good => ?_, fun doomed => doomed.last move (by rintro _ ⟨⟩)⟩
                simpa [hcalm, Machine.follows] using good.last move (by rintro _ ⟨⟩)
      · simp only [duringOpen, Bool.and_eq_true] at hok
        have aside := m.aside ctx.clientId q.streamId ht hok.2
        have hmsg : Function.update s.loc t l .msg = { pc := .opening ctx q pc } := by
          rw [Function.update_of_ne (Ne.symm ht), at_]
        obtain ⟨goes, stays⟩ := ih _ _ hmid hmsg during hexec
        have hcalm : calm s t a = true := by
          cases t with
          | msg => exact absurd rfl ht
          | _ => rfl
        refine ⟨fun good => ?_, fun doomed => stays (doomed.aside aside)⟩
        simpa [hcalm] using goes (good.aside aside)

/-- **OPEN is answered once and atomically** exactly when no step of the call is
answered fatally: whatever the state it starts from, the answers of the resolver,
the sockets and the allocator, and the steps of other threads that close nothing. -/
theorem open_answered_iff_calm {cfg : Config} {ctx : MsgCtx} {q : OpenMessage} {s s' : System}
    {w : List (ThreadId × Act)} (h : Reaches cfg s)
    (start : s.loc .msg = { pc := .opening ctx q .check })
    (during : (machine cfg).follows duringOpen s w = true)
    (hexec : (machine cfg).exec s w = some s') (ended : (s'.loc .msg).pc.inOpen = false) :
    AnsweredOnce ctx.clientId q.streamId s.shared s'.shared ↔
      (machine cfg).follows calm s w = true := by
  have good : Good ctx.clientId q.streamId s.shared s.shared .check := by
    refine ⟨⟨rfl, fun _ => rfl, rfl, rfl⟩, Nat.le_refl _, fun {k} new bound _ => ?_, Nat.le_refl _⟩
    exact absurd bound (Nat.not_lt.mpr new)
  exact (answered_from ended w s .check h start during hexec).1 good

/-- Client `A` sends an OPEN, and `handleOpen` is entered. -/
def openEntered : List (ThreadId × Act) :=
  [(.msg, .deliver (ascii "A") openStream1), (.msg, .go)]

/-- `handleOpen` to the end; the transport takes the ACK or does not. -/
def openAnswers (accepted : Bool) : List (ThreadId × Act) :=
  [.go, .go, .resolved (some [0x08080808]), .go, .socketRet (some 3), .connectRet .connected, .go,
    .go, .sent accepted, .go, .go].map fun a => (.msg, a)

theorem accepted_open_answered :
    AnsweredOnce (ascii "A") 1 ((machine {}).run init openEntered).shared
      ((machine {}).run ((machine {}).run init openEntered) (openAnswers true)).shared := by
  have h : Reaches {} ((machine {}).run init openEntered) :=
    (Reach.run (by decide : (machine {}).follows (fun _ _ _ => true) init openEntered)).any
  have start : ((machine {}).run init openEntered).loc .msg =
      { pc := .opening ⟨ascii "A", openStream1, 12⟩ ⟨1, ascii "h", 80, []⟩ .check } := by decide
  have during : (machine {}).follows duringOpen ((machine {}).run init openEntered)
      (openAnswers true) = true := by decide
  exact (open_answered_iff_calm h start during (Machine.exec_eq_run during) (by decide)).mpr
    (by decide)

/-- An ACK that the transport does not take: the stream is registered and its thread
started, and neither an ACK was accepted nor an ERROR handed over. -/
theorem untaken_ack_unanswered :
    ∃ s w s', Reaches {} s ∧
      s.loc .msg = { pc := .opening ⟨ascii "A", openStream1, 12⟩ ⟨1, ascii "h", 80, []⟩ .check } ∧
      (machine {}).follows duringOpen s w = true ∧ (machine {}).exec s w = some s' ∧
      (s'.loc .msg).pc.inOpen = false ∧ ¬ AnsweredOnce (ascii "A") 1 s.shared s'.shared := by
  have during : (machine {}).follows duringOpen ((machine {}).run init openEntered)
      (openAnswers false) = true := by decide
  refine ⟨(machine {}).run init openEntered, openAnswers false, _, ?_, by decide, during,
    Machine.exec_eq_run during, by decide, ?_⟩
  · exact (Reach.run (by decide : (machine {}).follows (fun _ _ _ => true) init openEntered)).any
  · rintro (⟨opened, -⟩ | ⟨refused, -⟩)
    · exact absurd opened.acks (by decide)
    · exact absurd refused.errors (by decide)

end TonTunnel.Egress
