import TonTunnel.Handler.Requests

/-!
Who closes the sockets of a connection.

Every exit of `handleClient` closes the client's socket itself. `closedAt` and
`heldRemote` say, for each point of the code, what should have been closed by then and
which socket of the direct path is in use. The exits that forget to close are those
after a stream or a connection that could not be had, and the exceptions that leave
before `closeNow`: a finished run has closed every socket exactly once exactly when none
of its steps is such an exit (`sockets_closed_iff`).
-/

namespace TonTunnel.Handler

open Interleaving (Reach Trace Machine anyStep)

/-- `handleClient` was left. -/
def Pc.ended : Pc → Bool
  | .returned | .escaped => true
  | _ => false

/-- The client's socket and all sockets of `connectRemoteTcp` were closed exactly once. -/
structure SocketsClosed (s : Session) : Prop where
  client : s.closes = 1
  remote {r : Remote} : r < s.nextRemote → s.remoteCloses r = 1

/-- The step is none of the exits that close nothing: an exception before `closeNow`, a stream that
was not opened, a target that was not connected. -/
def tidy (σ : State) : ThreadId → Act → Bool
  | .worker, a =>
      match σ.loc .worker, a with
      | .closeStream, .throw => true
      | _, .throw => false
      | .opening _ _, .openRet code => code == 0
      | .resolving _ _, .resolved none => false
      | .addresses 0, .go => false
      | _, _ => true
  | _, _ => true

/-! ### What is closed where -/

/-- How often the client's socket has been closed. -/
def closedAt : Pc → Nat
  | .join _ _ | .closeStream | .unregister | .returned | .escaped => 1
  | _ => 0

/-- The socket of the direct path that is in use. -/
def heldRemote : Pc → Option Remote
  | .connecting r _ | .recvRemote r | .closeRemote r => some r
  | .spawn remote | .testAlive remote | .testRunning remote | .sendAll remote _
  | .leaving remote _ => remote
  | _ => none

/-- The sockets are closed as far as they should be. -/
structure Accounted (s : Session) (pc : Pc) : Prop where
  client : s.closes = closedAt pc
  held {r : Remote} : heldRemote pc = some r → r < s.nextRemote ∧ s.remoteCloses r = 0
  closed {r : Remote} : r < s.nextRemote → heldRemote pc ≠ some r → s.remoteCloses r = 1
  unused {r : Remote} : s.nextRemote ≤ r → s.remoteCloses r = 0
  opens : pc ≠ .openFailed

/-- The worker went out without closing, or is about to. -/
structure Spoilt (s : Session) (pc : Pc) : Prop where
  client : s.closes = 0
  at_ : pc = .openFailed ∨ pc.ended = true

variable {ntop6 : Bytes → Option Bytes} {core : Bool} {stream : Bytes} {s s' : Session}
  {pc pc' : Pc} {a : Act}

/-- A step that closes nothing and keeps the socket in use. -/
theorem Accounted.same (h : Accounted s pc) (closes : s'.closes = s.closes)
    (next : s'.nextRemote = s.nextRemote) (remote : s'.remoteCloses = s.remoteCloses)
    (client : closedAt pc' = closedAt pc) (held : heldRemote pc' = heldRemote pc)
    (opens : pc' ≠ .openFailed) : Accounted s' pc' where
  client := by rw [closes, client, h.client]
  held in_use := by
    rw [next, remote]
    exact h.held (held ▸ in_use)
  closed old other := by
    rw [remote]
    exact h.closed (next ▸ old) (held ▸ other)
  unused new := by
    rw [remote]
    exact h.unused (next ▸ new)
  opens := opens

/-- The client's socket is closed, with no remote socket in use. -/
theorem Accounted.closeNow (h : Accounted s pc) (client : closedAt pc' = closedAt pc + 1)
    (held : heldRemote pc = none) (held' : heldRemote pc' = none) (opens : pc' ≠ .openFailed) :
    Accounted s.closeNow pc' where
  client := by
    rw [client, ← h.client]
    rfl
  held in_use := by
    rw [held'] at in_use
    cases in_use
  closed old _ := h.closed old (by simp [held])
  unused new := h.unused new
  opens := opens

/-- The remote socket in use is closed. -/
theorem Accounted.closeRemote {r : Remote} (h : Accounted s pc) (client : closedAt pc' = closedAt pc)
    (held : heldRemote pc = some r) (held' : heldRemote pc' = none) (opens : pc' ≠ .openFailed) :
    Accounted (s.closeRemote r) pc' where
  client := by
    rw [client, ← h.client]
    rfl
  held in_use := by
    rw [held'] at in_use
    cases in_use
  closed {r'} old _ := by
    by_cases mine : r' = r
    · subst mine
      simp [Session.closeRemote, (h.held held).2]
    · have other : heldRemote pc ≠ some r' := by
        rw [held]
        simpa using Ne.symm mine
      simpa [Session.closeRemote, mine] using h.closed old other
  unused {r'} new := by
    have other : r' ≠ r := by
      rintro rfl
      exact absurd (h.held held).1 (Nat.not_lt.mpr new)
    simpa [Session.closeRemote, other] using h.unused new
  opens := opens

/-- A remote socket is made. -/
theorem Accounted.socket {left : Nat} (h : Accounted s (.addresses (left + 1))) :
    Accounted { s with nextRemote := s.nextRemote + 1 } (.connecting s.nextRemote left) where
  client := h.client
  held in_use := by
    cases in_use
    exact ⟨Nat.lt_succ_self _, h.unused (Nat.le_refl _)⟩
  closed {r} old other := by
    refine h.closed ?_ nofun
    have new : s.nextRemote ≠ r := fun is => other (congrArg some is)
    exact Nat.lt_of_le_of_ne (Nat.lt_succ_iff.mp old) (Ne.symm new)
  unused new := h.unused (Nat.le_of_succ_le new)
  opens := nofun

theorem WorkerMove.accounted {σ : State} (m : WorkerMove ntop6 core s pc a pc' s')
    (at_ : σ.loc .worker = pc) (ok : tidy σ .worker a = true) (h : Accounted s pc) :
    Accounted s' pc' := by
  unfold tidy at ok
  rw [at_] at ok
  cases m with
  | @field st got n pos there full =>
      cases after ntop6 st (got ++ s.unread.take n) <;> exact h.same rfl rfl rfl rfl rfl nofun
  | close => exact h.closeNow rfl rfl rfl nofun
  | openFails fails => exact absurd (by simpa using ok) fails
  | openLeft => exact absurd rfl h.opens
  | unresolved | exhausted => cases ok
  | socket => exact h.socket
  | refused | closeRemote => exact h.closeRemote rfl rfl rfl nofun
  | @isRunning remote _ => cases remote <;> exact h.same rfl rfl rfl rfl rfl nofun
  | @leave remote _ => cases remote <;> exact h.same rfl rfl rfl rfl rfl nofun
  | closeNow => exact h.closeNow rfl rfl rfl nofun
  | @join remote remoteEnded _ =>
      refine h.same rfl rfl rfl ?_ ?_ ?_ <;> unfold joinedPc <;> split_ifs <;> first | rfl | nofun
  | throws may =>
      cases pc with
      | closeStream => exact h.same rfl rfl rfl rfl rfl nofun
      | _ => cases ok
  | _ => exact h.same rfl rfl rfl rfl rfl nofun

/-- An exit that closes nothing. -/
theorem WorkerMove.spoils {σ : State} (m : WorkerMove ntop6 core s pc a pc' s')
    (at_ : σ.loc .worker = pc) (untidy : tidy σ .worker a = false) (h : Accounted s pc) :
    Spoilt s' pc' := by
  unfold tidy at untidy
  rw [at_] at untidy
  cases m with
  | openFails => exact ⟨h.client, .inl rfl⟩
  | unresolved | exhausted => exact ⟨h.client, .inr rfl⟩
  | throws may =>
      have client := h.client
      refine ⟨?_, .inr rfl⟩
      cases pc with
      | closeStream => cases untidy
      | reading | accepted | closing | bridge | opening | openFailed | opened | spawn => exact client
      | _ => cases may
  | @openSucceeds => cases untidy
  | _ => cases untidy

/-- Nothing is closed after such an exit. -/
theorem WorkerMove.spoilt (m : WorkerMove ntop6 core s pc a pc' s') (h : Spoilt s pc) :
    Spoilt s' pc' := by
  obtain ⟨client, rfl | ended⟩ := h
  · cases m with
    | openLeft | throws => exact ⟨client, .inr rfl⟩
  · obtain ⟨notEscaped, notReturned⟩ := m.goes
    cases pc with
    | returned => exact absurd rfl notReturned
    | escaped => exact absurd rfl notEscaped
    | _ => cases ended

/-- What the sockets are is for the worker alone. -/
theorem other_sockets {t : ThreadId} {l l' : Local t} (m : Move ntop6 core s t l a l' s')
    (other : t ≠ .worker) : s'.closes = s.closes ∧ s'.nextRemote = s.nextRemote ∧
      s'.remoteCloses = s.remoteCloses := by
  cases t with
  | worker => exact absurd rfl other
  | uplink =>
      change UplinkMove core s l a l' s' at m
      cases m <;> exact ⟨rfl, rfl, rfl⟩
  | world =>
      change WorldMove s a s' at m
      cases m <;> exact ⟨rfl, rfl, rfl⟩

/-- What is closed when `handleClient` was left. -/
theorem atEnd (ended : pc.ended = true) : closedAt pc = 1 ∧ heldRemote pc = none := by
  cases pc with
  | returned | escaped => exact ⟨rfl, rfl⟩
  | _ => cases ended

/-! ### Whole runs -/

/-- The steps of a run were all tidy. -/
def AllTidy (tr : List (State × ThreadId × Act)) : Prop := ∀ x ∈ tr, tidy x.1 x.2.1 x.2.2 = true

theorem allTidy_concat {tr : List (State × ThreadId × Act)} {σ : State} {t : ThreadId} :
    AllTidy (tr ++ [(σ, t, a)]) ↔ AllTidy tr ∧ tidy σ t a = true := by
  simp only [AllTidy, List.mem_append, List.mem_singleton, or_imp, forall_and, forall_eq]

theorem allTidy_or_spoilt {σ : State} {tr : List (State × ThreadId × Act)}
    (h : Trace (machine ntop6 core) anyStep (start stream) tr σ) :
    (AllTidy tr ∧ Accounted σ.shared (σ.loc .worker)) ∨
      (¬ AllTidy tr ∧ Spoilt σ.shared (σ.loc .worker)) := by
  induction h with
  | start =>
      refine .inl ⟨fun _ mem => absurd mem List.not_mem_nil, ?_⟩
      exact ⟨rfl, nofun, fun old _ => absurd old (Nat.not_lt_zero _), fun _ => rfl, nofun⟩
  | @step tr σ σ' t a _ _ next ih =>
      obtain ⟨l, m, is⟩ := next_move next
      rw [allTidy_concat]
      by_cases mine : t = .worker
      · subst mine
        rw [is, Function.update_self]
        rcases ih with ⟨all, accounted⟩ | ⟨some_, spoilt⟩
        · cases ok : tidy σ .worker a with
          | true => exact .inl ⟨⟨all, rfl⟩, WorkerMove.accounted m rfl ok accounted⟩
          | false =>
              refine .inr ⟨?_, WorkerMove.spoils m rfl ok accounted⟩
              intro both
              exact Bool.false_ne_true both.2
        · exact .inr ⟨fun both => some_ both.1, WorkerMove.spoilt m spoilt⟩
      · obtain ⟨closes, nextRemote, remote⟩ := other_sockets m mine
        have ok : tidy σ t a = true := by
          cases t with
          | worker => exact absurd rfl mine
          | uplink | world => rfl
        rw [is, Function.update_of_ne (Ne.symm mine), and_iff_left ok]
        rcases ih with ⟨all, accounted⟩ | ⟨some_, spoilt⟩
        · exact .inl ⟨all, accounted.same closes nextRemote remote rfl rfl accounted.opens⟩
        · exact .inr ⟨some_, closes.trans spoilt.client, spoilt.at_⟩

/-- **Every socket is closed exactly once** by the time `handleClient` is left, exactly when no
step of the run was an exit that closes nothing. -/
theorem sockets_closed_iff {σ : State} {tr : List (State × ThreadId × Act)}
    (h : Trace (machine ntop6 core) anyStep (start stream) tr σ)
    (ended : (σ.loc .worker).ended = true) : SocketsClosed σ.shared ↔ AllTidy tr := by
  rcases allTidy_or_spoilt h with ⟨all, accounted⟩ | ⟨some_, spoilt⟩
  · refine iff_of_true ⟨?_, fun {r} old => accounted.closed old ?_⟩ all
    · rw [accounted.client, (atEnd ended).1]
    · rw [(atEnd ended).2]
      exact nofun
  · apply iff_of_false ?_ some_
    intro closed
    have client := closed.client
    rw [spoilt.client] at client
    cases client

/-- Without a core: the second address of the target is connected, and the target closes. -/
def directRun : List (ThreadId × Act) :=
  List.flatten [
    List.map (fun a => (.worker, a))
      [.recvRet (.data 2), .recvRet (.data 1), .sendRet 2, .go, .recvRet (.data 4),
        .recvRet (.data 4), .recvRet (.data 2), .go, .sendRet 10, .go, .go, .resolved (some 2),
        .socketRet true, .connectRet false, .socketRet true, .connectRet true, .go, .go, .go,
        .remoteRecv none, .go, .go, .go],
    [(.uplink, .go), (.uplink, .go), (.worker, .go)]]

theorem direct_sockets_closed :
    SocketsClosed ((machine (fun _ => none) false).run (start socks5Stream) directRun).shared := by
  have h := Trace.run (by decide : (machine (fun _ => none) false).follows (fun _ _ _ => true)
    (start socks5Stream) directRun)
  exact (sockets_closed_iff (h.mono fun _ _ _ _ => trivial) (by decide)).mpr (by unfold AllTidy; decide)

/-- A stream that was not opened: `handleClient` returns and the socket is open. -/
theorem refused_open_leaks :
    ∃ tr σ, Trace (machine (fun _ => none) true) anyStep (start socks5Stream) tr σ ∧
      σ.loc .worker = .returned ∧ σ.shared.closes = 0 ∧ ¬ SocketsClosed σ.shared := by
  have h := Trace.run (by decide : (machine (fun _ => none) true).follows (fun _ _ _ => true)
    (start socks5Stream) refusedOpen)
  refine ⟨_, _, h.mono fun _ _ _ _ => trivial, by decide, by decide, ?_⟩
  intro closed
  exact absurd closed.client (by decide)

end TonTunnel.Handler
