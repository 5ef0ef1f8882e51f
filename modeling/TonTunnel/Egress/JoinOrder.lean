import TonTunnel.Lib.Waiting
import TonTunnel.Tunnel.FarEnd

/-!
The joins of `EgressNode`.

A teardown joins the rx thread of the stream it has taken, `stop` joins the idle monitor,
and the ADNL backend that it stops before joins the thread that delivers the messages. An
rx thread may itself be in a teardown, and of another stream than its own: `closeStream`
goes by the name, and a second OPEN may have been registered under it. But then the other
stream is the younger one (`Latest`), so the joins lead up in the order in which the
streams were made, nobody waits for himself, and whoever waits does so for a thread that
can go on (`joins_go_on`).
-/

namespace TonTunnel.Egress

open Interleaving (Reach)
open Relation (TransGen)

/-! ### Who waits for whom -/

/-- Thread `t` is at a join, and `t'` has not ended. -/
inductive WaitsFor (s : System) : ThreadId → ThreadId → Prop
  | teardown {t t' : ThreadId} {r : Ref} (tears : Tears t (s.loc t) r .join)
      (handle : (s.shared.heap r).rxThread = some t') (other : t' ≠ t)
      (lives : s.shared.exited t' = false) : WaitsFor s t t'
  | idle (at_ : s.loc .main = MainPc.joinIdle) (lives : s.shared.exited .idle = false) :
      WaitsFor s .main .idle
  /-- the backend's own thread is in `onAdnlMessage` -/
  | transport (at_ : s.loc .main = MainPc.transportStop) (busy : (s.loc .msg).pc ≠ .waiting) :
      WaitsFor s .main .msg

/-- A step with an answer that is no exception is possible. -/
def GoesOn (cfg : Config) (s : System) (t : ThreadId) : Prop :=
  ∃ a, a.throws = false ∧ ((machine cfg).next s t a).isSome = true

/-- The thread has nothing to do. -/
def Resting (s : System) : ThreadId → Prop
  | .msg => s.loc .msg = (⟨.waiting, none⟩ : Thread MsgPc)
  | .idle => s.shared.exited .idle = true
  | .main => s.loc .main = MainPc.stopped
  | .rx r => s.shared.rxLife r ≠ .running
  | .clock => False

/-! ### The order of the streams -/

/-- No older stream stands under the name of the stream. -/
def Latest (n : Node) (r : Ref) : Prop :=
  ∀ r', n.streams.lookup (n.heap r).key = some r' → r ≤ r'

/-- Handles are those of started rx threads, and a started stream is the latest of its name. -/
structure Order (n : Node) : Prop where
  handle {r : Ref} {t : ThreadId} :
    (n.heap r).rxThread = some t → t = .rx r ∧ n.rxLife r ≠ .unstarted
  latest {r : Ref} : n.rxLife r ≠ .unstarted → Latest n r

/-- A stream is registered when it is the newest, and then it is the latest of its name. -/
def OpenPc.InOrder (n : Node) : OpenPc → Prop
  | .register r => r + 1 = n.nextRef
  | .ack r | .startThread r => Latest n r
  | .assign r => n.rxLife r ≠ .unstarted
  | _ => True

/-- An rx thread calls `closeStream` with the name of its stream and takes no older one. -/
structure RxInOrder (r : Ref) (l : Thread RxPc) (n : Node) : Prop where
  name {c : CloseCall} {pc : ClosePc} :
    l.call = some ⟨c, pc⟩ → keyFor c.clientId c.streamId = (n.heap r).key
  tears {r' : Ref} {p : TearPc} : CallTears l.call r' p → r ≤ r'
  ended : l.pc = .exited → n.rxLife r = .exited

/-- Where the message thread waits for `closeStream` there is a call. -/
structure MsgInOrder (l : Thread MsgPc) (n : Node) : Prop where
  opening {ctx : MsgCtx} {q : OpenMessage} {pc : OpenPc} :
    l.pc = .opening ctx q pc → pc.InOrder n
  calls : l.pc.Calls → l.call ≠ none

def InOrder : (t : ThreadId) → Loc t → Node → Prop
  | .msg, l, n => MsgInOrder l n
  | .idle, l, n => l.pc = .exited → n.idleExited = true
  | .rx r, l, n => RxInOrder r l n
  | _, _, _ => True

section Steps

variable {cfg : Config} {t : ThreadId} {l l' : Loc t} {n n' : Node} {a : Act} {r : Ref}

theorem Effect.key (e : Effect t n n') (hr : r < n.nextRef) : (n'.heap r).key = (n.heap r).key := by
  obtain ⟨-, client, stream, -⟩ := e.ident hr
  rw [Stream.key, client, stream, Stream.key]

/-- Only a newer stream is registered over the latest one. -/
theorem Latest.step (hn : Sound n) (hl : LocOk t l n) (order : InOrder t l n)
    (m : Move cfg t n l a l' n') (bound : r < n.nextRef) (h : Latest n r) : Latest n' r := by
  intro r' found
  rw [(m.own hn hl).1.key bound] at found
  -- what is registered now
  have newest {key : Bytes} {r₀ : Ref} (registers : r₀ + 1 = n.nextRef)
      (found : (n.streams.insert key r₀).lookup (n.heap r).key = some r') : r ≤ r' := by
    rcases lookup_insert_some found with ⟨-, rfl⟩ | before
    · exact Nat.le_of_lt_succ (Nat.lt_of_lt_of_eq bound registers.symm)
    · exact h r' before
  cases m.table with
  | still still =>
      rw [still.streams] at found
      exact h r' found
  | register => exact newest (order.opening rfl) found
  | registerThrows => exact newest (order.opening rfl) found
  | @take _ _ _ _ c r₀ =>
      obtain ⟨counts, htake⟩ := Node.take_eq n t c r₀
      rw [htake] at found
      exact h r' (lookup_erase_some found).2
  | lose => exact h r' (lookup_erase_some found).2
  | snapshot => cases found

theorem TearMove.handle {r' : Ref} {call : Option CloseCall} {p : TearPc} {out : TearOut}
    (m : TearMove t call r' n p a out n') :
    (n'.heap r).rxThread = (n.heap r).rxThread ∨ (n'.heap r).rxThread = none := by
  cases m with
  | flag | clear =>
      by_cases same : r = r'
      · subst same
        simp [Node.setStream]
      · simp [Node.setStream, same]
  | join =>
      by_cases same : r = r'
      · subst same
        simp [Node.setStream]
      · simp [Node.setStream, same]
  | shutdown => exact .inl ((Mild.shutdownFd n _).rxThread r)
  | close =>
      obtain ⟨fds, closes, same⟩ := n.closeFd_eq (n.heap r').fd
      rw [same]
      exact .inl rfl
  | notify => exact .inl ((Mild.sendToClient n _ _ _ _).rxThread r)
  | _ => exact .inl rfl

theorem CloseMove.handle {c : CloseCall} {pc : ClosePc} {out : CloseOut}
    (m : CloseMove t c n pc a out n') :
    (n'.heap r).rxThread = (n.heap r).rxThread ∨ (n'.heap r).rxThread = none := by
  cases m with
  | absent | throws | lose => exact .inl rfl
  | @take r' =>
      obtain ⟨counts, htake⟩ := Node.take_eq n t c r'
      rw [htake]
      exact .inl rfl
  | tear move | finish move => exact move.handle

/-- The only handle that `handleOpen` stores is that of the rx thread of the stream. -/
theorem OpenMove.handle {ctx : MsgCtx} {q : OpenMessage} {pc : OpenPc} {out : OpenOut}
    (m : OpenMove cfg ctx.clientId q n pc a out n') :
    (n'.heap r).rxThread = (n.heap r).rxThread ∨ (n'.heap r).rxThread = none ∨
      (n'.heap r).rxThread = some (.rx r) ∧ Assigns r .msg { pc := .opening ctx q pc } a := by
  cases m with
  | @assign r' =>
      by_cases same : r = r'
      · subst same
        exact .inr (.inr ⟨by simp [Node.setStream], .mk⟩)
      · exact .inl (by simp [Node.setStream, same])
  | makeStream =>
      by_cases same : r = n.nextRef
      · subst same
        exact .inr (.inl (by simp [Node.makeStream]))
      · exact .inl (by simp [Node.makeStream, same])
  | connected => exact .inl ((Mild.noteSelect n _ _ _).rxThread r)
  | @disconnected _ ip _ fd _ ret =>
      obtain ⟨fds, closes, same⟩ := (noteSelect n ip fd ret).closeFd_eq fd
      rw [same]
      exact .inl ((Mild.noteSelect n _ _ _).rxThread r)
  | _ => exact .inl rfl

/-- **What becomes of a handle in a step.** -/
theorem Move.handle (m : Move cfg t n l a l' n') (r : Ref) :
    (n'.heap r).rxThread = (n.heap r).rxThread ∨ (n'.heap r).rxThread = none ∨
      (n'.heap r).rxThread = some (.rx r) ∧ Assigns r t l a := by
  cases t with
  | msg =>
      cases m with
      | base move =>
          cases move with
          | opening move | opened move | openEscaped move => exact move.handle
          | dataing move | dataCloses move | dataDone move => exact .inl (move.mild.rxThread r)
          | _ => exact .inl rfl
      | call move | ret move => exact move.handle.imp_right .inl
  | idle | rx =>
      cases m with
      | base move => exact .inl (move.mild.rxThread r)
      | call move | ret move => exact move.handle.imp_right .inl
  | main =>
      cases m with
      | tear move | finish move => exact move.handle.imp_right .inl
      | _ => exact .inl rfl
  | clock =>
      obtain ⟨ms, rfl⟩ := m
      exact .inl rfl

theorem Order.step (hn : Sound n) (hl : LocOk t l n) (tidy : Orderly n) (kin : Kin t l n)
    (order : Order n) (mine : InOrder t l n) (m : Move cfg t n l a l' n') : Order n' where
  handle {r t'} is := by
    rcases m.handle r with same | gone | ⟨stored, assigns⟩
    · obtain ⟨rfl, started⟩ := order.handle (same ▸ is)
      exact ⟨rfl, m.still_started started⟩
    · rw [gone] at is
      cases is
    · cases stored.symm.trans is
      cases assigns with
      | mk => exact ⟨rfl, m.still_started (mine.opening rfl)⟩
  latest {r} started := by
    rcases m.rxLife r with same | ⟨-, starts | awake⟩
    · rw [same] at started
      exact (order.latest started).step hn hl mine m (tidy.bound started)
    · cases starts with
      | mk => exact Latest.step hn hl mine m hl.pos.1.1 (mine.opening rfl)
    · have started := kin.awake awake
      exact (order.latest started).step hn hl mine m (tidy.bound started)

theorem TearMove.idleExited {call : Option CloseCall} {p : TearPc} {out : TearOut}
    (m : TearMove t call r n p a out n') : n'.idleExited = n.idleExited := by
  cases m with
  | shutdown =>
      rcases n.shutdownFd_eq (n.heap r).fd with same | ⟨k, shut⟩
      · rw [same]
      · rw [shut]
        rfl
  | close =>
      obtain ⟨fds, closes, same⟩ := n.closeFd_eq (n.heap r).fd
      rw [same]
  | _ => rfl

theorem CloseMove.idleExited {c : CloseCall} {pc : ClosePc} {out : CloseOut}
    (m : CloseMove t c n pc a out n') : n'.idleExited = n.idleExited := by
  cases m with
  | absent | throws | lose => rfl
  | @take r =>
      obtain ⟨counts, htake⟩ := Node.take_eq n t c r
      rw [htake]
  | tear move | finish move => exact move.idleExited

theorem OpenMove.idleExited {client : Bytes} {q : OpenMessage} {pc : OpenPc} {out : OpenOut}
    (m : OpenMove cfg client q n pc a out n') : n'.idleExited = n.idleExited := by
  cases m with
  | @connected _ ip _ fd _ ret =>
      rcases noteSelect_eq n ip fd ret with same | waits
      · rw [same]
      · rw [waits]
        rfl
  | @disconnected _ ip _ fd _ ret =>
      obtain ⟨fds, closes, same⟩ := (noteSelect n ip fd ret).closeFd_eq fd
      rw [same]
      rcases noteSelect_eq n ip fd ret with same | waits
      · rw [same]
      · rw [waits]
        rfl
  | _ => rfl

/-- Only the idle monitor notes its own end, and it stays noted. -/
theorem Move.idleExited (m : Move cfg t n l a l' n') (h : n.idleExited = true) :
    n'.idleExited = true := by
  cases t with
  | msg =>
      cases m with
      | base move =>
          cases move with
          | opening move | opened move | openEscaped move => rwa [move.idleExited]
          | dataing move | dataCloses move | dataDone move => cases move <;> exact h
          | _ => exact h
      | call move | ret move => rwa [move.idleExited]
  | idle =>
      cases m with
      | base move =>
          cases move with
          | exit => rfl
          | _ => exact h
      | call move | ret move => rwa [move.idleExited]
  | rx r =>
      cases m with
      | base move => cases move <;> exact h
      | call move | ret move => rwa [move.idleExited]
  | main =>
      cases m with
      | tear move | finish move => rwa [move.idleExited]
      | _ => exact h
  | clock =>
      obtain ⟨ms, rfl⟩ := m
      exact h

/-- `handleOpen` makes the newest stream, registers it, and starts its thread. -/
theorem OpenMove.inOrder {ctx : MsgCtx} {q : OpenMessage} {pc pc' : OpenPc}
    (ok : OpenOk n ctx.clientId q pc) (order : pc.InOrder n)
    (keeps : ∀ r < n.nextRef, Latest n r → Latest n' r)
    (m : OpenMove cfg ctx.clientId q n pc a (.more pc') n') : pc'.InOrder n' := by
  cases m with
  | makeStream => rfl
  | @register r =>
      intro r' found
      have name : keyFor ctx.clientId q.streamId = (n.heap r).key := by
        rw [Stream.key, ok.1.2.1, ok.1.2.2]
      change (n.streams.insert _ r).lookup (n.heap r).key = some r' at found
      rw [name, AList.lookup_insert] at found
      cases found
      exact Nat.le_refl _
  | ack => exact keeps _ ok.1 order
  | startThread =>
      change Function.update n.rxLife _ Life.running _ ≠ .unstarted
      simp
  | _ => trivial

theorem InOrder.own (hn : Sound n) (hl : LocOk t l n) (tidy : Orderly n) (kin : Kin t l n)
    (order : Order n) (mine : InOrder t l n) (m : Move cfg t n l a l' n') : InOrder t l' n' := by
  have keeps (r : Ref) (bound : r < n.nextRef) (h : Latest n r) : Latest n' r :=
    h.step hn hl mine m bound
  have key {r : Ref} (bound : r < n.nextRef) := (m.own hn hl).1.key bound
  cases t with
  | msg =>
      obtain ⟨ok, calls⟩ := hl.pos
      cases m with
      | base move =>
          cases move with
          | opening move =>
              refine ⟨fun at_ => ?_, False.elim⟩
              cases at_
              exact move.inOrder ok (mine.opening rfl) keeps
          | dispatchOpen =>
              refine ⟨fun at_ => ?_, False.elim⟩
              cases at_
              trivial
          | dispatchClose | dataCloses => exact ⟨nofun, fun _ => nofun⟩
          | dataing move =>
              refine ⟨nofun, fun waits => ?_⟩
              cases move <;> exact waits.elim
          | _ => exact ⟨nofun, False.elim⟩
      | @call pc =>
          have waits : pc.Calls := calls rfl
          refine ⟨fun at_ => ?_, fun _ => nofun⟩
          subst at_
          exact waits.elim
      | @ret pc _ _ _ had =>
          obtain ⟨_, parsing | ⟨_, replies⟩⟩ := MsgPc.resume_cases had (calls rfl)
          · rw [parsing]
            exact ⟨nofun, False.elim⟩
          · rw [replies]
            exact ⟨nofun, False.elim⟩
  | idle =>
      intro at_
      cases m with
      | base move =>
          cases move with
          | exit => rfl
          | _ => cases at_
      | call move | ret move =>
          rw [move.idleExited]
          exact mine at_
  | rx r =>
      have started (awake : Awake r (.rx r) l) : r < n.nextRef := tidy.bound (kin.awake awake)
      cases m with
      | base move =>
          have fresh {reason : CloseReason} {c : CloseCall} {pc : ClosePc}
              (is : rxClose n r reason = some ⟨c, pc⟩) :
              keyFor c.clientId c.streamId = (n.heap r).key := by
            cases is
            rfl
          cases move with
          | leave =>
              exact ⟨nofun, fun h => absurd h (not_callTears_none _ _), fun _ => by simp⟩
          | ended | pushThrows | pushFails =>
              exact ⟨fresh, fun h => absurd h (not_callTears_enter _ _), nofun⟩
          | _ => exact ⟨nofun, fun h => absurd h (not_callTears_none _ _), nofun⟩
      | @call pc c cpc _ cpc' _ move =>
          have awake : Awake r (.rx r) (⟨pc, some ⟨c, cpc⟩⟩ : Thread RxPc) := ⟨rfl, .inr nofun⟩
          have bound := started awake
          refine ⟨fun is => ?_, fun {r' p} tears => ?_, fun at_ => ?_⟩
          · cases is
            rw [key bound]
            exact mine.name rfl
          · obtain ⟨c', is⟩ := tears
            cases is
            cases move with
            | @take r' found =>
                rw [mine.name rfl] at found
                exact order.latest (kin.awake awake) r' found
            | tear move => exact mine.tears ⟨_, rfl⟩
          · rw [move.frame.2]
            exact mine.ended at_
      | ret move => exact ⟨nofun, fun h => absurd h (not_callTears_none _ _), nofun⟩
  | main | clock => trivial

theorem InOrder.other {t' : ThreadId} {k : Loc t'} (hn : Sound n) (hl : LocOk t l n)
    (hl' : LocOk t' k n) (tidy : Orderly n) (kin : Kin t l n) (kin' : Kin t' k n) (ht : t' ≠ t)
    (mine : InOrder t l n) (theirs : InOrder t' k n) (m : Move cfg t n l a l' n') :
    InOrder t' k n' := by
  have e := (m.own hn hl).1
  cases t' with
  | msg =>
      refine ⟨fun {ctx q pc} at_ => ?_, theirs.calls⟩
      have order := theirs.opening at_
      obtain ⟨ok, -⟩ := hl'.pos
      rw [at_] at ok
      cases pc with
      | register r => exact order.trans (e.shrinks hn ht.symm).1.symm
      | ack | startThread => exact Latest.step hn hl mine m ok.1 order
      | assign => exact m.still_started order
      | _ => trivial
  | idle => exact fun at_ => m.idleExited (theirs at_)
  | rx r =>
      refine ⟨fun {c pc} is => ?_, theirs.tears, fun at_ => ?_⟩
      · have awake : Awake r (.rx r) k := ⟨rfl, .inr (by rw [is]; nofun)⟩
        rw [e.key (tidy.bound (kin'.awake awake))]
        exact theirs.name is
      · have done := theirs.ended at_
        rcases m.rxLife r with same | ⟨-, starts | awake⟩
        · rwa [same]
        · -- the thread would be started a second time
          cases starts with
          | mk =>
              have unstarted := kin.starts ⟨_, _, _, rfl, rfl⟩
              rw [done] at unstarted
              cases unstarted
        · cases t with
          | rx r' => exact absurd (awake.1 ▸ rfl) ht
          | msg | idle | main | clock => exact awake.elim
  | main | clock => trivial

end Steps

theorem order_of_reaches {cfg : Config} {s : System} (h : Reaches cfg s) :
    Interleaving.Holds Order InOrder s := by
  have start : Order init.shared := by
    refine ⟨fun is => ?_, fun started => absurd rfl started⟩
    cases is
  refine h.threadModular ⟨start, fun t => ?_⟩
    (fun s t a l n reached holds _ step => ?_) (fun s t a l n reached holds _ step t' ht => ?_)
  · cases t with
    | msg => exact ⟨nofun, False.elim⟩
    | idle => exact nofun
    | main | clock => trivial
    | rx r => exact ⟨nofun, fun h => absurd h (not_callTears_none _ _), nofun⟩
  · have owned := Reaches.owned reached.any
    have kin := kin_of_reaches reached.any
    have m := step_move step
    exact ⟨holds.shared.step owned.shared (owned.loc t) kin.shared (kin.loc t) (holds.loc t) m,
      (holds.loc t).own owned.shared (owned.loc t) kin.shared (kin.loc t) holds.shared m⟩
  · have owned := Reaches.owned reached.any
    have kin := kin_of_reaches reached.any
    exact (holds.loc t).other owned.shared (owned.loc t) (owned.loc t') kin.shared (kin.loc t)
      (kin.loc t') ht (holds.loc t') (step_move step)

/-! ### Threads that can go on -/

section GoOn

variable {cfg : Config} {n : Node} {t : ThreadId} {r : Ref}

/-- The join of a teardown is the only step that can be impossible. -/
theorem tearStep_goes {p : TearPc} (call : Option CloseCall)
    (notifies : p = .notify → call.isSome = true) :
    (∃ a, a.throws = false ∧ (tearStep t call r p n a).isSome = true) ∨
      p = .join ∧ ∃ t', (n.heap r).rxThread = some t' ∧ t' ≠ t ∧ n.exited t' = false := by
  cases p with
  | flag =>
      refine .inl ⟨.go, rfl, ?_⟩
      by_cases skips : call.isSome && (n.heap r).closed
      · simp only [tearStep, if_pos skips, Option.isSome_some]
      · simp only [tearStep, if_neg skips, Option.isSome_some]
  | testFd =>
      refine .inl ⟨.go, rfl, ?_⟩
      by_cases opened : (n.heap r).fd ≥ 0
      · simp only [tearStep, if_pos opened, Option.isSome_some]
      · simp only [tearStep, if_neg opened, Option.isSome_some]
  | shutdown | closeFd | clearFd => exact .inl ⟨.go, rfl, rfl⟩
  | notify =>
      obtain ⟨c, rfl⟩ := Option.isSome_iff_exists.mp (notifies rfl)
      exact .inl ⟨.sent true, rfl, rfl⟩
  | testJoin =>
      refine .inl ⟨.go, rfl, ?_⟩
      by_cases joinable : (n.heap r).rxThread.isSome
      · simp only [tearStep, if_pos joinable, Option.isSome_some]
      · simp only [tearStep, if_neg joinable, Option.isSome_some]
  | join =>
      cases handle : (n.heap r).rxThread with
      | none => exact .inl ⟨.go, rfl, by simp only [tearStep, handle, Option.isSome_some]⟩
      | some t' =>
          by_cases returns : t' = t ∨ n.exited t' = true
          · exact .inl ⟨.go, rfl, by simp only [tearStep, handle, if_pos returns, Option.isSome_some]⟩
          · obtain ⟨other, lives⟩ := not_or.mp returns
            exact .inr ⟨rfl, t', rfl, other, by simpa using lives⟩

theorem closeStep_goes (c : CloseCall) (pc : ClosePc) :
    (∃ a, a.throws = false ∧ (closeStep t c pc n a).isSome = true) ∨
      ∃ r t', pc = .tear r .join ∧ (n.heap r).rxThread = some t' ∧ t' ≠ t ∧ n.exited t' = false := by
  cases pc with
  | enter =>
      refine .inl ⟨.go, rfl, ?_⟩
      cases found : n.streams.lookup (keyFor c.clientId c.streamId) with
      | none => simp only [closeStep, found, Option.isSome_some]
      | some r => simp only [closeStep, found, Option.isSome_some]
  | tear r p =>
      rcases tearStep_goes (t := t) (n := n) (r := r) (p := p) (some c) (fun _ => rfl) with
        ⟨a, tame, goes⟩ | ⟨rfl, t', blocked⟩
      · exact .inl ⟨a, tame, by rw [closeStep, Option.isSome_map, goes]⟩
      · exact .inr ⟨r, t', rfl, blocked⟩

theorem openStep_goes (cfg : Config) (client : Bytes) (q : OpenMessage) (pc : OpenPc) :
    ∃ a, a.throws = false ∧ (openStep cfg client q pc n a).isSome = true := by
  cases pc with
  | check =>
      refine ⟨.go, rfl, ?_⟩
      cases refused : checkOpen cfg client q with
      | none => simp only [openStep, refused, Option.isSome_some]
      | some text => simp only [openStep, refused, Option.isSome_some]
  | fail | caught | ack => exact ⟨.sent true, rfl, rfl⟩
  | quota =>
      by_cases full : n.count client ≥ cfg.maxStreams
      · exact ⟨.sent true, rfl, by simp only [openStep, if_pos full, Option.isSome_some]⟩
      · exact ⟨.go, rfl, by simp only [openStep, if_neg full, Option.isSome_some]⟩
  | resolve => exact ⟨.resolved none, rfl, rfl⟩
  | connect count addrs blockedOnly =>
      refine ⟨.go, rfl, ?_⟩
      cases addrs with
      | nil => rfl
      | cons addr rest =>
          cases text : inetNtop addr with
          | none => simp only [openStep, text, Option.isSome_some]
          | some ip =>
              by_cases blocked : cfg.egress.blockPrivateIps && isAddressBlocked ip
              · simp only [openStep, text, if_pos blocked, Option.isSome_some]
              · simp only [openStep, text, if_neg blocked, Option.isSome_some]
  | socket => exact ⟨.socketRet none, rfl, rfl⟩
  | connecting count ip rest fd k => exact ⟨.connectRet .refused, rfl, rfl⟩
  | makeStream | register | startThread | assign => exact ⟨.go, rfl, rfl⟩

theorem dataStep_goes {pc : DataPc} (cfg : Config) (client : Bytes) (d : DataMessage)
    (waits : ∀ r, pc ≠ .closing r) :
    ∃ a, a.throws = false ∧ (dataStep cfg client d pc n a).isSome = true := by
  cases pc with
  | check =>
      by_cases tooLong : d.payload.length > cfg.egress.maxPayloadBytes.toNat
      · exact ⟨.sent true, rfl, by simp only [dataStep, if_pos tooLong, Option.isSome_some]⟩
      · exact ⟨.go, rfl, by simp only [dataStep, if_neg tooLong, Option.isSome_some]⟩
  | lookup =>
      cases found : n.streams.lookup (keyFor client d.streamId) with
      | some r => exact ⟨.go, rfl, by simp only [dataStep, found, Option.isSome_some]⟩
      | none =>
          by_cases grace : inGrace n (keyFor client d.streamId)
          · exact ⟨.go, rfl, by simp only [dataStep, found, if_pos grace, Option.isSome_some]⟩
          · exact ⟨.sent true, rfl, by simp [dataStep, found, grace]⟩
  | test r =>
      by_cases dead : (n.heap r).fd < 0 || (n.heap r).closed
      · exact ⟨.sent true, rfl, by simp only [dataStep, if_pos dead, Option.isSome_some]⟩
      · refine ⟨.go, rfl, ?_⟩
        by_cases empty : d.payload.isEmpty
        · simp only [dataStep, if_neg dead, if_pos empty, Option.isSome_some]
        · simp only [dataStep, if_neg dead, if_neg empty, Option.isSome_some]
  | load | touch => exact ⟨.go, rfl, rfl⟩
  | send r fd =>
      refine ⟨.sendRet 0, rfl, ?_⟩
      cases open_ : n.fds fd with
      | none => simp [dataStep, open_]
      | some k =>
          have short : ¬ (0 : Int) > d.payload.length := by omega
          simp [dataStep, open_, short]
  | closing r => exact absurd rfl (waits r)

theorem msgStep_goes {pc : MsgPc} (cfg : Config) (busy : pc ≠ .waiting) (waits : ¬ pc.Calls) :
    ∃ a, a.throws = false ∧ (msgStep cfg pc n a).isSome = true := by
  cases pc with
  | waiting => exact absurd rfl busy
  | parsing ctx =>
      refine ⟨.go, rfl, ?_⟩
      by_cases more : ctx.offset < ctx.payload.length
      · cases frame : parseFrame ctx.payload ctx.offset with
        | error => simp only [msgStep, if_pos more, frame, Option.isSome_some]
        | ok parsed =>
            obtain ⟨msg, len⟩ := parsed
            cases msg with
            | _ => simp only [msgStep, if_pos more, frame, Option.isSome_some]
      · simp only [msgStep, if_neg more, Option.isSome_some]
  | opening ctx q pc =>
      obtain ⟨a, tame, goes⟩ := openStep_goes (n := n) cfg ctx.clientId q pc
      exact ⟨a, tame, by rw [msgStep, Option.isSome_map, goes]⟩
  | dataing ctx d pc =>
      have off : ∀ r, pc ≠ .closing r := by
        rintro r rfl
        exact waits trivial
      obtain ⟨a, tame, goes⟩ := dataStep_goes (n := n) cfg ctx.clientId d off
      exact ⟨a, tame, by rw [msgStep, Option.isSome_map, goes]⟩
  | closing => exact absurd trivial waits
  | closeReply => exact ⟨.sent true, rfl, rfl⟩

theorem idleStep_goes {pc : IdlePc} (cfg : Config) (on : pc ≠ .exited) :
    ∃ a, a.throws = false ∧ (idleStep cfg pc n a).isSome = true := by
  cases pc with
  | loop =>
      refine ⟨.go, rfl, ?_⟩
      by_cases running : n.running
      · simp only [idleStep, if_pos running, Option.isSome_some]
      · simp only [idleStep, if_neg running, Option.isSome_some]
  | sleeping => exact ⟨.go, rfl, rfl⟩
  | scan now =>
      have all : n.refs.isPerm n.refs = true := List.isPerm_iff.mpr (.refl _)
      exact ⟨.order n.refs, rfl, by simp only [idleStep, if_pos all, Option.isSome_some]⟩
  | closing stale =>
      cases stale with
      | nil => exact ⟨.go, rfl, rfl⟩
      | cons e rest => exact ⟨.go, rfl, rfl⟩
  | exited => exact absurd rfl on

theorem rxStep_goes {pc : RxPc} (running : n.rxLife r = .running) (on : pc ≠ .exited) :
    ∃ a, a.throws = false ∧ (rxStep r pc n a).isSome = true := by
  cases pc with
  | loop =>
      have alive : ¬ n.rxLife r ≠ .running := not_not.mpr running
      refine ⟨.go, rfl, ?_⟩
      by_cases closed : (n.heap r).closed
      · simp only [rxStep, if_neg alive, if_pos closed, Option.isSome_some]
      · simp only [rxStep, if_neg alive, if_neg closed, Option.isSome_some]
  | loadFd | touch | leaving => exact ⟨.go, rfl, rfl⟩
  | recv fd => exact ⟨.recvRet none, rfl, by simp only [rxStep, Option.isSome_some]⟩
  | push rest =>
      cases rest with
      | nil => exact ⟨.go, rfl, rfl⟩
      | cons b rest => exact ⟨.sent true, rfl, rfl⟩
  | exited => exact absurd rfl on

/-- A thread with a call of `closeStream` can go on, or the call is at a join. -/
theorem threadStep_goes {Pc : Type} {l : Thread Pc} {c : Closing} (resume : Bool → Pc → Pc)
    (base : Pc → Node → Act → Option (Thread Pc × Node)) (calls : l.call = some c) :
    (∃ a, a.throws = false ∧ (Thread.step t resume base l n a).isSome = true) ∨
      ∃ r t', CallTears l.call r .join ∧ (n.heap r).rxThread = some t' ∧ t' ≠ t ∧
        n.exited t' = false := by
  obtain ⟨pc, call⟩ := l
  obtain ⟨c, cpc⟩ := c
  cases calls
  rcases closeStep_goes (t := t) (n := n) c cpc with
    ⟨a, tame, goes⟩ | ⟨r, t', rfl, blocked⟩
  · exact .inl ⟨a, tame, by simp only [Thread.step, Option.isSome_map, goes]⟩
  · exact .inr ⟨r, t', ⟨c, rfl⟩, blocked⟩

theorem mainStep_goes {pc : MainPc} (ok : MainOk pc) (on : pc ≠ .stopped) :
    (∃ a, a.throws = false ∧ (mainStep pc n a).isSome = true) ∨
      (pc = .joinIdle ∧ n.exited .idle = false) ∨
      ∃ r t', pc.Tears r .join ∧ (n.heap r).rxThread = some t' ∧ t' ≠ .main ∧
        n.exited t' = false := by
  cases pc with
  | running | transportStop => exact .inl ⟨.go, rfl, rfl⟩
  | joinIdle =>
      by_cases done : n.exited .idle = true
      · exact .inl ⟨.go, rfl, by simp only [mainStep, if_pos done, Option.isSome_some]⟩
      · exact .inr (.inl ⟨rfl, by simpa using done⟩)
  | snapshot =>
      have all : n.refs.isPerm n.refs = true := List.isPerm_iff.mpr (.refl _)
      exact .inl ⟨.order n.refs, rfl, by simp only [mainStep, if_pos all, Option.isSome_some]⟩
  | tearing held todo p =>
      cases todo with
      | nil => exact .inl ⟨.go, rfl, rfl⟩
      | cons r rest =>
          rcases tearStep_goes (t := .main) (n := n) (r := r) (p := p) none
              (fun notifies => absurd notifies ok.2) with ⟨a, tame, goes⟩ | ⟨rfl, t', blocked⟩
          · exact .inl ⟨a, tame, by rw [mainStep, Option.isSome_map, goes]⟩
          · exact .inr (.inr ⟨r, t', .inl ⟨rfl, rfl⟩, blocked⟩)
  | stopped => exact absurd rfl on

end GoOn

/-! ### Runs -/

section Runs

variable {cfg : Config} {s : System} {t t' : ThreadId}

theorem goesOn_of_step {a : Act} (tame : a.throws = false)
    (goes : (step cfg t (s.loc t) s.shared a).isSome = true) : GoesOn cfg s t :=
  ⟨a, tame, by rw [Interleaving.Machine.next, Option.isSome_map]; exact goes⟩

/-- **A thread that cannot go on is at rest or at a join.** -/
theorem goesOn_or_waits (h : Reaches cfg s) (t : ThreadId) :
    GoesOn cfg s t ∨ Resting s t ∨ ∃ t', WaitsFor s t t' := by
  have order := (order_of_reaches h).loc t
  have pos := ((Reaches.owned h).loc t).pos
  cases t with
  | msg =>
      cases call : (s.loc .msg).call with
      | some c =>
          rcases threadStep_goes (t := .msg) (n := s.shared) MsgPc.resume (msgStep cfg) call with
            ⟨a, tame, goes⟩ | ⟨r, t', tears, handle, other, lives⟩
          · exact .inl (goesOn_of_step tame goes)
          · exact .inr (.inr ⟨t', .teardown (r := r) tears handle other lives⟩)
      | none =>
          have waits : ¬ (s.loc .msg).pc.Calls := fun waits => order.calls waits call
          by_cases idle : (s.loc .msg).pc = .waiting
          · refine .inr (.inl ?_)
            change s.loc .msg = _
            cases here : s.loc .msg with
            | mk pc c =>
                rw [here] at idle call
                cases idle
                cases call
                rfl
          · obtain ⟨a, tame, goes⟩ := msgStep_goes (n := s.shared) cfg idle waits
            refine .inl (goesOn_of_step tame ?_)
            simpa only [step, Thread.step, call] using goes
  | idle =>
      cases call : (s.loc .idle).call with
      | some c =>
          rcases threadStep_goes (t := .idle) (n := s.shared) IdlePc.resume (idleStep cfg) call with
            ⟨a, tame, goes⟩ | ⟨r, t', tears, handle, other, lives⟩
          · exact .inl (goesOn_of_step tame goes)
          · exact .inr (.inr ⟨t', .teardown (r := r) tears handle other lives⟩)
      | none =>
          by_cases done : (s.loc .idle).pc = .exited
          · exact .inr (.inl (order done))
          · obtain ⟨a, tame, goes⟩ := idleStep_goes (n := s.shared) cfg done
            refine .inl (goesOn_of_step tame ?_)
            simpa only [step, Thread.step, call] using goes
  | main =>
      by_cases done : s.loc .main = MainPc.stopped
      · exact .inr (.inl done)
      · rcases mainStep_goes (n := s.shared) pos done with
          ⟨a, tame, goes⟩ | ⟨at_, lives⟩ | ⟨r, t', tears, handle, other, lives⟩
        · exact .inl (goesOn_of_step tame goes)
        · exact .inr (.inr ⟨.idle, .idle at_ lives⟩)
        · exact .inr (.inr ⟨t', .teardown (t := .main) (r := r) tears handle other lives⟩)
  | rx r =>
      by_cases running : s.shared.rxLife r = .running
      · cases call : (s.loc (.rx r)).call with
        | some c =>
            rcases threadStep_goes (t := .rx r) (n := s.shared) RxPc.resume (rxStep r) call with
              ⟨a, tame, goes⟩ | ⟨r', t', tears, handle, other, lives⟩
            · exact .inl (goesOn_of_step tame goes)
            · exact .inr (.inr ⟨t', .teardown (t := .rx r) (r := r') tears handle other lives⟩)
        | none =>
            have on : (s.loc (.rx r)).pc ≠ .exited := by
              intro done
              have ended := order.ended done
              rw [running] at ended
              cases ended
            obtain ⟨a, tame, goes⟩ := rxStep_goes running on
            refine .inl (goesOn_of_step tame ?_)
            simpa only [step, Thread.step, call] using goes
      · exact .inr (.inl running)
  | clock => exact .inl (goesOn_of_step (a := .tick 0) rfl rfl)

/-- The main thread waits for all others, and rx threads for younger ones. -/
def ThreadId.rank : ThreadId → Nat
  | .main => 0
  | .msg | .idle | .clock => 1
  | .rx r => r + 2

theorem WaitsFor.rank_lt (h : Reaches cfg s) (waits : WaitsFor s t t') : t.rank < t'.rank := by
  obtain ⟨order, inOrder⟩ := order_of_reaches h
  cases waits with
  | @teardown _ _ r tears handle other _ =>
      obtain ⟨rfl, -⟩ := order.handle handle
      cases t with
      | rx r₀ =>
          have older : r₀ ≤ r := (inOrder (.rx r₀)).tears tears
          have different : r₀ ≠ r := fun same => other (same ▸ rfl)
          exact Nat.add_lt_add_right (Nat.lt_of_le_of_ne older different) 2
      | msg | idle | main => simp [ThreadId.rank]
      | clock => exact tears.elim
  | idle | transport => decide

theorem WaitsFor.rank_bound (h : Reaches cfg s) (waits : WaitsFor s t t') :
    t'.rank < s.shared.nextRef + 2 := by
  cases waits with
  | @teardown _ _ r tears handle =>
      obtain ⟨rfl, started⟩ := (order_of_reaches h).shared.handle handle
      exact Nat.add_lt_add_right ((kin_of_reaches h).shared.bound started) 2
  | idle | transport => simp [ThreadId.rank]

/-- What is waited for has something to do. -/
theorem WaitsFor.not_resting (h : Reaches cfg s) (waits : WaitsFor s t t') : ¬ Resting s t' := by
  intro rests
  cases waits with
  | @teardown _ _ r tears handle other lives =>
      obtain ⟨rfl, started⟩ := (order_of_reaches h).shared.handle handle
      change s.shared.rxLife r ≠ .running at rests
      change (s.shared.rxLife r == .exited) = false at lives
      cases life : s.shared.rxLife r with
      | unstarted => exact started life
      | running => exact rests life
      | exited => simp [life] at lives
  | idle at_ lives =>
      rw [rests] at lives
      cases lives
  | transport at_ busy =>
      rw [show s.loc .msg = _ from rests] at busy
      exact busy rfl

/-- **The joins of the process come to an end.** In every state of every run no thread waits for
itself over others; a thread that cannot go on has nothing to do or is at a join; and at the end of
every chain of joins there is a thread that can go on. -/
theorem joins_go_on (h : Reaches cfg s) :
    (∀ t, ¬ TransGen (WaitsFor s) t t) ∧
      (∀ t, GoesOn cfg s t ∨ Resting s t ∨ ∃ t', WaitsFor s t t') ∧
      ∀ t t', WaitsFor s t t' → ∃ last, TransGen (WaitsFor s) t last ∧ GoesOn cfg s last := by
  have up (t t' : ThreadId) (waits : WaitsFor s t t') := waits.rank_lt h
  refine ⟨Waiting.not_cycle up, goesOn_or_waits h, fun t t' waits => ?_⟩
  obtain ⟨last, before, path, waited, end_⟩ :=
    Waiting.exists_end up (fun _ _ waits => waits.rank_bound h) waits
  refine ⟨last, path, ?_⟩
  rcases goesOn_or_waits h last with goes | rests | ⟨u, next⟩
  · exact goes
  · exact absurd rests (waited.not_resting h)
  · exact absurd next (end_ u)

/-- After a duplicate OPEN the first rx thread is about to join the second one. -/
def lateJoin : List (ThreadId × Act) :=
  duplicateOpen ++
    rxSchedule 0 [.go, .go, .recvRet none, .go, .go, .go, .go, .go, .go, .sent true, .go]

theorem joins_go_on_lateJoin :
    ∃ s, WaitsFor s (.rx 0) (.rx 1) ∧
      ∃ last, TransGen (WaitsFor s) (.rx 0) last ∧ GoesOn {} s last := by
  have h : Reaches {} ((machine {}).run init lateJoin) :=
    (Reach.run (by decide : (machine {}).follows (fun _ _ _ => true) init lateJoin)).any
  have waits : WaitsFor ((machine {}).run init lateJoin) (.rx 0) (.rx 1) :=
    .teardown (r := 1) ⟨⟨ascii "A", 1, .remoteClosed, some 0⟩, by decide⟩ (by decide) (by decide)
      (by decide)
  exact ⟨_, waits, (joins_go_on h).2.2 _ _ waits⟩

end Runs

end TonTunnel.Egress
