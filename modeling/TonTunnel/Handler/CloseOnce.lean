import TonTunnel.Handler.Android

/-!
How often an Android session sends CLOSE.

`Guarded` is what the guard of `closeStreamOnce` keeps while the handler has it in the
map: all threads use the same guard, and the CLOSE frames sent together with the threads
about to send one are at most as many as the guard is set. `one_close` is what follows for
every run in which the handler takes the guard away when no pipe thread is left to look for
it. Behind both joins it does; a join that is interrupted, or a second thread that cannot be
started, leaves it to chance.
-/

namespace TonTunnel.AndroidSession

open Interleaving (Reach Machine anyStep)

/-- What is said of a session. -/
structure OneClose (σ : State) : Prop where
  once : σ.shared.log.count .closeSent ≤ 1
  inTime {before later : List Event} : σ.shared.log = before ++ .unregistered :: later →
    Event.closeSent ∉ later
  cleared : σ.loc .handler = .exited → (∀ side, σ.shared.life side ≠ .running) →
    σ.shared.closeIssued = none

/-- When the handler removes the guard, no pipe thread is alive. -/
def outlivesPipes (σ : State) : ThreadId → Act → Bool
  | .handler, _ =>
      match σ.loc .handler with
      | .removeGuard => σ.shared.life .up ≠ .running && σ.shared.life .down ≠ .running
      | _ => true
  | _, _ => true

/-! ### The invariant -/

/-- The call of `closeStreamOnce` that a pipe thread is in. -/
def PipePc.close? : PipePc → Option ClosePc
  | .failed c | .closing c => some c
  | _ => none

def HandlerPc.close? : HandlerPc → Option ClosePc
  | .closing c => some c
  | _ => none

/-- Whether the call is about to send. -/
def sends (c : Option ClosePc) : Nat := if c = some .send then 1 else 0

/-- How many pipe threads are about to send. -/
def pipeSends (p : Side → PipePc) : Nat := sends (p .up).close? + sends (p .down).close?

/-- The handler has the guard in the map. -/
def HandlerPc.hasGuard : HandlerPc → Bool
  | .register | .putGuard | .unregister | .exited => false
  | _ => true

/-- How far the pipe threads are when the handler is here. -/
def Lives (life : Side → Life) : HandlerPc → Prop
  | .register | .putGuard | .opening | .openFailed | .reply | .start .up =>
      life .up = .unstarted ∧ life .down = .unstarted
  | .start .down => life .down = .unstarted
  | .unregister | .exited => life .up ≠ .running ∧ life .down ≠ .running
  | .join _ | .interruptPipes | .ending _ | .closing _ | .removeGuard => True

/-- Where a pipe thread is in its life. -/
def PipeAt (pc : PipePc) : Life → Prop
  | .unstarted => pc = .testRunning
  | .running => pc ≠ .exited
  | .exited => pc = .exited

/-- What the history says when the handler is here. -/
def Told (log : List Event) : HandlerPc → Prop
  | .exited => ∃ before, log = before ++ [.unregistered] ∧ Event.unregistered ∉ before
  | _ => Event.unregistered ∉ log

/-- The guard does its work. -/
structure Guarded (s : Session) (h : HandlerPc) (p : Side → PipePc) : Prop where
  entry : s.closeIssued = if h.hasGuard then some 0 else none
  fresh : h = .register ∨ h = .putGuard → s.nextGuard = 0 ∧ s.guards 0 = false
  handlerCas {g : Guard} : h.close? = some (.cas g) → g = 0
  pipeCas {side : Side} {g : Guard} : (p side).close? = some (.cas g) → g = 0
  count : s.log.count .closeSent + sends h.close? + pipeSends p ≤ (s.guards 0).toNat
  lives : Lives s.life h
  at_ (side : Side) : PipeAt (p side) (s.life side)
  told : Told s.log h

variable {s s' : Session} {a : Act} {h h' : HandlerPc} {p : Side → PipePc}

/-- A pipe thread that is alive finds the guard in the map. -/
theorem Lives.hasGuard {life : Side → Life} {side : Side} (lives : Lives life h)
    (alive : life side = .running) : h.hasGuard = true := by
  cases h with
  | register | putGuard | unregister | exited => cases side <;> simp_all [Lives]
  | _ => rfl

/-- While the guard is in the map, the stream is registered. -/
theorem Told.of_hasGuard {log log' : List Event} (told : Told log h) (guard : h.hasGuard = true)
    (same : Event.unregistered ∈ log' ↔ Event.unregistered ∈ log) : Told log' h := by
  cases h with
  | exited => cases guard
  | _ => exact mt same.mp told

/-- What a step of `closeStreamOnce` does while the guard is in the map. `rest` are the other
threads about to send. -/
theorem CloseMove.guarded {c : ClosePc} {out : Option ClosePc} {rest : Nat}
    (m : CloseMove s c a out s') (entry : s.closeIssued = some 0)
    (cas : ∀ g, some c = some (.cas g) → g = 0)
    (count : s.log.count .closeSent + sends (some c) + rest ≤ (s.guards 0).toNat) :
    s'.closeIssued = some 0 ∧ (∀ g, out = some (.cas g) → g = 0) ∧
      s'.log.count .closeSent + sends out + rest ≤ (s'.guards 0).toNat ∧
      s'.life = s.life ∧ s'.nextGuard = s.nextGuard ∧
      (Event.unregistered ∈ s'.log ↔ Event.unregistered ∈ s.log) := by
  cases m with
  | found there =>
      rw [entry] at there
      cases there
      exact ⟨entry, fun g is => by cases is; rfl, count, rfl, rfl, Iff.rfl⟩
  | made absent =>
      rw [entry] at absent
      cases absent
  | already isSet => exact ⟨entry, nofun, count, rfl, rfl, Iff.rfl⟩
  | @wins g notSet =>
      obtain rfl := cas g rfl
      rw [notSet] at count
      refine ⟨entry, nofun, ?_, rfl, rfl, Iff.rfl⟩
      simp only [Function.update_self, Bool.toNat_true, sends, if_pos] at count ⊢
      simp only [Bool.toNat_false] at count
      omega
  | sent =>
      refine ⟨entry, nofun, ?_, rfl, rfl, by simp [Session.emit]⟩
      have one : (s.emit .closeSent).log.count .closeSent = s.log.count .closeSent + 1 := by
        simp [Session.emit]
      rw [one]
      exact count
  | swallowed =>
      refine ⟨entry, nofun, ?_, rfl, rfl, Iff.rfl⟩
      exact Nat.le_trans (Nat.add_le_add_right (Nat.le_add_right _ _) _) count

/-- The handler moves on, with nothing changed but its position. -/
theorem Guarded.goes (g : Guarded s h p) (guard : h'.hasGuard = h.hasGuard)
    (notFresh : ¬ (h' = .register ∨ h' = .putGuard)) (outside : h'.close? = none ∨ h'.close? = some .get)
    (lives : Lives s.life h') (told : Told s.log h') : Guarded s h' p where
  entry := by rw [guard, g.entry]
  fresh is := absurd is notFresh
  handlerCas is := by rcases outside with none | get <;> simp_all
  pipeCas := g.pipeCas
  count := by
    have zero : sends h'.close? = 0 := by rcases outside with none | get <;> simp_all [sends]
    have count := g.count
    rw [zero]
    omega
  lives := lives
  at_ := g.at_
  told := told

/-- The handler starts a pipe thread. -/
theorem Guarded.starts {side : Side} (g : Guarded s h p) (unstarted : s.life side = .unstarted)
    (guard : h'.hasGuard = h.hasGuard) (notFresh : ¬ (h' = .register ∨ h' = .putGuard))
    (outside : h'.close? = none) (lives : Lives (s.setLife side .running).life h')
    (told : Told s.log h') : Guarded (s.setLife side .running) h' p where
  entry := by
    rw [guard]
    exact g.entry
  fresh is := absurd is notFresh
  handlerCas is := by simp_all
  pipeCas := g.pipeCas
  count := by
    have zero : sends h'.close? = 0 := by simp [outside, sends]
    have count := g.count
    rw [zero]
    change s.log.count .closeSent + 0 + pipeSends p ≤ (s.guards 0).toNat
    omega
  lives := lives
  at_ side' := by
    have at_ := g.at_ side'
    by_cases mine : side' = side
    · subst mine
      rw [unstarted] at at_
      have is : p side' = .testRunning := at_
      simp [Session.setLife, PipeAt, is]
    · simpa [Session.setLife, mine] using at_
  told := told

/-- The handler or a pipe thread interrupts a pipe thread. -/
theorem Guarded.interruptPipe (g : Guarded s h p) (side : Side) :
    Guarded (s.interruptPipe side) h p := by
  unfold Session.interruptPipe
  split
  · obtain ⟨entry, fresh, handlerCas, pipeCas, count, lives, at_, told⟩ := g
    exact ⟨entry, fresh, handlerCas, pipeCas, count, lives, at_, told⟩
  · exact g

theorem Session.interruptPipe_log (side : Side) : (s.interruptPipe side).log = s.log := by
  unfold Session.interruptPipe
  split <;> rfl

theorem HandlerMove.guarded (m : HandlerMove s h a h' s')
    (alone : h = .removeGuard → s.life .up ≠ .running ∧ s.life .down ≠ .running)
    (g : Guarded s h p) : Guarded s' h' p := by
  have lives := g.lives
  have told := g.told
  cases m with
  | register =>
      obtain ⟨entry, fresh, handlerCas, pipeCas, count, lives, at_, told⟩ := g
      exact ⟨entry, fun _ => fresh (.inl rfl), nofun, pipeCas, count, lives, at_, told⟩
  | putGuard =>
      obtain ⟨entry, fresh, handlerCas, pipeCas, count, lives, at_, told⟩ := g
      obtain ⟨next, unset⟩ := fresh (.inr rfl)
      refine ⟨?_, nofun, nofun, pipeCas, ?_, lives, at_, told⟩
      · change some s.nextGuard = some 0
        rw [next]
      · have same : s.putGuard.guards 0 = s.guards 0 := by simp [Session.putGuard, next, unset]
        rw [same]
        exact count
  | opened | notOpened | reply => exact g.goes rfl nofun (.inl rfl) lives told
  | openThrows | openFailed | replyThrows => exact g.goes rfl nofun (.inl rfl) trivial told
  | startUp => exact g.starts lives.1 rfl nofun rfl lives.2 told
  | startDown => exact g.starts lives rfl nofun rfl trivial told
  | startThrows => exact g.goes rfl nofun (.inl rfl) trivial told
  | @joined side =>
      cases side with
      | up | down => exact g.goes rfl nofun (.inl rfl) trivial told
  | joinInterrupted => exact g.goes rfl nofun (.inl rfl) trivial told
  | interruptPipes =>
      have told : Told ((s.interruptPipe .up).interruptPipe .down).log (.ending false) := by
        rw [Session.interruptPipe_log, Session.interruptPipe_log]
        exact told
      exact ((g.interruptPipe .up).interruptPipe .down).goes rfl nofun (.inl rfl) trivial told
  | closes => exact g.goes rfl nofun (.inr rfl) trivial told
  | skips => exact g.goes rfl nofun (.inl rfl) trivial told
  | closing move =>
      obtain ⟨entry, cas, count, life, -, log⟩ := move.guarded g.entry (fun _ => g.handlerCas) g.count
      exact ⟨entry, nofun, cas _, g.pipeCas, count, trivial, by rw [life]; exact g.at_,
        mt log.mp told⟩
  | closed move =>
      obtain ⟨entry, -, count, life, -, log⟩ := move.guarded g.entry (fun _ => g.handlerCas) g.count
      exact ⟨entry, nofun, nofun, g.pipeCas, count, trivial, by rw [life]; exact g.at_,
        mt log.mp told⟩
  | removeGuard => exact ⟨rfl, nofun, nofun, g.pipeCas, g.count, alone rfl, g.at_, told⟩
  | unregister =>
      refine ⟨g.entry, nofun, nofun, g.pipeCas, ?_, lives, g.at_, s.log, rfl, told⟩
      have same : (s.emit .unregistered).log.count .closeSent = s.log.count .closeSent := by
        simp [Session.emit]
      rw [same]
      exact g.count

theorem pipeSends_update {side : Side} {pc : PipePc} :
    pipeSends (Function.update p side pc) + sends (p side).close? = pipeSends p + sends pc.close? := by
  cases side <;> simp [pipeSends] <;> omega

/-- A pipe thread ends. -/
theorem Lives.exits {life : Side → Life} {side : Side} (lives : Lives life h)
    (alive : life side = .running) : Lives (Function.update life side .exited) h := by
  have guard := lives.hasGuard alive
  cases h with
  | register | putGuard | unregister | exited => cases guard
  | opening | openFailed | reply => cases side <;> simp_all [Lives]
  | start side' => cases side' <;> cases side <;> simp_all [Lives]
  | _ => trivial

/-- A pipe thread that moves is alive. -/
theorem PipeMove.alive {side : Side} {pc pc' : PipePc} (m : PipeMove side s pc a pc' s')
    (at_ : PipeAt pc (s.life side)) : s.life side = .running := by
  cases life : s.life side with
  | running => rfl
  | unstarted =>
      rw [life] at at_
      obtain rfl : pc = .testRunning := at_
      cases m with
      | body _ _ started => exact life.symm.trans (started rfl)
  | exited =>
      rw [life] at at_
      obtain rfl : pc = .exited := at_
      cases m with
      | body within => cases within

/-- A pipe thread moves on: what is left to check of its call of `closeStreamOnce` and of its
life. `rest` are the other threads about to send. -/
theorem Guarded.pipe {side : Side} {pc' : PipePc} {rest : Nat} (g : Guarded s h p)
    (alive : s.life side = .running)
    (whole : sends h.close? + pipeSends p = sends (p side).close? + rest)
    (entry : s'.closeIssued = s.closeIssued) (cas : ∀ g, pc'.close? = some (.cas g) → g = 0)
    (count : s'.log.count .closeSent + sends pc'.close? + rest ≤ (s'.guards 0).toNat)
    (lives : Lives s'.life h) (at_ : PipeAt pc' (s'.life side))
    (others : ∀ side', side' ≠ side → s'.life side' = s.life side')
    (log : Event.unregistered ∈ s'.log ↔ Event.unregistered ∈ s.log) :
    Guarded s' h (Function.update p side pc') := by
  have guard := g.lives.hasGuard alive
  refine ⟨entry.trans g.entry, ?_, g.handlerCas, ?_, ?_, lives, ?_, g.told.of_hasGuard guard log⟩
  · rintro (rfl | rfl) <;> cases guard
  · intro side' c is
    by_cases same : side' = side
    · subst same
      rw [Function.update_self] at is
      exact cas c is
    · rw [Function.update_of_ne same] at is
      exact g.pipeCas is
  · have sum : pipeSends (Function.update p side pc') + sends (p side).close? =
        pipeSends p + sends pc'.close? := pipeSends_update
    omega
  · intro side'
    by_cases same : side' = side
    · subst same
      rw [Function.update_self]
      exact at_
    · rw [Function.update_of_ne same, others side' same]
      exact g.at_ side'

theorem PipeMove.guarded {side : Side} {pc' : PipePc} (m : PipeMove side s (p side) a pc' s')
    (g : Guarded s h p) : Guarded s' h (Function.update p side pc') := by
  have alive := m.alive (g.at_ side)
  have guard := g.lives.hasGuard alive
  have entry : s.closeIssued = some 0 := by rw [g.entry, if_pos guard]
  obtain ⟨rest, whole⟩ :
      ∃ rest, sends h.close? + pipeSends p = sends (p side).close? + rest := by
    cases side with
    | up => exact ⟨_, Nat.add_left_comm _ _ _⟩
    | down => exact ⟨_, (Nat.add_assoc _ _ _).symm.trans (Nat.add_comm _ _)⟩
  have sum : s.log.count .closeSent + sends (p side).close? + rest ≤ (s.guards 0).toNat := by
    have count := g.count
    omega
  have cas : ∀ c, (p side).close? = some (.cas c) → c = 0 := fun c => g.pipeCas
  -- what is the same whatever the step: the thread moves from outside `closeStreamOnce`
  have goes {s' : Session} {pc' : PipePc} (same : s'.closeIssued = s.closeIssued)
      (log : s'.log = s.log) (guards : s'.guards = s.guards) (lives : Lives s'.life h)
      (at_ : PipeAt pc' (s'.life side))
      (others : ∀ side', side' ≠ side → s'.life side' = s.life side')
      (calls : pc'.close? = none ∨ pc'.close? = some .get) :
      Guarded s' h (Function.update p side pc') := by
    have zero : sends pc'.close? = 0 := by rcases calls with none | get <;> simp_all [sends]
    refine g.pipe alive whole same ?_ ?_ lives at_ others (by rw [log])
    · intro c is
      rcases calls with none | get <;> simp_all
    · rw [log, guards, zero]
      omega
  have exits := g.lives.exits alive
  have atRunning {pc' : PipePc} (ne : pc' ≠ .exited) : PipeAt pc' (s.life side) := by
    rw [alive]
    exact ne
  generalize is : p side = pc at m sum cas
  cases m with
  | body _ where_ =>
      refine goes rfl rfl rfl g.lives (atRunning ?_) (fun _ _ => rfl) ?_
      · rcases where_ with inside | rfl | rfl
        · rintro rfl
          cases inside
        · exact nofun
        · exact nofun
      · rcases where_ with inside | rfl | rfl
        · cases pc' <;> first | exact .inl rfl | cases inside
        · exact .inl rfl
        · exact .inr rfl
  | first => exact goes rfl rfl rfl g.lives (atRunning nofun) (fun _ _ => rfl) (.inl rfl)
  | shutdown => exact goes rfl rfl rfl g.lives (atRunning nofun) (fun _ _ => rfl) (.inr rfl)
  | interruptOther =>
      unfold Session.interruptPipe
      split
      · exact goes rfl rfl rfl g.lives (atRunning nofun) (fun _ _ => rfl) (.inl rfl)
      · exact goes rfl rfl rfl g.lives (atRunning nofun) (fun _ _ => rfl) (.inl rfl)
  | last =>
      refine goes rfl rfl rfl exits ?_ ?_ (.inl rfl)
      · simp [Session.setLife, PipeAt]
      · intro side' ne
        simp [Session.setLife, ne]
  | failing move | closing move =>
      obtain ⟨entry', cas', count, life, -, log⟩ := move.guarded entry cas sum
      exact g.pipe alive whole (entry'.trans entry.symm) cas' count (by rw [life]; exact g.lives)
        (by rw [life]; exact atRunning nofun) (fun _ _ => by rw [life]) log
  | failed move =>
      obtain ⟨entry', -, count, life, -, log⟩ := move.guarded entry cas sum
      exact g.pipe alive whole (entry'.trans entry.symm) nofun count (by rw [life]; exact g.lives)
        (by rw [life]; exact atRunning nofun) (fun _ _ => by rw [life]) log
  | closed move =>
      obtain ⟨entry', -, count, life, -, log⟩ := move.guarded entry cas sum
      refine g.pipe alive whole (entry'.trans entry.symm) nofun count ?_ ?_ ?_ log
      · rw [Session.setLife, life]
        exact exits
      · simp [Session.setLife, PipeAt]
      · intro side' ne
        simp [Session.setLife, ne, life]

/-- The world stops the server or interrupts the handler. -/
theorem Guarded.world (g : Guarded s h p) (moves : worldStep s a = some ((), s')) :
    Guarded s' h p := by
  unfold worldStep at moves
  obtain ⟨entry, fresh, handlerCas, pipeCas, count, lives, at_, told⟩ := g
  split at moves <;> cases moves <;>
    exact ⟨entry, fresh, handlerCas, pipeCas, count, lives, at_, told⟩

/-! ### Whole runs -/

/-- The positions of the pipe threads. -/
def pipes (σ : State) (side : Side) : PipePc := σ.loc (.pipe side)

theorem guarded_of_reach {σ : State}
    (h : Reach machine (fun σ t a => outlivesPipes σ t a = true) start σ) :
    Guarded σ.shared (σ.loc .handler) (pipes σ) := by
  induction h with
  | start =>
      exact ⟨rfl, fun _ => ⟨rfl, rfl⟩, nofun, nofun, Nat.le_refl 0, ⟨rfl, rfl⟩, fun _ => rfl,
        List.not_mem_nil⟩
  | @step σ σ' t a _ ok next ih =>
      obtain ⟨l, s', moves, rfl⟩ := Machine.next_eq_some next
      cases t with
      | handler =>
          refine (handlerStep_move moves).guarded (fun removes => ?_) ih
          simpa [outlivesPipes, removes] using ok
      | pipe side =>
          have moved := PipeMove.guarded (p := pipes σ) (pipeStep_move moves) ih
          have same : pipes ⟨Function.update σ.loc (.pipe side) l, s'⟩ =
              Function.update (pipes σ) side l := by
            funext side'
            by_cases mine : side' = side
            · subst mine
              simp [pipes]
            · have other : ThreadId.pipe side' ≠ .pipe side := by simpa using mine
              simp [pipes, mine, other]
          rw [same]
          exact moved
      | world => exact ih.world moves

/-- Nothing stands behind the first `e` of a list that ends with it. -/
theorem last_alone {e : Event} {before before' later : List Event} (clean : e ∉ before')
    (is : before' ++ [e] = before ++ e :: later) : later = [] := by
  rcases List.append_eq_append_iff.mp is with ⟨m, -, tail⟩ | ⟨m, front, tail⟩
  · cases m with
    | nil => simpa using tail.symm
    | cons x xs => simp at tail
  · cases m with
    | nil => simpa using tail
    | cons x xs =>
        obtain ⟨rfl, -⟩ := List.cons_eq_cons.mp tail
        exact absurd (by rw [front]; simp) clean

/-- **One CLOSE for each session**: when no pipe thread is alive as the handler removes the guard,
in every interleaving the three threads send at most one CLOSE, none once the handler has removed
the guard and unregistered the stream, and they leave no entry behind. -/
theorem one_close {σ : State} (h : Reach machine (fun σ t a => outlivesPipes σ t a = true) start σ) :
    OneClose σ := by
  have g := guarded_of_reach h
  constructor
  · have count := g.count
    have le := Bool.toNat_le (σ.shared.guards 0)
    omega
  · intro before later is
    have told := g.told
    cases pc : σ.loc .handler with
    | exited =>
        rw [pc] at told
        obtain ⟨before', is', clean⟩ := told
        rw [is'] at is
        rw [last_alone clean is]
        exact List.not_mem_nil
    | _ =>
        rw [pc] at told
        exact absurd (by rw [is]; simp) told
  · intro exited _
    rw [g.entry, exited]
    rfl

/-- A session is opened and its threads are started. -/
def sessionStarts : List (ThreadId × Act) :=
  [.go, .go, .openRet 0, .go, .go, .go].map fun a => (.handler, a)

/-- The server closes the stream, and the handler joins both threads. -/
def serverCloses : List (ThreadId × Act) :=
  List.flatten [sessionStarts, List.replicate 2 (.pipe .down, .go),
    [(.pipe .down, .frame (some (.close, 0)))], List.replicate 6 (.pipe .down, .go),
    List.replicate 3 (.pipe .up, .go), List.replicate 7 (.handler, .go)]

theorem server_close_answered_once : OneClose (machine.run start serverCloses) :=
  one_close (Reach.run (by decide : machine.follows outlivesPipes start serverCloses))

/-- `stop` interrupts the handler in its join; the handler leaves, and then the pipe threads end. -/
def handlerInterrupted : List (ThreadId × Act) :=
  List.flatten [sessionStarts, [(.world, .stop), (.world, .interrupt), (.handler, .interrupt)],
    List.replicate 4 (.handler, .go), List.replicate 7 (.pipe .up, .go),
    List.replicate 2 (.pipe .down, .go)]

/-- After an interrupted join CLOSE is sent behind the handler's back, and its guard stays in the
map. -/
theorem interrupted_join_closes_late :
    ∃ σ, Reach machine anyStep start σ ∧ σ.loc .handler = .exited ∧
      (∀ side, σ.shared.life side = .exited) ∧ σ.shared.log = [.unregistered, .closeSent] ∧
      σ.shared.closeIssued = some 1 ∧ ¬ OneClose σ := by
  have h := Reach.run (by decide : machine.follows (fun _ _ _ => true) start handlerInterrupted)
  have exited : ∀ side, (machine.run start handlerInterrupted).shared.life side = .exited := by
    intro side
    cases side <;> decide
  refine ⟨_, h.any, by decide, exited, by decide, by decide, ?_⟩
  intro one
  have none := one.cleared (by decide) fun side => by rw [exited side]; exact nofun
  exact absurd none (by decide)

end TonTunnel.AndroidSession
