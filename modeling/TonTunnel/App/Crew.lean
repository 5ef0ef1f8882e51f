import TonTunnel.App.Stages

/-!
What the threads of the desktop application can rely on.

A worker is alive only while the accept thread holds it, or `workerThreads_`, or the
thread of the window in its joins (`Listed`), so that none is left when the client is
taken down.

* A thread in `TonAdnlClientRuntime::send` is in the client of the running session,
  which was neither deleted nor told to stop (`sends_reach_running_client`).
* The receiver of a core takes what the client of its own START received, in order,
  and while the core runs the rest of it is in the queue (`packets_stay_in_session`).
* When the window waits and nothing is set up, every thread has ended, every client
  is deleted and the queue is empty (`stopped_is_clean`).
-/

namespace TonTunnel.Sessions

open Interleaving

/-! ### The workers -/

/-- The client that a thread is sending through. -/
def SendPc.within : SendPc → Option Nat
  | .inside h => some h
  | _ => none

@[inherit_doc SendPc.within]
def WorkerPc.within : WorkerPc → Option Nat
  | .opening pc | .closing pc => pc.within
  | .joining => none

/-- Who will join a worker. -/
def Listed (s : State) (w : Nat) : Prop :=
  w ∈ s.shared.workerThreads s.shared.session ∨
    (s.shared.life (.acceptor s.shared.session) = .alive ∧
      s.loc (.acceptor s.shared.session) = AcceptorPc.keep w) ∨
    ∃ ws next, s.loc .ui = UiPc.socks (.joinWorkers ws) next ∧ w ∈ ws

structure Crew (s : State) : Prop where
  listed (w : Nat) : s.shared.life (.worker w) = .alive → Listed s w
  taken (ws : List Nat) (next : Then) : s.loc .ui = UiPc.socks (.joinWorkers ws) next →
    s.shared.workerThreads s.shared.session = []
  uplink (w : Nat) : s.shared.life (.uplink w) = .alive →
    s.shared.life (.worker w) = .alive ∧ s.loc (.worker w) = WorkerPc.joining
  workerIn (w h : Nat) : WorkerPc.within (s.loc (.worker w)) = some h →
    s.shared.life (.worker w) = .alive ∧ h = s.shared.session
  uplinkIn (w h : Nat) : SendPc.within (s.loc (.uplink w)) = some h →
    s.shared.life (.uplink w) = .alive ∧ h = s.shared.session

/-- The invariant. -/
def Safe (s : State) : Prop :=
  (∃ st ∈ UiPc.stages (s.loc .ui), Sound st s.shared) ∧ Crew s

section Steps

variable {s : State} {st : Stage} {n n' : Process} {a : Act}

/-- No worker is alive when its server is not up. -/
theorem Sound.no_workers (sound : Sound st n) (down : st.serves = false) (w : Nat) :
    n.life (.worker w) ≠ .alive ∧ n.life (.uplink w) ≠ .alive := by
  constructor
  · intro alive
    have up : st.serves = true := sound.live _ alive
    rw [down] at up
    cases up
  · intro alive
    have up : st.serves = true := sound.live _ alive
    rw [down] at up
    cases up

theorem socksStep_life {pc : SocksPc} {pc' : Option SocksPc} (h : socksStep pc n = some (pc', n')) :
    n'.life = n.life := by
  cases pc with
  | stop =>
      simp only [socksStep] at h
      split at h
      · cases h
        rfl
      · split at h
        · cases h
          rfl
        · cases h
          rfl
  | joinAcceptor =>
      obtain ⟨k, -, h⟩ := Option.bind_eq_some_iff.mp h
      split at h
      · cases h
        rfl
      · cases h
  | takeWorkers =>
      obtain ⟨k, -, h⟩ := Option.map_eq_some_iff.mp h
      cases h
      rfl
  | joinWorkers ws =>
      cases ws with
      | nil =>
          cases h
          rfl
      | cons w ws =>
          simp only [socksStep] at h
          split at h
          · cases h
            rfl
          · cases h
  | reset =>
      cases h
      rfl

theorem coreStep_life {pc : CorePc} {next : Then} {pc' : UiPc}
    (h : coreStep pc next n = some (pc', n')) : n'.life = n.life := by
  cases pc with
  | stop =>
      simp only [coreStep] at h
      split at h
      · cases h
        rfl
      · split at h
        · cases h
          rfl
        · cases h
          rfl
  | joinReceiver =>
      obtain ⟨k, -, h⟩ := Option.bind_eq_some_iff.mp h
      split at h
      · cases h
        rfl
      · cases h
  | reset =>
      cases h
      rfl

theorem releaseStep_life {pc : ReleasePc} {pc' : Option ReleasePc}
    (h : releaseStep pc n = some (pc', n')) : n'.life = n.life := by
  cases pc with
  | unset | clear | testHandle | forget =>
      cases h
      rfl
  | stop =>
      obtain ⟨k, -, h⟩ := Option.bind_eq_some_iff.mp h
      obtain ⟨c, -, h⟩ := Option.map_eq_some_iff.mp h
      split at h
      · cases h
        rfl
      · cases h
        rfl
  | joinScheduler =>
      obtain ⟨k, -, h⟩ := Option.bind_eq_some_iff.mp h
      split at h
      · cases h
        rfl
      · cases h
  | destroy =>
      obtain ⟨k, -, h⟩ := Option.bind_eq_some_iff.mp h
      obtain ⟨c, -, h⟩ := Option.map_eq_some_iff.mp h
      cases h
      rfl

/-- `startTunnel` starts threads, and none of them is a worker. -/
theorem startStep_life {pc : StartPc} {pc' : UiPc} (h : startStep pc n a = some (pc', n')) (w : Nat) :
    n'.life (.worker w) = n.life (.worker w) ∧ n'.life (.uplink w) = n.life (.uplink w) := by
  unfold startStep at h
  split at h
  case h_6 =>
    obtain ⟨k, -, h⟩ := Option.bind_eq_some_iff.mp h
    obtain ⟨c, -, h⟩ := Option.map_eq_some_iff.mp h
    cases h
    simp [Process.spawn, Process.setClient]
  case h_5 =>
    obtain ⟨k, -, h⟩ := Option.bind_eq_some_iff.mp h
    obtain ⟨c, -, h⟩ := Option.map_eq_some_iff.mp h
    cases h
    exact ⟨rfl, rfl⟩
  all_goals
    cases h
    try simp [Process.spawn, Process.setClient, Process.setCoreRunning, Process.setSocksRunning]

/-- The window's thread leaves the workers alone. -/
theorem uiStep_life {pc pc' : UiPc} (h : uiStep pc n a = some (pc', n')) (w : Nat) :
    n'.life (.worker w) = n.life (.worker w) ∧ n'.life (.uplink w) = n.life (.uplink w) := by
  unfold uiStep at h
  split at h
  · cases h
    exact ⟨rfl, rfl⟩
  · obtain ⟨p, step, same⟩ := Option.map_eq_some_iff.mp h
    cases same
    rw [socksStep_life step]
    exact ⟨rfl, rfl⟩
  · rw [coreStep_life h]
    exact ⟨rfl, rfl⟩
  · obtain ⟨p, step, same⟩ := Option.map_eq_some_iff.mp h
    cases same
    rw [releaseStep_life step]
    exact ⟨rfl, rfl⟩
  · exact startStep_life h w
  · cases h

/-- How the window's thread comes to join workers. -/
theorem uiStep_joinWorkers {pc : UiPc} {ws : List Nat} {next : Then}
    (h : uiStep pc n a = some (.socks (.joinWorkers ws) next, n')) :
    (∃ k, pc = .socks .takeWorkers next ∧ n.socks = some k ∧ ws = n.workerThreads k ∧
        n' = n.setWorkers k []) ∨
      ∃ w, pc = .socks (.joinWorkers (w :: ws)) next ∧ n.joined (.worker w) = true ∧ n' = n := by
  unfold uiStep at h
  split at h
  · cases h
  · next pc next' =>
      obtain ⟨⟨pc', m⟩, step, same⟩ := Option.map_eq_some_iff.mp h
      cases pc' with
      | none => cases same
      | some pc' =>
          cases same
          unfold socksStep at step
          split at step
          · split at step
            · cases step
            · split at step
              · cases step
              · cases step
          · obtain ⟨k, -, step⟩ := Option.bind_eq_some_iff.mp step
            split at step
            · cases step
            · cases step
          · obtain ⟨k, socks, step⟩ := Option.map_eq_some_iff.mp step
            cases step
            exact .inl ⟨k, rfl, socks, rfl, rfl⟩
          · cases step
          · split at step
            · next joined =>
                cases step
                exact .inr ⟨_, rfl, joined, rfl⟩
            · cases step
          · cases step
  · unfold coreStep at h
    split at h
    · split at h
      · cases h
      · split at h
        · cases h
        · cases h
    · obtain ⟨k, -, h⟩ := Option.bind_eq_some_iff.mp h
      split at h
      · cases h
      · cases h
    · cases h
  · next pc r =>
      obtain ⟨⟨pc', m⟩, step, same⟩ := Option.map_eq_some_iff.mp h
      cases pc' with
      | none =>
          cases r with
          | backend next => cases same
          | own next => cases next with | _ => cases same
          | failed => cases same
      | some pc' => cases same
  · unfold startStep at h
    split at h
    case h_5 | h_6 =>
      obtain ⟨k, -, h⟩ := Option.bind_eq_some_iff.mp h
      obtain ⟨c, -, h⟩ := Option.map_eq_some_iff.mp h
      cases h
    all_goals cases h
  · cases h

/-- No worker is left when the last one was joined. -/
theorem Crew.left (crew : Crew s) (sound : Sound .joining s.shared) {next : Then}
    (at_ : s.loc .ui = UiPc.socks (.joinWorkers []) next) (w : Nat) :
    s.shared.life (.worker w) ≠ .alive ∧ s.shared.life (.uplink w) ≠ .alive := by
  have none_ : s.shared.life (.worker w) ≠ .alive := by
    intro alive
    rcases crew.listed w alive with mem | ⟨up, -⟩ | ⟨ws, next', at', mem⟩
    · rw [crew.taken [] next at_] at mem
      cases mem
    · cases sound.live _ up
    · rw [at_] at at'
      cases at'
      cases mem
  exact ⟨none_, fun alive => none_ (crew.uplink w alive).1⟩

/-- A crew without workers. -/
theorem Crew.of_none {s' : State} (crew : Crew s)
    (none_ : ∀ w, s.shared.life (.worker w) ≠ .alive ∧ s.shared.life (.uplink w) ≠ .alive)
    (life : ∀ w, s'.shared.life (.worker w) = s.shared.life (.worker w) ∧
      s'.shared.life (.uplink w) = s.shared.life (.uplink w))
    (worker : ∀ w, s'.loc (.worker w) = s.loc (.worker w))
    (uplink : ∀ w, s'.loc (.uplink w) = s.loc (.uplink w))
    (taken : ∀ ws next, s'.loc .ui = UiPc.socks (.joinWorkers ws) next →
      s'.shared.workerThreads s'.shared.session = []) : Crew s' where
  listed w alive := absurd ((life w).1 ▸ alive) (none_ w).1
  taken := taken
  uplink w alive := absurd ((life w).2 ▸ alive) (none_ w).2
  workerIn w h within := by
    rw [worker] at within
    exact absurd (crew.workerIn w h within).1 (none_ w).1
  uplinkIn w h within := by
    rw [uplink] at within
    exact absurd (crew.uplinkIn w h within).1 (none_ w).2

/-- A thread has moved. -/
def moveTo (s : State) (t : ThreadId) (l : Local t) (n : Process) : State :=
  ⟨Function.update s.loc t l, n⟩

@[simp] theorem moveTo_shared (t : ThreadId) (l : Local t) : (moveTo s t l n).shared = n := rfl

@[simp] theorem moveTo_self (t : ThreadId) (l : Local t) : (moveTo s t l n).loc t = l :=
  Function.update_self ..

@[simp] theorem moveTo_ne {t t' : ThreadId} (l : Local t) (other : t' ≠ t) :
    (moveTo s t l n).loc t' = s.loc t' :=
  Function.update_of_ne other ..

/-- Nothing changes for the workers. -/
theorem Crew.moved {pc : UiPc} (crew : Crew s) (life : n'.life = s.shared.life)
    (session : n'.session = s.shared.session) (threads : n'.workerThreads = s.shared.workerThreads)
    (before : ∀ ws next, s.loc .ui ≠ UiPc.socks (.joinWorkers ws) next)
    (after : ∀ ws next, pc ≠ UiPc.socks (.joinWorkers ws) next) : Crew (moveTo s .ui pc n') where
  listed w alive := by
    rcases crew.listed w (life ▸ alive) with mem | held | ⟨ws, next, at_, -⟩
    · exact .inl (by simpa [threads, session] using mem)
    · refine .inr (.inl ?_)
      rw [moveTo_shared, session, life, moveTo_ne _ (by simp)]
      exact held
    · exact absurd at_ (before ws next)
  taken ws next at_ := absurd (by simpa using at_) (after ws next)
  uplink w alive := by simpa [life] using crew.uplink w (life ▸ alive)
  workerIn w h within := by simpa [life, session] using crew.workerIn w h (by simpa using within)
  uplinkIn w h within := by simpa [life, session] using crew.uplinkIn w h (by simpa using within)

/-- `workerThreads_` is taken over by the thread of the window. -/
theorem Crew.take {next : Then} (crew : Crew s) (sound : Sound .joining s.shared)
    (at_ : s.loc .ui = UiPc.socks .takeWorkers next) :
    Crew (moveTo s .ui (.socks (.joinWorkers (s.shared.workerThreads s.shared.session)) next)
      (s.shared.setWorkers s.shared.session [])) where
  listed w alive := by
    rcases crew.listed w alive with mem | ⟨up, -⟩ | ⟨ws, next, at', -⟩
    · exact .inr (.inr ⟨_, next, by simp, mem⟩)
    · cases sound.live _ up
    · rw [at_] at at'
      cases at'
  taken ws next is := by simp [Process.setWorkers]
  uplink w alive := by simpa [Process.setWorkers] using crew.uplink w alive
  workerIn w h within := by simpa [Process.setWorkers] using crew.workerIn w h (by simpa using within)
  uplinkIn w h within := by simpa [Process.setWorkers] using crew.uplinkIn w h (by simpa using within)

/-- The next worker was joined. -/
theorem Crew.join {w : Nat} {ws : List Nat} {next : Then} (crew : Crew s)
    (sound : Sound .joining s.shared) (at_ : s.loc .ui = UiPc.socks (.joinWorkers (w :: ws)) next)
    (joined : s.shared.joined (.worker w) = true) :
    Crew (moveTo s .ui (.socks (.joinWorkers ws) next) s.shared) where
  listed w' alive := by
    have none_ := crew.taken _ _ at_
    rcases crew.listed w' alive with mem | ⟨up, -⟩ | ⟨ws', next', at', mem⟩
    · rw [none_] at mem
      cases mem
    · cases sound.live _ up
    · rw [at_] at at'
      cases at'
      rcases List.mem_cons.mp mem with rfl | mem
      · exact absurd alive (not_alive_of_joined joined)
      · exact .inr (.inr ⟨ws, next, by simp, mem⟩)
  taken _ _ _ := crew.taken _ _ at_
  uplink w alive := by simpa using crew.uplink w alive
  workerIn w h within := by simpa using crew.workerIn w h (by simpa using within)
  uplinkIn w h within := by simpa using crew.uplinkIn w h (by simpa using within)

/-- The lines that are run while a server may have workers. -/
theorem serving_pc {pc : UiPc} (at_ : st ∈ pc.stages) (serves : st.serves = true) :
    pc = .waiting ∧ st = .serving ∨ ∃ spc next, pc = .socks spc next := by
  cases pc with
  | waiting =>
      simp only [UiPc.stages, List.mem_cons, List.not_mem_nil, or_false] at at_
      rcases at_ with rfl | rfl
      · cases serves
      · exact .inl ⟨rfl, rfl⟩
  | socks spc next => exact .inr ⟨spc, next, rfl⟩
  | core pc next =>
      have idle : ∀ st ∈ pc.stages, st.serves = false := by cases pc with | _ => decide
      exact Bool.noConfusion ((idle st at_).symm.trans serves)
  | release pc r =>
      have idle : ∀ st ∈ pc.backendStages ++ pc.otherStages, st.serves = false := by
        cases pc with | _ => decide
      have here : st ∈ pc.backendStages ++ pc.otherStages := by
        cases r with
        | backend => exact List.mem_append_left _ at_
        | own | failed => exact List.mem_append_right _ at_
      exact Bool.noConfusion ((idle st here).symm.trans serves)
  | start pc =>
      have idle : ∀ st ∈ pc.stages, st.serves = false := by cases pc with | _ => decide
      exact Bool.noConfusion ((idle st at_).symm.trans serves)

theorem Crew.ui {pc : UiPc} (crew : Crew s) (at_ : st ∈ UiPc.stages (s.loc .ui))
    (sound : Sound st s.shared) (h : uiStep (s.loc .ui) s.shared a = some (pc, n')) :
    Crew (moveTo s .ui pc n') := by
  by_cases joins : ∃ ws next, pc = .socks (.joinWorkers ws) next
  · obtain ⟨ws, next, rfl⟩ := joins
    rcases uiStep_joinWorkers h with ⟨k, here, socks, rfl, rfl⟩ | ⟨w, here, joined, rfl⟩
    · obtain rfl : st = .joining := by simpa [here, UiPc.stages] using at_
      obtain rfl : s.shared.session = k := by simpa [(sound.objects.socks rfl).1] using socks
      exact crew.take sound here
    · obtain rfl : st = .joining := by simpa [here, UiPc.stages] using at_
      exact crew.join sound here joined
  have elsewhere (ws : List Nat) (next : Then) : pc ≠ .socks (.joinWorkers ws) next :=
    fun is => joins ⟨ws, next, is⟩
  have gone (none_ : ∀ w, s.shared.life (.worker w) ≠ .alive ∧ s.shared.life (.uplink w) ≠ .alive) :
      Crew (moveTo s .ui pc n') :=
    crew.of_none none_ (uiStep_life h) (fun _ => by simp) (fun _ => by simp)
      fun ws next is => absurd (by simpa using is) (elsewhere ws next)
  by_cases serves : st.serves = true
  · rcases serving_pc at_ serves with ⟨here, -⟩ | ⟨spc, next, here⟩
    · rw [here] at h
      obtain ⟨-, rfl⟩ : (∃ start, a = .press start) ∧ n' = s.shared := by
        cases a with | _ => simp_all [uiStep]
      exact crew.moved rfl rfl rfl (by simp [here]) elsewhere
    · rw [here] at h
      obtain ⟨act, h⟩ : a = .go ∧ (socksStep spc s.shared).map (fun p =>
          (p.1.elim (UiPc.core .stop next) fun pc => .socks pc next, p.2)) = some (pc, n') := by
        cases a with | _ => simp_all [uiStep]
      obtain ⟨⟨pc', m⟩, step, same⟩ := Option.map_eq_some_iff.mp h
      obtain ⟨rfl, rfl⟩ := Prod.mk.inj same
      have life := socksStep_life step
      cases spc with
      | stop =>
          refine crew.moved life ?_ ?_ (by simp [here]) elsewhere
          all_goals
            unfold socksStep at step
            grind [Process.setSocksRunning]
      | joinAcceptor =>
          obtain ⟨k, -, step⟩ := Option.bind_eq_some_iff.mp step
          split at step
          · cases step
            exact crew.moved rfl rfl rfl (by simp [here]) elsewhere
          · cases step
      | takeWorkers =>
          obtain ⟨k, -, step⟩ := Option.map_eq_some_iff.mp step
          cases step
          exact absurd rfl (elsewhere _ _)
      | joinWorkers ws =>
          obtain rfl : st = .joining := by simpa [here, UiPc.stages] using at_
          cases ws with
          | nil => exact gone (crew.left sound here)
          | cons w ws =>
              simp only [socksStep] at step
              split at step
              · cases step
                exact absurd rfl (elsewhere _ _)
              · cases step
      | reset =>
          obtain rfl : st = .unserved := by simpa [here, UiPc.stages] using at_
          cases serves
  · exact gone (sound.no_workers (by simpa using serves))

/-! ### The other threads -/

/-- A thread that is neither the window's nor the accept thread nor a worker has moved. -/
theorem Crew.aside {t : ThreadId} {l : Local t} (crew : Crew s) (n' : Process) (ui : t ≠ .ui)
    (acceptor : ∀ k, t ≠ .acceptor k) (worker : ∀ w, t ≠ .worker w) (uplink : ∀ w, t ≠ .uplink w)
    (session : n'.session = s.shared.session) (threads : n'.workerThreads = s.shared.workerThreads)
    (life : ∀ t', t' ≠ t → n'.life t' = s.shared.life t') : Crew (moveTo s t l n') where
  listed w alive := by
    rw [moveTo_shared, life _ (worker w).symm] at alive
    rcases crew.listed w alive with mem | held | ⟨ws, next, at_, mem⟩
    · exact .inl (by simpa [threads, session] using mem)
    · refine .inr (.inl ?_)
      rw [moveTo_shared, session, life _ (acceptor _).symm, moveTo_ne _ (acceptor _).symm]
      exact held
    · exact .inr (.inr ⟨ws, next, by rw [moveTo_ne _ ui.symm]; exact at_, mem⟩)
  taken ws next at_ := by
    rw [moveTo_ne _ ui.symm] at at_
    rw [moveTo_shared, threads, session]
    exact crew.taken ws next at_
  uplink w alive := by
    rw [moveTo_shared, life _ (uplink w).symm] at alive
    rw [moveTo_shared, life _ (worker w).symm, moveTo_ne _ (worker w).symm]
    exact crew.uplink w alive
  workerIn w h within := by
    rw [moveTo_ne _ (worker w).symm] at within
    rw [moveTo_shared, life _ (worker w).symm, session]
    exact crew.workerIn w h within
  uplinkIn w h within := by
    rw [moveTo_ne _ (uplink w).symm] at within
    rw [moveTo_shared, life _ (uplink w).symm, session]
    exact crew.uplinkIn w h within

theorem life_exit {t t' : ThreadId} (other : t' ≠ t) : (n.exit t).life t' = n.life t' :=
  Function.update_of_ne other ..

theorem life_spawn {t t' : ThreadId} (other : t' ≠ t) : (n.spawn t).life t' = n.life t' :=
  Function.update_of_ne other ..

theorem scheduler_safe {k : Nat} {pc pc' : SchedulerPc} (sound : Sound st s.shared) (crew : Crew s)
    (alive : s.shared.life (.scheduler k) = .alive)
    (h : schedulerStep k pc s.shared a = some (pc', n')) :
    Sound st n' ∧ Crew (moveTo s (.scheduler k) pc' n') := by
  have admitted := sound.live _ alive
  simp only [Stage.admits, Bool.and_eq_true, beq_iff_eq] at admitted
  obtain ⟨up, rfl⟩ := admitted
  have aside := crew.aside (t := .scheduler s.shared.session) (l := pc') n' (by simp) (by simp)
    (by simp) (by simp)
  obtain ⟨c, -, h⟩ := Option.bind_eq_some_iff.mp h
  split at h
  · split at h
    · cases h
      exact ⟨sound, aside rfl rfl fun _ _ => rfl⟩
    · cases h
      exact ⟨sound.exit _, aside rfl rfl fun _ => life_exit⟩
  · cases h
    exact ⟨sound, aside rfl rfl fun _ _ => rfl⟩
  · split at h
    · cases h
      exact ⟨sound, aside rfl rfl fun _ _ => rfl⟩
    · cases h
      exact ⟨sound.push up _, aside rfl rfl fun _ _ => rfl⟩
  · cases h

theorem receiver_safe {k : Nat} {pc pc' : ReceiverPc} (sound : Sound st s.shared) (crew : Crew s)
    (alive : s.shared.life (.receiver k) = .alive)
    (h : receiverStep k pc s.shared a = some (pc', n')) :
    Sound st n' ∧ Crew (moveTo s (.receiver k) pc' n') := by
  have admitted := sound.live _ alive
  simp only [Stage.admits, Bool.and_eq_true, beq_iff_eq] at admitted
  obtain ⟨up, rfl⟩ := admitted
  have aside := crew.aside (t := .receiver s.shared.session) (l := pc') n' (by simp) (by simp)
    (by simp) (by simp)
  unfold receiverStep at h
  split at h
  · split at h
    · cases h
      exact ⟨sound, aside rfl rfl fun _ _ => rfl⟩
    · cases h
      exact ⟨sound.exit _, aside rfl rfl fun _ => life_exit⟩
  · split at h
    · next packet rest queue =>
        cases h
        exact ⟨sound.pop up queue, aside rfl rfl fun _ _ => rfl⟩
    · split at h
      · cases h
      · cases h
        exact ⟨sound, aside rfl rfl fun _ _ => rfl⟩
  · split at h
    · cases h
      exact ⟨sound, aside rfl rfl fun _ _ => rfl⟩
    · cases h
  · cases h

/-- The accept thread has moved. -/
theorem Crew.accepts {pc' : AcceptorPc} (crew : Crew s) (session : n'.session = s.shared.session)
    (listed : ∀ w, n'.life (.worker w) = .alive →
      Listed (moveTo s (.acceptor s.shared.session) pc' n') w)
    (taken : ∀ ws next, s.loc .ui ≠ UiPc.socks (.joinWorkers ws) next)
    (worker : ∀ w, s.shared.life (.worker w) = .alive → n'.life (.worker w) = .alive)
    (uplink : ∀ w, n'.life (.uplink w) = s.shared.life (.uplink w)) :
    Crew (moveTo s (.acceptor s.shared.session) pc' n') where
  listed := listed
  taken ws next at_ := absurd (by simpa using at_) (taken ws next)
  uplink w alive := by
    obtain ⟨up, joining⟩ := crew.uplink w (by simpa [uplink] using alive)
    exact ⟨worker w up, by simpa using joining⟩
  workerIn w h within := by
    obtain ⟨up, is⟩ := crew.workerIn w h (by simpa using within)
    exact ⟨worker w up, by simpa [session] using is⟩
  uplinkIn w h within := by
    simpa [session, uplink] using crew.uplinkIn w h (by simpa using within)

theorem acceptor_safe {k : Nat} {pc' : AcceptorPc} (sound : Sound st s.shared) (crew : Crew s)
    (at_ : st ∈ UiPc.stages (s.loc .ui)) (alive : s.shared.life (.acceptor k) = .alive)
    (h : acceptorStep k (s.loc (.acceptor k)) s.shared a = some (pc', n')) :
    Sound st n' ∧ Crew (moveTo s (.acceptor k) pc' n') := by
  have up_ := alive
  have admitted := sound.live _ alive
  simp only [Stage.admits, Bool.and_eq_true, beq_iff_eq] at admitted
  obtain ⟨up, rfl⟩ := admitted
  have notJoining (ws : List Nat) (next : Then) : s.loc .ui ≠ UiPc.socks (.joinWorkers ws) next := by
    intro is
    obtain rfl : st = .joining := by simpa [is, UiPc.stages] using at_
    cases up
  -- the worker in the hands of the thread apart, everything is listed as before
  have others (w : Nat) (held : s.loc (.acceptor s.shared.session) ≠ AcceptorPc.keep w)
      (alive : s.shared.life (.worker w) = .alive) :
      w ∈ s.shared.workerThreads s.shared.session := by
    rcases crew.listed w alive with mem | ⟨-, is⟩ | ⟨ws, next, is, -⟩
    · exact mem
    · exact absurd is held
    · exact absurd is (notJoining ws next)
  have idle (none_ : ∀ w, s.loc (.acceptor s.shared.session) ≠ AcceptorPc.keep w)
      (session : n'.session = s.shared.session) (threads : n'.workerThreads = s.shared.workerThreads)
      (life : ∀ t, t ≠ .acceptor s.shared.session → n'.life t = s.shared.life t) :
      Crew (moveTo s (.acceptor s.shared.session) pc' n') :=
    crew.accepts session
      (fun w alive => .inl (by
        rw [moveTo_shared, threads, session]
        exact others w (none_ w) (by rwa [life _ (by simp)] at alive)))
      notJoining (fun w alive => by rw [life _ (by simp)]; exact alive) fun w => life _ (by simp)
  generalize here : s.loc (.acceptor s.shared.session) = pc at h others idle
  unfold acceptorStep at h
  split at h
  · split at h
    · cases h
      exact ⟨sound, idle (by simp) rfl rfl fun _ _ => rfl⟩
    · cases h
      exact ⟨sound.exit _, idle (by simp) rfl rfl fun _ => life_exit⟩
  · cases h
    exact ⟨sound, idle (by simp) rfl rfl fun _ _ => rfl⟩
  · cases h
    exact ⟨sound, idle (by simp) rfl rfl fun _ _ => rfl⟩
  · split at h
    · cases h
      exact ⟨sound, idle (by simp) rfl rfl fun _ _ => rfl⟩
    · cases h
      exact ⟨sound.exit _, idle (by simp) rfl rfl fun _ => life_exit⟩
  · -- a new worker
    cases h
    have serves := Stage.serves_of_accepts up
    refine ⟨(Sound.spawn (t := .worker s.shared.nextWorker) (sound.nextWorker _) serves), ?_⟩
    refine crew.accepts rfl (fun w alive => ?_) notJoining (fun w alive => ?_) fun w => life_spawn (by simp)
    · by_cases new : w = s.shared.nextWorker
      · refine .inr (.inl ⟨?_, new ▸ moveTo_self ..⟩)
        rw [moveTo_shared, life_spawn (by simp)]
        exact up_
      · exact .inl (others w (by simp) (by rwa [life_spawn (by simpa using new)] at alive))
    · by_cases new : w = s.shared.nextWorker
      · rw [new]
        exact Function.update_self ..
      · rw [life_spawn (by simpa using new)]
        exact alive
  · cases h
    exact ⟨sound, idle (by simp) rfl rfl fun _ _ => rfl⟩
  · -- the worker goes into `workerThreads_`
    next w =>
    cases h
    refine ⟨sound.setWorkers _ _, crew.accepts rfl (fun w' alive => .inl ?_) notJoining (fun _ => id)
      fun _ => rfl⟩
    simp only [moveTo_shared, Process.setWorkers, Function.update_self, List.mem_append,
      List.mem_singleton]
    by_cases same : w' = w
    · exact .inr same
    · exact .inl (others w' (by simpa using Ne.symm same) alive)
  · cases h

/-- A thread that sends gets hold of the client of the running session only. -/
theorem sendStep_within {pc pc' : SendPc} (sound : Sound st n) (serves : st.serves = true)
    (h : sendStep n pc a = some pc') {k : Nat} (within : pc'.within = some k) : k = n.session := by
  have handle := sound.objects.handle
  rw [if_pos (by revert serves; cases st with | _ => simp)] at handle
  unfold sendStep at h
  split at h
  · cases h
    cases within
  · split at h
    · cases h
      cases within
    · cases h
      cases within
  · split at h
    · cases h
      cases within
    · cases h
      cases within
  · rw [handle] at h
    cases h
    cases within
    rfl
  · cases h
    cases within
  · cases h

/-- A worker has moved. -/
theorem Crew.works {w : Nat} {pc' : WorkerPc} (crew : Crew s) (session : n'.session = s.shared.session)
    (threads : n'.workerThreads = s.shared.workerThreads)
    (life : ∀ t, t ≠ .worker w → t ≠ .uplink w → n'.life t = s.shared.life t)
    (fewer : n'.life (.worker w) = .alive → s.shared.life (.worker w) = .alive)
    (uplink : n'.life (.uplink w) = .alive → n'.life (.worker w) = .alive ∧ pc' = .joining)
    (within : ∀ h, pc'.within = some h → n'.life (.worker w) = .alive ∧ h = s.shared.session)
    (uplinkIn : ∀ h, SendPc.within (s.loc (.uplink w)) = some h → n'.life (.uplink w) = .alive) :
    Crew (moveTo s (.worker w) pc' n') where
  listed w' alive := by
    have alive' : s.shared.life (.worker w') = .alive := by
      by_cases same : w' = w
      · subst same
        exact fewer alive
      · rwa [moveTo_shared, life _ (by simpa using same) (by simp)] at alive
    rcases crew.listed w' alive' with mem | held | ⟨ws, next, at_, mem⟩
    · exact .inl (by simpa [threads, session] using mem)
    · refine .inr (.inl ?_)
      rw [moveTo_shared, session, life _ (by simp) (by simp), moveTo_ne _ (by simp)]
      exact held
    · exact .inr (.inr ⟨ws, next, by simpa using at_, mem⟩)
  taken ws next at_ := by
    rw [moveTo_shared, threads, session]
    exact crew.taken ws next (by simpa using at_)
  uplink w' alive := by
    by_cases same : w' = w
    · subst same
      simpa using uplink alive
    · rw [moveTo_shared, life _ (by simp) (by simpa using same)] at alive
      rw [moveTo_shared, life _ (by simpa using same) (by simp), moveTo_ne _ (by simpa using same)]
      exact crew.uplink w' alive
  workerIn w' h is := by
    by_cases same : w' = w
    · subst same
      rw [moveTo_self] at is
      simpa [session] using within h is
    · rw [moveTo_ne _ (by simpa using same)] at is
      rw [moveTo_shared, life _ (by simpa using same) (by simp), session]
      exact crew.workerIn w' h is
  uplinkIn w' h is := by
    rw [moveTo_ne _ (by simp)] at is
    by_cases same : w' = w
    · subst same
      exact ⟨uplinkIn h is, by simpa [session] using (crew.uplinkIn w' h is).2⟩
    · rw [moveTo_shared, life _ (by simp) (by simpa using same), session]
      exact crew.uplinkIn w' h is

theorem worker_safe {w : Nat} {pc' : WorkerPc} (sound : Sound st s.shared) (crew : Crew s)
    (alive : s.shared.life (.worker w) = .alive)
    (h : workerStep w (s.loc (.worker w)) s.shared a = some (pc', n')) :
    Sound st n' ∧ Crew (moveTo s (.worker w) pc' n') := by
  have serves : st.serves = true := sound.live _ alive
  have uplink (off : s.loc (.worker w) ≠ WorkerPc.joining) : s.shared.life (.uplink w) ≠ .alive :=
    fun up => off (crew.uplink w up).2
  have stays (off : s.loc (.worker w) ≠ WorkerPc.joining)
      (within : ∀ h, pc'.within = some h → h = s.shared.session) :
      Crew (moveTo s (.worker w) pc' s.shared) :=
    crew.works rfl rfl (fun _ _ _ => rfl) id (fun up => absurd up (uplink off))
      (fun h is => ⟨alive, within h is⟩) fun h is => (crew.uplinkIn w h is).1
  have ends (off : s.loc (.worker w) ≠ WorkerPc.joining) (out : pc'.within = none) :
      Crew (moveTo s (.worker w) pc' (s.shared.exit (.worker w))) :=
    crew.works rfl rfl (fun _ other _ => life_exit other) (fun _ => alive)
      (fun up => absurd (by rwa [life_exit (by simp)] at up) (uplink off))
      (fun h is => by rw [out] at is; cases is)
      fun h is => absurd (crew.uplinkIn w h is).1 (uplink off)
  generalize here : s.loc (.worker w) = pc at h uplink stays ends
  unfold workerStep at h
  split at h
  · cases h
    exact ⟨sound.exit _, ends (by simp) rfl⟩
  · -- the uplink thread is started
    cases h
    refine ⟨sound.spawn serves, crew.works rfl rfl (fun _ _ other => life_spawn other) (fun _ => alive)
      (fun _ => ⟨?_, rfl⟩) (fun h is => by cases is) fun h is => Function.update_self ..⟩
    rw [life_spawn (by simp)]
    exact alive
  · obtain ⟨pc'', step, same⟩ := Option.map_eq_some_iff.mp h
    cases same
    exact ⟨sound, stays (by simp) fun k is => sendStep_within sound serves step is⟩
  · split at h
    · next joined =>
        cases h
        refine ⟨sound, crew.works rfl rfl (fun _ _ _ => rfl) id
          (fun up => absurd up (not_alive_of_joined joined)) (fun h is => by cases is)
          fun h is => (crew.uplinkIn w h is).1⟩
    · cases h
  · cases h
    exact ⟨sound.exit _, ends (by simp) rfl⟩
  · obtain ⟨pc'', step, same⟩ := Option.map_eq_some_iff.mp h
    cases same
    exact ⟨sound, stays (by simp) fun k is => sendStep_within sound serves step is⟩
  · cases h

theorem uplink_safe {w : Nat} {pc pc' : SendPc} (sound : Sound st s.shared) (crew : Crew s)
    (alive : s.shared.life (.uplink w) = .alive) (h : uplinkStep w pc s.shared a = some (pc', n')) :
    Sound st n' ∧ Crew (moveTo s (.uplink w) pc' n') := by
  have serves : st.serves = true := sound.live _ alive
  have same {n' : Process} (session : n'.session = s.shared.session)
      (threads : n'.workerThreads = s.shared.workerThreads)
      (life : ∀ t, t ≠ .uplink w → n'.life t = s.shared.life t)
      (within : ∀ h, pc'.within = some h → n'.life (.uplink w) = .alive ∧ h = s.shared.session) :
      Crew (moveTo s (.uplink w) pc' n') := by
    refine ⟨fun w' up => ?_, fun ws next is => ?_, fun w' up => ?_, fun w' k is => ?_, fun w' k is => ?_⟩
    · rw [moveTo_shared, life _ (by simp)] at up
      rcases crew.listed w' up with mem | held | ⟨ws, next, is, mem⟩
      · exact .inl (by simpa [threads, session] using mem)
      · refine .inr (.inl ?_)
        rw [moveTo_shared, session, life _ (by simp), moveTo_ne _ (by simp)]
        exact held
      · exact .inr (.inr ⟨ws, next, by simpa using is, mem⟩)
    · rw [moveTo_shared, threads, session]
      exact crew.taken ws next (by simpa using is)
    · have up' : s.shared.life (.uplink w') = .alive := by
        by_cases mine : w' = w
        · subst mine
          exact alive
        · rwa [moveTo_shared, life _ (by simpa using mine)] at up
      rw [moveTo_shared, life _ (by simp), moveTo_ne _ (by simp)]
      exact crew.uplink w' up'
    · rw [moveTo_shared, life _ (by simp), session]
      exact crew.workerIn w' k (by simpa using is)
    · by_cases mine : w' = w
      · subst mine
        rw [moveTo_self] at is
        simpa [session] using within k is
      · rw [moveTo_ne _ (by simpa using mine)] at is
        rw [moveTo_shared, life _ (by simpa using mine), session]
        exact crew.uplinkIn w' k is
  unfold uplinkStep at h
  split at h
  · cases h
    exact ⟨sound.exit _, same rfl rfl (fun _ => life_exit) fun h is => by cases is⟩
  · obtain ⟨pc'', step, eq⟩ := Option.map_eq_some_iff.mp h
    cases eq
    exact ⟨sound, same rfl rfl (fun _ _ => rfl) fun k is =>
      ⟨alive, sendStep_within sound serves step is⟩⟩

end Steps

/-! ### Runs -/

section Runs

variable {s : State}

theorem safe_initial : Safe initial := by
  have objects : Objects .down initial.shared := by
    constructor
    all_goals simp [initial]
  have packets : Packets .down initial.shared := by
    constructor
    all_goals simp [initial, Process.pulledBy, Process.arrivedAt]
  have live : Admitted .down initial.shared := by
    intro t alive
    cases alive
  refine ⟨⟨.down, by simp [initial, initialLocal, UiPc.stages], live, objects, packets⟩, ?_⟩
  refine ⟨fun w alive => ?_, fun ws next is => ?_, fun w alive => ?_, fun w k is => ?_,
    fun w k is => ?_⟩
  · cases alive
  · cases is
  · cases alive
  · cases is
  · cases is

/-- **Every state of every run is safe.** -/
theorem safe_of_reach (h : Reaches s) : Safe s := by
  refine Reach.invariant (I := Safe) safe_initial ?_ h
  rintro s s' t a - ⟨⟨st, at_, sound⟩, crew⟩ - next
  obtain ⟨l, n, step, rfl⟩ := Machine.next_eq_some next
  change Safe (moveTo s t l n)
  have keeps (other : t ≠ .ui) (both : Sound st n ∧ Crew (moveTo s t l n)) : Safe (moveTo s t l n) :=
    ⟨⟨st, by rwa [moveTo_ne _ other.symm], both.1⟩, both.2⟩
  cases t with
  | ui =>
      have left (next : Then) (is : s.loc .ui = UiPc.socks (.joinWorkers []) next) (w : Nat) :
          s.shared.life (.worker w) ≠ .alive ∧ s.shared.life (.uplink w) ≠ .alive := by
        obtain rfl : st = .joining := by simpa [is, UiPc.stages] using at_
        exact crew.left sound is w
      obtain ⟨st', at', sound'⟩ := sound.ui at_ left step
      exact ⟨⟨st', by rwa [moveTo_self], sound'⟩, crew.ui at_ sound step⟩
  | scheduler k =>
      obtain ⟨alive, step⟩ := Option.ite_none_right_eq_some.mp step
      exact keeps (by simp) (scheduler_safe sound crew alive step)
  | receiver k =>
      obtain ⟨alive, step⟩ := Option.ite_none_right_eq_some.mp step
      exact keeps (by simp) (receiver_safe sound crew alive step)
  | acceptor k =>
      obtain ⟨alive, step⟩ := Option.ite_none_right_eq_some.mp step
      exact keeps (by simp) (acceptor_safe sound crew at_ alive step)
  | worker w =>
      obtain ⟨alive, step⟩ := Option.ite_none_right_eq_some.mp step
      exact keeps (by simp) (worker_safe sound crew alive step)
  | uplink w =>
      obtain ⟨alive, step⟩ := Option.ite_none_right_eq_some.mp step
      exact keeps (by simp) (uplink_safe sound crew alive step)

/-- The client in whose `send` a thread is. -/
def sendsThrough (s : State) : ThreadId → Option Nat
  | .worker w => WorkerPc.within (s.loc (.worker w))
  | .uplink w => SendPc.within (s.loc (.uplink w))
  | _ => none

/-- **A packet is sent through a client that is there.** In every run, whenever a thread is in
`TonAdnlClientRuntime::send`, the client is that of the running session, and it was neither
deleted nor told to stop. -/
theorem sends_reach_running_client (h : Reaches s) {t : ThreadId} {k : Nat}
    (sends : sendsThrough s t = some k) :
    k = s.shared.session ∧ ∃ c, s.shared.clients k = some c ∧ c.running = true := by
  obtain ⟨⟨st, -, sound⟩, crew⟩ := safe_of_reach h
  obtain ⟨serves, rfl⟩ : st.serves = true ∧ k = s.shared.session := by
    cases t with
    | worker w =>
        obtain ⟨alive, is⟩ := crew.workerIn w k sends
        exact ⟨sound.live _ alive, is⟩
    | uplink w =>
        obtain ⟨alive, is⟩ := crew.uplinkIn w k sends
        exact ⟨sound.live _ alive, is⟩
    | _ => cases sends
  have runs := Stage.runs_of_core (Stage.core_of_serves serves)
  obtain ⟨c, made⟩ := Option.isSome_iff_exists.mp
    ((sound.objects.clients s.shared.session).mpr ⟨Stage.client_of_schedules (by
      revert runs; cases st with | _ => simp), rfl⟩)
  exact ⟨rfl, c, made, sound.objects.runs runs c made⟩

/-- START, and a connection whose worker is in `send`. -/
def sendingRun : List (ThreadId × Act) :=
  List.flatten [[(.ui, .press true)], List.replicate 12 (.ui, .go),
    List.replicate 4 (.acceptor 1, .go), [(.worker 0, .send)], List.replicate 3 (.worker 0, .go)]

theorem sends_reach_running_client_first :
    ∃ c, (machine.run initial sendingRun).shared.clients 1 = some c ∧ c.running = true := by
  have follows : machine.follows (fun _ _ _ => true) initial sendingRun = true := by decide +kernel
  exact (sends_reach_running_client (Reach.run follows).any (t := .worker 0) (k := 1)
    (by decide +kernel)).2

/-- **No packet crosses from one session to another.** What the receiver of a core has taken is
in every run the beginning of what the client of the same START has received; and while the core
runs, the rest is in the queue. -/
theorem packets_stay_in_session (h : Reaches s) :
    (∀ k, s.shared.pulledBy k <+: s.shared.arrivedAt k) ∧
      ∀ k, s.shared.core = some k →
        s.shared.arrivedAt k = s.shared.pulledBy k ++ s.shared.queue := by
  obtain ⟨⟨st, -, sound⟩, -⟩ := safe_of_reach h
  refine ⟨sound.packets.inOrder, fun k is => ?_⟩
  have core := sound.objects.core
  rw [is] at core
  split at core
  · next up =>
      cases core
      exact sound.packets.whole (Stage.keeps_of_core up)
  · cases core

/-- START, two messages, and the receiver takes the first. -/
def receivingRun : List (ThreadId × Act) :=
  List.flatten [[(.ui, .press true)], List.replicate 12 (.ui, .go),
    [(.scheduler 1, .go), (.scheduler 1, .message [1]), (.scheduler 1, .message [2])],
    List.replicate 2 (.receiver 1, .go)]

theorem packets_stay_in_session_receiving :
    (machine.run initial receivingRun).shared.pulledBy 1 <+:
        (machine.run initial receivingRun).shared.arrivedAt 1 ∧
      (machine.run initial receivingRun).shared.arrivedAt 1 = [(1, [1]), (1, [2])] ∧
      (machine.run initial receivingRun).shared.queue = [(1, [2])] := by
  have follows : machine.follows (fun _ _ _ => true) initial receivingRun = true := by
    decide +kernel
  exact ⟨(packets_stay_in_session (Reach.run follows).any).1 1, by decide +kernel,
    by decide +kernel⟩

/-- **STOP takes everything down.** When the window waits and there is no client, every thread that
was started has ended, every client is deleted, no core and no server is left, and the queue is
empty. -/
theorem stopped_is_clean (h : Reaches s) (waits : s.loc .ui = UiPc.waiting)
    (none_ : s.shared.handle = none) :
    (∀ t, s.shared.life t ≠ .alive) ∧ (∀ k, s.shared.clients k = none) ∧ s.shared.core = none ∧
      s.shared.socks = none ∧ s.shared.queue = [] := by
  obtain ⟨⟨st, at_, sound⟩, -⟩ := safe_of_reach h
  obtain rfl : st = .down := by
    have handle := sound.objects.handle
    rw [waits] at at_
    simp only [UiPc.stages, List.mem_cons, List.not_mem_nil, or_false] at at_
    rcases at_ with rfl | rfl
    · rfl
    · rw [none_] at handle
      cases handle
  refine ⟨fun t alive => ?_, fun k => ?_, sound.objects.core, sound.objects.noSocks rfl (by decide),
    sound.packets.empty (.inl rfl)⟩
  · have admitted := sound.live t alive
    cases t with | _ => cases admitted
  · have made := sound.objects.clients k
    simpa using made

/-- START, a connection, and STOP. -/
def stoppingRun : List (ThreadId × Act) :=
  List.flatten [[(.ui, .press true)], List.replicate 12 (.ui, .go),
    List.replicate 4 (.acceptor 1, .go),
    [(.worker 0, .fails), (.ui, .press false), (.ui, .go), (.acceptor 1, .go)],
    List.replicate 6 (.ui, .go), [(.receiver 1, .go)], List.replicate 6 (.ui, .go),
    [(.scheduler 1, .go)], List.replicate 6 (.ui, .go)]

theorem stopped_is_clean_stopping :
    (∀ t, (machine.run initial stoppingRun).shared.life t ≠ .alive) ∧
      ∀ k, (machine.run initial stoppingRun).shared.clients k = none := by
  have follows : machine.follows (fun _ _ _ => true) initial stoppingRun = true := by decide +kernel
  have clean := stopped_is_clean (Reach.run follows).any (by decide +kernel) (by decide +kernel)
  exact ⟨clean.1, clean.2.1⟩

end Runs

end TonTunnel.Sessions
