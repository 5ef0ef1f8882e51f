import TonTunnel.App.Sessions

/-!
How far the desktop application has come in its START or STOP.

The thread of the window goes through stages. A stage says which objects there are
and which threads may be alive, and where the queue stands (`Sound`). Every line of
the window's thread leads from one stage to the next (`Sound.ui`), and what the other
threads do keeps them where they are. What the joins of the workers need is taken
from outside (`left`), for it depends on where the threads stand.
-/

namespace TonTunnel.Sessions

open Interleaving

/-! ### The stages -/

/-- How far START or STOP has come. -/
inductive Stage where
  | down
  /-- the client is gone, what it left in the queue is not -/
  | gone
  /-- made, not started -/
  | made
  /-- the client runs -/
  | starting
  /-- and `g_adnlStarted` is set -/
  | started
  /-- the core runs -/
  | receiving
  /-- there is a server that does not run -/
  | unserved
  /-- the server runs -/
  | serving
  /-- the server was told to stop -/
  | draining
  /-- its accept thread has ended -/
  | joining
  /-- the core was told to stop -/
  | deaf
  /-- its receiver thread has ended -/
  | quiet
  | releasing
  /-- the client was told to stop -/
  | stopping
  /-- its scheduler thread has ended -/
  | stopped
  | deleted
  deriving DecidableEq, Repr

namespace Stage

@[simp] def handle : Stage → Bool
  | .down | .gone => false
  | _ => true

@[simp] def client : Stage → Bool
  | .down | .gone | .deleted => false
  | _ => true

/-- The client runs. -/
@[simp] def runs : Stage → Bool
  | .down | .gone | .made | .stopping | .stopped | .deleted => false
  | _ => true

@[simp] def schedules : Stage → Bool
  | .down | .gone | .made | .stopped | .deleted => false
  | _ => true

@[simp] def core : Stage → Bool
  | .receiving | .unserved | .serving | .draining | .joining | .deaf | .quiet => true
  | _ => false

@[simp] def coreRuns : Stage → Bool
  | .receiving | .unserved | .serving | .draining | .joining => true
  | _ => false

@[simp] def receives : Stage → Bool
  | .receiving | .unserved | .serving | .draining | .joining | .deaf => true
  | _ => false

@[simp] def accepts : Stage → Bool
  | .serving | .draining => true
  | _ => false

@[simp] def serves : Stage → Bool
  | .serving | .draining | .joining => true
  | _ => false

/-- Nothing was cleared out of the queue since the client was made. -/
@[simp] def keeps : Stage → Bool
  | .made | .starting | .started => true
  | st => st.core

/-- The threads that may be alive, in the session `k`. -/
def admits (st : Stage) (k : Nat) : ThreadId → Bool
  | .ui => false
  | .scheduler j => st.schedules && j == k
  | .receiver j => st.receives && j == k
  | .acceptor j => st.accepts && j == k
  | .worker _ | .uplink _ => st.serves

variable {st : Stage}

theorem client_of_schedules (h : st.schedules = true) : st.client = true := by
  cases st with | _ => simp_all

theorem core_of_receives (h : st.receives = true) : st.core = true := by
  cases st with | _ => simp_all

theorem keeps_of_core (h : st.core = true) : st.keeps = true := by
  cases st with | _ => simp_all

theorem runs_of_core (h : st.core = true) : st.runs = true := by
  cases st with | _ => simp_all

theorem core_of_serves (h : st.serves = true) : st.core = true := by
  cases st with | _ => simp_all

theorem serves_of_accepts (h : st.accepts = true) : st.serves = true := by
  cases st with | _ => simp_all

end Stage

@[simp] def SocksPc.stages : SocksPc → List Stage
  | .stop => [.down, .unserved, .serving]
  | .joinAcceptor => [.draining]
  | .takeWorkers | .joinWorkers _ => [.joining]
  | .reset => [.unserved]

@[simp] def CorePc.stages : CorePc → List Stage
  | .stop => [.down, .receiving]
  | .joinReceiver => [.deaf]
  | .reset => [.quiet]

/-- The backend of a core takes its client down. -/
@[simp] def ReleasePc.backendStages : ReleasePc → List Stage
  | .joinScheduler => [.stopping]
  | .destroy => [.stopped]
  | .forget => [.deleted]
  | .unset | .clear | .testHandle | .stop => [.releasing]

/-- Elsewhere there is no client left to take down. -/
@[simp] def ReleasePc.otherStages : ReleasePc → List Stage
  | .unset | .clear => [.gone]
  | .testHandle => [.down]
  | .stop | .joinScheduler | .destroy | .forget => []

@[simp] def StartPc.stages : StartPc → List Stage
  | .loadConfig | .create => [.down]
  | .subscribe | .startClient => [.made]
  | .setStarted => [.starting]
  | .startCore => [.started]
  | .startSocks => [.receiving]

/-- The stages that a line of the window's thread is run in. -/
def UiPc.stages : UiPc → List Stage
  | .waiting => [.down, .serving]
  | .socks pc _ => pc.stages
  | .core pc _ => pc.stages
  | .release pc (.backend _) => pc.backendStages
  | .release pc (.own _) | .release pc .failed => pc.otherStages
  | .start pc => pc.stages

/-! ### What a stage says -/

/-- What the receiver of core `k` took. -/
def Process.pulledBy (n : Process) (k : Nat) : List (Nat × Bytes) :=
  (n.pulled.filter fun p => p.1 = k).map Prod.snd

/-- What client `k` received. -/
def Process.arrivedAt (n : Process) (k : Nat) : List (Nat × Bytes) := n.arrived.filter fun p => p.1 = k

/-- The objects of a stage. -/
structure Objects (st : Stage) (n : Process) : Prop where
  handle : n.handle = if st.handle then some n.session else none
  clients (k : Nat) : (n.clients k).isSome = true ↔ st.client = true ∧ k = n.session
  runs : st.runs = true → ∀ c, n.clients n.session = some c → c.running = true
  started : st.core = true ∨ st = .started → n.started = true
  core : n.core = if st.core then some n.session else none
  coreRuns : st.coreRuns = true → n.coreRunning n.session = true
  socks : st.serves = true → n.socks = some n.session ∧ n.socksRunning n.session = (st == .serving)
  unserved : st = .unserved → n.socks = some n.session ∧ n.socksRunning n.session = false
  noSocks : st.serves = false → st ≠ .unserved → n.socks = none

/-- The queue and its history. -/
structure Packets (st : Stage) (n : Process) : Prop where
  tags : ∀ p ∈ n.queue, p.1 = n.session
  empty : st = .down ∨ st = .made → n.queue = []
  arrived : ∀ p ∈ n.arrived, p.1 ≤ n.session
  pulled : ∀ p ∈ n.pulled, p.1 ≤ n.session
  inOrder (k : Nat) : n.pulledBy k <+: n.arrivedAt k
  whole : st.keeps = true → n.arrivedAt n.session = n.pulledBy n.session ++ n.queue

/-- Only threads that the stage admits are alive. -/
def Admitted (st : Stage) (n : Process) : Prop :=
  ∀ t, n.life t = .alive → st.admits n.session t = true

structure Sound (st : Stage) (n : Process) : Prop where
  live : Admitted st n
  objects : Objects st n
  packets : Packets st n

/-! ### The thread of the window -/

section Window

variable {st st' : Stage} {n n' : Process} {pc pc' : UiPc} {a : Act}

theorem Packets.same (h : Packets st n) (session : n'.session = n.session)
    (queue : n'.queue = n.queue) (arrived : n'.arrived = n.arrived) (pulled : n'.pulled = n.pulled)
    (empty : st' = .down ∨ st' = .made → st = .down ∨ st = .made)
    (keeps : st'.keeps = true → st.keeps = true) : Packets st' n' where
  tags := by rw [queue, session]; exact h.tags
  empty is := by rw [queue]; exact h.empty (empty is)
  arrived := by rw [arrived, session]; exact h.arrived
  pulled := by rw [pulled, session]; exact h.pulled
  inOrder k := by simp only [Process.pulledBy, Process.arrivedAt, pulled, arrived]; exact h.inOrder k
  whole is := by
    simp only [Process.pulledBy, Process.arrivedAt, pulled, arrived, queue, session]
    exact h.whole (keeps is)

/-- The queue is emptied when the client is as good as gone. -/
theorem Packets.cleared (h : Packets st n) (drops : st'.keeps = false) :
    Packets st' { n with queue := [] } where
  tags := by simp
  empty _ := rfl
  arrived := h.arrived
  pulled := h.pulled
  inOrder := h.inOrder
  whole is := by
    rw [drops] at is
    cases is

/-- A new client has received nothing. -/
theorem Packets.create (h : Packets .down n) {n' : Process} (session : n'.session = n.session + 1)
    (queue : n'.queue = n.queue) (arrived : n'.arrived = n.arrived) (pulled : n'.pulled = n.pulled) :
    Packets .made n' where
  tags := by rw [queue, h.empty (.inl rfl)]; simp
  empty _ := by rw [queue]; exact h.empty (.inl rfl)
  arrived p mem := by rw [session]; exact (h.arrived p (arrived ▸ mem)).trans (Nat.le_succ _)
  pulled p mem := by rw [session]; exact (h.pulled p (pulled ▸ mem)).trans (Nat.le_succ _)
  inOrder k := by simp only [Process.pulledBy, Process.arrivedAt, pulled, arrived]; exact h.inOrder k
  whole _ := by
    have none_ : n'.arrivedAt (n.session + 1) = [] := by
      refine List.filter_eq_nil_iff.mpr fun p mem => ?_
      have := h.arrived p (arrived ▸ mem)
      simp; omega
    have none' : n'.pulledBy (n.session + 1) = [] := by
      refine List.map_eq_nil_iff.mpr (List.filter_eq_nil_iff.mpr fun p mem => ?_)
      have := h.pulled p (pulled ▸ mem)
      simp; omega
    rw [session, none_, none', queue, h.empty (.inl rfl), List.append_nil]

/-- Threads have ended. -/
theorem Admitted.fewer (h : Admitted st n) (session : n'.session = n.session)
    (life : n'.life = n.life)
    (scheduler : st.schedules = true → st'.schedules = true ∨ n.life (.scheduler n.session) ≠ .alive)
    (receiver : st.receives = true → st'.receives = true ∨ n.life (.receiver n.session) ≠ .alive)
    (acceptor : st.accepts = true → st'.accepts = true ∨ n.life (.acceptor n.session) ≠ .alive)
    (workers : st.serves = true → st'.serves = true ∨
      ∀ w, n.life (.worker w) ≠ .alive ∧ n.life (.uplink w) ≠ .alive) :
    Admitted st' n' := by
  intro t alive
  rw [life] at alive
  rw [session]
  have before := h t alive
  cases t with
  | ui => exact before
  | scheduler k =>
      simp only [Stage.admits, Bool.and_eq_true, beq_iff_eq] at before ⊢
      obtain ⟨up, rfl⟩ := before
      exact ⟨(scheduler up).resolve_right (not_not_intro alive), rfl⟩
  | receiver k =>
      simp only [Stage.admits, Bool.and_eq_true, beq_iff_eq] at before ⊢
      obtain ⟨up, rfl⟩ := before
      exact ⟨(receiver up).resolve_right (not_not_intro alive), rfl⟩
  | acceptor k =>
      simp only [Stage.admits, Bool.and_eq_true, beq_iff_eq] at before ⊢
      obtain ⟨up, rfl⟩ := before
      exact ⟨(acceptor up).resolve_right (not_not_intro alive), rfl⟩
  | worker w => exact (workers before).resolve_right fun none_ => (none_ w).1 alive
  | uplink w => exact (workers before).resolve_right fun none_ => (none_ w).2 alive

/-- A thread is started. -/
theorem Admitted.spawn {t : ThreadId} (h : Admitted st n) (new : st'.admits n.session t = true)
    (session : n'.session = n.session) (life : n'.life = Function.update n.life t .alive)
    (keeps : ∀ t, st.admits n.session t = true → st'.admits n.session t = true) :
    Admitted st' n' := by
  intro t' alive
  rw [session]
  by_cases same : t' = t
  · subst same
    exact new
  · rw [life, Function.update_of_ne same] at alive
    exact keeps t' (h t' alive)

theorem not_alive_of_joined {t : ThreadId} (h : n.joined t = true) : n.life t ≠ .alive := by
  simpa [Process.joined] using h

/-- A step to another stage in which only objects change. -/
theorem Sound.moves (sound : Sound st n) (objects : Objects st' n') (session : n'.session = n.session)
    (life : n'.life = n.life) (queue : n'.queue = n.queue) (arrived : n'.arrived = n.arrived)
    (pulled : n'.pulled = n.pulled)
    (scheduler : st.schedules = true → st'.schedules = true ∨ n.life (.scheduler n.session) ≠ .alive)
    (receiver : st.receives = true → st'.receives = true ∨ n.life (.receiver n.session) ≠ .alive)
    (acceptor : st.accepts = true → st'.accepts = true ∨ n.life (.acceptor n.session) ≠ .alive)
    (workers : st.serves = true → st'.serves = true ∨
      ∀ w, n.life (.worker w) ≠ .alive ∧ n.life (.uplink w) ≠ .alive)
    (empty : st' = .down ∨ st' = .made → st = .down ∨ st = .made)
    (keeps : st'.keeps = true → st.keeps = true) : Sound st' n' where
  live := sound.live.fewer session life scheduler receiver acceptor workers
  objects := objects
  packets := sound.packets.same session queue arrived pulled empty keeps

/-- The client is replaced. -/
theorem clients_setClient {c : Option Client} {b b' : Bool}
    (clients : ∀ k, (n.clients k).isSome = true ↔ b = true ∧ k = n.session) (is : c.isSome = b')
    (k : Nat) : ((n.setClient n.session c).clients k).isSome = true ↔ b' = true ∧ k = n.session := by
  by_cases same : k = n.session
  · simp [Process.setClient, same, is]
  · simp only [Process.setClient, Function.update_of_ne same, clients k, same, and_false]

/-- The end of `LocalSocks5Server`. -/
theorem Sound.socks {pc : SocksPc} {pc' : Option SocksPc} {next : Then} (sound : Sound st n)
    (at_ : st ∈ (UiPc.socks pc next).stages)
    (left : pc = .joinWorkers [] → ∀ w, n.life (.worker w) ≠ .alive ∧ n.life (.uplink w) ≠ .alive)
    (h : socksStep pc n = some (pc', n')) :
    ∃ st' ∈ (pc'.elim (UiPc.core .stop next) fun pc => .socks pc next).stages, Sound st' n' := by
  obtain ⟨handle, clients, runs, started, core, coreRuns, socks, unserved, noSocks⟩ := sound.objects
  cases pc with
  | stop =>
      simp only [UiPc.stages, SocksPc.stages, List.mem_cons, List.not_mem_nil, or_false] at at_
      rcases at_ with rfl | rfl | rfl
      · simp only [socksStep, noSocks rfl (by decide)] at h
        cases h
        exact ⟨.down, by simp [UiPc.stages], sound⟩
      · simp only [socksStep, unserved rfl, Bool.false_eq_true, if_false] at h
        cases h
        exact ⟨.unserved, by simp [UiPc.stages], sound⟩
      · have running := (socks rfl).2
        simp only [socksStep, (socks rfl).1, running, beq_self_eq_true, if_true] at h
        cases h
        refine ⟨.draining, by simp [UiPc.stages], sound.moves ?_ rfl rfl rfl rfl rfl ?_ ?_ ?_ ?_ ?_ ?_⟩
        all_goals try simp
        constructor <;> simp_all [Process.setSocksRunning]
  | joinAcceptor =>
      obtain rfl : st = .draining := by simpa [UiPc.stages] using at_
      simp only [socksStep, (socks rfl).1, Option.bind_some] at h
      split at h
      · next joined =>
          cases h
          refine ⟨.joining, by simp [UiPc.stages], sound.moves ?_ rfl rfl rfl rfl rfl ?_ ?_ ?_ ?_ ?_ ?_⟩
          case refine_4 => exact fun _ => .inr (not_alive_of_joined joined)
          all_goals try simp
          constructor <;> simp_all
      · cases h
  | takeWorkers =>
      obtain rfl : st = .joining := by simpa [UiPc.stages] using at_
      simp only [socksStep, (socks rfl).1, Option.map_some] at h
      cases h
      refine ⟨.joining, by simp [UiPc.stages], sound.moves ?_ rfl rfl rfl rfl rfl ?_ ?_ ?_ ?_ ?_ ?_⟩
      all_goals try simp
      constructor <;> simp_all [Process.setWorkers]
  | joinWorkers ws =>
      obtain rfl : st = .joining := by simpa [UiPc.stages] using at_
      cases ws with
      | nil =>
          cases h
          refine ⟨.unserved, by simp [UiPc.stages], sound.moves ?_ rfl rfl rfl rfl rfl ?_ ?_ ?_ ?_ ?_ ?_⟩
          case refine_5 => exact fun _ => .inr (left rfl)
          all_goals try simp
          constructor <;> simp_all
      | cons w ws =>
          simp only [socksStep] at h
          split at h
          · cases h
            exact ⟨.joining, by simp [UiPc.stages], sound⟩
          · cases h
  | reset =>
      obtain rfl : st = .unserved := by simpa [UiPc.stages] using at_
      cases h
      refine ⟨.receiving, by simp [UiPc.stages], sound.moves ?_ rfl rfl rfl rfl rfl ?_ ?_ ?_ ?_ ?_ ?_⟩
      all_goals try simp
      constructor <;> simp_all

/-- The end of `TonClientCore`. -/
theorem Sound.core {pc : CorePc} {next : Then} (sound : Sound st n)
    (at_ : st ∈ (UiPc.core pc next).stages) (h : coreStep pc next n = some (pc', n')) :
    ∃ st' ∈ pc'.stages, Sound st' n' := by
  obtain ⟨handle, clients, runs, started, core, coreRuns, socks, unserved, noSocks⟩ := sound.objects
  cases pc with
  | stop =>
      simp only [UiPc.stages, CorePc.stages, List.mem_cons, List.not_mem_nil, or_false] at at_
      rcases at_ with rfl | rfl
      · simp only [coreStep, core, Stage.core, Bool.false_eq_true, if_false] at h
        cases h
        refine ⟨.gone, by simp [UiPc.stages], sound.moves ?_ rfl rfl rfl rfl rfl ?_ ?_ ?_ ?_ ?_ ?_⟩
        all_goals try simp
        constructor <;> simp_all
      · simp only [coreStep, core, Stage.core, if_true, coreRuns rfl] at h
        cases h
        refine ⟨.deaf, by simp [UiPc.stages], sound.moves ?_ rfl rfl rfl rfl rfl ?_ ?_ ?_ ?_ ?_ ?_⟩
        all_goals try simp
        constructor <;> simp_all [Process.setCoreRunning]
  | joinReceiver =>
      obtain rfl : st = .deaf := by simpa [UiPc.stages] using at_
      simp only [coreStep, core, Stage.core, if_true, Option.bind_some] at h
      split at h
      · next joined =>
          cases h
          refine ⟨.quiet, by simp [UiPc.stages], sound.moves ?_ rfl rfl rfl rfl rfl ?_ ?_ ?_ ?_ ?_ ?_⟩
          case refine_3 => exact fun _ => .inr (not_alive_of_joined joined)
          all_goals try simp
          constructor <;> simp_all
      · cases h
  | reset =>
      obtain rfl : st = .quiet := by simpa [UiPc.stages] using at_
      cases h
      refine ⟨.releasing, by simp [UiPc.stages], sound.moves ?_ rfl rfl rfl rfl rfl ?_ ?_ ?_ ?_ ?_ ?_⟩
      all_goals try simp
      constructor <;> simp_all

theorem Sound.gone (sound : Sound .down n) : Sound .gone n := by
  obtain ⟨handle, clients, runs, started, core, coreRuns, socks, unserved, noSocks⟩ := sound.objects
  refine sound.moves ?_ rfl rfl rfl rfl rfl ?_ ?_ ?_ ?_ ?_ ?_
  all_goals try simp
  constructor <;> simp_all

/-- Behind the last line of a release. -/
theorem Sound.resume (sound : Sound .down n) {r : Release} (later : ∀ next, r ≠ .backend next) :
    ∃ st' ∈ r.resume.stages, Sound st' n := by
  cases r with
  | backend next => exact absurd rfl (later next)
  | own next =>
      cases next with
      | wait | start => exact ⟨.down, by simp [Release.resume, UiPc.stages], sound⟩
      | drop => exact ⟨.gone, by simp [Release.resume, UiPc.stages], sound.gone⟩
  | failed => exact ⟨.down, by simp [Release.resume, UiPc.stages], sound⟩

/-- The end of the client of a core. -/
theorem Sound.releaseBackend {pc : ReleasePc} {pc' : Option ReleasePc} {next : Then} (sound : Sound st n)
    (at_ : st ∈ (UiPc.release pc (.backend next)).stages) (h : releaseStep pc n = some (pc', n')) :
    ∃ st' ∈ (pc'.elim (Release.backend next).resume fun pc => .release pc (.backend next)).stages,
      Sound st' n' := by
  obtain ⟨handle, clients, runs, started, core, coreRuns, socks, unserved, noSocks⟩ := sound.objects
  cases pc with
  | unset =>
      obtain rfl : st = .releasing := by simpa [UiPc.stages] using at_
      cases h
      refine ⟨.releasing, by simp [UiPc.stages], sound.moves ?_ rfl rfl rfl rfl rfl ?_ ?_ ?_ ?_ ?_ ?_⟩
      all_goals try simp
      constructor <;> simp_all
  | clear =>
      obtain rfl : st = .releasing := by simpa [UiPc.stages] using at_
      cases h
      exact ⟨.releasing, by simp [UiPc.stages], sound.live, by constructor <;> simp_all,
        sound.packets.cleared (by simp)⟩
  | testHandle =>
      obtain rfl : st = .releasing := by simpa [UiPc.stages] using at_
      simp only [releaseStep, handle, Stage.handle, if_true, Option.isSome_some] at h
      cases h
      exact ⟨.releasing, by simp [UiPc.stages], sound⟩
  | stop =>
      obtain rfl : st = .releasing := by simpa [UiPc.stages] using at_
      obtain ⟨c, made⟩ := Option.isSome_iff_exists.mp ((clients n.session).mpr ⟨rfl, rfl⟩)
      simp only [releaseStep, handle, Stage.handle, if_true, Option.bind_some, made, Option.map_some,
        runs rfl c made] at h
      cases h
      refine ⟨.stopping, by simp [UiPc.stages], sound.moves ?_ rfl rfl rfl rfl rfl ?_ ?_ ?_ ?_ ?_ ?_⟩
      all_goals try simp
      exact ⟨handle, clients_setClient clients rfl, by simp, by simp, core, by simp, by simp, by simp,
        fun _ _ => noSocks rfl (by decide)⟩
  | joinScheduler =>
      obtain rfl : st = .stopping := by simpa [UiPc.stages] using at_
      simp only [releaseStep, handle, Stage.handle, if_true, Option.bind_some] at h
      split at h
      · next joined =>
          cases h
          refine ⟨.stopped, by simp [UiPc.stages], sound.moves ?_ rfl rfl rfl rfl rfl ?_ ?_ ?_ ?_ ?_ ?_⟩
          case refine_2 => exact fun _ => .inr (not_alive_of_joined joined)
          all_goals try simp
          constructor <;> simp_all
      · cases h
  | destroy =>
      obtain rfl : st = .stopped := by simpa [UiPc.stages] using at_
      obtain ⟨c, made⟩ := Option.isSome_iff_exists.mp ((clients n.session).mpr ⟨rfl, rfl⟩)
      simp only [releaseStep, handle, Stage.handle, if_true, Option.bind_some, made, Option.map_some] at h
      cases h
      refine ⟨.deleted, by simp [UiPc.stages], sound.moves ?_ rfl rfl rfl rfl rfl ?_ ?_ ?_ ?_ ?_ ?_⟩
      all_goals try simp
      exact ⟨handle, clients_setClient clients rfl, by simp, by simp, core, by simp, by simp, by simp,
        fun _ _ => noSocks rfl (by decide)⟩
  | forget =>
      obtain rfl : st = .deleted := by simpa [UiPc.stages] using at_
      cases h
      refine ⟨.gone, by simp [Release.resume, UiPc.stages],
        sound.moves ?_ rfl rfl rfl rfl rfl ?_ ?_ ?_ ?_ ?_ ?_⟩
      all_goals try simp
      constructor <;> simp_all

theorem UiPc.stages_release {r : Release} (later : ∀ next, r ≠ .backend next) (pc : ReleasePc) :
    (UiPc.release pc r).stages = pc.otherStages := by
  cases r with
  | backend next => exact absurd rfl (later next)
  | own | failed => rfl

/-- A release without a client. -/
theorem Sound.releaseNothing {pc : ReleasePc} {pc' : Option ReleasePc} {r : Release}
    (sound : Sound st n) (at_ : st ∈ (UiPc.release pc r).stages) (later : ∀ next, r ≠ .backend next)
    (h : releaseStep pc n = some (pc', n')) :
    ∃ st' ∈ (pc'.elim r.resume fun pc => .release pc r).stages, Sound st' n' := by
  obtain ⟨handle, clients, runs, started, core, coreRuns, socks, unserved, noSocks⟩ := sound.objects
  have stages := UiPc.stages_release later
  rw [stages] at at_
  cases pc with
  | unset =>
      obtain rfl : st = .gone := List.mem_singleton.mp at_
      cases h
      have next : .gone ∈ (UiPc.release .clear r).stages := by
        rw [stages]
        exact List.mem_singleton_self _
      refine ⟨.gone, next, sound.moves ?_ rfl rfl rfl rfl rfl ?_ ?_ ?_ ?_ ?_ ?_⟩
      all_goals try simp
      constructor <;> simp_all
  | clear =>
      obtain rfl : st = .gone := List.mem_singleton.mp at_
      cases h
      have next : .down ∈ (UiPc.release .testHandle r).stages := by
        rw [stages]
        exact List.mem_singleton_self _
      refine ⟨.down, next, sound.live.fewer rfl rfl ?_ ?_ ?_ ?_, by constructor <;> simp_all,
        sound.packets.cleared (by simp)⟩
      all_goals simp
  | testHandle =>
      obtain rfl : st = .down := List.mem_singleton.mp at_
      simp only [releaseStep, handle, Stage.handle, Bool.false_eq_true, if_false,
        Option.isSome_none] at h
      cases h
      exact sound.resume later
  | _ => cases at_

/-- `startTunnel` behind `stopCore`. -/
theorem Sound.start {pc : StartPc} (sound : Sound st n) (at_ : st ∈ (UiPc.start pc).stages)
    (h : startStep pc n a = some (pc', n')) : ∃ st' ∈ pc'.stages, Sound st' n' := by
  obtain ⟨handle, clients, runs, started, core, coreRuns, socks, unserved, noSocks⟩ := sound.objects
  unfold startStep at h
  split at h
  · -- `loadConfig`
    cases h
    exact ⟨st, at_, sound⟩
  · cases h
    obtain rfl : st = .down := by simpa [UiPc.stages] using at_
    exact ⟨.down, by simp [UiPc.stages], sound⟩
  · -- `create`
    obtain rfl : st = .down := by simpa [UiPc.stages] using at_
    cases h
    refine ⟨.made, by simp [UiPc.stages], ?_, ?_, sound.packets.create rfl rfl rfl rfl⟩
    · intro t alive
      have none_ := sound.live t alive
      cases t with | _ => simp [Stage.admits] at none_
    · refine ⟨rfl, fun k => ?_, by simp, by simp, core, by simp, by simp, by simp,
        fun _ _ => noSocks rfl (by decide)⟩
      by_cases same : k = n.session + 1
      · simp [Process.setClient, same]
      · have := clients k
        simp_all [Process.setClient]
  · cases h
    obtain rfl : st = .down := by simpa [UiPc.stages] using at_
    refine ⟨.down, by simp [UiPc.stages], sound.moves ?_ rfl rfl rfl rfl rfl ?_ ?_ ?_ ?_ ?_ ?_⟩
    all_goals try simp
    constructor <;> simp_all
  · -- `subscribe`
    obtain rfl : st = .made := by simpa [UiPc.stages] using at_
    obtain ⟨c, made⟩ := Option.isSome_iff_exists.mp ((clients n.session).mpr ⟨rfl, rfl⟩)
    simp only [handle, Stage.handle, if_true, Option.bind_some, made, Option.map_some] at h
    cases h
    refine ⟨.made, by simp [UiPc.stages], sound.moves ?_ rfl rfl rfl rfl rfl ?_ ?_ ?_ ?_ ?_ ?_⟩
    all_goals try simp
    exact ⟨handle, clients_setClient clients rfl, by simp, by simp, core, by simp, by simp, by simp,
      fun _ _ => noSocks rfl (by decide)⟩
  · -- `startClient`
    obtain rfl : st = .made := by simpa [UiPc.stages] using at_
    obtain ⟨c, made⟩ := Option.isSome_iff_exists.mp ((clients n.session).mpr ⟨rfl, rfl⟩)
    simp only [handle, Stage.handle, if_true, Option.bind_some, made, Option.map_some] at h
    cases h
    refine ⟨.starting, by simp [UiPc.stages],
      sound.live.spawn (t := .scheduler n.session) (by simp [Stage.admits]) rfl rfl ?_, ?_,
      sound.packets.same rfl rfl rfl rfl (by simp) (by simp)⟩
    · intro t ok
      cases t with | _ => simp [Stage.admits] at ok
    · exact ⟨handle, clients_setClient clients rfl, by simp [Process.setClient, Process.spawn], by simp,
        core, by simp, by simp, by simp, fun _ _ => noSocks rfl (by decide)⟩
  · -- `setStarted`
    obtain rfl : st = .starting := by simpa [UiPc.stages] using at_
    cases h
    refine ⟨.started, by simp [UiPc.stages], sound.moves ?_ rfl rfl rfl rfl rfl ?_ ?_ ?_ ?_ ?_ ?_⟩
    all_goals try simp
    constructor <;> simp_all
  · -- `startCore`
    obtain rfl : st = .started := by simpa [UiPc.stages] using at_
    cases h
    refine ⟨.receiving, by simp [UiPc.stages],
      sound.live.spawn (t := .receiver n.session) (by simp [Stage.admits]) rfl rfl ?_, ?_,
      sound.packets.same rfl rfl rfl rfl (by simp) (by simp)⟩
    · intro t ok
      cases t with | _ => simp_all [Stage.admits]
    · constructor <;> simp_all [Process.setCoreRunning, Process.spawn]
  · -- `startSocks`
    obtain rfl : st = .receiving := by simpa [UiPc.stages] using at_
    cases h
    refine ⟨.serving, by simp [UiPc.stages],
      sound.live.spawn (t := .acceptor n.session) (by simp [Stage.admits]) rfl rfl ?_, ?_,
      sound.packets.same rfl rfl rfl rfl (by simp) (by simp)⟩
    · intro t ok
      cases t with | _ => simp_all [Stage.admits]
    · constructor <;> simp_all [Process.setSocksRunning, Process.spawn]
  · obtain rfl : st = .receiving := by simpa [UiPc.stages] using at_
    cases h
    refine ⟨.unserved, by simp [UiPc.stages], sound.moves ?_ rfl rfl rfl rfl rfl ?_ ?_ ?_ ?_ ?_ ?_⟩
    all_goals try simp
    constructor <;> simp_all [Process.setSocksRunning]
  · cases h

/-- Each line of the window's thread goes from one stage to the next. -/
theorem Sound.ui (sound : Sound st n) (at_ : st ∈ pc.stages)
    (left : ∀ next, pc = .socks (.joinWorkers []) next →
      ∀ w, n.life (.worker w) ≠ .alive ∧ n.life (.uplink w) ≠ .alive)
    (h : uiStep pc n a = some (pc', n')) : ∃ st' ∈ pc'.stages, Sound st' n' := by
  unfold uiStep at h
  split at h
  · cases h
    simp only [UiPc.stages, List.mem_cons, List.not_mem_nil, or_false] at at_
    exact ⟨st, by rcases at_ with rfl | rfl <;> simp [UiPc.stages], sound⟩
  · next pc next =>
      obtain ⟨p, step, same⟩ := Option.map_eq_some_iff.mp h
      cases same
      exact sound.socks at_ (fun is => left next (by rw [is])) step
  · exact sound.core at_ h
  · next pc r =>
      obtain ⟨p, step, same⟩ := Option.map_eq_some_iff.mp h
      cases same
      cases r with
      | backend next => exact sound.releaseBackend at_ step
      | own next => exact sound.releaseNothing at_ (by simp) step
      | failed => exact sound.releaseNothing at_ (by simp) step
  · exact sound.start at_ h
  · cases h

end Window

/-! ### The threads of a session -/

section Threads

variable {st : Stage} {n n' : Process}

theorem Objects.same (h : Objects st n) (session : n'.session = n.session)
    (handle : n'.handle = n.handle) (clients : n'.clients = n.clients) (started : n'.started = n.started)
    (core : n'.core = n.core) (coreRunning : n'.coreRunning = n.coreRunning)
    (socks : n'.socks = n.socks) (socksRunning : n'.socksRunning = n.socksRunning) : Objects st n' where
  handle := by rw [handle, session]; exact h.handle
  clients := by rw [clients, session]; exact h.clients
  runs := by rw [clients, session]; exact h.runs
  started := by rw [started]; exact h.started
  core := by rw [core, session]; exact h.core
  coreRuns := by rw [coreRunning, session]; exact h.coreRuns
  socks := by rw [socks, socksRunning, session]; exact h.socks
  unserved := by rw [socks, socksRunning, session]; exact h.unserved
  noSocks := by rw [socks]; exact h.noSocks

theorem Sound.exit (sound : Sound st n) (t : ThreadId) : Sound st (n.exit t) where
  live t' alive := by
    by_cases same : t' = t
    · simp [Process.exit, same] at alive
    · exact sound.live t' (by simpa [Process.exit, same] using alive)
  objects := sound.objects.same rfl rfl rfl rfl rfl rfl rfl rfl
  packets := sound.packets.same rfl rfl rfl rfl id id

theorem Sound.spawn (sound : Sound st n) {t : ThreadId} (new : st.admits n.session t = true) :
    Sound st (n.spawn t) where
  live := sound.live.spawn new rfl rfl fun _ => id
  objects := sound.objects.same rfl rfl rfl rfl rfl rfl rfl rfl
  packets := sound.packets.same rfl rfl rfl rfl id id

/-- The client of the session hands a packet to the queue. -/
theorem Sound.push (sound : Sound st n) (up : st.schedules = true) (bytes : Bytes) :
    Sound st (n.push n.session bytes) where
  live := sound.live
  objects := sound.objects.same rfl rfl rfl rfl rfl rfl rfl rfl
  packets := by
    obtain ⟨tags, empty, arrived, pulled, inOrder, whole⟩ := sound.packets
    refine ⟨?_, ?_, ?_, pulled, fun k => ?_, fun keeps => ?_⟩
    · simp only [Process.push, List.mem_append, List.mem_singleton]
      rintro p (mem | rfl)
      · exact tags p mem
      · rfl
    · rintro (rfl | rfl)
      · cases up
      · cases up
    · simp only [Process.push, List.mem_append, List.mem_singleton]
      rintro p (mem | rfl)
      · exact arrived p mem
      · exact le_rfl
    · refine (inOrder k).trans ?_
      simp only [Process.push, Process.arrivedAt, List.filter_append]
      exact List.prefix_append _ _
    · have more : (n.push n.session bytes).arrivedAt n.session =
          n.arrivedAt n.session ++ [(n.session, bytes)] := by
        simp [Process.push, Process.arrivedAt, List.filter_append]
      change (n.push n.session bytes).arrivedAt n.session =
        n.pulledBy n.session ++ (n.queue ++ [(n.session, bytes)])
      rw [more, whole keeps, List.append_assoc]

/-- The receiver of the session takes a packet out of the queue. -/
theorem Sound.pop (sound : Sound st n) (up : st.receives = true) {packet : Nat × Bytes}
    {rest : List (Nat × Bytes)} (queue : n.queue = packet :: rest) :
    Sound st (n.pop n.session packet rest) where
  live := sound.live
  objects := sound.objects.same rfl rfl rfl rfl rfl rfl rfl rfl
  packets := by
    obtain ⟨tags, empty, arrived, pulled, inOrder, whole⟩ := sound.packets
    have keeps := Stage.keeps_of_core (Stage.core_of_receives up)
    have all := whole keeps
    rw [queue] at all
    have taken : (n.pop n.session packet rest).pulledBy n.session = n.pulledBy n.session ++ [packet] := by
      simp [Process.pop, Process.pulledBy, List.filter_append]
    refine ⟨?_, ?_, arrived, ?_, fun k => ?_, fun _ => ?_⟩
    · intro p mem
      exact tags p (queue ▸ List.mem_cons_of_mem _ mem)
    · rintro (rfl | rfl)
      · cases up
      · cases up
    · simp only [Process.pop, List.mem_append, List.mem_singleton]
      rintro p (mem | rfl)
      · exact pulled p mem
      · exact le_rfl
    · by_cases same : k = n.session
      · subst same
        rw [taken]
        change _ <+: n.arrivedAt n.session
        rw [all]
        exact ⟨rest, by simp⟩
      · have others : (n.pop n.session packet rest).pulledBy k = n.pulledBy k := by
          simp [Process.pop, Process.pulledBy, List.filter_append, Ne.symm same]
        rw [others]
        exact inOrder k
    · change n.arrivedAt n.session = (n.pop n.session packet rest).pulledBy n.session ++ rest
      rw [taken, all, List.append_assoc, List.singleton_append]

theorem Sound.nextWorker (sound : Sound st n) (w : Nat) : Sound st { n with nextWorker := w } where
  live := sound.live
  objects := sound.objects.same rfl rfl rfl rfl rfl rfl rfl rfl
  packets := sound.packets.same rfl rfl rfl rfl id id

theorem Sound.setWorkers (sound : Sound st n) (k : Nat) (ws : List Nat) : Sound st (n.setWorkers k ws) where
  live := sound.live
  objects := sound.objects.same rfl rfl rfl rfl rfl rfl rfl rfl
  packets := sound.packets.same rfl rfl rfl rfl id id

end Threads

end TonTunnel.Sessions
