import TonTunnel.Handler.Requests

/-!
A session whose client says nothing for a while.

`handleClient` sets a receive timeout of 5000 ms for the handshake, and the uplink
thread receives with it too: a client that is silent for that long ends its own
session, however much is coming down (`silent_client_cut_off`). As long as every `recv` of the
uplink thread is answered in time, a bridge that nothing else disturbs stays in its
loop, closes nothing, and has written every DATA payload it took but for the rest of
the one in hand; and it goes on to write the next one (`answering_client_kept`).
-/

namespace TonTunnel.Handler

open Desktop (FrameType)
open Interleaving (Reach Machine anyStep)

/-! ### What disturbs a session -/

/-- The client neither closes nor resets its socket, sends succeed, the server runs, and no CLOSE
or ERROR frame arrives. -/
def undisturbed (_ : State) : ThreadId → Act → Bool
  | .uplink, .recvRet r => r != .endOfStream && r != .error
  | .uplink, .dataRet code => code == 0
  | .uplink, .throw => false
  | .worker, .sendRet n => n > 0
  | .worker, .frame (some (type, _)) => type != .close && type != .error
  | .world, .running on => on
  | _, _ => true

/-- No `recv` of the uplink thread waits for 5000 ms, and no exception leaves the bridge. -/
def answering (σ : State) : ThreadId → Act → Bool
  | .world, .tick ms =>
      match σ.loc .uplink with
      | .recv since => σ.shared.now + ms < since + receiveTimeoutMs
      | _ => true
  | .worker, .throw => false
  | _, _ => true

/-- Both. -/
def kept (σ : State) (t : ThreadId) (a : Act) : Prop :=
  undisturbed σ t a = true ∧ answering σ t a = true

/-- What the bridge has taken and not yet written. -/
def inHand : Pc → Bytes
  | .sendAll _ rest => rest
  | _ => []

/-- The worker is in the bridge, between a successful `openStream` and the end of the loop. -/
def Pc.inBridge : Pc → Bool
  | .opened | .spawn none | .testAlive none | .testRunning none | .await | .sendAll none _ => true
  | _ => false

/-- The session goes on. -/
structure GoesOn (σ : State) : Prop where
  notClosed : σ.shared.closes = 0
  noClose : Event.closeSent ∉ σ.shared.log
  inBridge : (σ.loc .worker).inBridge = true
  written : σ.shared.frames.flatten = σ.shared.delivered ++ inHand (σ.loc .worker)

/-! ### Before the uplink thread is started -/

def Pc.early : Pc → Bool
  | .reading .. | .accepted .. | .replying .. | .closing _ | .bridge .. | .opening .. | .opened
  | .resolving .. | .addresses _ | .connecting .. | .spawn _ => true
  | _ => false

/-- The session of a connection whose uplink thread was not started. -/
structure Early (σ : State) : Prop where
  closes : σ.shared.closes = 0
  alive : σ.shared.alive = true
  lives : σ.shared.terminated = false
  uplink : σ.shared.uplink = .unstarted
  frames : σ.shared.frames = []
  delivered : σ.shared.delivered = []
  noClose : Event.closeSent ∉ σ.shared.log
  idle : σ.loc .uplink = .testAlive

variable {ntop6 : Bytes → Option Bytes} {core : Bool} {stream : Bytes} {σ σ' σ₀ : State}

/-- What a step before the start of the uplink thread leaves alone. -/
structure Untouched (s s' : Session) : Prop where
  closes : s'.closes = s.closes
  alive : s'.alive = s.alive
  lives : s'.terminated = s.terminated
  uplink : s'.uplink = s.uplink
  frames : s'.frames = s.frames
  delivered : s'.delivered = s.delivered
  log : Event.closeSent ∈ s'.log → Event.closeSent ∈ s.log

theorem Early.untouched (h : Early σ) (same : Untouched σ.shared σ'.shared)
    (idle : σ'.loc .uplink = σ.loc .uplink) : Early σ' where
  closes := same.closes.trans h.closes
  alive := same.alive.trans h.alive
  lives := same.lives.trans h.lives
  uplink := same.uplink.trans h.uplink
  frames := same.frames.trans h.frames
  delivered := same.delivered.trans h.delivered
  noClose mem := h.noClose (same.log mem)
  idle := idle.trans h.idle

/-- A step that stays before the start of the uplink thread. -/
theorem WorkerMove.early {s s' : Session} {pc pc' : Pc} {a : Act}
    (m : WorkerMove ntop6 core s pc a pc' s') (within : pc'.early = true) :
    pc.early = true ∧ Untouched s s' := by
  cases m with
  | part | field | recvFails | accept | replyMore | replyFails | toCore | toRemote | opened
  | resolved | noSocket | socket | refused => exact ⟨rfl, rfl, rfl, rfl, rfl, rfl, rfl, id⟩
  | requestNext | closeNext | bridgeNext | openSucceeds | connected =>
      exact ⟨rfl, rfl, rfl, rfl, rfl, rfl, rfl, by simp [Session.emit]⟩
  | @isRunning remote _ => cases remote <;> cases within
  | @leave remote _ => cases remote <;> cases within
  | @join remote remoteEnded _ =>
      revert within
      unfold joinedPc
      split_ifs <;> rintro ⟨⟩
  | _ => cases within

theorem WorldMove.untouched {s s' : Session} {a : Act} (m : WorldMove s a s') : Untouched s s' := by
  cases m with
  | tick | running => exact ⟨rfl, rfl, rfl, rfl, rfl, rfl, id⟩

theorem early_of_reaches (h : Reaches ntop6 core stream σ) (early : (σ.loc .worker).early = true) :
    Early σ := by
  induction h with
  | start => exact ⟨rfl, rfl, rfl, rfl, rfl, rfl, List.not_mem_nil, rfl⟩
  | @step σ σ' t a reached _ next ih =>
      obtain ⟨l, m, is⟩ := next_move next
      cases t with
      | worker =>
          rw [is, Function.update_self] at early
          obtain ⟨from_, same⟩ := WorkerMove.early m early
          exact (ih from_).untouched same (by rw [is, Function.update_of_ne (by decide)])
      | uplink =>
          rw [is, Function.update_of_ne (by decide)] at early
          have before := ih early
          change UplinkMove core σ.shared (σ.loc .uplink) a l σ'.shared at m
          rw [before.idle] at m
          have started := m.started
          rw [before.uplink] at started
          cases started
      | world =>
          rw [is, Function.update_of_ne (by decide)] at early
          apply (ih early).untouched (WorldMove.untouched m)
          rw [is, Function.update_of_ne (by decide)]

/-! ### While the client answers in time -/

/-- Where the uplink thread is; a `recv` has not waited for 5000 ms. -/
def Pumping (now : Nat) : UplinkPc → Prop
  | .testAlive | .testRunning | .sending _ => True
  | .recv since => now < since + receiveTimeoutMs
  | _ => False

/-- What a run keeps that is not disturbed. -/
structure Steady (s : Session) (pc : Pc) (u : UplinkPc) : Prop where
  notClosed : s.closes = 0
  noClose : Event.closeSent ∉ s.log
  inBridge : pc.inBridge = true
  written : s.frames.flatten = s.delivered ++ inHand pc
  alive : s.alive = true
  running : s.running = true
  lives : s.terminated = false
  pumps : Pumping s.now u

theorem WorkerMove.steady {s s' : Session} {pc pc' : Pc} {a : Act} {u : UplinkPc}
    (m : WorkerMove ntop6 core s pc a pc' s') (at_ : σ.loc .worker = pc) (ok : kept σ .worker a)
    (h : Steady s pc u) : Steady s' pc' u := by
  obtain ⟨calm, answers⟩ := ok
  have bridge := h.inBridge
  obtain ⟨h₁, h₂, -, h₃, h₄, h₅, h₆, h₇⟩ := h
  cases m with
  | opened => exact ⟨h₁, h₂, rfl, h₃, h₄, h₅, h₆, h₇⟩
  | @spawn remote | @isAlive remote _ =>
      cases remote with
      | none => exact ⟨h₁, h₂, rfl, h₃, h₄, h₅, h₆, h₇⟩
      | some r => cases bridge
  | @isRunning remote _ =>
      cases remote with
      | none => exact ⟨h₁, h₂, rfl, h₃, h₄, h₅, h₆, h₇⟩
      | some r => cases bridge
  | notAlive dead => exact absurd (h₄.symm.trans dead) (by decide)
  | notRunning stopped => exact absurd (h₅.symm.trans stopped) (by decide)
  | noFrame | otherFrame => exact ⟨h₁, h₂, rfl, h₃, h₄, h₅, h₆, h₇⟩
  | emptyData => exact ⟨h₁, h₂, rfl, by simpa [inHand] using h₃, h₄, h₅, h₆, h₇⟩
  | @data payload some_ =>
      refine ⟨h₁, h₂, rfl, ?_, h₄, h₅, h₆, h₇⟩
      change (s.frames ++ [payload]).flatten = s.delivered ++ payload
      rw [List.flatten_append, h₃]
      simp [inHand]
  | ended ends => rcases ends with rfl | rfl <;> cases calm
  | @sentAll remote =>
      cases remote with
      | none => exact ⟨h₁, h₂, rfl, h₃, h₄, h₅, h₆, h₇⟩
      | some r => cases bridge
  | @sendMore remote rest n pos fits =>
      cases remote with
      | none =>
          refine ⟨h₁, h₂, rfl, ?_, h₄, h₅, h₆, h₇⟩
          change s.frames.flatten = s.delivered ++ rest.take n.toNat ++ rest.drop n.toNat
          rw [List.append_assoc, List.take_append_drop]
          exact h₃
      | some r => cases bridge
  | sendFails fails =>
      have sent : _ > (0 : Int) := of_decide_eq_true calm
      omega
  | throws => cases answers
  | _ => cases bridge

theorem UplinkMove.steady {s s' : Session} {pc : Pc} {u u' : UplinkPc} {a : Act}
    (m : UplinkMove true s u a u' s') (ok : kept σ .uplink a) (h : Steady s pc u) :
    Steady s' pc u' := by
  obtain ⟨calm, -⟩ := ok
  have pumps := h.pumps
  obtain ⟨h₁, h₂, h₃, h₄, h₅, h₆, h₇, -⟩ := h
  cases m with
  | isAlive | data | sent => exact ⟨h₁, h₂, h₃, h₄, h₅, h₆, h₇, trivial⟩
  | isRunning => exact ⟨h₁, h₂, h₃, h₄, h₅, h₆, h₇, Nat.lt_add_of_pos_right (by decide)⟩
  | notAlive _ dead => exact absurd (h₅.symm.trans dead) (by decide)
  | notRunning stopped => exact absurd (h₆.symm.trans stopped) (by decide)
  | timeout waited => exact absurd pumps (Nat.not_lt.mpr waited)
  | recvFails fails => rcases fails with rfl | rfl <;> cases calm
  | notSent fails => exact absurd (by simpa [undisturbed] using calm) fails
  | throws => cases calm
  | forwarded | forwardMore | forwardFails | leave => exact pumps.elim

theorem WorldMove.steady {s s' : Session} {pc : Pc} {u : UplinkPc} {a : Act}
    (m : WorldMove s a s') (at_ : σ.loc .uplink = u) (now : σ.shared.now = s.now)
    (ok : kept σ .world a) (h : Steady s pc u) : Steady s' pc u := by
  obtain ⟨calm, answers⟩ := ok
  obtain ⟨h₁, h₂, h₃, h₄, h₅, h₆, h₇, h₈⟩ := h
  cases m with
  | @tick ms =>
      refine ⟨h₁, h₂, h₃, h₄, h₅, h₆, h₇, ?_⟩
      cases u with
      | recv since =>
          have waits : σ.shared.now + ms < since + receiveTimeoutMs := by
            simpa [answering, at_] using answers
          rwa [now] at waits
      | _ => exact h₈
  | @running on =>
      have still : on = true := calm
      exact ⟨h₁, h₂, h₃, h₄, h₅, still, h₇, h₈⟩

theorem Steady.step {t : ThreadId} {a : Act}
    (h : Steady σ.shared (σ.loc .worker) (σ.loc .uplink)) (ok : kept σ t a)
    (next : (machine ntop6 true).next σ t a = some σ') :
    Steady σ'.shared (σ'.loc .worker) (σ'.loc .uplink) := by
  obtain ⟨l, m, is⟩ := next_move next
  cases t with
  | worker =>
      rw [is, Function.update_self, Function.update_of_ne (by decide)]
      exact WorkerMove.steady m rfl ok h
  | uplink =>
      rw [is, Function.update_self, Function.update_of_ne (by decide)]
      exact UplinkMove.steady m ok h
  | world =>
      rw [is, Function.update_of_ne (by decide), Function.update_of_ne (by decide)]
      exact WorldMove.steady m rfl rfl ok h

/-- The session right after a successful `openStream`. -/
theorem steady_opened (h : Reaches ntop6 core stream σ) (at_ : σ.loc .worker = .opened)
    (running : σ.shared.running = true) :
    Steady σ.shared (σ.loc .worker) (σ.loc .uplink) := by
  have early := early_of_reaches h (by rw [at_]; rfl)
  rw [at_, early.idle]
  refine ⟨early.closes, early.noClose, rfl, ?_, early.alive, running, early.lives, trivial⟩
  rw [early.frames, early.delivered]
  rfl

/-! ### The next payload -/

/-- The bridge has come here, with these payloads taken. -/
structure Comes (ntop6 : Bytes → Option Bytes) (σ₀ : State) (frames : List Bytes) (pc : Pc)
    (σ : State) : Prop where
  reach : Reach (machine ntop6 true) kept σ₀ σ
  steady : Steady σ.shared (σ.loc .worker) (σ.loc .uplink)
  at_ : σ.loc .worker = pc
  frames : σ.shared.frames = frames

variable {frames frames' : List Bytes} {pc pc' : Pc} {a : Act} {s' : Session}

theorem Comes.go (h : Comes ntop6 σ₀ frames pc σ) (ok : kept σ .worker a)
    (moves : workerStep ntop6 true pc σ.shared a = some (pc', s')) (taken : s'.frames = frames') :
    ∃ σ', Comes ntop6 σ₀ frames' pc' σ' := by
  obtain ⟨σ', next, at', -, shared⟩ := worker_next h.at_ h.steady.lives moves
  exact ⟨σ', h.reach.step ok next, h.steady.step ok next, at', by rw [shared, taken]⟩

/-- What is in hand goes out in one piece. -/
theorem Comes.sendAll {rest : Bytes} (h : Comes ntop6 σ₀ frames (.sendAll none rest) σ) :
    ∃ σ', Comes ntop6 σ₀ frames (.testAlive none) σ' := by
  have done {σ : State} (h : Comes ntop6 σ₀ frames (.sendAll none []) σ) :
      ∃ σ', Comes ntop6 σ₀ frames (.testAlive none) σ' := by
    have moves : workerStep ntop6 true (.sendAll none []) σ.shared .go =
        some (.testAlive none, σ.shared) := rfl
    exact h.go ⟨rfl, rfl⟩ moves h.frames
  cases rest with
  | nil => exact done h
  | cons b rest =>
      have fits : ¬ ((b :: rest).length : Int) > (b :: rest).length := by omega
      have some_ : ¬ ((b :: rest).length : Int) ≤ 0 := by simp
      have moves : workerStep ntop6 true (.sendAll none (b :: rest)) σ.shared
          (.sendRet (b :: rest).length) = some (.sendAll none [],
            { σ.shared with delivered := σ.shared.delivered ++ (b :: rest) }) := by
        simp only [workerStep]
        rw [if_neg fits, if_neg some_, Int.toNat_natCast, List.drop_length, List.take_length]
      obtain ⟨σ', h'⟩ := h.go ⟨by simp [undisturbed], rfl⟩ moves h.frames
      exact done h'

theorem Comes.testAlive (h : Comes ntop6 σ₀ frames (.testAlive none) σ) :
    ∃ σ', Comes ntop6 σ₀ frames .await σ' := by
  have alive : workerStep ntop6 true (.testAlive none) σ.shared .go =
      some (.testRunning none, σ.shared) := by simp [workerStep, h.steady.alive]
  obtain ⟨σ₁, h₁⟩ := h.go ⟨rfl, rfl⟩ alive h.frames
  have running : workerStep ntop6 true (.testRunning none) σ₁.shared .go =
      some (.await, σ₁.shared) := by simp [workerStep, h₁.steady.running]
  exact h₁.go ⟨rfl, rfl⟩ running h₁.frames

/-- From everywhere in the bridge it comes to wait for a frame. -/
theorem Comes.awaits (h : Comes ntop6 σ₀ frames pc σ) : ∃ σ', Comes ntop6 σ₀ frames .await σ' := by
  have spawned {σ : State} (h : Comes ntop6 σ₀ frames (.spawn none) σ) :
      ∃ σ', Comes ntop6 σ₀ frames .await σ' := by
    have moves : workerStep ntop6 true (.spawn none) σ.shared .go =
        some (.testAlive none, { σ.shared with uplink := .running }) := rfl
    obtain ⟨σ₁, h₁⟩ := h.go ⟨rfl, rfl⟩ moves h.frames
    exact h₁.testAlive
  have bridge := h.steady.inBridge
  rw [h.at_] at bridge
  match pc, bridge with
  | .opened, _ =>
      have moves : workerStep ntop6 true .opened σ.shared .go = some (.spawn none, σ.shared) := rfl
      obtain ⟨σ₁, h₁⟩ := h.go ⟨rfl, rfl⟩ moves h.frames
      exact spawned h₁
  | .spawn none, _ => exact spawned h
  | .testAlive none, _ => exact h.testAlive
  | .testRunning none, _ =>
      have running : workerStep ntop6 true (.testRunning none) σ.shared .go =
          some (.await, σ.shared) := by simp [workerStep, h.steady.running]
      exact h.go ⟨rfl, rfl⟩ running h.frames
  | .await, _ => exact ⟨σ, h⟩
  | .sendAll none rest, _ =>
      obtain ⟨σ₁, h₁⟩ := h.sendAll
      exact h₁.testAlive

/-- A payload that comes is written. -/
theorem Comes.writes (h : Comes ntop6 σ₀ frames .await σ) (payload : Bytes) :
    ∃ σ', Comes ntop6 σ₀ (frames ++ [payload]) (.testAlive none) σ' := by
  cases payload with
  | nil =>
      have moves : workerStep ntop6 true .await σ.shared (.frame (some (.data, []))) =
          some (.testAlive none, { σ.shared with frames := σ.shared.frames ++ [[]] }) := rfl
      exact h.go ⟨rfl, rfl⟩ moves (by rw [h.frames])
  | cons b rest =>
      have moves : workerStep ntop6 true .await σ.shared (.frame (some (.data, b :: rest))) =
          some (.sendAll none (b :: rest),
            { σ.shared with frames := σ.shared.frames ++ [b :: rest] }) := rfl
      obtain ⟨σ₁, h₁⟩ := h.go ⟨rfl, rfl⟩ moves (by rw [h.frames])
      exact h₁.sendAll

/-- **A quiet client keeps its session** as long as no `recv` of the uplink thread waits for 5000 ms:
from a successful `openStream` on, in every run that nothing else disturbs, the bridge closes
nothing, sends no CLOSE, stays in its loop with everything it took written or in hand, and
can go on to write every further payload. -/
theorem answering_client_kept (h : Reaches ntop6 true stream σ₀) (at_ : σ₀.loc .worker = .opened)
    (running : σ₀.shared.running = true) (run : Reach (machine ntop6 true) kept σ₀ σ) :
    GoesOn σ ∧ ∀ payload, ∃ σ', Reach (machine ntop6 true) kept σ₀ σ' ∧ GoesOn σ' ∧
      σ'.shared.frames = σ.shared.frames ++ [payload] ∧
      σ'.shared.delivered = (σ.shared.frames ++ [payload]).flatten := by
  have goesOn {σ : State} (s : Steady σ.shared (σ.loc .worker) (σ.loc .uplink)) : GoesOn σ :=
    ⟨s.notClosed, s.noClose, s.inBridge, s.written⟩
  have steady : Steady σ.shared (σ.loc .worker) (σ.loc .uplink) := by
    induction run with
    | start => exact steady_opened h at_ running
    | step _ ok next ih => exact ih.step ok next
  refine ⟨goesOn steady, ?_⟩
  intro payload
  have here : Comes ntop6 σ₀ σ.shared.frames (σ.loc .worker) σ := ⟨run, steady, rfl, rfl⟩
  obtain ⟨σ₁, h₁⟩ := here.awaits
  obtain ⟨σ₂, h₂⟩ := h₁.writes payload
  refine ⟨σ₂, h₂.reach, goesOn h₂.steady, h₂.frames, ?_⟩
  have written := h₂.steady.written
  rw [h₂.at_, h₂.frames] at written
  exact (List.append_nil _).symm.trans written.symm

/-- A SOCKS5 client, up to a successful `openStream`. -/
def openedRun : List (ThreadId × Act) :=
  [.recvRet (.data 2), .recvRet (.data 1), .sendRet 2, .go, .recvRet (.data 4), .recvRet (.data 4),
    .recvRet (.data 2), .go, .sendRet 10, .go, .go, .openRet 0].map fun a => (.worker, a)

/-- The client is silent for 4999 ms while a payload comes. -/
def briefSilence : List (ThreadId × Act) :=
  [(.worker, .go), (.worker, .go), (.uplink, .go), (.uplink, .go), (.world, .tick 4999),
    (.worker, .go), (.worker, .go), (.worker, .frame (some (.data, [1, 2]))), (.worker, .sendRet 1)]

theorem brief_silence_kept :
    GoesOn ((machine (fun _ => none) true).run
      ((machine (fun _ => none) true).run (start socks5Stream) openedRun) briefSilence) := by
  have h := Reach.run (by decide : (machine (fun _ => none) true).follows (fun _ _ _ => true)
    (start socks5Stream) openedRun)
  have run := Reach.run (by decide : (machine (fun _ => none) true).follows
    (fun σ t a => undisturbed σ t a && answering σ t a)
    ((machine (fun _ => none) true).run (start socks5Stream) openedRun) briefSilence)
  refine (answering_client_kept h.any (by decide) (by decide) (run.mono ?_)).1
  intro _ _ _ ok
  simpa [kept] using ok

/-- The client is silent for 5000 ms. -/
def longSilence : List (ThreadId × Act) :=
  [(.worker, .go), (.worker, .go), (.uplink, .go), (.uplink, .go), (.world, .tick 5000),
    (.uplink, .recvRet .timeout), (.uplink, .go), (.worker, .go), (.worker, .go), (.worker, .go),
    (.worker, .go), (.worker, .go)]

/-- The bridge closes the socket of a client that is silent for 5000 ms, and sends CLOSE. -/
theorem silent_client_cut_off :
    ∃ σ₀ σ, Reaches (fun _ => none) true socks5Stream σ₀ ∧ σ₀.loc .worker = .opened ∧
      σ₀.shared.running = true ∧
      Reach (machine (fun _ => none) true) (fun σ t a => undisturbed σ t a = true) σ₀ σ ∧
      σ.shared.closes = 1 ∧ Event.closeSent ∈ σ.shared.log ∧ ¬ GoesOn σ := by
  have h := Reach.run (by decide : (machine (fun _ => none) true).follows (fun _ _ _ => true)
    (start socks5Stream) openedRun)
  have run := Reach.run (by decide : (machine (fun _ => none) true).follows undisturbed
    ((machine (fun _ => none) true).run (start socks5Stream) openedRun) longSilence)
  refine ⟨_, _, h.any, by decide, by decide, run, by decide, by decide, ?_⟩
  intro goesOn
  exact absurd goesOn.notClosed (by decide)

end TonTunnel.Handler
