import TonTunnel.Client.Core

/-!
What a step does to the stream queues of `TonClientCore`.

Every step of every thread is a sequence of `Core.Move`s, and a property of the
queues and their history that each move keeps holds in every reachable state
(`Core.Moves.keeps`). Two such properties follow here: the history replays to
the present content of the queues (`replays_of_reach`), and an id has an entry
exactly if it is wanted (`entry_iff_wanted_of_reach`).
-/

namespace TonTunnel.Client

open TonTunnel Desktop
open Interleaving (Reach anyStep)

namespace Core

/-- `streamQueues_` as a store of queues. -/
def content (c : Core) : Fifo.Store UInt32 InboundFrame := fun id => c.streamQueues.lookup id

/-- What a thread's step may touch. -/
structure Scope where
  /-- it is the receiver's, which alone takes in packets and frames -/
  recv : Prop
  /-- ids whose queues it may touch -/
  ids : UInt32 → Prop
  /-- callers it may act for -/
  callers : Nat → Prop
  /-- it may be a return of `openStream` with 0 -/
  opens : Prop

/-- What the functions of the core do to the queues and the history. -/
inductive Move (w : Scope) (c : Core) : Core → Prop
  | same {c' : Core} :
      c'.streamQueues = c.streamQueues → c'.notes = c.notes → c'.received = c.received → Move w c c'
  | packet (bytes : Bytes) : w.recv → Move w c { c with received := c.received ++ [bytes] }
  | dispatch {f : InboundFrame} : w.recv → w.ids f.streamId → Move w c (c.dispatch f)
  | register {id : UInt32} : w.ids id → Move w c (c.registerStream id)
  | unregister {id : UInt32} : w.ids id → Move w c (c.unregisterStream id)
  | pop {i : Nat} {o : Bool} {id : UInt32} {f : InboundFrame} {rest : List InboundFrame} :
      w.ids id → w.callers i → c.streamQueues.lookup id = some (f :: rest) →
      Move w c (c.popFront i o id f rest)
  | openSent {i : Nat} {id : UInt32} :
      w.ids id → w.callers i → Move w c (c.note (.openSent i id))
  | opened {i : Nat} {id : UInt32} :
      w.ids id → w.callers i → w.opens → Move w c (c.note (.opened i id))

/-- Any number of moves. -/
inductive Moves (w : Scope) (c : Core) : Core → Prop
  | none : Moves w c c
  | more {mid c' : Core} : Moves w c mid → Move w mid c' → Moves w c c'

variable {w : Scope} {c c' : Core}

theorem Moves.one (h : Move w c c') : Moves w c c' := .more .none h

theorem Moves.keeps {P : Core → Prop} (keep : ∀ c c', Move w c c' → P c → P c')
    (h : Moves w c c') (before : P c) : P c' := by
  induction h with
  | none => exact before
  | more _ move ih => exact keep _ _ move ih

/-- A scope within another. -/
structure Scope.Sub (w w' : Scope) : Prop where
  recv : w.recv → w'.recv
  ids (id : UInt32) : w.ids id → w'.ids id
  callers (i : Nat) : w.callers i → w'.callers i
  opens : w.opens → w'.opens

theorem Move.mono {w' : Scope} (sub : w.Sub w') (h : Move w c c') : Move w' c c' := by
  cases h with
  | same queues notes received => exact .same queues notes received
  | packet bytes r => exact .packet bytes (sub.recv r)
  | dispatch r on => exact .dispatch (sub.recv r) (sub.ids _ on)
  | register on => exact .register (sub.ids _ on)
  | unregister on => exact .unregister (sub.ids _ on)
  | pop on acts found => exact .pop (sub.ids _ on) (sub.callers _ acts) found
  | openSent on acts => exact .openSent (sub.ids _ on) (sub.callers _ acts)
  | opened on acts opens => exact .opened (sub.ids _ on) (sub.callers _ acts) (sub.opens opens)

theorem Moves.mono {w' : Scope} (sub : w.Sub w') (h : Moves w c c') : Moves w' c c' := by
  induction h with
  | none => exact .none
  | more _ move ih => exact .more ih (move.mono sub)

end Core

/-! ### Every step is a sequence of moves -/

/-- The scope of caller `i` in a call for `id`. -/
def callScope (i : Nat) (id : UInt32) (opens : Prop) : Core.Scope := ⟨False, (· = id), (· = i), opens⟩

theorem callScope_opens (i : Nat) (id : UInt32) (opens : Prop) :
    (callScope i id False).Sub (callScope i id opens) where
  recv := False.elim
  ids _ on := on
  callers _ acts := acts
  opens := False.elim

section Steps

variable {w : Core.Scope} {c c' : Core} {a : Act}

theorem awaitStep_moves {i : Nat} {o : Bool} {id : UInt32} {pc : AwaitPc} {out : AwaitOut}
    (h : awaitStep i o id c pc a = some (out, c')) :
    c.Moves (callScope i id False) c' := by
  unfold awaitStep at h
  split at h
  · cases h
    exact .none
  · split at h
    · cases h
      exact .one (.pop rfl rfl (by assumption))
    · cases h
  · split at h
    · cases h
    · split at h
      · cases h
        exact .none
      · cases h
  · cases h
    exact .none
  · cases h

theorem sendPacket_moves (packet : Bytes) (code : Int) : c.Moves w (c.sendPacket packet code) := by
  unfold Core.sendPacket
  split
  · exact .one (.same rfl rfl rfl)
  · exact .none

/-- The steps of `openStream`, with what each of them tests. -/
inductive OpenMove (i : Nat) (id : UInt32) (host : Bytes) (port : UInt16) (token : Bytes)
    (c : Core) : OpenPc → Act → OpenOut → Core → Prop
  | register : OpenMove i id host port token c .register .go (.more .sendOpen) (c.registerStream id)
  | sent : OpenMove i id host port token c .sendOpen (.sendRet 0) (.more .deadline)
      ((c.sendPacket (encodeOpenFrame id host port token) 0).note (.openSent i id))
  | refused {code : Int} (h : code ≠ 0) :
      OpenMove i id host port token c .sendOpen (.sendRet code) (.ret (-1)) c
  | sendThrows : OpenMove i id host port token c .sendOpen .throw (.ret (-99)) c
  | deadline : OpenMove i id host port token c .deadline .go
      (.more (.loop (c.nowMs + kOpenTimeoutMs) none)) c
  | inTime {d : Int} {seen : Option Int} (h : c.nowMs < d) :
      OpenMove i id host port token c (.loop d seen) .go (.more (.waitMs d seen)) c
  | timedOut {d : Int} {seen : Option Int} (h : d ≤ c.nowMs) :
      OpenMove i id host port token c (.loop d seen) .go (.ret (-2)) c
  | wait {d : Int} : OpenMove i id host port token c (.waitMs d none) .go
      (.more (.await d none (.enter (d - c.nowMs)))) c
  | closeSeen {d seen : Int} : OpenMove i id host port token c (.waitMs d (some seen)) .go
      (.more (.grace d seen (d - c.nowMs))) c
  | graceOver {d seen w : Int} (h : kOpenCloseGraceMs - (c.nowMs - seen) ≤ 0) :
      OpenMove i id host port token c (.grace d seen w) .go (.ret (-4)) c
  | graceLeft {d seen w : Int} :
      OpenMove i id host port token c (.grace d seen w) .go
        (.more (.await d (some seen) (.enter (min w (kOpenCloseGraceMs - (c.nowMs - seen)))))) c
  | waits {d : Int} {seen : Option Int} {pc pc' : AwaitPc} {a : Act} {c' : Core}
      (h : awaitStep i true id c pc a = some (.more pc', c')) :
      OpenMove i id host port token c (.await d seen pc) a (.more (.await d seen pc')) c'
  | nothing {d : Int} {seen : Option Int} {pc : AwaitPc} {a : Act} {c' : Core}
      (h : awaitStep i true id c pc a = some (.done none, c')) :
      OpenMove i id host port token c (.await d seen pc) a (.more (.loop d seen)) c'
  | took {d : Int} {seen : Option Int} {pc : AwaitPc} {a : Act} {c' : Core} {f : InboundFrame}
      (h : awaitStep i true id c pc a = some (.done (some f), c')) :
      OpenMove i id host port token c (.await d seen pc) a (.more (.got d seen f)) c'
  | acked {d : Int} {seen : Option Int} {f : InboundFrame} (h : f.type = .opn) :
      OpenMove i id host port token c (.got d seen f) .go (.ret 0) (c.note (.opened i id))
  | rejected {d : Int} {seen : Option Int} {f : InboundFrame} (h : f.type = .error) :
      OpenMove i id host port token c (.got d seen f) .go (.ret (-3)) c
  | closed {d : Int} {seen : Option Int} {f : InboundFrame} (h : f.type = .close) :
      OpenMove i id host port token c (.got d seen f) .go
        (.more (.loop d (some (seen.getD c.nowMs)))) c
  | ignored {d : Int} {seen : Option Int} {f : InboundFrame}
      (h : f.type = .data ∨ f.type = .unknown) :
      OpenMove i id host port token c (.got d seen f) .go (.more (.loop d seen)) c

theorem openStep_move {i : Nat} {id : UInt32} {host : Bytes} {port : UInt16} {token : Bytes}
    {pc : OpenPc} {out : OpenOut} (h : openStep i id host port token c pc a = some (out, c')) :
    OpenMove i id host port token c pc a out c' := by
  unfold openStep at h
  split at h
  · cases h
    exact .register
  · simp only at h
    split at h
    · next accepted =>
        subst accepted
        cases h
        exact .sent
    · next refused =>
        rw [Core.sendPacket, if_neg refused] at h
        cases h
        exact .refused refused
  · cases h
    exact .sendThrows
  · cases h
    exact .deadline
  · split at h
    · next early =>
        cases h
        exact .inTime early
    · next late =>
        cases h
        exact .timedOut (not_lt.mp late)
  · simp only at h
    split at h
    · cases h
      exact .wait
    · cases h
      exact .closeSeen
  · simp only at h
    split at h
    · next due =>
        cases h
        exact .graceOver due
    · cases h
      exact .graceLeft
  · split at h
    · next waits =>
        cases h
        exact .waits waits
    · next nothing =>
        cases h
        exact .nothing nothing
    · next took =>
        cases h
        exact .took took
    · cases h
  · split at h
    · next type =>
        cases h
        exact .acked type
    · next type =>
        cases h
        exact .rejected type
    · next type =>
        cases h
        exact .closed type
    · next type =>
        cases h
        exact .ignored (.inl type)
    · next type =>
        cases h
        exact .ignored (.inr type)
  · cases h

theorem OpenMove.moves {i : Nat} {id : UInt32} {host : Bytes} {port : UInt16} {token : Bytes}
    {pc : OpenPc} {out : OpenOut} (h : OpenMove i id host port token c pc a out c') :
    c.Moves (callScope i id (out = .ret 0)) c' := by
  cases h with
  | register => exact .one (.register rfl)
  | sent => exact .more (sendPacket_moves _ _) (.openSent rfl rfl)
  | waits h | nothing h | took h =>
      exact (awaitStep_moves h).mono (callScope_opens i id _)
  | acked _ => exact .one (.opened rfl rfl rfl)
  | _ => exact .none

theorem sendStreamDataStep_moves {id : UInt32} {rest : Bytes} {out : Bytes ⊕ Option Int}
    (h : sendStreamDataStep id rest c a = some (out, c')) : c.Moves w c' := by
  unfold sendStreamDataStep at h
  split at h
  · split at h
    · cases h
      exact .none
    · cases h
  · split at h
    · cases h
    · simp only at h
      split at h
      · cases h
        exact sendPacket_moves _ _
      · cases h
        exact sendPacket_moves _ _
  · split at h
    · cases h
    · cases h
      exact .none
  · cases h

theorem closeStreamStep_moves {id : UInt32} {out : Option Int}
    (h : closeStreamStep id c a = some (out, c')) : c.Moves w c' := by
  unfold closeStreamStep at h
  split at h
  · cases h
    exact sendPacket_moves _ _
  · cases h
    exact .none
  · cases h

/-- The scope of the receiver with the frames of a packet. -/
def frameScope (fs : List InboundFrame) : Core.Scope :=
  ⟨True, fun id => ∃ f ∈ fs, f.streamId = id, fun _ => False, False⟩

theorem dispatchAll_moves (fs : List InboundFrame) : c.Moves (frameScope fs) (c.dispatchAll fs) := by
  have within : ∀ gs ⊆ fs, c.Moves (frameScope fs) (c.dispatchAll gs) := by
    intro gs
    induction gs using List.reverseRecOn with
    | nil => exact fun _ => .none
    | append_singleton gs g ih =>
        intro sub
        rw [Core.dispatchAll, List.foldl_append]
        have mem : g ∈ fs := sub (by simp)
        exact .more (ih fun f hf => sub (by simp [hf])) (.dispatch trivial ⟨g, mem, rfl⟩)
  exact within fs fun _ mem => mem

/-- The ids whose queues a thread's next step may touch. -/
def ReceiverPc.Concerns : ReceiverPc → UInt32 → Prop
  | .deliver frames, id => ∃ f ∈ frames, f.streamId = id
  | _, _ => False

@[inherit_doc ReceiverPc.Concerns]
def CallerPc.Concerns : CallerPc → UInt32 → Prop
  | .registering j, id | .unregistering j, id | .opening j _ _ _ _, id | .awaiting j _, id => id = j
  | _, _ => False

@[inherit_doc ReceiverPc.Concerns]
def Local.Concerns : (t : ThreadId) → Local t → UInt32 → Prop
  | .receiver, pc => ReceiverPc.Concerns pc
  | .caller _, pc => CallerPc.Concerns pc
  | _, _ => fun _ => False

/-- The scope of a thread's next step. -/
def scope (t : ThreadId) (l : Local t) : Core.Scope :=
  ⟨t = .receiver, Local.Concerns t l, fun i => t = .caller i, ∃ i, t = .caller i⟩

theorem frameScope_sub (fs : List InboundFrame) :
    (frameScope fs).Sub (scope .receiver (ReceiverPc.deliver fs)) where
  recv _ := rfl
  ids _ on := on
  callers _ := False.elim
  opens := False.elim

theorem receiverStep_moves {pc pc' : ReceiverPc} (h : receiverStep pc c a = some (pc', c')) :
    c.Moves (scope .receiver pc) c' := by
  unfold receiverStep at h
  split at h
  · split at h
    · split at h
      · cases h
        exact .none
      · cases h
        exact .one (.same rfl rfl rfl)
    · cases h
      exact (dispatchAll_moves _).mono (frameScope_sub _)
    · split at h
      · cases h
        exact .none
      · cases h
    · cases h
  · split at h
    · simp only at h
      split at h
      · cases h
        exact .one (.packet _ rfl)
      · cases h
        exact .one (.packet _ rfl)
    · cases h
  · split at h
    · cases h
      exact .none
    · cases h
  · split at h
    · cases h
      exact .none
    · cases h
  · cases h

theorem callScope_sub {i : Nat} {id : UInt32} {opens : Prop} {pc : CallerPc}
    (concerns : ∀ j, j = id → pc.Concerns j) :
    (callScope i id opens).Sub (scope (.caller i) pc) where
  recv := False.elim
  ids := concerns
  callers _ same := by rw [same]; rfl
  opens _ := ⟨i, rfl⟩

/-- The steps of a caller. -/
inductive CallerMove (i : Nat) (c : Core) : CallerPc → Act → CallerPc → Core → Prop
  | enter (call : Call) : CallerMove i c .idle (.call call) call.enter c
  | register {id : UInt32} : CallerMove i c (.registering id) .go .idle (c.registerStream id)
  | unregister {id : UInt32} : CallerMove i c (.unregistering id) .go .idle (c.unregisterStream id)
  | opening {id : UInt32} {host : Bytes} {port : UInt16} {token : Bytes} {pc pc' : OpenPc}
      {a : Act} {c' : Core} (m : OpenMove i id host port token c pc a (.more pc') c') :
      CallerMove i c (.opening id host port token pc) a (.opening id host port token pc') c'
  | opened {id : UInt32} {host : Bytes} {port : UInt16} {token : Bytes} {pc : OpenPc}
      {code : Int} {a : Act} {c' : Core} (m : OpenMove i id host port token c pc a (.ret code) c') :
      CallerMove i c (.opening id host port token pc) a .idle c'
  | sending {id : UInt32} {rest rest' : Bytes} {a : Act} {c' : Core}
      (h : sendStreamDataStep id rest c a = some (.inl rest', c')) :
      CallerMove i c (.sending id rest) a (.sending id rest') c'
  | sent {id : UInt32} {rest : Bytes} {a : Act} {out : Option Int} {c' : Core}
      (h : sendStreamDataStep id rest c a = some (.inr out, c')) :
      CallerMove i c (.sending id rest) a .idle c'
  | closed {id : UInt32} {a : Act} {out : Option Int} {c' : Core}
      (h : closeStreamStep id c a = some (out, c')) : CallerMove i c (.closing id) a .idle c'
  | awaiting {id : UInt32} {pc pc' : AwaitPc} {a : Act} {c' : Core}
      (h : awaitStep i false id c pc a = some (.more pc', c')) :
      CallerMove i c (.awaiting id pc) a (.awaiting id pc') c'
  | awaited {id : UInt32} {pc : AwaitPc} {a : Act} {f : Option InboundFrame} {c' : Core}
      (h : awaitStep i false id c pc a = some (.done f, c')) :
      CallerMove i c (.awaiting id pc) a .idle c'

theorem callerStep_move {i : Nat} {pc pc' : CallerPc} (h : callerStep i pc c a = some (pc', c')) :
    CallerMove i c pc a pc' c' := by
  unfold callerStep at h
  split at h
  · split at h
    · cases h
      exact .enter _
    · cases h
  · split at h
    · next go =>
        cases h
        cases go
        exact .register
    · cases h
  · split at h
    · next go =>
        cases h
        cases go
        exact .unregister
    · cases h
  · split at h
    · next step =>
        cases h
        exact .opening (openStep_move step)
    · next step =>
        cases h
        exact .opened (openStep_move step)
    · cases h
  · split at h
    · next step =>
        cases h
        exact .sending step
    · next step =>
        cases h
        exact .sent step
    · cases h
  · rw [Option.map_eq_some_iff] at h
    obtain ⟨⟨out, c''⟩, step, same⟩ := h
    cases same
    exact .closed step
  · split at h
    · next step =>
        cases h
        exact .awaiting step
    · next step =>
        cases h
        exact .awaited step
    · cases h

theorem CallerMove.moves {i : Nat} {pc pc' : CallerPc} (h : CallerMove i c pc a pc' c') :
    c.Moves (scope (.caller i) pc) c' := by
  cases h with
  | enter call => exact .none
  | register => exact .one (.register rfl)
  | unregister => exact .one (.unregister rfl)
  | opening m | opened m => exact m.moves.mono (callScope_sub fun _ on => on)
  | sending h | sent h => exact sendStreamDataStep_moves h
  | closed h => exact closeStreamStep_moves h
  | awaiting h | awaited h => exact (awaitStep_moves h).mono (callScope_sub fun _ on => on)

theorem ownerStep_moves {pc pc' : OwnerPc} (h : ownerStep pc c a = some (pc', c')) :
    c.Moves w c' := by
  unfold ownerStep at h
  split at h
  · split at h
    · split at h
      · cases h
        exact .none
      · cases h
        exact .one (.same rfl rfl rfl)
    · cases h
  · split at h
    · split at h
      · cases h
        exact .one (.same rfl rfl rfl)
      · cases h
        exact .none
    · cases h
  · split at h
    · cases h
      exact .none
    · cases h
  · cases h

theorem clockStep_moves {l : Unit} (h : clockStep c a = some (l, c')) : c.Moves w c' := by
  unfold clockStep at h
  split at h
  · cases h
    exact .one (.same rfl rfl rfl)
  · cases h

theorem step_moves {t : ThreadId} {l l' : Local t} (h : step t l c a = some (l', c')) :
    c.Moves (scope t l) c' := by
  cases t with
  | receiver => exact receiverStep_moves h
  | owner => exact ownerStep_moves h
  | clock => exact clockStep_moves h
  | caller i => exact (callerStep_move h).moves

/-- A property of the core that every move keeps holds in every reachable state. -/
theorem core_invariant {P : Core → Prop}
    (keep : ∀ w c c', Core.Move w c c' → P c → P c')
    (start : P {}) {s : State} (h : Reach machine anyStep initial s) : P s.shared := by
  refine h.invariant (I := fun s => P s.shared) start ?_
  intro s s' t a _ before _ next
  obtain ⟨l, c, step, rfl⟩ := Interleaving.Machine.next_eq_some next
  exact (step_moves step).keeps (keep _) before

end Steps

/-! ### The history replays to the queues -/

namespace Core

variable {w : Core.Scope} {c c' : Core} {id : UInt32}

theorem content_congr (h : c'.streamQueues = c.streamQueues) : c'.content = c.content := by
  funext id
  simp only [content, h]

theorem content_insert (c : Core) (id : UInt32) (l : List InboundFrame) :
    ({ c with streamQueues := c.streamQueues.insert id l } : Core).content =
      Function.update c.content id (some l) := by
  funext j
  by_cases same : j = id
  · subst same
    simp [content]
  · simp [content, same]

theorem content_erase (c : Core) (id : UInt32) :
    ({ c with streamQueues := c.streamQueues.erase id } : Core).content =
      Function.update c.content id none := by
  funext j
  by_cases same : j = id
  · subst same
    simp [content]
  · simp [content, same]

/-- The note may be one of a step of the scope. -/
structure Scope.Covers (w : Scope) (n : Note UInt32 UInt32 InboundFrame) : Prop where
  ids : w.ids n.about
  callers (i : Nat) : n.caller = some i → w.callers i
  opens (i : Nat) (id : UInt32) : n = .opened i id → w.opens

theorem Scope.Covers.of_ids {n : Note UInt32 UInt32 InboundFrame} (h : w.ids n.about)
    (nobody : n.caller = none) : w.Covers n where
  ids := h
  callers i some := by
    rw [nobody] at some
    cases some
  opens i id same := by
    rw [same] at nobody
    cases nobody

theorem Scope.Covers.of_caller {n : Note UInt32 UInt32 InboundFrame} {i : Nat} (h : w.ids n.about)
    (caller : n.caller = some i) (acts : w.callers i)
    (opens : ∀ i id, n = .opened i id → w.opens) : w.Covers n where
  ids := h
  callers j some := by
    rw [caller] at some
    cases some
    exact acts
  opens := opens

/-- The step appended notes of the scope, which replay to what it did to the queues. -/
def Extends (w : Scope) (c c' : Core) : Prop :=
  ∃ new, c'.notes = c.notes ++ new ∧ Fifo.Run c.content (ops new) c'.content ∧
    ∀ n ∈ new, w.Covers n

theorem Extends.refl (c : Core) : Extends w c c := ⟨[], by simp, .stop, by simp⟩

theorem Extends.trans {mid : Core} (h : Extends w c mid) (h' : Extends w mid c') :
    Extends w c c' := by
  obtain ⟨new, notes, run, covers⟩ := h
  obtain ⟨more, notes', run', covers'⟩ := h'
  refine ⟨new ++ more, by rw [notes', notes, List.append_assoc], ?_, ?_⟩
  · rw [ops_append]
    exact run.trans run'
  · intro n mem
    exact (List.mem_append.mp mem).elim (covers n) (covers' n)

/-- A note that records no operation. -/
theorem extends_quiet (n : Note UInt32 UInt32 InboundFrame) (quiet : n.op = none)
    (covers : w.Covers n) (queues : c'.streamQueues = c.streamQueues)
    (notes : c'.notes = c.notes ++ [n]) : Extends w c c' := by
  refine ⟨[n], notes, ?_, by simpa using covers⟩
  rw [content_congr queues, show ops [n] = [] by simp [ops, quiet]]
  exact .stop

/-- A note that records one operation. -/
theorem extends_op (n : Note UInt32 UInt32 InboundFrame) {o : Fifo.Op UInt32 InboundFrame}
    (op : n.op = some o) (covers : w.Covers n) (notes : c'.notes = c.notes ++ [n])
    (step : Fifo.Step c.content o c'.content) : Extends w c c' := by
  refine ⟨[n], notes, ?_, by simpa using covers⟩
  rw [show ops [n] = [o] by simp [ops, op]]
  exact .single step

theorem extends_tryEmplace (c : Core) (h : w.ids id) : Extends w c (c.tryEmplace id) := by
  unfold tryEmplace
  split
  · exact .refl c
  · next absent =>
      have step : Fifo.Step c.content (.create id) (Function.update c.content id (some [])) :=
        .create absent
      rw [← content_insert] at step
      exact extends_op (.created id) rfl (.of_ids h rfl) rfl step

theorem extends_pushBack {f : InboundFrame} {q : List InboundFrame} (h : w.ids f.streamId)
    (found : c.streamQueues.lookup f.streamId = some q) : Extends w c (c.pushBack f q) := by
  have step : Fifo.Step c.content (.put f.streamId f) _ := .put found
  rw [← content_insert] at step
  exact extends_op (.put f.streamId f) rfl (.of_ids h rfl) rfl step

theorem lookup_tryEmplace_of_none (absent : c.streamQueues.lookup id = none) :
    (c.tryEmplace id).streamQueues.lookup id = some [] := by
  simp [tryEmplace, absent, note]

theorem extends_dispatch {f : InboundFrame} (h : w.ids f.streamId) :
    Extends w c (c.dispatch f) := by
  have noted : ∀ c : Core, Extends w c (c.note (.inbound f.streamId f)) :=
    fun c => extends_quiet (.inbound f.streamId f) rfl (.of_ids h rfl) rfl rfl
  unfold dispatch
  split
  · next found => exact (noted c).trans (extends_pushBack h found)
  · next absent =>
      split
      · have emplaced := lookup_tryEmplace_of_none absent
        exact ((extends_tryEmplace c h).trans (noted _)).trans (extends_pushBack h emplaced)
      · exact noted c

theorem Move.extends (h : Move w c c') : Extends w c c' := by
  cases h with
  | same queues notes _ =>
      refine ⟨[], by simp [notes], ?_, by simp⟩
      rw [content_congr queues]
      exact .stop
  | packet bytes _ => exact ⟨[], by simp, .stop, by simp⟩
  | @register j h =>
      exact (extends_tryEmplace c h).trans
        (extends_quiet (.registered j) rfl (.of_ids h rfl) rfl rfl)
  | @unregister j h =>
      have step : Fifo.Step c.content (.remove j) _ := .remove
      rw [← content_erase] at step
      have removed : Extends w c
          (Core.note { c with streamQueues := c.streamQueues.erase j } (.removed j)) :=
        extends_op (.removed j) rfl (.of_ids h rfl) rfl step
      exact removed.trans (extends_quiet (.unregistered j) rfl (.of_ids h rfl) rfl rfl)
  | dispatch _ h => exact extends_dispatch h
  | @pop i o j f rest h acts found =>
      have step : Fifo.Step c.content (.take j f) _ := .take found
      rw [← content_insert] at step
      exact extends_op (.taken i o j f) rfl (.of_caller h rfl acts (by simp)) rfl step
  | @openSent i j h acts =>
      exact extends_quiet (.openSent i j) rfl (.of_caller h rfl acts (by simp)) rfl rfl
  | @opened i j h acts opens =>
      exact extends_quiet (.opened i j) rfl (.of_caller h rfl acts fun _ _ _ => opens) rfl rfl

theorem Moves.extends (h : Moves w c c') : Extends w c c' := by
  induction h with
  | none => exact .refl c
  | more _ move ih => exact ih.trans move.extends

/-- The history replays to the present content of the queues. -/
def Replays (c : Core) : Prop := Fifo.Run Fifo.empty (ops c.notes) c.content

theorem Move.replays (h : Move w c c') (before : c.Replays) : c'.Replays := by
  obtain ⟨new, notes, run, -⟩ := h.extends
  rw [Replays, notes, ops_append]
  exact before.trans run

theorem replays_empty : ({} : Core).Replays := by
  have : ({} : Core).content = Fifo.empty := by
    funext id
    rfl
  rw [Replays, this]
  exact .stop

end Core

theorem replays_of_reach {s : State} (h : Reach machine anyStep initial s) : s.shared.Replays :=
  core_invariant (fun _ _ _ move before => move.replays before) Core.replays_empty h

/-! ### Entries of `streamQueues_` -/

namespace Core

variable {w : Core.Scope} {c c' : Core} {id : UInt32}

/-- An id has an entry in `streamQueues_` exactly if it is wanted. -/
def EntryIffWanted (c : Core) (id : UInt32) : Prop :=
  (c.streamQueues.lookup id).isSome = true ↔ Wanted isControl id c.notes

/-- A note that concerns the entry of no id. -/
theorem EntryIffWanted.note {n : Note UInt32 UInt32 InboundFrame} (h : c.EntryIffWanted id)
    (plain : n.brings isControl id = false) (still : n ≠ .unregistered id) :
    (c.note n).EntryIffWanted id := by
  rw [EntryIffWanted, Core.note, wanted_concat_of_plain plain still]
  exact h

/-- A note that brings the id, where the id has an entry. -/
theorem EntryIffWanted.brings {n : Note UInt32 UInt32 InboundFrame}
    (brings : n.brings isControl id = true) (found : (c.streamQueues.lookup id).isSome = true) :
    (c.note n).EntryIffWanted id := by
  have wanted : Wanted isControl id (c.notes ++ [n]) := wanted_concat.mpr (.inl brings)
  exact iff_of_true found wanted

theorem EntryIffWanted.insert {j : UInt32} {l : List InboundFrame}
    (h : c.EntryIffWanted id) (found : j = id → (c.streamQueues.lookup id).isSome = true) :
    ({ c with streamQueues := c.streamQueues.insert j l } : Core).EntryIffWanted id := by
  by_cases same : j = id
  · subst same
    exact iff_of_true (by simp) (h.mp (found rfl))
  · rw [EntryIffWanted, AList.lookup_insert_ne (Ne.symm same)]
    exact h

/-- `try_emplace` and then a note that brings the id. -/
theorem EntryIffWanted.tryEmplace_note {j : UInt32} {n : Note UInt32 UInt32 InboundFrame}
    (h : c.EntryIffWanted id) (brings : n.brings isControl id = decide (j = id))
    (still : n ≠ .unregistered id) : ((c.tryEmplace j).note n).EntryIffWanted id := by
  by_cases same : j = id
  · subst same
    refine .brings (by simp [brings]) ?_
    cases found : c.streamQueues.lookup j with
    | none => rw [lookup_tryEmplace_of_none found, Option.isSome_some]
    | some q => simp [tryEmplace, found]
  · refine EntryIffWanted.note ?_ (by simp [brings, same]) still
    unfold tryEmplace
    split
    · exact h
    · exact (h.insert fun eq => absurd eq same).note rfl (by simp)

theorem Move.entryIffWanted (move : Move w c c') (h : c.EntryIffWanted id) : c'.EntryIffWanted id := by
  cases move with
  | same queues notes _ =>
      rw [EntryIffWanted, queues, notes]
      exact h
  | packet bytes _ => exact h
  | register _ => exact h.tryEmplace_note rfl (by simp)
  | @unregister j _ =>
      by_cases same : j = id
      · subst same
        refine iff_of_false ?_ ?_
        · simp [unregisterStream, Core.note]
        · intro wanted
          rw [unregisterStream, Core.note, wanted_concat] at wanted
          simp [Note.brings] at wanted
      · have erased : ({ c with streamQueues := c.streamQueues.erase j } : Core).EntryIffWanted id := by
          rw [EntryIffWanted, AList.lookup_erase_ne (Ne.symm same)]
          exact h
        exact (erased.note rfl (by simp)).note rfl (by simpa using same)
  | @dispatch f _ _ =>
      unfold Core.dispatch
      split
      · next q found =>
          have noted : (c.note (.inbound f.streamId f)).EntryIffWanted id := by
            by_cases same : f.streamId = id ∧ isControl f = true
            · refine .brings (by simp [Note.brings, same]) ?_
              rw [← same.1, found, Option.isSome_some]
            · exact h.note (by simpa [Note.brings] using same) (by simp)
          refine (noted.insert ?_).note rfl (by simp)
          intro same
          rw [← same, show (c.note _).streamQueues = c.streamQueues from rfl, found,
            Option.isSome_some]
      · next absent =>
          split
          · next control =>
              have noted : ((c.tryEmplace f.streamId).note (.inbound f.streamId f)).EntryIffWanted id :=
                h.tryEmplace_note (by simp [Note.brings, control]) (by simp)
              refine (noted.insert ?_).note rfl (by simp)
              intro same
              rw [← same]
              have emplaced := lookup_tryEmplace_of_none absent
              rw [show (Core.note _ _).streamQueues = (c.tryEmplace f.streamId).streamQueues from rfl,
                emplaced, Option.isSome_some]
          · next plain => exact h.note (by simp [Note.brings, plain]) (by simp)
  | @pop i o j f rest _ _ found =>
      refine (h.insert ?_).note rfl (by simp)
      rintro rfl
      rw [found, Option.isSome_some]
  | openSent _ _ => exact h.note rfl (by simp)
  | opened _ _ _ => exact h.note rfl (by simp)

end Core

/-- In every reachable state the ids with an entry are those that are wanted. -/
theorem entryIffWanted_of_reach {s : State} (h : Reach machine anyStep initial s) (id : UInt32) :
    s.shared.EntryIffWanted id := by
  refine core_invariant (P := fun c => c.EntryIffWanted id) ?_ ?_ h
  · intro w c c' move before
    exact move.entryIffWanted before
  · exact iff_of_false (by simp) not_wanted_nil

end TonTunnel.Client
