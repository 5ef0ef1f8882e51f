import TonTunnel.Egress.Registration

/-!
The rx thread handles, and when a `Stream` may be destroyed.

`~Stream` destroys `rx_thread`, and destroying a joinable `std::thread` ends the
process. A stream is destroyed when the last `shared_ptr` to it goes, so the
handle must not be joinable when nobody holds the stream (`Held`). The code
relies on somebody being answerable for a joinable handle: the stream is in
`streams_`, or the thread that took it has not joined yet. `joinable_streams_held`
shows that this is kept by every run in which four things do not happen, of which
two need no failure at all: an OPEN replaces a stream whose thread runs
(`duplicate_open_terminates`), and `handleOpen` stores the handle after a teardown
of the stream has found it empty.
-/

namespace TonTunnel.Egress

open Interleaving (Reach)

/-! ### Who holds a stream -/

/-- The local variable `stream` of `handleOpen` and `handleData`. -/
def MsgPc.Holds : MsgPc → Ref → Prop
  | .opening _ _ (.register r), r' | .opening _ _ (.ack r), r'
  | .opening _ _ (.startThread r), r' | .opening _ _ (.assign r), r' => r' = r
  | .dataing _ _ (.test r), r' | .dataing _ _ (.load r), r' | .dataing _ _ (.send r _), r'
  | .dataing _ _ (.touch r), r' | .dataing _ _ (.closing r), r' => r' = r
  | _, _ => False

/-- The snapshot of `stop`. -/
def MainPc.Holds : MainPc → Ref → Prop
  | .tearing held _ _, r => r ∈ held
  | _, _ => False

/-- Somebody has a `shared_ptr` to the stream: the table, a handler, a call of
`closeStream`, the snapshot of `stop`, or the lambda of its own rx thread. -/
def Held (s : System) (r : Ref) : Prop :=
  (∃ k, s.shared.streams.lookup k = some r) ∨ (s.loc .msg).pc.Holds r ∨
    (∃ t p, CallTears (activeCall t (s.loc t)) r p) ∨ MainPc.Holds (s.loc .main) r ∨
    s.shared.rxLife r = .running

/-- `rx_thread.joinable()`. -/
def Joinable (n : Node) (r : Ref) : Prop := (n.heap r).rxThread.isSome = true

/-- Whether a call of `closeStream` is still tearing the stream down. -/
def callTearsNow (call : Option Closing) (r : Ref) : Bool :=
  match call with
  | some ⟨_, .tear r' _⟩ => r' == r
  | _ => false

/-- Whether `stop` has still to tear the stream down. -/
def MainPc.tearsNow : MainPc → Ref → Bool
  | .tearing _ todo _, r => todo.contains r
  | _, _ => false

/-- Whether thread `t` is still tearing the stream down. -/
def tearsNow : (t : ThreadId) → Loc t → Ref → Bool
  | .msg, l => callTearsNow l.call
  | .idle, l => callTearsNow l.call
  | .main, l => l.tearsNow
  | .rx _, l => callTearsNow l.call
  | .clock, _ => fun _ => false

/-! ### The four conditions -/

/-- The rx thread handle is stored while the stream is in `streams_` or the thread
that took it has not finished its teardown. -/
def assignsInTime (s : System) : ThreadId → Act → Bool
  | .msg, .go =>
      match (s.loc .msg).pc with
      | .opening ctx q (.assign r) =>
          s.shared.streams.lookup (keyFor ctx.clientId q.streamId) == some r ||
            match s.shared.teardowns r with
            | [t] => tearsNow t (s.loc t) r
            | _ => false
      | _ => true
  | _, _ => true

/-- An OPEN is not registered over a stream with a joinable handle. -/
def replacesUnjoinable (s : System) : ThreadId → Act → Bool
  | .msg, a =>
      match (s.loc .msg).pc, a with
      | .opening _ _ (.register _), .throw _ => true
      | .opening ctx q (.register _), _ =>
          match s.shared.streams.lookup (keyFor ctx.clientId q.streamId) with
          | none => true
          | some r => (s.shared.heap r).rxThread.isNone
      | _, _ => true
  | _, _ => true

/-- `closeStream` does not lose a stream with a joinable handle. -/
def losesUnjoinable (s : System) (t : ThreadId) (a : Act) : Bool :=
  match activeCall t (s.loc t), a with
  | some ⟨c, .enter⟩, .throwMid _ =>
      match s.shared.streams.lookup (keyFor c.clientId c.streamId) with
      | none => true
      | some r => (s.shared.heap r).rxThread.isNone
  | _, _ => true

/-- `closeStream` does not give up before the join of a joinable handle. -/
def notifiesJoinable (s : System) (t : ThreadId) (a : Act) : Bool :=
  match activeCall t (s.loc t), a with
  | some ⟨_, .tear r .notify⟩, .throw _ => (s.shared.heap r).rxThread.isNone
  | _, _ => true

/-- The steps after which somebody is still answerable for every joinable handle. -/
def keepsJoiners (s : System) (t : ThreadId) (a : Act) : Bool :=
  assignsInTime s t a && replacesUnjoinable s t a && losesUnjoinable s t a && notifiesJoinable s t a

/-! ### The invariant -/

/-- A joinable stream is in the table or was taken. -/
def Joined (n : Node) : Prop :=
  ∀ r, Joinable n r → n.streams.lookup (n.heap r).key = some r ∨ n.teardowns r ≠ []

/-- The thread that took a joinable stream is still tearing it down. -/
def Joins (t : ThreadId) (l : Loc t) (n : Node) : Prop :=
  ∀ r, n.teardowns r = [t] → Joinable n r → ∃ p, Tears t l r p

theorem tears_of_tearsNow {t : ThreadId} {l : Loc t} {r : Ref} (h : tearsNow t l r = true) :
    ∃ p, Tears t l r p := by
  have call {c : Option Closing} (h : callTearsNow c r = true) : ∃ p, CallTears c r p := by
    unfold callTearsNow at h
    split at h
    · rename_i call r' p
      cases eq_of_beq h
      exact ⟨p, call, rfl⟩
    · cases h
  cases t with
  | msg | idle | rx => exact call h
  | clock => cases h
  | main =>
      cases l with
      | tearing held todo p =>
          have hin : r ∈ todo := List.contains_iff_mem.mp h
          cases todo with
          | nil => cases hin
          | cons r' rest =>
              rcases List.mem_cons.mp hin with rfl | hin
              · exact ⟨p, .inl ⟨rfl, rfl⟩⟩
              · exact ⟨.flag, .inr ⟨hin, rfl⟩⟩
      | _ => cases h

/-! ### How a step treats teardowns and handles -/

section Steps

variable {cfg : Config} {t : ThreadId} {l l' : Loc t} {n n' : Node} {a : Act} {r : Ref} {p : TearPc}

/-- A thread goes on tearing a stream down, or its step was the last of the teardown. -/
theorem CloseMove.tears_or_finish {c : CloseCall} {pc : ClosePc} {out : CloseOut}
    (m : CloseMove t c n pc a out n') (h : CallTears (some ⟨c, pc⟩) r p) :
    (∃ p', CallTears (out.call c) r p') ∨ ∃ had, TearMove t (some c) r n p a (.finished had) n' := by
  obtain ⟨c', h⟩ := h
  cases h
  cases m with
  | tear => exact .inl ⟨_, c, rfl⟩
  | finish move => exact .inr ⟨_, move⟩

theorem MainMove.tears_or_finish {l l' : MainPc} (m : MainMove n l a l' n') (h : l.Tears r p) :
    (∃ p', l'.Tears r p') ∨ ∃ had, TearMove .main none r n p a (.finished had) n' := by
  cases m with
  | tear =>
      rcases h with ⟨rfl, rfl⟩ | ⟨hin, rfl⟩
      · exact .inl ⟨_, .inl ⟨rfl, rfl⟩⟩
      · exact .inl ⟨_, .inr ⟨hin, rfl⟩⟩
  | finish move =>
      rcases h with ⟨rfl, rfl⟩ | ⟨hin, rfl⟩
      · exact .inr ⟨_, move⟩
      · exact .inl ⟨_, MainPc.tears_flag.mpr ⟨hin, rfl⟩⟩
  | _ => exact h.elim

theorem ThreadMove.tears_or_finish {Pc : Type} {resume : Bool → Pc → Pc}
    {Base : Node → Pc → Act → Thread Pc → Node → Prop} {k k' : Thread Pc}
    (m : ThreadMove t resume Base n k a k' n') (h : CallTears k.call r p) :
    (∃ p', CallTears k'.call r p') ∨ ∃ call had, k.call = some ⟨call, .tear r p⟩ ∧
      TearMove t (some call) r n p a (.finished had) n' := by
  cases m with
  | base => exact absurd h (not_callTears_none r p)
  | call move | ret move =>
      rcases move.tears_or_finish h with goes | ⟨had, last⟩
      · exact .inl goes
      · obtain ⟨c', h⟩ := h
        cases h
        exact .inr ⟨_, had, rfl, last⟩

/-- **A teardown goes on or ends**; one that ends at the notification is a call of
`closeStream`. -/
theorem Move.tears_or_finish (m : Move cfg t n l a l' n') (hl : PosOk t l n)
    (h : Tears t l r p) :
    (∃ p', Tears t l' r p') ∨ ∃ call had, TearMove t call r n p a (.finished had) n' ∧
      (p = .notify → ∃ c, activeCall t l = some ⟨c, .tear r p⟩) := by
  have thread {Pc : Type} {resume : Bool → Pc → Pc}
      {Base : Node → Pc → Act → Thread Pc → Node → Prop} {k k' : Thread Pc}
      (m : ThreadMove t resume Base n k a k' n') (hk : activeCall t l = k.call)
      (h : CallTears k.call r p) : (∃ p', CallTears k'.call r p') ∨
        ∃ call had, TearMove t call r n p a (.finished had) n' ∧
          (p = .notify → ∃ c, activeCall t l = some ⟨c, .tear r p⟩) := by
    rcases m.tears_or_finish h with goes | ⟨c, had, hcall, last⟩
    · exact .inl goes
    · exact .inr ⟨some c, had, last, fun _ => ⟨c, hk.trans hcall⟩⟩
  cases t with
  | msg | idle | rx => exact thread m rfl h
  | clock => exact h.elim
  | main =>
      rcases MainMove.tears_or_finish m h with goes | ⟨had, last⟩
      · exact .inl goes
      · refine .inr ⟨none, had, last, fun hp => ?_⟩
        cases l with
        | tearing held todo p' =>
            cases todo with
            | nil => exact h.elim
            | cons r' rest =>
                rcases h with ⟨-, rfl⟩ | ⟨-, rfl⟩
                · exact absurd hp hl.2
                · cases hp
        | _ => exact h.elim

/-- The last step of a teardown leaves no joinable handle, unless the notification threw. -/
theorem TearMove.finished {call : Option CloseCall} {had : Bool}
    (m : TearMove t call r n p a (.finished had) n')
    (notified : ∀ what, p = .notify → a = .throw what → (n.heap r).rxThread = none) :
    (n'.heap r).rxThread = none := by
  cases m with
  | notifyThrows => exact notified _ rfl rfl
  | unjoinable none_ => exact none_
  | joinThrows none_ => exact none_
  | join => simp [Node.setStream]

/-- `handleOpen` stores the handle of the rx thread of `r`. -/
inductive Assigns (r : Ref) : (t : ThreadId) → Loc t → Act → Prop
  | mk {ctx q} : Assigns r .msg { pc := .opening ctx q (.assign r) } .go

theorem joinable_closeFd {fd : Int} (h : Joinable (n.closeFd fd) r) : Joinable n r := by
  obtain ⟨fds, closes, hclose⟩ := n.closeFd_eq fd
  rw [hclose] at h
  exact h

theorem joinable_setStream {r' : Ref} {f : Stream → Stream}
    (hf : (f (n.heap r')).rxThread.isSome → (n.heap r').rxThread.isSome)
    (h : Joinable (n.setStream r' f) r) : Joinable n r := by
  by_cases hr : r = r'
  · subst hr
    exact hf (by simpa [Joinable, Node.setStream] using h)
  · simpa [Joinable, Node.setStream, hr] using h

theorem Mild.was_joinable (m : Mild n n') (h : Joinable n' r) : Joinable n r := by
  rw [Joinable, m.rxThread] at h
  exact h

theorem TearMove.was_joinable {r' : Ref} {call : Option CloseCall} {out : TearOut}
    (m : TearMove t call r' n p a out n') (h : Joinable n' r) : Joinable n r := by
  cases m with
  | flag | clear => exact joinable_setStream id h
  | join =>
      refine joinable_setStream (fun hsome => ?_) h
      cases hsome
  | shutdown => exact (Mild.shutdownFd n _).was_joinable h
  | close => exact joinable_closeFd h
  | _ => exact h

theorem CloseMove.was_joinable {c : CloseCall} {pc : ClosePc} {out : CloseOut}
    (m : CloseMove t c n pc a out n') (h : Joinable n' r) : Joinable n r := by
  cases m with
  | absent | throws | lose => exact h
  | @take r' =>
      obtain ⟨counts, htake⟩ := Node.take_eq n t c r'
      rw [htake] at h
      exact h
  | tear move | finish move => exact move.was_joinable h

theorem OpenMove.was_joinable {ctx : MsgCtx} {q : OpenMessage} {pc : OpenPc} {out : OpenOut}
    (m : OpenMove cfg ctx.clientId q n pc a out n') (h : Joinable n' r) :
    Joinable n r ∨ Assigns r .msg { pc := .opening ctx q pc } a := by
  cases m with
  | @assign r' =>
      by_cases hr : r = r'
      · subst hr
        exact .inr .mk
      · exact .inl (by simpa [Joinable, Node.setStream, hr] using h)
  | makeStream =>
      refine .inl ?_
      by_cases hr : r = n.nextRef
      · subst hr
        simp [Joinable, Node.makeStream] at h
      · simpa [Joinable, Node.makeStream, hr] using h
  | connected => exact .inl ((Mild.noteSelect n _ _ _).was_joinable h)
  | disconnected => exact .inl ((Mild.noteSelect n _ _ _).was_joinable (joinable_closeFd h))
  | _ => exact .inl h

/-- **A handle becomes joinable only by the assignment of `handleOpen`.** -/
theorem Move.was_joinable (m : Move cfg t n l a l' n') (h : Joinable n' r) :
    Joinable n r ∨ Assigns r t l a := by
  cases t with
  | msg =>
      cases m with
      | base move =>
          cases move with
          | opening move | opened move | openEscaped move => exact move.was_joinable h
          | dataing move | dataCloses move | dataDone move => exact .inl (move.mild.was_joinable h)
          | _ => exact .inl h
      | call move | ret move => exact .inl (move.was_joinable h)
  | idle =>
      cases m with
      | base move => exact .inl (move.mild.was_joinable h)
      | call move | ret move => exact .inl (move.was_joinable h)
  | rx =>
      cases m with
      | base move => exact .inl (move.mild.was_joinable h)
      | call move | ret move => exact .inl (move.was_joinable h)
  | main =>
      cases m with
      | tear move | finish move => exact .inl (move.was_joinable h)
      | _ => exact .inl h
  | clock =>
      obtain ⟨ms, rfl⟩ := m
      exact .inl h

end Steps

/-! ### The guarded steps keep the invariant -/

section Guarded

variable {cfg : Config} {s : System} {t : ThreadId} {a : Act} {l' : Loc t} {n' : Node}

/-- At the assignment somebody is answerable for the stream. -/
theorem assigns_in_time {r : Ref} (hs : Owned s) (hok : assignsInTime s t a = true)
    (h : Assigns r t (s.loc t) a) :
    s.shared.streams.lookup (s.shared.heap r).key = some r ∨
      ∃ t', s.shared.teardowns r = [t'] ∧ ∃ p, Tears t' (s.loc t') r p := by
  have hloc := hs.loc t
  generalize hl : s.loc t = l at h hloc
  cases h with
  | @mk ctx q =>
      obtain ⟨named, -⟩ := hloc.pos
      have hkey : (s.shared.heap r).key = keyFor ctx.clientId q.streamId := by
        rw [Stream.key, named.2.1, named.2.2]
      simp only [assignsInTime, hl, Bool.or_eq_true, beq_iff_eq] at hok
      rw [hkey]
      refine hok.imp_right fun hok => ?_
      split at hok
      · rename_i t' mine
        exact ⟨t', mine, tears_of_tearsNow hok⟩
      · cases hok

/-- A stream that a guarded step drops has no joinable handle. -/
theorem unjoinable_of_drops {r : Ref} (replaces : replacesUnjoinable s t a = true)
    (loses : losesUnjoinable s t a = true) (drops : Drops s.shared r t (s.loc t) a) :
    (s.shared.heap r).rxThread = none := by
  generalize hl : s.loc t = l at drops
  cases drops with
  | replaced found | replacedThrows found =>
      simpa [replacesUnjoinable, hl, found] using replaces
  | lost calls found => simpa [losesUnjoinable, hl, calls, found] using loses

/-- `handleOpen` drops no stream when it stores a handle. -/
theorem not_assigns_of_drops {n : Node} {l : Loc t} {r r' : Ref} (drops : Drops n r t l a) :
    ¬ Assigns r' t l a := by
  intro assigns
  cases assigns with
  | mk => cases drops

/-- One guarded step: the shared part. -/
theorem Joined.step (hs : Owned s) (hj : Joined s.shared) (hok : keepsJoiners s t a = true)
    (hstep : step cfg t (s.loc t) s.shared a = some (l', n')) : Joined n' := by
  have m := step_move hstep
  have hn := hs.shared
  have e := (m.own hn (hs.loc t)).1
  simp only [keepsJoiners, Bool.and_eq_true] at hok
  obtain ⟨⟨⟨intime, replaces⟩, loses⟩, -⟩ := hok
  intro r hr
  have source := m.was_joinable hr
  have answerable : s.shared.streams.lookup (s.shared.heap r).key = some r ∨
      s.shared.teardowns r ≠ [] := by
    rcases source with hr | assigns
    · exact hj r hr
    · refine (assigns_in_time hs intime assigns).imp_right ?_
      rintro ⟨t', mine, -⟩
      simp [mine]
  rcases answerable with hin | taken
  · have hkey : (n'.heap r).key = (s.shared.heap r).key := by
      obtain ⟨-, hclient, hstream, -⟩ := e.ident (hn.bound hin)
      rw [Stream.key, hclient, hstream, Stream.key]
    rw [hkey]
    rcases m.table.entry hin with stays | taken | drops
    · exact .inl stays
    · exact .inr taken
    · rcases source with hr | assigns
      · simp [Joinable, unjoinable_of_drops replaces loses drops] at hr
      · exact absurd assigns (not_assigns_of_drops drops)
  · exact .inr (e.still_taken hn taken)

/-- One guarded step: the part of the thread that moves. -/
theorem Joins.own (hs : Owned s) (hj : Joins t (s.loc t) s.shared) (hok : keepsJoiners s t a = true)
    (hstep : step cfg t (s.loc t) s.shared a = some (l', n')) : Joins t l' n' := by
  have m := step_move hstep
  have hn := hs.shared
  obtain ⟨e, hl'⟩ := m.own hn (hs.loc t)
  simp only [keepsJoiners, Bool.and_eq_true] at hok
  obtain ⟨⟨⟨intime, -⟩, -⟩, notifies⟩ := hok
  intro r mine hr
  rcases e.teardowns hn r with same | ⟨none_, -, key, found⟩
  · rw [same] at mine
    have tears : ∃ p, Tears t (s.loc t) r p := by
      rcases m.was_joinable hr with hr | assigns
      · exact hj r mine hr
      · rcases assigns_in_time hs intime assigns with hin | ⟨t', mine', tears⟩
        · rw [hn.untaken hin] at mine
          cases mine
        · rw [mine] at mine'
          cases mine'
          exact tears
    obtain ⟨p, tears⟩ := tears
    rcases m.tears_or_finish (hs.loc t).pos tears with goes | ⟨call, had, last, notify⟩
    · exact goes
    · have none_ : (n'.heap r).rxThread = none := by
        refine last.finished fun what hp ha => ?_
        obtain ⟨c, calls⟩ := notify hp
        subst hp ha
        simpa [notifiesJoinable, calls] using notifies
      simp [Joinable, none_] at hr
  · -- the stream was just taken, so it is at the first stage of its teardown
    rcases hl'.fate mine with tears | torn
    · exact tears
    · have kept := e.kept hn (hn.bound found) (by simp [none_])
      have closed := torn.1
      rw [kept.closed, hn.unclosed found] at closed
      cases closed

/-- One guarded step: the part of another thread. -/
theorem Joins.other {t' : ThreadId} (hs : Owned s) (hj : Joins t' (s.loc t') s.shared)
    (hok : keepsJoiners s t a = true)
    (hstep : step cfg t (s.loc t) s.shared a = some (l', n')) (ht : t' ≠ t) :
    Joins t' (s.loc t') n' := by
  have m := step_move hstep
  have e := (m.own hs.shared (hs.loc t)).1
  intro r mine hr
  have hold : s.shared.teardowns r = [t'] := by
    rcases e.teardowns hs.shared r with same | ⟨_, mine', _⟩
    · exact same ▸ mine
    · rw [mine] at mine'
      exact absurd (List.head_eq_of_cons_eq mine') ht
  rcases m.was_joinable hr with hr | assigns
  · exact hj r hold hr
  · simp only [keepsJoiners, Bool.and_eq_true] at hok
    rcases assigns_in_time hs hok.1.1.1 assigns with hin | ⟨t'', mine', tears⟩
    · rw [hs.shared.untaken hin] at hold
      cases hold
    · rw [mine'] at hold
      cases hold
      exact tears

end Guarded

/-- Every guarded run keeps somebody answerable for every joinable handle. -/
theorem joins_of_reaches {cfg : Config} {s : System}
    (h : ReachesBy cfg (fun s t a => keepsJoiners s t a = true) s) :
    Interleaving.Holds Joined Joins s := by
  refine h.threadModular ⟨fun r hr => (by cases hr), fun t r mine => (by cases mine)⟩ ?_ ?_
  · intro s t a l n hr hj hok hstep
    have hs := Reaches.owned hr.any
    exact ⟨hj.shared.step hs hok hstep, (hj.loc t).own hs hok hstep⟩
  · intro s t a l n hr hj hok hstep t' ht
    exact (hj.loc t').other (Reaches.owned hr.any) hok hstep ht

theorem held_of_tears {s : System} {t : ThreadId} {r : Ref} {p : TearPc} (hs : Owned s)
    (h : Tears t (s.loc t) r p) : Held s r := by
  cases t with
  | msg => exact .inr (.inr (.inl ⟨.msg, p, h⟩))
  | idle => exact .inr (.inr (.inl ⟨.idle, p, h⟩))
  | rx r' => exact .inr (.inr (.inl ⟨.rx r', p, h⟩))
  | clock => exact h.elim
  | main =>
      refine .inr (.inr (.inr (.inl ?_)))
      have pos : MainOk (s.loc .main) := (hs.loc .main).pos
      change MainPc.Tears (s.loc .main) r p at h
      generalize s.loc .main = l at h pos
      cases l with
      | tearing held todo p' =>
          obtain ⟨⟨-, hheld⟩, -⟩ := pos
          cases todo with
          | nil => exact h.elim
          | cons r' rest =>
              rcases h with ⟨rfl, -⟩ | ⟨hin, -⟩
              · exact hheld _ List.mem_cons_self
              · exact hheld _ (List.mem_cons_of_mem _ hin)
      | _ => exact h.elim

/-- **No joinable handle is destroyed.** In every run that stores each rx thread
handle before a teardown of its stream is over, registers no OPEN over a stream
with a joinable handle, and does not run out of memory inside `closeStream`
between erasing such a stream and joining it, a stream that nobody holds has no
joinable handle. -/
theorem joinable_streams_held {cfg : Config} {s : System}
    (h : ReachesBy cfg (fun s t a => keepsJoiners s t a = true) s) (r : Ref)
    (released : ¬ Held s r) : ¬ Joinable s.shared r := by
  have hs := Reaches.owned h.any
  have hj := joins_of_reaches h
  intro joinable
  rcases hj.shared r joinable with hin | taken
  · exact released (.inl ⟨_, hin⟩)
  · rcases hs.shared.single r with none_ | ⟨t, mine⟩
    · exact taken none_
    · obtain ⟨p, tears⟩ := hj.loc t r mine joinable
      exact released (held_of_tears hs tears)

/-! ### A duplicate OPEN -/

/-- The steps of an rx thread. -/
def rxSchedule (r : Ref) (acts : List Act) : List (ThreadId × Act) := acts.map fun a => (.rx r, a)

/-- A stream that is in none of the places is not held; who tears it down is known
from its owners. -/
theorem not_held {s : System} {r : Ref} (ctx : MsgCtx) (hs : Owned s) (table : r ∉ s.shared.refs)
    (msg : (s.loc .msg).pc = .parsing ctx) (main : s.loc .main = MainPc.running)
    (calls : ∀ t, s.shared.teardowns r = [t] → activeCall t (s.loc t) = none)
    (rx : s.shared.rxLife r ≠ .running) : ¬ Held s r := by
  rintro (hin | hmsg | ⟨t, p, tears⟩ | hmain | hrx)
  · exact table (Node.mem_refs.mpr hin)
  · rw [msg] at hmsg
    exact hmsg
  · have mine : s.shared.teardowns r = [t] := by
      cases t with
      | msg => exact ((hs.loc .msg).stage tears).1
      | idle => exact ((hs.loc .idle).stage tears).1
      | rx q => exact ((hs.loc (.rx q)).stage tears).1
      | main | clock => exact absurd tears (not_callTears_none r p)
    rw [calls t mine] at tears
    exact not_callTears_none r p tears
  · rw [main] at hmain
    exact hmain
  · exact rx hrx

/-- The client opens and closes stream 1; the message thread joins the rx thread. -/
def openAndClose : List (ThreadId × Act) :=
  List.flatten [[(.msg, .deliver (ascii "A") (openStream1 ++ [3, 0, 0, 0, 1]))], openSchedule 3,
    List.replicate 7 (.msg, .go), [(.msg, .sent true), (.msg, .go)], rxSchedule 0 [.go, .go],
    [(.msg, .go)]]

theorem closed_stream_unjoinable :
    ¬ Held ((machine {}).run init openAndClose) 0 ∧
      ¬ Joinable ((machine {}).run init openAndClose).shared 0 := by
  have h : ReachesBy {} (fun s t a => keepsJoiners s t a = true)
      ((machine {}).run init openAndClose) := Reach.run (by decide)
  have mine : ((machine {}).run init openAndClose).shared.teardowns 0 = [.msg] := by decide
  have released : ¬ Held ((machine {}).run init openAndClose) 0 := by
    refine not_held ⟨ascii "A", openStream1 ++ [3, 0, 0, 0, 1], 17⟩
      (Reaches.owned h.any) (by decide) (by decide) (by decide) (fun t ht => ?_) (by decide)
    rw [mine] at ht
    cases ht
    decide
  exact ⟨released, joinable_streams_held h 0 released⟩

/-- After a duplicate OPEN the first rx thread meets the end of its socket, closes
the second stream in its place, and ends. -/
def duplicateOpenEof : List (ThreadId × Act) :=
  duplicateOpen ++
    rxSchedule 0 [.go, .go, .recvRet none, .go, .go, .go, .go, .go, .go, .sent true, .go] ++
    rxSchedule 1 [.go, .go] ++ rxSchedule 0 [.go, .go]

/-- The first stream of a duplicate OPEN is released with a joinable handle. -/
theorem duplicate_open_terminates :
    ∃ s, Reaches {} s ∧ ¬ Held s 0 ∧ Joinable s.shared 0 := by
  have h : Reaches {} ((machine {}).run init duplicateOpenEof) :=
    (Reach.run (by decide : (machine {}).follows (fun _ _ _ => true) init duplicateOpenEof)).any
  have none_ : ((machine {}).run init duplicateOpenEof).shared.teardowns 0 = [] := by decide
  refine ⟨_, h, ?_, by unfold Joinable; decide⟩
  refine not_held ⟨ascii "A", openStream1 ++ openStream1, 24⟩ h.owned (by decide)
    (by decide) (by decide) (fun t ht => ?_) (by decide)
  rw [none_] at ht
  cases ht

end TonTunnel.Egress
