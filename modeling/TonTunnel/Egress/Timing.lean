import TonTunnel.Egress.JoinSafety

/-!
What the clock decides.

`TimeMove` says what a step can do to the clock, the time stamps of closed keys and
the activity stamps of streams: three kinds of steps write a stamp, one erases some.

* `recently_closed_streams_ms_` (`GraceOk`): a key that `closeStream` has gone
  through keeps a stamp for the grace period, and every stamp is the time of such a
  call.
* `last_activity_ms` (`Listed`): what the idle monitor has found stale is stale when
  it is closed, unless the stream was used or its key registered again in between.
-/

namespace TonTunnel.Egress

open Interleaving (Reach Trace anyStep)

/-! ### Stamps -/

/-- Nothing is stamped. -/
structure Untimed (n n' : Node) : Prop where
  recent : n'.recentlyClosedMs = n.recentlyClosedMs
  now : n.nowMs ≤ n'.nowMs
  active {r : Ref} : r < n.nextRef → (n'.heap r).lastActivityMs = (n.heap r).lastActivityMs

namespace Untimed

variable {n n' n'' : Node}

theorem refl (n : Node) : Untimed n n := ⟨rfl, Int.le_refl _, fun _ => rfl⟩

theorem emit (n : Node) (e : Event) : Untimed n (n.emit e) := ⟨rfl, Int.le_refl _, fun _ => rfl⟩

theorem setStream {r : Ref} {f : Stream → Stream}
    (keeps : (f (n.heap r)).lastActivityMs = (n.heap r).lastActivityMs) :
    Untimed n (n.setStream r f) := by
  refine ⟨rfl, Int.le_refl _, fun {r'} _ => ?_⟩
  by_cases same : r' = r
  · subst same
    simpa [Node.setStream] using keeps
  · simp [Node.setStream, same]

theorem closeFd (n : Node) (fd : Int) : Untimed n (n.closeFd fd) := by
  obtain ⟨fds, closes, h⟩ := n.closeFd_eq fd
  rw [h]
  exact ⟨rfl, Int.le_refl _, fun _ => rfl⟩

theorem shutdownFd (n : Node) (fd : Int) : Untimed n (n.shutdownFd fd) := by
  rcases n.shutdownFd_eq fd with same | ⟨k, shut⟩
  · rw [same]
    exact .refl n
  · rw [shut]
    exact .emit n _

theorem noteSelect (n : Node) (ip : Bytes) (fd : Int) (ret : ConnectRet) :
    Untimed n (noteSelect n ip fd ret) := by
  rcases noteSelect_eq n ip fd ret with same | waits
  · rw [same]
    exact .refl n
  · rw [waits]
    exact .emit n _

end Untimed

/-- The thread stores `nowMs()` in the `last_activity_ms` of `r` next. -/
def Touches : (t : ThreadId) → Loc t → Ref → Prop
  | .rx r, l, r' => r' = r ∧ ∃ data, l = { pc := .touch data }
  | .msg, l, r' => ∃ ctx d, l = { pc := .dataing ctx d (.touch r') }
  | _, _, _ => False

/-- The thread is the idle monitor, about to scan with the time `now`. -/
def Scans : (t : ThreadId) → Loc t → Int → Prop
  | .idle, l, now => l = { pc := .scan now }
  | _, _, _ => False

/-- What a step of thread `t` from `l` does to the clock and the stamps. -/
inductive TimeMove (n : Node) (t : ThreadId) (l : Loc t) (a : Act) (n' : Node) : Prop
  | untimed (untimed : Untimed n n')
      (calm : ∀ c, activeCall t l = some ⟨c, .enter⟩ → a ≠ .go)
  /-- the section of `closeStream`, whether the key was there or not -/
  | stamp {c : CloseCall} (calls : activeCall t l = some ⟨c, .enter⟩) (goes : a = .go)
      (recent : n'.recentlyClosedMs =
        n.recentlyClosedMs.insert (keyFor c.clientId c.streamId) n.nowMs)
      (now : n'.nowMs = n.nowMs) (heap : n'.heap = n.heap)
  | prune {now : Int} (scans : Scans t l now)
      (after : n' = n.pruneClosed now kRecentlyClosedGraceMs)
  | touch {r : Ref} (touches : Touches t l r) (goes : a = .go) (after : n' = n.touch r)

section Moves

variable {cfg : Config} {t : ThreadId} {l : Loc t} {n n' : Node} {a : Act}

theorem TearMove.untimed {call : Option CloseCall} {r : Ref} {p : TearPc} {out : TearOut}
    (m : TearMove t call r n p a out n') : Untimed n n' := by
  cases m with
  | flag | clear | join => exact .setStream rfl
  | shutdown => exact .shutdownFd n _
  | close => exact .closeFd n _
  | notify => exact .emit n _
  | _ => exact .refl n

theorem CloseMove.time {c : CloseCall} {pc : ClosePc} {out : CloseOut} (m : CloseMove t c n pc a out n')
    (calls : activeCall t l = some ⟨c, pc⟩) : TimeMove n t l a n' := by
  cases m with
  | absent => exact .stamp calls rfl rfl rfl rfl
  | @take r =>
      obtain ⟨counts, after⟩ := Node.take_eq n t c r
      rw [after]
      exact .stamp calls rfl rfl rfl rfl
  | throws => exact .untimed (.refl n) (fun _ _ => nofun)
  | lose => exact .untimed ⟨rfl, Int.le_refl _, fun _ => rfl⟩ (fun _ _ => nofun)
  | tear move | finish move =>
      refine .untimed move.untimed fun c' enters => ?_
      cases calls.symm.trans enters

theorem OpenMove.untimed {client : Bytes} {q : OpenMessage} {pc : OpenPc} {out : OpenOut}
    (m : OpenMove cfg client q n pc a out n') : Untimed n n' := by
  cases m with
  | failed | unresolved | resolved | attempt | ack | reported => exact .emit n _
  | quotaLeft | quotaFull | quotaThrows | socket | register | registerThrows | startThread =>
      exact ⟨rfl, Int.le_refl _, fun _ => rfl⟩
  | connected => exact .noteSelect n _ _ _
  | @disconnected _ ip _ fd _ ret =>
      obtain ⟨fds, closes, after⟩ := (noteSelect n ip fd ret).closeFd_eq fd
      have first := Untimed.noteSelect n ip fd ret
      rw [after]
      exact ⟨first.recent, first.now, first.active⟩
  | makeStream =>
      refine ⟨rfl, Int.le_refl _, fun low => ?_⟩
      simp [Node.makeStream, Nat.ne_of_lt low]
  | assign => exact .setStream rfl
  | _ => exact .refl n

theorem MsgMove.time {pc : MsgPc} {l' : Thread MsgPc} (m : MsgMove cfg n pc a l' n') :
    TimeMove n .msg ({ pc } : Thread MsgPc) a n' := by
  have data {ctx : MsgCtx} {d : DataMessage} {dpc : DataPc} {out : DataOut}
      (move : DataMove cfg ctx.clientId d n dpc a out n') :
      TimeMove n .msg ({ pc := .dataing ctx d dpc } : Thread MsgPc) a n' := by
    cases move with
    | touch => exact .touch ⟨_, _, rfl⟩ rfl rfl
    | tooLong | notFound | streamClosed | sendFails | sends => exact .untimed (.emit n _) nofun
    | _ => exact .untimed (.refl n) nofun
  cases m with
  | dispatchOpen | dispatchData | dispatchClose | dispatchError | closeReply =>
      exact .untimed (.emit n _) nofun
  | opening move | opened move | openEscaped move => exact .untimed move.untimed nofun
  | dataing move | dataCloses move | dataDone move => exact data move
  | deliver | leave | closeReplyThrows => exact .untimed (.refl n) nofun

theorem RxMove.time {r : Ref} {pc : RxPc} {l' : Thread RxPc} (m : RxMove r n pc a l' n') :
    TimeMove n (.rx r) ({ pc } : Thread RxPc) a n' := by
  cases m with
  | touch => exact .touch ⟨rfl, _, rfl⟩ rfl rfl
  | received | push | pushFails => exact .untimed (.emit n _) nofun
  | leave => exact .untimed ⟨rfl, Int.le_refl _, fun _ => rfl⟩ nofun
  | _ => exact .untimed (.refl n) nofun

theorem IdleMove.time {pc : IdlePc} {l' : Thread IdlePc} (m : IdleMove cfg n pc a l' n') :
    TimeMove n .idle ({ pc } : Thread IdlePc) a n' := by
  cases m with
  | scan => exact .prune rfl rfl
  | exit => exact .untimed ⟨rfl, Int.le_refl _, fun _ => rfl⟩ nofun
  | _ => exact .untimed (.refl n) nofun

theorem MainMove.untimed {l l' : MainPc} (m : MainMove n l a l' n') : Untimed n n' := by
  cases m with
  | stop | transportStop | snapshot => exact ⟨rfl, Int.le_refl _, fun _ => rfl⟩
  | tear move | finish move => exact move.untimed
  | joinIdle | leave => exact .refl n

/-- **Every step treats the clock and the stamps in one of the four ways.** -/
theorem Move.time {l' : Loc t} (m : Move cfg t n l a l' n') : TimeMove n t l a n' := by
  cases t with
  | msg =>
      cases m with
      | base move => exact move.time
      | call move | ret move => exact move.time rfl
  | idle =>
      cases m with
      | base move => exact move.time
      | call move | ret move => exact move.time rfl
  | rx r =>
      cases m with
      | base move => exact move.time
      | call move | ret move => exact move.time rfl
  | main => exact .untimed (MainMove.untimed m) nofun
  | clock =>
      obtain ⟨ms, rfl⟩ := m
      exact .untimed ⟨rfl, Int.le_add_of_nonneg_right (Int.natCast_nonneg ms), fun _ => rfl⟩ nofun

theorem Touches.activeCall {r : Ref} (touches : Touches t l r) : activeCall t l = none := by
  cases t with
  | rx =>
      obtain ⟨-, _, rfl⟩ := touches
      rfl
  | msg =>
      obtain ⟨_, _, rfl⟩ := touches
      rfl
  | _ => exact touches.elim

theorem Scans.activeCall {now : Int} (scans : Scans t l now) : activeCall t l = none := by
  cases t with
  | idle =>
      cases scans
      rfl
  | _ => exact scans.elim

/-- The clock does not go back. -/
theorem TimeMove.now_le (m : TimeMove n t l a n') : n.nowMs ≤ n'.nowMs := by
  cases m with
  | untimed h _ => exact h.now
  | stamp _ _ _ now => exact now.ge
  | prune _ after | touch _ _ after =>
      rw [after]
      exact Int.le_refl _

/-- The idle monitor reads the clock before it scans. -/
theorem Move.scan_le {l l' : Thread IdlePc} {now : Int} (m : Move cfg .idle n l a l' n')
    (scans : l'.pc = .scan now) : l.pc = .scan now ∨ now = n.nowMs := by
  cases m with
  | call => exact .inl scans
  | ret => exact .inl scans
  | base move =>
      cases move with
      | wake =>
          cases scans
          exact .inr rfl
      | _ => cases scans

theorem scan_of_reach {s : System} {now : Int} (h : Reaches cfg s)
    (scans : (s.loc .idle).pc = .scan now) : now ≤ s.shared.nowMs := by
  revert scans
  refine Reach.invariant (I := fun s => (s.loc .idle).pc = .scan now → now ≤ s.shared.nowMs) ?_ ?_ h
  · intro scans
    cases scans
  intro s s' t a _ before _ next scans
  obtain ⟨l, n, m, rfl⟩ := next_move next
  have later := m.time.now_le
  by_cases mine : t = .idle
  · subst mine
    simp only [Function.update_self] at scans
    rcases m.scan_le scans with old | rfl
    · exact (before old).trans later
    · exact later
  · simp only [Function.update_of_ne (Ne.symm mine)] at scans
    exact (before scans).trans later

end Moves

/-! ### The grace period of closed keys -/

/-- In the run a call of `closeStream` went through its section for the key, at the time `at_`. -/
def StampedAt (tr : List (System × ThreadId × Act)) (key : Bytes) (at_ : Int) : Prop :=
  ∃ s t c, (s, t, .go) ∈ tr ∧ activeCall t (s.loc t) = some ⟨c, .enter⟩ ∧
    keyFor c.clientId c.streamId = key ∧ s.shared.nowMs = at_

/-- In the run a call of `closeStream` took the key out of `streams_`, at the time `at_`. -/
def RemovedAt (tr : List (System × ThreadId × Act)) (key : Bytes) (at_ : Int) : Prop :=
  ∃ s t a c, (s, t, a) ∈ tr ∧ activeCall t (s.loc t) = some ⟨c, .enter⟩ ∧
    keyFor c.clientId c.streamId = key ∧ s.shared.streams.lookup key ≠ none ∧
    (∀ what, a ≠ .throw what) ∧ s.shared.nowMs = at_

/-- No allocation fails between the two updates of `closeStream`, or in the section in which
`handleData` looks a stream up. -/
def stampsKept (s : System) (t : ThreadId) (a : Act) : Bool :=
  (match activeCall t (s.loc t), a with
    | some ⟨_, .enter⟩, .throwMid _ => false
    | _, _ => true) &&
  match t, a, s.loc .msg with
    | .msg, .throw _, ⟨.dataing _ _ .lookup, none⟩ => false
    | _, _, _ => true

/-- What the stamps of closed keys say about the run. -/
structure GraceOk (tr : List (System × ThreadId × Act)) (s : System) : Prop where
  past {key : Bytes} {at_ : Int} : StampedAt tr key at_ → at_ ≤ s.shared.nowMs
  kept {key : Bytes} {at_ : Int} : StampedAt tr key at_ →
    s.shared.nowMs - at_ ≤ kRecentlyClosedGraceMs →
    ∃ stamp, s.shared.recentlyClosedMs.lookup key = some stamp ∧ at_ ≤ stamp
  origin {key : Bytes} {stamp : Int} : s.shared.recentlyClosedMs.lookup key = some stamp →
    StampedAt tr key stamp

theorem lookup_pruneClosed {n : Node} {now graceMs : Int} {key : Bytes} {stamp : Int} :
    (n.pruneClosed now graceMs).recentlyClosedMs.lookup key = some stamp ↔
      n.recentlyClosedMs.lookup key = some stamp ∧ now - stamp ≤ graceMs := by
  rw [← Option.mem_def, ← Option.mem_def, AList.mem_lookup_iff, AList.mem_lookup_iff]
  simp [Node.pruneClosed]

section Grace

variable {cfg : Config} {ok : System → ThreadId → Act → Prop} {tr : List (System × ThreadId × Act)}
  {s s' : System} {t : ThreadId} {a : Act} {key : Bytes} {at_ : Int}

theorem StampedAt.mono (h : StampedAt tr key at_) (x : System × ThreadId × Act) :
    StampedAt (tr ++ [x]) key at_ := by
  obtain ⟨s, t, c, mem, rest⟩ := h
  exact ⟨s, t, c, List.mem_append_left _ mem, rest⟩

/-- A call that went through is an old one or the last step. -/
theorem StampedAt.concat (h : StampedAt (tr ++ [(s, t, a)]) key at_) :
    StampedAt tr key at_ ∨ a = .go ∧ s.shared.nowMs = at_ ∧
      ∃ c, activeCall t (s.loc t) = some ⟨c, .enter⟩ ∧ keyFor c.clientId c.streamId = key := by
  obtain ⟨s₁, t₁, c, mem, calls, is, now⟩ := h
  rcases List.mem_append.mp mem with old | last
  · exact .inl ⟨s₁, t₁, c, old, calls, is, now⟩
  · cases List.mem_singleton.mp last
    exact .inr ⟨rfl, now, c, calls, is⟩

/-- A step keeps the stamps right. -/
theorem GraceOk.step {l : Loc t} {n : Node} (h : Reaches cfg s)
    (m : Move cfg t s.shared (s.loc t) a l n) (before : GraceOk tr s) :
    GraceOk (tr ++ [(s, t, a)]) ⟨Function.update s.loc t l, n⟩ := by
  have time := m.time
  have later := time.now_le
  -- apart from the stamps themselves
  have calm {key : Bytes} {at_ : Int} (still : ∀ c, activeCall t (s.loc t) = some ⟨c, .enter⟩ → a ≠ .go)
      (stamped : StampedAt (tr ++ [(s, t, a)]) key at_) : StampedAt tr key at_ := by
    rcases stamped.concat with old | ⟨goes, -, c, calls, -⟩
    · exact old
    · exact absurd goes (still c calls)
  refine ⟨?_, ?_, ?_⟩
  · intro key at_ stamped
    rcases stamped.concat with old | ⟨-, now, -⟩
    · exact (before.past old).trans later
    · exact now ▸ later
  · intro key at_ stamped young
    change n.nowMs - at_ ≤ kRecentlyClosedGraceMs at young
    cases time with
    | untimed untimed still =>
        change ∃ stamp, n.recentlyClosedMs.lookup key = some stamp ∧ at_ ≤ stamp
        rw [untimed.recent]
        exact before.kept (calm still stamped) (by omega)
    | touch touches _ after =>
        subst after
        exact before.kept (calm (fun _ calls => nomatch touches.activeCall.symm.trans calls) stamped) young
    | @prune now scans after =>
        have old := calm (fun _ calls => nomatch scans.activeCall.symm.trans calls) stamped
        have read : now ≤ s.shared.nowMs := by
          cases t with
          | idle => exact scan_of_reach h (congrArg Thread.pc scans)
          | _ => exact scans.elim
        subst after
        obtain ⟨stamp, found, young'⟩ := before.kept old young
        refine ⟨stamp, lookup_pruneClosed.mpr ⟨found, ?_⟩, young'⟩
        change s.shared.nowMs - at_ ≤ kRecentlyClosedGraceMs at young
        omega
    | @stamp c calls goes recent now heap =>
        change ∃ stamp, n.recentlyClosedMs.lookup key = some stamp ∧ at_ ≤ stamp
        rw [recent]
        have past : at_ ≤ s.shared.nowMs := by
          rcases stamped.concat with old | ⟨-, now, -⟩
          · exact before.past old
          · exact now.ge
        by_cases same : key = keyFor c.clientId c.streamId
        · subst same
          exact ⟨_, AList.lookup_insert _, past⟩
        · rw [AList.lookup_insert_ne same]
          rcases stamped.concat with old | ⟨-, -, c', calls', is⟩
          · exact before.kept old (by omega)
          · cases calls.symm.trans calls'
            exact absurd is.symm same
  · intro key stamp found
    change n.recentlyClosedMs.lookup key = some stamp at found
    cases time with
    | untimed untimed _ =>
        rw [untimed.recent] at found
        exact (before.origin found).mono _
    | touch _ _ after =>
        subst after
        exact (before.origin found).mono _
    | prune _ after =>
        subst after
        exact (before.origin (lookup_pruneClosed.mp found).1).mono _
    | @stamp c calls goes recent now heap =>
        rw [recent] at found
        by_cases same : key = keyFor c.clientId c.streamId
        · subst same
          rw [AList.lookup_insert] at found
          cases found
          exact ⟨s, t, c, by rw [goes]; exact List.mem_append_right _ (List.mem_singleton.mpr rfl), calls,
            rfl, rfl⟩
        · rw [AList.lookup_insert_ne same] at found
          exact (before.origin found).mono _

/-- **The stamps in every run.** -/
theorem graceOk_of_trace (h : Trace (machine cfg) ok init tr s) : GraceOk tr s := by
  induction h with
  | start =>
      refine ⟨?_, ?_, ?_⟩
      · rintro _ _ ⟨_, _, _, mem, -⟩
        cases mem
      · rintro _ _ ⟨_, _, _, mem, -⟩
        cases mem
      · intro _ _ found
        cases found
  | step earlier _ next before =>
      obtain ⟨l, n, m, rfl⟩ := next_move next
      exact before.step (earlier.reach (fun _ _ _ _ => trivial) .start) m

/-- A call of `closeStream` that stands before its section. -/
theorem Move.enters {c : CloseCall} {n n' : Node} {l l' : Loc t} (m : Move cfg t n l a l' n')
    (calls : activeCall t l = some ⟨c, .enter⟩) : ∃ out, CloseMove t c n .enter a out n' := by
  have own {Pc : Type} {resume : Bool → Pc → Pc} {Base : Node → Pc → Act → Thread Pc → Node → Prop}
      {l l' : Thread Pc} (m : ThreadMove t resume Base n l a l' n') (calls : l.call = some ⟨c, .enter⟩) :
      ∃ out, CloseMove t c n .enter a out n' := by
    cases m with
    | base => cases calls
    | call move | ret move =>
        cases calls
        exact ⟨_, move⟩
  cases t with
  | msg | idle | rx => exact own m calls
  | main | clock => cases calls

/-- Without a failing allocation a key that was removed was stamped. -/
theorem stampedAt_of_removedAt (h : Trace (machine cfg) (fun s t a => stampsKept s t a = true) init tr s)
    (removed : RemovedAt tr key at_) : StampedAt tr key at_ := by
  obtain ⟨s₁, t, a, c, mem, calls, is, present, calm, now⟩ := removed
  obtain ⟨-, s₂, -, kept, next⟩ := h.mem mem
  obtain ⟨l, n, m, rfl⟩ := next_move next
  obtain ⟨out, move⟩ := m.enters calls
  cases move with
  | absent absent => exact absurd (is ▸ absent) present
  | take => exact ⟨s₁, t, c, mem, calls, is, now⟩
  | throws => exact absurd rfl (calm _)
  | lose =>
      simp [stampsKept, calls] at kept

theorem inGrace_iff {n : Node} : inGrace n key = true ↔
    ∃ stamp, n.recentlyClosedMs.lookup key = some stamp ∧ n.nowMs - stamp ≤ kRecentlyClosedGraceMs := by
  unfold inGrace
  cases n.recentlyClosedMs.lookup key with
  | none => simp
  | some stamp => simp

/-- What becomes of DATA for a key that is not in `streams_`. -/
theorem lookup_of_absent {ctx : MsgCtx} {d : DataMessage} (here : s.loc .msg = ⟨.dataing ctx d .lookup, none⟩)
    (absent : s.shared.streams.lookup (keyFor ctx.clientId d.streamId) = none)
    (kept : stampsKept s .msg a = true) (next : (machine cfg).next s .msg a = some s') :
    s'.loc .msg = ⟨.parsing ctx, none⟩ ∧
      (inGrace s.shared (keyFor ctx.clientId d.streamId) = true ∧ s'.shared = s.shared ∨
        inGrace s.shared (keyFor ctx.clientId d.streamId) = false ∧ ∃ ok,
          s'.shared = s.shared.sendToClient .msg ctx.clientId
            (encodeError ⟨d.streamId, ascii "stream not found"⟩) ok) := by
  obtain ⟨l, n, m, rfl⟩ := next_move next
  rw [here] at m
  cases m with
  | base move =>
      cases move with
      | dataing move =>
          cases move with
          | found found => cases absent.symm.trans found
      | dataCloses move => cases move
      | dataDone move =>
          refine ⟨by simp, ?_⟩
          cases move with
          | late _ grace => exact .inl ⟨grace, rfl⟩
          | notFound _ grace => exact .inr ⟨grace, _, rfl⟩
          | throws =>
              simp only [stampsKept, here, Bool.and_false] at kept
              cases kept

/-- `handleData` can go on from there, in the way that the stamp decides. -/
theorem lookup_goes {ctx : MsgCtx} {d : DataMessage} (here : s.loc .msg = ⟨.dataing ctx d .lookup, none⟩)
    (absent : s.shared.streams.lookup (keyFor ctx.clientId d.streamId) = none) :
    (inGrace s.shared (keyFor ctx.clientId d.streamId) = true →
        ∃ s', (machine cfg).next s .msg .go = some s') ∧
      (inGrace s.shared (keyFor ctx.clientId d.streamId) = false →
        ∀ accepted, ∃ s', (machine cfg).next s .msg (.sent accepted) = some s') := by
  refine ⟨fun grace => ?_, fun grace accepted => ?_⟩
  · simp [machine, Interleaving.Machine.next, step, Thread.step, here, msgStep, dataStep, absent, grace]
  · simp [machine, Interleaving.Machine.next, step, Thread.step, here, msgStep, dataStep, absent, grace]

/-- **Late DATA.** In every run in which no allocation fails between the two updates of `closeStream` or
in the lookup of `handleData`:
a key that `closeStream` took out of `streams_` at most 2000 ms ago has a stamp, no older than that;
DATA for a key that is not in `streams_` and was taken out at most 2000 ms ago is dropped and changes
nothing, and for a key for which no call of `closeStream` went through in the last 2000 ms it is
answered with one ERROR; and a prune pass leaves no stamp more than 2000 ms older than the time it
started with. -/
theorem late_data_in_grace (h : Trace (machine cfg) (fun s t a => stampsKept s t a = true) init tr s) :
    (∀ key at_, RemovedAt tr key at_ → s.shared.nowMs - at_ ≤ 2000 →
      ∃ stamp, s.shared.recentlyClosedMs.lookup key = some stamp ∧ at_ ≤ stamp ∧
        stamp ≤ s.shared.nowMs) ∧
    (∀ ctx d, s.loc .msg = ⟨.dataing ctx d .lookup, none⟩ →
      s.shared.streams.lookup (keyFor ctx.clientId d.streamId) = none →
      ((∃ at_, RemovedAt tr (keyFor ctx.clientId d.streamId) at_ ∧ s.shared.nowMs - at_ ≤ 2000) →
        (∃ s', (machine cfg).next s .msg .go = some s') ∧
        ∀ a s', stampsKept s .msg a = true → (machine cfg).next s .msg a = some s' →
          s'.loc .msg = ⟨.parsing ctx, none⟩ ∧ s'.shared = s.shared) ∧
      ((∀ at_, StampedAt tr (keyFor ctx.clientId d.streamId) at_ → 2000 < s.shared.nowMs - at_) →
        (∀ accepted, ∃ s', (machine cfg).next s .msg (.sent accepted) = some s') ∧
        ∀ a s', stampsKept s .msg a = true → (machine cfg).next s .msg a = some s' →
          s'.loc .msg = ⟨.parsing ctx, none⟩ ∧ ∃ accepted,
            s'.shared = s.shared.sendToClient .msg ctx.clientId
              (encodeError ⟨d.streamId, ascii "stream not found"⟩) accepted)) ∧
    (∀ now refs s', s.loc .idle = ⟨.scan now, none⟩ →
      (machine cfg).next s .idle (.order refs) = some s' →
      ∀ key stamp, s'.shared.recentlyClosedMs.lookup key = some stamp → now - stamp ≤ 2000) := by
  have ok := graceOk_of_trace h
  refine ⟨?_, ?_, ?_⟩
  · intro key at_ removed young
    obtain ⟨stamp, found, after⟩ := ok.kept (stampedAt_of_removedAt h removed) young
    exact ⟨stamp, found, after, ok.past (ok.origin found)⟩
  · intro ctx d here absent
    refine ⟨?_, ?_⟩
    · rintro ⟨at_, removed, young⟩
      obtain ⟨stamp, found, after⟩ := ok.kept (stampedAt_of_removedAt h removed) young
      have grace : inGrace s.shared (keyFor ctx.clientId d.streamId) = true := by
        refine inGrace_iff.mpr ⟨stamp, found, ?_⟩
        change s.shared.nowMs - stamp ≤ 2000
        omega
      refine ⟨(lookup_goes here absent).1 grace, ?_⟩
      intro a s' kept next
      obtain ⟨returns, ⟨-, same⟩ | ⟨late, -⟩⟩ := lookup_of_absent here absent kept next
      · exact ⟨returns, same⟩
      · cases grace.symm.trans late
    · intro old
      have late : inGrace s.shared (keyFor ctx.clientId d.streamId) = false := by
        rw [Bool.eq_false_iff]
        intro grace
        obtain ⟨stamp, found, young⟩ := inGrace_iff.mp grace
        have long := old stamp (ok.origin found)
        change s.shared.nowMs - stamp ≤ 2000 at young
        omega
      refine ⟨(lookup_goes here absent).2 late, ?_⟩
      intro a s' kept next
      obtain ⟨returns, ⟨grace, -⟩ | ⟨-, error⟩⟩ := lookup_of_absent here absent kept next
      · cases grace.symm.trans late
      · exact ⟨returns, error⟩
  · intro now refs s' here next key stamp found
    obtain ⟨l, n, m, rfl⟩ := next_move next
    rw [here] at m
    cases m with
    | base move =>
        cases move with
        | scan => exact (lookup_pruneClosed.mp found).2

end Grace

/-- A stream is opened and closed by its client; one and a half seconds later DATA for it has come to
the lookup. -/
def lateData : List (ThreadId × Act) :=
  List.flatten [
    [(.msg, .deliver (ascii "A")
      (openStream1 ++ [3, 0, 0, 0, 1] ++ [2, 0, 0, 0, 1, 0, 0, 0, 1, 120]))],
    openSchedule 3, List.replicate 7 (.msg, .go), [(.msg, .sent true), (.msg, .go)],
    rxSchedule 0 [.go, .go], [(.msg, .go), (.clock, .tick 1500), (.msg, .go), (.msg, .go)]]

theorem late_data_dropped :
    RemovedAt ((machine {}).trace init lateData) (keyFor (ascii "A") 1) 0 ∧
      ∀ a s', stampsKept ((machine {}).run init lateData) .msg a = true →
        (machine {}).next ((machine {}).run init lateData) .msg a = some s' →
        s'.shared = ((machine {}).run init lateData).shared := by
  have removed : RemovedAt ((machine {}).trace init lateData) (keyFor (ascii "A") 1) 0 := by
    refine ⟨_, _, _, ⟨ascii "A", 1, .clientClose, none⟩, List.getElem_mem (n := 14) (by decide),
      by decide, rfl, by decide, ?_, by decide⟩
    exact fun what => nofun
  refine ⟨removed, fun a s' kept next => ?_⟩
  have grace := late_data_in_grace (Trace.run (by decide : (machine {}).follows stampsKept init lateData))
  exact (((grace.2.1 ⟨ascii "A", openStream1 ++ [3, 0, 0, 0, 1] ++ [2, 0, 0, 0, 1, 0, 0, 0, 1, 120], 27⟩
    ⟨1, [120]⟩ (by decide) (by decide)).1 ⟨0, removed, by decide⟩).2 a s' kept next).2

/-- The allocation of the stamp fails: the entry is gone from `streams_` and nothing says so. -/
def unstampedClose : List (ThreadId × Act) :=
  List.flatten [[(.msg, .deliver (ascii "A") (openStream1 ++ [3, 0, 0, 0, 1]))], openSchedule 3,
    [(.msg, .go), (.msg, .throwMid none)]]

theorem removed_key_without_stamp :
    ¬ ∀ (cfg : Config) (tr : List (System × ThreadId × Act)) (s : System) (key : Bytes) (at_ : Int),
        Trace (machine cfg) anyStep init tr s → RemovedAt tr key at_ → s.shared.nowMs - at_ ≤ 2000 →
        ∃ stamp, s.shared.recentlyClosedMs.lookup key = some stamp ∧ at_ ≤ stamp ∧
          stamp ≤ s.shared.nowMs := by
  intro always
  have run : Trace (machine {}) (fun s t a => (fun _ _ _ => true) s t a = true) init
      ((machine {}).trace init unstampedClose) ((machine {}).run init unstampedClose) :=
    Trace.run (by decide)
  have removed : RemovedAt ((machine {}).trace init unstampedClose) (keyFor (ascii "A") 1) 0 := by
    refine ⟨_, _, _, ⟨ascii "A", 1, .clientClose, none⟩, List.getElem_mem (n := 14) (by decide),
      by decide, rfl, by decide, ?_, by decide⟩
    exact fun what => nofun
  obtain ⟨stamp, found, -⟩ := always {} _ _ _ _ (run.mono fun _ _ _ _ => trivial) removed (by decide)
  rw [show ((machine {}).run init unstampedClose).shared.recentlyClosedMs.lookup (keyFor (ascii "A") 1) =
    none by decide] at found
  cases found

/-! ### The idle monitor -/

/-- The keys that the idle monitor is about to close. -/
def keysAhead (l : Thread IdlePc) : List Bytes :=
  (match l.call with
    | some ⟨c, .enter⟩ => [keyFor c.clientId c.streamId]
    | _ => []) ++
  match l.pc with
    | .closing stale => stale.map fun e => keyFor e.clientId e.streamId
    | _ => []

/-- The stream has been without activity for more than `idle_timeout_sec`. -/
def Inactive (cfg : Config) (n : Node) (r : Ref) : Prop :=
  (cfg.idleTimeoutSec.toNat : Int) * 1000 < n.nowMs - (n.heap r).lastActivityMs

/-- What the idle monitor is about to close is inactive. -/
def Listed (cfg : Config) (s : System) : Prop :=
  ∀ key ∈ keysAhead (s.loc .idle), ∀ r, s.shared.streams.lookup key = some r → Inactive cfg s.shared r

/-- No stream is used and none is registered under a key that the idle monitor is about to close. -/
def leavesListed (s : System) (t : ThreadId) (a : Act) : Bool :=
  match t, a with
  | .rx r, .go =>
      match s.loc (.rx r) with
      | ⟨.touch _, none⟩ => (s.shared.heap r).key ∉ keysAhead (s.loc .idle)
      | _ => true
  | .msg, .go =>
      match s.loc .msg with
      | ⟨.dataing _ _ (.touch r), none⟩ => (s.shared.heap r).key ∉ keysAhead (s.loc .idle)
      | ⟨.opening ctx q (.register _), none⟩ =>
          keyFor ctx.clientId q.streamId ∉ keysAhead (s.loc .idle)
      | _ => true
  | .msg, .throwMid _ =>
      match s.loc .msg with
      | ⟨.opening ctx q (.register _), none⟩ =>
          keyFor ctx.clientId q.streamId ∉ keysAhead (s.loc .idle)
      | _ => true
  | _, _ => true

section Idle

variable {cfg : Config} {s s' : System} {t : ThreadId} {a : Act} {key : Bytes} {r : Ref}

/-- An entry of the table is an old one, or was stored under a key that is not ahead. -/
theorem lookup_before {l : Loc t} {n : Node} (m : Move cfg t s.shared (s.loc t) a l n)
    (leaves : leavesListed s t a = true) (ahead : key ∈ keysAhead (s.loc .idle))
    (found : n.streams.lookup key = some r) : s.shared.streams.lookup key = some r := by
  have table := m.table
  generalize here : s.loc t = l₀ at table
  cases table with
  | still still =>
      rw [still.streams] at found
      exact found
  | @register ctx q r' =>
      by_cases same : key = keyFor ctx.clientId q.streamId
      · subst same
        simp only [leavesListed, here, decide_eq_true_eq] at leaves
        exact absurd ahead leaves
      · exact (AList.lookup_insert_ne same).symm.trans found
  | @registerThrows ctx q r' what =>
      by_cases same : key = keyFor ctx.clientId q.streamId
      · subst same
        simp only [leavesListed, here, decide_eq_true_eq] at leaves
        exact absurd ahead leaves
      · exact (AList.lookup_insert_ne same).symm.trans found
  | @take _ _ _ _ c r' =>
      obtain ⟨counts, after⟩ := Node.take_eq s.shared t c r'
      rw [after] at found
      exact (lookup_erase_some found).2
  | lose => exact (lookup_erase_some found).2
  | snapshot => cases found

/-- A stream that is ahead of the idle monitor stays inactive. -/
theorem Inactive.step {l : Loc t} {n : Node} (m : Move cfg t s.shared (s.loc t) a l n)
    (leaves : leavesListed s t a = true) (ahead : key ∈ keysAhead (s.loc .idle))
    (known : r < s.shared.nextRef) (named : (s.shared.heap r).key = key)
    (inactive : Inactive cfg s.shared r) : Inactive cfg n r := by
  have time := m.time
  have later := time.now_le
  unfold Inactive at inactive ⊢
  have same (h : (n.heap r).lastActivityMs = (s.shared.heap r).lastActivityMs) :
      (cfg.idleTimeoutSec.toNat : Int) * 1000 < n.nowMs - (n.heap r).lastActivityMs := by
    rw [h]
    omega
  cases time with
  | untimed untimed _ => exact same (untimed.active known)
  | stamp _ _ _ _ heap => exact same (by rw [heap])
  | prune _ after => exact same (by rw [after]; rfl)
  | @touch r' touches goes after =>
      by_cases mine : r = r'
      · subst mine
        exfalso
        subst goes
        cases t with
        | rx r₁ =>
            obtain ⟨rfl, data, here⟩ := touches
            simp only [leavesListed, here, decide_eq_true_eq] at leaves
            exact leaves (named ▸ ahead)
        | msg =>
            obtain ⟨ctx, d, here⟩ := touches
            simp only [leavesListed, here, decide_eq_true_eq] at leaves
            exact leaves (named ▸ ahead)
        | _ => exact touches.elim
      · refine same ?_
        rw [after]
        simp [Node.touch, Node.setStream, mine]

/-- The idle monitor works its list off, and makes a new one when it scans. -/
theorem Move.keysAhead {n n' : Node} {l l' : Thread IdlePc} (m : Move cfg .idle n l a l' n')
    (ahead : key ∈ keysAhead l') : key ∈ Egress.keysAhead l ∨
      ∃ now refs, l.pc = .scan now ∧ refs.Perm n.refs ∧
        (∃ e ∈ staleOf cfg n now refs, keyFor e.clientId e.streamId = key) ∧
        n' = n.pruneClosed now kRecentlyClosedGraceMs := by
  cases m with
  | base move =>
      cases move with
      | scan all =>
          obtain ⟨e, mem, is⟩ := List.mem_map.mp ahead
          exact .inr ⟨_, _, rfl, all, ⟨e, mem, is⟩, rfl⟩
      | next => exact .inl ahead
      | _ => cases ahead
  | call move =>
      refine .inl ?_
      cases move with
      | take => exact List.mem_append_right _ ahead
      | tear => exact ahead
  | ret move => exact .inl (List.mem_append_right _ ahead)

/-- **What the idle monitor is about to close is inactive**, in every run in which nothing happens to the
streams on its list. -/
theorem listed_of_reach (h : ReachesBy cfg (fun s t a => leavesListed s t a = true) s) : Listed cfg s := by
  refine Reach.invariant (I := Listed cfg) ?_ ?_ h
  · intro key ahead
    cases ahead
  intro s s' t a reached before leaves next key ahead r found
  obtain ⟨l, n, m, rfl⟩ := next_move next
  have owned := Reaches.owned reached.any
  have stays (ahead : key ∈ keysAhead (s.loc .idle)) : Inactive cfg n r := by
    have old := lookup_before m leaves ahead found
    exact (before key ahead r old).step m leaves ahead (owned.shared.bound old) (owned.shared.key old).symm
  by_cases mine : t = .idle
  · subst mine
    simp only [Function.update_self] at ahead
    rcases m.keysAhead ahead with old | ⟨now, refs, scans, all, ⟨e, mem, is⟩, after⟩
    · exact stays old
    · -- the scan found the stream that is registered under the key
      obtain ⟨r', filtered, rfl⟩ := List.mem_map.mp mem
      obtain ⟨among, stale⟩ := List.mem_filter.mp filtered
      obtain ⟨k, old⟩ := Node.mem_refs.mp (all.mem_iff.mp among)
      have key_ : k = key := (owned.shared.key old).trans is
      subst after key_
      cases Option.some.inj (old.symm.trans found)
      have read := scan_of_reach reached.any scans
      rw [isStale, decide_eq_true_eq] at stale
      change (cfg.idleTimeoutSec.toNat : Int) * 1000 < s.shared.nowMs - (s.shared.heap r).lastActivityMs
      omega
  · simp only [Function.update_of_ne (Ne.symm mine)] at ahead
    exact stays ahead

/-- **Only inactive streams are closed as idle**, in every run in which, between the scan that lists a
stream and the call that closes it, the stream is not used and its key is not registered again. -/
theorem idle_close_of_inactive (h : ReachesBy cfg (fun s t a => leavesListed s t a = true) s)
    (found : s.shared.streams.lookup key = some r) (next : (machine cfg).next s .idle a = some s')
    (gone : s'.shared.streams.lookup key = none) :
    (cfg.idleTimeoutSec.toNat : Int) * 1000 < s.shared.nowMs - (s.shared.heap r).lastActivityMs := by
  obtain ⟨l, n, m, rfl⟩ := next_move next
  have listed := listed_of_reach h
  have closes {c : CloseCall} (calls : (s.loc .idle).call = some ⟨c, .enter⟩)
      (same : key = keyFor c.clientId c.streamId) : Inactive cfg s.shared r := by
    refine listed key ?_ r found
    rw [keysAhead, calls, same]
    exact List.mem_append_left _ (List.mem_singleton.mpr rfl)
  have table := m.table
  change n.streams.lookup key = none at gone
  generalize here : s.loc .idle = l₀ at table closes
  cases table with
  | still still =>
      rw [still.streams, found] at gone
      cases gone
  | @take _ _ _ _ c r' calls =>
      refine closes calls ?_
      by_contra other
      obtain ⟨counts, after⟩ := Node.take_eq s.shared .idle c r'
      rw [after] at gone
      cases ((AList.lookup_erase_ne other).trans found).symm.trans gone
  | lose calls =>
      refine closes calls ?_
      by_contra other
      cases ((AList.lookup_erase_ne other).trans found).symm.trans gone

end Idle

/-- A stream without any traffic for more than a minute is listed by the idle monitor. -/
def idleStream (used : List (ThreadId × Act)) : List (ThreadId × Act) :=
  List.flatten [singleOpen,
    [(.clock, .tick 60001), (.idle, .go), (.idle, .go), (.idle, .order [0])], used, [(.idle, .go)]]

theorem idle_stream_closed_as_idle :
    ∃ s', (machine {}).next ((machine {}).run init (idleStream [])) .idle .go = some s' ∧
      s'.shared.streams.lookup (keyFor (ascii "A") 1) = none ∧
      (({} : Config).idleTimeoutSec.toNat : Int) * 1000 < ((machine {}).run init (idleStream [])).shared.nowMs -
        (((machine {}).run init (idleStream [])).shared.heap 0).lastActivityMs := by
  have closed : ((machine {}).next ((machine {}).run init (idleStream [])) .idle .go).map
      (fun s' => s'.shared.streams.lookup (keyFor (ascii "A") 1)) = some none := by decide +kernel
  obtain ⟨s', next, gone⟩ := Option.map_eq_some_iff.mp closed
  have follows : (machine {}).follows leavesListed init (idleStream []) = true := by decide +kernel
  exact ⟨s', next, gone, idle_close_of_inactive (Reach.run follows) (by decide +kernel) next gone⟩

/-- The remote side sends a byte between the scan and the call. -/
def usedMeanwhile : List (ThreadId × Act) :=
  rxSchedule 0 [.go, .go, .recvRet (some [120]), .go]

theorem active_stream_closed_as_idle :
    ¬ ∀ (cfg : Config) (s s' : System) (a : Act) (key : Bytes) (r : Ref), Reaches cfg s →
        s.shared.streams.lookup key = some r → (machine cfg).next s .idle a = some s' →
        s'.shared.streams.lookup key = none →
        (cfg.idleTimeoutSec.toNat : Int) * 1000 < s.shared.nowMs - (s.shared.heap r).lastActivityMs := by
  intro always
  have follows : (machine {}).follows (fun _ _ _ => true) init (idleStream usedMeanwhile) = true := by
    decide +kernel
  have closed : ((machine {}).next ((machine {}).run init (idleStream usedMeanwhile)) .idle .go).map
      (fun s' => s'.shared.streams.lookup (keyFor (ascii "A") 1)) = some none := by decide +kernel
  obtain ⟨s', next, gone⟩ := Option.map_eq_some_iff.mp closed
  have idle := always {} _ s' .go (keyFor (ascii "A") 1) 0 (Reach.run follows).any
    (by decide +kernel) next gone
  revert idle
  decide +kernel

end TonTunnel.Egress
