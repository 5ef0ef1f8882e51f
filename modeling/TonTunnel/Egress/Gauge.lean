import TonTunnel.Egress.Accounting
import TonTunnel.Egress.JoinSafety
import TonTunnel.Lib.Fifo

/-!
The gauge `g_active_streams`, which `maybeLogCounters` reports as `active_streams`.

Three pieces of code change `streams_`: the registration section of `handleOpen`, the first
section of `closeStream`, and `stop`. Only the first one stores the gauge. So the gauge is the
size that the table had after the last registration, and still counts the entries that were taken
out since (`gauge_lags`). It is right exactly when there are none, or as many as were stored by
registrations that failed before they got to the gauge (`gauge_right_iff`).
-/

namespace TonTunnel.Egress

open Interleaving (Reach Trace anyStep)

/-- `streams_.size()`. -/
def Node.size (n : Node) : Nat := n.streams.entries.length

/-! ### The steps that count -/

/-- The registration section runs to its end, where it stores the gauge. -/
def refreshes : (t : ThreadId) → Loc t → Act → Bool
  | .msg, l, .go =>
      match l.call, l.pc with
      | none, .opening _ _ (.register _) => true
      | _, _ => false
  | _, _, _ => false

/-- How many entries the registration section stores without getting to the gauge. -/
def storedOnly (n : Node) : (t : ThreadId) → Loc t → Act → Nat
  | .msg, l, .throwMid _ =>
      match l.call, l.pc with
      | none, .opening ctx q (.register _) =>
          if keyFor ctx.clientId q.streamId ∈ n.streams then 0 else 1
      | _, _ => 0
  | _, _, _ => 0

/-- How many entries a step of `closeStream` erases. -/
def erased (n : Node) : Option Closing → Act → Nat
  | some ⟨c, .enter⟩, .go | some ⟨c, .enter⟩, .throwMid _ =>
      if keyFor c.clientId c.streamId ∈ n.streams then 1 else 0
  | _, _ => 0

/-- How many entries a step of `closeStream` or `stop` takes out of `streams_`. -/
def takenOut (n : Node) : (t : ThreadId) → Loc t → Act → Nat
  | .main, l, _ =>
      match l with
      -- the section that fills the snapshot ends with `streams_.clear()`
      | .snapshot => n.size
      | _ => 0
  | .msg, l, a | .idle, l, a | .rx _, l, a => erased n l.call a
  | .clock, _, _ => 0

/-- The sum of a number over the steps since the gauge was last stored. -/
def sinceRefresh (f : Node → (t : ThreadId) → Loc t → Act → Nat)
    (tr : List (System × ThreadId × Act)) : Nat :=
  (Fifo.since (fun x => refreshes x.2.1 (x.1.loc x.2.1) x.2.2)
    (fun x => some (f x.1.shared x.2.1 (x.1.loc x.2.1) x.2.2)) tr).sum

theorem sinceRefresh_concat {f : Node → (t : ThreadId) → Loc t → Act → Nat}
    {tr : List (System × ThreadId × Act)} {s : System} {t : ThreadId} {a : Act} :
    sinceRefresh f (tr ++ [(s, t, a)]) =
      if refreshes t (s.loc t) a then 0 else sinceRefresh f tr + f s.shared t (s.loc t) a := by
  rw [sinceRefresh, Fifo.since_concat]
  split
  · rfl
  · rw [Option.toList_some, List.sum_append, List.sum_singleton, sinceRefresh]

/-! ### One step -/

/-- What a step means for the gauge: it stores it, or it leaves it and entries come and go. -/
def Tracks (n : Node) (t : ThreadId) (l : Loc t) (a : Act) (n' : Node) : Prop :=
  if refreshes t l a then n'.activeStreams = n'.size
  else n'.activeStreams = n.activeStreams ∧ n'.size + takenOut n t l a = n.size + storedOnly n t l a

/-- The table and the gauge are as they were. -/
structure SameTable (n n' : Node) : Prop where
  streams : n'.streams = n.streams
  gauge : n'.activeStreams = n.activeStreams

namespace SameTable

variable {n n' n'' : Node}

theorem refl (n : Node) : SameTable n n := ⟨rfl, rfl⟩

theorem trans (h : SameTable n n') (h' : SameTable n' n'') : SameTable n n'' :=
  ⟨h'.streams.trans h.streams, h'.gauge.trans h.gauge⟩

theorem emit (n : Node) (e : Event) : SameTable n (n.emit e) := ⟨rfl, rfl⟩

theorem closeFd (n : Node) (fd : Int) : SameTable n (n.closeFd fd) := by
  obtain ⟨fds, closes, h⟩ := n.closeFd_eq fd
  rw [h]
  exact ⟨rfl, rfl⟩

theorem noteSelect (n : Node) (ip : Bytes) (fd : Int) (ret : ConnectRet) :
    SameTable n (noteSelect n ip fd ret) := by
  rcases noteSelect_eq n ip fd ret with same | waits
  · rw [same]
    exact refl n
  · rw [waits]
    exact emit n _

/-- A step that neither stores the gauge nor changes the table. -/
theorem tracks (h : SameTable n n') {t : ThreadId} {l : Loc t} {a : Act}
    (leaves : refreshes t l a = false) (stored : storedOnly n t l a = 0)
    (taken : takenOut n t l a = 0) : Tracks n t l a n' := by
  rw [Tracks, leaves, stored, taken]
  refine ⟨h.gauge, ?_⟩
  rw [Node.size, h.streams, Node.size]

end SameTable

section Table

variable {cfg : Config} {t : ThreadId} {l l' : Loc t} {n n' : Node} {a : Act}

theorem TearMove.sameTable {call : Option CloseCall} {r : Ref} {p : TearPc} {out : TearOut}
    (m : TearMove t call r n p a out n') : SameTable n n' := by
  cases m with
  | flag | clear | join => exact ⟨rfl, rfl⟩
  | shutdown =>
      rcases n.shutdownFd_eq (n.heap r).fd with same | ⟨k, shut⟩
      · rw [same]
        exact .refl n
      · rw [shut]
        exact .emit n _
  | close => exact .closeFd n _
  | notify => exact .emit n _
  | _ => exact .refl n

theorem DataMove.sameTable {client : Bytes} {d : DataMessage} {pc : DataPc} {out : DataOut}
    (m : DataMove cfg client d n pc a out n') : SameTable n n' := by
  cases m with
  | touch => exact ⟨rfl, rfl⟩
  | tooLong | notFound | streamClosed | sendFails | sends => exact .emit n _
  | _ => exact .refl n

theorem RxMove.sameTable {r : Ref} {pc : RxPc} {k : Thread RxPc} (m : RxMove r n pc a k n') :
    SameTable n n' := by
  cases m with
  | touch | leave => exact ⟨rfl, rfl⟩
  | push | pushFails | received => exact .emit n _
  | _ => exact .refl n

theorem IdleMove.sameTable {pc : IdlePc} {k : Thread IdlePc} (m : IdleMove cfg n pc a k n') :
    SameTable n n' := by
  cases m with
  | exit | scan => exact ⟨rfl, rfl⟩
  | _ => exact .refl n

/-- An entry that is erased was one of the table. -/
theorem size_erase {key : Bytes} {r : Ref} (found : n.streams.lookup key = some r) :
    n.size = (n.streams.erase key).entries.length + 1 := by
  have := AList.entryCount_erase (p := fun _ => true) found
  simpa [AList.entryCount, Node.size] using this

/-- An entry that is stored replaces one or is a new one. -/
theorem size_putStream (key : Bytes) (r : Ref) :
    (n.putStream key r).size = n.size + if key ∈ n.streams then 0 else 1 := by
  change (n.streams.insert key r).entries.length = _
  by_cases present : key ∈ n.streams
  · obtain ⟨r', found⟩ := Option.isSome_iff_exists.mp (AList.lookup_isSome.mpr present)
    rw [if_pos present, size_erase found, AList.entries_insert, List.length_cons]
    rfl
  · rw [if_neg present, AList.entries_insert_of_notMem present, List.length_cons, Node.size]

/-- What a step of `closeStream` means for the table. -/
theorem CloseMove.erased {c : CloseCall} {pc : ClosePc} {out : CloseOut}
    (m : CloseMove t c n pc a out n') :
    n'.activeStreams = n.activeStreams ∧ n'.size + erased n (some ⟨c, pc⟩) a = n.size := by
  have same (h : SameTable n n') (none_ : Egress.erased n (some ⟨c, pc⟩) a = 0) :
      n'.activeStreams = n.activeStreams ∧ n'.size + Egress.erased n (some ⟨c, pc⟩) a = n.size := by
    refine ⟨h.gauge, ?_⟩
    rw [none_, Node.size, h.streams]
    rfl
  cases m with
  | absent absent => exact same ⟨rfl, rfl⟩ (if_neg (AList.lookup_eq_none.mp absent))
  | throws => exact same (.refl n) rfl
  | @take r found =>
      obtain ⟨counts, after⟩ := Node.take_eq n t c r
      have present := AList.lookup_isSome.mp (Option.isSome_of_eq_some found)
      rw [after]
      refine ⟨rfl, ?_⟩
      rw [size_erase found, Egress.erased, if_pos present]
      rfl
  | lose found =>
      have present := AList.lookup_isSome.mp (Option.isSome_of_eq_some found)
      refine ⟨rfl, ?_⟩
      rw [size_erase found, Egress.erased, if_pos present]
      rfl
  | tear move | finish move => exact same move.sameTable rfl

theorem OpenMove.tracks {ctx : MsgCtx} {q : OpenMessage} {pc : OpenPc} {out : OpenOut}
    (m : OpenMove cfg ctx.clientId q n pc a out n') :
    Tracks n .msg { pc := .opening ctx q pc } a n' := by
  cases m with
  | failed | reported | ack | unresolved | resolved | attempt =>
      exact (SameTable.emit n _).tracks rfl rfl rfl
  | quotaLeft | quotaFull | quotaThrows | socket | makeStream | startThread | assign =>
      exact SameTable.tracks ⟨rfl, rfl⟩ rfl rfl rfl
  | connected => exact (SameTable.noteSelect n _ _ _).tracks rfl rfl rfl
  | disconnected =>
      exact ((SameTable.noteSelect n _ _ _).trans (.closeFd _ _)).tracks rfl rfl rfl
  | register => exact rfl
  | @registerThrows r =>
      refine ⟨rfl, ?_⟩
      exact size_putStream (keyFor ctx.clientId q.streamId) r
  | _ => exact (SameTable.refl n).tracks rfl rfl rfl

theorem MsgMove.tracks {pc : MsgPc} {k : Thread MsgPc} (m : MsgMove cfg n pc a k n') :
    Tracks n .msg { pc } a n' := by
  cases m with
  | opening move | opened move | openEscaped move => exact move.tracks
  | dispatchOpen | dispatchData | dispatchClose | dispatchError | closeReply =>
      exact (SameTable.emit n _).tracks rfl rfl rfl
  | dataing move | dataCloses move | dataDone move =>
      refine move.sameTable.tracks ?_ ?_ rfl
      · cases a <;> rfl
      · cases a <;> rfl
  | leave =>
      refine (SameTable.refl n).tracks ?_ ?_ rfl
      · cases a <;> rfl
      · cases a <;> rfl
  | deliver | closeReplyThrows => exact (SameTable.refl n).tracks rfl rfl rfl

theorem MainMove.tracks {l l' : MainPc} (m : MainMove n l a l' n') : Tracks n .main l a n' := by
  cases m with
  | stop | transportStop => exact SameTable.tracks ⟨rfl, rfl⟩ rfl rfl rfl
  | snapshot => exact ⟨rfl, Nat.add_comm 0 n.size⟩
  | tear move | finish move => exact move.sameTable.tracks rfl rfl rfl
  | joinIdle | leave => exact (SameTable.refl n).tracks rfl rfl rfl

/-- A step of a call of `closeStream`. -/
theorem CloseMove.tracks {c : CloseCall} {pc : ClosePc} {out : CloseOut}
    (m : CloseMove t c n pc a out n') (leaves : refreshes t l a = false)
    (stored : storedOnly n t l a = 0)
    (taken : takenOut n t l a = Egress.erased n (some ⟨c, pc⟩) a) : Tracks n t l a n' := by
  rw [Tracks, leaves, stored, taken]
  exact m.erased

/-- A thread other than the message thread, whose own code leaves table and gauge alone. -/
theorem ThreadMove.tracks {Pc : Type} {resume : Bool → Pc → Pc}
    {Base : Node → Pc → Act → Thread Pc → Node → Prop} {k k' : Thread Pc}
    (m : ThreadMove t resume Base n k a k' n') (leaves : refreshes t l a = false)
    (stored : storedOnly n t l a = 0) (taken : takenOut n t l a = Egress.erased n k.call a)
    (base : Base n k.pc a k' n' → SameTable n n') : Tracks n t l a n' := by
  cases m with
  | base move => exact (base move).tracks leaves stored taken
  | call move | ret move => exact move.tracks leaves stored taken

/-- **Every step stores the gauge, or leaves it alone while so many entries come and go.** -/
theorem Move.tracks (m : Move cfg t n l a l' n') : Tracks n t l a n' := by
  cases t with
  | msg =>
      cases m with
      | base move => exact move.tracks
      | call move | ret move =>
          refine move.tracks ?_ ?_ rfl
          · cases a <;> rfl
          · cases a <;> rfl
  | idle => exact ThreadMove.tracks m rfl rfl rfl fun move => move.sameTable
  | main => exact MainMove.tracks m
  | rx r => exact ThreadMove.tracks m rfl rfl rfl fun move => move.sameTable
  | clock =>
      obtain ⟨ms, rfl⟩ := m
      exact SameTable.tracks ⟨rfl, rfl⟩ rfl rfl rfl

end Table

/-! ### Whole runs -/

section Runs

variable {cfg : Config} {tr : List (System × ThreadId × Act)} {s : System}

/-- **What the gauge lags behind**: the entries taken out since it was last stored, less those
stored by registrations that failed before they got to it. -/
theorem gauge_lags (run : Trace (machine cfg) anyStep init tr s) :
    (s.shared.size : Int) + sinceRefresh takenOut tr =
      s.shared.activeStreams + sinceRefresh storedOnly tr := by
  induction run with
  | start => rfl
  | @step tr s s' t a _ _ next before =>
      obtain ⟨l, n, m, rfl⟩ := next_move next
      have tracks := m.tracks
      rw [sinceRefresh_concat, sinceRefresh_concat]
      unfold Tracks at tracks
      split at tracks
      -- where the gauge is stored both sums start again
      · rename_i stores
        rw [if_pos stores, if_pos stores, tracks]
      · rename_i leaves
        obtain ⟨gauge, size⟩ := tracks
        rw [if_neg leaves, if_neg leaves, gauge]
        push_cast
        omega

/-- **When the gauge is right.** In every state of every run, whether an open, close or stop is in
progress or not, `g_active_streams` is the size of `streams_` if and only if `closeStream` and
`stop` took as many entries out of `streams_` as failed registrations left in it, since the last
registration that ran to its end. -/
theorem gauge_right_iff (run : Trace (machine cfg) anyStep init tr s) :
    s.shared.activeStreams = s.shared.size ↔
      sinceRefresh takenOut tr = sinceRefresh storedOnly tr := by
  have lags := gauge_lags run
  constructor
  · intro right
    omega
  · intro balanced
    omega

/-- As long as no registration fails between storing the stream and counting it, every entry
that is stored gets to the gauge. -/
theorem storedOnly_of_countsStored
    (run : Trace (machine cfg) (fun s t a => countsStored s t a = true) init tr s) :
    sinceRefresh storedOnly tr = 0 := by
  induction run with
  | start => rfl
  | @step tr s s' t a _ counts _ before =>
      rw [sinceRefresh_concat, before, Nat.zero_add, ite_eq_left_iff]
      intro _
      unfold storedOnly
      split
      · split
        · rename_i here
          simp [countsStored, here] at counts
        · rfl
      · rfl

/-- Without such a failure the gauge reports too many streams at worst, and it is right exactly
when nothing was taken out of the table since it was last stored. -/
theorem size_le_gauge
    (run : Trace (machine cfg) (fun s t a => countsStored s t a = true) init tr s) :
    s.shared.size ≤ s.shared.activeStreams ∧
      (s.shared.activeStreams = s.shared.size ↔ sinceRefresh takenOut tr = 0) := by
  have lags := gauge_lags (run.mono fun _ _ _ _ => trivial)
  have stored := storedOnly_of_countsStored run
  rw [stored] at lags
  constructor
  · omega
  · omega

end Runs

/-! ### A closed stream -/

/-- Client `A` opens stream 1 and closes it. -/
def closedStream : List (ThreadId × Act) := openAndClose ++ [(.msg, .go)]

/-- The same, and `A` opens stream 1 once more. -/
def reopenedStream : List (ThreadId × Act) := closedStream ++ singleOpen

theorem reopened_stream_gauge :
    ((machine {}).run init reopenedStream).shared.activeStreams =
      ((machine {}).run init reopenedStream).shared.size := by
  have run := Trace.run (by decide : (machine {}).follows (fun _ _ _ => true) init reopenedStream)
  exact (gauge_right_iff (run.mono fun _ _ _ _ => trivial)).mpr (by decide)

/-- No open, close or stop is in progress. -/
structure AtRest (s : System) : Prop where
  calls (t : ThreadId) : activeCall t (s.loc t) = none
  opening (ctx : MsgCtx) (q : OpenMessage) (pc : OpenPc) : (s.loc .msg).pc ≠ .opening ctx q pc
  closing (ctx : MsgCtx) (streamId : UInt32) :
    (s.loc .msg).pc ≠ .closing ctx streamId ∧ (s.loc .msg).pc ≠ .closeReply ctx streamId
  stopping : s.loc .main = MainPc.running ∨ s.loc .main = MainPc.stopped

theorem closedStream_atRest : AtRest ((machine {}).run init closedStream) := by
  have waiting : ((machine {}).run init closedStream).loc .msg = { pc := .waiting } := by decide
  refine ⟨?_, ?_, ?_, .inl (by decide)⟩
  · intro t
    by_cases moves : t = .msg ∨ t = .rx 0
    · rcases moves with rfl | rfl
      · decide
      · decide
    · have others : ∀ p ∈ closedStream, p.1 = .msg ∨ p.1 = .rx 0 := by decide
      have done := Interleaving.Machine.exec_eq_run
        (by decide : (machine {}).follows (fun _ _ _ => true) init closedStream)
      have away : ∀ p ∈ closedStream, p.1 ≠ t := fun p mem same => moves (same ▸ others p mem)
      rw [Interleaving.Machine.exec_loc away done]
      cases t <;> rfl
  · intro ctx q pc
    rw [waiting]
    exact nofun
  · intro ctx streamId
    rw [waiting]
    exact ⟨nofun, nofun⟩

/-- The table is empty, nothing is in progress, and the gauge says that there is a stream. -/
theorem closed_stream_counted :
    ∃ s, Reaches {} s ∧ AtRest s ∧ s.shared.activeStreams = 1 ∧ s.shared.size = 0 := by
  have run := Reach.run (by decide : (machine {}).follows (fun _ _ _ => true) init closedStream)
  exact ⟨_, run.any, closedStream_atRest, by decide, by decide⟩

end TonTunnel.Egress
