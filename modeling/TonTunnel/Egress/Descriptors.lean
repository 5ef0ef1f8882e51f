import Mathlib.Data.Int.ConditionallyCompleteOrder
import Mathlib.Data.Int.Interval
import Mathlib.Data.Set.Card
import TonTunnel.Egress.Events
import TonTunnel.Egress.Registration

/-!
The descriptors that `connectIPv4WithTimeout` hands to `FD_SET`, which writes into a set of
`FD_SETSIZE` bits.

The quota of `handleOpen` counts the streams of one client. Nothing bounds the descriptors of
all clients together, and `socket()` returns the lowest free number whatever that number is:
every number from 3 on is reached by some run (`fdSet_unbounded`). The number of a socket is
handed to `FD_SET` when `connect()` answers `EINPROGRESS` on it. As long as fewer than
`FD_SETSIZE` descriptors are open whenever `socket()` opens such a one, the numbers stay below
it (`fdSet_in_range`).
-/

namespace TonTunnel.Egress

open Interleaving (Reach Trace)

/-- `FD_SETSIZE`. -/
def fdSetSize : Nat := 1024

/-- A step of a run: the state it is taken in, the thread, and what the environment answers. -/
abbrev StepTaken : Type := System × ThreadId × Act

/-- `connect()` answers `EINPROGRESS` on the descriptor `fd` of the socket `k`. -/
def ConnectWaits : (t : ThreadId) → Loc t → Act → Int → Sock → Prop
  | .msg, l, a, fd, k =>
      (∃ ctx q count ip rest, l.pc = .opening ctx q (.connecting count ip rest fd k)) ∧
        ∃ sel soError, a = .connectRet (.inProgress sel soError)
  | _, _, _, _, _ => False

namespace StepTaken

/-- `socket()` returns the descriptor `fd` of the socket `k`. -/
def Opens (x : StepTaken) (fd : Int) (k : Sock) : Prop :=
  x.2.2 = .socketRet (some fd) ∧ x.1.shared.nextSock = k

@[inherit_doc ConnectWaits]
def Waits (y : StepTaken) (fd : Int) (k : Sock) : Prop :=
  ConnectWaits y.2.1 (y.1.loc y.2.1) y.2.2 fd k

end StepTaken

section Guards

variable (others : System → Set Int)

/-- The open descriptors; `others` are those of the rest of the process. -/
def openFds (s : System) : Set Int := {fd | s.shared.fds fd ≠ none ∨ fd ∈ others s}

/-- `socket()` returns the lowest free number. -/
def LowestFree (s : System) (_ : ThreadId) (a : Act) : Prop :=
  ∀ fd, a = .socketRet (some fd) → IsLeast {k : Int | 0 ≤ k ∧ k ∉ openFds others s} fd

/-- Fewer than `FD_SETSIZE` descriptors are open when `socket()` opens one. -/
def Room (s : System) (_ : ThreadId) (a : Act) : Prop :=
  ∀ fd, a = .socketRet (some fd) → (openFds others s).encard < fdSetSize

/-- Fewer than `FD_SETSIZE` descriptors are open when `socket()` opens one on which `connect()`
then answers `EINPROGRESS`. -/
def RoomToWait (tr : List StepTaken) : Prop :=
  ∀ x ∈ tr, ∀ y ∈ tr, ∀ fd k, x.Opens fd k → y.Waits fd k →
    (openFds others x.1).encard < fdSetSize

end Guards

/-- Of fewer than `size` numbers not all below `size` are taken. -/
theorem lowest_lt {used : Set Int} {fd : Int} {size : Nat} (few : used.encard < size)
    (lowest : IsLeast {k : Int | 0 ≤ k ∧ k ∉ used} fd) : fd < size := by
  by_contra high
  have taken : ((Finset.Ico (0 : Int) size : Finset Int) : Set Int) ⊆ used := by
    intro k mem
    obtain ⟨nonneg, below⟩ := Finset.mem_Ico.mp (Finset.mem_coe.mp mem)
    by_contra free
    have least := lowest.2 ⟨nonneg, free⟩
    omega
  have many := Set.encard_le_encard taken
  rw [Set.encard_coe_eq_coe_finsetCard, Int.card_Ico] at many
  have size_le : (size : ℕ∞) ≤ used.encard := by simpa using many
  exact absurd few (not_lt.mpr size_le)

/-! ### The bound -/

/-- What holds of the descriptor and the socket of a connection attempt. -/
def MsgPc.Connecting (P : Int → Sock → Prop) : MsgPc → Prop
  | .opening _ _ (.connecting _ _ _ fd k) => P fd k
  | _ => True

section Bound

variable {cfg : Config} {s s' : System} {n n' : Node} {a : Act} {t : ThreadId} {l l' : Loc t}
  {P P' : Int → Sock → Prop} {others : System → Set Int} {tr : List StepTaken} {fd : Int}

/-- `P` holds of what `socket()` returns. -/
def SocketSatisfies (P : Int → Sock → Prop) (n : Node) (a : Act) : Prop :=
  ∀ fd, a = .socketRet (some fd) → P fd n.nextSock

theorem OpenMove.connecting {ctx : MsgCtx} {q : OpenMessage} {pc pc' : OpenPc}
    (m : OpenMove cfg ctx.clientId q n pc a (.more pc') n') (opens : SocketSatisfies P n a) :
    MsgPc.Connecting P (.opening ctx q pc') := by
  cases m with
  | socket => exact opens _ rfl
  | _ => trivial

theorem MsgMove.connecting {pc : MsgPc} {l : Thread MsgPc} (m : MsgMove cfg n pc a l n')
    (opens : SocketSatisfies P n a) : l.pc.Connecting P := by
  cases m with
  | opening move => exact move.connecting opens
  | _ => trivial

theorem MsgPc.Connecting.resume {had : Bool} {pc : MsgPc} (h : pc.Connecting P) :
    (MsgPc.resume had pc).Connecting P := by
  unfold MsgPc.resume
  split
  · trivial
  · split <;> trivial
  · exact h

theorem MsgPc.Connecting.mono {pc : MsgPc} (h : pc.Connecting P)
    (weaker : ∀ fd k, P fd k → P' fd k) : pc.Connecting P' := by
  unfold MsgPc.Connecting at h ⊢
  split at h
  · exact weaker _ _ h
  · trivial

/-- The same for the local state of a thread. -/
def LocConnecting (P : Int → Sock → Prop) : (t : ThreadId) → Loc t → Prop
  | .msg, l => l.pc.Connecting P
  | _, _ => True

theorem Move.connecting (m : Move cfg t n l a l' n') (opens : SocketSatisfies P n a)
    (h : LocConnecting P t l) : LocConnecting P t l' := by
  cases t with
  | msg =>
      cases m with
      | base move => exact move.connecting opens
      | call => exact h
      | ret => exact MsgPc.Connecting.resume h
  | _ => trivial

theorem noteSelect_sets {ip : Bytes} {fd' : Int} {ret : ConnectRet}
    (set : Event.fdSet fd ∈ (noteSelect n ip fd' ret).log) :
    Event.fdSet fd ∈ n.log ∨ ∃ sel soError, ret = .inProgress sel soError := by
  cases ret with
  | inProgress sel soError => exact .inr ⟨sel, soError, rfl⟩
  | _ => exact .inl set

/-- `FD_SET` is executed where `connect()` answers `EINPROGRESS`. -/
theorem OpenMove.sets {ctx : MsgCtx} {q : OpenMessage} {pc : OpenPc} {out : OpenOut}
    (m : OpenMove cfg ctx.clientId q n pc a out n') (set : Event.fdSet fd ∈ n'.log) :
    Event.fdSet fd ∈ n.log ∨
      ∃ k, ConnectWaits .msg { pc := .opening ctx q pc } a fd k := by
  obtain old | emits := m.log.mem set
  · exact .inl old
  · cases emits with
    | fdSet =>
        cases m with
        | connected =>
            refine (noteSelect_sets set).imp_right ?_
            rintro ⟨sel, soError, rfl⟩
            exact ⟨_, ⟨_, _, _, _, _, rfl⟩, sel, soError, rfl⟩
        | disconnected =>
            rw [log_closeFd] at set
            refine (noteSelect_sets set).imp_right ?_
            rintro ⟨sel, soError, rfl⟩
            exact ⟨_, ⟨_, _, _, _, _, rfl⟩, sel, soError, rfl⟩
        | throws => exact .inl set

theorem Move.sets (m : Move cfg t n l a l' n') (set : Event.fdSet fd ∈ n'.log) :
    Event.fdSet fd ∈ n.log ∨ ∃ k, ConnectWaits t l a fd k := by
  obtain old | emits := m.log.mem set
  · exact .inl old
  · cases emits with
    | fdSet =>
        cases m with
        | base move =>
            cases move with
            | opening move | opened move | openEscaped move => exact move.sets set

/-- Some step of the run opened the socket `k` with the lowest free number `fd`. -/
def SocketOpened (others : System → Set Int) (tr : List StepTaken) (fd : Int) (k : Sock) : Prop :=
  ∃ x ∈ tr, x.Opens fd k ∧ IsLeast {i : Int | 0 ≤ i ∧ i ∉ openFds others x.1} fd

theorem SocketOpened.append {k : Sock} {x : StepTaken} (h : SocketOpened others tr fd k) :
    SocketOpened others (tr ++ [x]) fd k := by
  obtain ⟨y, mem, opens, lowest⟩ := h
  exact ⟨y, List.mem_append_left _ mem, opens, lowest⟩

/-- A connection attempt has its socket from `socket()`. -/
theorem connecting_opened (h : Trace (machine cfg) (LowestFree others) init tr s) :
    LocConnecting (SocketOpened others tr) .msg (s.loc .msg) := by
  induction h with
  | start => trivial
  | @step tr s s' t a run lowest next ih =>
      have before : LocConnecting (SocketOpened others (tr ++ [(s, t, a)])) .msg (s.loc .msg) :=
        MsgPc.Connecting.mono ih fun _ _ => SocketOpened.append
      have opens : SocketSatisfies (SocketOpened others (tr ++ [(s, t, a)])) s.shared a := by
        intro fd returns
        exact ⟨(s, t, a), List.mem_append_right _ List.mem_cons_self, ⟨returns, rfl⟩,
          lowest fd returns⟩
      obtain ⟨l, n, m, rfl⟩ := next_move next
      cases t with
      | msg =>
          change LocConnecting _ .msg (Function.update s.loc .msg l .msg)
          rw [Function.update_self]
          exact m.connecting opens before
      | _ => exact before

theorem ConnectWaits.opened {k : Sock} (waits : ConnectWaits t l a fd k)
    (h : LocConnecting (SocketOpened others tr) t l) : SocketOpened others tr fd k := by
  cases t with
  | msg =>
      obtain ⟨⟨ctx, q, count, ip, rest, at_⟩, -⟩ := waits
      change l.pc.Connecting _ at h
      rw [at_] at h
      exact h
  | _ => exact waits.elim

/-- `FD_SET` is executed on a descriptor that `socket()` returned and `connect()` has to wait on. -/
theorem fdSet_waited (h : Trace (machine cfg) (LowestFree others) init tr s)
    (set : Event.fdSet fd ∈ s.shared.log) :
    ∃ k, SocketOpened others tr fd k ∧ ∃ y ∈ tr, y.Waits fd k := by
  induction h with
  | start => cases set
  | @step tr s s' t a run lowest next ih =>
      obtain ⟨l, n, m, rfl⟩ := next_move next
      obtain old | ⟨k, waits⟩ := m.sets set
      · obtain ⟨k, opened, y, mem, waits⟩ := ih old
        exact ⟨k, opened.append, y, List.mem_append_left _ mem, waits⟩
      · have here : LocConnecting (SocketOpened others tr) t (s.loc t) := by
          cases t with
          | msg => exact connecting_opened run
          | _ => trivial
        exact ⟨k, (waits.opened here).append, (s, t, a),
          List.mem_append_right _ List.mem_cons_self, waits⟩

/-- **`FD_SET` stays in range** in every run in which fewer than `FD_SETSIZE` descriptors are
open at each call of `socket()` whose connection is then in progress. -/
theorem fdSet_in_range (h : Trace (machine cfg) (LowestFree others) init tr s)
    (room : RoomToWait others tr) (set : Event.fdSet fd ∈ s.shared.log) :
    0 ≤ fd ∧ fd < fdSetSize := by
  obtain ⟨k, ⟨x, opened, opens, lowest⟩, y, waited, waits⟩ := fdSet_waited h set
  exact ⟨lowest.1.1, lowest_lt (room x opened y waited fd k opens waits) lowest⟩

/-- Room at every call of `socket()` is more than enough. -/
theorem roomToWait_of_room (h : Trace (machine cfg) (Room others) init tr s) :
    RoomToWait others tr := by
  rintro ⟨s', t, a⟩ mem y - fd k ⟨returns, -⟩ -
  obtain ⟨-, -, -, room, -⟩ := h.mem mem
  exact room fd returns

end Bound

/-! ### One client after the other -/

section Filling

variable {ok : System → ThreadId → Act → Prop} {P P' : Node → Prop} {n : Node} {a : Act}
  {held known : Nat}

/-- Some run of the default configuration has the message thread at `pc` and `P` of the shared
state. -/
def At (ok : System → ThreadId → Act → Prop) (pc : MsgPc) (P : Node → Prop) : Prop :=
  ∃ s, ReachesBy {} ok s ∧ s.loc .msg = { pc } ∧ P s.shared

theorem At.next {pc pc' : MsgPc} (h : At ok pc P) (allowed : ∀ s, P s.shared → ok s .msg a)
    (moves : ∀ n, P n → ∃ n', msgStep {} pc n a = some ({ pc := pc' }, n') ∧ P' n') :
    At ok pc' P' := by
  obtain ⟨s, reach, at_, before⟩ := h
  obtain ⟨n', moves, after⟩ := moves s.shared before
  have next : (machine {}).next s .msg a =
      some ⟨Function.update s.loc .msg { pc := pc' }, n'⟩ := by
    change (step {} .msg (s.loc .msg) s.shared a).map _ = _
    rw [at_]
    change (msgStep {} pc s.shared a).map _ = _
    rw [moves]
    rfl
  exact ⟨_, Reach.step reach (allowed s before) next,
    Function.update_self ThreadId.msg ({ pc := pc' } : Thread MsgPc) s.loc, after⟩

theorem At.fix {pc : MsgPc} (h : At ok pc P) : ∃ n, P n ∧ At ok pc (· = n) := by
  obtain ⟨s, reach, at_, holds⟩ := h
  exact ⟨s.shared, holds, s, reach, at_, rfl⟩

/-- One step of `handleOpen`. -/
theorem At.nextOpen {ctx : MsgCtx} {q : OpenMessage} {pc pc' : OpenPc}
    (h : At ok (.opening ctx q pc) P) (allowed : ∀ s, P s.shared → ok s .msg a)
    (moves : ∀ n, P n → ∃ n', openStep {} ctx.clientId q pc n a = some (.more pc', n') ∧ P' n') :
    At ok (.opening ctx q pc') P' := by
  apply h.next allowed
  intro n before
  obtain ⟨n', moves, after⟩ := moves n before
  refine ⟨n', ?_, after⟩
  rw [msgStep, moves]
  rfl

/-- The descriptors of so many streams are open, from 3 on, and so many clients are known.
Clients are named by numbers. -/
structure Filled (held known : Nat) (n : Node) : Prop where
  up : n.transportUp = true
  fds (fd : Int) : n.fds fd ≠ none ↔ 3 ≤ fd ∧ fd < held + 3
  unknown (i : Nat) : known ≤ i → n.streamsPerClient.lookup (toString10 i) = none

namespace Filled

theorem start : Filled 0 0 {} := by
  refine ⟨rfl, ?_, fun _ _ => rfl⟩
  intro fd
  constructor
  · intro taken
    exact absurd rfl taken
  · intro range
    omega

theorem emit (h : Filled held known n) (e : Event) : Filled held known (n.emit e) :=
  ⟨h.up, h.fds, h.unknown⟩

/-- A count is stored for the last client. -/
theorem count {last : Nat} {c : UInt32} (h : Filled held known n) (near : known ≤ last + 1) :
    Filled held (last + 1)
      { n with streamsPerClient := n.streamsPerClient.insert (toString10 last) c } := by
  refine ⟨h.up, h.fds, ?_⟩
  intro i other
  have differs : toString10 i ≠ toString10 last := by
    intro same
    have := toString10_inj same
    omega
  exact (AList.lookup_insert_ne differs).trans (h.unknown i (by omega))

theorem openSocket (h : Filled held known n) : Filled (held + 1) known (n.openSocket (held + 3)) := by
  refine ⟨h.up, ?_, h.unknown⟩
  intro fd
  unfold Node.openSocket
  dsimp only
  by_cases same : fd = held + 3
  · rw [same, Function.update_self]
    simp
  · rw [Function.update_of_ne same, h.fds fd]
    omega

end Filled

def Act.isSocketRet : Act → Bool
  | .socketRet _ => true
  | _ => false

/-- Of `socket()` the guard allows the next descriptor. -/
structure AllowsNext (held : Nat) (ok : System → ThreadId → Act → Prop) : Prop where
  other {s : System} {t : ThreadId} {a : Act} (other : a.isSocketRet = false) : ok s t a
  socket {s : System} {t : ThreadId} {known : Nat} (filled : Filled held known s.shared) :
    ok s t (.socketRet (some (held + 3)))

def openCtx (count : Nat) : MsgCtx := ⟨toString10 count, openStream1, 12⟩

def openQ : OpenMessage := ⟨1, ascii "h", 80, []⟩

/-- The next client gets as far as `socket()`. -/
theorem At.socket {count : Nat} (allows : AllowsNext count ok)
    (h : At ok .waiting (Filled count count)) :
    At ok (.opening (openCtx count) openQ (.socket 0 (ascii "8.8.8.8") []))
      (Filled count (count + 1)) := by
  have parsing : At ok (.parsing ⟨toString10 count, openStream1, 0⟩) (Filled count count) := by
    apply At.next (a := .deliver (toString10 count) openStream1) h fun _ _ => allows.other rfl
    intro n filled
    refine ⟨n, ?_, filled⟩
    rw [msgStep, if_pos filled.up]
  have check : At ok (.opening (openCtx count) openQ .check) (Filled count count) := by
    apply parsing.next (a := .go) fun _ _ => allows.other rfl
    intro n filled
    have inside : 0 < openStream1.length := by decide
    have frame : parseFrame openStream1 0 = .ok (.opn openQ, 12) := by decide
    refine ⟨_, ?_, filled.emit (.received (toString10 count) (.opn openQ))⟩
    rw [msgStep, if_pos inside]
    dsimp only
    rw [frame]
    rfl
  have quota : At ok (.opening (openCtx count) openQ .quota) (Filled count count) := by
    apply check.nextOpen (a := .go) fun _ _ => allows.other rfl
    intro n filled
    exact ⟨n, rfl, filled⟩
  have resolve : At ok (.opening (openCtx count) openQ (.resolve 0)) (Filled count (count + 1)) := by
    apply quota.nextOpen (a := .go) fun _ _ => allows.other rfl
    intro n filled
    have fresh : n.count (toString10 count) = 0 := by
      rw [Node.count, filled.unknown count (Nat.le_refl _)]
      rfl
    refine ⟨n.touchCount (toString10 count), ?_, filled.count (Nat.le_succ count)⟩
    rw [openStep, openCtx, fresh]
    rfl
  have connect : At ok (.opening (openCtx count) openQ (.connect 0 [0x08080808] true))
      (Filled count (count + 1)) := by
    apply resolve.nextOpen (a := .resolved (some [0x08080808])) fun _ _ => allows.other rfl
    intro n filled
    exact ⟨_, rfl, filled.emit _⟩
  apply connect.nextOpen (a := .go) fun _ _ => allows.other rfl
  intro n filled
  exact ⟨_, rfl, filled.emit _⟩

theorem At.connecting {count : Nat} (allows : AllowsNext count ok)
    (h : At ok (.opening (openCtx count) openQ (.socket 0 (ascii "8.8.8.8") []))
      (Filled count (count + 1))) :
    ∃ k, At ok (.opening (openCtx count) openQ (.connecting 0 (ascii "8.8.8.8") [] (count + 3) k))
      (Filled (count + 1) (count + 1)) := by
  obtain ⟨n, filled, h⟩ := h.fix
  refine ⟨n.nextSock, ?_⟩
  apply h.nextOpen (a := .socketRet (some (count + 3)))
  · intro s same
    exact allows.socket (same ▸ filled)
  · rintro n rfl
    have free : n.fds (count + 3) = none := by
      by_contra taken
      have := (filled.fds _).mp taken
      omega
    refine ⟨_, ?_, filled.openSocket.emit (.socket (toString10 count) openQ (count + 3) n.nextSock)⟩
    rw [openStep, if_pos ⟨by omega, free⟩]
    rfl

/-- One more descriptor is open, and `FD_SET` was executed on it. -/
def Tried (count : Nat) (n : Node) : Prop :=
  Filled (count + 1) (count + 1) n ∧ Event.fdSet (count + 3) ∈ n.log

/-- The connection is in progress for a while, and the stream is registered. -/
theorem At.opened {count : Nat} (allows : AllowsNext count ok)
    (h : At ok (.opening (openCtx count) openQ (.socket 0 (ascii "8.8.8.8") []))
      (Filled count (count + 1))) :
    At ok .waiting (Tried count) := by
  obtain ⟨k, connecting⟩ := h.connecting allows
  have makeStream : At ok (.opening (openCtx count) openQ (.makeStream (count + 3) k))
      (Tried count) := by
    apply connecting.nextOpen (a := .connectRet (.inProgress 1 false)) fun _ _ => allows.other rfl
    intro n filled
    exact ⟨n.emit (.fdSet (count + 3)), rfl, filled.emit _, List.mem_append_right _ List.mem_cons_self⟩
  have register : ∃ r, At ok (.opening (openCtx count) openQ (.register r)) (Tried count) := by
    obtain ⟨n, ⟨filled, set⟩, makeStream⟩ := makeStream.fix
    refine ⟨n.nextRef, ?_⟩
    apply makeStream.nextOpen (a := .go) fun _ _ => allows.other rfl
    rintro n rfl
    exact ⟨_, rfl, ⟨filled.up, filled.fds, filled.unknown⟩, set⟩
  obtain ⟨r, register⟩ := register
  have ack : At ok (.opening (openCtx count) openQ (.ack r)) (Tried count) := by
    apply register.nextOpen (a := .go) fun _ _ => allows.other rfl
    rintro n ⟨filled, set⟩
    have stored : Filled (count + 1) (count + 1)
        (n.register (toString10 count) (keyFor (toString10 count) 1) r) := by
      have counted := @Filled.count n _ _ count (n.count (toString10 count) + 1) filled (Nat.le_refl _)
      exact ⟨counted.up, counted.fds, counted.unknown⟩
    exact ⟨_, rfl, stored, List.mem_append_left _ set⟩
  have startThread : At ok (.opening (openCtx count) openQ (.startThread r)) (Tried count) := by
    apply ack.nextOpen (a := .sent true) fun _ _ => allows.other rfl
    rintro n ⟨filled, set⟩
    exact ⟨_, rfl, filled.emit _, List.mem_append_left _ set⟩
  have assign : At ok (.opening (openCtx count) openQ (.assign r)) (Tried count) := by
    apply startThread.nextOpen (a := .go) fun _ _ => allows.other rfl
    rintro n ⟨filled, set⟩
    exact ⟨_, rfl, ⟨filled.up, filled.fds, filled.unknown⟩, set⟩
  have parsing : At ok (.parsing (openCtx count)) (Tried count) := by
    apply assign.next (a := .go) fun _ _ => allows.other rfl
    rintro n ⟨filled, set⟩
    exact ⟨_, rfl, ⟨filled.up, filled.fds, filled.unknown⟩, set⟩
  apply parsing.next (a := .go) fun _ _ => allows.other rfl
  rintro n ⟨filled, set⟩
  exact ⟨n, rfl, filled, set⟩

end Filling

/-- Standard input, output and error are open. -/
def standardFds (_ : System) : Set Int := {0, 1, 2}

theorem openFds_of_filled {s : System} {held known : Nat} (filled : Filled held known s.shared) :
    openFds standardFds s = Set.Ico 0 (held + 3 : Int) := by
  ext fd
  have here : fd ∈ openFds standardFds s ↔
      s.shared.fds fd ≠ none ∨ fd = 0 ∨ fd = 1 ∨ fd = 2 := Iff.rfl
  rw [here, filled.fds, Set.mem_Ico]
  omega

theorem lowestFree_of_filled {s : System} {t : ThreadId} {held known : Nat}
    (filled : Filled held known s.shared) :
    LowestFree standardFds s t (.socketRet (some (held + 3))) := by
  rintro fd ⟨⟩
  rw [openFds_of_filled filled]
  constructor
  · constructor
    · omega
    · intro taken
      exact absurd taken.2 (lt_irrefl _)
  · rintro k ⟨nonneg, free⟩
    by_contra low
    exact free ⟨nonneg, not_le.mp low⟩

theorem allowsNext_lowestFree (held : Nat) : AllowsNext held (LowestFree standardFds) := by
  constructor
  · intro s t a other fd returns
    rw [returns] at other
    cases other
  · intro s t known filled
    exact lowestFree_of_filled filled

/-- Every descriptor from 3 on is handed to `FD_SET` in some run, although each client has one
stream only. -/
theorem fdSet_unbounded (count : Nat) : At (LowestFree standardFds) .waiting (Tried count) := by
  have start : At (LowestFree standardFds) .waiting (Filled 0 0) := ⟨init, .start, rfl, .start⟩
  induction count with
  | zero => exact (start.socket (allowsNext_lowestFree 0)).opened (allowsNext_lowestFree 0)
  | succ count ih =>
      obtain ⟨s, reach, at_, filled, -⟩ := ih
      have before : At (LowestFree standardFds) .waiting (Filled (count + 1) (count + 1)) :=
        ⟨s, reach, at_, filled⟩
      have allows := allowsNext_lowestFree (count + 1)
      exact (before.socket allows).opened allows

theorem descriptor_1024_set :
    ∃ s, ReachesBy {} (LowestFree standardFds) s ∧ Event.fdSet 1024 ∈ s.shared.log ∧
      ¬ (1024 : Int) < fdSetSize := by
  obtain ⟨s, reach, -, -, set⟩ := fdSet_unbounded 1021
  exact ⟨s, reach, set, by decide⟩

theorem first_descriptor_in_range :
    ∃ tr s, Trace (machine {}) (LowestFree standardFds) init tr s ∧ RoomToWait standardFds tr ∧
      Event.fdSet 3 ∈ s.shared.log ∧ 0 ≤ (3 : Int) ∧ (3 : Int) < fdSetSize := by
  have allows : AllowsNext 0
      (fun s t a => LowestFree standardFds s t a ∧ Room standardFds s t a) := by
    constructor
    · intro s t a other
      refine ⟨(allowsNext_lowestFree 0).other other, ?_⟩
      intro fd returns
      rw [returns] at other
      cases other
    · intro s t known filled
      refine ⟨lowestFree_of_filled filled, ?_⟩
      intro fd _
      rw [openFds_of_filled filled, ← Finset.coe_Ico, Set.encard_coe_eq_coe_finsetCard, Int.card_Ico]
      decide
  have start : At (fun s t a => LowestFree standardFds s t a ∧ Room standardFds s t a) .waiting
      (Filled 0 0) := ⟨init, .start, rfl, .start⟩
  obtain ⟨s, reach, -, -, set⟩ := (start.socket allows).opened allows
  obtain ⟨tr, run⟩ := reach.trace
  have lowest := run.mono fun _ _ _ ok => ok.1
  have room := roomToWait_of_room (run.mono fun _ _ _ ok => ok.2)
  exact ⟨tr, s, lowest, room, set, fdSet_in_range lowest room set⟩

end TonTunnel.Egress
