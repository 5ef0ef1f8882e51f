import TonTunnel.Lib.Fifo

/-!
The history of a client's stream queues.

Both clients keep a map from stream ids to queues of inbound frames. What the
receiver thread and the callers do to it is recorded here as a list of notes, for
an observer: no modelled function reads it. A queue has a name of its own, since
in the Android client a caller may still hold a queue that the map has lost.
-/

namespace TonTunnel.Client

open Fifo (Op)

/-- What happened to the stream queues. -/
inductive Note (Id Queue Frame : Type) where
  /-- `registerStream` was called, or `openStream`, which starts with it -/
  | registered (id : Id)
  | unregistered (id : Id)
  | created (q : Queue)
  | removed (q : Queue)
  /-- the receiver thread took up a decoded frame -/
  | inbound (id : Id) (f : Frame)
  | put (q : Queue) (f : Frame)
  /-- a caller took a frame, in the wait loop of `openStream` (`opening`) or as the result
  of its `awaitStreamFrame` -/
  | taken (caller : Nat) (opening : Bool) (q : Queue) (f : Frame)
  /-- the OPEN of a call of `openStream` was accepted for sending -/
  | openSent (caller : Nat) (id : Id)
  /-- `openStream` returned 0 -/
  | opened (caller : Nat) (id : Id)
  deriving DecidableEq, Repr

namespace Note

variable {Id Queue Frame : Type}

/-- The operation on the queues that a note records. -/
def op : Note Id Queue Frame → Option (Op Queue Frame)
  | .created q => some (.create q)
  | .removed q => some (.remove q)
  | .put q f => some (.put q f)
  | .taken _ _ q f => some (.take q f)
  | _ => none

/-- The id a note is about, where queues are named by ids. -/
def about : Note Id Id Frame → Id
  | .registered id | .unregistered id | .created id | .removed id | .inbound id _ | .put id _
  | .taken _ _ id _ | .openSent _ id | .opened _ id => id

/-- The caller a note is by. -/
def caller : Note Id Queue Frame → Option Nat
  | .taken i _ _ _ | .openSent i _ | .opened i _ => some i
  | _ => none

/-- A frame of the stream that the receiver took up. -/
def arrives [DecidableEq Id] (id : Id) : Note Id Queue Frame → Option Frame
  | .inbound j f => if j = id then some f else none
  | _ => none

/-- A frame taken out of the queue. -/
def takes [DecidableEq Queue] (q : Queue) : Note Id Queue Frame → Option Frame
  | .taken _ _ p f => if p = q then some f else none
  | _ => none

/-- A frame taken out of the queue and returned by `awaitStreamFrame`. -/
def awaits [DecidableEq Queue] (q : Queue) : Note Id Queue Frame → Option Frame
  | .taken _ false p f => if p = q then some f else none
  | _ => none

/-- A frame put into the queue. -/
def puts [DecidableEq Queue] (q : Queue) : Note Id Queue Frame → Option Frame
  | .put p f => if p = q then some f else none
  | _ => none

/-- The map gets an entry for the id, if it has none: a registration, or a control frame
that the receiver takes up. -/
def brings [DecidableEq Id] (control : Frame → Bool) (id : Id) : Note Id Queue Frame → Bool
  | .registered j => j = id
  | .inbound j f => j = id && control f
  | _ => false

/-- The caller's `openStream` sends its OPEN or takes a frame. -/
def opens (i : Nat) : Note Id Queue Frame → Bool
  | .taken j o _ _ => j = i && o
  | .openSent j _ => j = i
  | _ => false

theorem opens_of_caller_ne {i : Nat} {n : Note Id Queue Frame} (other : n.caller ≠ some i) :
    n.opens i = false := by
  cases n with
  | taken j o q f | openSent j id =>
      have : j ≠ i := by simpa [caller] using other
      simp [opens, this]
  | _ => rfl

end Note

variable {Id Queue Frame : Type}

/-- The operations that a history records. -/
def ops (notes : List (Note Id Queue Frame)) : List (Op Queue Frame) :=
  notes.filterMap Note.op

@[simp] theorem ops_append (h h' : List (Note Id Queue Frame)) : ops (h ++ h') = ops h ++ ops h' :=
  List.filterMap_append

section Since

variable [DecidableEq Queue] (q : Queue) (notes : List (Note Id Queue Frame))

/-- The note is the creation of the queue. -/
def Note.creates (q : Queue) : Note Id Queue Frame → Bool
  | .created p => p = q
  | _ => false

theorem takes_ops : Fifo.takes q (ops notes) = Fifo.since (Note.creates q) (Note.takes q) notes := by
  rw [Fifo.takes, ops, Fifo.since_filterMap]
  congr 1
  · funext n
    cases n with
    | _ => rfl
  · funext n
    cases n with
    | _ => rfl

theorem puts_ops : Fifo.puts q (ops notes) = Fifo.since (Note.creates q) (Note.puts q) notes := by
  rw [Fifo.puts, ops, Fifo.since_filterMap]
  congr 1
  · funext n
    cases n with
    | _ => rfl
  · funext n
    cases n with
    | _ => rfl

end Since

/-! ### Entries that are wanted -/

/-- Since the id was last unregistered, it was registered or a control frame for it
arrived. -/
def Wanted [DecidableEq Id] (control : Frame → Bool) (id : Id)
    (notes : List (Note Id Queue Frame)) : Prop :=
  ∃ pre n post, notes = pre ++ n :: post ∧ n.brings control id = true ∧ .unregistered id ∉ post

section Wanted

variable [DecidableEq Id] {control : Frame → Bool} {id : Id} {notes : List (Note Id Queue Frame)}

theorem not_wanted_nil : ¬ Wanted control id ([] : List (Note Id Queue Frame)) := by
  rintro ⟨pre, n, post, h, -⟩
  simp at h

theorem wanted_concat {n : Note Id Queue Frame} :
    Wanted control id (notes ++ [n]) ↔
      n.brings control id = true ∨ (n ≠ .unregistered id ∧ Wanted control id notes) := by
  constructor
  · rintro ⟨pre, m, post, h, brings, still⟩
    rcases List.eq_nil_or_concat post with rfl | ⟨post, last, rfl⟩
    · obtain ⟨-, rfl⟩ : notes = pre ∧ n = m := by simpa using List.append_inj' h rfl
      exact .inl brings
    · have h' : notes ++ [n] = (pre ++ m :: post) ++ [last] := by simpa using h
      obtain ⟨rfl, rfl⟩ : notes = pre ++ m :: post ∧ n = last := by
        simpa using List.append_inj' h' rfl
      refine .inr ⟨?_, pre, m, post, rfl, brings, ?_⟩
      · rintro rfl
        exact still (by simp)
      · intro mem
        exact still (by simp [mem])
  · rintro (brings | ⟨still, pre, m, post, rfl, brings, before⟩)
    · exact ⟨notes, n, [], rfl, brings, by simp⟩
    · refine ⟨pre, m, post ++ [n], by simp, brings, ?_⟩
      intro mem
      rcases List.mem_append.mp mem with mem | mem
      · exact before mem
      · exact still (List.mem_singleton.mp mem).symm

/-- A note that neither brings nor unregisters the id. -/
theorem wanted_concat_of_plain {n : Note Id Queue Frame} (plain : n.brings control id = false)
    (still : n ≠ .unregistered id) :
    Wanted control id (notes ++ [n]) ↔ Wanted control id notes := by
  rw [wanted_concat]
  simp [plain, still]

/-- `Wanted`, read off the history from left to right. -/
theorem wanted_iff_foldl [DecidableEq Queue] [DecidableEq Frame] :
    Wanted control id notes ↔ notes.foldl (fun wanted n =>
      n.brings control id || (decide (n ≠ .unregistered id) && wanted)) false = true := by
  induction notes using List.reverseRecOn with
  | nil => simp [not_wanted_nil]
  | append_singleton notes n ih =>
      rw [wanted_concat, List.foldl_append, ih]
      simp

instance [DecidableEq Queue] [DecidableEq Frame] : Decidable (Wanted control id notes) :=
  decidable_of_iff _ wanted_iff_foldl.symm

end Wanted

/-! ### What stands behind the ACK -/

section Behind

variable [DecidableEq Queue] {s : Fifo.Store Queue Frame} {pre post : List (Note Id Queue Frame)}
  {i : Nat} {q : Queue} {f : Frame}

/-- The takings of a stretch in which no `openStream` takes are results of
`awaitStreamFrame`. -/
theorem awaits_eq_takes (alone : ∀ j f, .taken j true q f ∉ post) :
    post.filterMap (Note.awaits q) = post.filterMap (Note.takes q) := by
  refine List.filterMap_congr fun n mem => ?_
  cases n with
  | taken j o p f =>
      cases o with
      | false => rfl
      | true =>
          by_cases same : p = q
          · subst same
            exact absurd mem (alone j f)
          · simp [Note.awaits, Note.takes, same]
  | _ => rfl

theorem filterMap_takes_ops :
    (ops post).filterMap (Op.takes q) = post.filterMap (Note.takes q) := by
  rw [ops, List.filterMap_filterMap]
  refine List.filterMap_congr fun n _ => ?_
  cases n with
  | _ => rfl

theorem filterMap_puts_ops :
    (ops post).filterMap (Op.puts q) = post.filterMap (Note.puts q) := by
  rw [ops, List.filterMap_filterMap]
  refine List.filterMap_congr fun n _ => ?_
  cases n with
  | _ => rfl

/-- What stood in the queue behind a frame that `openStream` took, and what was put into
the queue later, is what `awaitStreamFrame` returned since, in order, and then what the queue
holds: as long as the queue stays and no other `openStream` takes from it. -/
theorem frames_behind_kept (h : Fifo.Run Fifo.empty (ops (pre ++ .taken i true q f :: post)) s)
    (kept : .removed q ∉ post)
    (alone : ∀ j f, .taken j true q f ∉ post) :
    ∃ behind l, Fifo.puts q (ops pre) = Fifo.takes q (ops pre) ++ f :: behind ∧ s q = some l ∧
      post.filterMap (Note.awaits q) ++ l = behind ++ post.filterMap (Note.puts q) := by
  rw [ops_append, show ops (.taken i true q f :: post) = .take q f :: ops post from rfl] at h
  have kept' : .remove q ∉ ops post := by
    intro mem
    obtain ⟨n, hn, same⟩ := List.mem_filterMap.mp mem
    cases n with
    | removed p =>
        cases same
        exact kept hn
    | _ => cases same
  obtain ⟨behind, l, stood, hl, balance⟩ := h.behind kept'
  rw [filterMap_takes_ops, filterMap_puts_ops, ← awaits_eq_takes alone] at balance
  exact ⟨behind, l, stood, hl, balance⟩

end Behind

/-- The last thing the caller's `openStream` did was to take `f` out of `q`. -/
def TookLast (i : Nat) (q : Queue) (f : Frame) (notes : List (Note Id Queue Frame)) : Prop :=
  ∃ pre post, notes = pre ++ .taken i true q f :: post ∧ ∀ n ∈ post, n.opens i = false

theorem TookLast.append {i : Nat} {q : Queue} {f : Frame} {notes new : List (Note Id Queue Frame)}
    (h : TookLast i q f notes) (still : ∀ n ∈ new, n.opens i = false) :
    TookLast i q f (notes ++ new) := by
  obtain ⟨pre, post, rfl, quiet⟩ := h
  refine ⟨pre, post ++ new, by simp, ?_⟩
  intro n mem
  exact (List.mem_append.mp mem).elim (quiet n) (still n)

theorem TookLast.concat (i : Nat) (q : Queue) (f : Frame) (notes : List (Note Id Queue Frame)) :
    TookLast i q f (notes ++ [.taken i true q f]) :=
  ⟨notes, [], rfl, by simp⟩

/-- Whenever `openStream` returned 0, the history before it satisfied `P`. -/
def AtOpened (P : Nat → Id → List (Note Id Queue Frame) → Prop)
    (notes : List (Note Id Queue Frame)) : Prop :=
  ∀ pre post i id, notes = pre ++ .opened i id :: post → P i id pre

section AtOpened

variable {P : Nat → Id → List (Note Id Queue Frame) → Prop} {notes : List (Note Id Queue Frame)}

theorem AtOpened.nil : AtOpened P ([] : List (Note Id Queue Frame)) := by
  intro pre post i id split
  simp at split

theorem AtOpened.concat {n : Note Id Queue Frame} (h : AtOpened P notes)
    (last : ∀ i id, n = .opened i id → P i id notes) : AtOpened P (notes ++ [n]) := by
  intro pre post i id split
  rcases List.eq_nil_or_concat post with rfl | ⟨post, m, rfl⟩
  · obtain ⟨rfl, rfl⟩ : notes = pre ∧ n = .opened i id := by simpa using List.append_inj' split rfl
    exact last i id rfl
  · have split' : notes ++ [n] = (pre ++ .opened i id :: post) ++ [m] := by simpa using split
    obtain ⟨rfl, -⟩ := List.append_inj' split' rfl
    exact h pre post i id rfl

theorem AtOpened.append {new : List (Note Id Queue Frame)} (h : AtOpened P notes)
    (none : ∀ n ∈ new, ∀ i id, n ≠ .opened i id) : AtOpened P (notes ++ new) := by
  induction new using List.reverseRecOn with
  | nil => simpa using h
  | append_singleton new n ih =>
      rw [← List.append_assoc]
      refine (ih fun m mem => none m (by simp [mem])).concat ?_
      intro i id same
      exact absurd same (none n (by simp) i id)

end AtOpened

/-- Whenever `openStream` returned 0, the last thing it had done was to take an ACK out of
a queue of its stream. -/
def AcksTaken (isAck : Frame → Bool) (idOf : Queue → Id) (notes : List (Note Id Queue Frame)) :
    Prop :=
  AtOpened (fun i id pre => ∃ q ack, idOf q = id ∧ isAck ack = true ∧ TookLast i q ack pre) notes

/-- `openStream` loses nothing that stands behind the ACK: if a call returned 0, the last
frame it took was an ACK, and the frames that stood in the queue behind it, and those put
there later, are what `awaitStreamFrame` has returned since, in order, and what the queue
holds; as long as the queue is not removed and no other `openStream` takes from it. -/
def KeepsBehindAck [DecidableEq Queue] (isAck : Frame → Bool) (idOf : Queue → Id)
    (notes : List (Note Id Queue Frame)) (content : Fifo.Store Queue Frame) : Prop :=
  ∀ pre post i id, notes = pre ++ .opened i id :: post →
    ∃ q ack pre₁ pre₂, idOf q = id ∧ isAck ack = true ∧
      pre = pre₁ ++ .taken i true q ack :: pre₂ ∧ (∀ n ∈ pre₂, n.opens i = false) ∧
      (.removed q ∉ pre₂ ++ post → (∀ j f, .taken j true q f ∉ pre₂ ++ post) →
        ∃ behind l, Fifo.puts q (ops pre₁) = Fifo.takes q (ops pre₁) ++ ack :: behind ∧
          content q = some l ∧
          (pre₂ ++ post).filterMap (Note.awaits q) ++ l =
            behind ++ (pre₂ ++ post).filterMap (Note.puts q))

theorem AcksTaken.keepsBehindAck [DecidableEq Queue] {isAck : Frame → Bool} {idOf : Queue → Id}
    {notes : List (Note Id Queue Frame)} {content : Fifo.Store Queue Frame}
    (h : AcksTaken isAck idOf notes) (run : Fifo.Run Fifo.empty (ops notes) content) :
    KeepsBehindAck isAck idOf notes content := by
  intro pre post i id split
  obtain ⟨q, ack, own, isAck, pre₁, pre₂, taken, quiet⟩ := h pre post i id split
  refine ⟨q, ack, pre₁, pre₂, own, isAck, taken, quiet, fun kept alone => ?_⟩
  have split' : notes = pre₁ ++ .taken i true q ack :: (pre₂ ++ .opened i id :: post) := by
    rw [split, taken, List.append_assoc, List.cons_append]
  rw [split'] at run
  have kept' : .removed q ∉ pre₂ ++ .opened i id :: post := by simpa using kept
  have alone' : ∀ j f, .taken j true q f ∉ pre₂ ++ .opened i id :: post := by simpa using alone
  obtain ⟨behind, l, stood, hl, balance⟩ := frames_behind_kept run kept' alone'
  refine ⟨behind, l, stood, hl, ?_⟩
  simpa [List.filterMap_cons, Note.awaits, Note.puts] using balance

end TonTunnel.Client
