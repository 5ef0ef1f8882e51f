import TonTunnel.Egress.Ownership
import TonTunnel.Egress.Table

/-!
Where the streams of successful OPENs are.

A registered stream should be in `streams_`, or some thread should have taken it
out to tear it down. `Egress.Ownership` proves everything about this except that
a stream does not drop out of `streams_` silently, and it can: `handleOpen`
overwrites the entry when the client uses a stream id that is still open, and
`closeStream` forgets the stream if its second insertion runs out of memory.
`registered_streams_accounted_for` shows that these are the only ways, and
`duplicate_open_orphans_stream` runs the first one.
-/

namespace TonTunnel.Egress

open Interleaving (Reach)

/-! ### The invariant -/

/-- The stream is in `streams_` under its key, not closed, with an open descriptor. -/
def Live (n : Node) (r : Ref) : Prop :=
  n.streams.lookup (keyFor (n.heap r).clientId (n.heap r).streamId) = some r ∧
    (n.heap r).closed = false ∧ Attached n r

/-- Exactly one thread took the stream out of `streams_`. It is in the middle of the
teardown, or the teardown is over and has closed the socket once. -/
def TakenOnce (s : System) (r : Ref) : Prop :=
  ∃ t, s.shared.teardowns r = [t] ∧ ((∃ p, Tears t (s.loc t) r p) ∨ Torn s.shared r)

/-- Every registered stream is in the table or was taken out of it. -/
def Filed (n : Node) : Prop :=
  ∀ r, Registered n r →
    r < n.nextRef ∧ (n.streams.lookup (n.heap r).key = some r ∨ n.teardowns r ≠ [])

/-- `handleOpen` does not store a stream over one that is still in `streams_`. -/
def registersFresh (s : System) : ThreadId → Act → Bool
  | .msg, a =>
      match (s.loc .msg).pc, a with
      | .opening _ _ (.register _), .throw _ => true
      | .opening ctx q (.register _), _ =>
          (s.shared.streams.lookup (keyFor ctx.clientId q.streamId)).isNone
      | _, _ => true
  | _, _ => true

/-- `closeStream` does not run out of memory between erasing an entry and noting
the close. -/
def losesNothing (s : System) (t : ThreadId) (a : Act) : Bool :=
  match activeCall t (s.loc t), a with
  | some ⟨_, .enter⟩, .throwMid _ => false
  | _, _ => true

/-- The steps that let no stream drop out of `streams_`. -/
def keepsEntries (s : System) (t : ThreadId) (a : Act) : Bool :=
  registersFresh s t a && losesNothing s t a

/-! ### The guarded steps keep it -/

/-- A stream is registered by being stored under its name. -/
theorem TableMove.registered {t : ThreadId} {l l' : Loc t} {a : Act} {n n' : Node} {r : Ref}
    (hl : PosOk t l n) (m : TableMove n t l a l' n') (h : Registered n' r) :
    Registered n r ∨ r < n.nextRef ∧ n'.streams.lookup (n.heap r).key = some r := by
  -- an event that is not a registration
  have old {es : List Event} (hes : n'.log = n.log ++ es) (others : ∀ e ∈ es, e ≠ .registered r) :
      Registered n r := by
    rw [Registered, hes] at h
    rcases List.mem_append.mp h with h | h
    · exact h
    · exact absurd rfl (others _ h)
  -- the registration of `r'`
  have stored {client : Bytes} {streamId : UInt32} {r' : Ref} (named : Named n client streamId r')
      (streams : n'.streams = n.streams.insert (keyFor client streamId) r')
      (log : n'.log = n.log ++ [Event.registered r']) :
      Registered n r ∨ r < n.nextRef ∧ n'.streams.lookup (n.heap r).key = some r := by
    rw [Registered, log] at h
    rcases List.mem_append.mp h with h | h
    · exact .inl h
    · cases List.mem_singleton.mp h
      refine .inr ⟨named.1, ?_⟩
      rw [streams, Stream.key, named.2.1, named.2.2]
      exact AList.lookup_insert _
  cases m with
  | still still => exact .inl (still.registered h)
  | register | registerThrows => exact stored hl.1.1 rfl rfl
  | take => exact .inl (old (log_take n t _ _) (by simp))
  | lose => exact .inl h
  | snapshot => exact .inl (old rfl (by simp))

/-- A guarded step drops no stream. -/
theorem not_drops {s : System} {t : ThreadId} {a : Act} {r : Ref}
    (hok : keepsEntries s t a = true) : ¬ Drops s.shared r t (s.loc t) a := by
  intro drops
  generalize hl : s.loc t = l at drops
  cases drops with
  | replaced found | replacedThrows found => simp [keepsEntries, registersFresh, hl, found] at hok
  | lost calls => simp [keepsEntries, losesNothing, hl, calls] at hok

/-- **One guarded step files every registered stream.** -/
theorem Filed.step {cfg : Config} {s : System} {t : ThreadId} {a : Act} {l' : Loc t} {n' : Node}
    (hs : Owned s) (hf : Filed s.shared) (hok : keepsEntries s t a = true)
    (hstep : step cfg t (s.loc t) s.shared a = some (l', n')) : Filed n' := by
  have m := step_move hstep
  have hn := hs.shared
  have e := (m.own hn (hs.loc t)).1
  have hkey {r : Ref} (hr : r < s.shared.nextRef) :
      r < n'.nextRef ∧ (n'.heap r).key = (s.shared.heap r).key := by
    obtain ⟨hr', hclient, hstream, _⟩ := e.ident hr
    exact ⟨hr', by rw [Stream.key, hclient, hstream, Stream.key]⟩
  intro r hr
  rcases m.table.registered (hs.loc t).pos hr with old | ⟨hbound, stored⟩
  · obtain ⟨hbound, hold⟩ := hf r old
    obtain ⟨hbound', hsame⟩ := hkey hbound
    rw [hsame]
    refine ⟨hbound', ?_⟩
    rcases hold with hin | taken
    · rcases m.table.entry hin with stays | taken | drops
      · exact .inl stays
      · exact .inr taken
      · exact absurd drops (not_drops hok)
    · exact .inr (e.still_taken hn taken)
  · obtain ⟨hbound', hsame⟩ := hkey hbound
    rw [hsame]
    exact ⟨hbound', .inl stored⟩

/-- Every guarded run files every registered stream. -/
theorem filed_of_reaches {cfg : Config} {s : System}
    (h : ReachesBy cfg (fun s t a => keepsEntries s t a = true) s) : Filed s.shared := by
  refine Reach.invariant (I := fun s => Filed s.shared) (fun r hr => by cases hr) ?_ h
  intro s s' t a hr hf hok hnext
  obtain ⟨l, n, hstep, rfl⟩ := Interleaving.Machine.next_eq_some hnext
  exact hf.step (Reaches.owned hr.any) hok hstep

/-- **Ownership of registered streams.** In every run in which no OPEN is registered
over an entry of `streams_` and no `closeStream` runs out of memory between its
two updates, every registered stream is in `streams_` under its key with `closed`
unset and an open descriptor, or exactly one teardown took it, which is still at
work or has closed its socket once. -/
theorem registered_streams_accounted_for {cfg : Config} {s : System}
    (h : ReachesBy cfg (fun s t a => keepsEntries s t a = true) s) (r : Ref)
    (hr : Registered s.shared r) : Live s.shared r ∨ TakenOnce s r := by
  have hs := Reaches.owned h.any
  obtain ⟨hbound, hin⟩ := filed_of_reaches h r hr
  rcases hin with hin | taken
  · have closed := hs.shared.unclosed hin
    exact .inl ⟨hin, closed, hs.shared.attached hbound closed⟩
  · rcases hs.shared.single r with none_ | ⟨t, mine⟩
    · exact absurd none_ taken
    · exact .inr ⟨t, mine, (hs.loc t).fate mine⟩

/-! ### One OPEN, and the same OPEN twice -/

/-- An OPEN of stream 1 to port 80 of host `h`, without a token. -/
def openStream1 : Bytes := [1, 0, 0, 0, 1, 0, 1, 104, 0, 80, 0, 0]

/-- `handleOpen` to the end: the name resolves to 8.8.8.8, which accepts. -/
def openSchedule (fd : Int) : List (ThreadId × Act) :=
  [.go, .go, .go, .resolved (some [0x08080808]), .go, .socketRet (some fd), .connectRet .connected,
    .go, .go, .sent true, .go, .go].map fun a => (.msg, a)

/-- One OPEN of client `A`. -/
def singleOpen : List (ThreadId × Act) :=
  (.msg, .deliver (ascii "A") openStream1) :: openSchedule 3

/-- The same OPEN twice in one payload. -/
def duplicateOpen : List (ThreadId × Act) :=
  (.msg, .deliver (ascii "A") (openStream1 ++ openStream1)) :: (openSchedule 3 ++ openSchedule 4)

theorem single_open_accounted_for :
    Registered ((machine {}).run init singleOpen).shared 0 ∧
      (Live ((machine {}).run init singleOpen).shared 0 ∨
        TakenOnce ((machine {}).run init singleOpen) 0) :=
  have hr : Registered ((machine {}).run init singleOpen).shared 0 := by
    unfold Registered
    decide
  ⟨hr, registered_streams_accounted_for (Reach.run (by decide)) 0 hr⟩

/-- After a duplicate OPEN the first stream is registered, its socket is open, it is
not in `streams_`, and no teardown has taken it. -/
theorem duplicate_open_orphans_stream :
    ∃ s, Reaches {} s ∧ Registered s.shared 0 ∧ s.shared.fds 3 = some (s.shared.heap 0).sock ∧
      ¬ (Live s.shared 0 ∨ TakenOnce s 0) := by
  refine ⟨(machine {}).run init duplicateOpen, ?_, ?_, ?_, ?_⟩
  · exact (Reach.run (by decide : (machine {}).follows (fun _ _ _ => true) init duplicateOpen)).any
  · unfold Registered
    decide
  · decide
  · rintro (⟨hin, -⟩ | ⟨t, mine, -⟩)
    · revert hin
      decide
    · have none_ : ((machine {}).run init duplicateOpen).shared.teardowns 0 = [] := by decide
      rw [none_] at mine
      cases mine

end TonTunnel.Egress
