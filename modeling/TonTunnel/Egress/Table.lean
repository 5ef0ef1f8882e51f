import TonTunnel.Egress.Effects
import TonTunnel.Egress.Events

/-!
The six ways a step can treat the stream table `streams_` and the per-client
counts (`Move.table`): most steps leave them alone, `handleOpen` registers, with
or without its count, `closeStream` takes or loses an entry, and `stop` takes
them all.
-/

namespace TonTunnel.Egress

/-- `handleOpen` stored the stream in `streams_`. -/
def Registered (n : Node) (r : Ref) : Prop := .registered r ∈ n.log

/-- The table, the owners and the counts are as they were, and nothing was registered. -/
structure Still (n n' : Node) : Prop where
  streams : n'.streams = n.streams
  teardowns : n'.teardowns = n.teardowns
  count (c : Bytes) : n'.count c = n.count c
  registered {r : Ref} : Registered n' r → Registered n r

/-- What a step does to the table. -/
inductive TableMove (n : Node) : (t : ThreadId) → Loc t → Act → Loc t → Node → Prop
  | still {t : ThreadId} {l : Loc t} {a : Act} {l' : Loc t} {n' : Node} (still : Still n n') :
      TableMove n t l a l' n'
  | register {ctx q r} :
      TableMove n .msg { pc := .opening ctx q (.register r) } .go
        { pc := .opening ctx q (.ack r) }
        (n.register ctx.clientId (keyFor ctx.clientId q.streamId) r)
  /-- the entry is stored and the count is not -/
  | registerThrows {ctx q r what} :
      TableMove n .msg { pc := .opening ctx q (.register r) } (.throwMid what)
        { pc := .opening ctx q (.caught what) } (n.putStream (keyFor ctx.clientId q.streamId) r)
  | take {t : ThreadId} {l : Loc t} {a : Act} {l' : Loc t} {c : CloseCall} {r : Ref}
      (calls : activeCall t l = some ⟨c, .enter⟩)
      (found : n.streams.lookup (keyFor c.clientId c.streamId) = some r)
      (calls' : activeCall t l' = some ⟨c, .tear r .flag⟩) : TableMove n t l a l' (n.take t c r)
  /-- the entry is erased and nobody takes the stream -/
  | lose {t : ThreadId} {l : Loc t} {what : Option Bytes} {l' : Loc t} {c : CloseCall} {r : Ref}
      (calls : activeCall t l = some ⟨c, .enter⟩)
      (found : n.streams.lookup (keyFor c.clientId c.streamId) = some r) :
      TableMove n t l (.throwMid what) l'
        { n with streams := n.streams.erase (keyFor c.clientId c.streamId) }
  | snapshot {refs} (all : refs.Perm n.refs) :
      TableMove n .main .snapshot (.order refs) (.tearing refs refs .flag) (n.takeAll .main refs)

/-- The step drops the stream out of the table and nobody takes it: another stream is
stored in its place, or `closeStream` loses it. -/
inductive Drops (n : Node) (r : Ref) : (t : ThreadId) → Loc t → Act → Prop
  | replaced {ctx : MsgCtx} {q : OpenMessage} {r' : Ref}
      (found : n.streams.lookup (keyFor ctx.clientId q.streamId) = some r) :
      Drops n r .msg { pc := .opening ctx q (.register r') } .go
  | replacedThrows {ctx : MsgCtx} {q : OpenMessage} {r' : Ref} {what : Option Bytes}
      (found : n.streams.lookup (keyFor ctx.clientId q.streamId) = some r) :
      Drops n r .msg { pc := .opening ctx q (.register r') } (.throwMid what)
  | lost {t : ThreadId} {l : Loc t} {what : Option Bytes} {c : CloseCall}
      (calls : activeCall t l = some ⟨c, .enter⟩)
      (found : n.streams.lookup (keyFor c.clientId c.streamId) = some r) :
      Drops n r t l (.throwMid what)

section Table

variable {cfg : Config} {t : ThreadId} {l l' : Loc t} {n n' : Node} {a : Act}

theorem Still.mild (h : Mild n n') (registered : ∀ {r}, Registered n' r → Registered n r) :
    Still n n' :=
  ⟨h.streams, h.teardowns, h.count, registered⟩

theorem Still.refl (n : Node) : Still n n := .mild (.refl n) id

theorem Still.emit (n : Node) {e : Event} (he : ∀ r, e ≠ .registered r) : Still n (n.emit e) := by
  refine .mild (.emit n e) fun {r} h => ?_
  rcases List.mem_append.mp h with h | h
  · exact h
  · exact absurd (List.mem_singleton.mp h).symm (he r)

theorem Still.trans {n'' : Node} (h : Still n n') (h' : Still n' n'') : Still n n'' :=
  ⟨h'.streams.trans h.streams, h'.teardowns.trans h.teardowns,
    fun c => (h'.count c).trans (h.count c), fun hr => h.registered (h'.registered hr)⟩

theorem Still.closeFd (n : Node) (fd : Int) : Still n (n.closeFd fd) := by
  obtain ⟨fds, closes, h⟩ := n.closeFd_eq fd
  rw [h]
  exact ⟨rfl, rfl, fun _ => rfl, id⟩

theorem Still.noteSelect (n : Node) (ip : Bytes) (fd : Int) (ret : ConnectRet) :
    Still n (noteSelect n ip fd ret) := by
  rcases noteSelect_eq n ip fd ret with same | waits
  · rw [same]
    exact .refl n
  · rw [waits]
    exact .emit n nofun

theorem TearMove.table {call : Option CloseCall} {r : Ref} {p : TearPc} {out : TearOut}
    (m : TearMove t call r n p a out n') : Still n n' := by
  cases m with
  | flag | clear | join => exact ⟨rfl, rfl, fun _ => rfl, id⟩
  | shutdown =>
      rcases n.shutdownFd_eq (n.heap r).fd with same | ⟨k, shut⟩
      · rw [same]
        exact .refl n
      · rw [shut]
        exact .emit n nofun
  | close => exact .closeFd n _
  | notify => exact .emit n nofun
  | _ => exact .refl n

theorem CloseMove.table {c : CloseCall} {pc : ClosePc} {out : CloseOut}
    (m : CloseMove t c n pc a out n') (calls : activeCall t l = some ⟨c, pc⟩)
    (calls' : ∀ pc', out = .more pc' → activeCall t l' = some ⟨c, pc'⟩) :
    TableMove n t l a l' n' := by
  cases m with
  | absent => exact .still (.mild (.noteClosed n _) id)
  | throws => exact .still (.refl n)
  | lose found => exact .lose calls found
  | take found => exact .take calls found (calls' _ rfl)
  | tear move | finish move => exact .still move.table

theorem OpenMove.table {ctx : MsgCtx} {q : OpenMessage} {pc : OpenPc} {out : OpenOut}
    {l' : Thread MsgPc} (m : OpenMove cfg ctx.clientId q n pc a out n')
    (hl' : ∀ pc', out = .more pc' → l' = { pc := .opening ctx q pc' }) :
    TableMove n .msg { pc := .opening ctx q pc } a l' n' := by
  cases m with
  | failed | reported | ack | unresolved | resolved | attempt => exact .still (.emit n nofun)
  | quotaLeft | quotaThrows => exact .still (.mild (.touchCount n _) id)
  | quotaFull =>
      refine .still (Still.trans ?_ (.mild (.touchCount _ _) id))
      exact .emit n nofun
  | @socket _ _ _ fd =>
      have h : Still n (n.openSocket fd) := ⟨rfl, rfl, fun _ => rfl, id⟩
      refine .still (h.trans ?_)
      exact .emit _ nofun
  | makeStream | assign => exact .still ⟨rfl, rfl, fun _ => rfl, id⟩
  | connected => exact .still (.noteSelect n _ _ _)
  | disconnected => exact .still ((Still.noteSelect n _ _ _).trans (.closeFd _ _))
  | startThread => exact .still (.mild (.rxLife n _) id)
  | register =>
      rw [hl' _ rfl]
      exact .register
  | registerThrows =>
      rw [hl' _ rfl]
      exact .registerThrows
  | _ => exact .still (.refl n)

theorem DataMove.table {client : Bytes} {d : DataMessage} {pc : DataPc} {out : DataOut}
    (m : DataMove cfg client d n pc a out n') : Still n n' := by
  have h : Grows cfg .msg { pc := .dataing ⟨client, [], 0⟩ d pc } n n' := DataMove.log m
  exact .mild m.mild fun hr => (h.mem hr).resolve_right nofun

theorem RxMove.table {r : Ref} {pc : RxPc} {k : Thread RxPc} (m : RxMove r n pc a k n') :
    Still n n' := by
  have h : Grows {} (.rx r) { pc } n n' := m.log
  exact .mild m.mild fun hr => (h.mem hr).resolve_right nofun

theorem IdleMove.table {pc : IdlePc} {k : Thread IdlePc} (m : IdleMove cfg n pc a k n') :
    Still n n' := by
  have h : Grows cfg .idle { pc } n n' := m.log
  exact .mild m.mild fun hr => (h.mem hr).resolve_right nofun

theorem MsgMove.table {pc : MsgPc} {l' : Thread MsgPc} (m : MsgMove cfg n pc a l' n') :
    TableMove n .msg { pc } a l' n' := by
  cases m with
  | dispatchOpen | dispatchData | dispatchClose | dispatchError | closeReply =>
      exact .still (.emit n nofun)
  | opening move =>
      refine move.table fun pc' h => ?_
      cases h
      rfl
  | opened move | openEscaped move => exact move.table nofun
  | dataing move | dataCloses move | dataDone move => exact .still move.table
  | deliver | leave | closeReplyThrows => exact .still (.refl n)

theorem MainMove.table {l l' : MainPc} (m : MainMove n l a l' n') :
    TableMove n .main l a l' n' := by
  cases m with
  | stop | transportStop => exact .still ⟨rfl, rfl, fun _ => rfl, id⟩
  | snapshot all => exact .snapshot all
  | tear move | finish move => exact .still move.table
  | joinIdle | leave => exact .still (.refl n)

/-- A thread with calls of `closeStream`, whose own code leaves the table alone. -/
theorem ThreadMove.table {Pc : Type} {resume : Bool → Pc → Pc}
    {Base : Node → Pc → Act → Thread Pc → Node → Prop} {k k' : Thread Pc}
    (hl : activeCall t l = k.call) (hl' : activeCall t l' = k'.call)
    (base : Base n k.pc a k' n' → TableMove n t l a l' n')
    (m : ThreadMove t resume Base n k a k' n') : TableMove n t l a l' n' := by
  cases m with
  | base move => exact base move
  | call move =>
      refine move.table hl fun pc' h => ?_
      cases h
      exact hl'
  | ret move => exact move.table hl nofun

/-- **Every step treats the table in one of the six ways.** -/
theorem Move.table (m : Move cfg t n l a l' n') : TableMove n t l a l' n' := by
  cases t with
  | msg =>
      cases m with
      | base move => exact move.table
      | call move =>
          refine move.table rfl fun pc' h => ?_
          cases h
          rfl
      | ret move => exact move.table rfl nofun
  | idle => exact ThreadMove.table rfl rfl (fun move => .still move.table) m
  | main => exact MainMove.table m
  | rx r => exact ThreadMove.table rfl rfl (fun move => .still move.table) m
  | clock =>
      obtain ⟨ms, rfl⟩ := m
      exact .still ⟨rfl, rfl, fun _ => rfl, id⟩

/-- **An entry stays, or its stream is taken, or it is dropped.** -/
theorem TableMove.entry {key : Bytes} {r : Ref} (m : TableMove n t l a l' n')
    (hin : n.streams.lookup key = some r) :
    n'.streams.lookup key = some r ∨ n'.teardowns r ≠ [] ∨ Drops n r t l a := by
  cases m with
  | still still =>
      rw [still.streams]
      exact .inl hin
  | @register ctx q =>
      by_cases h : key = keyFor ctx.clientId q.streamId
      · subst h
        exact .inr (.inr (.replaced hin))
      · exact .inl ((AList.lookup_insert_ne h).trans hin)
  | @registerThrows ctx q =>
      by_cases h : key = keyFor ctx.clientId q.streamId
      · subst h
        exact .inr (.inr (.replacedThrows hin))
      · exact .inl ((AList.lookup_insert_ne h).trans hin)
  | @take _ _ _ _ c r' _ found =>
      obtain ⟨counts, htake⟩ := Node.take_eq n t c r'
      rw [htake]
      by_cases h : key = keyFor c.clientId c.streamId
      · subst h
        cases Option.some.inj (hin.symm.trans found)
        exact .inr (.inl (by simp))
      · exact .inl ((AList.lookup_erase_ne h).trans hin)
  | @lose _ _ _ _ c r' calls found =>
      by_cases h : key = keyFor c.clientId c.streamId
      · subst h
        exact .inr (.inr (.lost calls hin))
      · exact .inl ((AList.lookup_erase_ne h).trans hin)
  | snapshot all =>
      have hmem := all.mem_iff.mpr (Node.mem_refs.mpr ⟨_, hin⟩)
      exact .inr (.inl (by simp [Node.takeAll, hmem]))

end Table

end TonTunnel.Egress
