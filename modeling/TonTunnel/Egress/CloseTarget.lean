import TonTunnel.Egress.JoinSafety

/-!
Which stream a call of `closeStream` tears down.

Every caller but `handleClose` has a particular stream in mind, but `closeStream`
is only told the client and the stream id, and it looks the stream up again under
the lock. Between the decision and the lookup the id may have been given to a new
stream. A thread *intends* to close a stream from the moment it may still decide
so (`Intends`); `close_hits_own_stream` shows that a call takes the stream it was
made for in every run in which no OPEN is registered under the name of a stream
that some thread intends to close, and `late_close_hits_successor` runs an OPEN
that is.
-/

namespace TonTunnel.Egress

open Interleaving (Reach)

/-! ### Intentions -/

/-- Whether the rx thread of a stream may still call `closeStream`: it has not met
the `closed` flag, and has not been in the call. -/
def rxMayClose (l : Thread RxPc) (running closed : Bool) : Bool :=
  match l with
  | ⟨_, some ⟨_, .enter⟩⟩ => true
  | ⟨.loop, none⟩ => running && !closed
  | ⟨.loadFd, none⟩ | ⟨.recv _, none⟩ | ⟨.touch _, none⟩ | ⟨.push _, none⟩ => true
  | _ => false

/-- Whether a call of `closeStream` by this name is about to enter the lock. -/
def callsName (call : Option Closing) (client : Bytes) (streamId : UInt32) : Bool :=
  match call with
  | some ⟨c, .enter⟩ => c.clientId == client && c.streamId == streamId
  | _ => false

/-- Whether the idle monitor has a stream of this name in `stale`, or is about to
close one. -/
def idleMayClose (l : Thread IdlePc) (client : Bytes) (streamId : UInt32) : Bool :=
  callsName l.call client streamId ||
    match l.pc with
    | .closing stale => stale.any fun e => e.clientId == client && e.streamId == streamId
    | _ => false

/-- The points of `handleData` from which it may call `closeStream` for the stream. -/
def DataPc.MayClose : DataPc → Ref → Prop
  | .test r, r' | .load r, r' | .send r _, r' => r' = r
  | _, _ => False

/-- The points of `handleOpen` from which it may start the rx thread of the stream. -/
def OpenPc.MayStart : OpenPc → Ref → Prop
  | .ack r, r' | .startThread r, r' => r' = r
  | _, _ => False

/-- Thread `t` may call `closeStream` by this name on behalf of the stream `v`, or
start the rx thread that may. -/
inductive Intends (n : Node) : (t : ThreadId) → Loc t → Bytes → UInt32 → Ref → Prop
  | calls {t : ThreadId} {l : Loc t} {c : CloseCall} {v : Ref}
      (call : activeCall t l = some ⟨c, .enter⟩) (behalf : c.behalf = some v) :
      Intends n t l c.clientId c.streamId v
  | opens {ctx : MsgCtx} {q : OpenMessage} {pc : OpenPc} {v : Ref} (may : pc.MayStart v) :
      Intends n .msg { pc := .opening ctx q pc } ctx.clientId q.streamId v
  | writes {ctx : MsgCtx} {d : DataMessage} {pc : DataPc} {v : Ref} (may : pc.MayClose v) :
      Intends n .msg { pc := .dataing ctx d pc } ctx.clientId d.streamId v
  | stale {rest : List Stale} {call : Option Closing} {e : Stale} (mem : e ∈ rest) :
      Intends n .idle { pc := .closing rest, call } e.clientId e.streamId e.found
  | receives {l : Thread RxPc} {v : Ref}
      (may : rxMayClose l (n.rxLife v == .running) (n.heap v).closed = true) :
      Intends n (.rx v) l (n.heap v).clientId (n.heap v).streamId v

/-- The stream of this name, or none: what may be found when `v` is looked up again. -/
def Settled (n : Node) (client : Bytes) (streamId : UInt32) (v : Ref) : Prop :=
  Named n client streamId v ∧ ∀ r, n.streams.lookup (keyFor client streamId) = some r → r = v

/-- An OPEN is registered only when no thread intends to close an earlier stream of
the same client and stream id. -/
def reusesSettled (s : System) : ThreadId → Act → Bool
  | .msg, a =>
      match (s.loc .msg).pc, a with
      | .opening _ _ (.register _), .throw _ => true
      | .opening ctx q (.register _), _ =>
          !idleMayClose (s.loc .idle) ctx.clientId q.streamId &&
            (List.range s.shared.nextRef).all fun v =>
              !((s.shared.heap v).clientId == ctx.clientId &&
                (s.shared.heap v).streamId == q.streamId &&
                rxMayClose (s.loc (.rx v)) (s.shared.rxLife v == .running)
                  (s.shared.heap v).closed)
      | _, _ => true
  | _, _ => true

/-- The rx thread of a stream closes on behalf of this stream only. -/
def OwnCall : (t : ThreadId) → Loc t → Prop
  | .rx r, l => ∀ c pc, l.call = some ⟨c, pc⟩ → c.behalf = some r
  | _, _ => True

/-- What is kept for a thread: what it intends to close is settled, and what it is
tearing down is the stream its call was made for. -/
structure Aims (t : ThreadId) (l : Loc t) (n : Node) : Prop where
  settled {client : Bytes} {streamId : UInt32} {v : Ref} :
    Intends n t l client streamId v → Settled n client streamId v
  tears {c : CloseCall} {r v : Ref} {p : TearPc} :
    activeCall t l = some ⟨c, .tear r p⟩ → c.behalf = some v → r = v
  own : OwnCall t l

/-- Every call took the stream it was made for, and only streams that exist have an
rx thread. -/
structure Hits (n : Node) : Prop where
  own {t : ThreadId} {c : CloseCall} {r v : Ref} :
    Event.taken t (some c) r ∈ n.log → c.behalf = some v → r = v
  bound {v : Ref} : n.rxLife v = .running → v < n.nextRef

/-! ### How a step treats rx threads -/

section Steps

variable {cfg : Config} {t : ThreadId} {l l' : Loc t} {n n' : Node} {a : Act} {r v : Ref}
  {client : Bytes} {streamId : UInt32}

/-- The `closed` flag of a stream is never taken back. -/
theorem Effect.was_unclosed (e : Effect t n n') (hr : r < n.nextRef)
    (h : (n'.heap r).closed = false) : (n.heap r).closed = false := by
  have set {r' : Ref} {f : Stream → Stream} (hf : ∀ s, (f s).closed = false → s.closed = false)
      (h : ((n.setStream r' f).heap r).closed = false) : (n.heap r).closed = false := by
    by_cases hr : r = r'
    · subst hr
      exact hf _ (by simpa [Node.setStream] using h)
    · simpa [Node.setStream, hr] using h
  cases e with
  | quiet q | openSocket _ _ _ q | put _ _ _ _ q | take _ q | lose q | takeAll _ _ q =>
      rw [q.closed] at h
      exact h
  | dropSocket _ opened _ q =>
      rw [q.closed, Node.closeFd_of_open opened] at h
      exact h
  | makeStream _ _ _ _ q =>
      rw [q.closed] at h
      simpa [Node.makeStream, Nat.ne_of_lt hr] using h
  | flag _ q =>
      rw [q.closed] at h
      refine set (fun s hs => ?_) h
      cases hs
  | closeFd _ _ attached q =>
      rw [q.closed, Node.closeFd_of_open attached.2] at h
      exact h
  | clearFd _ _ q =>
      rw [q.closed] at h
      refine set (fun s hs => ?_) h
      exact hs

/-- `handleOpen` starts the rx thread of `r`. -/
inductive Starts (r : Ref) : (t : ThreadId) → Loc t → Prop
  | mk {ctx q} : Starts r .msg { pc := .opening ctx q (.startThread r) }

theorem rxLife_closeFd (n : Node) (fd : Int) : (n.closeFd fd).rxLife = n.rxLife := by
  obtain ⟨fds, closes, h⟩ := n.closeFd_eq fd
  rw [h]

theorem rxLife_noteSelect (n : Node) (ip : Bytes) (fd : Int) (ret : ConnectRet) :
    (noteSelect n ip fd ret).rxLife = n.rxLife := by
  rcases noteSelect_eq n ip fd ret with same | waits
  · rw [same]
  · rw [waits]
    rfl

theorem OpenMove.was_running {ctx : MsgCtx} {q : OpenMessage} {pc : OpenPc} {out : OpenOut}
    (m : OpenMove cfg ctx.clientId q n pc a out n') (h : n'.rxLife r = .running) :
    n.rxLife r = .running ∨ Starts r .msg { pc := .opening ctx q pc } := by
  cases m with
  | @startThread r' =>
      by_cases hr : r = r'
      · subst hr
        exact .inr .mk
      · exact .inl (by simpa [hr] using h)
  | connected => exact .inl (rxLife_noteSelect n _ _ _ ▸ h)
  | disconnected =>
      rw [rxLife_closeFd, rxLife_noteSelect] at h
      exact .inl h
  | _ => exact .inl h

/-- **An rx thread is started by `handleOpen` only.** -/
theorem Move.was_running (m : Move cfg t n l a l' n') (h : n'.rxLife r = .running) :
    n.rxLife r = .running ∨ Starts r t l := by
  cases t with
  | msg =>
      cases m with
      | base move =>
          cases move with
          | opening move | opened move | openEscaped move => exact move.was_running h
          | dataing move | dataCloses move | dataDone move => cases move <;> exact .inl h
          | _ => exact .inl h
      | call move | ret move => exact .inl (move.frame.2 ▸ h)
  | idle =>
      cases m with
      | base move => cases move <;> exact .inl h
      | call move | ret move => exact .inl (move.frame.2 ▸ h)
  | rx r' =>
      cases m with
      | base move =>
          cases move with
          | leave =>
              by_cases hr : r = r'
              · subst hr
                simp at h
              · exact .inl (by simpa [hr] using h)
          | _ => exact .inl h
      | call move | ret move => exact .inl (move.frame.2 ▸ h)
  | main =>
      cases m with
      | tear move | finish move => exact .inl (move.frame.2 ▸ h)
      | _ => exact .inl h
  | clock =>
      obtain ⟨ms, rfl⟩ := m
      exact .inl h

/-! ### How a step treats intentions -/

/-- `handleOpen` registers a stream of this name. -/
inductive Reuses : (t : ThreadId) → Loc t → Act → Bytes → UInt32 → Prop
  | registers {ctx : MsgCtx} {q : OpenMessage} {r : Ref} :
      Reuses .msg { pc := .opening ctx q (.register r) } .go ctx.clientId q.streamId
  | registerThrows {ctx : MsgCtx} {q : OpenMessage} {r : Ref} {what : Option Bytes} :
      Reuses .msg { pc := .opening ctx q (.register r) } (.throwMid what) ctx.clientId q.streamId

/-- A settled stream stays settled unless its name is used again. -/
theorem Settled.step (e : Effect t n n') (m : TableMove n t l a l' n')
    (unused : ¬ Reuses t l a client streamId) (h : Settled n client streamId v) :
    Settled n' client streamId v := by
  obtain ⟨named, found⟩ := h
  refine ⟨named.effect e, fun r hr => found r ?_⟩
  cases m with
  | still still =>
      rw [still.streams] at hr
      exact hr
  | @register ctx q r' =>
      rcases lookup_insert_some hr with ⟨hkey, rfl⟩ | hold
      · obtain ⟨rfl, rfl⟩ := keyFor_inj hkey
        exact absurd .registers unused
      · exact hold
  | @registerThrows ctx q r' what =>
      rcases lookup_insert_some hr with ⟨hkey, rfl⟩ | hold
      · obtain ⟨rfl, rfl⟩ := keyFor_inj hkey
        exact absurd .registerThrows unused
      · exact hold
  | @take _ _ _ _ c r' =>
      obtain ⟨counts, htake⟩ := Node.take_eq n t c r'
      rw [htake] at hr
      exact (lookup_erase_some hr).2
  | lose => exact (lookup_erase_some hr).2
  | snapshot => cases hr

/-- A stream that was just looked up is settled. -/
theorem Settled.found (hn : Sound n)
    (h : n.streams.lookup (keyFor client streamId) = some v) : Settled n client streamId v := by
  obtain ⟨hclient, hstream⟩ := keyFor_inj (hn.key h)
  refine ⟨⟨hn.bound h, hclient.symm, hstream.symm⟩, fun r hr => ?_⟩
  exact Option.some.inj (hr.symm.trans h)

theorem OpenMove.mayStart {q : OpenMessage} {pc pc' : OpenPc}
    (m : OpenMove cfg client q n pc a (.more pc') n') (h : pc'.MayStart v) :
    pc.MayStart v ∨ pc = .register v ∧ n' = n.register client (keyFor client q.streamId) v := by
  cases m with
  | register =>
      cases h
      exact .inr ⟨rfl, rfl⟩
  | ack =>
      cases h
      exact .inl rfl
  | _ => exact h.elim

theorem DataMove.mayClose {d : DataMessage} {pc pc' : DataPc}
    (m : DataMove cfg client d n pc a (.more pc') n') (h : pc'.MayClose v) :
    pc.MayClose v ∨ n.streams.lookup (keyFor client d.streamId) = some v ∧ n' = n := by
  cases m with
  | found found =>
      cases h
      exact .inr ⟨found, rfl⟩
  | streamOpen | load =>
      cases h
      exact .inl rfl
  | _ => exact h.elim

/-- What thread `t` intends after its step it intended before, or has just looked up
or registered. -/
inductive Aimed (n n' : Node) (t : ThreadId) (l : Loc t) (client : Bytes) (streamId : UInt32)
    (v : Ref) : Prop
  | before (h : Intends n t l client streamId v)
  | found (h : n.streams.lookup (keyFor client streamId) = some v) (streams : n'.streams = n.streams)
  | registered (h : n'.streams.lookup (keyFor client streamId) = some v)

theorem CloseMove.not_enter {c : CloseCall} {pc pc' : ClosePc}
    (m : CloseMove t c n pc a (.more pc') n') : pc' ≠ .enter := by
  cases m <;> nofun

theorem MsgMove.aimed {pc : MsgPc} {k : Thread MsgPc} (m : MsgMove cfg n pc a k n')
    (h : Intends n' .msg k client streamId v) :
    Aimed n n' .msg { pc } client streamId v := by
  cases m with
  | deliver | leave | dispatchError | opened | openEscaped | dataDone | closeReply |
      closeReplyThrows =>
      cases h with
      | calls call => cases call
  | dispatchOpen =>
      cases h with
      | calls call => cases call
      | opens may => exact may.elim
  | dispatchData =>
      cases h with
      | calls call => cases call
      | writes may => exact may.elim
  | dispatchClose =>
      cases h with
      | calls call behalf =>
          cases call
          cases behalf
  | opening move =>
      cases h with
      | calls call => cases call
      | opens may =>
          rcases move.mayStart may with before | ⟨rfl, rfl⟩
          · exact .before (.opens before)
          · exact .registered (AList.lookup_insert _)
  | dataing move =>
      cases h with
      | calls call => cases call
      | writes may =>
          rcases move.mayClose may with before | ⟨found, rfl⟩
          · exact .before (.writes before)
          · exact .found found rfl
  | dataCloses move =>
      cases h with
      | calls call behalf =>
          cases call
          cases move with
          | badFd | sendFails =>
              cases behalf
              exact .before (.writes rfl)

theorem IdleMove.aimed {pc : IdlePc} {k : Thread IdlePc} (hn : Sound n)
    (m : IdleMove cfg n pc a k n') (h : Intends n' .idle k client streamId v) :
    Aimed n n' .idle { pc } client streamId v := by
  cases m with
  | sleep | exit | wake | done =>
      cases h with
      | calls call => cases call
  | scan all =>
      cases h with
      | calls call => cases call
      | stale mem =>
          obtain ⟨r, hr, rfl⟩ := List.mem_map.mp mem
          obtain ⟨key, found⟩ := Node.mem_refs.mp (all.mem_iff.mp (List.mem_filter.mp hr).1)
          rw [hn.key found] at found
          exact .found found rfl
  | next =>
      cases h with
      | calls call behalf =>
          cases call
          cases behalf
          exact .before (.stale List.mem_cons_self)
      | stale mem => exact .before (.stale (List.mem_cons_of_mem _ mem))

theorem RxMove.aimed {pc : RxPc} {k : Thread RxPc} (m : RxMove r n pc a k n')
    (h : Intends n' (.rx r) k client streamId v) :
    Aimed n n' (.rx r) { pc } client streamId v := by
  have mild := m.mild
  have may : rxMayClose { pc } (n.rxLife r == .running) (n.heap r).closed = true := by
    cases m with
    | enter running open_ => simp [rxMayClose, running, open_]
    | closed | leave =>
        cases h with
        | calls call => cases call
        | receives may => cases may
    | _ => rfl
  have names : Intends n (.rx r) { pc } (n.heap r).clientId (n.heap r).streamId r := .receives may
  cases h with
  | receives =>
      rw [mild.clientId, mild.streamId]
      exact .before names
  | calls call behalf =>
      cases m with
      | ended | pushFails | pushThrows =>
          cases call
          cases behalf
          exact .before names
      | _ => cases call

/-- **Where intentions come from.** -/
theorem Move.aimed (hn : Sound n) (hl : PosOk t l n) (m : Move cfg t n l a l' n')
    (h : Intends n' t l' client streamId v) : Aimed n n' t l client streamId v := by
  cases t with
  | msg =>
      cases m with
      | base move => exact move.aimed h
      | call move =>
          cases h with
          | calls call =>
              cases call
              exact absurd rfl move.not_enter
      | @ret pc c cpc _ had =>
          obtain ⟨ctx, hpc | ⟨id, hpc⟩⟩ := MsgPc.resume_cases had (hl.2 rfl)
          all_goals
            rw [hpc] at h
            cases h with
            | calls call => cases call
  | idle =>
      cases m with
      | base move => exact move.aimed hn h
      | call move =>
          cases h with
          | calls call =>
              cases call
              exact absurd rfl move.not_enter
          | stale mem => exact .before (.stale mem)
      | ret move =>
          cases h with
          | calls call => cases call
          | stale mem => exact .before (.stale mem)
  | rx r =>
      cases m with
      | base move => exact move.aimed h
      | call move =>
          cases h with
          | calls call =>
              cases call
              exact absurd rfl move.not_enter
          | receives may =>
              cases move <;> cases may
      | ret move =>
          cases h with
          | calls call => cases call
          | receives may => cases may
  | main =>
      cases h with
      | calls call => cases call
  | clock =>
      cases h with
      | calls call => cases call

/-- A thread that is tearing a stream down has just taken it or was at it before. -/
theorem Move.call_tears {c : CloseCall} {p : TearPc} (m : Move cfg t n l a l' n')
    (h : activeCall t l' = some ⟨c, .tear r p⟩) :
    (∃ p', activeCall t l = some ⟨c, .tear r p'⟩) ∨ activeCall t l = some ⟨c, .enter⟩ ∧
      n.streams.lookup (keyFor c.clientId c.streamId) = some r := by
  have close {c' : CloseCall} {pc pc' : ClosePc} (m : CloseMove t c' n pc a (.more pc') n')
      (h : some (⟨c', pc'⟩ : Closing) = some ⟨c, .tear r p⟩) :
      (∃ p', some (⟨c', pc⟩ : Closing) = some ⟨c, .tear r p'⟩) ∨
        some (⟨c', pc⟩ : Closing) = some ⟨c, .enter⟩ ∧
          n.streams.lookup (keyFor c.clientId c.streamId) = some r := by
    cases h
    cases m with
    | take found => exact .inr ⟨rfl, found⟩
    | tear => exact .inl ⟨_, rfl⟩
  cases t with
  | msg =>
      cases m with
      | base move => cases move <;> cases h
      | call move => exact close move h
      | ret => cases h
  | idle =>
      cases m with
      | base move => cases move <;> cases h
      | call move => exact close move h
      | ret => cases h
  | rx =>
      cases m with
      | base move => cases move <;> cases h
      | call move => exact close move h
      | ret => cases h
  | main | clock => cases h

theorem Emits.of_taken {t' : ThreadId} {c : CloseCall} (h : Emits cfg n t l (.taken t' (some c) r)) :
    activeCall t l = some ⟨c, .enter⟩ ∧
      n.streams.lookup (keyFor c.clientId c.streamId) = some r := by
  cases h with
  | takes calls found => exact ⟨calls, found⟩

/-- A thread's step keeps `OwnCall`. -/
theorem Move.ownCall (m : Move cfg t n l a l' n') (h : OwnCall t l) : OwnCall t l' := by
  cases t with
  | rx r =>
      intro c pc hc
      cases m with
      | base move =>
          cases move with
          | ended | pushFails | pushThrows =>
              cases hc
              rfl
          | _ => cases hc
      | call =>
          cases hc
          exact h _ _ rfl
      | ret => cases hc
  | _ => exact trivial

end Steps

/-! ### The guarded steps keep the invariant -/

section Guarded

variable {cfg : Config} {s : System} {t : ThreadId} {a : Act} {l' : Loc t} {n' : Node}
  {client : Bytes} {streamId : UInt32} {v : Ref}

theorem not_intends_register {n : Node} {ctx : MsgCtx} {q : OpenMessage} {r : Ref} :
    ¬ Intends n .msg { pc := .opening ctx q (.register r) } client streamId v := by
  intro h
  cases h with
  | calls call => cases call
  | opens may => exact may

/-- What the guard says at a registration. -/
theorem reusesSettled_spec (hok : reusesSettled s t a = true)
    (reuses : Reuses t (s.loc t) a client streamId) :
    idleMayClose (s.loc .idle) client streamId = false ∧
      ∀ v, Named s.shared client streamId v →
        rxMayClose (s.loc (.rx v)) (s.shared.rxLife v == .running)
          (s.shared.heap v).closed = false := by
  generalize hl : s.loc t = l at reuses
  have guard : (!idleMayClose (s.loc .idle) client streamId) = true ∧
      ((List.range s.shared.nextRef).all fun v =>
        !((s.shared.heap v).clientId == client && (s.shared.heap v).streamId == streamId &&
          rxMayClose (s.loc (.rx v)) (s.shared.rxLife v == .running)
            (s.shared.heap v).closed)) = true := by
    cases reuses <;> simpa only [reusesSettled, hl, Bool.and_eq_true] using hok
  refine ⟨by simpa using guard.1, fun v named => ?_⟩
  have hv := List.all_eq_true.mp guard.2 v (List.mem_range.mpr named.1)
  simpa [named.2.1, named.2.2] using hv

theorem Intends.idleMayClose {n : Node} {k : Thread IdlePc}
    (h : Intends n .idle k client streamId v) : idleMayClose k client streamId = true := by
  cases h with
  | @calls _ _ c _ call =>
      have hcall : k.call = some ⟨c, .enter⟩ := call
      simp [Egress.idleMayClose, callsName, hcall]
  | @stale rest call e mem =>
      simp only [Egress.idleMayClose, Bool.or_eq_true]
      exact .inr (List.any_eq_true.mpr ⟨e, mem, by simp⟩)

theorem Intends.rxMayClose {n : Node} {r : Ref} {k : Thread RxPc} (own : OwnCall (.rx r) k)
    (h : Intends n (.rx r) k client streamId v) :
    v = r ∧ rxMayClose k (n.rxLife r == .running) (n.heap r).closed = true := by
  cases h with
  | @calls _ _ c _ call behalf =>
      have hcall : k.call = some ⟨c, .enter⟩ := call
      constructor
      · exact Option.some.inj (behalf.symm.trans (own c _ hcall))
      · obtain ⟨pc, _⟩ := k
        cases hcall
        cases pc <;> rfl
  | receives may => exact ⟨rfl, may⟩

/-- At a guarded registration nobody intends to close a stream of its name. -/
theorem not_reuses_of_intends {t' : ThreadId} (aims : Aims t' (s.loc t') s.shared)
    (hok : reusesSettled s t a = true) (h : Intends s.shared t' (s.loc t') client streamId v) :
    ¬ Reuses t (s.loc t) a client streamId := by
  intro reuses
  obtain ⟨idle, rx⟩ := reusesSettled_spec hok reuses
  cases t' with
  | msg =>
      generalize hl : s.loc t = l at reuses
      cases reuses with
      | registers | registerThrows =>
          rw [hl] at h
          exact not_intends_register h
  | idle =>
      rw [h.idleMayClose] at idle
      cases idle
  | rx r =>
      have named := (aims.settled h).1
      obtain ⟨rfl, may⟩ := h.rxMayClose aims.own
      rw [rx v named] at may
      cases may
  | main | clock =>
      cases h with
      | calls call => cases call

/-- **A thread keeps its aim.** -/
theorem Aims.kept (hs : Owned s) (aims : Aims t (s.loc t) s.shared)
    (hok : reusesSettled s t a = true)
    (hstep : step cfg t (s.loc t) s.shared a = some (l', n')) : Aims t l' n' := by
  have m := step_move hstep
  have e := (m.own hs.shared (hs.loc t)).1
  constructor
  · intro client streamId v h
    have keeps (unused : ¬ Reuses t (s.loc t) a client streamId)
        (settled : Settled s.shared client streamId v) : Settled n' client streamId v :=
      settled.step e m.table unused
    cases m.aimed hs.shared (hs.loc t).pos h with
    | before before => exact keeps (not_reuses_of_intends aims hok before) (aims.settled before)
    | found found streams =>
        obtain ⟨named, only⟩ := Settled.found hs.shared found
        refine ⟨named.effect e, fun r hr => only r ?_⟩
        rwa [streams] at hr
    | registered found => exact .found (hs.shared.effect e) found
  · intro c r v p h behalf
    rcases m.call_tears h with ⟨p', before⟩ | ⟨enters, found⟩
    · exact aims.tears before behalf
    · exact (aims.settled (.calls enters behalf)).2 r found
  · exact m.ownCall aims.own

/-- Only between two rounds of its loop does it matter to the rx thread whether it
runs and is closed. -/
theorem rxMayClose_cases {k : Thread RxPc} {running closed : Bool}
    (h : rxMayClose k running closed = true) :
    (running = true ∧ closed = false) ∨
      ∀ running' closed', rxMayClose k running' closed' = true := by
  obtain ⟨pc, call⟩ := k
  cases call with
  | none =>
      cases pc with
      | loop => exact .inl (by simpa [rxMayClose] using h)
      | leaving | exited => cases h
      | _ => exact .inr fun _ _ => rfl
  | some call =>
      obtain ⟨c, cpc⟩ := call
      cases cpc with
      | enter => exact .inr fun _ _ => by cases pc <;> rfl
      | tear => cases pc <;> cases h

/-- An rx thread that may close after a step of another thread could do so before,
or has just been started. -/
theorem Move.mayClose_before {k : Thread RxPc} (hs : Owned s) (hits : Hits s.shared)
    (m : Move cfg t s.shared (s.loc t) a l' n')
    (may : rxMayClose k (n'.rxLife v == .running) (n'.heap v).closed = true) :
    rxMayClose k (s.shared.rxLife v == .running) (s.shared.heap v).closed = true ∨
      Starts v t (s.loc t) := by
  have e := (m.own hs.shared (hs.loc t)).1
  rcases rxMayClose_cases may with ⟨running, unclosed⟩ | always
  · rcases m.was_running (eq_of_beq running) with before | starts
    · have open_ := e.was_unclosed (hits.bound before) unclosed
      rw [running, unclosed] at may
      exact .inl (by rw [before, open_]; exact may)
    · exact .inr starts
  · exact .inl (always _ _)

/-- **A thread leaves the others their aims.** -/
theorem Aims.other {t' : ThreadId} (hs : Owned s) (hits : Hits s.shared)
    (aims : Aims t (s.loc t) s.shared) (aims' : Aims t' (s.loc t') s.shared)
    (hok : reusesSettled s t a = true)
    (hstep : step cfg t (s.loc t) s.shared a = some (l', n')) : Aims t' (s.loc t') n' := by
  have m := step_move hstep
  have e := (m.own hs.shared (hs.loc t)).1
  refine ⟨fun {client streamId v} h => ?_, aims'.tears, aims'.own⟩
  have keeps {t₁ : ThreadId} {client : Bytes} {streamId : UInt32}
      (aims₁ : Aims t₁ (s.loc t₁) s.shared)
      (h : Intends s.shared t₁ (s.loc t₁) client streamId v) : Settled n' client streamId v :=
    (aims₁.settled h).step e m.table (not_reuses_of_intends aims₁ hok h)
  generalize hk : s.loc t' = k at h
  cases h with
  | calls call behalf =>
      subst hk
      exact keeps aims' (.calls call behalf)
  | opens may =>
      refine keeps aims' ?_
      rw [hk]
      exact .opens may
  | writes may =>
      refine keeps aims' ?_
      rw [hk]
      exact .writes may
  | stale mem =>
      refine keeps aims' ?_
      rw [hk]
      exact .stale mem
  | receives may =>
      rcases m.mayClose_before hs hits may with before | starts
      · have h : Intends s.shared (.rx v) (s.loc (.rx v)) (s.shared.heap v).clientId
            (s.shared.heap v).streamId v := .receives (hk ▸ before)
        obtain ⟨_, hclient, hstream, _⟩ := e.ident (aims'.settled h).1.1
        rw [hclient, hstream]
        exact keeps aims' h
      · generalize hl : s.loc t = l at starts
        cases starts with
        | @mk ctx q =>
            have h : Intends s.shared .msg (s.loc .msg) ctx.clientId q.streamId v := by
              rw [hl]
              exact .opens rfl
            have settled := keeps aims h
            rw [settled.1.2.1, settled.1.2.2]
            exact settled

/-- **One guarded step takes the stream its call was made for**, and starts rx threads
of existing streams. -/
theorem Hits.step (hs : Owned s) (hits : Hits s.shared) (aims : Aims t (s.loc t) s.shared)
    (hstep : step cfg t (s.loc t) s.shared a = some (l', n')) : Hits n' := by
  have m := step_move hstep
  have e := (m.own hs.shared (hs.loc t)).1
  constructor
  · intro t' c r v h behalf
    rcases m.log.mem h with old | new
    · exact hits.own old behalf
    · obtain ⟨calls, found⟩ := new.of_taken
      exact (aims.settled (.calls calls behalf)).2 r found
  · intro v h
    rcases m.was_running h with before | starts
    · exact (e.ident (hits.bound before)).1
    · generalize hl : s.loc t = l at starts
      cases starts with
      | @mk ctx q =>
          have h : Intends s.shared .msg (s.loc .msg) ctx.clientId q.streamId v := by
            rw [hl]
            exact .opens rfl
          exact (e.ident (aims.settled h).1.1).1

end Guarded

theorem aims_init (t : ThreadId) : Aims t (init.loc t) init.shared := by
  have idle : activeCall t (init.loc t) = none := by cases t <;> rfl
  refine ⟨fun h => ?_, fun h => ?_, ?_⟩
  · cases t with
    | rx r =>
        cases h with
        | calls call => cases call
        | receives may => cases may
    | _ =>
        cases h with
        | calls call => cases call
  · rw [idle] at h
    cases h
  · cases t with
    | rx r => exact nofun
    | _ => exact trivial

/-- Every guarded run keeps every thread's aim. -/
theorem aims_of_reaches {cfg : Config} {s : System}
    (h : ReachesBy cfg (fun s t a => reusesSettled s t a = true) s) :
    Interleaving.Holds Hits Aims s := by
  have start : Hits init.shared := ⟨fun h => (by cases h), fun h => (by cases h)⟩
  refine h.threadModular ⟨start, aims_init⟩
    (fun s t a l n hr hi hok hstep => ?_) (fun s t a l n hr hi hok hstep t' _ => ?_)
  · have hs := Reaches.owned hr.any
    exact ⟨hi.shared.step hs (hi.loc t) hstep, (hi.loc t).kept hs hok hstep⟩
  · exact Aims.other (Reaches.owned hr.any) hi.shared (hi.loc t) (hi.loc t') hok hstep

/-- **A teardown hits its own stream.** In every run in which no OPEN is registered
while a thread may still close an earlier stream of the same client and stream
id, whatever `closeStream` takes out of `streams_`, and whatever it then shuts
down, closes and sends CLOSE for, is the stream it was called for. So is the entry
that a call is about to erase, also if it then cannot store the time. -/
theorem close_hits_own_stream {cfg : Config} {s : System}
    (h : ReachesBy cfg (fun s t a => reusesSettled s t a = true) s) :
    (∀ t c r v, Event.taken t (some c) r ∈ s.shared.log → c.behalf = some v → r = v) ∧
      (∀ t c r p v, activeCall t (s.loc t) = some ⟨c, .tear r p⟩ → c.behalf = some v → r = v) ∧
      ∀ t c r v, activeCall t (s.loc t) = some ⟨c, .enter⟩ → c.behalf = some v →
        s.shared.streams.lookup (keyFor c.clientId c.streamId) = some r → r = v := by
  have hs := aims_of_reaches h
  refine ⟨fun _ _ _ _ => hs.shared.own, fun t _ _ _ _ => (hs.loc t).tears, ?_⟩
  intro t c r v calls behalf found
  exact ((hs.loc t).settled (.calls calls behalf)).2 r found

/-! ### A late end of stream -/

/-- The stream meets the end of its socket and is torn down. Its id is opened again, and the
second stream meets the end of its own. -/
def reopenEof : List (ThreadId × Act) :=
  List.flatten [singleOpen,
    rxSchedule 0 [.go, .go, .recvRet none, .go, .go, .go, .go, .go, .go, .sent true, .go, .go, .go],
    [(.msg, .go), (.msg, .deliver (ascii "A") openStream1)], openSchedule 3,
    rxSchedule 1 [.go, .go, .recvRet none, .go]]

theorem eof_takes_own_stream :
    ∃ c r, Event.taken (.rx 1) (some c) r ∈ ((machine {}).run init reopenEof).shared.log ∧
      c.behalf = some 1 ∧ r = 1 ∧
      (((machine {}).run init reopenEof).shared.heap 1).key =
        (((machine {}).run init reopenEof).shared.heap 0).key := by
  have h : ReachesBy {} (fun s t a => reusesSettled s t a = true)
      ((machine {}).run init reopenEof) := Reach.run (by decide)
  have taken : Event.taken (.rx 1) (some ⟨ascii "A", 1, .remoteClosed, some 1⟩) 1 ∈
      ((machine {}).run init reopenEof).shared.log := by decide
  exact ⟨_, 1, taken, rfl, (close_hits_own_stream h).1 _ _ _ _ taken rfl, by decide⟩

/-- After a duplicate OPEN the first rx thread meets the end of its socket and takes
the second stream out of `streams_`. -/
def lateEof : List (ThreadId × Act) :=
  duplicateOpen ++ rxSchedule 0 [.go, .go, .recvRet none, .go]

theorem late_close_hits_successor :
    ∃ s c, Reaches {} s ∧ (s.shared.heap 1).key = (s.shared.heap 0).key ∧
      Event.taken (.rx 0) (some c) 1 ∈ s.shared.log ∧ c.behalf = some 0 ∧
      activeCall (.rx 0) (s.loc (.rx 0)) = some ⟨c, .tear 1 .flag⟩ := by
  refine ⟨(machine {}).run init lateEof, ⟨ascii "A", 1, .remoteClosed, some 0⟩, ?_, by decide,
    by decide, rfl, by decide⟩
  exact (Reach.run (by decide : (machine {}).follows (fun _ _ _ => true) init lateEof)).any

end TonTunnel.Egress
