import TonTunnel.Egress.CloseTarget
import TonTunnel.Egress.Mediation
import TonTunnel.Egress.Teardown
import TonTunnel.Tunnel.Wire

/-!
One stream at the egress node.

What the server does for a stream `(me, id)` begins with a message of the client
about it: before that there is no stream object, no frame and no thread at work
for it (`unheard_of_reach`). `Kin` and `Orderly` say which threads work for which
stream objects.
-/

namespace TonTunnel.Egress

open Interleaving (Reach anyStep)

/-! ### Threads and the streams they work for -/

/-- A step of a thread in `closeStream` is a step of `closeStream`. -/
theorem Move.closing {cfg : Config} {t : ThreadId} {l l' : Loc t} {n n' : Node} {a : Act}
    {c : CloseCall} {pc : ClosePc} (m : Move cfg t n l a l' n')
    (calls : activeCall t l = some ⟨c, pc⟩) :
    ∃ out, CloseMove t c n pc a out n' ∧ activeCall t l' = out.call c := by
  cases t with
  | msg | idle | rx =>
      cases m with
      | base => cases calls
      | call move =>
          cases calls
          exact ⟨_, move, rfl⟩
      | ret move =>
          cases calls
          exact ⟨_, move, rfl⟩
  | main | clock => cases calls

/-- The rx thread of `r` has passed the start of its loop. -/
def Awake (r : Ref) : (t : ThreadId) → Loc t → Prop
  | .rx r', l => r' = r ∧ (l.pc ≠ .loop ∨ l.call ≠ none)
  | _, _ => False

/-- The points of `handleOpen` between making the stream and starting its rx thread. -/
def OpenPc.Holds : OpenPc → Ref → Prop
  | .register r, r' | .ack r, r' | .startThread r, r' => r' = r
  | _, _ => False

/-- `handleOpen` has made the stream and has not started its rx thread. -/
def WillStart (r : Ref) : (t : ThreadId) → Loc t → Prop
  | .msg, l => ∃ ctx q pc, l.pc = .opening ctx q pc ∧ pc.Holds r
  | _, _ => False

/-- What a thread's position says about streams: what it tears down was taken by its call and has the
call's name, and an rx thread runs only after `handleOpen` has started it. -/
structure Kin (t : ThreadId) (l : Loc t) (n : Node) : Prop where
  tears {c : CloseCall} {r : Ref} {p : TearPc} :
    activeCall t l = some ⟨c, .tear r p⟩ →
      Named n c.clientId c.streamId r ∧ .taken t (some c) r ∈ n.log
  awake {r : Ref} : Awake r t l → n.rxLife r ≠ .unstarted
  starts {r : Ref} : WillStart r t l → n.rxLife r = .unstarted

/-- Only streams that exist have a started rx thread, and a stream is taken once. -/
structure Orderly (n : Node) : Prop where
  bound {r : Ref} : n.rxLife r ≠ .unstarted → r < n.nextRef
  owned {t : ThreadId} {c : Option CloseCall} {r : Ref} : .taken t c r ∈ n.log → n.teardowns r ≠ []
  once {t t' : ThreadId} {c c' : Option CloseCall} {r : Ref} :
    .taken t c r ∈ n.log → .taken t' c' r ∈ n.log → t' = t ∧ c' = c

section Steps

variable {cfg : Config} {t : ThreadId} {l l' : Loc t} {n n' : Node} {a : Act} {r : Ref}

/-- The stream that a call finds has the call's name. -/
theorem Sound.named (hn : Sound n) {client : Bytes} {streamId : UInt32}
    (found : n.streams.lookup (keyFor client streamId) = some r) : Named n client streamId r := by
  obtain ⟨client', streamId'⟩ := keyFor_inj (hn.key found)
  exact ⟨hn.bound found, client'.symm, streamId'.symm⟩

/-- Who takes a stream in this step, and that it was in the table. -/
def TakesNow (n : Node) (t : ThreadId) (l : Loc t) (r : Ref) : Option CloseCall → Prop
  | some c => activeCall t l = some ⟨c, .enter⟩ ∧ ∃ k, n.streams.lookup k = some r
  | none => t = .main ∧ ∃ k, n.streams.lookup k = some r

theorem AppendsPlain.taken {t' : ThreadId} {c : Option CloseCall} (h : AppendsPlain n n')
    (mem : .taken t' c r ∈ n'.log) : .taken t' c r ∈ n.log := by
  obtain ⟨es, log, plain⟩ := h
  rw [log] at mem
  rcases List.mem_append.mp mem with mem | mem
  · exact mem
  · cases plain _ mem

theorem TearMove.taken {call : Option CloseCall} {r' : Ref} {p : TearPc} {out : TearOut}
    {t' : ThreadId} {c : Option CloseCall} (m : TearMove t call r' n p a out n')
    (mem : .taken t' c r ∈ n'.log) : .taken t' c r ∈ n.log := by
  cases m with
  | shutdown =>
      rcases n.shutdownFd_eq (n.heap r').fd with same | ⟨k, shut⟩
      · rwa [same] at mem
      · rw [shut] at mem
        simpa [Node.emit] using mem
  | close =>
      rw [log_closeFd] at mem
      exact mem
  | notify => simpa [Node.sendToClient, Node.emit] using mem
  | _ => exact mem

theorem CloseMove.taken {c : CloseCall} {pc : ClosePc} {out : CloseOut} {t' : ThreadId}
    {c' : Option CloseCall} (m : CloseMove t c n pc a out n') (mem : .taken t' c' r ∈ n'.log) :
    .taken t' c' r ∈ n.log ∨ t' = t ∧ c' = some c ∧ pc = .enter ∧
      (∃ k, n.streams.lookup k = some r) ∧ n'.teardowns r ≠ [] := by
  cases m with
  | absent | throws | lose => exact .inl mem
  | @take r' found =>
      rw [log_take] at mem
      rcases List.mem_append.mp mem with mem | mem
      · exact .inl mem
      · cases List.mem_singleton.mp mem
        obtain ⟨counts, took⟩ := Node.take_eq n t c r
        refine .inr ⟨rfl, rfl, rfl, ⟨_, found⟩, ?_⟩
        rw [took]
        simp
  | tear move | finish move => exact .inl (move.taken mem)

/-- **A stream is taken out of the table**, by a call of `closeStream` or by `stop`. -/
theorem Move.taken {t' : ThreadId} {c : Option CloseCall} (m : Move cfg t n l a l' n')
    (mem : .taken t' c r ∈ n'.log) :
    .taken t' c r ∈ n.log ∨ t' = t ∧ TakesNow n t l r c ∧ n'.teardowns r ≠ [] := by
  have close {c' : CloseCall} {pc : ClosePc} {out : CloseOut} (move : CloseMove t c' n pc a out n')
      (calls : activeCall t l = some ⟨c', pc⟩) :
      .taken t' c r ∈ n.log ∨ t' = t ∧ TakesNow n t l r c ∧ n'.teardowns r ≠ [] := by
    rcases move.taken mem with old | ⟨rfl, rfl, rfl, found, torn⟩
    · exact .inl old
    · exact .inr ⟨rfl, ⟨calls, found⟩, torn⟩
  cases t with
  | msg =>
      cases m with
      | base move => exact .inl (move.plain.taken mem)
      | call move | ret move => exact close move rfl
  | idle =>
      cases m with
      | base move => exact .inl (move.plain.taken mem)
      | call move | ret move => exact close move rfl
  | rx r' =>
      cases m with
      | base move => exact .inl (move.plain.taken mem)
      | call move | ret move => exact close move rfl
  | main =>
      cases m with
      | @snapshot refs all =>
          rcases List.mem_append.mp mem with mem | mem
          · exact .inl mem
          · obtain ⟨r', within, same⟩ := List.mem_map.mp mem
            cases same
            refine .inr ⟨rfl, ⟨rfl, Node.mem_refs.mp (all.mem_iff.mp within)⟩, ?_⟩
            simp [Node.takeAll, within]
      | tear move | finish move => exact .inl (move.taken mem)
      | _ => exact .inl mem
  | clock =>
      obtain ⟨ms, rfl⟩ := m
      exact .inl mem

theorem OpenMove.rxLife {ctx : MsgCtx} {q : OpenMessage} {pc : OpenPc} {out : OpenOut}
    (m : OpenMove cfg ctx.clientId q n pc a out n') (r : Ref) :
    n'.rxLife r = n.rxLife r ∨
      n'.rxLife r ≠ .unstarted ∧ Starts r .msg { pc := .opening ctx q pc } := by
  cases m with
  | @startThread r' =>
      by_cases same : r = r'
      · subst same
        exact .inr ⟨by simp, .mk⟩
      · exact .inl (by simp [same])
  | connected => exact .inl (by rw [rxLife_noteSelect])
  | disconnected => exact .inl (by rw [rxLife_closeFd, rxLife_noteSelect])
  | _ => exact .inl rfl

/-- **What becomes of an rx thread in a step**: it goes on as it was, `handleOpen` starts it, or it
leaves. -/
theorem Move.rxLife (m : Move cfg t n l a l' n') (r : Ref) :
    n'.rxLife r = n.rxLife r ∨ n'.rxLife r ≠ .unstarted ∧ (Starts r t l ∨ Awake r t l) := by
  cases t with
  | msg =>
      cases m with
      | base move =>
          cases move with
          | opening move | opened move | openEscaped move =>
              rcases move.rxLife r with same | ⟨started, starts⟩
              · exact .inl same
              · exact .inr ⟨started, .inl starts⟩
          | dataing move | dataCloses move | dataDone move => cases move <;> exact .inl rfl
          | _ => exact .inl rfl
      | call move | ret move => exact .inl (by rw [move.frame.2])
  | idle =>
      cases m with
      | base move => cases move <;> exact .inl rfl
      | call move | ret move => exact .inl (by rw [move.frame.2])
  | rx r' =>
      cases m with
      | base move =>
          cases move with
          | leave =>
              by_cases same : r' = r
              · subst same
                exact .inr ⟨by simp, .inr ⟨rfl, .inl nofun⟩⟩
              · exact .inl (by simp [Ne.symm same])
          | _ => exact .inl rfl
      | call move | ret move => exact .inl (by rw [move.frame.2])
  | main =>
      cases m with
      | tear move | finish move => exact .inl (by rw [move.frame.2])
      | _ => exact .inl rfl
  | clock =>
      obtain ⟨ms, rfl⟩ := m
      exact .inl rfl

/-- A thread that has been started stays started. -/
theorem Move.still_started (m : Move cfg t n l a l' n') (h : n.rxLife r ≠ .unstarted) :
    n'.rxLife r ≠ .unstarted := by
  rcases m.rxLife r with same | ⟨started, -⟩
  · rwa [same]
  · exact started

/-- An rx thread wakes up when it is running. -/
theorem Move.awakes (m : Move cfg t n l a l' n') (h : Awake r t l') :
    Awake r t l ∨ n.rxLife r = .running := by
  cases t with
  | rx r' =>
      obtain ⟨rfl, awake⟩ := h
      cases m with
      | base move =>
          cases move with
          | closed running | enter running => exact .inr running
          | pushed | touch | load | ended | received | push | pushFails | pushThrows | leave =>
              exact .inl ⟨rfl, .inl nofun⟩
      | call move | ret move => exact .inl ⟨rfl, .inr nofun⟩
  | msg | idle | main | clock => exact h.elim

/-- `handleOpen` comes to hold a stream when it makes one. -/
theorem Move.comes_to_start (m : Move cfg t n l a l' n') (h : WillStart r t l') :
    WillStart r t l ∨ r = n.nextRef := by
  have base {ctx : MsgCtx} {q : OpenMessage} {pc pc' : OpenPc}
      (move : OpenMove cfg ctx.clientId q n pc a (.more pc') n') (holds : pc'.Holds r) :
      pc.Holds r ∨ r = n.nextRef := by
    cases move with
    | makeStream => exact .inr holds
    | register | ack => exact .inl holds
    | _ => exact holds.elim
  cases t with
  | msg =>
      obtain ⟨ctx, q, pc, at_, holds⟩ := h
      cases m with
      | base move =>
          cases move with
          | @opening _ _ pc₀ _ pc' _ move =>
              cases at_
              rcases base move holds with before | made
              · exact .inl ⟨_, _, _, rfl, before⟩
              · exact .inr made
          | dispatchOpen =>
              cases at_
              exact holds.elim
          | _ => cases at_
      | call move => exact .inl ⟨ctx, q, pc, at_, holds⟩
      | @ret pc₀ c cpc _ had _ move =>
          cases pc₀ with
          | dataing ctx d dpc =>
              cases dpc with
              | closing => cases at_
              | _ => cases at_
          | closing =>
              change (if had then _ else _) = _ at at_
              split at at_ <;> cases at_
          | opening => exact .inl ⟨ctx, q, pc, at_, holds⟩
          | _ => cases at_
  | rx | idle | main | clock => exact h.elim

/-- Only one of two threads can be at work for one rx thread. -/
theorem not_awake_of_willStart {t' : ThreadId} {k : Loc t'} (hl : Kin t l n) (hk : Kin t' k n)
    (starts : WillStart r t l) : ¬ Awake r t' k := by
  intro awake
  exact hk.awake awake (hl.starts starts)

theorem Orderly.step (hn : Sound n) (hl : LocOk t l n) (kin : Kin t l n) (ok : Orderly n)
    (m : Move cfg t n l a l' n') : Orderly n' where
  bound {r} started := by
    have e := (m.own hn hl).1
    have old (h : n.rxLife r ≠ .unstarted) : r < n'.nextRef := (e.ident (ok.bound h)).1
    rcases m.rxLife r with same | ⟨-, starts | awake⟩
    · exact old (same ▸ started)
    · cases starts with
      | mk => exact (e.ident hl.pos.1.1).1
    · exact old (kin.awake awake)
  owned {t' c r} mem := by
    rcases m.taken mem with before | ⟨-, -, torn⟩
    · exact (m.own hn hl).1.still_taken hn (ok.owned before)
    · exact torn
  once {t₁ t₂ c₁ c₂ r} mem₁ mem₂ := by
    -- a stream in the table has not been taken
    have untaken {c : Option CloseCall} (takes : TakesNow n t l r c) : n.teardowns r = [] := by
      cases c with
      | none => exact takes.2.elim fun k found => hn.untaken found
      | some c => exact takes.2.elim fun k found => hn.untaken found
    rcases m.taken mem₁ with before₁ | ⟨rfl, takes₁, -⟩
    · rcases m.taken mem₂ with before₂ | ⟨-, takes₂, -⟩
      · exact ok.once before₁ before₂
      · exact absurd (untaken takes₂) (ok.owned before₁)
    · rcases m.taken mem₂ with before₂ | ⟨rfl, takes₂, -⟩
      · exact absurd (untaken takes₁) (ok.owned before₂)
      · refine ⟨rfl, ?_⟩
        cases c₁ with
        | none =>
            cases c₂ with
            | none => rfl
            | some c =>
                obtain rfl := takes₁.1
                cases takes₂.1
        | some c =>
            cases c₂ with
            | none =>
                obtain rfl := takes₂.1
                cases takes₁.1
            | some c' =>
                cases takes₁.1.symm.trans takes₂.1
                rfl

theorem Kin.own (hn : Sound n) (hl : LocOk t l n) (ok : Orderly n) (kin : Kin t l n)
    (m : Move cfg t n l a l' n') : Kin t l' n' where
  tears {c r p} calls := by
    have e := (m.own hn hl).1
    rcases m.call_tears calls with ⟨p', before⟩ | ⟨enters, found⟩
    · obtain ⟨named, taken⟩ := kin.tears before
      exact ⟨named.effect e, m.log.old taken⟩
    · refine ⟨(hn.named found).effect e, ?_⟩
      obtain ⟨out, move, after⟩ := m.closing enters
      rw [calls] at after
      cases move with
      | take found' =>
          cases after
          rw [log_take]
          exact List.mem_append_right _ (List.mem_singleton.mpr rfl)
      | absent | throws | lose => cases after
  awake {r} awake := by
    refine m.still_started ?_
    rcases m.awakes awake with before | running
    · exact kin.awake before
    · rw [running]
      nofun
  starts {r} starts := by
    rcases m.comes_to_start starts with before | rfl
    · rcases m.rxLife r with same | ⟨-, started | awake⟩
      · rw [same]
        exact kin.starts before
      · -- the step that starts the thread leaves the position
        cases started with
        | mk =>
            cases m with
            | base move =>
                cases move with
                | opening move =>
                    obtain ⟨_, _, _, same, holds⟩ := starts
                    cases same
                    cases move with
                    | startThread => exact holds.elim
                    | throws => exact holds.elim
                | opened move | openEscaped move => cases move
      · exact absurd (kin.starts before) (kin.awake awake)
    · rcases m.rxLife n.nextRef with same | ⟨-, started | awake⟩
      · rw [same]
        exact by_contra fun h => Nat.lt_irrefl _ (ok.bound h)
      · cases started with
        | mk => exact absurd hl.pos.1.1 (Nat.lt_irrefl _)
      · exact absurd (ok.bound (kin.awake awake)) (Nat.lt_irrefl _)

theorem Kin.other {t' : ThreadId} {k : Loc t'} (hn : Sound n) (hl : LocOk t l n)
    (kin : Kin t l n) (hk : Kin t' k n) (ht : t' ≠ t) (m : Move cfg t n l a l' n') : Kin t' k n' where
  tears calls := by
    obtain ⟨named, taken⟩ := hk.tears calls
    exact ⟨named.effect (m.own hn hl).1, m.log.old taken⟩
  awake awake := m.still_started (hk.awake awake)
  starts {r} starts := by
    rcases m.rxLife r with same | ⟨-, started | awake⟩
    · rw [same]
      exact hk.starts starts
    · cases started with
      | mk =>
          cases t' with
          | msg => exact absurd rfl ht
          | rx | idle | main | clock => exact starts.elim
    · exact absurd awake (not_awake_of_willStart hk kin starts)

end Steps

theorem kin_of_reaches {cfg : Config} {s : System} (h : Reaches cfg s) :
    Interleaving.Holds Orderly Kin s := by
  refine h.threadModular ⟨⟨fun started => absurd rfl started,
      fun mem => absurd mem List.not_mem_nil, fun mem => absurd mem List.not_mem_nil⟩, fun t => ?_⟩
    (fun s t a l n reached holds _ step => ?_) (fun s t a l n reached holds _ step t' ht => ?_)
  · cases t with
    | msg => exact ⟨nofun, False.elim, fun ⟨_, _, _, at_, _⟩ => by cases at_⟩
    | idle | main | clock => exact ⟨nofun, False.elim, False.elim⟩
    | rx r => exact ⟨nofun, fun ⟨_, awake⟩ => awake.elim (absurd rfl) (absurd rfl), False.elim⟩
  · have owned := Reaches.owned reached.any
    have m := step_move step
    exact ⟨holds.shared.step owned.shared (owned.loc t) (holds.loc t) m,
      (holds.loc t).own owned.shared (owned.loc t) holds.shared m⟩
  · have owned := Reaches.owned reached.any
    exact (holds.loc t).other owned.shared (owned.loc t) (holds.loc t') ht (step_move step)

/-! ### Before the first message of a stream -/

/-- The message thread is at work for the stream. -/
def MsgPc.About (me : Bytes) (id : UInt32) : MsgPc → Prop
  | .opening ctx q _ => ctx.clientId = me ∧ q.streamId = id
  | .dataing ctx d _ => ctx.clientId = me ∧ d.streamId = id
  | .closing ctx streamId | .closeReply ctx streamId => ctx.clientId = me ∧ streamId = id
  | _ => False

/-- The text of an exception fits the frame that reports it. -/
def Act.Terse : Act → Prop
  | .throw (some what) | .throwMid (some what) => what.length ≤ 65000
  | _ => True

/-- The error text that `handleOpen` is about to send fits its frame. -/
def MsgPc.Terse : MsgPc → Prop
  | .opening _ _ pc => ∀ text, pc.Refuses text → text.length < 65536
  | _ => True

@[inherit_doc MsgPc.Terse]
def TerseLoc : (t : ThreadId) → Loc t → Prop
  | .msg, l => l.pc.Terse
  | _, _ => True

section Messages

variable {cfg : Config} {t : ThreadId} {l l' : Loc t} {n n' : Node} {a : Act} {me : Bytes}
  {id : UInt32}

theorem checkOpen_short {client text : Bytes} {q : OpenMessage}
    (h : checkOpen cfg client q = some text) : text.length < 65536 := by
  unfold checkOpen at h
  repeat' split at h
  all_goals
    cases h
    try decide

theorem caughtText_short {what : Option Bytes} (h : ∀ w, what = some w → w.length ≤ 65000) :
    (caughtText what).length < 65536 := by
  cases what with
  | none => decide
  | some w =>
      have short := h w rfl
      have head : (ascii "internal: ").length = 10 := by decide
      rw [caughtText, List.length_append, head]
      omega

theorem MsgMove.terse {pc : MsgPc} {l' : Thread MsgPc} (m : MsgMove cfg n pc a l' n')
    (act : a.Terse) (h : pc.Terse) : l'.pc.Terse := by
  cases m with
  | @opening ctx q pc a pc' n' move =>
      intro text refuses
      cases move with
      | refuse refused =>
          cases refuses
          exact checkOpen_short refused
      | unresolved =>
          cases refuses
          decide
      | exhausted =>
          cases refuses
          split <;> decide
      | quotaThrows | registerThrows | throws =>
          cases refuses
          exact caughtText_short fun w is => by cases is; exact act
      | pass =>
          cases refuses
          decide
      | _ => cases refuses
  | dispatchOpen =>
      intro text refuses
      cases refuses
  | _ => trivial

theorem MsgPc.Terse.resume {pc : MsgPc} (had : Bool) (h : pc.Terse) : (pc.resume had).Terse := by
  cases pc with
  | dataing ctx d dpc =>
      cases dpc with
      | _ => trivial
  | closing =>
      cases had with
      | true | false => trivial
  | _ => exact h

/-- What a thread sends fits the length fields of its frame. -/
theorem Speaks.within {client : Bytes} {f : ServerFrame Bytes} {ok : Bool}
    (speaks : Speaks n t l a l' client f ok) (terse : TerseLoc t l) : f.WithinLimits := by
  cases speaks with
  | ack | reply | notify => trivial
  | openError refuses => exact terse _ refuses
  | dataError _ short => exact short
  | push | pushFails =>
      refine lt_of_le_of_lt (List.length_take_le _ _) ?_
      decide

/-- The message thread turns to a stream when it takes up a message about it. -/
theorem Move.about {l l' : Thread MsgPc} (m : Move cfg .msg n l a l' n')
    (h : l'.pc.About me id) : l.pc.About me id ∨ heard me id n'.log ≠ [] := by
  cases m with
  | base move =>
      cases move with
      | @dispatchOpen ctx q len frame | @dispatchData ctx d len frame
      | @dispatchClose ctx c len frame =>
          refine .inr ?_
          rw [Node.emit, heard_append, heard_received]
          split
          · simp
          · next other => exact absurd h other
      | opening | dataing | dataCloses => exact .inl h
      | _ => exact h.elim
  | call => exact .inl h
  | @ret pc c cpc a had n' move =>
      refine .inl ?_
      cases pc with
      | dataing ctx d dpc =>
          cases dpc with
          | closing => exact h.elim
          | _ => exact h
      | closing ctx streamId =>
          cases had with
          | true => exact h.elim
          | false => exact h
      | _ => exact h

end Messages

/-- Nothing was done for the stream. -/
structure Unheard (me : Bytes) (id : UInt32) (s : System) : Prop where
  unnamed (r : Ref) : ¬ Named s.shared me id r
  idle : ¬ (s.loc .msg).pc.About me id
  silent : down me id s.shared.log = []

/-- A run in which every exception is terse. -/
abbrev TerseRun (ok : System → ThreadId → Act → Prop) : Prop := ∀ s t a, ok s t a → a.Terse

section Runs

variable {cfg : Config} {ok : System → ThreadId → Act → Prop} {s s' : System} {t : ThreadId}
  {a : Act} {me : Bytes} {id : UInt32}

theorem terse_of_reach (terse : TerseRun ok) (h : ReachesBy cfg ok s) : (s.loc .msg).pc.Terse := by
  refine Reach.invariant (I := fun s => (s.loc .msg).pc.Terse) trivial ?_ h
  intro s s' t a _ before allowed next
  obtain ⟨l, n, m, rfl⟩ := next_move next
  by_cases mine : t = .msg
  · subst mine
    simp only [Function.update_self]
    generalize s.loc .msg = l₀ at m before
    cases m with
    | base move => exact move.terse (terse _ _ _ allowed) before
    | call => exact before
    | ret => exact before.resume _
  · simp only [Function.update_of_ne (Ne.symm mine)]
    exact before

theorem terseLoc_of_reach (terse : TerseRun ok) (h : ReachesBy cfg ok s) (t : ThreadId) :
    TerseLoc t (s.loc t) := by
  cases t with
  | msg => exact terse_of_reach terse h
  | idle | main | rx | clock => trivial

theorem heard_of_append {n n' : Node} {es : List Event} (log : n'.log = n.log ++ es)
    (nothing : heard me id n'.log = []) : heard me id n.log = [] := by
  rw [log, heard_append] at nothing
  exact (List.append_eq_nil_iff.mp nothing).1

/-- A thread that pushes data does it for a stream that exists. -/
theorem named_of_push {r : Ref} {rest : Bytes} {call : Option Closing}
    (kin : Interleaving.Holds Orderly Kin s) (at_ : s.loc (.rx r) = { pc := .push rest, call }) :
    Named s.shared (s.shared.heap r).clientId (s.shared.heap r).streamId r := by
  have awake : Awake r (.rx r) (s.loc (.rx r)) := by
    rw [at_]
    exact ⟨rfl, .inl nofun⟩
  exact ⟨kin.shared.bound ((kin.loc (.rx r)).awake awake), rfl, rfl⟩

/-- A frame goes out for a stream that the message thread is at work for, or that exists. -/
theorem Speaks.about {l' : Loc t} {client : Bytes} {f : ServerFrame Bytes} {okay : Bool}
    (kin : Interleaving.Holds Orderly Kin s)
    (speaks : Speaks s.shared t (s.loc t) a l' client f okay) :
    (s.loc .msg).pc.About client f.streamId ∨ ∃ r, Named s.shared client f.streamId r := by
  generalize here : s.loc t = l at speaks
  cases speaks with
  | ack | openError | dataError | reply =>
      rw [here]
      exact .inl ⟨rfl, rfl⟩
  | notify calls =>
      subst here
      exact .inr ⟨_, ((kin.loc t).tears calls).1⟩
  | push | pushFails => exact .inr ⟨_, named_of_push kin here⟩

/-- **Before the first message about it nothing is done for a stream.** -/
theorem unheard_of_reach (terse : TerseRun ok) (h : ReachesBy cfg ok s)
    (nothing : heard me id s.shared.log = []) : Unheard me id s := by
  revert nothing
  refine Reach.invariant (I := fun s => heard me id s.shared.log = [] → Unheard me id s) ?_ ?_ h
  · exact fun _ => ⟨fun r named => absurd named.1 (Nat.not_lt_zero _), fun about => about, rfl⟩
  · intro s s' t a reached before allowed next nothing
    obtain ⟨l, n, m, rfl⟩ := next_move next
    obtain ⟨es, log, records⟩ := m.records
    have owned := Reaches.owned reached.any
    have kin := kin_of_reaches reached.any
    obtain ⟨unnamed, idle, silent⟩ := before (heard_of_append log nothing)
    refine ⟨fun r named => ?_, ?_, ?_⟩
    · rcases m.made owned.shared (owned.loc t) named.1 with old | makes
      · have same := (m.own owned.shared (owned.loc t)).1.ident old
        exact unnamed r ⟨old, same.2.1.symm.trans named.2.1, same.2.2.1.symm.trans named.2.2⟩
      · generalize here : s.loc t = l₀ at makes
        cases makes with
        | mk client stream =>
            rw [here] at idle
            exact idle ⟨client.trans named.2.1, stream.trans named.2.2⟩
    · by_cases mine : t = .msg
      · subst mine
        simp only [Function.update_self]
        intro about
        rcases m.about about with old | some_
        · exact idle old
        · exact some_ nothing
      · simp only [Function.update_of_ne (Ne.symm mine)]
        exact idle
    · change down me id n.log = []
      rw [log, down_append, silent, List.nil_append]
      generalize here : s.loc t = l₀ at records
      cases records with
      | aside aside => exact down_aside me id aside
      | @speaks _ _ _ _ client f okay speaks =>
          subst here
          rw [down_sent me id (speaks.within (terseLoc_of_reach terse reached _))]
          refine if_neg ?_
          rintro ⟨-, rfl, rfl⟩
          rcases speaks.about kin with about | ⟨r, named⟩
          · exact idle about
          · exact unnamed r named
      | hears | feeds | pulls => rfl

end Runs

end TonTunnel.Egress
