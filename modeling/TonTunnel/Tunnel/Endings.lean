import TonTunnel.Tunnel.Upstream

/-!
How a stream ends at the egress node.

Where an ERROR is sent only for a stream that is not in `streams_`, and no exception
keeps `handleClose` from looking the stream up (`Orderliness`), each of these means that
the stream is over: it was taken out of `streams_`, its CLOSE was heard and has been
looked up, or a CLOSE or an ERROR went to the client (`Ends`).
-/

namespace TonTunnel.Egress

open Interleaving (Reach anyStep)

/-- The message thread is where it sends an ERROR for the stream, or nothing. -/
def MsgPc.Refusing (me : Bytes) (id : UInt32) : MsgPc → Prop
  | .opening ctx q pc => ctx.clientId = me ∧ q.streamId = id ∧ ∃ text, pc.Refuses text
  | .dataing ctx d _ => ctx.clientId = me ∧ d.streamId = id
  | _ => False

/-- The message thread is in `handleClose` for the stream and has not looked it up. -/
def Entering (me : Bytes) (id : UInt32) (l : Thread MsgPc) : Prop :=
  ∃ ctx c, l = ⟨.closing ctx id, some ⟨c, .enter⟩⟩ ∧ ctx.clientId = me ∧
    c.clientId = me ∧ c.streamId = id

/-- What a step must find. -/
structure Orderliness (me : Bytes) (id : UInt32) (s : System) (t : ThreadId) (a : Act) : Prop where
  terse : a.Terse
  first : OpensFirst me id s
  refuses : t = .msg → a = .sent true → (s.loc .msg).pc.Refusing me id →
    s.shared.streams.lookup (keyFor me id) = none
  closes : ∀ what, t = .msg → a = .throw what → Entering me id (s.loc .msg) →
    s.shared.streams.lookup (keyFor me id) = none

/-- What ends a stream. -/
structure Ends (me : Bytes) (id : UInt32) (s : System) : Prop where
  taken {t : ThreadId} {c : Option CloseCall} {r : Ref} :
    Named s.shared me id r → .taken t c r ∈ s.shared.log → Over me id s
  closed : .close ⟨id⟩ ∈ heard me id s.shared.log → Over me id s ∨ Entering me id (s.loc .msg)
  told {f : Desktop.InboundFrame} :
    f ∈ down me id s.shared.log → f.type = .close ∨ f.type = .error → Over me id s

section Runs

variable {cfg : Config} {ok : System → ThreadId → Act → Prop} {s s' : System} {t : ThreadId}
  {a : Act} {me : Bytes} {id : UInt32}

/-- The CLOSE that `handleClose` answers was heard. -/
theorem heard_of_closeReply {ctx : MsgCtx} {streamId : UInt32} (h : ReachesBy cfg ok s)
    (at_ : (s.loc .msg).pc = .closing ctx streamId ∨ (s.loc .msg).pc = .closeReply ctx streamId) :
    .close ⟨streamId⟩ ∈ heard ctx.clientId streamId s.shared.log := by
  revert at_
  refine Reach.invariant (I := fun s =>
    (s.loc .msg).pc = .closing ctx streamId ∨ (s.loc .msg).pc = .closeReply ctx streamId →
      .close ⟨streamId⟩ ∈ heard ctx.clientId streamId s.shared.log) ?_ ?_ h
  · rintro (at_ | at_)
    · cases at_
    · cases at_
  intro s s' t a _ before _ next at_
  obtain ⟨l, n, m, rfl⟩ := next_move next
  obtain ⟨es, log, -⟩ := m.records
  have grows (old : .close ⟨streamId⟩ ∈ heard ctx.clientId streamId s.shared.log) :
      .close ⟨streamId⟩ ∈ heard ctx.clientId streamId n.log := by
    rw [log, heard_append]
    exact List.mem_append_left _ old
  by_cases mine : t = .msg
  · subst mine
    simp only [Function.update_self] at at_
    generalize here : s.loc .msg = l₀ at m
    rw [here] at before
    cases m with
    | call => exact grows (before at_)
    | @ret pc _ _ _ had _ _ =>
        refine grows (before ?_)
        cases pc with
        | dataing _ _ dpc =>
            cases dpc with
            | closing => rcases at_ with at_ | at_ <;> cases at_
            | _ => exact at_
        | closing =>
            cases had with
            | true => rcases at_ with at_ | at_ <;> cases at_
            | false =>
                rcases at_ with at_ | at_ <;> cases at_
                exact .inl rfl
        | _ => exact at_
    | base move =>
        cases move with
        | dispatchClose =>
            rcases at_ with at_ | at_ <;> cases at_
            simp only [Node.emit, heard_append, heard_received]
            simp [DecodedMessage.streamId]
        | _ => rcases at_ with at_ | at_ <;> cases at_
  · simp only [Function.update_of_ne (Ne.symm mine)] at at_
    exact grows (before at_)

/-! ### The three ends -/

/-- A stream that is taken is over. -/
theorem over_of_taken (terse : TerseRun ok) (h : ReachesBy cfg ok s) (single : Single me id s)
    (single' : Single me id s') (first : OpensFirst me id s)
    (next : (machine cfg).next s t a = some s') (ends : Ends me id s)
    {t' : ThreadId} {c : Option CloseCall} {r : Ref} (named : Named s'.shared me id r)
    (taken : .taken t' c r ∈ s'.shared.log) : Over me id s' := by
  have owned := Reaches.owned h.any
  have owned' : Owned s' := Reaches.owned (h.any.step trivial next)
  obtain ⟨l, n, m, rfl⟩ := next_move next
  have old (born : r < s.shared.nextRef) : Named s.shared me id r := by
    rcases named.before owned.shared (owned.loc t) m with old | new
    · exact old
    · exact absurd born new
  rcases m.taken taken with before | ⟨-, takes, torn⟩
  · have born : r < s.shared.nextRef := by
      by_contra high
      exact (kin_of_reaches h.any).shared.owned before (owned.shared.unborn (not_lt.mp high))
    exact (ends.taken (old born) before).next first next
  · have found : s.shared.streams.lookup (keyFor me id) = some r := by
      obtain ⟨k, found⟩ : ∃ k, s.shared.streams.lookup k = some r := by
        cases c with
        | none => exact takes.2
        | some => exact takes.2
      have key := owned.shared.key found
      obtain ⟨-, client, stream⟩ := old (owned.shared.bound found)
      rw [Stream.key, client, stream] at key
      rw [← key]
      exact found
    refine over_of_gone terse h single first next found ?_
    by_contra there
    obtain ⟨r', found'⟩ := Option.ne_none_iff_exists'.mp there
    cases single'.sole r r' named (owned'.shared.named found')
    exact torn (owned'.shared.untaken found')

/-- The message thread goes from a CLOSE that it takes up to `handleClose`. -/
theorem entering_of_heard {l l' : Thread MsgPc} {n n' : Node} {es : List Event}
    (m : Move cfg .msg n l a l' n') (log : n'.log = n.log ++ es)
    (records : Records n .msg l a l' es) (heard_ : .close ⟨id⟩ ∈ heard me id es) :
    Entering me id l' := by
  cases records with
  | aside aside =>
      rw [heard_aside me id aside] at heard_
      exact absurd heard_ List.not_mem_nil
  | speaks | feeds => exact absurd heard_ List.not_mem_nil
  | @hears ctx msg =>
      rw [heard_received] at heard_
      split at heard_
      · next mine =>
          cases List.mem_singleton.mp heard_
          cases m with
          | base move =>
              cases move with
              | leave => exact absurd log (by simp)
              | dispatchClose =>
                  cases (List.append_cancel_left log)
                  exact ⟨_, _, rfl, mine.1, mine.1, rfl⟩
              | dispatchOpen | dispatchData | dispatchError => cases (List.append_cancel_left log)
      · exact absurd heard_ List.not_mem_nil

/-- A CLOSE that was heard is about to be looked up, or the stream is over. -/
theorem Ends.closed_next (orderly : Orderliness me id s t a)
    (next : (machine cfg).next s t a = some s') (ends : Ends me id s)
    (heard_ : .close ⟨id⟩ ∈ heard me id s'.shared.log) :
    Over me id s' ∨ Entering me id (s'.loc .msg) := by
  obtain ⟨l, n, m, after⟩ := next_move next
  obtain ⟨es, log, records⟩ := m.records
  have log' : s'.shared.log = s.shared.log ++ es := by
    rw [after]
    exact log
  by_cases mine : t = .msg
  · subst mine
    have at_ : s'.loc .msg = l := by simp [after]
    by_cases old : .close ⟨id⟩ ∈ heard me id s.shared.log
    · refine .inl ?_
      rcases ends.closed old with ended | enters
      · exact ended.next orderly.first next
      · have calm := fun what thrown => orderly.closes what rfl thrown enters
        obtain ⟨ctx, c, here, -, rfl, rfl⟩ := enters
        rw [here] at m
        refine ⟨?_, ?_, ?_⟩
        · rw [after]
          exact absent_of_enter m calm
        · rw [at_]
          cases m with
          | call => exact id
          | @ret _ _ _ _ had =>
              cases had with
              | true | false => exact id
        · exact List.ne_nil_of_mem heard_
    · refine .inr ?_
      rw [at_]
      refine entering_of_heard m log records ?_
      rw [log', heard_append] at heard_
      exact (List.mem_append.mp heard_).resolve_left old
  · have same : s'.loc .msg = s.loc .msg := by
      simp [after, Function.update_of_ne (Ne.symm mine)]
    have others : heard me id es = [] ∧ fed 0 es = [] := records.others mine
    rw [log', heard_append, others.1, List.append_nil] at heard_
    rw [same]
    rcases ends.closed heard_ with ended | enters
    · exact .inl (ended.next orderly.first next)
    · exact .inr enters

/-- What the frame of an ERROR or of a CLOSE says of the stream when it is sent. -/
theorem over_of_speaks (terse : TerseRun ok) (h : ReachesBy cfg ok s)
    (orderly : Orderliness me id s t a) (next : (machine cfg).next s t a = some s')
    (ends : Ends me id s) {l' : Loc t} {f : ServerFrame Bytes}
    (at_ : s'.loc t = l')
    (speaks : Speaks s.shared t (s.loc t) a l' me f true) (named : f.streamId = id)
    (ending : (Desktop.received f).type = .close ∨ (Desktop.received f).type = .error) :
    Over me id s' := by
  have refused (mine : t = .msg) (sends : a = .sent true)
      (refusing : (s.loc .msg).pc.Refusing me id)
      (leaves : ¬ (s'.loc .msg).pc.OpensAt OpenPc.Storing me id)
      (about : (s.loc .msg).pc.About me id)
      (past : ¬ (s.loc .msg).pc.OpensAt OpenPc.Registering me id) : Over me id s' := by
    have absent := orderly.refuses mine sends refusing
    have some_ : heard me id s.shared.log ≠ [] :=
      fun nothing => (unheard_of_reach terse h nothing).idle about
    exact ⟨absent_next next absent fun _ _ => past, leaves, heard_next next some_⟩
  generalize here : s.loc t = l at speaks
  cases speaks with
  | ack => rcases ending with ending | ending <;> cases ending
  | push => rcases ending with ending | ending <;> cases ending
  | @openError ctx q pc text _ refuses =>
      cases named
      refine refused rfl rfl ?_ ?_ ?_ ?_
      · rw [here]
        exact ⟨rfl, rfl, text, refuses⟩
      · rw [at_]
        exact fun opens => opens
      · rw [here]
        exact ⟨rfl, rfl⟩
      · rw [here]
        rintro ⟨-, -, registering⟩
        cases refuses with
        | _ => exact registering
  | dataError =>
      cases named
      refine refused rfl rfl ?_ ?_ ?_ ?_
      · rw [here]
        exact ⟨rfl, rfl⟩
      · rw [at_]
        exact fun opens => opens
      · rw [here]
        exact ⟨rfl, rfl⟩
      · rw [here]
        exact fun opens => opens
  | reply =>
      cases named
      have heard_ := heard_of_closeReply h (.inr (congrArg Thread.pc here))
      rcases ends.closed heard_ with ended | ⟨_, _, enters, -⟩
      · exact ended.next orderly.first next
      · cases here.symm.trans enters
  | notify calls =>
      cases named
      subst here
      obtain ⟨named, taken⟩ := ((kin_of_reaches h.any).loc t).tears calls
      exact (ends.taken named taken).next orderly.first next

/-- **What ends a stream.** -/
theorem ends_of_reach (orderly : ∀ s t a, ok s t a → Orderliness me id s t a)
    (h : ReachesBy cfg ok s) : Ends me id s := by
  have terse : TerseRun ok := fun s t a allowed => (orderly s t a allowed).terse
  have single {s : System} (h : ReachesBy cfg ok s) : Single me id s :=
    single_of_reach terse (fun s t a allowed => (orderly s t a allowed).first) h
  refine Reach.invariant (I := Ends me id) ?_ ?_ h
  · exact ⟨fun named => absurd named.1 (Nat.not_lt_zero _),
      fun mem => absurd mem List.not_mem_nil, fun mem => absurd mem List.not_mem_nil⟩
  intro s s' t a reached ends allowed next
  have first := (orderly s t a allowed).first
  refine ⟨?_, ends.closed_next (orderly s t a allowed) next, ?_⟩
  · intro t' c r named taken
    exact over_of_taken terse reached (single reached) (single (reached.step allowed next)) first
      next ends named taken
  · intro f mem ending
    obtain ⟨l, n, m, after⟩ := next_move next
    obtain ⟨es, log, records⟩ := m.records
    have log' : s'.shared.log = s.shared.log ++ es := by
      rw [after]
      exact log
    rw [log', down_append] at mem
    rcases List.mem_append.mp mem with old | new
    · exact (ends.told old ending).next first next
    · generalize here : s.loc t = l₀ at records
      cases records with
      | aside aside =>
          rw [down_aside me id aside] at new
          exact absurd new List.not_mem_nil
      | speaks speaks =>
          subst here
          rw [down_sent me id (speaks.within (terseLoc_of_reach terse reached _))] at new
          split at new
          · next mine =>
              obtain ⟨rfl, rfl, named⟩ := mine
              cases List.mem_singleton.mp new
              exact over_of_speaks terse reached (orderly _ _ _ allowed) next ends (by simp [after])
                speaks named ending
          · exact absurd new List.not_mem_nil
      | hears | feeds | pulls => exact absurd new List.not_mem_nil

end Runs

end TonTunnel.Egress
