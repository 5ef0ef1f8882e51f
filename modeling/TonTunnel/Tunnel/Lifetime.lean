import TonTunnel.Tunnel.Downstream

/-!
The lifetime of a stream at the egress node.

Where the OPEN is the first message of a stream that the server takes up
(`OpensFirst`), at most one stream object is ever made for it (`single_of_reach`),
and once the stream has left `streams_` it never comes back (`Over.next`).
-/

namespace TonTunnel.Egress

open Interleaving (Reach anyStep)

/-- `handleOpen` may still make the stream. -/
def OpenPc.Making : OpenPc → Prop
  | .check | .quota | .resolve _ | .connect .. | .socket .. | .connecting .. | .makeStream .. => True
  | _ => False

/-- `handleOpen` is about to store the stream. -/
def OpenPc.Registering : OpenPc → Prop
  | .register _ => True
  | _ => False

/-- `handleOpen` may still store the stream. -/
def OpenPc.Storing : OpenPc → Prop
  | .register _ => True
  | pc => pc.Making

/-- The message thread is in `handleOpen` for the stream, at such a point. -/
def MsgPc.OpensAt (P : OpenPc → Prop) (me : Bytes) (id : UInt32) : MsgPc → Prop
  | .opening ctx q pc => ctx.clientId = me ∧ q.streamId = id ∧ P pc
  | _ => False

/-- The message thread is about to take up an OPEN of the stream. -/
def TakesOpen (me : Bytes) (id : UInt32) (pc : MsgPc) : Prop :=
  ∃ ctx q len, pc = .parsing ctx ∧ ctx.clientId = me ∧ q.streamId = id ∧
    parseFrame ctx.payload ctx.offset = .ok (.opn q, len)

/-- An OPEN that is taken up is the first message of its stream. -/
def OpensFirst (me : Bytes) (id : UInt32) (s : System) : Prop :=
  TakesOpen me id (s.loc .msg).pc → heard me id s.shared.log = []

/-- There is at most one stream object of the name, and none as long as `handleOpen` may make one. -/
structure Single (me : Bytes) (id : UInt32) (s : System) : Prop where
  sole : Sole me id s.shared
  unmade : (s.loc .msg).pc.OpensAt OpenPc.Making me id → ∀ r, ¬ Named s.shared me id r

/-- The stream is not in `streams_` and `handleOpen` will not store it. -/
structure Over (me : Bytes) (id : UInt32) (s : System) : Prop where
  absent : s.shared.streams.lookup (keyFor me id) = none
  past : ¬ (s.loc .msg).pc.OpensAt OpenPc.Storing me id
  heard : heard me id s.shared.log ≠ []

section Steps

variable {cfg : Config} {n n' : Node} {a : Act} {me : Bytes} {id : UInt32}

theorem OpenMove.making {client : Bytes} {q : OpenMessage} {pc pc' : OpenPc}
    (m : OpenMove cfg client q n pc a (.more pc') n') (h : pc'.Making) : pc.Making := by
  cases m with
  | pass | quotaLeft | resolved | skip | attempt | noSocket | socket | connected | disconnected =>
      trivial
  | _ => exact h.elim

theorem OpenMove.storing {client : Bytes} {q : OpenMessage} {pc pc' : OpenPc}
    (m : OpenMove cfg client q n pc a (.more pc') n') (h : pc'.Storing) : pc.Storing := by
  cases m with
  | pass | quotaLeft | resolved | skip | attempt | noSocket | socket | connected | disconnected
  | makeStream => trivial
  | _ => exact h.elim

/-- The message thread comes to such a point of `handleOpen` on the way through it, or when it takes up
an OPEN. -/
theorem Move.opensAt {P : OpenPc → Prop} {l l' : Thread MsgPc} (m : Move cfg .msg n l a l' n')
    (back : ∀ {client q pc pc'}, OpenMove cfg client q n pc a (.more pc') n' → P pc' → P pc)
    (h : l'.pc.OpensAt P me id) : l.pc.OpensAt P me id ∨ TakesOpen me id l.pc := by
  cases m with
  | base move =>
      cases move with
      | opening move => exact .inl ⟨h.1, h.2.1, back move h.2.2⟩
      | dispatchOpen frame => exact .inr ⟨_, _, _, rfl, h.1, h.2.1, frame⟩
      | _ => exact h.elim
  | call => exact .inl h
  | @ret pc c cpc a had n' move =>
      refine .inl ?_
      cases pc with
      | dataing ctx d dpc =>
          cases dpc with
          | closing => exact h.elim
          | _ => exact h
      | closing =>
          cases had with
          | true | false => exact h.elim
      | _ => exact h

theorem Makes.thread {t : ThreadId} {l : Loc t} {client : Bytes} {streamId : UInt32} {k : Sock}
    (h : Makes client streamId k t l) : t = .msg := by
  cases h with
  | mk => rfl

/-- The step that makes a stream makes one, and `handleOpen` is past making it. -/
theorem Makes.after {l l' : Thread MsgPc} {client : Bytes} {streamId : UInt32} {k : Sock}
    (makes : Makes client streamId k .msg l) (m : Move cfg .msg n l a l' n') :
    n'.nextRef ≤ n.nextRef + 1 ∧ ∀ me id, ¬ l'.pc.OpensAt OpenPc.Making me id := by
  cases makes with
  | mk =>
      cases m with
      | base move =>
          cases move with
          | opening move =>
              cases move with
              | makeStream => exact ⟨le_rfl, fun _ _ opens => opens.2.2⟩
              | throws => exact ⟨Nat.le_succ _, fun _ _ opens => opens.2.2⟩
          | opened move | openEscaped move => cases move

theorem eq_of_made {l l' : Thread MsgPc} {r r' : Ref} {client : Bytes} {streamId : UInt32} {k : Sock}
    (m : Move cfg .msg n l a l' n') (makes : Makes client streamId k .msg l) (new : ¬ r < n.nextRef)
    (new' : ¬ r' < n.nextRef) (low : r < n'.nextRef) (low' : r' < n'.nextRef) : r = r' := by
  have one := (makes.after m).1
  exact (Nat.eq_of_lt_succ_of_not_lt (low.trans_le one) new).trans
    (Nat.eq_of_lt_succ_of_not_lt (low'.trans_le one) new').symm

end Steps

section Runs

variable {cfg : Config} {ok : System → ThreadId → Act → Prop} {s s' : System} {t : ThreadId}
  {a : Act} {me : Bytes} {id : UInt32}

/-- **At most one stream object is made for a stream.** -/
theorem single_of_reach (terse : TerseRun ok) (first : ∀ s t a, ok s t a → OpensFirst me id s)
    (h : ReachesBy cfg ok s) : Single me id s := by
  refine Reach.invariant (I := Single me id) ?_ ?_ h
  · exact ⟨fun r _ named => absurd named.1 (Nat.not_lt_zero _),
      fun _ r named => absurd named.1 (Nat.not_lt_zero _)⟩
  intro s s' t a reached single allowed next
  obtain ⟨l, n, m, rfl⟩ := next_move next
  have owned := Reaches.owned reached.any
  -- a stream that is new in this step comes from `handleOpen`, which has made none before
  have new {r : Ref} (named : Named n me id r) : Named s.shared me id r ∨
      ¬ r < s.shared.nextRef ∧ t = .msg ∧ ∃ k, Makes me id k t (s.loc t) := by
    rcases named.before owned.shared (owned.loc t) m with old | new
    · exact .inl old
    · rcases m.made owned.shared (owned.loc t) named.1 with old | makes
      · exact absurd old new
      · rw [named.2.1, named.2.2] at makes
        exact .inr ⟨new, makes.thread, _, makes⟩
  have making {k : Sock} (mine : t = .msg) (makes : Makes me id k t (s.loc t)) :
      (s.loc .msg).pc.OpensAt OpenPc.Making me id := by
    subst mine
    generalize here : s.loc .msg = l₀ at makes
    cases makes with
    | mk client stream => exact ⟨client, stream, trivial⟩
  constructor
  · intro r r' named named'
    rcases new named with old | ⟨young, mine, k, makes⟩
    · rcases new named' with old' | ⟨-, mine, k, makes⟩
      · exact single.sole r r' old old'
      · exact absurd old (single.unmade (making mine makes) r)
    · rcases new named' with old' | ⟨young', -, -⟩
      · exact absurd old' (single.unmade (making mine makes) r')
      · subst mine
        exact eq_of_made m makes young young' named.1 named'.1
  · intro opens r named
    by_cases mine : t = .msg
    · subst mine
      simp only [Function.update_self] at opens
      rcases m.opensAt OpenMove.making opens with before | takes
      · rcases new named with old | ⟨young, -, k, makes⟩
        · exact single.unmade before r old
        · exact (makes.after m).2 me id opens
      · have unheard := unheard_of_reach terse reached (first _ _ _ allowed takes)
        rcases new named with old | ⟨-, -, k, makes⟩
        · exact unheard.unnamed r old
        · obtain ⟨ctx, q, len, at_, -⟩ := takes
          generalize s.loc .msg = l₀ at at_ makes
          cases makes with
          | mk => cases at_
    · simp only [Function.update_of_ne (Ne.symm mine)] at opens
      rcases new named with old | ⟨-, mine', -⟩
      · exact single.unmade opens r old
      · exact absurd mine' mine

/-- A stream that is in `streams_` will not be stored again. -/
theorem not_storing_of_found (h : Reaches cfg s) (single : Single me id s) {r : Ref}
    (found : s.shared.streams.lookup (keyFor me id) = some r) :
    ¬ (s.loc .msg).pc.OpensAt OpenPc.Storing me id := by
  have owned := Reaches.owned h
  have named := owned.shared.named found
  intro opens
  generalize here : (s.loc .msg).pc = pc at opens
  cases pc with
  | opening ctx q pc =>
      obtain ⟨rfl, rfl, storing⟩ := opens
      cases pc with
      | register r' =>
          have ok := (owned.loc .msg).pos.1
          rw [here] at ok
          obtain ⟨named', -, -, unstored⟩ := ok
          cases single.sole r r' named named'
          exact unstored _ found
      | check | quota | resolve | connect | socket | connecting | makeStream =>
          exact single.unmade (by rw [here]; exact ⟨rfl, rfl, trivial⟩) r named
      | fail | ack | startThread | assign | caught => exact storing.elim
  | _ => exact opens.elim

theorem heard_of_found (terse : TerseRun ok) (h : ReachesBy cfg ok s) {r : Ref}
    (named : Named s.shared me id r) : heard me id s.shared.log ≠ [] :=
  fun nothing => (unheard_of_reach terse h nothing).unnamed r named

theorem heard_next (h : (machine cfg).next s t a = some s') (some_ : heard me id s.shared.log ≠ []) :
    heard me id s'.shared.log ≠ [] := by
  obtain ⟨l, n, m, rfl⟩ := next_move h
  obtain ⟨es, log, -⟩ := m.records
  exact fun nothing => some_ (heard_of_append log nothing)

/-- The message thread does not come back to storing the stream. -/
theorem past_next (first : OpensFirst me id s) (next : (machine cfg).next s t a = some s')
    (some_ : heard me id s.shared.log ≠ []) (past : ¬ (s.loc .msg).pc.OpensAt OpenPc.Storing me id) :
    ¬ (s'.loc .msg).pc.OpensAt OpenPc.Storing me id := by
  obtain ⟨l, n, m, rfl⟩ := next_move next
  by_cases mine : t = .msg
  · subst mine
    simp only [Function.update_self]
    intro opens
    rcases m.opensAt OpenMove.storing opens with before | takes
    · exact past before
    · exact some_ (first takes)
  · simp only [Function.update_of_ne (Ne.symm mine)]
    exact past

/-- A stream comes into `streams_` when `handleOpen` stores it. -/
theorem absent_next (next : (machine cfg).next s t a = some s')
    (absent : s.shared.streams.lookup (keyFor me id) = none)
    (past : t = .msg → (a = .go ∨ ∃ what, a = .throwMid what) →
      ¬ (s.loc .msg).pc.OpensAt OpenPc.Registering me id) :
    s'.shared.streams.lookup (keyFor me id) = none := by
  obtain ⟨l, n, m, rfl⟩ := next_move next
  have table := m.table
  generalize here : s.loc t = l₀ at table
  cases table with
  | still still =>
      rw [still.streams]
      exact absent
  | @register ctx q r =>
      by_cases same : keyFor me id = keyFor ctx.clientId q.streamId
      · obtain ⟨rfl, rfl⟩ := keyFor_inj same
        rw [here] at past
        exact absurd ⟨rfl, rfl, trivial⟩ (past rfl (.inl rfl))
      · exact (AList.lookup_insert_ne same).trans absent
  | @registerThrows ctx q r what =>
      by_cases same : keyFor me id = keyFor ctx.clientId q.streamId
      · obtain ⟨rfl, rfl⟩ := keyFor_inj same
        rw [here] at past
        exact absurd ⟨rfl, rfl, trivial⟩ (past rfl (.inr ⟨what, rfl⟩))
      · exact (AList.lookup_insert_ne same).trans absent
  | @take _ _ _ _ c r =>
      obtain ⟨counts, took⟩ := Node.take_eq s.shared t c r
      rw [took]
      by_cases same : keyFor me id = keyFor c.clientId c.streamId
      · rw [same]
        exact AList.lookup_erase _ _
      · exact (AList.lookup_erase_ne same).trans absent
  | @lose _ _ _ _ c r =>
      by_cases same : keyFor me id = keyFor c.clientId c.streamId
      · rw [same]
        exact AList.lookup_erase _ _
      · exact (AList.lookup_erase_ne same).trans absent
  | snapshot => rfl

/-- `closeStream` looks the stream up, and it is not in `streams_` afterwards. -/
theorem absent_of_enter {c : CloseCall} {n : Node} {l' : Thread MsgPc} {pc : MsgPc}
    (m : Move cfg .msg s.shared ⟨pc, some ⟨c, .enter⟩⟩ a l' n)
    (calm : ∀ what, a = .throw what →
      s.shared.streams.lookup (keyFor c.clientId c.streamId) = none) :
    n.streams.lookup (keyFor c.clientId c.streamId) = none := by
  cases m with
  | call move =>
      cases move with
      | take found =>
          obtain ⟨counts, took⟩ := Node.take_eq s.shared .msg c _
          rw [took]
          exact AList.lookup_erase _ _
  | ret move =>
      cases move with
      | absent absent => exact absent
      | throws => exact calm _ rfl
      | lose => exact AList.lookup_erase _ _

theorem OpenPc.Registering.storing {pc : OpenPc} (h : pc.Registering) : pc.Storing := by
  cases pc with
  | register => trivial
  | _ => exact h.elim

theorem MsgPc.OpensAt.mono {P Q : OpenPc → Prop} {pc : MsgPc} (implies : ∀ {pc}, P pc → Q pc)
    (h : pc.OpensAt P me id) : pc.OpensAt Q me id := by
  cases pc with
  | opening => exact ⟨h.1, h.2.1, implies h.2.2⟩
  | _ => exact h.elim

/-- **A stream that is over stays over.** -/
theorem Over.next (ended : Over me id s) (first : OpensFirst me id s)
    (next : (machine cfg).next s t a = some s') : Over me id s' where
  absent := absent_next next ended.absent
    fun _ _ opens => ended.past (opens.mono OpenPc.Registering.storing)
  past := past_next first next ended.heard ended.past
  heard := heard_next next ended.heard

/-- **A stream that leaves `streams_` is over.** -/
theorem over_of_gone (terse : TerseRun ok) (h : ReachesBy cfg ok s) (single : Single me id s)
    (first : OpensFirst me id s) (next : (machine cfg).next s t a = some s') {r : Ref}
    (found : s.shared.streams.lookup (keyFor me id) = some r)
    (gone : s'.shared.streams.lookup (keyFor me id) = none) : Over me id s' := by
  have named := (Reaches.owned h.any).shared.named found
  have some_ := heard_of_found terse h named
  exact ⟨gone, past_next first next some_ (not_storing_of_found h.any single found),
    heard_next next some_⟩

end Runs

end TonTunnel.Egress
