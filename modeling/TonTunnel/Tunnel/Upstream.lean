import TonTunnel.Tunnel.Lifetime

/-!
The server's half of the uplink.

As long as nothing is lost on the way from `onAdnlMessage` to `send` (`Careful`), what
the socket of a stream has taken and what `handleData` has in hand are together the
bytes of the DATA messages that the server has heard; or the stream is over, and
the socket has taken a prefix of them (`UpFlow`).
-/

namespace TonTunnel.Egress

open Interleaving (Reach anyStep)

/-! ### What becomes of a payload in `handleData` -/

/-- `handleData` has not passed the payload to `send`. -/
def DataPc.unsent : DataPc → Bool
  | .touch _ | .closing _ => false
  | _ => true

/-- A step of `handleData` in which no exception is thrown. -/
inductive DataFate (client : Bytes) (d : DataMessage) (n : Node) :
    DataPc → Act → DataOut → Node → Prop
  | checked {a} : DataFate client d n .check a (.more .lookup) n
  | found {r a} (found : n.streams.lookup (keyFor client d.streamId) = some r) :
      DataFate client d n .lookup a (.more (.test r)) n
  | passed {r a} : DataFate client d n (.test r) a (.more (.load r)) n
  | loaded {r fd a} : DataFate client d n (.load r) a (.more (.send r fd)) n
  | empty {r a} (nothing : d.payload = []) : DataFate client d n (.test r) a .returned n
  | absent {a n'} (absent : n.streams.lookup (keyFor client d.streamId) = none) :
      DataFate client d n .lookup a .returned n'
  | closed {r a n'} (closed : (n.heap r).fd < 0 ∨ (n.heap r).closed = true) :
      DataFate client d n (.test r) a .returned n'
  | written {r fd k} {x : Int} (good : n.fds fd = some k) (some_ : 0 < x) (bound : x ≤ d.payload.length) :
      DataFate client d n (.send r fd) (.sendRet x) (.more (.touch r))
        (n.emit (.tcpSend k d.payload x))
  | refused {r fd n'} {x : Int} (none_ : x ≤ 0)
      (log : n'.log = n.log ∨ ∃ k, n'.log = n.log ++ [Event.tcpSend k d.payload x]) :
      DataFate client d n (.send r fd) (.sendRet x)
        (.close r ⟨client, d.streamId, .tcpWriteFailed, some r⟩) n'
  | touched {r a n'} : DataFate client d n (.touch r) a .returned n'

theorem dataStep_fate {cfg : Config} {client : Bytes} {d : DataMessage} {pc : DataPc} {n n' : Node}
    {a : Act} {out : DataOut} (h : dataStep cfg client d pc n a = some (out, n'))
    (room : pc = .check → d.payload.length ≤ cfg.egress.maxPayloadBytes.toNat)
    (calm : ∀ what, a ≠ .throw what) : DataFate client d n pc a out n' := by
  unfold dataStep at h
  simp only at h
  split at h
  · split at h
    · cases h
    · cases h
      exact .checked
  · split at h
    · next long => exact absurd (room rfl) (not_le.mpr long)
    · cases h
  · exact absurd rfl (calm _)
  · split at h
    · next r found =>
        cases h
        exact .found found
    · next absent =>
        split at h
        · cases h
          exact .absent absent
        · cases h
  · split at h
    · next absent =>
        cases h
        rw [Bool.and_eq_true, Option.isNone_iff_eq_none] at absent
        exact .absent absent.1
    · cases h
  · exact absurd rfl (calm _)
  · split at h
    · cases h
    · split at h
      · next nothing =>
          cases h
          exact .empty (List.isEmpty_iff.mp nothing)
      · cases h
        exact .passed
  · split at h
    · next gone =>
        cases h
        rw [Bool.or_eq_true, decide_eq_true_eq] at gone
        exact .closed gone
    · cases h
  · exact absurd rfl (calm _)
  · cases h
    exact .loaded
  · split at h
    · split at h
      · next none_ =>
          cases h
          exact .refused none_ (.inl rfl)
      · cases h
    · next k good =>
        split at h
        · cases h
        · next bound =>
            split at h
            · next none_ =>
                cases h
                exact .refused none_ (.inr ⟨k, rfl⟩)
            · next some_ =>
                cases h
                exact .written good (not_le.mp some_) (not_lt.mp bound)
  · cases h
    exact .touched
  · cases h

/-! ### The account of a stream -/

/-- The bytes of the stream that `handleData` has not passed to `send`. -/
def inHand (me : Bytes) (id : UInt32) : MsgPc → Bytes
  | .dataing ctx d pc =>
      if ctx.clientId = me ∧ d.streamId = id ∧ pc.unsent = true then d.payload else []
  | _ => []

/-- `handleData` has found the stream and has not passed the payload to `send`. -/
def MsgPc.Writes (me : Bytes) (id : UInt32) : MsgPc → Prop
  | .dataing ctx d (.test _) | .dataing ctx d (.load _) | .dataing ctx d (.send _ _) =>
      ctx.clientId = me ∧ d.streamId = id
  | _ => False

/-- `handleData` calls `closeStream` after a failed write. -/
def GivesUp (me : Bytes) (id : UInt32) (l : Thread MsgPc) : Prop :=
  ∃ ctx d r c, l = ⟨.dataing ctx d (.closing r), some ⟨c, .enter⟩⟩ ∧ ctx.clientId = me ∧
    d.streamId = id ∧ c.clientId = me ∧ c.streamId = id

/-- What the socket of the stream took against what the server heard. -/
def UpFlow (me : Bytes) (id : UInt32) (r : Ref) (s : System) : Prop :=
  fed (s.shared.heap r).sock s.shared.log ++ inHand me id (s.loc .msg).pc =
      payloadBytes (heard me id s.shared.log) ∨
    fed (s.shared.heap r).sock s.shared.log <+: payloadBytes (heard me id s.shared.log) ∧
      (GivesUp me id (s.loc .msg) ∨ Over me id s ∧ ¬ (s.loc .msg).pc.Writes me id)

theorem UpFlow.isPrefix {me : Bytes} {id : UInt32} {r : Ref} {s : System} (h : UpFlow me id r s) :
    fed (s.shared.heap r).sock s.shared.log <+: payloadBytes (heard me id s.shared.log) := by
  rcases h with all | ⟨some_, -⟩
  · exact all ▸ List.prefix_append _ _
  · exact some_

/-- Nothing of the stream is lost in this step: the OPEN comes first, payloads are within the limit,
no exception ends `handleData` before it has removed or served the stream, and `send` takes the whole
payload or nothing. -/
structure Careful (cfg : Config) (me : Bytes) (id : UInt32) (s : System) (t : ThreadId) (a : Act) :
    Prop where
  terse : a.Terse
  first : OpensFirst me id s
  room {ctx : MsgCtx} {d : DataMessage} : (s.loc .msg).pc = .dataing ctx d .check →
    ctx.clientId = me → d.streamId = id → d.payload.length ≤ cfg.egress.maxPayloadBytes.toNat
  calm {ctx : MsgCtx} {d : DataMessage} {pc : DataPc} {what : Option Bytes} : t = .msg →
    a = .throw what → (s.loc .msg).pc = .dataing ctx d pc → ctx.clientId = me → d.streamId = id →
    ∃ c r p, (s.loc .msg).call = some ⟨c, .tear r p⟩
  whole {ctx : MsgCtx} {d : DataMessage} {r : Ref} {fd x : Int} : t = .msg → a = .sendRet x →
    (s.loc .msg).pc = .dataing ctx d (.send r fd) → ctx.clientId = me → d.streamId = id →
    x ≤ 0 ∨ x = d.payload.length

section Records

variable {n : Node} {t : ThreadId} {l l' : Loc t} {a : Act} {es : List Event} {me : Bytes}
  {id : UInt32} {k : Sock}

/-- Only the message thread hears and feeds. -/
theorem Records.others (records : Records n t l a l' es) (other : t ≠ .msg) :
    heard me id es = [] ∧ fed k es = [] := by
  cases records with
  | aside aside => exact ⟨heard_aside me id aside, fed_aside k aside⟩
  | speaks | pulls => exact ⟨rfl, rfl⟩
  | hears | feeds => exact absurd rfl other

/-- The message thread hears between messages and feeds in `handleData`. -/
theorem Records.quiet {l l' : Thread MsgPc} (records : Records n .msg l a l' es)
    (parses : ∀ ctx, l ≠ ⟨.parsing ctx, none⟩)
    (sends : ∀ ctx d r fd, l ≠ ⟨.dataing ctx d (.send r fd), none⟩) :
    heard me id es = [] ∧ fed k es = [] := by
  cases records with
  | aside aside => exact ⟨heard_aside me id aside, fed_aside k aside⟩
  | speaks => exact ⟨rfl, rfl⟩
  | hears => exact absurd rfl (parses _)
  | feeds => exact absurd rfl (sends _ _ _ _)

end Records

section Runs

variable {cfg : Config} {ok : System → ThreadId → Act → Prop} {s s' : System} {t : ThreadId}
  {a : Act} {me : Bytes} {id : UInt32}

/-- `handleData` feeds the socket of the stream it has found. -/
theorem fed_records {l' : Loc t} {es : List Event} (owned : Owned s)
    (records : Records s.shared t (s.loc t) a l' es) (k : Sock) :
    fed k es = [] ∨ t = .msg ∧ ∃ ctx d r fd, (s.loc .msg) = ⟨.dataing ctx d (.send r fd), none⟩ ∧
      Named s.shared ctx.clientId d.streamId r ∧ (s.shared.heap r).sock = k := by
  generalize here : s.loc t = l at records
  cases records with
  | aside aside => exact .inl (fed_aside k aside)
  | speaks | hears | pulls => exact .inl rfl
  | @feeds ctx d r fd k' sent _ good =>
      by_cases same : k' = k
      · subst same
        have ok := (owned.loc .msg).pos.1
        rw [here] at ok
        exact .inr ⟨rfl, ctx, d, r, fd, here, ok.1, (ok.2 _ good).symm⟩
      · exact .inl (by simp [fed, Event.fed, same])

/-- A socket that belongs to no stream was fed nothing. -/
theorem fed_of_unowned (h : Reaches cfg s) {k : Sock}
    (unowned : ∀ r, r < s.shared.nextRef → (s.shared.heap r).sock ≠ k) : fed k s.shared.log = [] := by
  revert unowned
  refine Reach.invariant (I := fun s => (∀ r, r < s.shared.nextRef → (s.shared.heap r).sock ≠ k) →
    fed k s.shared.log = []) (fun _ => rfl) ?_ h
  intro s s' t a reached before _ next unowned
  obtain ⟨l, n, m, rfl⟩ := next_move next
  obtain ⟨es, log, records⟩ := m.records
  have owned := Reaches.owned reached
  have e := (m.own owned.shared (owned.loc t)).1
  have unowned₀ : ∀ r, r < s.shared.nextRef → (s.shared.heap r).sock ≠ k := by
    intro r low same
    have ident := e.ident low
    exact unowned r ident.1 (ident.2.2.2.trans same)
  change fed k n.log = []
  rw [log, fed_append, before unowned₀, List.nil_append]
  rcases fed_records owned records k with none_ | ⟨-, _, _, r, _, -, named, same⟩
  · exact none_
  · exact absurd same (unowned₀ r named.1)

/-- While `handleOpen` is at work for a stream no data of it has been heard. -/
theorem payload_of_opening (first : ∀ s t a, ok s t a → OpensFirst me id s)
    (h : ReachesBy cfg ok s) (opens : (s.loc .msg).pc.OpensAt (fun _ => True) me id) :
    payloadBytes (heard me id s.shared.log) = [] := by
  revert opens
  refine Reach.invariant (I := fun s => (s.loc .msg).pc.OpensAt (fun _ => True) me id →
    payloadBytes (heard me id s.shared.log) = []) (fun _ => rfl) ?_ h
  intro s s' t a reached before allowed next opens
  obtain ⟨l, n, m, rfl⟩ := next_move next
  obtain ⟨es, log, records⟩ := m.records
  change payloadBytes (heard me id n.log) = []
  rw [log, heard_append, payloadBytes_append]
  by_cases mine : t = .msg
  · subst mine
    simp only [Function.update_self] at opens
    generalize here : s.loc .msg = l₀ at m records
    rcases m.opensAt (fun _ _ => trivial) opens with old | takes
    · have quiet : heard me id es = [] ∧ fed 0 es = [] := records.quiet
        (fun ctx same => by rw [same] at old; exact old)
        (fun ctx d r fd same => by rw [same] at old; exact old)
      rw [before (by rw [here]; exact old), quiet.1]
      rfl
    · rw [first _ _ _ allowed (by rw [here]; exact takes)]
      obtain ⟨ctx, q, len, at_, mine, stream, frame⟩ := takes
      cases records with
      | aside aside => rw [heard_aside me id aside]; rfl
      | speaks | feeds => rfl
      | @hears ctx' m' len' _ frame' =>
          cases at_
          rw [frame] at frame'
          cases frame'
          rw [heard_received]
          split <;> rfl
  · simp only [Function.update_of_ne (Ne.symm mine)] at opens
    have others : heard me id es = [] ∧ fed 0 es = [] := records.others mine
    rw [before opens, others.1]
    rfl

/-- A payload that `handleData` is about to check was heard. -/
theorem heard_of_dataing {ctx : MsgCtx} {d : DataMessage} (h : ReachesBy cfg ok s)
    (at_ : (s.loc .msg).pc = .dataing ctx d .check) :
    .data d ∈ heard ctx.clientId d.streamId s.shared.log := by
  revert at_
  refine Reach.invariant (I := fun s => (s.loc .msg).pc = .dataing ctx d .check →
    .data d ∈ heard ctx.clientId d.streamId s.shared.log) ?_ ?_ h
  · intro at_
    cases at_
  intro s s' t a _ before _ next at_
  obtain ⟨l, n, m, rfl⟩ := next_move next
  obtain ⟨es, log, -⟩ := m.records
  have grows (old : .data d ∈ heard ctx.clientId d.streamId s.shared.log) :
      .data d ∈ heard ctx.clientId d.streamId n.log := by
    rw [log, heard_append]
    exact List.mem_append_left _ old
  by_cases mine : t = .msg
  · subst mine
    simp only [Function.update_self] at at_
    generalize here : s.loc .msg = l₀ at m
    cases m with
    | call =>
        refine grows (before ?_)
        rw [here]
        exact at_
    | @ret pc =>
        refine grows (before ?_)
        rw [here]
        cases pc with
        | dataing _ _ dpc =>
            cases dpc with
            | closing => cases at_
            | _ => exact at_
        | closing =>
            simp only [MsgPc.resume] at at_
            split at at_
            · cases at_
            · cases at_
        | _ => exact at_
    | base move =>
        cases move with
        | dispatchData =>
            cases at_
            simp [Node.emit, heard, Event.heard, DecodedMessage.streamId]
        | dataing move =>
            cases at_
            cases move
        | _ => cases at_
  · simp only [Function.update_of_ne (Ne.symm mine)] at at_
    exact grows (before at_)

/-- A step of `handleData` decides the fate of the payload. -/
theorem dataing_fate {ctx : MsgCtx} {d : DataMessage} {pc : DataPc} {n n' : Node} {l' : Thread MsgPc}
    (h : step cfg .msg ⟨.dataing ctx d pc, none⟩ n a = some (l', n'))
    (room : pc = .check → d.payload.length ≤ cfg.egress.maxPayloadBytes.toNat)
    (calm : ∀ what, a ≠ .throw what) :
    ∃ out, DataFate ctx.clientId d n pc a out n' ∧
      l' = match out with
        | .more pc' => ⟨.dataing ctx d pc', none⟩
        | .close r call => ⟨.dataing ctx d (.closing r), some ⟨call, .enter⟩⟩
        | .returned => ⟨.parsing ctx, none⟩ := by
  change (dataStep cfg ctx.clientId d pc n a).map _ = some (l', n') at h
  rw [Option.map_eq_some_iff] at h
  obtain ⟨⟨out, m⟩, taken, same⟩ := h
  cases out with
  | more | close | returned =>
      cases same
      exact ⟨_, dataStep_fate taken room calm, rfl⟩

/-- A stream that `handleData` cannot serve any more is over. -/
theorem over_of_lost (terse : TerseRun ok) (h : ReachesBy cfg ok s) {r : Ref}
    (named : Named s.shared me id r) (absent : s.shared.streams.lookup (keyFor me id) = none)
    (busy : ¬ (s.loc .msg).pc.OpensAt OpenPc.Storing me id) : Over me id s :=
  ⟨absent, busy, heard_of_found terse h named⟩

/-- A stream object that is closed is not in `streams_`. -/
theorem absent_of_closed (h : Reaches cfg s) (single : Single me id s) {r : Ref}
    (named : Named s.shared me id r)
    (closed : (s.shared.heap r).fd < 0 ∨ (s.shared.heap r).closed = true) :
    s.shared.streams.lookup (keyFor me id) = none := by
  have owned := Reaches.owned h
  rw [Option.eq_none_iff_forall_not_mem]
  intro r' found
  have found' : s.shared.streams.lookup (keyFor me id) = some r' := found
  cases single.sole r' r (owned.shared.named found') named
  have unclosed := owned.shared.unclosed found'
  rcases closed with gone | closed
  · exact absurd (owned.shared.attached named.1 unclosed).1 (not_le.mpr gone)
  · cases unclosed.symm.trans closed

end Runs

section Flow

variable {cfg : Config} {ok : System → ThreadId → Act → Prop} {s : System} {t : ThreadId} {a : Act}
  {me : Bytes} {id : UInt32} {r : Ref}

/-- What a step adds to the two sides of the account. -/
structure Grown (me : Bytes) (id : UInt32) (r : Ref) (s s' : System) (fed' heard' : Bytes) : Prop where
  fed : fed (s'.shared.heap r).sock s'.shared.log = fed (s.shared.heap r).sock s.shared.log ++ fed'
  heard : payloadBytes (heard me id s'.shared.log) = payloadBytes (heard me id s.shared.log) ++ heard'

/-- Nothing was added, and nothing of the stream is in hand before or after. -/
theorem UpFlow.idle {s' : System} (flow : UpFlow me id r s) (grown : Grown me id r s s' [] [])
    (hand : inHand me id (s'.loc .msg).pc = inHand me id (s.loc .msg).pc)
    (dead : GivesUp me id (s.loc .msg) ∨ Over me id s ∧ ¬ (s.loc .msg).pc.Writes me id →
      GivesUp me id (s'.loc .msg) ∨ Over me id s' ∧ ¬ (s'.loc .msg).pc.Writes me id) :
    UpFlow me id r s' := by
  unfold UpFlow
  rw [grown.fed, grown.heard, hand, List.append_nil, List.append_nil]
  rcases flow with all | ⟨some_, lost⟩
  · exact .inl all
  · exact .inr ⟨some_, dead lost⟩

/-- Nothing was added, and what is in hand is lost. -/
theorem UpFlow.lost {s' : System} (flow : UpFlow me id r s) (grown : Grown me id r s s' [] [])
    (dead : GivesUp me id (s'.loc .msg) ∨ Over me id s' ∧ ¬ (s'.loc .msg).pc.Writes me id) :
    UpFlow me id r s' := by
  refine .inr ⟨?_, dead⟩
  rw [grown.fed, grown.heard, List.append_nil, List.append_nil]
  exact flow.isPrefix

/-- A `send` of `handleData` that takes the whole payload. -/
theorem UpFlow.sent {s' : System} {ctx : MsgCtx} {d : DataMessage} {fd : Int}
    (flow : UpFlow ctx.clientId d.streamId r s)
    (here : s.loc .msg = ⟨.dataing ctx d (.send r fd), none⟩)
    (grown : Grown ctx.clientId d.streamId r s s' d.payload [])
    (after : inHand ctx.clientId d.streamId (s'.loc .msg).pc = []) :
    UpFlow ctx.clientId d.streamId r s' := by
  rcases flow with flow | ⟨-, ⟨_, _, _, _, same, -⟩ | ⟨-, writes⟩⟩
  · refine .inl ?_
    rw [grown.fed, grown.heard, ← flow, here, after]
    simp [inHand, DataPc.unsent]
  · cases here.symm.trans same
  · rw [here] at writes
    exact absurd ⟨rfl, rfl⟩ writes

variable {l : Loc t} {n : Node} {es : List Event}

theorem grown_of_move (owned : Owned s) (m : Move cfg t s.shared (s.loc t) a l n)
    (log : n.log = s.shared.log ++ es) (old : r < s.shared.nextRef) {f g : Bytes}
    (fed_ : fed (s.shared.heap r).sock es = f) (heard_ : payloadBytes (heard me id es) = g) :
    Grown me id r s ⟨Function.update s.loc t l, n⟩ f g := by
  have same := ((m.own owned.shared (owned.loc t)).1.ident old).2.2.2
  constructor
  · change fed (n.heap r).sock n.log = _
    rw [same, log, fed_append, fed_]
  · change payloadBytes (heard me id n.log) = _
    rw [log, heard_append, payloadBytes_append, heard_]

/-- A step of another thread. -/
theorem UpFlow.other (flow : UpFlow me id r s) (other : t ≠ .msg) (first : OpensFirst me id s)
    (next : (machine cfg).next s t a = some ⟨Function.update s.loc t l, n⟩)
    (grown : Grown me id r s ⟨Function.update s.loc t l, n⟩ [] []) :
    UpFlow me id r ⟨Function.update s.loc t l, n⟩ := by
  have same : (Function.update s.loc t l) .msg = s.loc .msg := Function.update_of_ne (Ne.symm other) _ _
  refine flow.idle grown (by simp only [same]) ?_
  simp only [same]
  rintro (gives | ⟨ended, writes⟩)
  · exact .inl gives
  · exact .inr ⟨ended.next first next, writes⟩

/-- A handler in `closeStream`, and where it goes on behind it, holds the same bytes and neither
writes nor stores a stream. -/
theorem MsgPc.Calls.idle {pc pc' : MsgPc} (calls : pc.Calls)
    (goes : pc' = pc ∨ ∃ had, pc' = pc.resume had) :
    inHand me id pc' = inHand me id pc ∧ ¬ pc'.Writes me id ∧
      ¬ pc'.OpensAt OpenPc.Storing me id := by
  cases pc with
  | dataing ctx d dpc =>
      cases dpc with
      | closing =>
          rcases goes with rfl | ⟨had, rfl⟩
          · exact ⟨rfl, fun h => h, fun h => h⟩
          · exact ⟨by simp [MsgPc.resume, inHand, DataPc.unsent], fun h => h, fun h => h⟩
      | _ => exact calls.elim
  | closing =>
      rcases goes with rfl | ⟨had, rfl⟩
      · exact ⟨rfl, fun h => h, fun h => h⟩
      · cases had with
        | true | false => exact ⟨rfl, fun h => h, fun h => h⟩
  | _ => exact calls.elim

/-- A step of the message thread in `closeStream`. -/
theorem UpFlow.call {pc : MsgPc} {k : Closing} {l' : Thread MsgPc} (terse : TerseRun ok)
    (h : ReachesBy cfg ok s) (named : Named s.shared me id r)
    (here : s.loc .msg = ⟨pc, some k⟩) (careful : Careful cfg me id s .msg a)
    (next : (machine cfg).next s .msg a = some ⟨Function.update s.loc .msg l', n⟩)
    (m : Move cfg .msg s.shared (s.loc .msg) a l' n)
    (grown : Grown me id r s ⟨Function.update s.loc .msg l', n⟩ [] [])
    (flow : UpFlow me id r s) : UpFlow me id r ⟨Function.update s.loc .msg l', n⟩ := by
  have calls : pc.Calls := by
    have pos := ((Reaches.owned h.any).loc .msg).pos.2
    rw [here] at pos
    exact pos rfl
  rw [here] at m
  have goes : l'.pc = pc ∨ ∃ had, l'.pc = pc.resume had := by
    cases m with
    | call => exact .inl rfl
    | ret => exact .inr ⟨_, rfl⟩
  obtain ⟨hand, writes, past⟩ := calls.idle goes
  refine flow.idle grown ?_ ?_
  · simp only [Function.update_self, here]
    exact hand
  simp only [Function.update_self]
  rintro (⟨ctx, d, r', c, at_, mine, stream, client, streamId⟩ | ⟨ended, -⟩)
  · -- the call that gives the stream up is at its first step
    cases here.symm.trans at_
    subst client
    subst streamId
    have calm (what : Option Bytes) (thrown : a = .throw what) :
        s.shared.streams.lookup (keyFor c.clientId c.streamId) = none := by
      obtain ⟨_, _, _, tearing⟩ := careful.calm rfl thrown (by rw [here]) mine stream
      rw [here] at tearing
      cases tearing
    refine .inr ⟨⟨absent_of_enter m calm, ?_, ?_⟩, writes⟩
    · simpa using past
    · exact heard_next next (heard_of_found terse h named)
  · exact .inr ⟨ended.next careful.first next, writes⟩

/-- A step of `handleData` for the stream. -/
theorem UpFlow.handles {ctx : MsgCtx} {d : DataMessage} {pc : DataPc} {l' : Thread MsgPc}
    (terse : TerseRun ok) (h : ReachesBy cfg ok s) (single : Single me id s)
    (named : Named s.shared me id r) (here : s.loc .msg = ⟨.dataing ctx d pc, none⟩)
    (mine : ctx.clientId = me) (stream : d.streamId = id) (careful : Careful cfg me id s .msg a)
    (next : (machine cfg).next s .msg a = some ⟨Function.update s.loc .msg l', n⟩)
    (taken : step cfg .msg (s.loc .msg) s.shared a = some (l', n)) (flow : UpFlow me id r s) :
    UpFlow me id r ⟨Function.update s.loc .msg l', n⟩ := by
  subst mine
  subst stream
  have owned := Reaches.owned h.any
  have m : Move cfg .msg s.shared (s.loc .msg) a l' n := step_move taken
  obtain ⟨es, log, records⟩ := m.records
  have data := (owned.loc .msg).pos.1
  rw [here] at data
  have calm : ∀ what, a ≠ .throw what := by
    rintro what rfl
    obtain ⟨_, _, _, tearing⟩ := careful.calm rfl rfl (by rw [here]) rfl rfl
    rw [here] at tearing
    cases tearing
  have whole {r' : Ref} {fd x : Int} (at_ : pc = .send r' fd) (act : a = .sendRet x) :
      x ≤ 0 ∨ x = d.payload.length := careful.whole rfl act (by rw [here, at_]) rfl rfl
  obtain ⟨out, fate, after⟩ := dataing_fate (by rw [here] at taken; exact taken)
    (fun check => careful.room (by rw [here, check]) rfl rfl) calm
  have quiet (unsends : ∀ r fd, pc ≠ .send r fd) :
      Grown ctx.clientId d.streamId r s ⟨Function.update s.loc .msg l', n⟩ [] [] := by
    rw [here] at records
    have none_ : heard ctx.clientId d.streamId es = [] ∧ fed (s.shared.heap r).sock es = [] :=
      records.quiet nofun (fun _ _ r fd same => unsends r fd (by cases same; rfl))
    refine grown_of_move owned m log named.1 none_.2 ?_
    rw [none_.1]
    rfl
  have busy : ¬ (s.loc .msg).pc.OpensAt OpenPc.Storing ctx.clientId d.streamId := by
    rw [here]
    exact fun h => h
  -- a payload that is dropped because the stream is gone
  have drops (absent : s.shared.streams.lookup (keyFor ctx.clientId d.streamId) = none)
      (unsends : ∀ r fd, pc ≠ .send r fd) (returns : l' = ⟨.parsing ctx, none⟩) :
      UpFlow ctx.clientId d.streamId r ⟨Function.update s.loc .msg l', n⟩ := by
    refine flow.lost (quiet unsends)
      (.inr ⟨(over_of_lost terse h named absent busy).next careful.first next, ?_⟩)
    simp only [Function.update_self, returns]
    exact fun h => h
  have calls : ¬ GivesUp ctx.clientId d.streamId (s.loc .msg) := by
    rintro ⟨_, _, _, _, same, -⟩
    cases here.symm.trans same
  -- a step after which the same bytes are in hand
  have goes {pc' : MsgPc} (returns : l' = ⟨pc', none⟩) (unsends : ∀ r fd, pc ≠ .send r fd)
      (hand : inHand ctx.clientId d.streamId pc' = inHand ctx.clientId d.streamId (.dataing ctx d pc))
      (writes : pc'.Writes ctx.clientId d.streamId →
        (MsgPc.dataing ctx d pc).Writes ctx.clientId d.streamId ∨
          s.shared.streams.lookup (keyFor ctx.clientId d.streamId) ≠ none) :
      UpFlow ctx.clientId d.streamId r ⟨Function.update s.loc .msg l', n⟩ := by
    refine flow.idle (quiet unsends) ?_ ?_
    · simp only [Function.update_self, here, returns, hand]
    · rintro (gives | ⟨ended, idle⟩)
      · exact absurd gives calls
      · refine .inr ⟨ended.next careful.first next, ?_⟩
        simp only [Function.update_self, returns]
        rw [here] at idle
        intro now
        rcases writes now with before | present
        · exact idle before
        · exact present ended.absent
  cases fate with
  | checked => exact goes after nofun (by simp [inHand, DataPc.unsent]) False.elim
  | found found =>
      refine goes after nofun (by simp [inHand, DataPc.unsent]) fun _ => .inr ?_
      rw [found]
      nofun
  | passed | loaded => exact goes after nofun (by simp [inHand, DataPc.unsent]) .inl
  | empty nothing => exact goes after nofun (by simp [inHand, nothing]) False.elim
  | touched => exact goes after nofun (by simp [inHand, DataPc.unsent]) False.elim
  | absent absent => exact drops absent nofun after
  | closed closed =>
      have mine : Named s.shared ctx.clientId d.streamId _ := data
      cases single.sole _ r mine named
      exact drops (absent_of_closed h.any single named closed) nofun after
  | @written r' fd k x good some_ bound =>
      cases single.sole r' r data.1 named
      cases data.2 k good
      have all : x.toNat = d.payload.length := by
        rcases whole rfl rfl with none_ | all
        · omega
        · omega
      have grown : Grown ctx.clientId d.streamId r s ⟨Function.update s.loc .msg l',
          s.shared.emit (.tcpSend (s.shared.heap r).sock d.payload x)⟩ d.payload [] := by
        refine grown_of_move owned m rfl named.1 ?_ rfl
        simp [fed, Event.fed, all]
      refine flow.sent here grown ?_
      simp [after, inHand, DataPc.unsent]
  | @refused r' fd _ x none_ log' =>
      have grown : Grown ctx.clientId d.streamId r s ⟨Function.update s.loc .msg l', n⟩ [] [] := by
        rcases log' with same | ⟨k, one⟩
        · exact grown_of_move owned m (by rw [same, List.append_nil]) named.1 rfl rfl
        · refine grown_of_move owned m one named.1 ?_ rfl
          have zero : x.toNat = 0 := by omega
          simp [fed, Event.fed, zero]
      refine flow.lost grown (.inl ?_)
      simp only [Function.update_self, after]
      exact ⟨_, _, _, _, rfl, rfl, rfl, rfl, rfl⟩

/-- A step of the message thread between messages. -/
theorem UpFlow.parses {ctx : MsgCtx} {l' : Thread MsgPc} (h : ReachesBy cfg ok s)
    (named : Named s.shared me id r) (here : s.loc .msg = ⟨.parsing ctx, none⟩)
    (first : OpensFirst me id s)
    (next : (machine cfg).next s .msg a = some ⟨Function.update s.loc .msg l', n⟩)
    (m : Move cfg .msg s.shared (s.loc .msg) a l' n) (flow : UpFlow me id r s) :
    UpFlow me id r ⟨Function.update s.loc .msg l', n⟩ := by
  have owned := Reaches.owned h.any
  -- the message that is taken up, and the bytes of it that are in hand then
  have hears {msg : DecodedMessage} (log : n.log = s.shared.log ++ [Event.received ctx.clientId msg])
      (hand : inHand me id l'.pc =
        if ctx.clientId = me ∧ msg.streamId = id then payloadBytes [msg] else [])
      (writes : ¬ l'.pc.Writes me id) : UpFlow me id r ⟨Function.update s.loc .msg l', n⟩ := by
    have grown : Grown me id r s ⟨Function.update s.loc .msg l', n⟩ []
        (inHand me id l'.pc) := by
      refine grown_of_move owned m log named.1 rfl ?_
      rw [heard_received, hand]
      split
      · rfl
      · rfl
    rcases flow with all | ⟨some_, gives | ⟨ended, -⟩⟩
    · refine .inl ?_
      rw [grown.fed, grown.heard, ← all, here]
      simp [inHand]
    · obtain ⟨_, _, _, _, same, -⟩ := gives
      cases here.symm.trans same
    · refine .inr ⟨?_, .inr ⟨ended.next first next, by simpa using writes⟩⟩
      rw [grown.fed, grown.heard, List.append_nil]
      exact some_.trans (List.prefix_append _ _)
  have move := m
  rw [here] at move
  cases move with
  | base move =>
      cases move with
      | leave =>
          have grown : Grown me id r s ⟨Function.update s.loc .msg { pc := .waiting }, s.shared⟩ [] [] :=
            ⟨(List.append_nil _).symm, (List.append_nil _).symm⟩
          refine flow.idle grown ?_ ?_
          · simp only [Function.update_self, here, inHand]
          · rintro (gives | ⟨ended, -⟩)
            · obtain ⟨_, _, _, _, same, -⟩ := gives
              cases here.symm.trans same
            · exact .inr ⟨ended.next first next, by simp [MsgPc.Writes]⟩
      | dispatchOpen => exact hears rfl (by simp [inHand, payloadBytes]) (fun h => h)
      | @dispatchData _ d =>
          refine hears rfl ?_ (fun h => h)
          simp [inHand, payloadBytes, DataPc.unsent, DecodedMessage.streamId]
      | dispatchClose => exact hears rfl (by simp [inHand, payloadBytes]) (fun h => h)
      | dispatchError => exact hears rfl (by simp [inHand, payloadBytes]) (fun h => h)

/-- A step of the message thread outside `closeStream` that is not for the stream. -/
theorem UpFlow.elsewhere {pc : MsgPc} {l' : Thread MsgPc} (h : ReachesBy cfg ok s)
    (named : Named s.shared me id r) (here : s.loc .msg = ⟨pc, none⟩)
    (reads : ∀ ctx, pc ≠ .parsing ctx)
    (apart : ∀ ctx d dpc, pc = .dataing ctx d dpc → ¬ (ctx.clientId = me ∧ d.streamId = id))
    (first : OpensFirst me id s)
    (next : (machine cfg).next s .msg a = some ⟨Function.update s.loc .msg l', n⟩)
    (m : Move cfg .msg s.shared (s.loc .msg) a l' n) (flow : UpFlow me id r s) :
    UpFlow me id r ⟨Function.update s.loc .msg l', n⟩ := by
  have owned := Reaches.owned h.any
  obtain ⟨es, log, records⟩ := m.records
  have unfed : fed (s.shared.heap r).sock es = [] := by
    rcases fed_records owned records (s.shared.heap r).sock with none_ | ⟨-, ctx, d, r', fd, at_, named', same⟩
    · exact none_
    · cases here.symm.trans at_
      cases owned.shared.sockInj named'.1 named.1 same
      exact absurd ⟨named'.2.1.symm.trans named.2.1, named'.2.2.symm.trans named.2.2⟩ (apart _ _ _ rfl)
  have unheard : heard me id es = [] := by
    rw [here] at records
    cases records with
    | aside aside => exact heard_aside me id aside
    | speaks | feeds => rfl
    | hears => exact absurd rfl (reads _)
  have grown : Grown me id r s ⟨Function.update s.loc .msg l', n⟩ [] [] :=
    grown_of_move owned m log named.1 unfed (by rw [unheard, payloadBytes_nil])
  have move := m
  rw [here] at move
  have idle : inHand me id l'.pc = [] ∧ ¬ l'.pc.Writes me id := by
    have foreign {ctx : MsgCtx} {d : DataMessage} {dpc : DataPc}
        (other : ¬ (ctx.clientId = me ∧ d.streamId = id)) :
        inHand me id (.dataing ctx d dpc) = [] ∧ ¬ (MsgPc.dataing ctx d dpc).Writes me id := by
      refine ⟨if_neg fun h => other ⟨h.1, h.2.1⟩, ?_⟩
      cases dpc with
      | test | load | send => exact other
      | _ => exact fun h => h
    cases move with
    | base move =>
        cases move with
        | leave | dispatchOpen | dispatchData | dispatchClose | dispatchError =>
            exact absurd rfl (reads _)
        | dataing | dataCloses => exact foreign (apart _ _ _ rfl)
        | _ => exact ⟨rfl, fun h => h⟩
  have before : inHand me id pc = [] := by
    cases pc with
    | dataing ctx d dpc => exact if_neg fun h => apart ctx d dpc rfl ⟨h.1, h.2.1⟩
    | _ => rfl
  refine flow.idle grown ?_ ?_
  · simp only [Function.update_self, here, idle.1, before]
  · rintro (⟨_, _, _, _, same, -⟩ | ⟨ended, -⟩)
    · cases here.symm.trans same
    · exact .inr ⟨ended.next first next, by simpa using idle.2⟩

end Flow

/-- **The socket of a stream takes the bytes that were heard, in order.** -/
theorem upFlow_of_reach {cfg : Config} {ok : System → ThreadId → Act → Prop} {s : System} {me : Bytes}
    {id : UInt32} {r : Ref} (careful : ∀ s t a, ok s t a → Careful cfg me id s t a)
    (h : ReachesBy cfg ok s) (named : Named s.shared me id r) : UpFlow me id r s := by
  have terse : TerseRun ok := fun s t a allowed => (careful s t a allowed).terse
  have first : ∀ s t a, ok s t a → OpensFirst me id s := fun s t a allowed => (careful s t a allowed).first
  revert named
  refine Reach.invariant (I := fun s => Named s.shared me id r → UpFlow me id r s) ?_ ?_ h
  · exact fun named => absurd named.1 (Nat.not_lt_zero _)
  intro s s' t a reached before allowed next named
  obtain ⟨l, n, taken, rfl⟩ := Interleaving.Machine.next_eq_some next
  have m := step_move taken
  have owned := Reaches.owned reached.any
  have single := single_of_reach terse first reached
  obtain ⟨es, log, records⟩ := m.records
  rcases named.before owned.shared (owned.loc t) m with old | new
  · have flow := before old
    by_cases mine : t = .msg
    · subst mine
      generalize here : s.loc .msg = l₀
      obtain ⟨pc, call⟩ := l₀
      cases call with
      | some k =>
          have quiet := records
          rw [here] at quiet
          have none_ : heard me id es = [] ∧ fed (s.shared.heap r).sock es = [] := quiet.quiet nofun nofun
          refine flow.call terse reached old here (careful _ _ _ allowed) next m ?_
          exact grown_of_move owned m log old.1 none_.2 (by rw [none_.1]; rfl)
      | none =>
          by_cases parses : ∃ ctx, pc = .parsing ctx
          · obtain ⟨ctx, rfl⟩ := parses
            exact flow.parses reached old here (first _ _ _ allowed) next m
          · by_cases about : ∃ ctx d dpc, pc = .dataing ctx d dpc ∧ ctx.clientId = me ∧ d.streamId = id
            · obtain ⟨ctx, d, dpc, rfl, mine, stream⟩ := about
              exact flow.handles terse reached single old here mine stream (careful _ _ _ allowed) next taken
            · refine flow.elsewhere reached old here (fun ctx same => parses ⟨ctx, same⟩) ?_
                (first _ _ _ allowed) next m
              rintro ctx d dpc rfl ⟨mine, stream⟩
              exact about ⟨ctx, d, dpc, rfl, mine, stream⟩
    · have none_ : heard me id es = [] ∧ fed (s.shared.heap r).sock es = [] := records.others mine
      exact flow.other mine (first _ _ _ allowed) next
        (grown_of_move owned m log old.1 none_.2 (by rw [none_.1]; rfl))
  · -- the stream was made in this step: no data was heard, and its socket was fed nothing
    rcases m.made owned.shared (owned.loc t) named.1 with old | makes
    · exact absurd old new
    · rw [named.2.1, named.2.2] at makes
      cases makes.thread
      generalize here : s.loc .msg = l₀ at makes
      cases makes with
      | @mk ctx q fd client stream =>
          have pos := (owned.loc .msg).pos.1
          rw [here] at pos
          have unfed := fed_of_unowned reached.any pos.2.2
          have unheard := payload_of_opening first reached (by rw [here]; exact ⟨client, stream, trivial⟩)
          rw [here] at records m
          have none_ : heard me id es = [] ∧ fed (n.heap r).sock es = [] := records.quiet nofun nofun
          have hand : inHand me id l.pc = [] := by
            cases m with
            | base move =>
                cases move with
                | opening => rfl
                | opened move | openEscaped move => cases move
          refine .inl ?_
          simp only [Function.update_self]
          rw [log, fed_append, heard_append, payloadBytes_append, unfed, unheard, none_.1, none_.2, hand]
          rfl

end TonTunnel.Egress
