import TonTunnel.Tunnel.System
import TonTunnel.Tunnel.Upstream

/-!
A connection that delivers the client's packets once and in order.

In a run whose steps are `reliable` the messages of a stream that the server has
heard, and the one that its message thread is about to take up, are those of the
packets that were delivered (`inStep_of_reach`). So the OPEN of a stream is the
first message that the server takes up for it.
-/

namespace TonTunnel.Tunnel

open Interleaving
open Egress (heard MsgPc MsgCtx)
open Socks (up Lone Called Framed Opened Unended Says)

/-- The message of the stream that the message thread has in its hands and has not taken up. -/
def pending (me : Bytes) (id : UInt32) : MsgPc → List DecodedMessage
  | .parsing ctx =>
      if ctx.clientId = me ∧ ctx.offset = 0 then
        (messageOf ctx.payload).toList.filter (·.streamId = id)
      else []
  | _ => []

/-- The connection delivers the client's packets in order, and no exception keeps the server from
taking up a message of the stream. -/
def reliable (u : Setup) (id : UInt32) (s : State) : ThreadId → Act → Bool
  | .inl _, .inl (.deliver sender packet) =>
      sender ≠ u.me || (client s).core.sent[s.link]? = some packet
  | .inl .msg, .inl (.throw _) => (pending u.me id (s.left.loc .msg).pc).isEmpty
  | _, _ => true

/-- What the server heard of the stream and has in its hands is what was delivered. -/
structure InStep (u : Setup) (id : UInt32) (s : State) : Prop where
  bound : s.link ≤ (client s).core.sent.length
  account : heard u.me id (node s).log ++ pending u.me id (s.left.loc .msg).pc =
    up id ((client s).core.sent.take s.link)

section Steps

variable {u : Setup} {id : UInt32} {n n' : Egress.Node} {l l' : Egress.Thread MsgPc}
  {a : Egress.Act} {sent : List Bytes}

theorem messageOf_framed {packet : Bytes} (framed : Framed packet) :
    ∃ m, messageOf packet = some m ∧ packet ≠ [] := by
  obtain ⟨m, within, -, rfl⟩ := framed
  refine ⟨m, messageOf_encodeClient within, ?_⟩
  intro empty
  have length := congrArg List.length empty
  rw [length_encodeClient] at length
  simp at length

/-- A payload that is used up is not pending. -/
theorem pending_of_behind {ctx : MsgCtx} (behind : ctx.offset = ctx.payload.length)
    (some_ : ctx.payload ≠ []) : pending u.me id (.parsing ctx) = [] := by
  refine if_neg ?_
  rintro ⟨-, start⟩
  rw [start] at behind
  exact some_ (List.length_eq_zero_iff.mp behind.symm)

theorem pending_of_foreign {ctx : MsgCtx} (foreign : ctx.clientId ≠ u.me) :
    pending u.me id (.parsing ctx) = [] := if_neg fun h => foreign h.1

/-- The message thread gives a payload up when it is used up or malformed, or by an exception. -/
theorem leave_of_step {cfg : Config} {ctx : MsgCtx}
    (h : Egress.step cfg .msg ⟨.parsing ctx, none⟩ n a = some (⟨.waiting, none⟩, n')) :
    (∃ what, a = .throw what) ∨ ctx.payload.length ≤ ctx.offset ∨
      ∃ e, parseFrame ctx.payload ctx.offset = .error e := by
  change Egress.msgStep cfg (.parsing ctx) n a = some (⟨.waiting, none⟩, n') at h
  unfold Egress.msgStep at h
  simp only at h
  split at h
  · split at h
    · next within =>
        split at h
        · next e fault => exact .inr (.inr ⟨e, fault⟩)
        · split at h <;> cases h
    · next behind => exact .inr (.inl (not_lt.mp behind))
  · exact .inl ⟨_, rfl⟩
  · cases h

/-- A frame that is taken up in a packet of the client is the one that was pending. -/
theorem pending_of_frame {ctx : MsgCtx} {m : DecodedMessage} {len : Nat}
    (handles : Handles u sent (.parsing ctx)) (frames : ∀ p ∈ sent, Framed p)
    (frame : parseFrame ctx.payload ctx.offset = .ok (m, len)) :
    pending u.me id (.parsing ctx) = heard u.me id [.received ctx.clientId m] ∧
      pending u.me id (.parsing { ctx with offset := ctx.offset + len }) = [] := by
  rw [Egress.heard_received]
  by_cases mine : ctx.clientId = u.me
  · obtain ⟨mem, message, whole⟩ := handles.frame mine frames frame
    have start : ctx.offset = 0 := by
      have some_ := parseFrame_pos frame
      obtain ⟨-, behind | ⟨-, start⟩⟩ := handles ctx rfl mine
      · omega
      · exact start
    refine ⟨?_, pending_of_behind whole (messageOf_framed (frames _ mem)).choose_spec.2⟩
    rw [pending, if_pos ⟨mine, start⟩, message]
    simp [mine, List.filter_cons]
  · refine ⟨?_, pending_of_foreign mine⟩
    rw [pending_of_foreign mine, if_neg fun h => mine h.1]

/-- What the message thread hears it had in its hands. -/
theorem pending_step (taken : Egress.step u.cfg .msg l n a = some (l', n'))
    (handles : Handles u sent l.pc) (frames : ∀ p ∈ sent, Framed p)
    (undelivered : ∀ p, a ≠ .deliver u.me p)
    (calm : ∀ what, a = .throw what → pending u.me id l.pc = []) :
    heard u.me id n'.log ++ pending u.me id l'.pc = heard u.me id n.log ++ pending u.me id l.pc := by
  have m : Egress.Move u.cfg .msg n l a l' n' := Egress.step_move taken
  obtain ⟨es, log, records⟩ := m.records
  have unheard (busy : ∀ ctx, l ≠ ⟨.parsing ctx, none⟩) : heard u.me id n'.log = heard u.me id n.log := by
    rw [log, Egress.heard_append]
    cases records with
    | aside aside => rw [Egress.heard_aside u.me id aside, List.append_nil]
    | speaks | feeds => exact List.append_nil _
    | hears => exact absurd rfl (busy _)
  -- the payload of a message that is being handled has been used up
  have settled {ctx : MsgCtx} (at_ : ctxOf l.pc = some ctx) (busy : ∀ ctx, l.pc ≠ .parsing ctx) :
      pending u.me id (.parsing ctx) = [] := by
    by_cases mine : ctx.clientId = u.me
    · obtain ⟨mem, behind | ⟨reads, -⟩⟩ := handles ctx at_ mine
      · exact pending_of_behind behind (messageOf_framed (frames _ mem)).choose_spec.2
      · exact absurd reads (busy ctx)
    · exact pending_of_foreign mine
  cases m with
  | call => rw [unheard (by rintro _ ⟨⟩)]
  | @ret pc c cpc _ had _ move =>
      rw [unheard (by rintro _ ⟨⟩)]
      congr 1
      cases pc with
      | dataing ctx d dpc =>
          cases dpc with
          | closing => exact settled rfl (by rintro _ ⟨⟩)
          | _ => rfl
      | closing =>
          cases had with
          | true => exact settled rfl (by rintro _ ⟨⟩)
          | false => rfl
      | _ => rfl
  | base move =>
      cases move with
      | @deliver sender payload =>
          have foreign : sender ≠ u.me := by
            rintro rfl
            exact undelivered _ rfl
          have none_ : pending u.me id (.parsing ⟨sender, payload, 0⟩) = [] := pending_of_foreign foreign
          exact congrArg _ none_
      | @leave ctx =>
          refine congrArg _ (Eq.symm ?_)
          by_cases mine : ctx.clientId = u.me
          · obtain ⟨mem, whole | ⟨-, start⟩⟩ := handles ctx rfl mine
            · exact pending_of_behind whole (messageOf_framed (frames _ mem)).choose_spec.2
            · -- a packet that has not been looked at holds a frame
              obtain ⟨m, within, -, packet⟩ := frames _ mem
              have parsed := parseFrame_single within
              rw [← packet, ← start] at parsed
              rcases leave_of_step taken with ⟨what, thrown⟩ | behind | ⟨e, fault⟩
              · exact calm what thrown
              · have some_ := parseFrame_pos parsed
                have within := (parseFrame_sound parsed).2.2.1
                omega
              · rw [parsed] at fault
                cases fault
          · exact pending_of_foreign mine
      | dispatchOpen frame | dispatchData frame | dispatchClose frame =>
          rw [Egress.Node.emit, Egress.heard_append, (pending_of_frame handles frames frame).1]
          exact List.append_nil _
      | dispatchError frame =>
          rw [Egress.Node.emit, Egress.heard_append, (pending_of_frame handles frames frame).1,
            (pending_of_frame handles frames frame).2, List.append_nil]
      | opening | dataing | dataCloses | openEscaped => rw [unheard (by rintro _ ⟨⟩)]; rfl
      | opened | dataDone | closeReply | closeReplyThrows =>
          rw [unheard (by rintro _ ⟨⟩)]
          exact congrArg _ (settled rfl (by rintro _ ⟨⟩))

theorem tearStep_deliver {t : Egress.ThreadId} {call : Option Egress.CloseCall} {r : Egress.Ref}
    {p : Egress.TearPc} {sender packet : Bytes} :
    Egress.tearStep t call r p n (.deliver sender packet) = none := by
  cases p with
  | _ => rfl

theorem closeStep_deliver {t : Egress.ThreadId} {c : Egress.CloseCall} {pc : Egress.ClosePc}
    {sender packet : Bytes} : Egress.closeStep t c pc n (.deliver sender packet) = none := by
  cases pc with
  | enter =>
      simp only [Egress.closeStep]
      cases n.streams.lookup (keyFor c.clientId c.streamId) with
      | none | some => rfl
  | tear r p => simp only [Egress.closeStep, tearStep_deliver, Option.map_none]

/-- A packet is delivered to the message thread between payloads. -/
theorem deliver_msg {sender packet : Bytes} {cfg : Config}
    (h : Egress.step cfg .msg l n (.deliver sender packet) = some (l', n')) :
    l = ⟨.waiting, none⟩ ∧ l' = ⟨.parsing ⟨sender, packet, 0⟩, none⟩ ∧ n' = n := by
  obtain ⟨pc, call⟩ := l
  cases call with
  | some k =>
      change (Egress.closeStep .msg k.call k.pc n (.deliver sender packet)).map _ = _ at h
      rw [closeStep_deliver] at h
      cases h
  | none =>
      change Egress.msgStep cfg pc n (.deliver sender packet) = _ at h
      cases pc with
      | waiting =>
          simp only [Egress.msgStep] at h
          split at h
          · cases h
            exact ⟨rfl, rfl, rfl⟩
          · cases h
      | opening ctx q opc =>
          change (Egress.openStep cfg ctx.clientId q opc n (.deliver sender packet)).map _ = _ at h
          cases opc with
          | connect _ addrs =>
              cases addrs with
              | nil | cons => cases h
          | _ => cases h
      | dataing ctx d dpc =>
          change (Egress.dataStep cfg ctx.clientId d dpc n (.deliver sender packet)).map _ = _ at h
          cases dpc with
          | _ => cases h
      | _ => cases h

/-- No other thread is handed a packet. -/
theorem deliver_other {sender packet : Bytes} {cfg : Config} {t : Egress.ThreadId} {l : Egress.Loc t}
    (other : t ≠ .msg) : Egress.step cfg t l n (.deliver sender packet) = none := by
  have calls {Pc : Type} {resume : Bool → Pc → Pc}
      {base : Pc → Egress.Node → Egress.Act → Option (Egress.Thread Pc × Egress.Node)}
      {l : Egress.Thread Pc} (busy : base l.pc n (.deliver sender packet) = none) :
      Egress.Thread.step t resume base l n (.deliver sender packet) = none := by
    obtain ⟨pc, call⟩ := l
    cases call with
    | none => exact busy
    | some k => simp only [Egress.Thread.step, closeStep_deliver, Option.map_none]
  cases t with
  | msg => exact absurd rfl other
  | clock => rfl
  | main =>
      cases l with
      | tearing held todo p =>
          cases todo with
          | nil => rfl
          | cons r rest =>
              change (Egress.tearStep .main none r p n _).map _ = none
              rw [tearStep_deliver]
              rfl
      | _ => rfl
  | idle =>
      refine calls ?_
      cases l.pc with
      | closing stale =>
          cases stale with
          | nil | cons => rfl
      | _ => rfl
  | rx r =>
      refine calls ?_
      cases l.pc with
      | push rest =>
          cases rest with
          | nil | cons => rfl
      | _ => rfl

end Steps

section Runs

variable {u : Setup} {id : UInt32} {ok : State → ThreadId → Act → Prop} {s s' : State}

/-- The connection counts the packets of the client that it delivers, and nothing else. -/
theorem link_of_allowed {a : Egress.Act} {k : Nat} (undelivered : ∀ p, a ≠ .deliver u.me p)
    (allowed : (link u).left a s.shared = some k) : k = s.link := by
  cases a with
  | deliver sender packet =>
      simp only [link] at allowed
      split at allowed
      · next mine => exact absurd (by rw [mine]) (undelivered packet)
      · exact (Option.some.inj allowed).symm
  | _ =>
      simp only [link] at allowed
      split at allowed
      · exact (Option.some.inj allowed).symm
      · cases allowed

/-- The packet that is delivered next. -/
theorem InStep.deliver {packet : Bytes} (before : InStep u id s)
    (next : (client s).core.sent[s.link]? = some packet)
    (idle : pending u.me id (s.left.loc .msg).pc = [])
    (sent : (client s').core.sent = (client s).core.sent) (link : s'.link = s.link + 1)
    (log : (node s').log = (node s).log)
    (at_ : (s'.left.loc .msg).pc = .parsing ⟨u.me, packet, 0⟩) : InStep u id s' := by
  have low : s.link < (client s).core.sent.length := by
    by_contra high
    rw [List.getElem?_eq_none (not_lt.mp high)] at next
    cases next
  refine ⟨?_, ?_⟩
  · rw [sent, link]
    exact low
  · have account := before.account
    rw [idle, List.append_nil] at account
    rw [log, account, sent, link, at_, List.take_add_one, next, Socks.up_append, pending,
      if_pos ⟨rfl, rfl⟩]
    congr 1

/-- **What the server took up and is about to take up is what was delivered.** -/
theorem inStep_of_reach (ensures : ∀ s t a, ok s t a → reliable u id s t a = true)
    (h : Reach (machine u) ok initial s) : InStep u id s := by
  refine Reach.invariant (I := InStep u id) ⟨Nat.zero_le _, rfl⟩ ?_ h
  intro s s' t a reached before obeys next
  have linked := linked_of_reach reached
  have frames := Socks.sent_of_reach u.fits (client_of_reach reached)
  have good := ensures _ _ _ obeys
  cases Machine.couple_next next with
  | @left t a allowed moves still =>
      obtain ⟨l, n, taken, after⟩ := Machine.next_eq_some moves
      have sent : (client s').core.sent = (client s).core.sent := by rw [client, still]
      have log : (node s').log = n.log := by rw [node, after]
      by_cases mine : t = .msg
      · subst mine
        have at_ : s'.left.loc .msg = l := by simp [after]
        by_cases delivers : ∃ p, a = .deliver u.me p
        · obtain ⟨p, rfl⟩ := delivers
          obtain ⟨here, rfl, rfl⟩ := deliver_msg taken
          have link : s'.link = s.link + 1 := by
            simp only [Tunnel.link, if_true] at allowed
            split at allowed
            · exact (Option.some.inj allowed).symm
            · cases allowed
          have next : (client s).core.sent[s.link]? = some p := by simpa [reliable] using good
          exact before.deliver next (by rw [here]; rfl) sent link log (by rw [at_])
        · have undelivered : ∀ p, a ≠ .deliver u.me p := fun p is => delivers ⟨p, is⟩
          have link := link_of_allowed undelivered allowed
          refine ⟨by rw [sent, link]; exact before.bound, ?_⟩
          rw [sent, link, ← before.account, log, at_]
          refine pending_step taken linked.handles frames undelivered ?_
          rintro what rfl
          simpa [reliable] using good
      · have undelivered : ∀ p, a ≠ .deliver u.me p := by
          rintro p rfl
          cases (deliver_other mine).symm.trans taken
        have link := link_of_allowed undelivered allowed
        obtain ⟨es, log', records⟩ := (Egress.step_move taken).records
        have others : heard u.me id es = [] ∧ Egress.fed 0 es = [] := records.others mine
        have same : s'.left.loc .msg = s.left.loc .msg := by
          simp [after, Function.update_of_ne (Ne.symm mine)]
        refine ⟨by rw [sent, link]; exact before.bound, ?_⟩
        rw [sent, link, ← before.account, log, log', Egress.heard_append, others.1, List.append_nil, same]
  | @right t a allowed moves still =>
      have link : s'.link = s.link := by
        cases a with
        | core b =>
            cases b with
            | packet bytes =>
                simp only [Tunnel.link] at allowed
                split at allowed
                · exact (Option.some.inj allowed).symm
                · cases allowed
            | _ => exact (Option.some.inj allowed).symm
        | _ => exact (Option.some.inj allowed).symm
      obtain ⟨new, sent⟩ := sent_of_next (client_of_reach reached) moves
      refine ⟨?_, ?_⟩
      · rw [sent, link, List.length_append]
        exact Nat.le_add_right_of_le before.bound
      · rw [sent, link, List.take_append_of_le_length before.bound, ← before.account, node, still]

/-- An id that is nobody else's at the end was nobody else's before. -/
theorem lonely_of_reach {i : Nat} (h : Reach (machine u) ok initial s) (lone : Lone i id (client s))
    (called : Called i id (client s)) :
    Reach (machine u) (fun s t a => ok s t a ∧ Lone i id (client s) ∧ Called i id (client s))
      initial s := by
  refine h.backward (P := fun s => Lone i id (client s) ∧ Called i id (client s)) ?_ ⟨lone, called⟩
  rintro s s' t a reached next ⟨lone, called⟩
  cases Machine.couple_next next with
  | left _ _ still =>
      rw [client, still] at lone called
      exact ⟨lone, called⟩
  | @right t a _ moves _ =>
      obtain ⟨l, d, m, after⟩ := Socks.next_move moves
      have steady := Socks.steady_of_reach (client_of_reach reached)
      rw [client, after] at lone called
      exact ⟨lone.before m steady, called.before m steady⟩

theorem called_of_named {i : Nat} (named : ((client s).bridges i).streamId = some id) :
    Called i id (client s) := by
  intro j is
  exact Option.some.inj (is.symm.trans named)

/-- Only the first message of a stream is an OPEN. -/
theorem head_of_told {i : Nat} (h : Reach (machine u) ok initial s) (lone : Lone i id (client s))
    (called : Called i id (client s)) {before rest : List DecodedMessage} {q : OpenMessage}
    (told : up id (client s).core.sent = before ++ .opn q :: rest) : before = [] := by
  have tail {m : DecodedMessage} {ms ds : List DecodedMessage} (whole : m :: ds = before ++ .opn q :: ms)
      (unopened : ∀ q, .opn q ∉ ds) : before = [] := by
    cases before with
    | nil => rfl
    | cons b before =>
        obtain ⟨-, rfl⟩ := List.cons.inj whole
        exact absurd (List.mem_append_right _ List.mem_cons_self) (unopened q)
  rcases (Socks.says_of_reach u.fits (client_of_reach h) lone called).1.shape with
    none_ | ⟨q', ds, all, data⟩ | ⟨_, all, ⟨q', ds, rfl, data⟩, -⟩
  · rw [none_] at told
    exact absurd told.symm (by simp)
  · refine tail (all.symm.trans told) fun q mem => ?_
    obtain ⟨d, is⟩ := data _ mem
    cases is
  · refine tail (all.symm.trans told) fun q mem => ?_
    rcases List.mem_append.mp mem with mem | mem
    · obtain ⟨d, is⟩ := data _ mem
      cases is
    · cases List.mem_singleton.mp mem

/-- **The OPEN of a stream is taken up first.** -/
theorem opensFirst_of_inStep {i : Nat} (h : Reach (machine u) ok initial s) (inStep : InStep u id s)
    (lone : Lone i id (client s)) (called : Called i id (client s)) :
    Egress.OpensFirst u.me id s.left := by
  rintro ⟨ctx, q, len, at_, mine, stream, frame⟩
  have handles := (linked_of_reach h).handles
  rw [at_] at handles
  have account := inStep.account
  have pends : pending u.me id (.parsing ctx) = _ :=
    (pending_of_frame handles (Socks.sent_of_reach u.fits (client_of_reach h)) frame).1
  rw [Egress.heard_received, if_pos ⟨mine, stream⟩] at pends
  rw [at_, pends] at account
  have told : up id (client s).core.sent = heard u.me id (node s).log ++
      .opn q :: up id ((client s).core.sent.drop s.link) := by
    rw [← List.singleton_append, ← List.append_assoc, account, ← Socks.up_append, List.take_append_drop]
  exact head_of_told h lone called told

/-- The payloads of the client's messages are segments. -/
theorem payload_le {m : DecodedMessage} (h : Reach (machine u) ok initial s)
    (mem : m ∈ up id (client s).core.sent) : (payloadBytes [m]).length ≤ Client.kDataSegmentSize := by
  obtain ⟨packet, among, message⟩ := List.mem_filterMap.mp (List.mem_filter.mp mem).1
  obtain ⟨m', within, short, rfl⟩ := Socks.sent_of_reach u.fits (client_of_reach h) _ among
  rw [messageOf_encodeClient within] at message
  cases message
  exact short

end Runs

end TonTunnel.Tunnel
