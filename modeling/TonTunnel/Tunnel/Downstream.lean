import TonTunnel.Tunnel.FarEnd

/-!
The server's half of the downlink.

Of a stream that is the only one of its name (`Sole`), the DATA frames that go to
the client carry a prefix of the bytes its rx thread received, and all of them
once the rx thread has found the end of the TCP stream and taken the stream for it
(`RxFlow`). No DATA goes out before the OPEN ACK (`ackFirst_of_reach`), and none
behind a CLOSE if nobody but the rx thread ends the stream
(`closeLast_of_reach`).
-/

namespace TonTunnel.Egress

open Interleaving (Reach anyStep)
open Desktop (InboundFrame)

/-- No two streams were made under the name. -/
def Sole (me : Bytes) (id : UInt32) (n : Node) : Prop :=
  ∀ r r', Named n me id r → Named n me id r' → r = r'

/-- The rx thread took its stream at the end of the TCP stream. -/
def EofTaken (n : Node) (r : Ref) : Prop :=
  ∃ c, .taken (.rx r) (some c) r ∈ n.log ∧ c.reason = .remoteClosed

/-- The rx thread will send no more data. -/
def RxGone (l : Thread RxPc) : Prop := l.call ≠ none ∨ l.pc = .leaving ∨ l.pc = .exited

/-- The bytes `data` that went out against the bytes that the rx thread received, at each of its
positions. -/
def RxFlow (n : Node) (r : Ref) (data : Bytes) : Thread RxPc → Prop
  | ⟨.loop, none⟩ | ⟨.loadFd, none⟩ | ⟨.recv _, none⟩ =>
      data = pulled r n.log ∧ ¬ EofTaken n r
  | ⟨.touch rest, none⟩ | ⟨.push rest, none⟩ => data ++ rest = pulled r n.log ∧ ¬ EofTaken n r
  | ⟨.recv _, some _⟩ => data = pulled r n.log
  | ⟨.push _, some k⟩ =>
      data <+: pulled r n.log ∧ ¬ EofTaken n r ∧ k.call.reason ≠ .remoteClosed
  | ⟨.leaving, none⟩ | ⟨.exited, none⟩ =>
      data <+: pulled r n.log ∧ (EofTaken n r → data = pulled r n.log)
  | _ => False

section Steps

variable {cfg : Config} {t : ThreadId} {l l' : Loc t} {n n' : Node} {a : Act} {me : Bytes}
  {id : UInt32} {r : Ref}

theorem Sole.before (e : Effect t n n') (h : Sole me id n') : Sole me id n :=
  fun r r' named named' => h r r' (named.effect e) (named'.effect e)

/-- A stream of the name is new only in the step that makes it. -/
theorem Named.before (hn : Sound n) (hl : LocOk t l n) (m : Move cfg t n l a l' n')
    (named : Named n' me id r) : Named n me id r ∨ ¬ r < n.nextRef := by
  by_cases old : r < n.nextRef
  · have same := (m.own hn hl).1.ident old
    exact .inl ⟨old, same.2.1.symm.trans named.2.1, same.2.2.1.symm.trans named.2.2⟩
  · exact .inr old

/-- An rx thread that sends no more data stays so. -/
theorem Move.gone {l l' : Thread RxPc} (m : Move cfg (.rx r) n l a l' n') (h : RxGone l) :
    RxGone l' := by
  cases m with
  | base move =>
      cases move with
      | leave => exact .inr (.inr rfl)
      | _ => exact h.elim (absurd rfl) (Or.elim · nofun nofun)
  | call => exact .inl nofun
  | ret => exact .inr (.inl rfl)

/-- The flow depends on the history of this rx thread only. -/
theorem RxFlow.congr {data : Bytes} {k : Thread RxPc} (bytes : pulled r n'.log = pulled r n.log)
    (eof : EofTaken n' r ↔ EofTaken n r) : RxFlow n' r data k ↔ RxFlow n r data k := by
  unfold RxFlow
  rw [bytes, eof]

/-- In each position the bytes that went out are a prefix. -/
theorem RxFlow.isPrefix {data : Bytes} {k : Thread RxPc} (h : RxFlow n r data k) :
    data <+: pulled r n.log := by
  unfold RxFlow at h
  split at h
  · exact h.1 ▸ List.prefix_rfl
  · exact h.1 ▸ List.prefix_rfl
  · exact h.1 ▸ List.prefix_rfl
  · exact h.1 ▸ List.prefix_append _ _
  · exact h.1 ▸ List.prefix_append _ _
  · exact h ▸ List.prefix_rfl
  · exact h.1
  · exact h.1
  · exact h.1
  · exact h.elim

/-- After the end of the TCP stream all bytes went out. -/
theorem RxFlow.complete {data : Bytes} {k : Thread RxPc} (h : RxFlow n r data k)
    (eof : EofTaken n r) : data = pulled r n.log := by
  unfold RxFlow at h
  split at h
  · exact h.1
  · exact h.1
  · exact h.1
  · exact absurd eof h.2
  · exact absurd eof h.2
  · exact h
  · exact absurd eof h.2.1
  · exact h.2 eof
  · exact h.2 eof
  · exact h.elim

/-- A push that ends in an exception does not claim that the remote side closed. -/
theorem rxStep_push_reason {rest : Bytes} {k : Thread RxPc} {c : Closing}
    (h : rxStep r (.push rest) n a = some (k, n')) (calls : k.call = some c) :
    c.call.reason ≠ .remoteClosed := by
  cases rest with
  | nil =>
      cases a with
      | go =>
          cases h
          cases calls
      | _ => cases h
  | cons b rest =>
      cases a with
      | sent ok =>
          cases ok with
          | true =>
              cases h
              cases calls
          | false =>
              cases h
              cases calls
              nofun
      | throw what =>
          cases h
          cases calls
          dsimp only
          split <;> nofun
      | _ => cases h

/-! ### One step of the flow -/

/-- Whatever the other threads do, the end of the TCP stream is found by the rx thread alone. -/
theorem eofTaken_other (m : Move cfg t n l a l' n') (other : t ≠ .rx r) :
    EofTaken n' r ↔ EofTaken n r := by
  constructor
  · rintro ⟨c, mem, eof⟩
    rcases m.taken mem with old | ⟨rfl, -⟩
    · exact ⟨c, old, eof⟩
    · exact absurd rfl other
  · rintro ⟨c, mem, eof⟩
    exact ⟨c, m.log.old mem, eof⟩

theorem eofTaken_base {l l' : Thread RxPc} (m : Move cfg (.rx r) n l a l' n')
    (quiet : l.call = none) : EofTaken n' r ↔ EofTaken n r := by
  constructor
  · rintro ⟨c, mem, eof⟩
    rcases m.taken mem with old | ⟨-, ⟨calls, -⟩, -⟩
    · exact ⟨c, old, eof⟩
    · rw [show activeCall (.rx r) l = l.call from rfl, quiet] at calls
      cases calls
  · rintro ⟨c, mem, eof⟩
    exact ⟨c, m.log.old mem, eof⟩

/-- The rx thread ends its stream for the reason it calls `closeStream` with. -/
theorem eofTaken_call {pc : RxPc} {k : Closing} {l' : Thread RxPc}
    (m : Move cfg (.rx r) n ⟨pc, some k⟩ a l' n') (eof : EofTaken n' r) :
    EofTaken n r ∨ k.call.reason = .remoteClosed := by
  obtain ⟨c, mem, reason⟩ := eof
  rcases m.taken mem with old | ⟨-, ⟨calls, -⟩, -⟩
  · exact .inl ⟨c, old, reason⟩
  · cases calls
    exact .inr reason

/-- A DATA frame adds its payload and another frame adds nothing. -/
theorem dataBytes_received (f : ServerFrame Bytes) :
    dataBytes [Desktop.received f] =
      match f with
      | .data _ payload => payload
      | _ => [] := by
  cases f with
  | _ => simp [dataBytes_singleton, Desktop.received, Desktop.inbound]

/-- Data for a stream is sent by an rx thread that belongs to it. -/
theorem dataBytes_records {s : System} {es : List Event} {l' : Loc t}
    (kin : Interleaving.Holds Orderly Kin s) (terse : TerseLoc t (s.loc t))
    (records : Records s.shared t (s.loc t) a l' es) :
    dataBytes (down me id es) = [] ∨ ∃ r, t = .rx r ∧ Named s.shared me id r ∧ Awake r t (s.loc t) := by
  generalize here : s.loc t = l at records
  cases records with
  | aside aside =>
      rw [down_aside me id aside]
      exact .inl rfl
  | @speaks _ _ _ _ client f ok speaks =>
      subst here
      rw [down_sent me id (speaks.within terse)]
      split
      · next mine =>
          obtain ⟨-, rfl, rfl⟩ := mine
          rw [dataBytes_received]
          generalize here : s.loc t = l at speaks
          cases speaks with
          | ack | openError | dataError | reply | notify => exact .inl rfl
          | push | pushFails =>
              exact .inr ⟨_, rfl, named_of_push kin here, rfl, .inl nofun⟩
      · exact .inl rfl
  | hears | feeds | pulls => exact .inl rfl

/-- An rx thread receives for its own stream. -/
theorem pulled_records {es : List Event} (records : Records n t l a l' es) (r : Ref) :
    pulled r es = [] ∨ t = .rx r ∧ Awake r t l := by
  cases records with
  | aside aside => exact .inl (pulled_aside r aside)
  | speaks | hears | feeds => exact .inl rfl
  | @pulls r' =>
      by_cases same : r' = r
      · subst same
        exact .inr ⟨rfl, rfl, .inl nofun⟩
      · exact .inl (by simp [pulled, Event.pulled, same])

/-- In `closeStream` the rx thread neither sends data nor receives. -/
theorem records_call (me : Bytes) (id : UInt32) {pc : RxPc} {k : Closing} {l' : Thread RxPc}
    {es : List Event} (records : Records n (.rx r) ⟨pc, some k⟩ a l' es) :
    dataBytes (down me id es) = [] ∧ pulled r es = [] := by
  cases records with
  | aside aside => exact ⟨by rw [down_aside me id aside]; rfl, pulled_aside r aside⟩
  | speaks speaks =>
      refine ⟨?_, rfl⟩
      cases speaks with
      | notify =>
          rw [down_sent me id (f := .close _) trivial]
          split
          · exact dataBytes_received _
          · rfl

theorem RxFlow.call {pc : RxPc} {k : Closing} {l' : Thread RxPc}
    (m : Move cfg (.rx r) n ⟨pc, some k⟩ a l' n')
    (flow : RxFlow n r (dataBytes (down me id n.log)) ⟨pc, some k⟩) :
    RxFlow n' r (dataBytes (down me id n'.log)) l' := by
  obtain ⟨es, log, records⟩ := m.records
  obtain ⟨noData, noBytes⟩ := records_call me id records
  have data : dataBytes (down me id n'.log) = dataBytes (down me id n.log) := by
    rw [log, down_append, dataBytes_append, noData, List.append_nil]
  have bytes : pulled r n'.log = pulled r n.log := by
    rw [log, pulled_append, noBytes, List.append_nil]
  have eof := eofTaken_call m
  have old : EofTaken n r → EofTaken n' r := fun ⟨c, mem, reason⟩ => ⟨c, m.log.old mem, reason⟩
  rw [data]
  cases pc with
  | recv fd =>
      have all : dataBytes (down me id n.log) = pulled r n'.log := flow.trans bytes.symm
      cases m with
      | call => exact all
      | ret => exact ⟨all ▸ List.prefix_rfl, fun _ => all⟩
  | push rest =>
      obtain ⟨some_, none_, reason⟩ := flow
      rw [← bytes] at some_
      have still : ¬ EofTaken n' r := fun h => (eof h).elim none_ reason
      cases m with
      | call => exact ⟨some_, still, reason⟩
      | ret => exact ⟨some_, fun h => absurd h still⟩
  | _ => exact flow.elim

theorem RxFlow.base {pc : RxPc} {l' : Thread RxPc} (named : Named n me id r)
    (move : RxMove r n pc a l' n') (eof : EofTaken n' r ↔ EofTaken n r)
    (reason : ∀ rest c, pc = .push rest → l'.call = some c → c.call.reason ≠ .remoteClosed)
    (flow : RxFlow n r (dataBytes (down me id n.log)) ⟨pc, none⟩) :
    RxFlow n' r (dataBytes (down me id n'.log)) l' := by
  obtain ⟨-, rfl, rfl⟩ := named
  cases move with
  | closed => exact ⟨flow.1 ▸ List.prefix_rfl, fun h => absurd h flow.2⟩
  | enter => exact flow
  | load => exact flow
  | ended => exact flow.1
  | @received fd k data =>
      refine ⟨?_, fun h => flow.2 (eof.mp h)⟩
      rw [Node.emit, down_append, pulled_append, dataBytes_append, flow.1]
      simp [down, Event.down, pulled, Event.pulled]
  | touch => exact ⟨flow.1, fun h => flow.2 (eof.mp h)⟩
  | pushed => exact ⟨by simpa using flow.1, flow.2⟩
  | @push rest =>
      have short : ServerFrame.WithinLimits
          (.data (n.heap r).streamId (rest.take kMaxDataChunkBytes)) :=
        lt_of_le_of_lt (List.length_take_le _ _) (by decide)
      refine ⟨?_, fun h => flow.2 (eof.mp h)⟩
      have frame : encodeData ⟨(n.heap r).streamId, rest.take kMaxDataChunkBytes⟩ =
          ServerFrame.encode (.data (n.heap r).streamId (rest.take kMaxDataChunkBytes)) := rfl
      rw [Node.sendToClient, Node.emit, frame, down_append, down_sent _ _ short,
        if_pos ⟨rfl, rfl, rfl⟩, dataBytes_append, dataBytes_received, pulled_append, List.append_assoc,
        List.take_append_drop, flow.1]
      simp [pulled, Event.pulled]
  | @pushFails rest =>
      refine ⟨?_, fun h => flow.2 (eof.mp h), reason rest _ rfl rfl⟩
      rw [Node.sendToClient, Node.emit, down_append, pulled_append, dataBytes_append, ← flow.1]
      simp [down, Event.down, pulled, Event.pulled]
  | @pushThrows rest what why =>
      exact ⟨flow.1 ▸ List.prefix_append _ _, flow.2, reason rest _ rfl rfl⟩
  | leave => exact ⟨flow.1, fun h => flow.2 (eof.mp h)⟩

/-- **One step of the rx thread keeps the flow.** -/
theorem RxFlow.own {l l' : Thread RxPc} (named : Named n me id r)
    (step : step cfg (.rx r) l n a = some (l', n'))
    (flow : RxFlow n r (dataBytes (down me id n.log)) l) :
    RxFlow n' r (dataBytes (down me id n'.log)) l' := by
  have m : Move cfg (.rx r) n l a l' n' := step_move step
  obtain ⟨pc, call⟩ := l
  cases call with
  | some k => exact flow.call m
  | none =>
      refine RxFlow.base named (rxStep_move step) (eofTaken_base m rfl) ?_ flow
      rintro rest c rfl calls
      exact rxStep_push_reason step calls

end Steps

/-! ### Whole runs -/

section Runs

variable {cfg : Config} {ok : System → ThreadId → Act → Prop} {s : System} {me : Bytes}
  {id : UInt32}

/-- An rx thread that was not started has received nothing. -/
theorem pulled_of_unstarted {r : Ref} (h : Reaches cfg s) (unstarted : s.shared.rxLife r = .unstarted) :
    pulled r s.shared.log = [] := by
  revert unstarted
  refine Reach.invariant
    (I := fun s => s.shared.rxLife r = .unstarted → pulled r s.shared.log = []) (fun _ => rfl) ?_ h
  intro s s' t a reached before _ next unstarted
  obtain ⟨l, n, m, rfl⟩ := next_move next
  obtain ⟨es, log, records⟩ := m.records
  have was : s.shared.rxLife r = .unstarted := by_contra fun h => m.still_started h unstarted
  change pulled r n.log = []
  rw [log, pulled_append, before was, List.nil_append]
  rcases pulled_records records r with none_ | ⟨rfl, awake⟩
  · exact none_
  · exact absurd was (((kin_of_reaches reached).loc _).awake awake)

/-- Without a stream of the name no data goes out for it. -/
theorem dataBytes_of_unnamed (terse : TerseRun ok) (h : ReachesBy cfg ok s)
    (unnamed : ∀ r, ¬ Named s.shared me id r) : dataBytes (down me id s.shared.log) = [] := by
  revert unnamed
  refine Reach.invariant (I := fun s => (∀ r, ¬ Named s.shared me id r) →
    dataBytes (down me id s.shared.log) = []) (fun _ => rfl) ?_ h
  intro s s' t a reached before _ next unnamed
  obtain ⟨l, n, m, rfl⟩ := next_move next
  obtain ⟨es, log, records⟩ := m.records
  have owned := Reaches.owned reached.any
  have e := (m.own owned.shared (owned.loc t)).1
  change dataBytes (down me id n.log) = []
  rw [log, down_append, dataBytes_append, before fun r named => unnamed r (named.effect e),
    List.nil_append]
  have kin := kin_of_reaches reached.any
  rcases dataBytes_records kin (terseLoc_of_reach terse reached t) records with none_ | ⟨r, -, named, -⟩
  · exact none_
  · exact absurd (named.effect e) (unnamed r)

/-- **The data of a stream flows in order.** -/
theorem flow_of_reach {r : Ref} (terse : TerseRun ok) (h : ReachesBy cfg ok s)
    (sole : Sole me id s.shared) (named : Named s.shared me id r) :
    RxFlow s.shared r (dataBytes (down me id s.shared.log)) (s.loc (.rx r)) := by
  revert sole named
  refine Reach.invariant (I := fun s => Sole me id s.shared → Named s.shared me id r →
    RxFlow s.shared r (dataBytes (down me id s.shared.log)) (s.loc (.rx r))) ?_ ?_ h
  · exact fun _ named => absurd named.1 (Nat.not_lt_zero _)
  intro s s' t a reached before _ next sole named
  obtain ⟨l, n, step, rfl⟩ := Interleaving.Machine.next_eq_some next
  have m := step_move step
  have owned := Reaches.owned reached.any
  have kin := kin_of_reaches reached.any
  have e := (m.own owned.shared (owned.loc t)).1
  obtain ⟨es, log, records⟩ := m.records
  rcases named.before owned.shared (owned.loc t) m with old | new
  · have flow := before (sole.before e) old
    by_cases mine : t = .rx r
    · subst mine
      simp only [Function.update_self]
      have taken : Egress.step cfg (.rx r) (s.loc (.rx r)) s.shared a = some (l, n) := step
      exact flow.own old taken
    · simp only [Function.update_of_ne (Ne.symm mine)]
      have data : dataBytes (down me id n.log) = dataBytes (down me id s.shared.log) := by
        rw [log, down_append, dataBytes_append]
        rcases dataBytes_records kin (terseLoc_of_reach terse reached t) records with
          none_ | ⟨r', rfl, named', -⟩
        · rw [none_, List.append_nil]
        · exact absurd (congrArg _ (sole.before e r' r named' old)) mine
      have bytes : pulled r n.log = pulled r s.shared.log := by
        rw [log, pulled_append]
        rcases pulled_records records r with none_ | ⟨rfl, -⟩
        · rw [none_, List.append_nil]
        · exact absurd rfl mine
      rw [data, RxFlow.congr bytes (eofTaken_other m mine)]
      exact flow
  · -- the stream was made in this step: nothing was sent or received for it
    have unstarted : s.shared.rxLife r = .unstarted := by_contra fun h => new (kin.shared.bound h)
    have asleep : ¬ Awake r (.rx r) (s.loc (.rx r)) := fun h => (kin.loc _).awake h unstarted
    have unnamed : ∀ r', ¬ Named s.shared me id r' := by
      intro r' named'
      cases sole r' r (named'.effect e) named
      exact new named'.1
    have noData := dataBytes_of_unnamed terse reached unnamed
    have msg : t ≠ .rx r := by
      rintro rfl
      exact new (by rw [← (e.shrinks owned.shared nofun).1]; exact named.1)
    have data : dataBytes (down me id n.log) = [] := by
      rw [log, down_append, dataBytes_append, noData, List.nil_append]
      rcases dataBytes_records kin (terseLoc_of_reach terse reached t) records with
        none_ | ⟨r', rfl, named', -⟩
      · exact none_
      · exact absurd named' (unnamed r')
    have bytes : pulled r n.log = [] := by
      rw [log, pulled_append, pulled_of_unstarted reached.any unstarted, List.nil_append]
      rcases pulled_records records r with none_ | ⟨rfl, -⟩
      · exact none_
      · exact absurd rfl msg
    have noEof : ¬ EofTaken n r := by
      rw [eofTaken_other m msg]
      rintro ⟨c, mem, -⟩
      exact new (owned.shared.bound_of_taken (kin.shared.owned mem))
    simp only [Function.update_of_ne (Ne.symm msg)]
    have at_ : s.loc (.rx r) = ⟨.loop, none⟩ := by
      generalize s.loc (.rx r) = k at asleep
      obtain ⟨pc, call⟩ := k
      have idle := not_or.mp (not_and.mp asleep rfl)
      rw [not_not, not_not] at idle
      obtain ⟨rfl, rfl⟩ := idle
      rfl
    rw [at_]
    exact ⟨data.trans bytes.symm, noEof⟩

/-! ### The order of the frames -/

/-- No data before an OPEN ACK. -/
def AckFirst (fs : List InboundFrame) : Prop :=
  ∀ pre f post, fs = pre ++ f :: post → f.type = .opn → dataBytes pre = []

/-- No data behind a CLOSE. -/
def CloseLast (fs : List InboundFrame) : Prop :=
  ∀ pre f post, fs = pre ++ f :: post → f.type = .close → dataBytes post = []

/-- Where a list with one more element is split. -/
theorem split_concat {α : Type} {xs pre post : List α} {x y : α} (h : xs ++ [y] = pre ++ x :: post) :
    (xs = pre ∧ y = x ∧ post = []) ∨ ∃ post', post = post' ++ [y] ∧ xs = pre ++ x :: post' := by
  rcases List.eq_nil_or_concat post with rfl | ⟨post', last, rfl⟩
  · obtain ⟨rfl, same⟩ := List.append_inj' h rfl
    cases same
    exact .inl ⟨rfl, rfl, rfl⟩
  · have h' : xs ++ [y] = (pre ++ x :: post') ++ [last] := by simpa using h
    obtain ⟨rfl, same⟩ := List.append_inj' h' rfl
    cases same
    exact .inr ⟨post', by simp, rfl⟩

theorem AckFirst.concat {fs : List InboundFrame} {g : InboundFrame} (h : AckFirst fs)
    (quiet : g.type = .opn → dataBytes fs = []) : AckFirst (fs ++ [g]) := by
  intro pre f post split type
  rcases split_concat split with ⟨rfl, rfl, -⟩ | ⟨post', -, split'⟩
  · exact quiet type
  · exact h pre f post' split' type

theorem CloseLast.concat {fs : List InboundFrame} {g : InboundFrame} (h : CloseLast fs)
    (quiet : dataBytes [g] = [] ∨ ∀ f ∈ fs, f.type ≠ .close) : CloseLast (fs ++ [g]) := by
  intro pre f post split type
  rcases split_concat split with ⟨-, -, rfl⟩ | ⟨post', rfl, split'⟩
  · rfl
  · rw [dataBytes_append, h pre f post' split' type, List.nil_append]
    rcases quiet with none_ | unclosed
    · exact none_
    · exact absurd type (unclosed f (by simp [split']))

/-- A step adds at most one frame to a stream. -/
theorem down_records {t : ThreadId} {a : Act} {l' : Loc t} {es : List Event} (terse : TerseLoc t (s.loc t))
    (records : Records s.shared t (s.loc t) a l' es) :
    down me id es = [] ∨ ∃ f, down me id es = [Desktop.received f] ∧ f.streamId = id ∧
      Speaks s.shared t (s.loc t) a l' me f true := by
  generalize here : s.loc t = l at records
  cases records with
  | aside aside => exact .inl (down_aside me id aside)
  | @speaks _ _ _ _ client f okay speaks =>
      subst here
      rw [down_sent me id (speaks.within terse)]
      split
      · next mine =>
          obtain ⟨rfl, rfl, stream⟩ := mine
          exact .inr ⟨f, rfl, stream, speaks⟩
      · exact .inl rfl
  | hears | feeds | pulls => exact .inl rfl

/-- **No data goes out before the OPEN ACK.** -/
theorem ackFirst_of_reach (terse : TerseRun ok) (h : ReachesBy cfg ok s)
    (sole : Sole me id s.shared) : AckFirst (down me id s.shared.log) := by
  revert sole
  refine Reach.invariant (I := fun s => Sole me id s.shared → AckFirst (down me id s.shared.log)) ?_ ?_ h
  · intro _ pre f post split
    simp [init, down] at split
  intro s s' t a reached before _ next sole
  obtain ⟨l, n, m, rfl⟩ := next_move next
  obtain ⟨es, log, records⟩ := m.records
  have owned := Reaches.owned reached.any
  have kin := kin_of_reaches reached.any
  have e := (m.own owned.shared (owned.loc t)).1
  have old := before (sole.before e)
  change AckFirst (down me id n.log)
  rw [log, down_append]
  rcases down_records (terseLoc_of_reach terse reached t) records with none_ | ⟨f, one, stream, speaks⟩
  · rw [none_, List.append_nil]
    exact old
  · rw [one]
    refine old.concat fun type => ?_
    -- the frame is the ACK, and the rx thread has not been started
    generalize here : s.loc t = k at speaks
    cases speaks with
    | @ack ctx q r _ =>
        have pos := (owned.loc .msg).pos.1
        rw [here] at pos
        have named : Named s.shared ctx.clientId id r := stream ▸ pos
        have unstarted : s.shared.rxLife r = .unstarted :=
          (kin.loc .msg).starts ⟨ctx, q, .ack r, by rw [here], rfl⟩
        have flow := (flow_of_reach terse reached (sole.before e) named).isPrefix
        rw [pulled_of_unstarted reached.any unstarted] at flow
        exact List.prefix_nil.mp flow
    | openError | dataError | reply | notify | push => cases type

/-- The rx thread that took its stream sends no more data. -/
theorem rxGone_of_taken {r : Ref} {c : Option CloseCall} (h : Reaches cfg s)
    (taken : .taken (.rx r) c r ∈ s.shared.log) : RxGone (s.loc (.rx r)) := by
  revert taken
  refine Reach.invariant (I := fun s => .taken (.rx r) c r ∈ s.shared.log → RxGone (s.loc (.rx r)))
    (fun mem => absurd mem List.not_mem_nil) ?_ h
  intro s s' t a reached before _ next taken
  obtain ⟨l, n, m, rfl⟩ := next_move next
  by_cases mine : t = .rx r
  · subst mine
    simp only [Function.update_self]
    refine m.gone ?_
    rcases m.taken taken with old | ⟨-, takes, -⟩
    · exact before old
    · cases c with
      | none => cases takes.1
      | some c =>
          refine .inl ?_
          rw [show (s.loc (.rx r)).call = some ⟨c, .enter⟩ from takes.1]
          nofun
  · simp only [Function.update_of_ne (Ne.symm mine)]
    rcases m.taken taken with old | ⟨rfl, -⟩
    · exact before old
    · exact absurd rfl mine

/-- The message thread is in `handleClose` for the stream. -/
def MsgPc.Closes (me : Bytes) (id : UInt32) : MsgPc → Prop
  | .closing ctx streamId | .closeReply ctx streamId => ctx.clientId = me ∧ streamId = id
  | _ => False

theorem MsgPc.Closes.of_resume {pc : MsgPc} {had : Bool} (h : (pc.resume had).Closes me id) :
    pc.Closes me id := by
  cases pc with
  | dataing ctx d dpc =>
      cases dpc with
      | _ => exact h.elim
  | closing =>
      cases had with
      | true => exact h.elim
      | false => exact h
  | _ => exact h

/-- `handleClose` runs after the client's CLOSE. -/
theorem heard_close_of_reaches (h : Reaches cfg s) (closes : (s.loc .msg).pc.Closes me id) :
    .close ⟨id⟩ ∈ heard me id s.shared.log := by
  revert closes
  refine Reach.invariant (I := fun s => (s.loc .msg).pc.Closes me id →
    .close ⟨id⟩ ∈ heard me id s.shared.log) (fun closes => closes.elim) ?_ h
  intro s s' t a reached before _ next closes
  obtain ⟨l, n, m, rfl⟩ := next_move next
  have grows {e : DecodedMessage} (mem : e ∈ heard me id s.shared.log) : e ∈ heard me id n.log := by
    obtain ⟨es, log, -⟩ := m.records
    rw [log, heard_append]
    exact List.mem_append_left _ mem
  by_cases mine : t = .msg
  · subst mine
    simp only [Function.update_self] at closes
    generalize s.loc .msg = l₀ at m before
    cases m with
    | base move =>
        cases move with
        | @dispatchClose ctx c len frame =>
            change .close ⟨id⟩ ∈ heard me id (s.shared.log ++ [_])
            rw [heard_append, heard_received, if_pos ⟨closes.1, closes.2⟩]
            obtain ⟨streamId⟩ := c
            cases closes.2
            exact List.mem_append_right _ (List.mem_singleton.mpr rfl)
        | _ => exact closes.elim
    | call => exact grows (before closes)
    | ret => exact grows (before closes.of_resume)
  · simp only [Function.update_of_ne (Ne.symm mine)] at closes
    exact grows (before closes)

/-- **A CLOSE answers the client's CLOSE or comes from whoever took the stream.** -/
theorem close_of_reach (terse : TerseRun ok) (h : ReachesBy cfg ok s) {f : InboundFrame}
    (mem : f ∈ down me id s.shared.log) (type : f.type = .close) :
    .close ⟨id⟩ ∈ heard me id s.shared.log ∨
      ∃ r t c, Named s.shared me id r ∧ .taken t c r ∈ s.shared.log := by
  revert mem
  refine Reach.invariant (I := fun s => f ∈ down me id s.shared.log →
    .close ⟨id⟩ ∈ heard me id s.shared.log ∨
      ∃ r t c, Named s.shared me id r ∧ .taken t c r ∈ s.shared.log)
    (fun mem => absurd mem List.not_mem_nil) ?_ h
  intro s s' t a reached before _ next mem
  obtain ⟨l, n, m, rfl⟩ := next_move next
  obtain ⟨es, log, records⟩ := m.records
  have owned := Reaches.owned reached.any
  have kin := kin_of_reaches reached.any
  have e := (m.own owned.shared (owned.loc t)).1
  have later (h : .close ⟨id⟩ ∈ heard me id s.shared.log ∨
      ∃ r t c, Named s.shared me id r ∧ .taken t c r ∈ s.shared.log) :
      .close ⟨id⟩ ∈ heard me id n.log ∨ ∃ r t c, Named n me id r ∧ .taken t c r ∈ n.log := by
    rcases h with closed | ⟨r, t, c, named, taken⟩
    · rw [log, heard_append]
      exact .inl (List.mem_append_left _ closed)
    · exact .inr ⟨r, t, c, named.effect e, m.log.old taken⟩
  change f ∈ down me id n.log at mem
  refine later ?_
  rw [log, down_append] at mem
  rcases List.mem_append.mp mem with old | new
  · exact before old
  · rcases down_records (terseLoc_of_reach terse reached t) records with none_ | ⟨g, one, stream, speaks⟩
    · rw [none_] at new
      exact absurd new List.not_mem_nil
    · rw [one] at new
      cases List.mem_singleton.mp new
      generalize here : s.loc t = k at speaks
      cases speaks with
      | ack | openError | dataError | push => cases type
      | reply =>
          refine .inl (heard_close_of_reaches reached.any ?_)
          rw [here]
          exact ⟨rfl, stream⟩
      | @notify _ _ _ c r _ calls =>
          subst here
          obtain ⟨named, taken⟩ := (kin.loc t).tears calls
          cases stream
          exact .inr ⟨r, t, some c, named, taken⟩

/-- **No data goes out behind a CLOSE**, if the client sent none and only the rx thread took the
stream. -/
theorem closeLast_of_reach (terse : TerseRun ok) (h : ReachesBy cfg ok s)
    (sole : Sole me id s.shared)
    (own : ∀ r t c, Named s.shared me id r → .taken t c r ∈ s.shared.log → t = .rx r)
    (unasked : .close ⟨id⟩ ∉ heard me id s.shared.log) : CloseLast (down me id s.shared.log) := by
  revert sole own unasked
  refine Reach.invariant (I := fun s' => Sole me id s'.shared →
    (∀ r t c, Named s'.shared me id r → .taken t c r ∈ s'.shared.log → t = .rx r) →
    .close ⟨id⟩ ∉ heard me id s'.shared.log →
    CloseLast (down me id s'.shared.log)) ?_ ?_ h
  · intro _ _ _ pre f post split
    simp [init, down] at split
  intro s s' t a reached before _ next sole own unasked
  obtain ⟨l, n, m, rfl⟩ := next_move next
  obtain ⟨es, log, records⟩ := m.records
  have owned := Reaches.owned reached.any
  have kin := kin_of_reaches reached.any
  have e := (m.own owned.shared (owned.loc t)).1
  have own' : ∀ r t c, Named s.shared me id r → .taken t c r ∈ s.shared.log → t = .rx r :=
    fun r t c named mem => own r t c (named.effect e) (m.log.old mem)
  have unasked' : .close ⟨id⟩ ∉ heard me id s.shared.log := by
    intro mem
    refine unasked ?_
    change _ ∈ heard me id n.log
    rw [log, heard_append]
    exact List.mem_append_left _ mem
  have old := before (sole.before e) own' unasked'
  change CloseLast (down me id n.log)
  rw [log, down_append]
  rcases down_records (terseLoc_of_reach terse reached t) records with none_ | ⟨f, one, stream, speaks⟩
  · rw [none_, List.append_nil]
    exact old
  · rw [one]
    refine old.concat ?_
    generalize here : s.loc t = k at speaks
    cases speaks with
    | ack | openError | dataError | reply | notify => exact .inl (dataBytes_received _)
    | @push r' rest =>
        -- the rx thread is at work, so it has not taken the stream, and nobody else has
        refine .inr fun g mem type => ?_
        rcases close_of_reach terse reached mem type with asked | ⟨r, t, c, named, taken⟩
        · exact unasked' asked
        · obtain rfl := own' r t c named taken
          have named' : Named s.shared (s.shared.heap r').clientId id r' :=
            ⟨(named_of_push kin here).1, rfl, stream⟩
          cases sole.before e _ _ named named'
          have gone := rxGone_of_taken reached.any taken
          rw [here] at gone
          rcases gone with calls | leaves | exits
          · exact absurd rfl calls
          · cases leaves
          · cases exits

end Runs

end TonTunnel.Egress
