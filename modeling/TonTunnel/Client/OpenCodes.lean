import TonTunnel.Client.OpenClock

/-!
The two implementations of the open phase.

`Client.openPoller` and `Transport.openPoller` drive the step functions of
`TonClientCore::openStream` and `NativeTonTransport.openStream` on the idealised
clock: the send of OPEN succeeds, `awaitStreamFrame` takes a frame if there is one
and runs into its deadline otherwise, nothing interrupts or throws. Each of them is
an `OpenLoop`, so both return what `expectedCode` says.
-/

namespace TonTunnel

open Polling (Poller)
open OpenClock

/-! ### The desktop client -/

namespace Client

open Desktop

/-- The kind of a frame of the desktop client. -/
def kind (f : InboundFrame) : Kind :=
  match f.type with
  | .unknown => .unknown
  | .opn => .opn
  | .data => .data
  | .close => .close
  | .error => .error

/-- `hasFrame` in `awaitStreamFrame`. -/
def Core.hasFrame (c : Core) (id : UInt32) : Bool :=
  match c.streamQueues.lookup id with
  | some (_ :: _) => true
  | _ => false

/-- What `openStream` is answered: the send succeeds, and a wait ends with a frame or at its deadline. -/
def openAnswer (id : UInt32) (c : Core) : OpenPc → Act
  | .sendOpen => .sendRet 0
  | .await _ _ (.wait _) => if c.hasFrame id then .go else .timeout
  | _ => .go

/-- `openStream` on the idealised clock. -/
def openPoller (caller : Nat) (id : UInt32) (host : Bytes) (port : UInt16) (token : Bytes) :
    Poller (Core × OpenPc) InboundFrame where
  now s := s.1.nowMs
  setNow s t := ({ s.1 with nowMs := t }, s.2)
  arrive s f := (s.1.dispatch f, s.2)
  waitsUntil s :=
    match s.2 with
    | .await _ _ (.wait deadline) =>
        if !s.1.hasFrame id ∧ s.1.nowMs < deadline then some deadline else none
    | _ => none
  step s :=
    (openStep caller id host port token s.1 s.2 (openAnswer id s.1 s.2)).map fun
      | (.more pc, c) => .inl (c, pc)
      | (.ret code, _) => .inr code

section Loop

variable {caller : Nat} {id : UInt32} {host : Bytes} {port : UInt16} {token : Bytes} {c : Core}
  {f : InboundFrame} {q : List InboundFrame}

theorem hasFrame_nil (queue : c.streamQueues.lookup id = some []) : c.hasFrame id = false := by
  rw [Core.hasFrame, queue]

theorem hasFrame_cons (queue : c.streamQueues.lookup id = some (f :: q)) : c.hasFrame id = true := by
  rw [Core.hasFrame, queue]

/-- The call has something to do: it does not wait, or the wait is over. -/
def Busy (id : UInt32) (c : Core) (pc : OpenPc) : Prop :=
  ∀ deadline seen until_, pc = .await deadline seen (.wait until_) → c.hasFrame id = true ∨ until_ ≤ c.nowMs

theorem Busy.waitsUntil {pc : OpenPc} (busy : Busy id c pc) :
    (openPoller caller id host port token).waitsUntil (c, pc) = none := by
  simp only [openPoller]
  split
  · rw [if_neg]
    rintro ⟨empty, before⟩
    rcases busy _ _ _ rfl with has | due
    · simp [has] at empty
    · omega
  · rfl

theorem leads_of_openStep {pc pc' : OpenPc} {c' : Core} (busy : Busy id c pc)
    (h : openStep caller id host port token c pc (openAnswer id c pc) = some (.more pc', c')) :
    (openPoller caller id host port token).Leads (c, pc) (c', pc') := by
  refine .step busy.waitsUntil ?_
  simp only [openPoller, h, Option.map_some]

theorem ends_of_openStep {pc : OpenPc} {c' : Core} {code : Int} {arrivals : List (Int × InboundFrame)}
    (busy : Busy id c pc)
    (h : openStep caller id host port token c pc (openAnswer id c pc) = some (.ret code, c')) :
    (openPoller caller id host port token).Ends (c, pc) arrivals code := by
  refine .ret busy.waitsUntil ?_
  simp only [openPoller, h, Option.map_some]

/-- The wait of `awaitStreamFrame` lasts to the nearer of the two deadlines. -/
theorem await_limit {startedAt now : Int} (seen : Int) :
    now + min (startedAt + kOpenTimeoutMs - now) (kOpenCloseGraceMs - (now - seen)) =
      limit startedAt (some seen) := by
  simp only [limit, kOpenTimeoutMs, kOpenCloseGraceMs]
  rw [← min_add_add_left]
  congr 1 <;> omega

/-- The receiver puts a frame of the stream into its queue. -/
theorem dispatch_queue (queue : c.streamQueues.lookup id = some q) (named : f.streamId = id) :
    (c.dispatch f).streamQueues.lookup id = some (q ++ [f]) ∧ (c.dispatch f).nowMs = c.nowMs := by
  subst named
  simp [Core.dispatch, queue, Core.pushBack, Core.note]

variable {deadline at_ waitMs until_ : Int} {seen : Option Int}

theorem loop_leads (inTime : c.nowMs < deadline) :
    (openPoller caller id host port token).Leads (c, .loop deadline seen) (c, .waitMs deadline seen) := by
  refine leads_of_openStep ?_ (if_pos inTime)
  rintro _ _ _ ⟨⟩

theorem waitMs_leads_await :
    (openPoller caller id host port token).Leads (c, .waitMs deadline none)
      (c, .await deadline none (.enter (deadline - c.nowMs))) := by
  refine leads_of_openStep ?_ rfl
  rintro _ _ _ ⟨⟩

theorem waitMs_leads_grace :
    (openPoller caller id host port token).Leads (c, .waitMs deadline (some at_))
      (c, .grace deadline at_ (deadline - c.nowMs)) := by
  refine leads_of_openStep ?_ rfl
  rintro _ _ _ ⟨⟩

theorem grace_leads (left : ¬ kOpenCloseGraceMs - (c.nowMs - at_) ≤ 0) :
    (openPoller caller id host port token).Leads (c, .grace deadline at_ waitMs)
      (c, .await deadline (some at_) (.enter (min waitMs (kOpenCloseGraceMs - (c.nowMs - at_))))) := by
  refine leads_of_openStep ?_ (if_neg left)
  rintro _ _ _ ⟨⟩

theorem enter_leads :
    (openPoller caller id host port token).Leads (c, .await deadline seen (.enter waitMs))
      (c, .await deadline seen (.wait (c.nowMs + waitMs))) := by
  refine leads_of_openStep ?_ rfl
  rintro _ _ _ ⟨⟩

/-- The loop comes to its wait. -/
theorem leads_to_wait {startedAt : Int} (before : c.nowMs < limit startedAt seen) :
    (openPoller caller id host port token).Leads (c, .loop (startedAt + kOpenTimeoutMs) seen)
      (c, .await (startedAt + kOpenTimeoutMs) seen (.wait (limit startedAt seen))) := by
  have inTime : c.nowMs < startedAt + kOpenTimeoutMs := lt_of_lt_of_le before (limit_le startedAt seen)
  refine (loop_leads inTime).trans ?_
  cases seen with
  | none =>
      have whole : c.nowMs + (startedAt + kOpenTimeoutMs - c.nowMs) = limit startedAt none :=
        add_sub_cancel ..
      rw [← whole]
      exact waitMs_leads_await.trans enter_leads
  | some at_ =>
      have left : ¬ kOpenCloseGraceMs - (c.nowMs - at_) ≤ 0 := by
        have := lt_of_lt_of_le before (min_le_right _ _)
        simp only [kOpenCloseGraceMs]
        omega
      rw [← await_limit]
      exact waitMs_leads_grace.trans ((grace_leads left).trans enter_leads)

/-- A frame is taken from the queue. -/
theorem leads_to_got (queue : c.streamQueues.lookup id = some (f :: q)) :
    (openPoller caller id host port token).Leads (c, .await deadline seen (.wait until_))
      (c.popFront caller true id f q, .got deadline seen f) := by
  have has := hasFrame_cons queue
  refine leads_of_openStep (fun _ _ _ _ => .inl has) ?_
  simp [openStep, openAnswer, awaitStep, has, queue]

theorem popFront_queue : (c.popFront caller true id f q).streamQueues.lookup id = some q := by
  simp [Core.popFront, Core.note]

/-- What becomes of the call with a frame in hand. -/
theorem openStep_got (c : Core) :
    openStep caller id host port token c (.got deadline seen f) .go =
      match kind f with
      | .opn => some (.ret 0, c.note (.opened caller id))
      | .error => some (.ret (-3), c)
      | .close => some (.more (.loop deadline (some (seen.getD c.nowMs))), c)
      | .data | .unknown => some (.more (.loop deadline seen), c) := by
  simp only [openStep, kind]
  cases f.type <;> rfl

theorem busy_got (c : Core) : Busy id c (.got deadline seen f) := by
  rintro _ _ _ ⟨⟩

theorem got_opened {arrivals : List (Int × InboundFrame)} (is : kind f = .opn) :
    (openPoller caller id host port token).Ends (c, .got deadline seen f) arrivals 0 :=
  ends_of_openStep (busy_got c) ((openStep_got c).trans (by rw [is]))

theorem got_refused {arrivals : List (Int × InboundFrame)} (is : kind f = .error) :
    (openPoller caller id host port token).Ends (c, .got deadline seen f) arrivals (-3) :=
  ends_of_openStep (busy_got c) ((openStep_got c).trans (by rw [is]))

theorem got_closed (is : kind f = .close) :
    (openPoller caller id host port token).Leads (c, .got deadline seen f)
      (c, .loop deadline (some (seen.getD c.nowMs))) :=
  leads_of_openStep (busy_got c) ((openStep_got c).trans (by rw [is]))

theorem got_skipped (is : kind f = .data ∨ kind f = .unknown) :
    (openPoller caller id host port token).Leads (c, .got deadline seen f) (c, .loop deadline seen) := by
  refine leads_of_openStep (busy_got c) ((openStep_got c).trans ?_)
  rcases is with is | is
  · rw [is]
  · rw [is]

/-- **`TonClientCore::openStream` is an open phase.** -/
def openLoop (caller : Nat) (id : UInt32) (host : Bytes) (port : UInt16) (token : Bytes) (startedAt : Int) :
    OpenLoop (openPoller caller id host port token) startedAt kind (·.streamId = id) where
  Head s seen q := s.2 = .loop (startedAt + kOpenTimeoutMs) seen ∧ s.1.streamQueues.lookup id = some q
  Wait s seen q := s.2 = .await (startedAt + kOpenTimeoutMs) seen (.wait (limit startedAt seen)) ∧
    s.1.streamQueues.lookup id = some q
  timesOut {s seen q arrivals} head due := by
    obtain ⟨c, pc⟩ := s
    obtain ⟨rfl, queue⟩ := head
    refine ends_of_openStep ?_ (if_neg (not_lt.mpr due))
    rintro _ _ _ ⟨⟩
  graceOver {s at_ q arrivals} head before due := by
    obtain ⟨c, pc⟩ := s
    obtain ⟨rfl, queue⟩ := head
    have grace : kOpenCloseGraceMs - (c.nowMs - at_) ≤ 0 := by
      change at_ + 250 ≤ c.nowMs at due
      simp only [kOpenCloseGraceMs]
      omega
    refine ((loop_leads before).trans waitMs_leads_grace).ends ?_
    refine ends_of_openStep ?_ (if_pos grace)
    rintro _ _ _ ⟨⟩
  waits {s seen q} head before := by
    obtain ⟨c, pc⟩ := s
    obtain ⟨rfl, queue⟩ := head
    exact ⟨_, leads_to_wait before, ⟨rfl, queue⟩, rfl⟩
  blocks {s seen} wait before := by
    obtain ⟨c, pc⟩ := s
    obtain ⟨rfl, queue⟩ := wait
    exact if_pos ⟨by simp [hasFrame_nil queue], before⟩
  wakes {s seen} wait due := by
    obtain ⟨c, pc⟩ := s
    obtain ⟨rfl, queue⟩ := wait
    change limit startedAt seen ≤ c.nowMs at due
    refine ⟨(c, .loop _ seen), leads_of_openStep (fun _ _ _ is => .inr ?_) ?_, ⟨rfl, queue⟩, rfl⟩
    · cases is
      exact due
    · simp [openStep, openAnswer, awaitStep, hasFrame_nil queue, queue, due]
  opened {s seen f q arrivals} wait is := by
    obtain ⟨c, pc⟩ := s
    obtain ⟨rfl, queue⟩ := wait
    exact (leads_to_got queue).ends (got_opened is)
  refused {s seen f q arrivals} wait is := by
    obtain ⟨c, pc⟩ := s
    obtain ⟨rfl, queue⟩ := wait
    exact (leads_to_got queue).ends (got_refused is)
  closed {s seen f q} wait _ is := by
    obtain ⟨c, pc⟩ := s
    obtain ⟨rfl, queue⟩ := wait
    exact ⟨_, (leads_to_got queue).trans (got_closed is), ⟨rfl, popFront_queue⟩, rfl⟩
  skipped {s seen f q} wait is := by
    obtain ⟨c, pc⟩ := s
    obtain ⟨rfl, queue⟩ := wait
    exact ⟨_, (leads_to_got queue).trans (got_skipped is), ⟨rfl, popFront_queue⟩, rfl⟩
  arrives {s seen q f} wait named := by
    obtain ⟨c, pc⟩ := s
    obtain ⟨rfl, queue⟩ := wait
    obtain ⟨queue', now⟩ := dispatch_queue queue named
    exact ⟨⟨rfl, queue'⟩, now⟩
  moves _ wait := ⟨wait, rfl⟩

/-- The call registers its stream, sends OPEN and comes to its loop. -/
theorem leads_to_loop (empty : ∀ q, c.streamQueues.lookup id = some q → q = []) :
    ∃ c', (openPoller caller id host port token).Leads (c, .register)
        (c', .loop (c.nowMs + kOpenTimeoutMs) none) ∧
      c'.streamQueues.lookup id = some [] ∧ c'.nowMs = c.nowMs := by
  have registered : (c.registerStream id).streamQueues.lookup id = some [] ∧
      (c.registerStream id).nowMs = c.nowMs := by
    unfold Core.registerStream Core.tryEmplace
    cases queue : c.streamQueues.lookup id with
    | none => simp [Core.note]
    | some q =>
        cases empty q queue
        simp [Core.note, queue]
  let c' := ((c.registerStream id).sendPacket (encodeOpenFrame id host port token) 0).note
    (.openSent caller id)
  refine ⟨c', ?_, registered.1, registered.2⟩
  have registers : (openPoller caller id host port token).Leads (c, .register)
      (c.registerStream id, .sendOpen) := leads_of_openStep (by rintro _ _ _ ⟨⟩) rfl
  have sends : (openPoller caller id host port token).Leads (c.registerStream id, .sendOpen)
      (c', .deadline) := leads_of_openStep (by rintro _ _ _ ⟨⟩) rfl
  have reads : (openPoller caller id host port token).Leads (c', .deadline)
      (c', .loop (c'.nowMs + kOpenTimeoutMs) none) := leads_of_openStep (by rintro _ _ _ ⟨⟩) rfl
  have now : c'.nowMs = c.nowMs := registered.2
  rw [now] at reads
  exact registers.trans (sends.trans reads)

/-- **The code of `TonClientCore::openStream`.** -/
theorem openStream_ends {arrivals : List (Int × InboundFrame)}
    (empty : ∀ q, c.streamQueues.lookup id = some q → q = [])
    (own : ∀ a ∈ arrivals, a.2.streamId = id) (timely : Timely (kinds kind arrivals)) :
    (openPoller caller id host port token).Ends (c, .register) (delayed c.nowMs arrivals)
      (expectedCode 0 (kinds kind arrivals)) := by
  obtain ⟨c', leads, queue, now⟩ := leads_to_loop empty
  exact leads.ends ((openLoop caller id host port token c.nowMs).expected ⟨rfl, queue⟩ now own timely)

end Loop

end Client

/-! ### The Android client -/

namespace Transport

open Android

/-- The kind of a frame of the Android client. -/
def kind (f : InboundFrame) : Kind :=
  match f.type with
  | .unknown => .unknown
  | .opn => .opn
  | .data => .data
  | .close => .close
  | .error => .error

/-- Whether `poll` finds a frame. -/
def NativeTonTransport.hasFrame (n : NativeTonTransport) (r : Ref) : Bool :=
  match n.heap r with
  | some (_ :: _) => true
  | _ => false

/-- The receiver handles one frame. -/
def NativeTonTransport.receive (n : NativeTonTransport) (f : InboundFrame) : NativeTonTransport :=
  match receiverStep (.find [f]) n .go with
  | some (pc, n) => ((receiverStep pc n .go).map (·.2)).getD n
  | none => n

/-- What `openStream` is answered. The CLOSE that follows a timeout may be refused or throw. -/
def openAnswer (closeRet : Option Int) (n : NativeTonTransport) : OpenPc → Act
  | .send _ => .sendRet 0
  | .timedOut => match closeRet with
      | some code => .sendRet code
      | none => .throw
  | .poll _ _ _ r => if n.hasFrame r then .go else .timeout
  | _ => .go

/-- A call of `openStream`, and when it came to where it is: `poll` counts from there. -/
structure Opening where
  transport : NativeTonTransport
  pc : OpenPc
  since : Int

/-- `openStream` on the idealised clock. -/
def openPoller (i : Nat) (id : Int32) (host : String) (port : Int32) (closeRet : Option Int) :
    Poller Opening InboundFrame where
  now s := s.transport.nowMs
  setNow s t := { s with transport := { s.transport with nowMs := t } }
  arrive s f := { s with transport := s.transport.receive f }
  waitsUntil s :=
    match s.pc with
    | .poll _ _ waitMs r =>
        if !s.transport.hasFrame r ∧ s.transport.nowMs < s.since + waitMs then some (s.since + waitMs)
        else none
    | _ => none
  step s :=
    match openStep i id host port s.transport s.pc (openAnswer closeRet s.transport s.pc) with
    | some (.more pc, n) => some (.inl ⟨n, pc, n.nowMs⟩)
    | some (.ret code, _) => some (.inr code)
    | some (.threw, _) | none => none

section Loop

variable {i : Nat} {id : Int32} {host : String} {port : Int32} {closeRet : Option Int}
  {n : NativeTonTransport} {f : InboundFrame} {q : List InboundFrame} {r : Ref}
  {startedAt since waitMs : Int} {seen : Option Int} {arrivals : List (Int × InboundFrame)}

theorem hasFrame_nil (queue : n.heap r = some []) : n.hasFrame r = false := by
  rw [NativeTonTransport.hasFrame, queue]

theorem hasFrame_cons (queue : n.heap r = some (f :: q)) : n.hasFrame r = true := by
  rw [NativeTonTransport.hasFrame, queue]

/-- The call has something to do: it does not poll, or the poll is over. -/
def Busy (s : Opening) : Prop :=
  ∀ startedAt seen waitMs r, s.pc = .poll startedAt seen waitMs r →
    s.transport.hasFrame r = true ∨ s.since + waitMs ≤ s.transport.nowMs

theorem Busy.waitsUntil {s : Opening} (busy : Busy s) :
    (openPoller i id host port closeRet).waitsUntil s = none := by
  simp only [openPoller]
  split
  · rename_i is
    rw [if_neg]
    rintro ⟨empty, before⟩
    rcases busy _ _ _ _ is with has | due
    · simp [has] at empty
    · omega
  · rfl

theorem leads_of_openStep {s : Opening} {pc : OpenPc} {n : NativeTonTransport} (busy : Busy s)
    (h : openStep i id host port s.transport s.pc (openAnswer closeRet s.transport s.pc) =
      some (.more pc, n)) :
    (openPoller i id host port closeRet).Leads s ⟨n, pc, n.nowMs⟩ := by
  refine .step busy.waitsUntil ?_
  simp only [openPoller, h]

theorem ends_of_openStep {s : Opening} {code : Int} {n : NativeTonTransport} (busy : Busy s)
    (h : openStep i id host port s.transport s.pc (openAnswer closeRet s.transport s.pc) =
      some (.ret code, n)) :
    (openPoller i id host port closeRet).Ends s arrivals code := by
  refine .ret busy.waitsUntil ?_
  simp only [openPoller, h]

/-- The receiver puts a frame of the stream into its queue. -/
theorem receive_queue (map : n.queueOf id = some r) (queue : n.heap r = some q) (named : f.streamId = id) :
    (n.receive f).queueOf id = some r ∧ (n.receive f).heap r = some (q ++ [f]) ∧
      (n.receive f).nowMs = n.nowMs := by
  subst named
  have finds : n.streamQueues.lookup f.streamId = some r := map
  simp [NativeTonTransport.receive, receiverStep, NativeTonTransport.queueOf, finds,
    NativeTonTransport.offer, NativeTonTransport.note, queue]

theorem ends_of_timeout (due : startedAt + 20000 ≤ n.nowMs) :
    (openPoller i id host port closeRet).Ends ⟨n, .loop startedAt seen, since⟩ arrivals (-2) := by
  have gone : startedAt + openTimeoutMs - n.nowMs ≤ 0 := by
    simp only [openTimeoutMs]
    omega
  have times : (openPoller i id host port closeRet).Leads ⟨n, .loop startedAt seen, since⟩
      ⟨n, .timedOut, n.nowMs⟩ := leads_of_openStep (by rintro _ _ _ _ ⟨⟩) (if_pos gone)
  refine times.ends ?_
  cases closeRet with
  | none => exact ends_of_openStep (by rintro _ _ _ _ ⟨⟩) rfl
  | some code => exact ends_of_openStep (by rintro _ _ _ _ ⟨⟩) rfl

theorem ends_of_grace {at_ : Int} (before : n.nowMs < startedAt + 20000) (due : at_ + 250 ≤ n.nowMs) :
    (openPoller i id host port closeRet).Ends ⟨n, .loop startedAt (some at_), since⟩ arrivals (-4) := by
  have left : ¬ startedAt + openTimeoutMs - n.nowMs ≤ 0 := by
    simp only [openTimeoutMs]
    omega
  have gone : openCloseGraceMs - (n.nowMs - at_) ≤ 0 := by
    simp only [openCloseGraceMs]
    omega
  exact ends_of_openStep (by rintro _ _ _ _ ⟨⟩) ((if_neg left).trans (if_pos gone))

theorem await_leads (map : n.queueOf id = some r) :
    (openPoller i id host port closeRet).Leads ⟨n, .await startedAt seen waitMs, since⟩
      ⟨n, .poll startedAt seen waitMs r, n.nowMs⟩ := by
  refine leads_of_openStep (by rintro _ _ _ _ ⟨⟩) ?_
  unfold openStep
  dsimp only [openAnswer]
  rw [map]

/-- The loop comes to its `poll`, which lasts to the nearer of the two deadlines. -/
theorem leads_to_poll (map : n.queueOf id = some r) (before : n.nowMs < limit startedAt seen) :
    ∃ waitMs, (openPoller i id host port closeRet).Leads ⟨n, .loop startedAt seen, since⟩
      ⟨n, .poll startedAt seen waitMs r, n.nowMs⟩ ∧ n.nowMs + waitMs = limit startedAt seen := by
  have left : ¬ startedAt + openTimeoutMs - n.nowMs ≤ 0 := by
    have := lt_of_lt_of_le before (limit_le startedAt seen)
    simp only [openTimeoutMs]
    omega
  cases seen with
  | none =>
      have waits : (openPoller i id host port closeRet).Leads ⟨n, .loop startedAt none, since⟩
          ⟨n, .await startedAt none (startedAt + openTimeoutMs - n.nowMs), n.nowMs⟩ :=
        leads_of_openStep (by rintro _ _ _ _ ⟨⟩) (if_neg left)
      exact ⟨_, waits.trans (await_leads map), add_sub_cancel ..⟩
  | some at_ =>
      have grace : ¬ openCloseGraceMs - (n.nowMs - at_) ≤ 0 := by
        have := lt_of_lt_of_le before (min_le_right _ _)
        simp only [openCloseGraceMs]
        omega
      have waits : (openPoller i id host port closeRet).Leads ⟨n, .loop startedAt (some at_), since⟩
          ⟨n, .await startedAt (some at_)
            (min (startedAt + openTimeoutMs - n.nowMs) (openCloseGraceMs - (n.nowMs - at_))), n.nowMs⟩ :=
        leads_of_openStep (by rintro _ _ _ _ ⟨⟩) ((if_neg left).trans (if_neg grace))
      exact ⟨_, waits.trans (await_leads map), Client.await_limit at_⟩

/-- A frame is taken from the queue. -/
theorem leads_to_got (queue : n.heap r = some (f :: q)) :
    (openPoller i id host port closeRet).Leads ⟨n, .poll startedAt seen waitMs r, since⟩
      ⟨n.pollHead i true r f q, .got startedAt seen f, n.nowMs⟩ := by
  have has := hasFrame_cons queue
  refine leads_of_openStep ?_ ?_
  · rintro _ _ _ _ ⟨⟩
    exact .inl has
  · have takes : pollStep i true r n (openAnswer closeRet n (.poll startedAt seen waitMs r)) =
        some (some (some f), n.pollHead i true r f q) := by
      simp [openAnswer, pollStep, has, queue]
    unfold openStep
    dsimp only
    rw [takes]

theorem pollHead_queue (map : n.queueOf id = some r) :
    (n.pollHead i true r f q).queueOf id = some r ∧ (n.pollHead i true r f q).heap r = some q := by
  refine ⟨map, ?_⟩
  simp [NativeTonTransport.pollHead, NativeTonTransport.note]

/-- What becomes of the call with a frame in hand. -/
theorem openStep_got (n : NativeTonTransport) :
    openStep i id host port n (.got startedAt seen f) .go =
      match kind f with
      | .opn => some (.ret 0, n.note (.opened i id))
      | .error => some (.ret (-3), n)
      | .close =>
          match seen with
          | none => some (.more (.loop startedAt (some n.nowMs)), n)
          | some at_ =>
              if openCloseGraceMs ≤ n.nowMs - at_ then some (.ret (-4), n)
              else some (.more (.loop startedAt (some at_)), n)
      | .data | .unknown => some (.more (.loop startedAt seen), n) := by
  unfold openStep
  dsimp only [kind]
  cases f.type <;> rfl

theorem busy_got (n : NativeTonTransport) : Busy ⟨n, .got startedAt seen f, since⟩ := by
  rintro _ _ _ _ ⟨⟩

theorem got_opened (is : kind f = .opn) :
    (openPoller i id host port closeRet).Ends ⟨n, .got startedAt seen f, since⟩ arrivals 0 :=
  ends_of_openStep (busy_got n) ((openStep_got n).trans (by rw [is]))

theorem got_refused (is : kind f = .error) :
    (openPoller i id host port closeRet).Ends ⟨n, .got startedAt seen f, since⟩ arrivals (-3) :=
  ends_of_openStep (busy_got n) ((openStep_got n).trans (by rw [is]))

/-- While the grace time is not over, a repeated CLOSE changes nothing. -/
theorem got_closed (before : n.nowMs < limit startedAt seen) (is : kind f = .close) :
    (openPoller i id host port closeRet).Leads ⟨n, .got startedAt seen f, since⟩
      ⟨n, .loop startedAt (some (seen.getD n.nowMs)), n.nowMs⟩ := by
  refine leads_of_openStep (busy_got n) ((openStep_got n).trans ?_)
  rw [is]
  cases seen with
  | none => rfl
  | some at_ =>
      have grace : ¬ openCloseGraceMs ≤ n.nowMs - at_ := by
        have := lt_of_lt_of_le before (min_le_right _ _)
        simp only [openCloseGraceMs]
        omega
      exact if_neg grace

theorem got_skipped (is : kind f = .data ∨ kind f = .unknown) :
    (openPoller i id host port closeRet).Leads ⟨n, .got startedAt seen f, since⟩
      ⟨n, .loop startedAt seen, n.nowMs⟩ := by
  refine leads_of_openStep (busy_got n) ((openStep_got n).trans ?_)
  rcases is with is | is
  · rw [is]
  · rw [is]

/-- **`NativeTonTransport.openStream` is an open phase.** -/
def openLoop (i : Nat) (id : Int32) (host : String) (port : Int32) (closeRet : Option Int)
    (startedAt : Int) :
    OpenLoop (openPoller i id host port closeRet) startedAt kind (·.streamId = id) where
  Head s seen q := s.pc = .loop startedAt seen ∧
    ∃ r, s.transport.queueOf id = some r ∧ s.transport.heap r = some q
  Wait s seen q := ∃ waitMs r, s.pc = .poll startedAt seen waitMs r ∧
    s.since + waitMs = limit startedAt seen ∧ s.transport.queueOf id = some r ∧
    s.transport.heap r = some q
  timesOut {s seen q arrivals} head due := by
    obtain ⟨n, pc, since⟩ := s
    obtain ⟨rfl, -⟩ := head
    exact ends_of_timeout due
  graceOver {s at_ q arrivals} head before due := by
    obtain ⟨n, pc, since⟩ := s
    obtain ⟨rfl, -⟩ := head
    exact ends_of_grace before due
  waits {s seen q} head before := by
    obtain ⟨n, pc, since⟩ := s
    obtain ⟨rfl, r, map, queue⟩ := head
    obtain ⟨waitMs, leads, ends⟩ := leads_to_poll map before
    exact ⟨_, leads, ⟨waitMs, r, rfl, ends, map, queue⟩, rfl⟩
  blocks {s seen} wait before := by
    obtain ⟨n, pc, since⟩ := s
    obtain ⟨waitMs, r, rfl, ends, map, queue⟩ := wait
    rw [← ends] at before ⊢
    exact if_pos ⟨by simp [hasFrame_nil queue], before⟩
  wakes {s seen} wait due := by
    obtain ⟨n, pc, since⟩ := s
    obtain ⟨waitMs, r, rfl, ends, map, queue⟩ := wait
    refine ⟨⟨n, .loop startedAt seen, n.nowMs⟩, leads_of_openStep ?_ ?_, ⟨rfl, r, map, queue⟩, rfl⟩
    · rintro _ _ _ _ ⟨⟩
      exact .inr (by rw [ends]; exact due)
    · have empty : n.heap r = some [] := queue
      have misses : pollStep i true r n (openAnswer closeRet n (.poll startedAt seen waitMs r)) =
          some (some none, n) := by
        simp [openAnswer, pollStep, hasFrame_nil empty, empty]
      unfold openStep
      dsimp only
      rw [misses]
  opened {s seen f q arrivals} wait is := by
    obtain ⟨n, pc, since⟩ := s
    obtain ⟨waitMs, r, rfl, ends, map, queue⟩ := wait
    exact (leads_to_got queue).ends (got_opened is)
  refused {s seen f q arrivals} wait is := by
    obtain ⟨n, pc, since⟩ := s
    obtain ⟨waitMs, r, rfl, ends, map, queue⟩ := wait
    exact (leads_to_got queue).ends (got_refused is)
  closed {s seen f q} wait before is := by
    obtain ⟨n, pc, since⟩ := s
    obtain ⟨waitMs, r, rfl, ends, map, queue⟩ := wait
    exact ⟨_, (leads_to_got queue).trans (got_closed before is), ⟨rfl, r, pollHead_queue map⟩, rfl⟩
  skipped {s seen f q} wait is := by
    obtain ⟨n, pc, since⟩ := s
    obtain ⟨waitMs, r, rfl, ends, map, queue⟩ := wait
    exact ⟨_, (leads_to_got queue).trans (got_skipped is), ⟨rfl, r, pollHead_queue map⟩, rfl⟩
  arrives {s seen q f} wait named := by
    obtain ⟨n, pc, since⟩ := s
    obtain ⟨waitMs, r, rfl, ends, map, queue⟩ := wait
    obtain ⟨map', queue', now⟩ := receive_queue map queue named
    exact ⟨⟨waitMs, r, rfl, ends, map', queue'⟩, now⟩
  moves _ wait := ⟨wait, rfl⟩

/-- The call registers its stream, sends OPEN and comes to its loop. -/
theorem leads_to_loop {frame : Bytes} (empty : ∀ r, n.queueOf id = some r → n.heap r = some [])
    (sends : openFrame id (toByteArray host) port (toByteArray n.authToken) = some frame) :
    ∃ n' r, (openPoller i id host port closeRet).Leads ⟨n, .start, since⟩
        ⟨n', .loop n.nowMs none, n.nowMs⟩ ∧
      n'.queueOf id = some r ∧ n'.heap r = some [] ∧ n'.nowMs = n.nowMs := by
  have registered : ∃ r, (n.registerStream id).queueOf id = some r ∧
      (n.registerStream id).heap r = some [] ∧ (n.registerStream id).nowMs = n.nowMs ∧
      (n.registerStream id).authToken = n.authToken := by
    unfold NativeTonTransport.registerStream NativeTonTransport.putIfAbsent
    cases map : n.queueOf id with
    | some r => exact ⟨r, map, empty r map, rfl, rfl⟩
    | none => exact ⟨n.newRef id, by simp [NativeTonTransport.queueOf, NativeTonTransport.note]⟩
  obtain ⟨r, map, queue, now, token⟩ := registered
  let n' := ((n.registerStream id).sendPacket frame 0).note (.openSent i id)
  refine ⟨n', r, ?_, map, queue, now⟩
  have starts : (openPoller i id host port closeRet).Leads ⟨n, .start, since⟩
      ⟨n, .register n.nowMs, n.nowMs⟩ := leads_of_openStep (by rintro _ _ _ _ ⟨⟩) rfl
  have registers : (openPoller i id host port closeRet).Leads ⟨n, .register n.nowMs, n.nowMs⟩
      ⟨n.registerStream id, .send n.nowMs, (n.registerStream id).nowMs⟩ :=
    leads_of_openStep (by rintro _ _ _ _ ⟨⟩) rfl
  have sent : (openPoller i id host port closeRet).Leads
      ⟨n.registerStream id, .send n.nowMs, (n.registerStream id).nowMs⟩
      ⟨n', .loop n.nowMs none, n'.nowMs⟩ := by
    refine leads_of_openStep (by rintro _ _ _ _ ⟨⟩) ?_
    unfold openStep
    dsimp only [openAnswer]
    rw [token, sends]
    rfl
  have same : n'.nowMs = n.nowMs := now
  rw [same] at sent
  exact starts.trans (registers.trans sent)

/-- **The code of `NativeTonTransport.openStream`.** -/
theorem openStream_ends {frame : Bytes} (empty : ∀ r, n.queueOf id = some r → n.heap r = some [])
    (sends : openFrame id (toByteArray host) port (toByteArray n.authToken) = some frame)
    (own : ∀ a ∈ arrivals, a.2.streamId = id) (timely : Timely (kinds kind arrivals)) :
    (openPoller i id host port closeRet).Ends ⟨n, .start, since⟩ (delayed n.nowMs arrivals)
      (expectedCode 0 (kinds kind arrivals)) := by
  obtain ⟨n', r, leads, map, queue, now⟩ := leads_to_loop empty sends
  exact leads.ends
    ((openLoop i id host port closeRet n.nowMs).expected ⟨rfl, r, map, queue⟩ now own timely)

end Loop

end Transport

/-! ### The two together -/

/-- **Both clients return the same code.** For every sequence of frames of the stream, in the order of
their times and with none at a deadline, a call of `openStream` whose OPEN is sent and whose queue starts
empty returns, in either client and wherever its clock stands, what `expectedCode` says: 0 or -3 for an
OPEN or an ERROR that comes first, within 20000 ms and within 250 ms of a CLOSE before it, else -4 if the
250 ms end before the 20000 ms, else -2. DATA, unknown frames and repeated CLOSE frames make no
difference. -/
theorem openStream_clients_agree {caller i : Nat} {id : UInt32} {id' : Int32} {host : Bytes} {port : UInt16}
    {token : Bytes} {host' : String} {port' : Int32} {frame : Bytes} {closeRet : Option Int} {since : Int}
    {c : Client.Core} {n : Transport.NativeTonTransport}
    {arrivals : List (Int × Desktop.InboundFrame)} {arrivals' : List (Int × Android.InboundFrame)}
    {frames : List (Int × Kind)}
    (empty : ∀ q, c.streamQueues.lookup id = some q → q = [])
    (empty' : ∀ r, n.queueOf id' = some r → n.heap r = some [])
    (sends : Android.openFrame id' (Android.toByteArray host') port' (Android.toByteArray n.authToken) =
      some frame)
    (own : ∀ a ∈ arrivals, a.2.streamId = id) (own' : ∀ a ∈ arrivals', a.2.streamId = id')
    (is : kinds Client.kind arrivals = frames) (is' : kinds Transport.kind arrivals' = frames)
    (timely : Timely frames) :
    (Client.openPoller caller id host port token).Ends (c, .register) (delayed c.nowMs arrivals)
      (expectedCode 0 frames) ∧
    (Transport.openPoller i id' host' port' closeRet).Ends ⟨n, .start, since⟩ (delayed n.nowMs arrivals')
      (expectedCode 0 frames) ∧
    expectedCode 0 frames = expectedCode 0 (essential false frames) := by
  refine ⟨?_, ?_, (expectedCode_essential 0 frames).symm⟩
  · rw [← is]
    exact Client.openStream_ends empty own (is ▸ timely)
  · rw [← is']
    exact Transport.openStream_ends empty' sends own' (is' ▸ timely)

/-- A CLOSE, some DATA, the CLOSE once more, and 150 ms after the first one the OPEN. -/
def closeThenOpen : List (Int × Kind) := [(10, .close), (20, .data), (100, .close), (160, .opn)]

def desktopCloseThenOpen : List (Int × Desktop.InboundFrame) :=
  [(10, { type := .close, streamId := 1 }), (20, { type := .data, streamId := 1, payload := [120] }),
    (100, { type := .close, streamId := 1 }), (160, { type := .opn, streamId := 1 })]

def androidCloseThenOpen : List (Int × Android.InboundFrame) :=
  [(10, { type := .close, streamId := 1 }), (20, { type := .data, streamId := 1, payload := [120] }),
    (100, { type := .close, streamId := 1 }), (160, { type := .opn, streamId := 1 })]

theorem close_then_open_in_grace :
    (Client.openPoller 0 1 [104] 80 []).Ends ({}, .register) (delayed 0 desktopCloseThenOpen) 0 ∧
    (Transport.openPoller 0 1 "h" 80 none).Ends ⟨{}, .start, 0⟩ (delayed 0 androidCloseThenOpen) 0 := by
  have timely : Timely closeThenOpen := ⟨by decide, by decide, by decide⟩
  have sends : Android.openFrame 1 (Android.toByteArray "h") 80 (Android.toByteArray "") =
      some [1, 0, 0, 0, 1, 0, 1, 104, 0, 80, 0, 0] := by decide +kernel
  have both : (Client.openPoller 0 1 [104] 80 []).Ends ({}, .register) (delayed 0 desktopCloseThenOpen)
        (expectedCode 0 closeThenOpen) ∧
      (Transport.openPoller 0 1 "h" 80 none).Ends ⟨{}, .start, 0⟩ (delayed 0 androidCloseThenOpen)
        (expectedCode 0 closeThenOpen) ∧
      expectedCode 0 closeThenOpen = expectedCode 0 (essential false closeThenOpen) :=
    openStream_clients_agree nofun nofun sends (by decide) (by decide) rfl rfl timely
  rw [show expectedCode 0 closeThenOpen = 0 by decide] at both
  exact ⟨both.1, both.2.1⟩

end TonTunnel
