import TonTunnel.Handler.Moves

/-!
What `handleClient` makes of a client's bytes.

* Whatever way `recv` cuts the stream, a call of `bridgeViaBackend` has the target and
  the payload of accepted bytes at the head of the stream (`parsed_of_reaches`), and
  accepted bytes do lead to such a call (`accepted_run`).
* So the parser is exact but for the streams in which a SOCKS4 string is cut short
  (`parser_exact_iff`).
* The success reply is written before anything is opened: replies are right only on
  the streams in which no request is accepted (`replies_right_iff`).
-/

namespace TonTunnel.Handler

open Interleaving (Reach Machine anyStep)

/-! ### Along a run -/

def Event.isBridged : Event → Bool
  | .bridged .. => true
  | _ => false

/-- The worker has not come to `bridgeViaBackend`. -/
def Pc.inHandshake : Pc → Bool
  | .reading .. | .accepted .. | .replying .. | .closing _ => true
  | _ => false

/-- The bytes that were taken from the stream when the worker is here. -/
def Took (ntop6 : Bytes → Option Bytes) (stream unread : Bytes) : Pc → Prop
  | .reading st got =>
      got.length < st.want ∧ ∃ consumed, stream = consumed ++ got ++ unread ∧
        Before ntop6 st consumed
  | .replying _ _ .request => ∃ consumed, stream = consumed ++ unread ∧
      Before ntop6 .reqHead consumed
  | .accepted v host port | .replying (.ok v) _ (.bridge host port) =>
      ∃ request, stream = request ++ unread ∧ Accepted ntop6 v request host port
  | .replying _ _ (.bridge _ _) => False
  | _ => True

/-- What a run on `stream` keeps. -/
structure Parsed (ntop6 : Bytes → Option Bytes) (stream : Bytes) (σ : State) : Prop where
  took : Took ntop6 stream σ.shared.unread (σ.loc .worker)
  targets {host : Bytes} {port : UInt16} {payload : Bytes} :
    Event.bridged host port payload ∈ σ.shared.log →
      ∃ v request, stream = request ++ payload ∧ Accepted ntop6 v request host port
  fresh : (σ.loc .worker).inHandshake = true →
    σ.shared.closes = 0 ∧ σ.shared.uplink = .unstarted ∧
      ∀ e ∈ σ.shared.log, e.isBridged = false
  idle : σ.shared.uplink = .unstarted → σ.loc .uplink = .testAlive
  settled : (∀ e ∈ σ.shared.log, e.isBridged = false) → (σ.loc .worker).inHandshake = true ∨
    σ.loc .worker = .escaped ∨ (σ.loc .worker = .returned ∧ σ.shared.closes = 1)

variable {ntop6 : Bytes → Option Bytes} {core : Bool} {stream : Bytes} {σ σ' : State}

theorem Before.want_pos {st : Stage} {bs : Bytes} (h : Before ntop6 st bs) : 0 < st.want := by
  cases st with
  | methods n => exact UInt8.lt_iff_toNat_lt.mp (UInt8.pos_iff_ne_zero.mpr h.2)
  | name len =>
      obtain ⟨_, _, _, _, _, some_⟩ := h
      exact UInt8.lt_iff_toNat_lt.mp (UInt8.pos_iff_ne_zero.mpr some_)
  | _ => exact Nat.succ_pos _

/-- A complete field leads on. -/
theorem Leads.took {bs : Bytes} {next : Next} (h : Leads ntop6 bs next) (unread : Bytes) :
    Took ntop6 (bs ++ unread) unread (goOn next) := by
  cases next with
  | read st => exact ⟨h.want_pos, bs, by simp, h⟩
  | methodReply => exact ⟨bs, rfl, h⟩
  | connect v host port => exact ⟨bs, rfl, h⟩
  | refuse4 | drop => trivial

theorem goOn_inHandshake (next : Next) : (goOn next).inHandshake = true := by
  cases next <;> rfl

section Worker

variable {s s' : Session} {pc pc' : Pc} {a : Act}

theorem WorkerMove.took (m : WorkerMove ntop6 core s pc a pc' s')
    (h : Took ntop6 stream s.unread pc) : Took ntop6 stream s'.unread pc' := by
  cases m with
  | @part st got n pos there short =>
      obtain ⟨-, consumed, rfl, before⟩ := h
      refine ⟨?_, consumed, ?_, before⟩
      · rwa [List.length_append, List.length_take, Nat.min_eq_left there]
      · simp [Session.receive]
  | @field st got n pos there full =>
      obtain ⟨-, consumed, rfl, before⟩ := h
      have size : (got ++ s.unread.take n).length = st.want := by
        rwa [List.length_append, List.length_take, Nat.min_eq_left there]
      have leads := (before.field size).took (s.unread.drop n)
      have whole : consumed ++ (got ++ s.unread.take n) ++ s.unread.drop n =
          consumed ++ got ++ s.unread := by simp
      rw [whole] at leads
      exact leads
  | requestNext =>
      obtain ⟨consumed, is, before⟩ := h
      exact ⟨by decide, consumed, by rwa [List.append_nil], before⟩
  | accept => exact h
  | @replyMore r rest n k pos fits =>
      cases k with
      | request => exact h
      | close => trivial
      | bridge host port => cases r <;> exact h
  | @isRunning remote _ => cases remote <;> trivial
  | @leave remote _ => cases remote <;> trivial
  | @join remote remoteEnded _ =>
      unfold joinedPc
      split_ifs <;> trivial
  | _ => trivial

/-- Where a call of `bridgeViaBackend` comes from. -/
theorem WorkerMove.bridged (m : WorkerMove ntop6 core s pc a pc' s') {host payload : Bytes}
    {port : UInt16} (called : Event.bridged host port payload ∈ s'.log) :
    Event.bridged host port payload ∈ s.log ∨
      ∃ r, pc = .replying r [] (.bridge host port) ∧ payload = s.unread := by
  cases m with
  | bridgeNext =>
      simp only [Session.emit, List.mem_append, List.mem_singleton] at called
      rcases called with (old | new) | new
      · exact .inl old
      · cases new
      · cases new
        exact .inr ⟨_, rfl, rfl⟩
  | requestNext | closeNext | openSucceeds | openFails | unresolved | exhausted | connected
  | closeStream =>
      simp only [Session.emit, List.mem_append, List.mem_singleton] at called
      exact .inl (called.resolve_right nofun)
  | _ => exact .inl called

/-- The history only grows. -/
theorem WorkerMove.log_prefix (m : WorkerMove ntop6 core s pc a pc' s') : s.log <+: s'.log := by
  cases m with
  | bridgeNext => exact (List.prefix_append _ _).trans (List.prefix_append _ _)
  | requestNext | closeNext | openSucceeds | openFails | unresolved | exhausted | connected
  | closeStream => exact List.prefix_append _ _
  | _ => exact List.prefix_rfl

/-- A step within the handshake. -/
theorem WorkerMove.inHandshake (m : WorkerMove ntop6 core s pc a pc' s')
    (within : pc'.inHandshake = true) :
    pc.inHandshake = true ∧ s'.closes = s.closes ∧ s'.uplink = s.uplink ∧
      ∀ e ∈ s'.log, e.isBridged = true → e ∈ s.log := by
  cases m with
  | part | field | recvFails | accept | replyMore | replyFails =>
      exact ⟨rfl, rfl, rfl, fun _ mem _ => mem⟩
  | requestNext | closeNext =>
      refine ⟨rfl, rfl, rfl, ?_⟩
      intro e mem bridged
      simp only [Session.emit, List.mem_append, List.mem_singleton] at mem
      refine mem.resolve_right ?_
      rintro rfl
      cases bridged
  | @isRunning remote _ => cases remote <;> cases within
  | @leave remote _ => cases remote <;> cases within
  | @join remote remoteEnded _ =>
      revert within
      unfold joinedPc
      split_ifs <;> exact nofun
  | _ => cases within

/-- A step that leaves the handshake ends it, or calls `bridgeViaBackend`. -/
theorem WorkerMove.leaves (m : WorkerMove ntop6 core s pc a pc' s') (from_ : pc.inHandshake = true) :
    pc'.inHandshake = true ∨ pc' = .escaped ∨ (pc' = .returned ∧ s'.closes = s.closes + 1) ∨
      ∃ e ∈ s'.log, e.isBridged = true := by
  cases m with
  | part | recvFails | accept | replyMore | replyFails | requestNext | closeNext => exact .inl rfl
  | field => exact .inl (goOn_inHandshake _)
  | close => exact .inr (.inr (.inl ⟨rfl, rfl⟩))
  | bridgeNext =>
      exact .inr (.inr (.inr ⟨_, List.mem_append_right _ (List.mem_singleton.mpr rfl), rfl⟩))
  | throws => exact .inr (.inl rfl)
  | _ => cases from_

/-- A worker that has ended takes no step. -/
theorem WorkerMove.goes (m : WorkerMove ntop6 core s pc a pc' s') : pc ≠ .escaped ∧ pc ≠ .returned := by
  constructor
  · rintro rfl
    cases m with
    | throws may => cases may
  · rintro rfl
    cases m with
    | throws may => cases may

/-- Only `spawn` starts the uplink thread. -/
theorem WorkerMove.uplink_started (m : WorkerMove ntop6 core s pc a pc' s')
    (none : s'.uplink = .unstarted) : s.uplink = .unstarted := by
  cases m with
  | spawn => cases none
  | _ => exact none

end Worker

theorem Parsed.workerStep {a : Act} {pc' : Pc} (h : Parsed ntop6 stream σ)
    (m : WorkerMove ntop6 core σ.shared (σ.loc .worker) a pc' σ'.shared)
    (is : σ'.loc = Function.update σ.loc .worker pc') : Parsed ntop6 stream σ' := by
  have at_ : σ'.loc .worker = pc' := by rw [is, Function.update_self]
  have other : σ'.loc .uplink = σ.loc .uplink := by rw [is, Function.update_of_ne (by decide)]
  constructor
  · rw [at_]
    exact m.took h.took
  · intro host port payload called
    rcases m.bridged called with old | ⟨r, pc, rfl⟩
    · exact h.targets old
    · have took := h.took
      rw [pc] at took
      cases r with
      | ok v => exact ⟨v, took⟩
      | method | fail4 => exact took.elim
  · intro within
    rw [at_] at within
    obtain ⟨from_, closes, uplink, old⟩ := m.inHandshake within
    obtain ⟨open_, unstarted, quiet⟩ := h.fresh from_
    refine ⟨closes.trans open_, uplink.trans unstarted, ?_⟩
    intro e mem
    by_contra bridged
    rw [Bool.not_eq_false] at bridged
    rw [quiet e (old e mem bridged)] at bridged
    cases bridged
  · intro none
    rw [other]
    exact h.idle (m.uplink_started none)
  · intro none
    have before : ∀ e ∈ σ.shared.log, e.isBridged = false :=
      fun e mem => none e (m.log_prefix.subset mem)
    rw [at_]
    rcases h.settled before with from_ | escaped | ⟨returned, -⟩
    · rcases m.leaves from_ with within | escaped | ⟨returned, closes⟩ | ⟨e, mem, bridged⟩
      · exact .inl within
      · exact .inr (.inl escaped)
      · refine .inr (.inr ⟨returned, ?_⟩)
        rw [closes, (h.fresh from_).1]
      · rw [none e mem] at bridged
        cases bridged
    · exact absurd escaped m.goes.1
    · exact absurd returned m.goes.2

theorem took_of_left {pc : Pc} {unread : Bytes} (left : pc.inHandshake = false) :
    Took ntop6 stream unread pc := by
  cases pc with
  | reading | accepted | replying | closing => cases left
  | _ => trivial

/-- A step of another thread, which can read from the client only once it was started. -/
theorem Parsed.aside (h : Parsed ntop6 stream σ) (worker : σ'.loc .worker = σ.loc .worker)
    (log : σ'.shared.log = σ.shared.log) (closes : σ'.shared.closes = σ.shared.closes)
    (quiet : σ.shared.uplink = .unstarted → σ'.shared.unread = σ.shared.unread ∧
      σ'.shared.uplink = .unstarted ∧ σ'.loc .uplink = .testAlive)
    (started : σ'.shared.uplink = .unstarted → σ.shared.uplink = .unstarted) :
    Parsed ntop6 stream σ' where
  took := by
    rw [worker]
    cases within : (σ.loc .worker).inHandshake with
    | true =>
        rw [(quiet (h.fresh within).2.1).1]
        exact h.took
    | false => exact took_of_left within
  targets called := h.targets (log ▸ called)
  fresh within := by
    rw [worker] at within
    obtain ⟨open_, unstarted, none⟩ := h.fresh within
    exact ⟨closes.trans open_, (quiet unstarted).2.1, log ▸ none⟩
  idle none := (quiet (started none)).2.2
  settled none := by
    rw [worker, closes]
    exact h.settled (log ▸ none)

/-- What the uplink thread leaves alone. -/
theorem UplinkMove.frame {s s' : Session} {pc pc' : UplinkPc} {a : Act}
    (m : UplinkMove core s pc a pc' s') : s'.log = s.log ∧ s'.closes = s.closes ∧
      (s'.uplink = .unstarted → s.uplink = .unstarted) := by
  cases m with
  | leave => exact ⟨rfl, rfl, nofun⟩
  | _ => exact ⟨rfl, rfl, id⟩

/-- The uplink thread does nothing before it was started. -/
theorem UplinkMove.started {s s' : Session} {pc' : UplinkPc} {a : Act}
    (m : UplinkMove core s .testAlive a pc' s') : s.uplink = .running := by
  cases m with
  | isAlive started _ | notAlive started _ => exact started

theorem Parsed.step {t : ThreadId} {a : Act} (h : Parsed ntop6 stream σ)
    (next : (machine ntop6 core).next σ t a = some σ') : Parsed ntop6 stream σ' := by
  obtain ⟨l, m, is⟩ := next_move next
  cases t with
  | worker => exact h.workerStep m is
  | uplink =>
      obtain ⟨log, closes, started⟩ := UplinkMove.frame m
      refine h.aside (by rw [is, Function.update_of_ne (by decide)]) log closes ?_ started
      intro none
      -- the thread has not been started and cannot have moved
      have m : UplinkMove core σ.shared (σ.loc .uplink) a l σ'.shared := m
      rw [h.idle none] at m
      rw [m.started] at none
      cases none
  | world =>
      have world : σ'.shared.log = σ.shared.log ∧ σ'.shared.closes = σ.shared.closes ∧
          σ'.shared.unread = σ.shared.unread ∧ σ'.shared.uplink = σ.shared.uplink := by
        generalize σ'.shared = s' at m
        cases m with
        | tick | running => exact ⟨rfl, rfl, rfl, rfl⟩
      obtain ⟨log, closes, unread, uplink⟩ := world
      refine h.aside (by rw [is, Function.update_of_ne (by decide)]) log closes ?_
        (fun none => uplink ▸ none)
      intro none
      refine ⟨unread, uplink.trans none, ?_⟩
      rw [is, Function.update_of_ne (by decide)]
      exact h.idle none

theorem parsed_of_reaches (h : Reaches ntop6 core stream σ) : Parsed ntop6 stream σ := by
  refine h.invariant ?_ fun _ _ _ _ _ before _ next => before.step next
  refine ⟨⟨by decide, [], rfl, rfl⟩, nofun, fun _ => ⟨rfl, rfl, nofun⟩, fun _ => rfl, fun _ => .inl rfl⟩

/-! ### Accepted bytes lead to a call -/

/-- A run can go on from here with the worker at `pc`, in the handshake. -/
structure Standing (ntop6 : Bytes → Option Bytes) (core : Bool) (stream : Bytes) (pc : Pc)
    (unread : Bytes) (σ : State) : Prop where
  reaches : Reaches ntop6 core stream σ
  at_ : σ.loc .worker = pc
  unread : σ.shared.unread = unread
  lives : σ.shared.terminated = false
  /-- only the greeting was answered -/
  log : ∀ e ∈ σ.shared.log, e = .replied .method

variable {st : Stage} {bs rest host : Bytes} {v : Version} {port : UInt16}

theorem Standing.go {pc pc' : Pc} {a : Act} {unread unread' : Bytes} {s' : Session}
    (h : Standing ntop6 core stream pc unread σ)
    (moves : workerStep ntop6 core pc σ.shared a = some (pc', s')) (left : s'.unread = unread')
    (lives : s'.terminated = σ.shared.terminated)
    (log : ∀ e ∈ s'.log, e ∈ σ.shared.log ∨ e = .replied .method) :
    ∃ σ', Standing ntop6 core stream pc' unread' σ' := by
  obtain ⟨σ', next, at', -, shared⟩ := worker_next h.at_ h.lives moves
  refine ⟨σ', h.reaches.step trivial next, at', shared ▸ left, ?_, ?_⟩
  · rw [shared, lives, h.lives]
  · intro e mem
    rw [shared] at mem
    rcases log e mem with old | new
    · exact h.log e old
    · exact new

/-- A field comes in one piece. -/
theorem Standing.wholeField {field : Bytes}
    (h : Standing ntop6 core stream (.reading st []) (field ++ rest) σ)
    (size : field.length = st.want) (pos : 0 < st.want) :
    ∃ σ', Standing ntop6 core stream (goOn (after ntop6 st field)) rest σ' := by
  have fits : 0 < field.length ∧ ([] : Bytes).length + field.length ≤ st.want ∧
      field.length ≤ σ.shared.unread.length := by
    rw [h.unread, List.length_append]
    exact ⟨by omega, by simp [size], by omega⟩
  have moves : workerStep ntop6 core (.reading st []) σ.shared (.recvRet (.data field.length)) =
      some (goOn (after ntop6 st field), σ.shared.receive field.length) := by
    simp only [workerStep]
    rw [if_pos fits, h.unread, List.take_left, List.nil_append, if_pos size]
  refine h.go moves ?_ rfl fun e mem => .inl mem
  change σ.shared.unread.drop field.length = rest
  rw [h.unread, List.drop_left]

/-- A reply goes out in one piece. -/
theorem Standing.replied {r : Reply} {b : UInt8} {bytes : Bytes} {k : Then}
    (h : Standing ntop6 core stream (.replying r (b :: bytes) k) rest σ) :
    ∃ σ', Standing ntop6 core stream (.replying r [] k) rest σ' := by
  have moves : workerStep ntop6 core (.replying r (b :: bytes) k) σ.shared
      (.sendRet (b :: bytes).length) = some (.replying r [] k, σ.shared) := by
    have fits : ¬ ((b :: bytes).length : Int) > (b :: bytes).length := by omega
    have some_ : ¬ ((b :: bytes).length : Int) ≤ 0 := by simp
    simp only [workerStep]
    rw [if_neg fits, if_neg some_, Int.toNat_natCast, List.drop_length]
  exact h.go moves h.unread rfl fun e mem => .inl mem

/-- The greeting is answered. -/
theorem Standing.method
    (h : Standing ntop6 core stream (.replying .method Reply.method.bytes .request) rest σ) :
    ∃ σ', Standing ntop6 core stream (.reading .reqHead []) rest σ' := by
  obtain ⟨σ₁, h₁⟩ := h.replied
  have moves : workerStep ntop6 core (.replying .method [] .request) σ₁.shared .go =
      some (.reading .reqHead [], σ₁.shared.emit (.replied .method)) := rfl
  apply h₁.go moves h₁.unread rfl
  intro e mem
  exact (List.mem_append.mp mem).imp_right List.mem_singleton.mp

/-- **What the stages read, the worker accepts.** -/
theorem Reads.run {consumed : Bytes} (h : Reads ntop6 v host port st bs)
    (before : Before ntop6 st consumed)
    (here : Standing ntop6 core stream (.reading st []) (bs ++ rest) σ) :
    ∃ σ', Standing ntop6 core stream (.accepted v host port) rest σ' := by
  induction h generalizing consumed σ with
  | more st' field size goes _ ih =>
      rw [List.append_assoc] at here
      obtain ⟨σ₁, h₁⟩ := here.wholeField size before.want_pos
      have leads := before.field size
      rw [goes] at h₁ leads
      exact ih leads h₁
  | method field size goes _ ih =>
      rw [List.append_assoc] at here
      obtain ⟨σ₁, h₁⟩ := here.wholeField size before.want_pos
      have leads := before.field size
      rw [goes] at h₁ leads
      obtain ⟨σ₂, h₂⟩ := h₁.method
      exact ih leads h₂
  | last size goes =>
      obtain ⟨σ₁, h₁⟩ := here.wholeField size before.want_pos
      rw [goes] at h₁
      exact ⟨σ₁, h₁⟩

/-- **Accepted bytes lead to a call of `bridgeViaBackend`**, right after the success reply. -/
theorem accepted_run {request : Bytes} (core : Bool) (rest : Bytes) (h : Accepted ntop6 v request host port) :
    ∃ σ greeted, Reaches ntop6 core (request ++ rest) σ ∧
      σ.shared.log = greeted ++ [Event.replied (.ok v), .bridged host port rest] ∧
      ∀ e ∈ greeted, e = .replied .method := by
  have here : Standing ntop6 core (request ++ rest) (.reading .greetingHead []) (request ++ rest)
      (start (request ++ rest)) := ⟨.start, rfl, rfl, rfl, nofun⟩
  obtain ⟨σ₁, h₁⟩ := h.reads.run rfl here
  have accepts : workerStep ntop6 core (.accepted v host port) σ₁.shared .go =
      some (.replying (.ok v) (Reply.ok v).bytes (.bridge host port), σ₁.shared) := by
    cases v <;> rfl
  obtain ⟨σ₂, h₂⟩ := h₁.go accepts h₁.unread rfl fun e mem => .inl mem
  obtain ⟨σ₃, h₃⟩ : ∃ σ', Standing ntop6 core (request ++ rest)
      (.replying (.ok v) [] (.bridge host port)) rest σ' := by
    cases v with
    | socks4 => exact h₂.replied
    | socks5 => exact h₂.replied
  have calls : workerStep ntop6 core (.replying (.ok v) [] (.bridge host port)) σ₃.shared .go =
      some (.bridge host port, (σ₃.shared.emit (.replied (.ok v))).emit
        (.bridged host port σ₃.shared.unread)) := rfl
  obtain ⟨σ₄, next, -, -, shared⟩ := worker_next h₃.at_ h₃.lives calls
  refine ⟨σ₄, σ₃.shared.log, h₃.reaches.step trivial next, ?_, h₃.log⟩
  rw [shared, ← h₃.unread]
  simp [Session.emit]

/-! ### The parser -/

/-- What is said of the parser: `bridgeViaBackend` is called with the target of a request at the
head of the stream and with the bytes behind it still to come, and a client that is sent away
without such a call has its connection closed. -/
structure Exact (ntop6 : Bytes → Option Bytes) (stream : Bytes) (σ : State) : Prop where
  target {host : Bytes} {port : UInt16} {payload : Bytes} :
    Event.bridged host port payload ∈ σ.shared.log →
      ∃ request, stream = request ++ payload ∧ Request ntop6 request host port
  rejected : σ.loc .worker = .returned → (∀ e ∈ σ.shared.log, e.isBridged = false) →
    σ.shared.closes = 1

/-- **The request parser is exact** in every run on a stream, whatever way `recv` cuts it, exactly
when no string of a SOCKS4 request is cut short in it. -/
theorem parser_exact_iff :
    (∀ σ, Reaches ntop6 core stream σ → Exact ntop6 stream σ) ↔ ¬ CutShort stream := by
  constructor
  · intro exact_ cut
    obtain ⟨v, request, rest, host, port, rfl, accepted, no⟩ := cut.accepted ntop6
    obtain ⟨σ, greeted, h, log, -⟩ := accepted_run core rest accepted
    have called : Event.bridged host port rest ∈ σ.shared.log := by
      rw [log]
      simp
    obtain ⟨request', is, request₁⟩ := (exact_ σ h).target called
    rw [← List.append_cancel_right is] at request₁
    exact no request₁
  · intro whole σ h
    have parsed := parsed_of_reaches h
    constructor
    · intro host port payload called
      obtain ⟨v, request, rfl, accepted⟩ := parsed.targets called
      exact ⟨request, rfl, accepted.request whole⟩
    · intro returned none
      rcases parsed.settled none with within | escaped | ⟨-, closed⟩
      · rw [returned] at within
        cases within
      · rw [returned] at escaped
        cases escaped
      · exact closed

/-- A SOCKS4 request with a user id of 512 bytes: its terminator is left over as payload. -/
theorem long_user_id_misread :
    ∃ σ, Reaches (fun _ => none) true
        (head4 80 8 8 8 8 ++ List.replicate 512 97 ++ [0]) σ ∧
      Event.bridged (ascii "8.8.8.8") 80 [0] ∈ σ.shared.log ∧
      ¬ Exact (fun _ => none) (head4 80 8 8 8 8 ++ List.replicate 512 97 ++ [0]) σ := by
  have clean : (0 : UInt8) ∉ List.replicate 512 97 := by
    intro mem
    exact absurd (List.eq_of_mem_replicate mem) (by decide)
  have full : (List.replicate 512 (97 : UInt8)).length = scanLimit := List.length_replicate
  have accepted : Accepted (fun _ => none) .socks4 (head4 80 8 8 8 8 ++ List.replicate 512 97)
      (ipv4Text 8 8 8 8) 80 := .socks4 (by decide) (.cut clean full)
  obtain ⟨σ, greeted, h, log, -⟩ := accepted_run true [0] accepted
  have called : Event.bridged (ascii "8.8.8.8") 80 [0] ∈ σ.shared.log := by
    rw [log, show ipv4Text 8 8 8 8 = ascii "8.8.8.8" by decide]
    simp
  refine ⟨σ, h, called, ?_⟩
  intro exact_
  obtain ⟨request, is, request₁⟩ := exact_.target called
  rw [← List.append_cancel_right is] at request₁
  exact not_request_of_clean rfl clean (ne_nil_of_full full) request₁

/-! ### The replies -/

/-- A reply to a request; the answer to the greeting is none. -/
def Event.isReply : Event → Bool
  | .replied .fail4 | .replied (.ok _) => true
  | _ => false

/-- The stream to the target is there. -/
def Event.establishes : Event → Bool
  | .openRet code => code == 0
  | .connectRet ok => ok
  | _ => false

/-- The stream to the target could not be had. -/
def Event.fails : Event → Bool
  | .openRet code => code != 0
  | .connectRet ok => !ok
  | _ => false

/-- What is said of the replies: success only when the stream is there, one reply at most, and a
failure reply when the stream could not be had. -/
structure RepliesRight (σ : State) : Prop where
  honest {v : Version} {before later : List Event} :
    σ.shared.log = before ++ .replied (.ok v) :: later → ∃ e ∈ before, e.establishes = true
  once : σ.shared.log.countP Event.isReply ≤ 1
  told {e : Event} : σ.loc .worker = .returned → e ∈ σ.shared.log → e.fails = true →
    Event.replied .fail4 ∈ σ.shared.log

/-- The client's stream begins with a request that is accepted. -/
def BeginsAccepted (ntop6 : Bytes → Option Bytes) (stream : Bytes) : Prop :=
  ∃ v request rest host port, stream = request ++ rest ∧ Accepted ntop6 v request host port

/-- How many replies there are where nothing was accepted. -/
def repliesAt : Pc → Nat
  | .closing _ | .returned | .escaped => 1
  | _ => 0

/-- Where the worker is when nothing is accepted. -/
def Declining : Pc → Prop
  | .replying r _ .request => r = .method
  | .replying r _ .close => r = .fail4
  | .reading .. | .accepted .. | .replying .. | .closing _ | .returned | .escaped => True
  | _ => False

/-- What a run on a stream keeps in which nothing is accepted. -/
structure Unanswered (log : List Event) (pc : Pc) : Prop where
  few : log.countP Event.isReply ≤ repliesAt pc
  only : ∀ e ∈ log, e = .replied .method ∨ e = .replied .fail4
  at_ : Declining pc

theorem declining_goOn (next : Next) : Declining (goOn next) := by
  cases next <;> trivial

theorem Unanswered.same {log : List Event} {pc pc' : Pc} (h : Unanswered log pc)
    (more : repliesAt pc ≤ repliesAt pc') (at_ : Declining pc') : Unanswered log pc' :=
  ⟨h.few.trans more, h.only, at_⟩

theorem Unanswered.replied {log : List Event} {pc pc' : Pc} {r : Reply} (h : Unanswered log pc)
    (decline : r = .method ∨ r = .fail4)
    (more : repliesAt pc + [Event.replied r].countP Event.isReply ≤ repliesAt pc')
    (at_ : Declining pc') : Unanswered (log ++ [Event.replied r]) pc' := by
  refine ⟨?_, ?_, at_⟩
  · rw [List.countP_append]
    exact (Nat.add_le_add_right h.few _).trans more
  · intro e mem
    rcases List.mem_append.mp mem with old | new
    · exact h.only e old
    · cases List.mem_singleton.mp new
      rcases decline with rfl | rfl
      · exact .inl rfl
      · exact .inr rfl

theorem WorkerMove.unanswered {s s' : Session} {pc pc' : Pc} {a : Act}
    (m : WorkerMove ntop6 core s pc a pc' s') (none : ¬ BeginsAccepted ntop6 stream)
    (took : Took ntop6 stream s.unread pc) (h : Unanswered s.log pc) : Unanswered s'.log pc' := by
  cases m with
  | part => exact h.same (Nat.le_refl _) trivial
  | field => exact h.same (Nat.zero_le _) (declining_goOn _)
  | recvFails => exact h.same (Nat.zero_le _) trivial
  | accept =>
      obtain ⟨request, is, accepted⟩ := took
      exact absurd ⟨_, _, _, _, _, is, accepted⟩ none
  | requestNext =>
      obtain rfl := h.at_
      exact h.replied (.inl rfl) (Nat.le_refl _) trivial
  | closeNext =>
      obtain rfl := h.at_
      exact h.replied (.inr rfl) (Nat.le_refl _) trivial
  | @bridgeNext r host port =>
      cases r with
      | ok v =>
          obtain ⟨request, is, accepted⟩ := took
          exact absurd ⟨_, _, _, _, _, is, accepted⟩ none
      | method | fail4 => exact took.elim
  | @replyMore r rest n k pos fits =>
      refine h.same (Nat.le_refl _) ?_
      cases k with
      | request | close => exact h.at_
      | bridge => trivial
  | replyFails => exact h.same (Nat.zero_le _) trivial
  | close => exact h.same (Nat.le_refl _) trivial
  | throws => exact h.same (by cases pc <;> simp [repliesAt]) trivial
  | _ => exact h.at_.elim

theorem unanswered_of_reaches (h : Reaches ntop6 core stream σ)
    (none : ¬ BeginsAccepted ntop6 stream) : Unanswered σ.shared.log (σ.loc .worker) := by
  refine h.invariant (I := fun σ => Unanswered σ.shared.log (σ.loc .worker)) ?_ ?_
  · exact ⟨Nat.le_refl 0, by simp [start], trivial⟩
  intro σ σ' t a reached before _ next
  obtain ⟨l, m, is⟩ := next_move next
  by_cases mine : t = .worker
  · subst mine
    rw [is, Function.update_self]
    exact WorkerMove.unanswered m none (parsed_of_reaches reached).took before
  · have log : σ'.shared.log = σ.shared.log := by
      cases t with
      | worker => exact absurd rfl mine
      | uplink => exact (UplinkMove.frame m).1
      | world =>
          generalize σ'.shared = s' at m
          cases m <;> rfl
    rw [log, is, Function.update_of_ne (Ne.symm mine)]
    exact before

/-- **The replies are right** in every run on a stream exactly when no request is accepted in it. -/
theorem replies_right_iff :
    (∀ σ, Reaches ntop6 core stream σ → RepliesRight σ) ↔ ¬ BeginsAccepted ntop6 stream := by
  constructor
  · rintro right ⟨v, request, rest, host, port, rfl, accepted⟩
    obtain ⟨σ, greeted, h, log, only⟩ := accepted_run core rest accepted
    obtain ⟨e, mem, establishes⟩ := (right σ h).honest log
    rw [only e mem] at establishes
    cases establishes
  · intro none σ h
    have unanswered := unanswered_of_reaches h none
    constructor
    · intro v before later log
      have mem : Event.replied (.ok v) ∈ σ.shared.log := by
        rw [log]
        simp
      rcases unanswered.only _ mem with is | is <;> cases is
    · apply unanswered.few.trans
      cases σ.loc .worker <;> simp [repliesAt]
    · intro e _ mem fails
      rcases unanswered.only e mem with rfl | rfl <;> cases fails

/-- A SOCKS5 client that asks for 8.8.8.8, port 80. -/
def socks5Stream : Bytes := [5, 1, 0, 5, 1, 0, 1, 8, 8, 8, 8, 0, 80]

/-- The request is read and answered, and `openStream` returns -1. -/
def refusedOpen : List (ThreadId × Act) :=
  [.recvRet (.data 2), .recvRet (.data 1), .sendRet 2, .go, .recvRet (.data 4), .recvRet (.data 4),
    .recvRet (.data 2), .go, .sendRet 10, .go, .go, .openRet (-1), .go].map fun a => (.worker, a)

/-- The client is told of success, and the stream is not opened. -/
theorem refused_open_told_success :
    ∃ σ, Reaches (fun _ => none) true socks5Stream σ ∧
      σ.shared.log = [.replied .method, .replied (.ok .socks5), .bridged (ascii "8.8.8.8") 80 [],
        .openRet (-1)] ∧
      ¬ RepliesRight σ := by
  refine ⟨(machine (fun _ => none) true).run (start socks5Stream) refusedOpen, ?_, by decide, ?_⟩
  · exact (Reach.run (by decide : (machine (fun _ => none) true).follows (fun _ _ _ => true)
      (start socks5Stream) refusedOpen)).any
  · intro right
    exact absurd (right.told (e := .openRet (-1)) (by decide) (by decide) rfl) (by decide)

end TonTunnel.Handler
