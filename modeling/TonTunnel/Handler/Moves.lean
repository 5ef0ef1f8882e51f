import TonTunnel.Handler.Session

/-!
The steps of a connection as relations, one constructor for each way a step can go,
with the inversion lemma of each (`workerStep_move`, `uplinkStep_move`).
-/

namespace TonTunnel.Handler

open Desktop (FrameType)
open Interleaving (Reach Machine)

/-- Where an exception can leave `handleClient`. -/
def Pc.mayThrow : Pc → Bool
  | .reading st got => st.allocates && got.isEmpty
  | .accepted .socks4 _ _ | .closing true | .bridge _ _ | .opening _ _ | .openFailed | .opened
  | .spawn _ | .closeStream => true
  | _ => false

/-- Where the bridge goes from the test of `running_`. -/
def pumpPc : Option Remote → Pc
  | none => .await
  | some r => .recvRemote r

/-- Where the bridge goes when it leaves its loop. -/
def leavePc (remoteEnded : Bool) : Option Remote → Pc
  | none => .closeNow none remoteEnded
  | some r => .closeRemote r

/-- Where the bridge goes when the uplink thread has ended. -/
def joinedPc (remote : Option Remote) (remoteEnded : Bool) : Pc :=
  if remote.isSome then .returned else if remoteEnded then .unregister else .closeStream

/-- The steps of `workerStep`, one constructor each. -/
inductive WorkerMove (ntop6 : Bytes → Option Bytes) (core : Bool) (s : Session) :
    Pc → Act → Pc → Session → Prop
  | part {st got n} (pos : 0 < n) (there : n ≤ s.unread.length)
      (short : got.length + n < st.want) :
      WorkerMove ntop6 core s (.reading st got) (.recvRet (.data n))
        (.reading st (got ++ s.unread.take n)) (s.receive n)
  | field {st got n} (pos : 0 < n) (there : n ≤ s.unread.length)
      (full : got.length + n = st.want) :
      WorkerMove ntop6 core s (.reading st got) (.recvRet (.data n))
        (goOn (after ntop6 st (got ++ s.unread.take n))) (s.receive n)
  | recvFails {st got r} (fails : ∀ n, r ≠ .data n) :
      WorkerMove ntop6 core s (.reading st got) (.recvRet r) (.closing st.logs) s
  | accept {v host port} :
      WorkerMove ntop6 core s (.accepted v host port) .go
        (.replying (.ok v) (Reply.ok v).bytes (.bridge host port)) s
  | requestNext {r} :
      WorkerMove ntop6 core s (.replying r [] .request) .go (.reading .reqHead [])
        (s.emit (.replied r))
  | closeNext {r} :
      WorkerMove ntop6 core s (.replying r [] .close) .go (.closing false) (s.emit (.replied r))
  | bridgeNext {r host port} :
      WorkerMove ntop6 core s (.replying r [] (.bridge host port)) .go (.bridge host port)
        ((s.emit (.replied r)).emit (.bridged host port s.unread))
  | replyMore {r rest n k} (pos : 0 < n) (fits : n.toNat ≤ rest.length) :
      WorkerMove ntop6 core s (.replying r rest k) (.sendRet n) (.replying r (rest.drop n.toNat) k) s
  | replyFails {r rest n k} (fails : n ≤ 0) :
      WorkerMove ntop6 core s (.replying r rest k) (.sendRet n) (.closing false) s
  | close {logs} : WorkerMove ntop6 core s (.closing logs) .go .returned s.closeNow
  | toCore {host port} (on : core = true) :
      WorkerMove ntop6 core s (.bridge host port) .go (.opening host port) s
  | toRemote {host port} (off : core = false) :
      WorkerMove ntop6 core s (.bridge host port) .go (.resolving host port) s
  | openSucceeds {host port} :
      WorkerMove ntop6 core s (.opening host port) (.openRet 0) .opened (s.emit (.openRet 0))
  | openFails {host port code} (fails : code ≠ 0) :
      WorkerMove ntop6 core s (.opening host port) (.openRet code) .openFailed
        (s.emit (.openRet code))
  | openLeft : WorkerMove ntop6 core s .openFailed .go .returned s
  | opened : WorkerMove ntop6 core s .opened .go (.spawn none) s
  | unresolved {host port} :
      WorkerMove ntop6 core s (.resolving host port) (.resolved none) .returned
        (s.emit (.connectRet false))
  | resolved {host port n} :
      WorkerMove ntop6 core s (.resolving host port) (.resolved (some n)) (.addresses n) s
  | exhausted :
      WorkerMove ntop6 core s (.addresses 0) .go .returned (s.emit (.connectRet false))
  | noSocket {left} :
      WorkerMove ntop6 core s (.addresses (left + 1)) (.socketRet false) (.addresses left) s
  | socket {left} :
      WorkerMove ntop6 core s (.addresses (left + 1)) (.socketRet true)
        (.connecting s.nextRemote left) { s with nextRemote := s.nextRemote + 1 }
  | connected {r left} :
      WorkerMove ntop6 core s (.connecting r left) (.connectRet true) (.spawn (some r))
        (s.emit (.connectRet true))
  | refused {r left} :
      WorkerMove ntop6 core s (.connecting r left) (.connectRet false) (.addresses left)
        (s.closeRemote r)
  | spawn {remote} :
      WorkerMove ntop6 core s (.spawn remote) .go (.testAlive remote) { s with uplink := .running }
  | isAlive {remote} (alive : s.alive = true) :
      WorkerMove ntop6 core s (.testAlive remote) .go (.testRunning remote) s
  | notAlive {remote} (dead : s.alive = false) :
      WorkerMove ntop6 core s (.testAlive remote) .go (.leaving remote false) s
  | isRunning {remote} (running : s.running = true) :
      WorkerMove ntop6 core s (.testRunning remote) .go (pumpPc remote) s
  | notRunning {remote} (stopped : s.running = false) :
      WorkerMove ntop6 core s (.testRunning remote) .go (.leaving remote false) s
  | noFrame : WorkerMove ntop6 core s .await (.frame none) (.testAlive none) s
  | emptyData :
      WorkerMove ntop6 core s .await (.frame (some (.data, []))) (.testAlive none)
        { s with frames := s.frames ++ [[]] }
  | data {payload} (some_ : payload ≠ []) :
      WorkerMove ntop6 core s .await (.frame (some (.data, payload))) (.sendAll none payload)
        { s with frames := s.frames ++ [payload] }
  | ended {type payload} (ends : type = .close ∨ type = .error) :
      WorkerMove ntop6 core s .await (.frame (some (type, payload))) (.leaving none true) s
  | otherFrame {type payload} (other : type = .opn ∨ type = .unknown) :
      WorkerMove ntop6 core s .await (.frame (some (type, payload))) (.testAlive none) s
  | remoteEnds {r} :
      WorkerMove ntop6 core s (.recvRemote r) (.remoteRecv none) (.leaving (some r) false) s
  | remoteData {r data} :
      WorkerMove ntop6 core s (.recvRemote r) (.remoteRecv (some data)) (.sendAll (some r) data) s
  | sentAll {remote} : WorkerMove ntop6 core s (.sendAll remote []) .go (.testAlive remote) s
  | sendMore {remote rest n} (pos : 0 < n) (fits : n.toNat ≤ rest.length) :
      WorkerMove ntop6 core s (.sendAll remote rest) (.sendRet n)
        (.sendAll remote (rest.drop n.toNat))
        { s with delivered := s.delivered ++ rest.take n.toNat }
  | sendFails {remote rest n} (fails : n ≤ 0) :
      WorkerMove ntop6 core s (.sendAll remote rest) (.sendRet n) (.leaving remote false) s
  | leave {remote remoteEnded} :
      WorkerMove ntop6 core s (.leaving remote remoteEnded) .go (leavePc remoteEnded remote)
        { s with alive := false }
  | closeRemote {r} :
      WorkerMove ntop6 core s (.closeRemote r) .go (.closeNow (some r) false) (s.closeRemote r)
  | closeNow {remote remoteEnded} :
      WorkerMove ntop6 core s (.closeNow remote remoteEnded) .go (.join remote remoteEnded)
        s.closeNow
  | join {remote remoteEnded} (exited : s.uplink = .exited) :
      WorkerMove ntop6 core s (.join remote remoteEnded) .go (joinedPc remote remoteEnded) s
  | closeStream : WorkerMove ntop6 core s .closeStream .go .unregister (s.emit .closeSent)
  | unregister : WorkerMove ntop6 core s .unregister .go .returned s
  | throws {pc} (may : pc.mayThrow = true) : WorkerMove ntop6 core s pc .throw .escaped s

variable {ntop6 : Bytes → Option Bytes} {core : Bool} {s s' : Session} {a : Act}

theorem workerStep_move {pc pc' : Pc} (h : workerStep ntop6 core pc s a = some (pc', s')) :
    WorkerMove ntop6 core s pc a pc' s' := by
  unfold workerStep at h
  split at h
  -- the handshake
  · next st got n =>
      split at h
      · next fits =>
          obtain ⟨pos, fits, there⟩ := fits
          have len : (got ++ s.unread.take n).length = got.length + n := by
            rw [List.length_append, List.length_take, Nat.min_eq_left there]
          cases h
          rw [len]
          split
          · next full => exact .field pos there full
          · next part => exact .part pos there (by omega)
      · cases h
  · next r fails =>
      cases h
      exact .recvFails fun n is => fails n is
  · split at h <;> cases h
    exact .throws (by simpa [Pc.mayThrow])
  · cases h
    exact .accept
  · cases h
    exact .throws rfl
  · next k =>
      cases k <;> cases h
      · exact .requestNext
      · exact .closeNext
      · exact .bridgeNext
  · split at h
    · cases h
    · next fits =>
        split at h <;> cases h
        · exact .replyFails ‹_›
        · exact .replyMore (by omega) (by omega)
  · cases h
    exact .close
  · cases h
    exact .throws rfl
  · cases h
    split
    · exact .toCore ‹_›
    · exact .toRemote (Bool.eq_false_iff.mpr ‹_›)
  · cases h
    exact .throws rfl
  -- with a core
  · cases h
    split
    · next zero =>
        subst zero
        exact .openSucceeds
    · next fails => exact .openFails fails
  · cases h
    exact .throws rfl
  · cases h
    exact .openLeft
  · cases h
    exact .throws rfl
  · cases h
    exact .opened
  · cases h
    exact .throws rfl
  -- without one
  · cases h
    exact .unresolved
  · cases h
    exact .resolved
  · cases h
    exact .exhausted
  · cases h
    exact .noSocket
  · cases h
    exact .socket
  · cases h
    exact .connected
  · cases h
    exact .refused
  -- the bridge
  · cases h
    exact .spawn
  · cases h
    exact .throws rfl
  · cases h
    split
    · exact .isAlive ‹_›
    · exact .notAlive (Bool.eq_false_iff.mpr ‹_›)
  · split at h
    · split at h <;> cases h
      · exact .isRunning ‹_›
      · exact .isRunning ‹_›
    · cases h
      exact .notRunning (Bool.eq_false_iff.mpr ‹_›)
  · cases h
    exact .noFrame
  · next type payload =>
      cases type <;> cases h
      · exact .otherFrame (.inr rfl)
      · exact .otherFrame (.inl rfl)
      · split
        · next none =>
            rw [List.isEmpty_iff] at none
            subst none
            exact .emptyData
        · next some_ => exact .data (by simpa using some_)
      · exact .ended (.inl rfl)
      · exact .ended (.inr rfl)
  · cases h
    exact .remoteEnds
  · split at h <;> cases h
    exact .remoteData
  · cases h
    exact .sentAll
  · split at h
    · cases h
    · split at h <;> cases h
      · exact .sendFails ‹_›
      · exact .sendMore (by omega) (by omega)
  · next remote remoteEnded =>
      cases h
      cases remote with
      | none => exact .leave
      | some r => exact .leave
  · cases h
    exact .closeRemote
  · cases h
    exact .closeNow
  · split at h <;> cases h
    exact .join ‹_›
  · cases h
    exact .closeStream
  · cases h
    exact .throws rfl
  · cases h
    exact .unregister
  · cases h

/-- The steps of `uplinkStep`, one constructor each. -/
inductive UplinkMove (core : Bool) (s : Session) : UplinkPc → Act → UplinkPc → Session → Prop
  | isAlive (started : s.uplink = .running) (alive : s.alive = true) :
      UplinkMove core s .testAlive .go .testRunning s
  | notAlive (started : s.uplink = .running) (dead : s.alive = false) :
      UplinkMove core s .testAlive .go .leaving s
  | isRunning (running : s.running = true) :
      UplinkMove core s .testRunning .go (.recv s.now) s
  | notRunning (stopped : s.running = false) : UplinkMove core s .testRunning .go .leaving s
  | data {since n} (pos : 0 < n) (there : n ≤ s.unread.length) (openSocket : s.closes = 0) :
      UplinkMove core s (.recv since) (.recvRet (.data n))
        (if core then .sending (s.unread.take n) else .forwarding (s.unread.take n)) (s.receive n)
  | timeout {since} (waited : since + receiveTimeoutMs ≤ s.now) :
      UplinkMove core s (.recv since) (.recvRet .timeout) .leaving s
  | recvFails {since r} (fails : r = .endOfStream ∨ r = .error) :
      UplinkMove core s (.recv since) (.recvRet r) .leaving s
  | sent {payload} : UplinkMove core s (.sending payload) (.dataRet 0) .testAlive s
  | notSent {payload code} (fails : code ≠ 0) :
      UplinkMove core s (.sending payload) (.dataRet code) .leaving s
  | throws {payload} :
      UplinkMove core s (.sending payload) .throw .exited { s with terminated := true }
  | forwarded : UplinkMove core s (.forwarding []) .go .testAlive s
  | forwardMore {rest n} (pos : 0 < n) :
      UplinkMove core s (.forwarding rest) (.sendRet n) (.forwarding (rest.drop n.toNat)) s
  | forwardFails {rest n} (fails : n ≤ 0) :
      UplinkMove core s (.forwarding rest) (.sendRet n) .leaving s
  | leave : UplinkMove core s .leaving .go .exited { s with alive := false, uplink := .exited }

theorem uplinkStep_move {pc pc' : UplinkPc} (h : uplinkStep core pc s a = some (pc', s')) :
    UplinkMove core s pc a pc' s' := by
  unfold uplinkStep at h
  split at h
  · split at h <;> cases h
    split
    · exact .isAlive ‹_› ‹_›
    · exact .notAlive ‹_› (Bool.eq_false_iff.mpr ‹_›)
  · cases h
    split
    · exact .isRunning ‹_›
    · exact .notRunning (Bool.eq_false_iff.mpr ‹_›)
  · split at h
    · next fits =>
        cases h
        exact .data fits.1 fits.2.2.1 fits.2.2.2
    · cases h
  · split at h <;> cases h
    exact .timeout ‹_›
  · next r noData noTimeout =>
      cases h
      cases r with
      | data n => exact absurd rfl (noData n)
      | timeout => exact absurd rfl noTimeout
      | endOfStream => exact .recvFails (.inl rfl)
      | error => exact .recvFails (.inr rfl)
  · cases h
    split
    · next zero =>
        subst zero
        exact .sent
    · next fails => exact .notSent fails
  · cases h
    exact .throws
  · cases h
    exact .forwarded
  · split at h
    · cases h
    · split at h <;> cases h
      · exact .forwardFails ‹_›
      · exact .forwardMore (by omega)
  · cases h
    exact .leave
  · cases h

/-- The steps of the world. -/
inductive WorldMove (s : Session) : Act → Session → Prop
  | tick {ms} : WorldMove s (.tick ms) { s with now := s.now + ms }
  | running {on} : WorldMove s (.running on) { s with running := on }

/-- The steps of a thread. -/
def Move (ntop6 : Bytes → Option Bytes) (core : Bool) (s : Session) :
    (t : ThreadId) → Local t → Act → Local t → Session → Prop
  | .worker, pc, a, pc', s' => WorkerMove ntop6 core s pc a pc' s'
  | .uplink, pc, a, pc', s' => UplinkMove core s pc a pc' s'
  | .world, _, a, _, s' => WorldMove s a s'

/-- **Every step is one of the listed moves.** -/
theorem next_move {σ σ' : State} {t : ThreadId} (h : (machine ntop6 core).next σ t a = some σ') :
    ∃ l, Move ntop6 core σ.shared t (σ.loc t) a l σ'.shared ∧
      σ'.loc = Function.update σ.loc t l := by
  obtain ⟨l, s', moves, rfl⟩ := Machine.next_eq_some h
  change (if σ.shared.terminated then none else threadStep ntop6 core t (σ.loc t) σ.shared a) = _
    at moves
  split at moves
  · cases moves
  · refine ⟨l, ?_, rfl⟩
    cases t with
    | worker => exact workerStep_move moves
    | uplink => exact uplinkStep_move moves
    | world =>
        change worldStep σ.shared a = _ at moves
        unfold worldStep at moves
        split at moves <;> cases moves
        · exact .tick
        · exact .running

/-- A worker's step as a step of the connection. -/
theorem worker_next {σ : State} {pc pc' : Pc} (at_ : σ.loc .worker = pc)
    (lives : σ.shared.terminated = false)
    (moves : workerStep ntop6 core pc σ.shared a = some (pc', s')) :
    ∃ σ', (machine ntop6 core).next σ .worker a = some σ' ∧ σ'.loc .worker = pc' ∧
      σ'.loc .uplink = σ.loc .uplink ∧ σ'.shared = s' := by
  have steps : (machine ntop6 core).step .worker (σ.loc .worker) σ.shared a = some (pc', s') := by
    change (if σ.shared.terminated then none else _) = _
    rw [if_neg (by simp [lives]), at_]
    exact moves
  refine ⟨⟨Function.update σ.loc .worker pc', s'⟩, ?_, by simp, by simp, rfl⟩
  rw [Machine.next, steps]
  rfl

end TonTunnel.Handler
