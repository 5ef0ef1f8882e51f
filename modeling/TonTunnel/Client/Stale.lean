import TonTunnel.Client.TransportQueues
import TonTunnel.Client.OpenPhase

/-!
Stale frames and `openStream` on Android.

`NativeTonTransport` outlives every `LocalSocks5Server`, whose stream ids start at
1 again, and a late control frame leaves a queue for its id that the next
`registerStream` reuses. A frame for an id that waits there, or in the receiver's
hands, when a new `openStream` sends its OPEN decides that call
(`stale_ack_opens`). Without such frames the call depends on nothing that was
received before (`open_verdict_ignores_earlier_frames`): two states that differ in
earlier frames for the id give the same result under every schedule, and 0 is
returned only for an ACK that arrived after the OPEN was sent.
-/

namespace TonTunnel.Transport

open TonTunnel Android Client NativeTonTransport
open Interleaving (Reach anyStep)

/-! ### Two transports that differ in old queues of one id -/

/-- The queue is of another id, or as new as `E`. -/
def Recent (id : Int32) (E : Nat) (r : Ref) : Prop := r.1 = id → E ≤ r.2

/-- The transports agree in all that a step reads, but for queues of `id` older than `E`. -/
structure Alike (id : Int32) (E : Nat) (n₁ n₂ : NativeTonTransport) : Prop where
  nowMs : n₁.nowMs = n₂.nowMs
  authToken : n₁.authToken = n₂.authToken
  epoch : n₁.epoch = n₂.epoch
  queueOf (j : Int32) : n₁.queueOf j = n₂.queueOf j
  heap (r : Ref) : Recent id E r → n₁.heap r = n₂.heap r
  late : E ≤ n₁.epoch id

section Alike

variable {id : Int32} {E : Nat} {n₁ n₂ : NativeTonTransport}

theorem Alike.congr {n₁' n₂' : NativeTonTransport} (h : Alike id E n₁ n₂)
    (same₁ : SameQueues n₁ n₁') (same₂ : SameQueues n₂ n₂') (nowMs : n₁'.nowMs = n₂'.nowMs)
    (authToken : n₁'.authToken = n₂'.authToken) : Alike id E n₁' n₂' where
  nowMs := nowMs
  authToken := authToken
  epoch := by rw [same₁.epoch, same₂.epoch, h.epoch]
  queueOf j := by
    have := h.queueOf j
    rwa [NativeTonTransport.queueOf, NativeTonTransport.queueOf, ← same₁.streamQueues,
      ← same₂.streamQueues] at this
  heap r recent := by rw [same₁.heap, same₂.heap, h.heap r recent]
  late := by rw [same₁.epoch]; exact h.late

theorem Alike.note (h : Alike id E n₁ n₂) (e : Note Int32 Ref InboundFrame) :
    Alike id E (n₁.note e) (n₂.note e) :=
  h.congr ⟨rfl, rfl, rfl⟩ ⟨rfl, rfl, rfl⟩ h.nowMs h.authToken

theorem Alike.sendPacket (h : Alike id E n₁ n₂) (packet : Bytes) (code : Int) :
    Alike id E (n₁.sendPacket packet code) (n₂.sendPacket packet code) := by
  unfold NativeTonTransport.sendPacket
  split
  · exact h.congr ⟨rfl, rfl, rfl⟩ ⟨rfl, rfl, rfl⟩ h.nowMs h.authToken
  · exact h

theorem Alike.update (h : Alike id E n₁ n₂) (r : Ref) (l : List InboundFrame) :
    Alike id E { n₁ with heap := Function.update n₁.heap r (some l) }
      { n₂ with heap := Function.update n₂.heap r (some l) } where
  nowMs := h.nowMs
  authToken := h.authToken
  epoch := h.epoch
  queueOf := h.queueOf
  heap p recent := by
    by_cases same : p = r
    · subst same
      simp
    · simpa [same] using h.heap p recent
  late := h.late

theorem Alike.putIfAbsent (h : Alike id E n₁ n₂) (j : Int32) :
    Alike id E (n₁.putIfAbsent j) (n₂.putIfAbsent j) := by
  have ref : n₁.newRef j = n₂.newRef j := by rw [newRef, newRef, h.epoch]
  unfold NativeTonTransport.putIfAbsent
  rw [← h.queueOf j, ← ref]
  split
  · exact h
  · have filled := h.update (n₁.newRef j) []
    apply Alike.note
    refine ⟨filled.nowMs, filled.authToken, filled.epoch, ?_, filled.heap, filled.late⟩
    intro k
    by_cases same : k = j
    · subst same
      simp [NativeTonTransport.queueOf]
    · simpa [NativeTonTransport.queueOf, same] using h.queueOf k

theorem Alike.registerStream (h : Alike id E n₁ n₂) (j : Int32) :
    Alike id E (n₁.registerStream j) (n₂.registerStream j) :=
  (h.putIfAbsent j).note _

theorem Alike.unregisterStream (h : Alike id E n₁ n₂) (j : Int32) :
    Alike id E (n₁.unregisterStream j) (n₂.unregisterStream j) := by
  unfold NativeTonTransport.unregisterStream
  apply Alike.note
  refine ⟨h.nowMs, h.authToken, ?_, ?_, h.heap, ?_⟩
  · simp [h.epoch]
  · intro k
    by_cases same : k = j
    · subst same
      simp [NativeTonTransport.queueOf]
    · simpa [NativeTonTransport.queueOf, same] using h.queueOf k
  · by_cases same : id = j
    · subst same
      simpa using Nat.le_succ_of_le h.late
    · simpa [same] using h.late

theorem Alike.offer (h : Alike id E n₁ n₂) {r : Ref} (recent : Recent id E r) (f : InboundFrame) :
    Alike id E (n₁.offer r f) (n₂.offer r f) := by
  unfold NativeTonTransport.offer
  rw [← h.heap r recent]
  exact (h.update r _).note _

theorem Alike.pollHead (h : Alike id E n₁ n₂) (i : Nat) (o : Bool) (r : Ref) (f : InboundFrame)
    (rest : List InboundFrame) :
    Alike id E (n₁.pollHead i o r f rest) (n₂.pollHead i o r f rest) := by
  unfold NativeTonTransport.pollHead
  apply Alike.note
  exact h.update r rest

/-- The same outcome, and transports that stay alike. -/
def SameOutcome {Out : Type} (id : Int32) (E : Nat) (p q : Out × NativeTonTransport) : Prop :=
  p.1 = q.1 ∧ Alike id E p.2 q.2

theorem Alike.both {Out : Type} {out : Out} (h : Alike id E n₁ n₂) :
    Option.Rel (SameOutcome id E) (some (out, n₁)) (some (out, n₂)) :=
  .some ⟨rfl, h⟩

/-! ### Both take the same step -/

variable {a : Act}

theorem pollStep_alike (h : Alike id E n₁ n₂) {i : Nat} {o : Bool} {r : Ref}
    (recent : Recent id E r) :
    Option.Rel (SameOutcome id E) (pollStep i o r n₁ a) (pollStep i o r n₂ a) := by
  unfold pollStep
  rw [← h.heap r recent]
  split
  · split
    · exact (h.pollHead _ _ _ _ _).both
    · exact .none
  · split
    · exact .none
    · exact h.both
  · exact h.both
  · exact .none

theorem openStep_alike (h : Alike id E n₁ n₂) {i : Nat} {j : Int32} {host : String} {port : Int32}
    {pc : OpenPc} (recent : ∀ t₀ seen w r, pc = .poll t₀ seen w r → Recent id E r) :
    Option.Rel (SameOutcome id E) (openStep i j host port n₁ pc a)
      (openStep i j host port n₂ pc a) := by
  unfold openStep
  split
  · rw [h.nowMs]
    exact h.both
  · exact (h.registerStream j).both
  · rw [← h.authToken]
    split
    · exact h.both
    · split
      · exact ((h.sendPacket _ _).note _).both
      · exact (h.sendPacket _ _).both
    · exact h.both
    · exact .none
  · rw [← h.nowMs]
    dsimp only
    split
    · exact h.both
    · split
      · split
        · exact h.both
        · exact h.both
      · exact h.both
  · exact (h.sendPacket _ _).both
  · exact h.both
  · rw [← h.queueOf]
    split
    · exact h.both
    · exact h.both
  · next _ t₀ seen w r =>
      have polled := pollStep_alike h (recent t₀ seen w r rfl) (i := i) (o := true) (a := a)
      revert polled
      generalize pollStep i true r n₁ a = first
      generalize pollStep i true r n₂ a = second
      intro polled
      cases polled with
      | none => exact .none
      | @some p q related =>
          obtain ⟨out, n₁'⟩ := p
          obtain ⟨out', n₂'⟩ := q
          obtain ⟨rfl, alike⟩ := related
          cases out with
          | none => exact alike.both
          | some found =>
              cases found with
              | none => exact alike.both
              | some f => exact alike.both
  · rw [← h.nowMs]
    split
    · exact (h.note _).both
    · exact h.both
    · split
      · exact h.both
      · split
        · exact h.both
        · exact h.both
    · exact h.both
    · exact h.both
  · exact .none

theorem receiverStep_alike (h : Alike id E n₁ n₂) {pc : ReceiverPc}
    (recent : ∀ r f fs, pc = .offer r f fs → Recent id E r) :
    Option.Rel (SameOutcome id E) (receiverStep pc n₁ a) (receiverStep pc n₂ a) := by
  unfold receiverStep
  split
  · split
    · exact h.both
    · exact h.both
    · exact h.both
  · exact h.both
  · exact h.both
  · rw [← h.queueOf]
    split
    · exact (h.note _).both
    · split
      · exact h.both
      · exact (h.note _).both
  · next f fs =>
      have emplaced := h.putIfAbsent f.streamId
      dsimp only
      rw [← emplaced.queueOf]
      cases (n₁.putIfAbsent f.streamId).queueOf f.streamId with
      | none => exact .none
      | some r => exact (emplaced.note _).both
  · next r f fs => exact (h.offer (recent r f fs rfl) f).both
  · exact .none

theorem sendStep_alike (h : Alike id E n₁ n₂) {j : Int32} {payload : Bytes} {offset : Nat} :
    Option.Rel (SameOutcome id E) (sendStep j payload offset n₁ a)
      (sendStep j payload offset n₂ a) := by
  unfold sendStep
  split
  · split
    · exact h.both
    · exact .none
  · split
    · exact .none
    · dsimp only
      split
      · exact (h.sendPacket _ _).both
      · exact (h.sendPacket _ _).both
  · split
    · exact .none
    · exact h.both
  · exact .none

/-- The queue that a caller holds is recent. -/
def CallerPc.HoldsRecent (id : Int32) (E : Nat) : CallerPc → Prop
  | .opening _ _ _ (.poll _ _ _ r) | .polling _ r => Recent id E r
  | _ => True

def ReceiverPc.HoldsRecent (id : Int32) (E : Nat) : ReceiverPc → Prop
  | .offer r _ _ => Recent id E r
  | _ => True

def Local.HoldsRecent (id : Int32) (E : Nat) : (t : ThreadId) → Local t → Prop
  | .receiver, pc => ReceiverPc.HoldsRecent id E pc
  | .clock, _ => True
  | .caller _, pc => CallerPc.HoldsRecent id E pc

theorem callerStep_alike (h : Alike id E n₁ n₂) {i : Nat} {pc : CallerPc}
    (recent : pc.HoldsRecent id E) :
    Option.Rel (SameOutcome id E) (callerStep i pc n₁ a) (callerStep i pc n₂ a) := by
  unfold callerStep
  split
  · split
    · exact h.both
    · exact .none
  · split
    · exact h.both
    · exact .none
  · split
    · exact (h.registerStream _).both
    · exact .none
  · split
    · exact (h.unregisterStream _).both
    · exact .none
  · next j host port pc =>
      have holds : ∀ t₀ seen w r, pc = .poll t₀ seen w r → Recent id E r := by
        rintro t₀ seen w r rfl
        exact recent
      have opened : Option.Rel (SameOutcome id E) (openStep i j host port n₁ pc a)
        (openStep i j host port n₂ pc a) := openStep_alike h holds
      revert opened
      generalize openStep i j host port n₁ pc a = first
      generalize openStep i j host port n₂ pc a = second
      intro opened
      cases opened with
      | none => exact .none
      | @some p q related =>
          obtain ⟨out, n₁'⟩ := p
          obtain ⟨out', n₂'⟩ := q
          obtain ⟨rfl, alike⟩ := related
          cases out with
          | _ => exact alike.both
  · exact sendStep_alike h
  · split
    · exact (h.sendPacket _ _).both
    · exact h.both
    · exact .none
  · rw [← h.queueOf]
    split
    · split
      · exact h.both
      · exact h.both
    · exact .none
  · next j r =>
      have polled := pollStep_alike h (show Recent id E r from recent) (i := i) (o := false) (a := a)
      revert polled
      generalize pollStep i false r n₁ a = first
      generalize pollStep i false r n₂ a = second
      intro polled
      cases polled with
      | none => exact .none
      | some related => exact .some ⟨rfl, related.2⟩

theorem clockStep_alike (h : Alike id E n₁ n₂) :
    Option.Rel (SameOutcome id E) (clockStep n₁ a) (clockStep n₂ a) := by
  unfold clockStep
  split
  · next ms =>
      have set : Alike id E { n₁ with nowMs := ms } { n₂ with nowMs := ms } :=
        h.congr ⟨rfl, rfl, rfl⟩ ⟨rfl, rfl, rfl⟩ rfl h.authToken
      exact set.both
  · exact .none

theorem step_alike (h : Alike id E n₁ n₂) {t : ThreadId} {l : Local t}
    (recent : Local.HoldsRecent id E t l) :
    Option.Rel (SameOutcome id E) (step t l n₁ a) (step t l n₂ a) := by
  cases t with
  | receiver =>
      refine receiverStep_alike h ?_
      rintro r f fs rfl
      exact recent
  | clock => exact clockStep_alike h
  | caller i => exact callerStep_alike h recent

/-! ### The queues that threads hold -/

variable {n n' : NativeTonTransport}

/-- An entry of the map is a recent queue. -/
theorem recent_of_queueOf (named : Named n) (late : E ≤ n.epoch id) {j : Int32} {r : Ref}
    (h : n.queueOf j = some r) : Recent id E r := by
  intro own
  obtain ⟨rfl, -⟩ := named.entry j r h
  obtain rfl : j = id := own
  exact late

theorem step_recent {t : ThreadId} {l l' : Local t} (named : Named n) (late : E ≤ n.epoch id)
    (h : step t l n a = some (l', n')) : Local.HoldsRecent id E t l' := by
  cases t with
  | receiver =>
      cases receiverStep_move h with
      | found found => exact recent_of_queueOf named late found
      | created found =>
          refine recent_of_queueOf (named.putIfAbsent _) ?_ found
          unfold NativeTonTransport.putIfAbsent
          split
          · exact late
          · exact late
      | _ => trivial
  | clock => trivial
  | caller i =>
      cases callerStep_move h with
      | enter call | enterAgain call =>
          cases call with
          | _ => trivial
      | opening m =>
          cases m with
          | found found => exact recent_of_queueOf named late found
          | _ => trivial
      | sends sent =>
          obtain ⟨rfl | ⟨offset, rfl⟩, -, -⟩ := sendStep_inv sent
          · trivial
          · trivial
      | found found => exact recent_of_queueOf named late found
      | _ => trivial

end Alike

/-- Two states that differ in old queues of `id` and in their histories only. -/
structure Twins (authToken : String) (id : Int32) (E : Nat) (s₁ s₂ : State) : Prop where
  reached : Reach machine anyStep (initial authToken) s₁
  loc : s₁.loc = s₂.loc
  alike : Alike id E s₁.shared s₂.shared
  recent (t : ThreadId) : Local.HoldsRecent id E t (s₁.loc t)

theorem Twins.keeps {authToken : String} {id : Int32} {E : Nat} (s₁ s₂ : State) (t : ThreadId)
    (a : Act) (h : Twins authToken id E s₁ s₂) :
    Option.Rel (Twins authToken id E) (machine.next s₁ t a) (machine.next s₂ t a) := by
  have both : Option.Rel (SameOutcome id E) (step t (s₁.loc t) s₁.shared a)
      (step t (s₂.loc t) s₂.shared a) := by
    rw [← h.loc]
    exact step_alike h.alike (h.recent t)
  cases first : step t (s₁.loc t) s₁.shared a with
  | none =>
      cases second : step t (s₂.loc t) s₂.shared a with
      | none =>
          have none₁ : machine.next s₁ t a = none := by simp [Interleaving.Machine.next, machine, first]
          have none₂ : machine.next s₂ t a = none := by simp [Interleaving.Machine.next, machine, second]
          rw [none₁, none₂]
          exact .none
      | some q =>
          rw [first, second] at both
          cases both
  | some p =>
      cases second : step t (s₂.loc t) s₂.shared a with
      | none =>
          rw [first, second] at both
          cases both
      | some q =>
          have next₁ : machine.next s₁ t a = some ⟨Function.update s₁.loc t p.1, p.2⟩ := by
            simp [Interleaving.Machine.next, machine, first]
          have next₂ : machine.next s₂ t a = some ⟨Function.update s₂.loc t q.1, q.2⟩ := by
            simp [Interleaving.Machine.next, machine, second]
          rw [first, second] at both
          cases both with
          | some related =>
              rw [next₁, next₂]
              refine .some ⟨.step h.reached trivial next₁, ?_, related.2, fun t' => ?_⟩
              · rw [h.loc, related.1]
              · by_cases same : t' = t
                · subst same
                  have named := named_of_reach h.reached
                  simpa using step_recent named.shared h.alike.late first
                · simpa [same] using h.recent t'

/-! ### Sending the OPEN without frames left from before -/

/-- The frames that the receiver has in hand. -/
def ReceiverPc.frames : ReceiverPc → List InboundFrame
  | .receive => []
  | .find fs => fs
  | .create f fs | .offer _ f fs => f :: fs

/-- The caller is in a call that takes frames of the id. -/
def CallerPc.TakesFor (id : Int32) : CallerPc → Prop
  | .opening j _ _ _ | .awaiting j | .polling j _ => j = id
  | _ => False

/-- No frame for the id is left from before: its queue is there and empty, the receiver has
none in hand, and no other thread is in a call that takes frames of the id. -/
structure Clean (i : Nat) (id : Int32) (s : State) : Prop where
  queue : ∃ r, s.shared.queueOf id = some r ∧ s.shared.heap r = some []
  hands : ∀ f ∈ ReceiverPc.frames (s.loc .receiver), f.streamId ≠ id
  alone : ∀ j, j ≠ i → ¬ CallerPc.TakesFor id (s.loc (.caller j))

/-- A caller stands in `openStream` before `sendPacket`. -/
def AtSend (i : Nat) (id : Int32) (s : State) : Prop :=
  ∃ host port t₀, s.loc (.caller i) = CallerPc.opening id host port (.send t₀)

/-- If the step hands over the OPEN of an `openStream`, nothing for its id is left. -/
def SendsClean (s : State) (t : ThreadId) (a : Act) : Prop :=
  ∀ i id, t = .caller i → AtSend i id s → a = .sendRet 0 → Clean i id s

/-- The receiver's place without the frames of the id. -/
def ReceiverPc.without (id : Int32) : ReceiverPc → ReceiverPc
  | .receive => .receive
  | .find fs => .find (fs.filter (·.streamId ≠ id))
  | .create f fs =>
      if f.streamId = id then .find (fs.filter (·.streamId ≠ id))
      else .create f (fs.filter (·.streamId ≠ id))
  | .offer r f fs =>
      if f.streamId = id then .find (fs.filter (·.streamId ≠ id))
      else .offer r f (fs.filter (·.streamId ≠ id))

/-- The states differ only in the frames for `id` that were received so far: in the queues
of the id, in what the receiver has in hand, and in the histories. -/
structure DifferInFrames (id : Int32) (s₁ s₂ : State) : Prop where
  callers (j : Nat) : s₁.loc (.caller j) = s₂.loc (.caller j)
  receiver : ReceiverPc.without id (s₁.loc .receiver) = ReceiverPc.without id (s₂.loc .receiver)
  nowMs : s₁.shared.nowMs = s₂.shared.nowMs
  authToken : s₁.shared.authToken = s₂.shared.authToken
  epoch : s₁.shared.epoch = s₂.shared.epoch
  queueOf (j : Int32) : j ≠ id → s₁.shared.queueOf j = s₂.shared.queueOf j
  heap (r : Ref) : r.1 ≠ id → s₁.shared.heap r = s₂.shared.heap r

theorem ReceiverPc.without_eq {id : Int32} {pc : ReceiverPc}
    (none : ∀ f ∈ pc.frames, f.streamId ≠ id) : pc.without id = pc := by
  have kept : ∀ fs : List InboundFrame, (∀ f ∈ fs, f.streamId ≠ id) →
      fs.filter (·.streamId ≠ id) = fs := by
    intro fs others
    rw [List.filter_eq_self]
    intro f mem
    simpa using others f mem
  cases pc with
  | receive => rfl
  | find fs => rw [without, kept fs none]
  | create f fs | offer r f fs =>
      rw [without, if_neg (none f List.mem_cons_self),
        kept fs fun g mem => none g (List.mem_cons_of_mem _ mem)]

/-- The queue that a thread holds is of the stream it works for. -/
def Local.Own : (t : ThreadId) → Local t → Prop
  | .receiver, (.offer r f _ : ReceiverPc) => r.1 = f.streamId
  | .caller _, (.opening id _ _ (.poll _ _ _ r) : CallerPc) => r.1 = id
  | .caller _, (.polling id r : CallerPc) => r.1 = id
  | _, _ => True

theorem own_of_queueOf {n : NativeTonTransport} {j : Int32} {r : Ref} (named : Named n)
    (h : n.queueOf j = some r) : r.1 = j := by
  rw [(named.entry j r h).1]
  rfl

theorem step_own {n n' : NativeTonTransport} {a : Act} {t : ThreadId} {l l' : Local t}
    (named : Named n) (h : step t l n a = some (l', n')) : Local.Own t l' := by
  cases t with
  | receiver =>
      cases receiverStep_move h with
      | found found => exact own_of_queueOf named found
      | created found => exact own_of_queueOf (named.putIfAbsent _) found
      | _ => trivial
  | clock => trivial
  | caller i =>
      cases callerStep_move h with
      | enter call | enterAgain call =>
          cases call with
          | _ => trivial
      | opening m =>
          cases m with
          | found found => exact own_of_queueOf named found
          | _ => trivial
      | sends sent =>
          obtain ⟨rfl | ⟨offset, rfl⟩, -, -⟩ := sendStep_inv sent
          · trivial
          · trivial
      | found found => exact own_of_queueOf named found
      | _ => trivial

theorem own_of_reach {authToken : String} {s : State}
    (h : Reach machine anyStep (initial authToken) s) (t : ThreadId) : Local.Own t (s.loc t) := by
  have holds : Interleaving.Holds (fun _ => True) (fun t l _ => Local.Own t l) s := by
    refine h.threadModular ?_ ?_ ?_
    · refine ⟨trivial, fun t => ?_⟩
      cases t with
      | _ => trivial
    · intro s t a l n reached _ _ step
      exact ⟨trivial, step_own (named_of_reach reached).shared step⟩
    · intro s t a l n _ before _ _ t' _
      exact before.loc t'
  exact holds.loc t

/-- A receiver without a frame of the id in hand holds no queue of the id. -/
theorem ReceiverPc.holdsRecent_of_hands {id : Int32} {E : Nat} {pc : ReceiverPc}
    (own : Local.Own .receiver pc) (hands : ∀ f ∈ pc.frames, f.streamId ≠ id) :
    pc.HoldsRecent id E := by
  cases pc with
  | offer r f fs =>
      intro same
      exact absurd ((show r.1 = f.streamId from own).symm.trans same) (hands f List.mem_cons_self)
  | _ => trivial

/-- A caller that takes no frames of the id holds no queue of the id. -/
theorem CallerPc.holdsRecent_of_alone {id : Int32} {E j : Nat} {pc : CallerPc}
    (own : Local.Own (.caller j) pc) (alone : ¬ pc.TakesFor id) : pc.HoldsRecent id E := by
  cases pc with
  | opening k host port pc =>
      cases pc with
      | poll t₀ seen w r =>
          intro same
          exact absurd ((show r.1 = k from own).symm.trans same) alone
      | _ => trivial
  | polling k r =>
      intro same
      exact absurd ((show r.1 = k from own).symm.trans same) alone
  | _ => trivial

/-- A queue of a later epoch does not exist yet. -/
theorem NativeTonTransport.Named.heap_of_later {n : NativeTonTransport} {r : Ref} (named : Named n)
    (later : n.epoch r.1 < r.2) : n.heap r = none := by
  rw [← Option.not_isSome_iff_eq_none]
  intro known
  exact absurd (named.past r known) (Nat.not_le_of_lt later)

/-- Clean states that differ only in earlier frames for the id are twins. -/
theorem DifferInFrames.twins {authToken : String} {i : Nat} {id : Int32} {s₁ s₂ : State}
    (differ : DifferInFrames id s₁ s₂) (h₁ : Reach machine anyStep (initial authToken) s₁)
    (h₂ : Reach machine anyStep (initial authToken) s₂) (at₁ : AtSend i id s₁)
    (clean₁ : Clean i id s₁) (clean₂ : Clean i id s₂) :
    Twins authToken id (s₁.shared.epoch id) s₁ s₂ := by
  have named₁ := (named_of_reach h₁).shared
  have named₂ := (named_of_reach h₂).shared
  have ref : s₁.shared.newRef id = s₂.shared.newRef id := by rw [newRef, newRef, differ.epoch]
  obtain ⟨r₁, found₁, empty₁⟩ := clean₁.queue
  obtain ⟨r₂, found₂, empty₂⟩ := clean₂.queue
  obtain ⟨rfl, -⟩ := named₁.entry id r₁ found₁
  obtain ⟨rfl, -⟩ := named₂.entry id r₂ found₂
  refine ⟨h₁, ?_, ⟨differ.nowMs, differ.authToken, differ.epoch, ?_, ?_, le_rfl⟩, ?_⟩
  · funext t
    cases t with
    | receiver =>
        have same := differ.receiver
        rw [ReceiverPc.without_eq clean₁.hands, ReceiverPc.without_eq clean₂.hands] at same
        exact same
    | clock => rfl
    | caller j => exact differ.callers j
  · intro j
    by_cases same : j = id
    · subst same
      rw [found₁, found₂, ref]
    · exact differ.queueOf j same
  · intro r recent
    by_cases own : r.1 = id
    · have late : s₁.shared.epoch id ≤ r.2 := recent own
      rcases Nat.eq_or_lt_of_le late with now | later
      · obtain rfl : r = s₁.shared.newRef id := Prod.ext own now.symm
        rw [empty₁, ref, empty₂]
      · subst own
        have later₂ : s₂.shared.epoch r.1 < r.2 := by
          rw [← differ.epoch]
          exact later
        rw [named₁.heap_of_later later, named₂.heap_of_later later₂]
    · exact differ.heap r own
  · intro t
    have own := own_of_reach h₁ t
    cases t with
    | receiver => exact ReceiverPc.holdsRecent_of_hands own clean₁.hands
    | clock => trivial
    | caller j =>
        by_cases self : j = i
        · subst self
          obtain ⟨host, port, t₀, atSend⟩ := at₁
          show CallerPc.HoldsRecent id _ (s₁.loc (.caller j))
          rw [atSend]
          trivial
        · exact CallerPc.holdsRecent_of_alone own (clean₁.alone j self)

/-! ### What arrived since the OPEN -/

/-- `openStream` past `sendPacket`, in its wait loop. -/
def OpenPc.waits : OpenPc → Bool
  | .loop _ _ | .await _ _ _ | .poll _ _ _ _ | .got _ _ _ => true
  | _ => false

/-- The history since the caller's last OPEN, which was for `id`: the frames that are in the
queues of the id that are as new as `E`, or on their way there, arrived in it. -/
structure SinceSent (i : Nat) (id : Int32) (E : Nat) (since : List (Note Int32 Ref InboundFrame))
    (pc : ReceiverPc) (n : NativeTonTransport) : Prop where
  sent : ∃ pre, n.notes = pre ++ .openSent i id :: since
  last (j : Int32) : .openSent i j ∉ since
  late : E ≤ n.epoch id
  queued (r : Ref) (l : List InboundFrame) : r.1 = id → E ≤ r.2 → n.heap r = some l →
    ∀ f ∈ l, .inbound id f ∈ since
  inHand (r : Ref) (f : InboundFrame) (fs : List InboundFrame) : pc = .offer r f fs →
    r.1 = id → E ≤ r.2 → .inbound id f ∈ since

section SinceSent

variable {i : Nat} {id : Int32} {E : Nat} {since : List (Note Int32 Ref InboundFrame)}
  {pc pc' : ReceiverPc} {n n' : NativeTonTransport} {a : Act}

/-- A step of another thread than the receiver, which is not another OPEN of the caller. -/
theorem SinceSent.other {w : Scope} (h : SinceSent i id E since pc n) (move : Move w n n')
    (plain : ¬ w.offers) {new : List (Note Int32 Ref InboundFrame)}
    (notes : n'.notes = n.notes ++ new) (unsent : ∀ j, .openSent i j ∉ new) :
    SinceSent i id E (since ++ new) pc n' where
  sent := by
    obtain ⟨pre, split⟩ := h.sent
    exact ⟨pre, by rw [notes, split, List.append_assoc, List.cons_append]⟩
  last j mem := (List.mem_append.mp mem).elim (h.last j) (unsent j)
  late := h.late.trans (move.epoch_le id)
  queued r l own late found f mem := by
    obtain ⟨l', found', mem'⟩ := move.heap_sub plain found mem
    exact List.mem_append_left _ (h.queued r l' own late found' f mem')
  inHand r f fs same own late := List.mem_append_left _ (h.inHand r f fs same own late)

/-- A step of the receiver. -/
theorem SinceSent.receiver (h : SinceSent i id E since pc n) (named : Named n)
    (ready : pc.Ready n) (move : ReceiverMove n pc a pc' n') :
    ∃ new, SinceSent i id E (since ++ new) pc' n' := by
  have plain : ∀ {n' pc'} (e : Note Int32 Ref InboundFrame), Move ⟨fun _ => False, False, False⟩ n n' →
      n'.notes = n.notes ++ [e] → (∀ j, e ≠ .openSent i j) →
      (∀ r f fs, pc' = .offer r f fs → r.1 = id → .inbound id f = e) →
      SinceSent i id E (since ++ [e]) pc' n' := by
    intro n' pc' e move notes quiet fresh
    have kept := h.other move False.elim notes (fun j mem => quiet j (List.mem_singleton.mp mem).symm)
    refine ⟨kept.sent, kept.last, kept.late, kept.queued, ?_⟩
    intro r f fs same own _
    rw [fresh r f fs same own]
    simp
  have still : ∀ {pc'}, (∀ r f fs, pc' ≠ .offer r f fs) → SinceSent i id E (since ++ []) pc' n := by
    intro pc' away
    rw [List.append_nil]
    exact ⟨h.sent, h.last, h.late, h.queued, fun r f fs same => absurd same (away r f fs)⟩
  cases move with
  | idle => exact ⟨[], still (by simp)⟩
  | received => exact ⟨[], still (by simp)⟩
  | finished => exact ⟨[], still (by simp)⟩
  | creates _ => exact ⟨[], still (by simp)⟩
  | @found f fs r found =>
      refine ⟨[.inbound f.streamId f], plain _ (.find (.inl (by rw [found, Option.isSome_some]))) rfl
        (by simp) ?_⟩
      intro r' f' fs' same own
      cases same
      rw [← own, own_of_queueOf named found]
  | drops control =>
      exact ⟨_, plain _ (.find (.inr control)) rfl (by simp) (by simp)⟩
  | @created f fs r found =>
      have emplaced : ∃ new, (n.putIfAbsent f.streamId).notes = n.notes ++ new ∧
          ∀ j, .openSent i j ∉ new := by
        unfold putIfAbsent
        split
        · exact ⟨[], by simp, by simp⟩
        · exact ⟨[.created _], rfl, by simp⟩
      obtain ⟨new, notes, unsent⟩ := emplaced
      have create : Move ⟨fun _ => False, False, False⟩ n _ := .create (f := f) ready
      have grown : ((n.putIfAbsent f.streamId).note (.inbound f.streamId f)).notes =
          n.notes ++ (new ++ [.inbound f.streamId f]) := by simp [note, notes]
      have kept := h.other create False.elim grown (fun j mem => by simp [unsent j] at mem)
      refine ⟨new ++ [.inbound f.streamId f], kept.sent, kept.last, kept.late, kept.queued, ?_⟩
      intro r' f' fs' same own _
      cases same
      rw [← own, own_of_queueOf (named.putIfAbsent _) found]
      simp
  | @offers r f fs =>
      refine ⟨[.put r f], ?_⟩
      obtain ⟨pre, split⟩ := h.sent
      refine ⟨⟨pre, ?_⟩, ?_, h.late, ?_, by simp⟩
      · rw [NativeTonTransport.offer, note, split, List.append_assoc, List.cons_append]
      · intro j mem
        rcases List.mem_append.mp mem with mem | mem
        · exact h.last j mem
        · simp at mem
      · intro p l own late found g mem
        refine List.mem_append_left _ ?_
        by_cases same : p = r
        · subst same
          obtain ⟨l₀, known⟩ := Option.isSome_iff_exists.mp ready
          obtain rfl : l₀ ++ [f] = l := by
            simpa [NativeTonTransport.offer, note, known] using found
          rcases List.mem_append.mp mem with mem | mem
          · exact h.queued p l₀ own late known g mem
          · rw [List.mem_singleton.mp mem]
            exact h.inHand p f fs rfl own late
        · refine h.queued p l own late ?_ g mem
          simpa [NativeTonTransport.offer, note, same] using found

end SinceSent

/-- A caller in the wait loop of `openStream`: the queue it polls is as new as its OPEN, and
the frame it is looking at arrived since. -/
def Waiting (i : Nat) (s : State) : Prop :=
  ∀ id host port pc, s.loc (.caller i) = CallerPc.opening id host port pc → pc.waits = true →
    ∃ E since, SinceSent i id E since (s.loc .receiver) s.shared ∧
      (∀ t₀ seen w r, pc = .poll t₀ seen w r → E ≤ r.2) ∧
      (∀ t₀ seen f, pc = .got t₀ seen f → .inbound id f ∈ since)

/-- `openStream` returned 0 for an ACK that arrived since it sent its OPEN. -/
def AckSinceSent (i : Nat) (id : Int32) (pre : List (Note Int32 Ref InboundFrame)) : Prop :=
  ∃ before since f, pre = before ++ .openSent i id :: since ∧ (∀ j, .openSent i j ∉ since) ∧
    isAck f = true ∧ .inbound id f ∈ since

/-- The OPEN is sent with nothing left from before. -/
theorem Clean.sinceSent {authToken : String} {i : Nat} {id : Int32} {s : State} (frame : Bytes)
    (reached : Reach machine anyStep (initial authToken) s) (clean : Clean i id s) :
    SinceSent i id (s.shared.epoch id) [] (s.loc .receiver)
      ((s.shared.sendPacket frame 0).note (.openSent i id)) := by
  have named := (named_of_reach reached).shared
  have same : (s.shared.sendPacket frame 0).heap = s.shared.heap :=
    (sameQueues_sendPacket s.shared frame 0).1.heap
  obtain ⟨r₀, found, empty⟩ := clean.queue
  obtain ⟨rfl, -⟩ := named.entry id r₀ found
  refine ⟨⟨s.shared.notes, ?_⟩, by simp, ?_, ?_, ?_⟩
  · rw [note, (sameQueues_sendPacket s.shared frame 0).2]
  · rw [note, (sameQueues_sendPacket s.shared frame 0).1.epoch]
  · intro r l own late content f mem
    rw [note, same] at content
    have past := named.past r (by rw [content, Option.isSome_some])
    rw [own] at past
    obtain rfl : r = s.shared.newRef id := Prod.ext own (le_antisymm past late)
    rw [empty] at content
    cases content
    cases mem
  · intro r f fs atOffer own _
    have mine := own_of_reach reached .receiver
    have hands := clean.hands
    rw [atOffer] at mine hands
    exact absurd ((show r.1 = f.streamId from mine).symm.trans own) (hands f List.mem_cons_self)

section Waiting

variable {authToken : String} {s : State} {i : Nat} {n : NativeTonTransport} {a : Act}

/-- The caller's own step, from the wait loop or from `sendPacket` into it. -/
theorem Waiting.own {pc pc' : CallerPc} (reached : Reach machine anyStep (initial authToken) s)
    (before : Waiting i s) (here : s.loc (.caller i) = pc)
    (clean : ∀ id, AtSend i id s → a = .sendRet 0 → Clean i id s)
    (move : CallerMove i s.shared pc a pc' n) {id : Int32} {host : String} {port : Int32}
    {q : OpenPc} (there : pc' = .opening id host port q) (waits : q.waits = true) :
    ∃ E since, SinceSent i id E since (s.loc .receiver) n ∧
      (∀ t₀ seen w r, q = .poll t₀ seen w r → E ≤ r.2) ∧
      (∀ t₀ seen f, q = .got t₀ seen f → .inbound id f ∈ since) := by
  have named := (named_of_reach reached).shared
  cases move with
  | enter call | enterAgain call =>
      cases call with
      | openStream =>
          cases there
          cases waits
      | _ => cases there
  | sends sent =>
      obtain ⟨rfl | ⟨offset, rfl⟩, -, -⟩ := sendStep_inv sent
      · cases there
      · cases there
  | @opening id' host' port' p q' a' n' m =>
      cases there
      -- a step within the wait loop keeps what is known since the OPEN
      have stays : p.waits = true → ∀ new, n.notes = s.shared.notes ++ new →
          (∀ j, .openSent i j ∉ new) → ∃ E since, SinceSent i id E (since ++ new) (s.loc .receiver) n ∧
            SinceSent i id E since (s.loc .receiver) s.shared ∧
            (∀ t₀ seen w r, p = .poll t₀ seen w r → E ≤ r.2) := by
        intro inLoop new notes unsent
        obtain ⟨E, since, known, polls, -⟩ := before id host port p here inLoop
        exact ⟨E, since, known.other m.move False.elim notes unsent, known, polls⟩
      cases m with
      | start | register | late _ => cases waits
      | sent frame =>
          have fresh := (clean id ⟨host, port, _, here⟩ rfl).sinceSent frame reached
          exact ⟨_, _, fresh, by simp, by simp⟩
      | inTime | missing _ | ignored _ =>
          obtain ⟨E, since, known, -, -⟩ := stays rfl [] (by simp) (by simp)
          exact ⟨E, _, known, by simp, by simp⟩
      | found found =>
          obtain ⟨E, since, known, old, -⟩ := stays rfl [] (by simp) (by simp)
          refine ⟨E, _, known, ?_, by simp⟩
          intro t₀ seen w r same
          cases same
          obtain ⟨rfl, -⟩ := named.entry _ _ found
          exact old.late
      | nothing polled =>
          have same := pollStep_nothing polled
          obtain ⟨E, since, known, -, -⟩ := stays rfl [] (by simp [same]) (by simp)
          exact ⟨E, _, known, by simp, by simp⟩
      | @took t₀ w seen r f _ _ polled =>
          obtain ⟨rest, content, rfl⟩ := pollStep_took polled
          obtain ⟨E, since, known, old, polls⟩ := stays rfl [.taken i true r f] rfl (by simp)
          refine ⟨E, _, known, by simp, ?_⟩
          intro t₁ seen' f' same
          cases same
          have mine := own_of_reach reached (.caller i)
          rw [here] at mine
          exact List.mem_append_left _
            (old.queued r _ mine (polls _ _ _ _ rfl) content f List.mem_cons_self)
  | _ => cases there

/-- The step of another thread. -/
theorem Waiting.other {t : ThreadId} {l : Local t}
    (reached : Reach machine anyStep (initial authToken) s) (before : Waiting i s)
    (step : step t (s.loc t) s.shared a = some (l, n)) (other : t ≠ .caller i) :
    Waiting i ⟨Function.update s.loc t l, n⟩ := by
  have named := named_of_reach reached
  have move := step_move (named.loc t) step
  intro id host port pc there waits
  have here : s.loc (.caller i) = CallerPc.opening id host port pc :=
    (Function.update_of_ne (Ne.symm other) l s.loc).symm.trans there
  obtain ⟨E, since, known, polls, looks⟩ := before id host port pc here waits
  by_cases receiver : t = .receiver
  · subst receiver
    obtain ⟨new, known'⟩ :=
      known.receiver named.shared (named.loc .receiver) (receiverStep_move step)
    refine ⟨E, since ++ new, by simpa using known', polls, ?_⟩
    intro t₀ seen f same
    exact List.mem_append_left _ (looks t₀ seen f same)
  · obtain ⟨new, notes, -, covers⟩ := move.extends named.shared
    have unsent : ∀ j, .openSent i j ∉ new := fun j mem => other ((covers _ mem).callers i rfl)
    refine ⟨E, since ++ new, ?_, polls, ?_⟩
    · have same : Function.update s.loc t l .receiver = s.loc .receiver :=
        Function.update_of_ne (Ne.symm receiver) l s.loc
      show SinceSent i id E (since ++ new) (Function.update s.loc t l .receiver) n
      rw [same]
      exact known.other move receiver notes unsent
    · intro t₀ seen f same
      exact List.mem_append_left _ (looks t₀ seen f same)

/-- A return with 0 is for an ACK that arrived since the OPEN. -/
theorem Waiting.ackSinceSent {pc pc' : CallerPc} (before : Waiting i s)
    (here : s.loc (.caller i) = pc) (move : CallerMove i s.shared pc a pc' n)
    (named : Named s.shared) (acks : AtOpened AckSinceSent s.shared.notes) :
    AtOpened AckSinceSent n.notes := by
  obtain ⟨new, notes, -, covers⟩ := move.move.extends named
  by_cases zero : pc' = .opened 0
  · subst zero
    obtain ⟨id, host, port, t₀, seen, f, rfl, type, rfl⟩ := move.opened_zero
    obtain ⟨E, since, known, -, looks⟩ := before id host port _ here rfl
    obtain ⟨pre, split⟩ := known.sent
    refine acks.concat fun j k same => ?_
    cases same
    exact ⟨pre, since, f, split, known.last, by simp [isAck, type], looks t₀ seen f rfl⟩
  · rw [notes]
    exact acks.append fun e mem j k same => zero ((covers e mem).opens j k same)

theorem waiting_of_reach (h : Reach machine SendsClean (initial authToken) s) :
    (∀ i, Waiting i s) ∧ AtOpened AckSinceSent s.shared.notes := by
  refine h.invariant (I := fun s => (∀ i, Waiting i s) ∧ AtOpened AckSinceSent s.shared.notes) ?_ ?_
  · refine ⟨?_, .nil⟩
    intro i id host port pc there
    cases there
  · intro s s' t a guarded before ok next
    have reached := guarded.any
    have named := named_of_reach reached
    obtain ⟨l, n, step, rfl⟩ := Interleaving.Machine.next_eq_some next
    refine ⟨fun i => ?_, ?_⟩
    · by_cases self : t = .caller i
      · subst self
        intro id host port pc there waits
        have clean : ∀ id, AtSend i id s → a = .sendRet 0 → Clean i id s :=
          fun id atSend accepted => ok i id rfl atSend accepted
        have moved : l = CallerPc.opening id host port pc := by simpa using there
        exact (before.1 i).own reached rfl clean (callerStep_move step) moved waits
      · exact (before.1 i).other reached step self
    · cases t with
      | caller i =>
          exact (before.1 i).ackSinceSent rfl (callerStep_move step) named.shared before.2
      | receiver =>
          obtain ⟨new, notes, -, covers⟩ :=
            ((receiverStep_move step).move (named.loc .receiver)).extends named.shared
          have kept : AtOpened AckSinceSent n.notes := by
            rw [notes]
            exact before.2.append fun e mem j k same => (covers e mem).opens j k same
          exact kept
      | clock =>
          have move : Move ⟨fun _ => False, False, False⟩ s.shared n := clockStep_move step
          obtain ⟨new, notes, -, covers⟩ := move.extends named.shared
          have kept : AtOpened AckSinceSent n.notes := by
            rw [notes]
            exact before.2.append fun e mem j k same => (covers e mem).opens j k same
          exact kept

end Waiting

/-- **The verdict of `openStream` does not depend on earlier frames**, in runs in which every
OPEN is sent with nothing for its id left. Two such runs whose states differ only in the
frames for the id received so far, when a call is about to send its OPEN, bring that call to
the same result under every further schedule; and 0 was returned only for an ACK that arrived
after the call had sent its OPEN. -/
theorem open_verdict_ignores_earlier_frames {authToken : String} {s₁ s₂ : State}
    (h₁ : Reach machine SendsClean (initial authToken) s₁)
    (h₂ : Reach machine SendsClean (initial authToken) s₂) :
    (∀ i id, AtSend i id s₁ → DifferInFrames id s₁ s₂ →
      SendsClean s₁ (.caller i) (.sendRet 0) → SendsClean s₂ (.caller i) (.sendRet 0) →
      ∀ w, (machine.exec s₁ ((.caller i, .sendRet 0) :: w)).map (fun s => s.loc (.caller i)) =
        (machine.exec s₂ ((.caller i, .sendRet 0) :: w)).map (fun s => s.loc (.caller i))) ∧
    AtOpened AckSinceSent s₁.shared.notes := by
  refine ⟨?_, (waiting_of_reach h₁).2⟩
  intro i id at₁ differ ok₁ ok₂ w
  have at₂ : AtSend i id s₂ := by
    obtain ⟨host, port, t₀, here⟩ := at₁
    exact ⟨host, port, t₀, (differ.callers i).symm.trans here⟩
  have twins := differ.twins h₁.any h₂.any at₁ (ok₁ i id rfl at₁ rfl) (ok₂ i id rfl at₂ rfl)
  have both := Interleaving.Machine.exec_lockstep Twins.keeps twins ((.caller i, .sendRet 0) :: w)
  revert both
  generalize machine.exec s₁ ((.caller i, .sendRet 0) :: w) = first
  generalize machine.exec s₂ ((.caller i, .sendRet 0) :: w) = second
  intro both
  cases both with
  | none => rfl
  | some related => simp [related.loc]

/-- Stream 1 is registered and unregistered; then a new `openStream(1, ..)` comes to its
`sendPacket`. -/
def secondOpenRun : List (ThreadId × Act) :=
  [(.caller 0, .call (.registerStream 1)), (.caller 0, .go),
    (.caller 0, .call (.unregisterStream 1)), (.caller 0, .go),
    (.caller 1, .call (.openStream 1 "h" 80)), (.caller 1, .go), (.caller 1, .go)]

/-- The same, with an ACK that arrives while stream 1 is registered for the first time. -/
def orphanedAckRun : List (ThreadId × Act) :=
  [(.caller 0, .call (.registerStream 1)), (.caller 0, .go),
    (.receiver, .packet (some ackPacket)), (.receiver, .go), (.receiver, .go), (.receiver, .go),
    (.caller 0, .call (.unregisterStream 1)), (.caller 0, .go),
    (.caller 1, .call (.openStream 1 "h" 80)), (.caller 1, .go), (.caller 1, .go)]

/-- A step that sends nothing. -/
def sendsNothing (_ : State) (_ : ThreadId) (a : Act) : Bool := a ≠ .sendRet 0

theorem reach_of_sendsNothing {w : List (ThreadId × Act)}
    (h : machine.follows sendsNothing (initial "") w = true) :
    Reach machine SendsClean (initial "") (machine.run (initial "") w) := by
  refine (Reach.run h).mono fun s t a quiet i id _ _ accepted => ?_
  simp [sendsNothing, accepted] at quiet

theorem idle_of_run {w : List (ThreadId × Act)} {j : Nat}
    (h : machine.follows sendsNothing (initial "") w = true) (other : ∀ p ∈ w, p.1 ≠ .caller j) :
    (machine.run (initial "") w).loc (.caller j) = CallerPc.idle :=
  Interleaving.Machine.exec_loc other (Interleaving.Machine.exec_eq_run h)

theorem secondOpenRun_follows :
    machine.follows sendsNothing (initial "") secondOpenRun = true := by decide +kernel

theorem orphanedAckRun_follows :
    machine.follows sendsNothing (initial "") orphanedAckRun = true := by decide +kernel

theorem idle_of_secondOpenRun {j : Nat} (h₀ : j ≠ 0) (h₁ : j ≠ 1) :
    (machine.run (initial "") secondOpenRun).loc (.caller j) = CallerPc.idle := by
  refine idle_of_run secondOpenRun_follows ?_
  simp [secondOpenRun, Ne.symm h₀, Ne.symm h₁]

theorem idle_of_orphanedAckRun {j : Nat} (h₀ : j ≠ 0) (h₁ : j ≠ 1) :
    (machine.run (initial "") orphanedAckRun).loc (.caller j) = CallerPc.idle := by
  refine idle_of_run orphanedAckRun_follows ?_
  simp [orphanedAckRun, Ne.symm h₀, Ne.symm h₁]

unseal decodeLoop in
theorem orphanedAckRun_differs :
    DifferInFrames 1 (machine.run (initial "") secondOpenRun)
      (machine.run (initial "") orphanedAckRun) where
  callers j := by
    by_cases h₀ : j = 0
    · subst h₀
      rfl
    · by_cases h₁ : j = 1
      · subst h₁
        rfl
      · rw [idle_of_secondOpenRun h₀ h₁, idle_of_orphanedAckRun h₀ h₁]
  receiver := by decide +kernel
  nowMs := by decide +kernel
  authToken := by decide +kernel
  epoch := by
    have first : (machine.run (initial "") secondOpenRun).shared.epoch =
        Function.update (fun _ => 0) 1 1 := rfl
    have second : (machine.run (initial "") orphanedAckRun).shared.epoch =
        Function.update (fun _ => 0) 1 1 := rfl
    rw [first, second]
  queueOf j other := by
    have first : (machine.run (initial "") secondOpenRun).shared.streamQueues.entries =
        [⟨1, (1, 1)⟩] := rfl
    have second : (machine.run (initial "") orphanedAckRun).shared.streamQueues.entries =
        [⟨1, (1, 1)⟩] := rfl
    rw [NativeTonTransport.queueOf, NativeTonTransport.queueOf,
      AList.ext (first.trans second.symm)]
  heap r other := by
    have away : ∀ k, r ≠ (1, k) := by
      rintro k rfl
      exact other rfl
    have first : (machine.run (initial "") secondOpenRun).shared.heap =
        Function.update (Function.update (fun _ => none) (1, 0) (some [])) (1, 1) (some []) := rfl
    have second : (machine.run (initial "") orphanedAckRun).shared.heap =
        Function.update (Function.update (Function.update (fun _ => none) (1, 0) (some [])) (1, 0)
          (some [⟨.opn, 1, [], none, ackPacket⟩])) (1, 1) (some []) := rfl
    rw [first, second]
    simp [away]

theorem secondOpenRun_clean : Clean 1 1 (machine.run (initial "") secondOpenRun) where
  queue := ⟨(1, 1), rfl, rfl⟩
  hands f mem := by cases mem
  alone j other := by
    by_cases h₀ : j = 0
    · subst h₀
      exact id
    · rw [idle_of_secondOpenRun h₀ other]
      exact id

unseal decodeLoop in
theorem orphanedAckRun_clean : Clean 1 1 (machine.run (initial "") orphanedAckRun) where
  queue := ⟨(1, 1), rfl, rfl⟩
  hands f mem := by cases mem
  alone j other := by
    by_cases h₀ : j = 0
    · subst h₀
      exact id
    · rw [idle_of_orphanedAckRun h₀ other]
      exact id

theorem sendsClean_of_clean {s : State} {host : String} {port : Int32} {t₀ : Int}
    (here : s.loc (.caller 1) = CallerPc.opening 1 host port (.send t₀)) (clean : Clean 1 1 s) :
    SendsClean s (.caller 1) (.sendRet 0) := by
  intro i id same atSend _
  cases same
  obtain ⟨host', port', t₀', here'⟩ := atSend
  cases here.symm.trans here'
  exact clean

/-- The ACK arrives once the OPEN has been sent. -/
def ackedSchedule : List (ThreadId × Act) :=
  [(.caller 1, .go), (.caller 1, .go), (.receiver, .packet (some ackPacket)), (.receiver, .go),
    (.receiver, .go), (.caller 1, .go), (.caller 1, .go)]

unseal decodeLoop in
theorem orphaned_ack_ignored :
    (machine.exec (machine.run (initial "") secondOpenRun)
      ((.caller 1, .sendRet 0) :: ackedSchedule)).map (fun s => s.loc (.caller 1)) =
    (machine.exec (machine.run (initial "") orphanedAckRun)
      ((.caller 1, .sendRet 0) :: ackedSchedule)).map (fun s => s.loc (.caller 1)) ∧
    AtOpened AckSinceSent (machine.run (initial "") secondOpenRun).shared.notes := by
  have verdict := open_verdict_ignores_earlier_frames
    (reach_of_sendsNothing secondOpenRun_follows) (reach_of_sendsNothing orphanedAckRun_follows)
  refine ⟨verdict.1 1 1 ⟨"h", 80, 0, rfl⟩ orphanedAckRun_differs ?_ ?_ ackedSchedule, verdict.2⟩
  · exact sendsClean_of_clean rfl secondOpenRun_clean
  · exact sendsClean_of_clean rfl orphanedAckRun_clean

/-- Two lifetimes of `LocalSocks5Server`: in the first, `openStream(1, ..)` times out and
stream 1 is unregistered; then the ACK arrives; in the second, stream 1 is registered and
opened again. -/
def staleAckRun : List (ThreadId × Act) :=
  [(.caller 0, .call (.registerStream 1)), (.caller 0, .go),
    (.caller 0, .call (.openStream 1 "h" 80)), (.caller 0, .go), (.caller 0, .go),
    (.caller 0, .sendRet 0), (.clock, .clock 20000), (.caller 0, .go), (.caller 0, .sendRet 0),
    (.caller 0, .call (.unregisterStream 1)), (.caller 0, .go),
    (.receiver, .packet (some ackPacket)), (.receiver, .go), (.receiver, .go), (.receiver, .go),
    (.caller 1, .call (.registerStream 1)), (.caller 1, .go),
    (.caller 1, .call (.openStream 1 "h" 80)), (.caller 1, .go), (.caller 1, .go),
    (.caller 1, .sendRet 0), (.caller 1, .go), (.caller 1, .go), (.caller 1, .go), (.caller 1, .go)]

/-- A late ACK of an earlier session opens the stream of the next one. -/
theorem stale_ack_opens :
    ¬ ∀ s, Reach machine anyStep (initial "") s → AtOpened AckSinceSent s.shared.notes := by
  intro always
  have follows : machine.follows (fun _ _ _ => true) (initial "") staleAckRun = true := by
    decide +kernel
  let notes := (machine.run (initial "") staleAckRun).shared.notes
  have split : notes = notes.take 12 ++ .opened 1 1 :: notes.drop 13 := by decide +kernel
  obtain ⟨before, since, f, sent, -, -, arrived⟩ := always _ (Reach.run follows).any _ _ _ _ split
  -- the OPEN of the second session is the last note but the taking of the ACK
  have nothing : ∀ m < 12, (notes.take 12)[m]? = some (.openSent 1 1) →
      ((notes.take 12).drop (m + 1)).all (fun e => e.arrives 1 = none) = true := by
    decide +kernel
  have early : before.length < 12 := by
    have length := congrArg List.length sent
    simp only [List.length_take, List.length_append, List.length_cons] at length
    omega
  have silent := nothing before.length early (by rw [sent]; simp)
  rw [sent] at silent
  have absent := List.all_eq_true.mp silent (.inbound 1 f) (by simpa using arrived)
  simp [Note.arrives] at absent

end TonTunnel.Transport
