import TonTunnel.Client.Transport

/-!
What a step does to the stream queues of `NativeTonTransport`.

As for the desktop client: every step is one `Move`, the history replays to the
present content of the queues (`replays_of_reach`), and an id has an entry in
the map exactly if it is wanted (`entryIffWanted_of_reach`). A queue may outlive
its entry, so the moves come with an account of the queues' names (`Named`).
-/

namespace TonTunnel.Transport

open TonTunnel Android
open TonTunnel.Client
open Interleaving (Reach anyStep)

namespace NativeTonTransport

/-- The map, the names and the queues are those of `n`. -/
structure SameQueues (n n' : NativeTonTransport) : Prop where
  streamQueues : n'.streamQueues = n.streamQueues
  epoch : n'.epoch = n.epoch
  heap : n'.heap = n.heap

/-- What a step may be. -/
structure Scope where
  /-- it may act for these callers -/
  callers : Nat → Prop
  /-- it may be a return of `openStream` with 0 -/
  opens : Prop
  /-- it may put a frame into a queue -/
  offers : Prop

/-- What a step does to the queues and their history. -/
inductive Move (w : Scope) (n : NativeTonTransport) : NativeTonTransport → Prop
  | same {n' : NativeTonTransport} : SameQueues n n' → n'.notes = n.notes → Move w n n'
  | register (id : Int32) : Move w n (n.registerStream id)
  | unregister (id : Int32) : Move w n (n.unregisterStream id)
  /-- a frame whose queue was found, or that is dropped for want of a queue -/
  | find {f : InboundFrame} : (n.queueOf f.streamId).isSome = true ∨ isControl f = false →
      Move w n (n.note (.inbound f.streamId f))
  | create {f : InboundFrame} : isControl f = true →
      Move w n ((n.putIfAbsent f.streamId).note (.inbound f.streamId f))
  | offer {r : Ref} (f : InboundFrame) :
      w.offers → (n.heap r).isSome = true → Move w n (n.offer r f)
  | poll {i : Nat} {o : Bool} {r : Ref} {f : InboundFrame} {rest : List InboundFrame} :
      w.callers i → n.heap r = some (f :: rest) → Move w n (n.pollHead i o r f rest)
  | openSent {n' : NativeTonTransport} {i : Nat} (id : Int32) :
      w.callers i → SameQueues n n' → n'.notes = n.notes ++ [.openSent i id] → Move w n n'
  | opened {n' : NativeTonTransport} {i : Nat} (id : Int32) :
      w.callers i → w.opens → SameQueues n n' → n'.notes = n.notes ++ [.opened i id] → Move w n n'

variable {w : Scope} {n n' : NativeTonTransport}

theorem SameQueues.refl (n : NativeTonTransport) : SameQueues n n := ⟨rfl, rfl, rfl⟩

theorem sameQueues_sendPacket (n : NativeTonTransport) (packet : Bytes) (code : Int) :
    SameQueues n (n.sendPacket packet code) ∧ (n.sendPacket packet code).notes = n.notes := by
  unfold sendPacket
  split
  · exact ⟨⟨rfl, rfl, rfl⟩, rfl⟩
  · exact ⟨.refl n, rfl⟩

theorem Move.none : Move w n n := .same (.refl n) rfl

theorem Move.mono {w' : Scope} (h : Move w n n') (callers : ∀ i, w.callers i → w'.callers i)
    (opens : w.opens → w'.opens) (offers : w.offers → w'.offers) : Move w' n n' := by
  cases h with
  | same same notes => exact .same same notes
  | register id => exact .register id
  | unregister id => exact .unregister id
  | find h => exact .find h
  | create h => exact .create h
  | offer f o h => exact .offer f (offers o) h
  | poll acts h => exact .poll (callers _ acts) h
  | openSent id acts same notes => exact .openSent id (callers _ acts) same notes
  | opened id acts o same notes => exact .opened id (callers _ acts) (opens o) same notes

end NativeTonTransport

open NativeTonTransport

/-! ### Every step is a move -/

/-- What the thread found out before: the queue it holds exists, the frame it creates a
queue for is a control frame. -/
def ReceiverPc.Ready (n : NativeTonTransport) : ReceiverPc → Prop
  | .create f _ => isControl f = true
  | .offer r _ _ => (n.heap r).isSome = true
  | _ => True

@[inherit_doc ReceiverPc.Ready]
def CallerPc.Ready (n : NativeTonTransport) : CallerPc → Prop
  | .opening _ _ _ (.poll _ _ _ r) | .polling _ r => (n.heap r).isSome = true
  | _ => True

@[inherit_doc ReceiverPc.Ready]
def Local.Ready (n : NativeTonTransport) : (t : ThreadId) → Local t → Prop
  | .receiver, pc => ReceiverPc.Ready n pc
  | .clock, _ => True
  | .caller _, pc => CallerPc.Ready n pc

section Steps

variable {w : Scope} {n n' : NativeTonTransport} {a : Act}

theorem pollStep_move {i : Nat} {o : Bool} {r : Ref} {out : Option (Option InboundFrame)}
    (h : pollStep i o r n a = some (out, n')) : Move ⟨(· = i), False, False⟩ n n' := by
  unfold pollStep at h
  split at h
  · split at h
    · cases h
      exact .poll rfl (by assumption)
    · cases h
  · split at h
    · cases h
    · cases h
      exact .none
  · cases h
    exact .none
  · cases h

/-- `poll` returned a frame: the head of its queue. -/
theorem pollStep_took {i : Nat} {o : Bool} {r : Ref} {f : InboundFrame}
    (h : pollStep i o r n a = some (some (some f), n')) :
    ∃ rest, n.heap r = some (f :: rest) ∧ n' = n.pollHead i o r f rest := by
  unfold pollStep at h
  split at h
  · split at h
    · next content =>
        cases h
        exact ⟨_, content, rfl⟩
    · cases h
  · split at h
    · cases h
    · cases h
  · cases h
  · cases h

theorem pollStep_nothing {i : Nat} {o : Bool} {r : Ref}
    (h : pollStep i o r n a = some (some none, n')) : n' = n := by
  unfold pollStep at h
  split at h
  · split at h
    · cases h
    · cases h
  · split at h
    · cases h
    · cases h
      rfl
  · cases h
  · cases h

/-- The steps of `openStream`, with what each of them tests. -/
inductive OpenMove (i : Nat) (id : Int32) (host : String) (port : Int32) (n : NativeTonTransport) :
    OpenPc → Act → OpenOut → NativeTonTransport → Prop
  | start : OpenMove i id host port n .start .go (.more (.register n.nowMs)) n
  | register {t₀ : Int} :
      OpenMove i id host port n (.register t₀) .go (.more (.send t₀)) (n.registerStream id)
  | badArgs {t₀ : Int} : OpenMove i id host port n (.send t₀) .go (.ret (-1)) n
  | sent {t₀ : Int} (frame : Bytes) :
      OpenMove i id host port n (.send t₀) (.sendRet 0) (.more (.loop t₀ none))
        ((n.sendPacket frame 0).note (.openSent i id))
  | refused {t₀ code : Int} (h : code ≠ 0) :
      OpenMove i id host port n (.send t₀) (.sendRet code) (.ret code) n
  | sendThrows {t₀ : Int} : OpenMove i id host port n (.send t₀) .throw .threw n
  | late {t₀ : Int} {seen : Option Int} (h : t₀ + openTimeoutMs - n.nowMs ≤ 0) :
      OpenMove i id host port n (.loop t₀ seen) .go (.more .timedOut) n
  | graceOver {t₀ : Int} {seen : Option Int} :
      OpenMove i id host port n (.loop t₀ seen) .go (.ret (-4)) n
  | inTime {t₀ w : Int} {seen : Option Int} :
      OpenMove i id host port n (.loop t₀ seen) .go (.more (.await t₀ seen w)) n
  | closesLate {code : Int} (packet : Bytes) :
      OpenMove i id host port n .timedOut (.sendRet code) (.ret (-2)) (n.sendPacket packet code)
  | closeThrows : OpenMove i id host port n .timedOut .throw (.ret (-2)) n
  | missing {t₀ w : Int} {seen : Option Int} (h : n.queueOf id = none) :
      OpenMove i id host port n (.await t₀ seen w) .go (.more (.loop t₀ seen)) n
  | found {t₀ w : Int} {seen : Option Int} {r : Ref} (h : n.queueOf id = some r) :
      OpenMove i id host port n (.await t₀ seen w) .go (.more (.poll t₀ seen w r)) n
  | interrupted {t₀ w : Int} {seen : Option Int} {r : Ref} {a : Act} {n' : NativeTonTransport}
      (h : pollStep i true r n a = some (none, n')) :
      OpenMove i id host port n (.poll t₀ seen w r) a (.ret (-5)) n'
  | nothing {t₀ w : Int} {seen : Option Int} {r : Ref} {a : Act} {n' : NativeTonTransport}
      (h : pollStep i true r n a = some (some none, n')) :
      OpenMove i id host port n (.poll t₀ seen w r) a (.more (.loop t₀ seen)) n'
  | took {t₀ w : Int} {seen : Option Int} {r : Ref} {f : InboundFrame} {a : Act}
      {n' : NativeTonTransport} (h : pollStep i true r n a = some (some (some f), n')) :
      OpenMove i id host port n (.poll t₀ seen w r) a (.more (.got t₀ seen f)) n'
  | acked {t₀ : Int} {seen : Option Int} {f : InboundFrame} (h : f.type = .opn) :
      OpenMove i id host port n (.got t₀ seen f) .go (.ret 0) (n.note (.opened i id))
  | rejected {t₀ : Int} {seen : Option Int} {f : InboundFrame} {code : Int} (h : code ≠ 0) :
      OpenMove i id host port n (.got t₀ seen f) .go (.ret code) n
  | ignored {t₀ : Int} {seen seen' : Option Int} {f : InboundFrame} (h : f.type ≠ .opn) :
      OpenMove i id host port n (.got t₀ seen f) .go (.more (.loop t₀ seen')) n

theorem openStep_move {i : Nat} {id : Int32} {host : String} {port : Int32} {pc : OpenPc}
    {out : OpenOut} (h : openStep i id host port n pc a = some (out, n')) :
    OpenMove i id host port n pc a out n' := by
  unfold openStep at h
  split at h
  · cases h
    exact .start
  · cases h
    exact .register
  · split at h
    · cases h
      exact .badArgs
    · next frame code _ =>
        simp only at h
        split at h
        · next accepted =>
            subst accepted
            cases h
            exact .sent frame
        · next refused =>
            rw [NativeTonTransport.sendPacket, if_neg refused] at h
            cases h
            exact .refused refused
    · cases h
      exact .sendThrows
    · cases h
  · simp only at h
    split at h
    · next late =>
        cases h
        exact .late late
    · split at h
      · split at h
        · cases h
          exact .graceOver
        · cases h
          exact .inTime
      · cases h
        exact .inTime
  · cases h
    exact .closesLate _
  · cases h
    exact .closeThrows
  · split at h
    · next missing =>
        cases h
        exact .missing missing
    · next found =>
        cases h
        exact .found found
  · split at h
    · cases h
    · next interrupted =>
        cases h
        exact .interrupted interrupted
    · next nothing =>
        cases h
        exact .nothing nothing
    · next took =>
        cases h
        exact .took took
  · split at h
    · next type =>
        cases h
        exact .acked type
    · cases h
      exact .rejected (by decide)
    · next type =>
        split at h
        · cases h
          exact .ignored (by simp [type])
        · split at h
          · cases h
            exact .rejected (by decide)
          · cases h
            exact .ignored (by simp [type])
    · next type =>
        cases h
        exact .ignored (by simp [type])
    · next type =>
        cases h
        exact .ignored (by simp [type])
  · cases h

theorem OpenMove.move {i : Nat} {id : Int32} {host : String} {port : Int32} {pc : OpenPc}
    {out : OpenOut} (h : OpenMove i id host port n pc a out n') :
    Move ⟨(· = i), out = .ret 0, False⟩ n n' := by
  cases h with
  | register => exact .register id
  | sent frame =>
      obtain ⟨same, notes⟩ := sameQueues_sendPacket n frame 0
      exact .openSent id rfl ⟨same.1, same.2, same.3⟩ (by simp [note, notes])
  | closesLate packet =>
      obtain ⟨same, notes⟩ := sameQueues_sendPacket n packet _
      exact .same same notes
  | interrupted h | nothing h | took h =>
      exact (pollStep_move h).mono (fun _ acts => acts) False.elim False.elim
  | acked _ => exact .opened id rfl rfl ⟨rfl, rfl, rfl⟩ rfl
  | _ => exact .none

/-- The steps of the receiver. -/
inductive ReceiverMove (n : NativeTonTransport) :
    ReceiverPc → Act → ReceiverPc → NativeTonTransport → Prop
  | idle {a : Act} : ReceiverMove n .receive a .receive n
  | received {b : UInt8} {bs : Bytes} :
      ReceiverMove n .receive (.packet (some (b :: bs))) (.find (decodeInboundFrames (b :: bs))) n
  | finished : ReceiverMove n (.find []) .go .receive n
  | found {f : InboundFrame} {fs : List InboundFrame} {r : Ref} (h : n.queueOf f.streamId = some r) :
      ReceiverMove n (.find (f :: fs)) .go (.offer r f fs) (n.note (.inbound f.streamId f))
  | creates {f : InboundFrame} {fs : List InboundFrame} (h : isControl f = true) :
      ReceiverMove n (.find (f :: fs)) .go (.create f fs) n
  | drops {f : InboundFrame} {fs : List InboundFrame} (h : isControl f = false) :
      ReceiverMove n (.find (f :: fs)) .go (.find fs) (n.note (.inbound f.streamId f))
  | created {f : InboundFrame} {fs : List InboundFrame} {r : Ref}
      (h : (n.putIfAbsent f.streamId).queueOf f.streamId = some r) :
      ReceiverMove n (.create f fs) .go (.offer r f fs)
        ((n.putIfAbsent f.streamId).note (.inbound f.streamId f))
  | offers {r : Ref} {f : InboundFrame} {fs : List InboundFrame} :
      ReceiverMove n (.offer r f fs) .go (.find fs) (n.offer r f)

theorem receiverStep_move {pc pc' : ReceiverPc} (h : receiverStep pc n a = some (pc', n')) :
    ReceiverMove n pc a pc' n' := by
  unfold receiverStep at h
  split at h
  · split at h
    · cases h
      exact .idle
    · cases h
      exact .idle
    · cases h
      exact .received
  · cases h
    exact .idle
  · cases h
    exact .finished
  · split at h
    · next found =>
        cases h
        exact .found found
    · split at h
      · next control =>
          cases h
          exact .creates control
      · next plain =>
          cases h
          exact .drops (by simpa using plain)
  · simp only [Option.map_eq_some_iff] at h
    obtain ⟨r, found, same⟩ := h
    cases same
    exact .created found
  · cases h
    exact .offers
  · cases h

theorem ReceiverMove.move {pc pc' : ReceiverPc} (ready : pc.Ready n)
    (h : ReceiverMove n pc a pc' n') : Move ⟨fun _ => False, False, True⟩ n n' := by
  cases h with
  | found h => exact .find (.inl (by rw [h, Option.isSome_some]))
  | drops h => exact .find (.inr h)
  | created _ => exact .create ready
  | offers => exact .offer _ trivial ready
  | _ => exact .none

/-- The steps of a caller. -/
inductive CallerMove (i : Nat) (n : NativeTonTransport) :
    CallerPc → Act → CallerPc → NativeTonTransport → Prop
  | enter (call : Call) : CallerMove i n .idle (.call call) call.enter n
  | enterAgain (call : Call) {code : Int} : CallerMove i n (.opened code) (.call call) call.enter n
  | register {id : Int32} : CallerMove i n (.registering id) .go .idle (n.registerStream id)
  | unregister {id : Int32} : CallerMove i n (.unregistering id) .go .idle (n.unregisterStream id)
  | opening {id : Int32} {host : String} {port : Int32} {pc pc' : OpenPc} {a : Act}
      {n' : NativeTonTransport} (m : OpenMove i id host port n pc a (.more pc') n') :
      CallerMove i n (.opening id host port pc) a (.opening id host port pc') n'
  | opened {id : Int32} {host : String} {port : Int32} {pc : OpenPc} {code : Int} {a : Act}
      {n' : NativeTonTransport} (m : OpenMove i id host port n pc a (.ret code) n') :
      CallerMove i n (.opening id host port pc) a (.opened code) n'
  | threw {id : Int32} {host : String} {port : Int32} {pc : OpenPc} {a : Act}
      {n' : NativeTonTransport} (m : OpenMove i id host port n pc a .threw n') :
      CallerMove i n (.opening id host port pc) a .idle n'
  | sends {id : Int32} {payload : Bytes} {offset : Nat} {a : Act} {n' : NativeTonTransport}
      {pc' : CallerPc} (h : sendStep id payload offset n a = some (pc', n')) :
      CallerMove i n (.sending id payload offset) a pc' n'
  | closed {id : Int32} {code : Int} (packet : Bytes) :
      CallerMove i n (.closing id) (.sendRet code) .idle (n.sendPacket packet code)
  | closeThrows {id : Int32} : CallerMove i n (.closing id) .throw .idle n
  | missing {id : Int32} (h : n.queueOf id = none) : CallerMove i n (.awaiting id) .go .idle n
  | found {id : Int32} {r : Ref} (h : n.queueOf id = some r) :
      CallerMove i n (.awaiting id) .go (.polling id r) n
  | polled {id : Int32} {r : Ref} {a : Act} {out : Option (Option InboundFrame)}
      {n' : NativeTonTransport} (h : pollStep i false r n a = some (out, n')) :
      CallerMove i n (.polling id r) a .idle n'

theorem callerStep_move {i : Nat} {pc pc' : CallerPc} (h : callerStep i pc n a = some (pc', n')) :
    CallerMove i n pc a pc' n' := by
  unfold callerStep at h
  split at h
  · split at h
    · cases h
      exact .enter _
    · cases h
  · split at h
    · cases h
      exact .enterAgain _
    · cases h
  · split at h
    · next go =>
        cases h
        cases go
        exact .register
    · cases h
  · split at h
    · next go =>
        cases h
        cases go
        exact .unregister
    · cases h
  · split at h
    · next step =>
        cases h
        exact .opening (openStep_move step)
    · next step =>
        cases h
        exact .opened (openStep_move step)
    · next step =>
        cases h
        exact .threw (openStep_move step)
    · cases h
  · exact .sends h
  · split at h
    · cases h
      exact .closed _
    · cases h
      exact .closeThrows
    · cases h
  · split at h
    · next go =>
        cases go
        split at h
        · next missing =>
            cases h
            exact .missing missing
        · next found =>
            cases h
            exact .found found
    · cases h
  · simp only [Option.map_eq_some_iff] at h
    obtain ⟨⟨out, n''⟩, polled, same⟩ := h
    cases same
    exact .polled polled

/-- A step of `sendStreamData` goes on sending or ends the call. -/
theorem sendStep_inv {id : Int32} {payload : Bytes} {offset : Nat} {pc' : CallerPc}
    (h : sendStep id payload offset n a = some (pc', n')) :
    (pc' = .idle ∨ ∃ offset', pc' = .sending id payload offset') ∧ SameQueues n n' ∧
      n'.notes = n.notes := by
  unfold sendStep at h
  split at h
  · split at h
    · cases h
      exact ⟨.inl rfl, .refl n, rfl⟩
    · cases h
  · split at h
    · cases h
    · simp only at h
      split at h
      · cases h
        exact ⟨.inr ⟨_, rfl⟩, sameQueues_sendPacket n _ _⟩
      · cases h
        exact ⟨.inl rfl, sameQueues_sendPacket n _ _⟩
  · split at h
    · cases h
    · cases h
      exact ⟨.inl rfl, .refl n, rfl⟩
  · cases h

theorem CallerMove.move {i : Nat} {pc pc' : CallerPc} (h : CallerMove i n pc a pc' n') :
    Move ⟨(· = i), pc' = .opened 0, False⟩ n n' := by
  cases h with
  | register => exact .register _
  | unregister => exact .unregister _
  | opening m | opened m | threw m => exact m.move.mono (fun _ acts => acts) (by simp) False.elim
  | sends h =>
      obtain ⟨-, same, notes⟩ := sendStep_inv h
      exact .same same notes
  | closed packet =>
      obtain ⟨same, notes⟩ := sameQueues_sendPacket n packet _
      exact .same same notes
  | polled h => exact (pollStep_move h).mono (fun _ acts => acts) False.elim False.elim
  | _ => exact .none

theorem clockStep_move {l : Unit} (h : clockStep n a = some (l, n')) : Move w n n' := by
  unfold clockStep at h
  split at h
  · cases h
    exact .same ⟨rfl, rfl, rfl⟩ rfl
  · cases h

theorem step_move {t : ThreadId} {l l' : Local t} (ready : Local.Ready n t l)
    (h : step t l n a = some (l', n')) :
    Move ⟨fun i => t = .caller i, ∃ i, t = .caller i, t = .receiver⟩ n n' := by
  cases t with
  | receiver =>
      exact ((receiverStep_move h).move ready).mono (fun _ => False.elim) False.elim fun _ => rfl
  | clock => exact clockStep_move h
  | caller i =>
      exact (callerStep_move h).move.mono (fun _ same => by rw [same]) (fun _ => ⟨i, rfl⟩) False.elim

end Steps

/-! ### The names of the queues -/

namespace NativeTonTransport

variable {w : Scope} {n n' : NativeTonTransport}

/-- The entries of the map and the queues that exist. -/
structure Named (n : NativeTonTransport) : Prop where
  /-- an entry leads to the newest queue of its id -/
  entry (id : Int32) (r : Ref) : n.queueOf id = some r → r = n.newRef id ∧ (n.heap r).isSome = true
  /-- a queue of the present epoch has an entry -/
  fresh (id : Int32) : (n.heap (n.newRef id)).isSome = true → (n.queueOf id).isSome = true
  past (r : Ref) : (n.heap r).isSome = true → r.2 ≤ n.epoch r.1

theorem named_initial (authToken : String) : Named { authToken } where
  entry id r h := by simp [queueOf] at h
  fresh id h := by cases h
  past r h := by cases h

theorem Named.congr (h : Named n) (same : SameQueues n n') : Named n' := by
  obtain ⟨queues, epoch, heap⟩ := same
  constructor
  · intro id r found
    rw [queueOf, queues] at found
    rw [newRef, epoch, heap]
    exact h.entry id r found
  · intro id found
    rw [newRef, epoch, heap] at found
    rw [queueOf, queues]
    exact h.fresh id found
  · intro r found
    rw [heap] at found
    rw [epoch]
    exact h.past r found

/-- A queue that exists gets another content. -/
theorem Named.update {r : Ref} {l : List InboundFrame} (h : Named n)
    (known : (n.heap r).isSome = true) :
    Named { n with heap := Function.update n.heap r (some l) } := by
  have same : ∀ p, (Function.update n.heap r (some l) p).isSome = (n.heap p).isSome := by
    intro p
    by_cases hp : p = r
    · subst hp
      rw [Function.update_self, Option.isSome_some, known]
    · rw [Function.update_of_ne hp]
  constructor
  · intro id p found
    obtain ⟨name, exists_⟩ := h.entry id p found
    exact ⟨name, (same p).trans exists_⟩
  · intro id found
    exact h.fresh id ((same _).symm.trans found)
  · intro p found
    exact h.past p ((same p).symm.trans found)

theorem Named.putIfAbsent (h : Named n) (id : Int32) : Named (n.putIfAbsent id) := by
  unfold NativeTonTransport.putIfAbsent
  split
  · exact h
  · next absent =>
      constructor
      · intro j r found
        by_cases same : j = id
        · subst same
          obtain rfl : n.newRef j = r := by simpa [queueOf, note] using found
          exact ⟨rfl, by simp [note]⟩
        · have found : n.queueOf j = some r := by simpa [queueOf, note, same] using found
          obtain ⟨name, known⟩ := h.entry j r found
          refine ⟨name, ?_⟩
          have other : r ≠ n.newRef id := by
            rintro rfl
            exact same (congrArg Prod.fst name).symm
          simpa [note, other] using known
      · intro j found
        by_cases same : j = id
        · subst same
          simp [queueOf, note]
        · have other : n.newRef j ≠ n.newRef id := fun eq => same (congrArg Prod.fst eq)
          have known : (n.heap (n.newRef j)).isSome = true := by
            simpa [note, newRef, same] using found
          simpa [queueOf, note, same] using h.fresh j known
      · intro r found
        by_cases same : r = n.newRef id
        · subst same
          exact le_rfl
        · exact h.past r (by simpa [note, same] using found)

theorem Named.unregisterStream (h : Named n) (id : Int32) : Named (n.unregisterStream id) := by
  constructor
  · intro j r found
    by_cases same : j = id
    · subst same
      simp [queueOf, NativeTonTransport.unregisterStream, note] at found
    · have found : n.queueOf j = some r := by
        simpa [queueOf, NativeTonTransport.unregisterStream, note, same] using found
      obtain ⟨name, known⟩ := h.entry j r found
      refine ⟨?_, known⟩
      rw [name]
      simp [newRef, NativeTonTransport.unregisterStream, note, same]
  · intro j found
    by_cases same : j = id
    · subst same
      have late := h.past _ found
      simp [newRef, NativeTonTransport.unregisterStream, note] at late
    · have known : (n.heap (n.newRef j)).isSome = true := by
        simpa [newRef, NativeTonTransport.unregisterStream, note, same] using found
      simpa [queueOf, NativeTonTransport.unregisterStream, note, same] using h.fresh j known
  · intro r found
    have before : r.2 ≤ n.epoch r.1 := h.past r found
    by_cases same : r.1 = id
    · simp only [NativeTonTransport.unregisterStream, note, same, Function.update_self]
      rw [same] at before
      exact Nat.le_succ_of_le before
    · simpa [NativeTonTransport.unregisterStream, note, same] using before

theorem Move.named (move : Move w n n') (h : Named n) : Named n' := by
  cases move with
  | same same _ | openSent _ _ same _ | opened _ _ _ same _ => exact h.congr same
  | register id => exact (h.putIfAbsent id).congr ⟨rfl, rfl, rfl⟩
  | unregister id => exact h.unregisterStream id
  | find _ => exact h.congr ⟨rfl, rfl, rfl⟩
  | create _ => exact (h.putIfAbsent _).congr ⟨rfl, rfl, rfl⟩
  | offer f _ known => exact (h.update known).congr ⟨rfl, rfl, rfl⟩
  | poll _ found => exact (h.update (by rw [found, Option.isSome_some])).congr ⟨rfl, rfl, rfl⟩

/-- Queues do not go away. -/
theorem Move.heap_isSome (move : Move w n n') {r : Ref} (h : (n.heap r).isSome = true) :
    (n'.heap r).isSome = true := by
  have update : ∀ p l, (Function.update n.heap p (some l) r).isSome = true := by
    intro p l
    by_cases same : r = p
    · subst same
      rw [Function.update_self, Option.isSome_some]
    · rwa [Function.update_of_ne same]
  have emplaced : ∀ id, ((n.putIfAbsent id).heap r).isSome = true := by
    intro id
    unfold putIfAbsent
    split
    · exact h
    · exact update _ _
  cases move with
  | same same _ | openSent _ _ same _ | opened _ _ _ same _ =>
      rw [same.heap]
      exact h
  | register id => exact emplaced id
  | unregister id => exact h
  | find _ => exact h
  | create _ => exact emplaced _
  | offer f _ known => exact update _ _
  | poll _ found => exact update _ _

/-- A frame in a queue was there before, unless the step is the receiver's `offer`. -/
theorem Move.heap_sub (move : Move w n n') (plain : ¬ w.offers) {r : Ref} {l' : List InboundFrame}
    (h : n'.heap r = some l') {f : InboundFrame} (mem : f ∈ l') :
    ∃ l, n.heap r = some l ∧ f ∈ l := by
  have emplaced : ∀ id, (n.putIfAbsent id).heap r = some l' → ∃ l, n.heap r = some l ∧ f ∈ l := by
    intro id h
    unfold putIfAbsent at h
    split at h
    · exact ⟨l', h, mem⟩
    · by_cases same : r = n.newRef id
      · simp only [note, same, Function.update_self] at h
        cases h
        cases mem
      · exact ⟨l', by simpa [note, same] using h, mem⟩
  cases move with
  | same same _ | openSent _ _ same _ | opened _ _ _ same _ =>
      rw [same.heap] at h
      exact ⟨l', h, mem⟩
  | register id => exact emplaced id h
  | unregister id => exact ⟨l', h, mem⟩
  | find _ => exact ⟨l', h, mem⟩
  | create _ => exact emplaced _ h
  | offer f o _ => exact absurd o plain
  | @poll i o p g rest _ found =>
      by_cases same : r = p
      · subst same
        simp only [pollHead, note, Function.update_self] at h
        cases h
        exact ⟨g :: l', found, List.mem_cons_of_mem _ mem⟩
      · exact ⟨l', by simpa [pollHead, note, same] using h, mem⟩

/-- `unregisterStream` calls only become more. -/
theorem Move.epoch_le (move : Move w n n') (id : Int32) : n.epoch id ≤ n'.epoch id := by
  have emplaced : ∀ j, (n.putIfAbsent j).epoch = n.epoch := by
    intro j
    unfold putIfAbsent
    split
    · rfl
    · rfl
  cases move with
  | same same _ | openSent _ _ same _ | opened _ _ _ same _ => rw [same.epoch]
  | register j => exact le_of_eq (by rw [registerStream, note, emplaced j])
  | unregister j =>
      by_cases same : id = j
      · subst same
        simp [unregisterStream, note]
      · simp [unregisterStream, note, same]
  | create _ => exact le_of_eq (by rw [note, emplaced])
  | _ => exact le_rfl

end NativeTonTransport

/-! ### What threads hold -/

section Ready

variable {n n' : NativeTonTransport} {a : Act}

theorem Local.Ready.mono (more : ∀ r, (n.heap r).isSome = true → (n'.heap r).isSome = true)
    {t : ThreadId} {l : Local t} (h : Local.Ready n t l) : Local.Ready n' t l := by
  cases t with
  | receiver =>
      cases l with
      | offer r f fs => exact more r h
      | _ => exact h
  | clock => trivial
  | caller i =>
      cases l with
      | opening id host port pc =>
          cases pc with
          | poll _ _ _ r => exact more r h
          | _ => trivial
      | polling id r => exact more r h
      | _ => trivial

theorem CallerMove.ready {i : Nat} {pc pc' : CallerPc} (named : Named n)
    (h : CallerMove i n pc a pc' n') : CallerPc.Ready n' pc' := by
  cases h with
  | enter call | enterAgain call =>
      cases call with
      | _ => trivial
  | opening m =>
      cases m with
      | found h => exact (named.entry _ _ h).2
      | _ => trivial
  | sends h =>
      obtain ⟨rfl | ⟨offset, rfl⟩, -, -⟩ := sendStep_inv h
      · trivial
      · trivial
  | found h => exact (named.entry _ _ h).2
  | _ => trivial

theorem ReceiverMove.ready {pc pc' : ReceiverPc} (named : Named n)
    (h : ReceiverMove n pc a pc' n') : ReceiverPc.Ready n' pc' := by
  cases h with
  | found h => exact (named.entry _ _ h).2
  | creates h => exact h
  | created h => exact ((named.putIfAbsent _).entry _ _ h).2
  | _ => trivial

/-- The names are in order and every thread is ready for its next step. -/
theorem named_of_reach {authToken : String} {s : State}
    (h : Reach machine anyStep (initial authToken) s) :
    Interleaving.Holds Named (fun t l n => Local.Ready n t l) s := by
  refine h.threadModular ?_ ?_ ?_
  · refine ⟨named_initial authToken, fun t => ?_⟩
    cases t with
    | _ => trivial
  · intro s t a l n _ before _ step
    have move := step_move (before.loc t) step
    refine ⟨move.named before.shared, ?_⟩
    cases t with
    | receiver => exact (receiverStep_move step).ready before.shared
    | clock => trivial
    | caller i => exact (callerStep_move step).ready before.shared
  · intro s t a l n _ before _ step t' _
    have move := step_move (before.loc t) step
    exact (before.loc t').mono fun r known => move.heap_isSome known

/-- A property that every move keeps holds in every reachable state. -/
theorem transport_invariant {authToken : String} {P : NativeTonTransport → Prop}
    (keep : ∀ w n n', Named n → Move w n n' → P n → P n') (start : P { authToken }) {s : State}
    (h : Reach machine anyStep (initial authToken) s) : P s.shared := by
  refine h.invariant (I := fun s => P s.shared) start ?_
  intro s s' t a reached before _ next
  obtain ⟨l, n, step, rfl⟩ := Interleaving.Machine.next_eq_some next
  have named := named_of_reach reached
  exact keep _ _ _ named.shared (step_move (named.loc t) step) before

end Ready

/-! ### The history replays to the queues -/

namespace NativeTonTransport

variable {w : Scope} {n n' : NativeTonTransport}

/-- The note may be one of a step of the scope. -/
structure Scope.Covers (w : Scope) (e : Note Int32 Ref InboundFrame) : Prop where
  callers (i : Nat) : e.caller = some i → w.callers i
  opens (i : Nat) (id : Int32) : e = .opened i id → w.opens

theorem Scope.Covers.of_nobody {e : Note Int32 Ref InboundFrame} (nobody : e.caller = none) :
    w.Covers e where
  callers i some := by
    rw [nobody] at some
    cases some
  opens i id same := by
    rw [same] at nobody
    cases nobody

theorem Scope.Covers.of_caller {e : Note Int32 Ref InboundFrame} {i : Nat}
    (caller : e.caller = some i) (acts : w.callers i) (opens : ∀ i id, e = .opened i id → w.opens) :
    w.Covers e where
  callers j some := by
    rw [caller] at some
    cases some
    exact acts
  opens := opens

/-- The step appended notes of the scope, which replay to what it did to the queues. -/
def Extends (w : Scope) (n n' : NativeTonTransport) : Prop :=
  ∃ new, n'.notes = n.notes ++ new ∧ Fifo.Run n.heap (ops new) n'.heap ∧ ∀ e ∈ new, w.Covers e

theorem Extends.refl (n : NativeTonTransport) : Extends w n n := ⟨[], by simp, .stop, by simp⟩

theorem Extends.trans {mid : NativeTonTransport} (h : Extends w n mid) (h' : Extends w mid n') :
    Extends w n n' := by
  obtain ⟨new, notes, run, covers⟩ := h
  obtain ⟨more, notes', run', covers'⟩ := h'
  refine ⟨new ++ more, by rw [notes', notes, List.append_assoc], ?_, ?_⟩
  · rw [ops_append]
    exact run.trans run'
  · intro e mem
    exact (List.mem_append.mp mem).elim (covers e) (covers' e)

/-- A note that records no operation. -/
theorem extends_quiet (e : Note Int32 Ref InboundFrame) (quiet : e.op = none)
    (covers : w.Covers e) (heap : n'.heap = n.heap) (notes : n'.notes = n.notes ++ [e]) :
    Extends w n n' := by
  refine ⟨[e], notes, ?_, by simpa using covers⟩
  rw [heap, show ops [e] = [] by simp [ops, quiet]]
  exact .stop

theorem extends_putIfAbsent (named : Named n) (id : Int32) : Extends w n (n.putIfAbsent id) := by
  unfold putIfAbsent
  split
  · exact .refl n
  · next absent =>
      refine ⟨[.created (n.newRef id)], rfl, .single (.create ?_), by simpa using .of_nobody rfl⟩
      rw [← Option.not_isSome_iff_eq_none]
      intro known
      have present := named.fresh id known
      rw [absent] at present
      cases present

theorem Move.extends (move : Move w n n') (named : Named n) : Extends w n n' := by
  cases move with
  | same same notes =>
      refine ⟨[], by simp [notes], ?_, by simp⟩
      rw [same.heap]
      exact .stop
  | register id =>
      exact (extends_putIfAbsent named id).trans
        (extends_quiet (.registered id) rfl (.of_nobody rfl) rfl rfl)
  | unregister id => exact extends_quiet (.unregistered id) rfl (.of_nobody rfl) rfl rfl
  | @find f _ => exact extends_quiet (.inbound f.streamId f) rfl (.of_nobody rfl) rfl rfl
  | @create f _ =>
      exact (extends_putIfAbsent named _).trans
        (extends_quiet (.inbound f.streamId f) rfl (.of_nobody rfl) rfl rfl)
  | @offer r f _ known =>
      obtain ⟨l, found⟩ := Option.isSome_iff_exists.mp known
      have step : Fifo.Step n.heap (.put r f) (Function.update n.heap r (some (l ++ [f]))) :=
        .put found
      refine ⟨[.put r f], rfl, .single ?_, by simpa using .of_nobody rfl⟩
      simpa [NativeTonTransport.offer, note, found] using step
  | @poll i o r f rest acts found =>
      exact ⟨[.taken i o r f], rfl, .single (.take found),
        by simpa using .of_caller rfl acts (by simp)⟩
  | @openSent _ i id acts same notes =>
      exact extends_quiet (.openSent i id) rfl (.of_caller rfl acts (by simp)) same.heap notes
  | @opened _ i id acts opens same notes =>
      exact extends_quiet (.opened i id) rfl (.of_caller rfl acts fun _ _ _ => opens) same.heap notes

/-- The history replays to the present content of the queues. -/
def Replays (n : NativeTonTransport) : Prop := Fifo.Run Fifo.empty (ops n.notes) n.heap

theorem Move.replays (move : Move w n n') (named : Named n) (before : Replays n) : Replays n' := by
  obtain ⟨new, notes, run, -⟩ := move.extends named
  rw [Replays, notes, ops_append]
  exact before.trans run

/-! ### Entries of `streamQueues` -/

/-- An id has an entry in `streamQueues` exactly if it is wanted. -/
def EntryIffWanted (id : Int32) (n : NativeTonTransport) : Prop :=
  (n.queueOf id).isSome = true ↔ Wanted isControl id n.notes

theorem EntryIffWanted.congr {id : Int32} (h : EntryIffWanted id n)
    (queues : n'.streamQueues = n.streamQueues) {e : Note Int32 Ref InboundFrame}
    (notes : n'.notes = n.notes ++ [e]) (plain : e.brings isControl id = false)
    (still : e ≠ .unregistered id) : EntryIffWanted id n' := by
  rw [EntryIffWanted, notes, wanted_concat_of_plain plain still, queueOf, queues]
  exact h

theorem EntryIffWanted.brings {id : Int32} (found : (n'.queueOf id).isSome = true)
    {e : Note Int32 Ref InboundFrame} (notes : n'.notes = n.notes ++ [e])
    (brings : e.brings isControl id = true) : EntryIffWanted id n' := by
  refine iff_of_true found ?_
  rw [notes]
  exact wanted_concat.mpr (.inl brings)

theorem queueOf_putIfAbsent (n : NativeTonTransport) (id : Int32) :
    ((n.putIfAbsent id).queueOf id).isSome = true := by
  unfold putIfAbsent
  split
  · next found => rw [found, Option.isSome_some]
  · simp [queueOf, note]

/-- `putIfAbsent` and then a note that brings the id. -/
theorem EntryIffWanted.putIfAbsent_note {id j : Int32} {e : Note Int32 Ref InboundFrame}
    (h : EntryIffWanted id n) (brings : e.brings isControl id = decide (j = id))
    (still : e ≠ .unregistered id) : EntryIffWanted id ((n.putIfAbsent j).note e) := by
  by_cases same : j = id
  · subst same
    exact .brings (n := n.putIfAbsent j) (queueOf_putIfAbsent n j) rfl (by simp [brings])
  · have emplaced : EntryIffWanted id (n.putIfAbsent j) := by
      unfold putIfAbsent
      split
      · exact h
      · have inserted : EntryIffWanted id
            { n with
              streamQueues := n.streamQueues.insert j (n.newRef j)
              heap := Function.update n.heap (n.newRef j) (some []) } := by
          rw [EntryIffWanted, queueOf, AList.lookup_insert_ne (Ne.symm same)]
          exact h
        exact inserted.congr rfl rfl rfl (by simp)
    exact emplaced.congr rfl rfl (by simp [brings, same]) still

theorem Move.entryIffWanted {id : Int32} (move : Move w n n') (h : EntryIffWanted id n) :
    EntryIffWanted id n' := by
  cases move with
  | same same notes =>
      rw [EntryIffWanted, queueOf, same.streamQueues, notes]
      exact h
  | register j => exact h.putIfAbsent_note rfl (by simp)
  | unregister j =>
      by_cases same : j = id
      · subst same
        refine iff_of_false ?_ ?_
        · simp [queueOf, unregisterStream, note]
        · intro wanted
          rw [unregisterStream, note, wanted_concat] at wanted
          simp [Note.brings] at wanted
      · have erased : EntryIffWanted id
            { n with
              streamQueues := n.streamQueues.erase j
              epoch := Function.update n.epoch j (n.epoch j + 1) } := by
          rw [EntryIffWanted, queueOf, AList.lookup_erase_ne (Ne.symm same)]
          exact h
        exact erased.congr rfl rfl rfl (by simpa using same)
  | @find f found =>
      by_cases brings : f.streamId = id ∧ isControl f = true
      · obtain ⟨rfl, control⟩ := brings
        have present : (n.queueOf f.streamId).isSome = true := by
          rcases found with found | plain
          · exact found
          · rw [control] at plain
            cases plain
        exact .brings (n := n) present rfl (by simp [Note.brings, control])
      · exact h.congr rfl rfl (by simpa [Note.brings] using brings) (by simp)
  | create control => exact h.putIfAbsent_note (by simp [Note.brings, control]) (by simp)
  | offer f _ known => exact h.congr rfl rfl rfl (by simp)
  | poll _ found => exact h.congr rfl rfl rfl (by simp)
  | openSent j _ same notes => exact h.congr same.streamQueues notes rfl (by simp)
  | opened j _ _ same notes => exact h.congr same.streamQueues notes rfl (by simp)

end NativeTonTransport

section Reached

variable {authToken : String} {s : State}

theorem replays_of_reach (h : Reach machine anyStep (initial authToken) s) :
    s.shared.Replays :=
  transport_invariant (fun _ _ _ named move before => move.replays named before) .stop h

theorem entryIffWanted_of_reach (h : Reach machine anyStep (initial authToken) s) (id : Int32) :
    s.shared.EntryIffWanted id := by
  refine transport_invariant (P := EntryIffWanted id) ?_ ?_ h
  · intro w n n' _ move before
    exact move.entryIffWanted before
  · exact iff_of_false (by simp [queueOf]) not_wanted_nil

end Reached

end TonTunnel.Transport
