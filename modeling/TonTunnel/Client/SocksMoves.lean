import TonTunnel.Client.Queues
import TonTunnel.Client.Socks

/-!
The step functions of `Client.Socks` as relations, one constructor for each way a
step can go, with the inversion lemma of each; and what a step does to the
queues of the core: a bridge touches the queue of its own stream id, the
receiver the queues of the frames in its hand, and nobody else any.
-/

namespace TonTunnel.Socks

open TonTunnel Desktop Client

/-! ### What the steps do -/

/-- `awaitStreamFrame` takes the head of the queue, or leaves the core alone. -/
def AwaitDid (i : Nat) (o : Bool) (id : UInt32) (c c' : Core) : AwaitOut → Prop
  | .done (some f) =>
      ∃ rest, c.streamQueues.lookup id = some (f :: rest) ∧ c' = c.popFront i o id f rest
  | _ => c' = c

theorem awaitStep_did {i : Nat} {o : Bool} {id : UInt32} {c c' : Core} {pc : AwaitPc}
    {a : Client.Act} {out : AwaitOut} (h : awaitStep i o id c pc a = some (out, c')) :
    AwaitDid i o id c c' out := by
  unfold awaitStep at h
  split at h
  · cases h
    rfl
  · split at h
    · next found =>
        cases h
        exact ⟨_, found, rfl⟩
    · cases h
  · split at h
    · cases h
    · split at h
      · cases h
        rfl
      · cases h
  · cases h
    rfl
  · cases h

/-- `awaitStreamFrame` sends nothing. -/
theorem AwaitDid.sent {i : Nat} {o : Bool} {id : UInt32} {c c' : Core} {out : AwaitOut}
    (did : AwaitDid i o id c c' out) : c'.sent = c.sent := by
  cases out with
  | more => rw [show c' = c from did]
  | done f =>
      cases f with
      | none => rw [show c' = c from did]
      | some f =>
          obtain ⟨rest, -, rfl⟩ := did
          rfl

/-- `openStream` sends one packet, in one place. -/
theorem openMove_sent {i : Nat} {id : UInt32} {host token : Bytes} {port : UInt16} {c c' : Core}
    {pc : OpenPc} {a : Client.Act} {out : OpenOut} (m : OpenMove i id host port token c pc a out c') :
    c'.sent = c.sent ∨ c'.sent = c.sent ++ [encodeOpenFrame id host port token] := by
  cases m with
  | register =>
      refine .inl ?_
      unfold Core.registerStream Core.tryEmplace
      split <;> rfl
  | sent => exact .inr rfl
  | waits h | nothing h | took h => exact .inl (awaitStep_did h).sent
  | _ => exact .inl rfl

/-- The steps of `bridgeStep`, one constructor each. -/
inductive BridgeMove (authToken : Bytes) (i : Nat) (d : Server) :
    BridgePc → Act → BridgePc → Server → Prop
  | request {host port} (short : host.length ≤ 512) :
      BridgeMove authToken i d .idle (.request host port) (.opening .register)
        (d.allocate i host port)
  | opening {pc a pc' c}
      (move : OpenMove i (d.idOf i) (d.bridges i).targetHost (d.bridges i).targetPort authToken
        d.core pc a (.more pc') c) :
      BridgeMove authToken i d (.opening pc) (.core a) (.opening pc') { d with core := c }
  | opened {pc a c}
      (move : OpenMove i (d.idOf i) (d.bridges i).targetHost (d.bridges i).targetPort authToken
        d.core pc a (.ret 0) c) :
      BridgeMove authToken i d (.opening pc) (.core a) .spawn { d with core := c }
  | openFails {pc a code c} (nonzero : code ≠ 0)
      (move : OpenMove i (d.idOf i) (d.bridges i).targetHost (d.bridges i).targetPort authToken
        d.core pc a (.ret code) c) :
      BridgeMove authToken i d (.opening pc) (.core a) .failed { d with core := c }
  | unregisterFailed :
      BridgeMove authToken i d .failed (.core .go) (.returned false)
        { d with core := d.core.unregisterStream (d.idOf i) }
  | spawn :
      BridgeMove authToken i d .spawn (.core .go) .testAlive
        (d.setBridge i fun b => { b with uplink := .running })
  | spawnThrows : BridgeMove authToken i d .spawn (.core .throw) .escaped d
  | alive : BridgeMove authToken i d .testAlive (.core .go) .testRunning d
  | dead : BridgeMove authToken i d .testAlive (.core .go) (.leaving false) d
  | running : BridgeMove authToken i d .testRunning (.core .go) (.await (.enter 100)) d
  | stopped : BridgeMove authToken i d .testRunning (.core .go) (.leaving false) d
  | waits {pc a pc'} :
      BridgeMove authToken i d (.await pc) (.core a) (.await pc') d
  | nothing {pc a} : BridgeMove authToken i d (.await pc) (.core a) .testAlive d
  | took {pc a f rest} (found : d.core.streamQueues.lookup (d.idOf i) = some (f :: rest)) :
      BridgeMove authToken i d (.await pc) (.core a) (.got f)
        { d with core := d.core.popFront i false (d.idOf i) f rest }
  | data {f : InboundFrame} (type : f.type = .data) :
      BridgeMove authToken i d (.got f) (.core .go) (.sendAll f.payload) d
  | skip {f : InboundFrame} (empty : f.type = .data → f.payload = [])
      (type : f.type ≠ .close ∧ f.type ≠ .error) :
      BridgeMove authToken i d (.got f) (.core .go) .testAlive d
  | ended {f : InboundFrame} (type : f.type = .close ∨ f.type = .error) :
      BridgeMove authToken i d (.got f) (.core .go) (.leaving true) d
  | wrote {rest : Bytes} {n : Nat} {a} :
      BridgeMove authToken i d (.sendAll rest) a (.sendAll (rest.drop n))
        (d.setBridge i fun v => { v with written := v.written ++ rest.take n })
  | wroteAll : BridgeMove authToken i d (.sendAll []) (.core .go) .testAlive d
  | writeFails {rest : Bytes} {a} : BridgeMove authToken i d (.sendAll rest) a (.leaving false) d
  | leave {remoteEnded} :
      BridgeMove authToken i d (.leaving remoteEnded) (.core .go) (.join remoteEnded)
        (d.setBridge i fun b => { b with alive := false })
  | joinEnded (exited : (d.bridges i).uplink = .exited) :
      BridgeMove authToken i d (.join true) (.core .go) .unregister d
  | joinOpen (exited : (d.bridges i).uplink = .exited) :
      BridgeMove authToken i d (.join false) (.core .go) .close d
  | close {code} :
      BridgeMove authToken i d .close (.core (.sendRet code)) .unregister
        { d with core := d.core.sendPacket (encodeCloseFrame (d.idOf i)) code }
  | closeThrows : BridgeMove authToken i d .close (.core .throw) .escaped d
  | unregister :
      BridgeMove authToken i d .unregister (.core .go) (.returned true)
        { d with core := d.core.unregisterStream (d.idOf i) }

theorem bridgeStep_move {authToken : Bytes} {i : Nat} {pc pc' : BridgePc} {d d' : Server} {a : Act}
    (h : bridgeStep authToken i pc d a = some (pc', d')) :
    BridgeMove authToken i d pc a pc' d' := by
  unfold bridgeStep at h
  split at h
  -- `idle` and `opening`
  · split at h
    · next short =>
        cases h
        exact .request short
    · cases h
  · simp only at h
    split at h
    · next step =>
        cases h
        exact .opening (openStep_move step)
    · next code c step =>
        cases h
        split
        · next zero =>
            subst zero
            exact .opened (openStep_move step)
        · next nonzero => exact .openFails nonzero (openStep_move step)
    · cases h
  · cases h
    exact .unregisterFailed
  -- `spawn` and the tests of the loop
  · cases h
    exact .spawn
  · cases h
    exact .spawnThrows
  · cases h
    split
    · exact .alive
    · exact .dead
  · cases h
    split
    · exact .running
    · exact .stopped
  -- `await` and `got`
  · split at h
    · next step =>
        cases h
        cases awaitStep_did step
        exact .waits
    · next step =>
        cases h
        cases awaitStep_did step
        exact .nothing
    · next step =>
        cases h
        obtain ⟨rest, found, rfl⟩ := awaitStep_did step
        exact .took found
    · cases h
  · split at h
    · next type =>
        cases h
        split
        · next empty =>
            refine .skip (fun _ => by simpa using empty) ?_
            rw [type]
            decide
        · exact .data type
    · next type =>
        cases h
        exact .ended (.inl type)
    · next type =>
        cases h
        exact .ended (.inr type)
    · next type =>
        cases h
        refine .skip (fun data => by rw [type] at data; cases data) ?_
        rw [type]
        decide
    · next type =>
        cases h
        refine .skip (fun data => by rw [type] at data; cases data) ?_
        rw [type]
        decide
  -- `sendAll`
  · cases h
    exact .wroteAll
  · split at h
    · cases h
    · split at h
      · cases h
        exact .writeFails
      · cases h
        exact .wrote
  -- behind the loop
  · cases h
    exact .leave
  · next remoteEnded =>
      split at h
      · next exited =>
          cases h
          cases remoteEnded with
          | true => exact .joinEnded exited
          | false => exact .joinOpen exited
      · cases h
  · split at h
    · next step =>
        unfold closeStreamStep at step
        split at step
        · cases step
          cases h
          exact .close
        · cases step
        · cases step
    · next step =>
        unfold closeStreamStep at step
        split at step
        · cases step
        · cases step
          cases h
          exact .closeThrows
        · cases step
    · cases h
  · cases h
    exact .unregister
  · cases h

/-- The steps of `uplinkStep`, one constructor each. -/
inductive UplinkMove (i : Nat) (d : Server) : UplinkPc → Act → UplinkPc → Server → Prop
  | alive (running : (d.bridges i).uplink = .running) :
      UplinkMove i d .testAlive (.core .go) .testRunning d
  | dead (running : (d.bridges i).uplink = .running) :
      UplinkMove i d .testAlive (.core .go) .leaving d
  | running : UplinkMove i d .testRunning (.core .go) .recv d
  | stopped : UplinkMove i d .testRunning (.core .go) .leaving d
  | ended : UplinkMove i d .recv (.recvRet none) .leaving d
  | received {data} :
      UplinkMove i d .recv (.recvRet (some data)) (.sending data)
        (d.setBridge i fun b => { b with read := b.read ++ data })
  | sent {rest} :
      UplinkMove i d (.sending rest) (.core (.sendRet 0)) (.sending (rest.drop kDataSegmentSize))
        { d with
          core := d.core.sendPacket (encodeDataFrame (d.idOf i) (rest.take kDataSegmentSize)) 0 }
  | sentAll : UplinkMove i d (.sending []) (.core .go) .testAlive d
  | refused {rest code} (nonzero : code ≠ 0) :
      UplinkMove i d (.sending rest) (.core (.sendRet code)) .leaving d
  | throws {rest} :
      UplinkMove i d (.sending rest) (.core .throw) .exited { d with terminated := true }
  | leave :
      UplinkMove i d .leaving (.core .go) .exited
        (d.setBridge i fun b => { b with alive := false, uplink := .exited })

theorem uplinkStep_move {i : Nat} {pc pc' : UplinkPc} {d d' : Server} {a : Act}
    (h : uplinkStep i pc d a = some (pc', d')) : UplinkMove i d pc a pc' d' := by
  unfold uplinkStep at h
  split at h
  · split at h
    · next running =>
        cases h
        split
        · exact .alive running
        · exact .dead running
    · cases h
  · cases h
    split
    · exact .running
    · exact .stopped
  · cases h
    exact .ended
  · split at h
    · cases h
    · cases h
      exact .received
  -- `sending`
  · next rest a =>
      cases a with
      | go =>
          cases rest with
          | nil =>
              cases h
              exact .sentAll
          | cons => cases h
      | sendRet code =>
          cases rest with
          | nil => cases h
          | cons b rest =>
              by_cases zero : code = 0
              · subst zero
                cases h
                exact .sent
              · simp only [sendStreamDataStep, reduceCtorEq, if_false, zero, Core.sendPacket] at h
                cases h
                exact .refused zero
      | throw =>
          cases rest with
          | nil => cases h
          | cons =>
              cases h
              exact .throws
      | _ => cases h
  · cases h
    exact .leave
  · cases h

/-- The steps of a thread that is neither a bridge nor a pump. -/
inductive ServiceMove (d : Server) : Server → Prop
  | running (on : Bool) : ServiceMove d { d with running := on }
  | core {c : Core} (queues : c.streamQueues = d.core.streamQueues) (notes : c.notes = d.core.notes)
      (received : c.received = d.core.received) (sent : c.sent = d.core.sent) :
      ServiceMove d { d with core := c }

/-- The steps of `receiverStep`, with what they do to the core. -/
inductive ReceiverMove (c : Core) : ReceiverPc → Client.Act → ReceiverPc → Core → Prop
  | idle {pc pc' : ReceiverPc} {a : Client.Act} {c' : Core} (before : ∀ fs, pc ≠ .deliver fs)
      (after : ∀ fs, pc' ≠ .deliver fs) (queues : c'.streamQueues = c.streamQueues)
      (notes : c'.notes = c.notes) (received : c'.received = c.received) (sent : c'.sent = c.sent) :
      ReceiverMove c pc a pc' c'
  | packet {bytes : Bytes} {pc' : ReceiverPc}
      (decoded : pc' = .deliver (decodeInboundFrames bytes) ∨
        decodeInboundFrames bytes = [] ∧ pc' = .loop) :
      ReceiverMove c .receive (.packet bytes) pc' { c with received := c.received ++ [bytes] }
  | deliver {fs : List InboundFrame} :
      ReceiverMove c (.deliver fs) .go .loop (c.dispatchAll fs)

theorem receiverStep_move {pc pc' : ReceiverPc} {c c' : Core} {a : Client.Act}
    (h : receiverStep pc c a = some (pc', c')) : ReceiverMove c pc a pc' c' := by
  unfold receiverStep at h
  split at h
  · split at h
    · split at h
      · cases h
        exact .idle nofun nofun rfl rfl rfl rfl
      · cases h
        exact .idle nofun nofun rfl rfl rfl rfl
    · cases h
      exact .deliver
    · split at h
      · cases h
        exact .idle nofun nofun rfl rfl rfl rfl
      · cases h
    · cases h
  · split at h
    · next receive =>
        subst receive
        simp only at h
        split at h
        · next none_ =>
            cases h
            exact .packet (.inr ⟨none_, rfl⟩)
        · next some_ =>
            cases h
            exact .packet (.inl (by rw [some_]))
    · cases h
  · split at h
    · next receive =>
        subst receive
        cases h
        exact .idle nofun nofun rfl rfl rfl rfl
    · cases h
  · split at h
    · next receive =>
        subst receive
        cases h
        exact .idle nofun nofun rfl rfl rfl rfl
    · cases h
  · cases h

/-- The steps of `step`, for each thread. -/
def Move (authToken : Bytes) : (t : ThreadId) → Server → Local t → Act → Local t → Server → Prop
  | .receiver, d, l, a, l', d' =>
      ∃ b c, a = .core b ∧ ReceiverMove d.core l b l' c ∧ d' = { d with core := c }
  | .owner, d, _, _, _, d' => ServiceMove d d'
  | .clock, d, _, _, _, d' => ServiceMove d d'
  | .bridge i, d, l, a, l', d' => BridgeMove authToken i d l a l' d'
  | .uplink i, d, l, a, l', d' => UplinkMove i d l a l' d'

theorem coreStep_inv {L : Type} {step : L → Core → Client.Act → Option (L × Core)} {l l' : L}
    {d d' : Server} {a : Act} (h : coreStep step l d a = some (l', d')) :
    ∃ b c, a = .core b ∧ step l d.core b = some (l', c) ∧ d' = { d with core := c } := by
  unfold coreStep at h
  split at h
  · next b =>
      rw [Option.map_eq_some_iff] at h
      obtain ⟨⟨l₁, c⟩, taken, same⟩ := h
      cases same
      exact ⟨b, c, rfl, taken, rfl⟩
  · cases h

/-- **Every step is one of the listed moves.** -/
theorem step_move {authToken : Bytes} {t : ThreadId} {l l' : Local t} {d d' : Server} {a : Act}
    (h : step authToken t l d a = some (l', d')) : Move authToken t d l a l' d' := by
  unfold step at h
  split at h
  · cases h
  · cases t with
    | receiver =>
        obtain ⟨b, c, rfl, taken, rfl⟩ := coreStep_inv h
        exact ⟨b, c, rfl, receiverStep_move taken, rfl⟩
    | owner =>
        change ownerStep l d a = some (l', d') at h
        unfold ownerStep at h
        split at h
        · cases h
          exact .running _
        · obtain ⟨b, c, -, taken, rfl⟩ := coreStep_inv h
          unfold Client.ownerStep at taken
          split at taken
          · split at taken
            · split at taken
              · cases taken
                exact .core rfl rfl rfl rfl
              · cases taken
                exact .core rfl rfl rfl rfl
            · cases taken
          · split at taken
            · split at taken
              · cases taken
                exact .core rfl rfl rfl rfl
              · cases taken
                exact .core rfl rfl rfl rfl
            · cases taken
          · split at taken
            · cases taken
              exact .core rfl rfl rfl rfl
            · cases taken
          · cases taken
    | clock =>
        change coreStep (fun _ => clockStep) l d a = some (l', d') at h
        obtain ⟨b, c, -, taken, rfl⟩ := coreStep_inv h
        unfold clockStep at taken
        split at taken
        · cases taken
          exact .core rfl rfl rfl rfl
        · cases taken
    | bridge i => exact bridgeStep_move h
    | uplink i => exact uplinkStep_move h

/-- A step of the client is a move of one thread. -/
theorem next_move {authToken : Bytes} {s s' : State} {t : ThreadId} {a : Act}
    (h : (machine authToken).next s t a = some s') :
    ∃ l d, Move authToken t s.shared (s.loc t) a l d ∧ s' = ⟨Function.update s.loc t l, d⟩ := by
  obtain ⟨l, d, taken, rfl⟩ := Interleaving.Machine.next_eq_some h
  exact ⟨l, d, step_move taken, rfl⟩

end TonTunnel.Socks
