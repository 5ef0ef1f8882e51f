import TonTunnel.Lib.Interleaving

/-!
One session of the Android client's `LocalSocks5Server`, from the allocation of its
stream id on: the handler thread in `handleClient`, and the two pipe threads that it
starts, `pipeToTon` (up) and `pipeFromTon` (down).

All three may call `closeStreamOnce`, whose guard is an `AtomicBoolean` in the map
`closeIssued`: the call looks the guard up or makes one, and the thread that sets it
sends the CLOSE frame. The entry of the stream id belongs to the session alone, so the
map is this one entry; a guard that was removed stays in the hands of a thread that
has looked it up. `stop` clears `running` and interrupts the handler, which is a
thread of the pool; `join` throws only while the thread it waits for is alive.

The guard is taken away when the handler leaves. Until then CLOSE is sent once; a
pipe thread that is still alive makes a new guard and sends another one
(`interrupted_join_closes_late`). In the runs in which the handler's joins are not interrupted
and both threads can be started the guard does its work (`one_close`).
-/

namespace TonTunnel.AndroidSession

/-! ### The session -/

inductive Side where
  | up
  | down
  deriving DecidableEq, Repr

def Side.other : Side → Side
  | .up => .down
  | .down => .up

inductive Life where
  | unstarted
  | running
  | exited
  deriving DecidableEq, Repr

inductive ThreadId where
  | handler
  | pipe (side : Side)
  | world
  deriving DecidableEq, Repr

/-- The address of an `AtomicBoolean`. -/
abbrev Guard := Nat

inductive Event where
  /-- `closeStreamOnce` sent a CLOSE frame -/
  | closeSent
  /-- the handler removed the guard and unregistered the stream -/
  | unregistered
  deriving DecidableEq, Repr

structure Session where
  running : Bool := true
  /-- the entry of `closeIssued` for the stream id -/
  closeIssued : Option Guard := none
  guards : Guard → Bool := fun _ => false
  nextGuard : Guard := 0
  sessionDone : Bool := false
  life : Side → Life := fun _ => .unstarted
  interrupted : ThreadId → Bool := fun _ => false
  log : List Event := []

namespace Session

def emit (s : Session) (e : Event) : Session := { s with log := s.log ++ [e] }

/-- A new `AtomicBoolean(false)` becomes the guard. -/
def putGuard (s : Session) : Session :=
  { s with
    closeIssued := some s.nextGuard
    guards := Function.update s.guards s.nextGuard false
    nextGuard := s.nextGuard + 1 }

def setLife (s : Session) (side : Side) (l : Life) : Session :=
  { s with life := Function.update s.life side l }

/-- `Thread.interrupt`. -/
def interrupt (s : Session) (t : ThreadId) : Session :=
  { s with interrupted := Function.update s.interrupted t true }

/-- `interrupt` of a pipe thread; one that is not alive does not notice. -/
def interruptPipe (s : Session) (side : Side) : Session :=
  if s.life side = .running then s.interrupt (.pipe side) else s

end Session

inductive FrameType where
  | unknown | opn | data | close | error
  deriving DecidableEq, Repr

/-- What the environment answers at a step. -/
inductive Act where
  | go
  | throw
  /-- `openStream` returned -/
  | openRet (code : Int)
  /-- `join` threw `InterruptedException` -/
  | interrupt
  /-- `read` on the client's socket returned, at most 0 at its end or after an exception -/
  | readRet (n : Int)
  /-- `sendStreamData` returned -/
  | sendRet (code : Int)
  /-- `awaitStreamFrame` returned no frame, or one with this type and length of payload -/
  | frame (f : Option (FrameType × Nat))
  /-- `write` on the client's socket returned, or threw -/
  | writeRet (ok : Bool)
  | stop
  deriving DecidableEq, Repr

/-! ### `closeStreamOnce` -/

inductive ClosePc where
  /-- before `computeIfAbsent` -/
  | get
  /-- before `compareAndSet` -/
  | cas (g : Guard)
  /-- before `closeStream` -/
  | send
  deriving DecidableEq, Repr

/-- One step of `closeStreamOnce`; `none` when it has returned. -/
def closeStep (pc : ClosePc) (s : Session) (a : Act) : Option (Option ClosePc × Session) :=
  match pc, a with
  | .get, .go =>
      match s.closeIssued with
      | some g => some (some (.cas g), s)
      | none => some (some (.cas s.nextGuard), s.putGuard)
  | .cas g, .go =>
      if s.guards g then some (none, s)
      else some (some .send, { s with guards := Function.update s.guards g true })
  | .send, .go => some (none, s.emit .closeSent)
  -- swallowed by `runCatching`
  | .send, .throw => some (none, s)
  | _, _ => none

/-! ### The pipe threads -/

inductive PipePc where
  | testRunning
  | testInterrupted
  /-- in `read` or `awaitStreamFrame` -/
  | take
  /-- in `sendStreamData` or `write` -/
  | put
  /-- in `closeStreamOnce` after a failed `write` -/
  | failed (pc : ClosePc)
  /-- at the `compareAndSet` of the `finally` block -/
  | ending
  | interruptOther
  | shutdown
  /-- in `closeStreamOnce` in the `finally` block -/
  | closing (pc : ClosePc)
  | exited
  deriving DecidableEq, Repr

/-- One step of the body of a pipe. -/
def bodyStep (side : Side) (pc : PipePc) (s : Session) (a : Act) : Option PipePc :=
  match side, pc, a with
  | _, .testRunning, .go =>
      if s.life side = .running then some (if s.running then .testInterrupted else .ending) else none
  | _, .testInterrupted, .go =>
      some (if s.interrupted (.pipe side) then .ending else .take)
  | .up, .take, .readRet n => some (if n ≤ 0 then .ending else .put)
  | .up, .put, .sendRet code => some (if code = 0 then .testRunning else .ending)
  | .up, .put, .throw => some .ending
  | .down, .take, .interrupt => if s.interrupted (.pipe .down) then some .ending else none
  | .down, .take, .frame none => some .testRunning
  | .down, .take, .frame (some (type, size)) =>
      match type with
      | .data => some (if size = 0 then .testRunning else .put)
      | .close | .error => some .ending
      | .opn | .unknown => some .testRunning
  | .down, .put, .writeRet ok => some (if ok then .testRunning else .failed .get)
  | _, _, _ => none

/-- One step of a pipe thread. -/
def pipeStep (side : Side) (pc : PipePc) (s : Session) (a : Act) : Option (PipePc × Session) :=
  match pc with
  | .failed c =>
      (closeStep c s a).map fun
        | (some c', s') => (.failed c', s')
        | (none, s') => (.ending, s')
  | .ending =>
      match a with
      | .go =>
          if s.sessionDone then some (.exited, s.setLife side .exited)
          else some (.interruptOther, { s with sessionDone := true })
      | _ => none
  | .interruptOther =>
      match a with
      | .go => some (.shutdown, s.interruptPipe side.other)
      | _ => none
  | .shutdown =>
      match a with
      | .go => some (.closing .get, s)
      | _ => none
  | .closing c =>
      (closeStep c s a).map fun
        | (some c', s') => (.closing c', s')
        | (none, s') => (.exited, s'.setLife side .exited)
  | pc => (bodyStep side pc s a).map fun pc' => (pc', s)

/-! ### The handler -/

inductive HandlerPc where
  | register
  | putGuard
  | opening
  | openFailed
  /-- before `sendConnectSuccess` -/
  | reply
  | start (side : Side)
  | join (side : Side)
  /-- after an interrupted `join` -/
  | interruptPipes
  /-- at the `finally` block; `closes` unless CLOSE is skipped -/
  | ending (closes : Bool)
  | closing (pc : ClosePc)
  | removeGuard
  | unregister
  | exited
  deriving DecidableEq, Repr

/-- One step of the handler. -/
def handlerStep (pc : HandlerPc) (s : Session) (a : Act) : Option (HandlerPc × Session) :=
  match pc, a with
  | .register, .go => some (.putGuard, s)
  | .putGuard, .go => some (.opening, s.putGuard)
  | .opening, .openRet code => some (if code = 0 then .reply else .openFailed, s)
  | .opening, .throw => some (.ending false, s)
  | .openFailed, .go => some (.ending false, s)
  | .reply, .go => some (.start .up, s)
  | .reply, .throw => some (.ending true, s)
  | .start .up, .go => some (.start .down, s.setLife .up .running)
  | .start .down, .go => some (.join .up, s.setLife .down .running)
  | .start _, .throw => some (.ending true, s)
  | .join side, .go =>
      if s.life side = .exited then
        some (match side with
          | .up => .join .down
          | .down => .ending true, s)
      else none
  | .join side, .interrupt =>
      if s.interrupted .handler ∧ s.life side ≠ .exited then some (.interruptPipes, s) else none
  | .interruptPipes, .go =>
      some (.ending false, (s.interruptPipe .up).interruptPipe .down)
  | .ending closes, .go => some (if closes then .closing .get else .removeGuard, s)
  | .closing c, a =>
      (closeStep c s a).map fun
        | (some c', s') => (.closing c', s')
        | (none, s') => (.removeGuard, s')
  | .removeGuard, .go => some (.unregister, { s with closeIssued := none })
  | .unregister, .go => some (.exited, s.emit .unregistered)
  | _, _ => none

/-! ### The machine -/

@[reducible] def Local : ThreadId → Type
  | .handler => HandlerPc
  | .pipe _ => PipePc
  | .world => Unit

/-- `stop` clears `running`, or `shutdownNow` interrupts the handler. -/
def worldStep (s : Session) (a : Act) : Option (Unit × Session) :=
  match a with
  | .stop => some ((), { s with running := false })
  | .interrupt => some ((), s.interrupt .handler)
  | _ => none

def step : (t : ThreadId) → Local t → Session → Act → Option (Local t × Session)
  | .handler, pc, s, a => handlerStep pc s a
  | .pipe side, pc, s, a => pipeStep side pc s a
  | .world, _, s, a => worldStep s a

def machine : Interleaving.Machine ThreadId Local Session Act := ⟨step⟩

abbrev State := Interleaving.State Local Session

def startLocal : (t : ThreadId) → Local t
  | .handler => .register
  | .pipe _ => .testRunning
  | .world => ()

/-- The stream id was just allocated. -/
def start : State := ⟨startLocal, {}⟩

/-! ### What the steps do -/

variable {s s' : Session} {a : Act}

/-- The steps of `closeStep`, one constructor each. -/
inductive CloseMove (s : Session) : ClosePc → Act → Option ClosePc → Session → Prop
  | found {g} (there : s.closeIssued = some g) : CloseMove s .get .go (some (.cas g)) s
  | made (absent : s.closeIssued = none) : CloseMove s .get .go (some (.cas s.nextGuard)) s.putGuard
  | already {g} (isSet : s.guards g = true) : CloseMove s (.cas g) .go none s
  | wins {g} (notSet : s.guards g = false) :
      CloseMove s (.cas g) .go (some .send) { s with guards := Function.update s.guards g true }
  | sent : CloseMove s .send .go none (s.emit .closeSent)
  | swallowed : CloseMove s .send .throw none s

theorem closeStep_move {pc : ClosePc} {out : Option ClosePc}
    (h : closeStep pc s a = some (out, s')) : CloseMove s pc a out s' := by
  unfold closeStep at h
  split at h
  · split at h <;> cases h
    · exact .found ‹_›
    · exact .made ‹_›
  · split at h <;> cases h
    · exact .already ‹_›
    · exact .wins (Bool.eq_false_iff.mpr ‹_›)
  · cases h
    exact .sent
  · cases h
    exact .swallowed
  · cases h

/-- In the loop of a pipe. -/
def PipePc.inBody : PipePc → Bool
  | .testRunning | .testInterrupted | .take | .put => true
  | _ => false

/-- The steps of `pipeStep`; those in the loop change the position alone. -/
inductive PipeMove (side : Side) (s : Session) : PipePc → Act → PipePc → Session → Prop
  | body {pc a pc'} (within : pc.inBody = true)
      (goes : pc'.inBody = true ∨ pc' = .ending ∨ pc' = .failed .get)
      (started : pc = .testRunning → s.life side = .running) : PipeMove side s pc a pc' s
  | failing {c a c' s'} (move : CloseMove s c a (some c') s') :
      PipeMove side s (.failed c) a (.failed c') s'
  | failed {c a s'} (move : CloseMove s c a none s') : PipeMove side s (.failed c) a .ending s'
  | last (isDone : s.sessionDone = true) :
      PipeMove side s .ending .go .exited (s.setLife side .exited)
  | first (notDone : s.sessionDone = false) :
      PipeMove side s .ending .go .interruptOther { s with sessionDone := true }
  | interruptOther : PipeMove side s .interruptOther .go .shutdown (s.interruptPipe side.other)
  | shutdown : PipeMove side s .shutdown .go (.closing .get) s
  | closing {c a c' s'} (move : CloseMove s c a (some c') s') :
      PipeMove side s (.closing c) a (.closing c') s'
  | closed {c a s'} (move : CloseMove s c a none s') :
      PipeMove side s (.closing c) a .exited (s'.setLife side .exited)

theorem bodyStep_goes {side : Side} {pc pc' : PipePc} (h : bodyStep side pc s a = some pc') :
    pc.inBody = true ∧ (pc'.inBody = true ∨ pc' = .ending ∨ pc' = .failed .get) ∧
      (pc = .testRunning → s.life side = .running) := by
  unfold bodyStep at h
  split at h
  · split at h <;> cases h
    refine ⟨rfl, ?_, fun _ => ‹_›⟩
    split
    · exact .inl rfl
    · exact .inr (.inl rfl)
  · cases h
    refine ⟨rfl, ?_, nofun⟩
    split
    · exact .inr (.inl rfl)
    · exact .inl rfl
  · cases h
    refine ⟨rfl, ?_, nofun⟩
    split
    · exact .inr (.inl rfl)
    · exact .inl rfl
  · cases h
    refine ⟨rfl, ?_, nofun⟩
    split
    · exact .inl rfl
    · exact .inr (.inl rfl)
  · cases h
    exact ⟨rfl, .inr (.inl rfl), nofun⟩
  · split at h <;> cases h
    exact ⟨rfl, .inr (.inl rfl), nofun⟩
  · cases h
    exact ⟨rfl, .inl rfl, nofun⟩
  · refine ⟨rfl, ?_, nofun⟩
    split at h <;> cases h
    · split <;> exact .inl rfl
    · exact .inr (.inl rfl)
    · exact .inr (.inl rfl)
    · exact .inl rfl
    · exact .inl rfl
  · cases h
    refine ⟨rfl, ?_, nofun⟩
    split
    · exact .inl rfl
    · exact .inr (.inr rfl)
  · cases h

theorem pipeStep_move {side : Side} {pc pc' : PipePc} (h : pipeStep side pc s a = some (pc', s')) :
    PipeMove side s pc a pc' s' := by
  unfold pipeStep at h
  split at h
  · rw [Option.map_eq_some_iff] at h
    obtain ⟨⟨out, n⟩, closes, h⟩ := h
    cases out with
    | some c' =>
        cases h
        exact .failing (closeStep_move closes)
    | none =>
        cases h
        exact .failed (closeStep_move closes)
  · split at h
    · split at h <;> cases h
      · exact .last ‹_›
      · exact .first (Bool.eq_false_iff.mpr ‹_›)
    · cases h
  · split at h <;> cases h
    exact .interruptOther
  · split at h <;> cases h
    exact .shutdown
  · rw [Option.map_eq_some_iff] at h
    obtain ⟨⟨out, n⟩, closes, h⟩ := h
    cases out with
    | some c' =>
        cases h
        exact .closing (closeStep_move closes)
    | none =>
        cases h
        exact .closed (closeStep_move closes)
  · rw [Option.map_eq_some_iff] at h
    obtain ⟨pc'', body, h⟩ := h
    cases h
    obtain ⟨within, goes, started⟩ := bodyStep_goes body
    exact .body within goes started

/-- Where the handler goes when a pipe thread has ended. -/
def joinedPc : Side → HandlerPc
  | .up => .join .down
  | .down => .ending true

/-- The steps of `handlerStep`, one constructor each. -/
inductive HandlerMove (s : Session) : HandlerPc → Act → HandlerPc → Session → Prop
  | register : HandlerMove s .register .go .putGuard s
  | putGuard : HandlerMove s .putGuard .go .opening s.putGuard
  | opened : HandlerMove s .opening (.openRet 0) .reply s
  | notOpened {code} (fails : code ≠ 0) : HandlerMove s .opening (.openRet code) .openFailed s
  | openThrows : HandlerMove s .opening .throw (.ending false) s
  | openFailed : HandlerMove s .openFailed .go (.ending false) s
  | reply : HandlerMove s .reply .go (.start .up) s
  | replyThrows : HandlerMove s .reply .throw (.ending true) s
  | startUp : HandlerMove s (.start .up) .go (.start .down) (s.setLife .up .running)
  | startDown : HandlerMove s (.start .down) .go (.join .up) (s.setLife .down .running)
  | startThrows {side} : HandlerMove s (.start side) .throw (.ending true) s
  | joined {side} (exited : s.life side = .exited) : HandlerMove s (.join side) .go (joinedPc side) s
  | joinInterrupted {side} (flagged : s.interrupted .handler = true)
      (alive : s.life side ≠ .exited) :
      HandlerMove s (.join side) .interrupt .interruptPipes s
  | interruptPipes :
      HandlerMove s .interruptPipes .go (.ending false) ((s.interruptPipe .up).interruptPipe .down)
  | closes : HandlerMove s (.ending true) .go (.closing .get) s
  | skips : HandlerMove s (.ending false) .go .removeGuard s
  | closing {c a c' s'} (move : CloseMove s c a (some c') s') :
      HandlerMove s (.closing c) a (.closing c') s'
  | closed {c a s'} (move : CloseMove s c a none s') : HandlerMove s (.closing c) a .removeGuard s'
  | removeGuard : HandlerMove s .removeGuard .go .unregister { s with closeIssued := none }
  | unregister : HandlerMove s .unregister .go .exited (s.emit .unregistered)

theorem handlerStep_move {pc pc' : HandlerPc} (h : handlerStep pc s a = some (pc', s')) :
    HandlerMove s pc a pc' s' := by
  unfold handlerStep at h
  split at h
  · cases h
    exact .register
  · cases h
    exact .putGuard
  · cases h
    split
    · next zero =>
        subst zero
        exact .opened
    · next fails => exact .notOpened fails
  · cases h
    exact .openThrows
  · cases h
    exact .openFailed
  · cases h
    exact .reply
  · cases h
    exact .replyThrows
  · cases h
    exact .startUp
  · cases h
    exact .startDown
  · cases h
    exact .startThrows
  · next side =>
      split at h
      · next exited =>
          cases h
          cases side with
          | up => exact .joined exited
          | down => exact .joined exited
      · cases h
  · split at h
    · next both =>
        cases h
        exact .joinInterrupted both.1 both.2
    · cases h
  · cases h
    exact .interruptPipes
  · next closes =>
      cases h
      cases closes with
      | true => exact .closes
      | false => exact .skips
  · rw [Option.map_eq_some_iff] at h
    obtain ⟨⟨out, n⟩, closes, h⟩ := h
    cases out with
    | some c' =>
        cases h
        exact .closing (closeStep_move closes)
    | none =>
        cases h
        exact .closed (closeStep_move closes)
  · cases h
    exact .removeGuard
  · cases h
    exact .unregister
  · cases h

end TonTunnel.AndroidSession
