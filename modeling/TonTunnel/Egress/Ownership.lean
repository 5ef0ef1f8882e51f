import TonTunnel.Egress.Effects

/-!
The ownership invariant that every run of `EgressNode` keeps, whatever OPEN
frames it is sent and whatever throws.

The shared part is `Sound`. The part of a thread (`LocOk`) says what the thread's
position entitles it to: a stream it tears down was taken by it and is at the
stage of the teardown that its program counter says, a stream it took and no
longer tears down is `Torn`, and the message thread's open descriptor belongs to
no stream. Together (`Reaches.owned`) they say that a stream leaves `streams_` by
one teardown at most, and that only this teardown closes its socket; what they do
not say is that every stream is still in `streams_` or was taken, because an OPEN
for a stream id in use makes this false.
-/

namespace TonTunnel.Egress

open Interleaving (Reach)

/-! ### Positions -/

/-- Where an owned stream stands at each stage of its teardown. -/
def Stage (n : Node) (r : Ref) : TearPc → Prop
  | .flag => (n.heap r).closed = false
  | .testFd | .shutdown | .closeFd => (n.heap r).closed = true ∧ Attached n r
  | .clearFd => (n.heap r).closed = true ∧ n.closes (n.heap r).sock = 1
  | .notify | .testJoin | .join => Torn n r

theorem Stage.kept {n n' : Node} {r : Ref} {p : TearPc} (h : Kept n n' r) (hs : Stage n r p) :
    Stage n' r p := by
  cases p with
  | flag => exact h.closed.trans hs
  | testFd | shutdown | closeFd => exact ⟨h.closed.trans hs.1, h.attached hs.2⟩
  | clearFd =>
      rw [Stage, h.closed, h.sock, h.closes]
      exact hs
  | notify | testJoin | join => exact h.torn hs

/-- Where the stream stands after a step of its teardown. -/
def StageOut (n : Node) (r : Ref) : TearOut → Prop
  | .more p => Stage n r p
  | .finished _ => Torn n r

/-- The call of `closeStream` is at stage `p` of tearing `r` down. -/
def CallTears (call : Option Closing) (r : Ref) (p : TearPc) : Prop :=
  ∃ c, call = some ⟨c, .tear r p⟩

/-- `stop` is at stage `p` of tearing `r` down; the streams it has not come to yet
are at the first stage. -/
def MainPc.Tears : MainPc → Ref → TearPc → Prop
  | .tearing _ (r :: rest) p, r', p' => (r' = r ∧ p' = p) ∨ (r' ∈ rest ∧ p' = .flag)
  | _, _, _ => False

/-- Between two streams `stop` has the rest of the snapshot at the first stage. -/
theorem MainPc.tears_flag {held todo : List Ref} {r : Ref} {p : TearPc} :
    (MainPc.tearing held todo .flag).Tears r p ↔ r ∈ todo ∧ p = .flag := by
  cases todo with
  | nil => simp [MainPc.Tears]
  | cons r' rest =>
      simp only [MainPc.Tears, List.mem_cons]
      constructor
      · rintro (⟨rfl, rfl⟩ | ⟨h, rfl⟩)
        · exact ⟨.inl rfl, rfl⟩
        · exact ⟨.inr h, rfl⟩
      · rintro ⟨rfl | h, rfl⟩
        · exact .inl ⟨rfl, rfl⟩
        · exact .inr ⟨h, rfl⟩

/-- A thread at local state `l` is at stage `p` of tearing `r` down. -/
def Tears : (t : ThreadId) → Loc t → Ref → TearPc → Prop
  | .msg, l => CallTears l.call
  | .idle, l => CallTears l.call
  | .main, l => l.Tears
  | .rx _, l => CallTears l.call
  | .clock, _ => fun _ _ => False

/-- The stream exists and was made for this client and stream id. -/
def Named (n : Node) (client : Bytes) (streamId : UInt32) (r : Ref) : Prop :=
  r < n.nextRef ∧ (n.heap r).clientId = client ∧ (n.heap r).streamId = streamId

/-- What `handleOpen` holds at each of its points. -/
def OpenOk (n : Node) (client : Bytes) (q : OpenMessage) : OpenPc → Prop
  | .connecting _ _ _ fd k | .makeStream fd k => 0 ≤ fd ∧ n.fds fd = some k ∧ Unowned n k
  | .register r =>
      Named n client q.streamId r ∧ n.teardowns r = [] ∧ (n.heap r).closed = false ∧
        ∀ key, n.streams.lookup key ≠ some r
  | .ack r | .startThread r | .assign r => Named n client q.streamId r
  | _ => True

/-- What `handleData` holds at each of its points: a descriptor it has loaded names
the stream's socket or nothing. -/
def DataOk (n : Node) (client : Bytes) (d : DataMessage) : DataPc → Prop
  | .test r | .touch r | .closing r => Named n client d.streamId r
  | .load r =>
      Named n client d.streamId r ∧ ∀ k, n.fds (n.heap r).fd = some k → k = (n.heap r).sock
  | .send r fd => Named n client d.streamId r ∧ ∀ k, n.fds fd = some k → k = (n.heap r).sock
  | _ => True

/-- What the message thread holds. -/
def MsgOk (n : Node) : MsgPc → Prop
  | .opening ctx q pc => OpenOk n ctx.clientId q pc
  | .dataing ctx d pc => DataOk n ctx.clientId d pc
  | _ => True

/-- The streams that `stop` has still to tear down are distinct and in its snapshot;
`stop` notifies nobody. -/
def MainOk : MainPc → Prop
  | .tearing held todo p => (todo.Nodup ∧ ∀ r ∈ todo, r ∈ held) ∧ p ≠ .notify
  | _ => True

/-- The points of the message thread at which it waits for `closeStream`. -/
def MsgPc.Calls : MsgPc → Prop
  | .dataing _ _ (.closing _) | .closing _ _ => True
  | _ => False

/-- The part of the invariant that belongs to one kind of thread only. -/
def PosOk : (t : ThreadId) → Loc t → Node → Prop
  | .msg, l, n => MsgOk n l.pc ∧ (l.call.isSome → l.pc.Calls)
  | .main, l, _ => MainOk l
  | _, _, _ => True

/-- A thread's part of the invariant. -/
structure LocOk (t : ThreadId) (l : Loc t) (n : Node) : Prop where
  stage {r : Ref} {p : TearPc} : Tears t l r p → n.teardowns r = [t] ∧ Stage n r p
  fate {r : Ref} : n.teardowns r = [t] → (∃ p, Tears t l r p) ∨ Torn n r
  pos : PosOk t l n

/-! ### A thread keeps its part -/

/-- One step of a teardown, by the thread that took the stream. -/
theorem TearMove.spec {t : ThreadId} {call : Option CloseCall} {r : Ref} {n n' : Node}
    {p : TearPc} {a : Act} {out : TearOut} (mine : n.teardowns r = [t])
    (hs : Stage n r p) (hn : Sound n) (m : TearMove t call r n p a out n') :
    Effect t n n' ∧ n'.teardowns = n.teardowns ∧ (∀ r' ≠ r, r' < n.nextRef → Kept n n' r') ∧
      StageOut n' r out := by
  have hbound := hn.bound_of_taken (by simp [mine] : n.teardowns r ≠ [])
  -- a step that leaves the owned fields alone
  have quiet {m : Node} (h : Quiet n m) :
      Effect t n m ∧ m.teardowns = n.teardowns ∧ ∀ r' ≠ r, r' < n.nextRef → Kept n m r' :=
    ⟨.quiet h, h.teardowns, fun _ _ _ => .quiet h⟩
  cases m with
  | alreadyClosed closed => exact absurd (hs.symm.trans closed) (by decide)
  | flag =>
      have attached := hn.attached hbound hs
      refine ⟨.flag mine (.refl _), rfl, fun r' hne _ => .setStream hne, ?_⟩
      exact ⟨by simp [Node.setStream], by simpa [Attached, Node.setStream] using attached⟩
  | fdOpen =>
      obtain ⟨e, ht, hk⟩ := quiet (.refl n)
      exact ⟨e, ht, hk, hs⟩
  | fdGone gone => exact absurd hs.2.1 (by omega)
  | shutdown =>
      have h := (Mild.shutdownFd n (n.heap r).fd).toQuiet
      obtain ⟨e, ht, hk⟩ := quiet h
      exact ⟨e, ht, hk, Stage.kept (p := .closeFd) (.quiet h) hs⟩
  | close =>
      obtain ⟨closed, attached⟩ := hs
      refine ⟨.closeFd mine closed attached (.refl _), ?_, fun r' hne hr' => ?_, ?_⟩
      · rw [Node.closeFd_of_open attached.2]
      · exact .closeFd attached.2 fun h => hne (hn.sockInj hr' hbound h)
      · rw [Node.closeFd_of_open attached.2]
        exact ⟨closed, by simp [(hn.fdOpen attached.2).2.2]⟩
  | clear =>
      obtain ⟨closed, once⟩ := hs
      refine ⟨.clearFd mine closed (.refl _), rfl, fun r' hne _ => .setStream hne, ?_⟩
      have torn : Torn (n.setStream r fun s => { s with fd := -1 }) r := by
        simp [Torn, Node.setStream, closed, once]
      unfold afterFd
      split
      · exact torn
      · exact torn
  | @notify c ok _ =>
      have h := (Mild.sendToClient n t c.clientId (encodeClose { streamId := c.streamId }) ok).toQuiet
      obtain ⟨e, ht, hk⟩ := quiet h
      exact ⟨e, ht, hk, Stage.kept (p := .testJoin) (.quiet h) hs⟩
  | notifyThrows | unjoinable | joinThrows | joinable =>
      obtain ⟨e, ht, hk⟩ := quiet (.refl n)
      exact ⟨e, ht, hk, hs⟩
  | join =>
      have h : Quiet n (n.setStream r fun s => { s with rxThread := none }) := by
        refine ⟨rfl, rfl, rfl, rfl, rfl, rfl, fun r' => ?_⟩
        by_cases hr : r' = r
        · subst hr
          simp [Node.setStream]
        · simp [Node.setStream, hr]
      obtain ⟨e, ht, hk⟩ := quiet h
      exact ⟨e, ht, hk, (Kept.quiet h).torn hs⟩

/-- A thread's part as far as its call of `closeStream` goes. -/
structure CallOk (t : ThreadId) (call : Option Closing) (n : Node) : Prop where
  stage {r : Ref} {p : TearPc} : CallTears call r p → n.teardowns r = [t] ∧ Stage n r p
  fate {r : Ref} : n.teardowns r = [t] → (∃ p, CallTears call r p) ∨ Torn n r

/-- The call that is active after a step of `closeStream`. -/
def CloseOut.call (c : CloseCall) : CloseOut → Option Closing
  | .more pc => some ⟨c, pc⟩
  | .returned _ => none

/-- A thread that tears nothing down keeps its part if the step takes nothing. -/
theorem CallOk.idle {t : ThreadId} {call call' : Option Closing} {n n' : Node} (hn : Sound n)
    (hc : CallOk t call n) (none_ : ∀ r p, ¬ CallTears call r p)
    (none_' : ∀ r p, ¬ CallTears call' r p) (e : Effect t n n')
    (ht : n'.teardowns = n.teardowns) : CallOk t call' n' where
  stage h := absurd h (none_' _ _)
  fate {r} h := by
    rw [ht] at h
    rcases hc.fate h with ⟨p, hp⟩ | torn
    · exact absurd hp (none_ _ _)
    · exact .inr (e.torn hn (hn.bound_of_taken (by simp [h])) torn)

theorem not_callTears_none (r : Ref) (p : TearPc) : ¬ CallTears none r p := by
  rintro ⟨c, h⟩
  cases h

theorem not_callTears_enter {c : CloseCall} (r : Ref) (p : TearPc) :
    ¬ CallTears (some ⟨c, .enter⟩) r p := by
  rintro ⟨c', h⟩
  cases h

/-- A teardown of `r` that goes on at `p'`, or is over. -/
theorem CallOk.tear {t : ThreadId} {c : CloseCall} {r : Ref} {p : TearPc} {n n' : Node}
    {call' : Option Closing} (hn : Sound n) (hc : CallOk t (some ⟨c, .tear r p⟩) n)
    (e : Effect t n n') (ht : n'.teardowns = n.teardowns)
    (now : (∃ p', call' = some ⟨c, .tear r p'⟩ ∧ Stage n' r p') ∨ (call' = none ∧ Torn n' r)) :
    CallOk t call' n' := by
  obtain ⟨mine, hs⟩ := hc.stage ⟨c, rfl⟩
  constructor
  · intro r' p' h
    obtain ⟨c', h⟩ := h
    rcases now with ⟨p'', rfl, hs'⟩ | ⟨rfl, _⟩
    · cases h
      exact ⟨by rw [ht]; exact mine, hs'⟩
    · cases h
  · intro r' h
    rw [ht] at h
    by_cases hr : r' = r
    · subst hr
      rcases now with ⟨p', rfl, _⟩ | ⟨_, torn⟩
      · exact .inl ⟨p', c, rfl⟩
      · exact .inr torn
    · rcases hc.fate h with ⟨p', c', hp⟩ | torn
      · cases hp
        exact absurd rfl hr
      · exact .inr (e.torn hn (hn.bound_of_taken (by simp [h])) torn)

/-- One step of `closeStream`. -/
theorem CloseMove.spec {t : ThreadId} {c : CloseCall} {pc : ClosePc} {n n' : Node} {a : Act}
    {out : CloseOut} (hn : Sound n) (hc : CallOk t (some ⟨c, pc⟩) n)
    (m : CloseMove t c n pc a out n') : Effect t n n' ∧ CallOk t (out.call c) n' := by
  cases m with
  | absent =>
      have e : Effect t n (n.noteClosed (keyFor c.clientId c.streamId)) :=
        .quiet (Mild.noteClosed n _).toQuiet
      exact ⟨e, hc.idle hn not_callTears_enter not_callTears_none e rfl⟩
  | throws =>
      exact ⟨.quiet (.refl n),
        hc.idle hn not_callTears_enter not_callTears_none (.quiet (.refl n)) rfl⟩
  | lose =>
      have e : Effect t n { n with streams := n.streams.erase (keyFor c.clientId c.streamId) } :=
        .lose (.refl _)
      exact ⟨e, hc.idle hn not_callTears_enter not_callTears_none e rfl⟩
  | @take r found =>
      obtain ⟨counts, htake⟩ := Node.take_eq n t c r
      have e : Effect t n (n.take t c r) := by
        rw [htake]
        exact .take found ⟨rfl, rfl, rfl, rfl, rfl, rfl, fun _ => rfl⟩
      refine ⟨e, fun {r' p'} h => ?_, fun {r'} h => ?_⟩
      · obtain ⟨c', h⟩ := h
        cases h
        rw [htake]
        exact ⟨by simp [hn.untaken found], hn.unclosed found⟩
      · by_cases hr : r' = r
        · subst hr
          exact .inl ⟨.flag, c, rfl⟩
        · have hold : n.teardowns r' = [t] := by simpa [htake, hr] using h
          rcases hc.fate hold with ⟨p', hp⟩ | torn
          · exact absurd hp (not_callTears_enter _ _)
          · exact .inr (e.torn hn (hn.bound_of_taken (by simp [hold])) torn)
  | @tear _ r p p' _ move =>
      obtain ⟨mine, hs⟩ := hc.stage ⟨c, rfl⟩
      obtain ⟨e, ht, _, hs'⟩ := move.spec mine hs hn
      exact ⟨e, hc.tear hn e ht (.inl ⟨p', rfl, hs'⟩)⟩
  | finish move =>
      obtain ⟨mine, hs⟩ := hc.stage ⟨c, rfl⟩
      obtain ⟨e, ht, _, torn⟩ := move.spec mine hs hn
      exact ⟨e, hc.tear hn e ht (.inr ⟨rfl, torn⟩)⟩

/-! ### The message thread keeps its part -/

section Messages

variable {cfg : Config} {client : Bytes} {n n' : Node} {a : Act}

/-- A stream keeps its name. -/
theorem Named.effect {t : ThreadId} {streamId : UInt32} {r : Ref} (e : Effect t n n')
    (h : Named n client streamId r) : Named n' client streamId r := by
  obtain ⟨hr, hclient, hstream⟩ := h
  obtain ⟨hr', hclient', hstream', _⟩ := e.ident hr
  exact ⟨hr', hclient'.trans hclient, hstream'.trans hstream⟩

/-- What `handleOpen` still holds after a step. -/
def OpenOutOk (n : Node) (client : Bytes) (q : OpenMessage) : OpenOut → Prop
  | .more pc => OpenOk n client q pc
  | _ => True

/-- One step of `handleOpen`. -/
theorem OpenMove.spec {q : OpenMessage} {pc : OpenPc} {out : OpenOut} (hn : Sound n)
    (ok : OpenOk n client q pc) (m : OpenMove cfg client q n pc a out n') :
    Effect .msg n n' ∧ n'.teardowns = n.teardowns ∧ OpenOutOk n' client q out := by
  have quiet {m : Node} (h : Mild n m) : Effect .msg n m ∧ m.teardowns = n.teardowns :=
    ⟨.quiet h.toQuiet, h.teardowns⟩
  cases m with
  | refuse | pass | exhausted | skip | noSocket | throws | escaped =>
      obtain ⟨e, ht⟩ := quiet (.refl n)
      exact ⟨e, ht, trivial⟩
  | failed | reported | unresolved | resolved | attempt =>
      obtain ⟨e, ht⟩ := quiet (.emit n _)
      exact ⟨e, ht, trivial⟩
  | quotaLeft | quotaThrows =>
      obtain ⟨e, ht⟩ := quiet (.touchCount n client)
      exact ⟨e, ht, trivial⟩
  | quotaFull =>
      obtain ⟨e, ht⟩ := quiet ((Mild.sendToClient n _ _ _ _).trans (.touchCount _ client))
      exact ⟨e, ht, trivial⟩
  | @socket _ _ _ fd nonneg free =>
      refine ⟨.openSocket rfl nonneg free (Mild.emit _ _).toQuiet, rfl, nonneg, ?_, fun r hr => ?_⟩
      · simp [Node.openSocket, Node.emit]
      · exact Nat.ne_of_lt (hn.sockBound hr)
  | @connected _ ip _ fd k ret =>
      have h := Mild.noteSelect n ip fd ret
      obtain ⟨e, ht⟩ := quiet h
      refine ⟨e, ht, ok.1, by rw [h.fds]; exact ok.2.1, fun r hr => ?_⟩
      rw [h.nextRef] at hr
      rw [h.sock]
      exact ok.2.2 r hr
  | @disconnected _ ip _ fd k ret =>
      have h := (Mild.noteSelect n ip fd ret).toQuiet
      have opened : (noteSelect n ip fd ret).fds fd = some k := by rw [h.fds]; exact ok.2.1
      refine ⟨.dropSocket rfl ok.2.1 ok.2.2 ?_, ?_, trivial⟩
      · rw [Node.closeFd_of_open opened, Node.closeFd_of_open ok.2.1]
        exact ⟨h.streams, h.nextRef, by simp [h.fds], h.nextSock, by simp [h.closes],
          h.teardowns, h.heap⟩
      · rw [Node.closeFd_of_open opened]
        exact h.teardowns
  | @makeStream fd k =>
      obtain ⟨nonneg, opened, unowned⟩ := ok
      refine ⟨.makeStream rfl nonneg opened unowned (.refl _), rfl, ⟨?_, ?_, ?_⟩, ?_, ?_, ?_⟩
      · exact Nat.lt_succ_self _
      · simp [Node.makeStream]
      · simp [Node.makeStream]
      · exact hn.unborn (Nat.le_refl _)
      · simp [Node.makeStream]
      · exact fun key h => Nat.lt_irrefl _ (hn.bound h)
  | @register r =>
      obtain ⟨named, untaken, unclosed, _⟩ := ok
      have hkey : keyFor client q.streamId = (n.heap r).key := by
        rw [Stream.key, named.2.1, named.2.2]
      rw [hkey]
      have e : Effect .msg n (n.register client (n.heap r).key r) :=
        .put rfl named.1 untaken unclosed ⟨rfl, rfl, rfl, rfl, rfl, rfl, fun _ => rfl⟩
      exact ⟨e, rfl, named.effect e⟩
  | @registerThrows r =>
      obtain ⟨named, untaken, unclosed, _⟩ := ok
      have hkey : keyFor client q.streamId = (n.heap r).key := by
        rw [Stream.key, named.2.1, named.2.2]
      rw [hkey]
      exact ⟨.put rfl named.1 untaken unclosed (.refl _), rfl, trivial⟩
  | ack =>
      obtain ⟨e, ht⟩ := quiet (.emit n _)
      exact ⟨e, ht, Named.effect e ok⟩
  | startThread =>
      obtain ⟨e, ht⟩ := quiet (.rxLife n _)
      exact ⟨e, ht, Named.effect e ok⟩
  | @assign r =>
      have h : Quiet n (n.setStream r fun s => { s with rxThread := some (.rx r) }) := by
        refine ⟨rfl, rfl, rfl, rfl, rfl, rfl, fun r' => ?_⟩
        by_cases hr : r' = r
        · subst hr
          simp [Node.setStream]
        · simp [Node.setStream, hr]
      exact ⟨.quiet h, rfl, trivial⟩

/-- What `handleData` still holds after a step. -/
def DataOutOk (n : Node) (client : Bytes) (d : DataMessage) : DataOut → Prop
  | .more pc => DataOk n client d pc
  | .close r _ => Named n client d.streamId r
  | .returned => True

/-- One step of `handleData`. -/
theorem DataMove.spec {d : DataMessage} {pc : DataPc} {out : DataOut} (hn : Sound n)
    (ok : DataOk n client d pc) (m : DataMove cfg client d n pc a out n') :
    DataOutOk n' client d out := by
  have named {r : Ref} (h : Named n client d.streamId r) : Named n' client d.streamId r :=
    h.effect (t := .msg) (.quiet m.mild.toQuiet)
  cases m with
  | within | tooLong | throws | late | notFound | empty | streamClosed | touch => exact trivial
  | @found r found =>
      have hkey := hn.key found
      obtain ⟨hclient, hstream⟩ := keyFor_inj hkey
      exact ⟨hn.bound found, hclient.symm, hstream.symm⟩
  | streamOpen _ closed =>
      refine ⟨ok, fun k hk => ?_⟩
      have := (hn.attached ok.1 closed).2
      rw [hk] at this
      exact Option.some.inj this
  | load => exact ok
  | badFd | sendFails | sends => exact named ok.1

/-- One step of the message thread outside `closeStream`. -/
theorem MsgMove.spec {pc : MsgPc} {l : Thread MsgPc} (hn : Sound n) (ok : MsgOk n pc)
    (m : MsgMove cfg n pc a l n') :
    Effect .msg n n' ∧ n'.teardowns = n.teardowns ∧ PosOk .msg l n' ∧
      ∀ r p, ¬ CallTears l.call r p := by
  have quiet {m : Node} (h : Mild n m) : Effect .msg n m ∧ m.teardowns = n.teardowns :=
    ⟨.quiet h.toQuiet, h.teardowns⟩
  cases m with
  | deliver | leave | closeReplyThrows =>
      obtain ⟨e, ht⟩ := quiet (.refl n)
      exact ⟨e, ht, ⟨trivial, nofun⟩, not_callTears_none⟩
  | dispatchOpen | dispatchData | dispatchError | closeReply =>
      obtain ⟨e, ht⟩ := quiet (.emit n _)
      exact ⟨e, ht, ⟨trivial, nofun⟩, not_callTears_none⟩
  | dispatchClose =>
      obtain ⟨e, ht⟩ := quiet (.emit n _)
      exact ⟨e, ht, ⟨trivial, fun _ => trivial⟩, not_callTears_enter⟩
  | opening move =>
      obtain ⟨e, ht, ok'⟩ := move.spec hn ok
      exact ⟨e, ht, ⟨ok', nofun⟩, not_callTears_none⟩
  | opened move | openEscaped move =>
      obtain ⟨e, ht, _⟩ := move.spec hn ok
      exact ⟨e, ht, ⟨trivial, nofun⟩, not_callTears_none⟩
  | dataing move =>
      obtain ⟨e, ht⟩ := quiet move.mild
      exact ⟨e, ht, ⟨move.spec hn ok, nofun⟩, not_callTears_none⟩
  | dataCloses move =>
      obtain ⟨e, ht⟩ := quiet move.mild
      exact ⟨e, ht, ⟨move.spec hn ok, fun _ => trivial⟩, not_callTears_enter⟩
  | dataDone move =>
      obtain ⟨e, ht⟩ := quiet move.mild
      exact ⟨e, ht, ⟨trivial, nofun⟩, not_callTears_none⟩

end Messages

/-! ### Every thread keeps its part, and leaves the others theirs -/

section Threads

variable {cfg : Config} {t t' : ThreadId} {n n' : Node} {a : Act}

/-- A thread that calls `closeStream`: its own code leaves its part alone if it
takes nothing, and the call keeps it. -/
theorem ThreadMove.spec {Pc : Type} {resume : Bool → Pc → Pc}
    {Base : Node → Pc → Act → Thread Pc → Node → Prop} {l l' : Thread Pc} (hn : Sound n)
    (hc : CallOk t l.call n)
    (base : ∀ {l' n'}, Base n l.pc a l' n' → Effect t n n' ∧ n'.teardowns = n.teardowns ∧
      ∀ r p, ¬ CallTears l'.call r p)
    (m : ThreadMove t resume Base n l a l' n') : Effect t n n' ∧ CallOk t l'.call n' := by
  cases m with
  | base move =>
      obtain ⟨e, ht, none_⟩ := base move
      exact ⟨e, hc.idle hn not_callTears_none none_ e ht⟩
  | call move => exact move.spec hn hc
  | ret move => exact move.spec hn hc

theorem RxMove.tearless {r : Ref} {pc : RxPc} {l : Thread RxPc} (m : RxMove r n pc a l n') :
    ∀ r' p, ¬ CallTears l.call r' p := by
  cases m with
  | ended | pushFails | pushThrows => exact not_callTears_enter
  | _ => exact not_callTears_none

theorem IdleMove.tearless {pc : IdlePc} {l : Thread IdlePc} (m : IdleMove cfg n pc a l n') :
    ∀ r p, ¬ CallTears l.call r p := by
  cases m with
  | next => exact not_callTears_enter
  | _ => exact not_callTears_none

/-- After `closeStream` the message thread is in the frame loop or at the reply. -/
theorem MsgPc.resume_cases {pc : MsgPc} (had : Bool) (h : pc.Calls) :
    ∃ ctx, pc.resume had = .parsing ctx ∨ ∃ streamId, pc.resume had = .closeReply ctx streamId := by
  unfold MsgPc.Calls at h
  split at h
  · exact ⟨_, .inl rfl⟩
  · cases had
    · exact ⟨_, .inr ⟨_, rfl⟩⟩
    · exact ⟨_, .inl rfl⟩
  · exact h.elim

theorem MsgOk.resume {pc : MsgPc} {had : Bool} (h : pc.Calls) : MsgOk n' (pc.resume had) := by
  obtain ⟨ctx, h | ⟨streamId, h⟩⟩ := MsgPc.resume_cases had h
  · rw [h]
    exact trivial
  · rw [h]
    exact trivial

/-- The message thread's position survives a step of its own `closeStream`. -/
theorem MsgOk.effect {pc : MsgPc} (h : pc.Calls) (e : Effect t n n') (ok : MsgOk n pc) :
    MsgOk n' pc := by
  unfold MsgPc.Calls at h
  split at h
  · exact Named.effect e ok
  · exact trivial
  · exact h.elim

theorem TearMove.silent {r : Ref} {p p' : TearPc} (m : TearMove t none r n p a (.more p') n') :
    p' ≠ .notify := by
  cases m <;> nofun

/-- One step of `stop`. -/
theorem MainMove.spec {l l' : MainPc} (hn : Sound n) (hl : LocOk .main l n)
    (m : MainMove n l a l' n') : Effect .main n n' ∧ LocOk .main l' n' := by
  -- steps before the snapshot and after the last teardown
  have quiet {l' : MainPc} {m : Node} (h : Quiet n m) (ok : MainOk l')
      (none_ : ∀ r p, ¬ l.Tears r p) (none_' : ∀ r p, ¬ l'.Tears r p) :
      Effect .main n m ∧ LocOk .main l' m := by
    refine ⟨.quiet h, fun h => absurd h (none_' _ _), fun {r} hr => ?_, ok⟩
    rw [h.teardowns] at hr
    rcases hl.fate hr with ⟨p, hp⟩ | torn
    · exact absurd hp (none_ _ _)
    · exact .inr ((Kept.quiet h).torn torn)
  cases m with
  | stop | transportStop =>
      refine quiet ⟨rfl, rfl, rfl, rfl, rfl, rfl, fun _ => rfl⟩ trivial ?_ ?_
      · exact fun _ _ tears => tears
      · exact fun _ _ tears => tears
  | joinIdle | leave =>
      refine quiet (.refl n) trivial ?_ ?_
      · exact fun _ _ tears => tears
      · exact fun _ _ tears => tears
  | @snapshot refs all =>
      have e : Effect .main n (n.takeAll .main refs) := .takeAll rfl all (.refl _)
      have mem {r : Ref} : r ∈ refs ↔ ∃ key, n.streams.lookup key = some r :=
        all.mem_iff.trans Node.mem_refs
      refine ⟨e, fun {r p} h => ?_, fun {r} h => ?_, ?_⟩
      · obtain ⟨hin, rfl⟩ := MainPc.tears_flag.mp h
        obtain ⟨key, found⟩ := mem.mp hin
        exact ⟨by simp [Node.takeAll, hin, hn.untaken found], hn.unclosed found⟩
      · by_cases hin : r ∈ refs
        · exact .inl ⟨.flag, MainPc.tears_flag.mpr ⟨hin, rfl⟩⟩
        · have hold : n.teardowns r = [.main] := by simpa [Node.takeAll, hin] using h
          rcases hl.fate hold with ⟨p, hp⟩ | torn
          · exact hp.elim
          · exact .inr (e.torn hn (hn.bound_of_taken (by simp [hold])) torn)
      · exact ⟨⟨all.nodup_iff.mpr hn.nodup_refs, fun _ h => h⟩, by decide⟩
  | @tear held r rest p _ p' _ move =>
      obtain ⟨mine, hs⟩ := hl.stage (.inl ⟨rfl, rfl⟩)
      obtain ⟨e, ht, kept, hs'⟩ := move.spec mine hs hn
      obtain ⟨⟨hnodup, hheld⟩, -⟩ := hl.pos
      refine ⟨e, fun {r' p''} h => ?_, fun {r'} h => ?_, ⟨hnodup, hheld⟩, move.silent⟩
      · rcases h with ⟨rfl, rfl⟩ | ⟨hin, rfl⟩
        · exact ⟨by rw [ht]; exact mine, hs'⟩
        · obtain ⟨mine', hstage⟩ := hl.stage (.inr ⟨hin, rfl⟩)
          have hne : r' ≠ r := fun h => (List.nodup_cons.mp hnodup).1 (h ▸ hin)
          have hk := kept r' hne (hn.bound_of_taken (by simp [mine']))
          exact ⟨by rw [ht]; exact mine', hstage.kept hk⟩
      · rw [ht] at h
        rcases hl.fate h with ⟨p'', ⟨rfl, rfl⟩ | ⟨hin, rfl⟩⟩ | torn
        · exact .inl ⟨p', .inl ⟨rfl, rfl⟩⟩
        · exact .inl ⟨.flag, .inr ⟨hin, rfl⟩⟩
        · exact .inr (e.torn hn (hn.bound_of_taken (by simp [h])) torn)
  | @finish held r rest p _ had _ move =>
      obtain ⟨mine, hs⟩ := hl.stage (.inl ⟨rfl, rfl⟩)
      obtain ⟨e, ht, kept, torn'⟩ := move.spec mine hs hn
      obtain ⟨⟨hnodup, hheld⟩, -⟩ := hl.pos
      refine ⟨e, fun {r' p''} h => ?_, fun {r'} h => ?_,
        ⟨(List.nodup_cons.mp hnodup).2, fun r' h => hheld r' (List.mem_cons_of_mem _ h)⟩, by decide⟩
      · obtain ⟨hin, rfl⟩ := MainPc.tears_flag.mp h
        obtain ⟨mine', hstage⟩ := hl.stage (.inr ⟨hin, rfl⟩)
        have hne : r' ≠ r := fun h => (List.nodup_cons.mp hnodup).1 (h ▸ hin)
        have hk := kept r' hne (hn.bound_of_taken (by simp [mine']))
        exact ⟨by rw [ht]; exact mine', hstage.kept hk⟩
      · rw [ht] at h
        rcases hl.fate h with ⟨p'', ⟨rfl, rfl⟩ | ⟨hin, rfl⟩⟩ | torn
        · exact .inr torn'
        · exact .inl ⟨.flag, MainPc.tears_flag.mpr ⟨hin, rfl⟩⟩
        · exact .inr (e.torn hn (hn.bound_of_taken (by simp [h])) torn)

/-- **A thread keeps its part of the invariant**, and its step is an `Effect`. -/
theorem Move.own {l l' : Loc t} (hn : Sound n) (hl : LocOk t l n)
    (m : Move cfg t n l a l' n') : Effect t n n' ∧ LocOk t l' n' := by
  cases t with
  | msg =>
      obtain ⟨ok, calls⟩ := hl.pos
      obtain ⟨e, hc⟩ := ThreadMove.spec (l := l) hn ⟨hl.stage, hl.fate⟩
        (fun move => let ⟨e, ht, _, none_⟩ := MsgMove.spec hn ok move; ⟨e, ht, none_⟩) m
      refine ⟨e, hc.stage, hc.fate, ?_⟩
      cases m with
      | base move => exact (MsgMove.spec hn ok move).2.2.1
      | call move => exact ⟨ok.effect (calls rfl) e, fun _ => calls rfl⟩
      | ret move => exact ⟨.resume (calls rfl), nofun⟩
  | idle =>
      obtain ⟨e, hc⟩ := ThreadMove.spec (l := l) hn ⟨hl.stage, hl.fate⟩
        (fun move => ⟨.quiet move.mild.toQuiet, move.mild.teardowns, move.tearless⟩) m
      exact ⟨e, hc.stage, hc.fate, trivial⟩
  | main => exact MainMove.spec hn hl m
  | rx r =>
      obtain ⟨e, hc⟩ := ThreadMove.spec (l := l) hn ⟨hl.stage, hl.fate⟩
        (fun move => ⟨.quiet move.mild.toQuiet, move.mild.teardowns, move.tearless⟩) m
      exact ⟨e, hc.stage, hc.fate, trivial⟩
  | clock =>
      obtain ⟨ms, rfl⟩ := m
      exact ⟨.quiet ⟨rfl, rfl, rfl, rfl, rfl, rfl, fun _ => rfl⟩, hl.stage, hl.fate, trivial⟩

/-- What `handleOpen` holds does not depend on the other threads. -/
theorem OpenOk.other {client : Bytes} {q : OpenMessage} {pc : OpenPc} (hn : Sound n)
    (e : Effect t n n') (ht : t ≠ .msg) (ok : OpenOk n client q pc) : OpenOk n' client q pc := by
  obtain ⟨hnext, hfds, hstreams, _⟩ := e.shrinks hn ht
  have conn {fd : Int} {k : Sock} (h : 0 ≤ fd ∧ n.fds fd = some k ∧ Unowned n k) :
      0 ≤ fd ∧ n'.fds fd = some k ∧ Unowned n' k := by
    obtain ⟨nonneg, opened, unowned⟩ := h
    refine ⟨nonneg, ?_, fun r hr => ?_⟩
    · rcases hfds fd with same | ⟨_, r, hr, hsock⟩
      · exact same.trans opened
      · rw [opened] at hsock
        exact absurd (Option.some.inj hsock).symm (unowned r hr)
    · rw [hnext] at hr
      rw [(e.ident hr).2.2.2]
      exact unowned r hr
  cases pc with
  | connecting => exact conn ok
  | makeStream => exact conn ok
  | register r =>
      obtain ⟨named, untaken, unclosed, absent⟩ := ok
      have kept := e.kept hn named.1 (by simp [untaken])
      refine ⟨named.effect e, ?_, kept.closed.trans unclosed,
        fun key h => absent key (hstreams key r h)⟩
      rcases e.teardowns hn r with same | ⟨_, _, key, found⟩
      · exact same.trans untaken
      · exact absurd found (absent key)
  | ack | startThread | assign => exact Named.effect e ok
  | _ => exact trivial

/-- Nor does what `handleData` holds: its descriptor may be closed under it, but the
number is not handed out again while it is in use here. -/
theorem DataOk.other {client : Bytes} {d : DataMessage} {pc : DataPc} (hn : Sound n)
    (e : Effect t n n') (ht : t ≠ .msg) (ok : DataOk n client d pc) : DataOk n' client d pc := by
  obtain ⟨_, hfds, _, hfd⟩ := e.shrinks hn ht
  have fds {f : Int} {k : Sock} (h : n'.fds f = some k) : n.fds f = some k := by
    rcases hfds f with same | ⟨none_, _⟩
    · exact same ▸ h
    · rw [none_] at h
      cases h
  cases pc with
  | test | touch | closing => exact Named.effect e ok
  | load r =>
      refine ⟨ok.1.effect e, fun k hk => ?_⟩
      rw [(e.ident ok.1.1).2.2.2]
      have hold := fds hk
      rcases hfd r with same | gone
      · exact ok.2 k (same ▸ hold)
      · rw [gone] at hold
        exact absurd (hn.fdOpen hold).1 (by decide)
  | send r fd =>
      refine ⟨ok.1.effect e, fun k hk => ?_⟩
      rw [(e.ident ok.1.1).2.2.2]
      exact ok.2 k (fds hk)
  | check | lookup => exact trivial

theorem MsgOk.other {pc : MsgPc} (hn : Sound n) (e : Effect t n n') (ht : t ≠ .msg)
    (ok : MsgOk n pc) : MsgOk n' pc := by
  cases pc with
  | opening => exact OpenOk.other hn e ht ok
  | dataing => exact DataOk.other hn e ht ok
  | _ => exact trivial

/-- **A thread leaves the other threads their parts of the invariant.** -/
theorem LocOk.other {l : Loc t'} (hn : Sound n) (e : Effect t n n') (ht : t' ≠ t)
    (hl : LocOk t' l n) : LocOk t' l n' := by
  have hkept {r : Ref} (h : n.teardowns r = [t']) : Kept n n' r ∧ n'.teardowns r = [t'] := by
    refine ⟨e.kept hn (hn.bound_of_taken (by simp [h])) (by simp [h, ht]), ?_⟩
    rcases e.teardowns hn r with same | ⟨none_, _⟩
    · exact same.trans h
    · rw [h] at none_
      cases none_
  constructor
  · intro r p h
    obtain ⟨mine, hs⟩ := hl.stage h
    obtain ⟨kept, mine'⟩ := hkept mine
    exact ⟨mine', hs.kept kept⟩
  · intro r h
    have hold : n.teardowns r = [t'] := by
      rcases e.teardowns hn r with same | ⟨_, mine, _⟩
      · exact same ▸ h
      · rw [h] at mine
        exact absurd (List.head_eq_of_cons_eq mine) ht
    rcases hl.fate hold with tears | torn
    · exact .inl tears
    · exact .inr ((hkept hold).1.torn torn)
  · cases t' with
    | msg =>
        obtain ⟨ok, calls⟩ := hl.pos
        exact ⟨ok.other hn e ht.symm, calls⟩
    | main => exact hl.pos
    | idle | rx | clock => exact trivial

end Threads

/-- The ownership invariant of the whole process. -/
abbrev Owned (s : System) : Prop := Interleaving.Holds Sound LocOk s

theorem owned_init : Owned init := by
  have empty {k : Bytes} {r : Ref} (h : init.shared.streams.lookup k = some r) : False := by
    cases h
  refine ⟨⟨fun h => (empty h).elim, fun h => (empty h).elim, fun h => (empty h).elim,
    fun h => (empty h).elim, fun hr => absurd hr (Nat.not_lt_zero _), nofun, nofun,
    fun hr => absurd hr (Nat.not_lt_zero _), fun hr => absurd hr (Nat.not_lt_zero _),
    fun _ => rfl, fun _ => rfl, fun _ => .inl rfl⟩, fun t => ⟨fun {r p} h => ?_, nofun, ?_⟩⟩
  · cases t with
    | main | clock => exact h.elim
    | msg | idle | rx => exact absurd h (not_callTears_none r p)
  · cases t with
    | msg => exact ⟨trivial, nofun⟩
    | main | idle | rx | clock => exact trivial

/-- **Every run keeps the ownership invariant.** -/
theorem Reaches.owned {cfg : Config} {s : System} (h : Reaches cfg s) : Owned s := by
  refine h.threadModular owned_init (fun s t a l n _ hs _ hstep => ?_)
    (fun s t a l n _ hs _ hstep t' ht => ?_)
  · obtain ⟨e, hl⟩ := (step_move hstep).own hs.shared (hs.loc t)
    exact ⟨hs.shared.effect e, hl⟩
  · obtain ⟨e, _⟩ := (step_move hstep).own hs.shared (hs.loc t)
    exact (hs.loc t').other hs.shared e ht

/-- An invariant of the message thread's position: its own steps keep it (`base`),
and so do the steps of the other threads and of the `closeStream` it waits for
(`wait`), after which it is in the frame loop or at the reply (`ret`). -/
theorem Reaches.msgPos {cfg : Config} {s : System} {P : MsgPc → Node → Prop}
    (start : P .waiting init.shared)
    (base : ∀ {n n' pc a l'}, Sound n → MsgOk n pc → MsgMove cfg n pc a l' n' → P pc n →
      P l'.pc n')
    (wait : ∀ {n n' pc t a} {l l' : Loc t}, Sound n → MsgOk n pc → t ≠ .msg ∨ pc.Calls →
      Move cfg t n l a l' n' → P pc n → P pc n')
    (ret : ∀ {n pc had}, pc.Calls → P (MsgPc.resume had pc) n) (h : Reaches cfg s) :
    P (s.loc .msg).pc s.shared := by
  refine Reach.invariant (I := fun s => P (s.loc .msg).pc s.shared) start ?_ h
  intro s s' t a hr hP _ hnext
  obtain ⟨l, n, hstep, rfl⟩ := Interleaving.Machine.next_eq_some hnext
  have m := step_move hstep
  have hs := Reaches.owned hr
  obtain ⟨ok, calls⟩ := (hs.loc .msg).pos
  by_cases ht : t = .msg
  · subst ht
    simp only [Function.update_self]
    generalize s.loc .msg = l₀ at m calls hP ok
    cases m with
    | base move => exact base hs.shared ok move hP
    | @call pc c cpc _ cpc' _ move =>
        have m : Move cfg .msg s.shared ⟨pc, some ⟨c, cpc⟩⟩ a ⟨pc, some ⟨c, cpc'⟩⟩ n := .call move
        exact wait hs.shared ok (.inr (calls rfl)) m hP
    | ret => exact ret (calls rfl)
  · simp only [Function.update_of_ne (Ne.symm ht)]
    exact wait hs.shared ok (.inl ht) m hP

end TonTunnel.Egress
