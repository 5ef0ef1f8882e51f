import TonTunnel.Egress.Threads

/-!
The step functions of `Egress.Threads` as relations, one constructor for each way
a step can go, and the inversion lemma of each function. The invariants of the
later modules are case analyses over these constructors and never unfold a step
function.
-/

namespace TonTunnel.Egress

/-! ### What the steps of a teardown and of `closeStream` do -/

/-- The stage after the descriptor is dealt with: `stop` notifies nobody. -/
def afterFd (call : Option CloseCall) : TearPc := if call.isSome then .notify else .testJoin

/-- The steps of `tearStep`, one constructor each. -/
inductive TearMove (t : ThreadId) (call : Option CloseCall) (r : Ref) (n : Node) :
    TearPc → Act → TearOut → Node → Prop
  | alreadyClosed {a} (closed : (n.heap r).closed = true) :
      TearMove t call r n .flag a (.more .testJoin) n
  | flag {a} :
      TearMove t call r n .flag a (.more .testFd) (n.setStream r fun s => { s with closed := true })
  | fdOpen {a} (open_ : 0 ≤ (n.heap r).fd) : TearMove t call r n .testFd a (.more .shutdown) n
  | fdGone {a} (gone : (n.heap r).fd < 0) : TearMove t call r n .testFd a (.more (afterFd call)) n
  | shutdown {a} :
      TearMove t call r n .shutdown a (.more .closeFd) (n.shutdownFd (n.heap r).fd)
  | close {a} : TearMove t call r n .closeFd a (.more .clearFd) (n.closeFd (n.heap r).fd)
  | clear {a} :
      TearMove t call r n .clearFd a (.more (afterFd call))
        (n.setStream r fun s => { s with fd := -1 })
  | notify {c ok} (is : call = some c) :
      TearMove t call r n .notify (.sent ok) (.more .testJoin)
        (n.sendToClient t c.clientId (encodeClose { streamId := c.streamId }) ok)
  | notifyThrows {what} : TearMove t call r n .notify (.throw what) (.finished false) n
  | joinable {a t'} (joinable : (n.heap r).rxThread = some t') :
      TearMove t call r n .testJoin a (.more .join) n
  | unjoinable {a} (none_ : (n.heap r).rxThread = none) :
      TearMove t call r n .testJoin a (.finished true) n
  | joinThrows {a} (none_ : (n.heap r).rxThread = none) :
      TearMove t call r n .join a (.finished false) n
  | join {a t'} (joinable : (n.heap r).rxThread = some t') (done : t' = t ∨ n.exited t' = true) :
      TearMove t call r n .join a (.finished true)
        (n.setStream r fun s => { s with rxThread := none })

section Teardown

variable {t : ThreadId} {call : Option CloseCall} {c : CloseCall} {r : Ref} {p : TearPc}
  {n n' : Node} {a : Act}

theorem tearStep_move {out : TearOut} (h : tearStep t call r p n a = some (out, n')) :
    TearMove t call r n p a out n' := by
  unfold tearStep at h
  split at h
  · split at h
    · rename_i hc
      cases h
      exact .alreadyClosed (by simp_all)
    · cases h
      exact .flag
  · split at h
    · cases h
      exact .fdOpen ‹_›
    · cases h
      exact .fdGone (by omega)
  · cases h
    exact .shutdown
  · cases h
    exact .close
  · cases h
    exact .clear
  · rw [Option.map_eq_some_iff] at h
    obtain ⟨c, hc, h⟩ := h
    cases h
    exact .notify hc
  · cases h
    exact .notifyThrows
  · split at h
    · rename_i hj
      cases h
      obtain ⟨t', ht'⟩ := Option.isSome_iff_exists.mp hj
      exact .joinable ht'
    · cases h
      exact .unjoinable (Option.not_isSome_iff_eq_none.mp ‹_›)
  · split at h
    · cases h
      exact .joinThrows ‹_›
    · split at h
      · cases h
        exact .join ‹_› ‹_›
      · cases h
  · cases h

/-- The steps of `closeStep`, one constructor each. -/
inductive CloseMove (t : ThreadId) (c : CloseCall) (n : Node) :
    ClosePc → Act → CloseOut → Node → Prop
  | absent (absent : n.streams.lookup (keyFor c.clientId c.streamId) = none) :
      CloseMove t c n .enter .go (.returned false) (n.noteClosed (keyFor c.clientId c.streamId))
  | take {r : Ref} (found : n.streams.lookup (keyFor c.clientId c.streamId) = some r) :
      CloseMove t c n .enter .go (.more (.tear r .flag)) (n.take t c r)
  | throws {what} : CloseMove t c n .enter (.throw what) (.returned false) n
  /-- the entry is gone from `streams_` and nobody tears the stream down -/
  | lose {what : Option Bytes} {r : Ref} (found : n.streams.lookup (keyFor c.clientId c.streamId) = some r) :
      CloseMove t c n .enter (.throwMid what) (.returned false)
        { n with streams := n.streams.erase (keyFor c.clientId c.streamId) }
  | tear {a : Act} {r : Ref} {p p' : TearPc} {n' : Node}
      (move : TearMove t (some c) r n p a (.more p') n') :
      CloseMove t c n (.tear r p) a (.more (.tear r p')) n'
  | finish {a : Act} {r : Ref} {p : TearPc} {had : Bool} {n' : Node}
      (move : TearMove t (some c) r n p a (.finished had) n') :
      CloseMove t c n (.tear r p) a (.returned had) n'

theorem closeStep_move {pc : ClosePc} {out : CloseOut}
    (h : closeStep t c pc n a = some (out, n')) : CloseMove t c n pc a out n' := by
  unfold closeStep at h
  simp only at h
  split at h
  · split at h
    · cases h
      exact .absent ‹_›
    · cases h
      exact .take ‹_›
    · cases h
      exact .throws
    · cases h
      exact .lose ‹_›
    · cases h
  · rw [Option.map_eq_some_iff] at h
    obtain ⟨⟨tout, m⟩, htear, h⟩ := h
    cases tout with
    | more p' =>
        cases h
        exact .tear (tearStep_move htear)
    | finished had =>
        cases h
        exact .finish (tearStep_move htear)

end Teardown

/-! ### What the steps of `handleOpen` do -/

/-- Where `handleOpen` allocates or starts a thread, so that an exception can leave
the `try` block with nothing changed by the step. -/
def OpenPc.mayThrow : OpenPc → Bool
  | .check | .fail _ | .quota | .makeStream _ _ | .register _ | .ack _ | .startThread _ => true
  | _ => false

/-- The steps of `openStep`, one constructor each. -/
inductive OpenMove (cfg : Config) (client : Bytes) (q : OpenMessage) (n : Node) :
    OpenPc → Act → OpenOut → Node → Prop
  | refuse {text} (refused : checkOpen cfg client q = some text) :
      OpenMove cfg client q n .check .go (.more (.fail text)) n
  | pass (passed : checkOpen cfg client q = none) :
      OpenMove cfg client q n .check .go (.more .quota) n
  | failed {text ok} :
      OpenMove cfg client q n (.fail text) (.sent ok) .returned
        (n.sendToClient .msg client (encodeError { streamId := q.streamId, message := text }) ok)
  | quotaLeft (below : n.count client < cfg.maxStreams) :
      OpenMove cfg client q n .quota .go (.more (.resolve (n.count client))) (n.touchCount client)
  | quotaFull {ok} (full : cfg.maxStreams ≤ n.count client) :
      OpenMove cfg client q n .quota (.sent ok) .returned
        ((n.sendToClient .msg client
          (encodeError { streamId := q.streamId, message := ascii "max streams reached" })
          ok).touchCount client)
  | quotaThrows {what} (full : cfg.maxStreams ≤ n.count client) :
      OpenMove cfg client q n .quota (.throwMid what) (.more (.caught what)) (n.touchCount client)
  | unresolved {count addrs} :
      OpenMove cfg client q n (.resolve count) (.resolved addrs)
        (.more (.fail (ascii "DNS resolve failed"))) (n.emit (.getaddrinfo (cString q.host)))
  | resolved {count addr rest} :
      OpenMove cfg client q n (.resolve count) (.resolved (some (addr :: rest)))
        (.more (.connect count (addr :: rest) true)) (n.emit (.getaddrinfo (cString q.host)))
  | exhausted {count blockedOnly} :
      OpenMove cfg client q n (.connect count [] blockedOnly) .go
        (.more (.fail (if blockedOnly then ascii "destination blocked"
          else ascii "tcp connect failed"))) n
  | skip {count addr rest blockedOnly} :
      OpenMove cfg client q n (.connect count (addr :: rest) blockedOnly) .go
        (.more (.connect count rest blockedOnly)) n
  | attempt {count addr rest blockedOnly ip} (text : inetNtop addr = some ip)
      (free : cfg.egress.blockPrivateIps = true → isAddressBlocked ip = false) :
      OpenMove cfg client q n (.connect count (addr :: rest) blockedOnly) .go
        (.more (.socket count ip rest)) (n.emit (.connect client q count ip))
  | noSocket {count ip rest} :
      OpenMove cfg client q n (.socket count ip rest) (.socketRet none)
        (.more (.connect count rest false)) n
  | socket {count ip rest fd} (nonneg : 0 ≤ fd) (free : n.fds fd = none) :
      OpenMove cfg client q n (.socket count ip rest) (.socketRet (some fd))
        (.more (.connecting count ip rest fd n.nextSock))
        ((n.openSocket fd).emit (.socket client q fd n.nextSock))
  | connected {count ip rest fd k ret} (ok : connectSucceeds ip ret = true) :
      OpenMove cfg client q n (.connecting count ip rest fd k) (.connectRet ret)
        (.more (.makeStream fd k)) (noteSelect n ip fd ret)
  | disconnected {count ip rest fd k ret} (fails : connectSucceeds ip ret = false) :
      OpenMove cfg client q n (.connecting count ip rest fd k) (.connectRet ret)
        (.more (.connect count rest false)) ((noteSelect n ip fd ret).closeFd fd)
  | makeStream {fd k} :
      OpenMove cfg client q n (.makeStream fd k) .go (.more (.register n.nextRef))
        (n.makeStream client q.streamId fd k)
  | register {r} :
      OpenMove cfg client q n (.register r) .go (.more (.ack r))
        (n.register client (keyFor client q.streamId) r)
  | registerThrows {r what} (absent : n.streamsPerClient.lookup client = none) :
      OpenMove cfg client q n (.register r) (.throwMid what) (.more (.caught what))
        (n.putStream (keyFor client q.streamId) r)
  | ack {r ok} :
      OpenMove cfg client q n (.ack r) (.sent ok) (.more (.startThread r))
        (n.sendToClient .msg client (encodeOpen { streamId := q.streamId }) ok)
  | startThread {r} :
      OpenMove cfg client q n (.startThread r) .go (.more (.assign r))
        { n with rxLife := Function.update n.rxLife r .running }
  | assign {r} :
      OpenMove cfg client q n (.assign r) .go .returned
        (n.setStream r fun s => { s with rxThread := some (.rx r) })
  | throws {pc what} (may : pc.mayThrow = true) :
      OpenMove cfg client q n pc (.throw what) (.more (.caught what)) n
  | reported {what ok} :
      OpenMove cfg client q n (.caught what) (.sent ok) .returned
        (n.sendToClient .msg client
          (encodeError { streamId := q.streamId, message := caughtText what }) ok)
  | escaped {what what'} : OpenMove cfg client q n (.caught what) (.throw what') .escaped n

theorem openStep_move {cfg : Config} {client : Bytes} {q : OpenMessage} {pc : OpenPc}
    {n n' : Node} {a : Act} {out : OpenOut}
    (h : openStep cfg client q pc n a = some (out, n')) : OpenMove cfg client q n pc a out n' := by
  unfold openStep at h
  simp only at h
  split at h
  -- `check`
  · split at h <;> cases h
    · exact .refuse ‹_›
    · exact .pass ‹_›
  · cases h
    exact .throws rfl
  -- `fail`
  · cases h
    exact .failed
  · cases h
    exact .throws rfl
  -- `quota`
  · split at h <;> cases h
    rename_i hcount
    exact .quotaLeft (UInt32.not_le.mp hcount)
  · split at h <;> cases h
    exact .quotaFull ‹_›
  · cases h
    exact .throws rfl
  · split at h <;> cases h
    exact .quotaThrows ‹_›
  -- `resolve`
  · split at h <;> cases h
    · exact .unresolved
    · exact .unresolved
    · exact .resolved
  -- `connect`
  · cases h
    exact .exhausted
  · split at h
    · cases h
      exact .skip
    · split at h <;> cases h
      · exact .skip
      · exact .attempt ‹_› (by simp_all)
  -- `socket`
  · cases h
    exact .noSocket
  · split at h <;> cases h
    rename_i hfd
    exact .socket hfd.1 hfd.2
  -- `connecting`
  · split at h <;> cases h
    · exact .connected ‹_›
    · rename_i hfails
      exact .disconnected (by simpa using hfails)
  -- `makeStream`
  · cases h
    exact .makeStream
  · cases h
    exact .throws rfl
  -- `register`
  · cases h
    exact .register
  · cases h
    exact .throws rfl
  · split at h <;> cases h
    exact .registerThrows (Option.isNone_iff_eq_none.mp ‹_›)
  -- `ack`, `startThread`, `assign`
  · cases h
    exact .ack
  · cases h
    exact .throws rfl
  · cases h
    exact .startThread
  · cases h
    exact .throws rfl
  · cases h
    exact .assign
  -- `caught`
  · cases h
    exact .reported
  · cases h
    exact .escaped
  · cases h

/-! ### What the steps of `handleData` do -/

/-- The steps of `dataStep`, one constructor each. -/
inductive DataMove (cfg : Config) (client : Bytes) (d : DataMessage) (n : Node) :
    DataPc → Act → DataOut → Node → Prop
  | within : DataMove cfg client d n .check .go (.more .lookup) n
  | tooLong {ok} :
      DataMove cfg client d n .check (.sent ok) .returned
        (n.sendToClient .msg client
          (encodeError ⟨d.streamId, ascii "payload exceeds max_payload_bytes"⟩) ok)
  | throws {pc what} : DataMove cfg client d n pc (.throw what) .returned n
  | found {r} (found : n.streams.lookup (keyFor client d.streamId) = some r) :
      DataMove cfg client d n .lookup .go (.more (.test r)) n
  | late (absent : n.streams.lookup (keyFor client d.streamId) = none)
      (grace : inGrace n (keyFor client d.streamId) = true) :
      DataMove cfg client d n .lookup .go .returned n
  | notFound {ok} (absent : n.streams.lookup (keyFor client d.streamId) = none)
      (grace : inGrace n (keyFor client d.streamId) = false) :
      DataMove cfg client d n .lookup (.sent ok) .returned
        (n.sendToClient .msg client (encodeError ⟨d.streamId, ascii "stream not found"⟩) ok)
  | empty {r} : DataMove cfg client d n (.test r) .go .returned n
  | streamOpen {r} (fd : 0 ≤ (n.heap r).fd) (closed : (n.heap r).closed = false) :
      DataMove cfg client d n (.test r) .go (.more (.load r)) n
  | streamClosed {r ok} :
      DataMove cfg client d n (.test r) (.sent ok) .returned
        (n.sendToClient .msg client (encodeError ⟨d.streamId, ascii "stream closed"⟩) ok)
  | load {r} : DataMove cfg client d n (.load r) .go (.more (.send r (n.heap r).fd)) n
  | badFd {r fd sent} (bad : n.fds fd = none) :
      DataMove cfg client d n (.send r fd) (.sendRet sent)
        (.close r ⟨client, d.streamId, .tcpWriteFailed, some r⟩) n
  | sendFails {r fd k sent} (good : n.fds fd = some k) :
      DataMove cfg client d n (.send r fd) (.sendRet sent)
        (.close r ⟨client, d.streamId, .tcpWriteFailed, some r⟩)
        (n.emit (.tcpSend k d.payload sent))
  | sends {r fd k sent} (good : n.fds fd = some k) :
      DataMove cfg client d n (.send r fd) (.sendRet sent) (.more (.touch r))
        (n.emit (.tcpSend k d.payload sent))
  | touch {r} : DataMove cfg client d n (.touch r) .go .returned (n.touch r)

theorem dataStep_move {cfg : Config} {client : Bytes} {d : DataMessage} {pc : DataPc}
    {n n' : Node} {a : Act} {out : DataOut}
    (h : dataStep cfg client d pc n a = some (out, n')) : DataMove cfg client d n pc a out n' := by
  unfold dataStep at h
  simp only at h
  split at h
  -- `check`
  · split at h <;> cases h
    exact .within
  · split at h <;> cases h
    exact .tooLong
  · cases h
    exact .throws
  -- `lookup`
  · split at h
    · cases h
      exact .found ‹_›
    · split at h <;> cases h
      exact .late ‹_› ‹_›
  · split at h <;> cases h
    rename_i hnone
    simp only [Bool.and_eq_true, Option.isNone_iff_eq_none, Bool.not_eq_true'] at hnone
    exact .notFound hnone.1 hnone.2
  · cases h
    exact .throws
  -- `test`
  · split at h
    · cases h
    · rename_i hopen
      simp only [Bool.or_eq_true, decide_eq_true_eq, not_or, not_lt, Bool.not_eq_true] at hopen
      split at h <;> cases h
      · exact .empty
      · exact .streamOpen hopen.1 hopen.2
  · split at h <;> cases h
    exact .streamClosed
  · cases h
    exact .throws
  -- `load` and `send`
  · cases h
    exact .load
  · split at h
    · split at h <;> cases h
      exact .badFd ‹_›
    · split at h
      · cases h
      · split at h <;> cases h
        · exact .sendFails ‹_›
        · exact .sends ‹_›
  · cases h
    exact .touch
  · cases h

/-! ### What the steps of the message thread do -/

/-- The steps of `msgStep`, one constructor each. -/
inductive MsgMove (cfg : Config) (n : Node) : MsgPc → Act → Thread MsgPc → Node → Prop
  | deliver {client payload} (up : n.transportUp = true) :
      MsgMove cfg n .waiting (.deliver client payload) { pc := .parsing ⟨client, payload, 0⟩ } n
  /-- the payload is used up, a frame is malformed, or an exception was caught -/
  | leave {ctx a} : MsgMove cfg n (.parsing ctx) a { pc := .waiting } n
  | dispatchOpen {ctx : MsgCtx} {q len}
      (frame : parseFrame ctx.payload ctx.offset = .ok (.opn q, len)) :
      MsgMove cfg n (.parsing ctx) .go
        { pc := .opening { ctx with offset := ctx.offset + len } q .check }
        (n.emit (.received ctx.clientId (.opn q)))
  | dispatchData {ctx : MsgCtx} {d len}
      (frame : parseFrame ctx.payload ctx.offset = .ok (.data d, len)) :
      MsgMove cfg n (.parsing ctx) .go
        { pc := .dataing { ctx with offset := ctx.offset + len } d .check }
        (n.emit (.received ctx.clientId (.data d)))
  | dispatchClose {ctx : MsgCtx} {c len}
      (frame : parseFrame ctx.payload ctx.offset = .ok (.close c, len)) :
      MsgMove cfg n (.parsing ctx) .go
        { pc := .closing { ctx with offset := ctx.offset + len } c.streamId,
          call := some ⟨⟨ctx.clientId, c.streamId, .clientClose, none⟩, .enter⟩ }
        (n.emit (.received ctx.clientId (.close c)))
  | dispatchError {ctx : MsgCtx} {e len}
      (frame : parseFrame ctx.payload ctx.offset = .ok (.error e, len)) :
      MsgMove cfg n (.parsing ctx) .go
        { pc := .parsing { ctx with offset := ctx.offset + len } }
        (n.emit (.received ctx.clientId (.error e)))
  | opening {ctx q pc a pc' n'} (move : OpenMove cfg ctx.clientId q n pc a (.more pc') n') :
      MsgMove cfg n (.opening ctx q pc) a { pc := .opening ctx q pc' } n'
  | opened {ctx q pc a n'} (move : OpenMove cfg ctx.clientId q n pc a .returned n') :
      MsgMove cfg n (.opening ctx q pc) a { pc := .parsing ctx } n'
  | openEscaped {ctx q pc a n'} (move : OpenMove cfg ctx.clientId q n pc a .escaped n') :
      MsgMove cfg n (.opening ctx q pc) a { pc := .waiting } n'
  | dataing {ctx d pc a pc' n'} (move : DataMove cfg ctx.clientId d n pc a (.more pc') n') :
      MsgMove cfg n (.dataing ctx d pc) a { pc := .dataing ctx d pc' } n'
  | dataCloses {ctx d pc a r call n'}
      (move : DataMove cfg ctx.clientId d n pc a (.close r call) n') :
      MsgMove cfg n (.dataing ctx d pc) a
        { pc := .dataing ctx d (.closing r), call := some ⟨call, .enter⟩ } n'
  | dataDone {ctx d pc a n'} (move : DataMove cfg ctx.clientId d n pc a .returned n') :
      MsgMove cfg n (.dataing ctx d pc) a { pc := .parsing ctx } n'
  | closeReply {ctx streamId ok} :
      MsgMove cfg n (.closeReply ctx streamId) (.sent ok) { pc := .parsing ctx }
        (n.sendToClient .msg ctx.clientId (encodeClose { streamId := streamId }) ok)
  | closeReplyThrows {ctx streamId what} :
      MsgMove cfg n (.closeReply ctx streamId) (.throw what) { pc := .parsing ctx } n

theorem msgStep_move {cfg : Config} {pc : MsgPc} {n n' : Node} {a : Act} {l : Thread MsgPc}
    (h : msgStep cfg pc n a = some (l, n')) : MsgMove cfg n pc a l n' := by
  unfold msgStep at h
  split at h
  -- `waiting`
  · split at h
    · split at h <;> cases h
      exact .deliver ‹_›
    · cases h
  -- `parsing`
  · split at h
    · split at h
      · split at h
        · cases h
          exact .leave
        · split at h <;> cases h
          · exact .dispatchOpen ‹_›
          · exact .dispatchData ‹_›
          · exact .dispatchClose ‹_›
          · exact .dispatchError ‹_›
      · cases h
        exact .leave
    · cases h
      exact .leave
    · cases h
  -- `opening`
  · rw [Option.map_eq_some_iff] at h
    obtain ⟨⟨out, m⟩, hopen, h⟩ := h
    cases out <;> cases h
    · exact .opening (openStep_move hopen)
    · exact .opened (openStep_move hopen)
    · exact .openEscaped (openStep_move hopen)
  -- `dataing`
  · rw [Option.map_eq_some_iff] at h
    obtain ⟨⟨out, m⟩, hdata, h⟩ := h
    cases out <;> cases h
    · exact .dataing (dataStep_move hdata)
    · exact .dataCloses (dataStep_move hdata)
    · exact .dataDone (dataStep_move hdata)
  · cases h
  -- `closeReply`
  · split at h
    · cases h
      exact .closeReply
    · cases h
      exact .closeReplyThrows
    · cases h

/-! ### What the steps of the other threads do -/

/-- The steps of `rxStep`, one constructor each. -/
inductive RxMove (r : Ref) (n : Node) : RxPc → Act → Thread RxPc → Node → Prop
  | closed (running : n.rxLife r = .running) :
      RxMove r n .loop .go { pc := .leaving } n
  | enter (running : n.rxLife r = .running) (open_ : (n.heap r).closed = false) :
      RxMove r n .loop .go { pc := .loadFd } n
  | load : RxMove r n .loadFd .go { pc := .recv (n.heap r).fd } n
  | ended {fd a} :
      RxMove r n (.recv fd) a { pc := .recv fd, call := rxClose n r .remoteClosed } n
  | received {fd k data} (good : n.fds fd = some k) (some_ : data ≠ []) :
      RxMove r n (.recv fd) (.recvRet (some data)) { pc := .touch data } (n.emit (.tcpRecv r k data))
  | touch {data} : RxMove r n (.touch data) .go { pc := .push data } (n.touch r)
  | pushed : RxMove r n (.push []) .go { pc := .loop } n
  | push {rest} :
      RxMove r n (.push rest) (.sent true) { pc := .push (rest.drop kMaxDataChunkBytes) }
        (n.sendToClient (.rx r) (n.heap r).clientId
          (encodeData { streamId := (n.heap r).streamId,
                        payload := rest.take kMaxDataChunkBytes }) true)
  | pushFails {rest} :
      RxMove r n (.push rest) (.sent false) { pc := .push rest, call := rxClose n r .pushFailed }
        (n.sendToClient (.rx r) (n.heap r).clientId
          (encodeData { streamId := (n.heap r).streamId,
                        payload := rest.take kMaxDataChunkBytes }) false)
  | pushThrows {rest what reason} :
      RxMove r n (.push rest) (.throw what) { pc := .push rest, call := rxClose n r reason } n
  | leave :
      RxMove r n .leaving .go { pc := .exited }
        { n with rxLife := Function.update n.rxLife r .exited }

theorem rxStep_move {r : Ref} {pc : RxPc} {n n' : Node} {a : Act} {l : Thread RxPc}
    (h : rxStep r pc n a = some (l, n')) : RxMove r n pc a l n' := by
  unfold rxStep at h
  split at h
  · split at h
    · cases h
    · rename_i hrun
      split at h <;> cases h
      · exact .closed (not_not.mp hrun)
      · rename_i hopen
        exact .enter (not_not.mp hrun) (by simpa using hopen)
  · cases h
    exact .load
  · split at h
    · cases h
      exact .ended
    · cases h
    · split at h <;> cases h
      rename_i hdata
      exact .received ‹_› fun hnil => hdata (.inl (by simp [hnil]))
  · cases h
    exact .touch
  · cases h
    exact .pushed
  · simp only at h
    split at h <;> cases h
    · rename_i hok
      subst hok
      exact .push
    · rename_i hok
      rw [Bool.not_eq_true] at hok
      subst hok
      exact .pushFails
  · cases h
    exact .pushThrows
  · cases h
    exact .leave
  · cases h

/-- The streams a scan at time `now` finds stale, met in the order `refs`. -/
def staleOf (cfg : Config) (n : Node) (now : Int) (refs : List Ref) : List Stale :=
  (refs.filter (isStale cfg n now)).map fun r => ⟨(n.heap r).clientId, (n.heap r).streamId, r⟩

/-- The steps of `idleStep`, one constructor each. -/
inductive IdleMove (cfg : Config) (n : Node) : IdlePc → Act → Thread IdlePc → Node → Prop
  | sleep : IdleMove cfg n .loop .go { pc := .sleeping } n
  | exit : IdleMove cfg n .loop .go { pc := .exited } { n with idleExited := true }
  | wake : IdleMove cfg n .sleeping .go { pc := .scan n.nowMs } n
  | scan {now refs} (all : refs.Perm n.refs) :
      IdleMove cfg n (.scan now) (.order refs) { pc := .closing (staleOf cfg n now refs) }
        (n.pruneClosed now kRecentlyClosedGraceMs)
  | done : IdleMove cfg n (.closing []) .go { pc := .loop } n
  | next {e rest} :
      IdleMove cfg n (.closing (e :: rest)) .go
        { pc := .closing rest,
          call := some ⟨⟨e.clientId, e.streamId, .idleTimeout, some e.found⟩, .enter⟩ } n

theorem idleStep_move {cfg : Config} {pc : IdlePc} {n n' : Node} {a : Act} {l : Thread IdlePc}
    (h : idleStep cfg pc n a = some (l, n')) : IdleMove cfg n pc a l n' := by
  unfold idleStep at h
  split at h
  · split at h <;> cases h
    · exact .sleep
    · exact .exit
  · cases h
    exact .wake
  · split at h <;> cases h
    exact .scan (List.isPerm_iff.mp ‹_›)
  · cases h
    exact .done
  · cases h
    exact .next
  · cases h

/-- The steps of `mainStep`, one constructor each. -/
inductive MainMove (n : Node) : MainPc → Act → MainPc → Node → Prop
  | stop : MainMove n .running .go .transportStop { n with running := false }
  | transportStop : MainMove n .transportStop .go .joinIdle { n with transportUp := false }
  | joinIdle : MainMove n .joinIdle .go .snapshot n
  | snapshot {refs} (all : refs.Perm n.refs) :
      MainMove n .snapshot (.order refs) (.tearing refs refs .flag) (n.takeAll .main refs)
  | tear {held r rest p a p' n'} (move : TearMove .main none r n p a (.more p') n') :
      MainMove n (.tearing held (r :: rest) p) a (.tearing held (r :: rest) p') n'
  | finish {held r rest p a had n'} (move : TearMove .main none r n p a (.finished had) n') :
      MainMove n (.tearing held (r :: rest) p) a (.tearing held rest .flag) n'
  | leave {held p} : MainMove n (.tearing held [] p) .go .stopped n

theorem mainStep_move {pc pc' : MainPc} {n n' : Node} {a : Act}
    (h : mainStep pc n a = some (pc', n')) : MainMove n pc a pc' n' := by
  unfold mainStep at h
  split at h
  · split at h <;> cases h
    exact .stop
  · split at h <;> cases h
    exact .transportStop
  · split at h
    · split at h <;> cases h
      exact .joinIdle
    · cases h
  · split at h
    · split at h <;> cases h
      exact .snapshot (List.isPerm_iff.mp ‹_›)
    · cases h
  · split at h <;> cases h
    exact .leave
  · rw [Option.map_eq_some_iff] at h
    obtain ⟨⟨out, m⟩, htear, h⟩ := h
    cases out <;> cases h
    · exact .tear (tearStep_move htear)
    · exact .finish (tearStep_move htear)
  · cases h

/-- The steps of a thread that may call `closeStream`. -/
inductive ThreadMove {Pc : Type} (t : ThreadId) (resume : Bool → Pc → Pc)
    (Base : Node → Pc → Act → Thread Pc → Node → Prop) (n : Node) :
    Thread Pc → Act → Thread Pc → Node → Prop
  | base {pc a l' n'} (move : Base n pc a l' n') : ThreadMove t resume Base n { pc } a l' n'
  | call {pc c cpc a cpc' n'} (move : CloseMove t c n cpc a (.more cpc') n') :
      ThreadMove t resume Base n { pc, call := some ⟨c, cpc⟩ } a
        { pc, call := some ⟨c, cpc'⟩ } n'
  | ret {pc c cpc a had n'} (move : CloseMove t c n cpc a (.returned had) n') :
      ThreadMove t resume Base n { pc, call := some ⟨c, cpc⟩ } a { pc := resume had pc } n'

theorem Thread.step_move {Pc : Type} {t : ThreadId} {resume : Bool → Pc → Pc}
    {base : Pc → Node → Act → Option (Thread Pc × Node)}
    {Base : Node → Pc → Act → Thread Pc → Node → Prop}
    (hbase : ∀ {pc n a l' n'}, base pc n a = some (l', n') → Base n pc a l' n')
    {l l' : Thread Pc} {n n' : Node} {a : Act}
    (h : Thread.step t resume base l n a = some (l', n')) :
    ThreadMove t resume Base n l a l' n' := by
  obtain ⟨pc, call⟩ := l
  unfold Thread.step at h
  split at h
  · rename_i hcall
    cases hcall
    exact .base (hbase h)
  · rename_i hcall
    cases hcall
    rw [Option.map_eq_some_iff] at h
    obtain ⟨⟨out, m⟩, hclose, h⟩ := h
    cases out <;> cases h
    · exact .call (closeStep_move hclose)
    · exact .ret (closeStep_move hclose)

/-- The steps of `step`, for each thread. -/
def Move (cfg : Config) : (t : ThreadId) → Node → Loc t → Act → Loc t → Node → Prop
  | .msg, n, l, a, l', n' => ThreadMove .msg MsgPc.resume (MsgMove cfg) n l a l' n'
  | .idle, n, l, a, l', n' => ThreadMove .idle IdlePc.resume (IdleMove cfg) n l a l' n'
  | .main, n, l, a, l', n' => MainMove n l a l' n'
  | .rx r, n, l, a, l', n' => ThreadMove (.rx r) RxPc.resume (RxMove r) n l a l' n'
  | .clock, n, _, _, _, n' => ∃ ms : Nat, n' = { n with nowMs := n.nowMs + ms }

/-- **Every step is one of the listed moves.** -/
theorem step_move {cfg : Config} {t : ThreadId} {l l' : Loc t} {n n' : Node} {a : Act}
    (h : step cfg t l n a = some (l', n')) : Move cfg t n l a l' n' := by
  cases t with
  | msg => exact Thread.step_move msgStep_move h
  | idle => exact Thread.step_move idleStep_move h
  | main => exact mainStep_move h
  | rx r => exact Thread.step_move rxStep_move h
  | clock =>
      change clockStep n a = some (l', n') at h
      unfold clockStep at h
      split at h <;> cases h
      exact ⟨_, rfl⟩

/-- A step of the process is a move of one thread. -/
theorem next_move {cfg : Config} {s s' : System} {t : ThreadId} {a : Act}
    (h : (machine cfg).next s t a = some s') :
    ∃ l n, Move cfg t s.shared (s.loc t) a l n ∧ s' = ⟨Function.update s.loc t l, n⟩ := by
  obtain ⟨l, n, hstep, rfl⟩ := Interleaving.Machine.next_eq_some h
  exact ⟨l, n, step_move hstep, rfl⟩

end TonTunnel.Egress
