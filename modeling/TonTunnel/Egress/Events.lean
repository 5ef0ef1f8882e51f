import TonTunnel.Egress.Moves

/-!
Which events a thread can add to the history, from which position. The history
only grows (`Move.log`); a claim about all events of a run is then a claim about
the constructors of `Emits`.
-/

namespace TonTunnel.Egress

/-- The call of `closeStream` that a thread has active. -/
def activeCall : (t : ThreadId) → Loc t → Option Closing
  | .msg, l => l.call
  | .idle, l => l.call
  | .main, _ => none
  | .rx _, l => l.call
  | .clock, _ => none

/-- The events of one step of thread `t` from local state `l`. -/
inductive Emits (cfg : Config) (n : Node) : (t : ThreadId) → Loc t → Event → Prop
  | received {ctx : MsgCtx} {msg len}
      (frame : parseFrame ctx.payload ctx.offset = .ok (msg, len)) :
      Emits cfg n .msg { pc := .parsing ctx } (.received ctx.clientId msg)
  | openSends {ctx q pc frame ok} :
      Emits cfg n .msg { pc := .opening ctx q pc } (.sentToClient .msg ctx.clientId frame ok)
  | quotaSends {ctx q frame ok} (full : cfg.maxStreams ≤ n.count ctx.clientId) :
      Emits cfg n .msg { pc := .opening ctx q .quota } (.sentToClient .msg ctx.clientId frame ok)
  | resolves {ctx q count} :
      Emits cfg n .msg { pc := .opening ctx q (.resolve count) } (.getaddrinfo (cString q.host))
  | connects {ctx q count addr rest blockedOnly ip} (text : inetNtop addr = some ip)
      (free : cfg.egress.blockPrivateIps = true → isAddressBlocked ip = false) :
      Emits cfg n .msg { pc := .opening ctx q (.connect count (addr :: rest) blockedOnly) }
        (.connect ctx.clientId q count ip)
  | socket {ctx q count ip rest fd} (free : n.fds fd = none) :
      Emits cfg n .msg { pc := .opening ctx q (.socket count ip rest) }
        (.socket ctx.clientId q fd n.nextSock)
  | fdSet {ctx q count ip rest fd k} :
      Emits cfg n .msg { pc := .opening ctx q (.connecting count ip rest fd k) } (.fdSet fd)
  | registered {ctx q r} :
      Emits cfg n .msg { pc := .opening ctx q (.register r) } (.registered r)
  | dataSends {ctx d pc frame ok} :
      Emits cfg n .msg { pc := .dataing ctx d pc } (.sentToClient .msg ctx.clientId frame ok)
  | tcpSend {ctx d r fd k sent} (good : n.fds fd = some k) :
      Emits cfg n .msg { pc := .dataing ctx d (.send r fd) } (.tcpSend k d.payload sent)
  | replies {ctx streamId frame ok} :
      Emits cfg n .msg { pc := .closeReply ctx streamId } (.sentToClient .msg ctx.clientId frame ok)
  | pushes {r rest frame ok} :
      Emits cfg n (.rx r) { pc := .push rest } (.sentToClient (.rx r) (n.heap r).clientId frame ok)
  | tcpRecv {r fd k data} (good : n.fds fd = some k) :
      Emits cfg n (.rx r) { pc := .recv fd } (.tcpRecv r k data)
  | notifies {t : ThreadId} {l : Loc t} {c r ok}
      (calls : activeCall t l = some ⟨c, .tear r .notify⟩) :
      Emits cfg n t l (.sentToClient t c.clientId (encodeClose { streamId := c.streamId }) ok)
  | takes {t : ThreadId} {l : Loc t} {c r} (calls : activeCall t l = some ⟨c, .enter⟩)
      (found : n.streams.lookup (keyFor c.clientId c.streamId) = some r) :
      Emits cfg n t l (.taken t (some c) r)
  | stopTakes {r} : Emits cfg n .main .snapshot (.taken .main none r)
  | shutdown {t : ThreadId} {l : Loc t} {k} : Emits cfg n t l (.shutdown k)

/-- The history grew by events that thread `t` can emit from `l`. -/
def Grows (cfg : Config) (t : ThreadId) (l : Loc t) (n n' : Node) : Prop :=
  ∃ es, n'.log = n.log ++ es ∧ ∀ e ∈ es, Emits cfg n t l e

section Growth

variable {cfg : Config} {t : ThreadId} {l : Loc t} {n n' : Node} {a : Act}

theorem Grows.same (h : n'.log = n.log) : Grows cfg t l n n' :=
  ⟨[], by simp [h], by simp⟩

theorem Grows.one {e : Event} (h : n'.log = n.log ++ [e]) (he : Emits cfg n t l e) :
    Grows cfg t l n n' :=
  ⟨[e], h, by simpa using he⟩

/-- An event of the longer history is old or was just emitted. -/
theorem Grows.mem {e : Event} (h : Grows cfg t l n n') (he : e ∈ n'.log) :
    e ∈ n.log ∨ Emits cfg n t l e := by
  obtain ⟨es, hes, hemits⟩ := h
  rw [hes] at he
  rcases List.mem_append.mp he with h | h
  · exact .inl h
  · exact .inr (hemits e h)

theorem log_noteSelect (n : Node) (ip : Bytes) (fd : Int) (ret : ConnectRet) :
    (noteSelect n ip fd ret).log = n.log ∨ (noteSelect n ip fd ret).log = n.log ++ [Event.fdSet fd] := by
  rcases noteSelect_eq n ip fd ret with same | waits
  · rw [same]
    exact .inl rfl
  · rw [waits]
    exact .inr rfl

theorem log_closeFd (n : Node) (fd : Int) : (n.closeFd fd).log = n.log := by
  obtain ⟨fds, closes, h⟩ := n.closeFd_eq fd
  rw [h]

theorem log_take (n : Node) (t : ThreadId) (c : CloseCall) (r : Ref) :
    (n.take t c r).log = n.log ++ [Event.taken t (some c) r] := by
  unfold Node.take Node.dropCount
  dsimp only
  split
  · rfl
  · split <;> rfl

/-- A teardown emits its shutdown and, within `closeStream`, its notification. -/
theorem TearMove.log {call : Option CloseCall} {r : Ref} {p : TearPc} {out : TearOut}
    (m : TearMove t call r n p a out n')
    (calls : ∀ c, call = some c → activeCall t l = some ⟨c, .tear r p⟩) :
    Grows cfg t l n n' := by
  cases m with
  | shutdown =>
      rcases n.shutdownFd_eq (n.heap r).fd with same | ⟨k, shut⟩
      · rw [same]
        exact .same rfl
      · rw [shut]
        exact .one rfl .shutdown
  | close => exact .same (log_closeFd n _)
  | notify is => exact .one rfl (.notifies (calls _ is))
  | _ => exact .same rfl

theorem CloseMove.log {c : CloseCall} {pc : ClosePc} {out : CloseOut}
    (m : CloseMove t c n pc a out n') (calls : activeCall t l = some ⟨c, pc⟩) :
    Grows cfg t l n n' := by
  cases m with
  | absent | throws | lose => exact .same rfl
  | take found => exact .one (log_take n t c _) (.takes calls found)
  | tear move | finish move =>
      refine move.log fun c' hc => ?_
      cases hc
      exact calls

theorem OpenMove.log {ctx : MsgCtx} {q : OpenMessage} {pc : OpenPc} {out : OpenOut}
    (m : OpenMove cfg ctx.clientId q n pc a out n') :
    Grows cfg .msg { pc := .opening ctx q pc } n n' := by
  cases m with
  | failed | reported | ack => exact .one rfl .openSends
  | quotaFull full => exact .one rfl (.quotaSends full)
  | unresolved | resolved => exact .one rfl .resolves
  | attempt text free => exact .one rfl (.connects text free)
  | socket _ free => exact .one rfl (.socket free)
  | connected =>
      rcases log_noteSelect n _ _ _ with h | h
      · exact .same h
      · exact .one h .fdSet
  | disconnected =>
      rcases log_noteSelect n _ _ _ with h | h
      · exact .same ((log_closeFd _ _).trans h)
      · exact .one ((log_closeFd _ _).trans h) .fdSet
  | register | registerThrows => exact .one rfl .registered
  | _ => exact .same rfl

theorem DataMove.log {ctx : MsgCtx} {d : DataMessage} {pc : DataPc} {out : DataOut}
    (m : DataMove cfg ctx.clientId d n pc a out n') :
    Grows cfg .msg { pc := .dataing ctx d pc } n n' := by
  cases m with
  | tooLong | notFound | streamClosed => exact .one rfl .dataSends
  | sendFails good | sends good => exact .one rfl (.tcpSend good)
  | _ => exact .same rfl

theorem MsgMove.log {pc : MsgPc} {l' : Thread MsgPc} (m : MsgMove cfg n pc a l' n') :
    Grows cfg .msg { pc } n n' := by
  cases m with
  | dispatchOpen frame | dispatchData frame | dispatchClose frame | dispatchError frame =>
      exact .one rfl (.received frame)
  | opening move | opened move | openEscaped move => exact move.log
  | dataing move | dataCloses move | dataDone move => exact move.log
  | closeReply => exact .one rfl .replies
  | deliver | leave | closeReplyThrows => exact .same rfl

theorem RxMove.log {r : Ref} {pc : RxPc} {l' : Thread RxPc} (m : RxMove r n pc a l' n') :
    Grows cfg (.rx r) { pc } n n' := by
  cases m with
  | received good => exact .one rfl (.tcpRecv good)
  | push | pushFails => exact .one rfl .pushes
  | _ => exact .same rfl

theorem IdleMove.log {pc : IdlePc} {l' : Thread IdlePc} (m : IdleMove cfg n pc a l' n') :
    Grows cfg .idle { pc } n n' := by
  cases m with
  | _ => exact .same rfl

theorem MainMove.log {l l' : MainPc} (m : MainMove n l a l' n') : Grows cfg .main l n n' := by
  cases m with
  | @snapshot refs =>
      refine ⟨refs.map (.taken .main none), rfl, fun e he => ?_⟩
      obtain ⟨r, _, rfl⟩ := List.mem_map.mp he
      exact .stopTakes
  | tear move | finish move => exact move.log nofun
  | _ => exact .same rfl

/-- **The history only grows**, by events the moving thread can emit. -/
theorem Move.log {l' : Loc t} (m : Move cfg t n l a l' n') : Grows cfg t l n n' := by
  cases t with
  | msg =>
      cases m with
      | base move => exact move.log
      | call move | ret move => exact move.log rfl
  | idle =>
      cases m with
      | base move => exact move.log
      | call move | ret move => exact move.log rfl
  | main => exact MainMove.log m
  | rx r =>
      cases m with
      | base move => exact move.log
      | call move | ret move => exact move.log rfl
  | clock =>
      obtain ⟨ms, rfl⟩ := m
      exact .same rfl

end Growth

end TonTunnel.Egress
