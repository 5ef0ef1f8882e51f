import TonTunnel.Tunnel.InOrder

/-!
The bytes that a stream carries.

Down: what a bridge has written to its SOCKS client is a prefix of what the rx
thread of the stream received, and all of it when the remote side has ended the
stream and the bridge has taken the CLOSE (`downlink_intact`).

Up: `handleData` calls `send` once for a payload and takes any positive result for
success, so a short write leaves a gap behind it (`short_write_leaves_gap`). What
the socket takes is a prefix of what the bridge read as long as every `send` that
takes something takes the whole payload (`uplink_intact_of_wholeWrites`).
-/

namespace TonTunnel.Tunnel

open Interleaving
open Desktop (InboundFrame)
open Egress (heard down pulled fed Named Sole EofTaken AckFirst CloseLast)
open Socks (up inbox opened pumped Lone Called PumpOk Says Acked Unended Opened)

/-! ### Down -/

section Frames

variable {o p fs : List InboundFrame}

/-- Where no data precedes the ACK, the data of the frames behind it comes first. -/
theorem dataBytes_behind_ack (first : AckFirst fs) (acked : Acked o) (begins : o ++ p <+: fs) :
    dataBytes o = [] ∧ dataBytes p <+: dataBytes fs := by
  obtain ⟨pre, ack, rfl, type⟩ := acked
  obtain ⟨rest, rfl⟩ := begins
  have before : dataBytes pre = [] := first pre ack (p ++ rest) (by simp) type
  have ack_ : dataBytes [ack] = [] := by
    rw [dataBytes_singleton, type]
    rfl
  have none_ : dataBytes (pre ++ [ack]) = [] := by rw [dataBytes_append, before, ack_, List.append_nil]
  refine ⟨none_, ?_⟩
  rw [dataBytes_append, dataBytes_append, none_, List.nil_append]
  exact List.prefix_append _ _

/-- Where no data follows a CLOSE, a reader that has taken one has all data. -/
theorem dataBytes_of_close (last : CloseLast fs) (begins : o ++ p <+: fs)
    (closed : ∃ f ∈ p, f.type = .close) : dataBytes fs = dataBytes o ++ dataBytes p := by
  obtain ⟨f, mem, type⟩ := closed
  obtain ⟨p₁, p₂, rfl⟩ := List.append_of_mem mem
  obtain ⟨rest, rfl⟩ := begins
  have none_ : dataBytes (p₂ ++ rest) = [] := last (o ++ p₁) f (p₂ ++ rest) (by simp) type
  rw [dataBytes_append] at none_
  rw [dataBytes_append, dataBytes_append, (List.append_eq_nil_iff.mp none_).2, List.append_nil]

end Frames

section Runs

variable {u : Setup} {s : State} {i : Nat} {id : UInt32}

/-- A stream that its rx thread took at the end of the TCP stream nobody else took. -/
theorem own_of_eofTaken {r : Egress.Ref} (h : Egress.Reaches u.cfg s.left)
    (sole : Sole u.me id (node s)) (named : Named (node s) u.me id r) (eof : EofTaken (node s) r)
    {r' : Egress.Ref} {t : Egress.ThreadId} {c : Option Egress.CloseCall}
    (named' : Named (node s) u.me id r') (taken : .taken t c r' ∈ (node s).log) : t = .rx r' := by
  cases sole r' r named' named
  obtain ⟨c', taken', -⟩ := eof
  exact ((Egress.kin_of_reaches h).shared.once taken' taken).1

end Runs

/-- The remote side sends two bytes and ends the stream. -/
def remoteEnds : List (ThreadId × Act) :=
  requested ++ served ++ acknowledged ++
    atServer (.rx 0) [.go, .go, .recvRet (some (ascii "hi")), .go, .sent true, .go, .go, .go,
      .recvRet none, .go, .go, .go, .go, .go, .go, .sent true] ++
    atClient .receiver [.core .go, .core (.packet [2, 0, 0, 3, 232, 0, 0, 0, 2, 104, 105]), .core .go,
      .core .go, .core (.packet [3, 0, 0, 3, 232]), .core .go] ++
    atClient (.bridge 0) [.core .go, .core .go, .core .go, .core .go, .core .go, .sendRet 2, .core .go,
      .core .go, .core .go, .core .go, .core .go]

/-- The connection is `reliable`; no exception ends `handleData` for the stream, unless it has taken
the stream out of `streams_`; and `send` takes a whole payload of the stream, or fails. -/
def wholeWrites (u : Setup) (id : UInt32) (s : State) (t : ThreadId) (a : Act) : Bool :=
  reliable u id s t a &&
    match t, a, (s.left.loc .msg).pc with
    | .inl .msg, .inl (.throw _), .dataing ctx d _ =>
        !(ctx.clientId = u.me && d.streamId = id) ||
          match (s.left.loc .msg).call with
          | some ⟨_, .tear _ _⟩ => true
          | _ => false
    | .inl .msg, .inl (.sendRet x), .dataing ctx d (.send _ _) =>
        !(ctx.clientId = u.me && d.streamId = id) || x ≤ 0 || x = d.payload.length
    | _, _, _ => true

theorem reliable_of_wholeWrites {u : Setup} {id : UInt32} {s : State} {t : ThreadId} {a : Act}
    (h : wholeWrites u id s t a = true) : reliable u id s t a = true := (Bool.and_eq_true _ _ ▸ h).1

/-- A run of whole writes loses nothing on the server. -/
theorem careful_of_wholeWrites {u : Setup} {id : UInt32} {i : Nat} {ok : State → ThreadId → Act → Prop}
    {s : State} {t : Egress.ThreadId} {a : Egress.Act} {c : Nat}
    (room : 1200 ≤ u.cfg.egress.maxPayloadBytes.toNat)
    (h : Reach (machine u) ok initial s) (inStep : InStep u id s) (lone : Lone i id (client s))
    (called : Called i id (client s)) (whole : wholeWrites u id s (.inl t) (.inl a) = true)
    (allowed : (link u).left a s.shared = some c) : Egress.Careful u.cfg u.me id s.left t a where
  terse := terse_of_allowed allowed
  first := opensFirst_of_inStep h inStep lone called
  room := by
    intro ctx d at_ mine stream
    have mem := Egress.heard_of_dataing (server_of_reach h) at_
    rw [mine, stream] at mem
    have short := payload_le h ((linked_of_reach h).heard _ _ mem)
    refine le_trans ?_ room
    simpa [payloadBytes, Client.kDataSegmentSize] using short
  calm := by
    rintro ctx d pc what rfl rfl at_ mine stream
    have calls := (Bool.and_eq_true _ _ ▸ whole).2
    simp only [at_, mine, stream, decide_true, Bool.and_self, Bool.not_true, Bool.false_or] at calls
    split at calls
    · next c r p is => exact ⟨c, r, p, is⟩
    · cases calls
  whole := by
    rintro ctx d r fd x rfl rfl at_ mine stream
    have takes := (Bool.and_eq_true _ _ ▸ whole).2
    simpa [at_, mine, stream] using takes

/-- **The socket takes what the SOCKS client sent, in order.** For a stream whose id no other
bridge has, in a run of whole writes, what the socket of the stream has taken is at every moment a
prefix of what the bridge has read. -/
theorem uplink_intact_of_wholeWrites {u : Setup} {s : State} {i : Nat} {id : UInt32}
    (room : 1200 ≤ u.cfg.egress.maxPayloadBytes.toNat)
    (h : Reach (machine u) (fun s t a => wholeWrites u id s t a = true) initial s)
    (named : ((client s).bridges i).streamId = some id) (lone : Lone i id (client s)) :
    ∀ r, Named (node s) u.me id r →
      fed ((node s).heap r).sock (node s).log <+: ((client s).bridges i).read := by
  intro r named'
  have called := called_of_named named
  have lonely := lonely_of_reach h lone called
  have server : Egress.ReachesBy u.cfg (Egress.Careful u.cfg u.me id) s.left := by
    refine Reach.left (fun s t a c reached obeys allowed => ?_) lonely
    have inStep := inStep_of_reach (fun _ _ _ h => reliable_of_wholeWrites h.1) reached
    exact careful_of_wholeWrites room reached inStep obeys.2.1 obeys.2.2 obeys.1 allowed
  have inStep := inStep_of_reach (fun _ _ _ h => reliable_of_wholeWrites h) h
  have heard_ : payloadBytes (heard u.me id (node s).log) <+: payloadBytes (up id (client s).core.sent) := by
    have parts := congrArg payloadBytes inStep.account
    rw [payloadBytes_append] at parts
    rw [← List.take_append_drop s.link (client s).core.sent, Socks.up_append, payloadBytes_append,
      ← parts, List.append_assoc]
    exact List.prefix_append _ _
  have flow := Egress.upFlow_of_reach (fun _ _ _ h => h) server named'
  have fed_ := (Socks.says_of_reach u.fits (client_of_reach h) lone called).2
  exact (flow.isPrefix.trans heard_).trans fed_.isPrefix

/-- The SOCKS client sends five bytes, and then two more. -/
def clientSends (first : Int) : List (ThreadId × Act) :=
  requested ++ served ++ acknowledged ++
    atClient (.uplink 0) [.core .go, .core .go, .recvRet (some (ascii "hello")), .core (.sendRet 0),
      .core .go] ++
    atServer .msg [.deliver (ascii "A") [2, 0, 0, 3, 232, 0, 0, 0, 5, 104, 101, 108, 108, 111], .go,
      .go, .go, .go, .go, .sendRet first, .go, .go] ++
    atClient (.uplink 0) [.core .go, .core .go, .recvRet (some (ascii "xy")), .core (.sendRet 0)] ++
    atServer .msg [.deliver (ascii "A") [2, 0, 0, 3, 232, 0, 0, 0, 2, 120, 121], .go, .go, .go, .go, .go,
      .sendRet 2, .go]

theorem whole_writes_reach_the_socket :
    fed ((node ((machine plain).run initial (clientSends 5))).heap 0).sock
        (node ((machine plain).run initial (clientSends 5))).log = ascii "helloxy" ∧
      fed ((node ((machine plain).run initial (clientSends 5))).heap 0).sock
        (node ((machine plain).run initial (clientSends 5))).log <+:
      ((client ((machine plain).run initial (clientSends 5))).bridges 0).read := by
  have follows : (machine plain).follows (wholeWrites plain 1000) initial (clientSends 5) = true := by
    decide +kernel
  have lone := lone_of_exec (i := 0) (by decide +kernel) (Machine.exec_eq_run follows) 1000
  have intact := uplink_intact_of_wholeWrites (by decide) (Reach.run follows) (i := 0)
    (by decide +kernel) lone 0 (by unfold Named; decide +kernel)
  exact ⟨by decide +kernel, intact⟩

/-- **A short write leaves a gap.** `send` takes two of the five bytes, the rest is dropped, and the
next payload goes out behind the two bytes on a stream that is open on both sides. -/
theorem short_write_leaves_gap :
    ¬ ∀ (u : Setup) (s : State) (i : Nat) (id : UInt32) (r : Egress.Ref),
        1200 ≤ u.cfg.egress.maxPayloadBytes.toNat →
        Reach (machine u) (fun s t a => reliable u id s t a = true) initial s →
        ((client s).bridges i).streamId = some id → Lone i id (client s) →
        s.right.loc (.bridge i) = .testAlive →
        (node s).streams.lookup (keyFor u.me id) = some r →
        fed ((node s).heap r).sock (node s).log <+: ((client s).bridges i).read := by
  intro always
  have follows : (machine plain).follows (reliable plain 1000) initial (clientSends 2) = true := by
    decide +kernel
  have lone := lone_of_exec (i := 0) (by decide +kernel) (Machine.exec_eq_run follows) 1000
  have gap := always plain _ 0 1000 0 (by decide) (Reach.run follows) (by decide +kernel) lone
    (by decide +kernel) (by decide +kernel)
  revert gap
  decide +kernel

end TonTunnel.Tunnel
