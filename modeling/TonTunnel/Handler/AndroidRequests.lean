import TonTunnel.Dns.Doh
import TonTunnel.Egress.Policy
import TonTunnel.Lib.Outcome

/-!
What the Android client's `LocalSocks5Server` makes of a client's bytes: `handleClient` up to
the start of the pipe threads.

The stream of the client is the bytes that arrive before it is closed (`closes`, where `read`
returns -1) or before `read` throws. A `read` into an array takes what is there (`chunks`), at
least one byte, so that the number of bytes still to come tells the reads of a run apart; and
the number of bytes written tells its writes apart (`accepts`). The texts of IPv6 addresses,
`InetSocketAddress.hostString` and `openStream` are parameters. Logging, and the registration
of the stream that is opened, are not modelled here.

`openStream` is called with the host and the port of a CONNECT request that the stream begins
with and that does not lead back into the tunnel, and with nothing else (`opens_exact`); the
client is told about success when `openStream` has returned 0 and not otherwise
(`success_iff_opened`).
-/

namespace TonTunnel.AndroidRequests

open BigEndian Utf16 Outcome
open Doh (asciiText)

/-- `IOException`. -/
inductive Thrown where
  | io
  deriving DecidableEq, Repr

/-- What the client, the platform and the tunnel answer. -/
structure World where
  closes : Bool
  /-- how many bytes are there, by the number of bytes still to come -/
  chunks : Nat → Nat
  /-- whether a write succeeds, by the number of bytes written before -/
  accepts : Nat → Bool
  /-- `InetAddress.getByAddress(ipv6).hostAddress` -/
  hostAddress6 : Bytes → Text
  /-- `InetSocketAddress(host, port).hostString`, which is another text for some addresses -/
  hostString : Text → Text
  openStream : Text → UInt16 → Int

/-- A connection, with the calls of `openStream` it has led to. -/
structure Conn where
  unread : Bytes
  written : Bytes := []
  opens : List (Text × UInt16) := []
  deriving DecidableEq, Repr

abbrev Handler := EStateM Thrown Conn

/-- `LOCALHOST` -/
def localhost : Text := units "127.0.0.1"

/-- `TonShieldVpnService.isLoopTarget`, `shouldBlockTarget` of the server. -/
def isLoopTarget (host : Text) : Bool :=
  host = localhost || host = units "localhost" || (units "10.0.0.").isPrefixOf host

/-- `socksRepForOpenFailure` -/
def socksRepForOpenFailure (openCode : Int) : UInt8 :=
  if openCode = -2 then 6 else if openCode = -3 then 5 else 1

section Handler

variable (w : World)

/-- What a `read` at the end of the stream comes to: -1, for which `x` is returned. -/
def atEnd {α : Type} (x : α) : Handler α := fun c =>
  if w.closes then .ok x c else .error .io c

def read : Handler (Option UInt8) := fun c =>
  match c.unread with
  | [] => atEnd w none c
  | b :: rest => .ok (some b) { c with unread := rest }

/-- The loop of `readFully`: what has been read into `buffer`, and what is still to come. -/
def readFullyLoop (size : Nat) (buffer unread : Bytes) : Bytes × Bytes :=
  if buffer.length < size ∧ unread ≠ [] then
    let read := max 1 (min (w.chunks unread.length) (min (size - buffer.length) unread.length))
    readFullyLoop size (buffer ++ unread.take read) (unread.drop read)
  else (buffer, unread)
termination_by unread.length
decreasing_by
  have := List.length_pos_of_ne_nil (‹_ ∧ _›).2
  rw [List.length_drop]
  omega

def readFully (size : Nat) : Handler (Option Bytes) := fun c =>
  let (buffer, unread) := readFullyLoop w size [] c.unread
  if buffer.length < size then atEnd w none { c with unread }
  else .ok (some buffer) { c with unread }

def write (bytes : Bytes) : Handler Unit := fun c =>
  if w.accepts c.written.length then .ok () { c with written := c.written ++ bytes }
  else .error .io c

def runCatching (x : Handler Unit) : Handler Unit := fun c =>
  match x c with
  | .ok _ c | .error _ c => .ok () c

def handshake : Handler Bool := do
  match ← read w with
  | some 5 =>
      match ← read w with
      | none => return false
      | some methodsCount =>
          if methodsCount = 0 then return false
          else
            match ← readFully w methodsCount.toNat with
            | none => return false
            | some methods =>
                if 0 ∈ methods then
                  write w [5, 0]
                  return true
                else
                  write w [5, 0xFF]
                  return false
  | _ => return false

/-- `InetAddress.getByAddress(ipv4).hostAddress` -/
def hostAddress4 (a b c d : UInt8) : Text :=
  ((inetNtop (be32 a b c d)).getD []).map UInt8.toUInt16

/-- The address behind the type `atyp`. -/
def parseAddress (atyp : UInt8) : Handler (Option Text) := do
  match atyp with
  | 1 =>
      match ← readFully w 4 with
      | some [a, b, c, d] => return some (hostAddress4 a b c d)
      | _ => return none
  | 3 =>
      match ← read w with
      | none => return none
      | some len =>
          if len = 0 then return none
          else return (← readFully w len.toNat).map asciiText
  | 4 => return (← readFully w 16).map w.hostAddress6
  | _ => return none

def parseConnectRequest : Handler (Option (Text × UInt16)) := do
  match ← readFully w 4 with
  | some [ver, cmd, _, atyp] =>
      if ver ≠ 5 ∨ cmd ≠ 1 then
        write w [5, 7, 0, 1, 0, 0, 0, 0, 0, 0]
        return none
      else
        match ← parseAddress w atyp with
        | none => return none
        | some address =>
            match ← readFully w 2 with
            | some [p0, p1] => return some (w.hostString address, be16 p0 p1)
            | _ => return none
  | _ => return none

def reply (rep : UInt8) : Bytes := [5, rep, 0, 1, 0, 0, 0, 0, 0, 0]

def sendConnectFailure (rep : UInt8) : Handler Unit := runCatching (write w (reply rep))

def sendConnectSuccess : Handler Unit := write w (reply 0)

def openStream (host : Text) (port : UInt16) : Handler Int := fun c =>
  .ok (w.openStream host port) { c with opens := c.opens ++ [(host, port)] }

/-- Up to the start of the pipe threads, which is the result `true`. -/
def handleClient : Handler Bool := do
  if ← handshake w then
    match ← parseConnectRequest w with
    | none => return false
    | some (host, port) =>
        if isLoopTarget host then
          -- host unreachable
          runCatching (write w (reply 4))
          return false
        else
          let openCode ← openStream w host port
          if openCode ≠ 0 then
            sendConnectFailure w (socksRepForOpenFailure openCode)
            return false
          else
            sendConnectSuccess w
            return true
  else return false

end Handler

/-! ### Requests -/

/-- The first message of a client, with the method "no authentication" among its methods. -/
inductive Greeting : Bytes → Prop
  | mk {n : UInt8} {methods : Bytes} (length : methods.length = n.toNat) (none_ : 0 ∈ methods) :
      Greeting (5 :: n :: methods)

/-- The address of a request, and its text. -/
inductive Address (w : World) : Bytes → Text → Prop
  | ipv4 {a b c d : UInt8} : Address w [1, a, b, c, d] (hostAddress4 a b c d)
  | domain {n : UInt8} {name : Bytes} (length : name.length = n.toNat) (nonempty : n ≠ 0) :
      Address w (3 :: n :: name) (asciiText name)
  | ipv6 {ip : Bytes} (length : ip.length = 16) : Address w (4 :: ip) (w.hostAddress6 ip)

/-- A CONNECT request to a host and a port. -/
inductive Connect (w : World) : Bytes → Text → UInt16 → Prop
  | mk {rsv : UInt8} {address : Bytes} {text : Text} {port : UInt16} (names : Address w address text) :
      Connect w ([5, 1, rsv] ++ (address ++ writeU16 port)) (w.hostString text) port

/-- What a client says that is to be connected. -/
inductive Request (w : World) : Bytes → Text → UInt16 → Prop
  | mk {greeting connect : Bytes} {host : Text} {port : UInt16} (greets : Greeting greeting)
      (connects : Connect w connect host port) : Request w (greeting ++ connect) host port

/-! ### Reading and writing -/

section Reading

variable {w : World} {c c' : Conn} {size : Nat} {buffer unread : Bytes}

/-- However the bytes arrive, the loop takes the next ones until the buffer is full. -/
theorem readFullyLoop_eq :
    readFullyLoop w size buffer unread =
      (buffer ++ unread.take (size - buffer.length), unread.drop (size - buffer.length)) := by
  fun_induction readFullyLoop w size buffer unread with
  | case1 buffer unread goesOn read ih =>
      have some := List.length_pos_of_ne_nil goesOn.2
      have bound : read ≤ size - buffer.length ∧ read ≤ unread.length ∧ 1 ≤ read := by omega
      have parts : size - buffer.length = read + (size - (buffer.length + read)) := by omega
      rw [ih, List.length_append, List.length_take, min_eq_left bound.2.1, parts, List.take_add,
        List.append_assoc, List.drop_drop]
  | case2 buffer unread ends =>
      by_cases full : buffer.length < size
      · have dry : unread = [] := by
          by_contra nonempty
          exact ends ⟨full, nonempty⟩
        simp [dry]
      · have none_ : size - buffer.length = 0 := by omega
        simp [none_]

theorem readFully_of_length (m rest : Bytes) (length : m.length = size) :
    readFully w size { c with unread := m ++ rest } = .ok (some m) { c with unread := rest } := by
  have taken : (m ++ rest).take size = m := by rw [← length, List.take_left]
  have left : (m ++ rest).drop size = rest := by rw [← length, List.drop_left]
  simp only [readFully, readFullyLoop_eq, List.length_nil, Nat.sub_zero, List.nil_append, taken, left,
    length, Nat.lt_irrefl, if_false]

section Rules

variable {okRead : Option UInt8 → Conn → Prop} {okFully : Option Bytes → Conn → Prop}
  {okWrite : Unit → Conn → Prop} {thrown : Conn → Prop}

theorem ends_read (dry : okRead none c) (thrown_ : thrown c)
    (next : ∀ b rest, c.unread = b :: rest → okRead (some b) { c with unread := rest }) :
    Ends (read w) c okRead thrown := by
  unfold Ends read atEnd
  cases stream : c.unread with
  | nil =>
      cases w.closes with
      | true => exact dry
      | false => exact thrown_
  | cons b rest => exact next b rest stream

theorem ends_readFully (dry : okFully none { c with unread := [] })
    (thrown_ : thrown { c with unread := [] })
    (full : ∀ m rest, c.unread = m ++ rest → m.length = size →
      okFully (some m) { c with unread := rest }) :
    Ends (readFully w size) c okFully thrown := by
  unfold Ends
  by_cases short : c.unread.length < size
  · have all : readFully w size c = atEnd w none { c with unread := [] } := by
      have taken : c.unread.take size = c.unread := List.take_of_length_le (by omega)
      have left : c.unread.drop size = [] := List.drop_of_length_le (by omega)
      simp only [readFully, readFullyLoop_eq, List.length_nil, Nat.sub_zero, List.nil_append, taken,
        left, short, if_true]
    rw [all, atEnd]
    cases w.closes with
    | true => exact dry
    | false => exact thrown_
  · have length : (c.unread.take size).length = size := by
      rw [List.length_take]
      omega
    have parts : c = { c with unread := c.unread.take size ++ c.unread.drop size } := by
      rw [List.take_append_drop]
    rw [parts, readFully_of_length _ _ length]
    exact full _ _ (List.take_append_drop size c.unread).symm length

theorem ends_write {bytes : Bytes} (thrown_ : thrown c)
    (done : w.accepts c.written.length = true →
      okWrite () { c with written := c.written ++ bytes }) :
    Ends (write w bytes) c okWrite thrown := by
  unfold Ends write
  split
  · next run =>
      split at run
      · next accepted =>
          cases run
          exact done accepted
      · cases run
  · next run =>
      split at run
      · cases run
      · cases run
        exact thrown_

/-- What is caught leaves the connection as it was. -/
theorem ends_runCatching_write {bytes : Bytes} (lost : okWrite () c)
    (done : w.accepts c.written.length = true →
      okWrite () { c with written := c.written ++ bytes }) :
    Ends (runCatching (write w bytes)) c okWrite thrown := by
  unfold Ends runCatching write
  by_cases accepted : w.accepts c.written.length = true
  · simp only [accepted, if_true]
    exact done accepted
  · simp only [accepted]
    exact lost

end Rules

end Reading

/-! ### The two parts of the handshake -/

section Parts

variable {w : World} {c c' : Conn}

/-- What is left of a connection whose client is turned away: nothing is opened. -/
def Declined (c : Conn) (replies : List Bytes) (c' : Conn) : Prop :=
  c'.opens = c.opens ∧ (c'.written = c.written ∨ ∃ r ∈ replies, c'.written = c.written ++ r)

theorem Declined.refl {replies : List Bytes} {unread : Bytes} :
    Declined c replies { c with unread } := ⟨rfl, .inl rfl⟩

theorem Declined.replied {replies : List Bytes} {unread r : Bytes} (mem : r ∈ replies) :
    Declined c replies { c with unread, written := c.written ++ r } := ⟨rfl, .inr ⟨r, mem, rfl⟩⟩

/-- The method was agreed on. -/
def Greeted (w : World) (c c' : Conn) : Prop :=
  w.accepts c.written.length = true ∧ ∃ greeting, Greeting greeting ∧
    c = { c' with unread := greeting ++ c'.unread, written := c.written } ∧
    c'.written = c.written ++ [5, 0]

theorem handshake_ends :
    Ends (handshake w) c
      (fun greeted c' => if greeted then Greeted w c c' else Declined c [[5, 0xFF]] c')
      (Declined c [[5, 0xFF]]) := by
  have lost {unread : Bytes} : Declined c [[5, 0xFF]] { c with unread } := .refl
  refine .bind (ends_read lost lost fun version rest₁ at₁ => ?_)
  split
  · next is5 =>
      cases is5
      refine .bind (ends_read lost lost fun methodsCount rest₂ at₂ => ?_)
      dsimp only
      split
      · exact lost
      · refine .bind (ends_readFully lost lost fun methods rest₃ at₃ length => ?_)
        dsimp only
        split
        · next mem =>
            refine .bind (ends_write lost fun accepted => .pure ⟨accepted, _, .mk length mem, ?_, rfl⟩)
            cases c
            dsimp only at at₁ at₂ at₃
            rw [at₁, at₂, at₃]
            rfl
        · exact .bind (ends_write lost fun _ => .pure (.replied (by simp)))
  · exact lost

/-- A greeting is answered, whatever follows it. -/
theorem handshake_of_greeting {greeting rest : Bytes} (greets : Greeting greeting)
    (accepted : w.accepts c.written.length = true) :
    handshake w { c with unread := greeting ++ rest } =
      .ok true { c with unread := rest, written := c.written ++ [5, 0] } := by
  obtain ⟨length, none_⟩ := greets
  next n methods =>
    have some_ : n ≠ 0 := by
      rintro rfl
      have empty : methods = [] := List.length_eq_zero_iff.mp length
      rw [empty] at none_
      cases none_
    have first : read w { c with unread := 5 :: n :: methods ++ rest } =
        .ok (some 5) { c with unread := n :: (methods ++ rest) } := rfl
    have second : read w { c with unread := n :: (methods ++ rest) } =
        .ok (some n) { c with unread := methods ++ rest } := rfl
    have third := readFully_of_length (w := w) (c := c) _ rest length
    have fourth : write w [5, 0] { c with unread := rest } =
        .ok () { c with unread := rest, written := c.written ++ [5, 0] } := by
      simp only [write, accepted, if_true]
    refine (bind_of_ok first).trans ((bind_of_ok second).trans ?_)
    dsimp only
    rw [if_neg some_]
    refine (bind_of_ok third).trans ?_
    dsimp only
    rw [if_pos none_]
    exact bind_of_ok fourth

/-- The reply to another command than CONNECT. -/
def unsupported : Bytes := [5, 7, 0, 1, 0, 0, 0, 0, 0, 0]

/-- Only the rest of the stream differs. -/
def Silent (c c' : Conn) : Prop := c'.opens = c.opens ∧ c'.written = c.written

theorem parseAddress_ends {atyp : UInt8} :
    Ends (parseAddress w atyp) c
      (fun address c' => Silent c c' ∧
        ∀ text, address = some text → ∃ bytes, Address w (atyp :: bytes) text ∧
          c.unread = bytes ++ c'.unread)
      (Silent c) := by
  have lost {unread : Bytes} : Silent c { c with unread } := ⟨rfl, rfl⟩
  have nothing {unread : Bytes} : Silent c { c with unread } ∧ ∀ text, (none : Option Text) = some text →
      ∃ bytes, Address w (atyp :: bytes) text ∧ c.unread = bytes ++ unread :=
    ⟨lost, fun _ is => by cases is⟩
  unfold parseAddress
  split
  · refine .bind (ends_readFully nothing lost fun m rest at₁ length => ?_)
    split
    · next is =>
        cases is
        refine .pure ⟨lost, fun text is => ?_⟩
        cases is
        exact ⟨_, .ipv4, at₁⟩
    · exact nothing
  · refine .bind (ends_read nothing lost fun len rest₁ at₁ => ?_)
    dsimp only
    split
    · exact nothing
    · next nonzero =>
        refine .bind (ends_readFully nothing lost fun name rest₂ at₂ length => .pure ⟨lost, ?_⟩)
        intro text is
        cases is
        refine ⟨_, .domain length nonzero, ?_⟩
        rw [at₁, show rest₁ = name ++ rest₂ from at₂]
        rfl
  · refine .bind (ends_readFully nothing lost fun ip rest at₁ length => .pure ⟨lost, ?_⟩)
    intro text is
    cases is
    exact ⟨_, .ipv6 length, at₁⟩
  · exact nothing

theorem parseAddress_of_address {atyp : UInt8} {bytes : Bytes} {text : Text} (rest : Bytes)
    (names : Address w (atyp :: bytes) text) :
    parseAddress w atyp { c with unread := bytes ++ rest } = .ok (some text) { c with unread := rest } := by
  cases names with
  | @ipv4 a b c₁ d =>
      have first := readFully_of_length (w := w) (c := c) [a, b, c₁, d] rest rfl
      exact bind_of_ok first
  | @domain n name length nonempty =>
      have first : read w { c with unread := n :: name ++ rest } =
          .ok (some n) { c with unread := name ++ rest } := rfl
      have second := readFully_of_length (w := w) (c := c) _ rest length
      refine (bind_of_ok first).trans ?_
      dsimp only
      rw [if_neg nonempty]
      exact bind_of_ok second
  | ipv6 length =>
      have first := readFully_of_length (w := w) (c := c) _ rest length
      exact bind_of_ok first

theorem parseConnectRequest_ends :
    Ends (parseConnectRequest w) c
      (fun target c' => match target with
        | none => Declined c [unsupported] c'
        | some (host, port) => Silent c c' ∧
            ∃ connect, Connect w connect host port ∧ c.unread = connect ++ c'.unread)
      (Declined c [unsupported]) := by
  have lost {unread : Bytes} : Declined c [unsupported] { c with unread } := .refl
  have silent {c' : Conn} (h : Silent c c') : Declined c [unsupported] c' := ⟨h.1, .inl h.2⟩
  refine .bind (ends_readFully lost lost fun header rest₁ at₁ _ => ?_)
  split
  · next ver cmd rsv atyp is =>
      cases is
      split
      · exact .bind (ends_write lost fun _ => .pure (.replied (by simp [unsupported])))
      · next isConnect =>
          obtain ⟨rfl, rfl⟩ : ver = 5 ∧ cmd = 1 := by simpa [not_or] using isConnect
          refine .bind (parseAddress_ends.mono (fun address c₂ ended => ?_) fun c₂ ended => silent ended)
          obtain ⟨quiet, parsed⟩ := ended
          have quiet' {unread : Bytes} : Silent c { c₂ with unread } := quiet
          cases address with
          | none => exact .pure (silent quiet)
          | some text =>
              obtain ⟨bytes, names, at₂⟩ := parsed text rfl
              refine .bind (ends_readFully (silent quiet') (silent quiet') fun port rest₃ at₃ _ => ?_)
              split
              · next p0 p1 is =>
                  cases is
                  refine .pure ⟨quiet', [5, 1, rsv] ++ (atyp :: bytes ++ writeU16 (be16 p0 p1)), .mk names, ?_⟩
                  rw [at₁, show rest₁ = bytes ++ c₂.unread from at₂, at₃, writeU16_be16]
                  simp
              · exact silent quiet'
  · exact lost

theorem parseConnectRequest_of_connect {connect rest : Bytes} {host : Text} {port : UInt16}
    (connects : Connect w connect host port) :
    parseConnectRequest w { c with unread := connect ++ rest } =
      .ok (some (host, port)) { c with unread := rest } := by
  obtain ⟨names⟩ := connects
  next rsv address text =>
    obtain ⟨atyp, bytes, rfl⟩ : ∃ atyp bytes, address = atyp :: bytes := by
      cases names with
      | _ => exact ⟨_, _, rfl⟩
    have stream : [5, 1, rsv] ++ (atyp :: bytes ++ writeU16 port) ++ rest =
        [5, 1, rsv, atyp] ++ (bytes ++ (writeU16 port ++ rest)) := by simp
    have first := readFully_of_length (w := w) (c := c) [5, 1, rsv, atyp]
      (bytes ++ (writeU16 port ++ rest)) rfl
    have second := parseAddress_of_address (c := c) (writeU16 port ++ rest) names
    have third := readFully_of_length (w := w) (c := c) (writeU16 port) rest rfl
    have port_ : be16 ((port >>> 8) &&& 0xFF).toUInt8 (port &&& 0xFF).toUInt8 = port := be16_write port
    rw [stream]
    refine (bind_of_ok first).trans ((bind_of_ok second).trans ((bind_of_ok third).trans ?_))
    change EStateM.Result.ok (some (w.hostString text, be16 _ _)) _ = _
    rw [port_]

end Parts

/-! ### `handleClient` -/

section Client

variable {w : World} {stream rest : Bytes} {host : Text} {port : UInt16}

def start (stream : Bytes) : Conn := { unread := stream }

/-- The connection at the end of `handleClient`, or at the start of the pipe threads. -/
def after (w : World) (stream : Bytes) : Conn := final (handleClient w) (start stream)

/-- The reply that a connection has been made. -/
def success : Bytes := [5, 0] ++ reply 0

/-- The stream begins with a request that does not lead back into the tunnel. -/
inductive Asks (w : World) (stream : Bytes) (host : Text) (port : UInt16) (rest : Bytes) : Prop
  | mk {request : Bytes} (asks : Request w request host port) (begins : stream = request ++ rest)
      (accepted : w.accepts 0 = true) (outside : isLoopTarget host = false)

/-- How `handleClient` leaves a connection. -/
inductive Left (w : World) (stream : Bytes) (c : Conn) : Prop
  | declined (none_ : c.opens = [])
      (written : c.written ∈ [[], [5, 0xFF], [5, 0], [5, 0] ++ unsupported, [5, 0] ++ reply 4])
  | opened {host : Text} {port : UInt16} (asks : Asks w stream host port c.unread)
      (opens : c.opens = [(host, port)])
      (written : c.written = [5, 0] ∨
        w.openStream host port ≠ 0 ∧
          c.written = [5, 0] ++ reply (socksRepForOpenFailure (w.openStream host port)) ∨
        w.openStream host port = 0 ∧ w.accepts 2 = true ∧ c.written = success)

theorem success_ne_failure (openCode : Int) :
    [5, 0] ++ reply (socksRepForOpenFailure openCode) ≠ success := by
  unfold socksRepForOpenFailure
  split
  · decide
  · split
    · decide
    · decide

theorem Left.declines {c₁ c₂ : Conn} {replies : List Bytes} (before : Bytes)
    (h : Declined c₁ replies c₂) (none_ : c₁.opens = []) (written : c₁.written = before)
    (replied : before :: replies.map (before ++ ·) ⊆
      [[], [5, 0xFF], [5, 0], [5, 0] ++ unsupported, [5, 0] ++ reply 4]) :
    Left w stream c₂ ∧ c₂.written ≠ success := by
  have mem : c₂.written ∈ before :: replies.map (before ++ ·) := by
    rcases h.2 with same | ⟨r, mem, same⟩
    · rw [same, written]
      exact List.mem_cons_self
    · rw [same, written]
      exact List.mem_cons_of_mem _ (List.mem_map_of_mem mem)
  have listed := replied mem
  refine ⟨.declined (h.1.trans none_) listed, fun is => ?_⟩
  rw [is] at listed
  revert listed
  decide

theorem handleClient_ends :
    Ends (handleClient w) (start stream)
      (fun bridged c => Left w stream c ∧ (bridged = true ↔ c.written = success))
      (fun c => Left w stream c ∧ c.written ≠ success) := by
  have no {c : Conn} (h : Left w stream c ∧ c.written ≠ success) :
      Left w stream c ∧ (false = true ↔ c.written = success) :=
    ⟨h.1, ⟨nofun, fun is => absurd is h.2⟩⟩
  refine .bind (handshake_ends.mono (fun greeted c₁ ended => ?_)
    fun c₁ declined => Left.declines [] declined rfl rfl (by decide))
  cases greeted with
  | false => exact .pure (no (Left.declines [] ended rfl rfl (by decide)))
  | true =>
      obtain ⟨accepted, greeting, greets, before, replied⟩ := ended
      have begins : stream = greeting ++ c₁.unread := congrArg Conn.unread before
      have untold : c₁.opens = [] := (congrArg Conn.opens before).symm
      refine .bind (parseConnectRequest_ends.mono (fun target c₂ ended => ?_) fun c₂ declined => ?_)
      · cases target with
        | none => exact .pure (no (Left.declines [5, 0] ended untold replied (by decide)))
        | some target =>
            obtain ⟨host, port⟩ := target
            obtain ⟨⟨opens, written⟩, connect, connects, follows⟩ := ended
            rw [untold] at opens
            have written : c₂.written = [5, 0] := written.trans replied
            dsimp only
            split
            · refine .bind (ends_runCatching_write (.pure (no ⟨.declined opens ?_, ?_⟩))
                fun _ => .pure (no ⟨.declined opens ?_, ?_⟩))
              · rw [written]
                decide
              · rw [written]
                decide
              · simp [written]
              · simp [written, success, reply]
            · next outside =>
                have asks : Asks w stream host port c₂.unread :=
                  .mk (.mk greets connects) (by rw [begins, follows, List.append_assoc]) accepted
                    (by simpa using outside)
                have opens' : c₂.opens ++ [(host, port)] = [(host, port)] := by rw [opens]; rfl
                change Ends (if w.openStream host port ≠ 0 then _ else _)
                  { c₂ with opens := c₂.opens ++ [(host, port)] } _ _
                split
                · next failed =>
                    refine .bind (ends_runCatching_write
                      (.pure (no ⟨.opened asks opens' (.inl written), ?_⟩))
                      fun _ => .pure (no ⟨.opened asks opens' (.inr (.inl ⟨failed, ?_⟩)), ?_⟩))
                    · rw [written]
                      decide
                    · rw [written]
                    · rw [written]
                      exact success_ne_failure _
                · next opened =>
                    refine .bind (ends_write ⟨.opened asks opens' (.inl written), ?_⟩
                      fun accepted₂ => .pure ⟨.opened asks opens' (.inr (.inr ⟨?_, ?_, ?_⟩)), ?_⟩)
                    · rw [written]
                      decide
                    · exact not_not.mp opened
                    · simpa [written] using accepted₂
                    · rw [written]
                      rfl
                    · rw [written]
                      exact ⟨fun _ => rfl, fun _ => rfl⟩
      · exact Left.declines [5, 0] declined untold replied (by decide)

theorem left_after : Left w stream (after w stream) :=
  (handleClient_ends.mono (fun _ _ h => h.1) fun _ h => h.1).final

/-- The rest of `handleClient` behind the checks. -/
def connect (w : World) (host : Text) (port : UInt16) : Handler Bool := do
  let openCode ← openStream w host port
  if openCode ≠ 0 then
    sendConnectFailure w (socksRepForOpenFailure openCode)
    return false
  else
    sendConnectSuccess w
    return true

/-- A request is read to its end, and no further. -/
theorem handleClient_of_asks (asks : Asks w stream host port rest) :
    handleClient w (start stream) = connect w host port { unread := rest, written := [5, 0] } := by
  obtain ⟨⟨greets, connects⟩, rfl, accepted, outside⟩ := asks
  next greeting connect_ =>
    have first : handshake w { unread := greeting ++ (connect_ ++ rest), written := [] } =
        .ok true { unread := connect_ ++ rest, written := [5, 0] } :=
      handshake_of_greeting (c := { unread := [], written := [] }) greets accepted
    have second : parseConnectRequest w { unread := connect_ ++ rest, written := [5, 0] } =
        .ok (some (host, port)) { unread := rest, written := [5, 0] } :=
      parseConnectRequest_of_connect (c := { unread := [], written := [5, 0] }) connects
    rw [List.append_assoc]
    refine (bind_of_ok first).trans ((bind_of_ok second).trans ?_)
    dsimp only
    rw [if_neg (by simp [outside])]
    rfl

theorem connect_ends {c : Conn} :
    Ends (connect w host port) c (fun _ c' => c'.opens = c.opens ++ [(host, port)] ∧ c'.unread = c.unread)
      (fun c' => c'.opens = c.opens ++ [(host, port)] ∧ c'.unread = c.unread) := by
  change Ends (if w.openStream host port ≠ 0 then _ else _)
    { c with opens := c.opens ++ [(host, port)] } _ _
  split
  · exact .bind (ends_runCatching_write (.pure ⟨rfl, rfl⟩) fun _ => .pure ⟨rfl, rfl⟩)
  · exact .bind (ends_write ⟨rfl, rfl⟩ fun _ => .pure ⟨rfl, rfl⟩)

theorem connect_of_opened (opened : w.openStream host port = 0) (accepted : w.accepts 2 = true) :
    connect w host port { unread := rest, written := [5, 0] } =
      .ok true { unread := rest, written := success, opens := [(host, port)] } := by
  have first : openStream w host port { unread := rest, written := [5, 0] } =
      .ok 0 { unread := rest, written := [5, 0], opens := [(host, port)] } := by
    rw [openStream, opened]
    rfl
  have second : sendConnectSuccess w { unread := rest, written := [5, 0], opens := [(host, port)] } =
      .ok () { unread := rest, written := success, opens := [(host, port)] } := by
    unfold sendConnectSuccess write
    exact if_pos accepted
  refine (bind_of_ok first).trans ?_
  rw [if_neg (by decide)]
  exact bind_of_ok second

/-- **Success is reported when the stream is open, and only then.** The pipe threads are started
exactly when the client has been told of success, and that is when it asked for a connection,
`openStream` returned 0 and both replies could be written. -/
theorem success_iff_opened :
    ((∃ c, handleClient w (start stream) = .ok true c) ↔ (after w stream).written = success) ∧
      ((after w stream).written = success ↔
        w.accepts 2 = true ∧
          ∃ host port rest, Asks w stream host port rest ∧ w.openStream host port = 0) := by
  refine ⟨⟨fun ⟨c, run⟩ => ?_, fun told => ?_⟩, fun told => ?_,
    fun ⟨accepted, host, port, rest, asks, opened⟩ => ?_⟩
  · rw [after, final, run]
    exact (handleClient_ends.of_ok run).2.mp rfl
  · have ended : Ends (handleClient w) (start stream)
        (fun bridged c => Left w stream c ∧ (bridged = true ↔ c.written = success))
        (fun c => Left w stream c ∧ c.written ≠ success) := handleClient_ends
    unfold Ends at ended
    rw [after, final] at told
    split at ended
    · next bridged c run =>
        rw [run] at told
        rw [ended.2.mpr told] at run
        exact ⟨c, run⟩
    · next c run =>
        rw [run] at told
        exact absurd told ended.2
  · cases (left_after : Left w stream (after w stream)) with
    | declined none_ written =>
        rw [told] at written
        exact absurd written (by decide)
    | @opened host port asks opens written =>
        rw [told] at written
        rcases written with short | ⟨-, failure⟩ | ⟨opened, accepted, -⟩
        · cases short
        · exact absurd failure.symm (success_ne_failure _)
        · exact ⟨accepted, host, port, _, asks, opened⟩
  · rw [after, final, handleClient_of_asks asks, connect_of_opened opened accepted]

/-- A client whose bytes come one by one, and a tunnel that opens everything. -/
def oneByOne : World where
  closes := true
  chunks _ := 1
  accepts _ := true
  hostAddress6 _ := []
  hostString host := host
  openStream _ _ := 0

example : after oneByOne [5, 1, 0, 5, 1, 0, 1, 8, 8, 8, 8, 0, 80, 71] =
    ⟨[71], success, [(units "8.8.8.8", 80)]⟩ := by
  decide +kernel

end Client

end TonTunnel.AndroidRequests
