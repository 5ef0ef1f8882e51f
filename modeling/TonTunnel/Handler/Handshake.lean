import TonTunnel.Egress.Policy

/-!
The SOCKS request parser of the desktop client's `LocalSocks5Server::handleClient`.

The source reads one field after the other with `recvExact` and decides from each
what to do next. A `Stage` is the call of `recvExact` that is under way together
with what the fields before it left in variables; `Stage.want` is the length the
call asks for and `after` the code between this call and the next. The two scanning
loops of SOCKS4 give up after 512 bytes, with or without a terminator.

`Request` is what the three protocols call a CONNECT request and `Accepted` what the
stages take for one (`Before.field`, `Accepted.reads`). The two differ on the streams
of `CutShort` only (`Accepted.request`, `CutShort.accepted`).
-/

namespace TonTunnel.Handler

open BigEndian

/-! ### The stages -/

/-- The protocol of an accepted request. -/
inductive Version where
  | socks4
  | socks5
  deriving DecidableEq, Repr

/-- The calls of `recvExact`. The port and the address bytes of a SOCKS4 request are kept
until its strings are read. -/
inductive Stage where
  | greetingHead
  | port4
  | ip4 (port : UInt16)
  | userId (port : UInt16) (a b c d : UInt8) (i : Nat)
  /-- the loop counter is the number of bytes in `domain` -/
  | domain4 (port : UInt16) (domain : Bytes)
  | methods (n : UInt8)
  | reqHead
  | ipv4
  | nameLen
  | name (len : UInt8)
  | ipv6
  | port5 (targetHost : Bytes)
  deriving DecidableEq, Repr

/-- The `len` of the call. -/
def Stage.want : Stage → Nat
  | .greetingHead | .port4 | .port5 _ => 2
  | .ip4 _ | .reqHead | .ipv4 => 4
  | .userId .. | .domain4 .. | .nameLen => 1
  | .methods n => n.toNat
  | .name len => len.toNat
  | .ipv6 => 16

/-- Memory is allocated between the call before and this one. -/
def Stage.allocates : Stage → Bool
  | .domain4 .. | .methods _ | .name _ | .port5 _ => true
  | _ => false

/-- A message is logged when the call fails. -/
def Stage.logs : Stage → Bool
  | .greetingHead | .reqHead => true
  | _ => false

/-- What the code does when a field is complete. -/
inductive Next where
  | read (st : Stage)
  /-- answers the greeting, then reads the request -/
  | methodReply
  /-- answers with the SOCKS4 failure and closes -/
  | refuse4
  /-- closes, after a log message or without one -/
  | drop (logs : Bool)
  | connect (v : Version) (targetHost : Bytes) (targetPort : UInt16)
  deriving DecidableEq, Repr

/-- The bounds of the two loops over bytes. -/
def scanLimit : Nat := 512

/-- An address of the form 0.0.0.x. -/
def is4a (a b c d : UInt8) : Bool := a == 0 && b == 0 && c == 0 && d != 0

/-- The text of `inet_ntop(AF_INET, ..)` in the zeroed `buf`. -/
def ipv4Text (a b c d : UInt8) : Bytes := (inetNtop (be32 a b c d)).getD []

/-- Behind the loop over the user id. -/
def afterUserId (port : UInt16) (a b c d : UInt8) : Next :=
  if is4a a b c d then .read (.domain4 port []) else .connect .socks4 (ipv4Text a b c d) port

/-- Behind the loop over the domain. -/
def afterDomain (port : UInt16) (domain : Bytes) : Next :=
  if domain.isEmpty then .refuse4 else .connect .socks4 domain port

/-- The code between the end of a call of `recvExact` and the next call. `ntop6` is
`inet_ntop(AF_INET6, ..)`; other fields than those of the length asked for do not occur. -/
def after (ntop6 : Bytes → Option Bytes) : Stage → Bytes → Next
  | .greetingHead, [version, b] =>
      if version = 4 then
        if b ≠ 1 then .refuse4 else .read .port4
      else if version ≠ 5 then .drop true
      else if b = 0 then .methodReply
      else .read (.methods b)
  | .port4, [p0, p1] => .read (.ip4 (be16 p0 p1))
  | .ip4 port, [a, b, c, d] => .read (.userId port a b c d 0)
  | .userId port a b c d i, [ch] =>
      if ch = 0 ∨ i + 1 = scanLimit then afterUserId port a b c d
      else .read (.userId port a b c d (i + 1))
  | .domain4 port domain, [ch] =>
      if ch = 0 then afterDomain port domain
      else if domain.length + 1 = scanLimit then afterDomain port (domain ++ [ch])
      else .read (.domain4 port (domain ++ [ch]))
  | .methods _, _ => .methodReply
  | .reqHead, [version, cmd, _, atyp] =>
      if version ≠ 5 ∨ cmd ≠ 1 then .drop false
      else if atyp = 1 then .read .ipv4
      else if atyp = 3 then .read .nameLen
      else if atyp = 4 then .read .ipv6
      else .drop false
  | .ipv4, [a, b, c, d] => .read (.port5 (ipv4Text a b c d))
  | .nameLen, [len] => if len = 0 then .read (.port5 []) else .read (.name len)
  | .name _, name => .read (.port5 name)
  | .ipv6, ip6 =>
      match ntop6 ip6 with
      | none => .drop false
      | some text => .read (.port5 text)
  | .port5 targetHost, [p0, p1] => .connect .socks5 targetHost (be16 p0 p1)
  | _, _ => .drop false

section After

variable {ntop6 : Bytes → Option Bytes} {port : UInt16} {a b c d ch : UInt8}

theorem after_greetingHead {version : UInt8} : after ntop6 .greetingHead [version, b] =
    if version = 4 then
      if b ≠ 1 then .refuse4 else .read .port4
    else if version ≠ 5 then .drop true
    else if b = 0 then .methodReply
    else .read (.methods b) := rfl

theorem after_userId {i : Nat} : after ntop6 (.userId port a b c d i) [ch] =
    if ch = 0 ∨ i + 1 = scanLimit then afterUserId port a b c d
    else .read (.userId port a b c d (i + 1)) := rfl

theorem after_domain4 {domain : Bytes} : after ntop6 (.domain4 port domain) [ch] =
    if ch = 0 then afterDomain port domain
    else if domain.length + 1 = scanLimit then afterDomain port (domain ++ [ch])
    else .read (.domain4 port (domain ++ [ch])) := rfl

theorem after_reqHead {version cmd rsv atyp : UInt8} :
    after ntop6 .reqHead [version, cmd, rsv, atyp] =
      if version ≠ 5 ∨ cmd ≠ 1 then .drop false
      else if atyp = 1 then .read .ipv4
      else if atyp = 3 then .read .nameLen
      else if atyp = 4 then .read .ipv6
      else .drop false := rfl

theorem after_nameLen {len : UInt8} : after ntop6 .nameLen [len] =
    if len = 0 then .read (.port5 []) else .read (.name len) := rfl

theorem after_ipv6 {ip6 : Bytes} : after ntop6 .ipv6 ip6 =
    match ntop6 ip6 with
    | none => .drop false
    | some text => .read (.port5 text) := by
  cases ip6 <;> rfl

end After

/-! ### Requests -/

/-- The address of a SOCKS5 request and the host it names. -/
inductive Address (ntop6 : Bytes → Option Bytes) : Bytes → Bytes → Prop
  | ipv4 {a b c d : UInt8} : Address ntop6 [1, a, b, c, d] (ipv4Text a b c d)
  | domain {len : UInt8} {name : Bytes} (size : name.length = len.toNat) :
      Address ntop6 (3 :: len :: name) name
  | ipv6 {ip6 text : Bytes} (size : ip6.length = 16) (shown : ntop6 ip6 = some text) :
      Address ntop6 (4 :: ip6) text

/-- The fields before the strings of a SOCKS4 request. -/
def head4 (port : UInt16) (a b c d : UInt8) : Bytes := [4, 1] ++ writeU16 port ++ [a, b, c, d]

/-- The greeting of a SOCKS5 client and the request up to its address. -/
def head5 (n : UInt8) (methods : Bytes) (rsv : UInt8) : Bytes := [5, n] ++ methods ++ [5, 1, rsv]

/-- A complete CONNECT request with its target. -/
inductive Request (ntop6 : Bytes → Option Bytes) : Bytes → Bytes → UInt16 → Prop
  | socks4 {port : UInt16} {a b c d : UInt8} {userId : Bytes} (plain : is4a a b c d = false)
      (user : 0 ∉ userId) :
      Request ntop6 (head4 port a b c d ++ (userId ++ [0])) (ipv4Text a b c d) port
  | socks4a {port : UInt16} {a b c d : UInt8} {userId domain : Bytes} (named : is4a a b c d = true)
      (user : 0 ∉ userId) (name : 0 ∉ domain) (some_ : domain ≠ []) :
      Request ntop6 (head4 port a b c d ++ (userId ++ [0]) ++ (domain ++ [0])) domain port
  | socks5 {n rsv : UInt8} {methods addr host : Bytes} {port : UInt16}
      (size : methods.length = n.toNat) (address : Address ntop6 addr host) :
      Request ntop6 (head5 n methods rsv ++ addr ++ writeU16 port) host port

/-- What one of the loops reads of a string: up to its terminator, or 512 bytes. -/
inductive Scanned (text : Bytes) : Bytes → Prop
  | ended (clean : 0 ∉ text) (short : text.length < scanLimit) : Scanned text (text ++ [0])
  | cut (clean : 0 ∉ text) (full : text.length = scanLimit) : Scanned text text

/-- What the stages take for a request. -/
inductive Accepted (ntop6 : Bytes → Option Bytes) : Version → Bytes → Bytes → UInt16 → Prop
  | socks4 {port : UInt16} {a b c d : UInt8} {userId user : Bytes} (plain : is4a a b c d = false)
      (scan : Scanned userId user) :
      Accepted ntop6 .socks4 (head4 port a b c d ++ user) (ipv4Text a b c d) port
  | socks4a {port : UInt16} {a b c d : UInt8} {userId user domain name : Bytes}
      (named : is4a a b c d = true) (scan : Scanned userId user) (scanName : Scanned domain name)
      (some_ : domain ≠ []) :
      Accepted ntop6 .socks4 (head4 port a b c d ++ user ++ name) domain port
  | socks5 {n rsv : UInt8} {methods addr host : Bytes} {port : UInt16}
      (size : methods.length = n.toNat) (address : Address ntop6 addr host) :
      Accepted ntop6 .socks5 (head5 n methods rsv ++ addr ++ writeU16 port) host port

/-- The streams that begin with a request of which a string is cut after 512 bytes, and in
which the loops then find a target. -/
inductive CutShort : Bytes → Prop
  | userId {port : UInt16} {a b c d : UInt8} {userId rest : Bytes} (plain : is4a a b c d = false)
      (user : 0 ∉ userId) (full : userId.length = scanLimit) :
      CutShort (head4 port a b c d ++ userId ++ rest)
  | userId4a {port : UInt16} {a b c d : UInt8} {userId domain name rest : Bytes}
      (named : is4a a b c d = true) (user : 0 ∉ userId) (full : userId.length = scanLimit)
      (scanName : Scanned domain name) (some_ : domain ≠ []) :
      CutShort (head4 port a b c d ++ userId ++ name ++ rest)
  | domain {port : UInt16} {a b c d : UInt8} {userId domain rest : Bytes}
      (named : is4a a b c d = true) (user : 0 ∉ userId) (short : userId.length < scanLimit)
      (name : 0 ∉ domain) (full : domain.length = scanLimit) :
      CutShort (head4 port a b c d ++ (userId ++ [0]) ++ domain ++ rest)

/-! ### What has been read -/

/-- The bytes that were read before a stage. -/
def Before (ntop6 : Bytes → Option Bytes) : Stage → Bytes → Prop
  | .greetingHead, bs => bs = []
  | .port4, bs => bs = [4, 1]
  | .ip4 port, bs => bs = [4, 1] ++ writeU16 port
  | .userId port a b c d i, bs =>
      ∃ userId, bs = head4 port a b c d ++ userId ∧ 0 ∉ userId ∧ userId.length = i ∧ i < scanLimit
  | .domain4 port domain, bs =>
      ∃ a b c d userId user, bs = head4 port a b c d ++ user ++ domain ∧ is4a a b c d = true ∧
        Scanned userId user ∧ 0 ∉ domain ∧ domain.length < scanLimit
  | .methods n, bs => bs = [5, n] ∧ n ≠ 0
  | .reqHead, bs => ∃ n methods, bs = [5, n] ++ methods ∧ methods.length = n.toNat
  | .ipv4, bs => ∃ n methods rsv, bs = head5 n methods rsv ++ [1] ∧ methods.length = n.toNat
  | .nameLen, bs => ∃ n methods rsv, bs = head5 n methods rsv ++ [3] ∧ methods.length = n.toNat
  | .name len, bs =>
      ∃ n methods rsv, bs = head5 n methods rsv ++ [3, len] ∧ methods.length = n.toNat ∧ len ≠ 0
  | .ipv6, bs => ∃ n methods rsv, bs = head5 n methods rsv ++ [4] ∧ methods.length = n.toNat
  | .port5 host, bs =>
      ∃ n methods rsv addr, bs = head5 n methods rsv ++ addr ∧ methods.length = n.toNat ∧
        Address ntop6 addr host

/-- The bytes that were read when the code goes on this way. -/
def Leads (ntop6 : Bytes → Option Bytes) (bs : Bytes) : Next → Prop
  | .read st => Before ntop6 st bs
  | .methodReply => Before ntop6 .reqHead bs
  | .connect v host port => Accepted ntop6 v bs host port
  | .refuse4 | .drop _ => True

theorem length_two {bs : Bytes} (size : bs.length = 2) : ∃ a b, bs = [a, b] :=
  List.length_eq_two.mp size

theorem length_four {bs : Bytes} (size : bs.length = 4) : ∃ a b c d, bs = [a, b, c, d] := by
  match bs, size with
  | [a, b, c, d], _ => exact ⟨a, b, c, d, rfl⟩

theorem zero_notMem_concat {bs : Bytes} {ch : UInt8} (clean : 0 ∉ bs) (proper : ch ≠ 0) :
    0 ∉ bs ++ [ch] := by
  rw [List.mem_append, List.mem_singleton, not_or]
  exact ⟨clean, Ne.symm proper⟩

variable {ntop6 : Bytes → Option Bytes}

/-- The user id was read. -/
theorem leads_afterUserId {port : UInt16} {a b c d : UInt8} {userId user : Bytes}
    (scan : Scanned userId user) :
    Leads ntop6 (head4 port a b c d ++ user) (afterUserId port a b c d) := by
  unfold afterUserId
  split
  · next named =>
      exact ⟨a, b, c, d, userId, user, (List.append_nil _).symm, named, scan, List.not_mem_nil,
        by decide⟩
  · next plain => exact .socks4 (Bool.eq_false_iff.mpr plain) scan

/-- The domain was read. -/
theorem leads_afterDomain {port : UInt16} {a b c d : UInt8} {userId user domain name : Bytes}
    (named : is4a a b c d = true) (scan : Scanned userId user) (scanName : Scanned domain name) :
    Leads ntop6 (head4 port a b c d ++ user ++ name) (afterDomain port domain) := by
  unfold afterDomain
  split
  · trivial
  · next some_ => exact .socks4a named scan scanName (by simpa using some_)

/-- **A field more.** -/
theorem Before.field {st : Stage} {bs field : Bytes} (h : Before ntop6 st bs)
    (size : field.length = st.want) : Leads ntop6 (bs ++ field) (after ntop6 st field) := by
  cases st with
  | greetingHead =>
      obtain ⟨version, b, rfl⟩ := length_two size
      obtain rfl : bs = [] := h
      rw [after_greetingHead]
      split_ifs with four other no five
      · trivial
      · rw [four, not_not.mp other]
        exact rfl
      · trivial
      · exact ⟨b, [], by simp [not_not.mp no], by simp [five]⟩
      · exact ⟨by simp [not_not.mp no], five⟩
  | port4 =>
      obtain ⟨p0, p1, rfl⟩ := length_two size
      obtain rfl : bs = [4, 1] := h
      exact congrArg _ (writeU16_be16 p0 p1).symm
  | ip4 port =>
      obtain ⟨a, b, c, d, rfl⟩ := length_four size
      obtain rfl : bs = [4, 1] ++ writeU16 port := h
      exact ⟨[], by simp [head4], by simp, rfl, by decide⟩
  | userId port a b c d i =>
      obtain ⟨ch, rfl⟩ := List.length_eq_one_iff.mp size
      obtain ⟨userId, rfl, clean, rfl, short⟩ := h
      rw [List.append_assoc]
      by_cases zero : ch = 0
      · subst zero
        rw [after_userId, if_pos (.inl rfl)]
        exact leads_afterUserId (.ended clean short)
      · have clean' := zero_notMem_concat clean zero
        by_cases full : userId.length + 1 = scanLimit
        · rw [after_userId, if_pos (.inr full)]
          exact leads_afterUserId (.cut clean' (by simpa using full))
        · rw [after_userId, if_neg (by simp [zero, full])]
          exact ⟨userId ++ [ch], rfl, clean', by simp, by omega⟩
  | domain4 port domain =>
      obtain ⟨ch, rfl⟩ := List.length_eq_one_iff.mp size
      obtain ⟨a, b, c, d, userId, user, rfl, named, scan, clean, short⟩ := h
      rw [List.append_assoc]
      by_cases zero : ch = 0
      · subst zero
        rw [after_domain4, if_pos rfl]
        exact leads_afterDomain named scan (.ended clean short)
      · have clean' := zero_notMem_concat clean zero
        rw [after_domain4, if_neg zero]
        split
        · next full => exact leads_afterDomain named scan (.cut clean' (by simpa using full))
        · next more =>
            refine ⟨a, b, c, d, userId, user, rfl, named, scan, clean', ?_⟩
            rw [List.length_append, List.length_singleton]
            omega
  | methods n =>
      obtain ⟨rfl, -⟩ := h
      exact ⟨n, field, rfl, size⟩
  | reqHead =>
      obtain ⟨version, cmd, rsv, atyp, rfl⟩ := length_four size
      obtain ⟨n, methods, rfl, methodsSize⟩ := h
      rw [after_reqHead]
      split_ifs with other v4 name v6
      · trivial
      all_goals try
        obtain ⟨rfl, rfl⟩ : version = 5 ∧ cmd = 1 := by simpa using other
      · exact ⟨n, methods, rsv, by simp [head5, v4], methodsSize⟩
      · exact ⟨n, methods, rsv, by simp [head5, name], methodsSize⟩
      · exact ⟨n, methods, rsv, by simp [head5, v6], methodsSize⟩
      · trivial
  | ipv4 =>
      obtain ⟨a, b, c, d, rfl⟩ := length_four size
      obtain ⟨n, methods, rsv, rfl, methodsSize⟩ := h
      exact ⟨n, methods, rsv, [1, a, b, c, d], by simp, methodsSize, .ipv4⟩
  | nameLen =>
      obtain ⟨len, rfl⟩ := List.length_eq_one_iff.mp size
      obtain ⟨n, methods, rsv, rfl, methodsSize⟩ := h
      rw [after_nameLen]
      split
      · next zero =>
          exact ⟨n, methods, rsv, [3, len], by simp, methodsSize, .domain (by simp [zero])⟩
      · next more => exact ⟨n, methods, rsv, by simp, methodsSize, more⟩
  | name len =>
      obtain ⟨n, methods, rsv, rfl, methodsSize, -⟩ := h
      exact ⟨n, methods, rsv, 3 :: len :: field, by simp, methodsSize, .domain size⟩
  | ipv6 =>
      obtain ⟨n, methods, rsv, rfl, methodsSize⟩ := h
      rw [after_ipv6]
      split
      · trivial
      · next text shown =>
          exact ⟨n, methods, rsv, 4 :: field, by simp, methodsSize, .ipv6 size shown⟩
  | port5 host =>
      obtain ⟨p0, p1, rfl⟩ := length_two size
      obtain ⟨n, methods, rsv, addr, rfl, methodsSize, address⟩ := h
      have accepted : Accepted ntop6 .socks5 (head5 n methods rsv ++ addr ++ writeU16 (be16 p0 p1))
          host (be16 p0 p1) := .socks5 methodsSize address
      rw [writeU16_be16] at accepted
      exact accepted

/-! ### Accepted bytes are read -/

/-- From this stage the stages read these bytes and accept a target. -/
inductive Reads (ntop6 : Bytes → Option Bytes) (v : Version) (host : Bytes) (port : UInt16) :
    Stage → Bytes → Prop
  | more {st : Stage} {bs : Bytes} (st' : Stage) (field : Bytes) (size : field.length = st.want)
      (goes : after ntop6 st field = .read st') (rest : Reads ntop6 v host port st' bs) :
      Reads ntop6 v host port st (field ++ bs)
  | method {st : Stage} {bs : Bytes} (field : Bytes) (size : field.length = st.want)
      (goes : after ntop6 st field = .methodReply) (rest : Reads ntop6 v host port .reqHead bs) :
      Reads ntop6 v host port st (field ++ bs)
  | last {st : Stage} {field : Bytes} (size : field.length = st.want)
      (goes : after ntop6 st field = .connect v host port) : Reads ntop6 v host port st field

section Reading

variable {v : Version} {host bs : Bytes} {port : UInt16} {a b c d : UInt8}

/-- The code goes on this way and then reads these bytes. -/
def Continues (ntop6 : Bytes → Option Bytes) (v : Version) (host : Bytes) (port : UInt16)
    (bs : Bytes) : Next → Prop
  | .read st => Reads ntop6 v host port st bs
  | .methodReply => Reads ntop6 v host port .reqHead bs
  | next => next = .connect v host port ∧ bs = []

theorem Reads.field {st : Stage} {field : Bytes} (size : field.length = st.want)
    (h : Continues ntop6 v host port bs (after ntop6 st field)) :
    Reads ntop6 v host port st (field ++ bs) := by
  cases goes : after ntop6 st field with
  | read st' =>
      rw [goes] at h
      exact .more st' field size goes h
  | methodReply =>
      rw [goes] at h
      exact .method field size goes h
  | connect _ _ _ | refuse4 | drop _ =>
      rw [goes] at h
      obtain ⟨is, rfl⟩ := h
      rw [List.append_nil]
      exact .last size (goes.trans is)

/-- What a loop that has read `i` bytes reads of the rest `text` of its string. -/
def ScansFrom (i : Nat) (text consumed : Bytes) : Prop :=
  0 ∉ text ∧ ((i + text.length < scanLimit ∧ consumed = text ++ [0]) ∨
    (i + text.length = scanLimit ∧ text ≠ [] ∧ consumed = text))

theorem Scanned.from {text consumed : Bytes} (h : Scanned text consumed) :
    ScansFrom 0 text consumed := by
  cases h with
  | ended clean short => exact ⟨clean, .inl ⟨by omega, rfl⟩⟩
  | cut clean full =>
      refine ⟨clean, .inr ⟨by omega, ?_, rfl⟩⟩
      rintro rfl
      exact absurd full (by decide)

/-- A loop goes on with its next byte. -/
theorem ScansFrom.next {i : Nat} {ch : UInt8} {text consumed : Bytes}
    (h : ScansFrom i (ch :: text) consumed) (more : i + 1 ≠ scanLimit) :
    ∃ consumed', consumed = ch :: consumed' ∧ ScansFrom (i + 1) text consumed' := by
  obtain ⟨clean, ⟨short, rfl⟩ | ⟨full, -, rfl⟩⟩ := h
  · refine ⟨text ++ [0], rfl, List.not_mem_of_not_mem_cons clean, .inl ⟨?_, rfl⟩⟩
    rw [List.length_cons] at short
    omega
  · rw [List.length_cons] at full
    refine ⟨text, rfl, List.not_mem_of_not_mem_cons clean, .inr ⟨by omega, ?_, rfl⟩⟩
    rintro rfl
    exact more full

/-- A loop that has come to its last byte. -/
theorem ScansFrom.full {i : Nat} {ch : UInt8} {text consumed : Bytes}
    (h : ScansFrom i (ch :: text) consumed) (last : i + 1 = scanLimit) :
    text = [] ∧ consumed = [ch] := by
  obtain ⟨-, ⟨short, -⟩ | ⟨full, -, rfl⟩⟩ := h
  · rw [List.length_cons] at short
    omega
  · rw [List.length_cons] at full
    obtain rfl : text = [] := List.length_eq_zero_iff.mp (by omega)
    exact ⟨rfl, rfl⟩

theorem ScansFrom.nil {i : Nat} {consumed : Bytes} (h : ScansFrom i [] consumed) :
    consumed = [0] := by
  obtain ⟨-, ⟨-, rfl⟩ | ⟨-, none, -⟩⟩ := h
  · rfl
  · exact absurd rfl none

theorem ScansFrom.proper {i : Nat} {ch : UInt8} {text consumed : Bytes}
    (h : ScansFrom i (ch :: text) consumed) : ch ≠ 0 := by
  rintro rfl
  exact h.1 List.mem_cons_self

/-- The loop over the user id. -/
theorem reads_userId {i : Nat} {text consumed : Bytes} {port' : UInt16}
    (scan : ScansFrom i text consumed)
    (h : Continues ntop6 v host port bs (afterUserId port' a b c d)) :
    Reads ntop6 v host port (.userId port' a b c d i) (consumed ++ bs) := by
  induction text generalizing i consumed with
  | nil =>
      rw [scan.nil]
      refine .field rfl ?_
      rw [after_userId, if_pos (.inl rfl)]
      exact h
  | cons ch text ih =>
      by_cases last : i + 1 = scanLimit
      · obtain ⟨-, rfl⟩ := scan.full last
        refine .field rfl ?_
        rw [after_userId, if_pos (.inr last)]
        exact h
      · obtain ⟨consumed', rfl, rest⟩ := scan.next last
        refine .more _ [ch] rfl ?_ (ih rest)
        rw [after_userId, if_neg (by simp [scan.proper, last])]

/-- The loop over the domain. -/
theorem reads_domain {domain text consumed : Bytes} {port' : UInt16}
    (scan : ScansFrom domain.length text consumed)
    (h : Continues ntop6 v host port bs (afterDomain port' (domain ++ text))) :
    Reads ntop6 v host port (.domain4 port' domain) (consumed ++ bs) := by
  induction text generalizing domain consumed with
  | nil =>
      rw [scan.nil]
      refine .field rfl ?_
      rw [after_domain4, if_pos rfl]
      rwa [List.append_nil] at h
  | cons ch text ih =>
      by_cases last : domain.length + 1 = scanLimit
      · obtain ⟨rfl, rfl⟩ := scan.full last
        refine .field rfl ?_
        rw [after_domain4, if_neg scan.proper, if_pos last]
        exact h
      · obtain ⟨consumed', rfl, rest⟩ := scan.next last
        refine .more (.domain4 port' (domain ++ [ch])) [ch] rfl ?_ (ih ?_ ?_)
        · rw [after_domain4, if_neg scan.proper, if_neg last]
        · rwa [List.length_append, List.length_singleton]
        · rwa [List.append_assoc, List.singleton_append]

/-- The fields of a SOCKS4 request before its strings. -/
theorem reads_head4 {port' : UInt16}
    (h : Reads ntop6 v host port (.userId port' a b c d 0) bs) :
    Reads ntop6 v host port .greetingHead (head4 port' a b c d ++ bs) := by
  have ports : after ntop6 .port4 (writeU16 port') = .read (.ip4 port') :=
    congrArg (fun p => Next.read (.ip4 p)) (be16_write port')
  rw [head4, List.append_assoc, List.append_assoc]
  exact .more .port4 [4, 1] rfl rfl (.more _ _ rfl ports (.more _ _ rfl rfl h))

/-- The address of a SOCKS5 request and what follows it. -/
theorem reads_address {addr host' : Bytes} {rsv : UInt8} (address : Address ntop6 addr host')
    (h : Reads ntop6 v host port (.port5 host') bs) :
    Reads ntop6 v host port .reqHead ([5, 1, rsv] ++ addr ++ bs) := by
  cases address with
  | @ipv4 a b c d =>
      exact .more .ipv4 [5, 1, rsv, 1] rfl rfl (.more _ [a, b, c, d] rfl rfl h)
  | @domain len name size =>
      refine .more .nameLen [5, 1, rsv, 3] rfl rfl ?_
      by_cases zero : len = 0
      · obtain rfl : host' = [] := List.length_eq_zero_iff.mp (by simpa [zero] using size)
        refine .more (.port5 []) [len] rfl ?_ h
        rw [after_nameLen, if_pos zero]
      · refine .more (.name len) [len] rfl ?_ (.more _ _ size rfl h)
        rw [after_nameLen, if_neg zero]
  | @ipv6 ip6 _ size shown =>
      refine .more .ipv6 [5, 1, rsv, 4] rfl rfl (.more (.port5 host') ip6 size ?_ h)
      rw [after_ipv6, shown]

/-- **Accepted bytes are read to their target.** -/
theorem Accepted.reads (h : Accepted ntop6 v bs host port) :
    Reads ntop6 v host port .greetingHead bs := by
  cases h with
  | @socks4 port a b c d userId user plain scan =>
      refine reads_head4 ?_
      rw [← List.append_nil user]
      refine reads_userId scan.from ?_
      rw [afterUserId, if_neg (by simp [plain])]
      exact ⟨rfl, rfl⟩
  | @socks4a port a b c d userId user domain name named scan scanName some_ =>
      rw [List.append_assoc]
      refine reads_head4 (reads_userId scan.from ?_)
      rw [afterUserId, if_pos named]
      rw [← List.append_nil name]
      refine reads_domain scanName.from ?_
      rw [List.nil_append, afterDomain, if_neg (by simpa using some_)]
      exact ⟨rfl, rfl⟩
  | @socks5 n rsv methods addr host port size address =>
      have ports : after ntop6 (.port5 host) (writeU16 port) = .connect .socks5 host port :=
        congrArg (Next.connect .socks5 host) (be16_write port)
      have request : Reads ntop6 .socks5 host port .reqHead
          ([5, 1, rsv] ++ addr ++ writeU16 port) := reads_address address (.last rfl ports)
      have split : head5 n methods rsv ++ addr ++ writeU16 port =
          [5, n] ++ (methods ++ ([5, 1, rsv] ++ addr ++ writeU16 port)) := by simp [head5]
      rw [split]
      by_cases none : n = 0
      · obtain rfl : methods = [] := List.length_eq_zero_iff.mp (by simpa [none] using size)
        refine .method [5, n] rfl ?_ request
        rw [after_greetingHead, if_neg (by decide), if_neg (by decide), if_pos none]
      · refine .more (.methods n) [5, n] rfl ?_ (.method methods size rfl request)
        rw [after_greetingHead, if_neg (by decide), if_neg (by decide), if_neg none]

end Reading

/-! ### Accepted bytes that are no request -/

section Exact

variable {v : Version} {bs rest host : Bytes} {port : UInt16}

theorem Accepted.request (h : Accepted ntop6 v bs host port) (whole : ¬ CutShort (bs ++ rest)) :
    Request ntop6 bs host port := by
  cases h with
  | socks4 plain scan =>
      cases scan with
      | ended clean short => exact .socks4 plain clean
      | cut clean full => exact absurd (.userId plain clean full) whole
  | socks4a named scan scanName some_ =>
      cases scan with
      | cut clean full => exact absurd (.userId4a named clean full scanName some_) whole
      | ended clean short =>
          cases scanName with
          | ended cleanName shortName => exact .socks4a named clean cleanName some_
          | cut cleanName fullName => exact absurd (.domain named clean short cleanName fullName) whole
  | socks5 size address => exact .socks5 size address

/-- A SOCKS4 request ends with a NUL. -/
theorem Request.ends (h : Request ntop6 bs host port) (four : bs.head? = some 4) :
    bs.getLast? = some 0 := by
  cases h with
  | socks4 | socks4a => simp [← List.append_assoc]
  | socks5 => exact absurd four (by simp [head5])

/-- The address bytes stand at fixed places. -/
theorem head4_inj {port₁ port₂ : UInt16} {a₁ b₁ c₁ d₁ a₂ b₂ c₂ d₂ : UInt8} {tail₁ tail₂ : Bytes}
    (h : head4 port₁ a₁ b₁ c₁ d₁ ++ tail₁ = head4 port₂ a₂ b₂ c₂ d₂ ++ tail₂) :
    is4a a₁ b₁ c₁ d₁ = is4a a₂ b₂ c₂ d₂ ∧ tail₁ = tail₂ := by
  obtain ⟨heads, rfl⟩ := List.append_inj h rfl
  obtain ⟨-, ips⟩ := List.append_inj heads rfl
  cases ips
  exact ⟨rfl, rfl⟩

/-- A SOCKS4a request has two NULs behind its address. -/
theorem Request.two_zeros {a b c d : UInt8} {port' : UInt16} {tail : Bytes}
    (h : Request ntop6 (head4 port' a b c d ++ tail) host port) (named : is4a a b c d = true) :
    2 ≤ tail.count 0 := by
  generalize is : head4 port' a b c d ++ tail = bs at h
  cases h with
  | socks4 plain user =>
      rw [(head4_inj is).1, plain] at named
      cases named
  | socks4a named' user name some_ =>
      rw [List.append_assoc] at is
      rw [(head4_inj is).2]
      simp only [List.count_append, List.count_singleton_self]
      omega
  | socks5 size address => exact absurd (congrArg List.head? is) (by simp [head4, head5])

/-- Bytes without NUL do not end a SOCKS4 request. -/
theorem not_request_of_clean {front text : Bytes} (four : front.head? = some 4) (clean : 0 ∉ text)
    (some_ : text ≠ []) : ¬ Request ntop6 (front ++ text) host port := by
  intro request
  have last := request.ends (by simp [four])
  rw [List.getLast?_append_of_ne_nil _ some_] at last
  exact clean (List.mem_of_getLast? last)

theorem ne_nil_of_full {text : Bytes} (full : text.length = scanLimit) : text ≠ [] := by
  rintro rfl
  exact absurd full (by decide)

/-- **With a string cut short the accepted bytes are no request.** -/
theorem CutShort.accepted (ntop6 : Bytes → Option Bytes) {stream : Bytes} (h : CutShort stream) :
    ∃ v bs rest host port, stream = bs ++ rest ∧ Accepted ntop6 v bs host port ∧
      ¬ Request ntop6 bs host port := by
  cases h with
  | userId plain user full =>
      refine ⟨_, _, _, _, _, rfl, .socks4 plain (.cut user full), ?_⟩
      exact not_request_of_clean rfl user (ne_nil_of_full full)
  | @userId4a port a b c d userId domain name rest named user full scanName some_ =>
      refine ⟨_, _, _, _, _, rfl, .socks4a named (.cut user full) scanName some_, ?_⟩
      cases scanName with
      | ended clean short =>
          -- one NUL where a request has two
          intro request
          rw [List.append_assoc] at request
          have zeros := request.two_zeros named
          have user₀ := List.count_eq_zero_of_not_mem user
          have name₀ := List.count_eq_zero_of_not_mem clean
          simp [List.count_append, user₀, name₀] at zeros
      | cut clean full => exact not_request_of_clean rfl clean some_
  | domain named user short name full =>
      refine ⟨_, _, _, _, _, rfl, .socks4a named (.ended user short) (.cut name full)
        (ne_nil_of_full full), ?_⟩
      exact not_request_of_clean rfl name (ne_nil_of_full full)

end Exact

end TonTunnel.Handler
