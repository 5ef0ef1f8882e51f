import TonTunnel.Lib.Buffer
import TonTunnel.Egress.Policy

/-!
The DNS path of the desktop tunnel: `handlePacket`, `handleDnsQuery`, `parseDnsName`,
`buildDnsName` and `sendDnsReply` of `WintunLwipBridge`.

Every access goes through `Buffer`, so a model that returns has touched no byte outside
the packet, the 512 bytes of the reply buffer or the datagram. A pointer into the
packet (`data + ihl`, `dnsStart`) is the packet from there on. `getaddrinfo` is a
parameter: the IPv4 addresses it finds for a C string, none where it fails.
-/

namespace TonTunnel.Dns

open Buffer BigEndian

/-- What `handlePacket` hands on. -/
inductive Handled where
  | dropped
  /-- the argument of `feedPacketToLwip` -/
  | lwip (packet : Bytes)
  /-- the argument of `writeTunPacket` -/
  | replied (packet : Bytes)
  deriving DecidableEq, Repr

/-! ### Names -/

/-- `if (!out.empty() && out.back()=='.') out.pop_back()`. -/
def popDot (out : Bytes) : Bytes :=
  if out.getLast? = some 46 then out.dropLast else out

/-- The cast of a difference of `size_t` to `int`: what its lower 32 bits are worth. -/
def toInt (difference : Int) : Int :=
  difference.bmod (2 ^ 32)

/-- The loop of `parseDnsName`. The first result is the returned `int`, the second the
name. -/
def parseDnsNameLoop (pkt : Bytes) (len off jumps orig : Nat) (jumped : Bool) (out : Bytes) :
    Except Fault (Int × Bytes) :=
  if off < len ∧ jumps < 20 then do
    let l ← get pkt off
    if l = 0 then
      let off := if jumped then off else off + 1
      return (toInt ((off : Int) - orig), popDot out)
    else if l &&& 0xC0 = 0xC0 then
      if off + 1 ≥ len then
        return (-1, out)
      else
        let ptr := (be16 (l &&& 0x3F) (← get pkt (off + 1))).toNat
        if ptr ≥ len then
          return (-1, out)
        else
          parseDnsNameLoop pkt len ptr (jumps + 1) (if jumped then orig else off + 2) true out
    else
      -- the inner loop stops after `l` bytes or at `len`
      let n := min l.toNat (len - (off + 1))
      let label ← getSlice pkt (off + 1) n
      parseDnsNameLoop pkt len (off + 1 + n) jumps orig jumped (out ++ label ++ [46])
  else
    return (-1, out)
termination_by (20 - jumps, len - off)

def parseDnsName (pkt : Bytes) (len off : Nat) : Except Fault (Int × Bytes) :=
  parseDnsNameLoop pkt len off 0 off false []

/-- The loop of `buildDnsName` on what is left of the name. -/
def buildDnsLabels (name : Bytes) : Bytes :=
  if name = [] then []
  else
    let label := name.takeWhile (· ≠ 46)
    label.length.toUInt8 :: label ++ buildDnsLabels (name.drop (label.length + 1))
termination_by name.length
decreasing_by
  have := List.length_pos_of_ne_nil ‹name ≠ []›
  rw [List.length_drop]
  omega

def buildDnsName (name : Bytes) : Bytes :=
  buildDnsLabels name ++ [0]

/-! ### Addresses -/

def resolveHost (getaddrinfo : Bytes → List UInt32) (host : Bytes) : List Bytes :=
  (getaddrinfo (cString host)).filterMap inetNtop

/-- The value of a digit in C's notations of a number. -/
def digitValue (c : UInt8) : Nat :=
  if 48 ≤ c ∧ c ≤ 57 then (c - 48).toNat
  else if 97 ≤ c ∧ c ≤ 102 then (c - 87).toNat
  else if 65 ≤ c ∧ c ≤ 70 then (c - 55).toNat
  else 16

/-- A non-empty row of digits of the base. -/
def inetDigits (base : Nat) (s : Bytes) : Option Nat :=
  if s ≠ [] ∧ s.all (fun c => digitValue c < base) then
    some (s.foldl (fun acc c => acc * base + digitValue c) 0)
  else none

/-- One part of an address: decimal, octal behind a 0 or hexadecimal behind 0x. -/
def inetPart (s : Bytes) : Option Nat :=
  match s with
  | 48 :: 120 :: digits => inetDigits 16 digits
  | 48 :: 88 :: digits => inetDigits 16 digits
  | 48 :: digits => inetDigits 8 (48 :: digits)
  | digits => inetDigits 10 digits

/-- `inet_addr`, as the number that the four bytes are in network order: one to four
parts, where the last one fills the bytes that are left. Anything else is `INADDR_NONE`. -/
def inetAddr (cp : Bytes) : UInt32 :=
  match ((cString cp).splitOn 46).mapM inetPart with
  | some [d] => if d < 2 ^ 32 then d.toUInt32 else 0xFFFFFFFF
  | some [a, d] => if a < 256 ∧ d < 2 ^ 24 then (a * 2 ^ 24 + d).toUInt32 else 0xFFFFFFFF
  | some [a, b, d] =>
      if a < 256 ∧ b < 256 ∧ d < 2 ^ 16 then (a * 2 ^ 24 + b * 2 ^ 16 + d).toUInt32
      else 0xFFFFFFFF
  | some [a, b, c, d] =>
      if a < 256 ∧ b < 256 ∧ c < 256 ∧ d < 256 then
        (a * 2 ^ 24 + b * 2 ^ 16 + c * 2 ^ 8 + d).toUInt32
      else 0xFFFFFFFF
  | _ => 0xFFFFFFFF

example : inetAddr (ascii "192.168.0.1") = 0xC0A80001 := by decide

example : inetAddr (ascii "0300.0xA8.1") = 0xC0A80001 := by decide

/-! ### The reply -/

/-- The sum of `ipCsum` over the 16-bit words of the data, with the carry added back. -/
def ipCsumLoop (sum : UInt32) : Bytes → UInt32
  | a :: b :: rest =>
      let sum := sum + (be16 a b).toUInt32
      ipCsumLoop (if sum > 0xFFFF then sum - 0xFFFF else sum) rest
  | [a] =>
      let sum := sum + (be16 a 0).toUInt32
      if sum > 0xFFFF then sum - 0xFFFF else sum
  | [] => sum

def ipCsum (data : Bytes) : UInt16 :=
  (~~~(ipCsumLoop 0 data) &&& 0xFFFF).toUInt16

/-- The first half of `sendDnsReply`: the 512-byte `dns` buffer and `dnsSize`. -/
def dnsReply (dnsId : UInt16) (query ipStr : Bytes) : Except Fault (Bytes × Nat) := do
  let dns : Bytes := List.replicate 512 0
  -- id, flags (QR+RD+RA), qdcount and ancount
  let dns ← store dns
    [(0, writeU16 dnsId), (2, writeU16 0x8180), (4, writeU16 1), (6, writeU16 1)]
  let dns ← copy dns 12 (← getSlice query 12 (query.length - 12))
  let qTail := query.length
  -- the name, TYPE=A, CLASS=IN, TTL=60, RDLENGTH=4 and the address
  let dns ← store dns
    [(qTail, [0xC0, 12]), (qTail + 2, [0, 1]), (qTail + 4, [0, 1]),
      (qTail + 6, [0, 0, 0, 60]), (qTail + 10, [0, 4]), (qTail + 12, writeU32 (inetAddr ipStr))]
  return (dns, qTail + 16)

/-- The second half of `sendDnsReply`: the datagram around the first `dnsSize` bytes of
`dns`. -/
def datagram (tunIp4 srcIp : UInt32) (srcPort : UInt16) (dns : Bytes) (dnsSize : Nat) :
    Except Fault Bytes := do
  let totalLen := 20 + 8 + dnsSize
  let pkt : Bytes := List.replicate totalLen 0
  let pkt ← store pkt
    [(0, [0x45]), (2, writeU16 totalLen.toUInt16), (4, writeU16 12345), (6, writeU16 0x4000),
      (8, [64]), (9, [17]), (12, writeU32 tunIp4), (16, writeU32 srcIp)]
  let pkt ← copy pkt 10 (writeU16 (ipCsum (← getSlice pkt 0 20)))
  let pkt ← store pkt
    [(20, writeU16 53), (22, writeU16 srcPort), (24, writeU16 (8 + dnsSize).toUInt16),
      (26, writeU16 0)]
  copy pkt 28 (← getSlice dns 0 dnsSize)

def sendDnsReply (tunIp4 srcIp : UInt32) (srcPort dnsId : UInt16) (query ipStr : Bytes) :
    Except Fault Handled := do
  let (dns, dnsSize) ← dnsReply dnsId query ipStr
  return .replied (← datagram tunIp4 srcIp srcPort dns dnsSize)

/-! ### Packets -/

section Packets

variable (getaddrinfo : Bytes → List UInt32) (tunIp4 : UInt32)

/-- `Ipv4HeaderPacked::headerLength`. -/
def headerLength (data : Bytes) : Except Fault Nat := do
  return ((← get data 0) &&& 0x0F).toNat * 4

/-- The caller has checked `total ≥ ihl + 8`, so the subtraction does not wrap. The last
two parameters have no name in the source either. -/
def handleDnsQuery (data : Bytes) (total : Nat) (srcIp : UInt32) (srcPort : UInt16)
    (_ : UInt32) (_ : UInt16) : Except Fault Handled := do
  let ihl ← headerLength data
  let dnsStart := data.drop (ihl + 8)
  let dnsLen := total - ihl - 8
  if dnsLen < 12 then
    return .dropped
  else
    let dnsId ← get16 dnsStart 0
    if (← get16 dnsStart 4) ≠ 1 then
      return .dropped
    else
      let (nameLen, host) ← parseDnsName dnsStart dnsLen 12
      if nameLen < 0 ∨ host = [] then
        return .dropped
      else
        match resolveHost getaddrinfo host with
        | [] => return .dropped
        | ip :: _ =>
            let queryData ← getSlice dnsStart 0 dnsLen
            sendDnsReply tunIp4 srcIp srcPort dnsId queryData ip

def handlePacket (data : Bytes) : Except Fault Handled := do
  if data.length < 20 then
    return .dropped
  else
    let ihl ← headerLength data
    let total := (← get16 data 2).toNat
    if ihl < 20 ∨ total < ihl ∨ total > data.length then
      return .dropped
    else
      match ← get data 9 with
      | 1 | 6 => return .lwip (← getSlice data 0 total)
      | 17 =>
          if total < ihl + 8 then
            return .dropped
          else if (← get16 data (ihl + 2)) = 53 then
            handleDnsQuery getaddrinfo tunIp4 data total (← get32 data 12) (← get16 data ihl)
              (← get32 data 16) (← get16 data (ihl + 2))
          else
            return .dropped
      | _ => return .dropped

end Packets

end TonTunnel.Dns
