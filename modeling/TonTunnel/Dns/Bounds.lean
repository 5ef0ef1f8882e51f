import TonTunnel.Dns.Query
import TonTunnel.Egress.Destinations
import TonTunnel.Lib.DnsMessage

/-!
Which bytes the DNS path of the desktop tunnel touches.

Each function gets an equation without the checks of its accesses, under the bounds that
its callers establish: `parseDnsNameLoop_eq`, `dnsReply_eq`, `datagram_append`,
`handleDnsQuery_eq`, `handlePacket_toPort53`. What is left are two ways for a packet: it
`Asks` for a name that resolves and is answered by `sendDnsReply`, or nothing is written
(`handlePacket_cases`). The reads never leave the packet. The reply buffer has no bound of
its own, and only a short query leaves room for the record (`stays_inside_iff`).
-/

namespace TonTunnel.Dns

open Buffer BigEndian DnsMessage

/-! ### The name -/

section Name

variable {pkt : Bytes} {len off jumps orig : Nat} {jumped : Bool} {out : Bytes}

/-- One turn of the loop, without the checks of its accesses: they are all below `len`. -/
theorem parseDnsNameLoop_eq (room : len ≤ pkt.length) :
    parseDnsNameLoop pkt len off jumps orig jumped out =
      if off < len ∧ jumps < 20 then
        if pkt[off]! = 0 then
          .ok (toInt (((if jumped then off else off + 1 : Nat) : Int) - orig), popDot out)
        else if pkt[off]! &&& 0xC0 = 0xC0 then
          if off + 1 < len ∧ pointerTarget pkt[off]! pkt[off + 1]! < len then
            parseDnsNameLoop pkt len (pointerTarget pkt[off]! pkt[off + 1]!) (jumps + 1)
              (if jumped then orig else off + 2) true out
          else .ok (-1, out)
        else
          parseDnsNameLoop pkt len (off + 1 + min pkt[off]!.toNat (len - (off + 1))) jumps orig
            jumped (out ++ (pkt.drop (off + 1)).take (min pkt[off]!.toNat (len - (off + 1))) ++ [46])
      else .ok (-1, out) := by
  rw [parseDnsNameLoop]
  split
  · next inside =>
      obtain ⟨inMessage, -⟩ := inside
      rw [get_of_lt (by omega : off < pkt.length), ok_bind]
      split
      · rfl
      · split
        · by_cases second : off + 1 < len
          · rw [if_neg (by omega), get_of_lt (by omega : off + 1 < pkt.length), ok_bind]
            show (if pointerTarget pkt[off]! pkt[off + 1]! ≥ len then _ else _) = _
            by_cases target : pointerTarget pkt[off]! pkt[off + 1]! < len
            · rw [if_neg (Nat.not_le.mpr target), if_pos (And.intro second target)]
              rfl
            · rw [if_pos (Nat.not_lt.mp target), if_neg (fun h => target h.2)]
              rfl
          · rw [if_pos (Nat.not_lt.mp second), if_neg (fun h => second h.1)]
            rfl
        · dsimp only
          rw [getSlice_of_le (by omega), ok_bind]
  · rfl

/-- `parseDnsName` reads below `len` only. -/
theorem parseDnsNameLoop_ok (room : len ≤ pkt.length) :
    ∃ result, parseDnsNameLoop pkt len off jumps orig jumped out = .ok result := by
  induction off, jumps, orig, jumped, out using parseDnsNameLoop.induct len with
  | case1 off jumps orig jumped out inside ihJump ihLabel =>
      rw [parseDnsNameLoop_eq room, if_pos inside]
      split
      · exact ⟨_, rfl⟩
      · split
        · split
          · exact ihJump _ _
          · exact ⟨_, rfl⟩
        · exact ihLabel _ _
  | case2 off jumps orig jumped out outside =>
      rw [parseDnsNameLoop_eq room, if_neg outside]
      exact ⟨_, rfl⟩

theorem parseDnsName_ok (room : len ≤ pkt.length) :
    ∃ nameLen host, parseDnsName pkt len off = .ok (nameLen, host) := by
  obtain ⟨⟨nameLen, host⟩, named⟩ := parseDnsNameLoop_ok room
  exact ⟨nameLen, host, named⟩

/-- Only the first `len` bytes matter. -/
theorem parseDnsNameLoop_take (room : len ≤ pkt.length) :
    parseDnsNameLoop (pkt.take len) len off jumps orig jumped out =
      parseDnsNameLoop pkt len off jumps orig jumped out := by
  have room' : len ≤ (pkt.take len).length := by
    rw [List.length_take]
    omega
  have same (i : Nat) (inside : i < len) : (pkt.take len)[i]! = pkt[i]! := by
    rw [List.getElem!_eq_getElem?_getD, List.getElem!_eq_getElem?_getD,
      List.getElem?_take_of_lt inside]
  induction off, jumps, orig, jumped, out using parseDnsNameLoop.induct len with
  | case1 off jumps orig jumped out inside ihJump ihLabel =>
      rw [parseDnsNameLoop_eq room, parseDnsNameLoop_eq room', if_pos inside, if_pos inside,
        same off inside.1]
      split
      · rfl
      · split
        · by_cases second : off + 1 < len
          · rw [same (off + 1) second]
            split
            · exact ihJump _ _
            · rfl
          · rw [if_neg (fun h => second h.1), if_neg (fun h => second h.1)]
        · have label : ((pkt.take len).drop (off + 1)).take
              (min pkt[off]!.toNat (len - (off + 1))) =
              (pkt.drop (off + 1)).take (min pkt[off]!.toNat (len - (off + 1))) := by
            rw [List.drop_take, List.take_take, min_eq_left (min_le_right _ _)]
          rw [label]
          exact ihLabel _ _
  | case2 off jumps orig jumped out outside =>
      rw [parseDnsNameLoop_eq room, parseDnsNameLoop_eq room', if_neg outside, if_neg outside]

end Name

/-! ### The reply -/

section Reply

variable {dnsId : UInt16} {query ipStr : Bytes}

def replyHeader (dnsId : UInt16) : Bytes :=
  writeU16 dnsId ++ [0x81, 0x80, 0, 1, 0, 1, 0, 0, 0, 0]

/-- The A record that `sendDnsReply` appends, its name a pointer to the question's. -/
def answerRecord (addr : UInt32) : Bytes :=
  [0xC0, 12, 0, 1, 0, 1, 0, 0, 0, 60, 0, 4] ++ writeU32 addr

/-- The message that `sendDnsReply` sends. -/
def replyMessage (dnsId : UInt16) (query : Bytes) (addr : UInt32) : Bytes :=
  replyHeader dnsId ++ (query.drop 12 ++ answerRecord addr)

/-- The end of the record. -/
theorem length_behindHeader {addr : UInt32} (whole : 12 ≤ query.length) :
    12 + (query.drop 12 ++ answerRecord addr).length = query.length + 16 := by
  have record : (answerRecord addr).length = 16 := rfl
  rw [List.length_append, List.length_drop, record]
  omega

theorem length_replyMessage {addr : UInt32} (whole : 12 ≤ query.length) :
    (replyMessage dnsId query addr).length = query.length + 16 := by
  rw [replyMessage, List.length_append]
  exact length_behindHeader whole

/-- The header fields, then one write from the question to the end of the record. -/
theorem dnsReply_eq (whole : 12 ≤ query.length) :
    dnsReply dnsId query ipStr =
      (copy (replyHeader dnsId ++ List.replicate 500 0) 12
        (query.drop 12 ++ answerRecord (inetAddr ipStr)) >>=
          fun dns => .ok (dns, query.length + 16)) := by
  have header : store (List.replicate 512 (0 : UInt8))
      [(0, writeU16 dnsId), (2, writeU16 0x8180), (4, writeU16 1), (6, writeU16 1)] =
      .ok (replyHeader dnsId ++ List.replicate 500 0) := by
    have flags : writeU16 0x8180 = [0x81, 0x80] := by decide
    have zeros : List.replicate 512 (0 : UInt8) =
        [0, 0, 0, 0, 0, 0, 0, 0, 0, 0, 0, 0] ++ List.replicate 500 0 := rfl
    rw [flags, writeU16_one, zeros, replyHeader, writeU16]
    generalize List.replicate 500 (0 : UInt8) = rest
    simp [store_cons, store_nil]
  have tail : getSlice query 12 (query.length - 12) = .ok (query.drop 12) := by
    rw [getSlice_of_le (by omega), ← List.length_drop, List.take_length]
  have record (dns : Bytes) : store dns
      [(query.length, [0xC0, 12]), (query.length + 2, [0, 1]), (query.length + 4, [0, 1]),
        (query.length + 6, [0, 0, 0, 60]), (query.length + 10, [0, 4]),
        (query.length + 12, writeU32 (inetAddr ipStr))] =
      copy dns query.length (answerRecord (inetAddr ipStr)) := by
    rw [store_adjacent (by rfl), store_adjacent (by rfl), store_adjacent (by rfl),
      store_adjacent (by rfl), store_adjacent (by rfl), store_singleton]
    rfl
  have start : 12 + (query.drop 12).length = query.length := by
    rw [List.length_drop]
    omega
  rw [dnsReply, header, ok_bind, tail, ok_bind, copy_append, start, bind_assoc]
  simp only [record]
  rfl

theorem dnsReply_of_le (whole : 12 ≤ query.length) (fits : query.length ≤ 496) :
    dnsReply dnsId query ipStr =
      .ok (replyMessage dnsId query (inetAddr ipStr) ++ List.replicate (496 - query.length) 0,
        query.length + 16) := by
  have size := @length_behindHeader query (inetAddr ipStr) whole
  have header : (replyHeader dnsId).length = 12 := rfl
  have room : query.length + 16 ≤ (replyHeader dnsId ++ List.replicate 500 (0 : UInt8)).length := by
    rw [List.length_append, List.length_replicate, header]
    omega
  rw [dnsReply_eq whole, copy_of_le (size ▸ room), ok_bind, size]
  have front : (replyHeader dnsId ++ List.replicate 500 (0 : UInt8)).take 12 = replyHeader dnsId :=
    rfl
  have back : (replyHeader dnsId ++ List.replicate 500 (0 : UInt8)).drop (query.length + 16) =
      List.replicate (496 - query.length) 0 := by
    rw [List.drop_append, header, List.drop_eq_nil_of_le (by rw [header]; omega),
      List.drop_replicate, List.nil_append]
    congr 1
    omega
  rw [front, back, replyMessage, List.append_assoc, List.append_assoc]

theorem dnsReply_overrun (whole : 12 ≤ query.length) (long : 496 < query.length) :
    dnsReply dnsId query ipStr = .error (.write 512) := by
  have size := @length_behindHeader query (inetAddr ipStr) whole
  have buffer : (replyHeader dnsId ++ List.replicate 500 (0 : UInt8)).length = 512 := by
    rw [List.length_append, List.length_replicate]
    rfl
  rw [dnsReply_eq whole, copy_overrun (by omega) (by omega), buffer]
  rfl

def ipHeader (tunIp4 srcIp : UInt32) (total checksum : UInt16) : Bytes :=
  [0x45, 0] ++ writeU16 total ++ [0x30, 0x39, 0x40, 0, 64, 17] ++ writeU16 checksum ++
    writeU32 tunIp4 ++ writeU32 srcIp

def udpHeader (srcPort length : UInt16) : Bytes :=
  [0, 53] ++ writeU16 srcPort ++ writeU16 length ++ [0, 0]

/-- The datagram that `sendDnsReply` sends around a message. -/
def replyDatagram (tunIp4 srcIp : UInt32) (srcPort : UInt16) (message : Bytes) : Bytes :=
  let total := (28 + message.length).toUInt16
  ipHeader tunIp4 srcIp total (ipCsum (ipHeader tunIp4 srcIp total 0)) ++
    (udpHeader srcPort (8 + message.length).toUInt16 ++ message)

section Datagram

variable {tunIp4 srcIp : UInt32} {srcPort total checksum length : UInt16}
  {header message rest : Bytes}

theorem store_ipFields :
    store (List.replicate 28 0 ++ rest)
      [(0, [0x45]), (2, writeU16 total), (4, writeU16 12345), (6, writeU16 0x4000),
        (8, [64]), (9, [17]), (12, writeU32 tunIp4), (16, writeU32 srcIp)] =
      .ok (ipHeader tunIp4 srcIp total 0 ++ (List.replicate 8 0 ++ rest)) := by
  have id : writeU16 12345 = [0x30, 0x39] := by decide
  have flags : writeU16 0x4000 = [0x40, 0] := by decide
  rw [id, flags, ipHeader, writeU16_zero, writeU16, writeU32, writeU32]
  simp [store_cons, store_nil, List.replicate]

theorem copy_checksum :
    copy (ipHeader tunIp4 srcIp total 0 ++ rest) 10 (writeU16 checksum) =
      .ok (ipHeader tunIp4 srcIp total checksum ++ rest) := by
  simp only [ipHeader, List.append_assoc]
  rw [← List.append_assoc, ← List.append_assoc, copy_between (by rfl) (by rfl),
    List.append_assoc, List.append_assoc]

theorem store_udpFields (size : header.length = 20) :
    store (header ++ (List.replicate 8 0 ++ rest))
      [(20, writeU16 53), (22, writeU16 srcPort), (24, writeU16 length), (26, writeU16 0)] =
      .ok (header ++ (udpHeader srcPort length ++ rest)) := by
  have port : writeU16 53 = [0, 53] := by decide
  rw [store_adjacent (by rfl), store_adjacent (by rfl), store_adjacent (by rfl), store_singleton,
    port, writeU16_zero]
  exact copy_between size.symm rfl

theorem datagram_append :
    datagram tunIp4 srcIp srcPort (message ++ rest) message.length =
      .ok (replyDatagram tunIp4 srcIp srcPort message) := by
  have whole : getSlice (message ++ rest) 0 message.length = .ok message := by
    rw [getSlice_of_le (by simp), List.drop_zero, List.take_left]
  have zeros : List.replicate (20 + 8 + message.length) (0 : UInt8) =
      List.replicate 28 0 ++ List.replicate message.length 0 := by
    rw [← List.replicate_add]
  have front (total : UInt16) (tail : Bytes) :
      getSlice (ipHeader tunIp4 srcIp total 0 ++ tail) 0 20 =
        .ok (ipHeader tunIp4 srcIp total 0) := by
    have size : (ipHeader tunIp4 srcIp total 0).length = 20 := rfl
    rw [getSlice_of_le (by rw [List.length_append]; omega), List.drop_zero, ← size,
      List.take_left]
  rw [datagram, zeros, store_ipFields, ok_bind, front, ok_bind, copy_checksum, ok_bind,
    store_udpFields rfl, ok_bind, whole, ok_bind, ← List.append_assoc, ← List.append_nil (_ ++ _),
    List.append_assoc _ _ [], copy_between (by rfl) (by simp), replyDatagram, List.append_nil,
    List.append_assoc]

end Datagram

theorem sendDnsReply_of_le {tunIp4 srcIp : UInt32} {srcPort : UInt16}
    (whole : 12 ≤ query.length) (fits : query.length ≤ 496) :
    sendDnsReply tunIp4 srcIp srcPort dnsId query ipStr =
      .ok (.replied (replyDatagram tunIp4 srcIp srcPort
        (replyMessage dnsId query (inetAddr ipStr)))) := by
  have size := @length_replyMessage dnsId query (inetAddr ipStr) whole
  rw [sendDnsReply, dnsReply_of_le whole fits, ok_bind, ← size]
  dsimp only
  rw [datagram_append]
  rfl

theorem sendDnsReply_overrun {tunIp4 srcIp : UInt32} {srcPort : UInt16}
    (long : 496 < query.length) :
    sendDnsReply tunIp4 srcIp srcPort dnsId query ipStr = .error (.write 512) := by
  rw [sendDnsReply, dnsReply_overrun (by omega) long]
  rfl

end Reply

/-! ### Packets -/

section Packets

/-- `headerLength()` of a packet's IPv4 header. -/
def ihl (data : Bytes) : Nat :=
  (data[0]! &&& 0x0F).toNat * 4

def totalLength (data : Bytes) : Nat :=
  (be16 data[2]! data[3]!).toNat

def srcAddr (data : Bytes) : UInt32 :=
  be32 data[12]! data[13]! data[14]! data[15]!

def dstAddr (data : Bytes) : UInt32 :=
  be32 data[16]! data[17]! data[18]! data[19]!

def srcPort (data : Bytes) : UInt16 :=
  be16 data[ihl data]! data[ihl data + 1]!

def dstPort (data : Bytes) : UInt16 :=
  be16 data[ihl data + 2]! data[ihl data + 2 + 1]!

/-- What a UDP packet carries. -/
def dnsMessage (data : Bytes) : Bytes :=
  slice data (ihl data + 8) (totalLength data)

def queryId (data : Bytes) : UInt16 :=
  be16 (dnsMessage data)[0]! (dnsMessage data)[1]!

/-- A UDP packet to port 53 with headers that add up. -/
structure ToPort53 (data : Bytes) : Prop where
  header : 20 ≤ ihl data
  udp : ihl data + 8 ≤ totalLength data
  whole : totalLength data ≤ data.length
  protocol : data[9]! = 17
  port : dstPort data = 53

/-- The packet is a DNS query with one question, and `parseDnsName` finds this name in it. -/
structure Asks (data host : Bytes) : Prop extends ToPort53 data where
  sized : 12 ≤ (dnsMessage data).length
  single : be16 (dnsMessage data)[4]! (dnsMessage data)[4 + 1]! = 1
  named : ∃ nameLen, 0 ≤ nameLen ∧
    parseDnsName (dnsMessage data) (dnsMessage data).length 12 = .ok (nameLen, host)
  nonempty : host ≠ []

variable {getaddrinfo : Bytes → List UInt32} {tunIp4 : UInt32} {data host : Bytes}

theorem headerLength_of_lt (inside : 0 < data.length) : headerLength data = .ok (ihl data) := by
  rw [headerLength, get_of_lt inside]
  rfl

theorem ToPort53.length_dnsMessage (h : ToPort53 data) :
    (dnsMessage data).length = totalLength data - (ihl data + 8) :=
  length_slice h.udp h.whole

theorem handlePacket_toPort53 (h : ToPort53 data) :
    handlePacket getaddrinfo tunIp4 data =
      handleDnsQuery getaddrinfo tunIp4 data (totalLength data) (srcAddr data) (srcPort data)
        (dstAddr data) (dstPort data) := by
  obtain ⟨header, udp, whole, protocol, port⟩ := h
  rw [handlePacket, if_neg (by omega), headerLength_of_lt (by omega), ok_bind,
    get16_of_lt (by omega), ok_bind]
  change (if ihl data < 20 ∨ totalLength data < ihl data ∨ totalLength data > data.length
    then _ else _) = _
  rw [if_neg (by omega), get_of_lt (by omega), ok_bind, protocol]
  change (if totalLength data < ihl data + 8 then _ else _) = _
  rw [if_neg (by omega), get16_of_lt (by omega), ok_bind]
  change (if dstPort data = 53 then _ else _) = _
  rw [if_pos port, get32_of_lt (by omega), ok_bind, get16_of_lt (by omega), ok_bind,
    get32_of_lt (by omega), ok_bind, ok_bind]
  rfl

/-- Every other packet is dropped or goes to lwIP, and nothing outside it is read. -/
theorem handlePacket_other (other : ¬ ToPort53 data) :
    ∃ handled, handlePacket getaddrinfo tunIp4 data = .ok handled ∧
      ∀ packet, handled ≠ .replied packet := by
  rw [handlePacket]
  split
  · exact ⟨_, rfl, nofun⟩
  · rw [headerLength_of_lt (by omega), ok_bind, get16_of_lt (by omega), ok_bind]
    change ∃ handled, (if ihl data < 20 ∨ totalLength data < ihl data ∨
      totalLength data > data.length then _ else _) = _ ∧ _
    split
    · exact ⟨_, rfl, nofun⟩
    · rw [get_of_lt (by omega), ok_bind]
      split
      · rw [getSlice_of_le (by change 0 + totalLength data ≤ _; omega), ok_bind]
        exact ⟨_, rfl, nofun⟩
      · rw [getSlice_of_le (by change 0 + totalLength data ≤ _; omega), ok_bind]
        exact ⟨_, rfl, nofun⟩
      · next protocol =>
          change ∃ handled, (if totalLength data < ihl data + 8 then _ else _) = _ ∧ _
          split
          · exact ⟨_, rfl, nofun⟩
          · have far : dstPort data ≠ 53 := by
              intro port
              exact other
                { header := by omega, udp := by omega, whole := by omega, protocol, port }
            rw [get16_of_lt (by omega), ok_bind]
            change ∃ handled, (if dstPort data = 53 then _ else _) = _ ∧ _
            rw [if_neg far]
            exact ⟨_, rfl, nofun⟩
      · exact ⟨_, rfl, nofun⟩

theorem resolveHost_eq : resolveHost getaddrinfo host =
    (getaddrinfo (cString host)).map dotted := by
  rw [resolveHost, List.filterMap_congr (fun addr _ => inetNtop_eq addr)]
  exact congrFun List.filterMap_eq_map _

section Query

variable {srcIp dstIp : UInt32} {port port' : UInt16}

/-- The bytes of the message, as `handleDnsQuery` finds them in the packet. -/
theorem ToPort53.get_dnsMessage (h : ToPort53 data) {i : Nat}
    (inside : i < (dnsMessage data).length) :
    (data.drop (ihl data + 8))[i]! = (dnsMessage data)[i]! := by
  rw [h.length_dnsMessage] at inside
  rw [dnsMessage, slice, List.getElem!_eq_getElem?_getD, List.getElem!_eq_getElem?_getD,
    List.getElem?_take_of_lt inside]

/-- `handleDnsQuery` without the checks of its accesses. -/
theorem handleDnsQuery_eq (h : ToPort53 data) (sized : 12 ≤ (dnsMessage data).length)
    {nameLen : Int}
    (named : parseDnsName (dnsMessage data) (dnsMessage data).length 12 = .ok (nameLen, host)) :
    handleDnsQuery getaddrinfo tunIp4 data (totalLength data) srcIp port dstIp port' =
      if be16 (dnsMessage data)[4]! (dnsMessage data)[4 + 1]! ≠ 1 ∨ nameLen < 0 ∨ host = [] then
        .ok .dropped
      else
        match getaddrinfo (cString host) with
        | [] => .ok .dropped
        | addr :: _ =>
            sendDnsReply tunIp4 srcIp port (queryId data) (dnsMessage data) (dotted addr) := by
  have length_eq := h.length_dnsMessage
  have byte {i : Nat} := h.get_dnsMessage (i := i)
  obtain ⟨header, udp, whole, -, -⟩ := h
  have room : (dnsMessage data).length ≤ (data.drop (ihl data + 8)).length := by
    rw [List.length_drop]
    omega
  have size : totalLength data - ihl data - 8 = (dnsMessage data).length := by omega
  have message : (data.drop (ihl data + 8)).take (dnsMessage data).length = dnsMessage data := by
    rw [length_eq]
    rfl
  have name : parseDnsName (data.drop (ihl data + 8)) (dnsMessage data).length 12 =
      parseDnsName (dnsMessage data) (dnsMessage data).length 12 := by
    rw [parseDnsName, ← parseDnsNameLoop_take room, message, parseDnsName]
  rw [handleDnsQuery, headerLength_of_lt (by omega), ok_bind]
  dsimp only
  rw [size, if_neg (by omega), get16_of_lt (by omega), ok_bind, get16_of_lt (by omega), ok_bind,
    byte (by omega), byte (by omega), byte (by omega), byte (by omega), name, named, ok_bind,
    getSlice_of_le (by omega), List.drop_zero, message, resolveHost_eq]
  by_cases single : be16 (dnsMessage data)[4]! (dnsMessage data)[4 + 1]! = 1
  · by_cases unnamed : nameLen < 0 ∨ host = []
    · rw [if_neg (not_not_intro single), if_pos (Or.inr unnamed)]
      exact if_pos unnamed
    · rw [if_neg (not_not_intro single), if_neg (not_or.mpr ⟨not_not_intro single, unnamed⟩)]
      refine (if_neg unnamed).trans ?_
      cases getaddrinfo (cString host) with
      | nil => rfl
      | cons addr rest => exact ok_bind (dnsMessage data) _
  · rw [if_pos single, if_pos (Or.inl single)]
    rfl

end Query

theorem handlePacket_asks {addr : UInt32} {rest : List UInt32} (asks : Asks data host)
    (found : getaddrinfo (cString host) = addr :: rest) :
    handlePacket getaddrinfo tunIp4 data =
      sendDnsReply tunIp4 (srcAddr data) (srcPort data) (queryId data) (dnsMessage data)
        (dotted addr) := by
  obtain ⟨nameLen, nonneg, named⟩ := asks.named
  have goes : ¬ (be16 (dnsMessage data)[4]! (dnsMessage data)[4 + 1]! ≠ 1 ∨ nameLen < 0 ∨
      host = []) := by
    rintro (several | negative | empty)
    · exact several asks.single
    · omega
    · exact asks.nonempty empty
  rw [handlePacket_toPort53 asks.toToPort53, handleDnsQuery_eq asks.toToPort53 asks.sized named,
    if_neg goes, found]

/-- A packet without an answer is dropped or goes to lwIP. -/
theorem handlePacket_mute (mute : ∀ host, Asks data host → getaddrinfo (cString host) = []) :
    ∃ handled, handlePacket getaddrinfo tunIp4 data = .ok handled ∧
      ∀ packet, handled ≠ .replied packet := by
  by_cases toPort53 : ToPort53 data
  · rw [handlePacket_toPort53 toPort53]
    by_cases sized : 12 ≤ (dnsMessage data).length
    · obtain ⟨nameLen, host, named⟩ := parseDnsName_ok (le_refl (dnsMessage data).length)
      rw [handleDnsQuery_eq toPort53 sized named]
      split
      · exact ⟨_, rfl, nofun⟩
      · next goes =>
          rw [not_or, not_or, not_not, not_lt] at goes
          obtain ⟨single, nonneg, nonempty⟩ := goes
          have asks : Asks data host :=
            { toPort53 with sized, single, named := ⟨nameLen, nonneg, named⟩, nonempty }
          rw [mute host asks]
          exact ⟨_, rfl, nofun⟩
    · have short : totalLength data - ihl data - 8 < 12 := by
        have := toPort53.length_dnsMessage
        omega
      have := toPort53.header
      have := toPort53.whole
      have := toPort53.udp
      rw [handleDnsQuery, headerLength_of_lt (by omega), ok_bind]
      exact ⟨_, if_pos short, nofun⟩
  · exact handlePacket_other toPort53

/-- The two ways for a packet: an answer is sent, or nothing is written. -/
theorem handlePacket_cases (getaddrinfo : Bytes → List UInt32) (tunIp4 : UInt32) (data : Bytes) :
    (∃ host addr rest, Asks data host ∧ getaddrinfo (cString host) = addr :: rest ∧
      handlePacket getaddrinfo tunIp4 data =
        sendDnsReply tunIp4 (srcAddr data) (srcPort data) (queryId data) (dnsMessage data)
          (dotted addr)) ∨
    (∀ host, Asks data host → getaddrinfo (cString host) = []) ∧
      ∃ handled, handlePacket getaddrinfo tunIp4 data = .ok handled ∧
        ∀ packet, handled ≠ .replied packet := by
  by_cases answered : ∃ host, Asks data host ∧ getaddrinfo (cString host) ≠ []
  · obtain ⟨host, asks, found⟩ := answered
    obtain ⟨addr, rest, found⟩ := List.exists_cons_of_ne_nil found
    exact Or.inl ⟨host, addr, rest, asks, found, handlePacket_asks asks found⟩
  · push Not at answered
    exact Or.inr ⟨answered, handlePacket_mute answered⟩

/-- Every reply is this datagram, for a name that the packet asks for. -/
theorem handlePacket_replied {packet : Bytes}
    (replied : handlePacket getaddrinfo tunIp4 data = .ok (.replied packet)) :
    ∃ host addr rest, Asks data host ∧ getaddrinfo (cString host) = addr :: rest ∧
      (dnsMessage data).length ≤ 496 ∧
      packet = replyDatagram tunIp4 (srcAddr data) (srcPort data)
        (replyMessage (queryId data) (dnsMessage data) (inetAddr (dotted addr))) := by
  rcases handlePacket_cases getaddrinfo tunIp4 data with
    ⟨host, addr, rest, asks, found, sends⟩ | ⟨-, handled, quiet, other⟩
  · rw [sends] at replied
    by_cases fits : (dnsMessage data).length ≤ 496
    · rw [sendDnsReply_of_le asks.sized fits] at replied
      cases replied
      exact ⟨host, addr, rest, asks, found, fits, rfl⟩
    · rw [sendDnsReply_overrun (by omega)] at replied
      cases replied
  · rw [quiet] at replied
    exact absurd (Except.ok.inj replied) (other packet)

/-- **The reply buffer holds the answers to short queries.** No packet makes the DNS path
read outside it. The reply buffer has 512 bytes and the record needs 16, so the writes
stay inside exactly when no query of more than 496 bytes is answered. -/
theorem stays_inside_iff (getaddrinfo : Bytes → List UInt32) (tunIp4 : UInt32) (data : Bytes) :
    (∀ i, handlePacket getaddrinfo tunIp4 data ≠ .error (.read i)) ∧
      ((∃ handled, handlePacket getaddrinfo tunIp4 data = .ok handled) ↔
        ∀ host, Asks data host → getaddrinfo (cString host) ≠ [] →
          (dnsMessage data).length ≤ 496) := by
  rcases handlePacket_cases getaddrinfo tunIp4 data with
    ⟨host, addr, rest, asks, found, sends⟩ | ⟨unanswered, handled, quiet, -⟩
  · rw [sends]
    by_cases fits : (dnsMessage data).length ≤ 496
    · rw [sendDnsReply_of_le asks.sized fits]
      exact ⟨nofun, fun _ _ _ _ => fits, fun _ => ⟨_, rfl⟩⟩
    · rw [sendDnsReply_overrun (by omega)]
      refine ⟨nofun, nofun, ?_⟩
      intro short
      exact absurd (short host asks (by rw [found]; exact List.cons_ne_nil _ _)) fits
  · rw [quiet]
    refine ⟨nofun, ?_, fun _ => ⟨_, rfl⟩⟩
    rintro - host asks found
    exact absurd (unanswered host asks) found

/-- A packet with this message from port 49152 of 10.0.0.2 to port 53 of 10.0.0.1. -/
def queryPacket (message : Bytes) : Bytes :=
  [0x45, 0] ++ writeU16 (28 + message.length).toUInt16 ++
    [0, 0, 0, 0, 64, 17, 0, 0, 10, 0, 0, 2, 10, 0, 0, 1] ++
    ([0xC0, 0, 0, 53] ++ writeU16 (8 + message.length).toUInt16 ++ [0, 0]) ++ message

theorem queryPacket_toPort53 {message : Bytes} (small : 28 + message.length < 65536) :
    ToPort53 (queryPacket message) ∧ dnsMessage (queryPacket message) = message := by
  have first : (queryPacket message)[0]! = 0x45 := rfl
  have ihl_eq : ihl (queryPacket message) = 20 := by
    rw [ihl, first]
    decide
  have length_eq : (queryPacket message).length = 28 + message.length := by
    simp [queryPacket]
    omega
  have total_eq : totalLength (queryPacket message) = 28 + message.length := by
    have total := be16_write (28 + message.length).toUInt16
    change be16 (queryPacket message)[2]! (queryPacket message)[3]! = _ at total
    rw [totalLength, total]
    exact UInt16.toNat_ofNat_of_lt small
  have port : dstPort (queryPacket message) = 53 := by
    rw [dstPort, ihl_eq]
    change be16 0 53 = 53
    decide
  refine ⟨⟨?_, ?_, ?_, rfl, port⟩, ?_⟩
  · omega
  · omega
  · omega
  · rw [dnsMessage, slice, ihl_eq, total_eq, Nat.add_sub_cancel_left]
    exact List.take_length

/-- A query for the records of this type of `a`, with further records behind the question. -/
def queryForA (qtype arcount : UInt8) (records : Bytes) : Bytes :=
  [0, 7, 1, 0, 0, 1, 0, 0, 0, 0, 0, arcount] ++ ([1, 97, 0, 0, qtype, 0, 1] ++ records)

theorem length_queryForA {qtype arcount : UInt8} {records : Bytes} :
    (queryForA qtype arcount records).length = 19 + records.length := by
  rw [queryForA, List.length_append, List.length_append, ← Nat.add_assoc]
  rfl

theorem queryForA_asks {qtype arcount : UInt8} {records : Bytes} (small : records.length < 60000) :
    Asks (queryPacket (queryForA qtype arcount records)) (ascii "a") := by
  have size := @length_queryForA qtype arcount records
  obtain ⟨toPort53, message⟩ :=
    @queryPacket_toPort53 (queryForA qtype arcount records) (by omega)
  generalize written : queryForA qtype arcount records = query at *
  have label : parseDnsName query query.length 12 =
      parseDnsNameLoop query query.length 14 0 12 false [97, 46] := by
    have letter : query[12]! = 1 := by rw [← written]; rfl
    have text : (query.drop 13).take 1 = [97] := by rw [← written]; rfl
    have one : min (1 : UInt8).toNat (query.length - 13) = 1 := by
      change min 1 (query.length - 13) = 1
      omega
    rw [parseDnsName, parseDnsNameLoop_eq le_rfl, if_pos (by omega), letter, if_neg (by decide),
      if_neg (by decide), one, text]
    rfl
  have root : parseDnsNameLoop query query.length 14 0 12 false [97, 46] =
      .ok (3, ascii "a") := by
    have zero : query[14]! = 0 := by rw [← written]; rfl
    rw [parseDnsNameLoop_eq le_rfl, if_pos (by omega), if_pos zero]
    rfl
  have single : be16 query[4]! query[4 + 1]! = 1 := by
    rw [← written]
    change be16 0 1 = 1
    decide
  refine { toPort53 with sized := ?_, single := ?_, named := ⟨3, by decide, ?_⟩, nonempty := ?_ }
  · rw [message]
    omega
  · rw [message, single]
  · rw [message, label, root]
  · decide

/-- A query of 497 bytes, with an EDNS record of padding. -/
def paddedQuery : Bytes :=
  queryForA 1 1 ([0, 0, 41, 16, 0, 0, 0, 0, 0, 1, 211, 0, 12, 1, 207] ++ List.replicate 463 0)

theorem length_paddedQuery : paddedQuery.length = 497 := by
  rw [paddedQuery, length_queryForA, List.length_append, List.length_replicate]
  rfl

/-- The reply to it is written past the end of the buffer. -/
theorem padded_query_overruns :
    handlePacket (fun _ => [0x5DB8D822]) 0x0A000001 (queryPacket paddedQuery) =
      .error (.write 512) := by
  have size := length_paddedQuery
  obtain ⟨-, message⟩ := @queryPacket_toPort53 paddedQuery (by omega)
  have asks : Asks (queryPacket paddedQuery) (ascii "a") := by
    apply queryForA_asks
    rw [List.length_append, List.length_replicate]
    decide
  rw [handlePacket_asks asks rfl, message]
  exact sendDnsReply_overrun (by omega)

end Packets

end TonTunnel.Dns
