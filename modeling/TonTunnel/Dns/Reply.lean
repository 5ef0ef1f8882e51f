import TonTunnel.Dns.Bounds
import TonTunnel.Dns.Checksum

/-!
What the replies of the desktop tunnel say.

* The address survives its way through the text: `inet_addr` undoes `inet_ntop`
  (`inetAddr_dotted`).
* The datagram is well formed and goes back to the sender (`isUdp_replyDatagram`); its
  checksum is what the words of its header lack (`ipCsum_spec`).
* The name that is resolved is the name of the question (`Asks.host_eq`).
* The reply is the query behind a new header, and one record. With the header's counts
  that is a message exactly when the query has no record itself (`right_reply_iff`).
-/

namespace TonTunnel.Dns

open BigEndian Datagram DnsMessage

/-! ### The address -/

theorem inetPart_octet : ∀ n < 256, inetPart (toString10 n) = some n := by
  decide +kernel

theorem dot_notMem_octet : ∀ n < 256, (46 : UInt8) ∉ toString10 n := by
  decide +kernel

/-- `inet_addr` reads back what `inet_ntop` wrote. -/
theorem inetAddr_dotted (addr : UInt32) : inetAddr (dotted addr) = addr := by
  have byte (k : Nat) : addr.toNat / 2 ^ k % 256 < 256 := Nat.mod_lt _ (by decide)
  have text (k : Nat) := inetPart_octet _ (byte k)
  have parts : (dotted addr).splitOn 46 =
      [24, 16, 8, 0].map fun k => toString10 (addr.toNat / 2 ^ k % 256) := by
    have joined : dotted addr = [46].intercalate
        ([24, 16, 8, 0].map fun k => toString10 (addr.toNat / 2 ^ k % 256)) := by
      simp [dotted, List.intercalate, List.intersperse]
    rw [joined]
    apply List.splitOn_intercalate 46
    · intro part mem
      obtain ⟨k, -, rfl⟩ := List.mem_map.mp mem
      exact dot_notMem_octet _ (byte k)
    · exact List.cons_ne_nil _ _
  have value : addr.toNat / 2 ^ 24 % 256 * 2 ^ 24 + addr.toNat / 2 ^ 16 % 256 * 2 ^ 16 +
      addr.toNat / 2 ^ 8 % 256 * 2 ^ 8 + addr.toNat / 2 ^ 0 % 256 = addr.toNat := by
    have := addr.toNat_lt
    omega
  rw [inetAddr, cString_dotted, parts]
  simp only [List.map_cons, List.map_nil, List.mapM_cons, List.mapM_nil, text, Option.pure_def,
    Option.bind_eq_bind, Option.bind_some, byte, true_and, if_true, value]
  exact UInt32.ofNat_toNat

/-! ### The datagram -/

theorem isUdp_replyDatagram {tunIp4 srcIp : UInt32} {srcPort : UInt16} {message : Bytes}
    (small : 28 + message.length < 65536) :
    IsUdp (replyDatagram tunIp4 srcIp srcPort message) srcIp 53 srcPort message := by
  have length_eq : (replyDatagram tunIp4 srcIp srcPort message).length = 28 + message.length := by
    simp only [replyDatagram, ipHeader, udpHeader, List.length_append, length_writeU16,
      length_writeU32, List.length_cons, List.length_nil]
    omega
  refine
    { version := At.of_slice rfl
      total := ⟨length_eq ▸ small, ?_⟩
      unfragmented := ⟨0x4000, At.of_slice rfl, by decide⟩
      protocol := At.of_slice rfl
      checksum := ?_
      destination := At.of_slice rfl
      ports := At.of_slice rfl
      length := At.of_slice rfl
      unchecked := At.of_slice rfl
      content := rfl }
  · rw [length_eq]
    exact At.of_slice rfl
  · have split (total word : UInt16) : ipHeader tunIp4 srcIp total word =
        ([0x45, 0] ++ writeU16 total ++ [0x30, 0x39, 0x40, 0, 64, 17]) ++
          (writeU16 word ++ (writeU32 tunIp4 ++ writeU32 srcIp)) := rfl
    have front : (replyDatagram tunIp4 srcIp srcPort message).take 20 =
        ipHeader tunIp4 srcIp (28 + message.length).toUInt16
          (ipCsum (ipHeader tunIp4 srcIp (28 + message.length).toUInt16 0)) := rfl
    have taken := ipCsum_spec (ipHeader tunIp4 srcIp (28 + message.length).toUInt16 0)
    generalize ipCsum (ipHeader tunIp4 srcIp (28 + message.length).toUInt16 0) = word at front taken
    rw [split] at taken
    rw [front, split]
    exact wordSum_checksum (by simp) taken

/-! ### The name -/

/-- The text of a name: its labels and a dot behind each. -/
def dots (name : Name) : Bytes :=
  name.flatMap fun label => label ++ [46]

/-- The text of a name: its labels with dots between them. -/
def hostText (name : Name) : Bytes :=
  [46].intercalate name

theorem popDot_dots : ∀ name : Name, popDot (dots name) = hostText name
  | [] => rfl
  | label :: rest => by
      have trailing : dots (label :: rest) = hostText (label :: rest) ++ [46] := by
        induction rest generalizing label with
        | nil => simp [dots, hostText]
        | cons next rest ih =>
            have tail := ih next
            simp only [dots, hostText, List.flatMap_cons, List.intercalate] at tail ⊢
            simp [tail]
      rw [trailing, popDot, List.getLast?_concat, if_pos rfl, List.dropLast_concat]

/-- Where the message has a name, `parseDnsName` finds its text or gives up. -/
theorem parseDnsNameLoop_name {m out host : Bytes} {i j jumps orig : Nat} {jumped : Bool}
    {name : Name} {nameLen : Int} (h : NameAt m i name j) (nonneg : 0 ≤ nameLen)
    (found : parseDnsNameLoop m m.length i jumps orig jumped out = .ok (nameLen, host)) :
    host = popDot (out ++ dots name) := by
  have inside {i j : Nat} {name : Name} (h : NameAt m i name j) : i < m.length := by
    have := h.le_length
    omega
  -- the limit of jumps is the only other way out
  have stuck {out : Bytes} : (Except.ok (-1, out) : Except Buffer.Fault (Int × Bytes)) ≠
      .ok (nameLen, host) := by
    intro failed
    cases failed
    omega
  induction h generalizing jumps orig jumped out with
  | root here =>
      rw [parseDnsNameLoop_eq le_rfl] at found
      split at found
      · rw [List.getElem!_of_getElem? here.head, if_pos rfl] at found
        cases found
        rw [dots, List.flatMap_nil, List.append_nil]
      · exact absurd found stuck
  | @label i j label rest nonempty short here tail ih =>
      obtain ⟨notRoot, notPointer, value⟩ := length_byte _ short nonempty
      rw [parseDnsNameLoop_eq le_rfl] at found
      split at found
      · have room := here.length_le (Nat.zero_lt_succ _)
        rw [List.length_cons] at room
        have text : At m i ([label.length.toUInt8] ++ label) := here
        have bytes : (m.drop (i + 1)).take label.length = label := text.right.slice_eq
        rw [List.getElem!_of_getElem? here.head, if_neg notRoot, if_neg notPointer, value,
          min_eq_left (by omega), bytes] at found
        rw [ih found]
        simp [dots]
      · exact absurd found stuck
  | @pointer i j high low name mark here behindHeader prior target ih =>
      rw [parseDnsNameLoop_eq le_rfl] at found
      split at found
      · have room : i + 2 ≤ m.length := here.length_le (Nat.zero_lt_succ _)
        have second : m[i + 1]! = low :=
          List.getElem!_of_getElem? (here 1 (Nat.lt_succ_self 1))
        rw [List.getElem!_of_getElem? here.head, if_neg (mark_ne_zero mark), if_pos mark, second,
          if_pos ⟨by omega, inside target⟩] at found
        exact ih found
      · exact absurd found stuck

theorem Asks.host_eq {data host : Bytes} {name : Name} {j : Nat} (asks : Asks data host)
    (h : NameAt (dnsMessage data) 12 name j) : host = hostText name := by
  obtain ⟨nameLen, nonneg, named⟩ := asks.named
  rw [parseDnsNameLoop_name h nonneg named, List.nil_append, popDot_dots]

/-! ### The message -/

section Message

variable {query : Bytes} {dnsId : UInt16} {addr : UInt32} {msg : Message} {q : Question}

theorem agree_replyMessage : Agree query (replyMessage dnsId query addr) := by
  intro i start inside
  have header : (replyHeader dnsId).length = 12 := rfl
  rw [replyMessage, List.getElem?_append_right (by omega), header,
    List.getElem?_append_left (by rw [List.length_drop]; omega), List.getElem?_drop]
  congr 1
  omega

/-- The A record of the reply. -/
def answer (q : Question) (addr : UInt32) : Record :=
  { name := q.name, rtype := 1, rclass := 1, ttl := 60, rdata := writeU32 addr }

theorem answerRecord_eq : answerRecord addr = [0xC0, 12] ++ (answer q addr).fields := by
  have ttl : writeU32 60 = [0, 0, 0, 60] := by decide
  have size : writeU16 4 = [0, 4] := by decide
  show _ = [0xC0, 12] ++ (writeU16 1 ++ (writeU16 1 ++ (writeU32 60 ++ (writeU16 4 ++ _))))
  rw [writeU16_one, ttl, size]
  rfl

theorem replyHeader_eq : replyHeader dnsId = Message.header
    { id := dnsId, flags := 0x8180, questions := [q], answers := [answer q addr] } := by
  have flags : writeU16 0x8180 = [0x81, 0x80] := by decide
  show _ = writeU16 dnsId ++ (writeU16 0x8180 ++ (writeU16 1 ++ (writeU16 1 ++
    (writeU16 0 ++ writeU16 0))))
  rw [flags, writeU16_one, writeU16_zero]
  rfl

/-- The record stands behind the query, its name a pointer to the question's. -/
theorem recordAt_replyMessage (h : QuestionAt query 12 q query.length) :
    RecordAt (replyMessage dnsId query addr) query.length (answer q addr)
      (replyMessage dnsId query addr).length := by
  obtain ⟨short, k, named, -, size⟩ := h
  have behind := named.le_length
  have record : At (replyMessage dnsId query addr) query.length
      ([0xC0, 12] ++ (answer q addr).fields) := by
    have here := @At.of_append (answerRecord addr) (replyHeader dnsId ++ query.drop 12) []
    have start : (replyHeader dnsId ++ query.drop 12).length = query.length := by
      rw [List.length_append, List.length_drop]
      change 12 + (query.length - 12) = query.length
      omega
    rw [start, List.append_nil, List.append_assoc, ← replyMessage] at here
    rwa [← answerRecord_eq]
  have target : pointerTarget 0xC0 12 = 12 := by decide
  have sized : (answer q addr).rdata.length < 65536 := by
    change 4 < 65536
    decide
  refine ⟨short, sized, query.length + 2, ?_, record.right, ?_⟩
  · apply NameAt.pointer (by decide) record.left
    · rw [target]
    · rw [target]
      omega
    · rw [target]
      exact named.of_agree agree_replyMessage le_rfl
  · rw [length_replyMessage (by omega), Record.length_fields]
    rfl

/-- The reply to a query that is its question and nothing else. -/
theorem isMessage_replyMessage (h : IsMessage query msg) (single : msg.questions = [q])
    (plain : msg.records = []) :
    IsMessage (replyMessage dnsId query addr)
      { id := dnsId, flags := 0x8180, questions := [q], answers := [answer q addr] } := by
  obtain ⟨i, questions, records⟩ := h.body
  rw [single] at questions
  rw [plain] at records
  cases records
  cases questions with
  | cons question rest =>
      cases rest
      refine ⟨?_, by simp, query.length, ?_, ?_⟩
      · rw [← replyHeader_eq]
        exact At.of_slice rfl
      · exact .cons (question.of_agree agree_replyMessage le_rfl) .nil
      · exact .cons (recordAt_replyMessage question) .nil

/-- Another record in the query stands where the reply announces its own, and ends
before the reply does. -/
theorem records_eq_nil (h : IsMessage query msg) (single : msg.questions = [q])
    {reply : Message} (replied : IsMessage (replyMessage dnsId query addr) reply)
    (same : reply.questions = [q]) {r : Record} (one : reply.records = [r]) :
    msg.records = [] := by
  obtain ⟨i, questions, records⟩ := h.body
  obtain ⟨i', questions', records'⟩ := replied.body
  rw [single] at questions
  rw [same] at questions'
  rw [one] at records'
  cases questions with
  | cons question rest =>
      cases rest
      cases questions' with
      | cons question' rest' =>
          cases rest'
          have ends := (question.of_agree agree_replyMessage le_rfl).end_unique question'
          subst ends
          obtain ⟨-, k, named, -, behind⟩ := question
          have := named.le_length
          cases records' with
          | cons record' rest' =>
              generalize size : (replyMessage dnsId query addr).length = n at rest'
              cases rest'
              generalize all : msg.records = found at records
              cases records with
              | nil => rfl
              | cons record rest =>
                  have early := record.le_length
                  have last := (record.of_agree agree_replyMessage (by omega)).end_unique record'
                  rw [length_replyMessage (by omega)] at size
                  omega

end Message

/-- The datagram is a reply to the packet: to its sender, with the id and the question of
its query, one A record for the name with this address and nothing else. -/
def RightReply (data : Bytes) (q : Question) (addr : UInt32) (pkt : Bytes) : Prop :=
  ∃ message flags ttl, IsUdp pkt (srcAddr data) 53 (srcPort data) message ∧
    flags &&& 0x8000 = 0x8000 ∧ flags &&& 0xF = 0 ∧
    IsMessage message
      { id := queryId data, flags, questions := [q],
        answers := [{ name := q.name, rtype := 1, rclass := 1, ttl, rdata := writeU32 addr }] }

section Replies

variable {getaddrinfo : Bytes → List UInt32} {tunIp4 addr : UInt32} {data : Bytes}
  {msg : Message} {q : Question}

/-- The datagram that answers this packet with this address. -/
def replyTo (tunIp4 : UInt32) (data : Bytes) (addr : UInt32) : Bytes :=
  replyDatagram tunIp4 (srcAddr data) (srcPort data)
    (replyMessage (queryId data) (dnsMessage data) addr)

theorem rightReply_replyTo (query : IsMessage (dnsMessage data) msg)
    (single : msg.questions = [q]) (plain : msg.records = [])
    (fits : (dnsMessage data).length ≤ 496) (sized : 12 ≤ (dnsMessage data).length) :
    RightReply data q addr (replyTo tunIp4 data addr) := by
  refine ⟨_, 0x8180, 60, isUdp_replyDatagram ?_, by decide, by decide,
    isMessage_replyMessage query single plain⟩
  rw [length_replyMessage sized]
  omega

theorem RightReply.records_eq_nil (right : RightReply data q addr (replyTo tunIp4 data addr))
    (query : IsMessage (dnsMessage data) msg) (single : msg.questions = [q]) :
    msg.records = [] := by
  obtain ⟨message, flags, ttl, datagram, -, -, replied⟩ := right
  have content : message = replyMessage (queryId data) (dnsMessage data) addr :=
    datagram.content.symm
  rw [content] at replied
  exact Dns.records_eq_nil query single replied rfl rfl

/-- **The reply is right for a plain question for an address.** A query that is answered
gets the first address of its name. The reply announces one question and one answer, but
it is the whole query with a record at the end: it parses as announced exactly when the
query has no record of its own. The type of the question is not looked at. -/
theorem right_reply_iff (getaddrinfo : Bytes → List UInt32) (tunIp4 : UInt32)
    (data pkt : Bytes) (msg : Message) (q : Question)
    (answered : handlePacket getaddrinfo tunIp4 data = .ok (.replied pkt))
    (query : IsMessage (dnsMessage data) msg) (single : msg.questions = [q]) :
    ∃ addr rest, getaddrinfo (cString (hostText q.name)) = addr :: rest ∧
      (RightReply data q addr pkt ∧ q.qtype = 1 ↔ q.qtype = 1 ∧ msg.records = []) := by
  obtain ⟨host, addr, rest, asks, found, fits, rfl⟩ := handlePacket_replied answered
  have named : ∃ k, NameAt (dnsMessage data) 12 q.name k := by
    obtain ⟨i, questions, -⟩ := query.body
    rw [single] at questions
    cases questions with
    | cons question rest =>
        obtain ⟨-, k, named, -⟩ := question
        exact ⟨k, named⟩
  obtain ⟨k, named⟩ := named
  rw [asks.host_eq named] at found
  refine ⟨addr, rest, found, ?_⟩
  rw [inetAddr_dotted]
  constructor
  · rintro ⟨right, asksA⟩
    exact ⟨asksA, RightReply.records_eq_nil right query single⟩
  · rintro ⟨asksA, plain⟩
    exact ⟨rightReply_replyTo query single plain fits asks.sized, asksA⟩

/-! ### Queries for `a` -/

/-- The question of `queryForA`. -/
def questionForA (qtype : UInt8) : Question :=
  { name := [[97]], qtype := be16 0 qtype, qclass := 1 }

theorem questionForA_at {qtype arcount : UInt8} {records : Bytes} :
    QuestionAt (queryForA qtype arcount records) 12 (questionForA qtype) 19 := by
  have root : NameAt (queryForA qtype arcount records) 14 [] 15 := .root (At.of_slice rfl)
  have name : NameAt (queryForA qtype arcount records) 12 [[97]] 15 :=
    .label (by decide) (by decide) (At.of_slice rfl) root
  refine ⟨by change nameSize [[97]] ≤ 255; decide, 15, name, ?_, rfl⟩
  show At _ 15 (writeU16 (be16 0 qtype) ++ writeU16 1)
  rw [writeU16_be16]
  exact At.of_slice rfl

theorem handlePacket_queryForA {qtype arcount : UInt8} {records : Bytes}
    (small : records.length ≤ 477) :
    handlePacket (fun _ => [addr]) tunIp4 (queryPacket (queryForA qtype arcount records)) =
      .ok (.replied (replyTo tunIp4 (queryPacket (queryForA qtype arcount records)) addr)) := by
  have size := @length_queryForA qtype arcount records
  obtain ⟨-, message⟩ := @queryPacket_toPort53 (queryForA qtype arcount records) (by omega)
  have asks := @queryForA_asks qtype arcount records (by omega)
  rw [handlePacket_asks asks rfl, sendDnsReply_of_le asks.sized (by rw [message]; omega),
    inetAddr_dotted]
  rfl

theorem header_queryForA {qtype arcount : UInt8} {records : Bytes} {count : UInt16}
    (counted : writeU16 count = [0, arcount]) :
    At (queryForA qtype arcount records) 0 (writeU16 7 ++ (writeU16 0x100 ++ (writeU16 1 ++
      (writeU16 0 ++ (writeU16 0 ++ writeU16 count))))) := by
  have id : writeU16 7 = [0, 7] := by decide
  have flags : writeU16 0x100 = [1, 0] := by decide
  rw [id, flags, writeU16_one, writeU16_zero, counted]
  exact At.of_slice rfl

theorem isMessage_plain {qtype : UInt8} : IsMessage (queryForA qtype 0 [])
    { id := 7, flags := 0x100, questions := [questionForA qtype] } := by
  exact ⟨header_queryForA writeU16_zero, by simp, 19, .cons questionForA_at .nil, .nil⟩

/-- The answer to a plain question for the address of `a`. -/
theorem plain_query_answered :
    ∃ pkt addr rest,
      handlePacket (fun _ => [0x5DB8D822]) 0x0A000001 (queryPacket (queryForA 1 0 [])) =
        .ok (.replied pkt) ∧
      (fun _ => [0x5DB8D822]) (cString (hostText [[97]])) = addr :: rest ∧
      RightReply (queryPacket (queryForA 1 0 [])) (questionForA 1) addr pkt := by
  have answered := @handlePacket_queryForA 0x0A000001 0x5DB8D822 1 0 [] (by decide)
  obtain ⟨-, message⟩ := @queryPacket_toPort53 (queryForA 1 0 []) (by decide)
  have query := @isMessage_plain 1
  rw [← message] at query
  obtain ⟨addr, rest, found, right⟩ :=
    right_reply_iff _ _ _ _ _ (questionForA 1) answered query rfl
  exact ⟨_, addr, rest, answered, found, (right.mpr ⟨by decide, rfl⟩).1⟩

/-- An EDNS record without options. -/
def ednsRecord : Record :=
  { name := [], rtype := 41, rclass := 4096, ttl := 0, rdata := [] }

def ednsQuery : Bytes :=
  queryForA 1 1 [0, 0, 41, 16, 0, 0, 0, 0, 0, 0, 0]

theorem isMessage_ednsQuery : IsMessage ednsQuery
    { id := 7, flags := 0x100, questions := [questionForA 1], additional := [ednsRecord] } := by
  have fields : ednsRecord.fields = [0, 41, 16, 0, 0, 0, 0, 0, 0, 0] := by decide
  have record : RecordAt ednsQuery 19 ednsRecord ednsQuery.length := by
    refine ⟨by decide, by decide, 20, .root (At.of_slice rfl), ?_, by decide⟩
    rw [fields]
    exact At.of_slice rfl
  exact ⟨header_queryForA writeU16_one, by decide, 19, .cons questionForA_at .nil,
    .cons record .nil⟩

/-- A query for the address of `a` with an EDNS record gets a reply that is none, and one
for its IPv6 address gets an IPv4 address. -/
theorem edns_query_misanswered :
    (∃ msg pkt, IsMessage (dnsMessage (queryPacket ednsQuery)) msg ∧
      msg.questions = [questionForA 1] ∧ (dnsMessage (queryPacket ednsQuery)).length ≤ 496 ∧
      handlePacket (fun _ => [0x5DB8D822]) 0x0A000001 (queryPacket ednsQuery) =
        .ok (.replied pkt) ∧
      ¬ RightReply (queryPacket ednsQuery) (questionForA 1) 0x5DB8D822 pkt) ∧
    ∃ pkt, handlePacket (fun _ => [0x5DB8D822]) 0x0A000001 (queryPacket (queryForA 28 0 [])) =
        .ok (.replied pkt) ∧
      RightReply (queryPacket (queryForA 28 0 [])) (questionForA 28) 0x5DB8D822 pkt ∧
      (questionForA 28).qtype ≠ 1 := by
  constructor
  · obtain ⟨-, message⟩ := @queryPacket_toPort53 ednsQuery (by decide)
    have query := isMessage_ednsQuery
    rw [← message] at query
    refine ⟨_, _, query, rfl, by rw [message]; decide, handlePacket_queryForA (by decide), ?_⟩
    intro right
    have none := RightReply.records_eq_nil right query rfl
    exact absurd none (List.cons_ne_nil _ _)
  · obtain ⟨-, message⟩ := @queryPacket_toPort53 (queryForA 28 0 []) (by decide)
    have query := @isMessage_plain 28
    rw [← message] at query
    refine ⟨_, handlePacket_queryForA (by decide), ?_, by decide⟩
    apply rightReply_replyTo query rfl rfl
    · rw [message]
      decide
    · rw [message]
      decide

end Replies

end TonTunnel.Dns
