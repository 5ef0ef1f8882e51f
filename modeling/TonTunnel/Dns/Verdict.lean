import TonTunnel.Dns.CaseBlind
import TonTunnel.Lib.Datagram
import TonTunnel.Protocol.Downlink

/-!
What the DNS filter of the Android client decides.

The loop of `parseQuestion` walks over labels (`LabelsAt.parseLabels`) until it stops, and
there are five ways to stop (`parseLabels_root` to `parseLabels_end`). Every walk ends
(`exists_walk`), so the verdict is read off the place where it does. Only one of these
ways is an exception: a length whose sum with the offset is no `Int` passes the
comparison with `packetLength` (`Overruns`). For every other packet the result is right
(`rightResult_of_not_overruns`), and the overrun needs a packet of two gigabytes
(`not_overruns_of_short`).
-/

namespace TonTunnel.DnsFilter

open Buffer BigEndian Android Datagram

/-! ### Sums -/

theorem addInt_eq {a b : Int} (low : -2 ^ 31 ≤ a + b) (high : a + b < 2 ^ 31) :
    addInt a b = a + b := by
  rw [addInt, Int.bmod_eq_of_le]
  · omega
  · omega

/-- A sum that wraps is negative. -/
theorem addInt_wraps {a b : Int} (large : 2 ^ 31 ≤ a + b) (small : a + b < 2 ^ 32) :
    addInt a b < 0 := by
  rw [addInt, Int.bmod_def]
  split <;> omega

/-! ### The walk through the labels -/

/-- Labels from `i` up to `j`. A length byte below 192 is no pointer; the filter takes
those from 64 on for lengths as well. -/
inductive LabelsAt (m : Bytes) : Nat → List Bytes → Nat → Prop
  | nil {i : Nat} : LabelsAt m i [] i
  | cons {i j : Nat} {label : Bytes} {rest : List Bytes} (nonempty : 0 < label.length)
      (short : label.length < 192) (here : At m i (label.length.toUInt8 :: label))
      (tail : LabelsAt m (i + 1 + label.length) rest j) : LabelsAt m i (label :: rest) j

section Walk

variable {m : Bytes} {packetLength : Int} {i j : Nat} {ls : List Bytes} {labels : List Text}

theorem LabelsAt.le (h : LabelsAt m i ls j) : i ≤ j := by
  induction h with
  | nil => exact le_rfl
  | cons nonempty short here tail ih => omega

theorem toNat_pos {b : UInt8} (nonzero : b ≠ 0) : 0 < b.toNat :=
  UInt8.lt_iff_toNat_lt.mp (UInt8.pos_iff_ne_zero.mpr nonzero)

theorem and_mask : ∀ n < 256, n &&& 0xC0 = 0xC0 ↔ 192 ≤ n := by
  decide +kernel

theorem access_get (inside : i < m.length) : access (get m i) = .ok m[i]! := by
  rw [get_of_lt inside]
  rfl

theorem bind_ok {α β : Type} (v : α) (f : α → Except Thrown β) : (Except.ok v >>= f) = f v :=
  rfl

section Turn

variable (size : m.length < 2 ^ 31) (fits : packetLength ≤ m.length)

include fits in
theorem parseLabels_root (inside : (i : Int) < packetLength) (root : m[i]! = 0) :
    parseLabels m packetLength i labels = .ok (some (i + 1, labels)) := by
  rw [parseLabels, if_pos inside, access_get (by omega), bind_ok, root]
  rfl

include fits in
theorem parseLabels_pointer (inside : (i : Int) < packetLength) (mark : 192 ≤ m[i]!.toNat) :
    parseLabels m packetLength i labels = .ok none := by
  rw [parseLabels, if_pos inside, access_get (by omega), bind_ok]
  dsimp only
  rw [if_neg (by omega), if_pos ((and_mask _ m[i]!.toNat_lt).mpr mark)]
  rfl

include fits in
/-- A label that ends behind the packet. -/
theorem parseLabels_cut (inside : (i : Int) < packetLength) (nonempty : 0 < m[i]!.toNat)
    (short : m[i]!.toNat < 192) (cut : packetLength < i + 1 + m[i]!.toNat)
    (small : i + 1 + m[i]!.toNat < 2 ^ 31) :
    parseLabels m packetLength i labels = .ok none := by
  rw [parseLabels, if_pos inside, access_get (by omega), bind_ok]
  dsimp only
  rw [if_neg (by omega), if_neg (by rw [and_mask _ m[i]!.toNat_lt]; omega),
    addInt_eq (by omega) (by omega), if_pos (by omega)]
  rfl

include size fits in
/-- A label whose end is no `Int`: the comparison lets it pass. -/
theorem parseLabels_overrun (inside : (i : Int) < packetLength) (nonempty : 0 < m[i]!.toNat)
    (short : m[i]!.toNat < 192) (large : 2 ^ 31 ≤ i + 1 + m[i]!.toNat) :
    parseLabels m packetLength i labels = .error (.outOfBounds (.read m.length)) := by
  have wraps : addInt (i + 1 : Nat) m[i]!.toNat < 0 := addInt_wraps (by omega) (by omega)
  have outside : ¬ i + 1 + m[i]!.toNat ≤ m.length := by omega
  have last : max (i + 1) m.length = m.length := by omega
  rw [parseLabels, if_pos inside, access_get (by omega), bind_ok]
  dsimp only
  rw [if_neg (by omega), if_neg (by rw [and_mask _ m[i]!.toNat_lt]; omega), if_neg (by omega),
    getSlice, if_neg outside, last]
  rfl

include size fits in
theorem parseLabels_label (inside : (i : Int) < packetLength) (nonempty : 0 < m[i]!.toNat)
    (short : m[i]!.toNat < 192) (whole : i + 1 + m[i]!.toNat ≤ packetLength) :
    parseLabels m packetLength i labels =
      parseLabels m packetLength (i + 1 + m[i]!.toNat)
        (labels ++ [decodeUtf8 ((m.drop (i + 1)).take m[i]!.toNat)]) := by
  rw [parseLabels, if_pos inside, access_get (by omega), bind_ok]
  dsimp only
  rw [if_neg (by omega), if_neg (by rw [and_mask _ m[i]!.toNat_lt]; omega),
    addInt_eq (by omega) (by omega), if_neg (by omega), getSlice_of_le (by omega)]
  rfl

theorem parseLabels_end (outside : packetLength ≤ i) :
    parseLabels m packetLength i labels = .ok (some (i, labels)) := by
  rw [parseLabels, if_neg (by omega)]
  rfl

include size fits in
/-- The loop walks over the labels. -/
theorem LabelsAt.parseLabels (h : LabelsAt m i ls j) (inside : (j : Int) ≤ packetLength) :
    parseLabels m packetLength i labels =
      parseLabels m packetLength j (labels ++ ls.map decodeUtf8) := by
  induction h generalizing labels with
  | nil => rw [List.map_nil, List.append_nil]
  | @cons i j label rest nonempty short here tail ih =>
      have later := tail.le
      have text : At m i ([label.length.toUInt8] ++ label) := here
      have value : m[i]!.toNat = label.length := by
        rw [List.getElem!_of_getElem? here.head]
        exact UInt8.toNat_ofNat_of_lt' (lt_trans short (by decide))
      have bytes : (m.drop (i + 1)).take label.length = label := text.right.slice_eq
      rw [parseLabels_label size fits (by omega) (by omega) (by omega) (by omega), value, bytes,
        ih inside, List.map_cons, List.append_assoc, List.singleton_append]

end Turn

/-- What makes the loop leave at `j`. -/
def Stops (m : Bytes) (packetLength : Int) (j : Nat) : Prop :=
  (j : Int) < packetLength →
    m[j]! = 0 ∨ 192 ≤ m[j]!.toNat ∨ packetLength < j + 1 + m[j]!.toNat

/-- Every walk ends. -/
theorem exists_walk (fits : packetLength ≤ m.length) (start : (i : Int) ≤ packetLength) :
    ∃ ls j, LabelsAt m i ls j ∧ (j : Int) ≤ packetLength ∧ Stops m packetLength j := by
  induction gap : packetLength.toNat - i using Nat.strongRecOn generalizing i with
  | ind n ih =>
      by_cases stops : Stops m packetLength i
      · exact ⟨[], i, .nil, start, stops⟩
      · unfold Stops at stops
        push Not at stops
        obtain ⟨inside, notRoot, notPointer, whole⟩ := stops
        have nonempty := toNat_pos notRoot
        have room : m[i]!.toNat ≤ (m.drop (i + 1)).length := by
          rw [List.length_drop]
          omega
        have length_eq : ((m.drop (i + 1)).take m[i]!.toNat).length = m[i]!.toNat := by
          rw [List.length_take, Nat.min_eq_left room]
        obtain ⟨ls, j, walk, inside', stops'⟩ :=
          ih (packetLength.toNat - (i + 1 + m[i]!.toNat)) (by omega) (by omega) rfl
        have here : At m i
            (((m.drop (i + 1)).take m[i]!.toNat).length.toUInt8 ::
              (m.drop (i + 1)).take m[i]!.toNat) := by
          have head : m.drop i = m[i]! :: m.drop (i + 1) := by
            rw [List.drop_eq_getElem_cons (by omega), getElem!_pos m i (by omega)]
          apply At.of_slice
          rw [length_eq, List.length_cons, length_eq, head, List.take_succ_cons]
          exact congrArg (· :: _) UInt8.ofNat_toNat.symm
        refine ⟨(m.drop (i + 1)).take m[i]!.toNat :: ls, j, ?_, inside', stops'⟩
        exact .cons (by omega) (by omega) here (by rw [length_eq]; exact walk)

end Walk

/-! ### The response -/

section Response

variable {m : Bytes} {e : Nat}

def requestFlags (m : Bytes) : UInt16 :=
  be16 m[2]! m[3]!

theorem access_requestFlags (header : 12 ≤ m.length) :
    access (get16 m 2) = .ok (requestFlags m) := by
  rw [get16_of_lt (by omega)]
  rfl

def responseFlags (m : Bytes) : UInt16 :=
  0x8000 ||| 0x0080 ||| (requestFlags m &&& 0x0100) ||| 0x0003

/-- The response to a query whose question ends before `e`. -/
def nxdomain (m : Bytes) (e : Nat) : Bytes :=
  [m[0]!] ++ [m[1]!] ++ writeU16 (responseFlags m) ++ writeU16 1 ++ writeU16 0 ++ writeU16 0 ++
    writeU16 0 ++ slice m 12 e

theorem length_nxdomain (question : 12 ≤ e) (inside : e ≤ m.length) :
    (nxdomain m e).length = e := by
  simp only [nxdomain, List.length_append, length_writeU16, length_slice question inside,
    List.length_cons, List.length_nil]
  omega

theorem fill_put {b : ByteBuffer} {src : Bytes}
    (room : b.written.length + src.length ≤ b.capacity) :
    fill (b.put src) = .ok { b with written := b.written ++ src } := by
  rw [ByteBuffer.put, if_pos room]
  rfl

theorem buildNxdomainResponse_eq {packetLength : Int} (size : m.length < 2 ^ 31)
    (question : 12 ≤ e) (inside : e ≤ m.length) :
    buildNxdomainResponse m packetLength e = .ok (nxdomain m e) := by
  have tail : addInt e (-12) = (e - 12 : Nat) := by
    rw [addInt_eq (by omega) (by omega)]
    omega
  have total : addInt 12 (e - 12 : Nat) = e := by
    rw [addInt_eq (by omega) (by omega)]
    omega
  have length_eq := length_slice question inside
  have body : getRange m 12 (e - 12 : Nat) = .ok (slice m 12 e) := by
    rw [getRange, if_neg (by omega), Int.toNat_natCast, getSlice_of_le (by omega)]
    rfl
  have room : allocate e = .ok { capacity := e, written := [] } := by
    rw [allocate, if_neg (by omega)]
    rfl
  rw [buildNxdomainResponse, access_requestFlags (by omega), bind_ok]
  dsimp only
  rw [tail, total, room, bind_ok, access_get (by omega), bind_ok, fill_put (by simp; omega),
    bind_ok, access_get (by omega), bind_ok, fill_put (by simp; omega), bind_ok]
  simp only [ByteBuffer.putShort]
  rw [fill_put (by simp; omega), bind_ok, fill_put (by simp; omega), bind_ok,
    fill_put (by simp; omega), bind_ok, fill_put (by simp; omega), bind_ok,
    fill_put (by simp; omega), bind_ok, body, bind_ok, fill_put (by simp [length_eq]; omega),
    bind_ok, ByteBuffer.array]
  have done := @length_nxdomain m e question inside
  have full (written : Bytes) (whole : written.length = e) :
      written ++ List.replicate (e - written.length) 0 = written := by
    rw [whole, Nat.sub_self, List.replicate_zero, List.append_nil]
  exact congrArg Except.ok (full (nxdomain m e) done)

end Response

/-! ### Verdicts -/

def qdCount (m : Bytes) : UInt16 :=
  be16 m[4]! m[5]!

/-- The text that is looked up for these labels. -/
def DnsPacketHandler.normalized (handler : DnsPacketHandler) (ls : List Bytes) : Text :=
  lowercase handler.unicode (['.'].intercalate (ls.map decodeUtf8))

section Verdicts

variable {handler : DnsPacketHandler} {packet : JavaArray} {packetLength : Int} {j : Nat}
  {ls : List Bytes}

theorem access_qdCount {m : Bytes} (header : 12 ≤ m.length) :
    access (get16 ((m.drop 0).take 12) 4) = .ok (qdCount m) := by
  have same {i : Nat} (inside : i < 12) : ((m.drop 0).take 12)[i]! = m[i]! := by
    rw [List.drop_zero, List.getElem!_eq_getElem?_getD, List.getElem!_eq_getElem?_getD,
      List.getElem?_take_of_lt inside]
  rw [get16_of_lt (by rw [List.length_take, List.length_drop]; omega), same (by decide),
    same (by decide)]
  rfl

/-- `handleQuery` for a packet with a header: no question, or what the loop finds. -/
theorem handleQuery_eq (header : 12 ≤ packetLength) (fits : packetLength ≤ packet.bytes.length) :
    handler.handleQuery packet packetLength =
      if qdCount packet.bytes < 1 then .ok .invalid
      else
        parseLabels packet.bytes packetLength 12 [] >>= fun found =>
          handler.verdict packet.bytes packetLength (questionBehind packetLength found) := by
  rw [DnsPacketHandler.handleQuery, if_neg (by omega), parseQuestion, getSlice_of_le (by omega)]
  show (access (get16 ((packet.bytes.drop 0).take 12) 4) >>= _) >>= _ = _
  rw [access_qdCount (by omega), bind_ok]
  split
  · rfl
  · cases parseLabels packet.bytes packetLength 12 [] <;> rfl

/-- The packet has a question: a name of these labels that ends with the zero at `j`, and
the four bytes of its type and class. -/
structure HasQuestion (m : Bytes) (packetLength : Int) (ls : List Bytes) (j : Nat) : Prop where
  counted : ¬ qdCount m < 1
  labels : LabelsAt m 12 ls j
  root : m[j]! = 0
  whole : j + 5 ≤ packetLength

theorem handleQuery_question (fits : packetLength ≤ packet.bytes.length)
    (h : HasQuestion packet.bytes packetLength ls j) :
    handler.handleQuery packet packetLength = .ok
      (if handler.normalized ls ∈ handler.blockedDomainSet then
        .blocked (handler.normalized ls) (nxdomain packet.bytes (j + 5)) (j + 5)
      else
        .allowed (handler.normalized ls) (packet.bytes.take packetLength.toNat) packetLength) := by
  obtain ⟨counted, labels, root, whole⟩ := h
  have size := packet.size_lt
  have start := labels.le
  have sum : addInt (j + 1 : Nat) 4 = (j + 5 : Nat) := by
    rw [addInt_eq (by omega) (by omega)]
    omega
  rw [handleQuery_eq (by omega) fits, if_neg counted, labels.parseLabels size fits (by omega),
    parseLabels_root fits (by omega) root, bind_ok, questionBehind, sum, if_neg (by omega),
    DnsPacketHandler.verdict]
  change (if handler.normalized ls ∈ handler.blockedDomainSet then _ else _) = _
  split
  · rw [buildNxdomainResponse_eq size (by omega) (by omega), bind_ok,
      length_nxdomain (by omega) (by omega)]
    rfl
  · rfl

/-- The walk through the labels comes to `j`, where a label ends behind the last `Int`, or
a blocked name does with its type and class. -/
def Overruns (handler : DnsPacketHandler) (m : Bytes) (packetLength : Int) : Prop :=
  12 ≤ packetLength ∧ ¬ qdCount m < 1 ∧ ∃ ls j, LabelsAt m 12 ls j ∧ j ≤ packetLength ∧
    ((j < packetLength ∧ 0 < m[j]!.toNat ∧ m[j]!.toNat < 192 ∧ 2 ^ 31 ≤ j + 1 + m[j]!.toNat) ∨
      handler.normalized ls ∈ handler.blockedDomainSet ∧
        (j < packetLength ∧ m[j]! = 0 ∧ 2 ^ 31 ≤ j + 5 ∨ j = packetLength ∧ 2 ^ 31 ≤ j + 4))

/-- A negative end is the capacity that `allocate` refuses. -/
theorem buildNxdomainResponse_negative {m : Bytes} {questionEndOffset : Int} (header : 12 ≤ m.length)
    (low : -2 ^ 31 ≤ questionEndOffset) (negative : questionEndOffset < 0) :
    buildNxdomainResponse m packetLength questionEndOffset = .error .illegalArgument := by
  have back : addInt 12 (addInt questionEndOffset (-12)) = questionEndOffset := by
    rw [addInt, addInt, Int.bmod_def, Int.bmod_def]
    split <;> split <;> omega
  rw [buildNxdomainResponse, access_requestFlags (by omega), bind_ok]
  dsimp only
  rw [back, allocate, if_pos negative]
  rfl

/-- A name without room for its type and class. -/
theorem verdict_incomplete {m : Bytes} {offset : Nat} (size : m.length < 2 ^ 31)
    (header : 12 ≤ packetLength) (fits : packetLength ≤ m.length) (inside : offset ≤ m.length)
    (incomplete : packetLength < offset + 4) :
    handler.verdict m packetLength
        (questionBehind packetLength (some (offset, ls.map decodeUtf8))) =
      if offset + 4 < 2 ^ 31 then .ok .invalid
      else if handler.normalized ls ∈ handler.blockedDomainSet then .error .illegalArgument
      else .ok (.allowed (handler.normalized ls) (m.take packetLength.toNat) packetLength) := by
  rw [questionBehind]
  by_cases small : offset + 4 < 2 ^ 31
  · rw [addInt_eq (by omega) (by omega), if_pos (by omega), if_pos small]
    rfl
  · have wraps : addInt offset 4 < 0 := addInt_wraps (by omega) (by omega)
    have low : -2 ^ 31 ≤ addInt offset 4 := by
      rw [addInt, Int.bmod_def]
      split <;> omega
    rw [if_neg small, if_neg (by omega), DnsPacketHandler.verdict]
    change (if handler.normalized ls ∈ handler.blockedDomainSet then _ else _) = _
    split
    · rw [buildNxdomainResponse_negative (by omega) low wraps]
      rfl
    · rfl

/-- An overrun ends in an exception. -/
theorem Overruns.throws (fits : packetLength ≤ packet.bytes.length)
    (overruns : Overruns handler packet.bytes packetLength) :
    ∃ thrown, handler.handleQuery packet packetLength = .error thrown := by
  obtain ⟨header, counted, ls, j, labels, inside, reason⟩ := overruns
  have size := packet.size_lt
  rw [handleQuery_eq header fits, if_neg counted, labels.parseLabels size fits inside,
    List.nil_append]
  rcases reason with ⟨here, nonempty, short, large⟩ | ⟨blocked, ⟨here, root, large⟩ | ⟨rfl, large⟩⟩
  · rw [parseLabels_overrun size fits here nonempty short large]
    exact ⟨_, rfl⟩
  · rw [parseLabels_root fits here root, bind_ok,
      verdict_incomplete size header fits (by omega) (by omega), if_neg (by omega), if_pos blocked]
    exact ⟨_, rfl⟩
  · rw [parseLabels_end le_rfl, bind_ok, verdict_incomplete size header fits (by omega) (by omega),
      if_neg (by omega), if_pos blocked]
    exact ⟨_, rfl⟩

/-- The response to a blocked query: twelve bytes of header and the question of the query. -/
structure RightResponse (m : Bytes) (packetLength : Int) (response : Bytes) : Prop where
  /-- the id, the flags and the counts -/
  header : ∃ flags, response.take 12 = m.take 2 ++ (writeU16 flags ++ [0, 1, 0, 0, 0, 0, 0, 0]) ∧
    flags &&& 0x8000 = 0x8000 ∧ flags &&& 0x0080 = 0x0080 ∧
    flags &&& 0x0100 = requestFlags m &&& 0x0100 ∧ flags &&& 0x000F = 3
  /-- the labels, the zero at `j`, type and class -/
  question : ∃ ls j, LabelsAt m 12 ls j ∧ m[j]! = 0 ∧ response.length = j + 5 ∧
    response.length ≤ packetLength ∧ response.drop 12 = slice m 12 (j + 5)

/-- What the result of `handleQuery` has to be. -/
def RightResult (m : Bytes) (packetLength : Int) : Result → Prop
  | .blocked _ response length => RightResponse m packetLength response ∧ length = response.length
  | .allowed _ original length => original = m.take packetLength.toNat ∧ length = packetLength
  | .invalid => True

theorem responseFlags_spec (m : Bytes) :
    responseFlags m &&& 0x8000 = 0x8000 ∧ responseFlags m &&& 0x0080 = 0x0080 ∧
      responseFlags m &&& 0x0100 = requestFlags m &&& 0x0100 ∧ responseFlags m &&& 0x000F = 3 := by
  have bit : requestFlags m &&& 0x0100 = 0 ∨ requestFlags m &&& 0x0100 = 0x0100 := by
    have power : (requestFlags m &&& 0x0100).toNat =
        ((requestFlags m).toNat.testBit 8).toNat * 2 ^ 8 := by
      rw [UInt16.toNat_and]
      exact Nat.and_two_pow _ 8
    cases value : (requestFlags m).toNat.testBit 8 with
    | false =>
        rw [value] at power
        exact Or.inl (UInt16.toNat_inj.mp power)
    | true =>
        rw [value] at power
        exact Or.inr (UInt16.toNat_inj.mp power)
  rw [responseFlags]
  rcases bit with clear | set
  · rw [clear]
    decide
  · rw [set]
    decide

theorem rightResponse_nxdomain {m : Bytes} (fits : packetLength ≤ m.length)
    (h : HasQuestion m packetLength ls j) :
    RightResponse m packetLength (nxdomain m (j + 5)) := by
  have start := h.labels.le
  have whole := h.whole
  have length_eq := @length_nxdomain m (j + 5) (by omega) (by omega)
  refine ⟨⟨responseFlags m, ?_, responseFlags_spec m⟩, ls, j, h.labels, h.root, length_eq, ?_, ?_⟩
  · have id : m.take 2 = [m[0]!, m[1]!] := by
      rw [List.take_succ_eq_append_getElem (by omega), List.take_succ_eq_append_getElem (by omega),
        getElem!_pos m 0 (by omega), getElem!_pos m 1 (by omega)]
      rfl
    rw [id, nxdomain, writeU16_one, writeU16_zero]
    rfl
  · omega
  · rfl

/-- Without an overrun the result is right: the walk ends at a pointer, at a label that
leaves the packet, at the end of the packet or at a zero. -/
theorem rightResult_of_not_overruns (fits : packetLength ≤ packet.bytes.length)
    (inRange : ¬ Overruns handler packet.bytes packetLength) :
    ∃ result, handler.handleQuery packet packetLength = .ok result ∧
      RightResult packet.bytes packetLength result := by
  have size := packet.size_lt
  by_cases header : 12 ≤ packetLength
  · by_cases uncounted : qdCount packet.bytes < 1
    · rw [handleQuery_eq header fits, if_pos uncounted]
      exact ⟨_, rfl, trivial⟩
    · obtain ⟨ls, j, labels, inside, stops⟩ := exists_walk (i := 12) fits header
      have walked : handler.handleQuery packet packetLength =
          (parseLabels packet.bytes packetLength j (ls.map decodeUtf8) >>= fun found =>
            handler.verdict packet.bytes packetLength (questionBehind packetLength found)) := by
        rw [handleQuery_eq header fits, if_neg uncounted, labels.parseLabels size fits inside,
          List.nil_append]
      -- a name that is not followed by type and class
      have incomplete (offset : Nat) (behind : offset ≤ packet.bytes.length)
          (cut : packetLength < offset + 4)
          (found : parseLabels packet.bytes packetLength j (ls.map decodeUtf8) =
            .ok (some (offset, ls.map decodeUtf8)))
          (allowed : 2 ^ 31 ≤ offset + 4 →
            handler.normalized ls ∉ handler.blockedDomainSet) :
          ∃ result, handler.handleQuery packet packetLength = .ok result ∧
            RightResult packet.bytes packetLength result := by
        rw [walked, found, bind_ok, verdict_incomplete size header fits behind cut]
        split
        · exact ⟨_, rfl, trivial⟩
        · next large =>
            rw [if_neg (allowed (by omega))]
            exact ⟨_, rfl, rfl, rfl⟩
      by_cases last : (j : Int) < packetLength
      · by_cases root : packet.bytes[j]! = 0
        · by_cases whole : j + 5 ≤ packetLength
          · have question : HasQuestion packet.bytes packetLength ls j :=
              ⟨uncounted, labels, root, whole⟩
            rw [handleQuery_question fits question]
            refine ⟨_, rfl, ?_⟩
            split
            · have start := labels.le
              exact ⟨rightResponse_nxdomain fits question,
                (length_nxdomain (by omega) (by omega)).symm⟩
            · exact ⟨rfl, rfl⟩
          · apply incomplete (j + 1) (by omega) (by omega) (parseLabels_root fits last root)
            intro large blocked
            exact inRange ⟨header, uncounted, ls, j, labels, inside,
              Or.inr ⟨blocked, Or.inl ⟨last, root, by omega⟩⟩⟩
        · by_cases mark : 192 ≤ packet.bytes[j]!.toNat
          · rw [walked, parseLabels_pointer fits last mark]
            exact ⟨_, rfl, trivial⟩
          · have cut := ((stops last).resolve_left root).resolve_left mark
            have nonempty := toNat_pos root
            by_cases small : j + 1 + packet.bytes[j]!.toNat < 2 ^ 31
            · rw [walked, parseLabels_cut fits last nonempty (by omega) cut small]
              exact ⟨_, rfl, trivial⟩
            · exact absurd ⟨header, uncounted, ls, j, labels, inside,
                Or.inl ⟨last, nonempty, by omega, by omega⟩⟩ inRange
      · apply incomplete j (by omega) (by omega) (parseLabels_end (by omega))
        intro large blocked
        exact inRange ⟨header, uncounted, ls, j, labels, inside,
          Or.inr ⟨blocked, Or.inr ⟨by omega, large⟩⟩⟩
  · rw [DnsPacketHandler.handleQuery, if_pos (by omega)]
    exact ⟨_, rfl, trivial⟩

inductive Kind where
  | blocked | allowed | invalid
  deriving DecidableEq, Repr

def Result.kind : Result → Kind
  | .blocked _ _ _ => .blocked
  | .allowed _ _ _ => .allowed
  | .invalid => .invalid

/-- The names of two packets differ in the case of ASCII letters only, and what the filter
asks of the rest is the same: a question in the header, and its type and class. -/
structure SameName (m : Bytes) (packetLength : Int) (m' : Bytes) (packetLength' : Int) :
    Prop where
  names : ∃ ls ls' j, ls.map (List.map tolower) = ls'.map (List.map tolower) ∧
    LabelsAt m 12 ls j ∧ m[j]! = 0 ∧ j < packetLength ∧
    LabelsAt m' 12 ls' j ∧ m'[j]! = 0 ∧ j < packetLength' ∧
    (j + 5 ≤ packetLength ↔ j + 5 ≤ packetLength')
  counted : qdCount m < 1 ↔ qdCount m' < 1

/-- What the filter finds for a name, by its normal form. -/
theorem handleQuery_kind (fits : packetLength ≤ packet.bytes.length)
    (counted : ¬ qdCount packet.bytes < 1) (labels : LabelsAt packet.bytes 12 ls j)
    (root : packet.bytes[j]! = 0) (inside : j < packetLength) :
    (handler.handleQuery packet packetLength).map Result.kind =
      if j + 5 ≤ packetLength then
        .ok (if handler.normalized ls ∈ handler.blockedDomainSet then .blocked else .allowed)
      else if j + 5 < 2 ^ 31 then .ok .invalid
      else if handler.normalized ls ∈ handler.blockedDomainSet then .error .illegalArgument
      else .ok .allowed := by
  have size := packet.size_lt
  have start := labels.le
  by_cases whole : j + 5 ≤ packetLength
  · rw [if_pos whole, handleQuery_question fits ⟨counted, labels, root, whole⟩]
    split <;> rfl
  · rw [if_neg whole, handleQuery_eq (by omega) fits, if_neg counted,
      labels.parseLabels size fits (by omega), parseLabels_root fits inside root, bind_ok,
      List.nil_append, verdict_incomplete size (by omega) fits (by omega) (by omega)]
    change (if j + 5 < 2 ^ 31 then _ else _ : Except Thrown Result).map Result.kind = _
    split
    · rfl
    · split <;> rfl

theorem SameName.kind_eq {packet' : JavaArray} {packetLength' : Int}
    (fits : packetLength ≤ packet.bytes.length) (fits' : packetLength' ≤ packet'.bytes.length)
    (same : SameName packet.bytes packetLength packet'.bytes packetLength') :
    (handler.handleQuery packet packetLength).map Result.kind =
      (handler.handleQuery packet' packetLength').map Result.kind := by
  obtain ⟨⟨ls, ls', j, lower, labels, root, inside, labels', root', inside', whole⟩, counted⟩ :=
    same
  have start := labels.le
  by_cases uncounted : qdCount packet.bytes < 1
  · rw [handleQuery_eq (by omega) fits, if_pos uncounted, handleQuery_eq (by omega) fits',
      if_pos (counted.mp uncounted)]
  · have normal : handler.normalized ls = handler.normalized ls' := lowercase_intercalate lower
    rw [handleQuery_kind fits uncounted labels root inside,
      handleQuery_kind fits' (fun h => uncounted (counted.mpr h)) labels' root' inside', normal]
    simp only [whole]

/-- **The filter is right while its sums are numbers.** For a packet inside its array the
filter returns, a blocked query gets the response of its own question, an allowed one is
handed on unchanged, and the case of ASCII letters does not matter, exactly when the walk
through the name does not come to a sum that is no `Int`. -/
theorem filter_right_iff (handler : DnsPacketHandler) (packet : JavaArray) (packetLength : Int)
    (fits : packetLength ≤ packet.bytes.length) :
    ((∃ result, handler.handleQuery packet packetLength = .ok result ∧
        RightResult packet.bytes packetLength result) ∧
      ∀ (packet' : JavaArray) (packetLength' : Int), packetLength' ≤ packet'.bytes.length →
        SameName packet.bytes packetLength packet'.bytes packetLength' →
        (handler.handleQuery packet packetLength).map Result.kind =
          (handler.handleQuery packet' packetLength').map Result.kind) ↔
      ¬ Overruns handler packet.bytes packetLength := by
  constructor
  · rintro ⟨⟨result, returns, -⟩, -⟩ overruns
    obtain ⟨thrown, throws⟩ := overruns.throws fits
    rw [throws] at returns
    cases returns
  · intro inRange
    refine ⟨rightResult_of_not_overruns fits inRange, ?_⟩
    intro packet' packetLength' fits' same
    exact same.kind_eq fits fits'

/-- Every packet but one of two gigabytes is short enough. -/
theorem not_overruns_of_short {m : Bytes} (short : packetLength < 2 ^ 31 - 192) :
    ¬ Overruns handler m packetLength := by
  rintro ⟨header, counted, ls, j, labels, inside, reason⟩
  rcases reason with ⟨here, nonempty, small, large⟩ | ⟨blocked, ⟨here, root, large⟩ | ⟨last, large⟩⟩
  · omega
  · omega
  · omega

end Verdicts

/-! ### Two packets -/

/-- A filter with one domain of the service's list. Its queries below are ASCII. -/
def adsHandler : DnsPacketHandler where
  unicode := { lower := fun c => [c], cased := fun _ => false, caseIgnorable := fun _ => false }
  blockedDomains := ["ads.example.com".toList]

/-- A query for the address of `ADS.Example.com`. -/
def adsQuery : JavaArray where
  bytes := [0, 7, 1, 0, 0, 1, 0, 0, 0, 0, 0, 0, 3, 65, 68, 83, 7, 69, 120, 97, 109, 112, 108, 101,
    3, 99, 111, 109, 0, 0, 1, 0, 1]
  size_lt := by decide

theorem ads_query_blocked :
    (∃ result, adsHandler.handleQuery adsQuery 33 = .ok result ∧
      RightResult adsQuery.bytes 33 result) ∧
    adsHandler.handleQuery adsQuery 33 =
      .ok (.blocked "ads.example.com".toList (nxdomain adsQuery.bytes 33) 33) := by
  constructor
  · exact ((filter_right_iff adsHandler adsQuery 33 (by decide)).mpr
      (not_overruns_of_short (by decide))).1
  · have labels : LabelsAt adsQuery.bytes 12
        [[65, 68, 83], [69, 120, 97, 109, 112, 108, 101], [99, 111, 109]] 28 :=
      .cons (by decide) (by decide) (At.of_slice rfl) (.cons (by decide) (by decide)
        (At.of_slice rfl) (.cons (by decide) (by decide) (At.of_slice rfl) .nil))
    have normal : adsHandler.normalized
        [[65, 68, 83], [69, 120, 97, 109, 112, 108, 101], [99, 111, 109]] =
        "ads.example.com".toList := by
      have first : decodeUtf8 [65, 68, 83] = "ADS".toList :=
        decodeUtf8_flatMap "ADS".toList
      have second : decodeUtf8 [69, 120, 97, 109, 112, 108, 101] = "Example".toList :=
        decodeUtf8_flatMap "Example".toList
      have third : decodeUtf8 [99, 111, 109] = "com".toList :=
        decodeUtf8_flatMap "com".toList
      rw [DnsPacketHandler.normalized, List.map_cons, List.map_cons, List.map_cons, List.map_nil,
        first, second, third]
      rfl
    have question : HasQuestion adsQuery.bytes 33 _ 28 := ⟨by decide, labels, rfl, by decide⟩
    rw [handleQuery_question (by decide) question, normal]
    rfl

/-- A header and `n` length bytes of labels of 63 bytes, which are such bytes as well. -/
def filler (n : Nat) : Bytes :=
  [0, 7, 1, 0, 0, 1, 0, 0, 0, 0, 0, 0] ++ List.replicate n 63

theorem length_filler {n : Nat} : (filler n).length = 12 + n := by
  rw [filler, List.length_append, List.length_replicate]
  rfl

theorem getElem?_filler {n i : Nat} (behind : 12 ≤ i) (inside : i < 12 + n) :
    (filler n)[i]? = some 63 := by
  have header : ([0, 7, 1, 0, 0, 1, 0, 0, 0, 0, 0, 0] : Bytes).length = 12 := rfl
  rw [filler, List.getElem?_append_right (by omega), header, List.getElem?_replicate,
    if_pos (by omega)]

theorem labelsAt_filler {n : Nat} (k : Nat) : ∀ i, 12 ≤ i → i + 64 * k ≤ 12 + n →
    LabelsAt (filler n) i (List.replicate k (List.replicate 63 63)) (i + 64 * k) := by
  induction k with
  | zero =>
      intro i behind room
      exact .nil
  | succ k ih =>
      intro i behind room
      have here : At (filler n) i (List.replicate 64 63) := by
        intro t small
        rw [List.length_replicate] at small
        rw [getElem?_filler (by omega) (by omega), List.getElem?_replicate, if_pos small]
      have tail := ih (i + 64) (by omega) (by omega)
      have last : i + 64 * (k + 1) = i + 64 + 64 * k := by omega
      rw [last, List.replicate_succ]
      exact .cons (by rw [List.length_replicate]; decide) (by rw [List.length_replicate]; decide)
        here tail

/-- Two gigabytes: the last label starts 52 bytes below 2^31. -/
def hugeQuery : JavaArray where
  bytes := filler 2147483633
  size_lt := by
    rw [length_filler]
    decide

/-- The end of the last label wraps and passes the check. -/
theorem huge_query_throws :
    hugeQuery.bytes.length = 2147483645 ∧
      adsHandler.handleQuery hugeQuery 2147483645 =
        .error (.outOfBounds (.read 2147483645)) := by
  have length_eq : hugeQuery.bytes.length = 2147483645 := length_filler
  refine ⟨length_eq, ?_⟩
  have labels : LabelsAt hugeQuery.bytes 12 _ (12 + 64 * 33554431) :=
    labelsAt_filler 33554431 12 (by decide) (by decide)
  have filled : hugeQuery.bytes[12 + 64 * 33554431]? = some 63 :=
    getElem?_filler (by decide) (by decide)
  have byte : hugeQuery.bytes[12 + 64 * 33554431]!.toNat = 63 := by
    rw [List.getElem!_of_getElem? filled]
    rfl
  have counted : ¬ qdCount hugeQuery.bytes < 1 := by
    change ¬ be16 0 1 < 1
    decide
  have fits : (2147483645 : Int) ≤ hugeQuery.bytes.length := by omega
  rw [handleQuery_eq (by decide) fits, if_neg counted,
    labels.parseLabels hugeQuery.size_lt fits (by decide),
    parseLabels_overrun hugeQuery.size_lt fits (by decide) (by omega) (by omega) (by omega),
    length_eq]
  rfl

end TonTunnel.DnsFilter
