import TonTunnel.Lib.Datagram

/-!
The layout of a DNS message, as a relation between bytes and what they mean.

`NameAt m i name j` says that a domain name starts at index `i` of the message and ends
before `j`. A name is a row of labels that ends with the root or with a pointer to a
name earlier in the message; the names of a message start behind its header of twelve
bytes. `IsMessage` puts questions and records together: the four counts of the header
are the numbers of entries, and the last entry ends where the message does.

The relations are no parser, and two facts stand in for one: the bytes determine what
starts at an index and where it ends (`NameAt.unique`, `QuestionAt.end_unique`,
`RecordAt.end_unique`), and it is there in every message with the same bytes behind its
header (`NameAt.of_agree`, `QuestionAt.of_agree`, `RecordAt.of_agree`).
-/

namespace DnsMessage

open BigEndian Datagram

abbrev Name := List (List UInt8)

structure Question where
  name : Name
  qtype : UInt16
  qclass : UInt16
  deriving DecidableEq, Repr

structure Record where
  name : Name
  rtype : UInt16
  rclass : UInt16
  ttl : UInt32
  rdata : List UInt8
  deriving DecidableEq, Repr

structure Message where
  id : UInt16
  flags : UInt16
  questions : List Question
  answers : List Record := []
  authority : List Record := []
  additional : List Record := []
  deriving DecidableEq, Repr

/-- The offset of a pointer with these two bytes. -/
def pointerTarget (high low : UInt8) : Nat :=
  (be16 (high &&& 0x3F) low).toNat

inductive NameAt (m : List UInt8) : Nat → Name → Nat → Prop
  | root {i : Nat} (here : At m i [0]) : NameAt m i [] (i + 1)
  | label {i j : Nat} {label : List UInt8} {rest : Name} (nonempty : 0 < label.length)
      (short : label.length < 64) (here : At m i (label.length.toUInt8 :: label))
      (tail : NameAt m (i + 1 + label.length) rest j) : NameAt m i (label :: rest) j
  | pointer {i j : Nat} {high low : UInt8} {name : Name} (mark : high &&& 0xC0 = 0xC0)
      (here : At m i [high, low]) (behindHeader : 12 ≤ pointerTarget high low)
      (prior : pointerTarget high low < i) (target : NameAt m (pointerTarget high low) name j) :
      NameAt m i name (i + 2)

/-- A decoder that follows every pointer reads this name at `i`, over so many pointers. The
zero that ends the name is at `last`, and the bytes of the name at `i` itself end before
`behind`. -/
inductive NameRead (m : List UInt8) : Nat → Name → Nat → Nat → Nat → Prop
  | root {i : Nat} (here : At m i [0]) : NameRead m i [] 0 i (i + 1)
  | label {i pointers last behind : Nat} {label : List UInt8} {rest : Name}
      (nonempty : 0 < label.length) (short : label.length < 64)
      (here : At m i (label.length.toUInt8 :: label))
      (tail : NameRead m (i + 1 + label.length) rest pointers last behind) :
      NameRead m i (label :: rest) pointers last behind
  | pointer {i pointers last behind : Nat} {high low : UInt8} {name : Name}
      (mark : high &&& 0xC0 = 0xC0) (here : At m i [high, low])
      (target : NameRead m (pointerTarget high low) name pointers last behind) :
      NameRead m i name (pointers + 1) last (i + 2)

/-- The bytes of a name without pointers. -/
def nameSize (name : Name) : Nat :=
  (name.map fun label => label.length + 1).sum + 1

structure QuestionAt (m : List UInt8) (i : Nat) (q : Question) (j : Nat) : Prop where
  short : nameSize q.name ≤ 255
  named : ∃ k, NameAt m i q.name k ∧ At m k (writeU16 q.qtype ++ writeU16 q.qclass) ∧ j = k + 4

/-- The fields of a record behind its name. -/
def Record.fields (r : Record) : List UInt8 :=
  writeU16 r.rtype ++ (writeU16 r.rclass ++ (writeU32 r.ttl ++
    (writeU16 r.rdata.length.toUInt16 ++ r.rdata)))

structure RecordAt (m : List UInt8) (i : Nat) (r : Record) (j : Nat) : Prop where
  short : nameSize r.name ≤ 255
  sized : r.rdata.length < 65536
  named : ∃ k, NameAt m i r.name k ∧ At m k r.fields ∧ j = k + r.fields.length

/-- A row of entries, each starting where the last one ends. -/
inductive SeqAt {α : Type} (entry : Nat → α → Nat → Prop) : Nat → List α → Nat → Prop
  | nil {i : Nat} : SeqAt entry i [] i
  | cons {i j k : Nat} {x : α} {xs : List α} (head : entry i x j) (tail : SeqAt entry j xs k) :
      SeqAt entry i (x :: xs) k

def Message.header (msg : Message) : List UInt8 :=
  writeU16 msg.id ++ (writeU16 msg.flags ++ (writeU16 msg.questions.length.toUInt16 ++
    (writeU16 msg.answers.length.toUInt16 ++ (writeU16 msg.authority.length.toUInt16 ++
      writeU16 msg.additional.length.toUInt16))))

/-- The records of a message, in the order of its sections. -/
def Message.records (msg : Message) : List Record :=
  msg.answers ++ (msg.authority ++ msg.additional)

/-- The bytes `m` are the message `msg` and nothing else. -/
structure IsMessage (m : List UInt8) (msg : Message) : Prop where
  header : At m 0 msg.header
  counted : msg.questions.length < 65536 ∧ msg.answers.length < 65536 ∧
    msg.authority.length < 65536 ∧ msg.additional.length < 65536
  body : ∃ i, SeqAt (QuestionAt m) 12 msg.questions i ∧ SeqAt (RecordAt m) i msg.records m.length

section Agreement

variable {m m' bytes : List UInt8} {i : Nat}

/-- The two messages have the same bytes behind the header, as far as the first one goes. -/
def Agree (m m' : List UInt8) : Prop :=
  ∀ i, 12 ≤ i → i < m.length → m'[i]? = m[i]?

theorem at_of_agree (agree : Agree m m') (start : 12 ≤ i) (h : At m i bytes) :
    At m' i bytes := by
  intro k inside
  have room := h.length_le (by omega)
  rw [agree (i + k) (by omega) (by omega), h k inside]

end Agreement

/-! ### Names -/

section Names

variable {m m' : List UInt8} {name name' : Name} {i j j' : Nat}

/-- The length byte of a label is neither the root nor the mark of a pointer. -/
theorem length_byte : ∀ n < 64, 0 < n → n.toUInt8 ≠ 0 ∧ n.toUInt8 &&& 0xC0 ≠ 0xC0 ∧
    n.toUInt8.toNat = n := by
  decide

theorem mark_ne_zero {b : UInt8} (mark : b &&& 0xC0 = 0xC0) : b ≠ 0 := by
  rintro rfl
  revert mark
  decide

theorem NameAt.le_length (h : NameAt m i name j) : i < j ∧ j ≤ m.length := by
  induction h with
  | root here =>
      have := here.length_le (Nat.zero_lt_succ _)
      simp only [List.length_singleton] at this
      omega
  | label nonempty short here tail ih => omega
  | pointer mark here behindHeader prior target ih =>
      have := here.length_le (Nat.zero_lt_succ _)
      simp only [List.length_cons, List.length_nil] at this
      omega

/-- The bytes determine the name and its end. -/
theorem NameAt.unique (h : NameAt m i name j) (h' : NameAt m i name' j') :
    name = name' ∧ j = j' := by
  induction h generalizing name' j' with
  | root here =>
      cases h' with
      | root here' => exact ⟨rfl, rfl⟩
      | label nonempty short here' tail =>
          obtain ⟨notRoot, -⟩ := length_byte _ short nonempty
          exact absurd (Option.some.inj (here'.head.symm.trans here.head)) notRoot
      | pointer mark here' behindHeader prior target =>
          exact absurd (Option.some.inj (here'.head.symm.trans here.head)) (mark_ne_zero mark)
  | label nonempty short here tail ih =>
      obtain ⟨notRoot, notPointer, value⟩ := length_byte _ short nonempty
      cases h' with
      | root here' =>
          exact absurd (Option.some.inj (here.head.symm.trans here'.head)) notRoot
      | label nonempty' short' here' tail' =>
          obtain ⟨-, -, value'⟩ := length_byte _ short' nonempty'
          have same := Option.some.inj (here.head.symm.trans here'.head)
          have size : _ = _ := value.symm.trans ((congrArg UInt8.toNat same).trans value')
          have labels := here.unique here' (by simp only [List.length_cons, size])
          obtain ⟨-, rfl⟩ := List.cons.inj labels
          obtain ⟨rfl, rfl⟩ := ih tail'
          exact ⟨rfl, rfl⟩
      | pointer mark here' behindHeader prior target =>
          have same := Option.some.inj (here.head.symm.trans here'.head)
          exact absurd (same ▸ mark) notPointer
  | pointer mark here behindHeader prior target ih =>
      cases h' with
      | root here' =>
          exact absurd (Option.some.inj (here.head.symm.trans here'.head)) (mark_ne_zero mark)
      | label nonempty short here' tail =>
          obtain ⟨-, notPointer, -⟩ := length_byte _ short nonempty
          have same := Option.some.inj (here'.head.symm.trans here.head)
          exact absurd (same ▸ mark) notPointer
      | pointer mark' here' behindHeader' prior' target' =>
          have bytes := here.unique here' rfl
          obtain ⟨rfl, low⟩ := List.cons.inj bytes
          obtain ⟨rfl, -⟩ := List.cons.inj low
          exact ⟨(ih target').1, rfl⟩

theorem NameAt.of_agree (agree : Agree m m') (start : 12 ≤ i) (h : NameAt m i name j) :
    NameAt m' i name j := by
  induction h with
  | root here => exact .root (at_of_agree agree start here)
  | label nonempty short here tail ih =>
      exact .label nonempty short (at_of_agree agree start here) (ih (by omega))
  | pointer mark here behindHeader prior target ih =>
      exact .pointer mark (at_of_agree agree start here) behindHeader prior (ih behindHeader)

theorem NameRead.lt_length {pointers last behind : Nat}
    (h : NameRead m i name pointers last behind) : i < m.length := by
  cases h with
  | root here => exact here.length_le (Nat.zero_lt_succ _)
  | label nonempty short here tail =>
      have := here.length_le (Nat.zero_lt_succ _)
      rw [List.length_cons] at this
      omega
  | pointer mark here target =>
      have : i + 2 ≤ m.length := here.length_le (Nat.zero_lt_succ _)
      omega

/-- Without a pointer the name ends behind its zero. -/
theorem NameRead.behind_eq {pointers last behind : Nat}
    (h : NameRead m i name pointers last behind) (plain : pointers = 0) : behind = last + 1 := by
  induction h with
  | root here => rfl
  | label nonempty short here tail ih => exact ih plain
  | pointer mark here target ih => cases plain

theorem NameRead.lt_behind {pointers last behind : Nat}
    (h : NameRead m i name pointers last behind) : i < behind := by
  induction h with
  | root here => omega
  | label nonempty short here tail ih => omega
  | pointer mark here target ih => omega

end Names

/-! ### Questions and records -/

section Entries

variable {m m' : List UInt8} {q q' : Question} {r r' : Record} {i j j' : Nat}

theorem QuestionAt.end_unique (h : QuestionAt m i q j) (h' : QuestionAt m i q' j') : j = j' := by
  obtain ⟨-, k, named, -, rfl⟩ := h
  obtain ⟨-, k', named', -, rfl⟩ := h'
  rw [(named.unique named').2]

theorem QuestionAt.of_agree (agree : Agree m m') (start : 12 ≤ i) (h : QuestionAt m i q j) :
    QuestionAt m' i q j := by
  obtain ⟨short, k, named, fields, rfl⟩ := h
  have := named.le_length
  exact ⟨short, k, named.of_agree agree start, at_of_agree agree (by omega) fields, rfl⟩

theorem Record.length_fields : r.fields.length = 10 + r.rdata.length := by
  simp only [Record.fields, List.length_append, length_writeU16, length_writeU32]
  omega

theorem RecordAt.le_length (h : RecordAt m i r j) : i < j ∧ j ≤ m.length := by
  obtain ⟨-, -, k, named, fields, rfl⟩ := h
  have := named.le_length
  have size := @Record.length_fields r
  have := fields.length_le (by omega)
  omega

theorem RecordAt.end_unique (h : RecordAt m i r j) (h' : RecordAt m i r' j') : j = j' := by
  obtain ⟨-, sized, k, named, fields, rfl⟩ := h
  obtain ⟨-, sized', k', named', fields', rfl⟩ := h'
  obtain ⟨-, rfl⟩ := named.unique named'
  -- the length field has the same place in both records
  have counts := fields.right.right.right.left.unique fields'.right.right.right.left rfl
  have words := congrArg UInt16.toNat (writeU16_injective counts)
  have sizes : r.rdata.length = r'.rdata.length := by
    have value {n : Nat} (small : n < 65536) : n.toUInt16.toNat = n :=
      UInt16.toNat_ofNat_of_lt small
    rwa [value sized, value sized'] at words
  rw [Record.length_fields, Record.length_fields, sizes]

theorem RecordAt.of_agree (agree : Agree m m') (start : 12 ≤ i) (h : RecordAt m i r j) :
    RecordAt m' i r j := by
  obtain ⟨short, sized, k, named, fields, rfl⟩ := h
  have := named.le_length
  exact ⟨short, sized, k, named.of_agree agree start, at_of_agree agree (by omega) fields, rfl⟩

end Entries

end DnsMessage
