import TonTunnel.Dns.Reply

/-!
How `parseDnsName` walks through a message.

A turn of its loop follows a pointer, of which there are 20 at most, or moves behind a label
(`turn_goes`): the pair of the jumps left and the bytes left gets smaller, so every walk
ends (`parseDnsName_ends`), also one in a circle. Where a name can be read at all, the text
is right, but of a name with a pointer the result is not the bytes that it occupies: it
is the way from the pointer to the zero that ends the name (`parseDnsName_read`), which is
negative for every pointer backwards (`name_right_iff`).
-/

namespace TonTunnel.Dns

open Buffer BigEndian Datagram DnsMessage

/-! ### Turns of the loop -/

/-- The variables of the loop. -/
structure Cursor where
  off : Nat
  jumps : Nat
  orig : Nat
  jumped : Bool
  out : Bytes
  deriving DecidableEq, Repr

/-- The variables before the first turn. -/
def Cursor.start (off : Nat) : Cursor :=
  { off, jumps := 0, orig := off, jumped := false, out := [] }

/-- The loop goes on, or the function returns. -/
inductive Turn where
  | goOn (c : Cursor)
  | returns (n : Int) (host : Bytes)
  deriving DecidableEq, Repr

/-- One turn. -/
def turn (pkt : Bytes) (len : Nat) (c : Cursor) : Except Fault Turn :=
  if c.off < len ∧ c.jumps < 20 then do
    let l ← get pkt c.off
    if l = 0 then
      let off := if c.jumped then c.off else c.off + 1
      return .returns (toInt ((off : Int) - c.orig)) (popDot c.out)
    else if l &&& 0xC0 = 0xC0 then
      if c.off + 1 ≥ len then
        return .returns (-1) c.out
      else
        let ptr := (be16 (l &&& 0x3F) (← get pkt (c.off + 1))).toNat
        if ptr ≥ len then
          return .returns (-1) c.out
        else
          return .goOn { c with
            off := ptr, jumps := c.jumps + 1
            orig := if c.jumped then c.orig else c.off + 2, jumped := true }
    else
      let n := min l.toNat (len - (c.off + 1))
      let label ← getSlice pkt (c.off + 1) n
      return .goOn { c with off := c.off + 1 + n, out := c.out ++ label ++ [46] }
  else
    return .returns (-1) c.out

/-- The loop of `parseDnsName` from these variables on. -/
def Cursor.loop (pkt : Bytes) (len : Nat) (c : Cursor) : Except Fault (Int × Bytes) :=
  parseDnsNameLoop pkt len c.off c.jumps c.orig c.jumped c.out

/-- The loop goes on with these variables. -/
def Goes (pkt : Bytes) (len : Nat) (c c' : Cursor) : Prop :=
  turn pkt len c = .ok (.goOn c')

section Turns

variable {pkt : Bytes} {len : Nat} {c c' : Cursor}

/-- The loop is made of these turns. -/
theorem loop_turn : c.loop pkt len = turn pkt len c >>= fun
    | .goOn c' => c'.loop pkt len
    | .returns n host => .ok (n, host) := by
  rw [Cursor.loop, parseDnsNameLoop, turn]
  split
  · cases get pkt c.off with
    | error fault => rfl
    | ok l =>
        simp only [ok_bind]
        split
        · rfl
        · split
          · split
            · rfl
            · cases get pkt (c.off + 1) with
              | error fault => rfl
              | ok low =>
                  simp only [ok_bind]
                  split <;> rfl
          · cases getSlice pkt (c.off + 1) (min l.toNat (len - (c.off + 1))) with
            | error fault => rfl
            | ok label => rfl
  · rfl

theorem Goes.loop_eq (goes : Goes pkt len c c') : c.loop pkt len = c'.loop pkt len := by
  rw [loop_turn, goes]
  rfl

/-- A turn follows a pointer or moves behind a label. -/
theorem Goes.cases (goes : Goes pkt len c c') : c.off < len ∧ c.jumps < 20 ∧
    (c'.jumps = c.jumps + 1 ∧ c'.off < len ∨
      c'.jumps = c.jumps ∧ c.off < c'.off ∧ c'.off ≤ len) := by
  unfold Goes turn at goes
  split at goes
  · next inside =>
      refine ⟨inside.1, inside.2, ?_⟩
      cases byte : get pkt c.off with
      | error fault =>
          rw [byte] at goes
          cases goes
      | ok l =>
          rw [byte] at goes
          simp only [ok_bind] at goes
          split at goes
          · cases goes
          · split at goes
            · split at goes
              · cases goes
              · cases second : get pkt (c.off + 1) with
                | error fault =>
                    rw [second] at goes
                    cases goes
                | ok low =>
                    rw [second] at goes
                    simp only [ok_bind] at goes
                    split at goes
                    · cases goes
                    · next target =>
                        cases goes
                        exact Or.inl ⟨rfl, Nat.lt_of_not_le target⟩
            · cases text : getSlice pkt (c.off + 1) (min l.toNat (len - (c.off + 1))) with
              | error fault =>
                  rw [text] at goes
                  cases goes
              | ok label =>
                  rw [text] at goes
                  cases goes
                  refine Or.inr ⟨rfl, ?_, ?_⟩
                  · change c.off < c.off + 1 + _
                    omega
                  · change c.off + 1 + min l.toNat (len - (c.off + 1)) ≤ len
                    omega
  · cases goes

/-- What is left of a walk: the jumps first, then the bytes. -/
def Cursor.left (len : Nat) (c : Cursor) : Nat :=
  (20 - c.jumps) * (len + 1) + (len - c.off)

theorem Goes.left_lt (goes : Goes pkt len c c') : c'.left len < c.left len := by
  obtain ⟨inside, few, jump | label⟩ := goes.cases
  · obtain ⟨jumps, target⟩ := jump
    have fewer : 20 - c.jumps = 20 - c'.jumps + 1 := by omega
    rw [Cursor.left, Cursor.left, fewer, Nat.succ_mul]
    omega
  · obtain ⟨jumps, forward, bound⟩ := label
    rw [Cursor.left, Cursor.left, jumps]
    omega

end Turns

/-! ### Walks -/

section Walks

variable {pkt : Bytes} {len : Nat} {c : Cursor}

/-- Every walk is short. -/
theorem length_le_left {path : List Cursor} (walk : (c :: path).IsChain (Goes pkt len)) :
    path.length ≤ c.left len := by
  induction path generalizing c with
  | nil => exact Nat.zero_le _
  | cons c' path ih =>
      obtain ⟨goes, rest⟩ := List.isChain_cons_cons.mp walk
      have shorter := goes.left_lt
      have := ih rest
      rw [List.length_cons]
      omega

/-- Along a walk the loop has the same result, and it has not jumped more than 20 times. -/
theorem walk_spec {path : List Cursor} (walk : (c :: path).IsChain (Goes pkt len))
    (few : c.jumps ≤ 20) :
    ∀ c' ∈ c :: path, c'.loop pkt len = c.loop pkt len ∧ c'.jumps ≤ 20 := by
  induction path generalizing c with
  | nil =>
      intro c' mem
      rw [List.mem_singleton.mp mem]
      exact ⟨rfl, few⟩
  | cons next path ih =>
      obtain ⟨goes, rest⟩ := List.isChain_cons_cons.mp walk
      intro c' mem
      rcases List.mem_cons.mp mem with rfl | mem
      · exact ⟨rfl, few⟩
      · obtain ⟨-, below, jump | label⟩ := goes.cases
        · rw [goes.loop_eq]
          exact ih rest (by omega) c' mem
        · rw [goes.loop_eq]
          exact ih rest (by omega) c' mem

/-- The walk through a name comes to a zero byte. -/
inductive Terminated (m : Bytes) : Nat → Prop
  | zero {i : Nat} (here : m[i]? = some 0) : Terminated m i
  | label {i : Nat} {l : UInt8} (here : m[i]? = some l) (nonempty : l ≠ 0)
      (plain : l &&& 0xC0 ≠ 0xC0) (tail : Terminated m (i + 1 + l.toNat)) : Terminated m i
  | pointer {i : Nat} {high low : UInt8} (here : m[i]? = some high)
      (mark : high &&& 0xC0 = 0xC0) (next : m[i + 1]? = some low)
      (target : Terminated m (pointerTarget high low)) : Terminated m i

theorem Terminated.lt_length {m : Bytes} {i : Nat} (h : Terminated m i) : i < m.length := by
  cases h with
  | zero here | label here | pointer here => exact (List.getElem?_eq_some_iff.mp here).1

/-- Without a terminating zero the result is -1. -/
theorem parseDnsNameLoop_endless {off jumps orig : Nat} {jumped : Bool} {out host : Bytes}
    {n : Int} (endless : ¬ Terminated pkt off)
    (returns : parseDnsNameLoop pkt pkt.length off jumps orig jumped out = .ok (n, host)) :
    n = -1 := by
  have byte {i : Nat} (inside : i < pkt.length) : pkt[i]? = some pkt[i]! := by
    rw [List.getElem?_eq_getElem inside, getElem!_pos pkt i inside]
  induction off, jumps, orig, jumped, out using parseDnsNameLoop.induct pkt.length with
  | case1 off jumps orig jumped out inside ihJump ihLabel =>
      rw [parseDnsNameLoop_eq le_rfl, if_pos inside] at returns
      split at returns
      · next zero => exact absurd (.zero (zero ▸ byte inside.1)) endless
      · next nonempty =>
          split at returns
          · next mark =>
              split at returns
              · next target =>
                  apply ihJump _ _ _ returns
                  intro terminated
                  exact endless (.pointer (byte inside.1) mark (byte target.1) terminated)
              · cases returns
                rfl
          · next plain =>
              apply ihLabel _ _ _ returns
              intro terminated
              have inPacket := terminated.lt_length
              rw [min_eq_left (by omega)] at terminated
              exact endless (.label (byte inside.1) nonempty plain terminated)
  | case2 off jumps orig jumped out outside =>
      rw [parseDnsNameLoop_eq le_rfl, if_neg outside] at returns
      cases returns
      rfl

end Walks

/-- **`parseDnsName` ends inside the packet.** For every packet and every offset it returns,
whatever stands in memory behind the packet; without a terminating zero in the packet the
result is -1. On the way the loop jumps 20 times at most, and between two jumps the offset
grows. -/
theorem parseDnsName_ends (pkt : Bytes) (off : Nat) :
    (∃ n host, (∀ behind, parseDnsName (pkt ++ behind) pkt.length off = .ok (n, host)) ∧
      (¬ Terminated pkt off → n = -1)) ∧
    ∀ path : List Cursor, (Cursor.start off :: path).IsChain (Goes pkt pkt.length) →
      path.length ≤ 21 * (pkt.length + 1) ∧
      (∀ c ∈ Cursor.start off :: path,
        c.loop pkt pkt.length = parseDnsName pkt pkt.length off ∧ c.jumps ≤ 20) ∧
      (Cursor.start off :: path).IsChain fun c c' =>
        c'.jumps = c.jumps + 1 ∨ c'.jumps = c.jumps ∧ c.off < c'.off := by
  constructor
  · obtain ⟨n, host, returns⟩ := @parseDnsName_ok pkt pkt.length off le_rfl
    refine ⟨n, host, ?_, ?_⟩
    · intro behind
      have room : pkt.length ≤ (pkt ++ behind).length := by
        rw [List.length_append]
        exact Nat.le_add_right _ _
      rw [parseDnsName, ← parseDnsNameLoop_take room, List.take_left]
      exact returns
    · intro endless
      exact parseDnsNameLoop_endless endless returns
  · intro path walk
    refine ⟨?_, walk_spec walk (Nat.zero_le _), ?_⟩
    · have short := length_le_left walk
      have left : (Cursor.start off).left pkt.length ≤ 21 * (pkt.length + 1) := by
        change 20 * (pkt.length + 1) + (pkt.length - off) ≤ _
        omega
      exact short.trans left
    · apply walk.imp
      intro c c' goes
      obtain ⟨-, -, jump | label⟩ := goes.cases
      · exact Or.inl jump.1
      · exact Or.inr ⟨label.1, label.2.1⟩

/-! ### Names -/

section Names

variable {m out : Bytes} {i jumps orig pointers last behind : Nat} {jumped : Bool} {name : Name}

/-- The difference that the loop returns: to the zero, from where the walk began or from
behind the first pointer. -/
def returned (jumped : Bool) (orig pointers last behind : Nat) : Int :=
  if jumped then (last : Int) - orig
  else if pointers = 0 then (last + 1 : Nat) - (orig : Int)
  else (last : Int) - behind

theorem parseDnsNameLoop_read (h : NameRead m i name pointers last behind)
    (few : jumps + pointers < 20) :
    parseDnsNameLoop m m.length i jumps orig jumped out =
      .ok (toInt (returned jumped orig pointers last behind), popDot (out ++ dots name)) := by
  induction h generalizing jumps orig jumped out with
  | @root i here =>
      have inside : i + 1 ≤ m.length := here.length_le (Nat.zero_lt_succ _)
      rw [parseDnsNameLoop_eq le_rfl, if_pos ⟨inside, by omega⟩,
        List.getElem!_of_getElem? here.head, if_pos rfl, dots, List.flatMap_nil, List.append_nil]
      cases jumped <;> rfl
  | @label i pointers last behind label rest nonempty short here tail ih =>
      obtain ⟨notRoot, notPointer, value⟩ := length_byte _ short nonempty
      have room := here.length_le (Nat.zero_lt_succ _)
      rw [List.length_cons] at room
      have text : At m i ([label.length.toUInt8] ++ label) := here
      have bytes : (m.drop (i + 1)).take label.length = label := text.right.slice_eq
      rw [parseDnsNameLoop_eq le_rfl, if_pos ⟨by omega, by omega⟩,
        List.getElem!_of_getElem? here.head, if_neg notRoot, if_neg notPointer, value,
        min_eq_left (by omega), bytes, ih few]
      simp [dots]
  | @pointer i pointers last behind high low name mark here target ih =>
      have room : i + 2 ≤ m.length := here.length_le (Nat.zero_lt_succ _)
      have second : m[i + 1]! = low := List.getElem!_of_getElem? (here 1 (Nat.lt_succ_self 1))
      rw [parseDnsNameLoop_eq le_rfl, if_pos ⟨by omega, by omega⟩,
        List.getElem!_of_getElem? here.head, if_neg (mark_ne_zero mark), if_pos mark, second,
        if_pos ⟨by omega, target.lt_length⟩, ih (by omega)]
      cases jumped <;> rfl

/-- What `parseDnsName` returns for a name. -/
theorem parseDnsName_read (h : NameRead m i name pointers last behind) (few : pointers < 20) :
    parseDnsName m m.length i =
      .ok (toInt (if pointers = 0 then (behind : Int) - i else (last : Int) - behind),
        hostText name) := by
  rw [parseDnsName, parseDnsNameLoop_read h (by omega), List.nil_append, popDot_dots, returned]
  by_cases plain : pointers = 0
  · rw [if_pos plain, if_pos plain, h.behind_eq plain]
    rfl
  · rw [if_neg plain, if_neg plain]
    rfl

end Names

/-! ### Built names -/

/-- A name without pointers, up to its zero. -/
def wire (name : Name) : Bytes :=
  name.flatMap fun label => label.length.toUInt8 :: label

/-- Labels of 1 to 63 bytes, none of them a dot. -/
def Dotted (name : Name) : Prop :=
  ∀ label ∈ name, 0 < label.length ∧ label.length < 64 ∧ 46 ∉ label

section Built

variable {name : Name}

section Labels

variable {label rest : Bytes}

/-- The last label of a name. -/
theorem buildDnsLabels_last (nonempty : 0 < label.length) (noDot : 46 ∉ label) :
    buildDnsLabels label = label.length.toUInt8 :: label ++ [] := by
  have whole : label.takeWhile (· ≠ 46) = label := by
    apply List.takeWhile_eq_self_iff.mpr
    intro b mem
    exact decide_eq_true (fun same => noDot (same ▸ mem))
  rw [buildDnsLabels, if_neg (List.ne_nil_of_length_pos nonempty)]
  simp only [whole]
  rw [List.drop_eq_nil_of_le (Nat.le_succ _), buildDnsLabels, if_pos rfl]

/-- A label with a dot behind it. -/
theorem buildDnsLabels_dot (noDot : 46 ∉ label) :
    buildDnsLabels (label ++ 46 :: rest) =
      label.length.toUInt8 :: label ++ buildDnsLabels rest := by
  have front : (label ++ 46 :: rest).takeWhile (· ≠ 46) = label := by
    rw [List.takeWhile_append_of_pos]
    · simp
    · intro b mem
      exact decide_eq_true (fun same => noDot (same ▸ mem))
  rw [buildDnsLabels, if_neg (by simp)]
  simp only [front]
  rw [← List.drop_drop, List.drop_left, List.drop_one, List.tail_cons]

end Labels

theorem Dotted.tail {label : List UInt8} (dotted : Dotted (label :: name)) : Dotted name := by
  intro other mem
  exact dotted other (List.mem_cons_of_mem _ mem)

theorem wire_cons {label : List UInt8} :
    wire (label :: name) = label.length.toUInt8 :: label ++ wire name := by
  rw [wire, List.flatMap_cons, ← wire]

theorem hostText_cons {label next : List UInt8} :
    hostText (label :: next :: name) = label ++ 46 :: hostText (next :: name) := by
  simp [hostText, List.intercalate]

theorem buildDnsLabels_hostText (dotted : Dotted name) :
    buildDnsLabels (hostText name) = wire name := by
  induction name with
  | nil =>
      have empty : hostText [] = [] := by simp [hostText]
      rw [empty, buildDnsLabels, if_pos rfl]
      rfl
  | cons label rest ih =>
      obtain ⟨nonempty, -, plain⟩ := dotted label List.mem_cons_self
      rw [wire_cons, ← ih dotted.tail]
      cases rest with
      | nil =>
          have text : hostText [label] = label := by simp [hostText]
          have empty : hostText [] = [] := by simp [hostText]
          rw [text, empty, buildDnsLabels_last nonempty plain, buildDnsLabels, if_pos rfl]
      | cons next rest => rw [hostText_cons, buildDnsLabels_dot plain]

/-- A built name can be read back from where it stands. -/
theorem nameRead_wire (dotted : Dotted name) (front back : Bytes) :
    NameRead (front ++ (wire name ++ 0 :: back)) front.length name 0
      (front.length + (wire name).length) (front.length + (wire name).length + 1) := by
  induction name generalizing front with
  | nil => exact .root (@At.of_append [0] front back)
  | cons label rest ih =>
      obtain ⟨nonempty, short, -⟩ := dotted label List.mem_cons_self
      have tail := ih dotted.tail (front ++ (label.length.toUInt8 :: label))
      have here := @At.of_append (label.length.toUInt8 :: label) front (wire rest ++ 0 :: back)
      have size : (front ++ (label.length.toUInt8 :: label)).length =
          front.length + 1 + label.length := by
        rw [List.length_append, List.length_cons]
        omega
      have whole : front.length + 1 + label.length + (wire rest).length =
          front.length + (wire (label :: rest)).length := by
        rw [wire_cons, List.length_append, List.length_cons]
        omega
      rw [size, whole, List.append_assoc] at tail
      rw [wire_cons, List.append_assoc]
      rw [wire_cons] at tail
      exact .label nonempty short here tail

end Built

/-! ### Results -/

/-- Both the result and the text are right for this name, which ends before `behind`. -/
def RightName (m : Bytes) (i behind : Nat) (name : Name) : Prop :=
  parseDnsName m m.length i = .ok ((behind : Int) - i, hostText name)

theorem toInt_eq_self_iff {n : Int} (nonneg : 0 ≤ n) : toInt n = n ↔ n < 2 ^ 31 := by
  rw [toInt, Int.bmod_def]
  split <;> omega

/-- **The result is right for names without a pointer.** The text always is. The result of a
name with a pointer is the way from behind its first pointer to the zero that ends it, and
that is the number of its bytes by chance only. A built name is read back. -/
theorem name_right_iff {m : Bytes} {i pointers last behind : Nat} {name dots : Name}
    (read : NameRead m i name pointers last behind) (few : pointers < 20) (dotted : Dotted dots) :
    (∃ n, parseDnsName m m.length i = .ok (n, hostText name)) ∧
    (RightName m i behind name ↔
      if pointers = 0 then behind - i < 2 ^ 31 else toInt ((last : Int) - behind) = behind - i) ∧
    (RightName (buildDnsName (hostText dots)) 0 (buildDnsName (hostText dots)).length dots ↔
      (buildDnsName (hostText dots)).length < 2 ^ 31) := by
  have parsed := parseDnsName_read read few
  refine ⟨⟨_, parsed⟩, ?_, ?_⟩
  · have forward := read.lt_behind
    rw [RightName, parsed, Except.ok.injEq, Prod.mk.injEq, and_iff_left rfl]
    split
    · rw [toInt_eq_self_iff (by omega)]
      omega
    · exact Iff.rfl
  · have built : buildDnsName (hostText dots) = [] ++ (wire dots ++ 0 :: []) := by
      rw [buildDnsName, buildDnsLabels_hostText dotted, List.nil_append]
    have read := nameRead_wire dotted [] []
    rw [← built, List.length_nil, Nat.zero_add] at read
    have size : (buildDnsName (hostText dots)).length = (wire dots).length + 1 := by
      rw [built, List.nil_append, List.length_append]
      rfl
    have parsed := parseDnsName_read read (by decide)
    rw [RightName, parsed, Except.ok.injEq, Prod.mk.injEq, and_iff_left rfl, if_pos rfl, size,
      toInt_eq_self_iff (by omega)]
    omega

/-- A message with the question `a`, and a record that has the same name. -/
def compressed : Bytes :=
  [0, 7, 0x81, 0x80, 0, 1, 0, 1, 0, 0, 0, 0, 1, 97, 0, 0, 1, 0, 1, 0xC0, 12]

theorem question_read : NameRead compressed 12 [[97]] 0 14 15 := by
  have root : NameRead compressed 14 [] 0 14 15 := .root (At.of_slice rfl)
  exact .label (by decide) (by decide) (At.of_slice rfl) root

theorem question_name_right :
    RightName compressed 12 15 [[97]] ∧ RightName (buildDnsName (hostText [[97]])) 0 3 [[97]] := by
  have dotted : Dotted [[97]] := by
    intro label mem
    cases List.mem_singleton.mp mem
    decide
  have text : buildDnsName (hostText [[97]]) = [1, 97, 0] := by
    rw [buildDnsName, buildDnsLabels_hostText dotted]
    rfl
  obtain ⟨-, read, built⟩ := name_right_iff question_read (by decide) dotted
  rw [text] at built ⊢
  exact ⟨read.mpr (by decide), built.mpr (by decide)⟩

/-- A query of which the question name is a pointer to its first bytes, the id, which spell `a`. -/
def pointerQuery : Bytes := [1, 97, 0, 0, 0, 1, 0, 0, 0, 0, 0, 0, 0xC0, 0, 0, 1, 0, 1]

theorem pointerQuery_read : NameRead pointerQuery 12 [[97]] 1 2 14 := by
  have root : NameRead pointerQuery 2 [] 0 2 3 := .root (At.of_slice rfl)
  have target : NameRead pointerQuery 0 [[97]] 0 2 3 :=
    .label (by decide) (by decide) (At.of_slice rfl) root
  exact .pointer (by decide) (At.of_slice rfl) (by exact target)

/-- The name occupies two bytes, and the result is -12. -/
theorem compressed_name_negative :
    parseDnsName pointerQuery pointerQuery.length 12 = .ok (-12, hostText [[97]]) ∧
      ¬ ∀ m i name pointers last behind, NameRead m i name pointers last behind → pointers < 20 →
        RightName m i behind name := by
  have read := pointerQuery_read
  have parsed : parseDnsName pointerQuery pointerQuery.length 12 = .ok (-12, hostText [[97]]) :=
    parseDnsName_read read (by decide)
  refine ⟨parsed, fun right => ?_⟩
  have claimed := right _ _ _ _ _ _ read (by decide)
  rw [RightName, parsed] at claimed
  revert claimed
  decide

end TonTunnel.Dns
