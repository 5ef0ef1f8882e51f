import TonTunnel.Lib.BigEndian
import Mathlib.Tactic.Common

/-!
Datagrams of UDP over IPv4.

`At m i bytes` says that these bytes stand at index `i` of `m`, and a header is a
conjunction of such fields. The checksum of an IPv4 header is right when its 16-bit
words add up to a multiple of 65535 (`wordSum`): it was taken with the checksum field
zero and is the difference (`wordSum_checksum`).
-/

namespace Datagram

open BigEndian

/-- These bytes stand at index `i`. -/
def At (m : List UInt8) (i : Nat) (bytes : List UInt8) : Prop :=
  ∀ k < bytes.length, m[i + k]? = bytes[k]?

/-- The sum of the 16-bit words; an odd byte at the end is a high byte. -/
def wordSum : List UInt8 → Nat
  | a :: b :: rest => (be16 a b).toNat + wordSum rest
  | [a] => (be16 a 0).toNat
  | [] => 0

/-- The carries above 16 bits are added back in until there are none. -/
def foldCarries (sum : Nat) : Nat :=
  if sum < 65536 then sum else foldCarries (sum % 65536 + sum / 65536)

/-- The Internet checksum of RFC 1071: the one's complement of the one's complement sum. -/
def internetChecksum (data : List UInt8) : Nat :=
  65535 - foldCarries (wordSum data)

/-- A whole IPv4 packet without options, with a UDP datagram for port `dport` of `dst`. -/
structure IsUdp (pkt : List UInt8) (dst : UInt32) (sport dport : UInt16)
    (payload : List UInt8) : Prop where
  /-- version 4 and a header of five words -/
  version : At pkt 0 [0x45]
  total : pkt.length < 65536 ∧ At pkt 2 (writeU16 pkt.length.toUInt16)
  /-- no more fragments and offset 0 -/
  unfragmented : ∃ word : UInt16, At pkt 6 (writeU16 word) ∧ word &&& 0x3FFF = 0
  protocol : At pkt 9 [17]
  checksum : wordSum (pkt.take 20) % 65535 = 0
  destination : At pkt 16 (writeU32 dst)
  ports : At pkt 20 (writeU16 sport ++ writeU16 dport)
  length : At pkt 24 (writeU16 (8 + payload.length).toUInt16)
  /-- the sender took no checksum of the datagram -/
  unchecked : At pkt 26 [0, 0]
  content : pkt.drop 28 = payload

/-! ### Bytes at an index -/

section Bytes

variable {m bytes before after front back : List UInt8} {i : Nat}

theorem At.of_append : At (before ++ (bytes ++ after)) before.length bytes := by
  intro k inside
  rw [List.getElem?_append_right (by omega), Nat.add_sub_cancel_left,
    List.getElem?_append_left inside]

theorem At.of_slice (same : (m.drop i).take bytes.length = bytes) : At m i bytes := by
  intro k inside
  rw [← List.getElem?_drop, ← same, List.getElem?_take_of_lt inside]

theorem At.slice_eq (h : At m i bytes) : (m.drop i).take bytes.length = bytes := by
  apply List.ext_getElem?
  intro k
  by_cases inside : k < bytes.length
  · rw [List.getElem?_take_of_lt inside, List.getElem?_drop, h k inside]
  · rw [List.getElem?_eq_none (by rw [List.length_take]; omega),
      List.getElem?_eq_none (by omega)]

theorem At.length_le (h : At m i bytes) (nonempty : 0 < bytes.length) :
    i + bytes.length ≤ m.length := by
  have last := h (bytes.length - 1) (by omega)
  rw [List.getElem?_eq_getElem (by omega : bytes.length - 1 < bytes.length)] at last
  have := (List.getElem?_eq_some_iff.mp last).1
  omega

theorem At.unique (h : At m i front) (h' : At m i back) (size : front.length = back.length) :
    front = back := by
  rw [← h.slice_eq, ← h'.slice_eq, size]

theorem At.left (h : At m i (front ++ back)) : At m i front := by
  intro k inside
  rw [h k (by rw [List.length_append]; omega), List.getElem?_append_left inside]

theorem At.right (h : At m i (front ++ back)) : At m (i + front.length) back := by
  intro k inside
  have here := h (front.length + k) (by rw [List.length_append]; omega)
  rw [List.getElem?_append_right (by omega), Nat.add_sub_cancel_left] at here
  rw [Nat.add_assoc, here]

theorem At.head {b : UInt8} (h : At m i (b :: bytes)) : m[i]? = some b :=
  h 0 (Nat.zero_lt_succ _)

end Bytes

/-! ### The checksum -/

theorem wordSum_append {front back : List UInt8} (even : front.length % 2 = 0) :
    wordSum (front ++ back) = wordSum front + wordSum back := by
  fun_induction wordSum front with
  | case1 a b rest ih =>
      simp only [List.length_cons] at even
      rw [List.cons_append, List.cons_append, wordSum, ih (by omega)]
      omega
  | case2 a => simp at even
  | case3 => rw [List.nil_append, Nat.zero_add]

theorem wordSum_word {word : UInt16} {back : List UInt8} :
    wordSum (writeU16 word ++ back) = word.toNat + wordSum back := by
  show (be16 _ _).toNat + wordSum back = _
  rw [be16_write]

/-- Folding keeps the remainder modulo 65535, and it leaves 0 only of 0. -/
theorem foldCarries_spec (sum : Nat) : foldCarries sum ≤ 65535 ∧
    foldCarries sum % 65535 = sum % 65535 ∧ (foldCarries sum = 0 ↔ sum = 0) := by
  fun_induction foldCarries sum with
  | case1 sum small => exact ⟨by omega, rfl, Iff.rfl⟩
  | case2 sum large ih =>
      obtain ⟨low, value, zero⟩ := ih
      refine ⟨low, ?_, ?_⟩
      · rw [value]
        omega
      · rw [zero]
        omega

/-- That determines it. -/
theorem foldCarries_unique {sum n : Nat} (low : n ≤ 65535) (value : n % 65535 = sum % 65535)
    (zero : n = 0 ↔ sum = 0) : n = foldCarries sum := by
  obtain ⟨low', value', zero'⟩ := foldCarries_spec sum
  omega

/-- A checksum that was taken with a zero in its place. -/
theorem wordSum_checksum {front back : List UInt8} {word : UInt16} (even : front.length % 2 = 0)
    (taken : (wordSum (front ++ (writeU16 0 ++ back)) + word.toNat) % 65535 = 0) :
    wordSum (front ++ (writeU16 word ++ back)) % 65535 = 0 := by
  rw [wordSum_append even, wordSum_word] at taken ⊢
  rw [← taken]
  congr 1
  have zero : (0 : UInt16).toNat = 0 := rfl
  omega

end Datagram
