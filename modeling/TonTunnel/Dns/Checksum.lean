import TonTunnel.Dns.Query
import TonTunnel.Lib.Datagram

/-!
`ipCsum` is the Internet checksum.

RFC 1071 adds up the 16-bit words and then adds the carries back in until there are none.
`ipCsum` takes 65535 off as soon as a sum has more than 16 bits. Both leave a number of
16 bits, with the remainder that the sum of the words has modulo 65535, and both leave 0
only if every word is 0 (`ipCsumLoop_spec`): so they leave the same (`ipCsum_eq`).
-/

namespace TonTunnel.Dns

open BigEndian Datagram

/-! ### One word -/

section Turn

variable {sum : UInt32} {word : UInt16}

/-- `sum += w`. -/
theorem ipCsum_add (small : sum.toNat ≤ 65535) :
    (sum + word.toUInt32).toNat = sum.toNat + word.toNat := by
  have := word.toNat_lt
  rw [UInt32.toNat_add, UInt16.toNat_toUInt32]
  omega

/-- One turn of the loop of `ipCsum`. -/
theorem ipCsum_step (small : sum.toNat ≤ 65535) :
    (if sum + word.toUInt32 > 0xFFFF then sum + word.toUInt32 - 0xFFFF
      else sum + word.toUInt32).toNat =
    if 65535 < sum.toNat + word.toNat then sum.toNat + word.toNat - 65535
      else sum.toNat + word.toNat := by
  have total := @ipCsum_add sum word small
  have carry : (0xFFFF : UInt32).toNat = 65535 := rfl
  by_cases carries : sum + word.toUInt32 > 0xFFFF
  · have high := UInt32.lt_iff_toNat_lt.mp carries
    rw [if_pos carries, UInt32.toNat_sub_of_le _ _ (UInt32.le_iff_toNat_le.mpr high.le), total,
      if_pos (by omega)]
    rfl
  · have low := mt UInt32.lt_iff_toNat_lt.mpr carries
    rw [if_neg carries, total, if_neg (by omega)]

end Turn

/-! ### All words -/

/-- What the loop keeps: a number of 16 bits that is folded from the words so far. -/
theorem ipCsumLoop_spec {data : Bytes} : ∀ {sum : UInt32}, sum.toNat ≤ 65535 →
    (ipCsumLoop sum data).toNat ≤ 65535 ∧
      (ipCsumLoop sum data).toNat % 65535 = (sum.toNat + wordSum data) % 65535 ∧
      ((ipCsumLoop sum data).toNat = 0 ↔ sum.toNat + wordSum data = 0) := by
  fun_induction wordSum data with
  | case1 a b rest ih =>
      intro sum small
      have := (be16 a b).toNat_lt
      have next := @ipCsum_step sum (be16 a b) small
      rw [ipCsumLoop]
      generalize (if sum + (be16 a b).toUInt32 > 0xFFFF then sum + (be16 a b).toUInt32 - 0xFFFF
        else sum + (be16 a b).toUInt32) = sum' at next
      obtain ⟨low, value, zero⟩ := @ih sum' (by split at next <;> omega)
      refine ⟨low, ?_, ?_⟩
      · rw [value]
        split at next <;> omega
      · rw [zero]
        split at next <;> omega
  | case2 a =>
      intro sum small
      have := (be16 a 0).toNat_lt
      rw [ipCsumLoop, ipCsum_step small]
      split <;> omega
  | case3 =>
      intro sum small
      exact ⟨small, rfl, Iff.rfl⟩

theorem toNat_ipCsum (data : Bytes) : (ipCsum data).toNat = 65535 - (ipCsumLoop 0 data).toNat := by
  obtain ⟨small, -, -⟩ := @ipCsumLoop_spec data 0 (by decide)
  have mask (n : Nat) : n &&& (0xFFFF : UInt32).toNat = n % 65536 :=
    Nat.and_two_pow_sub_one_eq_mod n 16
  have size : UInt32.size = 4294967296 := rfl
  rw [ipCsum, UInt32.toNat_toUInt16, UInt32.toNat_and, UInt32.toNat_not, mask]
  omega

/-- `ipCsum` computes the checksum of RFC 1071. -/
theorem ipCsum_eq (data : Bytes) : (ipCsum data).toNat = internetChecksum data := by
  obtain ⟨small, value, zero⟩ := @ipCsumLoop_spec data 0 (by decide)
  have start : (0 : UInt32).toNat = 0 := rfl
  rw [start, Nat.zero_add] at value zero
  rw [toNat_ipCsum, foldCarries_unique small value zero, internetChecksum]

/-- The checksum is what the words lack. -/
theorem ipCsum_spec (data : Bytes) : (wordSum data + (ipCsum data).toNat) % 65535 = 0 := by
  obtain ⟨small, value, -⟩ := foldCarries_spec (wordSum data)
  rw [ipCsum_eq, internetChecksum]
  omega

/-! ### The running sum -/

/-- The values that `sum` takes: with a word more, and with the carry taken off. -/
def ipCsumSums (sum : UInt32) : Bytes → List UInt32
  | a :: b :: rest =>
      let total := sum + (be16 a b).toUInt32
      let next := if total > 0xFFFF then total - 0xFFFF else total
      total :: next :: ipCsumSums next rest
  | [a] =>
      let total := sum + (be16 a 0).toUInt32
      [total, if total > 0xFFFF then total - 0xFFFF else total]
  | [] => []

/-- The last of them is what the loop computes. -/
theorem getLast_ipCsumSums {data : Bytes} (sum : UInt32) :
    (sum :: ipCsumSums sum data).getLast (List.cons_ne_nil _ _) = ipCsumLoop sum data := by
  fun_induction wordSum data generalizing sum with
  | case1 a b rest ih =>
      rw [ipCsumLoop, ← ih]
      rfl
  | case2 a => rfl
  | case3 => rfl

theorem ipCsumSums_le {data : Bytes} : ∀ {sum : UInt32}, sum.toNat ≤ 65535 →
    ∀ v ∈ ipCsumSums sum data, v.toNat ≤ 0x1FFFE := by
  fun_induction wordSum data with
  | case1 a b rest ih =>
      intro sum small v mem
      have := (be16 a b).toNat_lt
      have next := @ipCsum_step sum (be16 a b) small
      rcases List.mem_cons.mp mem with rfl | mem
      · rw [ipCsum_add small]
        omega
      · rcases List.mem_cons.mp mem with rfl | mem
        · rw [next]
          split <;> omega
        · apply ih _ v mem
          rw [next]
          split <;> omega
  | case2 a =>
      intro sum small v mem
      have := (be16 a 0).toNat_lt
      rcases List.mem_cons.mp mem with rfl | mem
      · rw [ipCsum_add small]
        omega
      · rw [List.mem_singleton.mp mem, ipCsum_step small]
        split <;> omega
  | case3 =>
      intro sum small v mem
      cases mem

/-! ### Headers -/

/-- A header with its checksum in the place of the two zeros. -/
theorem ipCsum_stored {front back : Bytes} (even : front.length % 2 = 0) :
    ipCsum (front ++ (writeU16 (ipCsum (front ++ ([0, 0] ++ back))) ++ back)) = 0 := by
  have zeros : wordSum (front ++ ([0, 0] ++ back)) = wordSum front + wordSum back := by
    rw [wordSum_append even, ← writeU16_zero, wordSum_word]
    exact congrArg _ (Nat.zero_add _)
  have taken := ipCsum_eq (front ++ ([0, 0] ++ back))
  rw [internetChecksum, zeros] at taken
  obtain ⟨small, value, zero⟩ := foldCarries_spec (wordSum front + wordSum back)
  generalize ipCsum (front ++ ([0, 0] ++ back)) = word at taken
  have whole : wordSum (front ++ (writeU16 word ++ back)) =
      wordSum front + (word.toNat + wordSum back) := by
    rw [wordSum_append even, wordSum_word]
  obtain ⟨small', value', zero'⟩ := foldCarries_spec (wordSum front + (word.toNat + wordSum back))
  have cleared := ipCsum_eq (front ++ (writeU16 word ++ back))
  rw [internetChecksum, whole] at cleared
  apply UInt16.toNat_inj.mp
  rw [cleared]
  change 65535 - _ = 0
  omega

/-- **`ipCsum` is the Internet checksum.** It is the one of RFC 1071 for data of every
length, its running sum, the last value of which is what the loop returns, stays below
2 * 65535, and a header of which the checksum field is zero has the checksum 0 once its
checksum is stored there. -/
theorem ipCsum_internet :
    (∀ data, (ipCsum data).toNat = internetChecksum data) ∧
    (∀ data, (0 :: ipCsumSums 0 data).getLast (List.cons_ne_nil _ _) = ipCsumLoop 0 data ∧
      ∀ v ∈ ipCsumSums 0 data, v ≤ 0x1FFFE) ∧
    ∀ (header : Bytes) (k : Nat), k % 2 = 0 → k + 2 ≤ header.length →
      slice header k (k + 2) = [0, 0] →
      ipCsum (header.take k ++ (writeU16 (ipCsum header) ++ header.drop (k + 2))) = 0 := by
  refine ⟨ipCsum_eq, ?_, ?_⟩
  · intro data
    refine ⟨getLast_ipCsumSums 0, fun v mem => ?_⟩
    exact UInt32.le_iff_toNat_le.mpr (ipCsumSums_le (by decide) v mem)
  · intro header k even inside zeros
    have split : header = header.take k ++ ([0, 0] ++ header.drop (k + 2)) := by
      have field : (header.drop k).take 2 = [0, 0] := by
        rwa [slice, Nat.add_sub_cancel_left] at zeros
      rw [← field, ← List.drop_drop, List.take_append_drop, List.take_append_drop]
    have evenFront : (header.take k).length % 2 = 0 := by
      rw [List.length_take, Nat.min_eq_left (by omega)]
      exact even
    have stored := @ipCsum_stored (header.take k) (header.drop (k + 2)) evenFront
    rwa [← split] at stored

end TonTunnel.Dns
