import TonTunnel.Dns.Filter
import TonTunnel.Egress.Policy

/-!
Names that differ in the case of ASCII letters only.

Lowering the ASCII letters of a label before it is decoded is lowering those of its text
(`decodeUtf8_tolower`): a letter is never part of a longer sequence. And the lower case of
a text does not change when its ASCII letters are lowered first (`lowercase_toLower`): the
rule for the sigma only asks whether its neighbours are letters.
-/

namespace TonTunnel.DnsFilter

open Android

/-! ### Characters -/

section Characters

variable {c : Char}

/-- A property of the ASCII characters, value by value. -/
theorem ascii_cases {p : Char → Prop} (all : ∀ n < 128, p (Char.ofNat n)) (ascii : isAscii c) :
    p c := by
  have value := all c.toNat (of_decide_eq_true ascii)
  rwa [Char.ofNat_toNat] at value

theorem toLower_of_wide (wide : ¬ isAscii c) : c.toLower = c := by
  have large : ¬ c.toNat < 128 := fun small => wide (decide_eq_true small)
  have lower : ¬ (c.val ≥ 'A'.val ∧ c.val ≤ 'Z'.val) := by
    intro upper
    have := UInt32.le_iff_toNat_le.mp upper.2
    exact absurd (lt_of_le_of_lt this (by decide)) large
  exact dif_neg lower

/-- What lower case does to an ASCII character and to its byte. -/
theorem ascii_toLower (ascii : isAscii c) : isAscii c.toLower ∧ c.toLower.toLower = c.toLower ∧
    c.toLower.isAlpha = c.isAlpha ∧ asciiIgnorable c.toLower = asciiIgnorable c ∧
    (c.toLower = 'Σ' ↔ c = 'Σ') ∧ String.utf8EncodeChar c = [UInt8.ofNat c.toNat] ∧
    (String.utf8EncodeChar c).map tolower = String.utf8EncodeChar c.toLower :=
  ascii_cases (p := fun c => isAscii c.toLower ∧ c.toLower.toLower = c.toLower ∧
    c.toLower.isAlpha = c.isAlpha ∧ asciiIgnorable c.toLower = asciiIgnorable c ∧
    (c.toLower = 'Σ' ↔ c = 'Σ') ∧ String.utf8EncodeChar c = [UInt8.ofNat c.toNat] ∧
    (String.utf8EncodeChar c).map tolower = String.utf8EncodeChar c.toLower)
    (by decide +kernel) ascii

end Characters

/-! ### Decoding -/

section Decoding

variable {bytes rest : Bytes} {c : Char} {b : UInt8}

/-- Bytes beyond ASCII stay, and no other byte becomes one. -/
theorem tolower_range :
    (128 ≤ b.toNat → tolower b = b) ∧ (b.toNat < 128 → (tolower b).toNat < 128) := by
  have all : ∀ n < 256, (128 ≤ n → tolower (UInt8.ofNat n) = UInt8.ofNat n) ∧
      (n < 128 → (tolower (UInt8.ofNat n)).toNat < 128) := by decide +kernel
  have value := all b.toNat b.toNat_lt
  rwa [UInt8.ofNat_toNat] at value

theorem tolower_high : 128 ≤ (tolower b).toNat ↔ 128 ≤ b.toNat ∧ tolower b = b := by
  constructor
  · intro high
    have wide : 128 ≤ b.toNat := by
      by_contra low
      exact absurd (tolower_range.2 (Nat.lt_of_not_le low)) (Nat.not_lt.mpr high)
    exact ⟨wide, tolower_range.1 wide⟩
  · rintro ⟨high, same⟩
    rwa [same]

theorem tolower_of_high (high : 128 ≤ b.toNat) : tolower b = b :=
  tolower_range.1 high

/-- No byte of a character beyond ASCII is a letter. -/
theorem high_of_mem_encode (wide : ¬ isAscii c) :
    ∀ b ∈ String.utf8EncodeChar c, 128 ≤ b.toNat := by
  have large : ¬ c.val.toNat ≤ 0x7f := fun small =>
    wide (decide_eq_true (Nat.lt_succ_of_le small))
  have byte {n : Nat} (low : 128 ≤ n) (small : n < 256) : 128 ≤ (UInt8.ofNat n).toNat := by
    rwa [UInt8.toNat_ofNat_of_lt' small]
  rw [String.utf8EncodeChar, if_neg large]
  split
  · simp only [List.forall_mem_cons, List.not_mem_nil, false_implies, implies_true, and_true]
    exact ⟨byte (by omega) (by omega), byte (by omega) (by omega)⟩
  · split
    · simp only [List.forall_mem_cons, List.not_mem_nil, false_implies, implies_true, and_true]
      exact ⟨byte (by omega) (by omega), byte (by omega) (by omega), byte (by omega) (by omega)⟩
    · simp only [List.forall_mem_cons, List.not_mem_nil, false_implies, implies_true, and_true]
      exact ⟨byte (by omega) (by omega), byte (by omega) (by omega), byte (by omega) (by omega),
        byte (by omega) (by omega)⟩

theorem encode_toLower :
    (String.utf8EncodeChar c).map tolower = String.utf8EncodeChar c.toLower := by
  by_cases ascii : isAscii c
  · obtain ⟨-, -, -, -, -, -, encoded⟩ := ascii_toLower ascii
    exact encoded
  · rw [toLower_of_wide ascii]
    conv_rhs => rw [← List.map_id (String.utf8EncodeChar c)]
    exact List.map_congr_left fun b mem => tolower_of_high (high_of_mem_encode ascii b mem)

theorem decode_iff : bytes.toByteArray.utf8DecodeChar? 0 = some c ↔
    ∃ rest, bytes = String.utf8EncodeChar c ++ rest := by
  constructor
  · intro h
    obtain ⟨tail, eq⟩ := ByteArray.exists_of_utf8DecodeChar?_eq_some h
    have lists := congrArg (fun b => b.data.toList) eq
    simp only [List.toList_data_toByteArray, ByteArray.data_append, Array.toList_append] at lists
    exact ⟨_, lists⟩
  · rintro ⟨rest, rfl⟩
    rw [List.toByteArray_append]
    exact ByteArray.utf8DecodeChar?_utf8EncodeChar_append

theorem encode_ascii (ascii : isAscii c) : String.utf8EncodeChar c = [UInt8.ofNat c.toNat] := by
  obtain ⟨-, -, -, -, -, single, -⟩ := ascii_toLower ascii
  exact single

/-- Where the lowered bytes start with a character, the bytes do. -/
theorem decode_of_tolower {d : Char}
    (h : (bytes.map tolower).toByteArray.utf8DecodeChar? 0 = some d) :
    ∃ c, bytes.toByteArray.utf8DecodeChar? 0 = some c := by
  obtain ⟨tail, eq⟩ := decode_iff.mp h
  obtain ⟨front, back, rfl, front_eq, -⟩ := List.map_eq_append_iff.mp eq
  by_cases ascii : isAscii d
  · have small : d.toNat < 128 := of_decide_eq_true ascii
    rw [encode_ascii ascii, List.map_eq_singleton_iff] at front_eq
    obtain ⟨b, rfl, lowered⟩ := front_eq
    have low : b.toNat < 128 := by
      by_contra high
      have same := tolower_of_high (Nat.le_of_not_lt high)
      rw [same] at lowered
      rw [lowered, UInt8.toNat_ofNat_of_lt' (lt_trans small (by decide))] at high
      exact high small
    have same : (Char.ofNat b.toNat).toNat = b.toNat := by
      have values : ∀ n < 128, (Char.ofNat n).toNat = n := by decide
      exact values _ low
    refine ⟨Char.ofNat b.toNat, decode_iff.mpr ⟨back, ?_⟩⟩
    rw [encode_ascii (decide_eq_true (same.trans_lt low)), same, UInt8.ofNat_toNat]
  · refine ⟨d, decode_iff.mpr ⟨back, ?_⟩⟩
    rw [← front_eq]
    congr 1
    conv_lhs => rw [← List.map_id front]
    apply List.map_congr_left
    intro b mem
    have high := high_of_mem_encode ascii (tolower b) (front_eq ▸ List.mem_map_of_mem mem)
    exact (tolower_high.mp high).2.symm

theorem decode_tolower :
    (bytes.map tolower).toByteArray.utf8DecodeChar? 0 =
      (bytes.toByteArray.utf8DecodeChar? 0).map Char.toLower := by
  cases found : bytes.toByteArray.utf8DecodeChar? 0 with
  | some c =>
      obtain ⟨rest, rfl⟩ := decode_iff.mp found
      rw [Option.map_some, decode_iff, List.map_append, encode_toLower]
      exact ⟨_, rfl⟩
  | none =>
      rw [Option.map_none, Option.eq_none_iff_forall_ne_some]
      intro d lowered
      obtain ⟨c, some⟩ := decode_of_tolower lowered
      rw [found] at some
      cases some

theorem utf8Size_toLower : c.toLower.utf8Size = c.utf8Size := by
  rw [← String.length_utf8EncodeChar, ← encode_toLower, List.length_map,
    String.length_utf8EncodeChar]

/-- Lowering the letters of the bytes is lowering those of the text. -/
theorem decodeUtf8_tolower :
    decodeUtf8 (bytes.map tolower) = (decodeUtf8 bytes).map Char.toLower := by
  fun_induction decodeUtf8 bytes with
  | case1 => rw [List.map_nil, decodeUtf8, List.map_nil]
  | case2 b rest c found ih =>
      have lowered := @decode_tolower (b :: rest)
      rw [found, Option.map_some] at lowered
      rw [List.map_cons] at lowered ⊢
      rw [decodeUtf8, lowered]
      simp only [utf8Size_toLower, ← List.map_drop, ih, List.map_cons]
  | case3 b rest found ih =>
      have lowered := @decode_tolower (b :: rest)
      rw [found, Option.map_none] at lowered
      rw [List.map_cons] at lowered ⊢
      rw [decodeUtf8, lowered]
      simp only [ih, List.map_cons]
      rfl

end Decoding

/-! ### Lower case -/

section LowerCase

variable {u : UnicodeData}

/-- What the lower case of a text asks about a character is the same in both cases. -/
theorem lowerChar_toLower {c : Char} : lowerChar u c.toLower = lowerChar u c ∧
    isCased u c.toLower = isCased u c ∧ isCaseIgnorable u c.toLower = isCaseIgnorable u c ∧
    (c.toLower = 'Σ' ↔ c = 'Σ') := by
  by_cases ascii : isAscii c
  · obtain ⟨still, lower, letter, ignorable, sigma, -, -⟩ := ascii_toLower ascii
    refine ⟨?_, ?_, ?_, sigma⟩
    · rw [lowerChar, lowerChar, lower, if_pos still, if_pos ascii]
    · rw [isCased, isCased, letter, if_pos still, if_pos ascii]
    · rw [isCaseIgnorable, isCaseIgnorable, ignorable, if_pos still, if_pos ascii]
  · rw [toLower_of_wide ascii]
    exact ⟨rfl, rfl, rfl, Iff.rfl⟩

theorem meetsCased_toLower {text : Text} :
    meetsCased u (text.map Char.toLower) = meetsCased u text := by
  induction text with
  | nil => rfl
  | cons c rest ih =>
      obtain ⟨-, cased, ignorable, -⟩ := @lowerChar_toLower u c
      rw [List.map_cons, meetsCased, meetsCased, cased, ignorable, ih]

theorem lowercaseLoop_toLower {before text : Text} :
    lowercaseLoop u (before.map Char.toLower) (text.map Char.toLower) =
      lowercaseLoop u before text := by
  induction text generalizing before with
  | nil => rfl
  | cons c rest ih =>
      obtain ⟨lower, -, -, sigma⟩ := @lowerChar_toLower u c
      have later := @ih (c :: before)
      rw [List.map_cons] at later
      rw [List.map_cons, lowercaseLoop, lowercaseLoop, later, lower, meetsCased_toLower,
        meetsCased_toLower]
      simp only [sigma]

theorem lowercase_toLower {text : Text} : lowercase u (text.map Char.toLower) = lowercase u text :=
  @lowercaseLoop_toLower u [] text

theorem intercalate_toLower : ∀ texts : List Text,
    (['.'].intercalate texts).map Char.toLower =
      ['.'].intercalate (texts.map (List.map Char.toLower))
  | [] => rfl
  | [text] => by simp
  | text :: next :: rest => by
      have dot : '.'.toLower = '.' := rfl
      have tail := intercalate_toLower (next :: rest)
      simp only [List.intercalate, List.map_cons] at tail ⊢
      simp [tail, dot]

/-- Labels that differ in the case of ASCII letters only have the same lower case. -/
theorem lowercase_intercalate {ls ls' : List Bytes}
    (same : ls.map (List.map tolower) = ls'.map (List.map tolower)) :
    lowercase u (['.'].intercalate (ls.map decodeUtf8)) =
      lowercase u (['.'].intercalate (ls'.map decodeUtf8)) := by
  have lowered (ls : List Bytes) : (['.'].intercalate (ls.map decodeUtf8)).map Char.toLower =
      ['.'].intercalate ((ls.map (List.map tolower)).map decodeUtf8) := by
    simp only [intercalate_toLower, List.map_map, Function.comp_def, decodeUtf8_tolower]
  rw [← lowercase_toLower, lowered, same, ← lowered, lowercase_toLower]

end LowerCase

end TonTunnel.DnsFilter
