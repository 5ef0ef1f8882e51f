import Mathlib.Algebra.Group.Int.Defs
import Mathlib.Algebra.Group.Nat.Defs
import TonTunnel.Lib.Find
import TonTunnel.Lib.WhiteSpace

/-!
Strings of Java and Kotlin: lists of UTF-16 units.

A number is read by `toIntOrNull` exactly when it is a sign and digits with a value that an
`Int` holds (`toIntOrNull_eq_some_iff`), and with white space around it behind a `trim`
(`toIntOrNull_trim`). The digits beyond ASCII are a parameter.
-/

namespace Utf16

open WhiteSpace (trim trim_spec trim_eq Blank Bare)

abbrev Text := List UInt16

/-- `Char.isWhitespace`. -/
def isWhitespace (c : UInt16) : Bool :=
  WhiteSpace.isWhitespace c.toNat

/-- An ASCII text. -/
def units (text : String) : Text :=
  text.toList.map fun c => c.toNat.toUInt16

def markedByte (mark : UInt8) (bits : UInt16) : UInt8 :=
  mark ||| bits.toUInt8

/-- The bytes of a unit in the modified UTF-8 of JNI: 0 has two, and so has no text a zero
byte. A surrogate is a unit like any other. -/
def unitUtf8 (c : UInt16) : List UInt8 :=
  if c ≠ 0 ∧ c < 0x80 then [c.toUInt8]
  else if c < 0x800 then [markedByte 0xC0 (c >>> 6), markedByte 0x80 (c &&& 0x3F)]
  else
    [markedByte 0xE0 (c >>> 12), markedByte 0x80 ((c >>> 6) &&& 0x3F),
      markedByte 0x80 (c &&& 0x3F)]

/-- `GetStringUTFChars`. -/
def modifiedUtf8 (text : Text) : List UInt8 :=
  text.flatMap unitUtf8

def asciiLower (c : UInt16) : UInt16 :=
  if 65 ≤ c ∧ c ≤ 90 then c + 32 else c

/-- `text.startsWith(start, ignoreCase = true)`, for a text without cased units beyond
ASCII. -/
def startsWithIgnoreCase (text start : Text) : Bool :=
  (text.take start.length).map asciiLower = start.map asciiLower

/-! ### Modified UTF-8 -/

section Encoding

variable {text front back : Text} {c : UInt16} {b : UInt8}

theorem modifiedUtf8_append :
    modifiedUtf8 (front ++ back) = modifiedUtf8 front ++ modifiedUtf8 back :=
  List.flatMap_append

theorem unitUtf8_ascii (ascii : c ≠ 0 ∧ c < 0x80) : unitUtf8 c = [c.toUInt8] :=
  if_pos ascii

/-- The other units have bytes beyond ASCII only. -/
theorem unitUtf8_high (wide : ¬ (c ≠ 0 ∧ c < 0x80)) (mem : b ∈ unitUtf8 c) : 128 ≤ b.toNat := by
  have marked (mark : UInt8) (bits : UInt16) (high : 128 ≤ mark.toNat) :
      128 ≤ (markedByte mark bits).toNat := by
    rw [markedByte, UInt8.toNat_or]
    exact high.trans Nat.left_le_or
  rw [unitUtf8, if_neg wide] at mem
  split at mem
  · simp only [List.mem_cons, List.not_mem_nil, or_false] at mem
    rcases mem with rfl | rfl <;> apply marked <;> decide
  · simp only [List.mem_cons, List.not_mem_nil, or_false] at mem
    rcases mem with rfl | rfl | rfl <;> apply marked <;> decide

/-- An ASCII byte is an ASCII unit. -/
theorem unit_of_ascii_byte (small : b.toNat < 128) (mem : b ∈ unitUtf8 c) : c = b.toUInt16 := by
  by_cases ascii : c ≠ 0 ∧ c < 0x80
  · rw [unitUtf8_ascii ascii, List.mem_singleton] at mem
    have low := UInt16.lt_iff_toNat_lt.mp ascii.2
    change c.toNat < 128 at low
    apply UInt16.toNat_inj.mp
    rw [mem, UInt8.toNat_toUInt16, UInt16.toNat_toUInt8]
    omega
  · have := unitUtf8_high ascii mem
    omega

theorem length_le_modifiedUtf8 : text.length ≤ (modifiedUtf8 text).length := by
  induction text with
  | nil => exact Nat.zero_le _
  | cons c rest ih =>
      have some : 1 ≤ (unitUtf8 c).length := by
        rw [unitUtf8]
        split
        · exact le_rfl
        · split
          · exact Nat.le_succ 1
          · exact Nat.le_add_left 1 2
      rw [modifiedUtf8, List.flatMap_cons, List.length_append, List.length_cons, ← modifiedUtf8]
      omega

/-- The encoding of a text is as long as that of a part of it only if the part is the
whole. -/
theorem eq_of_length_modifiedUtf8 {before after : Text} (whole : text = before ++ (front ++ after))
    (size : (modifiedUtf8 text).length ≤ (modifiedUtf8 front).length) : text = front := by
  have first := @length_le_modifiedUtf8 before
  have last := @length_le_modifiedUtf8 after
  rw [whole, modifiedUtf8_append, modifiedUtf8_append, List.length_append,
    List.length_append] at size
  have noneBefore : before = [] := List.eq_nil_of_length_eq_zero (by omega)
  have noneAfter : after = [] := List.eq_nil_of_length_eq_zero (by omega)
  rw [whole, noneBefore, noneAfter, List.nil_append, List.append_nil]

end Encoding

/-! ### Numbers -/

section Numbers

variable (other : UInt16 → Option Nat)

/-- `Character.digit(c, 10)`: what `other` says beyond ASCII. -/
def digitOf (c : UInt16) : Option Nat :=
  if c < 128 then if 48 ≤ c ∧ c ≤ 57 then some (c.toNat - 48) else none else other c

/-- The value of the digits behind others of the value `acc`. -/
def digitsValue (acc : Nat) : Text → Option Nat
  | [] => some acc
  | c :: rest =>
      match digitOf other c with
      | none => none
      | some d => digitsValue (acc * 10 + d) rest

/-- Digits with a value up to the limit. -/
def boundedValue (limit : Nat) (digits : Text) : Option Nat :=
  if digits = [] then none else (digitsValue other 0 digits).filter (· ≤ limit)

/-- `text.toIntOrNull()`. -/
def toIntOrNull (text : Text) : Option Int :=
  if text.head? = some 45 then (boundedValue other (2 ^ 31) text.tail).map fun m : Nat => -(m : Int)
  else if text.head? = some 43 then (boundedValue other (2 ^ 31 - 1) text.tail).map Int.ofNat
  else (boundedValue other (2 ^ 31 - 1) text).map Int.ofNat

example : toIntOrNull (fun _ => none) (units "-2147483648") = some (-2147483648) := by
  decide

example : toIntOrNull (fun _ => none) (units "2147483648") = none := by
  decide

/-- A sign, or none, and digits. -/
def IsInt (text : Text) (n : Int) : Prop :=
  ∃ (sign digits : Text) (m : Nat), text = sign ++ digits ∧ digits ≠ [] ∧
    digitsValue other 0 digits = some m ∧
    ((sign = [] ∨ sign = [43]) ∧ n = m ∨ sign = [45] ∧ n = -m)

/-- An integer with white space around it. -/
def HoldsInt (text : Text) (n : Int) : Prop :=
  ∃ front core back, text = front ++ (core ++ back) ∧ Blank isWhitespace front ∧
    Blank isWhitespace back ∧ IsInt other core n

variable {other} {text digits : Text} {n : Int} {m acc : Nat}

theorem digitOf_of_mem (value : digitsValue other acc digits = some m) :
    ∀ c ∈ digits, ∃ d, digitOf other c = some d := by
  induction digits generalizing acc with
  | nil =>
      intro c mem
      cases mem
  | cons c rest ih =>
      rw [digitsValue] at value
      cases digit : digitOf other c with
      | none =>
          rw [digit] at value
          cases value
      | some d =>
          rw [digit] at value
          intro c' mem
          rcases List.mem_cons.mp mem with rfl | mem
          · exact ⟨d, digit⟩
          · exact ih value c' mem

theorem boundedValue_eq_some_iff {limit : Nat} : boundedValue other limit digits = some m ↔
    digits ≠ [] ∧ digitsValue other 0 digits = some m ∧ m ≤ limit := by
  rw [boundedValue]
  split
  · next empty => simp [empty]
  · next nonempty => simp [nonempty, Option.filter_eq_some_iff]

/-- Digits do not begin with a sign. -/
theorem head_of_digits (value : digitsValue other acc digits = some m) :
    digits.head? ≠ some 43 ∧ digits.head? ≠ some 45 := by
  constructor
  · intro head
    obtain ⟨d, digit⟩ := digitOf_of_mem value 43 (List.mem_of_mem_head? head)
    cases digit
  · intro head
    obtain ⟨d, digit⟩ := digitOf_of_mem value 45 (List.mem_of_mem_head? head)
    cases digit

theorem toIntOrNull_eq_some_iff : toIntOrNull other text = some n ↔
    IsInt other text n ∧ -2 ^ 31 ≤ n ∧ n < 2 ^ 31 := by
  rw [toIntOrNull]
  constructor
  · intro read
    split at read
    · next minus =>
        obtain ⟨m, number, rfl⟩ := Option.map_eq_some_iff.mp read
        obtain ⟨nonempty, value, bound⟩ := boundedValue_eq_some_iff.mp number
        refine ⟨⟨[45], text.tail, m, ?_, nonempty, value, Or.inr ⟨rfl, rfl⟩⟩, by omega, by omega⟩
        exact (List.cons_head?_tail minus).symm
    · split at read
      · next plus =>
          obtain ⟨m, number, rfl⟩ := Option.map_eq_some_iff.mp read
          obtain ⟨nonempty, value, bound⟩ := boundedValue_eq_some_iff.mp number
          refine ⟨⟨[43], text.tail, m, ?_, nonempty, value, Or.inl ⟨Or.inr rfl, rfl⟩⟩, ?_, ?_⟩
          · exact (List.cons_head?_tail plus).symm
          · rw [Int.ofNat_eq_natCast]
            omega
          · rw [Int.ofNat_eq_natCast]
            omega
      · obtain ⟨m, number, rfl⟩ := Option.map_eq_some_iff.mp read
        obtain ⟨nonempty, value, bound⟩ := boundedValue_eq_some_iff.mp number
        refine ⟨⟨[], text, m, rfl, nonempty, value, Or.inl ⟨Or.inl rfl, rfl⟩⟩, ?_, ?_⟩
        · rw [Int.ofNat_eq_natCast]
          omega
        · rw [Int.ofNat_eq_natCast]
          omega
  · rintro ⟨⟨sign, digits, m, rfl, nonempty, value, signed⟩, low, high⟩
    rcases signed with ⟨rfl | rfl, rfl⟩ | ⟨rfl, rfl⟩
    · obtain ⟨notPlus, notMinus⟩ := head_of_digits value
      rw [List.nil_append, if_neg notMinus, if_neg notPlus,
        boundedValue_eq_some_iff.mpr ⟨nonempty, value, by omega⟩]
      rfl
    · have number : boundedValue other (2 ^ 31 - 1) digits = some m :=
        boundedValue_eq_some_iff.mpr ⟨nonempty, value, by omega⟩
      exact congrArg (Option.map Int.ofNat) number
    · have number : boundedValue other (2 ^ 31) digits = some m :=
        boundedValue_eq_some_iff.mpr ⟨nonempty, value, by omega⟩
      exact congrArg (Option.map fun m : Nat => -(m : Int)) number

theorem isWhitespace_of_digit {c : UInt16} (range : 48 ≤ c ∧ c ≤ 57) :
    isWhitespace c = false := by
  have small : ∀ n < 58, 48 ≤ n → isWhitespace n.toUInt16 = false := by decide
  have low := UInt16.le_iff_toNat_le.mp range.1
  have high := UInt16.le_iff_toNat_le.mp range.2
  have value := small c.toNat (Nat.lt_succ_of_le high) low
  rwa [Nat.toUInt16, UInt16.ofNat_toNat] at value

/-- The units of a number are no white space, if no white space is a digit beyond ASCII. -/
theorem IsInt.bare (h : IsInt other text n)
    (blank : ∀ c, isWhitespace c = true → other c = none) : Bare isWhitespace text := by
  obtain ⟨sign, digits, m, rfl, nonempty, value, signed⟩ := h
  have digit : ∀ c ∈ digits, isWhitespace c = false := by
    intro c mem
    obtain ⟨d, digit⟩ := digitOf_of_mem value c mem
    by_contra white
    rw [Bool.not_eq_false] at white
    rw [digitOf, blank c white] at digit
    split at digit
    · split at digit
      · next range =>
          rw [isWhitespace_of_digit range] at white
          cases white
      · cases digit
    · cases digit
  have unit : ∀ c ∈ sign ++ digits, isWhitespace c = false := by
    intro c mem
    rcases List.mem_append.mp mem with mem | mem
    · rcases signed with ⟨rfl | rfl, -⟩ | ⟨rfl, -⟩
      · cases mem
      · rw [List.mem_singleton.mp mem]
        rfl
      · rw [List.mem_singleton.mp mem]
        rfl
    · exact digit c mem
  constructor
  · intro c mem
    exact unit c (List.mem_of_mem_head? mem)
  · intro c mem
    exact unit c (List.mem_of_mem_getLast? mem)

/-- Reading a number that may have white space around it. -/
theorem toIntOrNull_trim (blank : ∀ c, isWhitespace c = true → other c = none) :
    toIntOrNull other (trim isWhitespace text) = some n ↔
      HoldsInt other text n ∧ -2 ^ 31 ≤ n ∧ n < 2 ^ 31 := by
  rw [toIntOrNull_eq_some_iff]
  constructor
  · rintro ⟨number, range⟩
    obtain ⟨front, back, whole, blankFront, blankBack⟩ := trim_spec isWhitespace text
    exact ⟨⟨front, trim isWhitespace text, back, whole, blankFront, blankBack, number⟩, range⟩
  · rintro ⟨⟨front, core, back, rfl, blankFront, blankBack, number⟩, range⟩
    rw [trim_eq blankFront blankBack (number.bare blank)]
    exact ⟨number, range⟩

end Numbers

end Utf16
