import Mathlib.Data.List.Basic
import Mathlib.Tactic.Common

/-!
JSON objects whose members are strings, numbers, booleans or null, with the layout of
their text.

A value of `FlatObject` is a text of the grammar together with the way it was derived: the
white space, the units of each string, the members in order. `text` is the text. A member is
found by its name, which is what the units of the string mean (`Str.meaning`), and no two
members have the same name. Of a string a scanner needs one fact: each quote in its text
stands behind a backslash (`Str.quote_escaped`).
-/

namespace FlatJson

/-! ### Tokens -/

def isSpace (b : UInt8) : Bool :=
  b = 32 || b = 9 || b = 10 || b = 13

structure Space where
  text : List UInt8
  blank : text.all isSpace

inductive StrUnit where
  /-- a byte that stands for itself -/
  | plain (b : UInt8)
  /-- a backslash and a letter -/
  | escape (letter : UInt8)
  /-- a backslash, `u` and four digits -/
  | unicode (digits : List UInt8)
  deriving DecidableEq, Repr

/-- Quote, backslash, slash, and the letters of the control characters. -/
def escapes : List (UInt8 × UInt8) :=
  [(34, 34), (92, 92), (47, 47), (98, 8), (102, 12), (110, 10), (114, 13), (116, 9)]

def hexValue (b : UInt8) : Option Nat :=
  if 48 ≤ b ∧ b ≤ 57 then some (b.toNat - 48)
  else if 97 ≤ b ∧ b ≤ 102 then some (b.toNat - 87)
  else if 65 ≤ b ∧ b ≤ 70 then some (b.toNat - 55)
  else none

namespace StrUnit

def valid : StrUnit → Bool
  | plain b => 32 ≤ b && b ≠ 34 && b ≠ 92
  | escape letter => (escapes.map Prod.fst).contains letter
  | unicode digits => digits.length = 4 && digits.all fun d => (hexValue d).isSome

def text : StrUnit → List UInt8
  | plain b => [b]
  | escape letter => [92, letter]
  | unicode digits => 92 :: 117 :: digits

end StrUnit

structure Str where
  units : List StrUnit
  valid : units.all StrUnit.valid

/-- What stands between the quotes. -/
def Str.raw (s : Str) : List UInt8 :=
  s.units.flatMap StrUnit.text

def utf8 (c : Nat) : List UInt8 :=
  if c < 0x80 then [c.toUInt8]
  else if c < 0x800 then [(0xC0 + c / 64).toUInt8, (0x80 + c % 64).toUInt8]
  else if c < 0x10000 then
    [(0xE0 + c / 4096).toUInt8, (0x80 + c / 64 % 64).toUInt8, (0x80 + c % 64).toUInt8]
  else
    [(0xF0 + c / 262144).toUInt8, (0x80 + c / 4096 % 64).toUInt8, (0x80 + c / 64 % 64).toUInt8,
      (0x80 + c % 64).toUInt8]

/-- The UTF-16 unit of four digits. -/
def unitOf (digits : List UInt8) : Nat :=
  digits.foldl (fun acc d => acc * 16 + (hexValue d).getD 0) 0

/-- The bytes that the units mean. Two surrogates are one character. -/
def meaningOf : List StrUnit → List UInt8
  | [] => []
  | .plain b :: rest => b :: meaningOf rest
  | .escape letter :: rest => (escapes.lookup letter).getD letter :: meaningOf rest
  | .unicode high :: .unicode low :: rest =>
      if 0xD800 ≤ unitOf high ∧ unitOf high < 0xDC00 ∧ 0xDC00 ≤ unitOf low ∧
          unitOf low < 0xE000 then
        utf8 (0x10000 + (unitOf high - 0xD800) * 0x400 + (unitOf low - 0xDC00)) ++ meaningOf rest
      else utf8 (unitOf high) ++ meaningOf (.unicode low :: rest)
  | .unicode digits :: rest => utf8 (unitOf digits) ++ meaningOf rest

def Str.meaning (s : Str) : List UInt8 :=
  meaningOf s.units

def isDigit (b : UInt8) : Bool :=
  48 ≤ b && b ≤ 57

/-- A sign, an integer part without a leading zero, a fraction and an exponent. -/
def IsNumber (text : List UInt8) : Prop :=
  ∃ sign whole fraction exponent : List UInt8,
    text = sign ++ (whole ++ (fraction ++ exponent)) ∧ (sign = [] ∨ sign = [45]) ∧
    whole.all isDigit ∧ whole ≠ [] ∧ (whole.head? = some 48 → whole = [48]) ∧
    (fraction = [] ∨ ∃ digits, fraction = 46 :: digits ∧ digits.all isDigit ∧ digits ≠ []) ∧
    (exponent = [] ∨ ∃ mark plus digits, exponent = mark :: (plus ++ digits) ∧
      (mark = 101 ∨ mark = 69) ∧ (plus = [] ∨ plus = [43] ∨ plus = [45]) ∧
      digits.all isDigit ∧ digits ≠ [])

/-- `true`, `false` and `null`. -/
def literals : List (List UInt8) :=
  [[116, 114, 117, 101], [102, 97, 108, 115, 101], [110, 117, 108, 108]]

inductive Value where
  | str (s : Str)
  | number (text : List UInt8) (valid : IsNumber text)
  | literal (text : List UInt8) (valid : text ∈ literals)

def Value.text : Value → List UInt8
  | .str s => 34 :: s.raw ++ [34]
  | .number text _ => text
  | .literal text _ => text

/-! ### Objects -/

structure Member where
  before : Space
  name : Str
  behindName : Space
  beforeValue : Space
  value : Value
  behind : Space

namespace Member

/-- What stands before the colon. -/
def front (m : Member) : List UInt8 :=
  m.before.text ++ (34 :: m.name.raw ++ (34 :: m.behindName.text))

def text (m : Member) : List UInt8 :=
  m.front ++ (58 :: m.beforeValue.text ++ (m.value.text ++ m.behind.text))

end Member

structure FlatObject where
  before : Space
  members : List Member
  /-- between the braces of an object without members -/
  inside : Space
  behind : Space
  distinct : (members.map fun m => m.name.meaning).Nodup

/-- The members with commas between them. -/
def membersText : List Member → List UInt8
  | [] => []
  | [m] => m.text
  | m :: next :: rest => m.text ++ (44 :: membersText (next :: rest))

namespace FlatObject

def text (o : FlatObject) : List UInt8 :=
  o.before.text ++ (123 :: (if o.members = [] then o.inside.text else membersText o.members) ++
    (125 :: o.behind.text))

end FlatObject

/-- The text of the members in front of one. -/
def leading (ms : List Member) : List UInt8 :=
  ms.flatMap fun m => m.text ++ [44]

/-- The text of the members behind one. -/
def trailing (ms : List Member) : List UInt8 :=
  ms.flatMap fun m => 44 :: m.text

section Texts

variable {front back : List Member} {m : Member}

theorem membersText_cons (m : Member) (ms : List Member) :
    membersText (m :: ms) = m.text ++ trailing ms := by
  induction ms generalizing m with
  | nil => exact (List.append_nil _).symm
  | cons next rest ih =>
      rw [membersText, ih]
      rfl

theorem membersText_split :
    membersText (front ++ m :: back) = leading front ++ (m.text ++ trailing back) := by
  induction front with
  | nil => exact membersText_cons m back
  | cons first rest ih =>
      have more : membersText (first :: (rest ++ m :: back)) =
          first.text ++ (44 :: membersText (rest ++ m :: back)) := by
        cases rest <;> rfl
      have one : leading (first :: rest) = first.text ++ (44 :: leading rest) := by
        simp [leading]
      rw [List.cons_append, more, ih, one, List.append_assoc, List.cons_append]

/-- The text before a member, and the text behind it. -/
theorem FlatObject.text_split {o : FlatObject} (split : o.members = front ++ m :: back) :
    o.text = (o.before.text ++ (123 :: leading front)) ++
      (m.text ++ (trailing back ++ (125 :: o.behind.text))) := by
  have some : o.members ≠ [] := by
    rw [split]
    exact List.append_ne_nil_of_right_ne_nil _ (List.cons_ne_nil _ _)
  rw [FlatObject.text, if_neg some, split, membersText_split]
  simp only [List.append_assoc, List.cons_append]

end Texts

/-! ### Quotes -/

theorem StrUnit.quote_escaped {u : StrUnit} {j : Nat} (valid : u.valid = true)
    (quote : u.text[j]? = some 34) : ∃ i, j = i + 1 ∧ u.text[i]? = some 92 := by
  cases u with
  | plain b =>
      simp only [StrUnit.valid, Bool.and_eq_true, decide_eq_true_eq] at valid
      have mem := List.mem_of_getElem? quote
      rw [StrUnit.text, List.mem_singleton] at mem
      exact absurd mem.symm valid.1.2
  | escape letter =>
      match j, quote with
      | 0, quote => cases quote
      | 1, _ => exact ⟨0, rfl, rfl⟩
  | unicode digits =>
      simp only [StrUnit.valid, Bool.and_eq_true, List.all_eq_true] at valid
      match j, quote with
      | 0, quote => cases quote
      | 1, quote => cases quote
      | j + 2, quote =>
          have digit := valid.2 34 (List.mem_of_getElem? quote)
          cases digit

/-- Each quote in the text of a string stands behind a backslash. -/
theorem Str.quote_escaped {s : Str} {j : Nat} (quote : s.raw[j]? = some 34) :
    ∃ i, j = i + 1 ∧ s.raw[i]? = some 92 := by
  obtain ⟨units, valid⟩ := s
  change (units.flatMap StrUnit.text)[j]? = some 34 at quote
  change ∃ i, j = i + 1 ∧ (units.flatMap StrUnit.text)[i]? = some 92
  induction units generalizing j with
  | nil => cases quote
  | cons u rest ih =>
      rw [List.all_cons, Bool.and_eq_true] at valid
      rw [List.flatMap_cons] at quote ⊢
      by_cases inside : j < u.text.length
      · rw [List.getElem?_append_left inside] at quote
        obtain ⟨i, rfl, here⟩ := u.quote_escaped valid.1 quote
        exact ⟨i, rfl, by rw [List.getElem?_append_left (by omega), here]⟩
      · rw [List.getElem?_append_right (by omega)] at quote
        obtain ⟨i, later, here⟩ := ih valid.2 quote
        refine ⟨u.text.length + i, by omega, ?_⟩
        rw [List.getElem?_append_right (by omega), Nat.add_sub_cancel_left, here]

end FlatJson
