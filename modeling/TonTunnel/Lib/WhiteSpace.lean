import Mathlib.Data.List.DropRight

/-!
White space.

`isspace` and `isWhitespace` go by the code of a character, so that bytes, UTF-16 units and
code points have them in common. `trim` takes the white space off both ends of a text and
nothing else (`trim_spec`, `trim_eq`).
-/

namespace WhiteSpace

/-- `std::isspace`. -/
def isspace (code : Nat) : Bool :=
  code = 32 || (9 ≤ code && code ≤ 13)

/-- `Char.isWhitespace`. -/
def isWhitespace (code : Nat) : Bool :=
  (9 ≤ code && code ≤ 13) || (0x1C ≤ code && code ≤ 0x20) || code = 0xA0 || code = 0x1680 ||
    (0x2000 ≤ code && code ≤ 0x200A) || code = 0x2028 || code = 0x2029 || code = 0x202F ||
    code = 0x205F || code = 0x3000

variable {α : Type} (white : α → Bool)

/-- `text.trim()`. -/
def trim (text : List α) : List α :=
  (text.dropWhile white).rdropWhile white

/-- White space and nothing else. -/
def Blank (text : List α) : Prop :=
  ∀ c ∈ text, white c = true

/-- No white space at either end. -/
structure Bare (text : List α) : Prop where
  head : ∀ c ∈ text.head?, white c = false
  last : ∀ c ∈ text.getLast?, white c = false

variable {white} {text front back core : List α}

theorem rdropWhile_append_of_blank (blank : Blank white back) :
    (core ++ back).rdropWhile white = core.rdropWhile white := by
  rw [List.rdropWhile, List.reverse_append, List.dropWhile_append_of_pos]
  · rfl
  · intro c mem
    exact blank c (List.mem_reverse.mp mem)

theorem rdropWhile_of_last (last : ∀ c ∈ core.getLast?, white c = false) :
    core.rdropWhile white = core := by
  apply List.rdropWhile_eq_self_iff.mpr
  intro nonempty
  rw [last _ (List.getLast?_eq_some_getLast nonempty)]
  exact Bool.false_ne_true

theorem trim_eq (blankFront : Blank white front) (blankBack : Blank white back)
    (bare : Bare white core) : trim white (front ++ (core ++ back)) = core := by
  rw [trim, List.dropWhile_append_of_pos blankFront]
  cases core with
  | nil =>
      have all := List.dropWhile_eq_nil_iff.mpr blankBack
      rw [List.nil_append, all, List.rdropWhile_nil]
  | cons c rest =>
      have head : ¬ white c = true := by
        rw [bare.head c rfl]
        exact Bool.false_ne_true
      rw [List.cons_append, List.dropWhile_cons_of_neg head, ← List.cons_append,
        rdropWhile_append_of_blank blankBack, rdropWhile_of_last bare.last]

theorem trim_of_bare (bare : Bare white text) : trim white text = text := by
  have none : Blank white [] := fun c mem => absurd mem List.not_mem_nil
  have trimmed := trim_eq none none bare
  rwa [List.nil_append, List.append_nil] at trimmed

theorem trim_bare : Bare white (trim white text) := by
  constructor
  · intro c mem
    have start : c ∈ (text.dropWhile white).head? := by
      obtain ⟨rest, whole⟩ := @List.rdropWhile_prefix _ white (text.dropWhile white)
      rw [← whole, List.head?_append]
      rw [trim] at mem
      rw [Option.mem_def.mp mem]
      rfl
    exact List.head?_dropWhile_not white text |> fun h => by
      rw [Option.mem_def.mp start] at h
      exact h
  · intro c mem
    have nonempty : trim white text ≠ [] := by
      intro empty
      rw [empty] at mem
      cases mem
    have last := List.rdropWhile_last_not white (text.dropWhile white) nonempty
    have same : (trim white text).getLast nonempty = c := by
      rw [List.getLast?_eq_some_getLast nonempty] at mem
      exact Option.some.inj mem
    rw [← same]
    exact Bool.eq_false_iff.mpr last

theorem trim_spec (white : α → Bool) (text : List α) :
    ∃ front back, text = front ++ (trim white text ++ back) ∧ Blank white front ∧
      Blank white back := by
  refine ⟨text.takeWhile white, (text.dropWhile white).rtakeWhile white, ?_, ?_, ?_⟩
  · rw [trim, List.rdropWhile_append_rtakeWhile, List.takeWhile_append_dropWhile]
  · intro c mem
    exact List.mem_takeWhile_imp mem
  · intro c mem
    exact List.mem_rtakeWhile_imp mem

theorem trim_blank_append (blank : Blank white front) :
    trim white (front ++ text) = trim white text := by
  rw [trim, List.dropWhile_append_of_pos blank, trim]

theorem trim_append_blank (blank : Blank white back) :
    trim white (text ++ back) = trim white text := by
  obtain ⟨before, after, whole, blankBefore, blankAfter⟩ := trim_spec white text
  have longer : Blank white (after ++ back) := by
    intro c mem
    rcases List.mem_append.mp mem with mem | mem
    · exact blankAfter c mem
    · exact blank c mem
  have split : text ++ back = before ++ (trim white text ++ (after ++ back)) := by
    rw [← List.append_assoc (trim white text), ← List.append_assoc before, ← whole]
  rw [split, trim_eq blankBefore longer trim_bare]

end WhiteSpace
