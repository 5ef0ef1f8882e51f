import Mathlib.Data.List.TakeWhile
import Mathlib.Tactic.Common

/-!
Regular expressions with one way to match: the first in the order in which a backtracking
matcher tries them, as in ECMAScript.

`ways` lists all ways in that order, each with the texts of the groups and the rest.
Repetition is greedy and of a class of characters only. Where the expression behind a
repetition cannot begin with a character of the class, backtracking has nothing to find
(`ways_many_seq`, `ways_group_seq`), and the match is a cut at the end of the longest run.
`search` is the first place with a match (`search_eq_some_iff`), and `searchAll` goes on
behind each match.
-/

inductive Regex (α : Type) where
  | empty
  /-- one character of a class -/
  | one (p : α → Bool)
  | seq (r s : Regex α)
  | alt (r s : Regex α)
  /-- at least so many characters of a class -/
  | many (p : α → Bool) (least : Nat)
  | group (r : Regex α)

namespace Regex

variable {α : Type}

/-- The texts of the groups, and what is left of the text. -/
abbrev Way (α : Type) := List (List α) × List α

/-- What is left behind a repetition, the longest first. -/
def manyWays (p : α → Bool) : Nat → List α → List (List α)
  | least, [] => if least = 0 then [[]] else []
  | least, c :: rest =>
      (if p c then manyWays p (least - 1) rest else []) ++ if least = 0 then [c :: rest] else []

def ways : Regex α → List α → List (Way α)
  | empty, text => [([], text)]
  | one _, [] => []
  | one p, c :: rest => if p c then [([], rest)] else []
  | seq r s, text =>
      (ways r text).flatMap fun way => (ways s way.2).map fun next => (way.1 ++ next.1, next.2)
  | alt r s, text => ways r text ++ ways s text
  | many p least, text => (manyWays p least text).map fun rest => ([], rest)
  | group r, text =>
      (ways r text).map fun way => (text.take (text.length - way.2.length) :: way.1, way.2)

/-- The match at the beginning of the text. -/
def matchAt (r : Regex α) (text : List α) : Option (Way α) :=
  (ways r text).head?

/-- `regex_search`. -/
def search (r : Regex α) : List α → Option (Way α)
  | [] => matchAt r []
  | c :: rest =>
      match matchAt r (c :: rest) with
      | some way => some way
      | none => search r rest

/-- `regex_iterator`, for an expression that matches no empty text. -/
def searchAll (r : Regex α) (text : List α) : List (Way α) :=
  match search r text with
  | none => []
  | some way => way :: if way.2.length < text.length then searchAll r way.2 else []
termination_by text.length

/-- A word, and then `r`. -/
def word [DecidableEq α] (w : List α) (r : Regex α) : Regex α :=
  w.foldr (fun c r => seq (one (· = c)) r) r

section Ways

variable {p : α → Bool} {r : Regex α} {text : List α} {least : Nat}

theorem ways_one_seq {c : α} {rest : List α} :
    ways (seq (one p) r) (c :: rest) = if p c then ways r rest else [] := by
  simp only [ways]
  split <;> simp

theorem ways_word [DecidableEq α] {w : List α} :
    ways (word w r) text = if w <+: text then ways r (text.drop w.length) else [] := by
  induction w generalizing text with
  | nil => simp [word]
  | cons c w ih =>
      cases text with
      | nil => simp [word, ways]
      | cons d text =>
          have step : ways (word (c :: w) r) (d :: text) =
              if d = c then ways (word w r) text else [] := by
            show ways (seq (one (· = c)) (word w r)) (d :: text) = _
            rw [ways_one_seq]
            simp only [decide_eq_true_eq]
          rw [step, ih]
          by_cases same : d = c
          · subst same
            simp [List.cons_prefix_cons]
          · rw [if_neg same, if_neg]
            intro here
            exact same (List.cons_prefix_cons.mp here).1.symm

/-- With nothing to find behind a shorter run, only the longest one is left. -/
theorem flatMap_manyWays {β : Type} {f : List α → List β}
    (disjoint : ∀ c rest, p c = true → f (c :: rest) = []) :
    (manyWays p least text).flatMap f =
      if least ≤ (text.takeWhile p).length then f (text.dropWhile p) else [] := by
  induction text generalizing least with
  | nil =>
      rw [manyWays]
      cases least <;> simp
  | cons c rest ih =>
      rw [manyWays, List.flatMap_append]
      by_cases inside : p c = true
      · have shorter : (if least = 0 then [c :: rest] else []).flatMap f = [] := by
          split <;> simp [disjoint c rest inside]
        rw [shorter, List.append_nil, if_pos inside, ih, List.takeWhile_cons_of_pos inside,
          List.dropWhile_cons_of_pos inside, List.length_cons]
        congr 1
        simp only [eq_iff_iff]
        omega
      · rw [if_neg inside, List.takeWhile_cons_of_neg inside, List.dropWhile_cons_of_neg inside]
        cases least <;> simp

theorem head_manyWays : (manyWays p least text).head? =
    if least ≤ (text.takeWhile p).length then some (text.dropWhile p) else none := by
  induction text generalizing least with
  | nil =>
      rw [manyWays]
      cases least <;> simp
  | cons c rest ih =>
      rw [manyWays, List.head?_append]
      by_cases inside : p c = true
      · rw [if_pos inside, ih, List.takeWhile_cons_of_pos inside,
          List.dropWhile_cons_of_pos inside, List.length_cons]
        cases least with
        | zero => simp
        | succ n => simp
      · rw [if_neg inside, List.takeWhile_cons_of_neg inside, List.dropWhile_cons_of_neg inside]
        cases least <;> simp

/-- The run is what a repetition takes. -/
theorem take_run : text.take (text.length - (text.dropWhile p).length) = text.takeWhile p := by
  have size := congrArg List.length (@List.takeWhile_append_dropWhile _ p text)
  rw [List.length_append] at size
  have run : text.length - (text.dropWhile p).length = (text.takeWhile p).length := by omega
  calc text.take (text.length - (text.dropWhile p).length)
      = (text.takeWhile p ++ text.dropWhile p).take (text.takeWhile p).length := by
        rw [run, List.takeWhile_append_dropWhile]
    _ = text.takeWhile p := List.take_left

theorem ways_many_seq (disjoint : ∀ c rest, p c = true → ways r (c :: rest) = []) :
    ways (seq (many p least) r) text =
      if least ≤ (text.takeWhile p).length then ways r (text.dropWhile p) else [] := by
  rw [← flatMap_manyWays disjoint]
  simp [ways, List.flatMap_map]

theorem ways_group_seq (disjoint : ∀ c rest, p c = true → ways r (c :: rest) = []) :
    ways (seq (group (many p least)) r) text =
      if least ≤ (text.takeWhile p).length then
        (ways r (text.dropWhile p)).map fun way => (text.takeWhile p :: way.1, way.2)
      else [] := by
  have cut := @flatMap_manyWays α p text least _
    (fun rest => (ways r rest).map fun way => (text.take (text.length - rest.length) :: way.1, way.2))
    (fun c rest inside => by rw [disjoint c rest inside]; rfl)
  rw [take_run] at cut
  rw [← cut]
  simp [ways, List.flatMap_map]

theorem head_ways_group : (ways (group (many p least)) text).head? =
    if least ≤ (text.takeWhile p).length then some ([text.takeWhile p], text.dropWhile p)
    else none := by
  rw [ways, ways, List.map_map, List.head?_map, head_manyWays]
  split
  · simp [take_run]
  · rfl

end Ways

/-! ### Searching -/

section Search

variable {r : Regex α} {text : List α} {way : Way α}

theorem search_eq_some_iff : search r text = some way ↔
    ∃ i, matchAt r (text.drop i) = some way ∧ ∀ j < i, matchAt r (text.drop j) = none := by
  induction text with
  | nil =>
      rw [search]
      constructor
      · intro found
        exact ⟨0, found, fun j before => absurd before (Nat.not_lt_zero j)⟩
      · rintro ⟨i, found, -⟩
        rwa [List.drop_nil] at found
  | cons c rest ih =>
      rw [search]
      split
      · next here found =>
          constructor
          · rintro ⟨⟩
            exact ⟨0, found, fun j before => absurd before (Nat.not_lt_zero j)⟩
          · rintro ⟨i, later, first⟩
            cases i with
            | zero => exact found.symm.trans later
            | succ i =>
                have none := first 0 (Nat.zero_lt_succ i)
                rw [List.drop_zero, found] at none
                cases none
      · next here =>
          rw [ih]
          constructor
          · rintro ⟨i, found, first⟩
            refine ⟨i + 1, found, ?_⟩
            intro j before
            cases j with
            | zero => exact here
            | succ j => exact first j (by omega)
          · rintro ⟨i, found, first⟩
            cases i with
            | zero =>
                rw [List.drop_zero, here] at found
                cases found
            | succ i =>
                refine ⟨i, found, ?_⟩
                intro j before
                exact first (j + 1) (by omega)

theorem search_append {front : List α}
    (nowhere : ∀ j < front.length, matchAt r ((front ++ text).drop j) = none) :
    search r (front ++ text) = search r text := by
  induction front with
  | nil => rfl
  | cons c front ih =>
      have here := nowhere 0 (Nat.zero_lt_succ _)
      rw [List.drop_zero, List.cons_append] at here
      rw [List.cons_append, search, here]
      apply ih
      intro j before
      exact nowhere (j + 1) (by rw [List.length_cons]; omega)

theorem searchAll_of_none (none : search r text = none) : searchAll r text = [] := by
  rw [searchAll, none]

theorem searchAll_of_some (found : search r text = some way)
    (shorter : way.2.length < text.length) : searchAll r text = way :: searchAll r way.2 := by
  rw [searchAll, found]
  dsimp only
  rw [if_pos shorter]

end Search

end Regex
