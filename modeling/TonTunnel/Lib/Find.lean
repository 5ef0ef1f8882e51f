import Mathlib.Data.List.Infix
import Mathlib.Tactic.Common

/-!
Searching a list for a row of elements.

`find` is the index of the first place where the row `sep` stands, and it is determined by
that (`find_eq_some_iff`, `find_eq_none_iff`). `cut` takes a list apart there, and `split`
does so until the row is not there any more. A row that cannot overlap with itself is
found behind a list without it, however that list ends (`BorderFree`, `find_append`), so
splitting goes piece by piece (`split_append`).
-/

namespace Find

variable {α : Type} [DecidableEq α]

/-- The index of the first place of `sep`. -/
def find (sep : List α) : List α → Option Nat
  | [] => if sep = [] then some 0 else none
  | c :: rest => if sep <+: c :: rest then some 0 else (find sep rest).map (· + 1)

/-- What stands before the first place of `sep`, and what stands behind it. -/
def cut (sep text : List α) : Option (List α × List α) :=
  (find sep text).map fun i => (text.take i, text.drop (i + sep.length))

/-- `sep` stands at `i` and nowhere before. -/
structure FirstAt (sep text : List α) (i : Nat) : Prop where
  here : sep <+: text.drop i
  first : ∀ j < i, ¬ sep <+: text.drop j

section Find

variable {sep text front back : List α} {i j : Nat}

omit [DecidableEq α] in
theorem FirstAt.unique (h : FirstAt sep text i) (h' : FirstAt sep text j) : i = j := by
  rcases Nat.lt_trichotomy i j with before | same | behind
  · exact absurd h.here (h'.first i before)
  · exact same
  · exact absurd h'.here (h.first j behind)

omit [DecidableEq α] in
/-- Where a row stands, there is room for it. -/
theorem length_le_of_prefix (nonempty : sep ≠ []) (here : sep <+: text.drop i) :
    i + sep.length ≤ text.length := by
  have short := here.length_le
  have := List.length_pos_of_ne_nil nonempty
  rw [List.length_drop] at short
  omega

theorem find_eq_none_iff (nonempty : sep ≠ []) :
    find sep text = none ↔ ∀ i, ¬ sep <+: text.drop i := by
  induction text with
  | nil => simp [find, nonempty]
  | cons c rest ih =>
      rw [find]
      split
      · next here =>
          constructor
          · intro none
            cases none
          · intro nowhere
            exact absurd here (nowhere 0)
      · next elsewhere =>
          rw [Option.map_eq_none_iff, ih]
          constructor
          · intro nowhere i
            cases i with
            | zero => exact elsewhere
            | succ i => exact nowhere i
          · intro nowhere i
            exact nowhere (i + 1)

theorem find_eq_some_iff (nonempty : sep ≠ []) :
    find sep text = some i ↔ FirstAt sep text i := by
  induction text generalizing i with
  | nil =>
      simp only [find, nonempty, if_false, reduceCtorEq, false_iff]
      intro first
      have := length_le_of_prefix nonempty first.here
      have := List.length_pos_of_ne_nil nonempty
      rw [List.length_nil] at *
      omega
  | cons c rest ih =>
      rw [find]
      split
      · next here =>
          constructor
          · intro zero
            cases zero
            exact ⟨here, fun j before => absurd before (Nat.not_lt_zero j)⟩
          · intro first
            cases i with
            | zero => rfl
            | succ i => exact absurd here (first.first 0 (Nat.zero_lt_succ i))
      · next elsewhere =>
          rw [Option.map_eq_some_iff]
          constructor
          · rintro ⟨k, found, rfl⟩
            obtain ⟨here, first⟩ := ih.mp found
            refine ⟨here, ?_⟩
            intro j before
            cases j with
            | zero => exact elsewhere
            | succ j => exact first j (by omega)
          · intro first
            cases i with
            | zero => exact absurd first.here elsewhere
            | succ i =>
                refine ⟨i, ih.mpr ⟨first.here, ?_⟩, rfl⟩
                intro j before
                exact first.first (j + 1) (by omega)

/-- A single element is found where it stands first. -/
theorem find_singleton {c : α} (clean : c ∉ front) :
    find [c] (front ++ c :: back) = some front.length := by
  induction front with
  | nil => simp [find]
  | cons d front ih =>
      obtain ⟨other, clean⟩ := not_or.mp (mt List.mem_cons.mpr clean)
      have elsewhere : ¬ [c] <+: d :: (front ++ c :: back) := by
        intro here
        exact other (List.cons_prefix_cons.mp here).1
      rw [List.cons_append, find, if_neg elsewhere, ih clean]
      rfl

theorem find_singleton_eq_none {c : α} : find [c] text = none ↔ c ∉ text := by
  induction text with
  | nil => simp [find]
  | cons d rest ih =>
      rw [find]
      split
      · next here =>
          obtain ⟨rfl, -⟩ := List.cons_prefix_cons.mp here
          simp
      · next elsewhere =>
          have other : c ≠ d := by
            rintro rfl
            exact elsewhere (List.cons_prefix_cons.mpr ⟨rfl, List.nil_prefix⟩)
          rw [Option.map_eq_none_iff, ih, List.mem_cons, not_or]
          exact ⟨fun clean => ⟨other, clean⟩, And.right⟩

theorem cut_singleton {c : α} (clean : c ∉ front) :
    cut [c] (front ++ c :: back) = some (front, back) := by
  rw [cut, find_singleton clean, Option.map_some, List.take_left, ← List.drop_drop,
    List.drop_left]
  rfl

theorem cut_singleton_eq_some {c : α} (parts : cut [c] text = some (front, back)) :
    text = front ++ c :: back ∧ c ∉ front := by
  by_cases inside : c ∈ text
  · obtain ⟨before, after, whole, clean⟩ := List.eq_append_cons_of_mem inside
    rw [whole, cut_singleton clean] at parts
    cases parts
    exact ⟨whole, clean⟩
  · rw [cut, find_singleton_eq_none.mpr inside] at parts
    cases parts

/-- The index of the first place of `sep` that is not before `start`. -/
def findFrom (sep text : List α) (start : Nat) : Option Nat :=
  (find sep (text.drop start)).map (· + start)

/-- The first `c` that is not before `start` is at `i`. -/
structure NextAt (c : α) (text : List α) (start i : Nat) : Prop where
  le : start ≤ i
  here : text[i]? = some c
  first : ∀ j, start ≤ j → j < i → text[j]? ≠ some c

omit [DecidableEq α] in
theorem NextAt.unique {c : α} {start : Nat} (h : NextAt c text start i)
    (h' : NextAt c text start j) : i = j := by
  rcases Nat.lt_trichotomy i j with before | same | behind
  · exact absurd h.here (h'.first i h.le before)
  · exact same
  · exact absurd h'.here (h.first j h'.le behind)

omit [DecidableEq α] in
theorem singleton_prefix_drop {c : α} : [c] <+: text.drop i ↔ text[i]? = some c := by
  rw [← Nat.add_zero i, ← List.getElem?_drop, Nat.add_zero]
  cases text.drop i with
  | nil => simp
  | cons d rest => simp [List.cons_prefix_cons, eq_comm]

theorem findFrom_eq_some_iff {c : α} {start : Nat} :
    findFrom [c] text start = some i ↔ NextAt c text start i := by
  have shifted (k : Nat) : [c] <+: (text.drop start).drop k ↔ text[start + k]? = some c := by
    rw [List.drop_drop, singleton_prefix_drop]
  rw [findFrom, Option.map_eq_some_iff]
  constructor
  · rintro ⟨k, found, rfl⟩
    obtain ⟨here, first⟩ := (find_eq_some_iff (List.cons_ne_nil _ _)).mp found
    refine ⟨Nat.le_add_left _ _, Nat.add_comm k start ▸ (shifted k).mp here, ?_⟩
    intro j behind before there
    apply first (j - start) (by omega)
    rw [shifted, Nat.add_sub_cancel' behind]
    exact there
  · rintro ⟨le, here, first⟩
    refine ⟨i - start, (find_eq_some_iff (List.cons_ne_nil _ _)).mpr ⟨?_, ?_⟩, by omega⟩
    · rw [shifted, Nat.add_sub_cancel' le]
      exact here
    · intro j before there
      exact first (start + j) (Nat.le_add_right _ _) (by omega) ((shifted j).mp there)

end Find

/-! ### Rows that do not overlap with themselves -/

/-- No end of the row is a beginning of it. -/
def BorderFree (sep : List α) : Prop :=
  sep ≠ [] ∧ ∀ k < sep.length, 0 < k → ¬ sep.drop k <+: sep

section Splitting

variable {sep text front back : List α}

omit [DecidableEq α] in
/-- A row that stands at the seam stands in the front, or it begins with a piece of the
front. -/
theorem prefix_drop_left {j : Nat} (here : sep <+: (front ++ back).drop j)
    (inside : j + sep.length ≤ front.length) : sep <+: front.drop j := by
  rw [List.drop_append_of_le_length (by omega)] at here
  exact List.prefix_of_prefix_length_le here (List.prefix_append _ _)
    (by rw [List.length_drop]; omega)

omit [DecidableEq α] in
/-- A row without `c` does not reach over a `c`. -/
theorem prefix_append_cons {c : α} (clean : c ∉ sep) :
    sep <+: front ++ c :: back ↔ sep <+: front := by
  constructor
  · intro here
    rcases List.prefix_or_prefix_of_prefix here (List.prefix_append front (c :: back)) with
      inside | ⟨rest, whole⟩
    · exact inside
    · rw [← whole, List.prefix_append_right_inj] at here
      cases rest with
      | nil => rw [← whole, List.append_nil]
      | cons d rest =>
          obtain ⟨rfl, -⟩ := List.cons_prefix_cons.mp here
          rw [← whole] at clean
          exact absurd (List.mem_append_right _ List.mem_cons_self) clean
  · intro here
    exact here.trans (List.prefix_append _ _)

theorem find_append (free : BorderFree sep) (clean : ∀ i, ¬ sep <+: front.drop i) :
    find sep (front ++ (sep ++ back)) = some front.length := by
  apply (find_eq_some_iff free.1).mpr
  constructor
  · rw [List.drop_left]
    exact List.prefix_append _ _
  · intro j before here
    by_cases inside : j + sep.length ≤ front.length
    · exact clean j (prefix_drop_left here inside)
    · -- the row would begin in the front and end in the row behind it
      obtain ⟨rest, whole⟩ := here
      have later := congrArg (List.drop (front.length - j)) whole
      rw [List.drop_append_of_le_length (by omega), List.drop_drop,
        Nat.add_sub_cancel' before.le, List.drop_left] at later
      apply free.2 (front.length - j) (by omega) (by omega)
      apply List.prefix_of_prefix_length_le (List.prefix_append _ rest)
      · rw [later]
        exact List.prefix_append _ _
      · rw [List.length_drop]
        omega

/-- What stands first in the front stands first in the whole. -/
theorem find_append_of_some {i : Nat} (nonempty : sep ≠ []) (found : find sep front = some i) :
    find sep (front ++ back) = some i := by
  obtain ⟨here, first⟩ := (find_eq_some_iff nonempty).mp found
  have room := length_le_of_prefix nonempty here
  apply (find_eq_some_iff nonempty).mpr
  constructor
  · rw [List.drop_append_of_le_length (by omega)]
    exact here.trans (List.prefix_append _ _)
  · intro j before there
    exact first j before (prefix_drop_left there (by omega))

/-- The pieces between the places of `sep`. -/
def split (sep text : List α) : List (List α) :=
  if _nonempty : sep = [] then [text]
  else
    match _found : find sep text with
    | none => [text]
    | some i => text.take i :: split sep (text.drop (i + sep.length))
termination_by text.length
decreasing_by
  have room := length_le_of_prefix _nonempty ((find_eq_some_iff _nonempty).mp _found).here
  have := List.length_pos_of_ne_nil _nonempty
  rw [List.length_drop]
  omega

theorem split_of_none (nowhere : find sep text = none) : split sep text = [text] := by
  rw [split]
  split
  · rfl
  · split
    · rfl
    · next found =>
        rw [nowhere] at found
        cases found

theorem split_of_some {i : Nat} (nonempty : sep ≠ []) (found : find sep text = some i) :
    split sep text = text.take i :: split sep (text.drop (i + sep.length)) := by
  rw [split, dif_neg nonempty]
  split
  · next nowhere =>
      rw [nowhere] at found
      cases found
  · next found' =>
      rw [found'] at found
      cases found
      rfl

theorem split_append (free : BorderFree sep) (front back : List α) :
    split sep (front ++ (sep ++ back)) = split sep front ++ split sep back := by
  have nonempty := free.1
  cases found : find sep front with
  | none =>
      have clean := (find_eq_none_iff nonempty).mp found
      rw [split_of_some nonempty (find_append free clean), split_of_none found, List.take_left,
        ← List.drop_drop, List.drop_left, List.drop_left]
      rfl
  | some i =>
      have room := length_le_of_prefix nonempty ((find_eq_some_iff nonempty).mp found).here
      have := List.length_pos_of_ne_nil nonempty
      have rest : (front.drop (i + sep.length)).length < front.length := by
        rw [List.length_drop]
        omega
      rw [split_of_some nonempty (find_append_of_some nonempty found),
        split_of_some nonempty found, List.take_append_of_le_length (by omega),
        List.drop_append_of_le_length room, split_append free _ back, List.cons_append]
termination_by front.length

end Splitting

end Find
