import Mathlib.Data.List.Infix

/-!
Cutting a list into segments, and handing segments over one by one.

`segments n d` are the segments of length `n` of `d`, the last one as long as what is
left. `handOver ok k xs` is a sender that hands over the items of `xs` one after the
other and stops at the first that is refused; `ok i` says whether the `i`-th item
that is handed over is accepted, and `k` is the number of the first.
-/

namespace Segments

variable {α : Type}

/-! ### Segments -/

/-- The segments of length `n`, in order; none if `n` is 0. -/
def segments (n : Nat) (d : List α) : List (List α) :=
  if _h : d = [] ∨ n = 0 then [] else d.take n :: segments n (d.drop n)
termination_by d.length
decreasing_by
  have := List.length_pos_of_ne_nil (fun h => _h (.inl h))
  rw [List.length_drop]
  omega

@[simp] theorem segments_nil (n : Nat) : segments n ([] : List α) = [] := by
  rw [segments, dif_pos (.inl rfl)]

variable {n : Nat} {d : List α}

theorem segments_cons (pos : 0 < n) (some_ : d ≠ []) :
    segments n d = d.take n :: segments n (d.drop n) := by
  rw [segments, dif_neg]
  rintro (nil | zero)
  · exact some_ nil
  · omega

/-- Nothing is lost, nothing is added, and the order stays. -/
theorem flatten_segments (pos : 0 < n) : (segments n d).flatten = d := by
  fun_induction segments n d with
  | case1 d h =>
      rcases h with rfl | zero
      · rfl
      · omega
  | case2 d _ ih => rw [List.flatten_cons, ih, List.take_append_drop]

theorem length_of_mem_segments {c : List α} (mem : c ∈ segments n d) :
    1 ≤ c.length ∧ c.length ≤ n := by
  fun_induction segments n d with
  | case1 => cases mem
  | case2 d h ih =>
      rcases List.mem_cons.mp mem with rfl | mem
      · have some_ := List.length_pos_of_ne_nil (fun nil => h (.inl nil))
        have pos : n ≠ 0 := fun zero => h (.inr zero)
        rw [List.length_take]
        omega
      · exact ih mem

/-- Only the last segment may be shorter. -/
theorem length_of_mem_dropLast {c : List α} (mem : c ∈ (segments n d).dropLast) : c.length = n := by
  fun_induction segments n d with
  | case1 => cases mem
  | case2 d h ih =>
      by_cases last : segments n (d.drop n) = []
      · rw [last] at mem
        cases mem
      · rw [List.dropLast_cons_of_ne_nil last] at mem
        rcases List.mem_cons.mp mem with rfl | mem
        · -- something is left behind the first segment
          have left : d.drop n ≠ [] := fun nil => last (by rw [nil, segments_nil])
          have long := List.length_pos_of_ne_nil left
          rw [List.length_drop] at long
          rw [List.length_take]
          omega
        · exact ih mem

/-! ### Handing over -/

/-- The items that are handed over, and whether all were accepted. -/
def handOver (ok : Nat → Bool) (k : Nat) : List α → List α × Bool
  | [] => ([], true)
  | x :: xs =>
      if ok k then
        let rest := handOver ok (k + 1) xs
        (x :: rest.1, rest.2)
      else ([x], false)

/-- Those of the items handed over from number `k` on that were accepted. -/
def accepted (ok : Nat → Bool) (k : Nat) : List α → List α
  | [] => []
  | x :: xs => if ok k then x :: accepted ok (k + 1) xs else accepted ok (k + 1) xs

variable {ok : Nat → Bool} {k : Nat} {xs : List α}

/-- What was refused was handed over. -/
theorem length_pos_of_refused (refused : (handOver ok k xs).2 = false) :
    0 < (handOver ok k xs).1.length := by
  cases xs with
  | nil => cases refused
  | cons x xs =>
      rw [handOver]
      split <;> exact Nat.zero_lt_succ _

/-- Without a refusal everything is handed over. -/
theorem handOver_all (fine : ∀ i < xs.length, ok (k + i) = true) : handOver ok k xs = (xs, true) := by
  induction xs generalizing k with
  | nil => rfl
  | cons x xs ih =>
      have first : ok k = true := fine 0 (by simp)
      have rest : handOver ok (k + 1) xs = (xs, true) := by
        refine ih fun i low => ?_
        have later := fine (i + 1) (by simpa using low)
        rwa [← Nat.add_assoc, Nat.add_right_comm] at later
      rw [handOver, if_pos first, rest]

/-- At the first refusal the sender stops: the refused item was handed over, nothing behind it, and
accepted is what stands before it. -/
theorem handOver_refused {j : Nat} (low : j < xs.length) (fine : ∀ i < j, ok (k + i) = true)
    (refused : ok (k + j) = false) :
    handOver ok k xs = (xs.take (j + 1), false) ∧ accepted ok k (xs.take (j + 1)) = xs.take j := by
  induction j generalizing k xs with
  | zero =>
      cases xs with
      | nil => cases low
      | cons x xs =>
          have refused₀ : ok k = false := refused
          simp [handOver, accepted, refused₀]
  | succ j ih =>
      cases xs with
      | nil => cases low
      | cons x xs =>
          have first : ok k = true := fine 0 (Nat.zero_lt_succ _)
          have moved (i : Nat) : k + 1 + i = k + (i + 1) := by omega
          obtain ⟨handed, taken⟩ := ih (k := k + 1) (Nat.lt_of_succ_lt_succ low)
            (fun i low => by rw [moved]; exact fine (i + 1) (by omega)) (by rw [moved]; exact refused)
          refine ⟨?_, ?_⟩
          · rw [handOver, if_pos first, handed]
            rfl
          · rw [List.take_succ_cons, accepted, if_pos first, taken]
            rfl

end Segments
