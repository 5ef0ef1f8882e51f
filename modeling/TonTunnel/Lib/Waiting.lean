import Mathlib.Logic.Relation

/-!
Threads that wait for each other.

`waits t t'` says that `t` cannot go on before `t'` has done something. When every wait
leads up in a rank, nothing waits for itself over others (`not_cycle`), and when the
rank is bounded where something is waited for, every chain of waits has an end
(`exists_end`).
-/

namespace Waiting

open Relation (TransGen)

variable {T : Type} {waits : T → T → Prop} {rank : T → Nat} {bound : Nat} {t t' : T}

theorem rank_lt (up : ∀ t t', waits t t' → rank t < rank t') (h : TransGen waits t t') :
    rank t < rank t' := by
  induction h with
  | single first => exact up _ _ first
  | tail _ last ih => exact Nat.lt_trans ih (up _ _ last)

/-- No thread waits for itself, over however many others. -/
theorem not_cycle (up : ∀ t t', waits t t' → rank t < rank t') (t : T) :
    ¬ TransGen waits t t :=
  fun h => Nat.lt_irrefl _ (rank_lt up h)

/-- Whoever waits does so, over others, for one that does not wait. -/
theorem exists_end (up : ∀ t t', waits t t' → rank t < rank t')
    (low : ∀ t t', waits t t' → rank t' < bound) (h : waits t t') :
    ∃ last before, TransGen waits t last ∧ waits before last ∧ ∀ u, ¬ waits last u := by
  -- induction on how far the rank is below the bound
  generalize far : bound - rank t' = k
  induction k using Nat.strongRecOn generalizing t t' with
  | ind k ih =>
      by_cases goesOn : ∃ u, waits t' u
      · obtain ⟨u, next⟩ := goesOn
        have above := up _ _ next
        have below := low _ _ next
        obtain ⟨last, before, path, end_⟩ := ih (bound - rank u) (by omega) next rfl
        exact ⟨last, before, .head h path, end_⟩
      · exact ⟨t', t, .single h, h, fun u next => goesOn ⟨u, next⟩⟩

end Waiting
