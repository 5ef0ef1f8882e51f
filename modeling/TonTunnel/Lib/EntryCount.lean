import Mathlib.Data.List.AList

/-!
Counting the entries of a finite map that satisfy a predicate, under the map's
updates.
-/

namespace AList

variable {α : Type} {β : α → Type}

/-- The number of entries that satisfy `p`. -/
def entryCount (p : Sigma β → Bool) (m : AList β) : Nat := m.entries.countP p

variable [DecidableEq α]

/-- A new entry is counted if it satisfies the predicate. -/
theorem entryCount_insert {p : Sigma β → Bool} {m : AList β} {a : α} {b : β a}
    (h : m.lookup a = none) :
    (m.insert a b).entryCount p = m.entryCount p + if p ⟨a, b⟩ then 1 else 0 := by
  rw [entryCount, entries_insert_of_notMem (lookup_eq_none.mp h), List.countP_cons, entryCount]

/-- An entry that may replace another one raises the number by one at most. -/
theorem entryCount_insert_le {p : Sigma β → Bool} {m : AList β} {a : α} {b : β a} :
    (m.insert a b).entryCount p ≤ m.entryCount p + if p ⟨a, b⟩ then 1 else 0 := by
  rw [entryCount, entries_insert, List.countP_cons, entryCount]
  exact Nat.add_le_add_right ((List.kerase_sublist a m.entries).countP_le) _

/-- An erased entry was counted if it satisfied the predicate. -/
theorem entryCount_erase {p : Sigma β → Bool} {m : AList β} {a : α} {b : β a}
    (h : m.lookup a = some b) :
    m.entryCount p = (m.erase a).entryCount p + if p ⟨a, b⟩ then 1 else 0 := by
  have hmem : (⟨a, b⟩ : Sigma β) ∈ m.entries := mem_lookup_iff.mp h
  obtain ⟨b', l₁, l₂, hout, hsplit, herase⟩ :=
    List.exists_of_kerase (List.mem_keys_of_mem hmem)
  have hb : b' = b := by
    rw [hsplit] at hmem
    have hnodup := m.nodupKeys
    rw [hsplit] at hnodup
    exact hnodup.eq_of_mk_mem (List.mem_append_right _ List.mem_cons_self) hmem
  have herase' : (m.erase a).entries = l₁ ++ l₂ := herase
  rw [entryCount, entryCount, herase', hsplit, hb]
  simp only [List.countP_append, List.countP_cons]
  exact (Nat.add_assoc _ _ _).symm

/-- Counting with predicates that agree on the entries. -/
theorem entryCount_congr {p p' : Sigma β → Bool} {m : AList β}
    (h : ∀ a b, m.lookup a = some b → p ⟨a, b⟩ = p' ⟨a, b⟩) :
    m.entryCount p = m.entryCount p' := by
  refine List.countP_congr fun e he => ?_
  rw [h e.1 e.2 (mem_lookup_iff.mpr he)]

end AList
