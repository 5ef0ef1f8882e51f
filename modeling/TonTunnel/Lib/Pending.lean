import Mathlib.Data.List.AList

/-!
Requests that wait under a key for their answer.

A request is stored under its key, and the one that waits there is settled first. It leaves
the table only by being settled. `Sound` is what such a table keeps: of the requests stored
under a key all but the last are settled, the last one waits or is settled too, and none is
settled twice. The history says which; `waiting_iff` is the way back from it.
-/

namespace Pending

variable {Key Req Outcome : Type}

inductive Entry (Key Req Outcome : Type) where
  | stored (p : Req) (k : Key)
  | settled (p : Req) (o : Outcome)
  deriving DecidableEq, Repr

structure Table (Key Req Outcome : Type) where
  waiting : AList (fun _ : Key => Req) := ∅
  history : List (Entry Key Req Outcome) := []

namespace Table

variable (T : Table Key Req Outcome)

def Stored (p : Req) (k : Key) : Prop := .stored p k ∈ T.history

def Settled (p : Req) : Prop := ∃ o, .settled p o ∈ T.history

/-- No request was stored under the key after this one. -/
def Latest (k : Key) (p : Req) : Prop :=
  ∃ before after, T.history = before ++ Entry.stored p k :: after ∧ ∀ q, .stored q k ∉ after

/-- How often a request was settled. -/
def settlements [DecidableEq Req] (p : Req) : Nat :=
  T.history.countP fun
    | .settled q _ => q = p
    | .stored _ _ => false

/-- A request is settled without having waited. -/
def refuse (p : Req) (o : Outcome) : Table Key Req Outcome :=
  { T with history := T.history ++ [Entry.settled p o] }

variable [DecidableEq Key]

/-- The request that waits under the key, if there is one, is settled. -/
def settle (k : Key) (o : Outcome) : Table Key Req Outcome :=
  match T.waiting.lookup k with
  | none => T
  | some p => ⟨T.waiting.erase k, T.history ++ [Entry.settled p o]⟩

/-- Puts a request under a key that holds none. -/
def emplace (k : Key) (p : Req) : Table Key Req Outcome :=
  match T.waiting.lookup k with
  | some _ => T
  | none => ⟨T.waiting.insert k p, T.history ++ [Entry.stored p k]⟩

/-- A request takes the place of the one that waits under its key. -/
def store (k : Key) (p : Req) (o : Outcome) : Table Key Req Outcome :=
  (T.settle k o).emplace k p

end Table

/-- Not in the table, and not settled. -/
def Fresh (T : Table Key Req Outcome) (p : Req) : Prop := (∀ k, ¬ T.Stored p k) ∧ ¬ T.Settled p

section History

variable {T : Table Key Req Outcome} {p q : Req} {k : Key} {o : Outcome}
  {e : Entry Key Req Outcome}

theorem Table.Latest.stored (h : T.Latest k p) : T.Stored p k := by
  obtain ⟨before, after, split, -⟩ := h
  rw [Table.Stored, split]
  exact List.mem_append_right _ List.mem_cons_self

/-- What is appended and is not stored under the key leaves the last one the last one. -/
theorem Table.Latest.append {T' : Table Key Req Outcome} (h : T.Latest k p)
    (grown : T'.history = T.history ++ [e]) (other : ∀ q, e ≠ .stored q k) : T'.Latest k p := by
  obtain ⟨before, after, split, last⟩ := h
  refine ⟨before, after ++ [e], ?_, ?_⟩
  · rw [grown, split, List.append_assoc, List.cons_append]
  · intro q mem
    obtain mem | mem := List.mem_append.mp mem
    · exact last q mem
    · exact other q (List.mem_singleton.mp mem).symm

theorem settlements_append [DecidableEq Req] {T' : Table Key Req Outcome}
    (grown : T'.history = T.history ++ [Entry.settled q o]) :
    T'.settlements p = T.settlements p + if q = p then 1 else 0 := by
  rw [Table.settlements, grown, List.countP_append]
  simp [Table.settlements]

theorem settlements_eq_zero_iff [DecidableEq Req] : T.settlements p = 0 ↔ ¬ T.Settled p := by
  rw [Table.settlements, List.countP_eq_zero]
  constructor
  · rintro none ⟨o, mem⟩
    exact none _ mem (decide_eq_true rfl)
  · intro open_ e mem settles
    cases e with
    | stored q k => cases settles
    | settled q o =>
        obtain rfl := of_decide_eq_true settles
        exact open_ ⟨o, mem⟩

theorem Fresh.refuse (fresh : Fresh T q) (other : q ≠ p) : Fresh (T.refuse p o) q := by
  constructor
  · intro k mem
    obtain mem | mem := List.mem_append.mp mem
    · exact fresh.1 k mem
    · cases List.mem_singleton.mp mem
  · rintro ⟨o', mem⟩
    obtain mem | mem := List.mem_append.mp mem
    · exact fresh.2 ⟨o', mem⟩
    · cases List.mem_singleton.mp mem
      exact other rfl

end History

section Operations

variable [DecidableEq Key] {T : Table Key Req Outcome} {p : Req} {k : Key} {o : Outcome}
  {e : Entry Key Req Outcome}

theorem settle_of_none (none : T.waiting.lookup k = none) : T.settle k o = T := by
  rw [Table.settle, none]

theorem settle_of_some (found : T.waiting.lookup k = some p) :
    T.settle k o = ⟨T.waiting.erase k, T.history ++ [Entry.settled p o]⟩ := by
  rw [Table.settle, found]

theorem lookup_settle : (T.settle k o).waiting.lookup k = none := by
  cases found : T.waiting.lookup k with
  | none => rw [settle_of_none found, found]
  | some p => rw [settle_of_some found, AList.lookup_erase]

theorem emplace_of_none (free : T.waiting.lookup k = none) :
    T.emplace k p = ⟨T.waiting.insert k p, T.history ++ [Entry.stored p k]⟩ := by
  rw [Table.emplace, free]

theorem mem_settle : e ∈ (T.settle k o).history ↔
    e ∈ T.history ∨ ∃ p, T.waiting.lookup k = some p ∧ e = .settled p o := by
  cases found : T.waiting.lookup k with
  | none =>
      rw [settle_of_none found]
      simp
  | some p =>
      rw [settle_of_some found]
      simp

theorem mem_store : e ∈ (T.store k p o).history ↔
    e ∈ (T.settle k o).history ∨ e = .stored p k := by
  rw [Table.store, emplace_of_none lookup_settle]
  simp

end Operations

/-! ### What a table keeps -/

section Sound

variable [DecidableEq Key] [DecidableEq Req]

structure Sound (T : Table Key Req Outcome) : Prop where
  latest {k : Key} {p : Req} : T.waiting.lookup k = some p → T.Latest k p
  unsettled {k : Key} {p : Req} : T.waiting.lookup k = some p → ¬ T.Settled p
  accounted {k : Key} {p : Req} : T.Stored p k → T.waiting.lookup k = some p ∨ T.Settled p
  once (p : Req) : T.settlements p ≤ 1
  oneKey {k k' : Key} {p : Req} : T.Stored p k → T.Stored p k' → k = k'

variable {T : Table Key Req Outcome} {p q : Req} {k : Key} {o : Outcome}

theorem Sound.empty : Sound ({} : Table Key Req Outcome) := by
  constructor
  · intro k p found
    cases found
  · intro k p found
    cases found
  · intro k p stored
    cases stored
  · intro p
    exact Nat.zero_le 1
  · intro k k' p stored
    cases stored

/-- The request that waits under a key is the one stored there that is not settled. -/
theorem Sound.waiting_iff (h : Sound T) :
    T.waiting.lookup k = some p ↔ T.Stored p k ∧ ¬ T.Settled p := by
  constructor
  · intro found
    exact ⟨(h.latest found).stored, h.unsettled found⟩
  · rintro ⟨stored, unsettled⟩
    exact (h.accounted stored).resolve_right unsettled

/-- A request that waits nowhere any more is settled. -/
theorem Sound.settled {T' : Table Key Req Outcome} (h : Sound T) (unsettled : ¬ T.Settled p)
    (grown : T'.history = T.history ++ [Entry.settled p o])
    (waiting : ∀ k q, T'.waiting.lookup k = some q ↔ T.waiting.lookup k = some q ∧ q ≠ p) :
    Sound T' := by
  have stored {k : Key} {q : Req} : T'.Stored q k → T.Stored q k := by
    intro mem
    rw [Table.Stored, grown] at mem
    obtain mem | mem := List.mem_append.mp mem
    · exact mem
    · cases List.mem_singleton.mp mem
  have old {q : Req} : T.Settled q → T'.Settled q := by
    rintro ⟨o, mem⟩
    exact ⟨o, grown ▸ List.mem_append_left _ mem⟩
  have now : T'.Settled p := ⟨o, grown ▸ List.mem_append_right _ List.mem_cons_self⟩
  constructor
  · intro k q found
    exact (h.latest ((waiting k q).mp found).1).append grown nofun
  · rintro k q found ⟨o', mem⟩
    obtain ⟨before, other⟩ := (waiting k q).mp found
    rw [grown] at mem
    obtain mem | mem := List.mem_append.mp mem
    · exact h.unsettled before ⟨o', mem⟩
    · cases List.mem_singleton.mp mem
      exact other rfl
  · intro k q mem
    by_cases same : q = p
    · exact .inr (same ▸ now)
    · obtain found | settled := h.accounted (stored mem)
      · exact .inl ((waiting k q).mpr ⟨found, same⟩)
      · exact .inr (old settled)
  · intro q
    rw [settlements_append grown]
    split
    · next same =>
        rw [settlements_eq_zero_iff.mpr (same ▸ unsettled)]
    · exact h.once q
  · intro k k' q mem mem'
    exact h.oneKey (stored mem) (stored mem')

theorem Sound.refuse (h : Sound T) (fresh : Fresh T p) : Sound (T.refuse p o) := by
  apply h.settled fresh.2 rfl
  intro k q
  constructor
  · intro found
    refine ⟨found, ?_⟩
    rintro rfl
    exact fresh.1 k (h.latest found).stored
  · intro found
    exact found.1

theorem Sound.settle (h : Sound T) : Sound (T.settle k o) := by
  cases found : T.waiting.lookup k with
  | none =>
      rw [settle_of_none found]
      exact h
  | some p =>
      rw [settle_of_some found]
      apply h.settled (h.unsettled found) rfl
      intro k' q
      by_cases same : k' = k
      · subst same
        rw [AList.lookup_erase, found]
        constructor
        · intro none
          cases none
        · rintro ⟨⟨⟩, other⟩
          exact absurd rfl other
      · rw [AList.lookup_erase_ne same]
        constructor
        · intro waits
          refine ⟨waits, ?_⟩
          rintro rfl
          exact same (h.oneKey (h.latest waits).stored (h.latest found).stored)
        · intro waits
          exact waits.1

theorem Fresh.settle (h : Sound T) (fresh : Fresh T q) : Fresh (T.settle k o) q := by
  cases found : T.waiting.lookup k with
  | none =>
      rw [settle_of_none found]
      exact fresh
  | some p =>
      rw [settle_of_some found]
      constructor
      · intro k' mem
        obtain mem | mem := List.mem_append.mp mem
        · exact fresh.1 k' mem
        · cases List.mem_singleton.mp mem
      · rintro ⟨o', mem⟩
        obtain mem | mem := List.mem_append.mp mem
        · exact fresh.2 ⟨o', mem⟩
        · cases List.mem_singleton.mp mem
          exact fresh.1 k (h.latest found).stored

theorem Fresh.store (h : Sound T) (fresh : Fresh T q) (other : q ≠ p) : Fresh (T.store k p o) q := by
  have settled := fresh.settle h (k := k) (o := o)
  constructor
  · intro k' mem
    obtain mem | mem := mem_store.mp mem
    · exact settled.1 k' mem
    · cases mem
      exact other rfl
  · rintro ⟨o', mem⟩
    obtain mem | mem := mem_store.mp mem
    · exact settled.2 ⟨o', mem⟩
    · cases mem

theorem Sound.emplace (h : Sound T) (fresh : Fresh T p) (free : T.waiting.lookup k = none) :
    Sound (T.emplace k p) := by
  rw [emplace_of_none free]
  have settled {q : Req} : Table.Settled ⟨T.waiting.insert k p, T.history ++ [Entry.stored p k]⟩ q →
      T.Settled q := by
    rintro ⟨o, mem⟩
    obtain mem | mem := List.mem_append.mp mem
    · exact ⟨o, mem⟩
    · cases List.mem_singleton.mp mem
  constructor
  · intro k' q found
    by_cases same : k' = k
    · subst same
      rw [AList.lookup_insert] at found
      cases found
      exact ⟨T.history, [], rfl, fun q => List.not_mem_nil⟩
    · rw [AList.lookup_insert_ne same] at found
      apply (h.latest found).append rfl
      rintro q' ⟨⟩
      exact same rfl
  · intro k' q found is
    by_cases same : k' = k
    · subst same
      rw [AList.lookup_insert] at found
      cases found
      exact fresh.2 (settled is)
    · rw [AList.lookup_insert_ne same] at found
      exact h.unsettled found (settled is)
  · intro k' q mem
    obtain mem | mem := List.mem_append.mp mem
    · obtain found | ⟨o, old⟩ := h.accounted mem
      · left
        rw [AList.lookup_insert_ne]
        · exact found
        · rintro rfl
          rw [free] at found
          cases found
      · exact .inr ⟨o, List.mem_append_left _ old⟩
    · cases List.mem_singleton.mp mem
      exact .inl (AList.lookup_insert _)
  · intro q
    have same : Table.settlements ⟨T.waiting.insert k p, T.history ++ [Entry.stored p k]⟩ q =
        T.settlements q := by
      simp [Table.settlements, List.countP_append]
    rw [same]
    exact h.once q
  · intro k₁ k₂ q mem₁ mem₂
    obtain mem₁ | mem₁ := List.mem_append.mp mem₁
    · obtain mem₂ | mem₂ := List.mem_append.mp mem₂
      · exact h.oneKey mem₁ mem₂
      · cases List.mem_singleton.mp mem₂
        exact absurd mem₁ (fresh.1 k₁)
    · cases List.mem_singleton.mp mem₁
      obtain mem₂ | mem₂ := List.mem_append.mp mem₂
      · exact absurd mem₂ (fresh.1 k₂)
      · cases List.mem_singleton.mp mem₂
        rfl

theorem Sound.store (h : Sound T) (fresh : Fresh T p) : Sound (T.store k p o) :=
  h.settle.emplace (fresh.settle h) lookup_settle

end Sound

end Pending
