import Mathlib.Logic.Function.Basic

/-!
Threads that interleave over one shared state.

A `Machine` gives every thread a step function over its own local state and the
shared state; the `Act` argument is what the environment answers at that step.
A `State` holds one local state for each thread, and a run picks any thread at
every step. Runs are *guarded*: `Reach ok` only takes steps that satisfy `ok`,
and `Reach fun _ _ _ => True` is every run.

`Reach.invariant` is the plain induction rule and `Reach.threadModular` its form
for an invariant with a shared part and one part for each thread, where a step
has to keep its own thread's part and must not disturb the others.
-/

namespace Interleaving

/-- Threads `Tid`, each with its own local state, over a shared state. -/
structure Machine (Tid : Type) (Loc : Tid → Type) (Shared Act : Type) where
  /-- One step of a thread; `none` when the thread cannot take it. -/
  step : (t : Tid) → Loc t → Shared → Act → Option (Loc t × Shared)

/-- Local states of all threads and the shared state. -/
structure State {Tid : Type} (Loc : Tid → Type) (Shared : Type) where
  loc : (t : Tid) → Loc t
  shared : Shared

variable {Tid : Type} [DecidableEq Tid] {Loc : Tid → Type} {Shared Act : Type}

/-- Thread `t` moves, with answer `a`; the other threads stay where they are. -/
def Machine.next (M : Machine Tid Loc Shared Act) (s : State Loc Shared) (t : Tid) (a : Act) :
    Option (State Loc Shared) :=
  (M.step t (s.loc t) s.shared a).map fun p => ⟨Function.update s.loc t p.1, p.2⟩

/-- A schedule: which thread moves next and what it is answered. -/
def Machine.exec (M : Machine Tid Loc Shared Act) :
    State Loc Shared → List (Tid × Act) → Option (State Loc Shared)
  | s, [] => some s
  | s, (t, a) :: rest => (M.next s t a).bind fun s' => M.exec s' rest

/-- The state after a schedule; the start if the schedule cannot be followed. -/
def Machine.run (M : Machine Tid Loc Shared Act) (s : State Loc Shared) (w : List (Tid × Act)) :
    State Loc Shared :=
  (M.exec s w).getD s

/-- Whether a schedule can be followed with every step passing the test `ok`. -/
def Machine.follows (M : Machine Tid Loc Shared Act) (ok : State Loc Shared → Tid → Act → Bool) :
    State Loc Shared → List (Tid × Act) → Bool
  | _, [] => true
  | s, (t, a) :: rest =>
      ok s t a && match M.next s t a with
        | none => false
        | some s' => M.follows ok s' rest

/-- States reached from `s₀` by steps that all satisfy `ok` where they are taken. -/
inductive Reach (M : Machine Tid Loc Shared Act) (ok : State Loc Shared → Tid → Act → Prop)
    (s₀ : State Loc Shared) : State Loc Shared → Prop
  | start : Reach M ok s₀ s₀
  | step {s s' : State Loc Shared} {t : Tid} {a : Act} :
      Reach M ok s₀ s → ok s t a → M.next s t a = some s' → Reach M ok s₀ s'

/-- A run with its steps, each with the state it was taken in, in order. -/
inductive Trace (M : Machine Tid Loc Shared Act) (ok : State Loc Shared → Tid → Act → Prop)
    (s₀ : State Loc Shared) : List (State Loc Shared × Tid × Act) → State Loc Shared → Prop
  | start : Trace M ok s₀ [] s₀
  | step {tr : List (State Loc Shared × Tid × Act)} {s s' : State Loc Shared} {t : Tid} {a : Act} :
      Trace M ok s₀ tr s → ok s t a → M.next s t a = some s' → Trace M ok s₀ (tr ++ [(s, t, a)]) s'

/-- The steps of a schedule, each with the state it is taken in. -/
def Machine.trace (M : Machine Tid Loc Shared Act) :
    State Loc Shared → List (Tid × Act) → List (State Loc Shared × Tid × Act)
  | _, [] => []
  | s, (t, a) :: rest =>
      (s, t, a) :: match M.next s t a with
        | none => []
        | some s' => M.trace s' rest

/-- Every run. -/
def anyStep (_ : State Loc Shared) (_ : Tid) (_ : Act) : Prop := True

variable {M : Machine Tid Loc Shared Act} {ok : State Loc Shared → Tid → Act → Prop}
  {s₀ s s' : State Loc Shared} {t : Tid} {a : Act}

/-- What a step of the whole system is: one thread's step, the others unmoved. -/
theorem Machine.next_eq_some (h : M.next s t a = some s') :
    ∃ l n, M.step t (s.loc t) s.shared a = some (l, n) ∧
      s' = ⟨Function.update s.loc t l, n⟩ := by
  unfold Machine.next at h
  rw [Option.map_eq_some_iff] at h
  obtain ⟨⟨l, n⟩, hstep, rfl⟩ := h
  exact ⟨l, n, hstep, rfl⟩

/-- What a schedule's steps keep holds after the schedule. -/
theorem Machine.exec_invariant {P : State Loc Shared → Prop} {w : List (Tid × Act)}
    (keeps : ∀ s s' t a, (t, a) ∈ w → P s → M.next s t a = some s' → P s')
    (h0 : P s) (h : M.exec s w = some s') : P s' := by
  induction w generalizing s with
  | nil =>
      cases h
      exact h0
  | cons head rest ih =>
      obtain ⟨t, a⟩ := head
      rw [Machine.exec, Option.bind_eq_some_iff] at h
      obtain ⟨mid, hnext, hrest⟩ := h
      refine ih (fun s s' t a hmem => keeps s s' t a (List.mem_cons_of_mem _ hmem)) ?_ hrest
      exact keeps s mid t a List.mem_cons_self h0 hnext

/-- Two states from which every step leads to states that stay related, or is possible in
neither, stay related along every schedule. -/
theorem Machine.exec_lockstep {R : State Loc Shared → State Loc Shared → Prop}
    (keeps : ∀ s₁ s₂ t a, R s₁ s₂ → Option.Rel R (M.next s₁ t a) (M.next s₂ t a))
    {s₁ s₂ : State Loc Shared} (h : R s₁ s₂) (w : List (Tid × Act)) :
    Option.Rel R (M.exec s₁ w) (M.exec s₂ w) := by
  induction w generalizing s₁ s₂ with
  | nil => exact .some h
  | cons head rest ih =>
      obtain ⟨t, a⟩ := head
      have both := keeps s₁ s₂ t a h
      rw [Machine.exec, Machine.exec]
      cases first : M.next s₁ t a with
      | none =>
          rw [first] at both
          cases second : M.next s₂ t a with
          | none => exact .none
          | some s₂' =>
              rw [second] at both
              cases both
      | some s₁' =>
          rw [first] at both
          cases second : M.next s₂ t a with
          | none =>
              rw [second] at both
              cases both
          | some s₂' =>
              rw [second] at both
              cases both with
              | some related => exact ih related

/-- A thread that a schedule does not name stays where it is. -/
theorem Machine.exec_loc {w : List (Tid × Act)} (other : ∀ p ∈ w, p.1 ≠ t)
    (h : M.exec s w = some s') : s'.loc t = s.loc t := by
  refine Machine.exec_invariant (P := fun s' => s'.loc t = s.loc t) ?_ rfl h
  intro s₁ s₂ t' a mem before next
  unfold Machine.next at next
  rw [Option.map_eq_some_iff] at next
  obtain ⟨p, _, rfl⟩ := next
  rw [← before]
  exact Function.update_of_ne (Ne.symm (other _ mem)) _ _

/-- A weaker guard reaches at least as much. -/
theorem Reach.mono {ok' : State Loc Shared → Tid → Act → Prop}
    (hok : ∀ s t a, ok s t a → ok' s t a) (h : Reach M ok s₀ s) : Reach M ok' s₀ s := by
  induction h with
  | start => exact .start
  | step _ hg hn ih => exact .step ih (hok _ _ _ hg) hn

/-- A guarded run is a run. -/
theorem Reach.any (h : Reach M ok s₀ s) : Reach M anyStep s₀ s :=
  h.mono fun _ _ _ _ => trivial

/-- What held before every step after which it holds was there in all states of a run that ends
with it. -/
theorem Reach.backward {P : State Loc Shared → Prop}
    (back : ∀ s s' t a, Reach M ok s₀ s → M.next s t a = some s' → P s' → P s)
    (h : Reach M ok s₀ s) (holds : P s) : Reach M (fun s t a => ok s t a ∧ P s) s₀ s := by
  induction h with
  | start => exact .start
  | step before hg hn ih =>
      have held := back _ _ _ _ before hn holds
      exact .step (ih held) ⟨hg, held⟩ hn

/-- A schedule whose steps pass the test is executed to the end, within the runs
that the test guards. -/
theorem Reach.exec_of_follows {ok : State Loc Shared → Tid → Act → Bool} {w : List (Tid × Act)}
    (h : Reach M (fun s t a => ok s t a = true) s₀ s) (hw : M.follows ok s w = true) :
    ∃ s', M.exec s w = some s' ∧ Reach M (fun s t a => ok s t a = true) s₀ s' := by
  induction w generalizing s with
  | nil => exact ⟨s, rfl, h⟩
  | cons head rest ih =>
      obtain ⟨t, a⟩ := head
      simp only [Machine.follows, Bool.and_eq_true] at hw
      obtain ⟨hok, hrest⟩ := hw
      cases hnext : M.next s t a with
      | none => simp [hnext] at hrest
      | some mid =>
          rw [hnext] at hrest
          obtain ⟨s', hexec, hreach⟩ := ih (.step h hok hnext) hrest
          exact ⟨s', by simp [Machine.exec, hnext, hexec], hreach⟩

theorem Machine.exec_eq_run {ok : State Loc Shared → Tid → Act → Bool} {w : List (Tid × Act)}
    (hw : M.follows ok s w = true) : M.exec s w = some (M.run s w) := by
  obtain ⟨s', hexec, _⟩ := Reach.exec_of_follows .start hw
  rw [Machine.run, hexec]
  rfl

/-- A schedule that passes the test ends in a state of a guarded run. -/
theorem Reach.run {ok : State Loc Shared → Tid → Act → Bool} {w : List (Tid × Act)}
    (hw : M.follows ok s₀ w = true) :
    Reach M (fun s t a => ok s t a = true) s₀ (M.run s₀ w) := by
  obtain ⟨s', hexec, hreach⟩ := Reach.exec_of_follows .start hw
  rw [Machine.exec_eq_run hw] at hexec
  cases hexec
  exact hreach

@[inherit_doc Reach.mono]
theorem Trace.mono {ok' : State Loc Shared → Tid → Act → Prop}
    {tr : List (State Loc Shared × Tid × Act)} (hok : ∀ s t a, ok s t a → ok' s t a)
    (h : Trace M ok s₀ tr s) : Trace M ok' s₀ tr s := by
  induction h with
  | start => exact .start
  | step _ hg hn ih => exact .step ih (hok _ _ _ hg) hn

/-- A reached state has a run that leads to it. -/
theorem Reach.trace (h : Reach M ok s₀ s) : ∃ tr, Trace M ok s₀ tr s := by
  induction h with
  | start => exact ⟨[], .start⟩
  | step _ hg hn ih =>
      obtain ⟨tr, run⟩ := ih
      exact ⟨_, .step run hg hn⟩

/-- A run that goes on from a state of another run. -/
theorem Trace.reach {ok' : State Loc Shared → Tid → Act → Prop} {i : State Loc Shared}
    {tr : List (State Loc Shared × Tid × Act)} (h : Trace M ok s₀ tr s)
    (hok : ∀ s t a, ok s t a → ok' s t a) (h0 : Reach M ok' i s₀) : Reach M ok' i s := by
  induction h with
  | start => exact h0
  | step _ hg hn ih => exact .step ih (hok _ _ _ hg) hn

/-- Every step of a run was taken in a state of the run, and allowed there. -/
theorem Trace.mem {tr : List (State Loc Shared × Tid × Act)} (h : Trace M ok s₀ tr s)
    (hmem : (s', t, a) ∈ tr) :
    ∃ tr' s'', Trace M ok s₀ tr' s' ∧ ok s' t a ∧ M.next s' t a = some s'' := by
  induction h with
  | start => cases hmem
  | @step tr s s₁ t₁ a₁ htr hg hn ih =>
      rcases List.mem_append.mp hmem with hmem | hmem
      · exact ih hmem
      · cases List.mem_singleton.mp hmem
        exact ⟨tr, s₁, htr, hg, hn⟩

theorem Trace.append_of_follows {ok : State Loc Shared → Tid → Act → Bool} {w : List (Tid × Act)}
    {tr : List (State Loc Shared × Tid × Act)}
    (h : Trace M (fun s t a => ok s t a = true) s₀ tr s) (hw : M.follows ok s w = true) :
    ∃ s', M.exec s w = some s' ∧
      Trace M (fun s t a => ok s t a = true) s₀ (tr ++ M.trace s w) s' := by
  induction w generalizing s tr with
  | nil => exact ⟨s, rfl, by simpa [Machine.trace] using h⟩
  | cons head rest ih =>
      obtain ⟨t, a⟩ := head
      simp only [Machine.follows, Bool.and_eq_true] at hw
      obtain ⟨hok, hrest⟩ := hw
      cases hnext : M.next s t a with
      | none => simp [hnext] at hrest
      | some mid =>
          rw [hnext] at hrest
          obtain ⟨s', hexec, htrace⟩ := ih (.step h hok hnext) hrest
          refine ⟨s', by simp [Machine.exec, hnext, hexec], ?_⟩
          simpa [Machine.trace, hnext] using htrace

/-- A schedule that passes the test is a run with the schedule's steps. -/
theorem Trace.run {ok : State Loc Shared → Tid → Act → Bool} {w : List (Tid × Act)}
    (hw : M.follows ok s₀ w = true) :
    Trace M (fun s t a => ok s t a = true) s₀ (M.trace s₀ w) (M.run s₀ w) := by
  obtain ⟨s', hexec, htrace⟩ := Trace.append_of_follows .start hw
  rw [Machine.exec_eq_run hw] at hexec
  cases hexec
  exact htrace

/-- An invariant of the start that every guarded step keeps holds in every
state of every guarded run. The step may use that its source is reached. -/
theorem Reach.invariant {I : State Loc Shared → Prop} (h0 : I s₀)
    (hstep : ∀ s s' t a, Reach M ok s₀ s → I s → ok s t a → M.next s t a = some s' → I s')
    (h : Reach M ok s₀ s) : I s := by
  induction h with
  | start => exact h0
  | step hr hg hn ih => exact hstep _ _ _ _ hr ih hg hn

/-- A shared part `G` and a part `L t` for each thread. -/
structure Holds (G : Shared → Prop) (L : (t : Tid) → Loc t → Shared → Prop)
    (s : State Loc Shared) : Prop where
  shared : G s.shared
  loc (t : Tid) : L t (s.loc t) s.shared

/-- **The thread-modular rule.** A step of thread `t` re-establishes the shared
part and the part of `t` (`own`), and leaves the part of every other thread, at
whatever local state that thread is, as it was (`other`). -/
theorem Reach.threadModular {G : Shared → Prop} {L : (t : Tid) → Loc t → Shared → Prop}
    (h0 : Holds G L s₀)
    (own : ∀ s t a l n, Reach M ok s₀ s → Holds G L s → ok s t a →
      M.step t (s.loc t) s.shared a = some (l, n) → G n ∧ L t l n)
    (other : ∀ s t a l n, Reach M ok s₀ s → Holds G L s → ok s t a →
      M.step t (s.loc t) s.shared a = some (l, n) → ∀ t', t' ≠ t → L t' (s.loc t') n)
    (h : Reach M ok s₀ s) : Holds G L s := by
  refine h.invariant h0 fun s s' t a hr hi hg hn => ?_
  obtain ⟨l, n, hstep, rfl⟩ := Machine.next_eq_some hn
  obtain ⟨hG, hL⟩ := own s t a l n hr hi hg hstep
  refine ⟨hG, fun t' => ?_⟩
  by_cases ht : t' = t
  · subst ht
    simpa using hL
  · simpa [ht] using other s t a l n hr hi hg hstep t' ht

end Interleaving
