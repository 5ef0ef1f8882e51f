import TonTunnel.Lib.Interleaving

/-!
Two machines that are connected.

A coupled machine runs the threads of both, each over its own part of the shared
state. A `Coupling` says, for every answer a machine is given, whether the
connection between the two can give it at that moment, and how the connection
changes. What one machine does in a coupled run it can do alone: `Reach.left` and
`Reach.right` take a state of a coupled run to the state of a run of either
machine, so that an invariant of a machine holds of its part in every coupling.
-/

namespace Interleaving

/-- The shared states of two machines and the state of the connection. -/
structure Joint (S₁ S₂ C : Type) where
  left : S₁
  right : S₂
  link : C

/-- When the connection can give a machine an answer, and what becomes of it. -/
structure Coupling (S₁ S₂ C A₁ A₂ : Type) where
  left : A₁ → Joint S₁ S₂ C → Option C
  right : A₂ → Joint S₁ S₂ C → Option C

/-- Local states of the threads of both. -/
@[reducible] def CoupledLoc {T₁ T₂ : Type} (L₁ : T₁ → Type) (L₂ : T₂ → Type) : T₁ ⊕ T₂ → Type
  | .inl t => L₁ t
  | .inr t => L₂ t

variable {T₁ T₂ : Type} {L₁ : T₁ → Type} {L₂ : T₂ → Type} {S₁ S₂ C A₁ A₂ : Type}

/-- One step of a thread of either machine. -/
def coupledStep (M₁ : Machine T₁ L₁ S₁ A₁) (M₂ : Machine T₂ L₂ S₂ A₂)
    (k : Coupling S₁ S₂ C A₁ A₂) :
    (t : T₁ ⊕ T₂) → CoupledLoc L₁ L₂ t → Joint S₁ S₂ C → A₁ ⊕ A₂ →
      Option (CoupledLoc L₁ L₂ t × Joint S₁ S₂ C)
  | .inl t, l, s, .inl a =>
      (k.left a s).bind fun c => (M₁.step t l s.left a).map fun p => (p.1, ⟨p.2, s.right, c⟩)
  | .inr t, l, s, .inr a =>
      (k.right a s).bind fun c => (M₂.step t l s.right a).map fun p => (p.1, ⟨s.left, p.2, c⟩)
  | _, _, _, _ => none

/-- Both machines, connected. -/
def Machine.couple (M₁ : Machine T₁ L₁ S₁ A₁) (M₂ : Machine T₂ L₂ S₂ A₂)
    (k : Coupling S₁ S₂ C A₁ A₂) :
    Machine (T₁ ⊕ T₂) (CoupledLoc L₁ L₂) (Joint S₁ S₂ C) (A₁ ⊕ A₂) := ⟨coupledStep M₁ M₂ k⟩

/-- The state of the first machine. -/
def State.left (s : State (CoupledLoc L₁ L₂) (Joint S₁ S₂ C)) : State L₁ S₁ :=
  ⟨fun t => s.loc (.inl t), s.shared.left⟩

/-- The state of the second machine. -/
def State.right (s : State (CoupledLoc L₁ L₂) (Joint S₁ S₂ C)) : State L₂ S₂ :=
  ⟨fun t => s.loc (.inr t), s.shared.right⟩

/-- The state of the connection. -/
def State.link (s : State (CoupledLoc L₁ L₂) (Joint S₁ S₂ C)) : C := s.shared.link

/-- Two machines and a connection, side by side. -/
def State.join (s₁ : State L₁ S₁) (s₂ : State L₂ S₂) (c : C) :
    State (CoupledLoc L₁ L₂) (Joint S₁ S₂ C) where
  loc
    | .inl t => s₁.loc t
    | .inr t => s₂.loc t
  shared := ⟨s₁.shared, s₂.shared, c⟩

variable [DecidableEq T₁] [DecidableEq T₂] {M₁ : Machine T₁ L₁ S₁ A₁} {M₂ : Machine T₂ L₂ S₂ A₂}
  {k : Coupling S₁ S₂ C A₁ A₂} {s s' s₀ : State (CoupledLoc L₁ L₂) (Joint S₁ S₂ C)}

theorem State.left_update_inl (t : T₁) (l : L₁ t) (n : Joint S₁ S₂ C) :
    (⟨Function.update s.loc (.inl t) l, n⟩ : State (CoupledLoc L₁ L₂) _).left =
      ⟨Function.update s.left.loc t l, n.left⟩ := by
  simp only [State.left, State.mk.injEq, and_true]
  funext t'
  by_cases same : t' = t
  · subst same
    simp
  · rw [Function.update_of_ne same, Function.update_of_ne (by simpa using same)]

theorem State.right_update_inr (t : T₂) (l : L₂ t) (n : Joint S₁ S₂ C) :
    (⟨Function.update s.loc (.inr t) l, n⟩ : State (CoupledLoc L₁ L₂) _).right =
      ⟨Function.update s.right.loc t l, n.right⟩ := by
  simp only [State.right, State.mk.injEq, and_true]
  funext t'
  by_cases same : t' = t
  · subst same
    simp
  · rw [Function.update_of_ne same, Function.update_of_ne (by simpa using same)]

/-- What a step of a coupled machine is: a step of one of the two that the connection
allows, the other one unmoved. -/
inductive CoupledMove (M₁ : Machine T₁ L₁ S₁ A₁) (M₂ : Machine T₂ L₂ S₂ A₂)
    (k : Coupling S₁ S₂ C A₁ A₂) (s s' : State (CoupledLoc L₁ L₂) (Joint S₁ S₂ C)) :
    T₁ ⊕ T₂ → A₁ ⊕ A₂ → Prop
  | left {t : T₁} {a : A₁} (allowed : k.left a s.shared = some s'.link)
      (moves : M₁.next s.left t a = some s'.left) (still : s'.right = s.right) :
      CoupledMove M₁ M₂ k s s' (.inl t) (.inl a)
  | right {t : T₂} {a : A₂} (allowed : k.right a s.shared = some s'.link)
      (moves : M₂.next s.right t a = some s'.right) (still : s'.left = s.left) :
      CoupledMove M₁ M₂ k s s' (.inr t) (.inr a)

theorem Machine.couple_next {t : T₁ ⊕ T₂} {a : A₁ ⊕ A₂}
    (h : (M₁.couple M₂ k).next s t a = some s') : CoupledMove M₁ M₂ k s s' t a := by
  obtain ⟨l, n, step, rfl⟩ := Machine.next_eq_some h
  cases t with
  | inl t =>
      cases a with
      | inr a => cases step
      | inl a =>
          change ((k.left a s.shared).bind fun c => _) = some (l, n) at step
          rw [Option.bind_eq_some_iff] at step
          obtain ⟨c, allowed, step⟩ := step
          rw [Option.map_eq_some_iff] at step
          obtain ⟨⟨l', m⟩, step, same⟩ := step
          cases same
          refine .left allowed ?_ rfl
          unfold Machine.next
          rw [State.left_update_inl, Option.map_eq_some_iff]
          exact ⟨(l', m), step, rfl⟩
  | inr t =>
      cases a with
      | inl a => cases step
      | inr a =>
          change ((k.right a s.shared).bind fun c => _) = some (l, n) at step
          rw [Option.bind_eq_some_iff] at step
          obtain ⟨c, allowed, step⟩ := step
          rw [Option.map_eq_some_iff] at step
          obtain ⟨⟨l', m⟩, step, same⟩ := step
          cases same
          refine .right allowed ?_ rfl
          unfold Machine.next
          rw [State.right_update_inr, Option.map_eq_some_iff]
          exact ⟨(l', m), step, rfl⟩

/-- **The first machine's part of a coupled run is a run of it**, with steps that satisfy what
the steps of the coupled run ensure. -/
theorem Reach.left {ok : State (CoupledLoc L₁ L₂) (Joint S₁ S₂ C) → T₁ ⊕ T₂ → A₁ ⊕ A₂ → Prop}
    {ok₁ : State L₁ S₁ → T₁ → A₁ → Prop}
    (ensures : ∀ s t a c, Reach (M₁.couple M₂ k) ok s₀ s → ok s (.inl t) (.inl a) →
      k.left a s.shared = some c → ok₁ s.left t a)
    (h : Reach (M₁.couple M₂ k) ok s₀ s) : Reach M₁ ok₁ s₀.left s.left := by
  induction h with
  | start => exact .start
  | step before allowed next ih =>
      cases Machine.couple_next next with
      | left link moves _ => exact .step ih (ensures _ _ _ _ before allowed link) moves
      | right _ _ still =>
          rw [still]
          exact ih

@[inherit_doc Reach.left]
theorem Reach.right {ok : State (CoupledLoc L₁ L₂) (Joint S₁ S₂ C) → T₁ ⊕ T₂ → A₁ ⊕ A₂ → Prop}
    {ok₂ : State L₂ S₂ → T₂ → A₂ → Prop}
    (ensures : ∀ s t a c, Reach (M₁.couple M₂ k) ok s₀ s → ok s (.inr t) (.inr a) →
      k.right a s.shared = some c → ok₂ s.right t a)
    (h : Reach (M₁.couple M₂ k) ok s₀ s) : Reach M₂ ok₂ s₀.right s.right := by
  induction h with
  | start => exact .start
  | step before allowed next ih =>
      cases Machine.couple_next next with
      | right link moves _ => exact .step ih (ensures _ _ _ _ before allowed link) moves
      | left _ _ still =>
          rw [still]
          exact ih

end Interleaving
