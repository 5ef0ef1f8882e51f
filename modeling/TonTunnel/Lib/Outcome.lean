/-!
Programs with a state that can fail: how a run ends.

`Ends x s ok thrown` says that `x`, run in `s`, returns a result and a state with `ok`, or
throws in a state with `thrown`. The rules follow the program: one for what is returned at
once, one for a step and the rest, one for what catches everything.
-/

namespace Outcome

variable {ε σ α β : Type}

def Ends (x : EStateM ε σ α) (s : σ) (ok : α → σ → Prop) (thrown : σ → Prop) : Prop :=
  match x s with
  | .ok a s' => ok a s'
  | .error _ s' => thrown s'

/-- The state in which a run ends. -/
def final (x : EStateM ε σ α) (s : σ) : σ :=
  match x s with
  | .ok _ s' => s'
  | .error _ s' => s'

variable {x : EStateM ε σ α} {f : α → EStateM ε σ β} {s s' : σ} {a : α} {b : β}
  {ok ok' : α → σ → Prop} {okb : β → σ → Prop} {thrown thrown' : σ → Prop}

theorem Ends.pure (h : ok a s) : Ends (Pure.pure a : EStateM ε σ α) s ok thrown := h

theorem Ends.bind (h : Ends x s (fun a s' => Ends (f a) s' okb thrown) thrown) :
    Ends (x >>= f) s okb thrown := by
  unfold Ends at h ⊢
  change match EStateM.bind x f s with
    | .ok b s' => okb b s'
    | .error _ s' => thrown s'
  unfold EStateM.bind
  split at h
  · next run =>
      rw [run]
      exact h
  · next run =>
      rw [run]
      exact h

theorem Ends.mono (ok_ : ∀ a s', ok a s' → ok' a s') (thrown_ : ∀ s', thrown s' → thrown' s')
    (h : Ends x s ok thrown) : Ends x s ok' thrown' := by
  unfold Ends at h ⊢
  split at h
  · exact ok_ _ _ h
  · exact thrown_ _ h

theorem Ends.of_ok (h : Ends x s ok thrown) (run : x s = .ok a s') : ok a s' := by
  rw [Ends, run] at h
  exact h

/-- However a run ends, what holds of both ends holds of its state. -/
theorem Ends.final {p : σ → Prop} (h : Ends x s (fun _ s' => p s') p) : p (final x s) := by
  unfold Ends at h
  unfold Outcome.final
  split at h
  · exact h
  · exact h

/-- Where a run goes on as another one, it ends as that one does. -/
theorem final_of_eq {y : EStateM ε σ α} {t : σ} (run : x s = y t) : final x s = final y t := by
  unfold final
  rw [run]

/-- A step whose result is known. -/
theorem bind_of_ok (run : x s = .ok a s') : (x >>= f) s = f a s' := by
  change EStateM.bind x f s = f a s'
  rw [EStateM.bind, run]

end Outcome
