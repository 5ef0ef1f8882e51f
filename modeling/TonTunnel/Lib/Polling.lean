import Mathlib.Data.Int.Order.Basic

/-!
A thread that polls a queue, on a clock that moves only while the thread waits.

A `Poller` gives the thread's own step and says until when it waits, if it does and
its queue is empty. `run` drives it with messages that arrive at given times: the
thread steps at a standing clock until it waits, the clock then goes to the next
arrival or to the end of the wait, whichever is first, and the messages that are due
arrive.

`Leads` and `Ends` speak of runs without counting their steps: a stretch of own
steps from one state to another, whatever is still to arrive, and a run that returns.
-/

namespace Polling

/-- A thread over states `σ` that polls for messages `F` and returns a code. -/
structure Poller (σ F : Type) where
  now : σ → Int
  setNow : σ → Int → σ
  /-- a message is put in the queue -/
  arrive : σ → F → σ
  /-- until when the thread waits, if it has nothing to do before -/
  waitsUntil : σ → Option Int
  /-- the thread goes on, or returns; `none` when it cannot -/
  step : σ → Option (σ ⊕ Int)

variable {σ F : Type} (P : Poller σ F)

namespace Poller

/-- The messages that are due arrive; the others are still to come. -/
def deliver : σ → List (Int × F) → σ × List (Int × F)
  | s, [] => (s, [])
  | s, (t, f) :: rest => if t ≤ P.now s then deliver (P.arrive s f) rest else (s, (t, f) :: rest)

/-- Where the clock goes when the thread waits until `until_`. -/
def wakes (until_ : Int) : List (Int × F) → Int
  | [] => until_
  | (t, _) :: _ => min t until_

/-- The code that the thread returns, if it does within `fuel` moves. -/
def run : Nat → σ → List (Int × F) → Option Int
  | 0, _, _ => none
  | fuel + 1, s, arrivals =>
      match P.waitsUntil s with
      | some until_ =>
          let (s, later) := P.deliver (P.setNow s (wakes until_ arrivals)) arrivals
          run fuel s later
      | none =>
          match P.step s with
          | some (.inl s) => run fuel s arrivals
          | some (.inr code) => some code
          | none => none

/-- The thread comes from `s` to `s'` at a standing clock. -/
def Leads (s s' : σ) : Prop :=
  ∃ k, ∀ fuel arrivals, P.run (fuel + k) s arrivals = P.run fuel s' arrivals

/-- The thread returns `code`, with every sufficient fuel. -/
def Ends (s : σ) (arrivals : List (Int × F)) (code : Int) : Prop :=
  ∃ k, ∀ fuel, P.run (fuel + k) s arrivals = some code

variable {P} {s s' s'' : σ} {arrivals : List (Int × F)} {code : Int}

theorem Leads.refl (s : σ) : P.Leads s s := ⟨0, fun _ _ => rfl⟩

theorem Leads.trans (h : P.Leads s s') (h' : P.Leads s' s'') : P.Leads s s'' := by
  obtain ⟨k, hk⟩ := h
  obtain ⟨k', hk'⟩ := h'
  refine ⟨k' + k, fun fuel arrivals => ?_⟩
  rw [← Nat.add_assoc, hk, hk']

/-- One step of the thread. -/
theorem Leads.step (idle : P.waitsUntil s = none) (h : P.step s = some (.inl s')) : P.Leads s s' :=
  ⟨1, fun fuel arrivals => by rw [run, idle, h]⟩

theorem Ends.ret (idle : P.waitsUntil s = none) (h : P.step s = some (.inr code)) :
    P.Ends s arrivals code :=
  ⟨1, fun fuel => by rw [run, idle, h]⟩

theorem Leads.ends (h : P.Leads s s') (h' : P.Ends s' arrivals code) : P.Ends s arrivals code := by
  obtain ⟨k, hk⟩ := h
  obtain ⟨k', hk'⟩ := h'
  refine ⟨k' + k, fun fuel => ?_⟩
  rw [← Nat.add_assoc, hk, hk']

/-- The thread waits: the clock moves. -/
theorem Ends.wait {until_ : Int} (waits : P.waitsUntil s = some until_)
    (h : P.Ends (P.deliver (P.setNow s (wakes until_ arrivals)) arrivals).1
      (P.deliver (P.setNow s (wakes until_ arrivals)) arrivals).2 code) :
    P.Ends s arrivals code := by
  obtain ⟨k, hk⟩ := h
  refine ⟨k + 1, fun fuel => ?_⟩
  rw [← Nat.add_assoc, run, waits]
  exact hk fuel

end Poller

end Polling
