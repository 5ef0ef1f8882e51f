import Mathlib.Logic.Function.Basic
import Mathlib.Data.List.Infix

/-!
A store of named FIFO queues, and what its history says about it.

A queue is created empty, filled at the back, emptied at the front and may be
removed and created again. `Run` follows a list of such operations. The content of
a queue is then what was put since its creation, less what was taken
(`Run.taken_append_content`), in any mix with operations on other queues; and what
stood behind a frame when that frame was taken comes out next, in order
(`Run.behind`).
-/

namespace Fifo

variable {Queue Frame Event : Type}

/-! ### Histories -/

/-- What `pick` finds in a history since the last event that satisfies `reset`. -/
def since {Found : Type} (reset : Event → Bool) (pick : Event → Option Found) (h : List Event) :
    List Found :=
  h.foldl (fun found e => if reset e then [] else found ++ (pick e).toList) []

section Since

variable {Found : Type} {reset : Event → Bool} {pick : Event → Option Found}

@[simp] theorem since_nil : since reset pick [] = [] := rfl

theorem since_concat (h : List Event) (e : Event) :
    since reset pick (h ++ [e]) =
      if reset e then [] else since reset pick h ++ (pick e).toList := by
  simp [since, List.foldl_append]

/-- Without a reset, what is found later is appended. -/
theorem since_append {h later : List Event} (calm : ∀ e ∈ later, reset e = false) :
    since reset pick (h ++ later) = since reset pick h ++ later.filterMap pick := by
  induction later using List.reverseRecOn with
  | nil => simp
  | append_singleton later e ih =>
      have before : ∀ e ∈ later, reset e = false := fun e mem => calm e (by simp [mem])
      have last : reset e = false := calm e (by simp)
      rw [← List.append_assoc, since_concat, last, ih before, List.filterMap_append]
      cases found : pick e with
      | none => simp [found]
      | some x => simp [found]

/-- Reading a history through a partial function. -/
theorem since_filterMap {Source : Type} (read : Source → Option Event) (h : List Source) :
    since reset pick (h.filterMap read) =
      since (fun e => ((read e).map reset).getD false) (fun e => (read e).bind pick) h := by
  induction h using List.reverseRecOn with
  | nil => rfl
  | append_singleton h e ih =>
      rw [List.filterMap_append, since_concat, ← ih]
      cases found : read e with
      | none => simp [found]
      | some x =>
          rw [show [e].filterMap read = [x] by simp [found], since_concat]
          rfl

end Since

/-! ### The store -/

/-- Operations on a store of queues. -/
inductive Op (Queue Frame : Type) where
  | create (q : Queue)
  | remove (q : Queue)
  | put (q : Queue) (f : Frame)
  | take (q : Queue) (f : Frame)
  deriving DecidableEq, Repr

/-- The queue an operation is on. -/
def Op.queue : Op Queue Frame → Queue
  | .create q | .remove q | .put q _ | .take q _ => q

/-- The queues that exist, with their content. -/
abbrev Store (Queue Frame : Type) := Queue → Option (List Frame)

def empty : Store Queue Frame := fun _ => none

variable [DecidableEq Queue]

/-- The frame an operation puts into `q`, takes out of `q`. -/
def Op.puts (q : Queue) : Op Queue Frame → Option Frame
  | .put p f => if p = q then some f else none
  | _ => none

@[inherit_doc Op.puts]
def Op.takes (q : Queue) : Op Queue Frame → Option Frame
  | .take p f => if p = q then some f else none
  | _ => none

def Op.creates (q : Queue) : Op Queue Frame → Bool
  | .create p => p = q
  | _ => false

/-- What was put into `q` since it was created, and what was taken out of it. -/
def puts (q : Queue) (ops : List (Op Queue Frame)) : List Frame :=
  since (Op.creates q) (Op.puts q) ops

@[inherit_doc puts]
def takes (q : Queue) (ops : List (Op Queue Frame)) : List Frame :=
  since (Op.creates q) (Op.takes q) ops

/-- What an operation makes of a store. -/
inductive Step : Store Queue Frame → Op Queue Frame → Store Queue Frame → Prop
  | create {s : Store Queue Frame} {q : Queue} :
      s q = none → Step s (.create q) (Function.update s q (some []))
  | remove {s : Store Queue Frame} {q : Queue} : Step s (.remove q) (Function.update s q none)
  | put {s : Store Queue Frame} {q : Queue} {f : Frame} {l : List Frame} :
      s q = some l → Step s (.put q f) (Function.update s q (some (l ++ [f])))
  | take {s : Store Queue Frame} {q : Queue} {f : Frame} {l : List Frame} :
      s q = some (f :: l) → Step s (.take q f) (Function.update s q (some l))

/-- The operations lead from one store to another. -/
inductive Run : Store Queue Frame → List (Op Queue Frame) → Store Queue Frame → Prop
  | stop {s : Store Queue Frame} : Run s [] s
  | step {s mid s' : Store Queue Frame} {o : Op Queue Frame} {ops : List (Op Queue Frame)} :
      Step s o mid → Run mid ops s' → Run s (o :: ops) s'

variable {s s' mid : Store Queue Frame} {ops more : List (Op Queue Frame)} {o : Op Queue Frame}
  {q : Queue} {f : Frame} {l : List Frame}

theorem Run.single (h : Step s o s') : Run s [o] s' := .step h .stop

theorem Run.trans (h : Run s ops mid) (h' : Run mid more s') : Run s (ops ++ more) s' := by
  induction h with
  | stop => exact h'
  | step hs _ ih => exact .step hs (ih h')

/-- A run through a list of operations passes through every cut of the list. -/
theorem Run.split (h : Run s (ops ++ more) s') : ∃ mid, Run s ops mid ∧ Run mid more s' := by
  induction ops generalizing s with
  | nil => exact ⟨s, .stop, h⟩
  | cons o ops ih =>
      cases h with
      | step hs rest =>
          obtain ⟨mid, first, second⟩ := ih rest
          exact ⟨mid, .step hs first, second⟩

/-- Operations on other queues do not change a queue. -/
theorem Step.frame (h : Step s o s') (other : o.queue ≠ q) : s' q = s q := by
  cases h with
  | _ => exact Function.update_of_ne (Ne.symm other) _ _

theorem Run.frame (h : Run s ops s') (other : ∀ o ∈ ops, o.queue ≠ q) : s' q = s q := by
  induction h with
  | stop => rfl
  | step hs _ ih =>
      rw [ih fun o mem => other o (List.mem_cons_of_mem _ mem), hs.frame (other _ (by simp))]

theorem Op.creates_of_ne (other : o.queue ≠ q) : o.creates q = false := by
  cases o with
  | create p => exact decide_eq_false other
  | _ => rfl

theorem Op.puts_of_ne (other : o.queue ≠ q) : o.puts q = none := by
  cases o with
  | put p f => exact if_neg other
  | _ => rfl

theorem Op.takes_of_ne (other : o.queue ≠ q) : o.takes q = none := by
  cases o with
  | take p f => exact if_neg other
  | _ => rfl

/-- One operation keeps the balance of a queue. -/
theorem Step.balance (h : Step mid o s) (hq : s q = some l)
    (before : ∀ l, mid q = some l → takes q ops ++ l = puts q ops) :
    takes q (ops ++ [o]) ++ l = puts q (ops ++ [o]) := by
  rw [takes, puts, since_concat, since_concat]
  by_cases same : o.queue = q
  · cases h with
    | create fresh =>
        subst same
        have : l = [] := by simpa [Op.queue] using hq.symm
        simp [Op.creates, Op.queue, this]
    | remove =>
        subst same
        simp [Op.queue] at hq
    | @put p f content found =>
        obtain rfl : p = q := same
        obtain rfl : content ++ [f] = l := by simpa using hq
        have balance : takes p ops ++ content = puts p ops := before content found
        rw [puts, takes] at balance
        simp [Op.creates, Op.takes, Op.puts, ← balance]
    | @take p f content found =>
        obtain rfl : p = q := same
        obtain rfl : content = l := by simpa using hq
        have balance : takes p ops ++ f :: content = puts p ops := before _ found
        rw [puts, takes] at balance
        simp [Op.creates, Op.takes, Op.puts, ← balance]
  · rw [h.frame same] at hq
    have balance : takes q ops ++ l = puts q ops := before l hq
    rw [puts, takes] at balance
    simp [Op.creates_of_ne same, Op.takes_of_ne same, Op.puts_of_ne same, balance]

/-- **A queue holds what was put since its creation, less what was taken.** -/
theorem Run.taken_append_content (h : Run empty ops s) (hq : s q = some l) :
    takes q ops ++ l = puts q ops := by
  induction ops using List.reverseRecOn generalizing s l with
  | nil =>
      cases h
      cases hq
  | append_singleton ops o ih =>
      obtain ⟨mid, run, last⟩ := h.split
      cases last with
      | step hs last =>
          cases last
          exact hs.balance hq fun l hl => ih run hl

/-- In a stretch that does not remove a queue, what it held and then what was put is what
was taken and then what it holds. -/
theorem Run.conserves (h : Run s ops s') (hq : s q = some l) (kept : .remove q ∉ ops) :
    ∃ l', s' q = some l' ∧
      ops.filterMap (Op.takes q) ++ l' = l ++ ops.filterMap (Op.puts q) := by
  induction h generalizing l with
  | stop => exact ⟨l, hq, by simp⟩
  | @step s mid s' o ops hs run ih =>
      have later : .remove q ∉ ops := fun mem => kept (List.mem_cons_of_mem _ mem)
      rw [List.filterMap_cons, List.filterMap_cons]
      by_cases same : o.queue = q
      · cases hs with
        | @create p absent =>
            obtain rfl : p = q := same
            rw [absent] at hq
            cases hq
        | @remove p =>
            obtain rfl : p = q := same
            exact absurd List.mem_cons_self kept
        | @put p f before found =>
            obtain rfl : p = q := same
            obtain rfl : l = before := by simpa [hq] using found
            obtain ⟨l', hl', balance⟩ := ih (l := l ++ [f]) (by simp) later
            exact ⟨l', hl', by simpa [Op.takes, Op.puts] using balance⟩
        | @take p f after found =>
            obtain rfl : p = q := same
            obtain rfl : l = f :: after := by simpa [hq] using found
            obtain ⟨l', hl', balance⟩ := ih (l := after) (by simp) later
            exact ⟨l', hl', by simpa [Op.takes, Op.puts] using balance⟩
      · obtain ⟨l', hl', balance⟩ := ih ((hs.frame same).trans hq) later
        refine ⟨l', hl', ?_⟩
        simpa [Op.takes_of_ne same, Op.puts_of_ne same] using balance

/-- **What stands behind a frame when it is taken comes out next, in order.** -/
theorem Run.behind (h : Run empty (ops ++ .take q f :: more) s)
    (kept : .remove q ∉ more) :
    ∃ behind l, puts q ops = takes q ops ++ f :: behind ∧ s q = some l ∧
      more.filterMap (Op.takes q) ++ l = behind ++ more.filterMap (Op.puts q) := by
  obtain ⟨mid, first, second⟩ := h.split
  cases second with
  | step hs rest =>
      cases hs with
      | @take _ _ behind found =>
          obtain ⟨l, hl, balance⟩ := rest.conserves (l := behind) (by simp) kept
          exact ⟨behind, l, (first.taken_append_content found).symm, hl, balance⟩

end Fifo
