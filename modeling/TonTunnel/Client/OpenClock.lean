import TonTunnel.Lib.Polling
import TonTunnel.Client.Core
import TonTunnel.Client.Transport

/-!
The open phase on an idealised clock.

`openStream` exists twice, in `TonClientCore` and in `NativeTonTransport`, as a loop
around `awaitStreamFrame` with two deadlines: 20000 ms for the whole call, and 250 ms
from the first CLOSE. Here both are driven by the same timed frames, on a clock that
moves only while `awaitStreamFrame` waits.

* `expectedCode` is what the call should return, read off the first OPEN or ERROR and
  the first CLOSE before it.
* `codeFrom` is the same as an automaton that takes the frames one by one.
* `OpenLoop` says what makes a polling thread an implementation of the automaton;
  `OpenLoop.ends` is the induction over the frames, done once for both clients.
-/

namespace TonTunnel.OpenClock

open Polling (Poller)

/-! ### What is expected -/

/-- The kinds of frames. -/
inductive Kind where
  | unknown | opn | data | close | error
  deriving DecidableEq, Repr

/-- OPEN and ERROR end the open phase. -/
def Kind.answers : Kind → Bool
  | .opn | .error => true
  | _ => false

/-- The first OPEN or ERROR. -/
def answer (frames : List (Int × Kind)) : Option (Int × Kind) := frames.find? (·.2.answers)

/-- When the first CLOSE before it arrives. -/
def firstClose (frames : List (Int × Kind)) : Option Int :=
  ((frames.takeWhile (!·.2.answers)).find? (·.2 = .close)).map (·.1)

/-- When the call gives up, with the first CLOSE at `close`. -/
def limit (startedAt : Int) : Option Int → Int
  | none => startedAt + 20000
  | some close => min (startedAt + 20000) (close + 250)

/-- What the call returns when it gives up. -/
def gaveUp (startedAt : Int) : Option Int → Int
  | none => -2
  | some close => if close + 250 < startedAt + 20000 then -4 else -2

/-- The code for an answer and a first CLOSE. -/
def verdict (startedAt : Int) (close : Option Int) : Option (Int × Kind) → Int
  | none => gaveUp startedAt close
  | some (t, kind) =>
      if t < limit startedAt close then if kind = .opn then 0 else -3 else gaveUp startedAt close

/-- What `openStream` should return for these frames. -/
def expectedCode (startedAt : Int) (frames : List (Int × Kind)) : Int :=
  verdict startedAt (firstClose frames) (answer frames)

/-- The same, one frame after the other; `seen` is when the first CLOSE was taken. -/
def codeFrom (startedAt : Int) : Option Int → List (Int × Kind) → Int
  | seen, [] => gaveUp startedAt seen
  | seen, (t, kind) :: rest =>
      if t < limit startedAt seen then
        match kind with
        | .opn => 0
        | .error => -3
        | .close => codeFrom startedAt (some (seen.getD t)) rest
        | .data | .unknown => codeFrom startedAt seen rest
      else gaveUp startedAt seen

section Codes

variable {startedAt t : Int} {seen : Option Int} {frames rest : List (Int × Kind)} {kind : Kind}

theorem limit_le (startedAt : Int) (seen : Option Int) : limit startedAt seen ≤ startedAt + 20000 := by
  cases seen with
  | none => exact Int.le_refl _
  | some c => exact min_le_left _ _

theorem answer_answers (h : kind.answers = true) : answer ((t, kind) :: rest) = some (t, kind) :=
  List.find?_cons_of_pos h

theorem answer_skip (h : kind.answers = false) : answer ((t, kind) :: rest) = answer rest :=
  List.find?_cons_of_neg (by simp [h])

theorem firstClose_answers (h : kind.answers = true) : firstClose ((t, kind) :: rest) = none := by
  simp [firstClose, h]

theorem firstClose_close : firstClose ((t, .close) :: rest) = some t := by
  simp [firstClose, Kind.answers]

theorem firstClose_skip (h : kind.answers = false) (other : kind ≠ .close) :
    firstClose ((t, kind) :: rest) = firstClose rest := by
  simp [firstClose, h, other]

theorem answer_mem {a : Int × Kind} (h : answer frames = some a) : a ∈ frames :=
  List.mem_of_find?_eq_some h

theorem firstClose_mem {c : Int} (h : firstClose frames = some c) : (c, .close) ∈ frames := by
  obtain ⟨⟨t, kind⟩, found, rfl⟩ := Option.map_eq_some_iff.mp h
  have is := List.find?_some found
  rw [decide_eq_true_eq] at is
  cases is
  exact (List.takeWhile_prefix _).subset (List.mem_of_find?_eq_some found)

theorem codeFrom_soon (soon : t < limit startedAt seen) :
    codeFrom startedAt seen ((t, kind) :: rest) =
      match kind with
      | .opn => 0
      | .error => -3
      | .close => codeFrom startedAt (some (seen.getD t)) rest
      | .data | .unknown => codeFrom startedAt seen rest := by
  simp only [codeFrom, if_pos soon]

theorem codeFrom_late (late : limit startedAt seen ≤ t) :
    codeFrom startedAt seen ((t, kind) :: rest) = gaveUp startedAt seen := by
  simp only [codeFrom, if_neg (not_lt.mpr late)]

theorem codeFrom_over (late : ∀ a ∈ frames, limit startedAt seen ≤ a.1) :
    codeFrom startedAt seen frames = gaveUp startedAt seen := by
  cases frames with
  | nil => rfl
  | cons a rest => exact codeFrom_late (late a List.mem_cons_self)

/-- When every frame comes too late, the call gives up. -/
theorem verdict_late (late : ∀ a ∈ frames, limit startedAt seen ≤ a.1) :
    verdict startedAt (seen <|> firstClose frames) (answer frames) = gaveUp startedAt seen := by
  cases seen with
  | some c =>
      unfold verdict
      cases first : answer frames with
      | none => rfl
      | some a =>
          have := late a (answer_mem first)
          exact if_neg (by simpa using this)
  | none =>
      have close : gaveUp startedAt (firstClose frames) = -2 := by
        cases first : firstClose frames with
        | none => rfl
        | some c =>
            have := late _ (firstClose_mem first)
            simp only [limit] at this
            exact if_neg (by omega)
      unfold verdict
      cases first : answer frames with
      | none => exact close
      | some a =>
          have after := late a (answer_mem first)
          have before := limit_le startedAt (firstClose frames)
          simp only [limit] at after
          refine (if_neg ?_).trans close
          change ¬ a.1 < limit startedAt (firstClose frames)
          omega

/-- **The automaton returns what is expected.** -/
theorem codeFrom_eq (sorted : frames.Pairwise (·.1 ≤ ·.1)) :
    codeFrom startedAt seen frames =
      verdict startedAt (seen <|> firstClose frames) (answer frames) := by
  induction frames generalizing seen with
  | nil => cases seen <;> rfl
  | cons a rest ih =>
      obtain ⟨t, kind⟩ := a
      obtain ⟨first, ordered⟩ := List.pairwise_cons.mp sorted
      by_cases soon : t < limit startedAt seen
      · rw [codeFrom_soon soon]
        cases kind with
        | opn | error =>
            rw [answer_answers rfl, firstClose_answers rfl]
            cases seen <;> simp [verdict, soon]
        | close =>
            rw [ih ordered, answer_skip rfl, firstClose_close]
            cases seen <;> rfl
        | data | unknown =>
            rw [answer_skip rfl, firstClose_skip rfl (by decide)]
            exact ih ordered
      · rw [verdict_late]
        · exact codeFrom_late (not_lt.mp soon)
        intro a mem
        rcases List.mem_cons.mp mem with rfl | mem
        · exact not_lt.mp soon
        · exact (not_lt.mp soon).trans (first a mem)

/-- The frames without DATA, without unknown frames and without repeated CLOSE frames. -/
def essential : Bool → List (Int × Kind) → List (Int × Kind)
  | _, [] => []
  | seen, (t, kind) :: rest =>
      match kind with
      | .data | .unknown => essential seen rest
      | .close => if seen then essential seen rest else (t, .close) :: essential true rest
      | .opn | .error => (t, kind) :: essential seen rest

theorem answer_essential (seen : Bool) (frames : List (Int × Kind)) :
    answer (essential seen frames) = answer frames := by
  induction frames generalizing seen with
  | nil => rfl
  | cons a rest ih =>
      obtain ⟨t, kind⟩ := a
      cases kind with
      | data | unknown => exact (ih seen).trans (answer_skip rfl).symm
      | opn | error => rfl
      | close =>
          rw [answer_skip rfl]
          cases seen with
          | true => exact ih true
          | false => exact (answer_skip rfl).trans (ih true)

theorem firstClose_essential (frames : List (Int × Kind)) :
    firstClose (essential false frames) = firstClose frames := by
  induction frames with
  | nil => rfl
  | cons a rest ih =>
      obtain ⟨t, kind⟩ := a
      cases kind with
      | data | unknown => exact ih.trans (firstClose_skip rfl (by decide)).symm
      | opn | error => exact (firstClose_answers rfl).trans (firstClose_answers rfl).symm
      | close => exact firstClose_close.trans firstClose_close.symm

/-- The other frames make no difference. -/
theorem expectedCode_essential (startedAt : Int) (frames : List (Int × Kind)) :
    expectedCode startedAt (essential false frames) = expectedCode startedAt frames := by
  rw [expectedCode, answer_essential, firstClose_essential, expectedCode]

/-- Frames at the times of another clock. -/
def delayed {F : Type} (by_ : Int) (frames : List (Int × F)) : List (Int × F) :=
  frames.map fun a => (by_ + a.1, a.2)

theorem answer_delayed (by_ : Int) (frames : List (Int × Kind)) :
    answer (delayed by_ frames) = (answer frames).map fun a => (by_ + a.1, a.2) := by
  rw [answer, delayed, List.find?_map]
  rfl

theorem firstClose_delayed (by_ : Int) (frames : List (Int × Kind)) :
    firstClose (delayed by_ frames) = (firstClose frames).map (by_ + ·) := by
  rw [firstClose, delayed, List.takeWhile_map, List.find?_map, Option.map_map, firstClose, Option.map_map]
  rfl

/-- The code does not depend on where the clock stands. -/
theorem expectedCode_delayed (startedAt : Int) (frames : List (Int × Kind)) :
    expectedCode startedAt (delayed startedAt frames) = expectedCode 0 frames := by
  have gives (close : Option Int) :
      gaveUp startedAt (close.map (startedAt + ·)) = gaveUp 0 close := by
    cases close with
    | none => rfl
    | some c =>
        have shifted : startedAt + c + 250 < startedAt + 20000 ↔ c + 250 < 0 + 20000 := by omega
        simp only [Option.map_some, gaveUp, shifted]
  have ends (t : Int) (close : Option Int) :
      startedAt + t < limit startedAt (close.map (startedAt + ·)) ↔ t < limit 0 close := by
    cases close with
    | none =>
        simp only [Option.map_none, limit]
        omega
    | some c =>
        simp only [Option.map_some, limit, lt_min_iff]
        omega
  rw [expectedCode, answer_delayed, firstClose_delayed, expectedCode]
  cases answer frames with
  | none => exact gives _
  | some a => simp only [Option.map_some, verdict, ends, gives]

end Codes

/-! ### Loops that implement it -/

section Loops

variable {σ F : Type}

/-- Frames in the queue, which are taken now, and frames that are still to arrive. -/
def timed (kind : F → Kind) (now : Int) (queue : List F) (later : List (Int × F)) :
    List (Int × Kind) :=
  queue.map (fun f => (now, kind f)) ++ later.map fun a => (a.1, kind a.2)

/-- What a polling thread has to do to be an open phase that started at `startedAt`: `Head` is the head of
its loop and `Wait` its wait, each with the time of the first CLOSE and the queue. -/
structure OpenLoop (P : Poller σ F) (startedAt : Int) (kind : F → Kind) (Fits : F → Prop) where
  Head : σ → Option Int → List F → Prop
  Wait : σ → Option Int → List F → Prop
  timesOut {s : σ} {seen : Option Int} {q : List F} {arrivals : List (Int × F)} : Head s seen q →
    startedAt + 20000 ≤ P.now s → P.Ends s arrivals (-2)
  graceOver {s : σ} {c : Int} {q : List F} {arrivals : List (Int × F)} : Head s (some c) q →
    P.now s < startedAt + 20000 → c + 250 ≤ P.now s → P.Ends s arrivals (-4)
  waits {s : σ} {seen : Option Int} {q : List F} : Head s seen q → P.now s < limit startedAt seen →
    ∃ s', P.Leads s s' ∧ Wait s' seen q ∧ P.now s' = P.now s
  blocks {s : σ} {seen : Option Int} : Wait s seen [] → P.now s < limit startedAt seen →
    P.waitsUntil s = some (limit startedAt seen)
  wakes {s : σ} {seen : Option Int} : Wait s seen [] → limit startedAt seen ≤ P.now s →
    ∃ s', P.Leads s s' ∧ Head s' seen [] ∧ P.now s' = P.now s
  opened {s : σ} {seen : Option Int} {f : F} {q : List F} {arrivals : List (Int × F)} :
    Wait s seen (f :: q) → kind f = .opn → P.Ends s arrivals 0
  refused {s : σ} {seen : Option Int} {f : F} {q : List F} {arrivals : List (Int × F)} :
    Wait s seen (f :: q) → kind f = .error → P.Ends s arrivals (-3)
  closed {s : σ} {seen : Option Int} {f : F} {q : List F} : Wait s seen (f :: q) →
    P.now s < limit startedAt seen → kind f = .close →
    ∃ s', P.Leads s s' ∧ Head s' (some (seen.getD (P.now s))) q ∧ P.now s' = P.now s
  skipped {s : σ} {seen : Option Int} {f : F} {q : List F} : Wait s seen (f :: q) →
    kind f = .data ∨ kind f = .unknown → ∃ s', P.Leads s s' ∧ Head s' seen q ∧ P.now s' = P.now s
  arrives {s : σ} {seen : Option Int} {q : List F} {f : F} : Wait s seen q → Fits f →
    Wait (P.arrive s f) seen (q ++ [f]) ∧ P.now (P.arrive s f) = P.now s
  moves {s : σ} {seen : Option Int} (t : Int) : Wait s seen [] →
    Wait (P.setNow s t) seen [] ∧ P.now (P.setNow s t) = t

/-- The frames that are still to arrive are in order, not overdue, and none arrives at the very end of a
wait. -/
structure Ahead (startedAt : Int) (kind : F → Kind) (Fits : F → Prop) (now : Int) (seen : Option Int)
    (queue : List F) (later : List (Int × F)) : Prop where
  fits : ∀ a ∈ later, Fits a.2
  sorted : later.Pairwise (·.1 ≤ ·.1)
  after : ∀ a ∈ later, now ≤ a.1
  clear : ∀ a ∈ later, a.1 ≠ startedAt + 20000 ∧
    ∀ c ∈ seen <|> firstClose (timed kind now queue later), a.1 ≠ c + 250

variable {P : Poller σ F} {startedAt now : Int} {kind : F → Kind} {Fits : F → Prop} {s : σ}
  {seen : Option Int} {q : List F} {later : List (Int × F)}

/-- No frame arrives when the call gives up. -/
theorem Ahead.ne_limit (ahead : Ahead startedAt kind Fits now seen q later) {a : Int × F}
    (mem : a ∈ later) : a.1 ≠ limit startedAt seen := by
  obtain ⟨deadline, grace⟩ := ahead.clear a mem
  cases seen with
  | none => exact deadline
  | some c =>
      rw [limit]
      rcases min_choice (startedAt + 20000) (c + 250) with is | is
      · rwa [is]
      · rw [is]
        exact grace c rfl

namespace OpenLoop

variable (L : OpenLoop P startedAt kind Fits)

/-- The call gives up when its time is over. -/
theorem expired {arrivals : List (Int × F)} (head : L.Head s seen q)
    (due : P.now s = limit startedAt seen) : P.Ends s arrivals (gaveUp startedAt seen) := by
  cases seen with
  | none => exact L.timesOut head (Int.le_of_eq due.symm)
  | some c =>
      by_cases grace : c + 250 < startedAt + 20000
      · have is : P.now s = c + 250 := due.trans (min_eq_right (Int.le_of_lt grace))
        rw [gaveUp, if_pos grace]
        exact L.graceOver head (by omega) (by omega)
      · have is : P.now s = startedAt + 20000 := due.trans (min_eq_left (not_lt.mp grace))
        rw [gaveUp, if_neg grace]
        exact L.timesOut head (by omega)

/-- A wait without a frame ends with the call giving up. -/
theorem wakesUp {arrivals : List (Int × F)} {until_ : Int} (wait : L.Wait s seen [])
    (is : until_ = limit startedAt seen) :
    P.Ends (P.setNow s until_) arrivals (gaveUp startedAt seen) := by
  obtain ⟨moved, at_⟩ := L.moves until_ wait
  obtain ⟨s', leads, head, now⟩ := L.wakes moved (by omega)
  exact leads.ends (L.expired head (by omega))

/-- What is due arrives. -/
theorem delivers (wait : L.Wait s seen q) (ahead : Ahead startedAt kind Fits (P.now s) seen q later) :
    ∃ s' q' later', P.deliver s later = (s', later') ∧ L.Wait s' seen (q ++ q') ∧
      P.now s' = P.now s ∧ timed kind (P.now s) (q ++ q') later' = timed kind (P.now s) q later ∧
      Ahead startedAt kind Fits (P.now s) seen (q ++ q') later' ∧
      q'.length + later'.length = later.length := by
  induction later generalizing s q with
  | nil => exact ⟨s, [], [], rfl, by simpa using wait, rfl, by simp, by simpa using ahead, rfl⟩
  | cons a rest ih =>
      obtain ⟨t, f⟩ := a
      by_cases due : t ≤ P.now s
      · have at_ : t = P.now s := Int.le_antisymm due (ahead.after _ List.mem_cons_self)
        obtain ⟨arrived, same⟩ := L.arrives wait (ahead.fits _ List.mem_cons_self)
        have moved : timed kind (P.now s) (q ++ [f]) rest = timed kind (P.now s) q ((t, f) :: rest) := by
          simp [timed, at_]
        have ahead' : Ahead startedAt kind Fits (P.now (P.arrive s f)) seen (q ++ [f]) rest := by
          rw [same]
          refine ⟨?_, (List.pairwise_cons.mp ahead.sorted).2, ?_, ?_⟩
          · exact fun a mem => ahead.fits a (List.mem_cons_of_mem _ mem)
          · exact fun a mem => ahead.after a (List.mem_cons_of_mem _ mem)
          · rw [moved]
            exact fun a mem => ahead.clear a (List.mem_cons_of_mem _ mem)
        obtain ⟨s', q', later', delivered, wait', now', timed', ahead'', count⟩ := ih arrived ahead'
        rw [same] at now' timed' ahead''
        refine ⟨s', f :: q', later', ?_, ?_, now', ?_, ?_, ?_⟩
        · rw [Poller.deliver, if_pos due, delivered]
        · simpa using wait'
        · rw [← moved, ← timed']
          simp
        · simpa using ahead''
        · simp only [List.length_cons]
          omega
      · refine ⟨s, [], (t, f) :: rest, ?_, by simpa using wait, rfl, by simp, by simpa using ahead, by simp⟩
        rw [Poller.deliver, if_neg due]

/-- A frame that is in the queue is taken, and the loop goes on with one frame less. -/
theorem takes {f : F} (wait : L.Wait s seen (f :: q)) (soon : P.now s < limit startedAt seen)
    (ahead : Ahead startedAt kind Fits (P.now s) seen (f :: q) later)
    (goesOn : ∀ s' seen', L.Head s' seen' q → P.now s' ≤ limit startedAt seen' →
      Ahead startedAt kind Fits (P.now s') seen' q later →
      P.Ends s' later (codeFrom startedAt seen' (timed kind (P.now s') q later))) :
    P.Ends s later (codeFrom startedAt seen (timed kind (P.now s) (f :: q) later)) := by
  have split_ : timed kind (P.now s) (f :: q) later =
      (P.now s, kind f) :: timed kind (P.now s) q later := rfl
  have clear := ahead.clear
  rw [split_] at clear
  rw [split_, codeFrom_soon soon]
  have skips (is : kind f = .data ∨ kind f = .unknown) :
      P.Ends s later (codeFrom startedAt seen (timed kind (P.now s) q later)) := by
    obtain ⟨s', leads, head, now⟩ := L.skipped wait is
    refine leads.ends ?_
    rw [← now] at soon clear ⊢
    refine goesOn s' seen head (Int.le_of_lt soon) ⟨ahead.fits, ahead.sorted, now ▸ ahead.after, ?_⟩
    rcases is with is | is
    · rwa [is, firstClose_skip rfl (by decide)] at clear
    · rwa [is, firstClose_skip rfl (by decide)] at clear
  cases is : kind f with
  | opn => exact L.opened wait is
  | error => exact L.refused wait is
  | data => exact skips (.inl is)
  | unknown => exact skips (.inr is)
  | close =>
      obtain ⟨s', leads, head, now⟩ := L.closed wait soon is
      refine leads.ends ?_
      rw [is, firstClose_close] at clear
      dsimp only
      rw [← now] at soon clear head ⊢
      refine goesOn s' _ head ?_ ⟨ahead.fits, ahead.sorted, now ▸ ahead.after, ?_⟩
      · cases seen with
        | none =>
            simp only [limit] at soon
            exact le_min (Int.le_of_lt soon) (by simp)
        | some c => exact Int.le_of_lt soon
      · cases seen with
        | none => exact clear
        | some c => exact clear

/-- **An implementation returns what the automaton returns.** The induction is on the number of frames in
the queue or still to arrive. -/
theorem ends (head : L.Head s seen q) (time : P.now s ≤ limit startedAt seen)
    (ahead : Ahead startedAt kind Fits (P.now s) seen q later) :
    P.Ends s later (codeFrom startedAt seen (timed kind (P.now s) q later)) := by
  induction frames : q.length + later.length using Nat.strong_induction_on generalizing s seen q later with
  | _ count ih =>
  subst frames
  by_cases soon : P.now s < limit startedAt seen
  · obtain ⟨s', leads, wait, now⟩ := L.waits head soon
    refine leads.ends ?_
    rw [← now] at soon ahead ⊢
    cases q with
    | cons f q =>
        refine L.takes wait soon ahead fun s'' seen' head' time' ahead' => ?_
        exact ih _ (by simp) head' time' ahead' rfl
    | nil =>
        refine Poller.Ends.wait (L.blocks wait soon) ?_
        cases later with
        | nil => exact L.wakesUp wait rfl
        | cons a rest =>
            obtain ⟨t, f⟩ := a
            by_cases first : t < limit startedAt seen
            · -- the clock goes to the next arrival, and whatever is due with it arrives
              have wakes : Poller.wakes (limit startedAt seen) ((t, f) :: rest) = t :=
                min_eq_left (Int.le_of_lt first)
              obtain ⟨moved, at_⟩ := L.moves t wait
              obtain ⟨arrived, same⟩ := L.arrives (f := f) moved (ahead.fits _ List.mem_cons_self)
              rw [at_] at same
              obtain ⟨before, sorted⟩ := List.pairwise_cons.mp ahead.sorted
              have ahead' : Ahead startedAt kind Fits (P.now (P.arrive (P.setNow s' t) f)) seen [f] rest := by
                rw [same]
                refine ⟨?_, sorted, before, ?_⟩
                · exact fun a mem => ahead.fits a (List.mem_cons_of_mem _ mem)
                · exact fun a mem => ahead.clear a (List.mem_cons_of_mem _ mem)
              obtain ⟨s₂, q', later', delivered, wait', now', timed', ahead₂, count⟩ :=
                L.delivers (q := [f]) arrived ahead'
              rw [wakes, Poller.deliver, if_pos (Int.le_of_eq at_.symm), delivered]
              rw [← now'] at ahead₂ timed'
              have soon' : P.now s₂ < limit startedAt seen := by
                rw [now', same]
                exact first
              have took : P.Ends s₂ later'
                  (codeFrom startedAt seen (timed kind (P.now s₂) ([f] ++ q') later')) := by
                refine L.takes (q := q') wait' soon' ahead₂ fun s'' seen' head' time' ahead'' => ?_
                refine ih _ ?_ head' time' ahead'' rfl
                simp only [List.length_nil, List.length_cons]
                omega
              rw [timed', now', same] at took
              exact took
            · have late : limit startedAt seen < t := by
                have := ahead.ne_limit List.mem_cons_self
                omega
              have wakes : Poller.wakes (limit startedAt seen) ((t, f) :: rest) = limit startedAt seen :=
                min_eq_right (Int.le_of_lt late)
              have stays : P.deliver (P.setNow s' (limit startedAt seen)) ((t, f) :: rest) =
                  (P.setNow s' (limit startedAt seen), (t, f) :: rest) := by
                rw [Poller.deliver, if_neg]
                rw [(L.moves _ wait).2]
                omega
              rw [wakes, stays, timed, List.map_nil, List.nil_append, List.map_cons,
                codeFrom_late (Int.le_of_lt late)]
              exact L.wakesUp wait rfl
  · have due : P.now s = limit startedAt seen := by omega
    rw [codeFrom_over]
    · exact L.expired head due
    · intro a mem
      rw [← due]
      rcases List.mem_append.mp mem with mem | mem
      · obtain ⟨f, -, rfl⟩ := List.mem_map.mp mem
        exact Int.le_refl _
      · obtain ⟨a, later, rfl⟩ := List.mem_map.mp mem
        exact ahead.after a later

end OpenLoop

/-- Frames in the order of their times, with none at a deadline. -/
structure Timely (frames : List (Int × Kind)) : Prop where
  sorted : frames.Pairwise (·.1 ≤ ·.1)
  after : ∀ a ∈ frames, 0 ≤ a.1
  clear : ∀ a ∈ frames, a.1 ≠ 20000 ∧ ∀ c ∈ firstClose frames, a.1 ≠ c + 250

/-- The kinds of frames, with the times. -/
def kinds (kind : F → Kind) (frames : List (Int × F)) : List (Int × Kind) :=
  frames.map fun a => (a.1, kind a.2)

theorem Timely.ahead {arrivals : List (Int × F)} (timely : Timely (kinds kind arrivals))
    (fits : ∀ a ∈ arrivals, Fits a.2) (startedAt : Int) :
    Ahead startedAt kind Fits startedAt none [] (delayed startedAt arrivals) := by
  have same : timed kind startedAt [] (delayed startedAt arrivals) =
      delayed startedAt (kinds kind arrivals) := by
    simp [timed, delayed, kinds]
  have sorted : arrivals.Pairwise (fun a b => a.1 ≤ b.1) := by
    have := timely.sorted
    rwa [kinds, List.pairwise_map] at this
  refine ⟨?_, ?_, ?_, ?_⟩
  · intro a later
    obtain ⟨b, mem, rfl⟩ := List.mem_map.mp later
    exact fits b mem
  · refine List.pairwise_map.mpr (sorted.imp ?_)
    intro a b le
    exact Int.add_le_add_left le _
  · intro a later
    obtain ⟨b, mem, rfl⟩ := List.mem_map.mp later
    have := timely.after _ (List.mem_map_of_mem mem)
    dsimp only at this ⊢
    omega
  · intro a later
    obtain ⟨b, mem, rfl⟩ := List.mem_map.mp later
    obtain ⟨deadline, grace⟩ := timely.clear _ (List.mem_map_of_mem mem)
    rw [same, firstClose_delayed]
    refine ⟨by dsimp only at deadline ⊢; omega, ?_⟩
    intro c close
    obtain ⟨c', first, rfl⟩ := Option.map_eq_some_iff.mp close
    have := grace c' first
    dsimp only at this ⊢
    omega

/-- **An implementation returns the expected code**, from the head of its loop on. -/
theorem OpenLoop.expected {arrivals : List (Int × F)} {startedAt : Int}
    (L : OpenLoop P startedAt kind Fits) (head : L.Head s none []) (starts : P.now s = startedAt)
    (fits : ∀ a ∈ arrivals, Fits a.2) (timely : Timely (kinds kind arrivals)) :
    P.Ends s (delayed startedAt arrivals) (expectedCode 0 (kinds kind arrivals)) := by
  have ahead : Ahead startedAt kind Fits (P.now s) none [] (delayed startedAt arrivals) := by
    rw [starts]
    exact timely.ahead fits startedAt
  have inTime : P.now s ≤ limit startedAt none := by
    rw [starts, limit]
    omega
  have ends := L.ends head inTime ahead
  have same : timed kind startedAt [] (delayed startedAt arrivals) =
      delayed startedAt (kinds kind arrivals) := by
    simp [timed, delayed, kinds]
  rw [starts, same, codeFrom_eq] at ends
  · rw [← expectedCode_delayed startedAt]
    exact ends
  · refine List.pairwise_map.mpr (timely.sorted.imp ?_)
    intro a b le
    exact Int.add_le_add_left le _

end Loops

end TonTunnel.OpenClock
