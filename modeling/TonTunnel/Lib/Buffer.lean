import TonTunnel.Lib.BigEndian

/-!
Checked accesses to a buffer.

A buffer is a list that does not grow. `get` and `getSlice` read it and `put` and
`copy` write it; an access outside the buffer is a `Fault` that says which index was
touched. Of each operation a caller needs two facts: what it computes while its
indices are inside (`get_of_lt`, `getSlice_of_le`, `copy_of_le`), and the fault
otherwise (`copy_overrun`). The reads of `BigEndian`, which take a proof that they are
inside, agree with the checked ones (`get16_of_le`). `store` is a row of writes; those
side by side are one (`store_adjacent`). A pointer into a buffer is the buffer from there on.
-/

namespace Buffer

open BigEndian

variable {α : Type}

/-- An access outside a buffer, with the index. -/
inductive Fault where
  | read (i : Nat)
  | write (i : Nat)
  deriving DecidableEq, Repr

def get (b : List α) (i : Nat) : Except Fault α :=
  match b[i]? with
  | some v => .ok v
  | none => .error (.read i)

/-- The `n` elements from index `i` on. -/
def getSlice (b : List α) (i n : Nat) : Except Fault (List α) :=
  if i + n ≤ b.length then .ok ((b.drop i).take n) else .error (.read (max i b.length))

def put (b : List α) (i : Nat) (v : α) : Except Fault (List α) :=
  if i < b.length then .ok (b.set i v) else .error (.write i)

/-- Writes `vs` from index `i` on, one element after the other. -/
def copy (b : List α) (i : Nat) : List α → Except Fault (List α)
  | [] => .ok b
  | v :: vs => do
      let b ← put b i v
      copy b (i + 1) vs

/-- Several such writes, in order. -/
def store (b : List α) : List (Nat × List α) → Except Fault (List α)
  | [] => .ok b
  | (i, vs) :: ws => do
      let b ← copy b i vs
      store b ws

/-- Two bytes in network order. -/
def get16 (b : List UInt8) (i : Nat) : Except Fault UInt16 := do
  return be16 (← get b i) (← get b (i + 1))

/-- Four bytes in network order. -/
def get32 (b : List UInt8) (i : Nat) : Except Fault UInt32 := do
  return be32 (← get b i) (← get b (i + 1)) (← get b (i + 2)) (← get b (i + 3))

theorem ok_bind {β : Type} (v : α) (f : α → Except Fault β) : (Except.ok v >>= f) = f v :=
  rfl

/-! ### Reads -/

section Reads

theorem get_of_lt [Inhabited α] {b : List α} {i : Nat} (inside : i < b.length) :
    get b i = .ok b[i]! := by
  rw [get, List.getElem?_eq_getElem inside, getElem!_pos b i inside]

theorem getSlice_of_le {b : List α} {i n : Nat} (inside : i + n ≤ b.length) :
    getSlice b i n = .ok ((b.drop i).take n) :=
  if_pos inside

theorem get16_of_lt {b : List UInt8} {i : Nat} (inside : i + 1 < b.length) :
    get16 b i = .ok (be16 b[i]! b[i + 1]!) := by
  rw [get16, get_of_lt (by omega : i < b.length), get_of_lt inside]
  rfl

theorem get32_of_lt {b : List UInt8} {i : Nat} (inside : i + 3 < b.length) :
    get32 b i = .ok (be32 b[i]! b[i + 1]! b[i + 2]! b[i + 3]!) := by
  rw [get32, get_of_lt (by omega : i < b.length), get_of_lt (by omega : i + 1 < b.length),
    get_of_lt (by omega : i + 2 < b.length), get_of_lt inside]
  rfl

theorem get16_of_le {b : List UInt8} {i : Nat} (h : i + 2 ≤ b.length) :
    get16 b i = .ok (readU16 b i h) := by
  rw [get16_of_lt (by omega), readU16, getElem!_pos b i (by omega), getElem!_pos b (i + 1) (by omega)]

theorem get32_of_le {b : List UInt8} {i : Nat} (h : i + 4 ≤ b.length) :
    get32 b i = .ok (readU32 b i h) := by
  rw [get32_of_lt (by omega), readU32, getElem!_pos b i (by omega), getElem!_pos b (i + 1) (by omega),
    getElem!_pos b (i + 2) (by omega), getElem!_pos b (i + 3) (by omega)]

theorem getSlice_eq {b : List UInt8} {i n : Nat} (inside : i + n ≤ b.length) :
    getSlice b i n = .ok (slice b i (i + n)) := by
  rw [getSlice_of_le inside, slice, Nat.add_sub_cancel_left]

end Reads

/-! ### Writes -/

section Writes

variable {b : List α} {i : Nat} {vs ws : List α}

/-- Writing behind what was just written. -/
theorem copy_append :
    copy b i (vs ++ ws) = (copy b i vs >>= fun b => copy b (i + vs.length) ws) := by
  induction vs generalizing b i with
  | nil => rfl
  | cons v vs ih =>
      rw [List.cons_append, copy, copy]
      cases put b i v with
      | error fault => rfl
      | ok b =>
          have next : i + 1 + vs.length = i + (v :: vs).length := by
            rw [List.length_cons]
            omega
          show copy b (i + 1) (vs ++ ws) = _
          rw [ih, next]
          rfl

theorem copy_of_le (inside : i + vs.length ≤ b.length) :
    copy b i vs = .ok (b.take i ++ vs ++ b.drop (i + vs.length)) := by
  induction vs generalizing b i with
  | nil => simp [copy]
  | cons v vs ih =>
      rw [List.length_cons] at inside
      have here : i < b.length := by omega
      have later : i + 1 + vs.length ≤ (b.set i v).length := by
        rw [List.length_set]
        omega
      have front : (b.set i v).take (i + 1) = b.take i ++ [v] := by
        rw [List.set_eq_take_append_cons_drop, if_pos here, List.take_append]
        simp [Nat.min_eq_left here.le, List.take_take]
      have back : (b.set i v).drop (i + 1 + vs.length) = b.drop (i + (v :: vs).length) := by
        rw [List.drop_set_of_lt (by omega), List.length_cons]
        congr 1
        omega
      rw [copy, put, if_pos here]
      show copy (b.set i v) (i + 1) vs = _
      rw [ih later, front, back]
      simp

/-- Overwriting the middle of a buffer. -/
theorem copy_between {before old after : List α} (start : i = before.length)
    (size : vs.length = old.length) :
    copy (before ++ (old ++ after)) i vs = .ok (before ++ (vs ++ after)) := by
  have inside : i + vs.length ≤ (before ++ (old ++ after)).length := by
    rw [List.length_append, List.length_append]
    omega
  rw [copy_of_le inside, ← List.drop_drop, start, List.take_left, List.drop_left, size,
    List.drop_left, List.append_assoc]

theorem copy_overrun (start : i ≤ b.length) (outside : b.length < i + vs.length) :
    copy b i vs = .error (.write b.length) := by
  induction vs generalizing b i with
  | nil =>
      rw [List.length_nil] at outside
      omega
  | cons v vs ih =>
      rw [List.length_cons] at outside
      rw [copy, put]
      by_cases here : i < b.length
      · rw [if_pos here]
        have later := @ih (b.set i v) (i + 1)
        rw [List.length_set] at later
        exact later (by omega) (by omega)
      · have last : i = b.length := by omega
        rw [if_neg here, last]
        rfl

theorem store_nil : store b [] = .ok b :=
  rfl

theorem store_cons {writes : List (Nat × List α)} (inside : i + vs.length ≤ b.length) :
    store b ((i, vs) :: writes) =
      store (b.take i ++ vs ++ b.drop (i + vs.length)) writes := by
  rw [store, copy_of_le inside, ok_bind]

theorem store_singleton : store b [(i, vs)] = copy b i vs := by
  rw [store]
  cases copy b i vs <;> rfl

/-- Two writes side by side are one. -/
theorem store_adjacent {writes : List (Nat × List α)} {j : Nat} (next : j = i + vs.length) :
    store b ((i, vs) :: (j, ws) :: writes) = store b ((i, vs ++ ws) :: writes) := by
  rw [store, store, copy_append, next]
  cases copy b i vs <;> rfl

end Writes

end Buffer
