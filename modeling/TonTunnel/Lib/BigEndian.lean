import Mathlib.Data.Nat.Bitwise
import Mathlib.Tactic.Ring

/-!
Big-endian unsigned fields inside byte strings.

`writeU16`/`writeU32` append the bytes of a fixed-width word, most significant
byte first; `readU16`/`readU32` read such a word back at an index that is known
to be in range, so a read past the end of the buffer cannot be written down.
Everything downstream uses two facts about each width: the word survives the
trip through its bytes, and the bytes survive the trip through the word
(`drop_eq_writeU16`, `drop_eq_writeU32`). `slice` is the half-open range the
callers cut payloads with.
-/

namespace BigEndian

/-- Two bytes as a 16-bit word, most significant first. -/
def be16 (p0 p1 : UInt8) : UInt16 :=
  p0.toUInt16 <<< 8 ||| p1.toUInt16

/-- Four bytes as a 32-bit word, most significant first. -/
def be32 (p0 p1 p2 p3 : UInt8) : UInt32 :=
  p0.toUInt32 <<< 24 ||| p1.toUInt32 <<< 16 ||| p2.toUInt32 <<< 8 ||| p3.toUInt32

def writeU16 (v : UInt16) : List UInt8 :=
  [((v >>> 8) &&& 0xFF).toUInt8, (v &&& 0xFF).toUInt8]

def writeU32 (v : UInt32) : List UInt8 :=
  [((v >>> 24) &&& 0xFF).toUInt8, ((v >>> 16) &&& 0xFF).toUInt8,
    ((v >>> 8) &&& 0xFF).toUInt8, (v &&& 0xFF).toUInt8]

/-- The 16-bit word at index `i`. -/
def readU16 (b : List UInt8) (i : Nat) (h : i + 2 ≤ b.length) : UInt16 :=
  be16 b[i] b[i + 1]

/-- The 32-bit word at index `i`. -/
def readU32 (b : List UInt8) (i : Nat) (h : i + 4 ≤ b.length) : UInt32 :=
  be32 b[i] b[i + 1] b[i + 2] b[i + 3]

/-- The bytes of `b` from index `i` up to, and without, index `j`. -/
def slice (b : List UInt8) (i j : Nat) : List UInt8 :=
  (b.drop i).take (j - i)

@[simp] theorem length_writeU16 (v : UInt16) : (writeU16 v).length = 2 := rfl

theorem writeU16_zero : writeU16 0 = [0, 0] := by
  decide

theorem writeU16_one : writeU16 1 = [0, 1] := by
  decide

@[simp] theorem length_writeU32 (v : UInt32) : (writeU32 v).length = 4 := rfl

/-! ### Words and their base-256 digits -/

theorem toNat_be16 (p0 p1 : UInt8) : (be16 p0 p1).toNat = p0.toNat * 256 + p1.toNat := by
  have h0 := p0.toNat_lt
  have hor : p0.toNat <<< 8 + p1.toNat = p0.toNat <<< 8 ||| p1.toNat :=
    Nat.shiftLeft_add_eq_or_of_lt p1.toNat_lt _
  have hlt : p0.toNat <<< 8 < 65536 := by rw [Nat.shiftLeft_eq]; omega
  simp only [be16, UInt16.toNat_or, UInt16.toNat_shiftLeft, UInt8.toNat_toUInt16]
  show p0.toNat <<< 8 % 65536 ||| p1.toNat = _
  rw [Nat.mod_eq_of_lt hlt, ← hor, Nat.shiftLeft_eq]

/-- A byte or-ed eight bits below `a` is the next base-256 digit. -/
private theorem or_shift_eq (a : Nat) (p : UInt8) (k : Nat) :
    a <<< (8 + k) ||| p.toNat <<< k = (a * 256 + p.toNat) <<< k := by
  rw [Nat.shiftLeft_add a 8 k, ← Nat.shiftLeft_or_distrib,
    ← Nat.shiftLeft_add_eq_or_of_lt p.toNat_lt, Nat.shiftLeft_eq a 8]

theorem toNat_be32 (p0 p1 p2 p3 : UInt8) :
    (be32 p0 p1 p2 p3).toNat =
      p0.toNat * 2 ^ 24 + p1.toNat * 2 ^ 16 + p2.toNat * 2 ^ 8 + p3.toNat := by
  have h0 := p0.toNat_lt
  have h1 := p1.toNat_lt
  have h2 := p2.toNat_lt
  have hlt : ∀ (p : UInt8) (k : Nat), k ≤ 24 → p.toNat <<< k % 2 ^ 32 = p.toNat <<< k := by
    intro p k hk
    refine Nat.mod_eq_of_lt ?_
    rw [Nat.shiftLeft_eq]
    calc p.toNat * 2 ^ k < 2 ^ 8 * 2 ^ k := by
          exact Nat.mul_lt_mul_of_pos_right p.toNat_lt (Nat.two_pow_pos k)
      _ = 2 ^ (8 + k) := by rw [Nat.pow_add]
      _ ≤ 2 ^ 32 := Nat.pow_le_pow_right (by decide) (by omega)
  simp only [be32, UInt32.toNat_or, UInt32.toNat_shiftLeft, UInt8.toNat_toUInt32]
  show ((p0.toNat <<< 24 % 2 ^ 32 ||| p1.toNat <<< 16 % 2 ^ 32) ||| p2.toNat <<< 8 % 2 ^ 32) |||
    p3.toNat = _
  rw [hlt p0 24 (by decide), hlt p1 16 (by decide), hlt p2 8 (by decide)]
  -- Factor the shifts out, one byte at a time, so that each `|||` is an addition.
  rw [or_shift_eq p0.toNat p1 16, or_shift_eq (p0.toNat * 256 + p1.toNat) p2 8,
    ← Nat.shiftLeft_add_eq_or_of_lt p3.toNat_lt, Nat.shiftLeft_eq]
  ring

private theorem and_255 (n : Nat) : n &&& 255 = n % 256 :=
  Nat.and_two_pow_sub_one_eq_mod n 8

/-- A word is the big-endian reading of its own two bytes. -/
theorem be16_write (v : UInt16) :
    be16 ((v >>> 8) &&& 0xFF).toUInt8 (v &&& 0xFF).toUInt8 = v := by
  apply UInt16.toNat_inj.mp
  rw [toNat_be16]
  have := v.toNat_lt
  simp [Nat.shiftRight_eq_div_pow, and_255]
  omega

/-- A word is the big-endian reading of its own four bytes. -/
theorem be32_write (v : UInt32) :
    be32 ((v >>> 24) &&& 0xFF).toUInt8 ((v >>> 16) &&& 0xFF).toUInt8
      ((v >>> 8) &&& 0xFF).toUInt8 (v &&& 0xFF).toUInt8 = v := by
  apply UInt32.toNat_inj.mp
  rw [toNat_be32]
  have := v.toNat_lt
  simp [Nat.shiftRight_eq_div_pow, and_255]
  omega

/-- Different words have different bytes. -/
theorem writeU16_injective : Function.Injective writeU16 := by
  intro v w same
  simp only [writeU16, List.cons.injEq, and_true] at same
  obtain ⟨h0, h1⟩ := same
  rw [← be16_write v, ← be16_write w, h0, h1]

theorem writeU32_injective : Function.Injective writeU32 := by
  intro v w same
  simp only [writeU32, List.cons.injEq, and_true] at same
  obtain ⟨h0, h1, h2, h3⟩ := same
  rw [← be32_write v, ← be32_write w, h0, h1, h2, h3]

/-- Two bytes are the bytes of the word they spell. -/
theorem writeU16_be16 (p0 p1 : UInt8) : writeU16 (be16 p0 p1) = [p0, p1] := by
  have h1 := p1.toNat_lt
  have h0 := p0.toNat_lt
  simp only [writeU16, List.cons.injEq, and_true]
  refine ⟨UInt8.toNat_inj.mp ?_, UInt8.toNat_inj.mp ?_⟩ <;>
    simp [toNat_be16, Nat.shiftRight_eq_div_pow, and_255]
  omega

/-- Four bytes are the bytes of the word they spell. -/
theorem writeU32_be32 (p0 p1 p2 p3 : UInt8) :
    writeU32 (be32 p0 p1 p2 p3) = [p0, p1, p2, p3] := by
  have h0 := p0.toNat_lt
  have h1 := p1.toNat_lt
  have h2 := p2.toNat_lt
  have h3 := p3.toNat_lt
  simp only [writeU32, List.cons.injEq, and_true]
  refine ⟨?_, ?_, ?_, ?_⟩ <;> apply UInt8.toNat_inj.mp <;>
    simp [toNat_be32, Nat.shiftRight_eq_div_pow, and_255] <;> omega

/-! ### Fields at an index -/

section Fields

variable {b m : List UInt8} {i j : Nat}

/-- Reading at the place where a 16-bit field was written gives the field. -/
theorem readU16_at (pre suf : List UInt8) {v : UInt16} (hb : b = pre ++ writeU16 v ++ suf)
    (hi : i = pre.length) (h : i + 2 ≤ b.length) : readU16 b i h = v := by
  subst hb hi
  simp only [readU16, writeU16]
  simpa using be16_write v

/-- Reading at the place where a 32-bit field was written gives the field. -/
theorem readU32_at (pre suf : List UInt8) {v : UInt32} (hb : b = pre ++ writeU32 v ++ suf)
    (hi : i = pre.length) (h : i + 4 ≤ b.length) : readU32 b i h = v := by
  subst hb hi
  simp only [readU32, writeU32]
  simpa [List.getElem_append_right] using be32_write v

/-- The bytes from `i` on start with the two bytes of the word read at `i`. -/
theorem drop_eq_writeU16 (h : i + 2 ≤ b.length) :
    b.drop i = writeU16 (readU16 b i h) ++ b.drop (i + 2) := by
  rw [readU16, writeU16_be16, List.drop_eq_getElem_cons (by omega),
    List.drop_eq_getElem_cons (l := b) (i := i + 1) (by omega)]
  rfl

/-- The bytes from `i` on start with the four bytes of the word read at `i`. -/
theorem drop_eq_writeU32 (h : i + 4 ≤ b.length) :
    b.drop i = writeU32 (readU32 b i h) ++ b.drop (i + 4) := by
  rw [readU32, writeU32_be32, List.drop_eq_getElem_cons (by omega),
    List.drop_eq_getElem_cons (l := b) (i := i + 1) (by omega),
    List.drop_eq_getElem_cons (l := b) (i := i + 2) (by omega),
    List.drop_eq_getElem_cons (l := b) (i := i + 3) (by omega)]
  rfl

/-- A word of a tail is the word further on in the whole. -/
theorem readU16_drop {k : Nat} (h : i + 2 ≤ (b.drop k).length) :
    readU16 (b.drop k) i h = readU16 b (k + i) (by simp at h; omega) := by
  simp only [readU16, List.getElem_drop]
  rfl

@[inherit_doc readU16_drop]
theorem readU32_drop {k : Nat} (h : i + 4 ≤ (b.drop k).length) :
    readU32 (b.drop k) i h = readU32 b (k + i) (by simp at h; omega) := by
  simp only [readU32, List.getElem_drop]
  rfl

/-- Cutting out the range a field occupies gives the field. -/
theorem slice_at (pre suf : List UInt8) (hb : b = pre ++ m ++ suf) (hi : i = pre.length)
    (hj : j = pre.length + m.length) : slice b i j = m := by
  subst hb hi hj
  simp [slice]

theorem length_slice (hij : i ≤ j) (hj : j ≤ b.length) : (slice b i j).length = j - i := by
  simp only [slice, List.length_take, List.length_drop]
  omega

/-- The bytes from `i` on start with the slice up to `j`. -/
theorem drop_eq_slice (hij : i ≤ j) : b.drop i = slice b i j ++ b.drop j := by
  have hj : b.drop j = (b.drop i).drop (j - i) := by
    rw [List.drop_drop]; congr 1; omega
  rw [hj, slice, List.take_append_drop]

end Fields

end BigEndian
