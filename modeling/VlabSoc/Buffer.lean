/-
Byte buffers and machine words.

A buffer is an array addressed from `0`, as a total function; `memcpy`,
`memset` and pointer offset `Buf.from` are the C library's, and `toList b n`
reads the first `n` cells as a list:

* `toList_memcpy_append` — copying behind the first `n` cells appends;
* `toList_memcpy_shift` — copying a buffer's own tail to its front drops a prefix;
* `leWord_byteOf` — a word stored as four little-endian bytes reads back.

The last part has the conversions between `uint32_t` and `int32_t` and the
reading of single bits of a word.
-/
import Mathlib.Tactic

/-- `uint32_t` -/
abbrev Word := BitVec 32

/-- `uint8_t` -/
abbrev Byte := BitVec 8

/-- An array, by its contents at each index. -/
abbrev Buf (α : Type*) := ℕ → α

namespace Buf

variable {α : Type*}

/-- The buffer a pointer `&b[off]` points to. -/
protected def «from» (b : Buf α) (off : ℕ) : Buf α := fun i => b (off + i)

/-- `memcpy(&dst[off], src, n)`; with a source taken by `Buf.from` from `dst`
itself it is `memmove`, as the source is read before anything is written. -/
def memcpy (dst : Buf α) (off : ℕ) (src : Buf α) (n : ℕ) : Buf α := fun i =>
  if off ≤ i ∧ i < off + n then src (i - off) else dst i

/-- `memset(&dst[off], c, n)` -/
def memset (dst : Buf α) (off : ℕ) (c : α) (n : ℕ) : Buf α := fun i =>
  if off ≤ i ∧ i < off + n then c else dst i

/-- The first `n` cells. -/
def toList (b : Buf α) (n : ℕ) : List α := (List.range n).map b

@[simp] theorem from_apply (b : Buf α) (off i : ℕ) : b.from off i = b (off + i) := rfl

theorem memcpy_inside {dst src : Buf α} {off n i : ℕ} (h : i < n) :
    memcpy dst off src n (off + i) = src i := by
  simp [memcpy, h]

theorem memcpy_front {dst src : Buf α} {n i : ℕ} (h : i < n) : memcpy dst 0 src n i = src i := by
  simp [memcpy, h]

theorem memcpy_outside {dst src : Buf α} {off n i : ℕ} (h : i < off ∨ off + n ≤ i) :
    memcpy dst off src n i = dst i := by
  rw [memcpy, if_neg (by omega)]

theorem memset_inside {dst : Buf α} {off n i : ℕ} {c : α} (h : off ≤ i ∧ i < off + n) :
    memset dst off c n i = c := if_pos h

theorem memset_outside {dst : Buf α} {off n i : ℕ} {c : α} (h : i < off ∨ off + n ≤ i) :
    memset dst off c n i = dst i := by
  rw [memset, if_neg (by omega)]

@[simp] theorem toList_length (b : Buf α) (n : ℕ) : (toList b n).length = n := by
  simp [toList]

@[simp] theorem toList_getElem (b : Buf α) (n i : ℕ) (h : i < (toList b n).length) :
    (toList b n)[i] = b i := by
  simp [toList]

theorem toList_congr {b c : Buf α} {n : ℕ} (h : ∀ i < n, b i = c i) : toList b n = toList c n := by
  apply List.ext_getElem
  · simp
  · intro i hi _
    rw [toList_getElem, toList_getElem]
    exact h i (by simpa using hi)

theorem toList_add (b : Buf α) (n m : ℕ) :
    toList b (n + m) = toList b n ++ toList (b.from n) m := by
  simp only [toList, List.range_add, List.map_append, List.map_map]
  rfl

theorem take_toList (b : Buf α) (n m : ℕ) : (toList b n).take m = toList b (min m n) := by
  simp [toList, ← List.map_take, List.take_range]

theorem drop_toList (b : Buf α) (n m : ℕ) : (toList b n).drop m = toList (b.from m) (n - m) := by
  apply List.ext_getElem
  · simp
  · intro i h1 h2
    simp

/-- Copying behind the first `n` cells appends. -/
theorem toList_memcpy_append (dst src : Buf α) (n m : ℕ) :
    toList (memcpy dst n src m) (n + m) = toList dst n ++ toList src m := by
  rw [toList_add]
  congr 1
  · exact toList_congr fun i hi => memcpy_outside (Or.inl hi)
  · exact toList_congr fun i hi => memcpy_inside hi

/-- Moving the cells from `m` on to the front drops the first `m`. -/
theorem toList_memcpy_shift (b : Buf α) (n m : ℕ) :
    toList (memcpy b 0 (b.from m) (n - m)) (n - m) = (toList b n).drop m := by
  rw [drop_toList]
  exact toList_congr fun i hi => memcpy_front hi

end Buf

/-! ### Little-endian words -/

/-- Byte `k` of a word, `(uint8_t)((value >> 8 * k) & 0xFF)`. -/
def byteOf (w : Word) (k : ℕ) : Byte := (w >>> (8 * k)).setWidth 8

/-- `b0 | b1 << 8 | b2 << 16 | b3 << 24` -/
def leWord (b0 b1 b2 b3 : Byte) : Word :=
  b0.setWidth 32 ||| (b1.setWidth 32 <<< 8) ||| (b2.setWidth 32 <<< 16) ||| (b3.setWidth 32 <<< 24)

theorem leWord_byteOf (w : Word) :
    leWord (byteOf w 0) (byteOf w 1) (byteOf w 2) (byteOf w 3) = w := by
  apply BitVec.eq_of_getLsbD_eq
  intro i hi
  have hcase : i < 8 ∨ (8 ≤ i ∧ i < 16) ∨ (16 ≤ i ∧ i < 24) ∨ 24 ≤ i := by omega
  simp only [leWord, byteOf, BitVec.getLsbD_or, BitVec.getLsbD_shiftLeft, BitVec.getLsbD_setWidth,
    BitVec.getLsbD_ushiftRight]
  rcases hcase with h | ⟨h, h'⟩ | ⟨h, h'⟩ | h
  · simp [h, hi, show i < 16 by omega, show i < 24 by omega]
  · simp [hi, h', show ¬ i < 8 by omega, show i < 24 by omega, show i - 8 < 8 by omega,
      show i - 8 < 32 by omega, show 8 + (i - 8) = i by omega]
  · simp [hi, h', show ¬ i < 8 by omega, show ¬ i < 16 by omega, show ¬ i - 8 < 8 by omega,
      show i - 16 < 8 by omega, show i - 16 < 32 by omega, show 16 + (i - 16) = i by omega]
  · simp [hi, show ¬ i < 8 by omega, show ¬ i < 16 by omega, show ¬ i < 24 by omega,
      show ¬ i - 8 < 8 by omega, show ¬ i - 16 < 8 by omega, show i - 24 < 8 by omega,
      show i - 24 < 32 by omega, show 24 + (i - 24) = i by omega]

/-! ### Conversions and bits -/

/-- `(int32_t)` of a number below `2 ^ 32`. -/
def cInt (n : ℕ) : Int := (BitVec.ofNat 32 n).toInt

/-- Setting one bit. -/
theorem getLsbD_set (w : Word) {l k : ℕ} (hl : l < 32) :
    (w ||| ((1 : Word) <<< l)).getLsbD k = (w.getLsbD k || decide (k = l)) := by
  rw [BitVec.getLsbD_or, BitVec.getLsbD_shiftLeft]
  congr 1
  rcases Nat.lt_trichotomy k l with hlt | rfl | hgt
  · simp [hlt, hlt.ne]
  · simp [hl]
  · simp [hgt.ne', show k - l ≠ 0 by omega]

/-- Clearing one bit. -/
theorem getLsbD_clear (w : Word) {l k : ℕ} (hk : k < 32) :
    (w &&& ~~~((1 : Word) <<< l)).getLsbD k = (w.getLsbD k && decide (k ≠ l)) := by
  rw [BitVec.getLsbD_and, BitVec.getLsbD_not, BitVec.getLsbD_shiftLeft]
  congr 1
  rcases Nat.lt_trichotomy k l with hlt | rfl | hgt
  · simp [hk, hlt, hlt.ne]
  · simp [hk]
  · simp [hk, hgt.ne', Nat.not_lt.mpr hgt.le, show k - l ≠ 0 by omega]

/-- A mask with one bit set tests that bit. -/
theorem and_shiftLeft_ne_zero (w : Word) {k : ℕ} (hk : k < 32) :
    w &&& ((1 : Word) <<< k) ≠ 0 ↔ w.getLsbD k = true := by
  constructor
  · intro h
    by_contra hc
    apply h
    apply BitVec.eq_of_getLsbD_eq
    intro i hi
    have hzero : (0 : Word).getLsbD i = false := by simp
    rw [hzero, BitVec.getLsbD_and, BitVec.getLsbD_shiftLeft, Bool.and_eq_false_iff]
    by_cases hik : i = k
    · subst hik
      exact Or.inl (by simpa using hc)
    · refine Or.inr ?_
      by_cases hlt : i < k
      · simp [hlt]
      · have hne : i - k ≠ 0 := by omega
        simp [hne]
  · intro h hc
    have hbit := congrArg (fun v => v.getLsbD k) hc
    simp only [BitVec.getLsbD_and, BitVec.getLsbD_shiftLeft, h] at hbit
    simp [hk] at hbit
