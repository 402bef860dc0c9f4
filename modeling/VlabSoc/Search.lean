/-
A bounded search along a deterministic system.

`first stop next n s` is the number of the first of the rounds `0, …, n - 1` whose
state satisfies `stop`, when every round that does not leads on by `next`.

* `first_eq_some_iff`, `first_eq_none_iff` — what the search finds;
* `first_semiconj` — the search through an abstraction of the states.
-/
import Mathlib.Logic.Function.Iterate

namespace Search

variable {σ τ : Type*} (stop : σ → Bool) (next : σ → σ)

/-- The first round below `n` that stops, counted from `s`. -/
def first : ℕ → σ → Option ℕ
  | 0, _ => none
  | n + 1, s => if stop s then some 0 else (first n (next s)).map (· + 1)

@[simp] theorem first_zero (s : σ) : first stop next 0 s = none := rfl

variable {stop next}

theorem first_succ_stop {s : σ} (h : stop s = true) (n : ℕ) :
    first stop next (n + 1) s = some 0 := if_pos h

theorem first_succ_next {s : σ} (h : stop s = false) (n : ℕ) :
    first stop next (n + 1) s = (first stop next n (next s)).map (· + 1) :=
  if_neg (by simp [h])

/-- The search finds the least round that stops. -/
theorem first_eq_some_iff {n k : ℕ} {s : σ} :
    first stop next n s = some k ↔
      k < n ∧ stop (next^[k] s) = true ∧ ∀ j < k, stop (next^[j] s) = false := by
  -- on the rounds left; what stops later stops one round earlier from `next s`
  induction n generalizing k s with
  | zero => simp
  | succ n ih =>
    cases hs : stop s with
    | true =>
      rw [first_succ_stop hs, Option.some_inj]
      constructor
      · rintro rfl
        exact ⟨n.succ_pos, hs, fun j hj => absurd hj j.not_lt_zero⟩
      · rintro ⟨-, -, hbefore⟩
        by_contra hne
        have hzero := hbefore 0 (Nat.pos_of_ne_zero fun h0 => hne h0.symm)
        exact absurd (hs.symm.trans hzero) (by decide)
    | false =>
      rw [first_succ_next hs, Option.map_eq_some_iff]
      constructor
      · rintro ⟨k, hk, rfl⟩
        obtain ⟨hlt, hstop, hbefore⟩ := ih.mp hk
        refine ⟨Nat.succ_lt_succ hlt, hstop, fun j hj => ?_⟩
        cases j with
        | zero => exact hs
        | succ j => exact hbefore j (Nat.lt_of_succ_lt_succ hj)
      · rintro ⟨hlt, hstop, hbefore⟩
        cases k with
        | zero => exact absurd (hs.symm.trans hstop) (by decide)
        | succ k =>
          exact ⟨k, ih.mpr ⟨Nat.lt_of_succ_lt_succ hlt, hstop, fun j hj =>
            hbefore (j + 1) (Nat.succ_lt_succ hj)⟩, rfl⟩

theorem first_eq_none_iff {n : ℕ} {s : σ} :
    first stop next n s = none ↔ ∀ k < n, stop (next^[k] s) = false := by
  induction n generalizing s with
  | zero => simp
  | succ n ih =>
    cases hs : stop s with
    | true =>
      rw [first_succ_stop hs]
      exact iff_of_false (Option.some_ne_none 0) fun h =>
        absurd ((h 0 n.succ_pos).symm.trans hs) (by decide)
    | false =>
      rw [first_succ_next hs, Option.map_eq_none_iff, ih]
      constructor
      · intro h k hk
        cases k with
        | zero => exact hs
        | succ k => exact h k (Nat.lt_of_succ_lt_succ hk)
      · intro h k hk
        exact h (k + 1) (Nat.succ_lt_succ hk)

/-- An abstraction that `stop` and `next` respect does not change what is found. -/
theorem first_semiconj {stop' : τ → Bool} {next' : τ → τ} {f : σ → τ}
    (hstop : ∀ s, stop s = stop' (f s)) (hnext : Function.Semiconj f next next') (n : ℕ) (s : σ) :
    first stop next n s = first stop' next' n (f s) := by
  induction n generalizing s with
  | zero => rfl
  | succ n ih =>
    rw [first, first, hstop s, ih, hnext s]

end Search
