/-
Counters that count down to their end.

A counter loses one at every tick.  The tick that finds it at one ends it: a reloading
counter starts again from `L`, any other stays at zero.  Started at `v`, the first ends
at the ticks `v`, `v + L`, `v + 2 L`, ... (`Ends`), the second at tick `v` only.

* `run_reloading` — a run of a reloading counter;
* `run_single` — a run of a counter that ends once;
* `run_retriggered` — one that may be set again at any time, ended or not;
* `crossings_short` — the chunks of ticks in which a reloading counter ends.
-/
import VlabSoc.Runs

namespace Countdown

open Runs

/-- The ticks that end a counter started at `v` and reloaded with `L`. -/
def Ends (v L k : ℕ) : Prop := v ≤ k ∧ L ∣ k - v

instance (v L k : ℕ) : Decidable (Ends v L k) := inferInstanceAs (Decidable (_ ∧ _))

/-- What is left of it after `k` ticks. -/
def left (v L k : ℕ) : ℕ := if k < v then v - k else L - (k - v) % L

/-- The number of its ends in `n` ticks. -/
def ends (v L n : ℕ) : ℕ := if n < v then 0 else 1 + (n - v) / L

variable {v L : ℕ}

theorem left_zero (hv : 0 < v) : left v L 0 = v := by
  rw [left, if_pos hv, Nat.sub_zero]

theorem ends_zero (hv : 0 < v) : ends v L 0 = 0 := by
  rw [ends, if_pos hv]

/-- The next tick ends the counter when one is left. -/
theorem ends_succ_iff (hL : 0 < L) (k : ℕ) : Ends v L (k + 1) ↔ left v L k = 1 := by
  rw [Ends, left]
  split_ifs with hlt
  · constructor
    · rintro ⟨hle, -⟩
      omega
    · intro hone
      exact ⟨by omega, by rw [show k + 1 - v = 0 by omega]; exact dvd_zero L⟩
  · have hmod := Nat.mod_lt (k - v) hL
    rw [show k + 1 - v = k - v + 1 by omega, ← Nat.mod_eq_sub_iff Nat.one_pos hL]
    omega

/-- A counter started at its load ends at the multiples of it. -/
theorem ends_self_iff (k : ℕ) : Ends L L (k + 1) ↔ L ∣ k + 1 := by
  rw [Ends]
  constructor
  · rintro ⟨hle, hdvd⟩
    rw [← Nat.sub_add_cancel hle]
    exact dvd_add hdvd (dvd_refl L)
  · intro hdvd
    exact ⟨Nat.le_of_dvd (Nat.succ_pos k) hdvd, Nat.dvd_sub hdvd (dvd_refl L)⟩

theorem left_succ (hL : 0 < L) (k : ℕ) :
    left v L (k + 1) = if left v L k = 1 then L else left v L k - 1 := by
  have hmod := Nat.mod_lt (k - v) hL
  split_ifs with hone
  · have hend := (ends_succ_iff hL k).mpr hone
    rw [left, if_neg (not_lt.mpr hend.1), Nat.mod_eq_zero_of_dvd hend.2, Nat.sub_zero]
  · have hend := mt (ends_succ_iff hL k).mp hone
    unfold left
    by_cases hlt : k + 1 < v
    · rw [if_pos hlt, if_pos (by omega)]
      omega
    · -- past the first end, and not at one
      have hge : v ≤ k := by
        by_contra hk
        exact hend ⟨by omega, by rw [show k + 1 - v = 0 by omega]; exact dvd_zero L⟩
      have hne : (k - v) % L ≠ L - 1 := fun h0 => hend
        ⟨by omega, by rw [show k + 1 - v = k - v + 1 by omega]; exact
          (Nat.mod_eq_sub_iff Nat.one_pos hL).mp h0⟩
      have hstep : (k + 1 - v) % L = (k - v) % L + 1 := by
        rw [show k + 1 - v = k - v + 1 by omega, ← Nat.mod_add_mod]
        exact Nat.mod_eq_of_lt (by omega)
      rw [if_neg hlt, if_neg (by omega), hstep]
      omega

theorem ends_succ (hL : 0 < L) (k : ℕ) :
    ends v L (k + 1) = ends v L k + if left v L k = 1 then 1 else 0 := by
  have hiff := ends_succ_iff (v := v) hL k
  unfold ends
  by_cases hlt : k + 1 < v
  · rw [if_pos hlt, if_pos (by omega), if_neg fun h0 => absurd (hiff.mpr h0).1 (by omega)]
  · by_cases hk : k < v
    · -- the first end
      have hend : Ends v L (k + 1) :=
        ⟨by omega, by rw [show k + 1 - v = 0 by omega]; exact dvd_zero L⟩
      rw [if_neg hlt, if_pos hk, if_pos (hiff.mp hend), show k + 1 - v = 0 by omega, Nat.zero_div]
    · rw [if_neg hlt, if_neg hk, show k + 1 - v = k - v + 1 by omega, Nat.succ_div, ← add_assoc]
      have hsame : L ∣ k - v + 1 ↔ left v L k = 1 := by
        rw [← hiff, Ends, show k + 1 - v = k - v + 1 by omega]
        exact (and_iff_right (by omega)).symm
      simp only [hsame]

section Runs

variable {σ ε : Type*} {step : σ → ε → σ} (tick : ε → Bool) (count : σ → ℕ) {P : σ → Prop}
  {A : ε → Prop}

/-- A run of a reloading counter: which of its ticks end the counter, how many they are, and
what is left. -/
theorem run_reloading (hL : 0 < L) (hP : ∀ s e, A e → P s → P (step s e))
    (hkeep : ∀ s e, A e → P s → tick e = false → count (step s e) = count s)
    (htick : ∀ s e, A e → P s → tick e = true →
      count (step s e) = if count s = 1 then L else count s - 1)
    {es : List ε} {s : σ} (hA : ∀ e ∈ es, A e) (hs : P s) (hv : 0 < count s) :
    count (run step s es) = left (count s) L (es.countP tick) ∧
      (stages step s es).countP (fun x => tick x.2 && decide (count x.1 = 1)) =
        ends (count s) L (es.countP tick) ∧
      ∀ pre, pre <+: es →
        (count (run step s pre) = 1 ↔ Ends (count s) L (pre.countP tick + 1)) := by
  set v := count s with hvdef
  have hkeepR : ∀ k t e, A e → P t ∧ count t = left v L k → tick e = false →
      P (step t e) ∧ count (step t e) = left v L k := fun k t e he ht hno =>
    ⟨hP t e he ht.1, (hkeep t e he ht.1 hno).trans ht.2⟩
  have htickR : ∀ k t e, A e → P t ∧ count t = left v L k → tick e = true →
      P (step t e) ∧ count (step t e) = left v L (k + 1) := fun k t e he ht hyes =>
    ⟨hP t e he ht.1, by rw [htick t e he ht.1 hyes, ht.2, left_succ hL]⟩
  have hstart : P s ∧ count s = left v L 0 := ⟨hs, (left_zero hv).symm⟩
  have hrun : ∀ fs : List ε, (∀ e ∈ fs, A e) →
      count (run step s fs) = left v L (fs.countP tick) := fun fs hfs => by
    have hend := run_clock step tick hkeepR htickR hfs hstart
    rw [zero_add] at hend
    exact hend.2
  refine ⟨hrun es hA, ?_, fun pre hpre => ?_⟩
  · have hcount := run_clock_count step tick (fun x => tick x.2 && decide (count x.1 = 1))
      (ends v L) hkeepR htickR (fun t e hno => by rw [hno, Bool.false_and])
      (fun k t e _ ht hyes => by rw [hyes, Bool.true_and, ht.2, ends_succ hL]; simp) hA hstart
    rwa [ends_zero hv, zero_add, zero_add] at hcount
  · rw [hrun pre fun e he => hA e (hpre.subset he), ends_succ_iff hL]

/-- A run of a counter that ends once, and is on until then. -/
theorem run_single (On : σ → Prop) [DecidablePred On] (hP : ∀ s e, A e → P s → P (step s e))
    (hkeep : ∀ s e, A e → P s → tick e = false →
      count (step s e) = count s ∧ (On (step s e) ↔ On s))
    (htick : ∀ s e, A e → P s → tick e = true → On s →
      count (step s e) = count s - 1 ∧ (On (step s e) ↔ count s ≠ 1))
    (hoff : ∀ s e, A e → P s → tick e = true → ¬ On s →
      count (step s e) = count s ∧ ¬ On (step s e))
    {es : List ε} {s : σ} (hA : ∀ e ∈ es, A e) (hs : P s) (hv : 0 < count s) (hon : On s) :
    count (run step s es) = count s - es.countP tick ∧
      (On (run step s es) ↔ es.countP tick < count s) ∧
      (stages step s es).countP (fun x => tick x.2 && decide (On x.1 ∧ count x.1 = 1)) =
        (if es.countP tick < count s then 0 else 1) ∧
      ∀ pre, pre <+: es → (On (run step s pre) ∧ count (run step s pre) = 1 ↔
        pre.countP tick + 1 = count s) := by
  set v := count s with hvdef
  have hkeepR : ∀ k t e, A e → P t ∧ count t = v - k ∧ (On t ↔ k < v) → tick e = false →
      P (step t e) ∧ count (step t e) = v - k ∧ (On (step t e) ↔ k < v) :=
    fun k t e he ht hno => by
      obtain ⟨hcount, hsame⟩ := hkeep t e he ht.1 hno
      exact ⟨hP t e he ht.1, hcount.trans ht.2.1, hsame.trans ht.2.2⟩
  have htickR : ∀ k t e, A e → P t ∧ count t = v - k ∧ (On t ↔ k < v) → tick e = true →
      P (step t e) ∧ count (step t e) = v - (k + 1) ∧ (On (step t e) ↔ k + 1 < v) :=
    fun k t e he ht hyes => by
      refine ⟨hP t e he ht.1, ?_⟩
      by_cases hot : On t
      · obtain ⟨hcount, hnext⟩ := htick t e he ht.1 hyes hot
        have hlt := ht.2.2.mp hot
        rw [hcount, hnext, ht.2.1]
        exact ⟨by omega, by omega⟩
      · obtain ⟨hcount, hnext⟩ := hoff t e he ht.1 hyes hot
        have hge := mt ht.2.2.mpr hot
        rw [hcount, ht.2.1]
        exact ⟨by omega, iff_of_false hnext (by omega)⟩
  have hstart : P s ∧ count s = v - 0 ∧ (On s ↔ 0 < v) := ⟨hs, rfl, iff_of_true hon hv⟩
  have hrun : ∀ fs : List ε, (∀ e ∈ fs, A e) → count (run step s fs) = v - fs.countP tick ∧
      (On (run step s fs) ↔ fs.countP tick < v) := fun fs hfs => by
    have hend := run_clock step tick (R := fun k t => P t ∧ count t = v - k ∧ (On t ↔ k < v))
      hkeepR htickR hfs hstart
    rw [zero_add] at hend
    exact hend.2
  refine ⟨(hrun es hA).1, (hrun es hA).2, ?_, fun pre hpre => ?_⟩
  · have hcount := run_clock_count step tick
      (fun x => tick x.2 && decide (On x.1 ∧ count x.1 = 1)) (fun k => if k < v then 0 else 1)
      (R := fun k t => P t ∧ count t = v - k ∧ (On t ↔ k < v)) hkeepR htickR
      (fun t e hno => by rw [hno, Bool.false_and])
      (fun k t e _ ht hyes => by
        have hlast : On t ∧ count t = 1 ↔ k + 1 = v := by
          rw [ht.2.1, ht.2.2]
          omega
        simp only [hyes, Bool.true_and, decide_eq_true_eq, hlast]
        split_ifs <;> omega) hA hstart
    rwa [if_pos hv, zero_add, zero_add] at hcount
  · obtain ⟨hcount, honp⟩ := hrun pre fun e he => hA e (hpre.subset he)
    rw [hcount, honp]
    omega

end Runs

/-! ### Set again at any time -/

section Retriggered

variable {σ ε : Type*} (step : σ → ε → σ) (count : σ → ℕ) (sets : σ × ε → Option ℕ)
  (tick : σ × ε → Bool) {P : σ → Prop} (hP : ∀ s e, P s → P (step s e))
  (hcount : ∀ s e, P s →
    count (step s e) = (sets (s, e)).getD (count s - if tick (s, e) then 1 else 0))

include hP hcount

/-- A run in which nothing sets the counter takes its ticks off. -/
theorem run_untouched {es : List ε} {s : σ} (hs : P s)
    (hno : ∀ x ∈ stages step s es, sets x = none) :
    count (run step s es) = count s - (stages step s es).countP tick := by
  induction es generalizing s with
  | nil => rfl
  | cons e es ih =>
    rw [stages, List.forall_mem_cons] at hno
    rw [run_cons, ih (hP s e hs) hno.2, hcount s e hs, hno.1, Option.getD_none, stages,
      List.countP_cons, Nat.sub_sub, Nat.add_comm]

/-- What is left of a counter that started at rest is left of the last set. -/
theorem run_retriggered (es : List ε) {s : σ} (hs : P s) (hrest : count s = 0) {n : ℕ}
    (hn : 0 < n) :
    count (run step s es) = n ↔
      ∃ pre e mid m, es = pre ++ e :: mid ∧ sets (run step s pre, e) = some m ∧
        (∀ x ∈ stages step (step (run step s pre) e) mid, sets x = none) ∧
        (stages step (step (run step s pre) e) mid).countP tick + n = m := by
  have hrun : ∀ fs, P (run step s fs) := fun fs =>
    run_invariant step (A := fun _ => True) (fun t e _ ht => hP t e ht) (fun _ _ => trivial) hs
  constructor
  · intro hleft
    induction es using List.reverseRecOn generalizing n with
    | nil =>
      rw [run_nil, hrest] at hleft
      omega
    | append_singleton es e ih =>
      rw [run_append_cons, run_nil, hcount _ e (hrun es)] at hleft
      cases hset : sets (run step s es, e) with
      | some m =>
        rw [hset, Option.getD_some] at hleft
        exact ⟨es, e, [], m, rfl, hset, fun x hx => absurd hx List.not_mem_nil, by
          rw [stages, List.countP_nil, hleft, Nat.zero_add]⟩
      | none =>
        -- the last set is further back
        rw [hset, Option.getD_none] at hleft
        have hback : count (run step s es) = n + if tick (run step s es, e) then 1 else 0 := by
          split_ifs at hleft ⊢ <;> omega
        obtain ⟨pre, f, mid, m, rfl, hf, hno, hm⟩ := ih (Nat.add_pos_left hn _) hback
        have hlast : run step s (pre ++ f :: mid) = run step (step (run step s pre) f) mid :=
          run_append_cons step s pre f mid
        refine ⟨pre, f, mid ++ [e], m, by rw [List.append_assoc, List.cons_append], hf, ?_, ?_⟩
        · intro x hx
          rw [stages_append, List.mem_append, ← hlast] at hx
          rcases hx with hx | hx
          · exact hno x hx
          · rw [List.mem_singleton.mp hx]
            exact hset
        · rw [stages_append, List.countP_append, ← hlast, ← hm, stages, stages, List.countP_cons,
            List.countP_nil]
          omega
  · rintro ⟨pre, e, mid, m, rfl, hset, hno, hm⟩
    rw [run_append_cons, run_untouched step count sets tick hP hcount (hP _ e (hrun pre)) hno,
      hcount _ e (hrun pre), hset, Option.getD_some]
    omega

end Retriggered

/-! ### In chunks -/

/-- A counter of period `L`, in which `k` ticks have been counted, `n` ticks later. -/
theorem left_period (hL : 0 < L) (k n : ℕ) :
    left (L - k % L) L n = L - (k + n) % L := by
  have hmod := Nat.mod_lt k hL
  have hk := Nat.div_add_mod k L
  rw [left]
  split_ifs with hlt
  · have hsum : (k + n) % L = k % L + n := by
      rw [← hk, add_assoc, Nat.mul_add_mod, Nat.mul_add_mod, Nat.mod_mod]
      exact Nat.mod_eq_of_lt (by omega)
    rw [hsum]
    omega
  · have hsum : (k + n) % L = (n - (L - k % L)) % L := by
      have hsplit : k + n = L * (k / L + 1) + (n - (L - k % L)) := by
        rw [Nat.mul_add, Nat.mul_one]
        omega
      rw [hsplit, Nat.mul_add_mod]
    rw [hsum]

/-- It ends in them when they reach the next multiple of `L`. -/
theorem ends_period (hL : 0 < L) (k n : ℕ) :
    0 < ends (L - k % L) L n ↔ k / L < (k + n) / L := by
  have hmod := Nat.mod_lt k hL
  have hdiv : (k + n) / L = k / L + (k % L + n) / L := by
    have hk := Nat.div_add_mod k L
    have hsum : k + n = L * (k / L) + (k % L + n) := by omega
    conv_lhs => rw [hsum, Nat.mul_add_div hL]
  have hpos : 0 < (k % L + n) / L ↔ L ≤ k % L + n := Nat.div_pos_iff.trans (and_iff_right hL)
  rw [hdiv, Nat.lt_add_right_iff_pos, hpos, ends]
  split_ifs with hlt
  · exact iff_of_false (Nat.lt_irrefl 0) (by omega)
  · exact iff_of_true (Nat.add_pos_left Nat.one_pos _) (by omega)

/-- The chunks in which it ends, of those that follow the first `k` ticks. -/
def crossings (L : ℕ) : ℕ → List ℕ → ℕ
  | _, [] => 0
  | k, n :: ns => (if k / L < (k + n) / L then 1 else 0) + crossings L (k + n) ns

/-- Chunks of a period at most have one end each. -/
theorem crossings_short (hL : 0 < L) {ns : List ℕ} (hns : ∀ n ∈ ns, n ≤ L) (k : ℕ) :
    k / L + crossings L k ns = (k + ns.sum) / L := by
  induction ns generalizing k with
  | nil => rfl
  | cons n ns ih =>
    have hrest := ih (fun m hm => hns m (List.mem_cons_of_mem n hm)) (k + n)
    have hle : k / L ≤ (k + n) / L := Nat.div_le_div_right (Nat.le_add_right k n)
    have hone : (k + n) / L ≤ k / L + 1 := by
      rw [← Nat.add_div_right k hL]
      exact Nat.div_le_div_right (Nat.add_le_add_left (hns n List.mem_cons_self) k)
    rw [crossings, List.sum_cons, ← add_assoc k, ← hrest]
    split_ifs <;> omega

end Countdown
