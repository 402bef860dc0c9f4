/-
Doorbells.

A board of bells that are rung any number of times and answered in rounds.  A round takes the
bells that are owed an answer and heard, in the order of their priority, and answers them up
to the first that is not `mine`; this one is taken without an answer.

* `step_taken` — a round takes every bell at most once, and only bells that it hears;
* `run_conserves` — no bell is answered, lost and owed more often than it was rung;
* `run_answered` — a bell that is always heard is answered once for every round it is rung in.
-/
import Mathlib.Data.List.TakeWhile
import VlabSoc.Runs

namespace Doorbells

variable {ι : Type*}

/-- The bells owed an answer, and those answered and lost so far. -/
structure Board (ι : Type*) where
  owed : List ι
  answered : List ι
  lost : List ι

/-- What a round finds: the bells rung since the last one, and those it hears. -/
structure Round (ι : Type*) where
  rung : ι → Bool
  heard : ι → Bool

/-! ### What a dispatcher takes -/

/-- What is taken of the ready bells without an answer: one at most. -/
def loses (mine : ι → Bool) (ls : List ι) : List ι := (ls.dropWhile mine).take 1

variable {mine : ι → Bool}

theorem loses_mine {ls : List ι} (h : ∀ l ∈ ls, mine l = true) : loses mine ls = [] := by
  rw [loses, List.dropWhile_eq_nil_iff.mpr h]
  rfl

/-- What is answered and lost are the first of the ready bells. -/
theorem taken_prefix (mine : ι → Bool) (ls : List ι) : ls.takeWhile mine ++ loses mine ls <+: ls := by
  have hsplit := List.takeWhile_append_dropWhile (p := mine) (l := ls)
  refine ⟨(ls.dropWhile mine).drop 1, ?_⟩
  rw [loses, List.append_assoc, List.take_append_drop, hsplit]

/-! ### Rounds -/

variable [DecidableEq ι]

section Step

variable (order : List ι) (mine : ι → Bool)

def pending (b : Board ι) (r : Round ι) : List ι :=
  order.filter fun l => decide (l ∈ b.owed) || r.rung l

def ready (b : Board ι) (r : Round ι) : List ι := (pending order b r).filter r.heard

def step (b : Board ι) (r : Round ι) : Board ι :=
  let ls := ready order b r
  { owed := (pending order b r).filter fun l => decide (l ∉ ls.takeWhile mine ∧ l ∉ loses mine ls)
    answered := b.answered ++ ls.takeWhile mine
    lost := b.lost ++ loses mine ls }

end Step

variable {order : List ι}

theorem mem_step_owed {b : Board ι} {r : Round ι} {l : ι} :
    l ∈ (step order mine b r).owed ↔ l ∈ pending order b r ∧
      l ∉ (ready order b r).takeWhile mine ∧ l ∉ loses mine (ready order b r) := by
  rw [step]
  dsimp only
  rw [List.mem_filter, decide_eq_true_iff]

theorem run_answered_mem {rs : List (Round ι)} {b : Board ι} {l : ι}
    (hl : l ∈ (Runs.run (step order mine) b rs).answered) : l ∈ b.answered ∨ l ∈ order := by
  induction rs generalizing b with
  | nil => exact Or.inl hl
  | cons r rs ih =>
    rcases ih hl with hb | ho
    · refine (List.mem_append.mp hb).imp id fun hnew => ?_
      have hready := (List.takeWhile_prefix _).subset hnew
      exact (List.mem_filter.mp (List.mem_filter.mp hready).1).1
    · exact Or.inr ho

section Count

variable (hnodup : order.Nodup)
include hnodup

theorem pending_nodup (b : Board ι) (r : Round ι) : (pending order b r).Nodup :=
  hnodup.filter _

/-- What a round takes of a bell. -/
theorem step_taken (mine : ι → Bool) (b : Board ι) (r : Round ι) (l : ι) :
    let ls := ready order b r
    (ls.takeWhile mine).count l + (loses mine ls).count l ≤ 1 ∧
      (0 < (ls.takeWhile mine).count l + (loses mine ls).count l → l ∈ ls) := by
  intro ls
  have hpre := taken_prefix mine ls
  have hls : ls.Nodup := (pending_nodup hnodup b r).filter _
  rw [← List.count_append]
  refine ⟨List.nodup_iff_count_le_one.mp (hls.sublist hpre.sublist) l, fun hpos => ?_⟩
  exact hpre.subset (List.count_pos_iff.mp hpos)

/-- In a round a bell is answered, lost or still owed at most once, and only if it was owed or
rung. -/
theorem step_conserves (mine : ι → Bool) (b : Board ι) (r : Round ι) (l : ι) :
    let c := step order mine b r
    c.answered.count l + c.lost.count l + (if l ∈ c.owed then 1 else 0) ≤
      b.answered.count l + b.lost.count l + (if l ∈ b.owed then 1 else 0) +
        if r.rung l then 1 else 0 := by
  intro c
  obtain ⟨hone, hmem⟩ := step_taken hnodup mine b r l
  set ls := ready order b r with hls
  have hanswered : c.answered.count l = b.answered.count l + (ls.takeWhile mine).count l :=
    List.count_append
  have hlost : c.lost.count l = b.lost.count l + (loses mine ls).count l := List.count_append
  have howed : l ∈ c.owed ↔ l ∈ pending order b r ∧ l ∉ ls.takeWhile mine ∧ l ∉ loses mine ls :=
    mem_step_owed
  have hpending : l ∈ pending order b r → l ∈ b.owed ∨ r.rung l = true := by
    intro h0
    simpa using (List.mem_filter.mp h0).2
  rw [hanswered, hlost]
  by_cases hp : l ∈ pending order b r
  · have hbudget : 1 ≤ (if l ∈ b.owed then 1 else 0) + if r.rung l then 1 else 0 := by
      rcases hpending hp with h0 | h0
      · rw [if_pos h0]
        omega
      · rw [if_pos h0]
        omega
    by_cases ho : l ∈ c.owed
    · obtain ⟨-, hno, hno'⟩ := howed.mp ho
      rw [if_pos ho, List.count_eq_zero.mpr hno, List.count_eq_zero.mpr hno']
      omega
    · rw [if_neg ho]
      omega
  · -- a bell that is not pending is not taken
    have hzero : ¬ 0 < (ls.takeWhile mine).count l + (loses mine ls).count l := fun h0 =>
      hp (List.mem_filter.mp (hmem h0)).1
    rw [if_neg fun h0 => hp (howed.mp h0).1]
    omega

/-- No bell is answered, lost and owed more often than it was rung. -/
theorem run_conserves (mine : ι → Bool) (rs : List (Round ι)) (b : Board ι) (l : ι) :
    let c := Runs.run (step order mine) b rs
    c.answered.count l + c.lost.count l + (if l ∈ c.owed then 1 else 0) ≤
      b.answered.count l + b.lost.count l + (if l ∈ b.owed then 1 else 0) +
        rs.countP fun r => r.rung l := by
  induction rs generalizing b with
  | nil => exact le_rfl
  | cons r rs ih =>
    have hone := step_conserves hnodup mine b r l
    have hrest := ih (step order mine b r)
    rw [Runs.run_cons, List.countP_cons]
    dsimp only at hone hrest ⊢
    omega

/-- Where all bells are `mine`, one that is always heard is answered once for every round it
is rung in. -/
theorem run_answered (hmine : ∀ l ∈ order, mine l = true) {l : ι} (hl : l ∈ order)
    {rs : List (Round ι)} (hheard : ∀ r ∈ rs, r.heard l = true) {b : Board ι} (hb : l ∉ b.owed) :
    l ∉ (Runs.run (step order mine) b rs).owed ∧
      (Runs.run (step order mine) b rs).answered.count l =
        b.answered.count l + rs.countP fun r => r.rung l := by
  induction rs generalizing b with
  | nil => exact ⟨hb, rfl⟩
  | cons r rs ih =>
    have hready : l ∈ ready order b r ↔ r.rung l = true := by
      rw [ready, pending, List.filter_filter, List.mem_filter, hheard r List.mem_cons_self]
      simp [hl, hb]
    have hall : ∀ k ∈ ready order b r, mine k = true := fun k hk =>
      hmine k (List.mem_filter.mp (List.mem_filter.mp hk).1).1
    have htake : (ready order b r).takeWhile mine = ready order b r :=
      List.takeWhile_eq_self_iff.mpr hall
    have hnext : l ∉ (step order mine b r).owed := by
      rw [mem_step_owed, htake]
      rintro ⟨hp, hno, -⟩
      exact hno (List.mem_filter.mpr ⟨hp, hheard r List.mem_cons_self⟩)
    obtain ⟨howed, hcount⟩ := ih (fun r' hr' => hheard r' (List.mem_cons_of_mem r hr')) hnext
    have hnd : (ready order b r).Nodup := (pending_nodup hnodup b r).filter _
    have hone : (ready order b r).count l = if r.rung l then 1 else 0 := by
      rw [hnd.count]
      exact if_congr hready rfl rfl
    have hstep : (step order mine b r).answered.count l =
        b.answered.count l + if r.rung l then 1 else 0 := by
      rw [step]
      dsimp only
      rw [htake, List.count_append, hone]
    rw [Runs.run_cons, List.countP_cons]
    refine ⟨howed, hcount.trans ?_⟩
    rw [hstep]
    omega

end Count

end Doorbells
