/-
Runs of a deterministic machine over a list of events.

* `run_invariant` — what every allowed event preserves holds after a run;
* `mem_stages` — the (state, event) pairs of a run are its cuts `pre ++ e :: post`;
* `run_rise` — where a property that holds now last began to hold;
* `run_simulates` — a ghost value that follows the run;
* `run_refines` — a view of the state on which the events act as those of another machine;
* `run_answers` — the same for operations that answer;
* `run_latch` — where a bit that events set and clear was last set;
* `run_sum`, `run_budget`, `run_balance` — gains and losses along the run against
  the change of a count;
* `run_countdown` — a machine that counts ticks down is either still counting
  after a run, or the run passes through the tick that finds the count at one;
* `run_fill`, `run_drain` — a bounded queue that some events append to, or take from;
* `run_kept` — a value that one event of the run leaves and none changes after it;
* `round_transparent` — a change of the state that no client of the machine can tell.
-/
import Mathlib.Tactic

namespace Runs

variable {σ ε : Type*} (step : σ → ε → σ)

/-- The state after the events `es`. -/
def run (s : σ) (es : List ε) : σ := es.foldl step s

@[simp] theorem run_nil (s : σ) : run step s [] = s := rfl

@[simp] theorem run_cons (s : σ) (e : ε) (es : List ε) :
    run step s (e :: es) = run step (step s e) es := rfl

theorem run_append (s : σ) (es fs : List ε) :
    run step s (es ++ fs) = run step (run step s es) fs := by
  rw [run, run, run, List.foldl_append]

theorem run_append_cons (s : σ) (es : List ε) (e : ε) (fs : List ε) :
    run step s (es ++ e :: fs) = run step (step (run step s es) e) fs := by
  rw [run_append, run_cons]

/-- What every allowed event preserves holds after every run of allowed events. -/
theorem run_invariant {P : σ → Prop} {A : ε → Prop}
    (hstep : ∀ s e, A e → P s → P (step s e)) :
    ∀ {es : List ε} {s : σ}, (∀ e ∈ es, A e) → P s → P (run step s es) := by
  intro es
  induction es with
  | nil => exact fun _ hs => hs
  | cons e es ih =>
    intro s hA hs
    rw [run_cons]
    exact ih (fun f hf => hA f (List.mem_cons_of_mem e hf)) (hstep s e (hA e List.mem_cons_self) hs)

/-- The states a run passes through, each with the event taken there. -/
def stages : σ → List ε → List (σ × ε)
  | _, [] => []
  | s, e :: es => (s, e) :: stages (step s e) es

variable {step}

theorem stages_append {s : σ} {es fs : List ε} :
    stages step s (es ++ fs) = stages step s es ++ stages step (run step s es) fs := by
  induction es generalizing s with
  | nil => rfl
  | cons e es ih =>
    rw [List.cons_append, stages, stages, run_cons, ih]
    rfl

/-- A count that does not look at the states is a count of the events. -/
theorem countP_stages {s : σ} {es : List ε} {p : ε → Bool} :
    (stages step s es).countP (fun x => p x.2) = es.countP p := by
  induction es generalizing s with
  | nil => rfl
  | cons e es ih => rw [stages, List.countP_cons, List.countP_cons, ih]

theorem map_snd_stages {s : σ} {es : List ε} : (stages step s es).map Prod.snd = es := by
  induction es generalizing s with
  | nil => rfl
  | cons e es ih => rw [stages, List.map_cons, ih]

theorem mem_stages {s t : σ} {e : ε} {es : List ε} :
    (t, e) ∈ stages step s es ↔ ∃ pre post, es = pre ++ e :: post ∧ t = run step s pre := by
  induction es generalizing s with
  | nil => simp [stages]
  | cons f es ih =>
    rw [stages, List.mem_cons, ih]
    constructor
    · rintro (h | ⟨pre, post, rfl, rfl⟩)
      · obtain ⟨rfl, rfl⟩ := Prod.mk.inj h
        exact ⟨[], es, rfl, rfl⟩
      · exact ⟨f :: pre, post, rfl, rfl⟩
    · rintro ⟨pre, post, heq, rfl⟩
      rcases pre with _ | ⟨g, pre⟩
      · obtain ⟨rfl, rfl⟩ := List.cons.inj heq
        exact Or.inl rfl
      · obtain ⟨rfl, rfl⟩ := List.cons.inj heq
        exact Or.inr ⟨pre, post, rfl, rfl⟩

/-- What does not look at the states can be said of the events. -/
theorem forall_stages {p : ε → Prop} {s : σ} {es : List ε} :
    (∀ x ∈ stages step s es, p x.2) ↔ ∀ e ∈ es, p e := by
  induction es generalizing s with
  | nil => simp [stages]
  | cons e es ih => rw [stages, List.forall_mem_cons, List.forall_mem_cons, ih]

/-- A property that does not hold at the start and holds after the run was last
brought about by one event, and held ever since. -/
theorem run_rise {B : σ → Prop} {s : σ} (hs : ¬ B s) {es : List ε} (h : B (run step s es)) :
    ∃ pre e mid, es = pre ++ e :: mid ∧ ¬ B (run step s pre) ∧
      ∀ m, m <+: mid → B (run step s (pre ++ e :: m)) := by
  induction es using List.reverseRecOn with
  | nil => exact absurd h hs
  | append_singleton es f ih =>
    by_cases hB : B (run step s es)
    · obtain ⟨pre, e, mid, rfl, hpre, hmid⟩ := ih hB
      refine ⟨pre, e, mid ++ [f], by simp, hpre, fun m hm => ?_⟩
      rcases List.prefix_concat_iff.mp hm with rfl | hm
      · simpa using h
      · exact hmid m hm
    · refine ⟨es, f, [], rfl, hB, fun m hm => ?_⟩
      obtain rfl := List.prefix_nil.mp hm
      exact h

variable (step)

/-- If an event keeps `B` exactly when it is not bad, then `B` holds all along a run exactly
when the run takes no bad event. -/
theorem run_always_iff (B : σ → Prop) (bad : σ × ε → Prop) {P : σ → Prop} {A : ε → Prop}
    (hP : ∀ s e, A e → P s → P (step s e))
    (hB : ∀ s e, A e → P s → B s → (B (step s e) ↔ ¬ bad (s, e))) :
    ∀ {es : List ε} {s : σ}, (∀ e ∈ es, A e) → P s → B s →
      ((∀ pre, pre <+: es → B (run step s pre)) ↔ ∀ x ∈ stages step s es, ¬ bad x) := by
  intro es
  induction es with
  | nil =>
    intro s _ _ hb
    refine iff_of_true (fun pre hpre => ?_) (by simp [stages])
    rw [List.prefix_nil.mp hpre]
    exact hb
  | cons e es ih =>
    intro s hA hs hb
    have hAe := hA e List.mem_cons_self
    have hone := hB s e hAe hs hb
    have hrest := fun hb' => ih (fun f hf => hA f (List.mem_cons_of_mem e hf)) (hP s e hAe hs) hb'
    rw [stages, List.forall_mem_cons]
    constructor
    · -- the cut after the first event says that it was not bad
      intro hall
      have hnext : B (step s e) := hall [e] (List.prefix_append [e] es)
      refine ⟨hone.mp hnext, (hrest hnext).mp fun pre hpre => ?_⟩
      exact hall (e :: pre) (List.cons_prefix_cons.mpr ⟨rfl, hpre⟩)
    · rintro ⟨hgood, hgoods⟩ pre hpre
      rcases List.prefix_cons_iff.mp hpre with rfl | ⟨t, rfl, ht⟩
      · exact hb
      · exact (hrest (hone.mpr hgood)).mpr hgoods t ht

/-- A latch.  If every allowed event sets the bit `B`, or keeps it unless it clears
it, then after a run the bit is set exactly when it was set before and no event
cleared it, or some event of the run set it and none cleared it since. -/
theorem run_latch (B : σ → Prop) (sets clears : σ × ε → Prop) {P : σ → Prop} {A : ε → Prop}
    (hP : ∀ s e, A e → P s → P (step s e))
    (hB : ∀ s e, A e → P s → (B (step s e) ↔ sets (s, e) ∨ (B s ∧ ¬ clears (s, e)))) :
    ∀ {es : List ε} {s : σ}, (∀ e ∈ es, A e) → P s →
      (B (run step s es) ↔ (B s ∧ ∀ x ∈ stages step s es, ¬ clears x) ∨
        ∃ pre e post, es = pre ++ e :: post ∧ sets (run step s pre, e) ∧
          ∀ x ∈ stages step (run step s (pre ++ [e])) post, ¬ clears x) := by
  intro es
  induction es with
  | nil =>
    intro s _ _
    simp [stages]
  | cons e es ih =>
    intro s hA hs
    have hAe := hA e List.mem_cons_self
    rw [run_cons, ih (fun f hf => hA f (List.mem_cons_of_mem e hf)) (hP s e hAe hs), hB s e hAe hs,
      stages, List.forall_mem_cons]
    -- the last set is either the first event or one of the rest
    constructor
    · rintro (⟨hset | ⟨hb, hno⟩, hrest⟩ | ⟨pre, f, post, rfl, hset, hrest⟩)
      · exact Or.inr ⟨[], e, es, rfl, hset, hrest⟩
      · exact Or.inl ⟨hb, hno, hrest⟩
      · exact Or.inr ⟨e :: pre, f, post, rfl, hset, hrest⟩
    · rintro (⟨hb, hno, hrest⟩ | ⟨pre, f, post, heq, hset, hrest⟩)
      · exact Or.inl ⟨Or.inr ⟨hb, hno⟩, hrest⟩
      · rcases pre with _ | ⟨g, pre⟩
        · obtain ⟨rfl, rfl⟩ := List.cons.inj heq
          exact Or.inl ⟨Or.inl hset, hrest⟩
        · obtain ⟨rfl, rfl⟩ := List.cons.inj heq
          exact Or.inr ⟨pre, f, post, rfl, hset, hrest⟩

/-- A value that every allowed event adds to has grown by the sum over a run. -/
theorem run_sum {M : Type*} [AddCommMonoid M] (f : σ → M) (gain : σ × ε → M) {P : σ → Prop}
    {A : ε → Prop} (hP : ∀ s e, A e → P s → P (step s e))
    (hf : ∀ s e, A e → P s → f (step s e) = f s + gain (s, e)) :
    ∀ {es : List ε} {s : σ}, (∀ e ∈ es, A e) → P s →
      f (run step s es) = f s + ((stages step s es).map gain).sum := by
  intro es
  induction es with
  | nil => exact fun _ _ => (add_zero _).symm
  | cons e es ih =>
    intro s hA hs
    have hAe := hA e List.mem_cons_self
    have hrest := ih (fun f hf => hA f (List.mem_cons_of_mem e hf)) (hP s e hAe hs)
    rw [run_cons, hrest, hf s e hAe hs, stages, List.map_cons, List.sum_cons, add_assoc]

theorem sum_indicator {α M : Type*} [AddCommMonoidWithOne M] (p : α → Bool) (xs : List α) :
    (xs.map fun x => if p x then (1 : M) else 0).sum = (xs.countP p : M) := by
  induction xs with
  | nil => simp
  | cons x xs ih =>
    rw [List.map_cons, List.sum_cons, List.countP_cons, ih, Nat.cast_add, add_comm]
    split_ifs <;> simp

/-- A value that grows by one at the events `p` has grown by their number. -/
theorem run_count {M : Type*} [AddCommMonoidWithOne M] (f : σ → M) (p : σ × ε → Bool)
    {P : σ → Prop} {A : ε → Prop} (hP : ∀ s e, A e → P s → P (step s e))
    (hf : ∀ s e, A e → P s → f (step s e) = f s + if p (s, e) then 1 else 0) :
    ∀ {es : List ε} {s : σ}, (∀ e ∈ es, A e) → P s →
      f (run step s es) = f s + ((stages step s es).countP p : M) := by
  intro es s hA hs
  rw [run_sum step f (fun x => if p x then 1 else 0) hP hf hA hs, sum_indicator]

/-- If what an event gains pays for what it spends out of `μ`, then no run spends more
than `μ` held at first and the run gained. -/
theorem run_budget (μ : σ → ℕ) (gain : σ × ε → ℕ) (spends : σ × ε → Bool) {P : σ → Prop}
    {A : ε → Prop} (hP : ∀ s e, A e → P s → P (step s e))
    (hμ : ∀ s e, A e → P s →
      (if spends (s, e) then 1 else 0) + μ (step s e) ≤ gain (s, e) + μ s) :
    ∀ {es : List ε} {s : σ}, (∀ e ∈ es, A e) → P s →
      (stages step s es).countP spends + μ (run step s es) ≤
        ((stages step s es).map gain).sum + μ s := by
  intro es
  induction es with
  | nil => exact fun _ _ => le_rfl
  | cons e es ih =>
    intro s hA hs
    have hAe := hA e List.mem_cons_self
    have hone := hμ s e hAe hs
    have hrest := ih (fun f hf => hA f (List.mem_cons_of_mem e hf)) (hP s e hAe hs)
    rw [run_cons, stages, List.countP_cons, List.map_cons, List.sum_cons]
    omega

/-- A ghost value updated along a run. -/
def trail {γ : Type*} (ghost : σ → ε → γ → γ) : σ → γ → List ε → γ
  | _, g, [] => g
  | s, g, e :: es => trail ghost (step s e) (ghost s e g) es

/-- Simulation: a relation to the ghost value that every allowed event keeps, in
states with an invariant, holds after every run of allowed events. -/
theorem run_simulates {γ : Type*} (ghost : σ → ε → γ → γ) {R : σ → γ → Prop} {P : σ → Prop}
    {A : ε → Prop} (hP : ∀ s e, A e → P s → P (step s e))
    (hR : ∀ s e g, A e → P s → R s g → R (step s e) (ghost s e g)) :
    ∀ {es : List ε} {s : σ} {g : γ}, (∀ e ∈ es, A e) → P s → R s g →
      R (run step s es) (trail step ghost s g es) := by
  intro es
  induction es with
  | nil => exact fun _ _ hr => hr
  | cons e es ih =>
    intro s g hA hs hr
    have hAe := hA e List.mem_cons_self
    rw [run_cons, trail]
    exact ih (fun f hf => hA f (List.mem_cons_of_mem e hf)) (hP s e hAe hs) (hR s e g hAe hs hr)

/-- Refinement.  If each allowed event `e` acts on the view `abs` as `op (s, e)` does, then a
run acts on the view as the run of these, and passes through the views of its states. -/
theorem run_refines {σ' ε' : Type*} (step' : σ' → ε' → σ') (abs : σ → σ') (op : σ × ε → ε')
    {P : σ → Prop} {A : ε → Prop} (hP : ∀ s e, A e → P s → P (step s e))
    (hstep : ∀ s e, A e → P s → abs (step s e) = step' (abs s) (op (s, e))) :
    ∀ {es : List ε} {s : σ}, (∀ e ∈ es, A e) → P s →
      abs (run step s es) = run step' (abs s) ((stages step s es).map op) ∧
        stages step' (abs s) ((stages step s es).map op) =
          (stages step s es).map fun x => (abs x.1, op x) := by
  intro es
  induction es with
  | nil => exact fun _ _ => ⟨rfl, rfl⟩
  | cons e es ih =>
    intro s hA hs
    have hAe := hA e List.mem_cons_self
    have hone := hstep s e hAe hs
    obtain ⟨hrun, hstages⟩ := ih (fun f hf => hA f (List.mem_cons_of_mem e hf)) (hP s e hAe hs)
    rw [hone] at hrun hstages
    rw [run_cons, stages, List.map_cons, run_cons, stages, List.map_cons, hrun, hstages]
    exact ⟨rfl, rfl⟩

/-- Refinement of operations that answer.  If each allowed operation answers on `s` what it
answers on the view `abs s` and moves the view accordingly, then so does every run of them. -/
theorem run_answers {σ' α : Type*} (op : σ → ε → α × σ) (op' : σ' → ε → α × σ') (abs : σ → σ')
    {P : σ → Prop} {A : ε → Prop} (hP : ∀ s e, A e → P s → P (op s e).2)
    (hop : ∀ s e, A e → P s → ((op s e).1, abs (op s e).2) = op' (abs s) e) :
    ∀ {es : List ε} {s : σ}, (∀ e ∈ es, A e) → P s →
      (stages (fun s e => (op s e).2) s es).map (fun x => (op x.1 x.2).1) =
          (stages (fun s e => (op' s e).2) (abs s) es).map (fun x => (op' x.1 x.2).1) ∧
        abs (run (fun s e => (op s e).2) s es) = run (fun s e => (op' s e).2) (abs s) es := by
  intro es
  induction es with
  | nil => exact fun _ _ => ⟨rfl, rfl⟩
  | cons e es ih =>
    intro s hA hs
    have hAe := hA e List.mem_cons_self
    have hone := hop s e hAe hs
    obtain ⟨hanswers, hend⟩ := ih (fun f hf => hA f (List.mem_cons_of_mem e hf)) (hP s e hAe hs)
    rw [show abs (op s e).2 = (op' (abs s) e).2 from congrArg Prod.snd hone] at hanswers hend
    rw [stages, stages, List.map_cons, List.map_cons, run_cons, run_cons, hanswers]
    exact ⟨congrArg₂ List.cons (congrArg Prod.fst hone) rfl, hend⟩

/-- A part of the state that every step moves by a run of its own is moved by the runs of all
steps, one after the other. -/
theorem run_part {σ' ε' : Type*} (step' : σ' → ε' → σ') (part : σ → σ') (ops : σ × ε → List ε')
    {P : σ → Prop} {A : ε → Prop} (hP : ∀ s e, A e → P s → P (step s e))
    (hpart : ∀ s e, A e → P s → part (step s e) = run step' (part s) (ops (s, e))) :
    ∀ {es : List ε} {s : σ}, (∀ e ∈ es, A e) → P s →
      part (run step s es) = run step' (part s) ((stages step s es).flatMap ops) := by
  intro es
  induction es with
  | nil => exact fun _ _ => rfl
  | cons e es ih =>
    intro s hA hs
    rw [List.forall_mem_cons] at hA
    rw [run_cons, ih hA.2 (hP s e hA.1 hs), hpart s e hA.1 hs, stages, List.flatMap_cons, run_append]

/-- Balance.  If every allowed event raises the count `μ` when it gains and lowers it
when it loses, then over a run the gains and losses differ by the change of `μ`. -/
theorem run_balance (μ : σ → ℕ) (gain loss : σ × ε → Bool) {P : σ → Prop} {A : ε → Prop}
    (hP : ∀ s e, A e → P s → P (step s e))
    (hμ : ∀ s e, A e → P s →
      μ s + (if gain (s, e) then 1 else 0) = (if loss (s, e) then 1 else 0) + μ (step s e)) :
    ∀ {es : List ε} {s : σ}, (∀ e ∈ es, A e) → P s →
      μ s + (stages step s es).countP gain = (stages step s es).countP loss + μ (run step s es) := by
  intro es
  induction es with
  | nil => exact fun _ _ => (Nat.zero_add _).symm
  | cons e es ih =>
    intro s hA hs
    have hAe := hA e List.mem_cons_self
    have hone := hμ s e hAe hs
    have hrest := ih (fun f hf => hA f (List.mem_cons_of_mem e hf)) (hP s e hAe hs)
    rw [run_cons, stages, List.countP_cons, List.countP_cons]
    omega

/-- Countdown.  While `Busy`, allowed events that are no ticks keep the count `μ`
and a tick lowers it by one as long as it is above one.  Then a run has fewer
ticks than the count and is still counting, or it passes through a tick that is
taken `Busy` with the count at one. -/
theorem run_countdown (Busy : σ → Prop) (μ : σ → ℕ) (tick : σ × ε → Bool) {A : ε → Prop}
    (hkeep : ∀ s e, A e → Busy s → tick (s, e) = false → Busy (step s e) ∧ μ (step s e) = μ s)
    (htick : ∀ s e, A e → Busy s → tick (s, e) = true → 1 < μ s →
      Busy (step s e) ∧ μ (step s e) + 1 = μ s) :
    ∀ {es : List ε} {s : σ}, (∀ e ∈ es, A e) → Busy s → 0 < μ s →
      ((stages step s es).countP tick < μ s ∧ Busy (run step s es) ∧
        μ (run step s es) + (stages step s es).countP tick = μ s) ∨
      ∃ pre e post, es = pre ++ e :: post ∧ tick (run step s pre, e) = true ∧
        (stages step s pre).countP tick + 1 = μ s ∧ Busy (run step s pre) ∧
        μ (run step s pre) = 1 := by
  intro es
  induction es with
  | nil => exact fun _ hs hpos => Or.inl ⟨hpos, hs, rfl⟩
  | cons e es ih =>
    intro s hA hs hpos
    have hAe := hA e List.mem_cons_self
    have hAes : ∀ f ∈ es, A f := fun f hf => hA f (List.mem_cons_of_mem e hf)
    rw [run_cons]
    by_cases hone : tick (s, e) = true ∧ μ s = 1
    · exact Or.inr ⟨[], e, es, rfl, hone.1, by simp [stages, hone.2], hs, hone.2⟩
    · -- the event leaves the machine busy, with the count lowered if it is a tick
      have hnext : Busy (step s e) ∧ μ (step s e) + (if tick (s, e) then 1 else 0) = μ s := by
        cases ht : tick (s, e) with
        | false => simpa using hkeep s e hAe hs ht
        | true =>
          have hlt : 1 < μ s := by
            have hne : μ s ≠ 1 := fun h1 => hone ⟨ht, h1⟩
            omega
          simpa using htick s e hAe hs ht hlt
      obtain ⟨hb, hμ⟩ := hnext
      have hpos' : 0 < μ (step s e) := by
        cases ht : tick (s, e) with
        | false => simp [ht] at hμ; omega
        | true =>
          have hne : μ s ≠ 1 := fun h1 => hone ⟨ht, h1⟩
          simp [ht] at hμ; omega
      rcases ih hAes hb hpos' with ⟨hlt, hbusy, hsum⟩ | ⟨pre, t, post, rfl, ht, hcount, hbusy, h1⟩
      · refine Or.inl ⟨?_, hbusy, ?_⟩ <;> rw [stages, List.countP_cons] <;> omega
      · refine Or.inr ⟨e :: pre, t, post, rfl, ht, ?_, hbusy, h1⟩
        rw [stages, List.countP_cons]
        omega

/-- Clock.  A relation to the number of ticks that every allowed event keeps, a tick with the
next number, holds after every run with the number of its ticks. -/
theorem run_clock (tick : ε → Bool) {R : ℕ → σ → Prop} {A : ε → Prop}
    (hkeep : ∀ k s e, A e → R k s → tick e = false → R k (step s e))
    (htick : ∀ k s e, A e → R k s → tick e = true → R (k + 1) (step s e)) :
    ∀ {es : List ε} {s : σ} {k : ℕ}, (∀ e ∈ es, A e) → R k s →
      R (k + es.countP tick) (run step s es) := by
  intro es
  induction es with
  | nil => exact fun _ hs => hs
  | cons e es ih =>
    intro s k hA hs
    have hAes : ∀ f ∈ es, A f := fun f hf => hA f (List.mem_cons_of_mem e hf)
    rw [run_cons, List.countP_cons]
    cases ht : tick e with
    | false => exact ih hAes (hkeep k s e (hA e List.mem_cons_self) hs ht)
    | true =>
      have hnext := ih hAes (htick k s e (hA e List.mem_cons_self) hs ht)
      rwa [add_assoc, add_comm 1] at hnext

/-- A kind of ticks that the number of a tick decides is counted by any function that grows
with it. -/
theorem run_clock_count (tick : ε → Bool) (p : σ × ε → Bool) (c : ℕ → ℕ) {R : ℕ → σ → Prop}
    {A : ε → Prop} (hkeep : ∀ k s e, A e → R k s → tick e = false → R k (step s e))
    (htick : ∀ k s e, A e → R k s → tick e = true → R (k + 1) (step s e))
    (hother : ∀ s e, tick e = false → p (s, e) = false)
    (hc : ∀ k s e, A e → R k s → tick e = true → c (k + 1) = c k + if p (s, e) then 1 else 0) :
    ∀ {es : List ε} {s : σ} {k : ℕ}, (∀ e ∈ es, A e) → R k s →
      c k + (stages step s es).countP p = c (k + es.countP tick) := by
  intro es
  induction es with
  | nil => exact fun _ _ => rfl
  | cons e es ih =>
    intro s k hA hs
    have hAe := hA e List.mem_cons_self
    have hAes : ∀ f ∈ es, A f := fun f hf => hA f (List.mem_cons_of_mem e hf)
    rw [stages, List.countP_cons, List.countP_cons]
    cases ht : tick e with
    | false =>
      have hnext := ih hAes (hkeep k s e hAe hs ht)
      rw [hother s e ht]
      exact hnext
    | true =>
      have hnext := ih hAes (htick k s e hAe hs ht)
      rw [hc k s e hAe hs ht, add_assoc k, add_comm 1] at hnext
      rw [if_pos rfl, ← hnext]
      omega

/-- What a first cut loses, a second one at the same length would lose as well. -/
theorem take_append_cut {β : Type*} (xs ys : List β) (n : ℕ) :
    (xs.take n ++ ys).take n = (xs ++ ys).take n := by
  rw [List.take_append, List.take_append, List.take_take, min_self, List.length_take]
  congr 2
  omega

/-! ### Runs with conditions on their stages -/

section Stages

variable {P : σ → Prop} {C : σ × ε → Prop} (hP : ∀ s e, C (s, e) → P s → P (step s e))

include hP

/-- What every allowed stage preserves holds at every stage and after the run. -/
theorem stages_invariant : ∀ {es : List ε} {s : σ}, (∀ x ∈ stages step s es, C x) → P s →
    P (run step s es) ∧ ∀ x ∈ stages step s es, P x.1 := by
  intro es
  induction es with
  | nil => exact fun _ hs => ⟨hs, fun x hx => absurd hx List.not_mem_nil⟩
  | cons e es ih =>
    intro s hC hs
    rw [stages, List.forall_mem_cons] at hC ⊢
    obtain ⟨hend, hall⟩ := ih hC.2 (hP s e hC.1 hs)
    exact ⟨hend, hs, hall⟩

/-- Conservation.  If every stage moves elements in at the end of what is held and out at its
head, then what came in is what went out and what is still held, in order. -/
theorem run_flow {β : Type*} (held : σ → List β) (ins outs : σ × ε → List β)
    (hflow : ∀ s e, C (s, e) → P s → held s ++ ins (s, e) = outs (s, e) ++ held (step s e)) :
    ∀ {es : List ε} {s : σ}, (∀ x ∈ stages step s es, C x) → P s →
      held s ++ (stages step s es).flatMap ins =
        (stages step s es).flatMap outs ++ held (run step s es) := by
  intro es
  induction es with
  | nil => exact fun _ _ => List.append_nil _
  | cons e es ih =>
    intro s hC hs
    rw [stages, List.forall_mem_cons] at hC
    rw [stages, List.flatMap_cons, List.flatMap_cons, ← List.append_assoc, hflow s e hC.1 hs,
      List.append_assoc, ih hC.2 (hP s e hC.1 hs), run_cons, List.append_assoc]

/-- If some of it may get lost, what went out and is still held is a subsequence of what came
in. -/
theorem run_leak {β : Type*} (held : σ → List β) (ins outs : σ × ε → List β)
    (hflow : ∀ s e, C (s, e) → P s →
      (outs (s, e) ++ held (step s e)).Sublist (held s ++ ins (s, e))) :
    ∀ {es : List ε} {s : σ}, (∀ x ∈ stages step s es, C x) → P s →
      ((stages step s es).flatMap outs ++ held (run step s es)).Sublist
        (held s ++ (stages step s es).flatMap ins) := by
  intro es
  induction es with
  | nil =>
    intro s _ _
    rw [stages, List.flatMap_nil, List.flatMap_nil, List.append_nil]
    exact List.Sublist.refl _
  | cons e es ih =>
    intro s hC hs
    rw [stages, List.forall_mem_cons] at hC
    have hrest := ih hC.2 (hP s e hC.1 hs)
    rw [stages, List.flatMap_cons, List.flatMap_cons, run_cons, List.append_assoc,
      ← List.append_assoc (held s)]
    refine ((List.Sublist.refl (outs (s, e))).append hrest).trans ?_
    rw [← List.append_assoc]
    exact (hflow s e hC.1 hs).append (List.Sublist.refl _)

/-- A value that a stage sets to the last of its outputs, or keeps if it has none, is the last
output of the run. -/
theorem run_last {β : Type*} (value : σ → β) (outs : σ × ε → List β)
    (hstep : ∀ s e, C (s, e) → P s →
      value (step s e) = (outs (s, e)).getLast?.getD (value s)) :
    ∀ {es : List ε} {s : σ}, (∀ x ∈ stages step s es, C x) → P s →
      value (run step s es) = ((stages step s es).flatMap outs).getLast?.getD (value s) := by
  intro es
  induction es with
  | nil => exact fun _ _ => rfl
  | cons e es ih =>
    intro s hC hs
    rw [stages, List.forall_mem_cons] at hC
    rw [stages, List.flatMap_cons, run_cons, ih hC.2 (hP s e hC.1 hs), hstep s e hC.1 hs,
      List.getLast?_append]
    cases ((stages step (step s e) es).flatMap outs).getLast? <;> rfl

/-- A queue of bounded length.  If the events `p` append a chunk to it, up to `cap`, and the
others keep it, then a run appends the chunks one after the other, up to `cap`. -/
theorem run_fill {β : Type*} (queue : σ → List β) (p : σ × ε → Bool) (chunk : σ × ε → List β)
    (cap : ℕ) (hkeep : ∀ s e, C (s, e) → P s → p (s, e) = false → queue (step s e) = queue s)
    (hput : ∀ s e, C (s, e) → P s → p (s, e) = true →
      queue (step s e) = (queue s ++ chunk (s, e)).take cap) :
    ∀ {es : List ε} {s : σ}, (∀ x ∈ stages step s es, C x) → P s → (queue s).length ≤ cap →
      queue (run step s es) =
        (queue s ++ ((stages step s es).filter p).flatMap chunk).take cap := by
  intro es
  induction es with
  | nil =>
    intro s _ _ hlen
    rw [run_nil, stages, List.filter_nil, List.flatMap_nil, List.append_nil,
      List.take_of_length_le hlen]
  | cons e es ih =>
    intro s hC hs hlen
    rw [stages, List.forall_mem_cons] at hC
    have hnext := ih hC.2 (hP s e hC.1 hs)
    rw [run_cons, stages]
    cases hp : p (s, e) with
    | false =>
      have hq := hkeep s e hC.1 hs hp
      rw [List.filter_cons_of_neg (by simp [hp]), hnext (by rw [hq]; exact hlen), hq]
    | true =>
      -- what is cut off here would be cut off at the end anyway
      have hq := hput s e hC.1 hs hp
      have hshort : (queue (step s e)).length ≤ cap := by
        rw [hq, List.length_take]
        exact min_le_left _ _
      rw [List.filter_cons_of_pos hp, List.flatMap_cons, hnext hshort, hq, take_append_cut,
        List.append_assoc]

/-- A queue taken from.  If the events `p` remove `n` from its head, handing them out as
long as there are that many, and the others keep it, then a run that removes no more than
the queue holds hands out its head, cut whichever way. -/
theorem run_drain {β : Type*} (queue : σ → List β) (p : σ × ε → Bool) (n : σ × ε → ℕ)
    (chunk : σ × ε → List β)
    (hkeep : ∀ s e, C (s, e) → P s → p (s, e) = false → queue (step s e) = queue s)
    (hget : ∀ s e, C (s, e) → P s → p (s, e) = true → queue (step s e) = (queue s).drop (n (s, e)) ∧
      (n (s, e) ≤ (queue s).length → chunk (s, e) = (queue s).take (n (s, e)))) :
    ∀ {es : List ε} {s : σ}, (∀ x ∈ stages step s es, C x) → P s →
      (((stages step s es).filter p).map n).sum ≤ (queue s).length →
      ((stages step s es).filter p).flatMap chunk =
          (queue s).take (((stages step s es).filter p).map n).sum ∧
        queue (run step s es) = (queue s).drop (((stages step s es).filter p).map n).sum := by
  intro es
  induction es with
  | nil => exact fun _ _ _ => ⟨(List.take_zero).symm, (List.drop_zero).symm⟩
  | cons e es ih =>
    intro s hC hs
    rw [stages, List.forall_mem_cons] at hC
    have hnext := ih hC.2 (hP s e hC.1 hs)
    rw [run_cons, stages]
    cases hp : p (s, e) with
    | false =>
      have hq := hkeep s e hC.1 hs hp
      rw [hq] at hnext
      rw [List.filter_cons_of_neg (by simp [hp])]
      exact hnext
    | true =>
      obtain ⟨hq, hchunk⟩ := hget s e hC.1 hs hp
      rw [List.filter_cons_of_pos hp, List.map_cons, List.sum_cons, List.flatMap_cons]
      intro hle
      rw [hq, List.length_drop] at hnext
      obtain ⟨hout, hend⟩ := hnext (by omega)
      rw [hchunk (by omega), hout, hend, List.take_add, List.drop_drop]
      exact ⟨rfl, rfl⟩

/-- A value that the stages not in `touches` keep: what a stage in `leaves` left is there after
the run, if no later stage touches it. -/
theorem run_kept {β : Type*} (value : σ → β) (leaves touches : σ × ε → Prop)
    (hkeep : ∀ s e, C (s, e) → P s → ¬ touches (s, e) → value (step s e) = value s) :
    ∀ {es : List ε} {s : σ}, (∀ x ∈ stages step s es, C x) → P s →
      (stages step s es).Pairwise (fun x y => leaves x → ¬ touches y) →
      ∀ x ∈ stages step s es, leaves x → value (run step s es) = value (step x.1 x.2) := by
  -- untouched to the end of a run
  have hrest : ∀ {es : List ε} {s : σ}, (∀ x ∈ stages step s es, C x) → P s →
      (∀ x ∈ stages step s es, ¬ touches x) → value (run step s es) = value s := by
    intro es
    induction es with
    | nil => exact fun _ _ _ => rfl
    | cons e es ih =>
      intro s hC hs hno
      rw [stages, List.forall_mem_cons] at hC hno
      rw [run_cons, ih hC.2 (hP s e hC.1 hs) hno.2, hkeep s e hC.1 hs hno.1]
  intro es
  induction es with
  | nil => exact fun _ _ _ x hx => absurd hx List.not_mem_nil
  | cons e es ih =>
    intro s hC hs hpair
    rw [stages, List.forall_mem_cons] at hC
    rw [stages, List.pairwise_cons] at hpair
    rw [stages, List.forall_mem_cons, run_cons]
    refine ⟨fun hleaves => ?_, ih hC.2 (hP s e hC.1 hs) hpair.2⟩
    exact hrest hC.2 (hP s e hC.1 hs) fun y hy => hpair.1 y hy hleaves

end Stages

/-! ### Clients -/

section Clients

variable {α κ : Type*} (op : σ → ε → α × σ) (call : κ → ε) (next : κ → α → κ)

/-- A client picks each operation by its own state, and moves on by the answer. -/
def round (x : κ × σ) : κ × σ :=
  let r := op x.2 (call x.1)
  (next x.1 r.1, r.2)

/-- A change of the state that no operation notices is noticed by no client. -/
theorem round_transparent (init : σ → σ)
    (hop : ∀ s e, ((op s e).1, init (op s e).2) = op (init s) e) :
    Function.Semiconj (Prod.map id init) (round op call next) (round op call next) := fun x => by
  have hone := hop x.2 (call x.1)
  show (next x.1 (op x.2 (call x.1)).1, init (op x.2 (call x.1)).2) =
    (next x.1 (op (init x.2) (call x.1)).1, (op (init x.2) (call x.1)).2)
  rw [← hone]

end Clients

end Runs
