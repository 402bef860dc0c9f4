/-
Two runs of one machine.

Some events are visible.  Two runs with the same visible events in the same
order, and any others in between, give the same outputs at the visible ones,
once a relation between the two states satisfies the unwinding conditions: an
invisible event on either side keeps it, a visible event on both sides keeps it
and gives the same output.

* `Unwinding.invisible` — a run of invisible events on the right;
* `Unwinding.runs` — the two runs;
* `Unwinding.lockstep` — the case where every event is visible.
-/
import VlabSoc.Runs

namespace Runs

variable {σ ε β : Type*}

/-- The outputs of a run at its visible events, in order. -/
def outputs (step : σ → ε → σ) (vis : ε → Bool) (out : σ → ε → β) (s : σ) (es : List ε) : List β :=
  ((stages step s es).filter fun x => vis x.2).map fun x => out x.1 x.2

/-- The unwinding conditions of a relation `L`, for states with the invariant `P`
and events of the kind `A`. -/
structure Unwinding (step : σ → ε → σ) (vis : ε → Bool) (out : σ → ε → β) (A : ε → Prop)
    (P : σ → Prop) (L : σ → σ → Prop) : Prop where
  inv : ∀ {s e}, A e → P s → P (step s e)
  left : ∀ {s t e}, A e → vis e = false → P s → P t → L s t → L (step s e) t
  right : ∀ {s t e}, A e → vis e = false → P s → P t → L s t → L s (step t e)
  both : ∀ {s t e}, A e → vis e = true → P s → P t → L s t → L (step s e) (step t e)
  out_eq : ∀ {s t e}, A e → vis e = true → P s → P t → L s t → out s e = out t e

variable {step : σ → ε → σ} {vis : ε → Bool} {out : σ → ε → β} {A : ε → Prop} {P : σ → Prop}
  {L : σ → σ → Prop}

theorem outputs_cons (s : σ) (e : ε) (es : List ε) :
    outputs step vis out s (e :: es) =
      if vis e then out s e :: outputs step vis out (step s e) es
      else outputs step vis out (step s e) es := by
  unfold outputs
  rw [stages, List.filter_cons]
  dsimp only
  split_ifs
  · rfl
  · rfl

theorem outputs_all (s : σ) (es : List ε) :
    outputs step (fun _ => true) out s es =
      (stages step s es).map fun x => out x.1 x.2 := by
  rw [outputs, List.filter_true]

/-- Events that are all invisible give no output. -/
theorem outputs_append_of_invisible {pre : List ε} (hpre : ∀ e ∈ pre, vis e = false) (s : σ)
    (es : List ε) :
    outputs step vis out s (pre ++ es) = outputs step vis out (run step s pre) es := by
  induction pre generalizing s with
  | nil => rfl
  | cons e pre ih =>
    have he := hpre e List.mem_cons_self
    rw [List.cons_append, outputs_cons, he, if_neg Bool.false_ne_true, run_cons]
    exact ih (fun f hf => hpre f (List.mem_cons_of_mem e hf)) (step s e)

/-- A run of invisible events on the right keeps the relation. -/
theorem Unwinding.invisible (h : Unwinding step vis out A P L) {fs : List ε}
    (hA : ∀ e ∈ fs, A e) (hvis : ∀ e ∈ fs, vis e = false) {s t : σ} (hs : P s) (ht : P t)
    (hL : L s t) : P (run step t fs) ∧ L s (run step t fs) := by
  have hboth : ∀ e ∈ fs, A e ∧ vis e = false := fun e he => ⟨hA e he, hvis e he⟩
  exact run_invariant step (P := fun u => P u ∧ L s u) (A := fun e => A e ∧ vis e = false)
    (fun u e he hu => ⟨h.inv he.1 hu.1, h.right he.1 he.2 hs hu.1 hu.2⟩) hboth ⟨ht, hL⟩

/-- Two runs with the same visible events give the same outputs there, and end in
related states. -/
theorem Unwinding.runs (h : Unwinding step vis out A P L) :
    ∀ {es fs : List ε} {s t : σ}, (∀ e ∈ es, A e) → (∀ e ∈ fs, A e) →
      es.filter vis = fs.filter vis → P s → P t → L s t →
      outputs step vis out s es = outputs step vis out t fs ∧
        L (run step s es) (run step t fs) := by
  intro es
  induction es with
  | nil =>
    intro fs s t _ hfs heq hs ht hL
    have hvis : ∀ e ∈ fs, vis e = false := by
      intro e he
      rw [List.filter_nil, eq_comm, List.filter_eq_nil_iff] at heq
      simpa using heq e he
    have hout : outputs step vis out t (fs ++ []) = [] := outputs_append_of_invisible hvis t []
    rw [List.append_nil] at hout
    exact ⟨hout.symm, (h.invisible hfs hvis hs ht hL).2⟩
  | cons e es ih =>
    intro fs s t hes hfs heq hs ht hL
    have hAe := hes e List.mem_cons_self
    have hAes : ∀ f ∈ es, A f := fun f hf => hes f (List.mem_cons_of_mem e hf)
    rw [outputs_cons, run_cons]
    cases hv : vis e with
    | false =>
      -- the left run goes on alone
      rw [List.filter_cons_of_neg (by rw [hv]; exact Bool.false_ne_true)] at heq
      rw [if_neg Bool.false_ne_true]
      exact ih hAes hfs heq (h.inv hAe hs) ht (h.left hAe hv hs ht hL)
    | true =>
      -- the right run catches up with the same event
      rw [List.filter_cons_of_pos hv, eq_comm, List.filter_eq_cons_iff] at heq
      obtain ⟨pre, post, rfl, hpre, -, hrest⟩ := heq
      have hvis : ∀ f ∈ pre, vis f = false := fun f hf => by simpa using hpre f hf
      have hApre : ∀ f ∈ pre, A f := fun f hf => hfs f (List.mem_append_left _ hf)
      have hApost : ∀ f ∈ post, A f := fun f hf =>
        hfs f (List.mem_append_right _ (List.mem_cons_of_mem e hf))
      obtain ⟨hu, hLu⟩ := h.invisible hApre hvis hs ht hL
      obtain ⟨hout, hend⟩ := ih hAes hApost hrest.symm (h.inv hAe hs) (h.inv hAe hu)
        (h.both hAe hv hs hu hLu)
      rw [outputs_append_of_invisible hvis, outputs_cons, hv, if_pos rfl, if_pos rfl,
        h.out_eq hAe hv hs hu hLu, hout, run_append, run_cons]
      exact ⟨rfl, hend⟩

/-- Two runs of the same events, all visible. -/
theorem Unwinding.lockstep (h : Unwinding step (fun _ => true) out A P L) {es : List ε} {s t : σ}
    (hes : ∀ e ∈ es, A e) (hs : P s) (ht : P t) (hL : L s t) :
    ((stages step s es).map fun x => out x.1 x.2) =
        (stages step t es).map (fun x => out x.1 x.2) ∧
      L (run step s es) (run step t es) := by
  have hruns := h.runs hes hes rfl hs ht hL
  rw [outputs_all, outputs_all] at hruns
  exact hruns

end Runs
