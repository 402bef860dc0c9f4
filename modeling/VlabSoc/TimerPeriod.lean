/-
The running timer in closed form.

While nothing writes CTRL or LOAD and nothing resets, the timer of a wired SoC is changed
by ticks and by the writes that clear FIRED (`SocWired.apply_timer`): a reloading counter
if it is periodic, a counter that ends once otherwise.
-/
import VlabSoc.Countdown
import VlabSoc.DmaFlight
import VlabSoc.TimerRuns

namespace VlabSoc

open Countdown (Ends)

/-! ### Events that spare the timer -/

/-- Everything but resets, boots and writes to CTRL and LOAD. -/
def SocEvent.sparesTimer : SocEvent → Prop
  | .write addr _ => addr ≠ vlabTimerCtrl ∧ addr ≠ vlabTimerLoad
  | .resetPeripherals => False
  | .boot _ _ => False
  | _ => True

theorem isTick_iff {e : SocEvent} : e.isTick = true ↔ e = .tick := by
  cases e <;> simp [SocEvent.isTick]

/-- A write that clears FIRED. -/
def SocEvent.clearsFired : SocEvent → Prop
  | .write addr value =>
    (addr = vlabTimerIrqStatus ∨ addr = vlabTimerIrqClear) ∧ value &&& socTimerIrqFired ≠ 0
  | _ => False

/-- A write to the timer is a register write, at an aligned address of its window. -/
theorem SocWired.write_timer_cases {s : Soc} (h : SocWired s) (addr value : Word) :
    (addr % 4 = 0 ∧ InWindow vlabTimerBase 4096 addr ∧ (socWrite s addr value).soc.timer =
        (socTimerWrite s.timer (addr - vlabTimerBase) value).2) ∨
      (¬ (addr % 4 = 0 ∧ InWindow vlabTimerBase 4096 addr) ∧
        (socWrite s addr value).soc.timer = s.timer) := by
  by_cases h4 : addr % 4 = 0
  · by_cases hw : InWindow vlabTimerBase 4096 addr
    · exact Or.inl ⟨h4, hw, congrArg Prod.snd (h.write_timer h4 hw value).2⟩
    · have hroute : socRoute s addr ≠ 3 := by
        by_cases hu : InWindow vlabUartBase 4096 addr
        · rw [(h.route_front h4).1 hu]
          decide
        · exact ((h.route_front h4).2.2 fun h0 => h0.elim hu hw).2
      obtain ⟨-, perf, hsoc⟩ := socWrite_switch s value h4
      refine Or.inr ⟨fun h0 => hw h0.2, ?_⟩
      rw [hsoc]
      show (socWriteSwitch _ _ addr value).soc.timer = _
      -- only the TIMER branch of the switch writes to it
      unfold socWriteSwitch
      split
      case h_4 hkind => exact absurd hkind hroute
      all_goals rfl
  · exact Or.inr ⟨fun h0 => h4 h0.1, by rw [socWrite_misaligned s value h4]⟩

theorem socTimerWrite_fired (t : SocTimer) (offset value : Word) :
    (socTimerWrite t offset value).2.Fired ↔
      t.Fired ∧ ¬ ((offset = 0x0C ∨ offset = 0x10) ∧ value &&& socTimerIrqFired ≠ 0) := by
  have hclear : (t.clearFired value).Fired ↔ t.Fired ∧ ¬ value &&& socTimerIrqFired ≠ 0 := by
    unfold SocTimer.clearFired
    split_ifs with hv
    · exact iff_of_false (fun hf => hf (bit_cleared t.irqStatus _)) fun h0 => h0.2 hv
    · exact (and_iff_left hv).symm
  unfold socTimerWrite
  split
  case h_1 =>
    refine Iff.trans ?_ (and_iff_left fun h0 => absurd h0.1 (by decide)).symm
    dsimp only
    split_ifs <;> rfl
  case h_2 => exact (and_iff_left fun h0 => absurd h0.1 (by decide)).symm
  case h_3 => exact hclear.trans (and_congr_right' (not_congr (and_iff_right (Or.inl rfl)).symm))
  case h_4 => exact hclear.trans (and_congr_right' (not_congr (and_iff_right (Or.inr rfl)).symm))
  case h_5 hC h10 => exact (and_iff_left fun h0 => h0.1.elim hC h10).symm

/-- An event that spares the timer and is no tick: it may clear FIRED. -/
theorem SocWired.apply_timer_spared {s : Soc} (h : SocWired s) {e : SocEvent}
    (he : e.sparesTimer) (ht : e.isTick = false) :
    (socApply s e).timer = { s.timer with irqStatus := (socApply s e).timer.irqStatus } ∧
      ((socApply s e).timer.Fired ↔ s.timer.Fired ∧ ¬ e.clearsFired) := by
  have hkeep : ∀ f : SocEvent, (socApply s f).timer = s.timer → ¬ f.clearsFired →
      (socApply s f).timer = { s.timer with irqStatus := (socApply s f).timer.irqStatus } ∧
        ((socApply s f).timer.Fired ↔ s.timer.Fired ∧ ¬ f.clearsFired) := fun f hsame hno => by
    rw [hsame]
    exact ⟨rfl, (and_iff_left hno).symm⟩
  cases e with
  | read addr out => exact hkeep _ (by rw [socApply, socRead_frame]) id
  | write addr value =>
    rcases h.write_timer_cases addr value with ⟨-, -, heq⟩ | ⟨hout, heq⟩
    · have h0 : addr - vlabTimerBase ≠ 0x00 := fun h0 =>
        he.1 ((BitVec.sub_eq_iff_eq_add.mp h0).trans (by decide))
      have h4 : addr - vlabTimerBase ≠ 0x04 := fun h4 =>
        he.2 ((BitVec.sub_eq_iff_eq_add.mp h4).trans (by decide))
      have hclears : (addr - vlabTimerBase = 0x0C ∨ addr - vlabTimerBase = 0x10) ∧
          value &&& socTimerIrqFired ≠ 0 ↔ (SocEvent.write addr value).clearsFired := by
        rw [BitVec.sub_eq_iff_eq_add, BitVec.sub_eq_iff_eq_add]
        exact Iff.rfl
      rw [socApply, heq]
      refine ⟨?_, by rw [socTimerWrite_fired, hclears]⟩
      have hframe := socTimerWrite_other s.timer h0 value
      rwa [if_neg h4] at hframe
    · refine hkeep _ heq fun hc => hout ?_
      rcases hc.1 with rfl | rfl
      · decide
      · decide
  | tick => exact absurd ht (by decide)
  | resetPeripherals => exact absurd he id
  | boot romWords nwords => exact absurd he id
  | raise line => exact hkeep _ rfl id
  | uartStuck b => exact hkeep _ rfl id
  | dmaStuck b => exact hkeep _ rfl id

theorem SocWired.tick_timer {s : Soc} (h : SocWired s) :
    (socTick s).timer = (socTimerStep s.timer).1 := congrArg Prod.snd h.tick_front

theorem socTimerStep_fired (t : SocTimer) :
    (socTimerStep t).1.Fired ↔ timerFires t = true ∨ t.Fired := by
  rcases socTimerStep_cases t with ⟨-, hno, heq⟩ | ⟨-, -, hno, heq⟩ | ⟨-, -, hyes, heq⟩
  · rw [heq, hno]
    exact (or_iff_right Bool.false_ne_true).symm
  · rw [heq, hno]
    exact (or_iff_right Bool.false_ne_true).symm
  · rw [heq, hyes]
    exact iff_of_true t.expired_fired (Or.inl rfl)

/-! ### Line 1 -/

/-- The engine raises its own line only. -/
theorem SocWired.tick_dmaRaises {s : Soc} (h : SocWired s) {l : Int}
    (hl : l ∈ dmaRaises s .tick) : l = socIrqDma := by
  by_cases hbusy : s.dma.busy = true
  · rcases h.flight_cases hbusy (e := .tick) trivial with ⟨-, -, heq⟩ | ⟨-, -, -, heq⟩ |
      ⟨-, -, -, -, heq⟩
    · rw [heq] at hl
      exact absurd hl List.not_mem_nil
    · rw [heq] at hl
      exact absurd hl List.not_mem_nil
    · rw [heq, h.dma_irq] at hl
      split_ifs at hl
      · exact List.mem_singleton.mp hl
      · exact absurd hl List.not_mem_nil
  · rw [dmaRaises, socDmaStep_idle (d := (socTickFront s).dma)
      (Or.inl (Bool.eq_false_iff.mpr hbusy))] at hl
    exact absurd hl List.not_mem_nil

/-- A tick raises line 1 when the timer fires with its interrupt enabled. -/
theorem SocWired.tick_raises_timer {s : Soc} (h : SocWired s) :
    socTimerIrqLine ∈ socRaises s .tick ↔ timerFires s.timer = true ∧ s.timer.IrqEnabled := by
  have huart : socTimerIrqLine ∉ (socUartStep s.uart).2 := fun h0 =>
    absurd (socUartStep_raises h0) (by decide)
  have hdma : socTimerIrqLine ∉ dmaRaises s .tick := fun h0 =>
    absurd (h.tick_dmaRaises h0) (by decide)
  rw [socRaises, List.mem_append, List.mem_append, or_iff_right huart, or_iff_left hdma]
  rcases socTimerStep_cases s.timer with ⟨-, hno, heq⟩ | ⟨-, -, hno, heq⟩ | ⟨-, -, hyes, heq⟩
  · rw [heq, hno]
    simp
  · rw [heq, hno]
    simp
  · rw [heq, hyes]
    dsimp only
    split_ifs with hirq <;> simp [hirq]

/-! ### What a run keeps -/

/-- The part of the timer that neither ticks nor spared events change. -/
structure SameSetup (t u : SocTimer) : Prop where
  load : u.load = t.load
  periodic : u.Periodic ↔ t.Periodic
  irqEnabled : u.IrqEnabled ↔ t.IrqEnabled

theorem SocTimer.expired_setup (t : SocTimer) : SameSetup t t.expired := by
  have hbit : ∀ b : Word, ~~~socTimerCtrlEnable &&& b = b →
      t.expired.ctrl &&& b = t.ctrl &&& b := fun b hb => by
    show (if t.Periodic then t.ctrl else t.ctrl &&& ~~~socTimerCtrlEnable) &&& b = _
    split_ifs
    · rfl
    · rw [BitVec.and_assoc, hb]
  refine ⟨rfl, ?_, ?_⟩
  · rw [SocTimer.Periodic, SocTimer.Periodic, hbit _ (by decide)]
  · rw [SocTimer.IrqEnabled, SocTimer.IrqEnabled, hbit _ (by decide)]

theorem socTimerStep_setup (t : SocTimer) : SameSetup t (socTimerStep t).1 := by
  rcases socTimerStep_cases t with ⟨-, -, heq⟩ | ⟨-, -, -, heq⟩ | ⟨-, -, -, heq⟩
  · rw [heq]
    exact ⟨rfl, Iff.rfl, Iff.rfl⟩
  · rw [heq]
    exact ⟨rfl, Iff.rfl, Iff.rfl⟩
  · rw [heq]
    exact t.expired_setup

/-- The condition under which a run is followed: a wired SoC, the setup of `t`, and a timer
that has something to count if it is enabled. -/
structure TimerRunning (t : SocTimer) (s : Soc) : Prop where
  wired : SocWired s
  setup : SameSetup t s.timer
  counts : s.timer.Enabled → 0 < s.timer.value

section Run

variable {t : SocTimer} (hload : 0 < t.load)

include hload

theorem TimerRunning.counts_iff {s : Soc} (h : TimerRunning t s) :
    s.timer.Counts ↔ s.timer.Enabled :=
  and_iff_left (by rw [h.setup.load]; exact hload)

/-- A tick of a timer that is enabled. -/
theorem TimerRunning.step {s : Soc} (h : TimerRunning t s) (hen : s.timer.Enabled) :
    (timerFires s.timer = true ↔ s.timer.value = 1) ∧
      (s.timer.value ≠ 1 → socTimerStep s.timer = ({ s.timer with value := s.timer.value - 1 }, [])) ∧
      (s.timer.value = 1 → (socTimerStep s.timer).1 = s.timer.expired) := by
  have hr := (h.counts_iff hload).mpr hen
  have hpos := h.counts hen
  rw [timerFires_iff, and_iff_right hr]
  refine ⟨by bv_omega, fun hne => socTimerStep_count hr (by bv_omega), fun hone => ?_⟩
  rw [socTimerStep_expire hr (by bv_omega)]

theorem TimerRunning.apply {s : Soc} (h : TimerRunning t s) {e : SocEvent} (he : e.sparesTimer) :
    TimerRunning t (socApply s e) := by
  cases ht : e.isTick with
  | false =>
    obtain ⟨heq, -⟩ := h.wired.apply_timer_spared he ht
    refine ⟨h.wired.apply e, ?_, ?_⟩
    · rw [heq]
      exact ⟨h.setup.load, h.setup.periodic, h.setup.irqEnabled⟩
    · rw [heq]
      exact h.counts
  | true =>
    obtain rfl := isTick_iff.mp ht
    have hsetup := socTimerStep_setup s.timer
    refine ⟨h.wired.tick, ?_, ?_⟩
    · rw [socApply, h.wired.tick_timer]
      exact ⟨hsetup.load.trans h.setup.load, hsetup.periodic.trans h.setup.periodic,
        hsetup.irqEnabled.trans h.setup.irqEnabled⟩
    · -- the timer is sound in the sense of its own runs
      have hsound : TimerSound s.timer :=
        (timerSound_iff _).mpr fun hr => h.counts hr.1
      have hnext := (timerApply_sound hsound .tick).mpr id
      rw [socApply, h.wired.tick_timer]
      exact fun hen => hnext.counts hen (by
        show 0 < (socTimerStep s.timer).1.load
        rw [hsetup.load, h.setup.load]
        exact hload)

/-- A periodic timer stays enabled. -/
theorem TimerRunning.apply_periodic (hper : t.Periodic) {s : Soc} (h : TimerRunning t s)
    (hen : s.timer.Enabled) {e : SocEvent} (he : e.sparesTimer) :
    (socApply s e).timer.Enabled ∧
      (e.isTick = false → (socApply s e).timer.value.toNat = s.timer.value.toNat) ∧
      (e.isTick = true → (socApply s e).timer.value.toNat =
        if s.timer.value.toNat = 1 then t.load.toNat else s.timer.value.toNat - 1) := by
  cases ht : e.isTick with
  | false =>
    obtain ⟨heq, -⟩ := h.wired.apply_timer_spared he ht
    rw [heq]
    exact ⟨hen, fun _ => rfl, fun h0 => absurd h0 Bool.false_ne_true⟩
  | true =>
    obtain rfl := isTick_iff.mp ht
    obtain ⟨-, hcount, hend⟩ := h.step hload hen
    have hpos := h.counts hen
    rw [socApply, h.wired.tick_timer]
    by_cases hone : s.timer.value = 1
    · rw [hend hone, hone, SocTimer.expired, if_pos (h.setup.periodic.mpr hper),
        if_pos (h.setup.periodic.mpr hper), h.setup.load]
      exact ⟨hen, fun h0 => absurd h0.symm Bool.false_ne_true, fun _ => rfl⟩
    · rw [hcount hone, if_neg (by bv_omega)]
      exact ⟨hen, fun h0 => absurd h0.symm Bool.false_ne_true, fun _ => by bv_omega⟩

/-- A one-shot timer is enabled until it fires. -/
theorem TimerRunning.apply_single (hper : ¬ t.Periodic) {s : Soc} (h : TimerRunning t s)
    {e : SocEvent} (he : e.sparesTimer) :
    (e.isTick = false → (socApply s e).timer.value.toNat = s.timer.value.toNat ∧
      ((socApply s e).timer.Enabled ↔ s.timer.Enabled)) ∧
    (e.isTick = true → s.timer.Enabled →
      (socApply s e).timer.value.toNat = s.timer.value.toNat - 1 ∧
        ((socApply s e).timer.Enabled ↔ s.timer.value.toNat ≠ 1)) ∧
    (e.isTick = true → ¬ s.timer.Enabled →
      (socApply s e).timer.value.toNat = s.timer.value.toNat ∧ ¬ (socApply s e).timer.Enabled) := by
  cases ht : e.isTick with
  | false =>
    obtain ⟨heq, -⟩ := h.wired.apply_timer_spared he ht
    rw [heq]
    exact ⟨fun _ => ⟨rfl, Iff.rfl⟩, fun h0 => absurd h0 Bool.false_ne_true,
      fun h0 => absurd h0 Bool.false_ne_true⟩
  | true =>
    obtain rfl := isTick_iff.mp ht
    rw [socApply, h.wired.tick_timer]
    refine ⟨fun h0 => absurd h0.symm Bool.false_ne_true, fun _ hen => ?_, fun _ hoff => ?_⟩
    · obtain ⟨-, hcount, hend⟩ := h.step hload hen
      by_cases hone : s.timer.value = 1
      · have hnot : ¬ s.timer.Periodic := mt h.setup.periodic.mp hper
        rw [hend hone, hone, SocTimer.expired, if_neg hnot, if_neg hnot]
        exact ⟨rfl, iff_of_false (not_not.mpr (bit_cleared s.timer.ctrl _)) (by decide)⟩
      · have hpos := h.counts hen
        rw [hcount hone]
        exact ⟨by bv_omega, iff_of_true hen (by bv_omega)⟩
    · rw [socTimerStep_idle fun hr => hoff hr.1]
      exact ⟨rfl, hoff⟩

end Run

/-! ### The closed form -/

/-- The tick on which the timer expires. -/
def timerExpires : Soc × SocEvent → Bool
  | (s, e) => e.isTick && timerFires s.timer

/-- FIRED is a latch. -/
theorem SocWired.apply_fired {s : Soc} (h : SocWired s) {e : SocEvent} (he : e.sparesTimer) :
    (socApply s e).timer.Fired ↔
      timerExpires (s, e) = true ∨ (s.timer.Fired ∧ ¬ e.clearsFired) := by
  rw [timerExpires, Bool.and_eq_true]
  cases ht : e.isTick with
  | false =>
    rw [(h.apply_timer_spared he ht).2]
    exact (or_iff_right fun h0 => Bool.false_ne_true h0.1).symm
  | true =>
    obtain rfl := isTick_iff.mp ht
    rw [socApply, h.tick_timer, socTimerStep_fired]
    exact or_congr (and_iff_right rfl).symm (and_iff_left id).symm

/-- The expiries of a run in whose states `Q` tells whether the timer fires. -/
theorem timerExpires_of_fires {P Q : Soc → Prop} [DecidablePred Q]
    (hP : ∀ t e, e.sparesTimer → P t → P (socApply t e))
    (hfires : ∀ t, P t → (timerFires t.timer = true ↔ Q t)) {s : Soc} {es : List SocEvent}
    (hes : ∀ e ∈ es, e.sparesTimer) (hs : P s) :
    (Runs.stages socApply s es).countP timerExpires =
        (Runs.stages socApply s es).countP (fun x => x.2.isTick && decide (Q x.1)) ∧
      ∀ pre, pre <+: es →
        (timerFires (Runs.run socApply s pre).timer = true ↔ Q (Runs.run socApply s pre)) := by
  obtain ⟨-, hstages⟩ := Runs.stages_invariant socApply (C := fun x => x.2.sparesTimer) hP
    (Runs.forall_stages.mpr hes) hs
  refine ⟨List.countP_congr fun x hx => ?_, fun pre hpre => hfires _ ?_⟩
  · rw [timerExpires, Bool.and_eq_true, Bool.and_eq_true, hfires x.1 (hstages x hx),
      decide_eq_true_iff]
  · exact Runs.run_invariant socApply hP (fun e he => hes e (hpre.subset he)) hs

section ClosedForm

variable {s : Soc} (h : SocWired s) (hr : s.timer.Counts) (hv : 0 < s.timer.value)
  {es : List SocEvent} (hes : ∀ e ∈ es, e.sparesTimer)

include h hr hv hes

theorem periodic_closed_form (hper : s.timer.Periodic) :
    let v := s.timer.value.toNat
    let L := s.timer.load.toNat
    (Runs.run socApply s es).timer.value.toNat = Countdown.left v L (es.countP SocEvent.isTick) ∧
      (Runs.stages socApply s es).countP timerExpires =
        Countdown.ends v L (es.countP SocEvent.isTick) ∧
      ∀ pre, pre <+: es → (timerFires (Runs.run socApply s pre).timer = true ↔
        Ends v L (pre.countP SocEvent.isTick + 1)) := by
  intro v L
  have hstart : TimerRunning s.timer s ∧ s.timer.Enabled :=
    ⟨⟨h, ⟨rfl, Iff.rfl, Iff.rfl⟩, fun _ => hv⟩, hr.1⟩
  have hP : ∀ t e, e.sparesTimer → TimerRunning s.timer t ∧ t.timer.Enabled →
      TimerRunning s.timer (socApply t e) ∧ (socApply t e).timer.Enabled := fun t e he ht =>
    ⟨ht.1.apply hr.2 he, (ht.1.apply_periodic hr.2 hper ht.2 he).1⟩
  have hfires : ∀ t, TimerRunning s.timer t ∧ t.timer.Enabled →
      (timerFires t.timer = true ↔ t.timer.value.toNat = 1) := fun t ht => by
    rw [(ht.1.step hr.2 ht.2).1]
    bv_omega
  obtain ⟨hleft, hcount, hends⟩ := Countdown.run_reloading SocEvent.isTick
    (fun t => t.timer.value.toNat) (L := L) (show 0 < L from hr.2) hP
    (fun t e he ht => (ht.1.apply_periodic hr.2 hper ht.2 he).2.1)
    (fun t e he ht => (ht.1.apply_periodic hr.2 hper ht.2 he).2.2) hes hstart
    (show 0 < v from hv)
  obtain ⟨hexpires, hpre⟩ := timerExpires_of_fires hP hfires hes hstart
  exact ⟨hleft, hexpires.trans hcount, fun pre h0 => (hpre pre h0).trans (hends pre h0)⟩

theorem single_closed_form (hper : ¬ s.timer.Periodic) :
    let v := s.timer.value.toNat
    (Runs.run socApply s es).timer.value.toNat = v - es.countP SocEvent.isTick ∧
      ((Runs.run socApply s es).timer.Enabled ↔ es.countP SocEvent.isTick < v) ∧
      (Runs.stages socApply s es).countP timerExpires =
        (if es.countP SocEvent.isTick < v then 0 else 1) ∧
      ∀ pre, pre <+: es → (timerFires (Runs.run socApply s pre).timer = true ↔
        pre.countP SocEvent.isTick + 1 = v) := by
  intro v
  have hstart : TimerRunning s.timer s := ⟨h, ⟨rfl, Iff.rfl, Iff.rfl⟩, fun _ => hv⟩
  have hP : ∀ t e, e.sparesTimer → TimerRunning s.timer t → TimerRunning s.timer (socApply t e) :=
    fun t e he ht => ht.apply hr.2 he
  have hfires : ∀ t, TimerRunning s.timer t →
      (timerFires t.timer = true ↔ t.timer.Enabled ∧ t.timer.value.toNat = 1) := fun t ht => by
    by_cases hen : t.timer.Enabled
    · rw [(ht.step hr.2 hen).1, and_iff_right hen]
      bv_omega
    · exact iff_of_false (fun h0 => hen (timerFires_iff.mp h0).1.1) fun h0 => hen h0.1
  have hsingle := Countdown.run_single SocEvent.isTick (fun t => t.timer.value.toNat)
    (fun t => t.timer.Enabled) hP (fun t e he ht => (ht.apply_single hr.2 hper he).1)
    (fun t e he ht => (ht.apply_single hr.2 hper he).2.1)
    (fun t e he ht => (ht.apply_single hr.2 hper he).2.2) hes hstart hv hr.1
  obtain ⟨hleft, hon, hcount, hends⟩ := hsingle
  obtain ⟨hexpires, hpre⟩ := timerExpires_of_fires hP hfires hes hstart
  exact ⟨hleft, hon, hexpires.trans hcount, fun pre h0 => (hpre pre h0).trans (hends pre h0)⟩

/-- Line 1 on the ticks of the run. -/
theorem timer_line {t : Soc} (hx : (t, .tick) ∈ Runs.stages socApply s es) :
    socTimerIrqLine ∈ socRaises t .tick ↔ timerFires t.timer = true ∧ s.timer.IrqEnabled := by
  have hstart : TimerRunning s.timer s := ⟨h, ⟨rfl, Iff.rfl, Iff.rfl⟩, fun _ => hv⟩
  obtain ⟨-, hstages⟩ := Runs.stages_invariant socApply (P := TimerRunning s.timer)
    (C := fun x => x.2.sparesTimer) (fun t e he ht => ht.apply hr.2 he)
    (Runs.forall_stages.mpr hes) hstart
  have ht : TimerRunning s.timer t := hstages _ hx
  rw [ht.wired.tick_raises_timer, ht.setup.irqEnabled]

/-- FIRED after the run: it was set, and not cleared since. -/
theorem fired_iff (hfired : ¬ s.timer.Fired) :
    (Runs.run socApply s es).timer.Fired ↔
      ∃ pre post, es = pre ++ .tick :: post ∧
        timerFires (Runs.run socApply s pre).timer = true ∧ ∀ e ∈ post, ¬ e.clearsFired := by
  have hstart : TimerRunning s.timer s := ⟨h, ⟨rfl, Iff.rfl, Iff.rfl⟩, fun _ => hv⟩
  have hlatch := Runs.run_latch socApply (fun t => t.timer.Fired)
    (fun x => timerExpires x = true) (fun x => x.2.clearsFired)
    (fun t e he (ht : TimerRunning s.timer t) => ht.apply hr.2 he)
    (fun t e he ht => ht.wired.apply_fired he) hes hstart
  rw [hlatch, or_iff_right fun h0 => hfired h0.1]
  constructor
  · rintro ⟨pre, e, post, rfl, hset, hnone⟩
    rw [timerExpires, Bool.and_eq_true] at hset
    obtain rfl := isTick_iff.mp hset.1
    exact ⟨pre, post, rfl, hset.2, Runs.forall_stages.mp hnone⟩
  · rintro ⟨pre, post, rfl, hset, hnone⟩
    exact ⟨pre, .tick, post, rfl, hset, Runs.forall_stages.mpr hnone⟩

/-- If nothing clears it, FIRED is set from tick `v` on. -/
theorem fired_quiet_iff (hfired : ¬ s.timer.Fired) (hquiet : ∀ e ∈ es, ¬ e.clearsFired) :
    (Runs.run socApply s es).timer.Fired ↔
      s.timer.value.toNat ≤ es.countP SocEvent.isTick := by
  have hcount : 0 < (Runs.stages socApply s es).countP timerExpires ↔
      s.timer.value.toNat ≤ es.countP SocEvent.isTick := by
    by_cases hper : s.timer.Periodic
    · rw [(periodic_closed_form h hr hv hes hper).2.1, Countdown.ends]
      split_ifs with hlt
      · omega
      · exact iff_of_true (Nat.add_pos_left Nat.one_pos _) (not_lt.mp hlt)
    · rw [(single_closed_form h hr hv hes hper).2.2.1]
      split_ifs <;> omega
  rw [← hcount, List.countP_pos_iff, fired_iff h hr hv hes hfired]
  constructor
  · rintro ⟨pre, post, rfl, hfires, -⟩
    exact ⟨(_, .tick), Runs.mem_stages.mpr ⟨pre, post, rfl, rfl⟩, hfires⟩
  · rintro ⟨⟨t, e⟩, hx, hexp⟩
    obtain ⟨pre, post, rfl, rfl⟩ := Runs.mem_stages.mp hx
    rw [timerExpires, Bool.and_eq_true] at hexp
    obtain rfl := isTick_iff.mp hexp.1
    exact ⟨pre, post, rfl, hexp.2, fun e he =>
      hquiet e (List.mem_append_right pre (List.mem_cons_of_mem _ he))⟩

end ClosedForm

/-- The running timer.  From a state with ENABLE set, LOAD `L > 0`, VALUE `v > 0` and FIRED
clear, over any run that neither writes CTRL or LOAD nor resets, with `n` ticks: a periodic
timer expires at the ticks `v`, `v + L`, `v + 2 L`, ..., a one-shot timer at tick `v` only,
and is disabled from then on; line 1 is raised at each expiry exactly if IRQ_ENABLE is set;
and FIRED is set exactly if there was an expiry since the last write that clears it. -/
theorem timer_closed_form {s : Soc} (h : SocWired s) (hen : s.timer.Enabled)
    (hload : 0 < s.timer.load) (hv : 0 < s.timer.value) (hfired : ¬ s.timer.Fired)
    {es : List SocEvent} (hes : ∀ e ∈ es, e.sparesTimer) :
    let v := s.timer.value.toNat
    let L := s.timer.load.toNat
    let n := es.countP SocEvent.isTick
    let t := (Runs.run socApply s es).timer
    (s.timer.Periodic →
      (∀ pre, pre ++ [.tick] <+: es → (timerFires (Runs.run socApply s pre).timer = true ↔
        v ≤ pre.countP SocEvent.isTick + 1 ∧ L ∣ pre.countP SocEvent.isTick + 1 - v)) ∧
      (Runs.stages socApply s es).countP timerExpires = (if n < v then 0 else 1 + (n - v) / L) ∧
      t.value.toNat = if n < v then v - n else L - (n - v) % L) ∧
    (¬ s.timer.Periodic →
      (∀ pre, pre ++ [.tick] <+: es → (timerFires (Runs.run socApply s pre).timer = true ↔
        pre.countP SocEvent.isTick + 1 = v)) ∧
      (Runs.stages socApply s es).countP timerExpires = (if n < v then 0 else 1) ∧
      (t.Enabled ↔ n < v) ∧ t.value.toNat = v - n) ∧
    (∀ u, (u, .tick) ∈ Runs.stages socApply s es →
      (socTimerIrqLine ∈ socRaises u .tick ↔
        timerFires u.timer = true ∧ s.timer.IrqEnabled)) ∧
    (t.Fired ↔ ∃ pre post, es = pre ++ .tick :: post ∧
      timerFires (Runs.run socApply s pre).timer = true ∧ ∀ e ∈ post, ¬ e.clearsFired) := by
  intro v L n t
  have hr : s.timer.Counts := ⟨hen, hload⟩
  have hpre : ∀ pre, pre ++ [SocEvent.tick] <+: es → pre <+: es := fun pre hp =>
    (List.prefix_append pre _).trans hp
  refine ⟨fun hper => ?_, fun hper => ?_, fun u hu => timer_line h hr hv hes hu,
    fired_iff h hr hv hes hfired⟩
  · obtain ⟨hleft, hcount, hends⟩ := periodic_closed_form h hr hv hes hper
    exact ⟨fun pre hp => hends pre (hpre pre hp), hcount, hleft⟩
  · obtain ⟨hleft, hon, hcount, hends⟩ := single_closed_form h hr hv hes hper
    exact ⟨fun pre hp => hends pre (hpre pre hp), hcount, hon, hleft⟩

/-- Two periods of three ticks, the first shortened to two. -/
theorem timer_closed_form_periods :
    let s : Soc := { socInit default none with
      timer := { ctrl := 0x7, load := 3, value := 2, irqStatus := 0 } }
    (Runs.stages socApply s [.tick, .tick, .tick, .tick, .tick]).countP timerExpires = 2 := by
  intro s
  have hw : SocWired s := (socInit_wired default none).of_eq rfl rfl rfl rfl rfl rfl
  have hes : ∀ e ∈ [SocEvent.tick, .tick, .tick, .tick, .tick], e.sparesTimer := by
    simp [SocEvent.sparesTimer]
  have hcount := ((timer_closed_form hw (by decide) (by decide) (by decide) (by decide) hes).1
    (by decide)).2.1
  exact hcount.trans (by decide)

end VlabSoc
