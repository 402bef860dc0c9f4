/-
The interrupt-driven life of a DMA transfer under injected faults.

Besides the calls of the lifecycle, a run may install any tables, so that the engine
rejects what the driver has accepted, abort the engine with any code, hold it stuck
and wait for it through the test hooks.

* `dmaSubmit_outcomes` — a submission against any tables, by the engine's answer;
* `Faulting` — the driver in step with an engine that may have failed; kept by
  `Faulting.submit`, `Faulting.events`, `Faulting.testError`, `Faulting.dispatch`;
* `fault_lifecycle` — the law over every run.
-/
import VlabSoc.DmaLatches
import VlabSoc.DmaLifecycle
import VlabSoc.RunUntil

namespace VlabSoc

variable {A : Type} {p : Platform}

/-! ### Submission against any tables -/

/-- The engine with a descriptor programmed whose START it has rejected. -/
def SocDma.refused {M : Type} (d : SocDma M) (src dst len : Word) (irqEnable : Int)
    (code : Word) : SocDma M :=
  { d with
    src := src, dst := dst, length := len, ctrl := socDmaCtrlStored (ctrlWord irqEnable)
    irqEnableLatched := decide (ctrlWord irqEnable &&& socDmaCtrlIrqEnable ≠ 0)
    busy := false, done := false, error := true, errCode := code }

/-- The model once the driver has programmed a descriptor into the idle engine. -/
def Soc.programmed (s : Soc) (src dst len : Word) (irqEnable : Int) (perf : SocPerf) : Soc :=
  match socDmaStartCheck s.dma.cfg src dst len with
  | none => { s with dma := s.dma.submitted src dst len irqEnable, perf := perf }
  | some code =>
    { s with
      dma := s.dma.refused src dst len irqEnable code
      intc := if irqEnable ≠ 0 then socIntcRaise s.intc socIrqDma else s.intc
      perf := perf }

theorem Live.programmed (h : Live p) (src dst len : Word) (irqEnable : Int) (perf : SocPerf) :
    SocWired (p.gSoc.programmed src dst len irqEnable perf) := by
  unfold Soc.programmed
  split
  · exact h.wired.of_eq rfl rfl rfl rfl rfl rfl
  · exact h.wired.of_eq rfl rfl rfl rfl rfl rfl

theorem dmaProgram_outcomes (h : Live p) (hidle : p.gSoc.dma.busy = false) (src dst len : Word)
    (irqEnable : Int) :
    ∃ perf, dmaProgram p src dst len irqEnable =
      { p with gSoc := p.gSoc.programmed src dst len irqEnable perf } := by
  -- the descriptor first
  set p3 := halWriteReg (halWriteReg (halWriteReg p vlabDmaSrc src) vlabDmaDst dst) vlabDmaLen len
    with hp3
  have hlive3 : Live p3 := ((h.write _ _).write _ _).write _ _
  obtain ⟨perf3, heq3⟩ : ∃ perf, p3 = { p with gSoc := { p.gSoc with
      dma := { p.gSoc.dma with src := src, dst := dst, length := len }, perf := perf } } := by
    rw [hp3, ((h.write _ _).write _ _).write_dmaReg (by decide),
      (h.write _ _).write_dmaReg (by decide), h.write_dmaReg (by decide)]
    exact ⟨_, rfl⟩
  have hirq : ∀ b : Bool, (if b then [p.gSoc.dma.cfg.irqLine] else []) =
      if b then [(socIrqDma : Int)] else [] := fun b => by
    rw [show p.gSoc.dma.cfg.irqLine = (socIrqDma : Int) by rw [h.wired.dma]; rfl]
  show ∃ perf, halWriteReg p3 vlabDmaCtrl (ctrlWord irqEnable) = _
  rw [hlive3.write_dmaReg (by decide), show vlabDmaCtrl - vlabDmaBase = 0x0C from by decide,
    socDmaWrite_start (ctrlWord_start irqEnable), heq3]
  unfold Soc.programmed
  -- START by the check of the engine
  cases hcheck : socDmaStartCheck p.gSoc.dma.cfg src dst len with
  | none =>
    rw [socDmaStart_ok (d := { p.gSoc.dma with src := src, dst := dst, length := len }) hidle
      hcheck]
    exact ⟨_, rfl⟩
  | some code =>
    rw [socDmaStart_fail (d := { p.gSoc.dma with src := src, dst := dst, length := len }) hidle
      hcheck]
    dsimp only
    rw [hirq]
    by_cases h0 : irqEnable ≠ 0
    · rw [decide_eq_true ((ctrlWord_irq irqEnable).mpr h0), if_pos rfl, if_pos h0, SocDma.refused,
        decide_eq_true ((ctrlWord_irq irqEnable).mpr h0)]
      exact ⟨_, rfl⟩
    · rw [decide_eq_false ((ctrlWord_irq irqEnable).not.mpr h0), if_neg Bool.false_ne_true,
        if_neg h0, SocDma.refused, decide_eq_false ((ctrlWord_irq irqEnable).not.mpr h0)]
      exact ⟨_, rfl⟩

theorem validateDescriptor_ne_busy (d : DmaDriver) (src dst len : Word) :
    validateDescriptor d src dst len ≠ .errBusy := by
  have hdirection : ∀ srcType dstType, validateDirection d srcType dstType ≠ .errBusy := by
    intro srcType dstType
    unfold validateDirection
    split_ifs <;> decide
  unfold validateDescriptor
  dsimp only
  split_ifs
  all_goals first | decide | exact hdirection _ _

/-- `dma_submit`, whatever tables it checks against: BUSY at once unless the driver is IDLE,
the code of its own checks, or the descriptor handed to the engine. -/
theorem dmaSubmit_outcomes (h : Live p) (src dst len : Word) (irqEnable : Int) :
    (p.dma.sState ≠ .idle ∧
      dmaSubmit p src dst len irqEnable =
        (.errBusy, { p with sIrqMasked := p.sIrqMasked &&& 1 })) ∨
    (p.dma.sState = .idle ∧ ∃ rc perf, rc ≠ .ok ∧ (rc = .errBusy ↔ p.gSoc.dma.busy = true) ∧
        dmaSubmit p src dst len irqEnable =
          (rc, { p with
            gSoc := { p.gSoc with perf := perf }, sIrqMasked := p.sIrqMasked &&& 1 })) ∨
    (p.dma.sState = .idle ∧ p.gSoc.dma.busy = false ∧
      ∃ perf, dmaSubmit p src dst len irqEnable =
        (.ok, { p with
          gSoc := p.gSoc.programmed src dst len irqEnable perf
          dma := { p.dma with sDoneFlag := 0, sErrLatch := 0, sState := .active }
          sIrqMasked := p.sIrqMasked &&& 1 })) := by
  rw [dmaSubmit, halIrqDisable]
  dsimp only
  by_cases hstate : p.dma.sState = .idle
  swap
  · refine Or.inl ⟨hstate, ?_⟩
    rw [if_pos hstate]
    rfl
  rw [if_neg (not_not.mpr hstate)]
  obtain ⟨rc, hrc, hvalidate⟩ : ∃ rc,
      rc = (if p.gSoc.dma.busy then .errBusy else validateDescriptor p.dma src dst len) ∧
      validate (({ p with sIrqMasked := 1 } : Platform).setState .starting) src dst len =
        (rc, { p with
          gSoc := { p.gSoc with perf := socPerfCountMem p.gSoc.perf }
          dma := { p.dma with sState := .starting }
          sIrqMasked := 1 }) :=
    ⟨_, rfl, validate_eq (p := ({ p with sIrqMasked := 1 } : Platform).setState .starting)
      h.inited h.wired.regions h.wired.nRegions src dst len⟩
  have hbusy : rc = .errBusy ↔ p.gSoc.dma.busy = true := by
    cases hb : p.gSoc.dma.busy with
    | true => exact iff_of_true (hrc.trans (by rw [hb]; rfl)) rfl
    | false =>
      rw [hb, if_neg Bool.false_ne_true] at hrc
      refine iff_of_false ?_ Bool.false_ne_true
      rw [hrc]
      exact validateDescriptor_ne_busy p.dma src dst len
  rw [hvalidate]
  by_cases hok : rc = .ok
  · have hidle : p.gSoc.dma.busy = false := by
      rw [← Bool.not_eq_true, ← hbusy, hok]
      decide
    refine Or.inr (Or.inr ⟨hstate, hidle, ?_⟩)
    rw [if_neg (not_not.mpr hok)]
    obtain ⟨perf, hprogram⟩ := dmaProgram_outcomes
      (p := { p with
        gSoc := { p.gSoc with perf := socPerfCountMem p.gSoc.perf }
        dma := { p.dma with sState := .starting, sDoneFlag := 0, sErrLatch := 0 }
        sIrqMasked := 1 })
      ⟨h.inited, h.wired.countMem⟩ hidle src dst len irqEnable
    rw [hprogram]
    refine ⟨perf, ?_⟩
    unfold Soc.programmed
    dsimp only
    cases socDmaStartCheck p.gSoc.dma.cfg src dst len <;> rfl
  · refine Or.inr (Or.inl ⟨hstate, rc, socPerfCountMem p.gSoc.perf, hok, hbusy, ?_⟩)
    have hback : ({ p.dma with sState := .idle } : DmaDriver) = p.dma := by
      rw [← hstate]
    rw [if_pos hok, ← hback]
    rfl

/-! ### The engine of an ACTIVE driver -/

/-- The engine has stopped on a fault with this code. -/
structure Failed (code : Word) (d : SocDma DmaCtx) : Prop where
  busy : d.busy = false
  done : d.done = false
  error : d.error = true
  errCode : d.errCode = code

/-- The engine of a submission with the interrupt enabled, by the last fault it has met:
on its way or ended, or failed with that code; and once it has stopped, its interrupt is
pending. -/
structure Flying (s : Soc) (fault : Option Word) : Prop where
  irq : s.dma.ctrl &&& socDmaCtrlIrqEnable ≠ 0
  healthy : fault = none → Moving true s.dma ∨ (Ended s.dma ∧ s.intc.dmaPending = true)
  faulty : ∀ code ∈ fault, Failed code s.dma ∧ s.intc.dmaPending = true

variable {s : Soc} {fault : Option Word}

theorem Flying.of_eq (h : Flying s fault) {t : Soc} (hdma : t.dma = s.dma)
    (hpending : s.intc.dmaPending = true → t.intc.dmaPending = true) : Flying t fault := by
  refine ⟨?_, fun hf => ?_, fun code hc => ?_⟩
  · rw [hdma]
    exact h.irq
  · rw [hdma]
    exact (h.healthy hf).imp_right fun hend => ⟨hend.1, hpending hend.2⟩
  · rw [hdma]
    exact ⟨(h.faulty code hc).1, hpending (h.faulty code hc).2⟩

/-- A stopped engine has its interrupt pending. -/
theorem Flying.stopped (h : Flying s fault) : s.dma.busy = true ∨ s.intc.dmaPending = true := by
  cases hf : fault with
  | none => exact (h.healthy hf).imp (fun hm => hm.busy) fun hend => hend.2
  | some code => exact Or.inr (h.faulty code hf).2

theorem SocWired.tick_ctrl (h : SocWired s) : (socTick s).dma.ctrl = s.dma.ctrl := by
  rcases h.tickFront.tickDma_cases with ⟨-, heq⟩ | ⟨-, -, -, heq⟩ | ⟨-, -, heq⟩ |
    ⟨-, -, -, heq⟩ | ⟨-, -, -, heq⟩
  all_goals
    rw [show socTick s = _ from heq]
    rfl

theorem Flying.tick (h : Flying s fault) (hw : SocWired s) : Flying (socTick s) fault := by
  have hstill : s.dma.busy = false → Flying (socTick s) fault := fun hidle => by
    obtain ⟨hdma, hpending, -⟩ := socTick_still hidle
    exact h.of_eq hdma fun hp => hpending.trans hp
  cases hf : fault with
  | some code =>
    rw [← hf]
    exact hstill (h.faulty code hf).1.busy
  | none =>
    rw [← hf]
    rcases h.healthy hf with hm | hend
    swap
    · exact hstill hend.1.busy
    refine ⟨?_, fun _ => ?_, fun code hc => ?_⟩
    · rw [hw.tick_ctrl]
      exact h.irq
    · rcases (hw.tick_moving hm).2 with ⟨hm', -⟩ | ⟨hend, hp⟩
      · exact Or.inl hm'
      · exact Or.inr ⟨hend, by rw [hp, Bool.or_true]⟩
    · rw [hf] at hc
      exact absurd hc (Option.not_mem_none code)

theorem Flying.run (h : Flying s fault) (hw : SocWired s) {es : List SocEvent}
    (hes : ∀ e ∈ es, e.quiet) : Flying (Runs.run socApply s es) fault := by
  have hrun := Runs.run_invariant socApply (P := fun t => SocWired t ∧ Flying t fault)
    (fun t e he ht => ⟨ht.1.apply e, ?_⟩) hes ⟨hw, h⟩
  · exact hrun.2
  · cases hk : e.isTick with
    | true =>
      cases e with
      | tick => exact ht.2.tick ht.1
      | _ => exact absurd hk (by simp [SocEvent.isTick])
    | false =>
      obtain ⟨hdma, hpending⟩ := apply_engine_still (s := t) he hk
      exact ht.2.of_eq hdma hpending

/-- Not BUSY and DONE clear; ERROR may be set. -/
structure Parked (d : SocDma DmaCtx) : Prop where
  busy : d.busy = false
  done : d.done = false

theorem quiet_run_parked (hw : SocWired s) (h : s.dma.busy = false) {es : List SocEvent}
    (hes : ∀ e ∈ es, e.quiet) : (Runs.run socApply s es).dma = s.dma := by
  refine (Runs.run_invariant socApply (P := fun t => SocWired t ∧ t.dma = s.dma)
    (fun t e he ht => ⟨ht.1.apply e, ?_⟩) hes ⟨hw, rfl⟩).2
  cases hk : e.isTick with
  | true =>
    cases e with
    | tick => exact (socTick_still (by rw [ht.2]; exact h)).1.trans ht.2
    | _ => exact absurd hk (by simp [SocEvent.isTick])
  | false => exact (apply_engine_still he hk).1.trans ht.2

/-! ### The driver in step with it -/

/-- A live platform whose driver is in step with an engine that may have met a fault since
the last accepted submission. -/
structure Faulting (p : Platform) (fault : Option Word) : Prop where
  live : Live p
  state : p.dma.sState ∈ [DmaState.idle, .active, .complete, .error]
  parked : p.dma.sState ≠ .active → Parked p.gSoc.dma
  flying : p.dma.sState = .active →
    Flying p.gSoc fault ∧ p.dma.sDoneFlag = 0 ∧ p.dma.sErrLatch = 0

/-- The driver has left ACTIVE as the fault of the flight says. -/
def Departed (fault : Option Word) (d : DmaDriver) : Prop :=
  match fault with
  | none => d.sState = .complete ∧ d.sDoneFlag = 1 ∧ d.sErrLatch = 0
  | some code => d.sState = .error ∧ d.sDoneFlag = 0 ∧ d.sErrLatch = code

theorem Departed.not_active {d : DmaDriver} (h : Departed fault d) : d.sState ≠ .active := by
  cases fault with
  | none => rw [h.1]; decide
  | some code => rw [h.1]; decide

theorem Departed.of_eq {d e : DmaDriver} (h : Departed fault d) (hstate : e.sState = d.sState)
    (hflag : e.sDoneFlag = d.sDoneFlag) (hlatch : e.sErrLatch = d.sErrLatch) :
    Departed fault e := by
  cases fault with
  | none => exact ⟨hstate.trans h.1, hflag.trans h.2.1, hlatch.trans h.2.2⟩
  | some code => exact ⟨hstate.trans h.1, hflag.trans h.2.1, hlatch.trans h.2.2⟩

/-- Departed, with the flags of the engine cleared. -/
def Left (fault : Option Word) (p : Platform) : Prop :=
  Departed fault p.dma ∧ Resting p.gSoc.dma

/-- What a dispatch may do to the driver: keep it ACTIVE or have it depart, and not make it
ACTIVE. -/
structure Dispatched (fault : Option Word) (p q : Platform) : Prop where
  active : p.dma.sState = .active → q.dma.sState = .active ∨ Left fault q
  other : p.dma.sState ≠ .active → q.dma.sState ≠ .active
  left : Left fault p → Left fault q

theorem Dispatched.refl (fault : Option Word) (p : Platform) : Dispatched fault p p :=
  ⟨Or.inl, id, id⟩

theorem Dispatched.trans {q r : Platform} (hpq : Dispatched fault p q)
    (hqr : Dispatched fault q r) : Dispatched fault p r :=
  ⟨fun h => (hpq.active h).elim hqr.active fun hl => Or.inr (hqr.left hl),
    fun h => hqr.other (hpq.other h), fun h => hqr.left (hpq.left h)⟩

/-- Nothing but the model moves, and of an engine that is not BUSY nothing. -/
theorem Dispatched.of_statics {q : Platform} (hstatics : q.dma = p.dma)
    (hengine : p.gSoc.dma.busy = false → q.gSoc.dma = p.gSoc.dma) : Dispatched fault p q := by
  refine ⟨fun h => Or.inl ?_, fun h => ?_, fun h => ⟨?_, ?_⟩⟩
  · rwa [hstatics]
  · rwa [hstatics]
  · rw [hstatics]
    exact h.1
  · rw [hengine h.2.busy]
    exact h.2

theorem Faulting.of_statics {q : Platform} (h : Faulting p fault) (hlive : Live q)
    (hstatics : q.dma = p.dma) (hengine : p.gSoc.dma.busy = false → q.gSoc.dma = p.gSoc.dma)
    (hflying : Flying p.gSoc fault → Flying q.gSoc fault) : Faulting q fault := by
  refine ⟨hlive, ?_, fun hs => ?_, fun hs => ?_⟩
  · rw [hstatics]
    exact h.state
  · rw [hstatics] at hs
    have hp := h.parked hs
    rw [hengine hp.busy]
    exact hp
  · rw [hstatics] at hs ⊢
    exact ⟨hflying (h.flying hs).1, (h.flying hs).2⟩

/-- Quiet events, with the driver's statics as they were. -/
theorem Faulting.events (h : Faulting p fault) {es : List SocEvent} (hes : ∀ e ∈ es, e.quiet) :
    let q : Platform := { p with gSoc := Runs.run socApply p.gSoc es }
    Faulting q fault ∧ Dispatched fault p q := by
  intro q
  have hengine : p.gSoc.dma.busy = false → q.gSoc.dma = p.gSoc.dma := fun hidle =>
    quiet_run_parked h.live.wired hidle hes
  exact ⟨h.of_statics (h.live.run es) rfl hengine fun hf => hf.run h.live.wired hes,
    Dispatched.of_statics rfl hengine⟩

theorem Faulting.write (h : Faulting p fault) {addr : Word} (ha : addr ∉ dmaRegs) (val : Word) :
    Faulting (halWriteReg p addr val) fault ∧ Dispatched fault p (halWriteReg p addr val) := by
  have hes : ∀ e ∈ [SocEvent.write addr val], e.quiet := by simpa [SocEvent.quiet] using ha
  rw [halWriteReg_eq h.live]
  exact h.events hes

/-! ### Dispatch -/

theorem served_done {d : DmaDriver} {e : SocDma DmaCtx} (h : e.done = true) :
    d.served e = { d with sDoneFlag := 1, sState := .complete, sIrqCount := d.sIrqCount + 1 } := by
  rw [DmaDriver.served, if_pos h]

theorem served_error {d : DmaDriver} {e : SocDma DmaCtx} (hd : e.done = false)
    (h : e.error = true) :
    d.served e =
      { d with sErrLatch := e.errCode, sState := .error, sIrqCount := d.sIrqCount + 1 } := by
  rw [DmaDriver.served, hd, if_neg Bool.false_ne_true, if_pos h]

theorem served_spurious {d : DmaDriver} {e : SocDma DmaCtx} (hd : e.done = false)
    (h : e.error = false) : d.served e = { d with sIrqCount := d.sIrqCount + 1 } := by
  rw [DmaDriver.served, hd, if_neg Bool.false_ne_true, h, if_neg Bool.false_ne_true]

theorem Faulting.polled (h : Faulting p fault) :
    Faulting p.polled fault ∧ Dispatched fault p p.polled :=
  ⟨h.of_statics h.live.polled rfl (fun _ => rfl) fun hf => hf.of_eq rfl id,
    Dispatched.of_statics rfl fun _ => rfl⟩

/-- Another line's ACK leaves the DMA line pending. -/
theorem Faulting.acked (h : Faulting p fault) {line : ℕ} (hne : line ≠ socIrqDma) :
    Faulting (p.acked line) fault ∧ Dispatched fault p (p.acked line) := by
  refine ⟨h.of_statics (h.live.acked line) rfl (fun _ => rfl) fun hf => hf.of_eq rfl fun hp => ?_,
    Dispatched.of_statics rfl fun _ => rfl⟩
  show (p.gSoc.intc.acked line).pending.getLsbD socIrqDma = true
  rw [SocIntc.acked_pending _ (by decide), decide_eq_true hne.symm, Bool.and_true]
  exact hp

/-- `dma_isr` on the acknowledged DMA line: an ACTIVE driver departs with the engine's
outcome, or the interrupt was spurious; any other driver may only turn to ERROR. -/
theorem Faulting.isr (h : Faulting p fault) (line : Word) :
    Faulting (dmaIsr line (p.acked socIrqDma)) fault ∧
      Dispatched fault p (dmaIsr line (p.acked socIrqDma)) := by
  have hlive : Live (p.acked socIrqDma) := h.live.acked socIrqDma
  obtain ⟨perf, heq⟩ := dmaIsr_eq hlive line
  have hc := hlive.cleared perf
  rw [heq, show (p.acked socIrqDma).gSoc.dma = p.gSoc.dma from rfl,
    show (p.acked socIrqDma).dma = p.dma from rfl]
  set q : Platform := { (p.acked socIrqDma).cleared perf with dma := p.dma.served p.gSoc.dma }
    with hq
  have hlq : Live q := ⟨hc.inited, hc.wired⟩
  have hengine : q.gSoc.dma = p.gSoc.dma.cleared := rfl
  have hstatics : q.dma = p.dma.served p.gSoc.dma := rfl
  by_cases hactive : p.dma.sState = .active
  · obtain ⟨hfly, hflag, hlatch⟩ := h.flying hactive
    have hnl : Left fault p → Left fault q := fun hl => absurd hactive hl.1.not_active
    -- the driver departs: the rest is about its latches
    have hdepart : Departed fault q.dma → p.gSoc.dma.busy = false →
        q.dma.sState ∈ [DmaState.idle, .active, .complete, .error] →
        Faulting q fault ∧ Dispatched fault p q := fun hd hidle hmem =>
      ⟨⟨hlq, hmem, fun _ => ⟨hidle, rfl⟩, fun ha => absurd ha hd.not_active⟩,
        ⟨fun _ => Or.inr ⟨hd, hidle, rfl, rfl⟩, fun hne => absurd hactive hne, hnl⟩⟩
    cases hf : fault with
    | some code =>
      obtain ⟨hfail, -⟩ := hfly.faulty code hf
      have hserved := served_error (d := p.dma) hfail.done hfail.error
      rw [hfail.errCode] at hserved
      rw [← hf]
      refine hdepart ?_ hfail.busy ?_
      · rw [hf, hstatics, hserved]
        exact ⟨rfl, hflag, rfl⟩
      · rw [hstatics, hserved]
        simp
    | none =>
      rcases hfly.healthy hf with hm | ⟨hend, -⟩
      · -- spurious: the transfer goes on
        have hserved := served_spurious (d := p.dma) hm.done hm.error
        have hsame : q.dma.sState = .active := by
          rw [hstatics, hserved]
          exact hactive
        rw [← hf]
        refine ⟨⟨hlq, by rw [hsame]; simp, fun hne => absurd hsame hne, fun _ => ⟨⟨hfly.irq,
          fun _ => Or.inl ⟨hm.busy, rfl, rfl, hm.latched, hm.valid⟩, fun code hcode => ?_⟩, ?_, ?_⟩⟩,
          ⟨fun _ => Or.inl hsame, fun hne => absurd hactive hne, hnl⟩⟩
        · rw [hf] at hcode
          exact absurd hcode (Option.not_mem_none code)
        · rw [hstatics, hserved]
          exact hflag
        · rw [hstatics, hserved]
          exact hlatch
      · have hserved := served_done (d := p.dma) hend.done
        rw [← hf]
        refine hdepart ?_ hend.busy ?_
        · rw [hf, hstatics, hserved]
          exact ⟨rfl, rfl, hlatch⟩
        · rw [hstatics, hserved]
          simp
  · -- no transfer: DONE cannot be set
    have hpark := h.parked hactive
    have hparked : Parked q.gSoc.dma := ⟨hpark.busy, rfl⟩
    cases herror : p.gSoc.dma.error with
    | true =>
      have hserved := served_error (d := p.dma) hpark.done herror
      have hstate : q.dma.sState = .error := by rw [hstatics, hserved]
      refine ⟨⟨hlq, by rw [hstate]; simp, fun _ => hparked, fun ha => ?_⟩,
        ⟨fun ha => absurd ha hactive, fun _ => ?_, fun hl => ?_⟩⟩
      · rw [hstate] at ha
        exact absurd ha (by decide)
      · rw [hstate]
        decide
      · exact absurd (hl.2.error.symm.trans herror) (by decide)
    | false =>
      have hserved := served_spurious (d := p.dma) hpark.done herror
      have hstate : q.dma.sState = p.dma.sState := by rw [hstatics, hserved]
      refine ⟨⟨hlq, by rw [hstate]; exact h.state, fun _ => hparked, fun ha => ?_⟩,
        ⟨fun ha => absurd ha hactive, fun _ => ?_, fun hl => ⟨?_, hpark.busy, rfl, rfl⟩⟩⟩
      · rw [hstate] at ha
        exact absurd ha hactive
      · rw [hstate]
        exact hactive
      · refine hl.1.of_eq hstate ?_ ?_
        · rw [hstatics, hserved]
        · rw [hstatics, hserved]

/-- A served line, whichever it is. -/
theorem Faulting.serve {m : Machine A} (hisr : m.isr.ServesDma AppCall.quiet)
    (h : Faulting m.platform fault) (line : ℕ) (hl : line < 3) :
    let q := (isrServe { m with platform := m.platform.acked line } (BitVec.ofNat 32 line)).platform
    Faulting q fault ∧ Dispatched fault m.platform q := by
  intro q
  have hq : q = _ := isrServe_platform { m with platform := m.platform.acked line } hl
  have hclear : vlabIntcClear ∉ dmaRegs := by decide
  rw [hq]
  dsimp only
  by_cases hdma : line = socIrqDma
  · subst hdma
    rw [hisr.dma]
    obtain ⟨hfault, hstep⟩ := h.isr (BitVec.ofNat 32 socIrqDma)
    obtain ⟨hw, hwstep⟩ := hfault.write hclear (BitVec.ofNat 32 socIrqDma)
    exact ⟨hw, hstep.trans hwstep⟩
  · obtain ⟨hacked, hstep⟩ := h.acked hdma
    split
    · rename_i f hf
      obtain ⟨es, hes, heq⟩ := (hisr.others line f hdma hf).events hacked.live
        (BitVec.ofNat 32 line) m.app
      obtain ⟨hrun, hrunstep⟩ := hacked.events fun e he => by
        obtain ⟨c, hc, hec⟩ := hes e he
        exact AppCall.quiet_events hc hec
      rw [heq]
      obtain ⟨hw, hwstep⟩ := hrun.write hclear (BitVec.ofNat 32 line)
      exact ⟨hw, (hstep.trans hrunstep).trans hwstep⟩
    · obtain ⟨hw, hwstep⟩ := hacked.write hclear (BitVec.ofNat 32 line)
      exact ⟨hw, hstep.trans hwstep⟩

theorem Faulting.dispatch {m : Machine A} (hisr : m.isr.ServesDma AppCall.quiet)
    (h : Faulting m.platform fault) :
    let m' := (isrDispatch m).2
    m'.isr.ServesDma AppCall.quiet ∧ Faulting m'.platform fault ∧
      Dispatched fault m.platform m'.platform := by
  refine isrDispatch_rule
    (P := fun m' => m'.isr.ServesDma AppCall.quiet ∧ Faulting m'.platform fault ∧
      Dispatched fault m.platform m'.platform)
    (fun m' hm => hm.2.1.live) (fun m' hm => ⟨hm.1, ?_⟩) ?_ ?_
    ⟨hisr, h, Dispatched.refl fault m.platform⟩
  · exact ⟨hm.2.1.polled.1, hm.2.2.trans hm.2.1.polled.2⟩
  · intro m' line hm hline hge
    exact absurd (hm.1.answers hline) (not_lt.mpr hge)
  · intro m' line hm hline _
    obtain ⟨hfault, hstep⟩ := hm.2.1.serve hm.1 line (socIntcHighest_lt hline)
    exact ⟨⟨hm.1.dma, hm.1.others⟩, hfault, hm.2.2.trans hstep⟩

/-! ### The other calls -/

theorem Faulting.recover (h : Faulting p fault) :
    Faulting (dmaRecover p) fault ∧
      (dmaRecover p).dma.sState =
        (if p.dma.sState = .error ∨ p.dma.sState = .complete then .idle else p.dma.sState) := by
  rcases dmaRecover_eq h.live with ⟨hstate, perf, heq⟩ | ⟨hstate, heq⟩
  · have hc := h.live.cleared perf
    have hpark : Parked p.gSoc.dma := h.parked fun ha => by
      rw [ha] at hstate
      exact hstate.elim (fun h0 => absurd h0 (by decide)) fun h0 => absurd h0 (by decide)
    rw [heq, if_pos hstate]
    exact ⟨⟨⟨hc.inited, hc.wired⟩, List.mem_cons_self, fun _ => ⟨hpark.busy, rfl⟩,
      fun ha => DmaState.noConfusion ha⟩, rfl⟩
  · rw [heq, if_neg hstate]
    exact ⟨⟨⟨h.live.inited, h.live.wired⟩, h.state, h.parked, fun ha =>
      ⟨(h.flying ha).1.of_eq rfl id, (h.flying ha).2⟩⟩, rfl⟩

/-- The engine's verdict on a descriptor the driver has accepted is the first fault of its
flight. -/
theorem Faulting.submit (h : Faulting p fault) (src dst len : Word) (irqEnable : Int) :
    let r := dmaSubmit p src dst len irqEnable
    (irqEnable ≠ 0 → Faulting r.2
      (if r.1 = .ok then socDmaStartCheck p.gSoc.dma.cfg src dst len else fault)) ∧
      (r.1 = .errBusy ↔ p.dma.sState ≠ .idle) ∧
      (r.1 = .ok → p.dma.sState = .idle) ∧
      r.2.dma.sState = (if r.1 = .ok then .active else p.dma.sState) := by
  intro r
  have hquiet : p.dma.sState = .idle → p.gSoc.dma.busy = false := fun hidle =>
    (h.parked (by rw [hidle]; decide)).busy
  rcases dmaSubmit_outcomes h.live src dst len irqEnable with ⟨hstate, heq⟩ |
    ⟨hstate, rc, perf, hne, hbusy, heq⟩ | ⟨hstate, hidle, perf, heq⟩
  · rw [show r = _ from heq]
    dsimp only
    rw [if_neg (by decide), if_neg (by decide)]
    exact ⟨fun _ => h.of_statics ⟨h.live.inited, h.live.wired⟩ rfl (fun _ => rfl) id,
      iff_of_true rfl hstate, fun hc => DmaRc.noConfusion hc, rfl⟩
  · rw [show r = _ from heq, if_neg hne, hbusy, hquiet hstate]
    exact ⟨fun _ => h.of_statics ⟨h.live.inited, h.live.wired.of_eq rfl rfl rfl rfl rfl rfl⟩ rfl
      (fun _ => rfl) fun hf => hf.of_eq rfl id,
      iff_of_false Bool.false_ne_true (not_not.mpr hstate), fun hc => absurd hc hne,
      by rw [if_neg hne]⟩
  · rw [show r = _ from heq, if_pos rfl]
    refine ⟨fun hirq => ⟨⟨h.live.inited, h.live.programmed src dst len irqEnable perf⟩, by simp,
      fun hne => absurd rfl hne, fun _ => ⟨?_, rfl, rfl⟩⟩,
      iff_of_false DmaRc.noConfusion (not_not.mpr hstate), fun _ => hstate, by rw [if_pos rfl]⟩
    have hctrl : socDmaCtrlStored (ctrlWord irqEnable) &&& socDmaCtrlIrqEnable ≠ 0 := by
      rw [ctrlWord, if_pos hirq]
      decide
    show Flying (p.gSoc.programmed src dst len irqEnable perf) _
    unfold Soc.programmed
    cases hcheck : socDmaStartCheck p.gSoc.dma.cfg src dst len with
    | none =>
      have hvalid : VlabValid src dst len := by
        rw [h.live.wired.dma] at hcheck
        exact (vlabStartCheck_none _ src dst len).mp hcheck
      have hm := submitted_moving p.gSoc.dma irqEnable hvalid
      rw [decide_eq_true hirq] at hm
      exact ⟨hctrl, fun _ => Or.inl hm, fun code hc => absurd hc (Option.not_mem_none code)⟩
    | some code =>
      refine ⟨hctrl, fun hc => absurd hc (Option.some_ne_none code), fun c hc => ?_⟩
      refine ⟨⟨rfl, rfl, rfl, Option.mem_some.mp hc⟩, ?_⟩
      dsimp only
      rw [if_pos hirq, SocIntc.dmaPending, socIntcRaise_pending,
        decide_eq_true ⟨rfl, by decide⟩, Bool.or_true]

/-- `vlab_test_dma_error`: the fault of a flight from here on; with no transfer it only shows
in ERROR. -/
theorem Faulting.testError (h : Faulting p fault) (code : Word) :
    Faulting (vlabTestDmaError p code) (some code) ∧ (vlabTestDmaError p code).dma = p.dma := by
  rw [vlabTestDmaError, if_pos h.live.inited]
  refine ⟨⟨⟨h.live.inited, h.live.wired.of_eq rfl rfl rfl rfl rfl rfl⟩, h.state,
    fun _ => ⟨rfl, rfl⟩, fun ha => ⟨?_, (h.flying ha).2⟩⟩, rfl⟩
  have hfly := (h.flying ha).1
  refine ⟨hfly.irq, fun hc => absurd hc (Option.some_ne_none code), fun c hc =>
    ⟨⟨rfl, rfl, rfl, Option.mem_some.mp hc⟩, ?_⟩⟩
  dsimp only
  rw [if_pos hfly.irq, SocIntc.dmaPending, socIntcRaise_pending, decide_eq_true ⟨rfl, by decide⟩,
    Bool.or_true]

/-- `vlab_test_dma_complete` looks and ticks. -/
theorem Faulting.testComplete (h : Faulting p fault) :
    Faulting (vlabTestDmaComplete p) fault ∧ (vlabTestDmaComplete p).dma = p.dma := by
  obtain ⟨es, hes, heq⟩ := dmaCompleteLoop_run 100000 0 p.gSoc
  rw [vlabTestDmaComplete, if_pos h.live.inited, heq]
  refine ⟨(h.events fun e he => ?_).1, rfl⟩
  rcases hes e he with rfl | ⟨out, rfl⟩
  · trivial
  · show vlabDmaStatus ≠ vlabIntcAck
    decide

/-! ### Runs -/

/-- The calls of a run: the driver's interface, its configuration, application code, and the
hooks that disturb the engine. -/
inductive FaultCall
  | submit (src dst len : Word) (irqEnable : Int)
  | dispatch
  | recover
  | app (c : AppCall)
  | configure (map : Option (List MemoryRegion)) (n : Word) (caps : Option DmaCaps)
  | configurePeriph (eps : Option (List DmaPeriphEp)) (n : Word)
  | testComplete
  | testError (code : Word)
  | dmaStuck (b : Bool)

def faultCall (m : Machine A) : FaultCall → Machine A
  | .submit src dst len irqEnable =>
    { m with platform := (dmaSubmit m.platform src dst len irqEnable).2 }
  | .dispatch => (isrDispatch m).2
  | .recover => { m with platform := dmaRecover m.platform }
  | .app c => { m with platform := appCall m.platform c }
  | .configure map n caps =>
    { m with platform := { m.platform with dma := dmaConfigure m.platform.dma map n caps } }
  | .configurePeriph eps n =>
    { m with platform := { m.platform with dma := dmaConfigurePeriph m.platform.dma eps n } }
  | .testComplete => { m with platform := vlabTestDmaComplete m.platform }
  | .testError code => { m with platform := vlabTestDmaError m.platform code }
  | .dmaStuck b =>
    { m with platform := { m.platform with
        gSoc := socApply m.platform.gSoc (.dmaStuck b) } }

/-- Submissions with the interrupt enabled, quiet application code, and all the rest. -/
def FaultCall.drives : FaultCall → Prop
  | .submit _ _ _ irqEnable => irqEnable ≠ 0
  | .app c => c.quiet
  | _ => True

/-- A submission that returns OK. -/
def submits (x : Machine A × FaultCall) : Bool :=
  match x.2 with
  | .submit src dst len irqEnable => decide ((dmaSubmit x.1.platform src dst len irqEnable).1 = .ok)
  | _ => false

/-- A driver that leaves ACTIVE. -/
def departs (x : Machine A × FaultCall) : Bool :=
  decide (dmaState x.1.platform = .active ∧ dmaState (faultCall x.1 x.2).platform ≠ .active)

/-- The last fault since the last accepted submission: the engine's verdict on its
descriptor, and then the code of each injected error. -/
def flightFault (m : Machine A) (c : FaultCall) (fault : Option Word) : Option Word :=
  match c with
  | .submit src dst len irqEnable =>
    if (dmaSubmit m.platform src dst len irqEnable).1 = .ok then
      socDmaStartCheck m.platform.gSoc.dma.cfg src dst len
    else fault
  | .testError code => some code
  | _ => fault

theorem dmaConfigure_statics (d : DmaDriver) (map : Option (List MemoryRegion)) (n : Word)
    (caps : Option DmaCaps) :
    (dmaConfigure d map n caps).sState = d.sState ∧
      (dmaConfigure d map n caps).sDoneFlag = d.sDoneFlag ∧
      (dmaConfigure d map n caps).sErrLatch = d.sErrLatch := by
  unfold dmaConfigure
  dsimp only
  split_ifs <;> exact ⟨rfl, rfl, rfl⟩

/-- Other tables do not matter to a transfer under way. -/
theorem Faulting.tables (h : Faulting p fault) {d : DmaDriver} (hstate : d.sState = p.dma.sState)
    (hflag : d.sDoneFlag = p.dma.sDoneFlag) (hlatch : d.sErrLatch = p.dma.sErrLatch) :
    Faulting { p with dma := d } fault := by
  refine ⟨⟨h.live.inited, h.live.wired⟩, ?_, fun hs => h.parked (hstate ▸ hs), fun hs => ?_⟩
  · show d.sState ∈ _
    rw [hstate]
    exact h.state
  · obtain ⟨hfly, hf, hl⟩ := h.flying (hstate.symm.trans hs)
    exact ⟨hfly, hflag.trans hf, hlatch.trans hl⟩

theorem Faulting.stuck (h : Faulting p fault) (b : Bool) :
    Faulting { p with gSoc := socApply p.gSoc (.dmaStuck b) } fault := by
  refine ⟨⟨h.live.inited, h.live.wired.apply (.dmaStuck b)⟩, h.state, fun hs => ?_, fun hs => ?_⟩
  · have hp := h.parked hs
    exact ⟨hp.busy, hp.done⟩
  · obtain ⟨hfly, hrest⟩ := h.flying hs
    refine ⟨⟨hfly.irq, fun hf => ?_, fun code hc => ?_⟩, hrest⟩
    · exact (hfly.healthy hf).imp
        (fun hm => ⟨hm.busy, hm.done, hm.error, hm.latched, hm.valid⟩)
        fun hend => ⟨⟨hend.1.busy, hend.1.done, hend.1.error⟩, hend.2⟩
    · obtain ⟨hfail, hp⟩ := hfly.faulty code hc
      exact ⟨⟨hfail.busy, hfail.done, hfail.error, hfail.errCode⟩, hp⟩

/-- One call: the invariant, and what becomes of the driver's state. -/
theorem Faulting.call {m : Machine A} (hisr : m.isr.ServesDma AppCall.quiet)
    (h : Faulting m.platform fault) {c : FaultCall} (hc : c.drives) :
    let m' := faultCall m c
    (m'.isr.ServesDma AppCall.quiet ∧ Faulting m'.platform (flightFault m c fault)) ∧
    ((submits (m, c) = true ∧ dmaState m.platform = .idle ∧ dmaState m'.platform = .active) ∨
      (submits (m, c) = false ∧ (dmaState m'.platform = .active ↔ dmaState m.platform = .active)) ∨
      (submits (m, c) = false ∧ dmaState m.platform = .active ∧
        Departed fault m'.platform.dma)) := by
  intro m'
  cases c with
  | submit src dst len irqEnable =>
    obtain ⟨hfault, -, hok, hstate⟩ := h.submit src dst len irqEnable
    refine ⟨⟨hisr, hfault hc⟩, ?_⟩
    by_cases hrc : (dmaSubmit m.platform src dst len irqEnable).1 = .ok
    · rw [if_pos hrc] at hstate
      exact Or.inl ⟨decide_eq_true hrc, hok hrc, hstate⟩
    · rw [if_neg hrc] at hstate
      refine Or.inr (Or.inl ⟨decide_eq_false hrc, ?_⟩)
      rw [show dmaState m'.platform = dmaState m.platform from hstate]
  | dispatch =>
    obtain ⟨hs, hfault, hstep⟩ := h.dispatch hisr
    refine ⟨⟨hs, hfault⟩, Or.inr ?_⟩
    by_cases hactive : m.platform.dma.sState = .active
    · rcases hstep.active hactive with hstay | hleft
      · exact Or.inl ⟨rfl, iff_of_true hstay hactive⟩
      · exact Or.inr ⟨rfl, hactive, hleft.1⟩
    · exact Or.inl ⟨rfl, iff_of_false (hstep.other hactive) hactive⟩
  | recover =>
    obtain ⟨hfault, hstate⟩ := h.recover
    refine ⟨⟨hisr, hfault⟩, Or.inr (Or.inl ⟨rfl, ?_⟩)⟩
    rw [show dmaState m'.platform = _ from hstate, dmaState]
    split_ifs with hs
    · refine iff_of_false (by decide) fun ha => ?_
      rw [ha] at hs
      exact hs.elim (fun h0 => absurd h0 (by decide)) fun h0 => absurd h0 (by decide)
    · exact Iff.rfl
  | app c =>
    have heq := appCall_eq h.live c
    have hfault := (h.events fun e he => AppCall.quiet_events hc he).1
    rw [← heq] at hfault
    refine ⟨⟨hisr, hfault⟩, Or.inr (Or.inl ⟨rfl, ?_⟩)⟩
    show (appCall m.platform c).dma.sState = _ ↔ _
    rw [heq]
    rfl
  | configure map n caps =>
    obtain ⟨hstate, hflag, hlatch⟩ := dmaConfigure_statics m.platform.dma map n caps
    refine ⟨⟨hisr, h.tables hstate hflag hlatch⟩, Or.inr (Or.inl ⟨rfl, ?_⟩)⟩
    rw [show dmaState m'.platform = dmaState m.platform from hstate]
  | configurePeriph eps n =>
    exact ⟨⟨hisr, h.tables rfl rfl rfl⟩, Or.inr (Or.inl ⟨rfl, Iff.rfl⟩)⟩
  | testComplete =>
    obtain ⟨hfault, hstatics⟩ := h.testComplete
    refine ⟨⟨hisr, hfault⟩, Or.inr (Or.inl ⟨rfl, ?_⟩)⟩
    rw [dmaState, show m'.platform.dma = _ from hstatics]
    rfl
  | testError code =>
    obtain ⟨hfault, hstatics⟩ := h.testError code
    refine ⟨⟨hisr, hfault⟩, Or.inr (Or.inl ⟨rfl, ?_⟩)⟩
    rw [dmaState, show m'.platform.dma = _ from hstatics]
    rfl
  | dmaStuck b => exact ⟨⟨hisr, h.stuck b⟩, Or.inr (Or.inl ⟨rfl, Iff.rfl⟩)⟩

/-- A submission is taken off by leaving ACTIVE. -/
theorem Faulting.balance {m : Machine A} (hisr : m.isr.ServesDma AppCall.quiet)
    (h : Faulting m.platform fault) {c : FaultCall} (hc : c.drives) :
    (dmaState m.platform).outstanding + (if submits (m, c) then 1 else 0) =
      (if departs (m, c) then 1 else 0) + (dmaState (faultCall m c).platform).outstanding := by
  rw [departs]
  rcases (h.call hisr hc).2 with ⟨hsub, hidle, hactive⟩ | ⟨hsub, hiff⟩ | ⟨hsub, hactive, hdep⟩
  · rw [hsub, hidle, hactive]
    decide
  · rw [hsub]
    dsimp only
    by_cases ha : dmaState m.platform = .active
    · rw [hiff.mpr ha, ha]
      decide
    · rw [decide_eq_false fun hd => ha hd.1, DmaState.outstanding, DmaState.outstanding, if_neg ha,
        if_neg fun h' => ha (hiff.mp h')]
      rfl
  · have hnot : dmaState (faultCall m c).platform ≠ .active := hdep.not_active
    rw [hsub]
    dsimp only
    rw [decide_eq_true ⟨hactive, hnot⟩, DmaState.outstanding, DmaState.outstanding, if_pos hactive,
      if_neg hnot]
    rfl

/-- After boot and `dma_init`. -/
theorem machineInit_faulting (gSoc : Soc) (app : A) (isr : Isr A) :
    Faulting (machineInit gSoc app isr).platform none := by
  obtain ⟨hlive, hdma, hstatics⟩ := socHostBoot_eq (p := platformStart gSoc) fun h0 =>
    absurd h0 Bool.false_ne_true
  have hstate : (machineInit gSoc app isr).platform.dma.sState = .idle :=
    congrArg DmaDriver.sState hstatics
  refine ⟨⟨hlive.inited, hlive.wired⟩, by rw [hstate]; simp, fun _ => ?_, fun ha => ?_⟩
  · show Parked (socHostBoot (platformStart gSoc)).gSoc.dma
    rw [hdma]
    exact ⟨rfl, rfl⟩
  · rw [hstate] at ha
    exact DmaState.noConfusion ha

/-- The life of a transfer under faults.  After boot and `dma_init` with `dma_isr` serving the
DMA line, over any run of submissions with the interrupt enabled, dispatches, recoveries,
quiet application code, any tables installed in the driver, errors injected at any time,
completion hooks and stuck toggles, whatever the other lines' handlers do of that kind: the
driver is IDLE, ACTIVE, COMPLETE or ERROR; while it is ACTIVE the engine is BUSY or its
interrupt is pending, and otherwise neither BUSY nor DONE; a submission is refused as BUSY
exactly outside IDLE; every accepted submission but the one under way has left ACTIVE exactly
once; and the driver leaves ACTIVE for ERROR exactly if the flight has met a fault, with
the code of the last one latched, and else for COMPLETE with nothing latched. -/
theorem fault_lifecycle (gSoc : Soc) (app : A) {isr : Isr A} (hisr : isr.ServesDma AppCall.quiet)
    {calls : List FaultCall} (hcalls : ∀ c ∈ calls, c.drives) :
    let m0 := machineInit gSoc app isr
    let m := Runs.run faultCall m0 calls
    let d := m.platform.gSoc.dma
    dmaState m.platform ∈ [DmaState.idle, .active, .complete, .error] ∧
    (dmaState m.platform = .active → d.busy = true ∨ m.platform.gSoc.intc.dmaPending = true) ∧
    (dmaState m.platform ≠ .active → d.busy = false ∧ d.done = false) ∧
    (∀ src dst len irqEnable, (dmaSubmit m.platform src dst len irqEnable).1 = .errBusy ↔
      dmaState m.platform ≠ .idle) ∧
    (Runs.stages faultCall m0 calls).countP submits =
      (Runs.stages faultCall m0 calls).countP departs + (dmaState m.platform).outstanding ∧
    ∀ pre c post, calls = pre ++ c :: post →
      let v := Runs.run faultCall m0 pre
      let w := faultCall v c
      dmaState v.platform = .active → dmaState w.platform ≠ .active →
        match Runs.trail faultCall flightFault m0 none pre with
        | none =>
          dmaState w.platform = .complete ∧ dmaIsComplete w.platform = true ∧
            dmaLatchedError w.platform = 0
        | some code =>
          dmaState w.platform = .error ∧ dmaIsComplete w.platform = false ∧
            dmaLatchedError w.platform = code := by
  intro m0 m d
  have hrun : ∀ fs : List FaultCall, (∀ c ∈ fs, c.drives) →
      (Runs.run faultCall m0 fs).isr.ServesDma AppCall.quiet ∧
        Faulting (Runs.run faultCall m0 fs).platform
          (Runs.trail faultCall flightFault m0 none fs) := fun fs hfs =>
    Runs.run_simulates faultCall flightFault (P := fun _ => True) (A := FaultCall.drives)
      (R := fun m fault => m.isr.ServesDma AppCall.quiet ∧ Faulting m.platform fault)
      (fun _ _ _ _ => trivial) (fun m c fault hc _ hm => (hm.2.call hm.1 hc).1) hfs trivial
      ⟨hisr, machineInit_faulting gSoc app isr⟩
  obtain ⟨-, hend⟩ := hrun calls hcalls
  refine ⟨hend.state, fun ha => (hend.flying ha).1.stopped, fun ha => ?_,
    fun src dst len irqEnable => (hend.submit src dst len irqEnable).2.1, ?_, ?_⟩
  · exact ⟨(hend.parked ha).busy, (hend.parked ha).done⟩
  · have hbal := Runs.run_balance faultCall (fun m : Machine A => (dmaState m.platform).outstanding)
      submits departs (A := FaultCall.drives)
      (P := fun m => m.isr.ServesDma AppCall.quiet ∧ ∃ fault, Faulting m.platform fault)
      (fun m c hc ⟨hs, fault, hm⟩ => ⟨(hm.call hs hc).1.1, _, (hm.call hs hc).1.2⟩)
      (fun m c hc ⟨hs, fault, hm⟩ => hm.balance hs hc) hcalls
      ⟨hisr, none, machineInit_faulting gSoc app isr⟩
    have hzero : (dmaState m0.platform).outstanding = 0 := by
      have hstate : dmaState m0.platform ≠ .active := fun ha => by
        have hidle : dmaState m0.platform = .idle :=
          congrArg DmaDriver.sState (socHostBoot_eq (p := platformStart gSoc) fun h0 =>
            absurd h0 Bool.false_ne_true).2.2
        rw [hidle] at ha
        exact DmaState.noConfusion ha
      rw [DmaState.outstanding, if_neg hstate]
    rw [hzero, Nat.zero_add] at hbal
    exact hbal
  · intro pre c post heq v w hactive hnot
    have hpre : ∀ c ∈ pre, c.drives := fun c hc => hcalls c (by simp [heq, hc])
    obtain ⟨hs, hv⟩ := hrun pre hpre
    have hdep : Departed (Runs.trail faultCall flightFault m0 none pre) w.platform.dma := by
      rcases (hv.call hs (hcalls c (by simp [heq]))).2 with ⟨-, -, ha⟩ | ⟨-, hiff⟩ | ⟨-, -, hdep⟩
      · exact absurd ha hnot
      · exact absurd (hiff.mpr hactive) hnot
      · exact hdep
    cases hf : Runs.trail faultCall flightFault m0 none pre with
    | none =>
      rw [hf] at hdep
      exact ⟨hdep.1, decide_eq_true (by rw [hdep.2.1]; decide), hdep.2.2⟩
    | some code =>
      rw [hf] at hdep
      exact ⟨hdep.1, decide_eq_false (by rw [hdep.2.1]; decide), hdep.2.2⟩

/-- A transfer that meets two injected errors before it is dispatched. -/
theorem fault_lifecycle_twice :
    let m0 := machineInit default () isrDma
    let m := Runs.run faultCall m0 [.app (.intcEnable 4),
      .submit vlabSramBase (vlabSramBase + 0x100) 8 1, .testError 3, .app (.hostStep 1),
      .testError 4]
    dmaState (faultCall m .dispatch).platform = .error ∧
      dmaIsComplete (faultCall m .dispatch).platform = false ∧
      dmaLatchedError (faultCall m .dispatch).platform = 4 := by
  intro m0 m
  have hcalls : ∀ c ∈ [FaultCall.app (.intcEnable 4),
      .submit vlabSramBase (vlabSramBase + 0x100) 8 1, .testError 3, .app (.hostStep 1),
      .testError 4, .dispatch], c.drives := by
    simp [FaultCall.drives, AppCall.quiet]
  have hserves : isrDma.ServesDma AppCall.quiet := isrDma_serves.quiet
  exact (fault_lifecycle default () hserves hcalls).2.2.2.2.2 [.app (.intcEnable 4),
    .submit vlabSramBase (vlabSramBase + 0x100) 8 1, .testError 3, .app (.hostStep 1),
    .testError 4] .dispatch [] rfl (by decide +kernel) (by decide +kernel)

end VlabSoc
