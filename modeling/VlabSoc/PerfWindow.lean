/-
Measuring with the PERF block.

Software opens a window by a write to PERF_CTRL with ENABLE and RESET, and closes it by one
without either.  `Counted` is all that can happen to the block between two writes of its
registers; while it is off, that is nothing (`SocWired.apply_counted`).

* `SocWired.window_run` — the counters of an open window;
* `SocWired.write_perfCtrl` — a write to CTRL;
* `perf_window` — what software reads of the counters, however long after the window is closed.
-/
import VlabSoc.PerfCounts

namespace VlabSoc

/-! ### Counting, and nothing else -/

/-- PERF has counted, if it was on. -/
structure Counted (p q : SocPerf) : Prop where
  ctrl : q.ctrl = p.ctrl
  enabled : q.enabled = p.enabled
  off : p.enabled = false → q = p

variable {p q r : SocPerf}

theorem Counted.refl (p : SocPerf) : Counted p p := ⟨rfl, rfl, fun _ => rfl⟩

theorem Counted.trans (hpq : Counted p q) (hqr : Counted q r) : Counted p r :=
  ⟨hqr.ctrl.trans hpq.ctrl, hqr.enabled.trans hpq.enabled, fun hoff =>
    (hqr.off (hpq.enabled.trans hoff)).trans (hpq.off hoff)⟩

/-- What is done under `enabled` and leaves CTRL and the switch alone is counting. -/
theorem Counted.of_if (hctrl : q.ctrl = p.ctrl) (henabled : q.enabled = p.enabled) :
    Counted p (if p.enabled then q else p) := by
  cases h : p.enabled with
  | true =>
    rw [if_pos rfl]
    exact ⟨hctrl, henabled, fun hoff => absurd (h.symm.trans hoff) (by decide)⟩
  | false =>
    rw [if_neg Bool.false_ne_true]
    exact Counted.refl p

theorem counted_tick (p : SocPerf) : Counted p (socPerfTick p) := Counted.of_if rfl rfl

theorem counted_mem (p : SocPerf) : Counted p (socPerfCountMem p) := Counted.of_if rfl rfl

theorem counted_stall (p : SocPerf) (n : Word) : Counted p (socPerfCountStall p n) :=
  Counted.of_if rfl rfl

theorem counted_dma (p : SocPerf) (n : Word) : Counted p (socPerfCountDma p n) :=
  Counted.of_if rfl rfl

theorem counted_irq (p : SocPerf) : Counted p (socPerfCountIrq p) := Counted.of_if rfl rfl

theorem socRead_counted (s : Soc) (addr out : Word) :
    Counted s.perf (socRead s addr out).soc.perf := by
  have hintc : ∀ ic perf offset, Counted perf (socIntcRead ic perf offset out).perf := by
    intro ic perf offset
    unfold socIntcRead
    split
    case h_4 =>
      split
      · exact Counted.refl perf
      · exact counted_irq perf
    all_goals exact Counted.refl perf
  have hswitch : ∀ (t : Soc) (kind : Int), Counted t.perf (socReadSwitch t kind addr out).soc.perf := by
    intro t kind
    unfold socReadSwitch
    split
    case h_6 => exact hintc _ _ _
    all_goals exact Counted.refl t.perf
  rw [socRead]
  split_ifs
  · exact counted_stall s.perf 1
  · have hread := (counted_mem s.perf).trans
      (hswitch { s with perf := socPerfCountMem s.perf }
        (socRoute { s with perf := socPerfCountMem s.perf } addr))
    dsimp only
    split_ifs
    · exact hread.trans (counted_stall _ 1)
    · exact hread

theorem socWrite_counted {addr : Word} (haddr : addr ∉ perfRegs) (s : Soc) (value : Word) :
    Counted s.perf (socWrite s addr value).soc.perf := by
  have huart : ∀ u perf offset, Counted perf (socUartWrite u perf offset value).perf := by
    intro u perf offset
    unfold socUartWrite
    split
    · split_ifs
      · exact counted_stall perf 1
      all_goals exact Counted.refl perf
    all_goals exact Counted.refl perf
  have hdma : ∀ (d : SocDma DmaCtx) perf offset,
      Counted perf (socDmaWrite d perf offset value).2.perf := by
    intro d perf offset
    unfold socDmaWrite
    split
    case h_4 =>
      dsimp only
      split_ifs
      · rw [socDmaStart_perf]
        split_ifs
        · exact counted_stall perf 1
        · exact Counted.refl perf
      · exact Counted.refl perf
    all_goals exact Counted.refl perf
  have hswitch : ∀ (t : Soc) (kind : Int),
      Counted t.perf (socWriteSwitch t kind addr value).soc.perf := by
    intro t kind
    unfold socWriteSwitch
    split
    case h_3 => exact huart _ _ _
    case h_5 => exact hdma _ _ _
    case h_7 =>
      rw [socPerfWrite_other (perfOffset_other haddr)]
      exact Counted.refl t.perf
    all_goals exact Counted.refl t.perf
  rw [socWrite]
  split_ifs
  · exact counted_stall s.perf 1
  · have hwrite := (counted_mem s.perf).trans
      (hswitch { s with perf := socPerfCountMem s.perf }
        (socRoute { s with perf := socPerfCountMem s.perf } addr))
    dsimp only
    split_ifs
    · exact hwrite.trans (counted_stall _ 1)
    · exact hwrite

theorem SocWired.tickDma_counted {s : Soc} (h : SocWired s) :
    Counted s.perf (socTickDma s).perf := by
  rcases h.tickDma_cases with ⟨-, heq⟩ | ⟨-, -, -, heq⟩ | ⟨-, -, heq⟩ | ⟨-, -, -, heq⟩ |
    ⟨-, -, -, heq⟩
  · rw [heq]
    exact Counted.refl _
  · rw [heq]
    exact Counted.refl _
  · rw [heq]
    exact Counted.refl _
  · rw [heq]
    exact Counted.refl _
  · rw [heq]
    exact counted_dma _ _

theorem SocWired.tick_counted {s : Soc} (h : SocWired s) : Counted s.perf (socTick s).perf := by
  have hfront : Counted s.perf (socTickFront s).perf := counted_tick s.perf
  exact hfront.trans h.tickFront.tickDma_counted

/-- Software apart, PERF is only counted on. -/
theorem SocWired.apply_counted {s : Soc} (h : SocWired s) {e : SocEvent} (he : e.keepsPerf) :
    Counted s.perf (socApply s e).perf := by
  cases e with
  | read addr out => exact socRead_counted s addr out
  | write addr value => exact socWrite_counted he s value
  | tick => exact h.tick_counted
  | boot romWords nwords => exact absurd he id
  | resetPeripherals => exact Counted.refl _
  | raise line => exact Counted.refl _
  | uartStuck b => exact Counted.refl _
  | dmaStuck b => exact Counted.refl _

/-! ### The window -/

/-- The counters, as one vector. -/
def SocPerf.counters (p : SocPerf) : Word × Word × Word × Word × Word :=
  (p.cycles, p.memAcc, p.dmaBytes, p.irqCount, p.stalls)

/-- What an event adds to them. -/
def perfGain (x : Soc × SocEvent) : Word × Word × Word × Word × Word :=
  (if x.2.isTick then 1 else 0, if wordAccess x then 1 else 0, bytesDone x,
    if lineAcked x then 1 else 0,
    (if accessFails x then 1 else 0) + if startIgnored x then 1 else 0)

theorem perfAfter_counters (p : SocPerf) (x : Soc × SocEvent) :
    (p.after x).counters = p.counters + perfGain x := rfl

/-- In an open window the counters have grown by what the events add. -/
theorem SocWired.window_run {s : Soc} (h : SocWired s) (hinv : DmaInv s.dma)
    (hen : s.perf.enabled = true) {es : List SocEvent} (hes : ∀ e ∈ es, e.keepsPerf) :
    let t := Runs.run socApply s es
    (SocWired t ∧ DmaInv t.dma ∧ t.perf.enabled = true) ∧
      t.perf.counters = s.perf.counters + ((Runs.stages socApply s es).map perfGain).sum := by
  intro t
  have hkeep : ∀ u e, SocEvent.keepsPerf e → SocWired u ∧ DmaInv u.dma ∧ u.perf.enabled = true →
      SocWired (socApply u e) ∧ DmaInv (socApply u e).dma ∧ (socApply u e).perf.enabled = true :=
    fun u e he hu => ⟨hu.1.apply e, hu.1.dmaInv_apply hu.2.1 e,
      (hu.1.apply_counted he).enabled.trans hu.2.2⟩
  refine ⟨Runs.run_invariant socApply hkeep hes ⟨h, hinv, hen⟩, ?_⟩
  refine Runs.run_sum socApply (fun u => u.perf.counters) perfGain hkeep (fun u e he hu => ?_) hes
    ⟨h, hinv, hen⟩
  rw [hu.1.apply_perf hu.2.1 hu.2.2 he, perfAfter_counters]

/-- A write to CTRL turns counting on or off as ENABLE says; RESET zeroes the counters after the
write itself was counted. -/
theorem SocWired.write_perfCtrl {s : Soc} (h : SocWired s) (value : Word) :
    let p := (socWrite s vlabPerfCtrl value).soc.perf
    p.ctrl = value ∧ p.enabled = decide (value &&& vlabPerfCtrlEnable ≠ 0) ∧
      p.counters =
        if value &&& vlabPerfCtrlReset ≠ 0 then 0 else (socPerfCountMem s.perf).counters := by
  intro p
  have hctrl : vlabPerfCtrl - vlabPerfBase = 0x14 := by decide
  have hp : p = (socPerfWrite (socPerfCountMem s.perf) 0x14 value).2 := by
    rw [← hctrl]
    exact congrArg Soc.perf (h.write_perfReg (by decide) value)
  rw [hp]
  by_cases hreset : value &&& vlabPerfCtrlReset ≠ 0
  · simp only [socPerfWrite, if_pos hreset]
    exact ⟨rfl, rfl, rfl⟩
  · simp only [socPerfWrite, if_neg hreset]
    exact ⟨rfl, rfl, rfl⟩

/-- What software reads of a PERF that is off. -/
theorem SocWired.read_counters {s : Soc} (h : SocWired s) (hoff : s.perf.enabled = false)
    {cycles memAcc dmaBytes irqCount stalls : Word}
    (hcounters : s.perf.counters = (cycles, memAcc, dmaBytes, irqCount, stalls)) (out : Word) :
    (socRead s vlabPerfCycles out).out = cycles ∧ (socRead s vlabPerfMemAcc out).out = memAcc ∧
      (socRead s vlabPerfDmaBytes out).out = dmaBytes ∧
      (socRead s vlabPerfIrqCount out).out = irqCount ∧
      (socRead s vlabPerfStalls out).out = stalls := by
  have hmem : socPerfCountMem s.perf = s.perf := (counted_mem s.perf).off hoff
  have hread : ∀ addr ∈ perfRegs,
      (socRead s addr out).out = (socPerfRead s.perf (addr - vlabPerfBase) out).2 := by
    intro addr haddr
    have := (h.read_perfReg haddr out).2.1
    rwa [hmem] at this
  simp only [SocPerf.counters, Prod.mk.injEq] at hcounters
  obtain ⟨hc, hm, hd, hi, hs⟩ := hcounters
  refine ⟨?_, ?_, ?_, ?_, ?_⟩
  · rw [hread _ (by decide), ← hc]
    rfl
  · rw [hread _ (by decide), ← hm]
    rfl
  · rw [hread _ (by decide), ← hd]
    rfl
  · rw [hread _ (by decide), ← hi]
    rfl
  · rw [hread _ (by decide), ← hs]
    rfl

/-- The gains of a run, counter by counter. -/
theorem sum_perfGain (xs : List (Soc × SocEvent)) :
    (xs.map perfGain).sum =
      (BitVec.ofNat 32 (xs.countP fun x => x.2.isTick), BitVec.ofNat 32 (xs.countP wordAccess),
        (xs.map bytesDone).sum, BitVec.ofNat 32 (xs.countP lineAcked),
        BitVec.ofNat 32 (xs.countP accessFails + xs.countP startIgnored)) := by
  induction xs with
  | nil => rfl
  | cons x xs ih =>
    have hone : ∀ b : Bool, (if b then (1 : Word) else 0) = BitVec.ofNat 32 (if b then 1 else 0) := by
      intro b
      cases b <;> rfl
    rw [List.map_cons, List.sum_cons, ih]
    simp only [perfGain, hone, List.countP_cons, List.map_cons, List.sum_cons, Prod.mk_add_mk,
      ← BitVec.ofNat_add]
    rw [Nat.add_comm (if x.2.isTick then 1 else 0), Nat.add_comm (if wordAccess x then 1 else 0),
      Nat.add_comm (if lineAcked x then 1 else 0),
      Nat.add_comm ((if accessFails x then 1 else 0) + if startIgnored x then 1 else 0),
      Nat.add_add_add_comm]

/-- A measurement: software opens the window with ENABLE and RESET, runs anything that leaves
PERF alone, and closes it with neither.  Whatever follows that leaves PERF alone, the
registers read what was counted in the window and in the closing write: ticks, accesses at
word addresses, bytes of the transfers that ended in DONE, ACK reads that answered a line, and
failed accesses together with the STARTs written while BUSY. -/
theorem perf_window {s : Soc} (h : SocReachable s) {start stop : Word}
    (hon : start &&& vlabPerfCtrlEnable ≠ 0) (hzero : start &&& vlabPerfCtrlReset ≠ 0)
    (hoff : stop &&& vlabPerfCtrlEnable = 0) (hkept : stop &&& vlabPerfCtrlReset = 0)
    {es later : List SocEvent} (hes : ∀ e ∈ es, e.keepsPerf) (hlater : ∀ e ∈ later, e.keepsPerf)
    (out : Word) :
    let opened := (socWrite s vlabPerfCtrl start).soc
    let xs := Runs.stages socApply opened es
    let closed := (socWrite (Runs.run socApply opened es) vlabPerfCtrl stop).soc
    let t := Runs.run socApply closed later
    t.perf.ctrl = stop ∧
      (socRead t vlabPerfCycles out).out = BitVec.ofNat 32 (es.countP SocEvent.isTick) ∧
      (socRead t vlabPerfMemAcc out).out = BitVec.ofNat 32 (xs.countP wordAccess + 1) ∧
      (socRead t vlabPerfDmaBytes out).out = (xs.map bytesDone).sum ∧
      (socRead t vlabPerfIrqCount out).out = BitVec.ofNat 32 (xs.countP lineAcked) ∧
      (socRead t vlabPerfStalls out).out =
        BitVec.ofNat 32 (xs.countP accessFails + xs.countP startIgnored) := by
  intro opened xs closed t
  -- the window opens at zero
  have hwired : SocWired opened := h.wired.apply (.write vlabPerfCtrl start)
  have hinv : DmaInv opened.dma := h.wired.dmaInv_apply h.dmaInv (.write vlabPerfCtrl start)
  obtain ⟨-, henabled, hcounters⟩ := h.wired.write_perfCtrl start
  rw [if_pos hzero] at hcounters
  -- and counts
  obtain ⟨⟨hwired', hinv', hen'⟩, hsum⟩ :=
    hwired.window_run hinv (henabled.trans (decide_eq_true hon)) hes
  rw [show opened.perf.counters = 0 from hcounters, zero_add, sum_perfGain] at hsum
  -- until the closing write, itself counted
  set u := Runs.run socApply opened es with hu
  obtain ⟨hctrl, hdisabled, hlast⟩ := hwired'.write_perfCtrl stop
  rw [if_neg (not_not.mpr hkept), socPerfCountMem_on hen'] at hlast
  have hclosed : closed.perf.enabled = false :=
    hdisabled.trans (decide_eq_false (not_not.mpr hoff))
  -- from there on PERF stands still
  have hstill : SocWired t ∧ t.perf = closed.perf := by
    refine Runs.run_invariant socApply (P := fun v => SocWired v ∧ v.perf = closed.perf)
      (fun v e he hv => ⟨hv.1.apply e, ?_⟩) hlater ⟨hwired'.apply (.write vlabPerfCtrl stop), rfl⟩
    have hv' : v.perf.enabled = false := by
      rw [hv.2]
      exact hclosed
    rw [(hv.1.apply_counted he).off hv', hv.2]
  obtain ⟨hc, hm, hd, hi, hs⟩ : u.perf.cycles = _ ∧ u.perf.memAcc = _ ∧ u.perf.dmaBytes = _ ∧
      u.perf.irqCount = _ ∧ u.perf.stalls = _ := by
    simpa only [SocPerf.counters, Prod.mk.injEq] using hsum
  refine ⟨by rw [hstill.2]; exact hctrl, ?_⟩
  have hcountP : es.countP SocEvent.isTick = xs.countP fun x => x.2.isTick := by
    rw [Runs.countP_stages]
  refine hstill.1.read_counters (by rw [hstill.2]; exact hclosed) ?_ out
  rw [hstill.2, show closed.perf.counters = _ from hlast, hcountP, BitVec.ofNat_add]
  simp only [SocPerf.counters]
  rw [hc, hm, hd, hi, hs]
  rfl

/-- After boot: two ticks and a misaligned read in the window, more of both after it. -/
theorem perf_window_stalls :
    (socRead
      (Runs.run socApply
        (socWrite
          (Runs.run socApply
            (socWrite (Runs.run socApply (socInit default none) [.boot none 0]) vlabPerfCtrl 0x3).soc
            [.tick, .read 0x1 0, .tick])
          vlabPerfCtrl 0x0).soc
        [.tick, .read 0x1 0])
      vlabPerfStalls 0xFFFFFFFF).out = 1 := by
  have hboot : SocReachable (Runs.run socApply (socInit default none) [.boot none 0]) :=
    ⟨default, none, _, rfl⟩
  have hes : ∀ e ∈ [SocEvent.tick, .read 0x1 0, .tick], e.keepsPerf := by
    simp [SocEvent.keepsPerf]
  have hlater : ∀ e ∈ [SocEvent.tick, .read 0x1 0], e.keepsPerf := by
    simp [SocEvent.keepsPerf]
  exact (perf_window hboot (by decide) (by decide) (by decide)
    (by decide) hes hlater 0xFFFFFFFF).2.2.2.2.2.trans (by decide +kernel)

end VlabSoc
