/-
The DMA engine event by event.

`SocWired.flight_cases` is everything an event can do to a transfer in flight, and
`SocWired.idle_cases` everything it can do to the engine at rest; resets apart.  A
tick counts only while the stuck latch is off (`dmaTicks`).
-/
import VlabSoc.SocRaises

namespace VlabSoc

/-- A tick with the engine's stuck latch off. -/
def dmaTicks : Soc × SocEvent → Bool
  | (s, .tick) => !s.dma.faultStuckBusy
  | _ => false

/-- `value` written to CTRL with START. -/
def SocEvent.startWord : SocEvent → Option Word
  | .write addr value =>
    if addr = vlabDmaCtrl ∧ value &&& socDmaCtrlStart ≠ 0 then some value else none
  | _ => none

theorem startWord_iff {e : SocEvent} {value : Word} :
    e.startWord = some value ↔ e = .write vlabDmaCtrl value ∧ value &&& socDmaCtrlStart ≠ 0 := by
  cases e with
  | write addr v =>
    rw [SocEvent.startWord]
    split_ifs with h
    · obtain ⟨rfl, hv⟩ := h
      constructor
      · intro heq
        obtain rfl := Option.some.inj heq
        exact ⟨rfl, hv⟩
      · rintro ⟨heq, -⟩
        rw [(SocEvent.write.inj heq).2]
    · refine iff_of_false (by simp) ?_
      rintro ⟨heq, hv⟩
      obtain ⟨rfl, rfl⟩ := SocEvent.write.inj heq
      exact h ⟨rfl, hv⟩
  | _ => exact iff_of_false (by simp [SocEvent.startWord]) (by simp)

/-! ### In flight -/

/-- A transfer in flight that has not moved: what it needs to end is as it was. -/
structure SameFlight (d d' : SocDma DmaCtx) : Prop where
  busy : d'.busy = true
  latched : d'.irqEnableLatched = d.irqEnableLatched
  remaining : d'.remaining = d.remaining

/-- No register write moves a transfer in flight. -/
theorem socDmaWrite_flight {d : SocDma DmaCtx} (hb : d.busy = true) (perf : SocPerf)
    (offset value : Word) :
    SameFlight d (socDmaWrite d perf offset value).2.dma ∧
      (socDmaWrite d perf offset value).2.raises = [] ∧
      (socDmaWrite d perf offset value).2.dma.faultStuckBusy = d.faultStuckBusy := by
  unfold socDmaWrite
  split
  case h_4 =>
    dsimp only
    rw [socDmaStart_busy hb]
    split_ifs
    · exact ⟨⟨hb, rfl, rfl⟩, rfl, rfl⟩
    · exact ⟨⟨hb, rfl, rfl⟩, rfl, rfl⟩
  all_goals exact ⟨⟨hb, rfl, rfl⟩, rfl, rfl⟩

/-- The completing tick raises what its START asked for, however it ends. -/
theorem SocWired.completing_raises {s : Soc} (h : SocWired s) (hbusy : s.dma.busy = true)
    (hstuck : s.dma.faultStuckBusy = false) (hrem : s.dma.remaining ≤ 1) :
    dmaRaises s .tick = s.dma.irq := by
  have hr : (socTickFront s).dma.cfg.reader = some socDmaReaderBridge := h.reader
  have hw : (socTickFront s).dma.cfg.writer = some socDmaWriterBridge := h.writer
  rw [dmaRaises, socDmaStep_complete (d := (socTickFront s).dma) hbusy hstuck hrem,
    socDmaComplete_eq (d := { (socTickFront s).dma with
      remaining := (socTickFront s).dma.remaining - 1 }) hr hw]
  dsimp only
  split_ifs <;> rfl

/-- The completing tick leaves BUSY, and one of DONE and ERROR. -/
theorem SocWired.completing_dma {s : Soc} (h : SocWired s) (hbusy : s.dma.busy = true)
    (hstuck : s.dma.faultStuckBusy = false) (hrem : s.dma.remaining ≤ 1) :
    (socTick s).dma.busy = false ∧ ((socTick s).dma.done = true ∨ (socTick s).dma.error = true) := by
  rw [socTick, h.tickFront.tickDma_complete hbusy hstuck hrem]
  split_ifs
  · exact ⟨rfl, Or.inl rfl⟩
  · exact ⟨rfl, Or.inr rfl⟩
  · exact ⟨rfl, Or.inr rfl⟩

/-- One event of a transfer in flight. -/
theorem SocWired.flight_cases {s : Soc} (h : SocWired s) (hbusy : s.dma.busy = true) {e : SocEvent}
    (he : e.keepsPower) :
    (dmaTicks (s, e) = false ∧ SameFlight s.dma (socApply s e).dma ∧ dmaRaises s e = []) ∨
    (dmaTicks (s, e) = true ∧ 1 < s.dma.remaining ∧
      (socApply s e).dma = { s.dma with remaining := s.dma.remaining - 1 } ∧
      dmaRaises s e = []) ∨
    (e = .tick ∧ dmaTicks (s, e) = true ∧ s.dma.remaining ≤ 1 ∧
      (socApply s e).dma.busy = false ∧ dmaRaises s e = s.dma.irq) := by
  cases e with
  | read addr out =>
    refine Or.inl ⟨rfl, ?_, rfl⟩
    rw [socApply, socRead_dma]
    exact ⟨hbusy, rfl, rfl⟩
  | write addr value =>
    refine Or.inl ⟨rfl, ?_⟩
    by_cases ha : addr ∈ dmaRegs
    · obtain ⟨hflight, hraise, -⟩ := socDmaWrite_flight hbusy (socPerfCountMem s.perf)
        (addr - vlabDmaBase) value
      rw [socApply, h.write_dmaReg ha, h.dmaRaises_write ha]
      exact ⟨hflight, hraise⟩
    · rw [socApply, socWrite_dma ha, dmaRaises_write_other ha]
      exact ⟨⟨hbusy, rfl, rfl⟩, rfl⟩
  | tick =>
    cases hstuck : s.dma.faultStuckBusy with
    | true =>
      -- the engine is frozen
      have hidle : (socTickFront s).dma.busy = false ∨ (socTickFront s).dma.faultStuckBusy = true :=
        Or.inr hstuck
      have hdma : (socTick s).dma = (socTickFront s).dma := congrArg Soc.dma (socTickDma_idle hidle)
      refine Or.inl ⟨by simp [dmaTicks, hstuck], ?_, ?_⟩
      · rw [socApply, hdma]
        exact ⟨hbusy, rfl, rfl⟩
      · rw [dmaRaises, socDmaStep_idle hidle]
    | false =>
      have hticks : dmaTicks (s, .tick) = true := by simp [dmaTicks, hstuck]
      by_cases hrem : 1 < s.dma.remaining
      · refine Or.inr (Or.inl ⟨hticks, hrem, ?_, ?_⟩)
        · exact congrArg Soc.dma (socTickDma_count (s := socTickFront s) hbusy hstuck hrem)
        · rw [dmaRaises, socDmaStep_count (d := (socTickFront s).dma) hbusy hstuck hrem]
      · exact Or.inr (Or.inr ⟨rfl, hticks, not_lt.mp hrem,
          (h.completing_dma hbusy hstuck (not_lt.mp hrem)).1,
          h.completing_raises hbusy hstuck (not_lt.mp hrem)⟩)
  | resetPeripherals => exact absurd he id
  | boot romWords nwords => exact absurd he id
  | raise line => exact Or.inl ⟨rfl, ⟨hbusy, rfl, rfl⟩, rfl⟩
  | uartStuck b => exact Or.inl ⟨rfl, ⟨hbusy, rfl, rfl⟩, rfl⟩
  | dmaStuck b => exact Or.inl ⟨rfl, ⟨hbusy, rfl, rfl⟩, rfl⟩

/-! ### At rest -/

/-- IRQ_ENABLE in a CTRL word. -/
def irqAsked (value : Word) : Bool := decide (value &&& socDmaCtrlIrqEnable ≠ 0)

/-- The raise of a transfer whose START was written with `value`. -/
def irqOf (value : Word) : List Int := if irqAsked value then [(socIrqDma : Int)] else []

/-- A START of the engine at rest is accepted, or rejected on the spot. -/
theorem SocWired.start_cases {s : Soc} (h : SocWired s) (hidle : s.dma.busy = false) {value : Word}
    (hstart : value &&& socDmaCtrlStart ≠ 0) :
    (VlabValid s.dma.src s.dma.dst s.dma.length ∧
      (socWrite s vlabDmaCtrl value).soc.dma = s.dma.started value ∧
      dmaRaises s (.write vlabDmaCtrl value) = []) ∨
    (¬ VlabValid s.dma.src s.dma.dst s.dma.length ∧
      (socWrite s vlabDmaCtrl value).soc.dma.busy = false ∧
      (socWrite s vlabDmaCtrl value).soc.dma.error = true ∧
      dmaRaises s (.write vlabDmaCtrl value) = irqOf value) := by
  have hctrl : vlabDmaCtrl ∈ dmaRegs := by decide
  have hoff : vlabDmaCtrl - vlabDmaBase = 0x0C := by decide
  have hvalid := vlabStartCheck_none s.config s.dma.src s.dma.dst s.dma.length
  rw [← h.dma] at hvalid
  rw [h.write_dmaReg hctrl, h.dmaRaises_write hctrl, hoff, socDmaWrite_start hstart]
  dsimp only
  -- `soc_dma_start` of the engine at rest is decided by its checks
  cases hcheck : socDmaStartCheck s.dma.cfg s.dma.src s.dma.dst s.dma.length with
  | none =>
    rw [socDmaStart_ok hidle hcheck]
    exact Or.inl ⟨hvalid.mp hcheck, rfl, rfl⟩
  | some code =>
    have hno : ¬ VlabValid s.dma.src s.dma.dst s.dma.length := by
      rw [← hvalid, hcheck]
      simp
    have hline : s.dma.cfg.irqLine = (socIrqDma : Int) := by
      rw [h.dma]
      rfl
    rw [socDmaStart_fail hidle hcheck, hline]
    exact Or.inr ⟨hno, rfl, rfl, rfl⟩

/-- One event of the engine at rest: only a START moves it or makes it raise. -/
theorem SocWired.idle_cases {s : Soc} (h : SocWired s) (hidle : s.dma.busy = false) {e : SocEvent}
    (he : e.keepsPower) (hno : e.startWord = none) :
    (socApply s e).dma.busy = false ∧ dmaRaises s e = [] := by
  cases e with
  | read addr out => exact ⟨by rw [socApply, socRead_dma, hidle], rfl⟩
  | write addr value =>
    by_cases ha : addr ∈ dmaRegs
    · -- a CTRL write without START, or another register
      have hnot : ¬ (addr - vlabDmaBase = 0x0C ∧ value &&& socDmaCtrlStart ≠ 0) := by
        rintro ⟨hoff, hv⟩
        rw [BitVec.sub_eq_iff_eq_add] at hoff
        have hsome : (SocEvent.write addr value).startWord = some value :=
          startWord_iff.mpr ⟨by rw [hoff]; rfl, hv⟩
        rw [hno] at hsome
        exact absurd hsome (by simp)
      rw [socApply, h.write_dmaReg ha, h.dmaRaises_write ha]
      refine ⟨(socDmaWrite_busy hnot).trans hidle, ?_⟩
      unfold socDmaWrite
      split
      case h_4 hoff =>
        dsimp only
        rw [if_neg fun hv => hnot ⟨hoff, hv⟩]
      all_goals rfl
    · rw [socApply, socWrite_dma ha, dmaRaises_write_other ha]
      exact ⟨hidle, rfl⟩
  | tick =>
    have hrest : (socTickFront s).dma.busy = false ∨ (socTickFront s).dma.faultStuckBusy = true :=
      Or.inl hidle
    refine ⟨(congrArg (fun t => t.dma.busy) (socTickDma_idle hrest)).trans hidle, ?_⟩
    rw [dmaRaises, socDmaStep_idle hrest]
  | resetPeripherals => exact absurd he id
  | boot romWords nwords => exact absurd he id
  | raise line => exact ⟨hidle, rfl⟩
  | uartStuck b => exact ⟨hidle, rfl⟩
  | dmaStuck b => exact ⟨hidle, rfl⟩

end VlabSoc
