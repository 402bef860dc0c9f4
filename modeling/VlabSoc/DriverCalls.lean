/-
What the calls of the DMA driver do on a live platform: `dmaClear_eq`,
`dmaIsr_eq`, `dmaRecover_eq` and, by the outcome of its checks,
`dmaSubmit_cases`.  Each gives the whole platform after the call, up to PERF
counts.
-/
import VlabSoc.DmaCompletion
import VlabSoc.DmaValidate

namespace VlabSoc

/-! ### Installed tables -/

/-- The tables of the VLAB platform, as `dma_init` installs them. -/
structure VlabTables (d : DmaDriver) : Prop where
  map : d.sMap = some vlabMemoryMap
  mapN : d.sMapN = vlabMemoryMapN
  caps : d.sCaps = some vlabDmaCaps
  periphs : d.sPeriphs = some vlabDmaPeriphEps
  periphN : d.sPeriphN = vlabDmaPeriphEpsN

theorem dmaInit_tables (p : Platform) : VlabTables (dmaInit p).dma := ⟨rfl, rfl, rfl, rfl, rfl⟩

/-- The driver's checks accept the valid descriptors, and never report BUSY. -/
theorem VlabTables.validate_ok {d : DmaDriver} (h : VlabTables d) (src dst len : Word) :
    (validateDescriptor d src dst len = .ok ↔ VlabValid src dst len) ∧
      validateDescriptor d src dst len ≠ .errBusy := by
  have hsame : SameTables d (vlabDmaConfig socConfigDefault) :=
    ⟨h.map, h.mapN, h.caps, h.periphs, h.periphN⟩
  rw [validateDescriptor_eq hsame]
  exact ⟨rcOfCheck_ok.trans (vlabStartCheck_none _ src dst len), rcOfCheck_ne_busy _⟩

/-! ### The two-step clear -/

/-- The engine after an IRQ_CLEAR write. -/
def SocDma.cleared {M : Type} (d : SocDma M) : SocDma M :=
  { d with done := false, error := false, errCode := socDmaErrNone }

/-- The platform after `dma_clear` and `intc_clear(VLAB_IRQ_DMA)`. -/
def Platform.cleared (p : Platform) (perf : SocPerf) : Platform :=
  { p with gSoc := { p.gSoc with
      dma := p.gSoc.dma.cleared
      intc := { p.gSoc.intc with active := p.gSoc.intc.active &&& ~~~((1 : Word) <<< socIrqDma) }
      perf := perf } }

theorem dmaClear_eq {p : Platform} (h : Live p) :
    dmaClear p = { p with gSoc := { p.gSoc with
      dma := p.gSoc.dma.cleared, perf := socPerfCountMem p.gSoc.perf } } := by
  rw [dmaClear, h.write_dmaReg (by decide)]
  rfl

theorem Live.write_intc {p : Platform} (h : Live p) {addr : Word}
    (ha : addr = vlabIntcEnable ∨ addr = vlabIntcClear) (val : Word) :
    halWriteReg p addr val = { p with gSoc := { p.gSoc with
      perf := socPerfCountMem p.gSoc.perf
      intc := (socIntcWrite p.gSoc.intc (addr - vlabIntcBase) val).2 } } := by
  rw [halWriteReg_eq h, h.wired.write_intc ha]

theorem Live.clear {p : Platform} (h : Live p) : Live (dmaClear p) := h.write vlabDmaIrqClear 1

theorem twoStepClear_eq {p : Platform} (h : Live p) :
    ∃ perf, intcClear (dmaClear p) vlabIrqDma = p.cleared perf := by
  rw [intcClear, h.clear.write_intc (Or.inr rfl), dmaClear_eq h]
  exact ⟨_, rfl⟩

theorem Live.cleared {p : Platform} (h : Live p) (perf : SocPerf) : Live (p.cleared perf) :=
  ⟨h.inited, h.wired.of_eq rfl rfl rfl rfl rfl rfl⟩

/-! ### The interrupt handler -/

/-- The driver's statics after `dma_isr` has seen the engine in state `e`. -/
def DmaDriver.served {M : Type} (d : DmaDriver) (e : SocDma M) : DmaDriver :=
  if e.done then { d with sDoneFlag := 1, sState := .complete, sIrqCount := d.sIrqCount + 1 }
  else if e.error then
    { d with sErrLatch := e.errCode, sState := .error, sIrqCount := d.sIrqCount + 1 }
  else { d with sIrqCount := d.sIrqCount + 1 }

theorem VlabTables.served {M : Type} {d : DmaDriver} (h : VlabTables d) (e : SocDma M) :
    VlabTables (d.served e) := by
  unfold DmaDriver.served
  split_ifs
  · exact ⟨h.map, h.mapN, h.caps, h.periphs, h.periphN⟩
  · exact ⟨h.map, h.mapN, h.caps, h.periphs, h.periphN⟩
  · exact ⟨h.map, h.mapN, h.caps, h.periphs, h.periphN⟩

theorem Live.read_status {p : Platform} (h : Live p) :
    halReadReg p vlabDmaStatus =
      (socDmaStatus p.gSoc.dma,
        { p with gSoc := { p.gSoc with perf := socPerfCountMem p.gSoc.perf } }) :=
  halReadReg_status h.inited h.wired.regions h.wired.nRegions

/-- `dma_isr` clears the engine's flags and line 2 of the controller, and moves the
driver by the flags it found. -/
theorem dmaIsr_eq {p : Platform} (h : Live p) (line : Word) :
    ∃ perf, dmaIsr line p = { p.cleared perf with dma := p.dma.served p.gSoc.dma } := by
  have hpolled : Live { p with gSoc := { p.gSoc with perf := socPerfCountMem p.gSoc.perf } } :=
    ⟨h.inited, h.wired.countMem⟩
  rw [dmaIsr, h.read_status, DmaDriver.served]
  dsimp only
  by_cases hdone : p.gSoc.dma.done = true
  · rw [if_pos ((socDmaStatus_done _).mpr hdone), if_pos hdone]
    obtain ⟨perf, hclear⟩ := twoStepClear_eq
      (p := { p with
        gSoc := { p.gSoc with perf := socPerfCountMem p.gSoc.perf }
        dma := { p.dma with sDoneFlag := 1, sState := .complete } })
      ⟨hpolled.inited, hpolled.wired⟩
    rw [hclear]
    exact ⟨perf, rfl⟩
  rw [if_neg ((socDmaStatus_done _).not.mpr hdone), if_neg hdone]
  by_cases herror : p.gSoc.dma.error = true
  · rw [if_pos ((socDmaStatus_error _).mpr herror), if_pos herror,
      hpolled.read_dmaReg (by decide)]
    dsimp only
    obtain ⟨perf, hclear⟩ := twoStepClear_eq
      (p := { p with
        gSoc := { p.gSoc with perf := socPerfCountMem (socPerfCountMem p.gSoc.perf) }
        dma := { p.dma with sErrLatch := p.gSoc.dma.errCode, sState := .error } })
      ⟨hpolled.inited, hpolled.wired.countMem⟩
    refine ⟨perf, ?_⟩
    rw [show (socDmaRead p.gSoc.dma (vlabDmaErrCode - vlabDmaBase) 0).2 = p.gSoc.dma.errCode
      from rfl, hclear]
    rfl
  · -- spurious: no terminal flag, the clears happen all the same
    rw [if_neg ((socDmaStatus_error _).not.mpr herror), if_neg herror]
    obtain ⟨perf, hclear⟩ := twoStepClear_eq hpolled
    rw [hclear]
    exact ⟨perf, rfl⟩

/-! ### Recovery -/

/-- `dma_recover` leaves COMPLETE and ERROR for IDLE, with the two-step clear, and
no other state. -/
theorem dmaRecover_eq {p : Platform} (h : Live p) :
    ((p.dma.sState = .error ∨ p.dma.sState = .complete) ∧ ∃ perf, dmaRecover p =
      { p.cleared perf with
        dma := { p.dma with sDoneFlag := 0, sErrLatch := 0, sState := .idle }
        sIrqMasked := p.sIrqMasked &&& 1 }) ∨
    (¬ (p.dma.sState = .error ∨ p.dma.sState = .complete) ∧
      dmaRecover p = { p with sIrqMasked := p.sIrqMasked &&& 1 }) := by
  rw [dmaRecover, halIrqDisable]
  dsimp only
  by_cases hstate : p.dma.sState = .error ∨ p.dma.sState = .complete
  · refine Or.inl ⟨hstate, ?_⟩
    rw [if_pos hstate]
    obtain ⟨perf, hclear⟩ := twoStepClear_eq
      (p := ({ p with sIrqMasked := 1 } : Platform).setState .recovery) ⟨h.inited, h.wired⟩
    rw [hclear]
    exact ⟨perf, rfl⟩
  · refine Or.inr ⟨hstate, ?_⟩
    rw [if_neg hstate]
    rfl

/-! ### Submission -/

/-- The CTRL word the driver starts a transfer with. -/
def ctrlWord (irqEnable : Int) : Word :=
  vlabDmaCtrlStart ||| (if irqEnable ≠ 0 then vlabDmaCtrlIrqEnable else 0)

theorem ctrlWord_start (irqEnable : Int) : ctrlWord irqEnable &&& socDmaCtrlStart ≠ 0 := by
  unfold ctrlWord
  split_ifs <;> decide

theorem ctrlWord_irq (irqEnable : Int) :
    ctrlWord irqEnable &&& socDmaCtrlIrqEnable ≠ 0 ↔ irqEnable ≠ 0 := by
  unfold ctrlWord
  split_ifs with h
  · exact iff_of_true (by decide) h
  · exact iff_of_false (by decide) h

/-- The engine with a descriptor programmed and started. -/
def SocDma.submitted {M : Type} (d : SocDma M) (src dst len : Word) (irqEnable : Int) : SocDma M :=
  ({ d with src := src, dst := dst, length := len } : SocDma M).started (ctrlWord irqEnable)

/-- Programming a valid descriptor into the idle engine starts it. -/
theorem dmaProgram_eq {p : Platform} (h : Live p) (hidle : p.gSoc.dma.busy = false)
    {src dst len : Word} (hvalid : VlabValid src dst len) (irqEnable : Int) :
    ∃ perf, dmaProgram p src dst len irqEnable = { p with gSoc := { p.gSoc with
      dma := p.gSoc.dma.submitted src dst len irqEnable, perf := perf } } := by
  set p1 := halWriteReg p vlabDmaSrc src with hp1
  set p2 := halWriteReg p1 vlabDmaDst dst with hp2
  set p3 := halWriteReg p2 vlabDmaLen len with hp3
  have hlive1 : Live p1 := h.write _ _
  have hlive2 : Live p2 := hlive1.write _ _
  have hlive3 : Live p3 := hlive2.write _ _
  obtain ⟨perf3, heq3⟩ : ∃ perf, p3 = { p with gSoc := { p.gSoc with
      dma := { p.gSoc.dma with src := src, dst := dst, length := len }, perf := perf } } := by
    rw [hp3, hlive2.write_dmaReg (by decide), hp2, hlive1.write_dmaReg (by decide), hp1,
      h.write_dmaReg (by decide)]
    exact ⟨_, rfl⟩
  have hcheck : socDmaStartCheck p3.gSoc.dma.cfg p3.gSoc.dma.src p3.gSoc.dma.dst
      p3.gSoc.dma.length = none := by
    rw [hlive3.wired.dma, vlabStartCheck_none, heq3]
    exact hvalid
  have hidle3 : p3.gSoc.dma.busy = false := by
    rw [heq3]
    exact hidle
  show ∃ perf, halWriteReg p3 vlabDmaCtrl (ctrlWord irqEnable) = _
  rw [hlive3.write_dmaReg (by decide), show vlabDmaCtrl - vlabDmaBase = 0x0C from by decide,
    socDmaWrite_start (ctrlWord_start irqEnable), socDmaStart_ok hidle3 hcheck, heq3]
  exact ⟨_, rfl⟩

/-- `dma_submit` by its outcome: BUSY at once unless the driver is IDLE, the code of
the failed check with the platform left as it was, or the transfer started. -/
theorem dmaSubmit_cases {p : Platform} (h : Live p) (ht : VlabTables p.dma) (src dst len : Word)
    (irqEnable : Int) :
    (p.dma.sState ≠ .idle ∧
      dmaSubmit p src dst len irqEnable =
        (.errBusy, { p with sIrqMasked := p.sIrqMasked &&& 1 })) ∨
    (p.dma.sState = .idle ∧ (p.gSoc.dma.busy = true ∨ ¬ VlabValid src dst len) ∧
      ∃ rc perf, rc ≠ .ok ∧ (rc = .errBusy ↔ p.gSoc.dma.busy = true) ∧
        dmaSubmit p src dst len irqEnable =
          (rc, { p with
            gSoc := { p.gSoc with perf := perf }, sIrqMasked := p.sIrqMasked &&& 1 })) ∨
    (p.dma.sState = .idle ∧ p.gSoc.dma.busy = false ∧ VlabValid src dst len ∧
      ∃ perf, dmaSubmit p src dst len irqEnable =
        (.ok, { p with
          gSoc := { p.gSoc with
            dma := p.gSoc.dma.submitted src dst len irqEnable, perf := perf }
          dma := { p.dma with sDoneFlag := 0, sErrLatch := 0, sState := .active }
          sIrqMasked := p.sIrqMasked &&& 1 })) := by
  rw [dmaSubmit, halIrqDisable]
  dsimp only
  by_cases hstate : p.dma.sState = .idle
  swap
  · refine Or.inl ⟨hstate, ?_⟩
    rw [if_pos hstate]
    rfl
  rw [if_neg (not_not.mpr hstate)]
  -- STARTING does not show in the checks, and a rejection goes back to IDLE
  obtain ⟨rc, hrc, hvalidate⟩ : ∃ rc,
      rc = (if p.gSoc.dma.busy then .errBusy else validateDescriptor p.dma src dst len) ∧
      validate (({ p with sIrqMasked := 1 } : Platform).setState .starting) src dst len =
        (rc, { p with
          gSoc := { p.gSoc with perf := socPerfCountMem p.gSoc.perf }
          dma := { p.dma with sState := .starting }
          sIrqMasked := 1 }) :=
    ⟨_, rfl, validate_eq (p := ({ p with sIrqMasked := 1 } : Platform).setState .starting)
      h.inited h.wired.regions h.wired.nRegions src dst len⟩
  rw [hvalidate]
  obtain ⟨hok, hnobusy⟩ := ht.validate_ok src dst len
  have hback : ({ p.dma with sState := .idle } : DmaDriver) = p.dma := by
    rw [← hstate]
  by_cases hbusy : p.gSoc.dma.busy = true
  · rw [if_pos hbusy] at hrc
    have hne : rc ≠ .ok := by
      rw [hrc]
      decide
    refine Or.inr (Or.inl ⟨hstate, Or.inl hbusy, rc, socPerfCountMem p.gSoc.perf, hne,
      iff_of_true hrc hbusy, ?_⟩)
    rw [if_pos hne, ← hback]
    rfl
  have hidle : p.gSoc.dma.busy = false := by simpa using hbusy
  rw [if_neg hbusy] at hrc
  by_cases hvalid : VlabValid src dst len
  · refine Or.inr (Or.inr ⟨hstate, hidle, hvalid, ?_⟩)
    rw [if_neg (not_not.mpr (hrc.trans (hok.mpr hvalid)))]
    obtain ⟨perf, hprogram⟩ := dmaProgram_eq
      (p := { p with
        gSoc := { p.gSoc with perf := socPerfCountMem p.gSoc.perf }
        dma := { p.dma with sState := .starting, sDoneFlag := 0, sErrLatch := 0 }
        sIrqMasked := 1 })
      ⟨h.inited, h.wired.countMem⟩ hidle hvalid irqEnable
    rw [hprogram]
    exact ⟨perf, rfl⟩
  · have hne : rc ≠ .ok := by
      rw [hrc]
      exact hok.not.mpr hvalid
    have hbusyrc : rc ≠ .errBusy := by
      rw [hrc]
      exact hnobusy
    refine Or.inr (Or.inl ⟨hstate, Or.inr hvalid, rc, socPerfCountMem p.gSoc.perf, hne,
      iff_of_false hbusyrc hbusy, ?_⟩)
    rw [if_pos hne, ← hback]
    rfl

/-- From IDLE, with the engine not BUSY, a valid descriptor is accepted. -/
theorem dmaSubmit_accepted {p : Platform} (h : Live p) (ht : VlabTables p.dma)
    (hstate : p.dma.sState = .idle) (hidle : p.gSoc.dma.busy = false) {src dst len : Word}
    (hvalid : VlabValid src dst len) (irqEnable : Int) :
    ∃ perf, dmaSubmit p src dst len irqEnable =
      (.ok, { p with
        gSoc := { p.gSoc with
          dma := p.gSoc.dma.submitted src dst len irqEnable, perf := perf }
        dma := { p.dma with sDoneFlag := 0, sErrLatch := 0, sState := .active }
        sIrqMasked := p.sIrqMasked &&& 1 }) := by
  rcases dmaSubmit_cases h ht src dst len irqEnable with ⟨hne, -⟩ | ⟨-, hbad, -⟩ | ⟨-, -, -, hok⟩
  · exact absurd hstate hne
  · rcases hbad with hbusy | hno
    · exact absurd (hidle.symm.trans hbusy) Bool.false_ne_true
    · exact absurd hvalid hno
  · exact hok

end VlabSoc
