/-
An aligned access is the routed one, up to PERF counts (`socRead_switch`,
`socWrite_switch`).

The register accesses the drivers make, on a wired SoC: each succeeds, counts a
memory access, and is the register function of its peripheral.
-/
import VlabSoc.BusContract

namespace VlabSoc

variable {s : Soc}

/-- An aligned read is the routed one, up to PERF. -/
theorem socRead_switch (s : Soc) {addr : Word} (out : Word) (h : addr % 4 = 0) :
    let r := socReadSwitch { s with perf := socPerfCountMem s.perf } (socRoute s addr) addr out
    (socRead s addr out).rc = r.rc ∧ (socRead s addr out).out = r.out ∧
      ∃ perf, (socRead s addr out).soc = { r.soc with perf := perf } := by
  intro r
  have hroute : socRoute { s with perf := socPerfCountMem s.perf } addr = socRoute s addr := rfl
  rw [socRead, if_neg (not_not.mpr h)]
  dsimp only
  rw [hroute]
  split_ifs with hrc
  · have hfail := socReadSwitch_fails hrc
    exact ⟨(congrArg SocRead.rc hfail).symm, rfl, _, rfl⟩
  · exact ⟨(not_not.mp hrc).symm, rfl, _, rfl⟩

/-- An aligned write is the routed one, up to PERF. -/
theorem socWrite_switch (s : Soc) {addr : Word} (value : Word) (h : addr % 4 = 0) :
    let r := socWriteSwitch { s with perf := socPerfCountMem s.perf } (socRoute s addr) addr value
    (socWrite s addr value).rc = r.rc ∧
      ∃ perf, (socWrite s addr value).soc = { r.soc with perf := perf } := by
  intro r
  have hroute : socRoute { s with perf := socPerfCountMem s.perf } addr = socRoute s addr := rfl
  rw [socWrite, if_neg (not_not.mpr h)]
  dsimp only
  rw [hroute]
  split_ifs with hrc
  · exact ⟨hrc.symm, _, rfl⟩
  · exact ⟨rfl, _, rfl⟩

/-- A successful read is the routed one. -/
theorem socRead_of_ok {addr out : Word} (h : (socRead s addr out).rc = .ok) :
    (socRead s addr out).out =
        (socReadSwitch { s with perf := socPerfCountMem s.perf } (socRoute s addr) addr out).out ∧
      (socRead s addr out).soc =
        (socReadSwitch { s with perf := socPerfCountMem s.perf } (socRoute s addr) addr out).soc := by
  unfold socRead at h ⊢
  split_ifs at h ⊢ with h4
  dsimp only at h ⊢
  split_ifs at h ⊢
  exact ⟨rfl, rfl⟩

/-- A successful write is the routed one. -/
theorem socWrite_of_ok {addr value : Word} (h : (socWrite s addr value).rc = .ok) :
    (socWrite s addr value).soc =
      (socWriteSwitch { s with perf := socPerfCountMem s.perf } (socRoute s addr) addr value).soc := by
  unfold socWrite at h ⊢
  split_ifs at h ⊢ with h4
  dsimp only at h ⊢
  split_ifs at h ⊢
  rfl

/-! ### UART -/

/-- The UART registers that can be read. -/
def uartReadRegs : List Word := [vlabUartRxdata, vlabUartStatus, vlabUartCtrl, vlabUartBauddiv]

theorem SocWired.read_uartReg (h : SocWired s) {addr : Word} (ha : addr ∈ uartReadRegs)
    (out : Word) :
    let r := socUartRead s.uart (addr - vlabUartBase) out
    (socRead s addr out).rc = .ok ∧ (socRead s addr out).out = r.out ∧
      (socRead s addr out).soc = { s with uart := r.uart, perf := socPerfCountMem s.perf } := by
  have hfix : Readable addr ∧ socBusRoute vlabMemoryMap vlabMemoryMapN addr = 2 := by
    simp only [uartReadRegs, List.mem_cons, List.not_mem_nil, or_false] at ha
    rcases ha with rfl | rfl | rfl | rfl <;> exact ⟨by decide, by decide⟩
  have hok := (h.read_ok addr out).mpr hfix.1
  obtain ⟨hout, hsoc⟩ := socRead_of_ok hok
  rw [hout, hsoc, h.route, hfix.2]
  exact ⟨hok, rfl, rfl⟩

/-- Writing a UART register, TXDATA while it is enabled. -/
theorem SocWired.write_uartReg (h : SocWired s) {addr : Word}
    (ha : addr ∈ ([vlabUartTxdata, vlabUartCtrl, vlabUartBauddiv] : List Word))
    (hen : addr = vlabUartTxdata → s.uart.ctrl &&& socUartCtrlEnable ≠ 0) (value : Word) :
    let r := socUartWrite s.uart (socPerfCountMem s.perf) (addr - vlabUartBase) value
    (socWrite s addr value).soc = { s with uart := r.uart, perf := r.perf } := by
  have hfix : Writable addr ∧ socBusRoute vlabMemoryMap vlabMemoryMapN addr = 2 := by
    simp only [List.mem_cons, List.not_mem_nil, or_false] at ha
    rcases ha with rfl | rfl | rfl <;> exact ⟨by decide, by decide⟩
  have hok := (h.write_ok addr value).mpr ⟨hfix.1, fun ht => hen ht.1 ht.2⟩
  rw [socWrite_of_ok hok, h.route, hfix.2]
  rfl

/-! ### DMA engine -/

/-- The DMA registers that can be read. -/
def dmaReadRegs : List Word :=
  [vlabDmaSrc, vlabDmaDst, vlabDmaLen, vlabDmaCtrl, vlabDmaStatus, vlabDmaErrCode]

theorem SocWired.write_dmaReg (h : SocWired s) {addr : Word} (ha : addr ∈ dmaRegs) (value : Word) :
    let r := (socDmaWrite s.dma (socPerfCountMem s.perf) (addr - vlabDmaBase) value).2
    (socWrite s addr value).soc =
      { s with dma := r.dma, perf := r.perf, intc := socIntcRaiseAll s.intc r.raises } := by
  have hfix : Writable addr ∧ addr ≠ vlabUartTxdata ∧
      socBusRoute vlabMemoryMap vlabMemoryMapN addr = 4 := by
    simp only [dmaRegs, List.mem_cons, List.not_mem_nil, or_false] at ha
    rcases ha with rfl | rfl | rfl | rfl | rfl <;> exact ⟨by decide, by decide, by decide⟩
  obtain ⟨hw, hne, hroute⟩ := hfix
  rw [socWrite_of_ok ((h.write_ok addr value).mpr ⟨hw, fun ht => hne ht.1⟩), h.route, hroute]
  rfl

theorem SocWired.read_dmaReg (h : SocWired s) {addr : Word} (ha : addr ∈ dmaReadRegs) (out : Word) :
    (socRead s addr out).rc = .ok ∧
      (socRead s addr out).out = (socDmaRead s.dma (addr - vlabDmaBase) out).2 ∧
      (socRead s addr out).soc = { s with perf := socPerfCountMem s.perf } := by
  have hfix : Readable addr ∧ socBusRoute vlabMemoryMap vlabMemoryMapN addr = 4 := by
    simp only [dmaReadRegs, List.mem_cons, List.not_mem_nil, or_false] at ha
    rcases ha with rfl | rfl | rfl | rfl | rfl | rfl <;> exact ⟨by decide, by decide⟩
  have hok := (h.read_ok addr out).mpr hfix.1
  obtain ⟨hout, hsoc⟩ := socRead_of_ok hok
  rw [hout, hsoc, h.route, hfix.2]
  exact ⟨hok, rfl, rfl⟩

/-! ### Interrupt controller -/

theorem SocWired.read_ack (h : SocWired s) (out : Word) :
    let r := socIntcRead s.intc (socPerfCountMem s.perf) 0x08 out
    (socRead s vlabIntcAck out).rc = .ok ∧ (socRead s vlabIntcAck out).out = r.out ∧
      (socRead s vlabIntcAck out).soc = { s with intc := r.intc, perf := r.perf } := by
  have hok := (h.read_ok vlabIntcAck out).mpr (by decide)
  obtain ⟨hout, hsoc⟩ := socRead_of_ok hok
  rw [hout, hsoc, h.route, show socBusRoute vlabMemoryMap vlabMemoryMapN vlabIntcAck = 5 from
    by decide]
  exact ⟨hok, rfl, rfl⟩

theorem SocWired.write_intc (h : SocWired s) {addr : Word}
    (ha : addr = vlabIntcEnable ∨ addr = vlabIntcClear) (value : Word) :
    (socWrite s addr value).soc =
      { s with
        perf := socPerfCountMem s.perf
        intc := (socIntcWrite s.intc (addr - vlabIntcBase) value).2 } := by
  have hfix : Writable addr ∧ addr ≠ vlabUartTxdata ∧
      socBusRoute vlabMemoryMap vlabMemoryMapN addr = 5 := by
    rcases ha with rfl | rfl <;> exact ⟨by decide, by decide, by decide⟩
  obtain ⟨hw, hne, hroute⟩ := hfix
  rw [socWrite_of_ok ((h.write_ok addr value).mpr ⟨hw, fun ht => hne ht.1⟩), h.route, hroute]
  rfl

end VlabSoc
