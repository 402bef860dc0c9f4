/-
What the operations of the SoC leave alone.

A bus read changes at most the UART, INTC and PERF blocks (`socRead_frame`), a
bus write the block it is routed to (`socWrite_keeps`, `socWrite_dma`,
`socWrite_intc`), a tick up to its DMA step neither memories nor engine
(`socTickFront_frame`).  `SocWired` is the part of the state `soc_init` fixes for
good: memory map, geometry of the memories and configuration of the engine.
Every operation keeps it.
-/
import VlabSoc.Soc

namespace VlabSoc

/-! ### Memories and UART -/

/-- Base, size and write protection. -/
def SocMem.shape (m : SocMem) : Word × Word × Bool := (m.base, m.size, m.readonly)

theorem socMemWriteWord_shape (m : SocMem) (addr value : Word) :
    (socMemWriteWord m addr value).2.shape = m.shape := by
  unfold socMemWriteWord
  split_ifs
  · rfl
  · rfl
  · split <;> rfl

theorem socMemWriteBytes_shape (m : SocMem) (addr : Word) (payload : Buf Byte) (len : Word) :
    (socMemWriteBytes m addr payload len).2.shape = m.shape := by
  rw [socMemWriteBytes_eq]
  split_ifs <;> rfl

/-- A write-protected memory keeps its bytes. -/
theorem socMemWriteWord_readonly {m : SocMem} (h : m.readonly = true) (addr value : Word) :
    socMemWriteWord m addr value = (.errBus, m) := by
  refine socMemWriteWord_err fun hok => ?_
  have hro := (socMemWriteWord_ok.mp hok).2.1
  rw [h] at hro
  exact absurd hro (by decide)

/-- A register read of the UART changes the RX flag only. -/
theorem socUartRead_frame (u : SocUart) (offset out : Word) :
    (socUartRead u offset out).uart =
      { u with rxValid := (socUartRead u offset out).uart.rxValid } := by
  unfold socUartRead
  split <;> rfl

/-- A register write of the UART does not reach latency, receiver and streams. -/
theorem socUartWrite_frame (u : SocUart) (perf : SocPerf) (offset value : Word) :
    (socUartWrite u perf offset value).uart =
      { u with
        ctrl := (socUartWrite u perf offset value).uart.ctrl
        bauddiv := (socUartWrite u perf offset value).uart.bauddiv
        txdata := (socUartWrite u perf offset value).uart.txdata
        busy := (socUartWrite u perf offset value).uart.busy } := by
  unfold socUartWrite
  split
  · split_ifs <;> rfl
  all_goals rfl

/-! ### Bus reads -/

theorem socReadSwitch_frame (s : Soc) (kind : Int) (addr out : Word) :
    (socReadSwitch s kind addr out).soc =
      { s with
        uart := (socReadSwitch s kind addr out).soc.uart
        intc := (socReadSwitch s kind addr out).soc.intc
        perf := (socReadSwitch s kind addr out).soc.perf } := by
  unfold socReadSwitch
  split <;> rfl

/-- A bus read changes UART, INTC and PERF only. -/
theorem socRead_frame (s : Soc) (addr out : Word) :
    (socRead s addr out).soc =
      { s with
        uart := (socRead s addr out).soc.uart
        intc := (socRead s addr out).soc.intc
        perf := (socRead s addr out).soc.perf } := by
  unfold socRead
  split_ifs
  · rfl
  · dsimp only
    have h := socReadSwitch_frame { s with perf := socPerfCountMem s.perf }
      (socRoute { s with perf := socPerfCountMem s.perf } addr) addr out
    split_ifs
    · rw [h]
    · rw [h]

theorem socRead_dma (s : Soc) (addr out : Word) : (socRead s addr out).soc.dma = s.dma := by
  rw [socRead_frame]

theorem socRead_rom (s : Soc) (addr out : Word) : (socRead s addr out).soc.rom = s.rom := by
  rw [socRead_frame]

theorem socRead_sram (s : Soc) (addr out : Word) : (socRead s addr out).soc.sram = s.sram := by
  rw [socRead_frame]

/-- On the UART a bus read is a register read, or nothing. -/
theorem socRead_uart (s : Soc) (addr out : Word) :
    (socRead s addr out).soc.uart = s.uart ∨
      (socRead s addr out).soc.uart = (socUartRead s.uart (addr - vlabUartBase) out).uart := by
  have hswitch : ∀ (t : Soc) (kind : Int), (socReadSwitch t kind addr out).soc.uart = t.uart ∨
      (socReadSwitch t kind addr out).soc.uart =
        (socUartRead t.uart (addr - vlabUartBase) out).uart := by
    intro t kind
    unfold socReadSwitch
    split
    case h_3 => exact Or.inr rfl
    all_goals exact Or.inl rfl
  unfold socRead
  split_ifs
  · exact Or.inl rfl
  · dsimp only
    split_ifs
    · exact hswitch { s with perf := socPerfCountMem s.perf } _
    · exact hswitch { s with perf := socPerfCountMem s.perf } _

/-! ### Bus writes -/

/-- What a bus write keeps, wherever it is routed to. -/
structure BusKeeps (s t : Soc) : Prop where
  config : t.config = s.config
  regions : t.regions = s.regions
  nRegions : t.nRegions = s.nRegions
  cpu : t.cpu = s.cpu
  ticks : t.ticks = s.ticks
  rom_shape : t.rom.shape = s.rom.shape
  sram_shape : t.sram.shape = s.sram.shape
  dma_cfg : t.dma.cfg = s.dma.cfg
  dmaTx : t.uart.dmaTx = s.uart.dmaTx
  dmaRx : t.uart.dmaRx = s.uart.dmaRx
  rom : s.rom.readonly = true → t.rom = s.rom

theorem socWriteSwitch_keeps (s : Soc) (kind : Int) (addr value : Word) :
    BusKeeps s (socWriteSwitch s kind addr value).soc := by
  unfold socWriteSwitch
  split
  · exact ⟨rfl, rfl, rfl, rfl, rfl, socMemWriteWord_shape s.rom addr value, rfl, rfl, rfl, rfl,
      fun h => by rw [socMemWriteWord_readonly h]⟩
  · exact ⟨rfl, rfl, rfl, rfl, rfl, rfl, socMemWriteWord_shape s.sram addr value, rfl, rfl, rfl,
      fun _ => rfl⟩
  · have huart := socUartWrite_frame s.uart s.perf (addr - vlabUartBase) value
    have htx := congrArg SocUart.dmaTx huart
    have hrx := congrArg SocUart.dmaRx huart
    exact ⟨rfl, rfl, rfl, rfl, rfl, rfl, rfl, rfl, htx, hrx, fun _ => rfl⟩
  · exact ⟨rfl, rfl, rfl, rfl, rfl, rfl, rfl, rfl, rfl, rfl, fun _ => rfl⟩
  · exact ⟨rfl, rfl, rfl, rfl, rfl, rfl, rfl,
      socDmaWrite_cfg s.dma s.perf (addr - vlabDmaBase) value, rfl, rfl, fun _ => rfl⟩
  all_goals exact ⟨rfl, rfl, rfl, rfl, rfl, rfl, rfl, rfl, rfl, rfl, fun _ => rfl⟩

/-- The state a write leaves, by its switch: PERF counts come on top. -/
theorem socWrite_soc (s : Soc) {addr : Word} (value : Word) (h : addr % 4 = 0) :
    ∃ perf, (socWrite s addr value).soc =
      { (socWriteSwitch { s with perf := socPerfCountMem s.perf } (socRoute s addr) addr
          value).soc with perf := perf } := by
  rw [socWrite, if_neg (not_not.mpr h)]
  dsimp only
  split_ifs
  · exact ⟨_, rfl⟩
  · exact ⟨_, rfl⟩

/-- A misaligned write only counts a stall. -/
theorem socWrite_misaligned (s : Soc) {addr : Word} (value : Word) (h : addr % 4 ≠ 0) :
    socWrite s addr value = ⟨.errBus, { s with perf := socPerfCountStall s.perf 1 }⟩ := by
  rw [socWrite, if_pos h]

/-- On the UART a bus write is a register write, or nothing. -/
theorem socWrite_uart (s : Soc) (addr value : Word) :
    (socWrite s addr value).soc.uart = s.uart ∨ ∃ perf,
      (socWrite s addr value).soc.uart =
        (socUartWrite s.uart perf (addr - vlabUartBase) value).uart := by
  by_cases h : addr % 4 = 0
  · obtain ⟨perf, hperf⟩ := socWrite_soc s value h
    rw [hperf]
    dsimp only
    unfold socWriteSwitch
    split
    case h_3 => exact Or.inr ⟨_, rfl⟩
    all_goals exact Or.inl rfl
  · exact Or.inl (by rw [socWrite_misaligned s value h])

theorem socWrite_keeps (s : Soc) (addr value : Word) :
    BusKeeps s (socWrite s addr value).soc := by
  by_cases h : addr % 4 = 0
  · obtain ⟨perf, hperf⟩ := socWrite_soc s value h
    have k := socWriteSwitch_keeps { s with perf := socPerfCountMem s.perf } (socRoute s addr)
      addr value
    rw [hperf]
    exact ⟨k.config, k.regions, k.nRegions, k.cpu, k.ticks, k.rom_shape, k.sram_shape, k.dma_cfg,
      k.dmaTx, k.dmaRx, k.rom⟩
  · rw [socWrite_misaligned s value h]
    exact ⟨rfl, rfl, rfl, rfl, rfl, rfl, rfl, rfl, rfl, rfl, fun _ => rfl⟩

/-- The registers through which a write reaches the DMA engine. -/
def dmaRegs : List Word := [vlabDmaSrc, vlabDmaDst, vlabDmaLen, vlabDmaCtrl, vlabDmaIrqClear]

theorem socDmaWrite_other {M : Type} {offset : Word}
    (h : offset ∉ ([0x00, 0x04, 0x08, 0x0C, 0x14] : List Word)) (d : SocDma M) (perf : SocPerf)
    (value : Word) : socDmaWrite d perf offset value = (.errBus, ⟨d, perf, []⟩) := by
  unfold socDmaWrite
  split
  case h_6 => rfl
  all_goals exact absurd (by decide) h

theorem dmaOffset_other {addr : Word} (haddr : addr ∉ dmaRegs) :
    addr - vlabDmaBase ∉ ([0x00, 0x04, 0x08, 0x0C, 0x14] : List Word) := by
  intro hmem
  apply haddr
  have hback : addr = (addr - vlabDmaBase) + vlabDmaBase := (BitVec.sub_add_cancel _ _).symm
  simp only [List.mem_cons, List.not_mem_nil, or_false] at hmem
  rcases hmem with h | h | h | h | h <;> · rw [hback, h]; decide

/-- A write to no DMA register does not touch the engine. -/
theorem socWrite_dma {addr : Word} (haddr : addr ∉ dmaRegs) (s : Soc) (value : Word) :
    (socWrite s addr value).soc.dma = s.dma := by
  by_cases h : addr % 4 = 0
  · obtain ⟨perf, hperf⟩ := socWrite_soc s value h
    rw [hperf]
    dsimp only
    unfold socWriteSwitch
    split
    case h_5 =>
      dsimp only
      rw [socDmaWrite_other (dmaOffset_other haddr)]
    all_goals rfl
  · rw [socWrite_misaligned s value h]

/-! ### Interrupt controller -/

/-- A read of anything but INTC_ACK does not touch the interrupt controller. -/
theorem socRead_intc {addr : Word} (haddr : addr ≠ vlabIntcAck) (s : Soc) (out : Word) :
    (socRead s addr out).soc.intc = s.intc := by
  have hswitch : ∀ (s : Soc) (kind : Int), (socReadSwitch s kind addr out).soc.intc = s.intc := by
    intro s kind
    unfold socReadSwitch
    split
    case h_6 =>
      show (socIntcRead s.intc s.perf (addr - vlabIntcBase) out).intc = s.intc
      unfold socIntcRead
      split
      case h_4 hoff =>
        rw [BitVec.sub_eq_iff_eq_add] at hoff
        exact absurd (hoff.trans (by decide)) haddr
      all_goals rfl
    all_goals rfl
  unfold socRead
  split_ifs
  · rfl
  · dsimp only
    split_ifs
    · exact hswitch _ _
    · exact hswitch _ _

/-- A write to no DMA register raises nothing: on the interrupt controller it is a register
write, or nothing. -/
theorem socWrite_intc_cases {addr : Word} (haddr : addr ∉ dmaRegs) (s : Soc) (value : Word) :
    (socWrite s addr value).soc.intc = s.intc ∨
      (socWrite s addr value).soc.intc =
        (socIntcWrite s.intc (addr - vlabIntcBase) value).2 := by
  by_cases h : addr % 4 = 0
  · obtain ⟨perf, hperf⟩ := socWrite_soc s value h
    rw [hperf]
    dsimp only
    unfold socWriteSwitch
    split
    case h_5 =>
      dsimp only
      rw [socDmaWrite_other (dmaOffset_other haddr)]
      exact Or.inl rfl
    case h_6 => exact Or.inr rfl
    all_goals exact Or.inl rfl
  · exact Or.inl (by rw [socWrite_misaligned s value h])

/-- It leaves the pending bits alone, and the enable bits unless it is to INTC_ENABLE. -/
theorem socWrite_intc {addr : Word} (haddr : addr ∉ dmaRegs) (s : Soc) (value : Word) :
    (socWrite s addr value).soc.intc.pending = s.intc.pending ∧
      (addr ≠ vlabIntcEnable → (socWrite s addr value).soc.intc.enable = s.intc.enable) := by
  rcases socWrite_intc_cases haddr s value with heq | heq
  · rw [heq]
    exact ⟨rfl, fun _ => rfl⟩
  · rw [heq]
    refine ⟨socIntcWrite_pending _ _ _, fun hne => ?_⟩
    unfold socIntcWrite
    split
    case h_1 hoff =>
      rw [BitVec.sub_eq_iff_eq_add] at hoff
      exact absurd (hoff.trans (by decide)) hne
    case h_2 =>
      dsimp only
      split_ifs <;> rfl
    case h_3 => rfl

/-! ### Ticks -/

theorem socTickFront_frame (s : Soc) :
    socTickFront s =
      { s with
        ticks := s.ticks + 1
        perf := socPerfTick s.perf
        uart := (socUartStep s.uart).1
        timer := (socTimerStep s.timer).1
        intc := socIntcRaiseAll (socIntcRaiseAll s.intc (socUartStep s.uart).2)
          (socTimerStep s.timer).2 } := rfl

theorem socTickFront_dma (s : Soc) : (socTickFront s).dma = s.dma := rfl

/-! ### Wiring -/

/-- What `soc_init` tells the engine. -/
def vlabDmaConfig (cfg : SocConfig) : SocDmaConfig DmaCtx :=
  (socDmaInit cfg.dmaLatencyPerWordTicks cfg.dmaBurst (some vlabMemoryMap) vlabMemoryMapN
    (some vlabDmaPeriphEps) vlabDmaPeriphEpsN (some vlabDmaCaps) socIrqDma
    (some socDmaReaderBridge) (some socDmaWriterBridge)).cfg

/-- The SoC is wired as `soc_init` wires it. -/
structure SocWired (s : Soc) : Prop where
  regions : s.regions = vlabMemoryMap
  nRegions : s.nRegions = vlabMemoryMapN
  rom : s.rom.shape = (vlabRomBase, 16384, true)
  sram : s.sram.shape = (vlabSramBase, 65536, false)
  dma : s.dma.cfg = vlabDmaConfig s.config

theorem SocWired.of_eq {s t : Soc} (h : SocWired s) (hregions : t.regions = s.regions)
    (hn : t.nRegions = s.nRegions) (hconfig : t.config = s.config)
    (hrom : t.rom.shape = s.rom.shape) (hsram : t.sram.shape = s.sram.shape)
    (hdma : t.dma.cfg = s.dma.cfg) : SocWired t :=
  ⟨hregions.trans h.regions, hn.trans h.nRegions, hrom.trans h.rom, hsram.trans h.sram,
    by rw [hdma, h.dma, hconfig]⟩

theorem SocWired.rom_base {s : Soc} (h : SocWired s) : s.rom.base = vlabRomBase :=
  congrArg Prod.fst h.rom

theorem SocWired.rom_size {s : Soc} (h : SocWired s) : s.rom.size = 16384 :=
  congrArg (fun p => p.2.1) h.rom

theorem SocWired.rom_readonly {s : Soc} (h : SocWired s) : s.rom.readonly = true :=
  congrArg (fun p => p.2.2) h.rom

theorem SocWired.sram_base {s : Soc} (h : SocWired s) : s.sram.base = vlabSramBase :=
  congrArg Prod.fst h.sram

theorem SocWired.sram_size {s : Soc} (h : SocWired s) : s.sram.size = 65536 :=
  congrArg (fun p => p.2.1) h.sram

theorem SocWired.sram_writable {s : Soc} (h : SocWired s) : s.sram.readonly = false :=
  congrArg (fun p => p.2.2) h.sram

theorem SocWired.reader {s : Soc} (h : SocWired s) :
    s.dma.cfg.reader = some socDmaReaderBridge := by
  rw [h.dma]
  rfl

theorem SocWired.writer {s : Soc} (h : SocWired s) :
    s.dma.cfg.writer = some socDmaWriterBridge := by
  rw [h.dma]
  rfl

theorem SocWired.route {s : Soc} (h : SocWired s) (addr : Word) :
    socRoute s addr = socBusRoute vlabMemoryMap vlabMemoryMapN addr := by
  rw [socRoute, h.regions, h.nRegions]

theorem socInit_wired (s : Soc) (cfg : Option SocConfig) : SocWired (socInit s cfg) :=
  ⟨rfl, rfl, rfl, rfl, rfl⟩

theorem SocWired.read {s : Soc} (h : SocWired s) (addr out : Word) :
    SocWired (socRead s addr out).soc := by
  rw [socRead_frame]
  exact h.of_eq rfl rfl rfl rfl rfl rfl

theorem SocWired.write {s : Soc} (h : SocWired s) (addr value : Word) :
    SocWired (socWrite s addr value).soc := by
  have k := socWrite_keeps s addr value
  exact h.of_eq k.regions k.nRegions k.config k.rom_shape k.sram_shape k.dma_cfg

theorem SocWired.tickFront {s : Soc} (h : SocWired s) : SocWired (socTickFront s) :=
  h.of_eq rfl rfl rfl rfl rfl rfl

/-- The bridges change bytes of the SRAM, never its shape. -/
theorem socDmaStep_shape {d : SocDma DmaCtx} (hr : d.cfg.reader = some socDmaReaderBridge)
    (hw : d.cfg.writer = some socDmaWriterBridge) (perf : SocPerf) (mem : DmaCtx) :
    (socDmaStep d perf mem).mem.sram.shape = mem.sram.shape := by
  by_cases hidle : d.busy = false ∨ d.faultStuckBusy = true
  · rw [socDmaStep_idle hidle]
  · rw [not_or, Bool.not_eq_false, Bool.not_eq_true] at hidle
    by_cases hrem : 1 < d.remaining
    · rw [socDmaStep_count hidle.1 hidle.2 hrem]
    · have hread : ∀ addr len out, (socDmaReaderBridge mem addr len out).ctx.sram = mem.sram := by
        intro addr len out
        unfold socDmaReaderBridge
        split_ifs <;> rfl
      have hwrite : ∀ (m : DmaCtx) (addr : Word) (payload : Buf Byte) (len : Word),
          (socDmaWriterBridge m addr payload len).ctx.sram.shape = m.sram.shape := by
        intro m addr payload len
        unfold socDmaWriterBridge
        split_ifs
        · rfl
        · exact socMemWriteBytes_shape m.sram addr payload len
      rw [socDmaStep_complete hidle.1 hidle.2 (by omega),
        socDmaComplete_eq (d := { d with remaining := d.remaining - 1 }) hr hw]
      dsimp only
      split_ifs
      · rw [hread]
      · rw [hwrite, hread]
      · rw [hwrite, hread]

theorem SocWired.tickDma {s : Soc} (h : SocWired s) : SocWired (socTickDma s) :=
  h.of_eq rfl rfl rfl rfl (socDmaStep_shape h.reader h.writer s.perf ⟨s.uart, s.sram⟩)
    (socDmaStep_cfg s.dma s.perf ⟨s.uart, s.sram⟩)

theorem SocWired.tick {s : Soc} (h : SocWired s) : SocWired (socTick s) := h.tickFront.tickDma

theorem SocWired.step {s : Soc} (h : SocWired s) (n : Word) : SocWired (socStep s n) := by
  unfold socStep
  induction n.toNat with
  | zero => exact h
  | succ k ih =>
    rw [Function.iterate_succ_apply']
    exact ih.tick

theorem SocWired.resetPeripherals {s : Soc} (h : SocWired s) :
    SocWired (socResetPeripherals s) := h.of_eq rfl rfl rfl rfl rfl rfl

end VlabSoc
