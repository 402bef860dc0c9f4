/-
The SoC (soc.c, soc_cpu.c): integration, bus accesses, ticks, boot.

The callbacks of the DMA engine work on a `DmaCtx`, the UART and the SRAM of the
SoC.  `socReadSwitch` and `socWriteSwitch` are the `switch` over the routed
region inside `soc_read` and `soc_write`.  A tick is `socTickFront`, everything
before the DMA step, followed by `socTickDma`.
-/
import VlabSoc.SocTimer
import VlabSoc.SocUart
import VlabSoc.SocMemory
import VlabSoc.SocDma

namespace VlabSoc

/-- `soc_config_t` -/
structure SocConfig where
  cpuFrequencyMhz : Word
  uartLatencyTicks : Word
  dmaLatencyPerWordTicks : Word
  dmaBurst : Word
  deriving DecidableEq, Inhabited

def socConfigDefault : SocConfig where
  cpuFrequencyMhz := 100
  uartLatencyTicks := 5
  dmaLatencyPerWordTicks := 1
  dmaBurst := 4

/-- `soc_cpu_t` -/
structure SocCpu where
  romBase : Word
  sramTop : Word
  pc : Word
  sp : Word
  running : Bool
  bootTicks : Word
  deriving DecidableEq, Inhabited

def socCpuInit (romBase sramTop : Word) : SocCpu where
  romBase := romBase
  sramTop := sramTop
  pc := romBase
  sp := sramTop
  running := false
  bootTicks := 0

def socCpuReset (c : SocCpu) : SocCpu :=
  { c with pc := c.romBase, sp := c.sramTop, running := false, bootTicks := 0 }

def socCpuEnterMain (c : SocCpu) : SocCpu := { c with running := true }

/-! ### The bridges of the DMA engine -/

/-- What the bridges touch of the SoC. -/
structure DmaCtx where
  uart : SocUart
  sram : SocMem
  deriving Inhabited

def socDmaReaderBridge : SocDmaReader DmaCtx := fun s addr len out =>
  if addr = vlabUartBase + 0x04 then
    let r := socUartDmaRxDrain s.uart out len
    ⟨.ok, r.out, { s with uart := r.uart }⟩
  else
    let r := socMemReadBytes s.sram addr len out
    ⟨r.1, r.2, s⟩

def socDmaWriterBridge : SocDmaWriter DmaCtx := fun s addr payload len =>
  if addr = vlabUartBase + 0x00 then
    ⟨.ok, { s with uart := socUartDmaTxAppend s.uart payload len }⟩
  else
    let r := socMemWriteBytes s.sram addr payload len
    ⟨r.1, { s with sram := r.2 }⟩

/-! ### State, initialisation, reset -/

/-- `soc_t`; the two memories own their backing stores. -/
structure Soc where
  config : SocConfig
  rom : SocMem
  sram : SocMem
  regions : List MemoryRegion
  nRegions : Word
  perf : SocPerf
  intc : SocIntc
  uart : SocUart
  timer : SocTimer
  dma : SocDma DmaCtx
  cpu : SocCpu
  ticks : Word
  deriving Inhabited

/-- Entry `i` of the memory map, which the platform table has. -/
def Soc.region (s : Soc) (i : ℕ) : MemoryRegion := s.regions.getD i default

/-- Sets every field of an arbitrary `soc_t`, except the stream arrays. -/
def socInit (s : Soc) (cfg : Option SocConfig) : Soc :=
  let cfg := cfg.getD socConfigDefault
  let map := vlabMemoryMap
  let rom := map.getD 0 default
  let sram := map.getD 1 default
  { config := cfg
    rom := socMemInit rom.base rom.size true s.rom.data
    sram := socMemInit sram.base sram.size false s.sram.data
    regions := map
    nRegions := vlabMemoryMapN
    perf := socPerfInit
    intc := socIntcInit
    uart := socUartInit s.uart cfg.uartLatencyTicks
    timer := socTimerInit
    dma :=
      socDmaInit cfg.dmaLatencyPerWordTicks cfg.dmaBurst (some map) vlabMemoryMapN
        (some vlabDmaPeriphEps) vlabDmaPeriphEpsN (some vlabDmaCaps) socIrqDma
        (some socDmaReaderBridge) (some socDmaWriterBridge)
    cpu := socCpuInit vlabRomBase (sram.base + sram.size)
    ticks := 0 }

def socResetPeripherals (s : Soc) : Soc :=
  { s with
    uart := socUartReset s.uart
    timer := socTimerReset s.timer
    dma := socDmaReset s.dma
    intc := socIntcReset s.intc }

/-! ### Bus accesses -/

def socRoute (s : Soc) (addr : Word) : Int := socBusRoute s.regions s.nRegions addr

/-- Result of a read: return code, the caller's word, the SoC. -/
structure SocRead where
  rc : SocRc
  out : Word
  soc : Soc

/-- Result of a write. -/
structure SocWrite where
  rc : SocRc
  soc : Soc

/-- The routed read; unmapped addresses are a bus error. -/
def socReadSwitch (s : Soc) (kind : Int) (addr out : Word) : SocRead :=
  match kind with
  | 0 =>
    let r := socMemReadWord s.rom addr out
    ⟨r.1, r.2, s⟩
  | 1 =>
    let r := socMemReadWord s.sram addr out
    ⟨r.1, r.2, s⟩
  | 2 =>
    let r := socUartRead s.uart (addr - vlabUartBase) out
    ⟨r.rc, r.out, { s with uart := r.uart }⟩
  | 3 =>
    let r := socTimerRead s.timer (addr - vlabTimerBase) out
    ⟨r.1, r.2, s⟩
  | 4 =>
    let r := socDmaRead s.dma (addr - vlabDmaBase) out
    ⟨r.1, r.2, s⟩
  | 5 =>
    let r := socIntcRead s.intc s.perf (addr - vlabIntcBase) out
    ⟨r.rc, r.out, { s with intc := r.intc, perf := r.perf }⟩
  | 6 =>
    let r := socPerfRead s.perf (addr - vlabPerfBase) out
    ⟨r.1, r.2, s⟩
  | _ => ⟨.errBus, out, s⟩

def socRead (s : Soc) (addr out : Word) : SocRead :=
  if addr % 4 ≠ 0 then ⟨.errBus, out, { s with perf := socPerfCountStall s.perf 1 }⟩
  else
    let s := { s with perf := socPerfCountMem s.perf }
    let r := socReadSwitch s (socRoute s addr) addr out
    if r.rc ≠ .ok then
      ⟨.errBus, r.out, { r.soc with perf := socPerfCountStall r.soc.perf 1 }⟩
    else ⟨.ok, r.out, r.soc⟩

/-- The routed write; unmapped addresses are a bus error. -/
def socWriteSwitch (s : Soc) (kind : Int) (addr value : Word) : SocWrite :=
  match kind with
  | 0 =>
    let r := socMemWriteWord s.rom addr value
    ⟨r.1, { s with rom := r.2 }⟩
  | 1 =>
    let r := socMemWriteWord s.sram addr value
    ⟨r.1, { s with sram := r.2 }⟩
  | 2 =>
    let r := socUartWrite s.uart s.perf (addr - vlabUartBase) value
    ⟨r.rc, { s with uart := r.uart, perf := r.perf }⟩
  | 3 =>
    let r := socTimerWrite s.timer (addr - vlabTimerBase) value
    ⟨r.1, { s with timer := r.2 }⟩
  | 4 =>
    let r := socDmaWrite s.dma s.perf (addr - vlabDmaBase) value
    ⟨r.1, { s with
      dma := r.2.dma, perf := r.2.perf, intc := socIntcRaiseAll s.intc r.2.raises }⟩
  | 5 =>
    let r := socIntcWrite s.intc (addr - vlabIntcBase) value
    ⟨r.1, { s with intc := r.2 }⟩
  | 6 =>
    let r := socPerfWrite s.perf (addr - vlabPerfBase) value
    ⟨r.1, { s with perf := r.2 }⟩
  | _ => ⟨.errBus, s⟩

/-- `SOC_UART_ERR_DISABLED` passes through; bus errors count a stall. -/
def socWrite (s : Soc) (addr value : Word) : SocWrite :=
  if addr % 4 ≠ 0 then ⟨.errBus, { s with perf := socPerfCountStall s.perf 1 }⟩
  else
    let s := { s with perf := socPerfCountMem s.perf }
    let r := socWriteSwitch s (socRoute s addr) addr value
    if r.rc = .errBus then ⟨.errBus, { r.soc with perf := socPerfCountStall r.soc.perf 1 }⟩
    else r

def socSramWriteWord (s : Soc) (addr value : Word) : SocWrite := socWrite s addr value

def socSramReadWord (s : Soc) (addr out : Word) : SocRead := socRead s addr out

/-! ### Ticks -/

/-- A tick up to the DMA step. -/
def socTickFront (s : Soc) : Soc :=
  let s := { s with ticks := s.ticks + 1, perf := socPerfTick s.perf }
  let u := socUartStep s.uart
  let s := { s with uart := u.1, intc := socIntcRaiseAll s.intc u.2 }
  let t := socTimerStep s.timer
  { s with timer := t.1, intc := socIntcRaiseAll s.intc t.2 }

/-- The DMA step of a tick. -/
def socTickDma (s : Soc) : Soc :=
  let r := socDmaStep s.dma s.perf ⟨s.uart, s.sram⟩
  { s with
    dma := r.dma, perf := r.perf, uart := r.mem.uart, sram := r.mem.sram
    intc := socIntcRaiseAll s.intc r.raises }

/-- One iteration of `soc_step`. -/
def socTick (s : Soc) : Soc := socTickDma (socTickFront s)

def socStep (s : Soc) (n : Word) : Soc := socTick^[n.toNat] s

/-- A `soc_pred_t` with its context: the answer and the SoC it leaves. -/
abbrev SocPred := Soc → Bool × Soc

/-- The loop of `soc_run_until` with `n` ticks of the budget left. -/
def socRunUntilFrom (pred : SocPred) (elapsed : Word) : ℕ → Soc → Int × Soc
  | 0, s =>
    let r := pred s
    if r.1 then (elapsed.toInt, r.2) else (-1, r.2)
  | n + 1, s =>
    let r := pred s
    if r.1 then (elapsed.toInt, r.2) else socRunUntilFrom pred (elapsed + 1) n (socStep r.2 1)

/-- Without a predicate the loop runs its budget out. -/
def socRunUntil (s : Soc) (pred : Option SocPred) (maxTicks : Word) : Int × Soc :=
  socRunUntilFrom (pred.getD fun s => (false, s)) 0 maxTicks.toNat s

/-! ### Boot -/

/-- `SOC_BOOT_TICKS` -/
abbrev socBootTicks : Word := 5

/-- `soc_boot_info_t` -/
structure SocBootInfo where
  bootTicks : Word
  cpuFrequencyMhz : Word
  bootNs : Word

/-- `soc_boot` up to its `soc_step`; `romWords` may be `NULL`. -/
def socBootReset (s : Soc) (romWords : Option (List Word)) (nwords : Word) : Soc :=
  let s := { s with ticks := 0, cpu := socCpuReset s.cpu }
  let top := (s.region 1).base + (s.region 1).size
  let s := { s with cpu := { s.cpu with sramTop := top, sp := top } }
  let s := socResetPeripherals s
  let s := { s with perf := { socPerfResetCounters s.perf with enabled := true, ctrl := 0x1 } }
  let s :=
    match romWords with
    | some words =>
      if 0 < nwords then
        let rom := { s.rom with data := Buf.memset s.rom.data 0 0 (s.region 0).size.toNat }
        { s with rom := (socMemLoadWords rom words nwords).2 }
      else s
    | none => s
  { s with sram := socMemZero s.sram }

/-- The SoC after `soc_boot`. -/
def socBoot (s : Soc) (romWords : Option (List Word)) (nwords : Word) : Soc :=
  let s := socStep (socBootReset s romWords nwords) socBootTicks
  { s with cpu := socCpuEnterMain s.cpu }

/-- What `soc_boot` reports of the SoC it returns. -/
def socBootInfo (s : Soc) : SocBootInfo :=
  let mhz := if s.config.cpuFrequencyMhz = 0 then 100 else s.config.cpuFrequencyMhz
  ⟨s.ticks, mhz, s.ticks * 1000 / mhz⟩

end VlabSoc
