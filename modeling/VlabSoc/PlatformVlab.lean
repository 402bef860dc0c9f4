/-
The VLAB platform: its tables (platform_vlab.c) and its register map
(soc_regs.h, frozen from configs/regs.yaml).

One memory map, one capability record and one table of DMA-capable FIFOs serve
both the SoC model and the drivers.
-/
import VlabSoc.MemRegions

namespace VlabSoc

/-! ### soc_regs.h -/

def vlabRomBase : Word := 0x00000000
def vlabSramBase : Word := 0x10000000
def vlabUartBase : Word := 0x20000000
def vlabTimerBase : Word := 0x20001000
def vlabDmaBase : Word := 0x20002000
def vlabIntcBase : Word := 0x20003000
def vlabPerfBase : Word := 0x20004000

abbrev vlabIrqTimer : Word := 1
abbrev vlabIrqDma : Word := 2

abbrev vlabUartTxdata : Word := 0x20000000
abbrev vlabUartRxdata : Word := 0x20000004
abbrev vlabUartStatus : Word := 0x20000008
abbrev vlabUartCtrl : Word := 0x2000000C
abbrev vlabUartBauddiv : Word := 0x20000010

abbrev vlabTimerCtrl : Word := 0x20001000
abbrev vlabTimerLoad : Word := 0x20001004
abbrev vlabTimerValue : Word := 0x20001008
abbrev vlabTimerIrqStatus : Word := 0x2000100C
abbrev vlabTimerIrqClear : Word := 0x20001010

abbrev vlabDmaSrc : Word := 0x20002000
abbrev vlabDmaDst : Word := 0x20002004
abbrev vlabDmaLen : Word := 0x20002008
abbrev vlabDmaCtrl : Word := 0x2000200C
abbrev vlabDmaStatus : Word := 0x20002010
abbrev vlabDmaIrqClear : Word := 0x20002014
abbrev vlabDmaErrCode : Word := 0x20002018

abbrev vlabIntcEnable : Word := 0x20003000
abbrev vlabIntcAck : Word := 0x20003008
abbrev vlabIntcClear : Word := 0x2000300C

abbrev vlabPerfCycles : Word := 0x20004000
abbrev vlabPerfMemAcc : Word := 0x20004004
abbrev vlabPerfDmaBytes : Word := 0x20004008
abbrev vlabPerfIrqCount : Word := 0x2000400C
abbrev vlabPerfStalls : Word := 0x20004010
abbrev vlabPerfCtrl : Word := 0x20004014

abbrev vlabUartCtrlEnable : Word := 0x1
abbrev vlabUartStatusTxEmpty : Word := 0x2
abbrev vlabUartStatusRxValid : Word := 0x4

abbrev vlabDmaCtrlStart : Word := 0x1
abbrev vlabDmaCtrlIrqEnable : Word := 0x2
abbrev vlabDmaStatusBusy : Word := 0x1
abbrev vlabDmaStatusDone : Word := 0x2
abbrev vlabDmaStatusError : Word := 0x4

abbrev vlabPerfCtrlEnable : Word := 0x1
abbrev vlabPerfCtrlReset : Word := 0x2

abbrev vlabIrqNone : Word := 0xFFFFFFFF

/-! ### configs/regs.yaml -/

/-- Access mode of a register. -/
inductive RegAccess
  | ro
  | wo
  | rw
  deriving DecidableEq

/-- One line of the `registers` section. -/
structure RegEntry where
  base : Word
  offset : Word
  access : RegAccess

def RegEntry.addr (r : RegEntry) : Word := r.base + r.offset

/-- The `registers` section, in its order. -/
def regsYaml : List RegEntry := [
  ⟨vlabUartBase, 0x00, .wo⟩,   -- UART_TXDATA
  ⟨vlabUartBase, 0x04, .ro⟩,   -- UART_RXDATA
  ⟨vlabUartBase, 0x08, .ro⟩,   -- UART_STATUS
  ⟨vlabUartBase, 0x0C, .rw⟩,   -- UART_CTRL
  ⟨vlabUartBase, 0x10, .rw⟩,   -- UART_BAUDDIV
  ⟨vlabTimerBase, 0x00, .rw⟩,  -- TIMER_CTRL
  ⟨vlabTimerBase, 0x04, .rw⟩,  -- TIMER_LOAD
  ⟨vlabTimerBase, 0x08, .ro⟩,  -- TIMER_VALUE
  ⟨vlabTimerBase, 0x0C, .rw⟩,  -- TIMER_IRQ_STATUS
  ⟨vlabTimerBase, 0x10, .wo⟩,  -- TIMER_IRQ_CLEAR
  ⟨vlabDmaBase, 0x00, .rw⟩,    -- DMA_SRC
  ⟨vlabDmaBase, 0x04, .rw⟩,    -- DMA_DST
  ⟨vlabDmaBase, 0x08, .rw⟩,    -- DMA_LEN
  ⟨vlabDmaBase, 0x0C, .rw⟩,    -- DMA_CTRL
  ⟨vlabDmaBase, 0x10, .ro⟩,    -- DMA_STATUS
  ⟨vlabDmaBase, 0x14, .wo⟩,    -- DMA_IRQ_CLEAR
  ⟨vlabDmaBase, 0x18, .ro⟩,    -- DMA_ERR_CODE
  ⟨vlabIntcBase, 0x00, .rw⟩,   -- INTC_ENABLE
  ⟨vlabIntcBase, 0x04, .ro⟩,   -- INTC_PENDING
  ⟨vlabIntcBase, 0x08, .ro⟩,   -- INTC_ACK
  ⟨vlabIntcBase, 0x0C, .wo⟩,   -- INTC_CLEAR
  ⟨vlabIntcBase, 0x10, .ro⟩,   -- INTC_ACTIVE
  ⟨vlabPerfBase, 0x00, .rw⟩,   -- PERF_CYCLES
  ⟨vlabPerfBase, 0x04, .rw⟩,   -- PERF_MEM_ACC
  ⟨vlabPerfBase, 0x08, .rw⟩,   -- PERF_DMA_BYTES
  ⟨vlabPerfBase, 0x0C, .rw⟩,   -- PERF_IRQ_COUNT
  ⟨vlabPerfBase, 0x10, .rw⟩,   -- PERF_STALLS
  ⟨vlabPerfBase, 0x14, .rw⟩]   -- PERF_CTRL

/-! ### platform_vlab.c -/

def vlabMemoryMap : List MemoryRegion := [
  ⟨vlabRomBase, 16384, .rom⟩,
  ⟨vlabSramBase, 65536, .sram⟩,
  ⟨vlabUartBase, 4096, .mmio⟩,
  ⟨vlabTimerBase, 4096, .mmio⟩,
  ⟨vlabDmaBase, 4096, .mmio⟩,
  ⟨vlabIntcBase, 4096, .mmio⟩,
  ⟨vlabPerfBase, 4096, .mmio⟩]

def vlabDmaCaps : DmaCaps where
  alignment := 4
  maxTransfer := 16384
  supportsRamToRam := true
  supportsMemToPeriph := true
  supportsPeriphToMem := true

/-- uart-tx sinks bytes, uart-rx sources them. -/
def vlabDmaPeriphEps : List DmaPeriphEp := [
  ⟨vlabUartTxdata, dmaEpDst⟩,
  ⟨vlabUartRxdata, dmaEpSrc⟩]

/-- The count `vlab_memory_map` returns. -/
abbrev vlabMemoryMapN : Word := 7

/-- The count `vlab_dma_periph_eps` returns. -/
abbrev vlabDmaPeriphEpsN : Word := 2

end VlabSoc
