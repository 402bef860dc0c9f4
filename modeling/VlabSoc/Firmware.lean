/-
Below the drivers: the host bridge (host_bridge.c), the HAL (hal/host.c), the
interrupt and UART drivers (intc.c, uart.c), and the state they and the DMA
driver keep in statics.

* `halReadReg_eq`, `halWriteReg_eq` — on an initialised host a HAL access is the
  bus access of the live model.
-/
import VlabSoc.SocRegs

namespace VlabSoc

/-- `dma_state_t` -/
inductive DmaState
  | idle
  | starting
  | active
  | complete
  | error
  | recovery
  deriving DecidableEq, Inhabited

/-- The statics of drivers/dma.c. -/
structure DmaDriver where
  sMap : Option (List MemoryRegion)
  sMapN : Word
  sCaps : Option DmaCaps
  sPeriphs : Option (List DmaPeriphEp)
  sPeriphN : Word
  sState : DmaState
  sDoneFlag : Word
  sErrLatch : Word
  sIrqCount : Word
  deriving Inhabited

/-- The statics at program start. -/
def dmaDriverStart : DmaDriver where
  sMap := none
  sMapN := 0
  sCaps := none
  sPeriphs := none
  sPeriphN := 0
  sState := .idle
  sDoneFlag := 0
  sErrLatch := 0
  sIrqCount := 0

/-- The live model with everything linked below the dispatcher. -/
structure Platform where
  gSoc : Soc
  gInited : Bool
  sIrqMasked : Word
  dma : DmaDriver
  sRamData : List Word
  sRamBss : List Word
  deriving Inhabited

/-- The platform at program start, over a `g_soc` nobody has initialised. -/
def platformStart (gSoc : Soc) : Platform where
  gSoc := gSoc
  gInited := false
  sIrqMasked := 0
  dma := dmaDriverStart
  sRamData := List.replicate 4 0
  sRamBss := List.replicate 8 0

/-! ### host_bridge.c -/

def socHostInit (p : Platform) (cfg : Option SocConfig) : Platform :=
  { p with gSoc := socInit p.gSoc (some (cfg.getD socConfigDefault)), gInited := true }

/-- `if (!g_inited) soc_host_init(NULL);` -/
def socHostEnsure (p : Platform) : Platform := if p.gInited then p else socHostInit p none

def socHostBoot (p : Platform) : Platform :=
  let p := socHostEnsure p
  { p with gSoc := socBoot p.gSoc none 0 }

def socHostStep (p : Platform) (n : Word) : Platform :=
  let p := socHostEnsure p
  { p with gSoc := socStep p.gSoc n }

/-- A failed read is 0. -/
def vlabMmioRead (p : Platform) (addr : Word) : Word × Platform :=
  let p := socHostEnsure p
  let r := socRead p.gSoc addr 0
  (if r.rc ≠ .ok then 0 else r.out, { p with gSoc := r.soc })

def vlabMmioWrite (p : Platform) (addr val : Word) : Platform :=
  let p := socHostEnsure p
  { p with gSoc := (socWrite p.gSoc addr val).soc }

def vlabTestRaiseIrq (p : Platform) (line : Word) : Platform :=
  let p := socHostEnsure p
  { p with gSoc := { p.gSoc with intc := socIntcRaise p.gSoc.intc line.toInt } }

/-- The loop of `vlab_test_dma_complete` with `n` rounds left; `st` keeps what was read last. -/
def dmaCompleteLoop : ℕ → Word → Soc → Soc
  | 0, _, s => s
  | n + 1, st, s =>
    let r := socRead s (vlabDmaBase + 0x10) st
    if r.out &&& (vlabDmaStatusDone ||| vlabDmaStatusError) ≠ 0 then r.soc
    else if r.out &&& vlabDmaStatusBusy = 0 then r.soc
    else dmaCompleteLoop n r.out (socStep r.soc 1)

def vlabTestDmaComplete (p : Platform) : Platform :=
  if p.gInited then { p with gSoc := dmaCompleteLoop 100000 0 p.gSoc } else p

/-- The line is raised by the stored CTRL, not by what START latched. -/
def vlabTestDmaError (p : Platform) (code : Word) : Platform :=
  if p.gInited then
    let d := { p.gSoc.dma with busy := false, done := false, error := true, errCode := code }
    { p with gSoc := { p.gSoc with
        dma := d
        intc :=
          if d.ctrl &&& socDmaCtrlIrqEnable ≠ 0 then socIntcRaise p.gSoc.intc socIrqDma
          else p.gSoc.intc } }
  else p

/-! ### hal/host.c -/

def halReadReg (p : Platform) (addr : Word) : Word × Platform := vlabMmioRead p addr

def halWriteReg (p : Platform) (addr val : Word) : Platform := vlabMmioWrite p addr val

/-- Returns the previous mask. -/
def halIrqDisable (p : Platform) : Word × Platform := (p.sIrqMasked, { p with sIrqMasked := 1 })

def halIrqRestore (p : Platform) (state : Word) : Platform :=
  { p with sIrqMasked := state &&& 1 }

/-! ### hal/hal.c -/

def halSetBits (p : Platform) (addr mask : Word) : Platform :=
  let cur := halReadReg p addr
  halWriteReg cur.2 addr (cur.1 ||| mask)

def halClearBits (p : Platform) (addr mask : Word) : Platform :=
  let cur := halReadReg p addr
  halWriteReg cur.2 addr (cur.1 &&& ~~~mask)

def halModifyReg (p : Platform) (addr mask val : Word) : Platform :=
  let cur := halReadReg p addr
  halWriteReg cur.2 addr ((cur.1 &&& ~~~mask) ||| (val &&& mask))

/-! ### drivers/intc.c, drivers/uart.c -/

def intcEnable (p : Platform) (mask : Word) : Platform :=
  halWriteReg p vlabIntcEnable (mask &&& 0x7)

def intcClear (p : Platform) (irq : Word) : Platform := halWriteReg p vlabIntcClear irq

def uartInit (p : Platform) (bauddiv : Word) : Platform :=
  let p := halWriteReg p vlabUartBauddiv bauddiv
  halWriteReg p vlabUartCtrl vlabUartCtrlEnable

/-- The return codes of the UART driver. -/
inductive UartRc
  | ok
  | errDisabled
  | errTimeout
  deriving DecidableEq

/-- Their values. -/
def UartRc.code : UartRc → Int
  | .ok => 0
  | .errDisabled => -1
  | .errTimeout => -2

/-- The TX_EMPTY poll with `n` rounds left, and whether it ended in a `break`. -/
def uartPoll : ℕ → Platform → Bool × Platform
  | 0, p => (true, p)
  | n + 1, p =>
    let st := halReadReg p vlabUartStatus
    if st.1 &&& vlabUartStatusTxEmpty ≠ 0 then (true, st.2)
    else if n = 0 then (false, st.2)
    else uartPoll n st.2

def uartWriteByte (p : Platform) (b : Byte) : UartRc × Platform :=
  let ctrl := halReadReg p vlabUartCtrl
  if ctrl.1 &&& vlabUartCtrlEnable = 0 then (.errDisabled, ctrl.2)
  else
    let polled := uartPoll 1000 ctrl.2
    if polled.1 then (.ok, halWriteReg polled.2 vlabUartTxdata (b.setWidth 32))
    else (.errTimeout, polled.2)

/-- Result of a read: return code, what `out` points to, the platform. -/
structure UartReadByte where
  rc : UartRc
  out : Option Byte
  platform : Platform

/-- `out` is `none` for a null pointer. -/
def uartReadByte (p : Platform) (out : Option Byte) : UartReadByte :=
  let st := halReadReg p vlabUartStatus
  if st.1 &&& vlabUartStatusRxValid = 0 then ⟨.errTimeout, out, st.2⟩
  else
    let v := halReadReg st.2 vlabUartRxdata
    ⟨.ok, out.map fun _ => (v.1 &&& 0xFF).setWidth 8, v.2⟩

/-! ### Accesses on a live host -/

/-- The host is initialised and its SoC wired. -/
structure Live (p : Platform) : Prop where
  inited : p.gInited = true
  wired : SocWired p.gSoc

theorem Live.ensure {p : Platform} (h : Live p) : socHostEnsure p = p := by
  rw [socHostEnsure, if_pos h.inited]

/-- Only the SoC and its flag change. -/
theorem socHostEnsure_frame (p : Platform) :
    socHostEnsure p =
      { p with gSoc := (socHostEnsure p).gSoc, gInited := (socHostEnsure p).gInited } := by
  unfold socHostEnsure
  split_ifs <;> rfl

theorem socHostEnsure_live (p : Platform) (h : p.gInited = true → SocWired p.gSoc) :
    Live (socHostEnsure p) := by
  unfold socHostEnsure
  split_ifs with hi
  · exact ⟨hi, h hi⟩
  · exact ⟨rfl, socInit_wired _ _⟩

theorem halReadReg_eq {p : Platform} (h : Live p) (addr : Word) :
    halReadReg p addr =
      (if (socRead p.gSoc addr 0).rc ≠ .ok then 0 else (socRead p.gSoc addr 0).out,
        { p with gSoc := (socRead p.gSoc addr 0).soc }) := by
  rw [halReadReg, vlabMmioRead, h.ensure]

theorem halWriteReg_eq {p : Platform} (h : Live p) (addr val : Word) :
    halWriteReg p addr val = { p with gSoc := (socWrite p.gSoc addr val).soc } := by
  rw [halWriteReg, vlabMmioWrite, h.ensure]

theorem Live.write {p : Platform} (h : Live p) (addr val : Word) : Live (halWriteReg p addr val) := by
  rw [halWriteReg_eq h]
  exact ⟨h.inited, h.wired.write addr val⟩

/-- Reading a UART register. -/
theorem Live.read_uartReg {p : Platform} (h : Live p) {addr : Word} (ha : addr ∈ uartReadRegs) :
    let r := socUartRead p.gSoc.uart (addr - vlabUartBase) 0
    halReadReg p addr =
      (r.out, { p with gSoc := { p.gSoc with
          uart := r.uart, perf := socPerfCountMem p.gSoc.perf } }) := by
  intro r
  obtain ⟨hok, hout, hsoc⟩ := h.wired.read_uartReg ha 0
  rw [halReadReg_eq h, if_neg (not_not.mpr hok), hout, hsoc]

/-- Reading a DMA register. -/
theorem Live.read_dmaReg {p : Platform} (h : Live p) {addr : Word} (ha : addr ∈ dmaReadRegs) :
    halReadReg p addr =
      ((socDmaRead p.gSoc.dma (addr - vlabDmaBase) 0).2,
        { p with gSoc := { p.gSoc with perf := socPerfCountMem p.gSoc.perf } }) := by
  obtain ⟨hok, hout, hsoc⟩ := h.wired.read_dmaReg ha 0
  rw [halReadReg_eq h, if_neg (not_not.mpr hok), hout, hsoc]

/-- Writing a DMA register. -/
theorem Live.write_dmaReg {p : Platform} (h : Live p) {addr : Word} (ha : addr ∈ dmaRegs)
    (val : Word) :
    let r := (socDmaWrite p.gSoc.dma (socPerfCountMem p.gSoc.perf) (addr - vlabDmaBase) val).2
    halWriteReg p addr val =
      { p with gSoc := { p.gSoc with
          dma := r.dma, perf := r.perf, intc := socIntcRaiseAll p.gSoc.intc r.raises } } := by
  intro r
  rw [halWriteReg_eq h, h.wired.write_dmaReg ha val]

end VlabSoc
