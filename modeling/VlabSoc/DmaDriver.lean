/-
The DMA driver (drivers/dma.c) and the bring-up that calls it
(platform/platform_init.c).

`validate` is the BUSY poll followed by `validateDescriptor`, the checks on the
installed tables.
-/
import VlabSoc.Firmware

namespace VlabSoc

/-- The return codes of the driver. -/
inductive DmaRc
  | ok
  | errAddr
  | errAlign
  | errLen
  | errBusy
  | errUnsupported
  deriving DecidableEq

/-- Their values. -/
def DmaRc.code : DmaRc → Int
  | .ok => 0
  | .errAddr => -1
  | .errAlign => -2
  | .errLen => -3
  | .errBusy => -4
  | .errUnsupported => -5

/-- `ep_kind_t` -/
inductive EpKind
  | invalid
  | mem
  | periph
  | incapable
  deriving DecidableEq

/-- The kind of an endpoint, and its table entry if it is a FIFO. -/
def classify (d : DmaDriver) (addr len : Word) : EpKind × Option DmaPeriphEp :=
  match dmaPeriphFind d.sPeriphs d.sPeriphN addr with
  | some ep => (.periph, some ep)
  | none =>
    match findRegion d.sMap d.sMapN addr len with
    | none => (.invalid, none)
    | some r => if r.type = .sram ∨ r.type = .dram then (.mem, none) else (.incapable, none)

/-- `DMA_ADDR_MEM` or `DMA_ADDR_PERIPHERAL`. -/
def EpKind.addrType (k : EpKind) : Int := if k = .mem then dmaAddrMem else dmaAddrPeripheral

/-- The last check, `s_caps && !dma_direction_supported(...)`. -/
def validateDirection (d : DmaDriver) (srcType dstType : Int) : DmaRc :=
  if d.sCaps.isSome ∧ dmaDirectionSupported d.sCaps srcType dstType = false then .errUnsupported
  else .ok

/-- `validate` after its BUSY poll. -/
def validateDescriptor (d : DmaDriver) (src dst len : Word) : DmaRc :=
  let align :=
    match d.sCaps with
    | some caps => if 1 < caps.alignment then caps.alignment else 1
    | none => 1
  if len = 0 ∨ (1 < align ∧ len % align ≠ 0) then .errLen
  else if 1 < align ∧ (src % align ≠ 0 ∨ dst % align ≠ 0) then .errAlign
  else if ∃ caps ∈ d.sCaps, caps.maxTransfer ≠ 0 ∧ caps.maxTransfer < len then .errUnsupported
  else if d.sPeriphs.isSome ∨ 0 < d.sPeriphN then
    let s := classify d src len
    let t := classify d dst len
    if s.1 = .invalid ∨ t.1 = .invalid then .errAddr
    else if s.1 = .incapable ∨ t.1 = .incapable then .errUnsupported
    else if ∃ ep ∈ s.2, ep.roles &&& dmaEpSrc = 0 then .errUnsupported
    else if ∃ ep ∈ t.2, ep.roles &&& dmaEpDst = 0 then .errUnsupported
    else validateDirection d s.1.addrType t.1.addrType
  else
    let srcType := dmaEndpointType d.sMap d.sMapN src len
    let dstType := dmaEndpointType d.sMap d.sMapN dst len
    if srcType < 0 ∨ dstType < 0 then .errAddr
    else validateDirection d srcType dstType

def validate (p : Platform) (src dst len : Word) : DmaRc × Platform :=
  let st := halReadReg p vlabDmaStatus
  if st.1 &&& vlabDmaStatusBusy ≠ 0 then (.errBusy, st.2)
  else (validateDescriptor st.2.dma src dst len, st.2)

/-! ### Configuration -/

def dmaInit (p : Platform) : Platform :=
  { p with dma := { p.dma with
      sMap := some vlabMemoryMap, sMapN := vlabMemoryMapN, sCaps := some vlabDmaCaps
      sPeriphs := some vlabDmaPeriphEps, sPeriphN := vlabDmaPeriphEpsN } }

/-- A missing map and missing capabilities keep the installed ones. -/
def dmaConfigure (d : DmaDriver) (map : Option (List MemoryRegion)) (n : Word)
    (caps : Option DmaCaps) : DmaDriver :=
  let d := if map.isSome ∧ 0 < n then { d with sMap := map, sMapN := n } else d
  if caps.isSome then { d with sCaps := caps } else d

def dmaConfigurePeriph (d : DmaDriver) (eps : Option (List DmaPeriphEp)) (n : Word) : DmaDriver :=
  { d with sPeriphs := eps, sPeriphN := if eps.isSome then n else 0 }

/-! ### Transfers -/

/-- The three descriptor writes and START. -/
def dmaProgram (p : Platform) (src dst len : Word) (irqEnable : Int) : Platform :=
  let p := halWriteReg p vlabDmaSrc src
  let p := halWriteReg p vlabDmaDst dst
  let p := halWriteReg p vlabDmaLen len
  halWriteReg p vlabDmaCtrl
    (vlabDmaCtrlStart ||| (if irqEnable ≠ 0 then vlabDmaCtrlIrqEnable else 0))

def dmaStart (p : Platform) (src dst len : Word) (irqEnable : Int) : DmaRc × Platform :=
  let r := validate p src dst len
  if r.1 ≠ .ok then r else (.ok, dmaProgram r.2 src dst len irqEnable)

def dmaStatus (p : Platform) : Word × Platform := halReadReg p vlabDmaStatus

def dmaClear (p : Platform) : Platform := halWriteReg p vlabDmaIrqClear 1

def dmaErrCode (p : Platform) : Word × Platform := halReadReg p vlabDmaErrCode

/-- `s_state = st` -/
def Platform.setState (p : Platform) (st : DmaState) : Platform :=
  { p with dma := { p.dma with sState := st } }

def dmaSubmit (p : Platform) (src dst len : Word) (irqEnable : Int) : DmaRc × Platform :=
  let key := halIrqDisable p
  let p := key.2
  if p.dma.sState ≠ .idle then (.errBusy, halIrqRestore p key.1)
  else
    let p := p.setState .starting
    let r := validate p src dst len
    if r.1 ≠ .ok then (r.1, halIrqRestore (r.2.setState .idle) key.1)
    else
      let p := { r.2 with dma := { r.2.dma with sDoneFlag := 0, sErrLatch := 0 } }
      let p := dmaProgram p src dst len irqEnable
      (.ok, halIrqRestore (p.setState .active) key.1)

def dmaState (p : Platform) : DmaState := p.dma.sState

def dmaIsComplete (p : Platform) : Bool := decide (p.dma.sDoneFlag ≠ 0)

def dmaLatchedError (p : Platform) : Word := p.dma.sErrLatch

def dmaIrqCount (p : Platform) : Word := p.dma.sIrqCount

def dmaIsr (_line : Word) (p : Platform) : Platform :=
  let st := halReadReg p vlabDmaStatus
  let p := st.2
  let p :=
    if st.1 &&& vlabDmaStatusDone ≠ 0 then
      { p with dma := { p.dma with sDoneFlag := 1, sState := .complete } }
    else if st.1 &&& vlabDmaStatusError ≠ 0 then
      let code := halReadReg p vlabDmaErrCode
      { code.2 with dma := { code.2.dma with sErrLatch := code.1, sState := .error } }
    else p
  let p := intcClear (dmaClear p) vlabIrqDma
  { p with dma := { p.dma with sIrqCount := p.dma.sIrqCount + 1 } }

def dmaRecover (p : Platform) : Platform :=
  let key := halIrqDisable p
  let p := key.2
  let p :=
    if p.dma.sState = .error ∨ p.dma.sState = .complete then
      let p := intcClear (dmaClear (p.setState .recovery)) vlabIrqDma
      { p with dma := { p.dma with sDoneFlag := 0, sErrLatch := 0, sState := .idle } }
    else p
  halIrqRestore p key.1

/-! ### platform_init.c -/

def sRomDataInit : List Word := [0x11111111, 0x22222222, 0x33333333, 0x44444444]

def platformInit (p : Platform) : Platform :=
  let p := halWriteReg p vlabIntcEnable 0
  let p := halWriteReg p vlabPerfCtrl vlabPerfCtrlReset
  let p := halWriteReg p vlabPerfCtrl vlabPerfCtrlEnable
  let p := { p with sRamData := sRomDataInit, sRamBss := List.replicate 8 0 }
  dmaInit (uartInit p 0)

end VlabSoc
