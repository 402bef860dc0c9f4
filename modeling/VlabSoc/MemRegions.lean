/-
Memory regions and DMA capabilities (mem_regions.h, dma_caps.h).

The tables a platform hands to its DMA driver and to the SoC model: the memory
map, the capabilities of the DMA engine, and the peripheral FIFOs it may
stream.  A table is a C pointer with a count, hence an optional list together
with the word `n` of entries to look at.
-/
import VlabSoc.Buffer

namespace VlabSoc

/-! ### mem_regions.h -/

/-- `mem_type_t` -/
inductive MemType
  | rom
  | sram
  | dram
  | mmio
  | peripheral
  deriving DecidableEq, Inhabited

/-- `struct memory_region`, without the name and the permission bits, which no
function reads. -/
structure MemoryRegion where
  base : Word
  size : Word
  type : MemType
  deriving DecidableEq, Inhabited

/-- The range `addr .. addr + len` lies in the region; the ends are `uint64_t`. -/
def memoryRegionContains (r : MemoryRegion) (addr len : Word) : Bool :=
  if len = 0 then false
  else if addr.toNat + len.toNat > 0x100000000 then false
  else decide (r.base ≤ addr) && decide (addr.toNat + len.toNat ≤ r.base.toNat + r.size.toNat)

theorem memoryRegionContains_iff {r : MemoryRegion} {addr len : Word} :
    memoryRegionContains r addr len = true ↔
      0 < len.toNat ∧ addr.toNat + len.toNat ≤ 0x100000000 ∧ r.base.toNat ≤ addr.toNat ∧
        addr.toNat + len.toNat ≤ r.base.toNat + r.size.toNat := by
  have hlen : len = 0 ↔ len.toNat = 0 := by
    rw [← BitVec.toNat_inj]
    rfl
  unfold memoryRegionContains
  split_ifs with h0 h1
  · simp [hlen.mp h0]
  · simp only [false_iff]
    omega
  · rw [Bool.and_eq_true, decide_eq_true_iff, decide_eq_true_iff, BitVec.le_def]
    have : len.toNat ≠ 0 := fun h => h0 (hlen.mpr h)
    omega

def memoryRangeValid (r : MemoryRegion) (addr len : Word) : Bool :=
  decide (0 < len) && memoryRegionContains r addr len

/-- The range runs past the 32-bit space. -/
def memoryRangeOverflows (addr len : Word) : Bool :=
  decide (addr.toNat + len.toNat > 0x100000000)

/-- The two ranges overlap; the ends are `uint64_t`, so that they may lie past the 32-bit space. -/
def memoryRangeOverlaps (aBase aLen bBase bLen : Word) : Bool :=
  if aLen = 0 ∨ bLen = 0 then false
  else
    decide (aBase.toNat < bBase.toNat + bLen.toNat) &&
      decide (bBase.toNat < aBase.toNat + aLen.toNat)

/-- First region of the table that contains the range. -/
def findRegion (table : Option (List MemoryRegion)) (n addr len : Word) : Option MemoryRegion :=
  match table with
  | none => none
  | some t => (t.take n.toNat).find? fun r => memoryRegionContains r addr len

/-! ### dma_caps.h -/

/-- `DMA_ADDR_MEM` -/
abbrev dmaAddrMem : Int := 0

/-- `DMA_ADDR_PERIPHERAL` -/
abbrev dmaAddrPeripheral : Int := 1

/-- `DMA_ADDR_DEVICE` -/
abbrev dmaAddrDevice : Int := 2

/-- `DMA_EP_SRC` -/
def dmaEpSrc : Word := 0x1

/-- `DMA_EP_DST` -/
def dmaEpDst : Word := 0x2

/-- `struct dma_periph_ep`: a DMA-capable FIFO register and the roles it may play. -/
structure DmaPeriphEp where
  fifoAddr : Word
  roles : Word
  deriving DecidableEq, Inhabited

/-- `struct dma_caps`, without the two feature flags no function reads. -/
structure DmaCaps where
  alignment : Word
  /-- bytes; `0` is unlimited -/
  maxTransfer : Word
  supportsRamToRam : Bool
  supportsMemToPeriph : Bool
  supportsPeriphToMem : Bool
  deriving DecidableEq, Inhabited

/-- The capable endpoint anchored at `addr`. -/
def dmaPeriphFind (table : Option (List DmaPeriphEp)) (n addr : Word) : Option DmaPeriphEp :=
  match table with
  | none => none
  | some t => (t.take n.toNat).find? fun e => e.fifoAddr = addr

/-- Endpoint type from the memory map alone; `-1` when unmapped or overflowing. -/
def dmaEndpointType (table : Option (List MemoryRegion)) (n addr len : Word) : Int :=
  match findRegion table n addr len with
  | none => -1
  | some r =>
    if r.type = .sram ∨ r.type = .dram then dmaAddrMem
    else if r.type = .mmio ∨ r.type = .peripheral then dmaAddrPeripheral
    else dmaAddrDevice

def dmaDirectionSupported (caps : Option DmaCaps) (srcType dstType : Int) : Bool :=
  match caps with
  | none => false
  | some caps =>
    if srcType = dmaAddrMem ∧ dstType = dmaAddrMem then caps.supportsRamToRam
    else if srcType = dmaAddrMem ∧ (dstType = dmaAddrPeripheral ∨ dstType = dmaAddrDevice) then
      caps.supportsMemToPeriph
    else if (srcType = dmaAddrPeripheral ∨ srcType = dmaAddrDevice) ∧ dstType = dmaAddrMem then
      caps.supportsPeriphToMem
    else false

/-- The range is aligned and lies in a region that may serve as an endpoint of the type. -/
def dmaAddressValid (table : Option (List MemoryRegion)) (n : Word) (caps : Option DmaCaps)
    (addr len : Word) (type : Int) : Bool :=
  match caps with
  | none => false
  | some caps =>
    if len = 0 then false
    else if 1 < caps.alignment ∧ (addr % caps.alignment ≠ 0 ∨ len % caps.alignment ≠ 0) then false
    else
      let actual := dmaEndpointType table n addr len
      if actual < 0 then false
      else if type = dmaAddrMem then decide (actual = dmaAddrMem)
      else if type = dmaAddrPeripheral then
        decide (actual = dmaAddrPeripheral ∨ actual = dmaAddrDevice)
      else if type = dmaAddrDevice then decide (actual = dmaAddrDevice)
      else false

/-- A negative endpoint type is the one for unmapped. -/
theorem dmaEndpointType_neg {table : Option (List MemoryRegion)} {n addr len : Word}
    (h : dmaEndpointType table n addr len < 0) : dmaEndpointType table n addr len = -1 := by
  unfold dmaEndpointType at h ⊢
  cases hr : findRegion table n addr len with
  | none => rfl
  | some r =>
    rw [hr] at h
    dsimp only at h
    split_ifs at h
    · exact absurd h (by decide)
    · exact absurd h (by decide)
    · exact absurd h (by decide)

end VlabSoc
