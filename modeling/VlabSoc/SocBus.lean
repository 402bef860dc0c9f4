/-
The bus (bus.c): which region of the memory map owns an address.

ROM and SRAM, entries 0 and 1 of the map, are probed with word width, the MMIO
windows behind them with a single byte.  `socBusRoute_vlab` reads the decode off
for the VLAB map and every word-aligned address.
-/
import VlabSoc.PlatformVlab

namespace VlabSoc

/-- Return codes of the SoC model: `SOC_OK` is 0, `SOC_ERR_BUS` is -100 and
`SOC_UART_ERR_DISABLED` is -1. -/
inductive SocRc
  | ok
  | errBus
  | uartErrDisabled
  deriving DecidableEq, Inhabited

/-- The loop `for (i = 0; i < n; i++) if (p) return i;` from index `i` on. -/
def scanFrom (p : ℕ → MemoryRegion → Bool) : ℕ → List MemoryRegion → Option ℕ
  | _, [] => none
  | i, r :: rs => if p i r then some i else scanFrom p (i + 1) rs

/-- Index of the region that owns `addr`, `-1` when unmapped. -/
def socBusRoute (regions : List MemoryRegion) (n addr : Word) : Int :=
  let first : Int :=
    match scanFrom (fun _ r => memoryRegionContains r addr 4) 0 (regions.take n.toNat) with
    | some i => cInt i
    | none => -1
  if first = 0 ∨ first = 1 then first
  else
    match scanFrom (fun i r => memoryRegionContains r addr 1 && decide (2 ≤ cInt i)) 0
        (regions.take n.toNat) with
    | some i => cInt i
    | none => -1

/-! ### The decode of the VLAB map -/

/-- `addr` lies in the window of `size` bytes at `base`. -/
def InWindow (base : Word) (size : ℕ) (addr : Word) : Prop :=
  base.toNat ≤ addr.toNat ∧ addr.toNat < base.toNat + size

instance (base : Word) (size : ℕ) (addr : Word) : Decidable (InWindow base size addr) :=
  inferInstanceAs (Decidable (_ ∧ _))

/-- For aligned addresses a probe of at most word width is the window test. -/
theorem contains_aligned {base size addr len : Word} {t : MemType}
    (haddr : addr.toNat % 4 = 0) (hbase : base.toNat % 4 = 0) (hsize : size.toNat % 4 = 0)
    (hfit : base.toNat + size.toNat ≤ 0x100000000) (hlen : 0 < len.toNat ∧ len.toNat ≤ 4) :
    memoryRegionContains ⟨base, size, t⟩ addr len = decide (InWindow base size.toNat addr) := by
  rw [Bool.eq_iff_iff, memoryRegionContains_iff, decide_eq_true_iff, InWindow]
  dsimp only
  omega

/-- The decode of a word-aligned address on the VLAB map. -/
theorem socBusRoute_vlab {addr : Word} (haddr : addr.toNat % 4 = 0) :
    socBusRoute vlabMemoryMap vlabMemoryMapN addr =
      if InWindow vlabRomBase 16384 addr then 0
      else if InWindow vlabSramBase 65536 addr then 1
      else if InWindow vlabUartBase 4096 addr then 2
      else if InWindow vlabTimerBase 4096 addr then 3
      else if InWindow vlabDmaBase 4096 addr then 4
      else if InWindow vlabIntcBase 4096 addr then 5
      else if InWindow vlabPerfBase 4096 addr then 6
      else -1 := by
  have hidx : cInt 0 = 0 ∧ cInt 1 = 1 ∧ cInt 2 = 2 ∧ cInt 3 = 3 ∧ cInt 4 = 4 ∧ cInt 5 = 5 ∧
      cInt 6 = 6 := by decide
  obtain ⟨i0, i1, i2, i3, i4, i5, i6⟩ := hidx
  have htake : vlabMemoryMap.take vlabMemoryMapN.toNat = vlabMemoryMap := by decide
  rw [socBusRoute, htake, vlabMemoryMap]
  simp only [scanFrom]
  simp (disch := decide) only [contains_aligned haddr]
  by_cases h0 : InWindow vlabRomBase 16384 addr
  · simp [h0, i0]
  by_cases h1 : InWindow vlabSramBase 65536 addr
  · simp [h0, h1, i1]
  · by_cases h2 : InWindow vlabUartBase 4096 addr
    · simp [h0, h1, h2, i2]
    by_cases h3 : InWindow vlabTimerBase 4096 addr
    · simp [h0, h1, h2, h3, i3]
    by_cases h4 : InWindow vlabDmaBase 4096 addr
    · simp [h0, h1, h2, h3, h4, i4]
    by_cases h5 : InWindow vlabIntcBase 4096 addr
    · simp [h0, h1, h2, h3, h4, h5, i5]
    by_cases h6 : InWindow vlabPerfBase 4096 addr
    · simp [h0, h1, h2, h3, h4, h5, h6, i6]
    · simp [h0, h1, h2, h3, h4, h5, h6]

end VlabSoc
