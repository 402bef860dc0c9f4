/-
ROM and SRAM as a flat byte memory.

`FlatMem` is the abstract memory: a map from addresses to bytes, changed by word
stores and block copies.  `flatStep` is what an event does to it: a successful
word write to the SRAM stores, a transfer that ends in DONE with its destination
in the SRAM copies, nothing else does anything.  `SocReachable.flat_step` is one
event, `flat_memory_refinement` a whole run from boot, for the SRAM and the ROM.
-/
import VlabSoc.DmaFaults

namespace VlabSoc

/-! ### Flat memories -/

abbrev FlatMem := ℕ → Byte

/-- The little-endian word at `a`. -/
def FlatMem.word (m : FlatMem) (a : ℕ) : Word := leWord (m a) (m (a + 1)) (m (a + 2)) (m (a + 3))

/-- Stores a word at `a`. -/
def FlatMem.store (m : FlatMem) (a : ℕ) (w : Word) : FlatMem := fun i =>
  if a ≤ i ∧ i < a + 4 then byteOf w (i - a) else m i

/-- Copies `n` bytes to `a`. -/
def FlatMem.copy (m : FlatMem) (a n : ℕ) (f : ℕ → Byte) : FlatMem := fun i =>
  if a ≤ i ∧ i < a + n then f (i - a) else m i

/-! ### What the events of the SoC do to it -/

/-- The bytes a transfer moves: from the RX stream as the UART step of the tick
leaves it, or from the memory itself. -/
def flatPayload (s : Soc) (m : FlatMem) (src : Word) (i : ℕ) : Byte :=
  if src = vlabUartRxdata then (socUartStep s.uart).1.dmaRx.bytes.getD i 0
  else m (src.toNat + i)

def flatStep (s : Soc) (e : SocEvent) (m : FlatMem) : FlatMem :=
  match e with
  | .write addr value =>
    if (socWrite s addr value).rc = .ok ∧ InWindow vlabSramBase 65536 addr then
      m.store addr.toNat value
    else m
  | .tick =>
    if s.dma.busy = true ∧ (socTick s).dma.done = true ∧ s.dma.dst ≠ vlabUartTxdata then
      m.copy s.dma.dst.toNat s.dma.length.toNat (flatPayload s m s.dma.src)
    else m
  | _ => m

/-- The SRAM holds the bytes of `m`. -/
def SramIs (s : Soc) (m : FlatMem) : Prop :=
  ∀ a, vlabSramBase.toNat ≤ a → a < vlabSramBase.toNat + 65536 → s.sram.byteAt a = m a

theorem socWriteSwitch_sram {s : Soc} {kind : Int} (h : kind ≠ 1) (addr value : Word) :
    (socWriteSwitch s kind addr value).soc.sram = s.sram := by
  unfold socWriteSwitch
  split
  case h_2 => exact absurd rfl h
  all_goals rfl

/-- On the SRAM a write is the word write, or nothing. -/
theorem SocWired.write_sram {s : Soc} (h : SocWired s) (addr value : Word) :
    (socWrite s addr value).soc.sram =
      if addr.toNat % 4 = 0 ∧ InWindow vlabSramBase 65536 addr then
        (socMemWriteWord s.sram addr value).2
      else s.sram := by
  by_cases h4 : addr % 4 = 0
  · have haddr := (dvd_four_iff addr).mp h4
    obtain ⟨perf, hperf⟩ := socWrite_soc s value h4
    rw [hperf, h.route]
    dsimp only
    by_cases h1 : InWindow vlabSramBase 65536 addr
    · have h0 : ¬ InWindow vlabRomBase 16384 addr := fun h0 => by
        have hlow := rom_low h0
        have hhigh := (sram_low h1).1
        omega
      rw [socBusRoute_vlab haddr, if_neg h0, if_pos h1, if_pos ⟨haddr, h1⟩]
      rfl
    · have hroute : socBusRoute vlabMemoryMap vlabMemoryMapN addr ≠ 1 := by
        rw [socBusRoute_vlab haddr]
        split_ifs <;> decide
      rw [if_neg fun hc => h1 hc.2, socWriteSwitch_sram hroute]
  · rw [socWrite_misaligned s value h4, if_neg fun hc => h4 ((dvd_four_iff addr).mpr hc.1)]

theorem flat_write {s : Soc} (h : SocWired s) {m : FlatMem} (hm : SramIs s m) (addr value : Word) :
    SramIs (socWrite s addr value).soc (flatStep s (.write addr value) m) := by
  intro a ha ha'
  rw [h.write_sram, flatStep]
  by_cases hok : (socWrite s addr value).rc = .ok ∧ InWindow vlabSramBase 65536 addr
  · have haddr := ((h.write_ok addr value).mp hok.1).1.1
    have hmem : (socMemWriteWord s.sram addr value).1 = .ok :=
      socMemWriteWord_ok.mpr ⟨haddr, h.sram_writable, (h.sram_covers haddr).mpr hok.2⟩
    rw [if_pos hok, if_pos ⟨haddr, hok.2⟩, socMemWriteWord_byteAt hmem (by rw [h.sram_base]; exact ha),
      FlatMem.store, hm a ha ha']
  · have hno : ¬ (addr.toNat % 4 = 0 ∧ InWindow vlabSramBase 65536 addr) := by
      rintro ⟨haddr, h1⟩
      refine hok ⟨(h.write_ok addr value).mpr ⟨⟨haddr, Or.inl h1⟩, fun ht => ?_⟩, h1⟩
      have hhigh := mmio_high (by decide) (txDisabled_window ht)
      have hlow := (sram_low h1).2
      omega
    rw [if_neg hok, if_neg hno]
    exact hm a ha ha'

theorem flat_tick {s : Soc} (h : SocWired s) (hinv : DmaInv s.dma) {m : FlatMem}
    (hm : SramIs s m) : SramIs (socTick s) (flatStep s .tick m) := by
  intro a ha ha'
  have hv := h.tickFront
  by_cases hend : s.dma.busy = true ∧ (socTick s).dma.done = true
  · obtain ⟨hr, hw, heq⟩ := hv.tickDma_done hinv hend.1 hend.2
    have hbyte : (socTick s).sram.byteAt a =
        if s.dma.dst ≠ vlabUartTxdata ∧ s.dma.dst.toNat ≤ a ∧
            a < s.dma.dst.toNat + s.dma.length.toNat then
          dmaPayload (socTickFront s) s.dma.src (a - s.dma.dst.toNat)
        else s.sram.byteAt a := by
      rw [socTick, heq]
      exact hv.moved_byteAt hr hw ha
    rw [hbyte, flatStep]
    by_cases htx : s.dma.dst = vlabUartTxdata
    · rw [if_neg fun hc => hc.1 htx, if_neg fun hc => hc.2.2 htx]
      exact hm a ha ha'
    have hactive : s.dma.busy = true ∧ (socTick s).dma.done = true ∧
        s.dma.dst ≠ vlabUartTxdata := ⟨hend.1, hend.2, htx⟩
    rw [if_pos hactive]
    by_cases hin : s.dma.dst.toNat ≤ a ∧ a < s.dma.dst.toNat + s.dma.length.toNat
    · rw [if_pos ⟨htx, hin⟩, FlatMem.copy, if_pos hin]
      -- a byte of the payload, out of the same memory if it is no stream byte
      unfold dmaPayload flatPayload
      by_cases hrx : s.dma.src = vlabUartRxdata
      · rw [if_pos hrx, if_pos hrx]
        rfl
      · have hrange := (hr.resolve_left hrx).2
        have hlow : vlabSramBase.toNat ≤ s.dma.src.toNat := hrange.1
        have hhigh : s.dma.src.toNat + s.dma.length.toNat ≤ vlabSramBase.toNat + 65536 := hrange.2
        rw [if_neg hrx, if_neg hrx]
        exact hm _ (by omega) (by omega)
    · rw [if_neg fun hc => hin hc.2, FlatMem.copy, if_neg hin]
      exact hm a ha ha'
  · have hsram : (socTick s).sram = s.sram := hv.tickDma_sram hend
    rw [hsram, flatStep, if_neg fun hc => hend ⟨hc.1, hc.2.1⟩]
    exact hm a ha ha'

/-- One access keeps the SRAM and the abstract memory the same. -/
theorem SocReachable.flat_step {s : Soc} (h : SocReachable s) {e : SocEvent} (he : e.isAccess)
    {m : FlatMem} (hm : SramIs s m) : SramIs (socApply s e) (flatStep s e m) := by
  cases e with
  | read addr out =>
    intro a ha ha'
    have hsram : (socApply s (.read addr out)).sram = s.sram := socRead_sram s addr out
    rw [hsram]
    exact hm a ha ha'
  | write addr value => exact flat_write h.wired hm addr value
  | tick => exact flat_tick h.wired h.dmaInv hm
  | resetPeripherals => exact absurd he id
  | boot romWords nwords => exact absurd he id
  | raise line => exact absurd he id
  | uartStuck b => exact absurd he id
  | dmaStuck b => exact absurd he id

/-! ### The ROM -/

/-- The ROM holds the image, its words that fit, and zeros above. -/
def RomIs (s : Soc) (words : List Word) : Prop :=
  ∀ k b, k < 4096 → b < 4 → s.rom.byteAt (4 * k + b) = byteOf (words.getD k 0) b

theorem SocWired.access_rom {s : Soc} (h : SocWired s) {e : SocEvent} (he : e.isAccess) :
    (socApply s e).rom = s.rom := by
  cases e with
  | read addr out => exact socRead_rom s addr out
  | write addr value => exact (socWrite_keeps s addr value).rom h.rom_readonly
  | tick => rfl
  | resetPeripherals => exact absurd he id
  | boot romWords nwords => exact absurd he id
  | raise line => exact absurd he id
  | uartStuck b => exact absurd he id
  | dmaStuck b => exact absurd he id

/-- Ticks with the engine idle keep the memories. -/
theorem socStep_idle_mem {s : Soc} (h : s.dma.busy = false) (n : Word) :
    (socStep s n).rom = s.rom ∧ (socStep s n).sram = s.sram := by
  rw [socStep_eq_run]
  have hticks : ∀ e ∈ List.replicate n.toNat SocEvent.tick, e = .tick := fun e he =>
    List.eq_of_mem_replicate he
  have hrun := Runs.run_invariant socApply
    (P := fun t => t.dma.busy = false ∧ t.rom = s.rom ∧ t.sram = s.sram) (A := fun e => e = .tick)
    (fun t e he ht => by
      subst he
      have hid : socTick t = socTickFront t := socTickDma_idle (s := socTickFront t) (Or.inl ht.1)
      show (socTick t).dma.busy = false ∧ (socTick t).rom = s.rom ∧ (socTick t).sram = s.sram
      rw [hid]
      exact ht)
    hticks ⟨h, rfl, rfl⟩
  exact hrun.2

theorem socBootReset_idle (s : Soc) (romWords : Option (List Word)) (nwords : Word) :
    (socBootReset s romWords nwords).dma.busy = false := by
  rw [socBootReset_frame]
  rfl

/-- A boot zeroes the SRAM. -/
theorem SocWired.boot_sram {s : Soc} (h : SocWired s) (romWords : Option (List Word))
    (nwords : Word) : SramIs (socBoot s romWords nwords) fun _ => 0 := by
  intro a ha ha'
  have hmem := (socStep_idle_mem (socBootReset_idle s romWords nwords) socBootTicks).2
  dsimp only [socBoot]
  rw [hmem, socBootReset_frame]
  exact h.sram_zeroed ha ha'

/-- A boot with a non-empty image leaves it in the ROM. -/
theorem SocWired.boot_rom {s : Soc} (h : SocWired s) {words : List Word} (hne : words ≠ [])
    (hlen : words.length < 2 ^ 32) :
    RomIs (socBoot s (some words) (BitVec.ofNat 32 words.length)) words := by
  intro k b hk hb
  have hmem := (socStep_idle_mem (socBootReset_idle s (some words)
    (BitVec.ofNat 32 words.length)) socBootTicks).1
  have hn : (BitVec.ofNat 32 words.length).toNat = words.length := by
    rw [BitVec.toNat_ofNat, Nat.mod_eq_of_lt hlen]
  have hpos : 0 < BitVec.ofNat 32 words.length := by
    rw [BitVec.lt_def, hn]
    exact List.length_pos_iff.mpr hne
  have hload := h.bootReset_rom words hpos (a := 4 * k + b) (by omega)
  rw [hn, List.take_length, show (4 * k + b) / 4 = k by omega, show (4 * k + b) % 4 = b by omega]
    at hload
  dsimp only [socBoot]
  rw [hmem, hload]
  by_cases hin : k < words.length
  · rw [if_pos hin]
  · rw [if_neg hin, List.getD_eq_getElem?_getD, List.getElem?_eq_none (not_lt.mp hin)]
    simp [byteOf]

/-! ### Reads -/

/-- A word read of a memory that holds known bytes. -/
theorem read_word {m : SocMem} {addr out : Word} (h : (socMemReadWord m addr out).1 = .ok)
    {f : FlatMem} (hf : ∀ b, b < 4 → m.byteAt (addr.toNat + b) = f (addr.toNat + b)) :
    (socMemReadWord m addr out).2 = f.word addr.toNat := by
  have h0 := hf 0 (by omega)
  rw [Nat.add_zero] at h0
  rw [socMemReadWord_value h, FlatMem.word, h0, hf 1 (by omega), hf 2 (by omega),
    hf 3 (by omega)]

/-- Every word of the ROM can be read, and is the word of the image. -/
theorem SocWired.read_rom {t : Soc} (h : SocWired t) {words : List Word} (hrom : RomIs t words)
    {i : ℕ} (hi : i < 4096) (out : Word) :
    (socRead t (vlabRomBase + BitVec.ofNat 32 (4 * i)) out).rc = .ok ∧
      (socRead t (vlabRomBase + BitVec.ofNat 32 (4 * i)) out).out = words.getD i 0 := by
  have haddr : (vlabRomBase + BitVec.ofNat 32 (4 * i)).toNat = 4 * i := by
    rw [BitVec.toNat_add, BitVec.toNat_ofNat, show vlabRomBase.toNat = 0 from rfl]
    omega
  set addr := vlabRomBase + BitVec.ofNat 32 (4 * i)
  have h4 : addr.toNat % 4 = 0 := by omega
  have hwin : InWindow vlabRomBase 16384 addr := by
    rw [InWindow, haddr, show vlabRomBase.toNat = 0 from rfl]
    omega
  have hok := (h.read_ok addr out).mpr ⟨h4, Or.inl hwin⟩
  have hroute : socRoute t addr = 0 := by rw [h.route, socBusRoute_vlab h4, if_pos hwin]
  refine ⟨hok, ?_⟩
  rw [(socRead_of_ok hok).1, hroute]
  show (socMemReadWord t.rom addr out).2 = _
  have hmem : (socMemReadWord t.rom addr out).1 = .ok :=
    socMemReadWord_ok.mpr ⟨h4, (h.rom_covers h4).mpr hwin⟩
  have h0 := hrom i 0 hi (by omega)
  rw [Nat.add_zero] at h0
  rw [socMemReadWord_value hmem, haddr, h0, hrom i 1 hi (by omega), hrom i 2 hi (by omega),
    hrom i 3 hi (by omega), leWord_byteOf]

theorem SocWired.read_sram {t : Soc} (h : SocWired t) {m : FlatMem} (hm : SramIs t m)
    {addr : Word} (hwin : InWindow vlabSramBase 65536 addr) {out : Word}
    (hok : (socRead t addr out).rc = .ok) : (socRead t addr out).out = m.word addr.toNat := by
  have h4 := ((h.read_ok addr out).mp hok).1
  have h0 : ¬ InWindow vlabRomBase 16384 addr := fun h0 => by
    have hlow := rom_low h0
    have hhigh := (sram_low hwin).1
    omega
  have hroute : socRoute t addr = 1 := by
    rw [h.route, socBusRoute_vlab h4, if_neg h0, if_pos hwin]
  rw [(socRead_of_ok hok).1, hroute]
  refine read_word (socMemReadWord_ok.mpr ⟨h4, (h.sram_covers h4).mpr hwin⟩) fun b hb => ?_
  have hlow : vlabSramBase.toNat ≤ addr.toNat := hwin.1
  have hhigh : addr.toNat < vlabSramBase.toNat + 65536 := hwin.2
  have hbase : vlabSramBase.toNat % 4 = 0 := by decide
  exact hm _ (by omega) (by omega)

/-- Flat-memory refinement.  After every run of accesses and ticks from a boot with
a non-empty image, the ROM reads as the image, cut off at its 4096 words and
filled up with zeros, and the SRAM reads as the abstract memory that was zero at
boot and that `flatStep` alone has changed. -/
theorem flat_memory_refinement {s : Soc} (h : SocReachable s) {words : List Word}
    (hne : words ≠ []) (hlen : words.length < 2 ^ 32) {es : List SocEvent}
    (hes : ∀ e ∈ es, e.isAccess) :
    let s0 := socBoot s (some words) (BitVec.ofNat 32 words.length)
    let t := Runs.run socApply s0 es
    let m := Runs.trail socApply flatStep s0 (fun _ => 0) es
    (∀ i, i < 4096 → ∀ out,
      (socRead t (vlabRomBase + BitVec.ofNat 32 (4 * i)) out).rc = .ok ∧
      (socRead t (vlabRomBase + BitVec.ofNat 32 (4 * i)) out).out = words.getD i 0) ∧
    (∀ addr, InWindow vlabSramBase 65536 addr → ∀ out, (socRead t addr out).rc = .ok →
      (socRead t addr out).out = m.word addr.toNat) ∧
    SramIs t m := by
  intro s0 t m
  have hboot : SocReachable s0 :=
    h.run [.boot (some words) (BitVec.ofNat 32 words.length)]
  have hrom : RomIs t words ∧ SocWired t :=
    Runs.run_invariant socApply (P := fun u => RomIs u words ∧ SocWired u)
      (A := SocEvent.isAccess)
      (fun u e he hu => ⟨by rw [RomIs, hu.2.access_rom he]; exact hu.1, hu.2.apply e⟩) hes
      ⟨h.wired.boot_rom hne hlen, hboot.wired⟩
  have hsram : SramIs t m :=
    Runs.run_simulates socApply flatStep (R := SramIs) (P := SocReachable)
      (A := SocEvent.isAccess) (fun u e _ hu => hu.run [e])
      (fun u e g he hu hg => hu.flat_step he hg) hes hboot
      (h.wired.boot_sram (some words) (BitVec.ofNat 32 words.length))
  exact ⟨fun i hi out => hrom.2.read_rom hrom.1 hi out,
    fun addr hwin out hok => hrom.2.read_sram hsram hwin hok, hsram⟩

/-- A one-word image and one stored word. -/
theorem flat_memory_refinement_word :
    let s0 := socBoot (socInit default none) (some [0xCAFE]) (BitVec.ofNat 32 1)
    let t := Runs.run socApply s0 [.write vlabSramBase 0x1234]
    (socRead t vlabRomBase 0).out = 0xCAFE ∧ (socRead t vlabSramBase 0).out = 0x1234 := by
  intro s0 t
  have hes : ∀ e ∈ [SocEvent.write vlabSramBase 0x1234], e.isAccess := by
    simp [SocEvent.isAccess]
  have hne : ([0xCAFE] : List Word) ≠ [] := by decide
  have href := flat_memory_refinement (s := socInit default none) ⟨default, none, [], rfl⟩ hne
    (by decide) hes
  have hrom := (href.1 0 (by omega) 0).2
  have hsram := href.2.1 vlabSramBase (by decide) 0 (by decide)
  exact ⟨hrom, hsram.trans (by decide)⟩

end VlabSoc
