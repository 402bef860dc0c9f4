/-
Runs of the SoC.

A run is a list of `SocEvent`s: bus accesses, single ticks, resets, boots, raised
lines and the two fault latches.  `SocReachable` are the states a run leads to
from `soc_init`; all of them are wired (`SocReachable.wired`) and satisfy the
engine invariant (`SocReachable.dmaInv`).
-/
import VlabSoc.SocFrames
import VlabSoc.DmaEngine

namespace VlabSoc

inductive SocEvent
  | read (addr out : Word)
  | write (addr value : Word)
  | tick
  | resetPeripherals
  | boot (romWords : Option (List Word)) (nwords : Word)
  | raise (line : Int)
  | uartStuck (b : Bool)
  | dmaStuck (b : Bool)

def socApply (s : Soc) : SocEvent → Soc
  | .read addr out => (socRead s addr out).soc
  | .write addr value => (socWrite s addr value).soc
  | .tick => socTick s
  | .resetPeripherals => socResetPeripherals s
  | .boot romWords nwords => socBoot s romWords nwords
  | .raise line => { s with intc := socIntcRaise s.intc line }
  | .uartStuck b => { s with uart := { s.uart with faultStuckBusy := b } }
  | .dmaStuck b => { s with dma := { s.dma with faultStuckBusy := b } }

/-- Reads, writes and ticks, what `soc_read`, `soc_write` and `soc_step` amount to. -/
def SocEvent.isAccess : SocEvent → Prop
  | .read _ _ => True
  | .write _ _ => True
  | .tick => True
  | _ => False

def SocEvent.isTick : SocEvent → Bool
  | .tick => true
  | _ => false

/-- What an event returns to its caller. -/
inductive SocResult
  | read (rc : SocRc) (out : Word)
  | write (rc : SocRc)
  | nothing
  deriving DecidableEq

def socResult (s : Soc) : SocEvent → SocResult
  | .read addr out => .read (socRead s addr out).rc (socRead s addr out).out
  | .write addr value => .write (socWrite s addr value).rc
  | _ => .nothing

/-- `soc_step` is a run of ticks. -/
theorem socStep_eq_run (s : Soc) (n : Word) :
    socStep s n = Runs.run socApply s (List.replicate n.toNat .tick) := by
  unfold socStep
  induction n.toNat generalizing s with
  | zero => rfl
  | succ k ih => exact ih (socTick s)

/-- The states after `soc_init` and a run. -/
def SocReachable (s : Soc) : Prop :=
  ∃ (s0 : Soc) (cfg : Option SocConfig) (es : List SocEvent),
    s = Runs.run socApply (socInit s0 cfg) es

theorem SocReachable.run {s : Soc} (h : SocReachable s) (es : List SocEvent) :
    SocReachable (Runs.run socApply s es) := by
  obtain ⟨s0, cfg, fs, rfl⟩ := h
  exact ⟨s0, cfg, fs ++ es, (Runs.run_append socApply _ fs es).symm⟩

/-! ### Boot -/

theorem socMemLoadWords_shape (m : SocMem) (words : List Word) (nwords : Word) :
    (socMemLoadWords m words nwords).2.shape = m.shape := by
  obtain ⟨hbase, hsize, hro⟩ := socMemLoadFrom_geometry (words.take nwords.toNat) m 0
  rw [socMemLoadWords, SocMem.shape, hbase, hsize, hro]
  rfl

theorem socBootReset_rom_shape (s : Soc) (romWords : Option (List Word)) (nwords : Word) :
    (socBootReset s romWords nwords).rom.shape = s.rom.shape := by
  unfold socBootReset
  dsimp only
  split
  · split_ifs
    · exact socMemLoadWords_shape _ _ _
    · rfl
  · rfl

/-- Everything `soc_boot` does before its ticks, except for the ROM. -/
theorem socBootReset_frame (s : Soc) (romWords : Option (List Word)) (nwords : Word) :
    socBootReset s romWords nwords =
      { socBootReset s none 0 with rom := (socBootReset s romWords nwords).rom } := by
  unfold socBootReset
  dsimp only
  split
  · split_ifs <;> rfl
  · rfl

theorem SocWired.bootReset {s : Soc} (h : SocWired s) (romWords : Option (List Word))
    (nwords : Word) : SocWired (socBootReset s romWords nwords) := by
  have hrom := socBootReset_rom_shape s romWords nwords
  rw [socBootReset_frame] at hrom ⊢
  exact h.of_eq rfl rfl rfl hrom rfl rfl

/-- The ROM holds the image, with zeros behind it, whatever it held before. -/
theorem SocWired.bootReset_rom {s : Soc} (h : SocWired s) (words : List Word) {nwords : Word}
    (hn : 0 < nwords) {a : ℕ} (ha : a < 16384) :
    (socBootReset s (some words) nwords).rom.byteAt a =
      if a / 4 < (words.take nwords.toNat).length then
        byteOf ((words.take nwords.toNat).getD (a / 4) 0) (a % 4)
      else 0 := by
  have hsize : (s.region 0).size.toNat = 16384 := by
    rw [Soc.region, h.regions]
    rfl
  set m : SocMem := { s.rom with data := Buf.memset s.rom.data 0 0 (s.region 0).size.toNat } with hm
  have hrom : (socBootReset s (some words) nwords).rom =
      (socMemLoadFrom m 0 (words.take nwords.toNat)).2 := by
    unfold socBootReset
    dsimp only
    rw [if_pos hn]
    rfl
  have hbase : (socMemLoadFrom m 0 (words.take nwords.toNat)).2.base = vlabRomBase :=
    (socMemLoadFrom_geometry _ m 0).1.trans h.rom_base
  have hload := socMemLoadFrom_data (n := 4096) (by omega) (words.take nwords.toNat) m 0
    (show s.rom.size.toNat = 4 * 4096 by rw [h.rom_size]; rfl) (by decide) (a / 4) (a % 4)
    (Nat.mod_lt a (by omega))
  rw [Nat.div_add_mod a 4] at hload
  have hzero : m.data a = 0 := Buf.memset_inside (by omega)
  rw [hrom, SocMem.byteAt, hbase, show a - vlabRomBase.toNat = a from Nat.sub_zero a, hload, hzero,
    show (0 : Word).toNat = 0 from rfl, Nat.sub_zero]
  by_cases hin : a / 4 < (words.take nwords.toNat).length
  · rw [if_pos hin, if_pos ⟨Nat.zero_le _, by omega, hin⟩]
  · rw [if_neg hin, if_neg fun h0 => hin h0.2.2]

/-- The SRAM a boot zeroes. -/
theorem SocWired.sram_zeroed {s : Soc} (h : SocWired s) {a : ℕ} (hlow : vlabSramBase.toNat ≤ a)
    (hhigh : a < vlabSramBase.toNat + 65536) : (socMemZero s.sram).byteAt a = 0 := by
  have hsize : (65536 : Word).toNat = 65536 := rfl
  show Buf.memset s.sram.data 0 0 s.sram.size.toNat (a - s.sram.base.toNat) = 0
  rw [h.sram_base, h.sram_size, hsize]
  exact Buf.memset_inside ⟨Nat.zero_le _, by omega⟩

theorem SocWired.boot {s : Soc} (h : SocWired s) (romWords : Option (List Word))
    (nwords : Word) : SocWired (socBoot s romWords nwords) :=
  ((h.bootReset romWords nwords).step socBootTicks).of_eq rfl rfl rfl rfl rfl rfl

theorem SocWired.apply {s : Soc} (h : SocWired s) (e : SocEvent) : SocWired (socApply s e) := by
  cases e with
  | read addr out => exact h.read addr out
  | write addr value => exact h.write addr value
  | tick => exact h.tick
  | resetPeripherals => exact h.resetPeripherals
  | boot romWords nwords => exact h.boot romWords nwords
  | raise line => exact h.of_eq rfl rfl rfl rfl rfl rfl
  | uartStuck b => exact h.of_eq rfl rfl rfl rfl rfl rfl
  | dmaStuck b => exact h.of_eq rfl rfl rfl rfl rfl rfl

theorem SocWired.run {s : Soc} (h : SocWired s) (es : List SocEvent) :
    SocWired (Runs.run socApply s es) :=
  Runs.run_invariant socApply (A := fun _ => True) (fun _ e _ hs => hs.apply e) (fun _ _ => trivial) h

theorem SocReachable.wired {s : Soc} (h : SocReachable s) : SocWired s := by
  obtain ⟨s0, cfg, es, rfl⟩ := h
  exact (socInit_wired s0 cfg).run es

/-! ### The engine inside the SoC -/

/-- A bus write acts on the engine as a register write, or not at all. -/
theorem socWrite_dma_cases (s : Soc) (addr value : Word) :
    (socWrite s addr value).soc.dma = s.dma ∨
      ∃ perf offset, (socWrite s addr value).soc.dma = (socDmaWrite s.dma perf offset value).2.dma := by
  by_cases h : addr % 4 = 0
  · obtain ⟨perf, hperf⟩ := socWrite_soc s value h
    rw [hperf]
    dsimp only
    unfold socWriteSwitch
    split
    case h_5 => exact Or.inr ⟨_, _, rfl⟩
    all_goals exact Or.inl rfl
  · exact Or.inl (by rw [socWrite_misaligned s value h])

theorem SocWired.dmaInv_tick {s : Soc} (h : SocWired s) (hd : DmaInv s.dma) :
    DmaInv (socTick s).dma :=
  hd.step (by rw [h.reader]; rfl) (by rw [h.writer]; rfl) _ _

theorem SocWired.dmaInv_step {s : Soc} (h : SocWired s) (hd : DmaInv s.dma) (n : Word) :
    DmaInv (socStep s n).dma := by
  rw [socStep_eq_run]
  have hticks : ∀ e ∈ List.replicate n.toNat SocEvent.tick, e = .tick := fun e he =>
    List.eq_of_mem_replicate he
  have hrun := Runs.run_invariant socApply (P := fun t => SocWired t ∧ DmaInv t.dma)
    (A := fun e => e = .tick) (fun t e he ht => by
      subst he
      exact ⟨ht.1.tick, ht.1.dmaInv_tick ht.2⟩)
    hticks ⟨h, hd⟩
  exact hrun.2

theorem SocWired.dmaInv_apply {s : Soc} (h : SocWired s) (hd : DmaInv s.dma) (e : SocEvent) :
    DmaInv (socApply s e).dma := by
  cases e with
  | read addr out =>
    show DmaInv (socRead s addr out).soc.dma
    rwa [socRead_dma]
  | write addr value =>
    show DmaInv (socWrite s addr value).soc.dma
    rcases socWrite_dma_cases s addr value with heq | ⟨perf, offset, heq⟩
    · rwa [heq]
    · rw [heq]
      exact hd.write perf offset value
  | tick => exact h.dmaInv_tick hd
  | resetPeripherals => exact DmaInv.reset s.dma
  | boot romWords nwords =>
    refine (h.bootReset romWords nwords).dmaInv_step ?_ socBootTicks
    rw [socBootReset_frame]
    exact DmaInv.reset s.dma
  | raise line => exact hd
  | uartStuck b => exact hd
  | dmaStuck b => exact hd.stuck b

theorem SocWired.dmaInv_run {s : Soc} (h : SocWired s) (hd : DmaInv s.dma) (es : List SocEvent) :
    DmaInv (Runs.run socApply s es).dma := by
  have hall : ∀ e ∈ es, True := fun _ _ => trivial
  have hrun := Runs.run_invariant socApply (P := fun t => SocWired t ∧ DmaInv t.dma)
    (A := fun _ => True) (fun t e _ ht => ⟨ht.1.apply e, ht.1.dmaInv_apply ht.2 e⟩) hall ⟨h, hd⟩
  exact hrun.2

theorem SocReachable.dmaInv {s : Soc} (h : SocReachable s) : DmaInv s.dma := by
  obtain ⟨s0, cfg, es, rfl⟩ := h
  exact (socInit_wired s0 cfg).dmaInv_run (DmaInv.init ..) es

end VlabSoc
