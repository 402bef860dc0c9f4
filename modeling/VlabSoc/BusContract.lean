/-
The bus access contract.

`regAllows` looks an access up in the register map.  Each peripheral's `switch`
accepts exactly the offsets the map gives it (`socUartRead_ok` and its siblings);
with the decode of the VLAB map this makes `SocWired.read_ok` and
`SocWired.write_ok`.  `socRead_fails` and `socWrite_fails` say what a failing
access leaves, `soc_access_contract` puts them together.
-/
import VlabSoc.SocRuns

namespace VlabSoc

/-! ### The register map -/

def RegAccess.reads : RegAccess → Bool
  | .wo => false
  | .ro | .rw => true

def RegAccess.writes : RegAccess → Bool
  | .ro => false
  | .wo | .rw => true

/-- The offsets of the peripheral at `base` with a given kind of access. -/
def regOffsets (may : RegAccess → Bool) (base : Word) : List Word :=
  (regsYaml.filter fun r => decide (r.base = base) && may r.access).map RegEntry.offset

/-- The map has a register at `addr` with a given kind of access. -/
def RegAllows (may : RegAccess → Bool) (addr : Word) : Prop :=
  ∃ r ∈ regsYaml, r.addr = addr ∧ may r.access = true

instance (may : RegAccess → Bool) (addr : Word) : Decidable (RegAllows may addr) :=
  inferInstanceAs (Decidable (∃ r ∈ regsYaml, _))

/-- Bases of the MMIO windows. -/
def periphBases : List Word := [vlabUartBase, vlabTimerBase, vlabDmaBase, vlabIntcBase, vlabPerfBase]

theorem regsYaml_window : ∀ r ∈ regsYaml, r.base ∈ periphBases ∧ InWindow r.base 4096 r.addr := by
  decide

/-- The MMIO windows are disjoint. -/
theorem window_unique {b c addr : Word} (hb : b ∈ periphBases) (hc : c ∈ periphBases)
    (hwb : InWindow b 4096 addr) (hwc : InWindow c 4096 addr) : b = c := by
  have hgap : ∀ b ∈ periphBases, ∀ c ∈ periphBases, b = c ∨ b.toNat + 4096 ≤ c.toNat ∨
      c.toNat + 4096 ≤ b.toNat := by
    simp [periphBases, vlabUartBase, vlabTimerBase, vlabDmaBase, vlabIntcBase, vlabPerfBase]
  rcases hgap b hb c hc with h | h | h
  · exact h
  · exact absurd hwb.2 (by have := hwc.1; omega)
  · exact absurd hwc.2 (by have := hwb.1; omega)

/-- Inside a window the register map is a list of offsets. -/
theorem regAllows_iff {may : RegAccess → Bool} {base addr : Word} (hb : base ∈ periphBases)
    (hw : InWindow base 4096 addr) :
    RegAllows may addr ↔ addr - base ∈ regOffsets may base := by
  simp only [RegAllows, regOffsets, List.mem_map, List.mem_filter, Bool.and_eq_true,
    decide_eq_true_iff]
  constructor
  · rintro ⟨r, hr, rfl, hmay⟩
    obtain ⟨hrb, hrw⟩ := regsYaml_window r hr
    obtain rfl := window_unique hrb hb hrw hw
    refine ⟨r, ⟨hr, rfl, hmay⟩, ?_⟩
    rw [RegEntry.addr, BitVec.add_comm, BitVec.add_sub_cancel]
  · rintro ⟨r, ⟨hr, rfl, hmay⟩, hoff⟩
    exact ⟨r, hr, by rw [RegEntry.addr, hoff, BitVec.add_comm, BitVec.sub_add_cancel], hmay⟩

/-- No register outside the MMIO windows. -/
theorem not_regAllows {may : RegAccess → Bool} {addr : Word}
    (h : ∀ b ∈ periphBases, ¬ InWindow b 4096 addr) : ¬ RegAllows may addr := by
  rintro ⟨r, hr, rfl, -⟩
  obtain ⟨hb, hw⟩ := regsYaml_window r hr
  exact h _ hb hw

/-! ### The peripherals accept what the map lists -/

theorem socUartRead_ok {u : SocUart} {offset out : Word} :
    (socUartRead u offset out).rc = .ok ↔
      offset ∈ regOffsets RegAccess.reads vlabUartBase := by
  rw [show regOffsets RegAccess.reads vlabUartBase = [0x04, 0x08, 0x0C, 0x10] from by decide]
  unfold socUartRead
  split <;> simp_all

theorem socTimerRead_ok {t : SocTimer} {offset out : Word} :
    (socTimerRead t offset out).1 = .ok ↔
      offset ∈ regOffsets RegAccess.reads vlabTimerBase := by
  rw [show regOffsets RegAccess.reads vlabTimerBase = [0x00, 0x04, 0x08, 0x0C] from by decide]
  unfold socTimerRead
  split <;> simp_all

theorem socDmaRead_ok {M : Type} {d : SocDma M} {offset out : Word} :
    (socDmaRead d offset out).1 = .ok ↔ offset ∈ regOffsets RegAccess.reads vlabDmaBase := by
  rw [show regOffsets RegAccess.reads vlabDmaBase =
    [0x00, 0x04, 0x08, 0x0C, 0x10, 0x18] from by decide]
  unfold socDmaRead
  split <;> simp_all

theorem socIntcRead_ok {ic : SocIntc} {perf : SocPerf} {offset out : Word} :
    (socIntcRead ic perf offset out).rc = .ok ↔
      offset ∈ regOffsets RegAccess.reads vlabIntcBase := by
  rw [show regOffsets RegAccess.reads vlabIntcBase = [0x00, 0x04, 0x08, 0x10] from by decide]
  unfold socIntcRead
  split
  case h_4 => split <;> simp
  all_goals simp_all

theorem socPerfRead_ok {p : SocPerf} {offset out : Word} :
    (socPerfRead p offset out).1 = .ok ↔ offset ∈ regOffsets RegAccess.reads vlabPerfBase := by
  rw [show regOffsets RegAccess.reads vlabPerfBase =
    [0x00, 0x04, 0x08, 0x0C, 0x10, 0x14] from by decide]
  unfold socPerfRead
  split <;> simp_all

/-- The only register write with a condition is TXDATA. -/
theorem socUartWrite_ok {u : SocUart} {perf : SocPerf} {offset value : Word} :
    (socUartWrite u perf offset value).rc = .ok ↔
      offset ∈ regOffsets RegAccess.writes vlabUartBase ∧
        ¬ (offset = 0x00 ∧ u.ctrl &&& socUartCtrlEnable = 0) := by
  rw [show regOffsets RegAccess.writes vlabUartBase = [0x00, 0x0C, 0x10] from by decide]
  unfold socUartWrite
  split
  · by_cases h : u.ctrl &&& socUartCtrlEnable = 0
    · rw [if_pos h]
      exact iff_of_false (by simp) fun hc => hc.2 ⟨rfl, h⟩
    · rw [if_neg h]
      exact iff_of_true rfl ⟨by simp, fun hc => h hc.2⟩
  all_goals simp_all

theorem socUartWrite_disabled {u : SocUart} {perf : SocPerf} {offset value : Word} :
    (socUartWrite u perf offset value).rc = .uartErrDisabled ↔
      offset = 0x00 ∧ u.ctrl &&& socUartCtrlEnable = 0 := by
  unfold socUartWrite
  split
  · by_cases h : u.ctrl &&& socUartCtrlEnable = 0
    · rw [if_pos h]
      exact iff_of_true rfl ⟨rfl, h⟩
    · rw [if_neg h]
      exact iff_of_false (by simp) fun hc => h hc.2
  all_goals simp_all

theorem socUartWrite_tx_disabled {u : SocUart} (h : u.ctrl &&& socUartCtrlEnable = 0)
    (perf : SocPerf) (value : Word) :
    socUartWrite u perf 0x00 value = ⟨.uartErrDisabled, u, socPerfCountStall perf 1⟩ := if_pos h

theorem socTimerWrite_ok {t : SocTimer} {offset value : Word} :
    (socTimerWrite t offset value).1 = .ok ↔
      offset ∈ regOffsets RegAccess.writes vlabTimerBase := by
  rw [show regOffsets RegAccess.writes vlabTimerBase = [0x00, 0x04, 0x0C, 0x10] from by decide]
  unfold socTimerWrite
  split <;> simp_all

theorem socDmaWrite_ok {M : Type} {d : SocDma M} {perf : SocPerf} {offset value : Word} :
    (socDmaWrite d perf offset value).1 = .ok ↔
      offset ∈ regOffsets RegAccess.writes vlabDmaBase := by
  rw [show regOffsets RegAccess.writes vlabDmaBase =
    [0x00, 0x04, 0x08, 0x0C, 0x14] from by decide]
  unfold socDmaWrite
  split <;> simp_all

theorem socIntcWrite_ok {ic : SocIntc} {offset value : Word} :
    (socIntcWrite ic offset value).1 = .ok ↔
      offset ∈ regOffsets RegAccess.writes vlabIntcBase := by
  rw [show regOffsets RegAccess.writes vlabIntcBase = [0x00, 0x0C] from by decide]
  unfold socIntcWrite
  split <;> simp_all

theorem socPerfWrite_ok {p : SocPerf} {offset value : Word} :
    (socPerfWrite p offset value).1 = .ok ↔
      offset ∈ regOffsets RegAccess.writes vlabPerfBase := by
  rw [show regOffsets RegAccess.writes vlabPerfBase =
    [0x00, 0x04, 0x08, 0x0C, 0x10, 0x14] from by decide]
  unfold socPerfWrite
  split <;> simp_all

/-! ### The routed access -/

/-- The addresses `soc_read` serves. -/
def Readable (addr : Word) : Prop :=
  addr.toNat % 4 = 0 ∧ (InWindow vlabRomBase 16384 addr ∨ InWindow vlabSramBase 65536 addr ∨
    RegAllows RegAccess.reads addr)

/-- The addresses `soc_write` serves. -/
def Writable (addr : Word) : Prop :=
  addr.toNat % 4 = 0 ∧ (InWindow vlabSramBase 65536 addr ∨ RegAllows RegAccess.writes addr)

instance (addr : Word) : Decidable (Readable addr) := inferInstanceAs (Decidable (_ ∧ _))

instance (addr : Word) : Decidable (Writable addr) := inferInstanceAs (Decidable (_ ∧ _))

/-- A memory owns an aligned word exactly when the address is in its window. -/
theorem covers_word {m : SocMem} {base size addr : Word} {ro : Bool}
    (hm : m.shape = (base, size, ro)) (haddr : addr.toNat % 4 = 0) (hbase : base.toNat % 4 = 0)
    (hsize : size.toNat % 4 = 0) (hfit : base.toNat + size.toNat ≤ 0x100000000) :
    m.Covers addr 4 ↔ InWindow base size.toNat addr := by
  obtain ⟨rfl, hrest⟩ := Prod.mk.inj hm
  obtain ⟨rfl, -⟩ := Prod.mk.inj hrest
  rw [SocMem.Covers, InWindow, show ((4 : Word).toNat) = 4 from rfl]
  omega

theorem SocWired.rom_covers {s : Soc} (h : SocWired s) {addr : Word} (haddr : addr.toNat % 4 = 0) :
    s.rom.Covers addr 4 ↔ InWindow vlabRomBase 16384 addr :=
  covers_word h.rom haddr (by decide) (by decide) (by decide)

theorem SocWired.sram_covers {s : Soc} (h : SocWired s) {addr : Word}
    (haddr : addr.toNat % 4 = 0) : s.sram.Covers addr 4 ↔ InWindow vlabSramBase 65536 addr :=
  covers_word h.sram haddr (by decide) (by decide) (by decide)

/-- A register access inside the window of its peripheral, the memories being elsewhere. -/
theorem reg_only {may : RegAccess → Bool} {base addr : Word} {P Q : Prop} (hP : ¬ P) (hQ : ¬ Q)
    (hb : base ∈ periphBases) (hw : InWindow base 4096 addr) {ok : Prop}
    (hok : ok ↔ addr - base ∈ regOffsets may base) : ok ↔ P ∨ Q ∨ RegAllows may addr := by
  rw [hok, ← regAllows_iff hb hw]
  exact ⟨fun h => Or.inr (Or.inr h), fun h => (h.resolve_left hP).resolve_left hQ⟩

theorem SocWired.readSwitch_ok {s : Soc} (h : SocWired s) {addr : Word}
    (haddr : addr.toNat % 4 = 0) (out : Word) :
    (socReadSwitch s (socRoute s addr) addr out).rc = .ok ↔
      InWindow vlabRomBase 16384 addr ∨ InWindow vlabSramBase 65536 addr ∨
        RegAllows RegAccess.reads addr := by
  rw [h.route, socBusRoute_vlab haddr]
  split_ifs with h0 h1 h2 h3 h4 h5 h6
  · exact iff_of_true (socMemReadWord_ok.mpr ⟨haddr, (h.rom_covers haddr).mpr h0⟩) (Or.inl h0)
  · exact iff_of_true (socMemReadWord_ok.mpr ⟨haddr, (h.sram_covers haddr).mpr h1⟩)
      (Or.inr (Or.inl h1))
  · exact reg_only h0 h1 (by decide) h2 socUartRead_ok
  · exact reg_only h0 h1 (by decide) h3 socTimerRead_ok
  · exact reg_only h0 h1 (by decide) h4 socDmaRead_ok
  · exact reg_only h0 h1 (by decide) h5 socIntcRead_ok
  · exact reg_only h0 h1 (by decide) h6 socPerfRead_ok
  · refine iff_of_false (by simp [socReadSwitch]) ?_
    rintro (hr | hr | hr)
    · exact h0 hr
    · exact h1 hr
    · exact not_regAllows (by simp [periphBases, h2, h3, h4, h5, h6]) hr

/-- TXDATA of a disabled UART. -/
def TxDisabled (s : Soc) (addr : Word) : Prop :=
  addr = vlabUartTxdata ∧ s.uart.ctrl &&& socUartCtrlEnable = 0

instance (s : Soc) (addr : Word) : Decidable (TxDisabled s addr) :=
  inferInstanceAs (Decidable (_ ∧ _))

theorem txDisabled_offset {s : Soc} {addr : Word} :
    TxDisabled s addr ↔
      addr - vlabUartBase = 0x00 ∧ s.uart.ctrl &&& socUartCtrlEnable = 0 := by
  have hoff : addr = vlabUartTxdata ↔ addr - vlabUartBase = 0x00 := by
    rw [BitVec.sub_eq_iff_eq_add]
    exact Iff.rfl
  rw [TxDisabled, hoff]

/-- The MMIO windows lie above the memories. -/
theorem mmio_high {base addr : Word} (hb : base ∈ periphBases) (hw : InWindow base 4096 addr) :
    0x20000000 ≤ addr.toNat := by
  have hlow : ∀ b ∈ periphBases, 0x20000000 ≤ b.toNat := by
    simp [periphBases, vlabUartBase, vlabTimerBase, vlabDmaBase, vlabIntcBase, vlabPerfBase]
  exact (hlow base hb).trans hw.1

theorem sram_low {addr : Word} (h : InWindow vlabSramBase 65536 addr) :
    16384 ≤ addr.toNat ∧ addr.toNat < 0x20000000 := by
  have hbase : vlabSramBase.toNat = 0x10000000 := rfl
  rw [InWindow, hbase] at h
  omega

theorem rom_low {addr : Word} (h : InWindow vlabRomBase 16384 addr) : addr.toNat < 16384 := by
  have hbase : vlabRomBase.toNat = 0 := rfl
  rw [InWindow, hbase] at h
  omega

theorem not_regAllows_low {may : RegAccess → Bool} {addr : Word} (h : addr.toNat < 0x20000000) :
    ¬ RegAllows may addr :=
  not_regAllows fun _ hb hw => absurd (mmio_high hb hw) (by omega)

theorem txDisabled_window {s : Soc} {addr : Word} (h : TxDisabled s addr) :
    InWindow vlabUartBase 4096 addr := by
  rw [h.1]
  decide

/-- A register access outside the UART, the SRAM being elsewhere. -/
theorem reg_write_only {s : Soc} {base addr : Word} (h1 : ¬ InWindow vlabSramBase 65536 addr)
    (h2 : ¬ InWindow vlabUartBase 4096 addr) (hb : base ∈ periphBases)
    (hw : InWindow base 4096 addr) {ok : Prop}
    (hok : ok ↔ addr - base ∈ regOffsets RegAccess.writes base) :
    ok ↔ (InWindow vlabSramBase 65536 addr ∨ RegAllows RegAccess.writes addr) ∧
      ¬ TxDisabled s addr := by
  rw [hok, ← regAllows_iff hb hw]
  exact ⟨fun h => ⟨Or.inr h, fun ht => h2 (txDisabled_window ht)⟩, fun h => h.1.resolve_left h1⟩

theorem SocWired.writeSwitch_ok {s : Soc} (h : SocWired s) {addr : Word}
    (haddr : addr.toNat % 4 = 0) (value : Word) :
    (socWriteSwitch s (socRoute s addr) addr value).rc = .ok ↔
      (InWindow vlabSramBase 65536 addr ∨ RegAllows RegAccess.writes addr) ∧
        ¬ TxDisabled s addr := by
  rw [h.route, socBusRoute_vlab haddr]
  split_ifs with h0 h1 h2 h3 h4 h5 h6
  · -- ROM is write-protected
    have hlow := rom_low h0
    refine iff_of_false ?_ ?_
    · simp only [socWriteSwitch, socMemWriteWord_readonly h.rom_readonly]
      decide
    · rintro ⟨hs | hr, -⟩
      · exact absurd (sram_low hs).1 (by omega)
      · exact not_regAllows_low (by omega) hr
  · -- SRAM takes every aligned word
    refine iff_of_true ?_ ⟨Or.inl h1, fun ht => h1.2.not_ge ?_⟩
    · exact socMemWriteWord_ok.mpr ⟨haddr, h.sram_writable, (h.sram_covers haddr).mpr h1⟩
    · rw [ht.1]
      decide
  · -- the UART alone may refuse a writable register
    rw [show (socWriteSwitch s 2 addr value).rc =
      (socUartWrite s.uart s.perf (addr - vlabUartBase) value).rc from rfl, socUartWrite_ok,
      ← regAllows_iff (by decide) h2, ← txDisabled_offset]
    exact and_congr_left fun _ => ⟨Or.inr, fun hr => hr.resolve_left h1⟩
  · exact reg_write_only h1 h2 (by decide) h3 socTimerWrite_ok
  · exact reg_write_only h1 h2 (by decide) h4 socDmaWrite_ok
  · exact reg_write_only h1 h2 (by decide) h5 socIntcWrite_ok
  · exact reg_write_only h1 h2 (by decide) h6 socPerfWrite_ok
  · refine iff_of_false (by simp [socWriteSwitch]) ?_
    rintro ⟨hs | hr, -⟩
    · exact h1 hs
    · exact not_regAllows (by simp [periphBases, h2, h3, h4, h5, h6]) hr

/-- The one write that fails otherwise than by a bus error. -/
theorem socWriteSwitch_disabled (s : Soc) (kind : Int) (addr value : Word) :
    (socWriteSwitch s kind addr value).rc = .uartErrDisabled ↔ kind = 2 ∧ TxDisabled s addr := by
  have hmem : ∀ m : SocMem, (socMemWriteWord m addr value).1 ≠ .uartErrDisabled := by
    intro m h
    rw [socMemWriteWord_err (by rw [h]; decide)] at h
    simp at h
  unfold socWriteSwitch
  split
  · exact iff_of_false (hmem s.rom) (by simp)
  · exact iff_of_false (hmem s.sram) (by simp)
  · rw [txDisabled_offset]
    exact socUartWrite_disabled.trans (by simp)
  -- the other peripherals know OK and bus errors
  · refine iff_of_false ?_ (by simp)
    dsimp only
    unfold socTimerWrite
    split <;> simp
  · refine iff_of_false ?_ (by simp)
    dsimp only
    unfold socDmaWrite
    split <;> simp
  · refine iff_of_false ?_ (by simp)
    dsimp only
    unfold socIntcWrite
    split <;> simp
  · refine iff_of_false ?_ (by simp)
    dsimp only
    unfold socPerfWrite
    split <;> simp
  · refine iff_of_false (by simp) ?_
    rintro ⟨rfl, -⟩
    simp_all

theorem SocWired.route_txDisabled {s : Soc} (h : SocWired s) {addr : Word}
    (ht : TxDisabled s addr) : socRoute s addr = 2 := by
  rw [h.route, ht.1]
  decide

/-- The disabled UART counts the stall itself. -/
theorem socWriteSwitch_tx_disabled {s : Soc} {addr : Word} (h : TxDisabled s addr) (value : Word) :
    (socWriteSwitch s 2 addr value).soc = { s with perf := socPerfCountStall s.perf 1 } := by
  obtain ⟨hoff, hctrl⟩ := txDisabled_offset.mp h
  dsimp only [socWriteSwitch]
  rw [hoff, socUartWrite_tx_disabled hctrl]
  rfl

/-! ### Failing accesses -/

theorem socReadSwitch_fails {s : Soc} {kind : Int} {addr out : Word}
    (h : (socReadSwitch s kind addr out).rc ≠ .ok) :
    socReadSwitch s kind addr out = ⟨.errBus, out, s⟩ := by
  unfold socReadSwitch at h ⊢
  split at h
  · dsimp only at h ⊢
    rw [socMemReadWord_err h]
  · dsimp only at h ⊢
    rw [socMemReadWord_err h]
  · dsimp only at h ⊢
    unfold socUartRead at h ⊢
    split at h <;> simp_all
  · dsimp only at h ⊢
    unfold socTimerRead at h ⊢
    split at h <;> simp_all
  · dsimp only at h ⊢
    unfold socDmaRead at h ⊢
    split at h <;> simp_all
  · dsimp only at h ⊢
    unfold socIntcRead at h ⊢
    split at h
    -- ACK answers NONE rather than fail
    case h_4 => split at h <;> simp at h
    all_goals simp_all
  · dsimp only at h ⊢
    unfold socPerfRead at h ⊢
    split at h <;> simp_all
  · simp_all

theorem socWriteSwitch_fails {s : Soc} {kind : Int} {addr value : Word}
    (h : (socWriteSwitch s kind addr value).rc = .errBus) :
    (socWriteSwitch s kind addr value).soc = s := by
  unfold socWriteSwitch at h ⊢
  split at h
  · dsimp only at h ⊢
    rw [socMemWriteWord_err (by rw [h]; decide)]
  · dsimp only at h ⊢
    rw [socMemWriteWord_err (by rw [h]; decide)]
  · dsimp only at h ⊢
    unfold socUartWrite at h ⊢
    split at h
    · -- TXDATA fails only as disabled
      split_ifs at h
    all_goals simp_all
  · dsimp only at h ⊢
    unfold socTimerWrite at h ⊢
    split at h <;> simp_all
  · dsimp only at h ⊢
    unfold socDmaWrite at h ⊢
    split at h <;> simp_all
  · dsimp only at h ⊢
    unfold socIntcWrite at h ⊢
    split at h <;> simp_all
  · dsimp only at h ⊢
    unfold socPerfWrite at h ⊢
    split at h <;> simp_all
  · simp_all

/-- The state a failing access leaves: one more stall, and one more memory access
if the address was aligned, both counted only while PERF is enabled. -/
def failedAccess (s : Soc) (addr : Word) : Soc :=
  { s with
    perf := { s.perf with
      stalls := if s.perf.enabled then s.perf.stalls + 1 else s.perf.stalls
      memAcc :=
        if s.perf.enabled ∧ addr.toNat % 4 = 0 then s.perf.memAcc + 1 else s.perf.memAcc } }

theorem failedAccess_misaligned {s : Soc} {addr : Word} (h : addr.toNat % 4 ≠ 0) :
    { s with perf := socPerfCountStall s.perf 1 } = failedAccess s addr := by
  obtain ⟨config, rom, sram, regions, n, ⟨cycles, acc, bytes, irqs, stalls, enabled, ctrl⟩, intc⟩ := s
  cases enabled <;> simp [failedAccess, socPerfCountStall, h]

theorem failedAccess_aligned {s : Soc} {addr : Word} (h : addr.toNat % 4 = 0) :
    { s with perf := socPerfCountStall (socPerfCountMem s.perf) 1 } = failedAccess s addr := by
  obtain ⟨config, rom, sram, regions, n, ⟨cycles, acc, bytes, irqs, stalls, enabled, ctrl⟩, intc⟩ := s
  cases enabled <;> simp [failedAccess, socPerfCountStall, socPerfCountMem, h]

theorem SocWired.countMem {s : Soc} (h : SocWired s) :
    SocWired { s with perf := socPerfCountMem s.perf } := h.of_eq rfl rfl rfl rfl rfl rfl

theorem SocWired.read_ok {s : Soc} (h : SocWired s) (addr out : Word) :
    (socRead s addr out).rc = .ok ↔ Readable addr := by
  unfold socRead Readable
  rw [← dvd_four_iff]
  by_cases ha : addr % 4 = 0
  · rw [if_neg (not_not.mpr ha)]
    dsimp only
    have hok := h.countMem.readSwitch_ok ((dvd_four_iff addr).mp ha) out
    split_ifs with hrc
    · exact iff_of_false (by simp) fun hr => hrc (hok.mpr hr.2)
    · rw [not_not] at hrc
      exact iff_of_true rfl ⟨ha, hok.mp hrc⟩
  · rw [if_pos ha]
    exact iff_of_false (by simp) fun hr => ha hr.1

theorem socRead_fails {s : Soc} {addr out : Word} (h : (socRead s addr out).rc ≠ .ok) :
    socRead s addr out = ⟨.errBus, out, failedAccess s addr⟩ := by
  unfold socRead at h ⊢
  by_cases ha : addr % 4 = 0
  · have haddr := (dvd_four_iff addr).mp ha
    rw [if_neg (not_not.mpr ha)] at h ⊢
    dsimp only at h ⊢
    split_ifs at h with hrc
    · rw [if_pos hrc, socReadSwitch_fails hrc, ← failedAccess_aligned haddr]
    · exact absurd rfl h
  · rw [if_pos ha, failedAccess_misaligned fun h4 => ha ((dvd_four_iff addr).mpr h4)]

theorem SocWired.write_ok {s : Soc} (h : SocWired s) (addr value : Word) :
    (socWrite s addr value).rc = .ok ↔ Writable addr ∧ ¬ TxDisabled s addr := by
  unfold socWrite Writable
  rw [← dvd_four_iff, and_assoc]
  by_cases ha : addr % 4 = 0
  · rw [if_neg (not_not.mpr ha)]
    dsimp only
    have hok := h.countMem.writeSwitch_ok ((dvd_four_iff addr).mp ha) value
    split_ifs with hrc
    · refine iff_of_false (by simp) fun hr => ?_
      rw [hok.mpr hr.2] at hrc
      exact absurd hrc (by decide)
    · exact hok.trans ⟨fun hr => ⟨ha, hr⟩, fun hr => hr.2⟩
  · rw [if_pos ha]
    exact iff_of_false (by simp) fun hr => ha hr.1

theorem SocWired.write_disabled {s : Soc} (h : SocWired s) (addr value : Word) :
    (socWrite s addr value).rc = .uartErrDisabled ↔ TxDisabled s addr := by
  unfold socWrite
  by_cases ha : addr % 4 = 0
  · rw [if_neg (not_not.mpr ha)]
    dsimp only
    have hdis := socWriteSwitch_disabled { s with perf := socPerfCountMem s.perf }
      (socRoute { s with perf := socPerfCountMem s.perf } addr) addr value
    split_ifs with hrc
    · refine iff_of_false (by simp) fun ht => ?_
      rw [hdis.mpr ⟨h.countMem.route_txDisabled ht, ht⟩] at hrc
      exact absurd hrc (by decide)
    · exact hdis.trans ⟨fun hr => hr.2, fun ht => ⟨h.countMem.route_txDisabled ht, ht⟩⟩
  · rw [if_pos ha]
    refine iff_of_false (by simp) fun ht => ha ?_
    rw [ht.1]
    decide

theorem socWrite_fails {s : Soc} {addr value : Word} (h : (socWrite s addr value).rc ≠ .ok) :
    (socWrite s addr value).soc = failedAccess s addr := by
  unfold socWrite at h ⊢
  by_cases ha : addr % 4 = 0
  · have haddr := (dvd_four_iff addr).mp ha
    rw [if_neg (not_not.mpr ha)] at h ⊢
    dsimp only at h ⊢
    split_ifs at h ⊢ with hrc
    · rw [socWriteSwitch_fails hrc, ← failedAccess_aligned haddr]
    · -- neither success nor bus error: the disabled UART
      have hdis : (socWriteSwitch { s with perf := socPerfCountMem s.perf }
          (socRoute { s with perf := socPerfCountMem s.perf } addr) addr value).rc =
          .uartErrDisabled := by
        revert h hrc
        cases (socWriteSwitch { s with perf := socPerfCountMem s.perf }
          (socRoute { s with perf := socPerfCountMem s.perf } addr) addr value).rc <;> simp
      obtain ⟨hkind, ht⟩ := (socWriteSwitch_disabled _ _ _ _).mp hdis
      rw [hkind, socWriteSwitch_tx_disabled ht, ← failedAccess_aligned haddr]
  · rw [if_pos ha, failedAccess_misaligned fun h4 => ha ((dvd_four_iff addr).mpr h4)]

/-- The bus access contract: which reads and writes succeed in a reachable state,
the return code of a transmit while disabled, and the state after a failure. -/
theorem soc_access_contract {s : Soc} (h : SocReachable s) (addr value out : Word) :
    ((socRead s addr out).rc = .ok ↔ Readable addr) ∧
    ((socWrite s addr value).rc = .ok ↔ Writable addr ∧ ¬ TxDisabled s addr) ∧
    ((socWrite s addr value).rc = .uartErrDisabled ↔ TxDisabled s addr) ∧
    ((socRead s addr out).rc ≠ .ok →
      (socRead s addr out).out = out ∧ (socRead s addr out).soc = failedAccess s addr) ∧
    ((socWrite s addr value).rc ≠ .ok → (socWrite s addr value).soc = failedAccess s addr) := by
  refine ⟨h.wired.read_ok addr out, h.wired.write_ok addr value, h.wired.write_disabled addr value,
    fun hrc => ?_, fun hrc => socWrite_fails hrc⟩
  rw [socRead_fails hrc]
  exact ⟨rfl, rfl⟩

/-- After `soc_init` the UART is disabled: TXDATA is refused, ACK can be read. -/
theorem soc_access_contract_init :
    (socWrite (socInit default none) vlabUartTxdata 0x41).rc = .uartErrDisabled ∧
      (socRead (socInit default none) vlabIntcAck 0).rc = .ok :=
  ⟨(soc_access_contract ⟨default, none, [], rfl⟩ vlabUartTxdata 0x41 0).2.2.1.mpr (by decide),
    (soc_access_contract ⟨default, none, [], rfl⟩ vlabIntcAck 0 0).1.mpr (by decide)⟩

end VlabSoc
