/-
A boot erases the history of the SoC.

After `soc_boot` two SoCs of one configuration may still differ: in what the stream
arrays hold beyond their lengths, in the backing stores behind the memories and in
the CPU block.  `SameSoc` leaves these out.  Reads, writes and ticks keep it and
return the same in both (`SameSoc.read`, `SameSoc.write`, `SameSoc.tick`), and two
boots establish it (`boot_same`): `reboot_erases_history`.  Nor does what a boot reports
depend on the history (`SocWired.boot_info`).
-/
import VlabSoc.Isolation
import VlabSoc.PerfCounts

namespace VlabSoc

/-! ### Memories that read the same -/

structure SameMem (m n : SocMem) : Prop where
  shape : n.shape = m.shape
  bytes : ∀ a, m.base.toNat ≤ a → a < m.base.toNat + m.size.toNat → n.byteAt a = m.byteAt a

theorem SameMem.covers {m n : SocMem} (h : SameMem m n) (addr len : Word) :
    n.Covers addr len ↔ m.Covers addr len := by
  have hbase : n.base = m.base := congrArg Prod.fst h.shape
  have hsize : n.size = m.size := congrArg (fun p => p.2.1) h.shape
  rw [SocMem.Covers, SocMem.Covers, hbase, hsize]

/-- The bytes of a covered range. -/
theorem SameMem.byteAt {m n : SocMem} (h : SameMem m n) {addr len : Word} (hc : m.Covers addr len)
    {i : ℕ} (hi : i < len.toNat) : n.byteAt (addr.toNat + i) = m.byteAt (addr.toNat + i) := by
  obtain ⟨-, -, hlow, hhigh⟩ := hc
  exact h.bytes _ (by omega) (by omega)

theorem SameMem.readWord {m n : SocMem} (h : SameMem m n) (addr out : Word) :
    socMemReadWord n addr out = socMemReadWord m addr out := by
  by_cases hok : (socMemReadWord m addr out).1 = .ok
  · have hc := (socMemReadWord_ok.mp hok).2
    have hok' : (socMemReadWord n addr out).1 = .ok :=
      socMemReadWord_ok.mpr ⟨(socMemReadWord_ok.mp hok).1, (h.covers addr 4).mpr hc⟩
    have hlen : (4 : Word).toNat = 4 := rfl
    have hb : ∀ k, k < 4 → n.byteAt (addr.toNat + k) = m.byteAt (addr.toNat + k) := fun k hk =>
      h.byteAt hc (hlen ▸ hk)
    have hb0 := hb 0 (by omega)
    rw [Nat.add_zero] at hb0
    refine Prod.ext (hok'.trans hok.symm) ?_
    rw [socMemReadWord_value hok', socMemReadWord_value hok, hb0, hb 1 (by omega),
      hb 2 (by omega), hb 3 (by omega)]
  · have hno : (socMemReadWord n addr out).1 ≠ .ok := by
      intro hok'
      obtain ⟨h4, hc⟩ := socMemReadWord_ok.mp hok'
      exact hok (socMemReadWord_ok.mpr ⟨h4, (h.covers addr 4).mp hc⟩)
    rw [socMemReadWord_err hok, socMemReadWord_err hno]

theorem SameMem.writeWord {m n : SocMem} (h : SameMem m n) (addr value : Word) :
    (socMemWriteWord n addr value).1 = (socMemWriteWord m addr value).1 ∧
      SameMem (socMemWriteWord m addr value).2 (socMemWriteWord n addr value).2 := by
  have hro : n.readonly = m.readonly := congrArg (fun p => p.2.2) h.shape
  have hbase : n.base = m.base := congrArg Prod.fst h.shape
  have hiff : (socMemWriteWord n addr value).1 = .ok ↔ (socMemWriteWord m addr value).1 = .ok := by
    rw [socMemWriteWord_ok, socMemWriteWord_ok, hro, h.covers]
  by_cases hok : (socMemWriteWord m addr value).1 = .ok
  · have hshape := socMemWriteWord_shape m addr value
    refine ⟨(hiff.mpr hok).trans hok.symm, ?_, fun a hlow hhigh => ?_⟩
    · rw [socMemWriteWord_shape, hshape, h.shape]
    · have hbase' : (socMemWriteWord m addr value).2.base = m.base := congrArg Prod.fst hshape
      have hsize' : (socMemWriteWord m addr value).2.size = m.size :=
        congrArg (fun p => p.2.1) hshape
      rw [hbase'] at hlow hhigh
      rw [hsize'] at hhigh
      rw [socMemWriteWord_byteAt (hiff.mpr hok) (hbase ▸ hlow), socMemWriteWord_byteAt hok hlow,
        h.bytes a hlow hhigh]
  · rw [socMemWriteWord_err hok, socMemWriteWord_err (hiff.not.mpr hok)]
    exact ⟨rfl, h⟩

/-! ### UARTs whose streams hold the same bytes -/

structure SameUart (u v : SocUart) : Prop where
  core : v.core = u.core
  tx : v.dmaTx.bytes = u.dmaTx.bytes
  rx : v.dmaRx.bytes = u.dmaRx.bytes

/-- They differ in their streams only. -/
theorem SameUart.streams {u v : SocUart} (h : SameUart u v) :
    ∃ tx rx, v = { u with dmaTx := tx, dmaRx := rx } ∧ tx.bytes = u.dmaTx.bytes ∧
      rx.bytes = u.dmaRx.bytes := by
  have hback : v = { v.core with dmaTx := v.dmaTx, dmaRx := v.dmaRx } := rfl
  rw [h.core] at hback
  exact ⟨v.dmaTx, v.dmaRx, hback, h.tx, h.rx⟩

theorem SameUart.append {u v : SocUart} (h : SameUart u v) {p q : Buf Byte} {len : Word}
    (hpay : Buf.toList q len.toNat = Buf.toList p len.toNat) :
    SameUart (socUartDmaTxAppend u p len) (socUartDmaTxAppend v q len) := by
  by_cases hlen : len = 0
  · rw [socUartDmaTxAppend, if_pos hlen, socUartDmaTxAppend, if_pos hlen]
    exact h
  · obtain ⟨htx, hrx, -⟩ := txAppend_bytes u p hlen
    obtain ⟨htx', hrx', -⟩ := txAppend_bytes v q hlen
    refine ⟨?_, ?_, ?_⟩
    · rw [socUartDmaTxAppend_core, socUartDmaTxAppend_core, h.core]
    · rw [htx, htx', h.tx, hpay]
    · rw [hrx, hrx', h.rx, hpay]

theorem SameUart.step {u v : SocUart} (h : SameUart u v) :
    SameUart (socUartStep u).1 (socUartStep v).1 ∧ (socUartStep v).2 = (socUartStep u).2 := by
  obtain ⟨tx, rx, rfl, htx, hrx⟩ := h.streams
  unfold socUartStep
  dsimp only
  split_ifs
  · exact ⟨h, rfl⟩
  · refine ⟨?_, rfl⟩
    dsimp only
    apply SameUart.append
    · exact ⟨rfl, htx, hrx⟩
    · rfl
  · exact ⟨⟨rfl, htx, hrx⟩, rfl⟩
  · exact ⟨h, rfl⟩

/-! ### SoCs that cannot be told apart -/

structure SameSoc (s t : Soc) : Prop where
  config : t.config = s.config
  regions : t.regions = s.regions
  nRegions : t.nRegions = s.nRegions
  rom : SameMem s.rom t.rom
  sram : SameMem s.sram t.sram
  uart : SameUart s.uart t.uart
  timer : t.timer = s.timer
  dma : t.dma = s.dma
  intc : t.intc = s.intc
  perf : t.perf = s.perf
  ticks : t.ticks = s.ticks

/-- What they may differ in. -/
theorem SameSoc.parts {s t : Soc} (h : SameSoc s t) :
    ∃ rom sram uart cpu, t = { s with rom := rom, sram := sram, uart := uart, cpu := cpu } ∧
      SameMem s.rom rom ∧ SameMem s.sram sram ∧ SameUart s.uart uart := by
  refine ⟨t.rom, t.sram, t.uart, t.cpu, ?_, h.rom, h.sram, h.uart⟩
  rw [← h.config, ← h.regions, ← h.nRegions, ← h.timer, ← h.dma, ← h.intc, ← h.perf, ← h.ticks]

/-! ### Accesses -/

/-- One part exchanged in both. -/
theorem SameSoc.setPerf {s t : Soc} (h : SameSoc s t) (perf : SocPerf) :
    SameSoc { s with perf := perf } { t with perf := perf } :=
  ⟨h.config, h.regions, h.nRegions, h.rom, h.sram, h.uart, h.timer, h.dma, h.intc, rfl, h.ticks⟩

theorem SameSoc.setRom {s t : Soc} (h : SameSoc s t) {rom rom' : SocMem} (hrom : SameMem rom rom') :
    SameSoc { s with rom := rom } { t with rom := rom' } :=
  ⟨h.config, h.regions, h.nRegions, hrom, h.sram, h.uart, h.timer, h.dma, h.intc, h.perf, h.ticks⟩

theorem SameSoc.setSram {s t : Soc} (h : SameSoc s t) {sram sram' : SocMem}
    (hsram : SameMem sram sram') : SameSoc { s with sram := sram } { t with sram := sram' } :=
  ⟨h.config, h.regions, h.nRegions, h.rom, hsram, h.uart, h.timer, h.dma, h.intc, h.perf, h.ticks⟩

theorem SameSoc.setUart {s t : Soc} (h : SameSoc s t) {u v : SocUart} (huart : SameUart u v) :
    SameSoc { s with uart := u } { t with uart := v } :=
  ⟨h.config, h.regions, h.nRegions, h.rom, h.sram, huart, h.timer, h.dma, h.intc, h.perf, h.ticks⟩

theorem SameSoc.readSwitch {s t : Soc} (h : SameSoc s t) (kind : Int) (addr out : Word) :
    (socReadSwitch t kind addr out).rc = (socReadSwitch s kind addr out).rc ∧
      (socReadSwitch t kind addr out).out = (socReadSwitch s kind addr out).out ∧
      SameSoc (socReadSwitch s kind addr out).soc (socReadSwitch t kind addr out).soc := by
  obtain ⟨rom, sram, uart, cpu, rfl, hrom, hsram, huart⟩ := h.parts
  unfold socReadSwitch
  split
  · dsimp only
    rw [hrom.readWord]
    exact ⟨rfl, rfl, h⟩
  · dsimp only
    rw [hsram.readWord]
    exact ⟨rfl, rfl, h⟩
  · -- the registers show nothing of the streams
    obtain ⟨tx, rx, rfl, htx, hrx⟩ := huart.streams
    dsimp only
    unfold socUartRead
    split
    · exact ⟨rfl, rfl, h.setUart ⟨rfl, htx, hrx⟩⟩
    all_goals exact ⟨rfl, rfl, h⟩
  · exact ⟨rfl, rfl, h⟩
  · exact ⟨rfl, rfl, h⟩
  · exact ⟨rfl, rfl, rfl, rfl, rfl, hrom, hsram, huart, rfl, rfl, rfl, rfl, rfl⟩
  · exact ⟨rfl, rfl, h⟩
  · exact ⟨rfl, rfl, h⟩

theorem SameSoc.route {s t : Soc} (h : SameSoc s t) (addr : Word) :
    socRoute t addr = socRoute s addr := by
  rw [socRoute, socRoute, h.regions, h.nRegions]

theorem SameSoc.read {s t : Soc} (h : SameSoc s t) (addr out : Word) :
    SameSoc (socRead s addr out).soc (socRead t addr out).soc ∧
      (socRead t addr out).rc = (socRead s addr out).rc ∧
      (socRead t addr out).out = (socRead s addr out).out := by
  by_cases h4 : addr % 4 = 0
  · obtain ⟨hrc, hout, hsoc⟩ := (h.setPerf (socPerfCountMem s.perf)).readSwitch (socRoute s addr)
      addr out
    rw [socRead, if_neg (not_not.mpr h4), socRead, if_neg (not_not.mpr h4)]
    dsimp only
    rw [show socRoute { t with perf := socPerfCountMem t.perf } addr = socRoute s addr from
      h.route addr, h.perf]
    rw [show socRoute { s with perf := socPerfCountMem s.perf } addr = socRoute s addr from rfl,
      hrc]
    split_ifs
    · rw [hsoc.perf]
      exact ⟨hsoc.setPerf _, rfl, hout⟩
    · exact ⟨hsoc, rfl, hout⟩
  · rw [socRead, if_pos h4, socRead, if_pos h4]
    rw [h.perf]
    exact ⟨h.setPerf _, rfl, rfl⟩

theorem SameSoc.writeSwitch {s t : Soc} (h : SameSoc s t) (kind : Int) (addr value : Word) :
    (socWriteSwitch t kind addr value).rc = (socWriteSwitch s kind addr value).rc ∧
      SameSoc (socWriteSwitch s kind addr value).soc (socWriteSwitch t kind addr value).soc := by
  obtain ⟨rom, sram, uart, cpu, rfl, hrom, hsram, huart⟩ := h.parts
  unfold socWriteSwitch
  split
  · obtain ⟨hrc, hmem⟩ := hrom.writeWord addr value
    exact ⟨hrc, h.setRom hmem⟩
  · obtain ⟨hrc, hmem⟩ := hsram.writeWord addr value
    exact ⟨hrc, h.setSram hmem⟩
  · obtain ⟨tx, rx, rfl, htx, hrx⟩ := huart.streams
    dsimp only
    unfold socUartWrite
    split
    · dsimp only
      by_cases hdis : s.uart.ctrl &&& socUartCtrlEnable = 0
      · rw [if_pos hdis, if_pos hdis]
        exact ⟨rfl, h.setPerf _⟩
      · rw [if_neg hdis, if_neg hdis]
        exact ⟨rfl, h.setUart ⟨rfl, htx, hrx⟩⟩
    all_goals exact ⟨rfl, h.setUart ⟨rfl, htx, hrx⟩⟩
  all_goals exact ⟨rfl, rfl, rfl, rfl, hrom, hsram, huart, rfl, rfl, rfl, rfl, rfl⟩

theorem SameSoc.write {s t : Soc} (h : SameSoc s t) (addr value : Word) :
    SameSoc (socWrite s addr value).soc (socWrite t addr value).soc ∧
      (socWrite t addr value).rc = (socWrite s addr value).rc := by
  by_cases h4 : addr % 4 = 0
  · obtain ⟨hrc, hsoc⟩ := (h.setPerf (socPerfCountMem s.perf)).writeSwitch (socRoute s addr)
      addr value
    rw [socWrite, if_neg (not_not.mpr h4), socWrite, if_neg (not_not.mpr h4)]
    dsimp only
    rw [show socRoute { t with perf := socPerfCountMem t.perf } addr = socRoute s addr from
      h.route addr, h.perf]
    rw [show socRoute { s with perf := socPerfCountMem s.perf } addr = socRoute s addr from rfl,
      hrc]
    split_ifs
    · rw [hsoc.perf]
      exact ⟨hsoc.setPerf _, rfl⟩
    · exact ⟨hsoc, hrc⟩
  · rw [socWrite_misaligned s value h4, socWrite_misaligned t value h4, h.perf]
    exact ⟨h.setPerf _, rfl⟩

/-! ### Ticks -/

theorem SameSoc.tickFront {s t : Soc} (h : SameSoc s t) :
    SameSoc (socTickFront s) (socTickFront t) := by
  obtain ⟨rom, sram, uart, cpu, rfl, hrom, hsram, huart⟩ := h.parts
  obtain ⟨hstep, hraise⟩ := huart.step
  rw [socTickFront_frame, socTickFront_frame]
  dsimp only
  rw [hraise]
  exact ⟨rfl, rfl, rfl, hrom, hsram, hstep, rfl, rfl, rfl, rfl, rfl⟩

/-- The bytes a transfer moves. -/
theorem SameSoc.payload {s t : Soc} (h : SameSoc s t) (hs : SocWired s) {src len : Word}
    (hr : DmaReads src len) {i : ℕ} (hi : i < len.toNat) :
    dmaPayload t src i = dmaPayload s src i := by
  unfold dmaPayload
  split_ifs with hrx
  · rw [h.uart.rx]
  · exact h.sram.byteAt (hs.sram_covers_range.mpr (hr.resolve_left hrx)) hi

theorem SameSoc.drained {s t : Soc} (h : SameSoc s t) (src len : Word) :
    SameUart (dmaDrained s src len) (dmaDrained t src len) := by
  refine ⟨?_, ?_, ?_⟩
  · rw [dmaDrained_core, dmaDrained_core, h.uart.core]
  · rw [dmaDrained_uart s, dmaDrained_uart t]
    exact h.uart.tx
  · rw [dmaDrained_rx, dmaDrained_rx, h.uart.rx]

/-- A transfer that ends in DONE. -/
theorem SameSoc.finished {s t : Soc} (h : SameSoc s t) (hs : SocWired s) (ht : SocWired t)
    (hr : DmaReads s.dma.src s.dma.length) (hw : DmaWrites s.dma.dst s.dma.length) :
    SameSoc (dmaFinished s) (dmaFinished t) := by
  -- the reader has filled its buffer with the same bytes in both
  have hpay : Buf.toList (socDmaReaderBridge ⟨t.uart, t.sram⟩ s.dma.src s.dma.length
        fun _ => 0).out s.dma.length.toNat =
      Buf.toList (socDmaReaderBridge ⟨s.uart, s.sram⟩ s.dma.src s.dma.length
        fun _ => 0).out s.dma.length.toNat := by
    rw [hs.reader_toList hr, ht.reader_toList hr]
    exact Buf.toList_congr fun i hi => h.payload hs hr hi
  have hsram : SameMem (dmaMoved s s.dma.src s.dma.dst s.dma.length).sram
      (dmaMoved t s.dma.src s.dma.dst s.dma.length).sram := by
    rw [moved_sram s, moved_sram t]
    -- a byte is in the destination, or it is the old one
    refine ⟨h.sram.shape, fun a hlow hhigh => ?_⟩
    have hlow' : vlabSramBase.toNat ≤ a := hs.sram_base ▸ hlow
    have hbyte := hs.moved_byteAt hr hw hlow'
    have hbyte' := ht.moved_byteAt hr hw hlow'
    rw [moved_sram s] at hbyte
    rw [moved_sram t] at hbyte'
    rw [hbyte, hbyte']
    split_ifs with hin
    · exact h.payload hs hr (by omega)
    · exact h.sram.bytes a hlow hhigh
  have huart : SameUart (dmaMoved s s.dma.src s.dma.dst s.dma.length).uart
      (dmaMoved t s.dma.src s.dma.dst s.dma.length).uart := by
    rw [moved_uart, moved_uart]
    split_ifs
    · exact (h.drained _ _).append hpay
    · exact h.drained _ _
  unfold dmaFinished
  rw [h.dma, h.perf, h.intc]
  exact ⟨h.config, h.regions, h.nRegions, h.rom, hsram, huart, h.timer, rfl, rfl, rfl, h.ticks⟩

theorem SameSoc.aborted {s t : Soc} (h : SameSoc s t) {u v : SocUart} (huart : SameUart u v) :
    SameSoc (dmaAborted s u) (dmaAborted t v) := by
  unfold dmaAborted
  rw [h.dma, h.intc]
  exact ⟨h.config, h.regions, h.nRegions, h.rom, h.sram, huart, h.timer, rfl, rfl, h.perf, h.ticks⟩

theorem SameSoc.tickDma {s t : Soc} (h : SameSoc s t) (hs : SocWired s) (ht : SocWired t) :
    SameSoc (socTickDma s) (socTickDma t) := by
  by_cases hidle : s.dma.busy = false ∨ s.dma.faultStuckBusy = true
  · rw [socTickDma_idle hidle, socTickDma_idle (by rw [h.dma]; exact hidle)]
    exact h
  rw [not_or, Bool.not_eq_false, Bool.not_eq_true] at hidle
  obtain ⟨hbusy, hstuck⟩ := hidle
  have hbusy' : t.dma.busy = true := by rw [h.dma]; exact hbusy
  have hstuck' : t.dma.faultStuckBusy = false := by rw [h.dma]; exact hstuck
  by_cases hrem : 1 < s.dma.remaining
  · rw [socTickDma_count hbusy hstuck hrem,
      socTickDma_count hbusy' hstuck' (by rw [h.dma]; exact hrem), h.dma]
    exact ⟨h.config, h.regions, h.nRegions, h.rom, h.sram, h.uart, h.timer, rfl, h.intc, h.perf,
      h.ticks⟩
  -- the completing tick: both end alike
  rw [hs.tickDma_complete hbusy hstuck (by omega),
    ht.tickDma_complete hbusy' hstuck' (by rw [h.dma]; omega), h.dma]
  by_cases hr : DmaReads s.dma.src s.dma.length
  · by_cases hw : DmaWrites s.dma.dst s.dma.length
    · rw [if_neg (not_not.mpr hr), if_neg (not_not.mpr hw), if_neg (not_not.mpr hr),
        if_neg (not_not.mpr hw)]
      exact h.finished hs ht hr hw
    · rw [if_neg (not_not.mpr hr), if_pos hw, if_neg (not_not.mpr hr), if_pos hw]
      exact h.aborted (h.drained _ _)
  · rw [if_pos hr, if_pos hr]
    exact h.aborted h.uart

theorem SameSoc.tick {s t : Soc} (h : SameSoc s t) (hs : SocWired s) (ht : SocWired t) :
    SameSoc (socTick s) (socTick t) := h.tickFront.tickDma hs.tickFront ht.tickFront

/-- Reads, writes and ticks keep the relation and return the same. -/
theorem SameSoc.access {s t : Soc} (h : SameSoc s t) (hs : SocWired s) (ht : SocWired t)
    {e : SocEvent} (he : e.isAccess) :
    SameSoc (socApply s e) (socApply t e) ∧ socResult s e = socResult t e := by
  cases e with
  | read addr out =>
    obtain ⟨hsoc, hrc, hout⟩ := h.read addr out
    exact ⟨hsoc, (congrArg₂ SocResult.read hrc hout).symm⟩
  | write addr value =>
    obtain ⟨hsoc, hrc⟩ := h.write addr value
    exact ⟨hsoc, (congrArg SocResult.write hrc).symm⟩
  | tick => exact ⟨h.tick hs ht, rfl⟩
  | resetPeripherals => exact absurd he id
  | boot romWords nwords => exact absurd he id
  | raise line => exact absurd he id
  | uartStuck b => exact absurd he id
  | dmaStuck b => exact absurd he id

theorem same_unwinding :
    Runs.Unwinding socApply (fun _ => true) socResult SocEvent.isAccess SocWired SameSoc where
  inv _ hs := hs.apply _
  left _ hvis := absurd hvis (by decide)
  right _ hvis := absurd hvis (by decide)
  both he _ hs ht h := (h.access hs ht he).1
  out_eq he _ hs ht h := (h.access hs ht he).2

/-! ### Two boots -/

/-- Two SoCs that `soc_boot` has reset and given the same image. -/
theorem bootReset_same {s t : Soc} (hs : SocReachable s) (ht : SocReachable t)
    (hconfig : t.config = s.config) (words : List Word) {nwords : Word} (hn : 0 < nwords) :
    SameSoc (socBootReset s (some words) nwords) (socBootReset t (some words) nwords) := by
  have hws := hs.wired.bootReset (some words) nwords
  have hwt := ht.wired.bootReset (some words) nwords
  have hrom : SameMem (socBootReset s (some words) nwords).rom
      (socBootReset t (some words) nwords).rom := by
    refine ⟨hwt.rom.trans hws.rom.symm, fun a _ hhigh => ?_⟩
    rw [hws.rom_base, hws.rom_size] at hhigh
    have ha : a < 16384 := hhigh
    rw [hs.wired.bootReset_rom words hn ha, ht.wired.bootReset_rom words hn ha]
  have hsram : SameMem (socMemZero s.sram) (socMemZero t.sram) := by
    refine ⟨ht.wired.sram.trans hs.wired.sram.symm, fun a hlow hhigh => ?_⟩
    have hb : (socMemZero s.sram).base = vlabSramBase := hs.wired.sram_base
    have hz : (socMemZero s.sram).size = 65536 := hs.wired.sram_size
    rw [hb] at hlow hhigh
    rw [hz] at hhigh
    rw [hs.wired.sram_zeroed hlow hhigh, ht.wired.sram_zeroed hlow hhigh]
  -- what `soc_boot` does not reset comes from the configuration
  have hlat : t.uart.latencyTicks = s.uart.latencyTicks := by
    rw [ht.uart_latency, hs.uart_latency, hconfig]
  have huart : SameUart (socUartReset s.uart) (socUartReset t.uart) := by
    refine ⟨?_, rfl, rfl⟩
    unfold socUartReset SocUart.core
    rw [hlat]
  have hdma : socDmaReset t.dma = socDmaReset s.dma := by
    unfold socDmaReset
    rw [ht.wired.dma, hs.wired.dma, hconfig]
  rw [socBootReset_frame s (some words), socBootReset_frame t (some words)]
  exact ⟨hconfig, ht.wired.regions.trans hs.wired.regions.symm,
    ht.wired.nRegions.trans hs.wired.nRegions.symm, hrom, hsram, huart, rfl, hdma, rfl, rfl, rfl⟩

theorem boot_same {s t : Soc} (hs : SocReachable s) (ht : SocReachable t)
    (hconfig : t.config = s.config) (words : List Word) {nwords : Word} (hn : 0 < nwords) :
    SameSoc (socBoot s (some words) nwords) (socBoot t (some words) nwords) := by
  have hticks : ∀ e ∈ List.replicate socBootTicks.toNat SocEvent.tick, e.isAccess := by
    intro e he
    rw [List.eq_of_mem_replicate he]
    trivial
  have hstep := (same_unwinding.lockstep hticks (hs.wired.bootReset (some words) nwords)
    (ht.wired.bootReset (some words) nwords) (bootReset_same hs ht hconfig words hn)).2
  rw [← socStep_eq_run, ← socStep_eq_run] at hstep
  exact ⟨hstep.config, hstep.regions, hstep.nRegions, hstep.rom, hstep.sram, hstep.uart,
    hstep.timer, hstep.dma, hstep.intc, hstep.perf, hstep.ticks⟩

/-- A reboot erases history: two SoCs of one configuration, each after any run of its own,
return the same at every later read, write and tick once they are booted with the same
non-empty image, and they stay the same in all that can be read or streamed out. -/
theorem reboot_erases_history {s t : Soc} (hs : SocReachable s) (ht : SocReachable t)
    (hconfig : t.config = s.config) (words : List Word) {nwords : Word} (hn : 0 < nwords)
    {es : List SocEvent} (hes : ∀ e ∈ es, e.isAccess) :
    let s' := socBoot s (some words) nwords
    let t' := socBoot t (some words) nwords
    (Runs.stages socApply s' es).map (fun x => socResult x.1 x.2) =
        (Runs.stages socApply t' es).map (fun x => socResult x.1 x.2) ∧
      SameSoc (Runs.run socApply s' es) (Runs.run socApply t' es) :=
  same_unwinding.lockstep hes (hs.wired.boot (some words) nwords)
    (ht.wired.boot (some words) nwords) (boot_same hs ht hconfig words hn)

/-- A fresh SoC beside one with a byte in flight and the UART stuck. -/
theorem reboot_erases_history_stuck :
    let s := socBoot (socInit default none) (some [0x13]) 1
    let t := socBoot (Runs.run socApply (socInit default none)
      [.write vlabUartCtrl 0x1, .write vlabUartTxdata 0x41, .uartStuck true, .tick])
      (some [0x13]) 1
    (Runs.stages socApply s [.read vlabRomBase 0, .tick, .read vlabUartStatus 0]).map
        (fun x => socResult x.1 x.2) =
      (Runs.stages socApply t [.read vlabRomBase 0, .tick, .read vlabUartStatus 0]).map
        (fun x => socResult x.1 x.2) :=
  (reboot_erases_history (s := socInit default none) ⟨default, none, [], rfl⟩
    ⟨default, none, _, rfl⟩ (by decide) [0x13] (by decide) (by simp [SocEvent.isAccess])).1

/-! ### What a boot reports -/

/-- A boot reports its own ticks, the clock of the configuration, 100 MHz where that has none,
and the time these make, whatever the SoC did before. -/
theorem SocWired.boot_info {s : Soc} (h : SocWired s) (romWords : Option (List Word))
    (nwords : Word) :
    let mhz := if s.config.cpuFrequencyMhz = 0 then 100 else s.config.cpuFrequencyMhz
    socBootInfo (socBoot s romWords nwords) = ⟨socBootTicks, mhz, socBootTicks * 1000 / mhz⟩ := by
  have hticks := (socBoot_perf s romWords nwords).1
  have hconfig := (h.boot_front romWords nwords).1
  rw [socBootInfo, hticks, hconfig]

/-- `main` of bench/boot_time.c on the `soc_t` that lies on the stack: the exit code and what
is printed before. -/
def bootTimeMain (stack : Soc) : Int × SocBootInfo :=
  let s := socBoot (socInit stack (some socConfigDefault)) none 0
  let info := socBootInfo s
  (if info.bootTicks = 5 then 0 else 1, info)

/-- The boot benchmark ends with 0, whatever lies on the stack. -/
theorem boot_time_main (stack : Soc) : bootTimeMain stack = (0, ⟨5, 100, 50⟩) := by
  have hinfo := (socInit_wired stack (some socConfigDefault)).boot_info none 0
  have hclock : (socInit stack (some socConfigDefault)).config.cpuFrequencyMhz = 100 := rfl
  have htime : socBootTicks * 1000 / 100 = (50 : Word) := by decide
  rw [hclock, if_neg (by decide)] at hinfo
  dsimp only at hinfo
  rw [htime] at hinfo
  rw [bootTimeMain, hinfo]
  rfl

end VlabSoc
