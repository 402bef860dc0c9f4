/-
The control of the SoC does not depend on its data.

`Soc.erased` forgets the contents of the memories, the bytes in the UART and in its streams,
and keeps everything else: all status and configuration, the fill levels, the counts of PERF.
The SoC acts on this part as it would if there were no other.

* `SocWired.apply_erased` — every event, by the event without its data;
* `SocWired.result_erased` — what it returns, but for the words read from a data address;
* `data_free` — two runs that differ in data only cannot be told apart by return codes,
  registers, interrupts, timing or performance counts.
-/
import VlabSoc.Isolation
import VlabSoc.UartStreams

namespace VlabSoc

/-! ### Erasure -/

def SocMem.erased (m : SocMem) : SocMem := { m with data := fun _ => 0 }

def DmaStream.erased (d : DmaStream) : DmaStream := ⟨fun _ => 0, d.len, d.len_le⟩

def SocUart.erased (u : SocUart) : SocUart :=
  { u with txdata := 0, rxdata := 0, dmaTx := u.dmaTx.erased, dmaRx := u.dmaRx.erased }

/-- The SoC without its data. -/
def Soc.erased (s : Soc) : Soc :=
  { s with rom := s.rom.erased, sram := s.sram.erased, uart := s.uart.erased }

/-- The words of the two memories. -/
def MemAddr (addr : Word) : Prop := InWindow vlabRomBase 16384 addr ∨ InWindow vlabSramBase 65536 addr

instance (addr : Word) : Decidable (MemAddr addr) := inferInstanceAs (Decidable (_ ∨ _))

/-- An event without the data it carries. -/
def SocEvent.erased : SocEvent → SocEvent
  | .write addr value => .write addr (if MemAddr addr ∨ addr = vlabUartTxdata then 0 else value)
  | .boot _ _ => .boot none 0
  | e => e

/-- What an event returns, without data that is read. -/
def shownControl (s : Soc) (e : SocEvent) : SocResult :=
  match e, socResult s e with
  | .read addr _, .read rc out =>
    .read rc (if MemAddr addr ∨ addr = vlabUartRxdata then 0 else out)
  | _, r => r

/-! ### The memories -/

theorem socMemReadWord_erased (m : SocMem) (addr out : Word) :
    (socMemReadWord m addr out).1 = (socMemReadWord m.erased addr out).1 := by
  have hoff : socMemOffset m.erased addr 4 = socMemOffset m addr 4 := rfl
  rw [socMemReadWord, socMemReadWord, hoff]
  split_ifs
  · rfl
  · cases socMemOffset m addr 4 <;> rfl

theorem socMemWriteWord_erased (m : SocMem) (addr value value' : Word) :
    (socMemWriteWord m addr value).1 = (socMemWriteWord m.erased addr value').1 ∧
      (socMemWriteWord m addr value).2.erased = (socMemWriteWord m.erased addr value').2.erased := by
  have hoff : socMemOffset m.erased addr 4 = socMemOffset m addr 4 := rfl
  have hro : m.erased.readonly = m.readonly := rfl
  rw [socMemWriteWord, socMemWriteWord, hoff, hro]
  split_ifs
  · exact ⟨rfl, rfl⟩
  · exact ⟨rfl, rfl⟩
  · cases socMemOffset m addr 4 with
    | none => exact ⟨rfl, rfl⟩
    | some off => exact ⟨rfl, rfl⟩

/-- A memory without its data is its geometry. -/
theorem erased_of_shape {m n : SocMem} (h : m.shape = n.shape) : m.erased = n.erased := by
  simp only [SocMem.shape, Prod.mk.injEq] at h
  obtain ⟨hbase, hsize, hro⟩ := h
  rw [SocMem.erased, SocMem.erased, hbase, hsize, hro]

/-! ### The UART -/

theorem append_erased (u : SocUart) (payload payload' : Buf Byte) (len : Word) :
    (socUartDmaTxAppend u payload len).erased =
      (socUartDmaTxAppend u.erased payload' len).erased := by
  rw [socUartDmaTxAppend, socUartDmaTxAppend]
  split_ifs
  · rfl
  · rfl

theorem drain_erased (u : SocUart) (out : Buf Byte) (len : Word) :
    (socUartDmaRxDrain u out len).uart.erased = (socUartDmaRxDrain u.erased out len).uart.erased := by
  rw [socUartDmaRxDrain, socUartDmaRxDrain]
  split_ifs
  · rfl
  · rfl

theorem socUartStep_erased (u : SocUart) :
    (socUartStep u).2 = (socUartStep u.erased).2 ∧
      (socUartStep u).1.erased = (socUartStep u.erased).1.erased := by
  have hsame : uartCompletes u.erased = uartCompletes u := rfl
  cases hc : uartCompletes u with
  | true =>
    rw [socUartStep_complete hc, socUartStep_complete (hsame.trans hc)]
    exact ⟨rfl, append_erased _ _ _ _⟩
  | false =>
    rw [socUartStep_count hc, socUartStep_count (hsame.trans hc)]
    exact ⟨rfl, rfl⟩

theorem socUartRead_erased {addr : Word} (hrx : addr ≠ vlabUartRxdata) (u : SocUart) (out : Word) :
    (socUartRead u (addr - vlabUartBase) out).out =
      (socUartRead u.erased (addr - vlabUartBase) out).out := by
  unfold socUartRead
  split
  case h_1 hoff =>
    rw [BitVec.sub_eq_iff_eq_add] at hoff
    exact absurd (hoff.trans (by decide)) hrx
  all_goals rfl

theorem socUartRead_erased_uart (u : SocUart) (offset out : Word) :
    (socUartRead u offset out).rc = (socUartRead u.erased offset out).rc ∧
      (socUartRead u offset out).uart.erased = (socUartRead u.erased offset out).uart.erased := by
  unfold socUartRead
  split <;> exact ⟨rfl, rfl⟩

/-- A write to TXDATA may carry any byte. -/
theorem socUartWrite_erased {addr value value' : Word}
    (hvalue : addr ≠ vlabUartTxdata → value' = value) (u : SocUart) (p : SocPerf) :
    let w := socUartWrite u p (addr - vlabUartBase) value
    let w' := socUartWrite u.erased p (addr - vlabUartBase) value'
    w.rc = w'.rc ∧ w.perf = w'.perf ∧ w.uart.erased = w'.uart.erased := by
  have hctrl : u.erased.ctrl = u.ctrl := rfl
  have hlat : u.erased.latencyTicks = u.latencyTicks := rfl
  by_cases htx : addr = vlabUartTxdata
  · have h0 : addr - vlabUartBase = 0x00 := by
      rw [htx]
      decide
    have hwrite : ∀ (w : SocUart) v, socUartWrite w p 0x00 v =
        if w.ctrl &&& socUartCtrlEnable = 0 then ⟨.uartErrDisabled, w, socPerfCountStall p 1⟩
        else ⟨.ok, { w with
          txdata := v &&& 0xFF
          busy := if 0 < w.latencyTicks then w.latencyTicks.toInt else 1 }, p⟩ := fun _ _ => rfl
    rw [h0, hwrite, hwrite, hctrl, hlat]
    split_ifs <;> exact ⟨rfl, rfl, rfl⟩
  · rw [hvalue htx]
    unfold socUartWrite
    split
    · rw [hctrl, hlat]
      split_ifs <;> exact ⟨rfl, rfl, rfl⟩
    all_goals exact ⟨rfl, rfl, rfl⟩

/-! ### Bus accesses -/

theorem SocWired.route_mem {s : Soc} (h : SocWired s) {addr : Word} (h4 : addr % 4 = 0) :
    (socRoute s addr = 0 ∨ socRoute s addr = 1 ↔ MemAddr addr) ∧
      (addr = vlabUartTxdata → socRoute s addr = 2) := by
  refine ⟨?_, ?_⟩
  · rw [h.route, socBusRoute_vlab ((dvd_four_iff addr).mp h4), MemAddr]
    split_ifs with hrom hsram <;> simp_all
  · rintro rfl
    rw [h.route]
    decide

theorem socReadSwitch_erased (s : Soc) (kind : Int) (addr out : Word) :
    let r := socReadSwitch s kind addr out
    let r' := socReadSwitch s.erased kind addr out
    r.rc = r'.rc ∧ r.soc.erased = r'.soc.erased ∧
      (kind ≠ 0 → kind ≠ 1 → addr ≠ vlabUartRxdata → r.out = r'.out) := by
  unfold socReadSwitch
  split
  case h_1 => exact ⟨socMemReadWord_erased _ _ _, rfl, fun h0 => absurd rfl h0⟩
  case h_2 => exact ⟨socMemReadWord_erased _ _ _, rfl, fun _ h1 => absurd rfl h1⟩
  case h_3 =>
    obtain ⟨hrc, huart⟩ := socUartRead_erased_uart s.uart (addr - vlabUartBase) out
    refine ⟨hrc, ?_, fun _ _ hrx => socUartRead_erased hrx s.uart out⟩
    show ({ s.erased with uart := (socUartRead s.uart (addr - vlabUartBase) out).uart.erased } : Soc) = _
    rw [huart]
    rfl
  all_goals exact ⟨rfl, rfl, fun _ _ _ => rfl⟩

/-- A count of a stall beside the erasure. -/
theorem stall_erased {s t : Soc} (h : s.erased = t.erased) :
    ({ s with perf := socPerfCountStall s.perf 1 } : Soc).erased =
      ({ t with perf := socPerfCountStall t.perf 1 } : Soc).erased :=
  congrArg (fun u : Soc => { u with perf := socPerfCountStall u.perf 1 }) h

theorem SocWired.read_erased {s : Soc} (h : SocWired s) (addr out : Word) :
    let r := socRead s addr out
    let r' := socRead s.erased addr out
    r.rc = r'.rc ∧ r.soc.erased = r'.soc.erased ∧
      (¬ (MemAddr addr ∨ addr = vlabUartRxdata) → r.out = r'.out) := by
  by_cases h4 : addr % 4 = 0
  swap
  · rw [socRead, socRead, if_pos h4, if_pos h4]
    exact ⟨rfl, rfl, fun _ => rfl⟩
  obtain ⟨hrc, hsoc, hout⟩ := socReadSwitch_erased { s with perf := socPerfCountMem s.perf }
    (socRoute s addr) addr out
  have hcontrol : ¬ (MemAddr addr ∨ addr = vlabUartRxdata) →
      socRoute s addr ≠ 0 ∧ socRoute s addr ≠ 1 ∧ addr ≠ vlabUartRxdata := by
    intro hno
    rw [← (h.route_mem h4).1] at hno
    tauto
  rw [socRead, socRead, if_neg (not_not.mpr h4), if_neg (not_not.mpr h4)]
  dsimp only
  rw [show socRoute { s with perf := socPerfCountMem s.perf } addr = socRoute s addr from rfl,
    show socRoute { s.erased with perf := socPerfCountMem s.erased.perf } addr = socRoute s addr
      from rfl]
  set q := socReadSwitch { s with perf := socPerfCountMem s.perf } (socRoute s addr) addr out with hq
  set q' := socReadSwitch { s.erased with perf := socPerfCountMem s.erased.perf } (socRoute s addr)
    addr out with hq'
  have hrc' : q.rc = q'.rc := hrc
  have hsoc' : q.soc.erased = q'.soc.erased := hsoc
  have hout' : ¬ (MemAddr addr ∨ addr = vlabUartRxdata) → q.out = q'.out := fun hno =>
    hout (hcontrol hno).1 (hcontrol hno).2.1 (hcontrol hno).2.2
  rw [← hrc']
  split_ifs
  · exact ⟨rfl, stall_erased hsoc', hout'⟩
  · exact ⟨rfl, hsoc', hout'⟩

theorem SocWired.writeSwitch_erased {s : Soc} (h : SocWired s) {addr : Word} (h4 : addr % 4 = 0)
    (value : Word) :
    let w := socWriteSwitch s (socRoute s addr) addr value
    let w' := socWriteSwitch s.erased (socRoute s addr) addr
      (if MemAddr addr ∨ addr = vlabUartTxdata then 0 else value)
    w.rc = w'.rc ∧ w.soc.erased = w'.soc.erased := by
  obtain ⟨hmem, htx⟩ := h.route_mem h4
  set v := if MemAddr addr ∨ addr = vlabUartTxdata then 0 else value with hv
  -- away from the memories and TXDATA the value is the one written
  have hvalue : ¬ (socRoute s addr = 0 ∨ socRoute s addr = 1) → addr ≠ vlabUartTxdata → v = value :=
    fun hno hne => if_neg (not_or.mpr ⟨fun h0 => hno (hmem.mpr h0), hne⟩)
  generalize hk : socRoute s addr = kind at *
  unfold socWriteSwitch
  split
  case h_1 =>
    obtain ⟨hrc, hrom⟩ := socMemWriteWord_erased s.rom addr value v
    exact ⟨hrc, congrArg (fun m : SocMem => ({ s.erased with rom := m } : Soc)) hrom⟩
  case h_2 =>
    obtain ⟨hrc, hsram⟩ := socMemWriteWord_erased s.sram addr value v
    exact ⟨hrc, congrArg (fun m : SocMem => ({ s.erased with sram := m } : Soc)) hsram⟩
  case h_3 =>
    obtain ⟨hrc, hperf, huart⟩ := socUartWrite_erased (hvalue (by decide)) s.uart s.perf
    refine ⟨hrc, ?_⟩
    show ({ s.erased with
      uart := (socUartWrite s.uart s.perf (addr - vlabUartBase) value).uart.erased
      perf := (socUartWrite s.uart s.perf (addr - vlabUartBase) value).perf } : Soc) = _
    rw [huart, hperf]
    rfl
  case h_8 h0 h1 h2 h3 h4 h5 h6 => exact ⟨rfl, rfl⟩
  all_goals
    rw [hvalue (by decide) fun h0 => absurd (htx h0) (by decide)]
    exact ⟨rfl, rfl⟩

theorem SocWired.write_erased {s : Soc} (h : SocWired s) (addr value : Word) :
    let w := socWrite s addr value
    let w' := socWrite s.erased addr (if MemAddr addr ∨ addr = vlabUartTxdata then 0 else value)
    w.rc = w'.rc ∧ w.soc.erased = w'.soc.erased := by
  by_cases h4 : addr % 4 = 0
  swap
  · rw [socWrite, socWrite, if_pos h4, if_pos h4]
    exact ⟨rfl, rfl⟩
  obtain ⟨hrc, hsoc⟩ := h.countMem.writeSwitch_erased h4 value
  rw [socWrite, socWrite, if_neg (not_not.mpr h4), if_neg (not_not.mpr h4)]
  dsimp only at hrc hsoc ⊢
  rw [show socRoute { s.erased with perf := socPerfCountMem s.erased.perf } addr =
    socRoute { s with perf := socPerfCountMem s.perf } addr from rfl]
  set w := socWriteSwitch { s with perf := socPerfCountMem s.perf } _ addr value with hw
  set w' := socWriteSwitch { s.erased with perf := socPerfCountMem s.erased.perf } _ addr _ with hw'
  have hrc' : w.rc = w'.rc := hrc
  have hsoc' : w.soc.erased = w'.soc.erased := hsoc
  rw [← hrc']
  split_ifs
  · exact ⟨rfl, stall_erased hsoc'⟩
  · exact ⟨hrc', hsoc'⟩

/-! ### Ticks and boots -/

theorem SocWired.erased {s : Soc} (h : SocWired s) : SocWired s.erased :=
  h.of_eq rfl rfl rfl rfl rfl rfl

theorem socTickFront_erased (s : Soc) :
    (socTickFront s).erased = (socTickFront s.erased).erased := by
  obtain ⟨hraises, huart⟩ := socUartStep_erased s.uart
  rw [socTickFront_frame, socTickFront_frame]
  show ({ s.erased with
    ticks := s.ticks + 1
    perf := socPerfTick s.perf
    uart := (socUartStep s.uart).1.erased
    timer := (socTimerStep s.timer).1
    intc := socIntcRaiseAll (socIntcRaiseAll s.intc (socUartStep s.uart).2)
      (socTimerStep s.timer).2 } : Soc) = _
  rw [hraises, huart]
  rfl

/-- What the reader bridge leaves of the UART. -/
theorem dmaDrained_erased (s : Soc) (src len : Word) :
    (dmaDrained s src len).erased = (dmaDrained s.erased src len).erased := by
  rw [dmaDrained, dmaDrained]
  split_ifs
  · exact drain_erased s.uart _ len
  · rfl

theorem dmaFinished_erased (s : Soc) : (dmaFinished s).erased = (dmaFinished s.erased).erased := by
  have hsram : (dmaMoved s s.dma.src s.dma.dst s.dma.length).sram.erased =
      (dmaMoved s.erased s.dma.src s.dma.dst s.dma.length).sram.erased := by
    rw [moved_sram s, moved_sram s.erased]
    rfl
  have huart : (dmaMoved s s.dma.src s.dma.dst s.dma.length).uart.erased =
      (dmaMoved s.erased s.dma.src s.dma.dst s.dma.length).uart.erased := by
    have hdrained := dmaDrained_erased s s.dma.src s.dma.length
    rw [moved_uart, moved_uart]
    split_ifs
    · refine (append_erased _ _ (fun _ => 0) _).trans (Eq.trans ?_ (append_erased _ _ (fun _ => 0) _).symm)
      rw [hdrained]
    · exact hdrained
  rw [dmaFinished, dmaFinished]
  show ({ s.erased with
    dma := { s.dma with
      remaining := s.dma.remaining - 1, busy := false, done := true, error := false }
    perf := socPerfCountDma s.perf s.dma.length
    uart := (dmaMoved s s.dma.src s.dma.dst s.dma.length).uart.erased
    sram := (dmaMoved s s.dma.src s.dma.dst s.dma.length).sram.erased
    intc := socIntcRaiseAll s.intc s.dma.irq } : Soc) = _
  rw [huart, hsram]
  rfl

theorem dmaAborted_erased (s : Soc) {u v : SocUart} (h : u.erased = v.erased) :
    (dmaAborted s u).erased = (dmaAborted s.erased v).erased :=
  congrArg (fun w : SocUart => { dmaAborted s.erased s.uart.erased with uart := w }) h

theorem SocWired.tickDma_erased {s : Soc} (h : SocWired s) :
    (socTickDma s).erased = (socTickDma s.erased).erased := by
  by_cases hidle : s.dma.busy = false ∨ s.dma.faultStuckBusy = true
  · rw [socTickDma_idle hidle, socTickDma_idle (s := s.erased) hidle]
    rfl
  rw [not_or, Bool.not_eq_false, Bool.not_eq_true] at hidle
  obtain ⟨hbusy, hstuck⟩ := hidle
  by_cases hrem : 1 < s.dma.remaining
  · rw [socTickDma_count hbusy hstuck hrem, socTickDma_count (s := s.erased) hbusy hstuck hrem]
    rfl
  · -- the completing tick, decided by the descriptor
    rw [h.tickDma_complete hbusy hstuck (not_lt.mp hrem),
      h.erased.tickDma_complete hbusy hstuck (not_lt.mp hrem)]
    have hdma : s.erased.dma = s.dma := rfl
    rw [hdma]
    split_ifs
    · exact dmaFinished_erased s
    · exact dmaAborted_erased s (dmaDrained_erased s _ _)
    · exact dmaAborted_erased s (show s.uart.erased = s.erased.uart.erased from rfl)

theorem SocWired.tick_erased {s : Soc} (h : SocWired s) :
    (socTick s).erased = (socTick s.erased).erased := by
  rw [socTick, socTick, h.tickFront.tickDma_erased, socTickFront_erased s,
    ← h.erased.tickFront.tickDma_erased]

/-- Ticks of two SoCs that differ in data only. -/
theorem SocWired.ticks_erased {s t : Soc} (h : SocWired s) (ht : SocWired t)
    (hst : s.erased = t.erased) (n : ℕ) : (socTick^[n] s).erased = (socTick^[n] t).erased := by
  induction n generalizing s t with
  | zero => exact hst
  | succ n ih =>
    rw [Function.iterate_succ_apply, Function.iterate_succ_apply]
    exact ih h.tick ht.tick (by rw [h.tick_erased, hst, ← ht.tick_erased])

theorem SocWired.boot_erased {s : Soc} (h : SocWired s) (romWords : Option (List Word))
    (nwords : Word) : (socBoot s romWords nwords).erased = (socBoot s.erased none 0).erased := by
  have hreset : (socBootReset s romWords nwords).erased = (socBootReset s.erased none 0).erased := by
    have hrom := erased_of_shape (socBootReset_rom_shape s romWords nwords)
    rw [socBootReset_frame]
    show ({ (socBootReset s none 0).erased with
      rom := (socBootReset s romWords nwords).rom.erased } : Soc) = _
    rw [hrom]
    rfl
  have hticks := (h.bootReset romWords nwords).ticks_erased (h.erased.bootReset none 0) hreset
    socBootTicks.toNat
  exact congrArg (fun u : Soc => { u with cpu := socCpuEnterMain u.cpu }) hticks

/-! ### Every event -/

/-- Every event acts on the control as it would without data. -/
theorem SocWired.apply_erased {s : Soc} (h : SocWired s) (e : SocEvent) :
    (socApply s e).erased = (socApply s.erased e.erased).erased := by
  cases e with
  | read addr out => exact (h.read_erased addr out).2.1
  | write addr value => exact (h.write_erased addr value).2
  | tick => exact h.tick_erased
  | boot romWords nwords => exact h.boot_erased romWords nwords
  | resetPeripherals => rfl
  | raise line => rfl
  | uartStuck b => rfl
  | dmaStuck b => rfl

/-- And returns what it would without data. -/
theorem SocWired.result_erased {s : Soc} (h : SocWired s) (e : SocEvent) :
    shownControl s e = shownControl s.erased e.erased := by
  cases e with
  | read addr out =>
    obtain ⟨hrc, -, hout⟩ := h.read_erased addr out
    simp only [shownControl, socResult, SocEvent.erased, hrc]
    by_cases hdata : MemAddr addr ∨ addr = vlabUartRxdata
    · rw [if_pos hdata, if_pos hdata]
    · rw [if_neg hdata, if_neg hdata, hout hdata]
  | write addr value => exact congrArg SocResult.write (h.write_erased addr value).1
  | _ => rfl

/-! ### Two runs -/

/-- The SoC on its control alone. -/
def controlApply (s : Soc) (e : SocEvent) : Soc := (socApply s e).erased

/-- A run is, on the control, the run of its events without data. -/
theorem SocWired.run_erased {s : Soc} (h : SocWired s) (es : List SocEvent) :
    (Runs.run socApply s es).erased =
        Runs.run controlApply s.erased (es.map SocEvent.erased) ∧
      (Runs.stages socApply s es).map (fun x => shownControl x.1 x.2) =
        (Runs.stages controlApply s.erased (es.map SocEvent.erased)).map
          fun x => shownControl x.1 x.2 := by
  have hkeep : ∀ u (e : SocEvent), True → SocWired u → SocWired (socApply u e) :=
    fun u e _ hu => hu.apply e
  obtain ⟨hrun, hstages⟩ := Runs.run_refines socApply controlApply Soc.erased
    (fun x => x.2.erased) hkeep (fun u e _ hu => hu.apply_erased e)
    (fun e (_ : e ∈ es) => trivial) h
  have hsnd : (Runs.stages socApply s es).map Prod.snd = es := Runs.map_snd_stages
  have hevents : (Runs.stages socApply s es).map (fun x => x.2.erased) = es.map SocEvent.erased :=
    calc (Runs.stages socApply s es).map (fun x => x.2.erased)
        = ((Runs.stages socApply s es).map Prod.snd).map SocEvent.erased := by
          rw [List.map_map]
          rfl
      _ = es.map SocEvent.erased := by rw [hsnd]
  rw [hevents] at hrun hstages
  refine ⟨hrun, ?_⟩
  rw [hstages, List.map_map]
  obtain ⟨-, hwired⟩ := Runs.stages_invariant socApply (C := fun _ => True)
    (fun u e _ (hu : SocWired u) => hu.apply e) (fun _ _ => trivial) h
  exact List.map_congr_left fun x hx => (hwired x hx).result_erased x.2

/-- No control depends on data.  Two reachable SoCs that differ in data only, run on events
that differ in the data they carry only (values written to the memories and to TXDATA, boot
images), return the same at every event, words read from the memories and from RXDATA apart,
and differ in data only at the end: durations, interrupts, status and error codes and
performance counts are the same. -/
theorem data_free {s t : Soc} (hs : SocReachable s) (ht : SocReachable t)
    (hst : s.erased = t.erased) {es fs : List SocEvent}
    (hef : es.map SocEvent.erased = fs.map SocEvent.erased) :
    (Runs.stages socApply s es).map (fun x => shownControl x.1 x.2) =
        (Runs.stages socApply t fs).map (fun x => shownControl x.1 x.2) ∧
      (Runs.run socApply s es).erased = (Runs.run socApply t fs).erased := by
  obtain ⟨hrun, hshown⟩ := hs.wired.run_erased es
  obtain ⟨hrun', hshown'⟩ := ht.wired.run_erased fs
  rw [hrun, hshown, hrun', hshown', hst, hef]
  exact ⟨rfl, rfl⟩

/-- Two words sent over the UART by DMA: STATUS shows the same while and after. -/
theorem data_free_sent :
    let send (word : Word) : List SocEvent :=
      [.boot (some [word]) 1, .write vlabSramBase word, .write vlabDmaSrc vlabSramBase,
        .write vlabDmaDst vlabUartTxdata, .write vlabDmaLen 4, .write vlabDmaCtrl 0x3,
        .read vlabDmaStatus 0, .tick, .read vlabDmaStatus 0, .read vlabSramBase 0]
    (Runs.stages socApply (socInit default none) (send 0)).map (fun x => shownControl x.1 x.2) =
      (Runs.stages socApply (socInit default none) (send 0xFFFFFFFF)).map
        fun x => shownControl x.1 x.2 := by
  intro send
  have hinit : SocReachable (socInit default none) := ⟨default, none, [], rfl⟩
  have hevents : (send 0).map SocEvent.erased = (send 0xFFFFFFFF).map SocEvent.erased := by
    have hmem : MemAddr vlabSramBase := by decide
    simp [send, SocEvent.erased, hmem]
  exact (data_free hinit hinit rfl hevents).1

end VlabSoc
