/-
What the PERF counters count.

`SocPerf.after` is the PERF block after an event, each counter by the predicate that
the event meets; `SocWired.apply_perf` shows every event to do exactly that while
PERF is enabled.  `perf_counts` sums it up over a run from boot.
-/
import Mathlib.Data.BitVec
import VlabSoc.DmaFlight

namespace VlabSoc

/-! ### What is counted -/

/-- A bus access at a word address. -/
def wordAccess : Soc × SocEvent → Bool
  | (_, .read addr _) => decide (addr % 4 = 0)
  | (_, .write addr _) => decide (addr % 4 = 0)
  | _ => false

/-- A bus access that does not return `SOC_OK`. -/
def accessFails : Soc × SocEvent → Bool
  | (s, .read addr out) => decide ((socRead s addr out).rc ≠ .ok)
  | (s, .write addr value) => decide ((socWrite s addr value).rc ≠ .ok)
  | _ => false

/-- An ACK read that answers a line. -/
def lineAcked : Soc × SocEvent → Bool
  | (s, .read addr out) =>
    decide (addr = vlabIntcAck ∧ (socRead s addr out).out ≠ socIrqNone)
  | _ => false

/-- A START written while the engine is BUSY. -/
def startIgnored (x : Soc × SocEvent) : Bool := x.1.dma.busy && x.2.startWord.isSome

/-- LEN of the transfer that ends in DONE in this event. -/
def bytesDone : Soc × SocEvent → Word
  | (s, .tick) => if s.dma.busy ∧ (socTick s).dma.done then s.dma.length else 0
  | _ => 0

def perfRegs : List Word :=
  [vlabPerfCycles, vlabPerfMemAcc, vlabPerfDmaBytes, vlabPerfIrqCount, vlabPerfStalls, vlabPerfCtrl]

/-- Software leaves the counters alone, and there is no boot. -/
def SocEvent.keepsPerf : SocEvent → Prop
  | .write addr _ => addr ∉ perfRegs
  | .boot _ _ => False
  | _ => True

/-- The PERF block after an event. -/
def SocPerf.after (p : SocPerf) (x : Soc × SocEvent) : SocPerf :=
  { p with
    cycles := p.cycles + if x.2.isTick then 1 else 0
    memAcc := p.memAcc + if wordAccess x then 1 else 0
    dmaBytes := p.dmaBytes + bytesDone x
    irqCount := p.irqCount + if lineAcked x then 1 else 0
    stalls := p.stalls + ((if accessFails x then 1 else 0) + if startIgnored x then 1 else 0) }

/-! ### The counters while enabled -/

section Enabled

variable {p : SocPerf} (hp : p.enabled = true)
include hp

theorem socPerfTick_on : socPerfTick p = { p with cycles := p.cycles + 1 } := if_pos hp

theorem socPerfCountMem_on : socPerfCountMem p = { p with memAcc := p.memAcc + 1 } := if_pos hp

theorem socPerfCountStall_on (n : Word) :
    socPerfCountStall p n = { p with stalls := p.stalls + n } := if_pos hp

theorem socPerfCountDma_on (n : Word) :
    socPerfCountDma p n = { p with dmaBytes := p.dmaBytes + n } := if_pos hp

theorem socPerfCountIrq_on : socPerfCountIrq p = { p with irqCount := p.irqCount + 1 } := if_pos hp

end Enabled

/-- A failing access, of either kind. -/
theorem failedAccess_perf {s : Soc} (hen : s.perf.enabled = true) (addr : Word) :
    (failedAccess s addr).perf =
      { s.perf with
        stalls := s.perf.stalls + 1
        memAcc := s.perf.memAcc + if addr % 4 = 0 then 1 else 0 } := by
  have h4 := dvd_four_iff addr
  unfold failedAccess
  dsimp only
  rw [if_pos hen]
  by_cases ha : addr % 4 = 0
  · rw [if_pos ⟨hen, h4.mp ha⟩, if_pos ha]
  · rw [if_neg fun h0 => ha (h4.mpr h0.2), if_neg ha]
    simp

/-! ### Reads -/

theorem socReadSwitch_perf {addr : Word} (haddr : addr ≠ vlabIntcAck) (s : Soc) (kind : Int)
    (out : Word) : (socReadSwitch s kind addr out).soc.perf = s.perf := by
  unfold socReadSwitch
  split
  case h_6 =>
    show (socIntcRead s.intc s.perf (addr - vlabIntcBase) out).perf = s.perf
    unfold socIntcRead
    split
    case h_4 hoff =>
      rw [BitVec.sub_eq_iff_eq_add] at hoff
      exact absurd (hoff.trans (by decide)) haddr
    all_goals rfl
  all_goals rfl

theorem SocPerf.after_read (p : SocPerf) (s : Soc) (addr out : Word) :
    let x := (s, SocEvent.read addr out)
    p.after x =
      { p with
        memAcc := p.memAcc + if wordAccess x then 1 else 0
        irqCount := p.irqCount + if lineAcked x then 1 else 0
        stalls := p.stalls + if accessFails x then 1 else 0 } := by
  intro x
  have hstart : startIgnored x = false := Bool.and_false _
  rw [SocPerf.after, hstart]
  simp [x, SocEvent.isTick, bytesDone]

/-- An ACK read counts an interrupt if it answers a line. -/
theorem SocWired.read_ack_perf {s : Soc} (h : SocWired s) (hen : s.perf.enabled = true)
    (out : Word) :
    (socRead s vlabIntcAck out).soc.perf =
      { s.perf with
        memAcc := s.perf.memAcc + 1
        irqCount := s.perf.irqCount +
          if lineAcked (s, .read vlabIntcAck out) then 1 else 0 } := by
  have hmem := socPerfCountMem_on hen
  rcases h.read_ack_cases out with ⟨-, hout, hsoc⟩ | ⟨line, -, hline, hout, hsoc⟩
  · -- NONE: the access is counted, no interrupt
    have hnone : lineAcked (s, .read vlabIntcAck out) = false :=
      decide_eq_false fun h0 => h0.2 hout
    rw [hnone, hsoc]
    dsimp only
    rw [hmem]
    simp
  · have hne : (BitVec.ofNat 32 line : Word) ≠ socIrqNone := line_ne_none hline
    have hsome : lineAcked (s, .read vlabIntcAck out) = true :=
      decide_eq_true ⟨rfl, by rw [hout]; exact hne⟩
    have hirq : (socPerfCountMem s.perf).enabled = true := by
      rw [hmem]
      exact hen
    rw [hsome, hsoc]
    dsimp only
    rw [socPerfCountIrq_on hirq, hmem]
    rfl

theorem SocWired.read_perf {s : Soc} (h : SocWired s) (hen : s.perf.enabled = true)
    (addr out : Word) :
    (socRead s addr out).soc.perf = s.perf.after (s, .read addr out) := by
  rw [SocPerf.after_read]
  by_cases hok : (socRead s addr out).rc = .ok
  · -- only aligned reads are OK, and `soc_read` counts them before the switch
    have h4 : addr % 4 = 0 := (dvd_four_iff addr).mpr ((h.read_ok addr out).mp hok).1
    have hword : wordAccess (s, .read addr out) = true := decide_eq_true h4
    have hfail : accessFails (s, .read addr out) = false := decide_eq_false (not_not.mpr hok)
    rw [hword, hfail]
    by_cases hack : addr = vlabIntcAck
    · subst hack
      rw [h.read_ack_perf hen]
      simp
    · have hline : lineAcked (s, .read addr out) = false := decide_eq_false fun h0 => hack h0.1
      rw [hline, (socRead_of_ok hok).2, socReadSwitch_perf hack]
      dsimp only
      rw [socPerfCountMem_on hen]
      simp
  · -- an ACK read does not fail
    have hack : addr ≠ vlabIntcAck := by
      rintro rfl
      exact hok (h.read_ack out).1
    have hline : lineAcked (s, .read addr out) = false := decide_eq_false fun h0 => hack h0.1
    have hfail : accessFails (s, .read addr out) = true := decide_eq_true hok
    rw [hline, hfail, socRead_fails hok]
    dsimp only
    rw [failedAccess_perf hen, wordAccess]
    simp

/-! ### Writes -/

theorem SocPerf.after_write (p : SocPerf) (s : Soc) (addr value : Word) :
    let x := (s, SocEvent.write addr value)
    p.after x =
      { p with
        memAcc := p.memAcc + if wordAccess x then 1 else 0
        stalls := p.stalls +
          ((if accessFails x then 1 else 0) + if startIgnored x then 1 else 0) } := by
  intro x
  rw [SocPerf.after]
  simp [x, SocEvent.isTick, bytesDone, lineAcked]

theorem socPerfWrite_other {offset : Word}
    (h : offset ∉ ([0x00, 0x04, 0x08, 0x0C, 0x10, 0x14] : List Word)) (p : SocPerf) (value : Word) :
    socPerfWrite p offset value = (.errBus, p) := by
  unfold socPerfWrite
  split
  case h_7 => rfl
  all_goals exact absurd (by decide) h

theorem perfOffset_other {addr : Word} (haddr : addr ∉ perfRegs) :
    addr - vlabPerfBase ∉ ([0x00, 0x04, 0x08, 0x0C, 0x10, 0x14] : List Word) := by
  intro hmem
  apply haddr
  have hback : addr = (addr - vlabPerfBase) + vlabPerfBase := (BitVec.sub_add_cancel _ _).symm
  simp only [List.mem_cons, List.not_mem_nil, or_false] at hmem
  rcases hmem with h | h | h | h | h | h <;> · rw [hback, h]; decide

/-- The PERF registers can all be read and written. -/
theorem SocWired.perfReg {s : Soc} (h : SocWired s) {addr : Word} (ha : addr ∈ perfRegs) :
    Readable addr ∧ Writable addr ∧ addr % 4 = 0 ∧ addr ≠ vlabUartTxdata ∧ socRoute s addr = 6 := by
  rw [h.route]
  simp only [perfRegs, List.mem_cons, List.not_mem_nil, or_false] at ha
  rcases ha with rfl | rfl | rfl | rfl | rfl | rfl
  all_goals exact ⟨by decide, by decide, by decide, by decide, by decide⟩

theorem SocWired.write_perfReg {s : Soc} (h : SocWired s) {addr : Word} (ha : addr ∈ perfRegs)
    (value : Word) :
    (socWrite s addr value).soc =
      { s with perf := (socPerfWrite (socPerfCountMem s.perf) (addr - vlabPerfBase) value).2 } := by
  obtain ⟨-, hw, -, hne, hroute⟩ := h.perfReg ha
  rw [socWrite_of_ok ((h.write_ok addr value).mpr ⟨hw, fun ht => hne ht.1⟩), hroute]
  rfl

theorem SocWired.read_perfReg {s : Soc} (h : SocWired s) {addr : Word} (ha : addr ∈ perfRegs)
    (out : Word) :
    (socRead s addr out).rc = .ok ∧
      (socRead s addr out).out =
        (socPerfRead (socPerfCountMem s.perf) (addr - vlabPerfBase) out).2 ∧
      (socRead s addr out).soc = { s with perf := socPerfCountMem s.perf } := by
  obtain ⟨hr, -, -, -, hroute⟩ := h.perfReg ha
  have hok := (h.read_ok addr out).mpr hr
  obtain ⟨hout, hsoc⟩ := socRead_of_ok hok
  rw [hout, hsoc, hroute]
  exact ⟨hok, rfl, rfl⟩

theorem socUartWrite_perf {u : SocUart} {p : SocPerf} {offset value : Word}
    (hok : (socUartWrite u p offset value).rc = .ok) : (socUartWrite u p offset value).perf = p := by
  revert hok
  unfold socUartWrite
  split
  · split_ifs
    · exact fun hok => absurd hok (by simp)
    · exact fun _ => rfl
    · exact fun _ => rfl
  all_goals exact fun _ => rfl

/-- A write that succeeds counts nothing of its own, outside PERF and apart from an ignored
START. -/
theorem socWriteSwitch_perf {addr : Word} (hdma : addr ∉ dmaRegs) (hperf : addr ∉ perfRegs) (s : Soc)
    (kind : Int) (value : Word) (hok : (socWriteSwitch s kind addr value).rc = .ok) :
    (socWriteSwitch s kind addr value).soc.perf = s.perf := by
  revert hok
  unfold socWriteSwitch
  split
  case h_3 => exact socUartWrite_perf
  case h_5 =>
    dsimp only
    rw [socDmaWrite_other (dmaOffset_other hdma)]
    exact fun _ => rfl
  case h_7 =>
    dsimp only
    rw [socPerfWrite_other (perfOffset_other hperf)]
    exact fun _ => rfl
  all_goals exact fun _ => rfl

/-- What a register write of the engine counts. -/
theorem socDmaWrite_perf {d : SocDma DmaCtx} {p : SocPerf} (hp : p.enabled = true)
    (offset value : Word) :
    (socDmaWrite d p offset value).2.perf =
      if d.busy ∧ offset = 0x0C ∧ value &&& socDmaCtrlStart ≠ 0 then
        { p with stalls := p.stalls + 1 } else p := by
  unfold socDmaWrite
  split
  -- CTRL: `soc_dma_start` stalls before it looks at the descriptor
  case h_4 =>
    dsimp only
    by_cases hstart : value &&& socDmaCtrlStart ≠ 0
    · rw [if_pos hstart, socDmaStart_perf]
      by_cases hb : d.busy = true
      · rw [if_pos hb, if_pos ⟨hb, rfl, hstart⟩]
        exact socPerfCountStall_on hp 1
      · rw [if_neg hb, if_neg fun h0 => hb h0.1]
    · rw [if_neg hstart, if_neg fun h0 => hstart h0.2.2]
  all_goals
    rw [if_neg]
    rintro ⟨-, hoff, -⟩
    simp_all

theorem startIgnored_iff {s : Soc} {addr value : Word} :
    startIgnored (s, .write addr value) = true ↔
      s.dma.busy = true ∧ addr = vlabDmaCtrl ∧ value &&& socDmaCtrlStart ≠ 0 := by
  rw [startIgnored, Bool.and_eq_true, SocEvent.startWord]
  refine and_congr_right fun _ => ?_
  split_ifs with h
  · exact iff_of_true rfl h
  · exact iff_of_false (by simp) h

theorem startIgnored_other {addr : Word} (haddr : addr ≠ vlabDmaCtrl) (s : Soc) (value : Word) :
    startIgnored (s, .write addr value) = false :=
  Bool.eq_false_iff.mpr (mt startIgnored_iff.mp fun h0 => haddr h0.2.1)

/-- A write to the engine counts a stall if it is an ignored START. -/
theorem SocWired.write_dma_perf {s : Soc} (h : SocWired s) (hen : s.perf.enabled = true)
    {addr : Word} (hdma : addr ∈ dmaRegs) (value : Word) :
    (socWrite s addr value).soc.perf =
      { s.perf with
        memAcc := s.perf.memAcc + 1
        stalls := s.perf.stalls +
          if startIgnored (s, .write addr value) then 1 else 0 } := by
  have hmem := socPerfCountMem_on hen
  have hon : (socPerfCountMem s.perf).enabled = true := by
    rw [hmem]
    exact hen
  have hctrl : addr - vlabDmaBase = 0x0C ↔ addr = vlabDmaCtrl := by
    rw [BitVec.sub_eq_iff_eq_add]
    exact Iff.rfl
  rw [h.write_dmaReg hdma]
  dsimp only
  rw [socDmaWrite_perf hon, hmem]
  by_cases hignored : s.dma.busy = true ∧ addr = vlabDmaCtrl ∧ value &&& socDmaCtrlStart ≠ 0
  · rw [startIgnored_iff.mpr hignored, if_pos (by rwa [hctrl])]
    rfl
  · have hno : startIgnored (s, .write addr value) = false :=
      Bool.eq_false_iff.mpr (mt startIgnored_iff.mp hignored)
    rw [hno, if_neg (by rwa [hctrl])]
    simp

theorem SocWired.write_perf {s : Soc} (h : SocWired s) (hen : s.perf.enabled = true)
    {addr : Word} (haddr : addr ∉ perfRegs) (value : Word) :
    (socWrite s addr value).soc.perf = s.perf.after (s, .write addr value) := by
  rw [SocPerf.after_write]
  by_cases hok : (socWrite s addr value).rc = .ok
  · have h4 : addr % 4 = 0 := (dvd_four_iff addr).mpr ((h.write_ok addr value).mp hok).1.1
    have hword : wordAccess (s, .write addr value) = true := decide_eq_true h4
    have hfail : accessFails (s, .write addr value) = false := decide_eq_false (not_not.mpr hok)
    rw [hword, hfail]
    by_cases hdma : addr ∈ dmaRegs
    · rw [h.write_dma_perf hen hdma]
      simp
    · -- elsewhere no START is written
      have hne : addr ≠ vlabDmaCtrl := by
        rintro rfl
        exact hdma (by decide)
      have hswitch := (socWrite_switch s value h4).1
      rw [startIgnored_other hne, socWrite_of_ok hok,
        socWriteSwitch_perf hdma haddr _ _ _ (hswitch.symm.trans hok)]
      dsimp only
      rw [socPerfCountMem_on hen]
      simp
  · -- CTRL takes every write
    have hne : addr ≠ vlabDmaCtrl := by
      rintro rfl
      exact hok ((h.write_ok vlabDmaCtrl value).mpr ⟨by decide, fun ht => absurd ht.1 (by decide)⟩)
    have hfail : accessFails (s, .write addr value) = true := decide_eq_true hok
    rw [startIgnored_other hne, hfail, socWrite_fails hok, failedAccess_perf hen, wordAccess]
    simp

/-! ### Ticks -/

theorem SocPerf.after_tick (p : SocPerf) (s : Soc) :
    p.after (s, .tick) =
      { p with cycles := p.cycles + 1, dmaBytes := p.dmaBytes + bytesDone (s, .tick) } := by
  have hstart : startIgnored (s, .tick) = false := Bool.and_false _
  rw [SocPerf.after, hstart]
  simp [SocEvent.isTick, wordAccess, lineAcked, accessFails]

theorem SocWired.tick_perf {s : Soc} (h : SocWired s) (hinv : DmaInv s.dma)
    (hen : s.perf.enabled = true) : (socTick s).perf = s.perf.after (s, .tick) := by
  have hfront : (socTickFront s).perf = { s.perf with cycles := s.perf.cycles + 1 } :=
    socPerfTick_on hen
  -- the counted bytes are those of a transfer that was BUSY and is DONE
  have hnone : s.dma.busy = false ∨ (socTick s).dma.done = false → bytesDone (s, .tick) = 0 := by
    intro hno
    refine if_neg fun h0 => ?_
    rcases hno with hidle | hdone
    · exact Bool.false_ne_true (hidle.symm.trans h0.1)
    · exact Bool.false_ne_true (hdone.symm.trans h0.2)
  have hstill : (socTick s).dma.done = s.dma.done → bytesDone (s, .tick) = 0 := by
    intro hdone
    cases hb : s.dma.busy with
    | false => exact hnone (Or.inl hb)
    | true => exact hnone (Or.inr (hdone.trans (hinv.busy_not_done hb)))
  rw [SocPerf.after_tick]
  rcases h.tickFront.tickDma_cases with ⟨-, heq⟩ | ⟨-, -, -, heq⟩ | ⟨-, -, heq⟩ | ⟨-, -, -, heq⟩ |
    ⟨hend, -, -, heq⟩
  · have hdma : (socTick s).dma.done = s.dma.done := congrArg (fun t => t.dma.done) heq
    rw [hstill hdma, socTick, heq, hfront]
    simp
  · have hdma : (socTick s).dma.done = s.dma.done := congrArg (fun t => t.dma.done) heq
    rw [hstill hdma, socTick, heq, hfront]
    simp
  · have hdone : (socTick s).dma.done = false := congrArg (fun t => t.dma.done) heq
    rw [hnone (Or.inr hdone), socTick, heq, dmaAborted, hfront]
    simp
  · have hdone : (socTick s).dma.done = false := congrArg (fun t => t.dma.done) heq
    rw [hnone (Or.inr hdone), socTick, heq, dmaAborted, hfront]
    simp
  · have hdone : (socTick s).dma.done = true := congrArg (fun t => t.dma.done) heq
    have hbytes : bytesDone (s, .tick) = s.dma.length := if_pos ⟨hend.1, hdone⟩
    have hon : (socTickFront s).perf.enabled = true := by
      rw [hfront]
      exact hen
    rw [hbytes, socTick, heq, dmaFinished]
    dsimp only
    rw [socPerfCountDma_on hon, hfront]
    rfl

/-! ### Every event -/

theorem SocPerf.after_nothing (p : SocPerf) {x : Soc × SocEvent} (htick : x.2.isTick = false)
    (hword : wordAccess x = false) (hfail : accessFails x = false) (hack : lineAcked x = false)
    (hstart : x.2.startWord = none) (hbytes : bytesDone x = 0) : p.after x = p := by
  have hstart : startIgnored x = false := by
    rw [startIgnored, hstart]
    exact Bool.and_false _
  rw [SocPerf.after, htick, hword, hfail, hack, hstart, hbytes]
  simp

/-- Every event counts what it is, and nothing else. -/
theorem SocWired.apply_perf {s : Soc} (h : SocWired s) (hinv : DmaInv s.dma)
    (hen : s.perf.enabled = true) {e : SocEvent} (he : e.keepsPerf) :
    (socApply s e).perf = s.perf.after (s, e) := by
  cases e with
  | read addr out => exact h.read_perf hen addr out
  | write addr value => exact h.write_perf hen he value
  | tick => exact h.tick_perf hinv hen
  | boot romWords nwords => exact absurd he id
  | resetPeripherals => exact (SocPerf.after_nothing _ rfl rfl rfl rfl rfl rfl).symm
  | raise line => exact (SocPerf.after_nothing _ rfl rfl rfl rfl rfl rfl).symm
  | uartStuck b => exact (SocPerf.after_nothing _ rfl rfl rfl rfl rfl rfl).symm
  | dmaStuck b => exact (SocPerf.after_nothing _ rfl rfl rfl rfl rfl rfl).symm

theorem socApply_ticks (s : Soc) {e : SocEvent} (he : e.keepsPerf) :
    (socApply s e).ticks = s.ticks + if e.isTick then 1 else 0 := by
  have hsame : ∀ {x : Word}, x = s.ticks → x = s.ticks + if false then 1 else 0 := by
    rintro x rfl
    simp
  cases e with
  | read addr out => exact hsame (by rw [socApply, socRead_frame])
  | write addr value => exact hsame (socWrite_keeps s addr value).ticks
  | tick => rfl
  | boot romWords nwords => exact absurd he id
  | resetPeripherals => exact hsame rfl
  | raise line => exact hsame rfl
  | uartStuck b => exact hsame rfl
  | dmaStuck b => exact hsame rfl

/-! ### Boot -/

/-- Ticks of a SoC whose engine is at rest count cycles only. -/
theorem ticks_idle {r : Soc} (hidle : r.dma.busy = false) (hen : r.perf.enabled = true) (k : ℕ) :
    (socTick^[k] r).dma.busy = false ∧
      (socTick^[k] r).ticks = r.ticks + BitVec.ofNat 32 k ∧
      (socTick^[k] r).perf = { r.perf with cycles := r.perf.cycles + BitVec.ofNat 32 k } := by
  induction k with
  | zero => simp [hidle]
  | succ k ih =>
    obtain ⟨hb, hticks, hperf⟩ := ih
    rw [Function.iterate_succ_apply']
    set t := socTick^[k] r
    -- the engine at rest adds nothing to the front half of the tick
    have hstep : socTick t = socTickFront t := socTickDma_idle (s := socTickFront t) (Or.inl hb)
    have hon : t.perf.enabled = true := by
      rw [hperf]
      exact hen
    have hfront : (socTickFront t).perf = { t.perf with cycles := t.perf.cycles + 1 } :=
      socPerfTick_on hon
    have hone : BitVec.ofNat 32 (k + 1) = BitVec.ofNat 32 k + 1 := BitVec.ofNat_add k 1
    rw [hstep]
    refine ⟨hb, ?_, ?_⟩
    · show t.ticks + 1 = _
      rw [hticks, hone, BitVec.add_assoc]
    · rw [hfront, hperf, hone]
      dsimp only
      rw [BitVec.add_assoc]

/-- A boot leaves its own ticks in CYCLES, and the other counters at zero. -/
theorem socBoot_perf (s : Soc) (romWords : Option (List Word)) (nwords : Word) :
    (socBoot s romWords nwords).ticks = socBootTicks ∧
      (socBoot s romWords nwords).perf =
        { cycles := socBootTicks, memAcc := 0, dmaBytes := 0, irqCount := 0, stalls := 0,
          enabled := true, ctrl := 0x1 } := by
  have hreset : (socBootReset s romWords nwords).dma.busy = false ∧
      (socBootReset s romWords nwords).ticks = 0 ∧
      (socBootReset s romWords nwords).perf =
        { cycles := 0, memAcc := 0, dmaBytes := 0, irqCount := 0, stalls := 0, enabled := true,
          ctrl := 0x1 } := by
    rw [socBootReset_frame]
    exact ⟨rfl, rfl, rfl⟩
  obtain ⟨hidle, hzero, hperf⟩ := hreset
  obtain ⟨-, hticks, hcount⟩ := ticks_idle hidle (by rw [hperf]) socBootTicks.toNat
  rw [hzero] at hticks
  rw [hperf] at hcount
  exact ⟨hticks, hcount⟩

/-! ### The law -/

/-- Exact performance accounting, in every run after a boot that does not write PERF: the
counters are, modulo 2^32, the ticks, the accesses at word addresses, the ACK reads that
answered a line, the bytes of the transfers that ended in DONE, and the accesses that did not
return OK together with the STARTs written while BUSY. -/
theorem perf_counts {s : Soc} (h : SocReachable s) (romWords : Option (List Word)) (nwords : Word)
    {es : List SocEvent} (hes : ∀ e ∈ es, e.keepsPerf) :
    let s0 := socBoot s romWords nwords
    let t := Runs.run socApply s0 es
    let xs := Runs.stages socApply s0 es
    t.perf.cycles = t.ticks ∧
      t.ticks = socBootTicks + BitVec.ofNat 32 (es.countP SocEvent.isTick) ∧
      t.perf.memAcc = BitVec.ofNat 32 (xs.countP wordAccess) ∧
      t.perf.irqCount = BitVec.ofNat 32 (xs.countP lineAcked) ∧
      t.perf.dmaBytes = (xs.map bytesDone).sum ∧
      t.perf.stalls = BitVec.ofNat 32 (xs.countP accessFails + xs.countP startIgnored) := by
  intro s0 t xs
  obtain ⟨hticks0, hperf0⟩ := socBoot_perf s romWords nwords
  -- a run that does not write PERF leaves it enabled
  have hstart : SocWired s0 ∧ DmaInv s0.dma ∧ s0.perf.enabled = true := by
    refine ⟨h.wired.boot romWords nwords, h.wired.dmaInv_apply h.dmaInv (.boot romWords nwords), ?_⟩
    rw [hperf0]
  have hkeep : ∀ u e, SocEvent.keepsPerf e → SocWired u ∧ DmaInv u.dma ∧ u.perf.enabled = true →
      SocWired (socApply u e) ∧ DmaInv (socApply u e).dma ∧ (socApply u e).perf.enabled = true := by
    rintro u e he ⟨hw, hinv, hen⟩
    refine ⟨hw.apply e, hw.dmaInv_apply hinv e, ?_⟩
    rw [hw.apply_perf hinv hen he]
    exact hen
  have hstep : ∀ u e, SocEvent.keepsPerf e → SocWired u ∧ DmaInv u.dma ∧ u.perf.enabled = true →
      (socApply u e).perf = u.perf.after (u, e) := fun u e he hu => hu.1.apply_perf hu.2.1 hu.2.2 he
  -- one count for each counter, all of them from the same step
  have hcycles := Runs.run_count socApply (fun u => u.perf.cycles) (fun x => x.2.isTick) hkeep
    (fun u e he hu => congrArg SocPerf.cycles (hstep u e he hu)) hes hstart
  have hticks := Runs.run_count socApply (fun u => u.ticks) (fun x => x.2.isTick) hkeep
    (fun u e he _ => socApply_ticks u he) hes hstart
  have hmem := Runs.run_count socApply (fun u => u.perf.memAcc) wordAccess hkeep
    (fun u e he hu => congrArg SocPerf.memAcc (hstep u e he hu)) hes hstart
  have hirq := Runs.run_count socApply (fun u => u.perf.irqCount) lineAcked hkeep
    (fun u e he hu => congrArg SocPerf.irqCount (hstep u e he hu)) hes hstart
  have hbytes := Runs.run_sum socApply (fun u => u.perf.dmaBytes) bytesDone hkeep
    (fun u e he hu => congrArg SocPerf.dmaBytes (hstep u e he hu)) hes hstart
  have hstalls := Runs.run_sum socApply (fun u => u.perf.stalls)
    (fun x => (if accessFails x then 1 else 0) + if startIgnored x then 1 else 0) hkeep
    (fun u e he hu => congrArg SocPerf.stalls (hstep u e he hu)) hes hstart
  rw [List.sum_map_add, Runs.sum_indicator, Runs.sum_indicator] at hstalls
  rw [show s0.perf = _ from hperf0] at hcycles hmem hirq hbytes hstalls
  rw [show s0.ticks = _ from hticks0] at hticks
  refine ⟨hcycles.trans hticks.symm, ?_, ?_, ?_, ?_, ?_⟩
  · rw [← Runs.countP_stages]
    exact hticks
  · exact hmem.trans (BitVec.zero_add _)
  · exact hirq.trans (BitVec.zero_add _)
  · exact hbytes.trans (BitVec.zero_add _)
  · rw [BitVec.ofNat_add]
    exact hstalls.trans (BitVec.zero_add _)

/-- A START while BUSY and a misaligned read: two stalls. -/
theorem perf_counts_stalls :
    (Runs.run socApply (socBoot (socInit default none) none 0)
      [.write vlabDmaSrc vlabSramBase, .write vlabDmaDst vlabUartTxdata, .write vlabDmaLen 4,
        .write vlabDmaCtrl 0x1, .write vlabDmaCtrl 0x1, .tick, .read 0x1 0,
        .resetPeripherals]).perf.stalls = 2 := by
  have hinit : SocReachable (socInit default none) := ⟨default, none, [], rfl⟩
  have hes : ∀ e ∈ [SocEvent.write vlabDmaSrc vlabSramBase, .write vlabDmaDst vlabUartTxdata,
      .write vlabDmaLen 4, .write vlabDmaCtrl 0x1, .write vlabDmaCtrl 0x1, .tick, .read 0x1 0,
      .resetPeripherals], e.keepsPerf := by
    simp [SocEvent.keepsPerf, perfRegs]
  exact (perf_counts hinit none 0 hes).2.2.2.2.2.trans (by decide +kernel)

end VlabSoc
