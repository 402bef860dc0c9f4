/-
Polling.

A bus read changes nothing but the MEM_ACC and STALLS counts, unless it is of
UART RXDATA or INTC ACK (`socRead_uncounted`).  `Soc.uncounted` drops the two
counts; every event commutes with it (`socApply_uncounted`) and returns the same,
reads of the two counters apart (`shownResult_uncounted`).  `polling_undisturbed`
compares a run with extra reads to the run without them.
-/
import VlabSoc.SocRuns

namespace VlabSoc

/-! ### PERF without the two counts -/

def SocPerf.uncounted (p : SocPerf) : SocPerf := { p with memAcc := 0, stalls := 0 }

@[simp] theorem uncounted_uncounted (p : SocPerf) : p.uncounted.uncounted = p.uncounted := rfl

@[simp] theorem socPerfCountMem_uncounted (p : SocPerf) :
    (socPerfCountMem p).uncounted = p.uncounted := by
  unfold socPerfCountMem; split <;> rfl

@[simp] theorem socPerfCountStall_uncounted (p : SocPerf) (n : Word) :
    (socPerfCountStall p n).uncounted = p.uncounted := by
  unfold socPerfCountStall; split <;> rfl

/-- The other counts are kept up beside the two. -/
theorem socPerfTick_uncounted (p : SocPerf) :
    (socPerfTick p).uncounted = socPerfTick p.uncounted := by
  unfold socPerfTick SocPerf.uncounted; split <;> rfl

theorem socPerfCountDma_uncounted (p : SocPerf) (n : Word) :
    (socPerfCountDma p n).uncounted = socPerfCountDma p.uncounted n := by
  unfold socPerfCountDma SocPerf.uncounted; split <;> rfl

theorem socPerfCountIrq_uncounted (p : SocPerf) :
    (socPerfCountIrq p).uncounted = socPerfCountIrq p.uncounted := by
  unfold socPerfCountIrq SocPerf.uncounted; split <;> rfl

theorem socPerfWrite_uncounted (p : SocPerf) (offset value : Word) :
    (socPerfWrite p offset value).1 = (socPerfWrite p.uncounted offset value).1 ∧
      (socPerfWrite p offset value).2.uncounted =
        (socPerfWrite p.uncounted offset value).2.uncounted := by
  unfold socPerfWrite
  split
  case h_6 =>
    dsimp only
    split_ifs
    · exact ⟨rfl, rfl⟩
    · exact ⟨rfl, rfl⟩
  all_goals exact ⟨rfl, rfl⟩

/-! ### The SoC without the two counts -/

def Soc.uncounted (s : Soc) : Soc := { s with perf := s.perf.uncounted }

/-- The registers of the two counters. -/
def countRegs : List Word := [vlabPerfMemAcc, vlabPerfStalls]

/-- Two SoCs that agree but for PERF, and there but for the two counts. -/
theorem uncounted_congr {s t : Soc} (h : { s with perf := t.perf } = t)
    (hperf : s.perf.uncounted = t.perf.uncounted) : s.uncounted = t.uncounted := by
  rw [← h]
  unfold Soc.uncounted
  rw [hperf]

theorem uncounted_countMem (s : Soc) :
    ({ s with perf := socPerfCountMem s.perf } : Soc).uncounted = s.uncounted :=
  uncounted_congr rfl (socPerfCountMem_uncounted s.perf)

theorem uncounted_countStall (s : Soc) (n : Word) :
    ({ s with perf := socPerfCountStall s.perf n } : Soc).uncounted = s.uncounted :=
  uncounted_congr rfl (socPerfCountStall_uncounted s.perf n)

/-! ### Reads -/

/-- The routed read of a register without a side effect. -/
theorem socReadSwitch_still {addr : Word} (hrx : addr ≠ vlabUartRxdata) (hack : addr ≠ vlabIntcAck)
    (s : Soc) (kind : Int) (out : Word) : (socReadSwitch s kind addr out).soc = s := by
  unfold socReadSwitch
  split
  case h_3 =>
    dsimp only
    unfold socUartRead
    split
    -- RXDATA takes the byte
    case h_1 hoff =>
      rw [BitVec.sub_eq_iff_eq_add] at hoff
      exact absurd (hoff.trans (by decide)) hrx
    all_goals rfl
  case h_6 =>
    dsimp only
    unfold socIntcRead
    split
    -- ACK takes the line
    case h_4 hoff =>
      rw [BitVec.sub_eq_iff_eq_add] at hoff
      exact absurd (hoff.trans (by decide)) hack
    all_goals rfl
  all_goals rfl

/-- Such a read counts a memory access or a stall, and that is all. -/
theorem socRead_uncounted {addr : Word} (hrx : addr ≠ vlabUartRxdata) (hack : addr ≠ vlabIntcAck)
    (s : Soc) (out : Word) : (socRead s addr out).soc.uncounted = s.uncounted := by
  unfold socRead
  split_ifs
  · exact uncounted_countStall s 1
  · dsimp only
    rw [socReadSwitch_still hrx hack]
    split_ifs
    · exact (uncounted_countStall _ 1).trans (uncounted_countMem s)
    · exact uncounted_countMem s

/-- The routed read does not depend on the two counts, unless it is of one of them. -/
theorem socReadSwitch_uncounted (s : Soc) (kind : Int) (addr out : Word) :
    (socReadSwitch s kind addr out).rc = (socReadSwitch s.uncounted kind addr out).rc ∧
      (addr ∉ countRegs →
        (socReadSwitch s kind addr out).out = (socReadSwitch s.uncounted kind addr out).out) ∧
      (socReadSwitch s kind addr out).soc.uncounted =
        (socReadSwitch s.uncounted kind addr out).soc.uncounted := by
  unfold socReadSwitch
  split
  case h_6 =>
    dsimp only [Soc.uncounted]
    unfold socIntcRead
    split
    -- an ACK counts an interrupt, which is not one of the two
    case h_4 =>
      cases socIntcHighest s.intc with
      | none => exact ⟨rfl, fun _ => rfl, rfl⟩
      | some line =>
        dsimp only
        rw [socPerfCountIrq_uncounted, socPerfCountIrq_uncounted, uncounted_uncounted]
        exact ⟨rfl, fun _ => rfl, rfl⟩
    all_goals exact ⟨rfl, fun _ => rfl, rfl⟩
  case h_7 =>
    dsimp only [Soc.uncounted]
    unfold socPerfRead
    split
    -- MEM_ACC and STALLS themselves
    case h_2 hoff =>
      rw [BitVec.sub_eq_iff_eq_add] at hoff
      exact ⟨rfl, fun h => absurd (by rw [hoff]; decide) h, rfl⟩
    case h_5 hoff =>
      rw [BitVec.sub_eq_iff_eq_add] at hoff
      exact ⟨rfl, fun h => absurd (by rw [hoff]; decide) h, rfl⟩
    all_goals exact ⟨rfl, fun _ => rfl, rfl⟩
  all_goals exact ⟨rfl, fun _ => rfl, rfl⟩

theorem socRead_congr (s : Soc) (addr out : Word) :
    (socRead s addr out).rc = (socRead s.uncounted addr out).rc ∧
      (addr ∉ countRegs → (socRead s addr out).out = (socRead s.uncounted addr out).out) ∧
      (socRead s addr out).soc.uncounted = (socRead s.uncounted addr out).soc.uncounted := by
  by_cases h4 : addr % 4 = 0
  swap
  · rw [socRead, if_pos h4, socRead, if_pos h4]
    exact ⟨rfl, fun _ => rfl,
      (uncounted_countStall s 1).trans (uncounted_countStall s.uncounted 1).symm⟩
  -- both switches are that of the SoC without the counts
  obtain ⟨hrc, hout, hsoc⟩ := socReadSwitch_uncounted { s with perf := socPerfCountMem s.perf }
    (socRoute s addr) addr out
  obtain ⟨hrc', hout', hsoc'⟩ := socReadSwitch_uncounted
    { s.uncounted with perf := socPerfCountMem s.uncounted.perf } (socRoute s addr) addr out
  rw [uncounted_countMem] at hrc hout hsoc hrc' hout' hsoc'
  have hsame : s.uncounted.uncounted = s.uncounted := rfl
  rw [hsame] at hrc' hout' hsoc'
  rw [socRead, if_neg (not_not.mpr h4), socRead, if_neg (not_not.mpr h4)]
  dsimp only
  rw [show socRoute { s with perf := socPerfCountMem s.perf } addr = socRoute s addr from rfl,
    show socRoute { s.uncounted with perf := socPerfCountMem s.uncounted.perf } addr =
      socRoute s addr from rfl, hrc, hrc']
  split_ifs
  · refine ⟨rfl, fun h => (hout h).trans (hout' h).symm, ?_⟩
    rw [uncounted_countStall, uncounted_countStall, hsoc, hsoc']
  · exact ⟨rfl, fun h => (hout h).trans (hout' h).symm, hsoc.trans hsoc'.symm⟩

/-! ### Writes -/

/-- The engine does not look at PERF; a START while BUSY counts a stall there. -/
theorem socDmaWrite_uncounted {M : Type} (d : SocDma M) (p : SocPerf) (offset value : Word) :
    (socDmaWrite d p offset value).1 = (socDmaWrite d p.uncounted offset value).1 ∧
      (socDmaWrite d p offset value).2.dma = (socDmaWrite d p.uncounted offset value).2.dma ∧
      (socDmaWrite d p offset value).2.raises =
        (socDmaWrite d p.uncounted offset value).2.raises ∧
      (socDmaWrite d p offset value).2.perf.uncounted =
        (socDmaWrite d p.uncounted offset value).2.perf.uncounted := by
  unfold socDmaWrite
  split
  -- CTRL: the three ways of `soc_dma_start`
  case h_4 =>
    dsimp only
    split_ifs
    · cases hb : d.busy with
      | true =>
        rw [socDmaStart_busy hb, socDmaStart_busy hb]
        exact ⟨rfl, rfl, rfl, by simp⟩
      | false =>
        cases hc : socDmaStartCheck d.cfg d.src d.dst d.length with
        | some code =>
          rw [socDmaStart_fail hb hc, socDmaStart_fail hb hc]
          exact ⟨rfl, rfl, rfl, rfl⟩
        | none =>
          rw [socDmaStart_ok hb hc, socDmaStart_ok hb hc]
          exact ⟨rfl, rfl, rfl, rfl⟩
    · exact ⟨rfl, rfl, rfl, rfl⟩
  all_goals exact ⟨rfl, rfl, rfl, rfl⟩

theorem socUartWrite_uncounted (u : SocUart) (p : SocPerf) (offset value : Word) :
    (socUartWrite u p offset value).rc = (socUartWrite u p.uncounted offset value).rc ∧
      (socUartWrite u p offset value).uart = (socUartWrite u p.uncounted offset value).uart ∧
      (socUartWrite u p offset value).perf.uncounted =
        (socUartWrite u p.uncounted offset value).perf.uncounted := by
  unfold socUartWrite
  split
  · by_cases h : u.ctrl &&& socUartCtrlEnable = 0
    · rw [if_pos h, if_pos h]
      exact ⟨rfl, rfl, by simp⟩
    · rw [if_neg h, if_neg h]
      exact ⟨rfl, rfl, rfl⟩
  all_goals exact ⟨rfl, rfl, rfl⟩

theorem socWriteSwitch_uncounted (s : Soc) (kind : Int) (addr value : Word) :
    (socWriteSwitch s kind addr value).rc = (socWriteSwitch s.uncounted kind addr value).rc ∧
      (socWriteSwitch s kind addr value).soc.uncounted =
        (socWriteSwitch s.uncounted kind addr value).soc.uncounted := by
  unfold socWriteSwitch
  split
  case h_3 =>
    obtain ⟨hrc, huart, hperf⟩ := socUartWrite_uncounted s.uart s.perf (addr - vlabUartBase) value
    refine ⟨hrc, uncounted_congr ?_ hperf⟩
    dsimp only [Soc.uncounted]
    rw [huart]
  case h_5 =>
    obtain ⟨hrc, hdma, hraises, hperf⟩ :=
      socDmaWrite_uncounted s.dma s.perf (addr - vlabDmaBase) value
    refine ⟨hrc, uncounted_congr ?_ hperf⟩
    dsimp only [Soc.uncounted]
    rw [hdma, hraises]
  case h_7 =>
    obtain ⟨hrc, hperf⟩ := socPerfWrite_uncounted s.perf (addr - vlabPerfBase) value
    exact ⟨hrc, uncounted_congr rfl hperf⟩
  all_goals exact ⟨rfl, rfl⟩

theorem socWrite_congr (s : Soc) (addr value : Word) :
    (socWrite s addr value).rc = (socWrite s.uncounted addr value).rc ∧
      (socWrite s addr value).soc.uncounted = (socWrite s.uncounted addr value).soc.uncounted := by
  by_cases h4 : addr % 4 = 0
  swap
  · rw [socWrite_misaligned s value h4, socWrite_misaligned s.uncounted value h4]
    exact ⟨rfl, (uncounted_countStall s 1).trans (uncounted_countStall s.uncounted 1).symm⟩
  -- as for the reads
  obtain ⟨hrc, hsoc⟩ := socWriteSwitch_uncounted { s with perf := socPerfCountMem s.perf }
    (socRoute s addr) addr value
  obtain ⟨hrc', hsoc'⟩ := socWriteSwitch_uncounted
    { s.uncounted with perf := socPerfCountMem s.uncounted.perf } (socRoute s addr) addr value
  rw [uncounted_countMem] at hrc hsoc hrc' hsoc'
  have hsame : s.uncounted.uncounted = s.uncounted := rfl
  rw [hsame] at hrc' hsoc'
  rw [socWrite, if_neg (not_not.mpr h4), socWrite, if_neg (not_not.mpr h4)]
  dsimp only
  rw [show socRoute { s with perf := socPerfCountMem s.perf } addr = socRoute s addr from rfl,
    show socRoute { s.uncounted with perf := socPerfCountMem s.uncounted.perf } addr =
      socRoute s addr from rfl, hrc, hrc']
  split_ifs
  · refine ⟨rfl, ?_⟩
    rw [uncounted_countStall, uncounted_countStall, hsoc, hsoc']
  · exact ⟨hrc.trans hrc'.symm, hsoc.trans hsoc'.symm⟩

/-! ### Ticks and boots -/

theorem socDmaStep_uncounted {M : Type} (d : SocDma M) (p : SocPerf) (mem : M) :
    socDmaStep d p.uncounted mem =
      { socDmaStep d p mem with perf := (socDmaStep d p mem).perf.uncounted } := by
  by_cases hidle : d.busy = false ∨ d.faultStuckBusy = true
  · rw [socDmaStep_idle hidle, socDmaStep_idle hidle]
  · rw [not_or, Bool.not_eq_false, Bool.not_eq_true] at hidle
    by_cases hrem : 1 < d.remaining
    · rw [socDmaStep_count hidle.1 hidle.2 hrem, socDmaStep_count hidle.1 hidle.2 hrem]
    · rw [socDmaStep_complete hidle.1 hidle.2 (by omega),
        socDmaStep_complete hidle.1 hidle.2 (by omega)]
      -- DMA_BYTES is counted only by a transfer that ends in DONE
      unfold socDmaComplete
      split
      · dsimp only
        split_ifs
        · rfl
        · rfl
        · rw [socPerfCountDma_uncounted]
      · rfl

theorem socTick_uncounted (s : Soc) : (socTick s).uncounted = socTick s.uncounted := by
  have hfront : socTickFront s.uncounted = (socTickFront s).uncounted := by
    rw [socTickFront_frame, socTickFront_frame]
    dsimp only [Soc.uncounted]
    rw [socPerfTick_uncounted]
  have hstep := socDmaStep_uncounted (socTickFront s).dma (socTickFront s).perf
    ⟨(socTickFront s).uart, (socTickFront s).sram⟩
  rw [socTick, socTick, hfront, socTickDma, socTickDma]
  dsimp only [Soc.uncounted]
  rw [hstep]

theorem socStep_uncounted (s : Soc) (n : Word) :
    (socStep s n).uncounted = socStep s.uncounted n := by
  have hcomm : Function.Semiconj Soc.uncounted socTick socTick := socTick_uncounted
  exact hcomm.iterate_right n.toNat s

theorem socBoot_uncounted (s : Soc) (romWords : Option (List Word)) (nwords : Word) :
    (socBoot s romWords nwords).uncounted = socBoot s.uncounted romWords nwords := by
  have hreset : socBootReset s.uncounted romWords nwords =
      (socBootReset s romWords nwords).uncounted := by
    unfold socBootReset
    split
    · dsimp only
      split_ifs
      · rfl
      · rfl
    · rfl
  rw [socBoot, socBoot, hreset, ← socStep_uncounted]
  rfl

/-- Every event does the same to the SoC without the two counts. -/
theorem socApply_uncounted (s : Soc) (e : SocEvent) :
    (socApply s e).uncounted = (socApply s.uncounted e).uncounted := by
  cases e with
  | read addr out => exact (socRead_congr s addr out).2.2
  | write addr value => exact (socWrite_congr s addr value).2
  | tick => exact (socTick_uncounted s).trans (socTick_uncounted s.uncounted).symm
  | resetPeripherals => rfl
  | boot romWords nwords =>
    exact (socBoot_uncounted s romWords nwords).trans
      (socBoot_uncounted s.uncounted romWords nwords).symm
  | raise line => rfl
  | uartStuck b => rfl
  | dmaStuck b => rfl

/-! ### Two runs -/

/-- What an event returns, with the value of the two counters left out. -/
def shownResult (s : Soc) (e : SocEvent) : SocResult :=
  match e, socResult s e with
  | .read addr _, .read rc out => .read rc (if addr ∈ countRegs then 0 else out)
  | _, r => r

theorem shownResult_uncounted (s : Soc) (e : SocEvent) :
    shownResult s e = shownResult s.uncounted e := by
  cases e with
  | read addr out =>
    obtain ⟨hrc, hout, -⟩ := socRead_congr s addr out
    simp only [shownResult, socResult, hrc]
    by_cases hcount : addr ∈ countRegs
    · rw [if_pos hcount, if_pos hcount]
    · rw [if_neg hcount, if_neg hcount, hout hcount]
  | write addr value => exact congrArg SocResult.write (socWrite_congr s addr value).1
  | _ => rfl

/-- An event of a run, or a read put in between. -/
inductive PolledEvent
  | poll (addr out : Word)
  | event (e : SocEvent)

def polledApply (s : Soc) : PolledEvent → Soc
  | .poll addr out => (socRead s addr out).soc
  | .event e => socApply s e

/-- The polls of the registers that a read does not change. -/
def PolledEvent.harmless : PolledEvent → Prop
  | .poll addr _ => addr ≠ vlabUartRxdata ∧ addr ≠ vlabIntcAck
  | .event _ => True

/-- The event the run has without the polls. -/
def PolledEvent.original : PolledEvent → Option SocEvent
  | .poll _ _ => none
  | .event e => some e

/-- What the original events of a run with polls return. -/
def polledResults : Soc → List PolledEvent → List SocResult
  | _, [] => []
  | s, .poll addr out :: es => polledResults (polledApply s (.poll addr out)) es
  | s, .event e :: es => shownResult s e :: polledResults (polledApply s (.event e)) es

/-- A run with polls beside the run without them, from two SoCs that agree but for
the two counts. -/
theorem polled_congr {es : List PolledEvent} (hes : ∀ e ∈ es, e.harmless) :
    ∀ {s t : Soc}, s.uncounted = t.uncounted →
      polledResults s es =
          (Runs.stages socApply t (es.filterMap PolledEvent.original)).map
            (fun x => shownResult x.1 x.2) ∧
        (Runs.run polledApply s es).uncounted =
          (Runs.run socApply t (es.filterMap PolledEvent.original)).uncounted := by
  induction es with
  | nil => exact fun h => ⟨rfl, h⟩
  | cons e es ih =>
    intro s t h
    have hrest : ∀ f ∈ es, f.harmless := fun f hf => hes f (List.mem_cons_of_mem e hf)
    cases e with
    | poll addr out =>
      -- the run on the right does not move
      obtain ⟨hrx, hack⟩ := hes _ List.mem_cons_self
      exact ih hrest ((socRead_uncounted hrx hack s out).trans h)
    | event e =>
      have hnext : (socApply s e).uncounted = (socApply t e).uncounted := by
        rw [socApply_uncounted s e, socApply_uncounted t e, h]
      have hshown : shownResult s e = shownResult t e := by
        rw [shownResult_uncounted s e, shownResult_uncounted t e, h]
      obtain ⟨hres, hend⟩ := ih hrest hnext
      refine ⟨?_, hend⟩
      show shownResult s e :: polledResults (socApply s e) es = _
      rw [hres, hshown]
      rfl

/-- Polling does not disturb the system: whatever reads are put into a run, other than of
UART RXDATA and INTC ACK, its own events return what they return without them, and the
final states agree, in both cases but for the MEM_ACC and STALLS counts. -/
theorem polling_undisturbed (s : Soc) {es : List PolledEvent} (hes : ∀ e ∈ es, e.harmless) :
    let originals := es.filterMap PolledEvent.original
    polledResults s es =
        (Runs.stages socApply s originals).map (fun x => shownResult x.1 x.2) ∧
      (Runs.run polledApply s es).uncounted = (Runs.run socApply s originals).uncounted :=
  polled_congr hes rfl

/-- STATUS polled between the two ticks of a run. -/
theorem polling_undisturbed_status :
    polledResults (socInit default none)
        [.event .tick, .poll vlabDmaStatus 0, .event (.read vlabPerfCycles 7)] =
      [.nothing, .read .ok 0] := by
  refine (polling_undisturbed (socInit default none) ?_).1.trans (by decide)
  intro e he
  simp only [List.mem_cons, List.not_mem_nil, or_false] at he
  rcases he with rfl | rfl | rfl
  · trivial
  · exact ⟨by decide, by decide⟩
  · trivial

end VlabSoc
