/-
What a descriptor rewritten while the engine is BUSY can do.

A transfer that ends in ERROR leaves the data of the SoC as it was
(`SameData`), with one exception, `DrainsThenFails`: the reader bridge has taken
bytes out of the RX stream and the writer bridge then refuses the destination.
`SocWired.error_keeps_iff` is one event, `error_keeps_run` a whole run.

A transfer that ends in DONE began with a descriptor the checks accepted, and
moves what the bridges serve (`done_descriptor`); a rewritten descriptor is not
checked again.
-/
import VlabSoc.DmaCompletion

namespace VlabSoc

/-! ### Transfers that end in ERROR -/

/-- Memories, streams and the DMA byte count are the same. -/
structure SameData (v w : Soc) : Prop where
  sram : w.sram = v.sram
  rom : w.rom = v.rom
  tx : w.uart.dmaTx.bytes = v.uart.dmaTx.bytes
  rx : w.uart.dmaRx.bytes = v.uart.dmaRx.bytes
  dmaBytes : w.perf.dmaBytes = v.perf.dmaBytes

theorem SameData.refl (v : Soc) : SameData v v := ⟨rfl, rfl, rfl, rfl, rfl⟩

/-- If the event takes a transfer to ERROR, at START or by completing it, the data
is what it was right before the START or the DMA step. -/
def ErrorKeeps (s : Soc) : SocEvent → Prop
  | .write addr value =>
    addr = vlabDmaCtrl → value &&& socDmaCtrlStart ≠ 0 → s.dma.busy = false →
      (socWrite s addr value).soc.dma.error = true → SameData s (socWrite s addr value).soc
  | .tick =>
    (socTickFront s).dma.busy = true → (socTick s).dma.error = true →
      SameData (socTickFront s) (socTick s)
  | _ => True

/-- A tick that completes a transfer from a non-empty RX stream to a destination
that is neither the TX FIFO nor a range of the SRAM. -/
def DrainsThenFails (s : Soc) : SocEvent → Prop
  | .tick =>
    s.dma.busy = true ∧ s.dma.faultStuckBusy = false ∧ s.dma.remaining ≤ 1 ∧
      s.dma.src = vlabUartRxdata ∧ s.dma.length ≠ 0 ∧ (socUartStep s.uart).1.dmaRx.bytes ≠ [] ∧
      ¬ DmaWrites s.dma.dst s.dma.length
  | _ => False

theorem socDmaWrite_dmaBytes {M : Type} (d : SocDma M) (perf : SocPerf) (offset value : Word) :
    (socDmaWrite d perf offset value).2.perf.dmaBytes = perf.dmaBytes := by
  unfold socDmaWrite
  split
  case h_4 =>
    dsimp only
    split_ifs
    · rw [socDmaStart_perf]
      split_ifs
      · exact socPerfCountStall_dmaBytes perf 1
      · rfl
    · rfl
  all_goals rfl

/-- No write to a DMA register touches the data. -/
theorem SocWired.write_dmaReg_same {s : Soc} (h : SocWired s) {addr : Word} (ha : addr ∈ dmaRegs)
    (value : Word) : SameData s (socWrite s addr value).soc := by
  rw [h.write_dmaReg ha]
  refine ⟨rfl, rfl, rfl, rfl, ?_⟩
  exact (socDmaWrite_dmaBytes s.dma _ _ value).trans (socPerfCountMem_dmaBytes s.perf)

/-- A drain shows exactly when it takes something. -/
theorem drained_same_iff (s : Soc) (src len : Word) :
    (dmaDrained s src len).dmaRx.bytes = s.uart.dmaRx.bytes ↔
      ¬ (src = vlabUartRxdata ∧ len ≠ 0 ∧ s.uart.dmaRx.bytes ≠ []) := by
  rw [dmaDrained_rx]
  by_cases hsrc : src = vlabUartRxdata
  · rw [if_pos hsrc]
    constructor
    · -- taking from a non-empty stream makes it shorter
      rintro heq ⟨-, hlen, hne⟩
      have hdrop := congrArg List.length heq
      have hpos := len_pos_iff.mpr hlen
      have hlong := List.length_pos_iff.mpr hne
      rw [List.length_drop] at hdrop
      omega
    · intro hno
      by_cases hlen : len = 0
      · rw [hlen]
        rfl
      · have hnil : s.uart.dmaRx.bytes = [] := by
          by_contra hne
          exact hno ⟨hsrc, hlen, hne⟩
        rw [hnil, List.drop_nil]
  · rw [if_neg hsrc]
    exact iff_of_true rfl fun h => hsrc h.1

/-- One DMA step. -/
theorem SocWired.tickDma_error_iff {v : Soc} (h : SocWired v) :
    (v.dma.busy = true → (socTickDma v).dma.error = true → SameData v (socTickDma v)) ↔
      ¬ (v.dma.busy = true ∧ v.dma.faultStuckBusy = false ∧ v.dma.remaining ≤ 1 ∧
        v.dma.src = vlabUartRxdata ∧ v.dma.length ≠ 0 ∧ v.uart.dmaRx.bytes ≠ [] ∧
        ¬ DmaWrites v.dma.dst v.dma.length) := by
  rcases h.tickDma_cases with ⟨hidle, heq⟩ | ⟨hbusy, hstuck, hrem, heq⟩ | ⟨hend, hr, heq⟩ |
    ⟨hend, hr, hw, heq⟩ | ⟨hend, hr, hw, heq⟩
  · rw [heq]
    refine iff_of_true (fun _ _ => SameData.refl _) ?_
    rintro ⟨hb, hs, -⟩
    rcases hidle with h0 | h0
    · exact absurd (h0.symm.trans hb) Bool.false_ne_true
    · exact absurd (hs.symm.trans h0) Bool.false_ne_true
  · rw [heq]
    refine iff_of_true (fun _ _ => ⟨rfl, rfl, rfl, rfl, rfl⟩) ?_
    rintro ⟨-, -, hle, -⟩
    omega
  · -- nothing was read
    rw [heq]
    refine iff_of_true (fun _ _ => ⟨rfl, rfl, rfl, rfl, rfl⟩) ?_
    rintro ⟨-, -, -, hsrc, -⟩
    exact hr (Or.inl hsrc)
  · -- read, then not written
    rw [heq]
    have hsame := drained_same_iff v v.dma.src v.dma.length
    constructor
    · rintro hk ⟨hbusy, -, -, hsrc, hlen, hne, -⟩
      exact hsame.mp (hk hbusy rfl).rx ⟨hsrc, hlen, hne⟩
    · intro hno _ _
      have hrx := hsame.mpr fun hd =>
        hno ⟨hend.1, hend.2.1, hend.2.2, hd.1, hd.2.1, hd.2.2, hw⟩
      have htx := congrArg SocUart.dmaTx (dmaDrained_uart v v.dma.src v.dma.length)
      exact ⟨rfl, rfl, congrArg DmaStream.bytes htx, hrx, rfl⟩
  · -- DONE
    rw [heq]
    refine iff_of_true (fun _ he => absurd he Bool.false_ne_true) ?_
    rintro ⟨-, -, -, -, -, -, hno⟩
    exact hno hw

/-- One event: a failing transfer keeps the data unless it drains and then fails. -/
theorem SocWired.error_keeps_iff {s : Soc} (h : SocWired s) (e : SocEvent) :
    ErrorKeeps s e ↔ ¬ DrainsThenFails s e := by
  cases e with
  | write addr value =>
    refine iff_of_true ?_ id
    rintro rfl - - -
    exact h.write_dmaReg_same (by decide) value
  | tick => exact h.tickFront.tickDma_error_iff
  | _ => exact iff_of_true trivial id

/-- A run from a reachable state: every failing transfer keeps the data exactly
when no tick of the run drains the RX stream and then fails. -/
theorem error_keeps_run {s : Soc} (h : SocReachable s) (es : List SocEvent) :
    (∀ p ∈ Runs.stages socApply s es, ErrorKeeps p.1 p.2) ↔
      ∀ p ∈ Runs.stages socApply s es, ¬ DrainsThenFails p.1 p.2 := by
  refine forall₂_congr fun p hp => SocWired.error_keeps_iff ?_ p.2
  obtain ⟨pre, post, -, ht⟩ := Runs.mem_stages.mp hp
  rw [ht]
  exact h.wired.run pre

/-- The looped-back byte is lost: RX to SRAM is accepted, DST is moved to the ROM,
and the completing tick drains before it fails. -/
theorem error_drains_rx :
    ¬ ∀ s, SocReachable s → ∀ es : List SocEvent, (∀ e ∈ es, e.isAccess) →
      ∀ p ∈ Runs.stages socApply s es, ErrorKeeps p.1 p.2 := by
  intro hall
  let s := Runs.run socApply (socInit default none)
    [.write vlabUartCtrl 0x1, .write vlabUartTxdata 0x41, .tick, .tick, .tick, .tick, .tick,
      .write vlabDmaSrc vlabUartRxdata, .write vlabDmaDst vlabSramBase, .write vlabDmaLen 4,
      .write vlabDmaCtrl 0x1, .write vlabDmaDst vlabRomBase]
  have hkeep := hall s ⟨default, none, _, rfl⟩ [.tick] (by simp [SocEvent.isAccess]) (s, .tick)
    (List.mem_singleton_self _)
  have hrx := (hkeep (by decide) (by decide)).rx
  exact absurd (congrArg List.length hrx) (by decide)

/-- A transfer from RAM that is pointed at the ROM fails and keeps everything. -/
theorem error_keeps_run_ram :
    let s := Runs.run socApply (socInit default none)
      [.write vlabDmaSrc vlabSramBase, .write vlabDmaDst vlabSramBase, .write vlabDmaLen 4,
        .write vlabDmaCtrl 0x1, .write vlabDmaDst vlabRomBase]
    (socApply s .tick).dma.error = true ∧ ErrorKeeps s .tick := by
  refine ⟨by decide, (error_keeps_run ⟨default, none, _, rfl⟩ [.tick]).mpr ?_ _
    (List.mem_singleton_self _)⟩
  intro p hp
  obtain rfl := List.mem_singleton.mp hp
  rintro ⟨-, -, -, hsrc, -⟩
  exact absurd hsrc (by decide)

/-! ### Transfers that end in DONE -/

/-- The tick completes a transfer with DONE. -/
def CompletesDone (s : Soc) (e : SocEvent) : Prop :=
  e = .tick ∧ s.dma.busy = true ∧ (socTick s).dma.done = true

/-- A run from boot may end a transfer with DONE that no START would accept:
RAM to RAM is started and turned into RX to TX. -/
theorem done_unpermitted :
    ¬ ∀ s, SocReachable s → ∀ (romWords : Option (List Word)) (nwords : Word)
      (es : List SocEvent), (∀ e ∈ es, e.isAccess) →
      ∀ p ∈ Runs.stages socApply (socBoot s romWords nwords) es, CompletesDone p.1 p.2 →
        socDmaStartCheck p.1.dma.cfg p.1.dma.src p.1.dma.dst p.1.dma.length = none := by
  intro hall
  let t := Runs.run socApply (socBoot (socInit default none) none 0)
    [.write vlabDmaSrc vlabSramBase, .write vlabDmaDst vlabSramBase, .write vlabDmaLen 4,
      .write vlabDmaCtrl 0x1, .write vlabDmaSrc vlabUartRxdata, .write vlabDmaDst vlabUartTxdata]
  have hmem : (t, SocEvent.tick) ∈ Runs.stages socApply (socBoot (socInit default none) none 0)
      [.write vlabDmaSrc vlabSramBase, .write vlabDmaDst vlabSramBase, .write vlabDmaLen 4,
        .write vlabDmaCtrl 0x1, .write vlabDmaSrc vlabUartRxdata,
        .write vlabDmaDst vlabUartTxdata, .tick] :=
    Runs.mem_stages.mpr ⟨[.write vlabDmaSrc vlabSramBase, .write vlabDmaDst vlabSramBase,
      .write vlabDmaLen 4, .write vlabDmaCtrl 0x1, .write vlabDmaSrc vlabUartRxdata,
      .write vlabDmaDst vlabUartTxdata], [], rfl, rfl⟩
  have hcheck := hall (socInit default none) ⟨default, none, [], rfl⟩ none 0 _
    (by simp [SocEvent.isAccess]) _ hmem ⟨rfl, by decide, by decide⟩
  exact absurd hcheck (by decide)

theorem socStep_idle {s : Soc} (h : s.dma.busy = false) (n : Word) :
    (socStep s n).dma = s.dma := by
  rw [socStep_eq_run]
  refine idle_awaits h fun e he => ?_
  rw [List.eq_of_mem_replicate he]
  exact trivial

/-- A boot leaves the engine as a reset does. -/
theorem socBoot_dma (s : Soc) (romWords : Option (List Word)) (nwords : Word) :
    (socBoot s romWords nwords).dma = socDmaReset s.dma := by
  have hreset : (socBootReset s romWords nwords).dma = socDmaReset s.dma := by
    rw [socBootReset_frame]
    rfl
  have hidle : (socBootReset s romWords nwords).dma.busy = false := by
    rw [hreset]
    rfl
  dsimp only [socBoot]
  rw [socStep_idle hidle, hreset]

/-- Only an accepted START makes the engine BUSY. -/
theorem SocWired.busy_rise {s : Soc} (h : SocWired s) {e : SocEvent} (hidle : s.dma.busy = false)
    (hbusy : (socApply s e).dma.busy = true) :
    ∃ value, e = .write vlabDmaCtrl value ∧ value &&& socDmaCtrlStart ≠ 0 := by
  cases e with
  | read addr out =>
    have hb : (socRead s addr out).soc.dma.busy = true := hbusy
    rw [socRead_dma, hidle] at hb
    exact absurd hb Bool.false_ne_true
  | write addr value =>
    have hb : (socWrite s addr value).soc.dma.busy = true := hbusy
    by_cases ha : addr ∈ dmaRegs
    · -- of the registers only CTRL with START sets BUSY
      rw [h.write_dmaReg ha] at hb
      by_contra hno
      rw [socDmaWrite_busy ?_, hidle] at hb
      · exact absurd hb Bool.false_ne_true
      · rintro ⟨hoff, hbit⟩
        rw [BitVec.sub_eq_iff_eq_add] at hoff
        exact hno ⟨value, by rw [hoff]; rfl, hbit⟩
    · rw [socWrite_dma ha, hidle] at hb
      exact absurd hb Bool.false_ne_true
  | tick =>
    have hb : (socTickDma (socTickFront s)).dma.busy = true := hbusy
    rw [socTickDma_idle (s := socTickFront s) (Or.inl hidle), socTickFront_dma, hidle] at hb
    exact absurd hb Bool.false_ne_true
  | resetPeripherals => exact absurd hbusy Bool.false_ne_true
  | boot romWords nwords =>
    have hb : (socBoot s romWords nwords).dma.busy = true := hbusy
    rw [socBoot_dma] at hb
    exact absurd hb Bool.false_ne_true
  | raise line => exact absurd (hidle.symm.trans hbusy) Bool.false_ne_true
  | uartStuck b => exact absurd (hidle.symm.trans hbusy) Bool.false_ne_true
  | dmaStuck b => exact absurd (hidle.symm.trans hbusy) Bool.false_ne_true

/-- In a run from boot every transfer that reports DONE goes back to a START whose
descriptor the checks accepted, with the engine BUSY ever since.  If SRC, DST and
LEN are still those of the START, the checks accept what was moved; in any case
it was a source and a destination that the bridges serve. -/
theorem done_descriptor {s : Soc} (h : SocReachable s) (romWords : Option (List Word))
    (nwords : Word) {es : List SocEvent} {t : Soc} {e : SocEvent}
    (hstage : (t, e) ∈ Runs.stages socApply (socBoot s romWords nwords) es)
    (hdone : CompletesDone t e) :
    (∃ pre value mid post, es = pre ++ .write vlabDmaCtrl value :: (mid ++ e :: post) ∧
      value &&& socDmaCtrlStart ≠ 0 ∧
      t = Runs.run socApply (socBoot s romWords nwords) (pre ++ .write vlabDmaCtrl value :: mid) ∧
      (∀ m, m <+: mid → (Runs.run socApply (socBoot s romWords nwords)
        (pre ++ .write vlabDmaCtrl value :: m)).dma.busy = true) ∧
      let u := Runs.run socApply (socBoot s romWords nwords) pre
      u.dma.busy = false ∧
      socDmaStartCheck u.dma.cfg u.dma.src u.dma.dst u.dma.length = none ∧
      (t.dma.src = u.dma.src ∧ t.dma.dst = u.dma.dst ∧ t.dma.length = u.dma.length →
        socDmaStartCheck t.dma.cfg t.dma.src t.dma.dst t.dma.length = none ∧
        VlabValid t.dma.src t.dma.dst t.dma.length)) ∧
    DmaReads t.dma.src t.dma.length ∧ DmaWrites t.dma.dst t.dma.length := by
  obtain ⟨rfl, hbusy, htick⟩ := hdone
  obtain ⟨front, post, rfl, rfl⟩ := Runs.mem_stages.mp hstage
  have hboot : SocReachable (socBoot s romWords nwords) := h.run [.boot romWords nwords]
  have hstart : ¬ (socBoot s romWords nwords).dma.busy = true := by
    rw [socBoot_dma]
    exact Bool.false_ne_true
  have hserved := (hboot.run front).wired.tickFront.tickDma_done (hboot.run front).dmaInv hbusy htick
  refine ⟨?_, hserved.1, hserved.2.1⟩
  -- go back to where BUSY last rose: there START was accepted
  obtain ⟨pre, e, mid, rfl, hidle, hmid⟩ :=
    Runs.run_rise (B := fun u : Soc => u.dma.busy = true) hstart hbusy
  have hu := (hboot.run pre).wired
  rw [Bool.not_eq_true] at hidle
  have hrise := hmid [] (List.nil_prefix)
  rw [Runs.run_append_cons, Runs.run_nil] at hrise
  obtain ⟨value, rfl, hbit⟩ := hu.busy_rise hidle hrise
  have hvalid := (hu.start_accepted hidle hbit hrise).1
  refine ⟨pre, value, mid, post, by simp, hbit, rfl, hmid, hidle, ?_, ?_⟩
  · rw [hu.dma]
    exact (vlabStartCheck_none _ _ _ _).mpr hvalid
  · rintro ⟨hsrc, hdst, hlen⟩
    rw [hsrc, hdst, hlen, (hboot.run _).wired.dma]
    exact ⟨(vlabStartCheck_none _ _ _ _).mpr hvalid, hvalid⟩

/-- A transfer of one word from boot, seen at its only tick. -/
theorem done_descriptor_word :
    let t := Runs.run socApply (socBoot (socInit default none) none 0)
      [.write vlabDmaSrc vlabSramBase, .write vlabDmaDst vlabSramBase, .write vlabDmaLen 4,
        .write vlabDmaCtrl 0x1]
    DmaReads t.dma.src t.dma.length ∧ DmaWrites t.dma.dst t.dma.length := by
  intro t
  exact (done_descriptor (s := socInit default none) ⟨default, none, [], rfl⟩ none 0
    (Runs.mem_stages.mpr ⟨[.write vlabDmaSrc vlabSramBase, .write vlabDmaDst vlabSramBase,
      .write vlabDmaLen 4, .write vlabDmaCtrl 0x1], [], rfl, rfl⟩)
    ⟨rfl, by decide, by decide⟩).2

end VlabSoc
