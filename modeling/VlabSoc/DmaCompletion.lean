/-
Every accepted transfer completes.

`Transferred` is the effect of the DMA step that ends a transfer, stated from
what the SoC held right before it; `SocWired.tickDma_valid` is that step.  The
countdown up to it runs over any `awaits` events (`started_keeps`,
`started_ticks`), and `accepted_transfer_completes` is the whole transfer.
-/
import VlabSoc.SocRegs
import VlabSoc.DmaTransfer

namespace VlabSoc

/-- What software may do while it waits: tick, read, and write anything but the
DMA registers. -/
def SocEvent.awaits : SocEvent → Prop
  | .read _ _ => True
  | .write addr _ => addr ∉ dmaRegs
  | .tick => True
  | _ => False

/-! ### The completing step -/

/-- The SRAM of `w` is that of `v` with `f 0 .. f (len - 1)` at `dst`. -/
def SramPatched (v w : Soc) (dst len : Word) (f : ℕ → Byte) : Prop :=
  w.sram = { v.sram with data := w.sram.data } ∧
    ∀ a, vlabSramBase.toNat ≤ a → w.sram.byteAt a =
      if dst.toNat ≤ a ∧ a < dst.toNat + len.toNat then f (a - dst.toNat) else v.sram.byteAt a

/-- The DMA step from `v` to `w` ends the transfer `src`, `dst`, `len` with DONE. -/
structure Transferred (src dst len : Word) (irq : Bool) (v w : Soc) : Prop where
  status : w.dma =
    { v.dma with remaining := v.dma.remaining - 1, busy := false, done := true, error := false }
  data :
    -- RAM to RAM
    (SramRange src len ∧ SramRange dst len ∧ w.uart = v.uart ∧
      SramPatched v w dst len fun i => v.sram.byteAt (src.toNat + i)) ∨
    -- RAM to uart-tx
    (SramRange src len ∧ dst = vlabUartTxdata ∧ w.sram = v.sram ∧
      w.uart = { v.uart with dmaTx := w.uart.dmaTx, dmaRx := w.uart.dmaRx } ∧
      w.uart.dmaTx.bytes = (v.uart.dmaTx.bytes ++
        (List.range len.toNat).map fun i => v.sram.byteAt (src.toNat + i)).take 16384 ∧
      w.uart.dmaRx.bytes = (v.uart.dmaRx.bytes ++
        (List.range len.toNat).map fun i => v.sram.byteAt (src.toNat + i)).take 16384) ∨
    -- uart-rx to RAM
    (src = vlabUartRxdata ∧ SramRange dst len ∧
      w.uart = { v.uart with dmaRx := w.uart.dmaRx } ∧
      w.uart.dmaRx.bytes = v.uart.dmaRx.bytes.drop len.toNat ∧
      SramPatched v w dst len fun i => v.uart.dmaRx.bytes.getD i 0)
  intc : w.intc =
    { v.intc with
      pending := if irq then v.intc.pending ||| ((1 : Word) <<< socIrqDma) else v.intc.pending }
  perf : w.perf =
    { v.perf with
      dmaBytes := if v.perf.enabled then v.perf.dmaBytes + len else v.perf.dmaBytes }
  rest : w =
    { v with dma := w.dma, uart := w.uart, sram := w.sram, intc := w.intc, perf := w.perf }

theorem moved_sram_tx {s : Soc} {src dst len : Word} (h : dst = vlabUartTxdata) :
    (dmaMoved s src dst len).sram = s.sram := by
  unfold dmaMoved
  dsimp only
  rw [reader_ctx, h]
  rfl

/-- A memory destination is patched with the payload. -/
theorem SocWired.finished_patched {v : Soc} (h : SocWired v)
    (hr : DmaReads v.dma.src v.dma.length) (hw : DmaWrites v.dma.dst v.dma.length)
    (htx : v.dma.dst ≠ vlabUartTxdata) :
    SramPatched v (dmaFinished v) v.dma.dst v.dma.length (dmaPayload v v.dma.src) := by
  refine ⟨moved_sram v _ _ _, fun a ha => ?_⟩
  have hbyte := h.moved_byteAt hr hw ha
  simp only [ne_eq, htx, not_false_eq_true, true_and] at hbyte
  exact hbyte

theorem SocWired.dma_irq {s : Soc} (h : SocWired s) :
    s.dma.irq = if s.dma.irqEnableLatched then [(socIrqDma : Int)] else [] := by
  rw [SocDma.irq, show s.dma.cfg.irqLine = (socIrqDma : Int) by rw [h.dma]; rfl]

/-- The step that ends a valid descriptor. -/
theorem SocWired.tickDma_valid {v : Soc} (h : SocWired v) (hbusy : v.dma.busy = true)
    (hstuck : v.dma.faultStuckBusy = false) (hrem : v.dma.remaining ≤ 1)
    (hv : VlabValid v.dma.src v.dma.dst v.dma.length) :
    Transferred v.dma.src v.dma.dst v.dma.length v.dma.irqEnableLatched v (socTickDma v) := by
  rw [h.tickDma_complete hbusy hstuck hrem, if_neg (not_not.mpr hv.reads),
    if_neg (not_not.mpr hv.writes)]
  refine ⟨rfl, ?_, ?_, ?_, rfl⟩
  · rcases hv.reads with hs | hs
    · -- from the RX stream, hence to memory
      have htx : v.dma.dst ≠ vlabUartTxdata := fun hd => hv.not_periph ⟨hs, hd⟩
      have hd := hv.writes.resolve_left htx
      have huart : (dmaFinished v).uart = dmaDrained v v.dma.src v.dma.length :=
        (moved_uart v _ _ _).trans (if_neg htx)
      have hpatch := h.finished_patched hv.reads hv.writes htx
      have hpay : dmaPayload v v.dma.src = fun i => v.uart.dmaRx.bytes.getD i 0 := by
        funext i
        exact if_pos hs
      rw [hpay] at hpatch
      refine Or.inr (Or.inr ⟨hs, hd.2, ?_, ?_, hpatch⟩)
      · rw [huart]
        exact dmaDrained_uart v _ _
      · rw [huart, dmaDrained_rx, if_pos hs]
    · have hne : v.dma.src ≠ vlabUartRxdata := (hs.2.not_fifo hs.1).2
      have hpay : dmaPayload v v.dma.src = fun i => v.sram.byteAt (v.dma.src.toNat + i) := by
        funext i
        exact if_neg hne
      by_cases htx : v.dma.dst = vlabUartTxdata
      · -- from memory to the TX record
        have huart : (dmaFinished v).uart = socUartDmaTxAppend v.uart
            (socDmaReaderBridge ⟨v.uart, v.sram⟩ v.dma.src v.dma.length fun _ => 0).out
            v.dma.length := by
          refine (moved_uart v _ _ _).trans ?_
          rw [if_pos htx, dmaDrained_eq_self hne]
        have hlist := h.reader_toList hv.reads
        rw [dmaPayloadList, hpay] at hlist
        obtain ⟨htxb, hrxb, hrest⟩ := txAppend_bytes v.uart
          (socDmaReaderBridge ⟨v.uart, v.sram⟩ v.dma.src v.dma.length fun _ => 0).out hv.len_ne
        rw [hlist] at htxb hrxb
        refine Or.inr (Or.inl ⟨hs.2, htx, moved_sram_tx htx, ?_, ?_, ?_⟩)
        · rw [huart]
          exact hrest
        · rw [huart]
          exact htxb
        · rw [huart]
          exact hrxb
      · -- from memory to memory
        have hd := hv.writes.resolve_left htx
        have huart : (dmaFinished v).uart = v.uart :=
          (moved_uart v _ _ _).trans ((if_neg htx).trans (dmaDrained_eq_self hne))
        have hpatch := h.finished_patched hv.reads hv.writes htx
        rw [hpay] at hpatch
        exact Or.inl ⟨hs.2, hd.2, huart, hpatch⟩
  · show socIntcRaiseAll v.intc v.dma.irq = _
    rw [h.dma_irq]
    cases v.dma.irqEnableLatched <;> rfl
  · show socPerfCountDma v.perf v.dma.length = _
    unfold socPerfCountDma
    split_ifs <;> rfl

/-! ### START -/

/-- The engine once START has accepted its descriptor. -/
def SocDma.started {M : Type} (d : SocDma M) (value : Word) : SocDma M :=
  { d with
    irqEnableLatched := decide (value &&& socDmaCtrlIrqEnable ≠ 0)
    busy := true, done := false, error := false, errCode := socDmaErrNone
    remaining := socDmaCountdown d.cfg d.length
    ctrl := socDmaCtrlStored value }

/-- A START written to the idle engine that leaves it BUSY was accepted. -/
theorem SocWired.start_accepted {s : Soc} (h : SocWired s) {value : Word}
    (hidle : s.dma.busy = false) (hstart : value &&& socDmaCtrlStart ≠ 0)
    (hbusy : (socWrite s vlabDmaCtrl value).soc.dma.busy = true) :
    VlabValid s.dma.src s.dma.dst s.dma.length ∧
      (socWrite s vlabDmaCtrl value).soc.dma = s.dma.started value := by
  have hctrl : vlabDmaCtrl ∈ dmaRegs := by decide
  rw [h.write_dmaReg hctrl value] at hbusy ⊢
  rw [show vlabDmaCtrl - vlabDmaBase = 0x0C from by decide, socDmaWrite_start hstart] at hbusy ⊢
  dsimp only at hbusy ⊢
  cases hcheck : socDmaStartCheck s.dma.cfg s.dma.src s.dma.dst s.dma.length with
  | some code =>
    rw [socDmaStart_fail hidle hcheck] at hbusy
    exact absurd hbusy (by simp)
  | none =>
    rw [socDmaStart_ok hidle hcheck]
    rw [h.dma] at hcheck
    exact ⟨(vlabStartCheck_none _ _ _ _).mp hcheck, rfl⟩

/-! ### The countdown -/

/-- The engine is as START left it, apart from the countdown. -/
def Started (d : SocDma DmaCtx) (t : Soc) : Prop :=
  SocWired t ∧ t.dma = { d with remaining := t.dma.remaining }

theorem started_keeps {d : SocDma DmaCtx} {t : Soc} {e : SocEvent} (he : e.awaits)
    (h : Started d t) (ht : e.isTick = false) :
    Started d (socApply t e) ∧ (socApply t e).dma.remaining = t.dma.remaining := by
  have hdma : (socApply t e).dma = t.dma := by
    cases e with
    | read addr out => exact socRead_dma t addr out
    | write addr value => exact socWrite_dma he t value
    | tick => exact absurd ht (by decide)
    | resetPeripherals => exact absurd he id
    | boot romWords nwords => exact absurd he id
    | raise line => exact absurd he id
    | uartStuck b => exact absurd he id
    | dmaStuck b => exact absurd he id
  rw [Started, hdma]
  exact ⟨⟨h.1.apply e, h.2⟩, rfl⟩

theorem started_ticks {d : SocDma DmaCtx} (hbusy : d.busy = true)
    (hstuck : d.faultStuckBusy = false) {t : Soc} (h : Started d t) (hrem : 1 < t.dma.remaining) :
    Started d (socTick t) ∧ (socTick t).dma.remaining + 1 = t.dma.remaining := by
  have hb : t.dma.busy = true := by rw [h.2]; exact hbusy
  have hs : t.dma.faultStuckBusy = false := by rw [h.2]; exact hstuck
  have htick : (socTick t).dma = { t.dma with remaining := t.dma.remaining - 1 } :=
    congrArg Soc.dma (socTickDma_count (s := socTickFront t) hb hs hrem)
  rw [Started, htick]
  refine ⟨⟨h.1.tick, ?_⟩, by dsimp only; omega⟩
  dsimp only
  rw [h.2]

/-- Either fewer ticks than the countdown have passed, or the run goes through the tick
that ends it. -/
theorem started_countdown {d : SocDma DmaCtx} (hbusy : d.busy = true)
    (hstuck : d.faultStuckBusy = false) {s : Soc} (h : Started d s) (hpos : 0 < s.dma.remaining)
    {es : List SocEvent} (hes : ∀ e ∈ es, e.awaits) :
    (es.countP SocEvent.isTick < s.dma.remaining.toNat ∧ Started d (Runs.run socApply s es) ∧
      (Runs.run socApply s es).dma.remaining.toNat + es.countP SocEvent.isTick =
        s.dma.remaining.toNat) ∨
    ∃ pre e post, es = pre ++ e :: post ∧ e.isTick = true ∧
      pre.countP SocEvent.isTick + 1 = s.dma.remaining.toNat ∧
      Started d (Runs.run socApply s pre) ∧ (Runs.run socApply s pre).dma.remaining.toNat = 1 := by
  have hcount : ∀ fs, (Runs.stages socApply s fs).countP (fun x => x.2.isTick) =
      fs.countP SocEvent.isTick := fun _ => Runs.countP_stages
  simp only [← hcount]
  refine Runs.run_countdown socApply (Started d) (fun u => u.dma.remaining.toNat)
    (fun x => x.2.isTick) (fun u e he hu ht => ?_) (fun u e _ hu ht hgt => ?_) hes h (by omega)
  · obtain ⟨h1, h2⟩ := started_keeps he hu ht
    exact ⟨h1, by rw [h2]⟩
  · cases e with
    | tick =>
      obtain ⟨h1, h2⟩ := started_ticks hbusy hstuck hu (by omega)
      refine ⟨h1, ?_⟩
      show (socTick u).dma.remaining.toNat + 1 = _
      omega
    | _ => exact absurd ht (by simp [SocEvent.isTick])

/-- A run that only waits keeps an idle engine as it is. -/
theorem idle_awaits {s : Soc} (h : s.dma.busy = false) {es : List SocEvent}
    (hes : ∀ e ∈ es, e.awaits) : (Runs.run socApply s es).dma = s.dma := by
  refine Runs.run_invariant socApply (P := fun t => t.dma = s.dma)
    (A := fun e => e.awaits) (fun t e he ht => ?_) hes rfl
  cases e with
  | read addr out => exact (socRead_dma t addr out).trans ht
  | write addr value => exact (socWrite_dma he t value).trans ht
  | tick =>
    have hidle : (socTickFront t).dma.busy = false := (congrArg SocDma.busy ht).trans h
    exact (congrArg Soc.dma (socTickDma_idle (Or.inl hidle))).trans ht
  | resetPeripherals => exact absurd he id
  | boot romWords nwords => exact absurd he id
  | raise line => exact absurd he id
  | uartStuck b => exact absurd he id
  | dmaStuck b => exact absurd he id

/-- A transfer that START accepted stays BUSY for as many ticks as its countdown
says; the last of them has the effect `Transferred`, and the engine then stays
DONE without ERROR.  In between, and after, anything may happen that does not
write DMA registers and does not reset. -/
theorem accepted_transfer_completes {s : Soc} (h : SocReachable s) (hidle : s.dma.busy = false)
    (hstuck : s.dma.faultStuckBusy = false) {value : Word}
    (hstart : value &&& socDmaCtrlStart ≠ 0)
    (hbusy : (socWrite s vlabDmaCtrl value).soc.dma.busy = true) {es : List SocEvent}
    (hes : ∀ e ∈ es, e.awaits) :
    let R := (socDmaCountdown s.dma.cfg s.dma.length).toNat
    let s1 := (socWrite s vlabDmaCtrl value).soc
    let t := Runs.run socApply s1 es
    (es.countP SocEvent.isTick < R →
      t.dma.busy = true ∧ t.dma.done = false ∧ t.dma.error = false) ∧
    (R ≤ es.countP SocEvent.isTick →
      t.dma.busy = false ∧ t.dma.done = true ∧ t.dma.error = false ∧
      ∃ pre post, es = pre ++ .tick :: post ∧ pre.countP SocEvent.isTick + 1 = R ∧
        let v := socTickFront (Runs.run socApply s1 pre)
        Transferred s.dma.src s.dma.dst s.dma.length (decide (value &&& socDmaCtrlIrqEnable ≠ 0))
          v (socTickDma v)) := by
  intro R s1 t
  obtain ⟨hvalid, hdma⟩ := h.wired.start_accepted hidle hstart hbusy
  have hpos := socDmaCountdown_pos s.dma.cfg s.dma.length
  have hrem1 : s1.dma.remaining = socDmaCountdown s.dma.cfg s.dma.length := by
    rw [show s1.dma = _ from hdma]
    rfl
  have hstarted : Started (s.dma.started value) s1 :=
    ⟨h.wired.write vlabDmaCtrl value, hdma.trans (by rw [show s1.dma = _ from hdma])⟩
  have hcount := started_countdown (d := s.dma.started value) rfl hstuck hstarted
    (by rw [hrem1]; omega) hes
  rw [hrem1] at hcount
  rcases hcount with ⟨hlt, ht, -⟩ | ⟨pre, e, post, rfl, he, hpre, hbefore, hone⟩
  · refine ⟨fun _ => ?_, fun hge => absurd hlt (not_lt.mpr hge)⟩
    rw [show t.dma = _ from ht.2]
    exact ⟨rfl, rfl, rfl⟩
  · obtain rfl : e = .tick := by
      cases e with
      | tick => rfl
      | _ => exact absurd he (by simp [SocEvent.isTick])
    -- `v` is the state in front of the completing DMA step
    have hlast : R ≤ (pre ++ SocEvent.tick :: post).countP SocEvent.isTick := by
      rw [List.countP_append, List.countP_cons_of_pos rfl]
      omega
    refine ⟨fun hlt => absurd hlt (not_lt.mpr hlast), fun _ => ?_⟩
    set u := Runs.run socApply s1 pre with hu
    have hv : (socTickFront u).dma = { s.dma.started value with remaining := u.dma.remaining } :=
      hbefore.2
    have hdone := hbefore.1.tickFront.tickDma_valid (by rw [hv]; rfl) (by rw [hv]; exact hstuck)
      (by rw [hv]; dsimp only; omega) (by rw [hv]; exact hvalid)
    rw [hv] at hdone
    have hstatus := hdone.status
    rw [hv] at hstatus
    have hpost : ∀ e ∈ post, e.awaits := fun e he =>
      hes e (List.mem_append_right _ (List.mem_cons_of_mem _ he))
    have htail := idle_awaits (s := socTick u)
      (by rw [show (socTick u).dma = _ from hstatus]) hpost
    have hend : t.dma = (socTick u).dma := by
      show (Runs.run socApply s1 (pre ++ SocEvent.tick :: post)).dma = _
      rw [Runs.run_append_cons]
      exact htail
    rw [hend, show (socTick u).dma = _ from hstatus]
    exact ⟨rfl, rfl, rfl, pre, post, rfl, hpre, hdone⟩

/-- One word from the bottom of the SRAM to its fifth word: DONE after one tick. -/
theorem accepted_transfer_completes_word :
    let s := Runs.run socApply (socInit default none)
      [.write vlabDmaSrc 0x10000000, .write vlabDmaDst 0x10000010, .write vlabDmaLen 4]
    (Runs.run socApply (socWrite s vlabDmaCtrl 0x3).soc [.read vlabDmaStatus 0, .tick]).dma.done =
      true :=
  ((accepted_transfer_completes ⟨default, none, _, rfl⟩ (by decide) (by decide) (by decide)
    (by decide) (by simp [SocEvent.awaits])).2 (by decide)).2.1

end VlabSoc
