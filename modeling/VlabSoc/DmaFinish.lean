/-
Waiting for a submitted transfer, dispatching it and recovering from it.

* `InFlight.run` — while software only ticks and polls, the transfer is on its way, or
  over with DONE and the raise its submission asked for;
* `started_terminates` — and it does get over;
* `dispatch_dma` — a dispatch runs `dma_isr` once if the DMA line is pending and enabled,
  and not at all otherwise;
* `submit_finishes_iff` — the whole sequence.
-/
import VlabSoc.DmaRecovery

namespace VlabSoc

variable {A : Type} {p : Platform}

/-! ### Waiting -/

/-- Calls of software that waits: ticks and STATUS polls. -/
def AppCall.waits : AppCall → Prop
  | .hostStep _ => True
  | .mmioRead addr => addr = vlabDmaStatus
  | _ => False

/-- STATUS shows DONE or ERROR. -/
def Terminal (p : Platform) : Prop :=
  (halReadReg p vlabDmaStatus).1 &&& (vlabDmaStatusDone ||| vlabDmaStatusError) ≠ 0

instance (p : Platform) : Decidable (Terminal p) := inferInstanceAs (Decidable (_ ≠ _))

theorem Live.terminal_iff (h : Live p) :
    Terminal p ↔ p.gSoc.dma.done = true ∨ p.gSoc.dma.error = true := by
  rw [Terminal, h.read_status]
  dsimp only
  unfold socDmaStatus
  cases p.gSoc.dma.busy <;> cases p.gSoc.dma.done <;> cases p.gSoc.dma.error <;> decide

/-- A submitted transfer while software waits: `irq` is what START latched, `pend` and
`enable` what the interrupt controller held then. -/
structure InFlight (irq pend : Bool) (enable : Word) (s : Soc) : Prop where
  wired : SocWired s
  enable_eq : s.intc.enable = enable
  phase : (Moving irq s.dma ∧ s.intc.dmaPending = pend) ∨
    (Ended s.dma ∧ s.intc.dmaPending = (pend || irq))

theorem InFlight.tick {irq pend : Bool} {enable : Word} {s : Soc} (h : InFlight irq pend enable s) :
    InFlight irq pend enable (socTick s) := by
  rcases h.phase with ⟨hm, hpend⟩ | ⟨hend, hpend⟩
  · obtain ⟨hen, hnext⟩ := h.wired.tick_moving hm
    rw [hpend] at hnext
    exact ⟨h.wired.tick, hen.trans h.enable_eq, hnext⟩
  · obtain ⟨hdma, hp, hen⟩ := socTick_still hend.busy
    refine ⟨h.wired.tick, hen.trans h.enable_eq, Or.inr ?_⟩
    rw [hdma]
    exact ⟨hend, hp.trans hpend⟩

theorem InFlight.read {irq pend : Bool} {enable : Word} {s : Soc} (h : InFlight irq pend enable s)
    {addr : Word} (ha : addr ≠ vlabIntcAck) (out : Word) :
    InFlight irq pend enable (socRead s addr out).soc := by
  have hdma := socRead_dma s addr out
  have hintc := socRead_intc ha s out
  refine ⟨h.wired.read addr out, by rw [hintc]; exact h.enable_eq, ?_⟩
  rw [hdma, hintc]
  exact h.phase

/-- Nothing else happens to the transfer while software waits. -/
theorem InFlight.run {irq pend : Bool} {enable : Word} (hp : Live p)
    (h : InFlight irq pend enable p.gSoc) {wait : List AppCall} (hwait : ∀ c ∈ wait, c.waits) :
    let t := Runs.run appCall p wait
    Live t ∧ t.dma = p.dma ∧ InFlight irq pend enable t.gSoc := by
  intro t
  -- waiting is ticks and reads of STATUS
  have hevents : ∀ e ∈ wait.flatMap AppCall.events,
      e = .tick ∨ ∃ out, e = .read vlabDmaStatus out := by
    intro e he
    obtain ⟨c, hc, hec⟩ := List.mem_flatMap.mp he
    have hcw := hwait c hc
    cases c with
    | hostStep n => exact Or.inl (List.eq_of_mem_replicate hec)
    | mmioRead addr =>
      obtain rfl : addr = vlabDmaStatus := hcw
      exact Or.inr ⟨0, List.mem_singleton.mp hec⟩
    | _ => exact absurd hcw id
  have hrun := Runs.run_invariant socApply (P := InFlight irq pend enable)
    (A := fun e => e = .tick ∨ ∃ out, e = .read vlabDmaStatus out)
    (fun s e he hs => by
      rcases he with rfl | ⟨out, rfl⟩
      · exact hs.tick
      · exact hs.read (by decide) out)
    hevents h
  rw [show t = _ from appRun_eq hp wait]
  exact ⟨hp.run _, rfl, hrun⟩

/-! ### Termination -/

/-- An engine that has just been started shows a terminal flag after some ticks. -/
theorem started_terminates {irq : Bool} (h : Live p) (hm : Moving irq p.gSoc.dma)
    (hstuck : p.gSoc.dma.faultStuckBusy = false)
    (hrem : p.gSoc.dma.remaining = socDmaCountdown p.gSoc.dma.cfg p.gSoc.dma.length) :
    ∃ n, Terminal (socHostStep p n) := by
  have hpos := socDmaCountdown_pos p.gSoc.dma.cfg p.gSoc.dma.length
  have hlt := socDmaCountdown_lt p.gSoc.dma.cfg p.gSoc.dma.length
  rw [← hrem] at hpos hlt
  set R := p.gSoc.dma.remaining.toNat with hR
  have hn : (BitVec.ofNat 32 R).toNat = R := by
    rw [BitVec.toNat_ofNat]
    omega
  have hticks : ∀ e ∈ List.replicate R SocEvent.tick, e.awaits := fun e he => by
    rw [List.eq_of_mem_replicate he]
    exact trivial
  have hcount : (List.replicate R SocEvent.tick).countP SocEvent.isTick = R := by
    rw [List.countP_replicate]
    rfl
  have hend : (Runs.run socApply p.gSoc (List.replicate R .tick)).dma.done = true := by
    rcases started_countdown hm.busy hstuck (s := p.gSoc) ⟨h.wired, rfl⟩ (by omega) hticks with
      ⟨hshort, -⟩ | ⟨pre, e, post, heq, htick, -, hbefore, hone⟩
    · rw [hcount] at hshort
      exact absurd hshort (lt_irrefl R)
    · -- `pre` leads up to the completing tick, after which the engine is not BUSY
      obtain rfl : e = .tick := by
        cases e with
        | tick => rfl
        | _ => exact absurd htick (by simp [SocEvent.isTick])
      set u := Runs.run socApply p.gSoc pre
      have hv : (socTickFront u).dma = { p.gSoc.dma with remaining := u.dma.remaining } := hbefore.2
      have hdone := hbefore.1.tickFront.tickDma_valid (by rw [hv]; exact hm.busy)
        (by rw [hv]; exact hstuck) (by rw [hv]; dsimp only; omega) (by rw [hv]; exact hm.valid)
      have hstatus : (socTick u).dma = _ := hdone.status
      have hpost : ∀ e ∈ post, e.awaits := fun e he =>
        hticks e (by rw [heq]; exact List.mem_append_right _ (List.mem_cons_of_mem _ he))
      have htail := idle_awaits (s := socTick u) (by rw [hstatus]) hpost
      rw [heq, Runs.run_append_cons]
      show (Runs.run socApply (socTick u) post).dma.done = true
      rw [htail, hstatus]
  refine ⟨BitVec.ofNat 32 R, ?_⟩
  have hstep : socHostStep p (BitVec.ofNat 32 R) = appCall p (.hostStep (BitVec.ofNat 32 R)) := rfl
  rw [hstep, appCall_eq h, AppCall.events, hn]
  exact (h.run _).terminal_iff.mpr (Or.inl hend)

/-! ### Dispatch -/

/-- Application code that takes no time, raises nothing, masks nothing and leaves the
DMA to its driver. -/
def AppCall.calm : AppCall → Prop
  | .mmioRead addr => addr ≠ vlabIntcAck
  | .mmioWrite addr _ => addr ∉ dmaRegs ∧ addr ≠ vlabIntcEnable
  | _ => False

theorem AppCall.calm.quiet {c : AppCall} (h : c.calm) : c.quiet := by
  cases c with
  | mmioRead addr => exact h
  | mmioWrite addr val => exact h.1
  | _ => exact absurd h id

theorem AppCall.calm.events {c : AppCall} (h : c.calm) {e : SocEvent} (he : e ∈ c.events) :
    e.calm := by
  cases c with
  | mmioRead addr =>
    rw [List.mem_singleton.mp he]
    exact h
  | mmioWrite addr val =>
    rw [List.mem_singleton.mp he]
    exact h
  | _ => exact absurd h id

theorem Isr.ServesDma.quiet {isr : Isr A} (h : isr.ServesDma AppCall.calm) :
    isr.ServesDma AppCall.quiet := by
  refine ⟨h.dma, fun l f hl hf line p a => ?_⟩
  obtain ⟨cs, hcs, heq⟩ := h.others l f hl hf line p a
  exact ⟨cs, fun c hc => (hcs c hc).quiet, heq⟩

/-- Serving another line than the DMA's. -/
theorem serve_other {m : Machine A} (hisr : m.isr.ServesDma AppCall.calm) (h : Live m.platform)
    (line : ℕ) (hl : line < 3) (hne : line ≠ socIrqDma) :
    let q := (isrServe { m with platform := m.platform.acked line } (BitVec.ofNat 32 line)).platform
    Live q ∧ q.dma = m.platform.dma ∧ q.gSoc.dma = m.platform.gSoc.dma ∧
      q.gSoc.intc.pending = (m.platform.gSoc.intc.acked line).pending ∧
      q.gSoc.intc.enable = m.platform.gSoc.intc.enable := by
  intro q
  have hq : q = _ := isrServe_platform { m with platform := m.platform.acked line } hl
  have hacked : Live (m.platform.acked line) := h.acked line
  -- the handler and the CLEAR write together are one calm run
  obtain ⟨es, hes, heq⟩ : ∃ es : List SocEvent, (∀ e ∈ es, e.calm) ∧
      q = { m.platform.acked line with
        gSoc := Runs.run socApply (m.platform.acked line).gSoc es } := by
    have hclear : (SocEvent.write vlabIntcClear (BitVec.ofNat 32 line)).calm :=
      ⟨by decide, by decide⟩
    rw [hq]
    dsimp only
    split
    · rename_i f hf
      obtain ⟨es, hes, hrun⟩ := (hisr.others line f hne hf).events hacked
        (BitVec.ofNat 32 line) m.app
      refine ⟨es ++ [.write vlabIntcClear (BitVec.ofNat 32 line)], fun e he => ?_, ?_⟩
      · rcases List.mem_append.mp he with he | he
        · obtain ⟨c, hc, hec⟩ := hes e he
          exact AppCall.calm.events hc hec
        · rw [List.mem_singleton.mp he]
          exact hclear
      · rw [hrun, halWriteReg_eq (hacked.run es), Runs.run_append]
        rfl
    · refine ⟨[.write vlabIntcClear (BitVec.ofNat 32 line)], fun e he => ?_, ?_⟩
      · rw [List.mem_singleton.mp he]
        exact hclear
      · rw [halWriteReg_eq hacked]
        rfl
  obtain ⟨hdma, hpending, henable⟩ := calm_run (s := (m.platform.acked line).gSoc) hes
  rw [heq]
  exact ⟨hacked.run es, rfl, hdma, hpending, henable⟩

/-- The DMA line is pending and enabled. -/
def SocIntc.dmaReady (ic : SocIntc) : Bool := ic.dmaPending && ic.dmaEnabled

theorem SocIntc.dmaReady_iff (ic : SocIntc) :
    ic.dmaReady = true ↔ ic.pending.getLsbD 2 = true ∧ ic.enable.getLsbD 2 = true :=
  Bool.and_eq_true_iff

/-- A dispatch that finds the DMA line not ready leaves driver and engine as they are. -/
theorem dispatchLoop_unready (n handled : ℕ) {m : Machine A}
    (hisr : m.isr.ServesDma AppCall.calm) (h : Live m.platform)
    (hno : m.platform.gSoc.intc.dmaReady = false) :
    let q := (isrDispatchLoop n m handled).2
    q.isr.ServesDma AppCall.calm ∧ Live q.platform ∧ q.platform.dma = m.platform.dma ∧
      q.platform.gSoc.dma = m.platform.gSoc.dma := by
  have hrule := isrDispatchLoop_rule
    (P := fun q : Machine A => q.isr.ServesDma AppCall.calm ∧ Live q.platform ∧
      q.platform.dma = m.platform.dma ∧ q.platform.gSoc.dma = m.platform.gSoc.dma ∧
      q.platform.gSoc.intc.dmaReady = false)
    (fun q hq => hq.2.1) (fun q hq => ⟨hq.1, hq.2.1.polled, hq.2.2⟩) ?_ ?_ n handled
    ⟨hisr, h, rfl, rfl, hno⟩
  · exact ⟨hrule.1, hrule.2.1, hrule.2.2.1, hrule.2.2.2.1⟩
  · intro q line hq hline hge
    exact absurd (hq.1.answers hline) (not_lt.mpr hge)
  · -- the pass answers with another line, and serving it does not make the DMA line ready
    rintro q line ⟨hserves, hlive, hstatics, hengine, hunready⟩ hline -
    have hunready' : ¬ (q.platform.gSoc.intc.pending.getLsbD 2 = true ∧
        q.platform.gSoc.intc.enable.getLsbD 2 = true) := fun hp =>
      Bool.false_ne_true (hunready.symm.trans ((SocIntc.dmaReady_iff _).mpr hp))
    have hne : line ≠ socIrqDma := by
      rintro rfl
      rw [socIntcHighest_eq] at hline
      split_ifs at hline <;> simp at hline
    obtain ⟨hq, hdma, heng, hpend, hen⟩ :=
      serve_other hserves hlive line (socIntcHighest_lt hline) hne
    refine ⟨⟨hserves.dma, hserves.others⟩, hq, hdma.trans hstatics, heng.trans hengine, ?_⟩
    refine Bool.eq_false_iff.mpr fun hready => hunready' ?_
    rw [SocIntc.dmaReady_iff, hpend, hen, SocIntc.acked_pending _ (by decide)] at hready
    exact ⟨(Bool.and_eq_true_iff.mp hready.1).1, hready.2⟩

/-- A pass that answers with the DMA line: `dma_isr` by the flags of the engine, and nothing
more in the passes that are left. -/
theorem dispatchLoop_dma {m : Machine A} (hisr : m.isr.ServesDma AppCall.calm)
    (h : Live m.platform) (hline : socIntcHighest m.platform.gSoc.intc = some socIrqDma)
    (n handled : ℕ) :
    let q := (isrDispatchLoop (n + 1) m handled).2
    q.isr.ServesDma AppCall.calm ∧ Live q.platform ∧
      q.platform.dma = m.platform.dma.served m.platform.gSoc.dma ∧
      q.platform.gSoc.dma = m.platform.gSoc.dma.cleared := by
  have hacked : Live (m.platform.acked socIrqDma) := h.acked socIrqDma
  set m' := isrServe { m with platform := m.platform.acked socIrqDma }
    (BitVec.ofNat 32 socIrqDma) with hm'
  have hplatform : m'.platform = _ := isrServe_platform _ (by decide)
  obtain ⟨perf, hserved⟩ := dmaIsr_eq hacked (BitVec.ofNat 32 socIrqDma)
  have hcleared := hacked.cleared perf
  rw [hisr.dma] at hplatform
  dsimp only [dmaIsrHandler] at hplatform
  rw [hserved] at hplatform
  have hlive : Live { (m.platform.acked socIrqDma).cleared perf with
      dma := (m.platform.acked socIrqDma).dma.served (m.platform.acked socIrqDma).gSoc.dma } :=
    ⟨hcleared.inited, hcleared.wired⟩
  rw [hlive.write_intc (Or.inr rfl)] at hplatform
  have hlive' : Live m'.platform := by
    rw [hplatform, ← hlive.write_intc (Or.inr rfl)]
    exact hlive.write vlabIntcClear _
  -- the ACK took the pending bit, and the two CLEAR writes do not bring it back
  have hpending : m'.platform.gSoc.intc.pending =
      (m.platform.gSoc.intc.acked socIrqDma).pending := by
    rw [hplatform]
    exact socIntcWrite_pending _ _ _
  have hunready : m'.platform.gSoc.intc.dmaReady = false := by
    rw [SocIntc.dmaReady, SocIntc.dmaPending, hpending, SocIntc.acked_pending _ (by decide)]
    simp
  obtain ⟨hserves, hq, hstatics, hengine⟩ :=
    dispatchLoop_unready n (handled + 1) (m := m') ⟨hisr.dma, hisr.others⟩ hlive' hunready
  have hdma : m'.platform.dma = m.platform.dma.served m.platform.gSoc.dma :=
    congrArg Platform.dma hplatform
  have hclean : m'.platform.gSoc.dma = m.platform.gSoc.dma.cleared :=
    congrArg (fun p : Platform => p.gSoc.dma) hplatform
  rw [isrDispatchLoop_some h hline hisr.lines n handled]
  exact ⟨hserves, hq, hstatics.trans hdma, hengine.trans hclean⟩

/-- `dma_isr` runs in a dispatch exactly once if the DMA line is ready, and else not at all. -/
theorem dispatch_dma {m : Machine A} (hisr : m.isr.ServesDma AppCall.calm) (h : Live m.platform) :
    let q := (isrDispatch m).2
    q.isr.ServesDma AppCall.calm ∧ Live q.platform ∧
      q.platform.dma =
        (if m.platform.gSoc.intc.dmaReady then m.platform.dma.served m.platform.gSoc.dma
        else m.platform.dma) ∧
      q.platform.gSoc.dma =
        if m.platform.gSoc.intc.dmaReady then m.platform.gSoc.dma.cleared
        else m.platform.gSoc.dma := by
  intro q
  cases hready : m.platform.gSoc.intc.dmaReady with
  | false =>
    rw [if_neg Bool.false_ne_true, if_neg Bool.false_ne_true]
    exact dispatchLoop_unready m.isr.sNLines.toNat 0 hisr h hready
  | true =>
    have hbits := (SocIntc.dmaReady_iff _).mp hready
    have hlines : 2 < m.isr.sNLines.toNat := hisr.lines
    -- two passes at least: the TIMER may be served first
    obtain ⟨n, hn⟩ : ∃ n, m.isr.sNLines.toNat = n + 1 + 1 := ⟨m.isr.sNLines.toNat - 2, by omega⟩
    have hq : q = (isrDispatchLoop (n + 1 + 1) m 0).2 := by
      rw [← hn]
      rfl
    rw [hq, if_pos rfl, if_pos rfl]
    by_cases htimer : m.platform.gSoc.intc.pending.getLsbD 1 = true ∧
        m.platform.gSoc.intc.enable.getLsbD 1 = true
    · -- the TIMER bit is acknowledged, the DMA bit is still there
      have hline : socIntcHighest m.platform.gSoc.intc = some 1 := by
        rw [socIntcHighest_eq, if_pos htimer]
      obtain ⟨hlive, hdma, hengine, hpend, hen⟩ := serve_other hisr h 1 (by decide) (by decide)
      have hserves : (isrServe { m with platform := m.platform.acked 1 }
          (BitVec.ofNat 32 1)).isr.ServesDma AppCall.calm := ⟨hisr.dma, hisr.others⟩
      rw [isrDispatchLoop_some h hline (hisr.answers hline)]
      generalize isrServe { m with platform := m.platform.acked 1 } (BitVec.ofNat 32 1) = m' at *
      have hnext : socIntcHighest m'.platform.gSoc.intc = some socIrqDma := by
        have hbit : (m.platform.gSoc.intc.pending.getLsbD 2 && decide (2 ≠ 1)) = true :=
          (Bool.and_true _).trans hbits.1
        rw [socIntcHighest_eq, hpend, hen, SocIntc.acked_pending _ (by decide),
          SocIntc.acked_pending _ (by decide), if_neg (by simp), if_pos ⟨hbit, hbits.2⟩]
      rw [← hdma, ← hengine]
      exact dispatchLoop_dma hserves hlive hnext n (0 + 1)
    · have hline : socIntcHighest m.platform.gSoc.intc = some socIrqDma := by
        rw [socIntcHighest_eq, if_neg htimer, if_pos hbits]
      exact dispatchLoop_dma hisr h hline (n + 1) 0

/-! ### Dispatch and recovery -/

/-- A dispatch that finds the end of a transfer, and `dma_recover` after it. -/
theorem Lifecycle.finishes {m : Machine A} (hisr : m.isr.ServesDma AppCall.calm)
    (h : Lifecycle m.platform) (hdone : m.platform.gSoc.dma.done = true)
    (hready : m.platform.gSoc.intc.dmaReady = true) :
    let q := dmaRecover (isrDispatch m).2.platform
    dmaState q = .idle ∧ ∀ src dst len irqEnable, VlabValid src dst len →
      (dmaSubmit q src dst len irqEnable).1 = .ok := by
  intro q
  obtain ⟨-, hlife, -⟩ := h.dispatch hisr.quiet
  obtain ⟨-, -, hdma, -⟩ := dispatch_dma hisr h.live
  have hcomplete : (isrDispatch m).2.platform.dma.sState = .complete := by
    rw [hdma, if_pos hready, DmaDriver.served, if_pos hdone]
  obtain ⟨hq, hstate⟩ := hlife.recover
  rw [if_pos hcomplete] at hstate
  exact ⟨hstate, fun s d l i hv => (hq.submit s d l i).2.2.1.mpr ⟨hstate, hv⟩⟩

/-- A dispatch without the DMA line leaves the driver ACTIVE, which `dma_recover` does not
leave either. -/
theorem Live.stays_active {m : Machine A} (hisr : m.isr.ServesDma AppCall.calm)
    (h : Live m.platform) (hstate : m.platform.dma.sState = .active)
    (hready : m.platform.gSoc.intc.dmaReady = false) :
    dmaState (dmaRecover (isrDispatch m).2.platform) = .active := by
  obtain ⟨-, hlive, hdma, -⟩ := dispatch_dma hisr h
  have hactive : (isrDispatch m).2.platform.dma.sState = .active := by
    rw [hdma, hready, if_neg Bool.false_ne_true]
    exact hstate
  rcases dmaRecover_eq hlive with ⟨hout, -⟩ | ⟨-, hsame⟩
  · rw [hactive] at hout
    simp at hout
  · rw [hsame]
    exact hactive

/-! ### The whole sequence -/

/-- Every accepted submission gets over.  From any reachable machine whose driver is
IDLE, with the engine idle, the DMA line enabled, `dma_isr` registered and handlers of
other lines that are calm, a valid descriptor is accepted, STATUS shows a terminal flag
after some ticks, and whenever software has waited for it, a dispatch and `dma_recover`
lead back to a driver that is IDLE and accepts the next descriptor, exactly if the
submission enabled the interrupt or the DMA line was pending already. -/
theorem submit_finishes_iff {m : Machine A} (hm : FwReachable m)
    (hisr : m.isr.ServesDma AppCall.calm) (hidle : dmaState m.platform = .idle)
    (hengine : m.platform.gSoc.dma.busy = false)
    (henable : m.platform.gSoc.intc.dmaEnabled = true) {src dst len : Word}
    (hvalid : VlabValid src dst len) (irqEnable : Int) :
    let r := dmaSubmit m.platform src dst len irqEnable
    r.1 = .ok ∧ (∃ n, Terminal (socHostStep r.2 n)) ∧
    ∀ wait : List AppCall, (∀ c ∈ wait, c.waits) →
      let t := Runs.run appCall r.2 wait
      Terminal t →
      let q := dmaRecover (isrDispatch { m with platform := t }).2.platform
      (dmaState q = .idle ∧ ∀ src dst len irqEnable, VlabValid src dst len →
          (dmaSubmit q src dst len irqEnable).1 = .ok) ↔
        (irqEnable ≠ 0 ∨ m.platform.gSoc.intc.dmaPending = true) := by
  intro r
  have hb := hm.boundary
  have htables := hb.tables trivial
  obtain ⟨perf, hsubmit⟩ := dmaSubmit_accepted hb.live htables hidle hengine hvalid irqEnable
  have heq : r = _ := hsubmit
  have hlive : Live r.2 := by
    rw [heq]
    exact ⟨hb.live.inited, hb.live.wired.of_eq rfl rfl rfl rfl rfl rfl⟩
  have hmoving : Moving (decide (irqEnable ≠ 0)) r.2.gSoc.dma := by
    rw [heq]
    exact submitted_moving _ irqEnable hvalid
  have hflight : InFlight (decide (irqEnable ≠ 0)) m.platform.gSoc.intc.dmaPending
      m.platform.gSoc.intc.enable r.2.gSoc := by
    refine ⟨hlive.wired, by rw [heq], Or.inl ⟨hmoving, by rw [heq]⟩⟩
  refine ⟨by rw [heq], ?_, ?_⟩
  · refine started_terminates hlive hmoving ?_ ?_
    · rw [heq]
      exact hb.unstuck
    · rw [heq]
      rfl
  intro wait hwait t hterminal q
  obtain ⟨htlive, htstatics, ht⟩ := hflight.run hlive hwait
  -- a terminal flag means that the transfer has ended
  obtain ⟨hended, hpending⟩ : Ended t.gSoc.dma ∧
      t.gSoc.intc.dmaPending = (m.platform.gSoc.intc.dmaPending || decide (irqEnable ≠ 0)) := by
    rcases ht.phase with ⟨hmv, -⟩ | hend
    · rcases htlive.terminal_iff.mp hterminal with hd | he
      · exact absurd (hmv.done.symm.trans hd) Bool.false_ne_true
      · exact absurd (hmv.error.symm.trans he) Bool.false_ne_true
    · exact hend
  have hstate : t.dma.sState = .active := by
    rw [show t.dma = _ from htstatics, heq]
  have htt : VlabTables t.dma := by
    rw [show t.dma = _ from htstatics, heq]
    exact htables.state .active 0 0
  by_cases hwhen : irqEnable ≠ 0 ∨ m.platform.gSoc.intc.dmaPending = true
  · -- the line is pending: dispatch completes, and recovery leads to IDLE
    have hp : t.gSoc.intc.dmaPending = true := by
      rw [hpending, Bool.or_eq_true, decide_eq_true_iff]
      exact hwhen.symm
    have hlife : Lifecycle t := ⟨htlive, htt, by rw [hstate]; exact Or.inr ⟨hended, hp⟩⟩
    have hen : t.gSoc.intc.dmaEnabled = true := by
      rw [SocIntc.dmaEnabled, ht.enable_eq]
      exact henable
    have hready : t.gSoc.intc.dmaReady = true := Bool.and_eq_true_iff.mpr ⟨hp, hen⟩
    exact iff_of_true
      (hlife.finishes (m := { m with platform := t }) hisr hended.done hready) hwhen
  · -- nothing is pending: the driver stays ACTIVE
    have hready : t.gSoc.intc.dmaReady = false := by
      rw [not_or, not_not, Bool.not_eq_true] at hwhen
      have hp : t.gSoc.intc.dmaPending = false := by
        rw [hpending, hwhen.2, hwhen.1]
        rfl
      rw [SocIntc.dmaReady, hp, Bool.false_and]
    have hactive := htlive.stays_active (m := { m with platform := t }) hisr hstate hready
    refine iff_of_false (fun hback => ?_) hwhen
    exact DmaState.noConfusion (hactive.symm.trans hback.1)

/-- The machine ready for submissions: `dma_isr` registered and its line enabled. -/
def machineReady : Machine Unit :=
  Runs.run machineApply (machineBoot default ())
    [.init .dmaInit, .register vlabIrqDma (some dmaIsrHandler), .app (.intcEnable 4)]

theorem machineReady_reachable : FwReachable machineReady :=
  ⟨default, (), [.register vlabIrqDma (some dmaIsrHandler), .app (.intcEnable 4)],
    by simp [FwEvent.known, HandlerKnown], rfl⟩

theorem machineReady_serves : machineReady.isr.ServesDma AppCall.calm := by
  have hisr : machineReady.isr = isrRegister isrStart vlabIrqDma (some dmaIsrHandler) := rfl
  rw [hisr]
  exact isrRegister_serves (by decide) (by simp [isrStart])

/-- One word, submitted with its interrupt. -/
theorem submit_finishes_iff_word :
    let t := Runs.run appCall (dmaSubmit machineReady.platform 0x10000000 0x10000010 4 1).2
      [.hostStep 1]
    dmaState (dmaRecover (isrDispatch { machineReady with platform := t }).2.platform) = .idle :=
  (((submit_finishes_iff machineReady_reachable machineReady_serves (by decide) (by decide)
    (by decide) (by decide) 1).2.2 [.hostStep 1] (by simp [AppCall.waits]) (by decide)).mpr
    (Or.inl (by decide))).1

/-- One word, submitted without its interrupt: the driver stays ACTIVE. -/
theorem submit_unfinished :
    ¬ ∀ m : Machine Unit, FwReachable m → m.isr.ServesDma AppCall.calm →
      dmaState m.platform = .idle → m.platform.gSoc.dma.busy = false →
      m.platform.gSoc.intc.dmaEnabled = true →
      ∀ (src dst len : Word) (irqEnable : Int), VlabValid src dst len →
      ∀ wait : List AppCall, (∀ c ∈ wait, c.waits) →
        let t := Runs.run appCall (dmaSubmit m.platform src dst len irqEnable).2 wait
        Terminal t →
        let q := dmaRecover (isrDispatch { m with platform := t }).2.platform
        dmaState q = .idle ∧ ∀ src dst len irqEnable, VlabValid src dst len →
          (dmaSubmit q src dst len irqEnable).1 = .ok := by
  intro h
  have hback := h machineReady machineReady_reachable machineReady_serves (by decide) (by decide)
    (by decide) 0x10000000 0x10000010 4 0 (by decide) [.hostStep 1] (by simp [AppCall.waits])
    (by decide)
  exact absurd hback.1 (by decide)

end VlabSoc
