/-
The interrupt-driven life of a DMA transfer.

`Lifecycle` couples the driver's state with the engine and the interrupt
controller (`LifecycleMatches`).  Each call of a run keeps it and moves the state in
one way only: `Lifecycle.submit` from IDLE to ACTIVE, `Lifecycle.dispatch` from
ACTIVE to COMPLETE, `Lifecycle.recover` from COMPLETE to IDLE.  `dma_lifecycle` is
the invariant over every interleaving, and the balance of submissions and
completions that follows from the three moves.
-/
import VlabSoc.DmaPhase
import VlabSoc.FirmwareRuns

namespace VlabSoc

variable {A : Type} {p : Platform}

/-! ### What a run may contain -/

/-- Application code that leaves the DMA to its driver: no INTC_ACK read, no write to a
DMA register. -/
def AppCall.quiet : AppCall → Prop
  | .mmioRead addr => addr ≠ vlabIntcAck
  | .mmioWrite addr _ => addr ∉ dmaRegs
  | _ => True

/-- Submissions with the interrupt enabled, dispatch, recovery, quiet calls. -/
def FwEvent.drives : FwEvent A → Prop
  | .submit _ _ _ irqEnable => irqEnable ≠ 0
  | .dispatch => True
  | .recover => True
  | .app c => c.quiet
  | _ => False

/-- `dma_isr` is registered on the DMA line; the handlers of other lines make calls of
the kind `ok`. -/
structure Isr.ServesDma (isr : Isr A) (ok : AppCall → Prop) : Prop where
  dma : isr.sVectors socIrqDma = some dmaIsrHandler
  others : ∀ l f, l ≠ socIrqDma → isr.sVectors l = some f → HandlerCalls ok f

/-- A line that `dma_isr` is registered on is configured. -/
theorem Isr.ServesDma.lines {isr : Isr A} {ok : AppCall → Prop} (h : isr.ServesDma ok) :
    socIrqDma < isr.sNLines.toNat :=
  isr.registered socIrqDma (by rw [h.dma]; rfl)

/-- With the DMA line configured, every line the controller can answer with is. -/
theorem Isr.ServesDma.answers {isr : Isr A} {ok : AppCall → Prop} (h : isr.ServesDma ok)
    {ic : SocIntc} {line : ℕ} (hline : socIntcHighest ic = some line) :
    line < isr.sNLines.toNat := by
  have hlt : line < 3 := socIntcHighest_lt hline
  have hlines : 2 < isr.sNLines.toNat := h.lines
  omega

theorem AppCall.quiet_events {c : AppCall} (hc : c.quiet) {e : SocEvent} (he : e ∈ c.events) :
    e.quiet := by
  cases c with
  | hostStep n =>
    rw [List.eq_of_mem_replicate he]
    exact trivial
  | raiseIrq line =>
    rw [List.mem_singleton.mp he]
    exact trivial
  | intcEnable mask =>
    rw [List.mem_singleton.mp he]
    show vlabIntcEnable ∉ dmaRegs
    decide
  | mmioRead addr =>
    rw [List.mem_singleton.mp he]
    exact hc
  | mmioWrite addr val =>
    rw [List.mem_singleton.mp he]
    exact hc

/-! ### The invariant -/

/-- A live platform with the tables of `dma_init`, whose driver is in step with the
engine. -/
structure Lifecycle (p : Platform) : Prop where
  live : Live p
  tables : VlabTables p.dma
  inStep : LifecycleMatches p.gSoc p.dma.sState

theorem Lifecycle.events (h : Lifecycle p) {es : List SocEvent} (hes : ∀ e ∈ es, e.quiet) :
    Lifecycle { p with gSoc := Runs.run socApply p.gSoc es } :=
  ⟨h.live.run es, h.tables, h.inStep.run h.live.wired hes⟩

theorem Lifecycle.write (h : Lifecycle p) {addr : Word} (ha : addr ∉ dmaRegs) (val : Word) :
    Lifecycle (halWriteReg p addr val) ∧ (halWriteReg p addr val).dma = p.dma := by
  have hes : ∀ e ∈ [SocEvent.write addr val], e.quiet := by simpa [SocEvent.quiet] using ha
  have hrun := h.events hes
  rw [halWriteReg_eq h.live]
  exact ⟨hrun, rfl⟩

theorem LifecycleMatches.state_mem {s : Soc} {st : DmaState} (h : LifecycleMatches s st) :
    st ∈ [DmaState.idle, .active, .complete] := by
  cases st with
  | idle => exact List.mem_cons_self
  | active => simp
  | complete => simp
  | _ => exact absurd h id

/-! ### Submission -/

/-- A transfer the engine has just been started on. -/
theorem submitted_moving (d : SocDma DmaCtx) {src dst len : Word} (irqEnable : Int)
    (hvalid : VlabValid src dst len) :
    Moving (decide (irqEnable ≠ 0)) (d.submitted src dst len irqEnable) where
  busy := rfl
  done := rfl
  error := rfl
  latched := decide_eq_decide.mpr (ctrlWord_irq irqEnable)
  valid := hvalid

/-- `dma_submit`: BUSY exactly outside IDLE; from IDLE, it succeeds exactly for valid
descriptors and moves to ACTIVE, or stays. -/
theorem Lifecycle.submit (h : Lifecycle p) (src dst len : Word) (irqEnable : Int) :
    let r := dmaSubmit p src dst len irqEnable
    (irqEnable ≠ 0 → Lifecycle r.2) ∧
    (r.1 = .errBusy ↔ p.dma.sState ≠ .idle) ∧
    (r.1 = .ok ↔ p.dma.sState = .idle ∧ VlabValid src dst len) ∧
    r.2.dma.sState = (if r.1 = .ok then .active else p.dma.sState) := by
  intro r
  have hquiet : p.dma.sState = .idle → p.gSoc.dma.busy = false := fun hidle => by
    have hs := h.inStep
    rw [hidle] at hs
    exact hs.busy
  rcases dmaSubmit_cases h.live h.tables src dst len irqEnable with ⟨hstate, heq⟩ |
    ⟨hstate, hbad, rc, perf, hne, hbusy, heq⟩ | ⟨hstate, hidle, hvalid, perf, heq⟩
  · -- refused at once
    rw [show r = _ from heq]
    refine ⟨fun _ => ⟨⟨h.live.inited, h.live.wired⟩, h.tables, h.inStep⟩, iff_of_true rfl hstate,
      iff_of_false (by simp) fun hc => hstate hc.1, by simp⟩
  · -- refused by the checks
    have hnv : ¬ VlabValid src dst len :=
      hbad.resolve_left (by rw [hquiet hstate]; exact Bool.false_ne_true)
    rw [show r = _ from heq]
    refine ⟨fun _ => ⟨⟨h.live.inited, h.live.wired.of_eq rfl rfl rfl rfl rfl rfl⟩, h.tables,
      h.inStep.of_eq rfl id⟩, ?_, iff_of_false hne fun hc => hnv hc.2, by rw [if_neg hne]⟩
    rw [hbusy, hquiet hstate]
    exact iff_of_false Bool.false_ne_true (not_not.mpr hstate)
  · -- accepted, with the interrupt latched
    rw [show r = _ from heq]
    refine ⟨fun hirq => ⟨⟨h.live.inited, h.live.wired.of_eq rfl rfl rfl rfl rfl rfl⟩,
      h.tables.state .active 0 0, Or.inl ?_⟩, iff_of_false (by simp) (not_not.mpr hstate),
      iff_of_true rfl ⟨hstate, hvalid⟩, by simp⟩
    have hm := submitted_moving p.gSoc.dma irqEnable hvalid
    rwa [decide_eq_true hirq] at hm

/-! ### Recovery -/

theorem resting_cleared {d : SocDma DmaCtx} (h : d.busy = false) : Resting d.cleared :=
  ⟨h, rfl, rfl⟩

/-- `dma_recover` moves COMPLETE to IDLE. -/
theorem Lifecycle.recover (h : Lifecycle p) :
    Lifecycle (dmaRecover p) ∧
      (dmaRecover p).dma.sState = (if p.dma.sState = .complete then .idle else p.dma.sState) := by
  have hs := h.inStep
  rcases dmaRecover_eq h.live with ⟨hstate | hstate, perf, heq⟩ | ⟨hstate, heq⟩
  · rw [hstate] at hs
    exact absurd hs id
  · rw [hstate] at hs
    have hc := h.live.cleared perf
    rw [heq, if_pos hstate]
    exact ⟨⟨⟨hc.inited, hc.wired⟩, h.tables.state .idle 0 0, resting_cleared hs.busy⟩, rfl⟩
  · rw [heq, if_neg fun hc => hstate (Or.inr hc)]
    exact ⟨⟨⟨h.live.inited, h.live.wired⟩, h.tables, h.inStep⟩, rfl⟩

/-! ### Dispatch -/

/-- What a dispatch may do to the driver's state. -/
def Advances (st st' : DmaState) : Prop := st' = st ∨ (st = .active ∧ st' = .complete)

theorem Advances.trans {st st' st'' : DmaState} (h : Advances st st') (h' : Advances st' st'') :
    Advances st st'' := by
  rcases h with rfl | ⟨rfl, rfl⟩
  · exact h'
  · rcases h' with rfl | ⟨h', -⟩
    · exact Or.inr ⟨rfl, rfl⟩
    · exact absurd h' (by decide)

theorem Lifecycle.polled (h : Lifecycle p) : Lifecycle p.polled :=
  ⟨h.live.polled, h.tables, h.inStep.of_eq rfl id⟩

/-- Another line's ACK leaves the DMA line pending. -/
theorem Lifecycle.acked (h : Lifecycle p) {line : ℕ} (hne : line ≠ socIrqDma) :
    Lifecycle (p.acked line) := by
  refine ⟨h.live.acked line, h.tables, h.inStep.of_eq rfl fun hp => ?_⟩
  show (p.gSoc.intc.acked line).pending.getLsbD socIrqDma = true
  rw [SocIntc.acked_pending _ (by decide), decide_eq_true hne.symm, Bool.and_true]
  exact hp

/-- Only an ended transfer shows DONE, and then the driver is ACTIVE. -/
theorem LifecycleMatches.of_done {s : Soc} {st : DmaState} (h : LifecycleMatches s st)
    (hdone : s.dma.done = true) : st = .active ∧ Ended s.dma := by
  cases st with
  | idle => exact absurd ((Resting.done h).symm.trans hdone) Bool.false_ne_true
  | complete => exact absurd ((Resting.done h).symm.trans hdone) Bool.false_ne_true
  | active =>
    rcases h with hm | ⟨hend, -⟩
    · exact absurd (hm.done.symm.trans hdone) Bool.false_ne_true
    · exact ⟨rfl, hend⟩
  | _ => exact absurd h id

/-- Clearing the flags while DONE is not set: there was nothing to clear. -/
theorem LifecycleMatches.clear_undone {s t : Soc} {st : DmaState} (h : LifecycleMatches s st)
    (hno : s.dma.done = false) (ht : t.dma = s.dma.cleared) :
    s.dma.error = false ∧ LifecycleMatches t st := by
  cases st with
  | idle =>
    rw [LifecycleMatches, ht]
    exact ⟨Resting.error h, resting_cleared (Resting.busy h)⟩
  | complete =>
    rw [LifecycleMatches, ht]
    exact ⟨Resting.error h, resting_cleared (Resting.busy h)⟩
  | active =>
    rcases h with hm | ⟨hend, -⟩
    · rw [LifecycleMatches, ht]
      exact ⟨hm.error, Or.inl ⟨hm.busy, rfl, rfl, hm.latched, hm.valid⟩⟩
    · exact absurd (hno.symm.trans hend.done) Bool.false_ne_true
  | _ => exact absurd h id

/-- `dma_isr` on the acknowledged DMA line: it takes DONE for a completion, clears the
flags, and ignores an interrupt that comes while BUSY or with no transfer. -/
theorem Lifecycle.isr (h : Lifecycle p) (line : Word) :
    Lifecycle (dmaIsr line (p.acked socIrqDma)) ∧
      Advances p.dma.sState (dmaIsr line (p.acked socIrqDma)).dma.sState ∧
      (p.gSoc.dma.done = true → (dmaIsr line (p.acked socIrqDma)).dma.sState = .complete) := by
  have hlive : Live (p.acked socIrqDma) := h.live.acked socIrqDma
  obtain ⟨perf, heq⟩ := dmaIsr_eq hlive line
  have hc := hlive.cleared perf
  have hengine : (p.acked socIrqDma).gSoc.dma = p.gSoc.dma := rfl
  have htables := h.tables.served p.gSoc.dma
  rw [heq, hengine]
  by_cases hdone : p.gSoc.dma.done = true
  · -- DONE: the transfer of an ACTIVE driver
    obtain ⟨hactive, hended⟩ := h.inStep.of_done hdone
    have hstate : (p.dma.served p.gSoc.dma).sState = .complete := by
      rw [DmaDriver.served, if_pos hdone]
    refine ⟨⟨⟨hc.inited, hc.wired⟩, htables, ?_⟩, Or.inr ⟨hactive, hstate⟩, fun _ => hstate⟩
    show LifecycleMatches _ (p.dma.served p.gSoc.dma).sState
    rw [hstate]
    exact resting_cleared hended.busy
  · -- an interrupt with nothing behind it: the driver stays where it is
    obtain ⟨herror, hmatch⟩ := h.inStep.clear_undone (t := ((p.acked socIrqDma).cleared perf).gSoc)
      (Bool.eq_false_iff.mpr hdone) rfl
    have hstate : (p.dma.served p.gSoc.dma).sState = p.dma.sState := by
      rw [DmaDriver.served, if_neg hdone, if_neg (by rw [herror]; exact Bool.false_ne_true)]
    refine ⟨⟨⟨hc.inited, hc.wired⟩, htables, ?_⟩, Or.inl hstate, fun hd => absurd hd hdone⟩
    show LifecycleMatches _ (p.dma.served p.gSoc.dma).sState
    rw [hstate]
    exact hmatch

/-- A served line, whichever it is. -/
theorem Lifecycle.serve {m : Machine A} (hisr : m.isr.ServesDma AppCall.quiet)
    (h : Lifecycle m.platform) (line : ℕ) (hl : line < 3) :
    let q := (isrServe { m with platform := m.platform.acked line } (BitVec.ofNat 32 line)).platform
    Lifecycle q ∧ Advances m.platform.dma.sState q.dma.sState ∧
      (line = socIrqDma → m.platform.gSoc.dma.done = true → q.dma.sState = .complete) := by
  intro q
  have hq : q = _ := isrServe_platform { m with platform := m.platform.acked line } hl
  have hclear : vlabIntcClear ∉ dmaRegs := by decide
  rw [hq]
  dsimp only
  by_cases hdma : line = socIrqDma
  · -- `dma_isr`, then the CLEAR write of the dispatcher
    subst hdma
    rw [hisr.dma]
    obtain ⟨hlife, hadv, hdone⟩ := h.isr (BitVec.ofNat 32 socIrqDma)
    obtain ⟨hw, hstatics⟩ := hlife.write hclear (BitVec.ofNat 32 socIrqDma)
    rw [← hstatics] at hadv hdone
    exact ⟨hw, hadv, fun _ => hdone⟩
  · -- another handler, if there is one, then the CLEAR write
    have hacked := h.acked hdma
    split
    · rename_i f hf
      obtain ⟨es, hes, heq⟩ := (hisr.others line f hdma hf).events hacked.live
        (BitVec.ofNat 32 line) m.app
      have hrun := hacked.events fun e he => by
        obtain ⟨c, hc, hec⟩ := hes e he
        exact AppCall.quiet_events hc hec
      rw [heq]
      obtain ⟨hw, hstatics⟩ := hrun.write hclear (BitVec.ofNat 32 line)
      rw [hstatics]
      exact ⟨hw, Or.inl rfl, fun hline => absurd hline hdma⟩
    · obtain ⟨hw, hstatics⟩ := hacked.write hclear (BitVec.ofNat 32 line)
      rw [hstatics]
      exact ⟨hw, Or.inl rfl, fun hline => absurd hline hdma⟩

/-- The loop of `isr_dispatch` moves ACTIVE to COMPLETE, or leaves the state alone. -/
theorem Lifecycle.dispatchLoop (n handled : ℕ) {m : Machine A}
    (hisr : m.isr.ServesDma AppCall.quiet) (h : Lifecycle m.platform) :
    let m' := (isrDispatchLoop n m handled).2
    m'.isr.ServesDma AppCall.quiet ∧ Lifecycle m'.platform ∧
      Advances m.platform.dma.sState m'.platform.dma.sState := by
  refine isrDispatchLoop_rule
    (P := fun m' => m'.isr.ServesDma AppCall.quiet ∧ Lifecycle m'.platform ∧
      Advances m.platform.dma.sState m'.platform.dma.sState)
    (fun m' hm => hm.2.1.live) (fun m' hm => ⟨hm.1, hm.2.1.polled, hm.2.2⟩) ?_ ?_ n handled
    ⟨hisr, h, Or.inl rfl⟩
  · intro m' line hm hline hge
    exact absurd (hm.1.answers hline) (not_lt.mpr hge)
  · intro m' line hm hline _
    obtain ⟨hlife, hadv, -⟩ := hm.2.1.serve hm.1 line (socIntcHighest_lt hline)
    exact ⟨⟨hm.1.dma, hm.1.others⟩, hlife, hm.2.2.trans hadv⟩

theorem Lifecycle.dispatch {m : Machine A} (hisr : m.isr.ServesDma AppCall.quiet)
    (h : Lifecycle m.platform) :
    (isrDispatch m).2.isr.ServesDma AppCall.quiet ∧ Lifecycle (isrDispatch m).2.platform ∧
      Advances m.platform.dma.sState (isrDispatch m).2.platform.dma.sState :=
  h.dispatchLoop _ 0 hisr

/-- Registering `dma_isr` next to application handlers. -/
theorem isrRegister_serves {isr : Isr A} {ok : AppCall → Prop} (hn : vlabIrqDma < isr.sNLines)
    (hothers : ∀ l f, l ≠ socIrqDma → isr.sVectors l = some f → HandlerCalls ok f) :
    (isrRegister isr vlabIrqDma (some dmaIsrHandler)).ServesDma ok := by
  rw [isrRegister, dif_pos hn]
  constructor
  · exact Function.update_self (vlabIrqDma.toNat) (some dmaIsrHandler) isr.sVectors
  · intro l f hl hf
    have hupdate : Function.update isr.sVectors vlabIrqDma.toNat (some dmaIsrHandler) l =
        isr.sVectors l := Function.update_of_ne hl _ _
    exact hothers l f hl (hupdate.symm.trans hf)

/-! ### Runs -/

theorem Lifecycle.apply {m : Machine A} (hisr : m.isr.ServesDma AppCall.quiet)
    (h : Lifecycle m.platform) {e : FwEvent A} (he : e.drives) :
    (machineApply m e).isr.ServesDma AppCall.quiet ∧ Lifecycle (machineApply m e).platform := by
  cases e with
  | submit src dst len irqEnable => exact ⟨hisr, (h.submit src dst len irqEnable).1 he⟩
  | dispatch => exact ⟨(h.dispatch hisr).1, (h.dispatch hisr).2.1⟩
  | recover => exact ⟨hisr, h.recover.1⟩
  | app c =>
    refine ⟨hisr, ?_⟩
    show Lifecycle (appCall m.platform c)
    rw [appCall_eq h.live]
    exact h.events fun e hec => AppCall.quiet_events he hec
  | _ => exact absurd he id

/-- A submission that returns OK. -/
def accepts (x : Machine A × FwEvent A) : Bool :=
  match x.2 with
  | .submit src dst len irqEnable => decide ((dmaSubmit x.1.platform src dst len irqEnable).1 = .ok)
  | _ => false

/-- A change of state that enters COMPLETE. -/
def entersComplete (st st' : DmaState) : Bool := decide (st ≠ .complete ∧ st' = .complete)

/-- A transition of the driver to COMPLETE. -/
def completes (x : Machine A × FwEvent A) : Bool :=
  entersComplete (dmaState x.1.platform) (dmaState (machineApply x.1 x.2).platform)

/-- Submissions not completed yet. -/
def DmaState.outstanding (st : DmaState) : ℕ := if st = .active then 1 else 0

/-- An accepted submission finds the driver IDLE and leaves it ACTIVE. -/
theorem Lifecycle.accepts_states {m : Machine A} (h : Lifecycle m.platform) {e : FwEvent A}
    (he : accepts (m, e) = true) :
    dmaState m.platform = .idle ∧ dmaState (machineApply m e).platform = .active := by
  cases e with
  | submit src dst len irqEnable =>
    obtain ⟨-, -, hok, hstate⟩ := h.submit src dst len irqEnable
    have hrc : (dmaSubmit m.platform src dst len irqEnable).1 = .ok := of_decide_eq_true he
    rw [if_pos hrc] at hstate
    exact ⟨(hok.mp hrc).1, hstate⟩
  | _ => exact absurd he Bool.false_ne_true

/-- Any other call advances the state, or recovers from COMPLETE. -/
theorem Lifecycle.moves {m : Machine A} (hisr : m.isr.ServesDma AppCall.quiet)
    (h : Lifecycle m.platform) {e : FwEvent A} (he : e.drives) (hno : accepts (m, e) = false) :
    Advances (dmaState m.platform) (dmaState (machineApply m e).platform) ∨
      (dmaState m.platform = .complete ∧ dmaState (machineApply m e).platform = .idle) := by
  cases e with
  | submit src dst len irqEnable =>
    obtain ⟨-, -, -, hstate⟩ := h.submit src dst len irqEnable
    rw [if_neg (of_decide_eq_false hno)] at hstate
    exact Or.inl (Or.inl hstate)
  | dispatch => exact Or.inl (h.dispatch hisr).2.2
  | recover =>
    obtain ⟨-, hstate⟩ := h.recover
    by_cases hc : m.platform.dma.sState = .complete
    · rw [if_pos hc] at hstate
      exact Or.inr ⟨hc, hstate⟩
    · rw [if_neg hc] at hstate
      exact Or.inl (Or.inl hstate)
  | app c =>
    have heq : (appCall m.platform c).dma = m.platform.dma := by
      rw [appCall_eq h.live]
    exact Or.inl (Or.inl (congrArg DmaDriver.sState heq))
  | _ => exact absurd he id

/-- Acceptance takes a submission on, the transition to COMPLETE takes it off. -/
theorem Lifecycle.balance {m : Machine A} (hisr : m.isr.ServesDma AppCall.quiet)
    (h : Lifecycle m.platform) (e : FwEvent A) (he : e.drives) :
    (dmaState m.platform).outstanding + (if accepts (m, e) then 1 else 0) =
      (if completes (m, e) then 1 else 0) +
        (dmaState (machineApply m e).platform).outstanding := by
  cases haccept : accepts (m, e) with
  | true =>
    obtain ⟨hidle, hactive⟩ := h.accepts_states haccept
    rw [completes, hidle, hactive]
    decide
  | false =>
    rw [completes]
    rcases h.moves hisr he haccept with (heq | ⟨hfrom, hto⟩) | ⟨hfrom, hto⟩
    · rw [heq]
      cases dmaState m.platform <;> decide
    · rw [hfrom, hto]
      decide
    · rw [hfrom, hto]
      decide

/-- Boot and `dma_init`, with the driver IDLE. -/
theorem boot_lifecycle (hsoc : p.gInited = true → SocReachable p.gSoc)
    (hidle : dmaState p = .idle) : Lifecycle (dmaInit (socHostBoot p)) := by
  obtain ⟨hlive, hengine, hstatics⟩ := socHostBoot_eq fun h => (hsoc h).wired
  generalize socHostBoot p = q at hlive hengine hstatics
  have hstate : (dmaInit q).dma.sState = .idle := (congrArg DmaDriver.sState hstatics).trans hidle
  have hrest : Resting q.gSoc.dma := by
    rw [hengine]
    exact ⟨rfl, rfl, rfl⟩
  refine ⟨⟨hlive.inited, hlive.wired⟩, dmaInit_tables q, ?_⟩
  rw [hstate]
  exact hrest

/-- The life of a transfer.  After boot and `dma_init` with the driver IDLE and
`dma_isr` serving the DMA line, over any run of submissions with the interrupt
enabled, dispatches, recoveries, masks, ticks, spurious raises and accesses that
leave the DMA alone, whatever the other lines' handlers do of that kind: the driver
is IDLE, ACTIVE or COMPLETE and in step with engine and interrupt line; a
submission is refused as BUSY exactly outside IDLE, and accepted exactly in IDLE
with a valid descriptor; and between two consecutive accepted submissions there is
exactly one transition to COMPLETE. -/
theorem dma_lifecycle (hsoc : p.gInited = true → SocReachable p.gSoc)
    (hidle : dmaState p = .idle) (app : A) {isr : Isr A} (hisr : isr.ServesDma AppCall.quiet)
    {es : List (FwEvent A)} (hes : ∀ e ∈ es, e.drives) :
    let m0 : Machine A := ⟨dmaInit (socHostBoot p), app, isr⟩
    let m := Runs.run machineApply m0 es
    let d := m.platform.gSoc.dma
    dmaState m.platform ∈ [DmaState.idle, .active, .complete] ∧
    (dmaState m.platform = .idle ∨ dmaState m.platform = .complete →
      d.busy = false ∧ d.done = false ∧ d.error = false) ∧
    (dmaState m.platform = .active →
      d.busy = true ∨ (d.done = true ∧ m.platform.gSoc.intc.dmaPending = true)) ∧
    (∀ src dst len irqEnable,
      let rc := (dmaSubmit m.platform src dst len irqEnable).1
      (rc = .errBusy ↔ dmaState m.platform ≠ .idle) ∧
      (rc = .ok ↔ dmaState m.platform = .idle ∧ VlabValid src dst len)) ∧
    ∀ pre first mid second post, es = pre ++ first :: (mid ++ second :: post) →
      accepts (Runs.run machineApply m0 pre, first) →
      let m1 := Runs.run machineApply m0 (pre ++ [first])
      (∀ x ∈ Runs.stages machineApply m1 mid, ¬ accepts x) →
      accepts (Runs.run machineApply m1 mid, second) →
      (Runs.stages machineApply m1 mid).countP completes = 1 := by
  intro m0 m d
  have hkeep : ∀ (m : Machine A) (e : FwEvent A), e.drives →
      m.isr.ServesDma AppCall.quiet ∧ Lifecycle m.platform →
      (machineApply m e).isr.ServesDma AppCall.quiet ∧ Lifecycle (machineApply m e).platform :=
    fun m e he hm => hm.2.apply hm.1 he
  have hreach : ∀ fs : List (FwEvent A), (∀ e ∈ fs, e.drives) →
      (Runs.run machineApply m0 fs).isr.ServesDma AppCall.quiet ∧
        Lifecycle (Runs.run machineApply m0 fs).platform := fun fs hfs =>
    Runs.run_invariant machineApply
      (P := fun m => m.isr.ServesDma AppCall.quiet ∧ Lifecycle m.platform) hkeep hfs
      ⟨hisr, boot_lifecycle hsoc hidle⟩
  obtain ⟨-, hlife⟩ := hreach es hes
  have hs := hlife.inStep
  refine ⟨hs.state_mem, ?_, ?_, fun src dst len irqEnable =>
    ⟨(hlife.submit src dst len irqEnable).2.1, (hlife.submit src dst len irqEnable).2.2.1⟩, ?_⟩
  · rintro (hst | hst)
    · rw [show m.platform.dma.sState = _ from hst] at hs
      exact ⟨hs.busy, hs.done, hs.error⟩
    · rw [show m.platform.dma.sState = _ from hst] at hs
      exact ⟨hs.busy, hs.done, hs.error⟩
  · intro hst
    rw [show m.platform.dma.sState = _ from hst] at hs
    exact hs.imp (fun hm => hm.busy) fun hend => ⟨hend.1.done, hend.2⟩
  · -- one submission outstanding after the first, none before the second
    intro pre first mid second post heq hfirst m1 hmid hsecond
    have hpre : ∀ e ∈ pre, e.drives := fun e he => hes e (by simp [heq, he])
    have hdf : first.drives := hes first (by simp [heq])
    have hdm : ∀ e ∈ mid, e.drives := fun e he => hes e (by simp [heq, he])
    obtain ⟨hisr0, hlife0⟩ := hreach pre hpre
    have hm1 : m1 = machineApply (Runs.run machineApply m0 pre) first := by
      show Runs.run machineApply m0 (pre ++ [first]) = _
      rw [Runs.run_append]
      rfl
    have hafter := hkeep _ first hdf ⟨hisr0, hlife0⟩
    rw [← hm1] at hafter
    have hend := Runs.run_invariant machineApply
      (P := fun m => m.isr.ServesDma AppCall.quiet ∧ Lifecycle m.platform) hkeep hdm hafter
    have hbal := Runs.run_balance machineApply (fun m => (dmaState m.platform).outstanding)
      accepts completes (P := fun m => m.isr.ServesDma AppCall.quiet ∧ Lifecycle m.platform) hkeep
      (fun m e he hm => hm.2.balance hm.1 e he) hdm hafter
    have hgain : (Runs.stages machineApply m1 mid).countP accepts = 0 :=
      List.countP_eq_zero.mpr hmid
    have hstart : dmaState m1.platform = .active := by
      rw [hm1]
      exact (hlife0.accepts_states hfirst).2
    have hlast := (hend.2.accepts_states hsecond).1
    rw [hgain, hstart, hlast] at hbal
    exact hbal.symm

/-- One word moved twice, with the first transfer taken off by a dispatch. -/
theorem dma_lifecycle_word :
    let m0 : Machine Unit := ⟨dmaInit (socHostBoot (platformStart default)), (),
      isrRegister isrStart vlabIrqDma (some dmaIsrHandler)⟩
    let m1 := Runs.run machineApply m0
      [.app (.intcEnable 4), .submit 0x10000000 0x10000010 4 1]
    (Runs.stages machineApply m1 [.app (.hostStep 1), .dispatch, .recover]).countP completes = 1 := by
  have hes : ∀ e ∈ ([.app (.intcEnable 4), .submit 0x10000000 0x10000010 4 1, .app (.hostStep 1),
      .dispatch, .recover, .submit 0x10000010 0x10000020 4 1] : List (FwEvent Unit)), e.drives := by
    simp [FwEvent.drives, AppCall.quiet]
  exact (dma_lifecycle (p := platformStart default) (fun h => absurd h Bool.false_ne_true) rfl ()
    (isrRegister_serves (by decide) (by simp [isrStart])) hes).2.2.2.2
    [.app (.intcEnable 4)] (.submit 0x10000000 0x10000010 4 1)
    [.app (.hostStep 1), .dispatch, .recover] (.submit 0x10000010 0x10000020 4 1) [] rfl
    (by decide) (by decide) (by decide)

end VlabSoc
