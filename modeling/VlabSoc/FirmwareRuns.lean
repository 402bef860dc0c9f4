/-
Runs of the linked firmware.

`AppCall` are the calls application code makes besides the DMA driver, `FwEvent`
all calls of a run.  On a live platform an `AppCall` is a run of `SocEvent`s
(`appCall_eq`).  Interrupt handlers other than `dma_isr` are application code:
`HandlerCalls ok` says that a handler makes calls of the kind `ok` only.  Handlers
do not register handlers; runs do.

* `CallBoundary.run` — over every run the platform stays live, the fault latch of
  the engine open, and the driver in a state it can be left in;
* `FwReachable` — the machines reached from the first boot and `dma_init`.
-/
import VlabSoc.DmaFaults
import VlabSoc.DriverCalls
import VlabSoc.Isr

namespace VlabSoc

variable {A : Type}

/-! ### Application code -/

inductive AppCall
  | hostStep (n : Word)
  | raiseIrq (line : Word)
  | intcEnable (mask : Word)
  | mmioRead (addr : Word)
  | mmioWrite (addr val : Word)

def appCall (p : Platform) : AppCall → Platform
  | .hostStep n => socHostStep p n
  | .raiseIrq line => vlabTestRaiseIrq p line
  | .intcEnable mask => intcEnable p mask
  | .mmioRead addr => (vlabMmioRead p addr).2
  | .mmioWrite addr val => vlabMmioWrite p addr val

/-- What a call amounts to on the model. -/
def AppCall.events : AppCall → List SocEvent
  | .hostStep n => List.replicate n.toNat .tick
  | .raiseIrq line => [.raise line.toInt]
  | .intcEnable mask => [.write vlabIntcEnable (mask &&& 0x7)]
  | .mmioRead addr => [.read addr 0]
  | .mmioWrite addr val => [.write addr val]

theorem appCall_eq {p : Platform} (h : Live p) (c : AppCall) :
    appCall p c = { p with gSoc := Runs.run socApply p.gSoc c.events } := by
  cases c with
  | hostStep n =>
    rw [appCall, socHostStep, h.ensure, AppCall.events, ← socStep_eq_run]
  | raiseIrq line =>
    rw [appCall, vlabTestRaiseIrq, h.ensure]
    rfl
  | intcEnable mask => exact halWriteReg_eq h vlabIntcEnable (mask &&& 0x7)
  | mmioRead addr => exact congrArg Prod.snd (halReadReg_eq h addr)
  | mmioWrite addr val => exact halWriteReg_eq h addr val

theorem Live.run {p : Platform} (h : Live p) (es : List SocEvent) :
    Live { p with gSoc := Runs.run socApply p.gSoc es } :=
  ⟨h.inited, h.wired.run es⟩

/-- Several calls in a row. -/
theorem appRun_eq {p : Platform} (h : Live p) (cs : List AppCall) :
    Runs.run appCall p cs =
      { p with gSoc := Runs.run socApply p.gSoc (cs.flatMap AppCall.events) } := by
  induction cs generalizing p with
  | nil => rfl
  | cons c cs ih =>
    rw [Runs.run_cons, appCall_eq h, ih (h.run c.events), List.flatMap_cons, Runs.run_append]

/-- A handler that makes only calls of the kind `ok`. -/
def HandlerCalls (ok : AppCall → Prop) (f : IsrHandler A) : Prop :=
  ∀ line p a, ∃ cs : List AppCall, (∀ c ∈ cs, ok c) ∧ (f line (p, a)).1 = Runs.run appCall p cs

/-- Such a handler changes the model by events of these calls, and nothing else. -/
theorem HandlerCalls.events {ok : AppCall → Prop} {f : IsrHandler A} (hf : HandlerCalls ok f)
    {p : Platform} (h : Live p) (line : Word) (a : A) :
    ∃ es : List SocEvent, (∀ e ∈ es, ∃ c, ok c ∧ e ∈ c.events) ∧
      (f line (p, a)).1 = { p with gSoc := Runs.run socApply p.gSoc es } := by
  obtain ⟨cs, hcs, heq⟩ := hf line p a
  refine ⟨cs.flatMap AppCall.events, fun e he => ?_, heq.trans (appRun_eq h cs)⟩
  obtain ⟨c, hc, hec⟩ := List.mem_flatMap.mp he
  exact ⟨c, hcs c hc, hec⟩

/-- `dma_isr` in the vector table. -/
def dmaIsrHandler : IsrHandler A := fun line r => (dmaIsr line r.1, r.2)

/-! ### Events -/

/-- The two resets of the platform. -/
inductive PlatformReset
  | hostBoot
  | peripherals

def platformReset (p : Platform) : PlatformReset → Platform
  | .hostBoot => socHostBoot p
  | .peripherals => { p with gSoc := socResetPeripherals p.gSoc }

/-- The two initialisations of the driver. -/
inductive DriverInit
  | dmaInit
  | platformInit

def driverInit (p : Platform) : DriverInit → Platform
  | .dmaInit => dmaInit p
  | .platformInit => platformInit p

inductive FwEvent (A : Type)
  | submit (src dst len : Word) (irqEnable : Int)
  | dispatch
  | recover
  | app (c : AppCall)
  | configure (nLines : Word)
  | register (line : Word) (handler : Option (IsrHandler A))
  | reset (r : PlatformReset)
  | init (i : DriverInit)

def machineApply (m : Machine A) : FwEvent A → Machine A
  | .submit src dst len irqEnable =>
    { m with platform := (dmaSubmit m.platform src dst len irqEnable).2 }
  | .dispatch => (isrDispatch m).2
  | .recover => { m with platform := dmaRecover m.platform }
  | .app c => { m with platform := appCall m.platform c }
  | .configure nLines => { m with isr := isrConfigure m.isr nLines }
  | .register line handler => { m with isr := isrRegister m.isr line handler }
  | .reset r => { m with platform := platformReset m.platform r }
  | .init i => { m with platform := driverInit m.platform i }

/-- The machine after its first boot. -/
def machineBoot (gSoc : Soc) (app : A) : Machine A where
  platform := socHostBoot (platformStart gSoc)
  app := app
  isr := isrStart

/-! ### Initialisation and reset -/

/-- `q` is live, with the engine and the driver's statics of `p`. -/
structure SameDma (p q : Platform) : Prop where
  live : Live q
  engine : q.gSoc.dma = p.gSoc.dma
  statics : q.dma = p.dma

theorem SameDma.trans {p q r : Platform} (hpq : SameDma p q) (hqr : SameDma q r) : SameDma p r :=
  ⟨hqr.live, hqr.engine.trans hpq.engine, hqr.statics.trans hpq.statics⟩

theorem Live.write_sameDma {p : Platform} (h : Live p) (addr : Word) (ha : addr ∉ dmaRegs)
    (val : Word) : SameDma p (halWriteReg p addr val) := by
  refine ⟨h.write addr val, ?_, ?_⟩
  · rw [halWriteReg_eq h]
    exact socWrite_dma ha p.gSoc val
  · rw [halWriteReg_eq h]

/-- `platform_init` reaches the DMA only through `dma_init`. -/
theorem platformInit_sameDma {p : Platform} (h : Live p) : SameDma (dmaInit p) (platformInit p) := by
  have h1 := h.write_sameDma vlabIntcEnable (by decide) 0
  have h2 := h1.trans (h1.live.write_sameDma vlabPerfCtrl (by decide) vlabPerfCtrlReset)
  have h3 := h2.trans (h2.live.write_sameDma vlabPerfCtrl (by decide) vlabPerfCtrlEnable)
  -- the copies into the firmware's own memory
  set q : Platform := { halWriteReg (halWriteReg (halWriteReg p vlabIntcEnable 0) vlabPerfCtrl
    vlabPerfCtrlReset) vlabPerfCtrl vlabPerfCtrlEnable with
    sRamData := sRomDataInit, sRamBss := List.replicate 8 0 } with hq
  have h4 : SameDma p q := ⟨⟨h3.live.inited, h3.live.wired⟩, h3.engine, h3.statics⟩
  have h5 := h4.trans (h4.live.write_sameDma vlabUartBauddiv (by decide) 0)
  have h6 := h5.trans (h5.live.write_sameDma vlabUartCtrl (by decide) vlabUartCtrlEnable)
  have heq : platformInit p =
      dmaInit (halWriteReg (halWriteReg q vlabUartBauddiv 0) vlabUartCtrl vlabUartCtrlEnable) := rfl
  rw [heq]
  refine ⟨⟨h6.live.inited, h6.live.wired⟩, h6.engine, ?_⟩
  rw [dmaInit, dmaInit]
  dsimp only
  rw [h6.statics]

/-! ### The fault latch -/

theorem socDmaWrite_stuck {M : Type} (d : SocDma M) (perf : SocPerf) (offset value : Word) :
    (socDmaWrite d perf offset value).2.dma.faultStuckBusy = d.faultStuckBusy := by
  unfold socDmaWrite
  split
  case h_4 =>
    dsimp only
    split_ifs
    · rw [socDmaStart_frame]
    · rfl
  all_goals rfl

/-- Accesses and ticks do not touch the latch, nor do raised lines. -/
theorem SocWired.apply_stuck {s : Soc} (h : SocWired s) {e : SocEvent}
    (he : e.isAccess ∨ ∃ line, e = .raise line) :
    (socApply s e).dma.faultStuckBusy = s.dma.faultStuckBusy := by
  rcases he with he | ⟨line, rfl⟩
  swap
  · rfl
  cases e with
  | read addr out => exact congrArg SocDma.faultStuckBusy (socRead_dma s addr out)
  | write addr value =>
    rcases socWrite_dma_cases s addr value with heq | ⟨perf, offset, heq⟩
    · exact congrArg SocDma.faultStuckBusy heq
    · exact (congrArg SocDma.faultStuckBusy heq).trans (socDmaWrite_stuck _ _ _ _)
  | tick =>
    show (socTickDma (socTickFront s)).dma.faultStuckBusy = _
    rcases h.tickFront.tickDma_cases with ⟨-, heq⟩ | ⟨-, -, -, heq⟩ | ⟨-, -, heq⟩ |
      ⟨-, -, -, heq⟩ | ⟨-, -, -, heq⟩ <;> · rw [heq]; rfl
  | _ => exact absurd he id

theorem SocWired.run_stuck {s : Soc} (h : SocWired s) {es : List SocEvent}
    (hes : ∀ e ∈ es, e.isAccess ∨ ∃ line, e = .raise line) :
    (Runs.run socApply s es).dma.faultStuckBusy = s.dma.faultStuckBusy := by
  have hrun := Runs.run_invariant socApply
    (P := fun t => SocWired t ∧ t.dma.faultStuckBusy = s.dma.faultStuckBusy)
    (fun t e he ht => ⟨ht.1.apply e, (ht.1.apply_stuck he).trans ht.2⟩) hes ⟨h, rfl⟩
  exact hrun.2

theorem AppCall.events_kind {c : AppCall} {e : SocEvent} (he : e ∈ c.events) :
    e.isAccess ∨ ∃ line, e = .raise line := by
  cases c with
  | hostStep n =>
    rw [List.eq_of_mem_replicate he]
    exact Or.inl trivial
  | raiseIrq line => exact Or.inr ⟨_, List.mem_singleton.mp he⟩
  | intcEnable mask =>
    rw [List.mem_singleton.mp he]
    exact Or.inl trivial
  | mmioRead addr =>
    rw [List.mem_singleton.mp he]
    exact Or.inl trivial
  | mmioWrite addr val =>
    rw [List.mem_singleton.mp he]
    exact Or.inl trivial

/-! ### Call boundaries -/

/-- What holds whenever no driver call is in progress.  `configured` says whether
`dma_init` has been called. -/
structure CallBoundary (configured : Prop) (p : Platform) : Prop where
  live : Live p
  state : p.dma.sState ∈ [DmaState.idle, .active, .complete, .error]
  unstuck : p.gSoc.dma.faultStuckBusy = false
  tables : configured → VlabTables p.dma

variable {configured : Prop} {p : Platform}

/-- Bus accesses, ticks and raised lines, with the driver's statics as they were. -/
theorem CallBoundary.events (h : CallBoundary configured p) {es : List SocEvent}
    (hes : ∀ e ∈ es, e.isAccess ∨ ∃ line, e = .raise line) :
    CallBoundary configured { p with gSoc := Runs.run socApply p.gSoc es } :=
  ⟨h.live.run es, h.state, (h.live.wired.run_stuck hes).trans h.unstuck, h.tables⟩

theorem CallBoundary.write (h : CallBoundary configured p) (addr val : Word) :
    CallBoundary configured (halWriteReg p addr val) := by
  have hes : ∀ e ∈ [SocEvent.write addr val], e.isAccess ∨ ∃ line, e = .raise line := by
    simp [SocEvent.isAccess]
  have hrun := h.events hes
  rw [halWriteReg_eq h.live]
  exact hrun

theorem CallBoundary.cleared (h : CallBoundary configured p) (perf : SocPerf) :
    CallBoundary configured (p.cleared perf) :=
  ⟨h.live.cleared perf, h.state, h.unstuck, h.tables⟩

/-- The bus writes of a submission. -/
def programEvents (src dst len : Word) (irqEnable : Int) : List SocEvent :=
  [.write vlabDmaSrc src, .write vlabDmaDst dst, .write vlabDmaLen len,
    .write vlabDmaCtrl (ctrlWord irqEnable)]

theorem dmaProgram_run (h : Live p) (src dst len : Word) (irqEnable : Int) :
    dmaProgram p src dst len irqEnable =
      { p with gSoc := Runs.run socApply p.gSoc (programEvents src dst len irqEnable) } := by
  -- four register writes in a row
  have hcalls : dmaProgram p src dst len irqEnable = Runs.run appCall p
      [.mmioWrite vlabDmaSrc src, .mmioWrite vlabDmaDst dst, .mmioWrite vlabDmaLen len,
        .mmioWrite vlabDmaCtrl (ctrlWord irqEnable)] := rfl
  have hevents : [AppCall.mmioWrite vlabDmaSrc src, .mmioWrite vlabDmaDst dst,
      .mmioWrite vlabDmaLen len, .mmioWrite vlabDmaCtrl (ctrlWord irqEnable)].flatMap
      AppCall.events = programEvents src dst len irqEnable := rfl
  rw [hcalls, appRun_eq h, hevents]

theorem VlabTables.state {d : DmaDriver} (h : VlabTables d) (st : DmaState) (done err : Word) :
    VlabTables { d with sState := st, sDoneFlag := done, sErrLatch := err } :=
  ⟨h.map, h.mapN, h.caps, h.periphs, h.periphN⟩

/-- What a submission does on the bus are accesses. -/
theorem dmaProgram_accesses (h : Live p) (src dst len : Word) (irqEnable : Int) :
    ∃ es, (∀ e ∈ es, SocEvent.isAccess e) ∧ dmaProgram p src dst len irqEnable =
      { p with gSoc := Runs.run socApply p.gSoc es } :=
  ⟨programEvents src dst len irqEnable, by simp [programEvents, SocEvent.isAccess],
    dmaProgram_run h src dst len irqEnable⟩

/-- Before it, STATUS is polled. -/
theorem validate_accesses (h : Live p) (src dst len : Word) :
    ∃ es, (∀ e ∈ es, SocEvent.isAccess e) ∧ (validate p src dst len).2 =
      { p with gSoc := Runs.run socApply p.gSoc es } := by
  have hread : (halReadReg p vlabDmaStatus).2 =
      { p with gSoc := Runs.run socApply p.gSoc [.read vlabDmaStatus 0] } := by
    rw [halReadReg_eq h]
    rfl
  refine ⟨[.read vlabDmaStatus 0], by simp [SocEvent.isAccess], ?_⟩
  rw [← hread, validate]
  split_ifs <;> rfl

/-- `dma_submit`, whatever tables it checks against: bus accesses, and state and latches as
they were, or ACTIVE with both latches reset. -/
theorem dmaSubmit_outcome (h : Live p) (src dst len : Word) (irqEnable : Int) :
    ∃ es mask st done err, (∀ e ∈ es, e.isAccess) ∧
      (dmaSubmit p src dst len irqEnable).2 =
        { p with
          gSoc := Runs.run socApply p.gSoc es
          sIrqMasked := mask
          dma := { p.dma with sState := st, sDoneFlag := done, sErrLatch := err } } ∧
      ((st = p.dma.sState ∧ done = p.dma.sDoneFlag ∧ err = p.dma.sErrLatch) ∨
        (st = .active ∧ done = 0 ∧ err = 0)) := by
  rw [dmaSubmit, halIrqDisable]
  dsimp only
  by_cases hstate : p.dma.sState ≠ .idle
  · rw [if_pos hstate]
    exact ⟨[], _, _, _, _, by simp, rfl, Or.inl ⟨rfl, rfl, rfl⟩⟩
  rw [if_neg hstate]
  set p1 : Platform := ({ p with sIrqMasked := 1 } : Platform).setState .starting with hp1
  have hlive1 : Live p1 := ⟨h.inited, h.wired⟩
  obtain ⟨es, hes, hvalidate⟩ := validate_accesses hlive1 src dst len
  rw [hvalidate]
  by_cases hrc : (validate p1 src dst len).1 ≠ .ok
  · rw [if_pos hrc]
    exact ⟨es, _, .idle, _, _, hes, rfl, Or.inl ⟨(not_not.mp hstate).symm, rfl, rfl⟩⟩
  · have hlive2 : Live { p1 with
        gSoc := Runs.run socApply p1.gSoc es
        dma := { p1.dma with sDoneFlag := 0, sErrLatch := 0 } } :=
      ⟨h.inited, hlive1.wired.run es⟩
    obtain ⟨fs, hfs, hprogram⟩ := dmaProgram_accesses hlive2 src dst len irqEnable
    rw [if_neg hrc, hprogram, ← Runs.run_append]
    refine ⟨es ++ fs, _, .active, 0, 0, fun e he => ?_, rfl, Or.inr ⟨rfl, rfl, rfl⟩⟩
    exact (List.mem_append.mp he).elim (hes e) (hfs e)

theorem CallBoundary.submit (h : CallBoundary configured p) (src dst len : Word)
    (irqEnable : Int) : CallBoundary configured (dmaSubmit p src dst len irqEnable).2 := by
  obtain ⟨es, mask, st, done, err, hes, heq, hout⟩ := dmaSubmit_outcome h.live src dst len irqEnable
  rw [heq]
  refine ⟨⟨h.live.inited, h.live.wired.run es⟩, ?_, ?_, fun hc => (h.tables hc).state st done err⟩
  · rcases hout with ⟨hst, -⟩ | ⟨hst, -⟩
    · show st ∈ _
      rw [hst]
      exact h.state
    · show st ∈ _
      rw [hst]
      exact List.mem_cons_of_mem _ List.mem_cons_self
  · exact (h.live.wired.run_stuck fun e he => Or.inl (hes e he)).trans h.unstuck

theorem CallBoundary.recover (h : CallBoundary configured p) :
    CallBoundary configured (dmaRecover p) := by
  rcases dmaRecover_eq h.live with ⟨-, perf, heq⟩ | ⟨-, heq⟩
  · rw [heq]
    have hc := h.cleared perf
    exact ⟨⟨hc.live.inited, hc.live.wired⟩, List.mem_cons_self, hc.unstuck,
      fun hconf => (h.tables hconf).state .idle 0 0⟩
  · rw [heq]
    exact ⟨⟨h.live.inited, h.live.wired⟩, h.state, h.unstuck, h.tables⟩

theorem CallBoundary.isr (h : CallBoundary configured p) (line : Word) :
    CallBoundary configured (dmaIsr line p) := by
  obtain ⟨perf, heq⟩ := dmaIsr_eq h.live line
  rw [heq]
  have hc := h.cleared perf
  refine ⟨⟨hc.live.inited, hc.live.wired⟩, ?_, hc.unstuck, fun hconf => ?_⟩
  · -- COMPLETE, ERROR, or the state before
    unfold DmaDriver.served
    split_ifs
    · simp
    · simp
    · exact h.state
  · exact (h.tables hconf).served p.gSoc.dma

/-- Both initialisations install the tables and leave driver state and engine alone. -/
theorem driverInit_eq (h : Live p) (i : DriverInit) :
    Live (driverInit p i) ∧ VlabTables (driverInit p i).dma ∧
      (driverInit p i).gSoc.dma = p.gSoc.dma ∧ (driverInit p i).dma.sState = p.dma.sState := by
  cases i with
  | dmaInit => exact ⟨⟨h.inited, h.wired⟩, dmaInit_tables p, rfl, rfl⟩
  | platformInit =>
    have hsame := platformInit_sameDma h
    have hstate : (platformInit p).dma.sState = (dmaInit p).dma.sState :=
      congrArg DmaDriver.sState hsame.statics
    refine ⟨hsame.live, ?_, hsame.engine, hstate⟩
    rw [show (driverInit p .platformInit).dma = _ from hsame.statics]
    exact dmaInit_tables p

theorem CallBoundary.init (h : CallBoundary configured p) (i : DriverInit) :
    CallBoundary True (driverInit p i) := by
  obtain ⟨hlive, htables, hengine, hstate⟩ := driverInit_eq h.live i
  refine ⟨hlive, ?_, ?_, fun _ => htables⟩
  · rw [hstate]
    exact h.state
  · rw [hengine]
    exact h.unstuck

/-- `soc_host_boot`, also on a host that is not initialised yet. -/
theorem socHostBoot_eq (h : p.gInited = true → SocWired p.gSoc) :
    Live (socHostBoot p) ∧
      (socHostBoot p).gSoc.dma = socDmaReset (socHostEnsure p).gSoc.dma ∧
      (socHostBoot p).dma = p.dma := by
  have hlive := socHostEnsure_live p h
  have hstatics : (socHostEnsure p).dma = p.dma := by
    rw [socHostEnsure_frame]
  have hdma := socBoot_dma (socHostEnsure p).gSoc none 0
  have hwired := hlive.wired.boot none 0
  unfold socHostBoot
  dsimp only
  exact ⟨⟨hlive.inited, hwired⟩, hdma, hstatics⟩

/-- A reset leaves the engine in its reset state and the driver's statics alone. -/
theorem platformReset_eq (h : Live p) (r : PlatformReset) :
    Live (platformReset p r) ∧ (platformReset p r).gSoc.dma = socDmaReset p.gSoc.dma ∧
      (platformReset p r).dma = p.dma := by
  cases r with
  | hostBoot =>
    obtain ⟨hlive, hengine, hstatics⟩ := socHostBoot_eq (p := p) fun _ => h.wired
    rw [h.ensure] at hengine
    rw [platformReset]
    exact ⟨hlive, hengine, hstatics⟩
  | peripherals => exact ⟨⟨h.inited, h.wired.resetPeripherals⟩, rfl, rfl⟩

theorem CallBoundary.reset (h : CallBoundary configured p) (r : PlatformReset) :
    CallBoundary configured (platformReset p r) := by
  obtain ⟨hlive, hengine, hstatics⟩ := platformReset_eq h.live r
  refine ⟨hlive, ?_, ?_, ?_⟩
  · rw [hstatics]
    exact h.state
  · rw [hengine]
    rfl
  · rw [hstatics]
    exact h.tables

/-! ### Runs -/

/-- `dma_isr` or application code. -/
def HandlerKnown (f : IsrHandler A) : Prop :=
  f = dmaIsrHandler ∨ HandlerCalls (fun _ => True) f

/-- Every registered handler is known. -/
def Isr.handlersKnown (isr : Isr A) : Prop := ∀ l f, isr.sVectors l = some f → HandlerKnown f

/-- A run registers known handlers only. -/
def FwEvent.known : FwEvent A → Prop
  | .register _ (some f) => HandlerKnown f
  | _ => True

theorem Isr.handlersKnown.configure {isr : Isr A} (h : isr.handlersKnown) (nLines : Word) :
    (isrConfigure isr nLines).handlersKnown := by
  unfold isrConfigure
  split_ifs
  · exact h
  · intro l f hf
    exact absurd hf (by simp)

theorem Isr.handlersKnown.register {isr : Isr A} (h : isr.handlersKnown) (line : Word)
    {handler : Option (IsrHandler A)} (hnew : ∀ f, handler = some f → HandlerKnown f) :
    (isrRegister isr line handler).handlersKnown := by
  unfold isrRegister
  split_ifs
  · intro l f hf
    dsimp only at hf
    by_cases hl : l = line.toNat
    · rw [hl, Function.update_self] at hf
      exact hnew f hf
    · rw [Function.update_of_ne hl] at hf
      exact h l f hf
  · exact h

theorem CallBoundary.dispatch {m : Machine A} (hisr : m.isr.handlersKnown)
    (h : CallBoundary configured m.platform) :
    (isrDispatch m).2.isr.handlersKnown ∧ CallBoundary configured (isrDispatch m).2.platform := by
  have hacked : ∀ {p : Platform} (line : ℕ), CallBoundary configured p →
      CallBoundary configured (p.acked line) := fun line hp =>
    ⟨hp.live.acked line, hp.state, hp.unstuck, hp.tables⟩
  refine isrDispatch_rule
    (P := fun m => m.isr.handlersKnown ∧ CallBoundary configured m.platform)
    (fun m hm => hm.2.live) (fun m hm => ⟨hm.1, ?_⟩)
    (fun m line hm _ _ => ⟨hm.1, hacked line hm.2⟩) (fun m line hm _ _ => ⟨hm.1, ?_⟩) ⟨hisr, h⟩
  · exact ⟨hm.2.live.polled, hm.2.state, hm.2.unstuck, hm.2.tables⟩
  · -- the handler first, then the CLEAR write
    have hp := hacked line hm.2
    refine CallBoundary.write ?_ vlabIntcClear _
    dsimp only
    split
    · rename_i f hf
      rcases hm.1 _ f hf with rfl | hcalls
      · exact hp.isr (BitVec.ofNat 32 line)
      · obtain ⟨es, hes, heq⟩ := hcalls.events hp.live (BitVec.ofNat 32 line) m.app
        rw [heq]
        refine hp.events fun e he => ?_
        obtain ⟨c, -, hc⟩ := hes e he
        exact AppCall.events_kind hc
    · exact hp

theorem CallBoundary.apply {m : Machine A} (hisr : m.isr.handlersKnown)
    (h : CallBoundary configured m.platform) {e : FwEvent A} (he : e.known) :
    (machineApply m e).isr.handlersKnown ∧ CallBoundary configured (machineApply m e).platform := by
  cases e with
  | submit src dst len irqEnable => exact ⟨hisr, h.submit src dst len irqEnable⟩
  | dispatch => exact h.dispatch hisr
  | recover => exact ⟨hisr, h.recover⟩
  | app c =>
    refine ⟨hisr, ?_⟩
    show CallBoundary configured (appCall m.platform c)
    rw [appCall_eq h.live]
    exact h.events fun e hec => AppCall.events_kind hec
  | configure nLines => exact ⟨hisr.configure nLines, h⟩
  | register line handler =>
    refine ⟨hisr.register line fun f hf => ?_, h⟩
    subst hf
    exact he
  | reset r => exact ⟨hisr, h.reset r⟩
  | init i =>
    have hi := h.init i
    exact ⟨hisr, hi.live, hi.state, hi.unstuck, fun _ => hi.tables trivial⟩

theorem CallBoundary.run {m : Machine A} (hisr : m.isr.handlersKnown)
    (h : CallBoundary configured m.platform) {es : List (FwEvent A)} (hes : ∀ e ∈ es, e.known) :
    CallBoundary configured (Runs.run machineApply m es).platform := by
  have hrun := Runs.run_invariant machineApply
    (P := fun m => m.isr.handlersKnown ∧ CallBoundary configured m.platform)
    (fun m e he hm => hm.2.apply hm.1 he) hes ⟨hisr, h⟩
  exact hrun.2

theorem isrStart_handlersKnown : (isrStart : Isr A).handlersKnown :=
  fun _ _ hf => absurd hf (by simp [isrStart])

/-- The first boot is a call boundary, with no tables installed yet. -/
theorem machineBoot_boundary (gSoc : Soc) (app : A) :
    CallBoundary False (machineBoot gSoc app).platform := by
  obtain ⟨hlive, hengine, hstatics⟩ :=
    socHostBoot_eq (p := platformStart gSoc) fun h => absurd h Bool.false_ne_true
  refine ⟨hlive, ?_, ?_, False.elim⟩
  · rw [show (machineBoot gSoc app).platform.dma = _ from hstatics]
    exact List.mem_cons_self
  · rw [show (machineBoot gSoc app).platform.gSoc.dma = _ from hengine]
    rfl

/-- Reached by a run from the first boot and `dma_init`. -/
def FwReachable (m : Machine A) : Prop :=
  ∃ (gSoc : Soc) (app : A) (es : List (FwEvent A)), (∀ e ∈ es, e.known) ∧
    m = Runs.run machineApply (machineBoot gSoc app) (.init .dmaInit :: es)

theorem FwReachable.boundary {m : Machine A} (h : FwReachable m) :
    CallBoundary True m.platform := by
  obtain ⟨gSoc, app, es, hes, rfl⟩ := h
  have hinit := (machineBoot_boundary gSoc app).init .dmaInit
  exact hinit.run (m := machineApply (machineBoot gSoc app) (.init .dmaInit))
    isrStart_handlersKnown hes

end VlabSoc
