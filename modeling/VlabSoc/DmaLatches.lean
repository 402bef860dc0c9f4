/-
The driver's latches against its lifecycle state.

`DmaCall` is the public API of the DMA driver with the dispatcher, the controller's
mask and time.  All calls but a dispatch keep the latches in agreement with the state;
a dispatch keeps them exactly when it does not find an engine that ended the other way
than the state says (`LatchClash`).  `dma_latches_iff` puts this together over runs.
-/
import VlabSoc.DmaFinish

namespace VlabSoc

variable {A : Type}

/-! ### The API -/

/-- The public calls of the DMA driver, with the dispatcher, the mask and time. -/
inductive DmaCall
  | configure (map : Option (List MemoryRegion)) (n : Word) (caps : Option DmaCaps)
  | configurePeriph (eps : Option (List DmaPeriphEp)) (n : Word)
  | start (src dst len : Word) (irqEnable : Int)
  | submit (src dst len : Word) (irqEnable : Int)
  | clear
  | recover
  | dispatch
  | intcEnable (mask : Word)
  | hostStep (n : Word)

def dmaCall (m : Machine A) : DmaCall → Machine A
  | .configure map n caps =>
    { m with platform := { m.platform with dma := dmaConfigure m.platform.dma map n caps } }
  | .configurePeriph eps n =>
    { m with platform := { m.platform with dma := dmaConfigurePeriph m.platform.dma eps n } }
  | .start src dst len irqEnable =>
    { m with platform := (dmaStart m.platform src dst len irqEnable).2 }
  | .submit src dst len irqEnable =>
    { m with platform := (dmaSubmit m.platform src dst len irqEnable).2 }
  | .clear => { m with platform := dmaClear m.platform }
  | .recover => { m with platform := dmaRecover m.platform }
  | .dispatch => (isrDispatch m).2
  | .intcEnable mask => { m with platform := intcEnable m.platform mask }
  | .hostStep n => { m with platform := socHostStep m.platform n }

/-! ### What the calls do to the latches -/

/-- `dma_is_complete` tells COMPLETE, and `dma_latched_error` tells ERROR. -/
structure LatchesAgree (p : Platform) : Prop where
  complete : dmaIsComplete p = true ↔ dmaState p = .complete
  error : dmaLatchedError p ≠ 0 ↔ dmaState p = .error

/-- A dispatch about to serve the DMA line while the driver is COMPLETE and the engine shows
ERROR, or the driver in ERROR and the engine DONE. -/
def LatchClash (x : Machine A × DmaCall) : Prop :=
  let p := x.1.platform
  x.2 = .dispatch ∧ p.gSoc.intc.dmaReady = true ∧
    ((dmaState p = .complete ∧ p.gSoc.dma.error = true) ∨
      (dmaState p = .error ∧ p.gSoc.dma.done = true))

/-- What holds at every call boundary. -/
structure LatchBoundary (m : Machine A) : Prop where
  serves : m.isr.ServesDma AppCall.calm
  live : Live m.platform
  engine : DmaInv m.platform.gSoc.dma

/-- A call that only uses the bus: the driver's statics stay, the SoC goes through a run. -/
def BusOnly (p q : Platform) : Prop :=
  ∃ es, q = { p with gSoc := Runs.run socApply p.gSoc es }

theorem BusOnly.boundary {m : Machine A} {q : Platform} (h : LatchBoundary m)
    (hq : BusOnly m.platform q) : LatchBoundary { m with platform := q } := by
  obtain ⟨es, rfl⟩ := hq
  exact ⟨⟨h.serves.dma, h.serves.others⟩, h.live.run es, h.live.wired.dmaInv_run h.engine es⟩

theorem BusOnly.agree {p q : Platform} (h : LatchesAgree p) (hq : BusOnly p q) :
    LatchesAgree q := by
  obtain ⟨es, rfl⟩ := hq
  exact ⟨h.complete, h.error⟩

theorem BusOnly.trans {p q r : Platform} (hpq : BusOnly p q) (hqr : BusOnly q r) : BusOnly p r := by
  obtain ⟨es, rfl⟩ := hpq
  obtain ⟨fs, rfl⟩ := hqr
  exact ⟨es ++ fs, by rw [Runs.run_append]⟩

theorem Live.busOnly_write {p : Platform} (h : Live p) (addr val : Word) :
    BusOnly p (halWriteReg p addr val) := ⟨[.write addr val], halWriteReg_eq h addr val⟩

theorem Live.busOnly_validate {p : Platform} (h : Live p) (src dst len : Word) :
    BusOnly p (validate p src dst len).2 := by
  obtain ⟨es, -, heq⟩ := validate_accesses h src dst len
  exact ⟨es, heq⟩

theorem Live.busOnly_program {p : Platform} (h : Live p) (src dst len : Word) (irqEnable : Int) :
    BusOnly p (dmaProgram p src dst len irqEnable) := by
  obtain ⟨es, -, heq⟩ := dmaProgram_accesses h src dst len irqEnable
  exact ⟨es, heq⟩

theorem Live.busOnly_start {p : Platform} (h : Live p) (src dst len : Word) (irqEnable : Int) :
    BusOnly p (dmaStart p src dst len irqEnable).2 := by
  have hvalidate := h.busOnly_validate src dst len
  unfold dmaStart
  dsimp only
  split_ifs
  · exact hvalidate
  · obtain ⟨es, heq⟩ := hvalidate
    have hlive : Live (validate p src dst len).2 := by
      rw [heq]
      exact h.run es
    exact BusOnly.trans ⟨es, heq⟩ (hlive.busOnly_program src dst len irqEnable)

theorem Live.busOnly_app {p : Platform} (h : Live p) (c : AppCall) : BusOnly p (appCall p c) :=
  ⟨c.events, appCall_eq h c⟩

theorem DmaInv.cleared {d : SocDma DmaCtx} (h : DmaInv d) : DmaInv d.cleared :=
  h.write socPerfInit 0x14 1

theorem LatchBoundary.call {m : Machine A} (h : LatchBoundary m) (c : DmaCall) :
    LatchBoundary (dmaCall m c) := by
  -- no call but the dispatch touches the dispatcher
  have hkeep : ∀ {q : Platform}, Live q → DmaInv q.gSoc.dma →
      LatchBoundary { m with platform := q } := fun hq hd =>
    ⟨⟨h.serves.dma, h.serves.others⟩, hq, hd⟩
  cases c with
  | configure map n caps => exact hkeep ⟨h.live.inited, h.live.wired⟩ h.engine
  | configurePeriph eps n => exact hkeep ⟨h.live.inited, h.live.wired⟩ h.engine
  | start src dst len irqEnable => exact (h.live.busOnly_start src dst len irqEnable).boundary h
  | submit src dst len irqEnable =>
    obtain ⟨es, mask, st, done, err, -, heq, -⟩ := dmaSubmit_outcome h.live src dst len irqEnable
    rw [dmaCall, heq]
    exact hkeep ⟨h.live.inited, h.live.wired.run es⟩ (h.live.wired.dmaInv_run h.engine es)
  | clear => exact (h.live.busOnly_write vlabDmaIrqClear 1).boundary h
  | recover =>
    rcases dmaRecover_eq h.live with ⟨-, perf, heq⟩ | ⟨-, heq⟩
    · have hcleared := h.live.cleared perf
      rw [dmaCall, heq]
      exact hkeep ⟨hcleared.inited, hcleared.wired⟩ h.engine.cleared
    · rw [dmaCall, heq]
      exact hkeep ⟨h.live.inited, h.live.wired⟩ h.engine
  | dispatch =>
    obtain ⟨hserves, hlive, -, hengine⟩ := dispatch_dma h.serves h.live
    refine ⟨hserves, hlive, ?_⟩
    rw [dmaCall, hengine]
    split_ifs
    · exact h.engine.cleared
    · exact h.engine
  | intcEnable mask => exact (h.live.busOnly_app (.intcEnable mask)).boundary h
  | hostStep n => exact (h.live.busOnly_app (.hostStep n)).boundary h

/-- In COMPLETE with the flag set, what can be wrong is a latched error. -/
theorem latchesAgree_complete {q : Platform} (hstate : dmaState q = .complete)
    (hflag : dmaIsComplete q = true) : LatchesAgree q ↔ dmaLatchedError q = 0 := by
  constructor
  · intro hagree
    by_contra hlatch
    exact DmaState.noConfusion (hstate.symm.trans (hagree.error.mp hlatch))
  · intro hlatch
    refine ⟨iff_of_true hflag hstate, iff_of_false (not_not.mpr hlatch) ?_⟩
    rw [hstate]
    exact DmaState.noConfusion

/-- In ERROR with an error latched, what can be wrong is the flag. -/
theorem latchesAgree_error {q : Platform} (hstate : dmaState q = .error)
    (hlatch : dmaLatchedError q ≠ 0) : LatchesAgree q ↔ ¬ dmaIsComplete q = true := by
  constructor
  · intro hagree hflag
    exact DmaState.noConfusion (hstate.symm.trans (hagree.complete.mp hflag))
  · intro hflag
    refine ⟨iff_of_false hflag ?_, iff_of_true hlatch hstate⟩
    rw [hstate]
    exact DmaState.noConfusion

/-- Elsewhere both latches have to be clear. -/
theorem LatchesAgree.of_clear {q : Platform} (hcomplete : dmaState q ≠ .complete)
    (herror : dmaState q ≠ .error) (hflag : q.dma.sDoneFlag = 0) (hlatch : q.dma.sErrLatch = 0) :
    LatchesAgree q := by
  constructor
  · rw [dmaIsComplete, hflag]
    exact iff_of_false Bool.false_ne_true hcomplete
  · rw [dmaLatchedError, hlatch]
    exact iff_of_false (fun h0 => h0 rfl) herror

/-- The agreement is about three statics. -/
theorem LatchesAgree.of_eq {p q : Platform} (h : LatchesAgree p)
    (hstate : q.dma.sState = p.dma.sState) (hflag : q.dma.sDoneFlag = p.dma.sDoneFlag)
    (hlatch : q.dma.sErrLatch = p.dma.sErrLatch) : LatchesAgree q := by
  constructor
  · rw [dmaIsComplete, dmaState, hflag, hstate]
    exact h.complete
  · rw [dmaLatchedError, dmaState, hlatch, hstate]
    exact h.error

/-- The latches after `dma_isr`, by how the transfer ended. -/
theorem served_agree {p : Platform} (ha : LatchesAgree p) (hinv : DmaInv p.gSoc.dma) {q : Platform}
    (hq : q.dma = p.dma.served p.gSoc.dma) :
    LatchesAgree q ↔ ¬ ((dmaState p = .complete ∧ p.gSoc.dma.error = true) ∨
      (dmaState p = .error ∧ p.gSoc.dma.done = true)) := by
  rw [DmaDriver.served] at hq
  by_cases hdone : p.gSoc.dma.done = true
  · -- COMPLETE: a latched error must not be left over
    rw [if_pos hdone] at hq
    have hstate : dmaState q = .complete := by rw [dmaState, hq]
    have hflag : dmaIsComplete q = true := by
      rw [dmaIsComplete, hq]
      rfl
    have hlatch : dmaLatchedError q = dmaLatchedError p := by
      rw [dmaLatchedError, hq]
      rfl
    have hold : dmaLatchedError p = 0 ↔ ¬ dmaState p = .error :=
      not_not.symm.trans (not_congr ha.error)
    rw [latchesAgree_complete hstate hflag, hlatch, hold, hinv.done_not_error hdone, hdone]
    simp
  rw [if_neg hdone] at hq
  by_cases herr : p.gSoc.dma.error = true
  · -- ERROR: a done flag must not be left over
    rw [if_pos herr] at hq
    have hstate : dmaState q = .error := by rw [dmaState, hq]
    have hlatch : dmaLatchedError q ≠ 0 := by
      rw [dmaLatchedError, hq]
      exact hinv.errCode_iff.mpr herr
    have hflag : dmaIsComplete q = dmaIsComplete p := by
      rw [dmaIsComplete, hq]
      rfl
    have hnodone : p.gSoc.dma.done = false := Bool.eq_false_iff.mpr hdone
    rw [latchesAgree_error hstate hlatch, hflag, ha.complete, herr, hnodone]
    simp
  · -- neither: only the interrupt is counted
    rw [if_neg herr] at hq
    have hagree : LatchesAgree q := ha.of_eq (by rw [hq]) (by rw [hq]) (by rw [hq])
    refine iff_of_true hagree fun hclash => ?_
    exact hclash.elim (fun h0 => herr h0.2) fun h0 => hdone h0.2

/-- One call keeps the agreement exactly if it is no clash. -/
theorem LatchBoundary.agree_iff {m : Machine A} (h : LatchBoundary m) (ha : LatchesAgree m.platform)
    (c : DmaCall) : LatchesAgree (dmaCall m c).platform ↔ ¬ LatchClash (m, c) := by
  -- a clash is a dispatch: the other calls only have to keep the agreement
  have hother : c ≠ .dispatch → LatchesAgree (dmaCall m c).platform →
      (LatchesAgree (dmaCall m c).platform ↔ ¬ LatchClash (m, c)) := fun hne hagree =>
    iff_of_true hagree fun hclash => hne hclash.1
  cases c with
  | configure map n caps =>
    refine hother DmaCall.noConfusion ?_
    rw [dmaCall, dmaConfigure]
    dsimp only
    split_ifs <;> exact ha.of_eq rfl rfl rfl
  | configurePeriph eps n => exact hother DmaCall.noConfusion (ha.of_eq rfl rfl rfl)
  | start src dst len irqEnable =>
    exact hother DmaCall.noConfusion ((h.live.busOnly_start src dst len irqEnable).agree ha)
  | submit src dst len irqEnable =>
    refine hother DmaCall.noConfusion ?_
    obtain ⟨es, mask, st, done, err, -, heq, hout⟩ := dmaSubmit_outcome h.live src dst len irqEnable
    rw [dmaCall, heq]
    rcases hout with ⟨hstate, hdone, herr⟩ | ⟨hstate, hdone, herr⟩
    · exact ha.of_eq hstate hdone herr
    · -- ACTIVE, with both latches reset
      subst hstate
      exact LatchesAgree.of_clear DmaState.noConfusion DmaState.noConfusion hdone herr
  | clear => exact hother DmaCall.noConfusion ((h.live.busOnly_write vlabDmaIrqClear 1).agree ha)
  | recover =>
    refine hother DmaCall.noConfusion ?_
    rcases dmaRecover_eq h.live with ⟨-, perf, heq⟩ | ⟨-, heq⟩
    · -- back to IDLE
      rw [dmaCall, heq]
      exact LatchesAgree.of_clear DmaState.noConfusion DmaState.noConfusion rfl rfl
    · rw [dmaCall, heq]
      exact ha.of_eq rfl rfl rfl
  | dispatch =>
    obtain ⟨-, -, hstatics, -⟩ := dispatch_dma h.serves h.live
    cases hready : m.platform.gSoc.intc.dmaReady with
    | false =>
      -- `dma_isr` is not called
      rw [hready, if_neg Bool.false_ne_true] at hstatics
      have hagree : LatchesAgree (dmaCall m .dispatch).platform :=
        ha.of_eq (by rw [dmaCall, hstatics]) (by rw [dmaCall, hstatics])
          (by rw [dmaCall, hstatics])
      exact iff_of_true hagree fun hclash => Bool.false_ne_true (hready.symm.trans hclash.2.1)
    | true =>
      rw [hready, if_pos rfl] at hstatics
      rw [dmaCall, served_agree ha h.engine hstatics, not_iff_not]
      exact ⟨fun hclash => ⟨rfl, hready, hclash⟩, fun hclash => hclash.2.2⟩
  | intcEnable mask =>
    exact hother DmaCall.noConfusion ((h.live.busOnly_app (.intcEnable mask)).agree ha)
  | hostStep n => exact hother DmaCall.noConfusion ((h.live.busOnly_app (.hostStep n)).agree ha)

/-! ### Runs -/

/-- The machine after its first boot and `dma_init`, with the dispatcher configured. -/
def machineInit (gSoc : Soc) (app : A) (isr : Isr A) : Machine A where
  platform := dmaInit (socHostBoot (platformStart gSoc))
  app := app
  isr := isr

theorem machineInit_boundary (gSoc : Soc) (app : A) {isr : Isr A}
    (hisr : isr.ServesDma AppCall.calm) :
    LatchBoundary (machineInit gSoc app isr) ∧ LatchesAgree (machineInit gSoc app isr).platform := by
  obtain ⟨hlive, hdma, hstatics⟩ := socHostBoot_eq (p := platformStart gSoc) fun h0 =>
    absurd h0 Bool.false_ne_true
  refine ⟨⟨⟨hisr.dma, hisr.others⟩, ⟨hlive.inited, hlive.wired⟩, ?_⟩, ⟨?_, ?_⟩⟩
  · show DmaInv (socHostBoot (platformStart gSoc)).gSoc.dma
    rw [hdma]
    exact DmaInv.reset _
  · exact iff_of_false Bool.false_ne_true DmaState.noConfusion
  · exact iff_of_false (fun h0 => h0 rfl) DmaState.noConfusion

/-- Over every interleaving of the API from boot and `dma_init`, the latches agree with the
lifecycle state at every call boundary exactly if no dispatch clashes. -/
theorem dma_latches_iff (gSoc : Soc) (app : A) {isr : Isr A} (hisr : isr.ServesDma AppCall.calm)
    (calls : List DmaCall) :
    (∀ pre, pre <+: calls →
      LatchesAgree (Runs.run dmaCall (machineInit gSoc app isr) pre).platform) ↔
    ∀ x ∈ Runs.stages dmaCall (machineInit gSoc app isr) calls, ¬ LatchClash x := by
  obtain ⟨hboundary, hagree⟩ := machineInit_boundary gSoc app hisr
  have hall : ∀ c ∈ calls, True := fun _ _ => trivial
  exact Runs.run_always_iff dmaCall (fun m : Machine A => LatchesAgree m.platform) LatchClash
    (A := fun _ => True) (fun _ c _ hm => LatchBoundary.call hm c)
    (fun _ c _ hm hb => hm.agree_iff hb c) hall hboundary hagree

/-- The dispatcher with nothing but `dma_isr` in it. -/
def isrDma : Isr Unit := isrRegister isrStart vlabIrqDma (some dmaIsrHandler)

theorem isrDma_serves : isrDma.ServesDma AppCall.calm :=
  isrRegister_serves (by decide) (by simp [isrStart])

/-- One word submitted, ended and dispatched. -/
theorem dma_latches_iff_word :
    LatchesAgree (Runs.run dmaCall (machineInit default () isrDma)
      [.intcEnable 4, .submit vlabSramBase (vlabSramBase + 0x100) 4 1, .hostStep 1,
        .dispatch]).platform := by
  refine (dma_latches_iff default () isrDma_serves _).mpr (fun x hx => ?_) _ (List.prefix_refl _)
  have hsafe : ∀ x ∈ Runs.stages dmaCall (machineInit default () isrDma)
      [.intcEnable 4, .submit vlabSramBase (vlabSramBase + 0x100) 4 1, .hostStep 1, .dispatch],
      x.1.platform.dma.sState ≠ .complete ∧ x.1.platform.dma.sState ≠ .error := by
    decide +kernel
  rintro ⟨-, -, ⟨hstate, -⟩ | ⟨hstate, -⟩⟩
  · exact (hsafe x hx).1 hstate
  · exact (hsafe x hx).2 hstate

/-- A descriptor that only a driver without a length limit takes, its failure dispatched, and
then a successful `dma_start`. -/
def errorThenStart : List DmaCall :=
  [.intcEnable 4, .configure none 0 (some { vlabDmaCaps with maxTransfer := 0 }),
    .submit vlabSramBase (vlabSramBase + 0x8000) 0x4004 1, .dispatch,
    .start vlabSramBase (vlabSramBase + 0x100) 4 1, .hostStep 1, .dispatch]

/-- The driver is COMPLETE with the old error still latched. -/
theorem dma_latches_stale :
    dmaState (Runs.run dmaCall (machineInit default () isrDma) errorThenStart).platform =
        .complete ∧
      ¬ LatchesAgree (Runs.run dmaCall (machineInit default () isrDma) errorThenStart).platform := by
  have hstate : dmaState (Runs.run dmaCall (machineInit default () isrDma)
      errorThenStart).platform = .complete := by decide +kernel
  have hlatch : dmaLatchedError (Runs.run dmaCall (machineInit default () isrDma)
      errorThenStart).platform ≠ 0 := by decide +kernel
  refine ⟨hstate, fun hagree => ?_⟩
  exact DmaState.noConfusion (hstate.symm.trans (hagree.error.mp hlatch))

end VlabSoc
