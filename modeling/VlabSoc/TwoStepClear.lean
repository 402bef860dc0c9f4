/-
What the two-step clear of the DMA driver leaves.

`dma_clear` clears the flags of the engine and `intc_clear` the ACTIVE bit of its
line.  A PENDING bit that no ACK has taken stays (`two_step_clear_iff`), and the next
dispatch that has the line enabled serves it (`two_step_clear_stale`).
-/
import VlabSoc.DriverCalls
import VlabSoc.Isr
import VlabSoc.IntcTrace

namespace VlabSoc

/-- In the run nothing raises line 2. -/
def NoDmaRaise (s : Soc) (es : List SocEvent) : Prop :=
  ∀ x ∈ Runs.stages socApply s es, (socIrqDma : Int) ∉ socRaises x.1 x.2

/-- The DMA side is clean: registers, controller, and every later pass of `isr_dispatch`
until line 2 is raised again. -/
structure TwoStepClean (q : Platform) : Prop where
  status : (halReadReg q vlabDmaStatus).1 = 0
  errCode : (halReadReg q vlabDmaErrCode).1 = 0
  inactive : q.gSoc.intc.active.getLsbD socIrqDma = false
  notPending : q.gSoc.intc.pending.getLsbD socIrqDma = false
  noIsr : ∀ es, NoDmaRaise q.gSoc es → ∀ (A : Type) (m : Machine A), m.platform.gInited = true →
    m.platform.gSoc = Runs.run socApply q.gSoc es → isrNext m ≠ some vlabIrqDma

/-- Without a raise the line stays as it was, not pending. -/
theorem SocWired.not_pending_run {s : Soc} (h : SocWired s)
    (hp : s.intc.pending.getLsbD socIrqDma = false) {es : List SocEvent} (hes : NoDmaRaise s es) :
    (Runs.run socApply s es).intc.pending.getLsbD socIrqDma = false := by
  have hall : ∀ e ∈ es, True := fun _ _ => trivial
  have hlatch := Runs.run_latch socApply (fun t => t.intc.pending.getLsbD socIrqDma = true)
    (fun x => (socIrqDma : Int) ∈ socRaises x.1 x.2)
    (fun x => socAcks socIrqDma x = true ∨ x.2.resets = true) (A := fun _ => True)
    (fun _ e _ ht => SocWired.apply ht e)
    (fun _ e _ ht => ht.apply_pending (by decide) e) hall h
  refine Bool.eq_false_iff.mpr fun hset => ?_
  -- a bit that is set was set before the run, or raised in it
  rcases hlatch.mp hset with ⟨hbefore, -⟩ | ⟨pre, e, post, rfl, hraise, -⟩
  · exact Bool.false_ne_true (hp.symm.trans hbefore)
  · exact hes _ (Runs.mem_stages.mpr ⟨pre, post, rfl, rfl⟩) hraise

/-- A dispatch calls `dma_isr` only with line 2 pending. -/
theorem isrNext_pending {A : Type} {m : Machine A} (h : Live m.platform)
    (hnext : isrNext m = some vlabIrqDma) :
    m.platform.gSoc.intc.pending.getLsbD socIrqDma = true := by
  obtain ⟨line, hl, htop, hnat, -⟩ := isrNext_some h hnext
  -- the word read back is the number of the line
  obtain rfl : socIrqDma = line := hnat
  exact ((socIntcHighest_iff _ hl).mp htop).1.1

/-- The two-step clear leaves the DMA side clean exactly if line 2 is not PENDING when it is
called; for every history of a SoC whose engine is not BUSY. -/
theorem two_step_clear_iff {p : Platform} (hinit : p.gInited = true) (hreach : SocReachable p.gSoc)
    (hidle : p.gSoc.dma.busy = false) :
    TwoStepClean (intcClear (dmaClear p) vlabIrqDma) ↔
      p.gSoc.intc.pending.getLsbD socIrqDma = false := by
  have h : Live p := ⟨hinit, hreach.wired⟩
  obtain ⟨perf, heq⟩ := twoStepClear_eq h
  have hq := h.cleared perf
  rw [heq]
  constructor
  · intro hclean
    exact hclean.notPending
  · intro hp
    refine ⟨?_, ?_, ?_, hp, fun es hes A m hm hsoc hnext => ?_⟩
    · rw [hq.read_status]
      have hbusy : p.gSoc.dma.cleared.busy = false := hidle
      have hdone : p.gSoc.dma.cleared.done = false := rfl
      have herror : p.gSoc.dma.cleared.error = false := rfl
      show socDmaStatus p.gSoc.dma.cleared = 0
      rw [socDmaStatus, hbusy, hdone, herror]
      rfl
    · rw [hq.read_dmaReg (by decide)]
      rfl
    · -- the second step: CLEAR of line 2
      have hbit := getLsbD_clear p.gSoc.intc.active (l := socIrqDma) (k := socIrqDma) (by decide)
      exact hbit.trans (by simp)
    · -- without a raise there is nothing for a later ACK to answer
      have hrun : Live m.platform := ⟨hm, by rw [hsoc]; exact hq.wired.run es⟩
      have hset := isrNext_pending hrun hnext
      rw [hsoc, hq.wired.not_pending_run hp hes] at hset
      exact Bool.false_ne_true hset

/-- A START that was rejected without an interrupt. -/
theorem two_step_clear_iff_rejected :
    TwoStepClean (intcClear (dmaClear { platformStart default with
      gSoc := (socWrite (socInit default none) vlabDmaCtrl 0x1).soc, gInited := true }) vlabIrqDma) :=
  (two_step_clear_iff rfl ⟨default, none, [.write vlabDmaCtrl 0x1], rfl⟩ (by decide +kernel)).mpr
    (by decide +kernel)

/-- One word moved with IRQ_ENABLE, its end seen by polling. -/
def polledDone : Platform :=
  { platformStart default with
    gSoc := Runs.run socApply (socInit default none) [.write vlabDmaSrc vlabSramBase,
      .write vlabDmaDst (vlabSramBase + 0x100), .write vlabDmaLen 4, .write vlabDmaCtrl 0x3, .tick]
    gInited := true }

/-- The interrupt of the polled transfer outlives the two-step clear, and the next dispatch
with line 2 enabled calls `dma_isr` for it. -/
theorem two_step_clear_stale :
    SocReachable polledDone.gSoc ∧ polledDone.gSoc.dma.busy = false ∧
      ¬ TwoStepClean (intcClear (dmaClear polledDone) vlabIrqDma) ∧
      isrNext (⟨intcEnable (intcClear (dmaClear polledDone) vlabIrqDma) 0x4, (), isrStart⟩ :
        Machine Unit) = some vlabIrqDma := by
  refine ⟨⟨default, none, _, rfl⟩, by decide +kernel, fun hclean => ?_, by decide +kernel⟩
  have hset : (intcClear (dmaClear polledDone) vlabIrqDma).gSoc.intc.pending.getLsbD socIrqDma =
      true := by decide +kernel
  exact Bool.false_ne_true (hclean.notPending.symm.trans hset)

end VlabSoc
