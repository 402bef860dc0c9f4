/-
Getting the DMA driver back to IDLE.

ACTIVE has one way out, `dma_isr` finding DONE.  After a reset DONE never comes, so
reset, re-initialisation and `dma_recover` end in IDLE exactly for a driver that was
not ACTIVE (`reset_recovers_iff`).
-/
import VlabSoc.DmaLifecycle

namespace VlabSoc

variable {A : Type} {p : Platform}

/-- The driver is IDLE, and every valid descriptor is accepted and starts the engine. -/
def Recovered (p : Platform) : Prop :=
  dmaState p = .idle ∧ ∀ src dst len irqEnable, VlabValid src dst len →
    let r := dmaSubmit p src dst len irqEnable
    let d := r.2.gSoc.dma
    r.1 = .ok ∧ d.busy = true ∧ d.src = src ∧ d.dst = dst ∧ d.length = len

/-- The driver in IDLE over an engine that is not BUSY. -/
theorem recovered_of_idle (h : Live p) (ht : VlabTables p.dma) (hstate : dmaState p = .idle)
    (hidle : p.gSoc.dma.busy = false) : Recovered p := by
  refine ⟨hstate, fun src dst len irqEnable hvalid => ?_⟩
  obtain ⟨perf, heq⟩ := dmaSubmit_accepted h ht hstate hidle hvalid irqEnable
  rw [heq]
  exact ⟨rfl, rfl, rfl, rfl, rfl⟩

/-- From any state a driver call can leave, after any run from the first boot: reset,
re-initialisation and `dma_recover` give back a usable driver exactly if it was not
ACTIVE when the reset came. -/
theorem reset_recovers_iff (gSoc : Soc) (app : A) {es : List (FwEvent A)}
    (hes : ∀ e ∈ es, e.known) (r : PlatformReset) (i : DriverInit) :
    let p := (Runs.run machineApply (machineBoot gSoc app) es).platform
    Recovered (dmaRecover (driverInit (platformReset p r) i)) ↔ dmaState p ≠ .active := by
  intro p
  have hp : CallBoundary False p :=
    (machineBoot_boundary gSoc app).run isrStart_handlersKnown hes
  obtain ⟨hlive, hengine, hstatics⟩ := platformReset_eq hp.live r
  obtain ⟨hlive', htables, hengine', hstate⟩ := driverInit_eq hlive i
  set q := driverInit (platformReset p r) i
  have hq : q.dma.sState = p.dma.sState := hstate.trans (congrArg DmaDriver.sState hstatics)
  have hidle : q.gSoc.dma.busy = false := by
    rw [hengine', hengine]
    rfl
  have hmem := hp.state
  rcases dmaRecover_eq hlive' with ⟨hout, perf, heq⟩ | ⟨hin, heq⟩
  · -- COMPLETE or ERROR: recovered
    have hc := hlive'.cleared perf
    rw [hq] at hout
    refine iff_of_true ?_ fun hactive => ?_
    · rw [heq]
      exact recovered_of_idle ⟨hc.inited, hc.wired⟩ (htables.state .idle 0 0) rfl hidle
    · rw [show p.dma.sState = .active from hactive] at hout
      simp at hout
  · rw [hq] at hin
    rw [heq]
    constructor
    · -- ACTIVE: `dma_recover` leaves it there
      intro hrec hactive
      have hst : q.dma.sState = .idle := hrec.1
      rw [hq, show p.dma.sState = .active from hactive] at hst
      exact absurd hst (by decide)
    · intro hactive
      have hst : p.dma.sState = .idle := by
        simp only [List.mem_cons, List.not_mem_nil, or_false] at hmem
        rcases hmem with h | h | h | h
        · exact h
        · exact absurd h hactive
        · exact absurd (Or.inr h) hin
        · exact absurd (Or.inl h) hin
      exact recovered_of_idle ⟨hlive'.inited, hlive'.wired⟩ htables (hq.trans hst) hidle

/-- A reset between a completion and its recovery. -/
theorem reset_recovers_complete :
    let es : List (FwEvent Unit) := [.init .dmaInit, .register vlabIrqDma (some dmaIsrHandler),
      .app (.intcEnable 4), .submit 0x10000000 0x10000010 4 1, .app (.hostStep 1), .dispatch]
    let p := (Runs.run machineApply (machineBoot default ()) es).platform
    dmaState p = .complete ∧
      Recovered (dmaRecover (driverInit (platformReset p .hostBoot) .platformInit)) :=
  ⟨by decide, (reset_recovers_iff default () (by simp [FwEvent.known, HandlerKnown]) .hostBoot
    .platformInit).mpr (by decide)⟩

/-- A reset in the middle of a transfer strands the driver in ACTIVE. -/
theorem reset_strands_active :
    ¬ ∀ (gSoc : Soc) (es : List (FwEvent Unit)), (∀ e ∈ es, e.known) →
      ∀ (r : PlatformReset) (i : DriverInit),
        Recovered (dmaRecover (driverInit (platformReset
          (Runs.run machineApply (machineBoot gSoc ()) es).platform r) i)) := by
  intro h
  have hrec := h default [.init .dmaInit, .submit 0x10000000 0x10000010 4 1]
    (by simp [FwEvent.known]) .peripherals .dmaInit
  exact absurd hrec.1 (by decide)

end VlabSoc
