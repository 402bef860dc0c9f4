/-
The engine of a wired SoC through the life of one transfer, with the DMA line of
the interrupt controller: `Moving` until the completing tick, `Ended` after it,
`Resting` once its flags are cleared.

* `SocWired.tick_moving` — a tick of a transfer on its way;
* `apply_engine_still` — every other event that leaves the DMA to its driver;
* `LifecycleMatches.run` — the correspondence of the driver's state with the engine
  and the pending bit, over runs of such events.
-/
import VlabSoc.DmaCompletion
import VlabSoc.Firmware

namespace VlabSoc

/-- The pending bit of the DMA line. -/
def SocIntc.dmaPending (ic : SocIntc) : Bool := ic.pending.getLsbD socIrqDma

/-- The enable bit of the DMA line. -/
def SocIntc.dmaEnabled (ic : SocIntc) : Bool := ic.enable.getLsbD socIrqDma

/-- A valid descriptor is being transferred; `irq` tells whether its end is raised. -/
structure Moving (irq : Bool) (d : SocDma DmaCtx) : Prop where
  busy : d.busy = true
  done : d.done = false
  error : d.error = false
  latched : d.irqEnableLatched = irq
  valid : VlabValid d.src d.dst d.length

/-- The transfer is over and its DONE not cleared yet. -/
structure Ended (d : SocDma DmaCtx) : Prop where
  busy : d.busy = false
  done : d.done = true
  error : d.error = false

/-- Not BUSY, DONE and ERROR clear. -/
structure Resting (d : SocDma DmaCtx) : Prop where
  busy : d.busy = false
  done : d.done = false
  error : d.error = false

/-! ### Ticks -/

/-- UART and TIMER raise their own lines only. -/
theorem socTickFront_intc (s : Soc) :
    (socTickFront s).intc.dmaPending = s.intc.dmaPending ∧
      (socTickFront s).intc.enable = s.intc.enable := by
  rw [socTickFront_frame]
  dsimp only
  rw [socIntcRaiseAll_enable, socIntcRaiseAll_enable, SocIntc.dmaPending, socIntcRaiseAll_pending,
    socIntcRaiseAll_pending]
  have huart : ((socIrqDma : ℕ) : Int) ∉ (socUartStep s.uart).2 := fun h =>
    absurd (socUartStep_raises h) (by decide)
  have htimer : ((socIrqDma : ℕ) : Int) ∉ (socTimerStep s.timer).2 := fun h =>
    absurd (socTimerStep_raises h) (by decide)
  rw [decide_eq_false fun h => huart h.1, decide_eq_false fun h => htimer h.1, Bool.or_false,
    Bool.or_false]
  exact ⟨rfl, rfl⟩

/-- A tick with the engine not BUSY leaves it, and the DMA line, alone. -/
theorem socTick_still {s : Soc} (h : s.dma.busy = false) :
    (socTick s).dma = s.dma ∧ (socTick s).intc.dmaPending = s.intc.dmaPending ∧
      (socTick s).intc.enable = s.intc.enable := by
  have hidle : socTick s = socTickFront s := socTickDma_idle (Or.inl h)
  rw [hidle]
  exact ⟨rfl, socTickFront_intc s⟩

/-- A tick of a transfer on its way: it goes on, or ends with DONE and the raise its
START asked for. -/
theorem SocWired.tick_moving {s : Soc} (h : SocWired s) {irq : Bool} (hm : Moving irq s.dma) :
    (socTick s).intc.enable = s.intc.enable ∧
    ((Moving irq (socTick s).dma ∧ (socTick s).intc.dmaPending = s.intc.dmaPending) ∨
      (Ended (socTick s).dma ∧ (socTick s).intc.dmaPending = (s.intc.dmaPending || irq))) := by
  obtain ⟨hpending, henable⟩ := socTickFront_intc s
  have hdma : (socTickFront s).dma = s.dma := rfl
  rw [← hdma] at hm
  rcases h.tickFront.tickDma_cases with ⟨-, heq⟩ | ⟨-, -, -, heq⟩ | ⟨-, hno, -⟩ | ⟨-, -, hno, -⟩ |
    ⟨hend, -, -, -⟩
  · rw [show socTick s = _ from heq]
    exact ⟨henable, Or.inl ⟨hm, hpending⟩⟩
  · rw [show socTick s = _ from heq]
    exact ⟨henable, Or.inl ⟨⟨hm.busy, hm.done, hm.error, hm.latched, hm.valid⟩, hpending⟩⟩
  · exact absurd hm.valid.reads hno
  · exact absurd hm.valid.writes hno
  · -- a valid descriptor ends in DONE
    have ht := h.tickFront.tickDma_valid hm.busy hend.2.1 hend.2.2 hm.valid
    have hintc := ht.intc
    rw [hm.latched] at hintc
    rw [SocIntc.dmaPending, show (socTick s).intc = _ from hintc,
      show (socTick s).dma = _ from ht.status]
    refine ⟨henable, Or.inr ⟨⟨rfl, rfl, rfl⟩, ?_⟩⟩
    cases irq with
    | false =>
      rw [Bool.or_false]
      exact hpending
    | true =>
      rw [Bool.or_true, if_pos rfl, BitVec.getLsbD_or,
        show ((1 : Word) <<< socIrqDma).getLsbD socIrqDma = true from by decide, Bool.or_true]

/-! ### Events that leave the DMA to its driver -/

/-- Ticks, raised lines, reads but of INTC_ACK, writes but to DMA registers. -/
def SocEvent.quiet : SocEvent → Prop
  | .read addr _ => addr ≠ vlabIntcAck
  | .write addr _ => addr ∉ dmaRegs
  | .tick => True
  | .raise _ => True
  | _ => False

/-- The quiet events that take no time, raise nothing and do not mask a line. -/
def SocEvent.calm : SocEvent → Prop
  | .read addr _ => addr ≠ vlabIntcAck
  | .write addr _ => addr ∉ dmaRegs ∧ addr ≠ vlabIntcEnable
  | _ => False

theorem socIntcRaise_dmaPending (ic : SocIntc) (line : Int) (h : ic.dmaPending = true) :
    (socIntcRaise ic line).dmaPending = true := by
  rw [SocIntc.dmaPending, socIntcRaise_pending]
  rw [SocIntc.dmaPending] at h
  rw [h, Bool.true_or]

/-- A quiet event but a tick leaves the engine alone and keeps the DMA line pending. -/
theorem apply_engine_still {s : Soc} {e : SocEvent} (he : e.quiet) (ht : e.isTick = false) :
    (socApply s e).dma = s.dma ∧
      (s.intc.dmaPending = true → (socApply s e).intc.dmaPending = true) := by
  cases e with
  | read addr out =>
    refine ⟨socRead_dma s addr out, fun h => ?_⟩
    rw [show (socApply s (.read addr out)).intc = _ from socRead_intc he s out]
    exact h
  | write addr value =>
    refine ⟨socWrite_dma he s value, fun h => ?_⟩
    rw [SocIntc.dmaPending, show (socApply s (.write addr value)).intc.pending = _ from
      (socWrite_intc he s value).1]
    exact h
  | raise line => exact ⟨rfl, socIntcRaise_dmaPending s.intc line⟩
  | tick => exact absurd ht (by decide)
  | _ => exact absurd he id

/-- A calm run leaves the engine and both bits of the DMA line alone. -/
theorem calm_run {s : Soc} {es : List SocEvent} (hes : ∀ e ∈ es, e.calm) :
    (Runs.run socApply s es).dma = s.dma ∧
      (Runs.run socApply s es).intc.pending = s.intc.pending ∧
      (Runs.run socApply s es).intc.enable = s.intc.enable := by
  refine Runs.run_invariant socApply (P := fun t => t.dma = s.dma ∧
    t.intc.pending = s.intc.pending ∧ t.intc.enable = s.intc.enable) (A := SocEvent.calm) ?_ hes
    ⟨rfl, rfl, rfl⟩
  rintro t e he ⟨hdma, hpending, henable⟩
  cases e with
  | read addr out =>
    have hintc : (socApply t (.read addr out)).intc = t.intc := socRead_intc he t out
    rw [hintc]
    exact ⟨(socRead_dma t addr out).trans hdma, hpending, henable⟩
  | write addr value =>
    obtain ⟨h1, h2⟩ := socWrite_intc he.1 t value
    exact ⟨(socWrite_dma he.1 t value).trans hdma, h1.trans hpending, (h2 he.2).trans henable⟩
  | _ => exact absurd he id

/-! ### The driver's state against the hardware -/

/-- What the driver's lifecycle state says about the engine and the DMA line.
STARTING, ERROR and RECOVERY are in no correspondence. -/
def LifecycleMatches (s : Soc) : DmaState → Prop
  | .idle => Resting s.dma
  | .complete => Resting s.dma
  | .active => Moving true s.dma ∨ (Ended s.dma ∧ s.intc.dmaPending = true)
  | _ => False

theorem LifecycleMatches.of_eq {s t : Soc} {st : DmaState} (h : LifecycleMatches s st)
    (hdma : t.dma = s.dma) (hpending : s.intc.dmaPending = true → t.intc.dmaPending = true) :
    LifecycleMatches t st := by
  cases st with
  | idle => rwa [LifecycleMatches, hdma]
  | complete => rwa [LifecycleMatches, hdma]
  | active =>
    rw [LifecycleMatches, hdma]
    exact h.imp_right fun hend => ⟨hend.1, hpending hend.2⟩
  | _ => exact absurd h id

theorem LifecycleMatches.tick {s : Soc} {st : DmaState} (h : LifecycleMatches s st)
    (hw : SocWired s) : LifecycleMatches (socTick s) st := by
  have hstill : s.dma.busy = false → LifecycleMatches (socTick s) st := fun hidle => by
    obtain ⟨hdma, hpending, -⟩ := socTick_still hidle
    exact h.of_eq hdma fun hp => hpending.trans hp
  cases st with
  | idle => exact hstill (Resting.busy h)
  | complete => exact hstill (Resting.busy h)
  | active =>
    rcases h with hm | ⟨hend, hp⟩
    · rcases (hw.tick_moving hm).2 with ⟨hm', -⟩ | ⟨hend, hp⟩
      · exact Or.inl hm'
      · exact Or.inr ⟨hend, by rw [hp, Bool.or_true]⟩
    · exact hstill hend.busy
  | _ => exact absurd h id

theorem LifecycleMatches.run {s : Soc} {st : DmaState} (h : LifecycleMatches s st)
    (hw : SocWired s) {es : List SocEvent} (hes : ∀ e ∈ es, e.quiet) :
    LifecycleMatches (Runs.run socApply s es) st := by
  have hrun := Runs.run_invariant socApply (P := fun t => SocWired t ∧ LifecycleMatches t st)
    (fun t e he ht => ⟨ht.1.apply e, ?_⟩) hes ⟨hw, h⟩
  · exact hrun.2
  · cases hk : e.isTick with
    | true =>
      cases e with
      | tick => exact ht.2.tick ht.1
      | _ => exact absurd hk (by simp [SocEvent.isTick])
    | false =>
      obtain ⟨hdma, hpending⟩ := apply_engine_still (s := t) he hk
      exact ht.2.of_eq hdma hpending

end VlabSoc
