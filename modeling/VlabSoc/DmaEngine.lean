/-
The state invariant of the DMA engine over every run of register writes, ticks,
stuck-latch toggles and resets.

`DmaInv` is kept by each operation (`DmaInv.write`, `DmaInv.step`, `DmaInv.reset`),
for any tables, any timing and any callbacks, as long as both callbacks are
installed.  `dma_flags_sticky` is the other half: an operation that is no START,
no IRQ_CLEAR write and no reset keeps DONE, ERROR and ERR_CODE once one is set.
-/
import VlabSoc.Runs
import VlabSoc.SocDma

namespace VlabSoc

variable {M : Type}

/-- Flags, error code, countdown and stored CTRL of the engine agree. -/
structure DmaInv (d : SocDma M) : Prop where
  busy_not_done : d.busy = true → d.done = false
  busy_not_error : d.busy = true → d.error = false
  done_not_error : d.done = true → d.error = false
  errCode_iff : d.errCode ≠ 0 ↔ d.error = true
  busy_iff : d.busy = true ↔ 1 ≤ d.remaining
  ctrl_start : d.ctrl &&& socDmaCtrlStart = 0

theorem DmaInv.init (latencyPerWord burst : Word) (regions : Option (List MemoryRegion))
    (nRegions : Word) (periphEps : Option (List DmaPeriphEp)) (nPeriphEps : Word)
    (caps : Option DmaCaps) (irqLine : Int) (reader : Option (SocDmaReader M))
    (writer : Option (SocDmaWriter M)) :
    DmaInv (socDmaInit latencyPerWord burst regions nRegions periphEps nPeriphEps caps irqLine
      reader writer) := by
  constructor <;> simp [socDmaInit]

theorem DmaInv.reset (d : SocDma M) : DmaInv (socDmaReset d) := by
  constructor <;> simp [socDmaReset]

theorem DmaInv.stuck {d : SocDma M} (h : DmaInv d) (b : Bool) :
    DmaInv { d with faultStuckBusy := b } :=
  ⟨h.busy_not_done, h.busy_not_error, h.done_not_error, h.errCode_iff, h.busy_iff, h.ctrl_start⟩

/-- The invariant says nothing about the descriptor. -/
theorem DmaInv.descriptor {d : SocDma M} (h : DmaInv d) (src dst length : Word) :
    DmaInv { d with src := src, dst := dst, length := length } :=
  ⟨h.busy_not_done, h.busy_not_error, h.done_not_error, h.errCode_iff, h.busy_iff, h.ctrl_start⟩

theorem DmaInv.start {d : SocDma M} (h : DmaInv d) (perf : SocPerf) (irqEnable : Bool) :
    DmaInv (socDmaStart d perf irqEnable).dma := by
  cases hb : d.busy with
  | true => rwa [socDmaStart_busy hb]
  | false =>
    have hrem : ¬ 1 ≤ d.remaining := fun hr => by simp [h.busy_iff.mpr hr] at hb
    cases hc : socDmaStartCheck d.cfg d.src d.dst d.length with
    | some code =>
      -- rejected: ERROR with the code of the check
      rw [socDmaStart_fail hb hc]
      have hcode := socDmaStartCheck_ne_zero hc
      constructor
      · simp
      · simp
      · simp
      · simpa using hcode
      · simpa using hrem
      · exact h.ctrl_start
    | none =>
      -- accepted: both flags down and a positive countdown
      rw [socDmaStart_ok hb hc]
      constructor
      · simp
      · simp
      · simp
      · simp
      · simpa using socDmaCountdown_pos d.cfg d.length
      · exact h.ctrl_start

/-- The stored CTRL word has no START bit. -/
theorem ctrl_store (value : Word) : socDmaCtrlStored value &&& socDmaCtrlStart = 0 := by
  apply BitVec.eq_of_getLsbD_eq
  intro i hi
  unfold socDmaCtrlStored
  rcases Nat.eq_zero_or_pos i with rfl | hpos
  · split_ifs <;> simp
  · have hone : (socDmaCtrlStart : Word).getLsbD i = false := by
      have hne : i ≠ 0 := by omega
      simp [socDmaCtrlStart, hne]
    rw [BitVec.getLsbD_and, hone, Bool.and_false]
    simp

theorem DmaInv.write {d : SocDma M} (h : DmaInv d) (perf : SocPerf) (offset value : Word) :
    DmaInv (socDmaWrite d perf offset value).2.dma := by
  unfold socDmaWrite
  split
  · exact h.descriptor value d.dst d.length
  · exact h.descriptor d.src value d.length
  · exact h.descriptor d.src d.dst value
  · -- CTRL: the engine after START, if there was one, with the stored word
    have hstart : DmaInv (if value &&& socDmaCtrlStart ≠ 0 then
        socDmaStart d perf (decide (value &&& socDmaCtrlIrqEnable ≠ 0)) else ⟨d, perf, []⟩).dma := by
      split_ifs
      · exact h.start perf _
      · exact h
    exact ⟨hstart.busy_not_done, hstart.busy_not_error, hstart.done_not_error,
      hstart.errCode_iff, hstart.busy_iff, ctrl_store value⟩
  · -- IRQ_CLEAR
    exact ⟨fun _ => rfl, fun _ => rfl, fun _ => rfl, by simp, h.busy_iff, h.ctrl_start⟩
  · exact h

theorem DmaInv.step {d : SocDma M} (h : DmaInv d) (hr : d.cfg.reader.isSome)
    (hw : d.cfg.writer.isSome) (perf : SocPerf) (mem : M) :
    DmaInv (socDmaStep d perf mem).dma := by
  by_cases hidle : d.busy = false ∨ d.faultStuckBusy = true
  · rwa [socDmaStep_idle hidle]
  · rw [not_or, Bool.not_eq_false, Bool.not_eq_true] at hidle
    obtain ⟨hbusy, hstuck⟩ := hidle
    have hpos := h.busy_iff.mp hbusy
    have herr0 : d.errCode = 0 := by
      by_contra hne
      have := h.errCode_iff.mp hne
      simp [h.busy_not_error hbusy] at this
    by_cases hrem : 1 < d.remaining
    · rw [socDmaStep_count hbusy hstuck hrem]
      exact ⟨h.busy_not_done, h.busy_not_error, h.done_not_error, h.errCode_iff,
        iff_of_true hbusy (by show 1 ≤ d.remaining - 1; omega), h.ctrl_start⟩
    · -- the completing tick
      obtain ⟨reader, hr⟩ := Option.isSome_iff_exists.mp hr
      obtain ⟨writer, hw⟩ := Option.isSome_iff_exists.mp hw
      have hzero : ¬ (1 ≤ d.remaining - 1) := by omega
      rw [socDmaStep_complete hbusy hstuck (by omega),
        socDmaComplete_eq (d := { d with remaining := d.remaining - 1 }) hr hw]
      dsimp only
      split_ifs
      · exact ⟨by simp, by simp, by simp, by simp, by simpa using hzero, h.ctrl_start⟩
      · exact ⟨by simp, by simp, by simp, by simp, by simpa using hzero, h.ctrl_start⟩
      · exact ⟨by simp, by simp, by simp, by simp [herr0], by simpa using hzero, h.ctrl_start⟩

/-! ### Runs of the engine -/

/-- The engine with what it works on. -/
structure DmaWorld (M : Type) where
  dma : SocDma M
  perf : SocPerf
  mem : M

/-- What can happen to the engine.  `bus` is everything else on the SoC: it may
change the counters and the memory the callbacks see. -/
inductive DmaEvent (M : Type)
  | write (offset value : Word)
  | tick
  | stuck (b : Bool)
  | reset
  | bus (perf : SocPerf) (mem : M)

def dmaApply (w : DmaWorld M) : DmaEvent M → DmaWorld M
  | .write offset value =>
    let r := (socDmaWrite w.dma w.perf offset value).2
    { w with dma := r.dma, perf := r.perf }
  | .tick =>
    let r := socDmaStep w.dma w.perf w.mem
    ⟨r.dma, r.perf, r.mem⟩
  | .stuck b => { w with dma := { w.dma with faultStuckBusy := b } }
  | .reset => { w with dma := socDmaReset w.dma }
  | .bus perf mem => { w with perf := perf, mem := mem }

/-- START, IRQ_CLEAR and reset, the events that may drop a terminal flag. -/
def DmaEvent.clears : DmaEvent M → Prop
  | .write offset value =>
    (offset = 0x0C ∧ value &&& socDmaCtrlStart ≠ 0) ∨ offset = 0x14
  | .reset => True
  | _ => False

theorem dmaApply_cfg (w : DmaWorld M) (e : DmaEvent M) : (dmaApply w e).dma.cfg = w.dma.cfg := by
  cases e with
  | write offset value => exact socDmaWrite_cfg w.dma w.perf offset value
  | tick => exact socDmaStep_cfg w.dma w.perf w.mem
  | stuck b => rfl
  | reset => rfl
  | bus perf mem => rfl

/-- One event keeps the invariant. -/
theorem DmaInv.apply {w : DmaWorld M} (h : DmaInv w.dma) (hr : w.dma.cfg.reader.isSome)
    (hw : w.dma.cfg.writer.isSome) (e : DmaEvent M) : DmaInv (dmaApply w e).dma := by
  cases e with
  | write offset value => exact h.write w.perf offset value
  | tick => exact h.step hr hw w.perf w.mem
  | stuck b => exact h.stuck b
  | reset => exact DmaInv.reset w.dma
  | bus perf mem => exact h

/-- A set DONE or ERROR flag survives every event that does not clear it. -/
theorem dma_flags_sticky {w : DmaWorld M} (h : DmaInv w.dma)
    (hset : w.dma.done = true ∨ w.dma.error = true) {e : DmaEvent M} (he : ¬ e.clears) :
    (dmaApply w e).dma.done = w.dma.done ∧ (dmaApply w e).dma.error = w.dma.error ∧
      (dmaApply w e).dma.errCode = w.dma.errCode := by
  -- with a flag set the engine is not BUSY, so a tick does nothing
  have hidle : w.dma.busy = false := by
    by_contra hb
    rw [Bool.not_eq_false] at hb
    simp [h.busy_not_done hb, h.busy_not_error hb] at hset
  cases e with
  | write offset value =>
    simp only [dmaApply]
    unfold socDmaWrite
    split
    · exact ⟨rfl, rfl, rfl⟩
    · exact ⟨rfl, rfl, rfl⟩
    · exact ⟨rfl, rfl, rfl⟩
    · have hno : ¬ value &&& socDmaCtrlStart ≠ 0 := fun hs => he (Or.inl ⟨rfl, hs⟩)
      dsimp only
      rw [if_neg hno]
      exact ⟨rfl, rfl, rfl⟩
    · exact absurd (Or.inr rfl) he
    · exact ⟨rfl, rfl, rfl⟩
  | tick =>
    simp only [dmaApply]
    rw [socDmaStep_idle (Or.inl hidle)]
    exact ⟨rfl, rfl, rfl⟩
  | stuck b => exact ⟨rfl, rfl, rfl⟩
  | reset => exact absurd trivial he
  | bus perf mem => exact ⟨rfl, rfl, rfl⟩

/-- A run of events none of which clears keeps a set flag and its error code. -/
theorem dma_flags_sticky_run (fs : List (DmaEvent M)) {w : DmaWorld M} (h : DmaInv w.dma)
    (hr : w.dma.cfg.reader.isSome) (hw : w.dma.cfg.writer.isSome)
    (hset : w.dma.done = true ∨ w.dma.error = true) (hfs : ∀ e ∈ fs, ¬ e.clears) :
    (Runs.run dmaApply w fs).dma.done = w.dma.done ∧
      (Runs.run dmaApply w fs).dma.error = w.dma.error ∧
      (Runs.run dmaApply w fs).dma.errCode = w.dma.errCode := by
  induction fs generalizing w with
  | nil => exact ⟨rfl, rfl, rfl⟩
  | cons e fs ih =>
    obtain ⟨hdone, herror, hcode⟩ := dma_flags_sticky h hset (hfs e List.mem_cons_self)
    have hcfg := dmaApply_cfg w e
    have hrec := ih (h.apply hr hw e) (by rwa [hcfg]) (by rwa [hcfg]) (by rwa [hdone, herror])
      fun f hf => hfs f (List.mem_cons_of_mem e hf)
    rw [Runs.run_cons]
    rwa [hdone, herror, hcode] at hrec

/-- The invariant, with both callbacks still installed, after any run from
`soc_dma_init`. -/
theorem DmaInv.run (es : List (DmaEvent M)) {w : DmaWorld M} (h : DmaInv w.dma)
    (hr : w.dma.cfg.reader.isSome) (hw : w.dma.cfg.writer.isSome) :
    DmaInv (Runs.run dmaApply w es).dma ∧ (Runs.run dmaApply w es).dma.cfg = w.dma.cfg :=
  Runs.run_invariant dmaApply (P := fun v => DmaInv v.dma ∧ v.dma.cfg = w.dma.cfg) (A := fun _ => True)
    (fun v e _ hv =>
      ⟨hv.1.apply (by rwa [hv.2]) (by rwa [hv.2]) e, (dmaApply_cfg v e).trans hv.2⟩)
    (fun _ _ => trivial) ⟨h, rfl⟩

/-- After every run from `soc_dma_init`: at most one of BUSY, DONE and ERROR,
ERR_CODE set exactly with ERROR, BUSY exactly while the countdown is positive, no
START bit in CTRL; and a set DONE or ERROR stays, with its ERR_CODE, over every
continuation without START, IRQ_CLEAR and reset. -/
theorem socDma_run_status (latencyPerWord burst : Word) (regions : Option (List MemoryRegion))
    (nRegions : Word) (periphEps : Option (List DmaPeriphEp)) (nPeriphEps : Word)
    (caps : Option DmaCaps) (irqLine : Int) (reader : SocDmaReader M) (writer : SocDmaWriter M)
    (perf : SocPerf) (mem : M) (es : List (DmaEvent M)) :
    let w := Runs.run dmaApply ⟨socDmaInit latencyPerWord burst regions nRegions periphEps
      nPeriphEps caps irqLine (some reader) (some writer), perf, mem⟩ es
    ¬ (w.dma.busy = true ∧ w.dma.done = true) ∧ ¬ (w.dma.busy = true ∧ w.dma.error = true) ∧
      ¬ (w.dma.done = true ∧ w.dma.error = true) ∧
      (w.dma.errCode ≠ 0 ↔ w.dma.error = true) ∧
      (w.dma.busy = true ↔ 1 ≤ w.dma.remaining) ∧
      w.dma.ctrl &&& socDmaCtrlStart = 0 ∧
      ∀ fs : List (DmaEvent M), (∀ e ∈ fs, ¬ e.clears) →
        (w.dma.done = true → (Runs.run dmaApply w fs).dma.done = true ∧
          (Runs.run dmaApply w fs).dma.errCode = w.dma.errCode) ∧
        (w.dma.error = true → (Runs.run dmaApply w fs).dma.error = true ∧
          (Runs.run dmaApply w fs).dma.errCode = w.dma.errCode) := by
  intro w
  obtain ⟨hinv, hcfg⟩ := DmaInv.run es
    (w := ⟨socDmaInit latencyPerWord burst regions nRegions periphEps nPeriphEps caps irqLine
      (some reader) (some writer), perf, mem⟩) (DmaInv.init ..) rfl rfl
  have hr : w.dma.cfg.reader.isSome := congrArg (fun c => c.reader.isSome) hcfg
  have hw : w.dma.cfg.writer.isSome := congrArg (fun c => c.writer.isSome) hcfg
  refine ⟨?_, ?_, ?_, hinv.errCode_iff, hinv.busy_iff, hinv.ctrl_start, fun fs hfs => ⟨?_, ?_⟩⟩
  · rintro ⟨hb, hd⟩
    exact absurd (hd.symm.trans (hinv.busy_not_done hb)) (by decide)
  · rintro ⟨hb, he⟩
    exact absurd (he.symm.trans (hinv.busy_not_error hb)) (by decide)
  · rintro ⟨hd, he⟩
    exact absurd (he.symm.trans (hinv.done_not_error hd)) (by decide)
  · intro hd
    obtain ⟨h1, _, h3⟩ := dma_flags_sticky_run fs hinv hr hw (Or.inl hd) hfs
    exact ⟨h1.trans hd, h3⟩
  · intro he
    obtain ⟨_, h2, h3⟩ := dma_flags_sticky_run fs hinv hr hw (Or.inr he) hfs
    exact ⟨h2.trans he, h3⟩

/-- A START with LEN zero fails; a tick and a rewritten descriptor keep its error. -/
theorem socDma_run_status_failed_start :
    let init : SocDma Unit := socDmaInit 1 4 (some vlabMemoryMap) vlabMemoryMapN none 0
      (some vlabDmaCaps) 2 (some fun _ _ _ out => ⟨.ok, out, ()⟩) (some fun _ _ _ _ => ⟨.ok, ()⟩)
    let w := Runs.run dmaApply ⟨init, socPerfInit, ()⟩ [.write 0x0C 0x1]
    let v := Runs.run dmaApply w [.tick, .write 0x08 4]
    w.dma.error = true ∧ v.dma.error = true ∧ v.dma.errCode = w.dma.errCode := by
  intro init w v
  have herr : w.dma.error = true := by decide
  have hkeep := (socDma_run_status 1 4 (some vlabMemoryMap) vlabMemoryMapN none 0
    (some vlabDmaCaps) 2 (fun _ _ _ out => ⟨.ok, out, ()⟩) (fun _ _ _ _ => ⟨.ok, ()⟩)
    socPerfInit () [.write 0x0C 0x1]).2.2.2.2.2.2 [.tick, .write 0x08 4] (by
      intro e he
      rcases List.mem_cons.mp he with rfl | he
      · exact id
      · rw [List.mem_singleton.mp he]
        simp [DmaEvent.clears])
  exact ⟨herr, hkeep.2 herr⟩

end VlabSoc
