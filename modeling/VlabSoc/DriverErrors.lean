/-
Driver errors leave no trace.

`DriverCall` lists all that the firmware and the harness can call.  In every state they lead
to from program start the host is wired once it is initialised, and the IRQ mask is a bit
(`HostInv`), which is what `dma_submit` needs to put the mask back.  A call that returns an
error changes the MEM_ACC count at most (`driver_error_untouched`).
-/
import VlabSoc.TimerDriver
import VlabSoc.UartDriver

namespace VlabSoc

/-! ### All calls -/

inductive DriverCall
  | hostInit (cfg : Option SocConfig)
  | hostBoot
  | hostStep (n : Word)
  | mmioRead (addr : Word)
  | mmioWrite (addr val : Word)
  | raiseIrq (line : Word)
  | soc (e : SocEvent)
  | irqDisable
  | irqRestore (state : Word)
  | platformInit
  | dmaInit
  | dmaConfigure (map : Option (List MemoryRegion)) (n : Word) (caps : Option DmaCaps)
  | dmaConfigurePeriph (eps : Option (List DmaPeriphEp)) (n : Word)
  | dmaStart (src dst len : Word) (irqEnable : Int)
  | dmaSubmit (src dst len : Word) (irqEnable : Int)
  | dmaIsr (line : Word)
  | dmaClear
  | dmaRecover
  | uartInit (bauddiv : Word)
  | uartWriteByte (b : Byte)
  | uartReadByte (out : Option Byte)
  | timerStart (load : Word) (periodic irqEnable : Int)
  | timerStop
  | timerClear
  | intcEnable (mask : Word)
  | intcClear (irq : Word)

/-- The reads that return a value only, STATUS and the like, are `mmioRead`s; a dispatch is a
sequence of calls. -/
def driverCall (p : Platform) : DriverCall → Platform
  | .hostInit cfg => socHostInit p cfg
  | .hostBoot => socHostBoot p
  | .hostStep n => socHostStep p n
  | .mmioRead addr => (halReadReg p addr).2
  | .mmioWrite addr val => halWriteReg p addr val
  | .raiseIrq line => vlabTestRaiseIrq p line
  | .soc e =>
    let p := socHostEnsure p
    { p with gSoc := socApply p.gSoc e }
  | .irqDisable => (halIrqDisable p).2
  | .irqRestore state => halIrqRestore p state
  | .platformInit => VlabSoc.platformInit p
  | .dmaInit => VlabSoc.dmaInit p
  | .dmaConfigure map n caps => { p with dma := VlabSoc.dmaConfigure p.dma map n caps }
  | .dmaConfigurePeriph eps n => { p with dma := VlabSoc.dmaConfigurePeriph p.dma eps n }
  | .dmaStart src dst len irqEnable => (VlabSoc.dmaStart p src dst len irqEnable).2
  | .dmaSubmit src dst len irqEnable => (VlabSoc.dmaSubmit p src dst len irqEnable).2
  | .dmaIsr line => VlabSoc.dmaIsr line p
  | .dmaClear => VlabSoc.dmaClear p
  | .dmaRecover => VlabSoc.dmaRecover p
  | .uartInit bauddiv => VlabSoc.uartInit p bauddiv
  | .uartWriteByte b => (VlabSoc.uartWriteByte p b).2
  | .uartReadByte out => (VlabSoc.uartReadByte p out).platform
  | .timerStart load periodic irqEnable => (VlabSoc.timerStart p load periodic irqEnable).2
  | .timerStop => VlabSoc.timerStop p
  | .timerClear => VlabSoc.timerClear p
  | .intcEnable mask => VlabSoc.intcEnable p mask
  | .intcClear irq => VlabSoc.intcClear p irq

/-! ### The invariant -/

structure HostInv (p : Platform) : Prop where
  wired : p.gInited = true → SocWired p.gSoc
  masked : p.sIrqMasked = 0 ∨ p.sIrqMasked = 1

theorem HostInv.live {p : Platform} (h : HostInv p) : Live (socHostEnsure p) :=
  socHostEnsure_live p h.wired

/-- Neither the mask nor the driver's statics matter for the SoC. -/
theorem socHostEnsure_statics (p : Platform) (mask : Word) (d : DmaDriver) :
    socHostEnsure { p with sIrqMasked := mask, dma := d } =
      { socHostEnsure p with sIrqMasked := mask, dma := d } := by
  unfold socHostEnsure
  by_cases hi : p.gInited = true
  · rw [if_pos hi, if_pos hi]
  · rw [if_neg hi, if_neg hi]
    rfl

theorem HostInv.ensure {p : Platform} (h : HostInv p) : HostInv (socHostEnsure p) := by
  refine ⟨fun _ => h.live.wired, ?_⟩
  rw [socHostEnsure_frame]
  exact h.masked

/-- A change of the SoC that keeps its wiring. -/
theorem HostInv.soc {p : Platform} (h : HostInv p) {s : Soc}
    (hs : SocWired (socHostEnsure p).gSoc → SocWired s) :
    HostInv { socHostEnsure p with gSoc := s } :=
  ⟨fun _ => hs h.live.wired, h.ensure.masked⟩

theorem HostInv.read {p : Platform} (h : HostInv p) (addr : Word) :
    HostInv (halReadReg p addr).2 := h.soc fun hw => hw.read addr 0

theorem HostInv.write {p : Platform} (h : HostInv p) (addr val : Word) :
    HostInv (halWriteReg p addr val) := h.soc fun hw => hw.write addr val

/-- The statics of the drivers do not matter. -/
theorem HostInv.statics {p : Platform} (h : HostInv p) (d : DmaDriver) (data bss : List Word) :
    HostInv { p with dma := d, sRamData := data, sRamBss := bss } := ⟨h.wired, h.masked⟩

theorem HostInv.setState {p : Platform} (h : HostInv p) (st : DmaState) :
    HostInv (p.setState st) := h.statics _ _ _

theorem HostInv.restore {p : Platform} (h : HostInv p) (state : Word) :
    HostInv (halIrqRestore p state) := by
  refine ⟨h.wired, ?_⟩
  show state &&& 1 = 0 ∨ state &&& 1 = 1
  have hbit : (state &&& 1).toNat = state.toNat % 2 := by
    rw [BitVec.toNat_and]
    exact Nat.and_one_is_mod _
  rcases Nat.mod_two_eq_zero_or_one state.toNat with h0 | h1
  · exact Or.inl (BitVec.eq_of_toNat_eq (hbit.trans h0))
  · exact Or.inr (BitVec.eq_of_toNat_eq (hbit.trans h1))

theorem HostInv.disable {p : Platform} (h : HostInv p) : HostInv (halIrqDisable p).2 :=
  ⟨h.wired, Or.inr rfl⟩

theorem HostInv.start {gSoc : Soc} : HostInv (platformStart gSoc) :=
  ⟨fun h => absurd h Bool.false_ne_true, Or.inl rfl⟩

theorem HostInv.program {p : Platform} (h : HostInv p) (src dst len : Word) (irqEnable : Int) :
    HostInv (dmaProgram p src dst len irqEnable) :=
  (((h.write _ _).write _ _).write _ _).write _ _

theorem HostInv.validate {p : Platform} (h : HostInv p) (src dst len : Word) :
    HostInv (validate p src dst len).2 := by
  unfold VlabSoc.validate
  dsimp only
  split_ifs
  · exact h.read _
  · exact h.read _

theorem HostInv.poll {p : Platform} (h : HostInv p) (n : ℕ) : HostInv (uartPoll n p).2 := by
  induction n generalizing p with
  | zero => exact h
  | succ n ih =>
    rw [uartPoll]
    split_ifs
    · exact h.read _
    · exact h.read _
    · exact ih (h.read _)

theorem HostInv.bringUp {p : Platform} (h : HostInv p) : HostInv (platformInit p) := by
  have hperf := ((h.write vlabIntcEnable 0).write vlabPerfCtrl vlabPerfCtrlReset).write
    vlabPerfCtrl vlabPerfCtrlEnable
  refine HostInv.statics (HostInv.write (HostInv.write ?_ _ _) _ _) _ _ _
  exact ⟨hperf.wired, hperf.masked⟩

theorem HostInv.submit {p : Platform} (h : HostInv p) (src dst len : Word) (irqEnable : Int) :
    HostInv (dmaSubmit p src dst len irqEnable).2 := by
  have hvalidate := ((h.disable).setState .starting).validate src dst len
  rw [dmaSubmit]
  dsimp only
  split_ifs
  · exact h.disable.restore _
  · exact (hvalidate.setState .idle).restore _
  · refine HostInv.restore (HostInv.setState (HostInv.program ?_ src dst len irqEnable) .active) _
    exact ⟨hvalidate.wired, hvalidate.masked⟩

theorem HostInv.isr {p : Platform} (h : HostInv p) (line : Word) : HostInv (dmaIsr line p) := by
  have hst := h.read vlabDmaStatus
  have hclears : ∀ q : Platform, HostInv q → HostInv (intcClear (dmaClear q) vlabIrqDma) :=
    fun q hq => (hq.write _ _).write _ _
  rw [dmaIsr]
  dsimp only
  split_ifs
  · exact (hclears _ (hst.statics _ _ _)).statics _ _ _
  · exact (hclears _ ((hst.read vlabDmaErrCode).statics _ _ _)).statics _ _ _
  · exact (hclears _ hst).statics _ _ _

theorem HostInv.recover {p : Platform} (h : HostInv p) : HostInv (dmaRecover p) := by
  have hclears := (((h.disable).setState .recovery).write vlabDmaIrqClear 1).write
    vlabIntcClear vlabIrqDma
  rw [dmaRecover]
  dsimp only
  split_ifs
  · exact (hclears.statics _ _ _).restore _
  · exact h.disable.restore _

/-- No call breaks it. -/
theorem HostInv.call {p : Platform} (h : HostInv p) (c : DriverCall) :
    HostInv (driverCall p c) := by
  cases c with
  | hostInit cfg => exact ⟨fun _ => socInit_wired _ _, h.masked⟩
  | hostBoot => exact h.soc fun hw => hw.boot none 0
  | hostStep n => exact h.soc fun hw => hw.step n
  | mmioRead addr => exact h.read addr
  | mmioWrite addr val => exact h.write addr val
  | raiseIrq line => exact h.soc fun hw => hw.of_eq rfl rfl rfl rfl rfl rfl
  | soc e => exact h.soc fun hw => hw.apply e
  | irqDisable => exact h.disable
  | irqRestore state => exact h.restore state
  | platformInit => exact h.bringUp
  | dmaInit => exact h.statics _ _ _
  | dmaConfigure map n caps => exact h.statics _ _ _
  | dmaConfigurePeriph eps n => exact h.statics _ _ _
  | dmaStart src dst len irqEnable =>
    rw [driverCall, VlabSoc.dmaStart]
    split_ifs
    · exact h.validate src dst len
    · exact (h.validate src dst len).program src dst len irqEnable
  | dmaSubmit src dst len irqEnable => exact h.submit src dst len irqEnable
  | dmaIsr line => exact h.isr line
  | dmaClear => exact h.write _ _
  | dmaRecover => exact h.recover
  | uartInit bauddiv => exact (h.write _ _).write _ _
  | uartWriteByte b =>
    rw [driverCall, VlabSoc.uartWriteByte]
    dsimp only
    split_ifs
    · exact h.read _
    · exact ((h.read _).poll 1000).write _ _
    · exact (h.read _).poll 1000
  | uartReadByte out =>
    rw [driverCall, VlabSoc.uartReadByte]
    split_ifs
    · exact h.read _
    · exact (h.read _).read _
  | timerStart load periodic irqEnable =>
    rw [driverCall, VlabSoc.timerStart]
    split_ifs
    · exact h
    · exact (h.write _ _).write _ _
  | timerStop => exact h.write _ _
  | timerClear => exact h.write _ _
  | intcEnable mask => exact h.write _ _
  | intcClear irq => exact h.write _ _

theorem HostInv.run (gSoc : Soc) (cs : List DriverCall) :
    HostInv (Runs.run driverCall (platformStart gSoc) cs) :=
  Runs.run_invariant driverCall (P := HostInv) (A := fun _ => True) (fun _ c _ h => h.call c)
    (fun _ _ => trivial) HostInv.start

/-! ### Errors -/

/-- `q` is `p` up to the MEM_ACC count.  A host that nobody has initialised yet is initialised
by its first access, so there `q` is the SoC `p` begins with. -/
def Untouched (p q : Platform) : Prop :=
  MemAccOnly p q ∨ (p.gInited = false ∧ MemAccOnly (socHostEnsure p) q)

theorem Untouched.refl (p : Platform) : Untouched p p := Or.inl (MemAccOnly.refl p)

theorem MemAccOnly.untouched {p q : Platform} (h : MemAccOnly (socHostEnsure p) q) :
    Untouched p q := by
  cases hi : p.gInited with
  | false => exact Or.inr ⟨hi, h⟩
  | true =>
    rw [socHostEnsure, if_pos hi] at h
    exact Or.inl h

/-- An access to a host is one to the host it initialises. -/
theorem HostInv.read_ensure {p : Platform} (h : HostInv p) (addr : Word) :
    halReadReg p addr = halReadReg (socHostEnsure p) addr := by
  rw [halReadReg, halReadReg, vlabMmioRead, vlabMmioRead, h.live.ensure]

theorem HostInv.validate_memAcc {p : Platform} (h : HostInv p) (src dst len : Word) :
    MemAccOnly (socHostEnsure p) (VlabSoc.validate p src dst len).2 := by
  have hens : VlabSoc.validate p src dst len = VlabSoc.validate (socHostEnsure p) src dst len := by
    rw [VlabSoc.validate, VlabSoc.validate, h.read_ensure]
  rw [hens, validate_eq h.live.inited h.live.wired.regions h.live.wired.nRegions]
  exact MemAccOnly.count _

/-- The mask that `hal_irq_restore` puts back. -/
theorem HostInv.mask {p : Platform} (h : HostInv p) : p.sIrqMasked &&& 1 = p.sIrqMasked := by
  rcases h.masked with h0 | h1
  · rw [h0]
    rfl
  · rw [h1]
    rfl

theorem dmaStart_error {p : Platform} (h : HostInv p) {src dst len : Word} {irqEnable : Int}
    (herr : (dmaStart p src dst len irqEnable).1 ≠ .ok) :
    Untouched p (dmaStart p src dst len irqEnable).2 := by
  rw [dmaStart] at herr ⊢
  by_cases hrc : (validate p src dst len).1 = .ok
  · rw [if_neg (not_not.mpr hrc)] at herr
    exact absurd rfl herr
  · rw [if_pos hrc]
    exact (h.validate_memAcc src dst len).untouched

/-- Both early exits undo the mask, and the second one the step to STARTING. -/
theorem dmaSubmit_error {p : Platform} (h : HostInv p) {src dst len : Word} {irqEnable : Int}
    (herr : (dmaSubmit p src dst len irqEnable).1 ≠ .ok) :
    Untouched p (dmaSubmit p src dst len irqEnable).2 := by
  have hmask : ({ p with sIrqMasked := p.sIrqMasked &&& 1 } : Platform) = p := by
    rw [h.mask]
  rw [dmaSubmit, halIrqDisable] at herr ⊢
  dsimp only at herr ⊢
  by_cases hstate : p.dma.sState = .idle
  swap
  · rw [if_pos hstate]
    show Untouched p { p with sIrqMasked := p.sIrqMasked &&& 1 }
    rw [hmask]
    exact Untouched.refl p
  rw [if_neg (not_not.mpr hstate)] at herr ⊢
  set q : Platform := ({ p with sIrqMasked := 1 } : Platform).setState .starting with hq
  have hqinv : HostInv q := h.disable.setState .starting
  by_cases hrc : (validate q src dst len).1 = .ok
  · rw [if_neg (not_not.mpr hrc)] at herr
    exact absurd rfl herr
  rw [if_pos hrc]
  refine MemAccOnly.untouched ?_
  obtain ⟨m, hm⟩ := hqinv.validate_memAcc src dst len
  refine ⟨m, ?_⟩
  have hens : socHostEnsure q = { socHostEnsure p with
      sIrqMasked := 1, dma := { p.dma with sState := .starting } } :=
    socHostEnsure_statics p 1 { p.dma with sState := .starting }
  have hframe := socHostEnsure_frame p
  have hidle : ({ p.dma with sState := .idle } : DmaDriver) = p.dma := by
    rw [← hstate]
  rw [hm, hens]
  show ({ (socHostEnsure p).withMemAcc m with
    dma := { p.dma with sState := .idle }, sIrqMasked := p.sIrqMasked &&& 1 } : Platform) = _
  rw [h.mask, hidle, hframe]
  rfl

theorem uartWriteByte_error {p : Platform} (h : HostInv p) {b : Byte}
    (herr : (uartWriteByte p b).1 ≠ .ok) : Untouched p (uartWriteByte p b).2 := by
  have hens : uartWriteByte p b = uartWriteByte (socHostEnsure p) b := by
    rw [uartWriteByte, uartWriteByte, h.read_ensure]
  rw [hens] at herr ⊢
  rcases uartWriteByte_cases h.live b with ⟨-, -, hkeep⟩ | ⟨-, -, -, hkeep⟩ | ⟨-, -, hok, -⟩
  · exact hkeep.untouched
  · exact hkeep.untouched
  · exact absurd hok herr

theorem uartReadByte_error {p : Platform} (h : HostInv p) {out : Option Byte}
    (herr : (uartReadByte p out).rc ≠ .ok) :
    (uartReadByte p out).out = out ∧ Untouched p (uartReadByte p out).platform := by
  have hens : uartReadByte p out = uartReadByte (socHostEnsure p) out := by
    rw [uartReadByte, uartReadByte, h.read_ensure]
  rw [hens] at herr ⊢
  rcases uartReadByte_cases h.live out with ⟨-, -, hout, hkeep⟩ | ⟨-, hok, -⟩
  · exact ⟨hout, hkeep.untouched⟩
  · exact absurd hok herr

theorem timerStart_error {p : Platform} {load : Word} {periodic irqEnable : Int}
    (herr : (timerStart p load periodic irqEnable).1 ≠ 0) :
    Untouched p (timerStart p load periodic irqEnable).2 := by
  rw [timerStart] at herr ⊢
  by_cases hload : load = 0
  · rw [if_pos hload]
    exact Untouched.refl p
  · rw [if_neg hload] at herr
    exact absurd rfl herr

/-- Driver errors have no side effects, in any state a program can be in. -/
theorem driver_error_untouched (gSoc : Soc) (cs : List DriverCall) :
    let p := Runs.run driverCall (platformStart gSoc) cs
    (∀ src dst len irqEnable, (dmaStart p src dst len irqEnable).1 ≠ .ok →
      Untouched p (dmaStart p src dst len irqEnable).2) ∧
    (∀ src dst len irqEnable, (dmaSubmit p src dst len irqEnable).1 ≠ .ok →
      Untouched p (dmaSubmit p src dst len irqEnable).2) ∧
    (∀ b, (uartWriteByte p b).1 ≠ .ok → Untouched p (uartWriteByte p b).2) ∧
    (∀ out, (uartReadByte p out).rc ≠ .ok →
      (uartReadByte p out).out = out ∧ Untouched p (uartReadByte p out).platform) ∧
    ∀ load periodic irqEnable, (timerStart p load periodic irqEnable).1 ≠ 0 →
      Untouched p (timerStart p load periodic irqEnable).2 := by
  intro p
  have h : HostInv p := HostInv.run gSoc cs
  exact ⟨fun _ _ _ _ => dmaStart_error h, fun _ _ _ _ => dmaSubmit_error h,
    fun _ => uartWriteByte_error h, fun _ => uartReadByte_error h,
    fun _ _ _ => timerStart_error⟩

/-- After the bring-up, with the UART switched off again, each of the five calls can fail. -/
theorem driver_error_untouched_init :
    let p := Runs.run driverCall (platformStart default) [.platformInit, .mmioWrite vlabUartCtrl 0]
    ((dmaStart p 0 0 0 0).1 = .errLen ∧ Untouched p (dmaStart p 0 0 0 0).2) ∧
    ((dmaSubmit p 0 0 4 0).1 = .errUnsupported ∧ Untouched p (dmaSubmit p 0 0 4 0).2) ∧
    ((uartWriteByte p 0).1 = .errDisabled ∧ Untouched p (uartWriteByte p 0).2) ∧
    ((uartReadByte p (some 7)).out = some 7 ∧ Untouched p (uartReadByte p (some 7)).platform) ∧
    Untouched p (timerStart p 0 0 0).2 := by
  intro p
  obtain ⟨hstart, hsubmit, hwrite, hread, htimer⟩ :=
    driver_error_untouched default [.platformInit, .mmioWrite vlabUartCtrl 0]
  have hlen : (dmaStart p 0 0 0 0).1 = .errLen := by decide
  have hrom : (dmaSubmit p 0 0 4 0).1 = .errUnsupported := by decide
  have hoff : (uartWriteByte p 0).1 = .errDisabled := by decide
  exact ⟨⟨hlen, hstart 0 0 0 0 (by rw [hlen]; decide)⟩,
    ⟨hrom, hsubmit 0 0 4 0 (by rw [hrom]; decide)⟩,
    ⟨hoff, hwrite 0 (by rw [hoff]; decide)⟩,
    hread (some 7) (by decide), htimer 0 0 0 (by decide)⟩

end VlabSoc
