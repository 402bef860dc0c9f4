/-
The host initialises itself.

Every access of the host bridge starts with `if (!g_inited) soc_host_init(NULL)`.  So a program
that never initialises the host cannot be told from one that does first.  The two DMA test hooks
do nothing before that, and are no calls here.

* `Opens.transparent` — calls that begin with an access;
* `driverOp_transparent` — every call of the firmware and the harness;
* `lazy_init` — every program.
-/
import VlabSoc.DriverErrors

namespace VlabSoc

variable {p : Platform} {α : Type}

/-! ### Answers -/

inductive DriverAnswer
  | nothing
  | word (w : Word)
  | code (rc : Int)
  | byte (rc : Int) (out : Option Byte)
  | result (r : SocResult)

/-- What a call returns. -/
def driverAnswer (p : Platform) : DriverCall → DriverAnswer
  | .mmioRead addr => .word (halReadReg p addr).1
  | .soc e => .result (socResult (socHostEnsure p).gSoc e)
  | .irqDisable => .word (halIrqDisable p).1
  | .dmaStart src dst len irqEnable => .code (VlabSoc.dmaStart p src dst len irqEnable).1.code
  | .dmaSubmit src dst len irqEnable => .code (VlabSoc.dmaSubmit p src dst len irqEnable).1.code
  | .uartWriteByte b => .code (VlabSoc.uartWriteByte p b).1.code
  | .uartReadByte out =>
    .byte (VlabSoc.uartReadByte p out).rc.code (VlabSoc.uartReadByte p out).out
  | .timerStart load periodic irqEnable =>
    .code (VlabSoc.timerStart p load periodic irqEnable).1
  | _ => .nothing

/-- A call with its answer. -/
def driverOp (p : Platform) (c : DriverCall) : DriverAnswer × Platform :=
  (driverAnswer p c, driverCall p c)

/-! ### Accesses -/

theorem ensure_inited (p : Platform) : (socHostEnsure p).gInited = true := by
  unfold socHostEnsure
  split_ifs with h
  · exact h
  · rfl

theorem ensure_of_inited (h : p.gInited = true) : socHostEnsure p = p := if_pos h

theorem ensure_idem (p : Platform) : socHostEnsure (socHostEnsure p) = socHostEnsure p :=
  ensure_of_inited (ensure_inited p)

theorem halReadReg_ensure (p : Platform) (addr : Word) :
    halReadReg (socHostEnsure p) addr = halReadReg p addr := by
  rw [halReadReg, halReadReg, vlabMmioRead, vlabMmioRead, ensure_idem]

theorem halWriteReg_ensure (p : Platform) (addr val : Word) :
    halWriteReg (socHostEnsure p) addr val = halWriteReg p addr val := by
  rw [halWriteReg, halWriteReg, vlabMmioWrite, vlabMmioWrite, ensure_idem]

theorem halReadReg_inited (p : Platform) (addr : Word) : (halReadReg p addr).2.gInited = true :=
  ensure_inited p

theorem halWriteReg_inited (p : Platform) (addr val : Word) :
    (halWriteReg p addr val).gInited = true := ensure_inited p

/-! ### Calls -/

/-- A call answers on `p` what it answers on the initialised `p`, and initialised the two end up
the same. -/
def Transparent (f : Platform → α × Platform) : Prop :=
  ∀ p, ((f p).1, socHostEnsure (f p).2) = f (socHostEnsure p)

/-- A call that begins with an access. -/
structure Opens (f : Platform → α × Platform) : Prop where
  same : ∀ p, f (socHostEnsure p) = f p
  inited : ∀ p, (f p).2.gInited = true

theorem Opens.transparent {f : Platform → α × Platform} (h : Opens f) : Transparent f := fun p => by
  rw [h.same, ensure_of_inited (h.inited p)]

theorem Transparent.map {β : Type} {f : Platform → α × Platform} (h : Transparent f) (g : α → β) :
    Transparent fun p => (g (f p).1, (f p).2) := fun p => by
  dsimp only
  rw [← h p]

theorem opens_read (addr : Word) : Opens fun p => halReadReg p addr where
  same := fun p => halReadReg_ensure p addr
  inited := fun p => halReadReg_inited p addr

theorem opens_write (addr val : Word) :
    Opens fun p => (DriverAnswer.nothing, halWriteReg p addr val) where
  same := fun p => by rw [halWriteReg_ensure]
  inited := fun p => halWriteReg_inited p addr val

/-- A change of the SoC of the initialised host. -/
theorem opens_soc (answer : Soc → DriverAnswer) (f : Soc → Soc) :
    Opens fun p => (answer (socHostEnsure p).gSoc,
      { socHostEnsure p with gSoc := f (socHostEnsure p).gSoc }) where
  same := fun p => by rw [ensure_idem]
  inited := fun p => ensure_inited p

/-- A change of the statics by the statics. -/
theorem transparent_statics (answer : DriverAnswer) (mask : Word → Word)
    (f : DmaDriver → DmaDriver) :
    Transparent fun p => (answer, { p with sIrqMasked := mask p.sIrqMasked, dma := f p.dma }) :=
  fun p => by
    rw [socHostEnsure_statics, socHostEnsure_frame p]

theorem validate_ensure (p : Platform) (src dst len : Word) :
    validate (socHostEnsure p) src dst len = validate p src dst len := by
  rw [validate, validate, halReadReg_ensure]

theorem validate_inited (p : Platform) (src dst len : Word) :
    (validate p src dst len).2.gInited = true := by
  rw [validate]
  split_ifs
  · exact halReadReg_inited p vlabDmaStatus
  · exact halReadReg_inited p vlabDmaStatus

theorem dmaProgram_inited (p : Platform) (src dst len : Word) (irqEnable : Int) :
    (dmaProgram p src dst len irqEnable).gInited = true := halWriteReg_inited _ _ _

theorem opens_dmaStart (src dst len : Word) (irqEnable : Int) :
    Opens fun p => dmaStart p src dst len irqEnable where
  same := fun p => by rw [dmaStart, dmaStart, validate_ensure]
  inited := fun p => by
    rw [dmaStart]
    split_ifs
    · exact validate_inited p src dst len
    · exact dmaProgram_inited _ src dst len irqEnable

theorem uartPoll_inited (n : ℕ) (h : p.gInited = true) : (uartPoll n p).2.gInited = true := by
  induction n generalizing p with
  | zero => exact h
  | succ n ih =>
    rw [uartPoll]
    split_ifs
    · exact halReadReg_inited p vlabUartStatus
    · exact halReadReg_inited p vlabUartStatus
    · exact ih (halReadReg_inited p vlabUartStatus)

theorem opens_uartWriteByte (b : Byte) : Opens fun p => uartWriteByte p b where
  same := fun p => by rw [uartWriteByte, uartWriteByte, halReadReg_ensure]
  inited := fun p => by
    have hctrl := halReadReg_inited p vlabUartCtrl
    rw [uartWriteByte]
    dsimp only
    split_ifs
    · exact hctrl
    · exact halWriteReg_inited _ _ _
    · exact uartPoll_inited 1000 hctrl

theorem opens_uartReadByte (out : Option Byte) :
    Opens fun p => (DriverAnswer.byte (uartReadByte p out).rc.code (uartReadByte p out).out,
      (uartReadByte p out).platform) where
  same := fun p => by rw [uartReadByte, uartReadByte, halReadReg_ensure]
  inited := fun p => by
    dsimp only
    rw [uartReadByte]
    dsimp only
    split_ifs
    · exact halReadReg_inited _ _
    · exact halReadReg_inited _ _

theorem opens_uartInit (bauddiv : Word) :
    Opens fun p => (DriverAnswer.nothing, uartInit p bauddiv) where
  same := fun p => by rw [uartInit, uartInit, halWriteReg_ensure]
  inited := fun p => halWriteReg_inited _ vlabUartCtrl vlabUartCtrlEnable

theorem opens_dmaIsr (line : Word) : Opens fun p => (DriverAnswer.nothing, dmaIsr line p) where
  same := fun p => by rw [dmaIsr, dmaIsr, halReadReg_ensure]
  inited := fun p => halWriteReg_inited (dmaClear _) vlabIntcClear vlabIrqDma

theorem opens_platformInit : Opens fun p => (DriverAnswer.nothing, platformInit p) where
  same := fun p => by rw [platformInit, platformInit, halWriteReg_ensure]
  inited := fun p => halWriteReg_inited _ vlabUartCtrl vlabUartCtrlEnable

/-- `timer_start` refuses a zero load before it touches the timer. -/
theorem transparent_timerStart (load : Word) (periodic irqEnable : Int) :
    Transparent fun p => timerStart p load periodic irqEnable := fun p => by
  dsimp only [timerStart]
  split_ifs with hload
  · rfl
  · rw [halWriteReg_ensure p, ensure_of_inited (halWriteReg_inited _ _ _)]

theorem ensure_dma (p : Platform) : (socHostEnsure p).dma = p.dma := by
  rw [socHostEnsure_frame]

theorem ensure_setState (p : Platform) (st : DmaState) :
    (socHostEnsure p).setState st = socHostEnsure (p.setState st) := by
  rw [Platform.setState, ensure_dma, socHostEnsure_frame p]
  exact ((socHostEnsure_statics p p.sIrqMasked _).trans (by rw [socHostEnsure_frame p])).symm

theorem ensure_mask (p : Platform) (mask : Word) :
    socHostEnsure { p with sIrqMasked := mask } = { socHostEnsure p with sIrqMasked := mask } :=
  (socHostEnsure_statics p mask p.dma).trans (by rw [socHostEnsure_frame p])

theorem ensure_disable (p : Platform) :
    halIrqDisable (socHostEnsure p) = ((halIrqDisable p).1, socHostEnsure (halIrqDisable p).2) := by
  have hmask : socHostEnsure (halIrqDisable p).2 = _ := ensure_mask p 1
  rw [hmask, halIrqDisable, socHostEnsure_frame p]
  rfl

theorem ensure_restore (p : Platform) (state : Word) :
    halIrqRestore (socHostEnsure p) state = socHostEnsure (halIrqRestore p state) :=
  (ensure_mask p (state &&& 1)).symm

/-- `dma_submit` looks at the driver's state before it touches the engine. -/
theorem transparent_dmaSubmit (src dst len : Word) (irqEnable : Int) :
    Transparent fun p => dmaSubmit p src dst len irqEnable := fun p => by
  dsimp only
  rw [dmaSubmit, dmaSubmit, ensure_disable]
  dsimp only
  rw [ensure_dma, ensure_setState, validate_ensure, ensure_restore]
  split_ifs
  · rfl
  · exact Prod.ext rfl (ensure_of_inited (validate_inited _ src dst len))
  · exact Prod.ext rfl (ensure_of_inited (dmaProgram_inited _ src dst len irqEnable))

theorem transparent_dmaRecover : Transparent fun p => (DriverAnswer.nothing, dmaRecover p) :=
  fun p => by
  dsimp only
  rw [dmaRecover, dmaRecover, ensure_disable]
  dsimp only
  rw [ensure_dma, ensure_setState, dmaClear, dmaClear, halWriteReg_ensure]
  split_ifs
  · exact Prod.ext rfl (ensure_of_inited (halWriteReg_inited _ vlabIntcClear vlabIrqDma))
  · rw [ensure_restore]

/-- Initialising twice is initialising once. -/
theorem socInit_socInit (s : Soc) (cfg cfg' : Option SocConfig) :
    socInit (socInit s cfg) cfg' = socInit s cfg' := by
  have hclear : ∀ (b : Buf Byte) (n : ℕ), Buf.memset (Buf.memset b 0 0 n) 0 0 n =
      Buf.memset b 0 0 n := fun b n => funext fun i => by
    by_cases hi : 0 ≤ i ∧ i < 0 + n
    · rw [Buf.memset_inside hi, Buf.memset_inside hi]
    · rw [Buf.memset_outside (by omega)]
  unfold socInit socMemInit
  dsimp only
  rw [hclear, hclear]
  rfl

theorem transparent_hostInit (cfg : Option SocConfig) :
    Transparent fun p => (DriverAnswer.nothing, socHostInit p cfg) := fun p => by
  have hinited : (socHostInit p cfg).gInited = true := rfl
  dsimp only
  rw [ensure_of_inited hinited]
  by_cases h : p.gInited = true
  · rw [ensure_of_inited h]
  · rw [socHostEnsure, if_neg h, socHostInit, socHostInit, socHostInit, socInit_socInit]

/-! ### Programs -/

/-- No call notices whether the host has been initialised. -/
theorem driverOp_transparent (c : DriverCall) : Transparent fun p => driverOp p c := by
  cases c with
  | hostInit cfg => exact transparent_hostInit cfg
  | hostBoot => exact (opens_soc (fun _ => .nothing) fun s => socBoot s none 0).transparent
  | hostStep n => exact (opens_soc (fun _ => .nothing) fun s => socStep s n).transparent
  | mmioRead addr => exact (opens_read addr).transparent.map DriverAnswer.word
  | mmioWrite addr val => exact (opens_write addr val).transparent
  | raiseIrq line =>
    exact (opens_soc (fun _ => .nothing) fun s =>
      { s with intc := socIntcRaise s.intc line.toInt }).transparent
  | soc e =>
    exact (opens_soc (fun s => .result (socResult s e)) fun s => socApply s e).transparent
  | irqDisable => exact Transparent.map (fun p => (ensure_disable p).symm) DriverAnswer.word
  | irqRestore state => exact fun p => Prod.ext rfl (ensure_restore p state).symm
  | platformInit => exact opens_platformInit.transparent
  | dmaInit =>
    exact transparent_statics .nothing id fun d =>
      (dmaInit { (default : Platform) with dma := d }).dma
  | dmaConfigure map n caps =>
    exact transparent_statics .nothing id fun d => dmaConfigure d map n caps
  | dmaConfigurePeriph eps n =>
    exact transparent_statics .nothing id fun d => dmaConfigurePeriph d eps n
  | dmaStart src dst len irqEnable =>
    exact (opens_dmaStart src dst len irqEnable).transparent.map fun rc => DriverAnswer.code rc.code
  | dmaSubmit src dst len irqEnable =>
    exact (transparent_dmaSubmit src dst len irqEnable).map fun rc => DriverAnswer.code rc.code
  | dmaIsr line => exact (opens_dmaIsr line).transparent
  | dmaClear => exact (opens_write vlabDmaIrqClear 1).transparent
  | dmaRecover => exact transparent_dmaRecover
  | uartInit bauddiv => exact (opens_uartInit bauddiv).transparent
  | uartWriteByte b =>
    exact (opens_uartWriteByte b).transparent.map fun rc => DriverAnswer.code rc.code
  | uartReadByte out => exact (opens_uartReadByte out).transparent
  | timerStart load periodic irqEnable =>
    exact (transparent_timerStart load periodic irqEnable).map DriverAnswer.code
  | timerStop => exact (opens_write vlabTimerCtrl 0).transparent
  | timerClear => exact (opens_write vlabTimerIrqClear 0x1).transparent
  | intcEnable mask => exact (opens_write vlabIntcEnable (mask &&& 0x7)).transparent
  | intcClear irq => exact (opens_write vlabIntcClear irq).transparent

/-- Lazy initialisation does not show.  A program, whose calls may depend on all it has been
answered, behaves the same on a host that nobody has initialised as on one initialised with the
default configuration before its first call, and the two hosts are the same once both are. -/
theorem lazy_init {κ : Type} (call : κ → DriverCall) (next : κ → DriverAnswer → κ) (k : κ)
    (gSoc : Soc) (n : ℕ) :
    let lazy := (Runs.round driverOp call next)^[n] (k, platformStart gSoc)
    let eager := (Runs.round driverOp call next)^[n] (k, socHostInit (platformStart gSoc) none)
    eager.1 = lazy.1 ∧ eager.2 = socHostEnsure lazy.2 := by
  intro lazy eager
  have hround := Runs.round_transparent driverOp call next socHostEnsure
    fun p c => driverOp_transparent c p
  have heq : Prod.map id socHostEnsure lazy = eager := (hround.iterate_right n).eq (k, _)
  rw [← heq]
  exact ⟨rfl, rfl⟩

end VlabSoc
