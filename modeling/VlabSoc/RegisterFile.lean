/-
The configuration registers as a register file.

Nine registers hold what software last stored in them: no tick, transfer, interrupt, fault or
access to another address changes them.  `ConfigReg` names them, `Soc.regFile` is what they
hold.

* `SocWired.write_regFile` — a bus write changes the register at its address, if any;
* `SocWired.apply_regFile` — every event of the model acts on the file as `regEvent` does;
* `register_file` — so does any run of events and HAL read-modify-writes, and software reads
  back what it stored.
-/
import VlabSoc.FaultLifecycle
import VlabSoc.PerfWindow
import VlabSoc.TimerPeriod
import VlabSoc.UartStreams

namespace VlabSoc

/-! ### The registers -/

/-- The registers that nothing but software changes. -/
inductive ConfigReg
  | uartCtrl
  | uartBauddiv
  | timerLoad
  | dmaSrc
  | dmaDst
  | dmaLen
  | dmaCtrl
  | intcEnable
  | perfCtrl
  deriving DecidableEq

def ConfigReg.addr : ConfigReg → Word
  | .uartCtrl => vlabUartCtrl
  | .uartBauddiv => vlabUartBauddiv
  | .timerLoad => vlabTimerLoad
  | .dmaSrc => vlabDmaSrc
  | .dmaDst => vlabDmaDst
  | .dmaLen => vlabDmaLen
  | .dmaCtrl => vlabDmaCtrl
  | .intcEnable => vlabIntcEnable
  | .perfCtrl => vlabPerfCtrl

/-- What is stored of a written word: DMA_CTRL drops START, INTC_ENABLE has three bits. -/
def ConfigReg.stored : ConfigReg → Word → Word
  | .dmaCtrl, v => socDmaCtrlStored v
  | .intcEnable, v => v &&& 0x7
  | _, v => v

/-- What the registers hold. -/
def Soc.regFile (s : Soc) : ConfigReg → Word
  | .uartCtrl => s.uart.ctrl
  | .uartBauddiv => s.uart.bauddiv
  | .timerLoad => s.timer.load
  | .dmaSrc => s.dma.src
  | .dmaDst => s.dma.dst
  | .dmaLen => s.dma.length
  | .dmaCtrl => s.dma.ctrl
  | .intcEnable => s.intc.enable
  | .perfCtrl => s.perf.ctrl

/-- An access that stores `g v` where `v` was, in the register at `addr` if there is one. -/
def regModify (f : ConfigReg → Word) (addr : Word) (g : Word → Word) : ConfigReg → Word :=
  fun r => if addr = r.addr then r.stored (g (f r)) else f r

/-- The reset of the peripherals spares PERF. -/
def regReset (f : ConfigReg → Word) : ConfigReg → Word
  | .perfCtrl => f .perfCtrl
  | _ => 0

/-- Boot turns PERF on. -/
def regBoot : ConfigReg → Word
  | .perfCtrl => 0x1
  | _ => 0

/-- An event on the registers. -/
def regEvent (f : ConfigReg → Word) : SocEvent → ConfigReg → Word
  | .write addr value => regModify f addr fun _ => value
  | .resetPeripherals => regReset f
  | .boot _ _ => regBoot
  | _ => f

/-! ### What leaves the registers alone -/

/-- PERF counts, its CTRL stays. -/
structure SameRegs (s t : Soc) : Prop where
  uart : t.uart.ctrl = s.uart.ctrl ∧ t.uart.bauddiv = s.uart.bauddiv
  timer : t.timer.load = s.timer.load
  dma : t.dma.src = s.dma.src ∧ t.dma.dst = s.dma.dst ∧ t.dma.length = s.dma.length ∧
    t.dma.ctrl = s.dma.ctrl
  intc : t.intc.enable = s.intc.enable
  perf : t.perf.ctrl = s.perf.ctrl

theorem SameRegs.regFile {s t : Soc} (h : SameRegs s t) : t.regFile = s.regFile := by
  funext r
  cases r with
  | uartCtrl => exact h.uart.1
  | uartBauddiv => exact h.uart.2
  | timerLoad => exact h.timer
  | dmaSrc => exact h.dma.1
  | dmaDst => exact h.dma.2.1
  | dmaLen => exact h.dma.2.2.1
  | dmaCtrl => exact h.dma.2.2.2
  | intcEnable => exact h.intc
  | perfCtrl => exact h.perf

theorem socUartStep_ctrl (u : SocUart) :
    (socUartStep u).1.ctrl = u.ctrl ∧ (socUartStep u).1.bauddiv = u.bauddiv := by
  have happend : ∀ (v : SocUart) payload len, (socUartDmaTxAppend v payload len).ctrl = v.ctrl ∧
      (socUartDmaTxAppend v payload len).bauddiv = v.bauddiv := by
    intro v payload len
    rw [socUartDmaTxAppend]
    split_ifs <;> exact ⟨rfl, rfl⟩
  cases hc : uartCompletes u with
  | true =>
    rw [socUartStep_complete hc]
    exact happend _ _ _
  | false =>
    rw [socUartStep_count hc]
    exact ⟨rfl, rfl⟩

theorem SocWired.tickDma_sameRegs {s : Soc} (h : SocWired s) : SameRegs s (socTickDma s) := by
  have hfront := h.tickDma_front
  have huart : (socTickDma s).uart.ctrl = s.uart.ctrl ∧
      (socTickDma s).uart.bauddiv = s.uart.bauddiv :=
    ⟨congrArg (fun x => x.1.ctrl) hfront, congrArg (fun x => x.1.bauddiv) hfront⟩
  have htimer : (socTickDma s).timer.load = s.timer.load := congrArg (fun x => x.2.load) hfront
  rcases h.tickDma_cases with ⟨-, heq⟩ | ⟨-, -, -, heq⟩ | ⟨-, -, heq⟩ | ⟨-, -, -, heq⟩ |
    ⟨-, -, -, heq⟩
  · rw [heq]
    exact ⟨⟨rfl, rfl⟩, rfl, ⟨rfl, rfl, rfl, rfl⟩, rfl, rfl⟩
  all_goals
    refine ⟨huart, htimer, ?_, ?_, ?_⟩
    · rw [heq]
      exact ⟨rfl, rfl, rfl, rfl⟩
    · simp only [heq, dmaAborted, dmaFinished, socIntcRaiseAll_enable]
    · exact h.tickDma_counted.ctrl

theorem SocWired.tick_regFile {s : Soc} (h : SocWired s) : (socTick s).regFile = s.regFile := by
  have hfront : SameRegs s (socTickFront s) := by
    rw [socTickFront_frame]
    refine ⟨socUartStep_ctrl s.uart, (socTimerStep_setup s.timer).1, ⟨rfl, rfl, rfl, rfl⟩, ?_, ?_⟩
    · rw [socIntcRaiseAll_enable, socIntcRaiseAll_enable]
    · exact (counted_tick s.perf).ctrl
  rw [show socTick s = socTickDma (socTickFront s) from rfl,
    h.tickFront.tickDma_sameRegs.regFile, hfront.regFile]

theorem SocWired.read_regFile {s : Soc} (h : SocWired s) (addr out : Word) :
    (socRead s addr out).soc.regFile = s.regFile := by
  have hsame : SameRegs s (socRead s addr out).soc := by
    by_cases hack : addr = vlabIntcAck
    · subst hack
      rcases h.read_ack_cases out with ⟨-, -, hsoc⟩ | ⟨line, -, -, -, hsoc⟩
      · rw [hsoc]
        exact ⟨⟨rfl, rfl⟩, rfl, ⟨rfl, rfl, rfl, rfl⟩, rfl, (counted_mem _).ctrl⟩
      · rw [hsoc]
        exact ⟨⟨rfl, rfl⟩, rfl, ⟨rfl, rfl, rfl, rfl⟩, rfl,
          ((counted_mem _).trans (counted_irq _)).ctrl⟩
    by_cases hrx : addr = vlabUartRxdata
    · subst hrx
      obtain ⟨-, -, hsoc⟩ := h.read_uartReg (show vlabUartRxdata ∈ uartReadRegs by decide) out
      rw [hsoc]
      exact ⟨⟨rfl, rfl⟩, rfl, ⟨rfl, rfl, rfl, rfl⟩, rfl, (counted_mem _).ctrl⟩
    · -- any other read only counts
      have hun := socRead_uncounted hrx hack s out
      exact ⟨⟨congrArg (fun t => t.uart.ctrl) hun, congrArg (fun t => t.uart.bauddiv) hun⟩,
        congrArg (fun t => t.timer.load) hun,
        ⟨congrArg (fun t => t.dma.src) hun, congrArg (fun t => t.dma.dst) hun,
          congrArg (fun t => t.dma.length) hun, congrArg (fun t => t.dma.ctrl) hun⟩,
        congrArg (fun t => t.intc.enable) hun, congrArg (fun t => t.perf.ctrl) hun⟩
  exact hsame.regFile

/-! ### Bus writes -/

/-- An offset in a block, as an address. -/
theorem ne_of_offset {addr base offset : Word} {r : ConfigReg} (haddr : addr ≠ r.addr)
    (hr : offset + base = r.addr) : addr - base ≠ offset := fun h =>
  haddr ((BitVec.sub_eq_iff_eq_add.mp h).trans hr)

theorem socUartWrite_config (u : SocUart) (perf : SocPerf) (offset value : Word) :
    (offset ≠ 0x0C → (socUartWrite u perf offset value).uart.ctrl = u.ctrl) ∧
      (offset ≠ 0x10 → (socUartWrite u perf offset value).uart.bauddiv = u.bauddiv) := by
  unfold socUartWrite
  split
  · split_ifs <;> exact ⟨fun _ => rfl, fun _ => rfl⟩
  · exact ⟨fun h => absurd rfl h, fun _ => rfl⟩
  · exact ⟨fun _ => rfl, fun h => absurd rfl h⟩
  · exact ⟨fun _ => rfl, fun _ => rfl⟩

theorem socDmaWrite_config (d : SocDma DmaCtx) (perf : SocPerf) (offset value : Word) :
    let t := (socDmaWrite d perf offset value).2.dma
    (offset ≠ 0x00 → t.src = d.src) ∧ (offset ≠ 0x04 → t.dst = d.dst) ∧
      (offset ≠ 0x08 → t.length = d.length) ∧ (offset ≠ 0x0C → t.ctrl = d.ctrl) := by
  unfold socDmaWrite
  split
  case h_1 => exact ⟨fun h => absurd rfl h, fun _ => rfl, fun _ => rfl, fun _ => rfl⟩
  case h_2 => exact ⟨fun _ => rfl, fun h => absurd rfl h, fun _ => rfl, fun _ => rfl⟩
  case h_3 => exact ⟨fun _ => rfl, fun _ => rfl, fun h => absurd rfl h, fun _ => rfl⟩
  case h_4 =>
    dsimp only
    split_ifs
    · rw [socDmaStart_frame]
      exact ⟨fun _ => rfl, fun _ => rfl, fun _ => rfl, fun h => absurd rfl h⟩
    · exact ⟨fun _ => rfl, fun _ => rfl, fun _ => rfl, fun h => absurd rfl h⟩
  all_goals exact ⟨fun _ => rfl, fun _ => rfl, fun _ => rfl, fun _ => rfl⟩

theorem socPerfWrite_ctrl {offset : Word} (h : offset ≠ 0x14) (p : SocPerf) (value : Word) :
    (socPerfWrite p offset value).2.ctrl = p.ctrl := by
  unfold socPerfWrite
  split
  case h_6 => exact absurd rfl h
  all_goals rfl

/-- Of the PERF block a write to anything but its CTRL keeps the CTRL. -/
theorem SocWired.write_perf_ctrl {s : Soc} (h : SocWired s) {addr : Word}
    (haddr : addr ≠ vlabPerfCtrl) (value : Word) :
    (socWrite s addr value).soc.perf.ctrl = s.perf.ctrl := by
  by_cases hreg : addr ∈ perfRegs
  · rw [h.write_perfReg hreg value]
    dsimp only
    rw [socPerfWrite_ctrl (ne_of_offset (r := .perfCtrl) haddr (by decide)), (counted_mem _).ctrl]
  · exact (socWrite_counted hreg s value).ctrl

/-- A write to another address. -/
theorem SocWired.write_other {s : Soc} (h : SocWired s) {r : ConfigReg} {addr : Word}
    (haddr : addr ≠ r.addr) (value : Word) :
    (socWrite s addr value).soc.regFile r = s.regFile r := by
  have huart : ((addr ≠ vlabUartCtrl → (socWrite s addr value).soc.uart.ctrl = s.uart.ctrl) ∧
      (addr ≠ vlabUartBauddiv → (socWrite s addr value).soc.uart.bauddiv = s.uart.bauddiv)) := by
    rcases socWrite_uart s addr value with heq | ⟨perf, heq⟩
    · rw [heq]
      exact ⟨fun _ => rfl, fun _ => rfl⟩
    · rw [heq]
      obtain ⟨hctrl, hbaud⟩ := socUartWrite_config s.uart perf (addr - vlabUartBase) value
      exact ⟨fun hne => hctrl (ne_of_offset (r := .uartCtrl) hne (by decide)),
        fun hne => hbaud (ne_of_offset (r := .uartBauddiv) hne (by decide))⟩
  have hdma : let t := (socWrite s addr value).soc.dma
      (addr ≠ vlabDmaSrc → t.src = s.dma.src) ∧ (addr ≠ vlabDmaDst → t.dst = s.dma.dst) ∧
        (addr ≠ vlabDmaLen → t.length = s.dma.length) ∧
        (addr ≠ vlabDmaCtrl → t.ctrl = s.dma.ctrl) := by
    by_cases hreg : addr ∈ dmaRegs
    · rw [h.write_dmaReg hreg value]
      obtain ⟨hsrc, hdst, hlen, hctrl⟩ :=
        socDmaWrite_config s.dma (socPerfCountMem s.perf) (addr - vlabDmaBase) value
      exact ⟨fun hne => hsrc (ne_of_offset (r := .dmaSrc) hne (by decide)),
        fun hne => hdst (ne_of_offset (r := .dmaDst) hne (by decide)),
        fun hne => hlen (ne_of_offset (r := .dmaLen) hne (by decide)),
        fun hne => hctrl (ne_of_offset (r := .dmaCtrl) hne (by decide))⟩
    · rw [socWrite_dma hreg]
      exact ⟨fun _ => rfl, fun _ => rfl, fun _ => rfl, fun _ => rfl⟩
  cases r with
  | uartCtrl => exact huart.1 haddr
  | uartBauddiv => exact huart.2 haddr
  | timerLoad =>
    show (socWrite s addr value).soc.timer.load = s.timer.load
    rcases h.write_timer_cases addr value with ⟨-, -, heq⟩ | ⟨-, heq⟩
    · rw [heq]
      by_cases h0 : addr - vlabTimerBase = 0x00
      · rw [h0, socTimerWrite_ctrl]
      · rw [socTimerWrite_other s.timer h0 value]
        exact if_neg (ne_of_offset (r := .timerLoad) haddr (by decide))
    · rw [heq]
  | dmaSrc => exact hdma.1 haddr
  | dmaDst => exact hdma.2.1 haddr
  | dmaLen => exact hdma.2.2.1 haddr
  | dmaCtrl => exact hdma.2.2.2 haddr
  | intcEnable =>
    show (socWrite s addr value).soc.intc.enable = s.intc.enable
    by_cases hreg : addr ∈ dmaRegs
    · rw [h.write_dmaReg hreg value]
      exact socIntcRaiseAll_enable _ _
    · exact (socWrite_intc hreg s value).2 haddr
  | perfCtrl => exact h.write_perf_ctrl haddr value

/-- A write to the register. -/
theorem SocWired.write_self {s : Soc} (h : SocWired s) (r : ConfigReg) (value : Word) :
    (socWrite s r.addr value).soc.regFile r = r.stored value := by
  have huart : ∀ addr ∈ ([vlabUartTxdata, vlabUartCtrl, vlabUartBauddiv] : List Word),
      addr ≠ vlabUartTxdata → (socWrite s addr value).soc.uart =
        (socUartWrite s.uart (socPerfCountMem s.perf) (addr - vlabUartBase) value).uart :=
    fun addr ha hne => congrArg Soc.uart (h.write_uartReg ha (fun ht => absurd ht hne) value)
  have hdma : ∀ addr ∈ dmaRegs, (socWrite s addr value).soc.dma =
      (socDmaWrite s.dma (socPerfCountMem s.perf) (addr - vlabDmaBase) value).2.dma :=
    fun addr ha => congrArg Soc.dma (h.write_dmaReg ha value)
  cases r with
  | uartCtrl => exact congrArg SocUart.ctrl (huart vlabUartCtrl (by decide) (by decide))
  | uartBauddiv => exact congrArg SocUart.bauddiv (huart vlabUartBauddiv (by decide) (by decide))
  | timerLoad =>
    have hw := (h.write_timer (show vlabTimerLoad % 4 = 0 by decide) (by decide) value).2
    exact congrArg (fun x => x.2.load) hw
  | dmaSrc => exact congrArg SocDma.src (hdma vlabDmaSrc (by decide))
  | dmaDst => exact congrArg SocDma.dst (hdma vlabDmaDst (by decide))
  | dmaLen => exact congrArg SocDma.length (hdma vlabDmaLen (by decide))
  | dmaCtrl => exact congrArg SocDma.ctrl (hdma vlabDmaCtrl (by decide))
  | intcEnable => exact congrArg (fun t => t.intc.enable) (h.write_intc (Or.inl rfl) value)
  | perfCtrl =>
    show (socWrite s vlabPerfCtrl value).soc.perf.ctrl = value
    rw [h.write_perfReg (by decide)]
    show (if value &&& vlabPerfCtrlReset ≠ 0 then _ else _ : SocPerf).ctrl = value
    split_ifs <;> rfl

theorem SocWired.write_regFile {s : Soc} (h : SocWired s) (addr value : Word) :
    (socWrite s addr value).soc.regFile = regModify s.regFile addr fun _ => value := by
  funext r
  rw [regModify]
  split_ifs with haddr
  · rw [haddr, h.write_self]
  · exact h.write_other haddr value

/-! ### Events and read-modify-writes -/

theorem SocWired.boot_regFile {s : Soc} (h : SocWired s) (romWords : Option (List Word))
    (nwords : Word) : (socBoot s romWords nwords).regFile = regBoot := by
  have hreset : (socBootReset s romWords nwords).regFile = regBoot := by
    rw [socBootReset_frame]
    funext r
    cases r <;> rfl
  have hticks : ∀ k, (socTick^[k] (socBootReset s romWords nwords)).regFile = regBoot := by
    intro k
    induction k with
    | zero => exact hreset
    | succ k ih =>
      rw [Function.iterate_succ_apply', ((h.bootReset romWords nwords).ticks k).tick_regFile]
      exact ih
  exact hticks socBootTicks.toNat

theorem SocWired.apply_regFile {s : Soc} (h : SocWired s) (e : SocEvent) :
    (socApply s e).regFile = regEvent s.regFile e := by
  cases e with
  | read addr out => exact h.read_regFile addr out
  | write addr value => exact h.write_regFile addr value
  | tick => exact h.tick_regFile
  | resetPeripherals =>
    funext r
    cases r <;> rfl
  | boot romWords nwords => exact h.boot_regFile romWords nwords
  | raise line =>
    have hsame : SameRegs s (socApply s (.raise line)) :=
      ⟨⟨rfl, rfl⟩, rfl, ⟨rfl, rfl, rfl, rfl⟩, socIntcRaise_enable s.intc line, rfl⟩
    exact hsame.regFile
  | uartStuck b =>
    funext r
    cases r <;> rfl
  | dmaStuck b =>
    funext r
    cases r <;> rfl

/-- What can happen to the registers: an event of the model, or a HAL read-modify-write. -/
inductive RegCall
  | bus (e : SocEvent)
  | setBits (addr mask : Word)
  | clearBits (addr mask : Word)
  | modify (addr mask val : Word)

def regCall (p : Platform) : RegCall → Platform
  | .bus e => { p with gSoc := socApply p.gSoc e }
  | .setBits addr mask => halSetBits p addr mask
  | .clearBits addr mask => halClearBits p addr mask
  | .modify addr mask val => halModifyReg p addr mask val

/-- The same on the register file. -/
def regStep (f : ConfigReg → Word) : RegCall → ConfigReg → Word
  | .bus e => regEvent f e
  | .setBits addr mask => regModify f addr fun cur => cur ||| mask
  | .clearBits addr mask => regModify f addr fun cur => cur &&& ~~~mask
  | .modify addr mask val => regModify f addr fun cur => (cur &&& ~~~mask) ||| (val &&& mask)

/-- Software reads what the file holds. -/
theorem Live.read_config {p : Platform} (h : Live p) (r : ConfigReg) :
    (halReadReg p r.addr).1 = p.gSoc.regFile r := by
  have hread : ∀ addr, (socRead p.gSoc addr 0).rc = .ok → (halReadReg p addr).1 =
      (socReadSwitch { p.gSoc with perf := socPerfCountMem p.gSoc.perf }
        (socBusRoute vlabMemoryMap vlabMemoryMapN addr) addr 0).out := by
    intro addr hok
    rw [halReadReg_eq h, if_neg (not_not.mpr hok), (socRead_of_ok hok).1, h.wired.route]
  have hok : (socRead p.gSoc r.addr 0).rc = .ok :=
    (h.wired.read_ok r.addr 0).mpr (by cases r <;> decide)
  rw [hread r.addr hok]
  cases r with
  | perfCtrl => exact (counted_mem p.gSoc.perf).ctrl
  | _ => rfl

/-- A read-modify-write: what is at the address is modified and stored again. -/
theorem Live.modify_regFile {p : Platform} (h : Live p) (addr : Word) (g : Word → Word) :
    let cur := halReadReg p addr
    Live (halWriteReg cur.2 addr (g cur.1)) ∧
      (halWriteReg cur.2 addr (g cur.1)).gSoc.regFile = regModify p.gSoc.regFile addr g := by
  intro cur
  have hcur : cur.2 = { p with gSoc := (socRead p.gSoc addr 0).soc } :=
    congrArg Prod.snd (halReadReg_eq h addr)
  have hlive : Live cur.2 := by
    rw [hcur]
    exact ⟨h.inited, h.wired.read addr 0⟩
  have hfile : cur.2.gSoc.regFile = p.gSoc.regFile := by
    rw [hcur]
    exact h.wired.read_regFile addr 0
  refine ⟨hlive.write addr _, ?_⟩
  rw [halWriteReg_eq hlive, hlive.wired.write_regFile, hfile]
  funext r
  rw [regModify, regModify]
  split_ifs with haddr
  · subst haddr
    rw [show cur.1 = p.gSoc.regFile r from h.read_config r]
  · rfl

theorem Live.regCall_step {p : Platform} (h : Live p) (c : RegCall) :
    Live (regCall p c) ∧ (regCall p c).gSoc.regFile = regStep p.gSoc.regFile c := by
  cases c with
  | bus e => exact ⟨⟨h.inited, h.wired.apply e⟩, h.wired.apply_regFile e⟩
  | setBits addr mask => exact h.modify_regFile addr fun cur => cur ||| mask
  | clearBits addr mask => exact h.modify_regFile addr fun cur => cur &&& ~~~mask
  | modify addr mask val =>
    exact h.modify_regFile addr fun cur => (cur &&& ~~~mask) ||| (val &&& mask)

/-- The configuration registers are a register file.  On an initialised host, over any run of
bus accesses at any addresses, ticks, peripheral resets, boots, raised lines, fault toggles and
HAL read-modify-writes, they hold what the same run makes of the file, where ticks, reads,
interrupts and accesses elsewhere do nothing; and a HAL read returns what the file holds. -/
theorem register_file {p : Platform} (hin : p.gInited = true) (hsoc : SocReachable p.gSoc)
    (calls : List RegCall) :
    let q := Runs.run regCall p calls
    let f := Runs.run regStep p.gSoc.regFile calls
    q.gSoc.regFile = f ∧
      ∀ r : ConfigReg, (halReadReg q r.addr).1 = f r ∧ (halReadReg q r.addr).2.gSoc.regFile = f := by
  intro q f
  have hlive : Live p := ⟨hin, hsoc.wired⟩
  have hkeep : ∀ v (c : RegCall), True → Live v → Live (regCall v c) :=
    fun v c _ hv => (hv.regCall_step c).1
  have hqlive : Live q := Runs.run_invariant regCall hkeep (fun _ _ => trivial) hlive
  have hq : q.gSoc.regFile = f := by
    have hrun := (Runs.run_refines regCall regStep (fun v : Platform => v.gSoc.regFile) Prod.snd hkeep
      (fun v c _ hv => (hv.regCall_step c).2) (fun c (_ : c ∈ calls) => trivial) hlive).1
    rw [Runs.map_snd_stages] at hrun
    exact hrun
  refine ⟨hq, fun r => ⟨by rw [hqlive.read_config r, hq], ?_⟩⟩
  rw [halReadReg_eq hqlive]
  exact (hqlive.wired.read_regFile r.addr 0).trans hq

theorem register_file_masked :
    let q := Runs.run regCall (socHostInit (platformStart default) none)
      [.bus (.write vlabDmaCtrl 0x3), .setBits vlabIntcEnable 0xC, .bus .tick,
        .modify vlabUartBauddiv 0xF0 0xAB, .clearBits vlabUartBauddiv 0x20]
    (halReadReg q vlabDmaCtrl).1 = 0x2 ∧ (halReadReg q vlabIntcEnable).1 = 0x4 ∧
      (halReadReg q vlabUartBauddiv).1 = 0x80 := by
  intro q
  have hreach : SocReachable (socHostInit (platformStart default) none).gSoc :=
    ⟨default, some socConfigDefault, [], rfl⟩
  have hread := (register_file (p := socHostInit (platformStart default) none) rfl hreach
    [.bus (.write vlabDmaCtrl 0x3), .setBits vlabIntcEnable 0xC, .bus .tick,
      .modify vlabUartBauddiv 0xF0 0xAB, .clearBits vlabUartBauddiv 0x20]).2
  exact ⟨(hread .dmaCtrl).1.trans (by decide), (hread .intcEnable).1.trans (by decide),
    (hread .uartBauddiv).1.trans (by decide)⟩

end VlabSoc
