/-
UART and TIMER are isolated from the rest of the SoC.

`Soc.front` is what the two peripherals consist of, the UART without its DMA
streams.  Accesses outside their windows and the stuck latch of the engine keep
it (`front_kept`); ticks, accesses to the two windows and the stuck latch of the
UART change it in a way that depends on nothing else, and so do the values read
and the lines raised (`front_congr`).  These are the conditions of an unwinding,
and `front_isolated` is what follows for two runs.
-/
import VlabSoc.Unwinding
import VlabSoc.DmaFaults

namespace VlabSoc

/-! ### The UART without its streams -/

def SocUart.core (u : SocUart) : SocUart := { u with dmaTx := default, dmaRx := default }

theorem socUartRead_core (u : SocUart) (offset out : Word) :
    (socUartRead u offset out).rc = (socUartRead u.core offset out).rc ∧
      (socUartRead u offset out).out = (socUartRead u.core offset out).out ∧
      (socUartRead u offset out).uart.core = (socUartRead u.core offset out).uart.core := by
  unfold socUartRead
  split <;> exact ⟨rfl, rfl, rfl⟩

theorem socUartWrite_core (u : SocUart) (perf perf' : SocPerf) (offset value : Word) :
    (socUartWrite u perf offset value).rc = (socUartWrite u.core perf' offset value).rc ∧
      (socUartWrite u perf offset value).uart.core =
        (socUartWrite u.core perf' offset value).uart.core := by
  unfold socUartWrite
  split
  · by_cases h : u.ctrl &&& socUartCtrlEnable = 0
    · rw [if_pos h, if_pos (show u.core.ctrl &&& socUartCtrlEnable = 0 from h)]
      exact ⟨rfl, rfl⟩
    · rw [if_neg h, if_neg (show ¬ u.core.ctrl &&& socUartCtrlEnable = 0 from h)]
      exact ⟨rfl, rfl⟩
  all_goals exact ⟨rfl, rfl⟩

theorem socUartDmaTxAppend_core (u : SocUart) (payload : Buf Byte) (len : Word) :
    (socUartDmaTxAppend u payload len).core = u.core := by
  unfold socUartDmaTxAppend
  split_ifs <;> rfl

/-- The streams neither delay the UART nor make it raise. -/
theorem socUartStep_core (u : SocUart) :
    (socUartStep u).1.core = (socUartStep u.core).1.core ∧
      (socUartStep u).2 = (socUartStep u.core).2 := by
  have hbusy : u.core.busy = u.busy := rfl
  have hstuck : u.core.faultStuckBusy = u.faultStuckBusy := rfl
  unfold socUartStep
  rw [hbusy, hstuck]
  split_ifs
  · exact ⟨rfl, rfl⟩
  · dsimp only
    split_ifs
    · rw [socUartDmaTxAppend_core, socUartDmaTxAppend_core]
      exact ⟨rfl, rfl⟩
    · exact ⟨rfl, rfl⟩
  · exact ⟨rfl, rfl⟩

/-! ### The two peripherals in the SoC -/

/-- UART, without its streams, and TIMER. -/
def Soc.front (s : Soc) : SocUart × SocTimer := (s.uart.core, s.timer)

/-- An address of the UART or TIMER window. -/
def FrontWindow (addr : Word) : Prop :=
  InWindow vlabUartBase 4096 addr ∨ InWindow vlabTimerBase 4096 addr

instance (addr : Word) : Decidable (FrontWindow addr) := inferInstanceAs (Decidable (_ ∨ _))

/-- Ticks, accesses to the two windows and the UART's stuck latch. -/
def SocEvent.onFront : SocEvent → Bool
  | .read addr _ => decide (FrontWindow addr)
  | .write addr _ => decide (FrontWindow addr)
  | .tick => true
  | .uartStuck _ => true
  | _ => false

/-- Everything but resets and boots. -/
def SocEvent.keepsPower : SocEvent → Prop
  | .resetPeripherals => False
  | .boot _ _ => False
  | _ => True

/-- What an event shows of the two: its result and, on a tick, the lines they raise. -/
def frontOutput (s : Soc) (e : SocEvent) : SocResult × List Int :=
  (socResult s e,
    match e with
    | .tick => (socUartStep s.uart).2 ++ (socTimerStep s.timer).2
    | _ => [])

/-- The route of an address in the UART or TIMER window, and of the others. -/
theorem SocWired.route_front {s : Soc} (h : SocWired s) {addr : Word} (h4 : addr % 4 = 0) :
    (InWindow vlabUartBase 4096 addr → socRoute s addr = 2) ∧
      (InWindow vlabTimerBase 4096 addr → socRoute s addr = 3) ∧
      (¬ FrontWindow addr → socRoute s addr ≠ 2 ∧ socRoute s addr ≠ 3) := by
  rw [h.route, socBusRoute_vlab ((dvd_four_iff addr).mp h4)]
  have hu : vlabUartBase.toNat = 0x20000000 := rfl
  have ht : vlabTimerBase.toNat = 0x20001000 := rfl
  -- the table is searched in order: ROM and SRAM lie below, UART comes before TIMER
  have hlow : FrontWindow addr →
      ¬ InWindow vlabRomBase 16384 addr ∧ ¬ InWindow vlabSramBase 65536 addr := by
    intro hw
    have hge : 0x20000000 ≤ addr.toNat := by
      rcases hw with hw | hw
      · exact hu ▸ hw.1
      · exact le_trans (by decide) (ht ▸ hw.1)
    exact ⟨fun h0 => absurd (rom_low h0) (by omega), fun h0 => absurd (sram_low h0).2 (by omega)⟩
  refine ⟨fun hw => ?_, fun hw => ?_, fun hw => ?_⟩
  · rw [if_neg (hlow (Or.inl hw)).1, if_neg (hlow (Or.inl hw)).2, if_pos hw]
  · have hno : ¬ InWindow vlabUartBase 4096 addr := fun h0 => by
      have h1 := hw.1
      have h2 := h0.2
      rw [ht] at h1
      rw [hu] at h2
      omega
    rw [if_neg (hlow (Or.inr hw)).1, if_neg (hlow (Or.inr hw)).2, if_neg hno, if_pos hw]
  · rw [FrontWindow, not_or] at hw
    rw [if_neg hw.1, if_neg hw.2]
    split_ifs <;> decide

theorem dmaDrained_core (s : Soc) (src len : Word) :
    (dmaDrained s src len).core = s.uart.core := by
  rw [dmaDrained_uart]
  rfl

/-- The DMA step moves bytes of the streams only. -/
theorem SocWired.tickDma_front {s : Soc} (h : SocWired s) : (socTickDma s).front = s.front := by
  have hdrain := dmaDrained_core s s.dma.src s.dma.length
  rcases h.tickDma_cases with ⟨-, heq⟩ | ⟨-, -, -, heq⟩ | ⟨-, -, heq⟩ | ⟨-, -, -, heq⟩ |
    ⟨-, -, -, heq⟩
  · rw [heq]
  · rw [heq]
    rfl
  · rw [heq]
    rfl
  · rw [heq]
    exact congrArg (fun u => (u, s.timer)) hdrain
  · have hmoved : (dmaMoved s s.dma.src s.dma.dst s.dma.length).uart.core = s.uart.core := by
      rw [moved_uart]
      split_ifs
      · rw [socUartDmaTxAppend_core, hdrain]
      · exact hdrain
    rw [heq]
    exact congrArg (fun u => (u, s.timer)) hmoved

theorem SocWired.tick_front {s : Soc} (h : SocWired s) :
    (socTick s).front = ((socUartStep s.uart).1.core, (socTimerStep s.timer).1) :=
  h.tickFront.tickDma_front

/-! ### The unwinding conditions -/

/-- Everything else leaves the two peripherals alone. -/
theorem front_kept {s : Soc} (h : SocWired s) {e : SocEvent} (he : e.keepsPower)
    (hoff : e.onFront = false) : (socApply s e).front = s.front := by
  cases e with
  | read addr out =>
    by_cases h4 : addr % 4 = 0
    · obtain ⟨hne, -⟩ := (h.route_front h4).2.2 (of_decide_eq_false hoff)
      obtain ⟨-, -, perf, hsoc⟩ := socRead_switch s out h4
      rw [socApply, hsoc]
      show (socReadSwitch _ _ addr out).soc.front = _
      -- only the UART branch of the switch writes to the two
      unfold socReadSwitch
      split
      case h_3 hkind => exact absurd hkind hne
      all_goals rfl
    · rw [socApply, socRead, if_pos h4]
      rfl
  | write addr value =>
    by_cases h4 : addr % 4 = 0
    · obtain ⟨hne2, hne3⟩ := (h.route_front h4).2.2 (of_decide_eq_false hoff)
      obtain ⟨-, perf, hsoc⟩ := socWrite_switch s value h4
      rw [socApply, hsoc]
      show (socWriteSwitch _ _ addr value).soc.front = _
      unfold socWriteSwitch
      split
      case h_3 hkind => exact absurd hkind hne2
      case h_4 hkind => exact absurd hkind hne3
      all_goals rfl
    · rw [socApply, socWrite_misaligned s value h4]
      rfl
  | tick => exact absurd hoff (by decide)
  | resetPeripherals => exact absurd he id
  | boot romWords nwords => exact absurd he id
  | raise line => rfl
  | uartStuck b => exact absurd hoff Bool.false_ne_true.symm
  | dmaStuck b => rfl

/-! ### Accesses to the two windows -/

section Window

variable {s : Soc} (h : SocWired s) {addr : Word} (h4 : addr % 4 = 0)

include h h4

theorem SocWired.read_uart (hw : InWindow vlabUartBase 4096 addr) (out : Word) :
    let r := socUartRead s.uart (addr - vlabUartBase) out
    (socRead s addr out).rc = r.rc ∧ (socRead s addr out).out = r.out ∧
      (socRead s addr out).soc.front = (r.uart.core, s.timer) := by
  obtain ⟨hrc, hout, perf, hsoc⟩ := socRead_switch s out h4
  rw [(h.route_front h4).1 hw] at hrc hout hsoc
  rw [hrc, hout, hsoc]
  exact ⟨rfl, rfl, rfl⟩

theorem SocWired.read_timer (hw : InWindow vlabTimerBase 4096 addr) (out : Word) :
    let r := socTimerRead s.timer (addr - vlabTimerBase) out
    (socRead s addr out).rc = r.1 ∧ (socRead s addr out).out = r.2 ∧
      (socRead s addr out).soc.front = s.front := by
  obtain ⟨hrc, hout, perf, hsoc⟩ := socRead_switch s out h4
  rw [(h.route_front h4).2.1 hw] at hrc hout hsoc
  rw [hrc, hout, hsoc]
  exact ⟨rfl, rfl, rfl⟩

theorem SocWired.write_uart (hw : InWindow vlabUartBase 4096 addr) (value : Word) :
    let r := socUartWrite s.uart (socPerfCountMem s.perf) (addr - vlabUartBase) value
    (socWrite s addr value).rc = r.rc ∧
      (socWrite s addr value).soc.front = (r.uart.core, s.timer) := by
  obtain ⟨hrc, perf, hsoc⟩ := socWrite_switch s value h4
  rw [(h.route_front h4).1 hw] at hrc hsoc
  rw [hrc, hsoc]
  exact ⟨rfl, rfl⟩

theorem SocWired.write_timer (hw : InWindow vlabTimerBase 4096 addr) (value : Word) :
    let r := socTimerWrite s.timer (addr - vlabTimerBase) value
    (socWrite s addr value).rc = r.1 ∧ (socWrite s addr value).soc.front = (s.uart.core, r.2) := by
  obtain ⟨hrc, perf, hsoc⟩ := socWrite_switch s value h4
  rw [(h.route_front h4).2.1 hw] at hrc hsoc
  rw [hrc, hsoc]
  exact ⟨rfl, rfl⟩

end Window

section Congruence

variable {s t : Soc} (hs : SocWired s) (ht : SocWired t) (hfront : s.front = t.front)

include hs ht hfront

/-- A read of the two windows finds and leaves the same in SoCs that agree on the two. -/
theorem read_front_congr {addr : Word} (hon : FrontWindow addr) (out : Word) :
    (socRead s addr out).soc.front = (socRead t addr out).soc.front ∧
      socResult s (.read addr out) = socResult t (.read addr out) := by
  obtain ⟨huart, htimer⟩ := Prod.mk.inj hfront
  rw [socResult, socResult]
  by_cases h4 : addr % 4 = 0
  · rcases hon with hw | hw
    · obtain ⟨hrc, hout, hsoc⟩ := hs.read_uart h4 hw out
      obtain ⟨hrc', hout', hsoc'⟩ := ht.read_uart h4 hw out
      obtain ⟨crc, cout, csoc⟩ := socUartRead_core s.uart (addr - vlabUartBase) out
      obtain ⟨crc', cout', csoc'⟩ := socUartRead_core t.uart (addr - vlabUartBase) out
      rw [huart] at crc cout csoc
      rw [hrc, hrc', hout, hout', hsoc, hsoc', crc, crc', cout, cout', csoc, csoc', htimer]
      exact ⟨rfl, rfl⟩
    · obtain ⟨hrc, hout, hsoc⟩ := hs.read_timer h4 hw out
      obtain ⟨hrc', hout', hsoc'⟩ := ht.read_timer h4 hw out
      rw [hrc, hrc', hout, hout', hsoc, hsoc', htimer]
      exact ⟨hfront, rfl⟩
  · -- a stall, wherever it is addressed to
    rw [socRead, if_pos h4, socRead, if_pos h4]
    exact ⟨hfront, rfl⟩

theorem write_front_congr {addr : Word} (hon : FrontWindow addr) (value : Word) :
    (socWrite s addr value).soc.front = (socWrite t addr value).soc.front ∧
      socResult s (.write addr value) = socResult t (.write addr value) := by
  obtain ⟨huart, htimer⟩ := Prod.mk.inj hfront
  rw [socResult, socResult]
  by_cases h4 : addr % 4 = 0
  · rcases hon with hw | hw
    · obtain ⟨hrc, hsoc⟩ := hs.write_uart h4 hw value
      obtain ⟨hrc', hsoc'⟩ := ht.write_uart h4 hw value
      obtain ⟨crc, csoc⟩ := socUartWrite_core s.uart (socPerfCountMem s.perf) default
        (addr - vlabUartBase) value
      obtain ⟨crc', csoc'⟩ := socUartWrite_core t.uart (socPerfCountMem t.perf) default
        (addr - vlabUartBase) value
      rw [huart] at crc csoc
      rw [hrc, hrc', hsoc, hsoc', crc, crc', csoc, csoc', htimer]
      exact ⟨rfl, rfl⟩
    · obtain ⟨hrc, hsoc⟩ := hs.write_timer h4 hw value
      obtain ⟨hrc', hsoc'⟩ := ht.write_timer h4 hw value
      rw [hrc, hrc', hsoc, hsoc', htimer, huart]
      exact ⟨rfl, rfl⟩
  · rw [socWrite_misaligned s value h4, socWrite_misaligned t value h4]
    exact ⟨hfront, rfl⟩

/-- What the two peripherals become and show depends on the two alone. -/
theorem front_congr {e : SocEvent} (hon : e.onFront = true) :
    (socApply s e).front = (socApply t e).front ∧ frontOutput s e = frontOutput t e := by
  obtain ⟨huart, htimer⟩ := Prod.mk.inj hfront
  cases e with
  | read addr out =>
    obtain ⟨hsoc, hres⟩ := read_front_congr hs ht hfront (of_decide_eq_true hon) out
    exact ⟨hsoc, Prod.ext hres rfl⟩
  | write addr value =>
    obtain ⟨hsoc, hres⟩ := write_front_congr hs ht hfront (of_decide_eq_true hon) value
    exact ⟨hsoc, Prod.ext hres rfl⟩
  | tick =>
    obtain ⟨cstep, craise⟩ := socUartStep_core s.uart
    obtain ⟨cstep', craise'⟩ := socUartStep_core t.uart
    rw [huart] at cstep craise
    refine ⟨?_, Prod.ext rfl ?_⟩
    · rw [socApply, socApply, hs.tick_front, ht.tick_front, cstep, cstep', htimer]
    · show (socUartStep s.uart).2 ++ (socTimerStep s.timer).2 = _
      rw [craise, ← craise', htimer]
      rfl
  | uartStuck b =>
    refine ⟨Prod.ext ?_ htimer, rfl⟩
    exact congrArg (fun u : SocUart => { u with faultStuckBusy := b }) huart
  | resetPeripherals => exact absurd hon Bool.false_ne_true
  | boot romWords nwords => exact absurd hon Bool.false_ne_true
  | raise line => exact absurd hon Bool.false_ne_true
  | dmaStuck b => exact absurd hon Bool.false_ne_true

end Congruence

theorem front_unwinding :
    Runs.Unwinding socApply SocEvent.onFront frontOutput SocEvent.keepsPower SocWired
      (fun s t => s.front = t.front) where
  inv _ hs := hs.apply _
  left he hoff hs _ hL := (front_kept hs he hoff).trans hL
  right he hoff _ ht hL := hL.trans (front_kept ht he hoff).symm
  both _ hon hs ht hL := (front_congr hs ht hL hon).1
  out_eq _ hon hs ht hL := (front_congr hs ht hL hon).2

/-! ### Boot and tick latency -/

/-- UART and TIMER out of reset. -/
def frontReset (latencyTicks : Word) : SocUart × SocTimer :=
  ((socUartInit default latencyTicks).core, socTimerInit)

/-- Out of reset the two do nothing by themselves. -/
theorem SocWired.tick_frontReset {s : Soc} (h : SocWired s) {latencyTicks : Word}
    (hfront : s.front = frontReset latencyTicks) :
    (socTick s).front = frontReset latencyTicks := by
  obtain ⟨huart, htimer⟩ := Prod.mk.inj hfront
  rw [h.tick_front, (socUartStep_core s.uart).1, huart, htimer]
  rfl

/-- `soc_boot` resets the two, but for the latency of the UART. -/
theorem SocWired.boot_front {s : Soc} (h : SocWired s) (romWords : Option (List Word))
    (nwords : Word) :
    (socBoot s romWords nwords).config = s.config ∧
      (socBoot s romWords nwords).front = frontReset s.uart.latencyTicks := by
  have hreset : (socBootReset s romWords nwords).config = s.config ∧
      (socBootReset s romWords nwords).front = frontReset s.uart.latencyTicks := by
    rw [socBootReset_frame]
    exact ⟨rfl, rfl⟩
  have hticks : ∀ e ∈ List.replicate socBootTicks.toNat SocEvent.tick, e = .tick := fun e he =>
    List.eq_of_mem_replicate he
  have hrun := Runs.run_invariant socApply
    (P := fun t => SocWired t ∧ t.config = s.config ∧ t.front = frontReset s.uart.latencyTicks)
    (fun t e he ht => by
      subst he
      exact ⟨ht.1.tick, ht.2.1, ht.1.tick_frontReset ht.2.2⟩)
    hticks ⟨h.bootReset romWords nwords, hreset⟩
  -- `soc_boot` ends in `soc_step`, which is that run
  rw [← socStep_eq_run] at hrun
  exact hrun.2

/-- `soc_init` alone sets the tick latency of the UART. -/
theorem socApply_latency {s : Soc} (h : SocWired s) (e : SocEvent) :
    (socApply s e).config = s.config ∧
      (socApply s e).uart.latencyTicks = s.uart.latencyTicks := by
  cases e with
  | read addr out =>
    refine ⟨by rw [socApply, socRead_frame], ?_⟩
    rcases socRead_uart s addr out with heq | heq
    · rw [socApply, heq]
    · rw [socApply, heq, socUartRead_frame]
  | write addr value =>
    refine ⟨(socWrite_keeps s addr value).config, ?_⟩
    rcases socWrite_uart s addr value with heq | ⟨perf, heq⟩
    · rw [socApply, heq]
    · rw [socApply, heq, socUartWrite_frame]
  | tick =>
    -- the DMA half keeps the UART but for its streams
    have hcore := congrArg (fun f => f.1.latencyTicks) h.tick_front
    refine ⟨rfl, Eq.trans hcore ?_⟩
    show (socUartStep s.uart).1.latencyTicks = _
    unfold socUartStep
    split_ifs
    · rfl
    · dsimp only
      split_ifs
      · unfold socUartDmaTxAppend
        split_ifs <;> rfl
      · rfl
    · rfl
  | resetPeripherals => exact ⟨rfl, rfl⟩
  | boot romWords nwords =>
    obtain ⟨hconfig, hfront⟩ := h.boot_front romWords nwords
    exact ⟨hconfig, congrArg (fun f => f.1.latencyTicks) hfront⟩
  | raise line => exact ⟨rfl, rfl⟩
  | uartStuck b => exact ⟨rfl, rfl⟩
  | dmaStuck b => exact ⟨rfl, rfl⟩

theorem SocReachable.uart_latency {s : Soc} (h : SocReachable s) :
    s.uart.latencyTicks = s.config.uartLatencyTicks := by
  obtain ⟨s0, cfg, es, rfl⟩ := h
  have hall : ∀ e ∈ es, True := fun _ _ => trivial
  have hrun := Runs.run_invariant socApply
    (P := fun t => SocWired t ∧ t.uart.latencyTicks = t.config.uartLatencyTicks)
    (fun t e _ ht => by
      obtain ⟨hconfig, hlat⟩ := socApply_latency ht.1 e
      exact ⟨ht.1.apply e, by rw [hlat, hconfig, ht.2]⟩)
    hall ⟨socInit_wired s0 cfg, rfl⟩
  exact hrun.2

/-! ### Two runs from boot -/

/-- UART and TIMER are isolated: two runs from boot, of SoCs with the same UART latency,
that agree on ticks, on accesses to the two windows and on the UART's stuck latch give the
same results there and raise lines 0 and 1 at the same ticks, whatever else they do. -/
theorem front_isolated {s t : Soc} (hs : SocReachable s) (ht : SocReachable t)
    (hcfg : s.config.uartLatencyTicks = t.config.uartLatencyTicks)
    (romWords romWords' : Option (List Word)) (nwords nwords' : Word) {es fs : List SocEvent}
    (hes : ∀ e ∈ es, e.keepsPower) (hfs : ∀ e ∈ fs, e.keepsPower)
    (hsame : es.filter SocEvent.onFront = fs.filter SocEvent.onFront) :
    Runs.outputs socApply SocEvent.onFront frontOutput (socBoot s romWords nwords) es =
        Runs.outputs socApply SocEvent.onFront frontOutput (socBoot t romWords' nwords') fs ∧
      (Runs.run socApply (socBoot s romWords nwords) es).front =
        (Runs.run socApply (socBoot t romWords' nwords') fs).front := by
  have hlat : s.uart.latencyTicks = t.uart.latencyTicks := by
    rw [hs.uart_latency, ht.uart_latency, hcfg]
  have hboot : (socBoot s romWords nwords).front = (socBoot t romWords' nwords').front := by
    rw [(hs.wired.boot_front romWords nwords).2, (ht.wired.boot_front romWords' nwords').2, hlat]
  exact front_unwinding.runs hes hfs hsame (hs.wired.boot romWords nwords)
    (ht.wired.boot romWords' nwords') hboot

/-- A byte sent while nothing else happens, and while the other run starts a transfer. -/
theorem front_isolated_transfer :
    let s := socBoot (socInit default none) none 0
    let es : List SocEvent :=
      [.write vlabUartCtrl 0x1, .write vlabUartTxdata 0x41, .tick, .read vlabUartStatus 0]
    let fs : List SocEvent :=
      [.write vlabDmaSrc vlabSramBase, .write vlabDmaDst vlabUartTxdata, .write vlabDmaLen 4,
        .write vlabDmaCtrl 0x3, .write vlabUartCtrl 0x1, .write vlabUartTxdata 0x41, .tick,
        .dmaStuck true, .read vlabUartStatus 0]
    Runs.outputs socApply SocEvent.onFront frontOutput s es =
      Runs.outputs socApply SocEvent.onFront frontOutput s fs := by
  intro s es fs
  have hinit : SocReachable (socInit default none) := ⟨default, none, [], rfl⟩
  have hes : ∀ e ∈ es, e.keepsPower := by simp [es, SocEvent.keepsPower]
  have hfs : ∀ e ∈ fs, e.keepsPower := by simp [fs, SocEvent.keepsPower]
  have hsame : es.filter SocEvent.onFront = fs.filter SocEvent.onFront := rfl
  exact (front_isolated hinit hinit rfl none none 0 0 hes hfs hsame).1

end VlabSoc
