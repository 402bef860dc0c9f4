/-
Bytes through the UART driver, exactly once and in order.

Writes, reads and steps of the host after boot and `uart_init` are taken apart into moves,
a step of `n` ticks into `n` moves.  Over a run of moves

* what was accepted is what was completed and what is in flight (`ExactlyOnce.order`);
* what was completed and not overwritten is what was read and what is unread, so the bytes
  read are a subsequence of the bytes accepted (`ExactlyOnce.subsequence`).

`uart_exactly_once` puts these and the timing together.
-/
import VlabSoc.TimerPeriod
import VlabSoc.UartDriver

namespace VlabSoc

/-! ### Calls and moves -/

inductive UartCall
  | write (b : Byte)
  | read (out : Option Byte)
  | hostStep (n : Word)

def uartCall (p : Platform) : UartCall → Platform
  | .write b => (uartWriteByte p b).2
  | .read out => (uartReadByte p out).platform
  | .hostStep n => socHostStep p n

/-- A call, or one tick of a step. -/
inductive UartMove
  | write (b : Byte)
  | read (out : Option Byte)
  | tick

def uartMove (p : Platform) : UartMove → Platform
  | .write b => (uartWriteByte p b).2
  | .read out => (uartReadByte p out).platform
  | .tick => socHostStep p 1

def UartCall.moves : UartCall → List UartMove
  | .write b => [.write b]
  | .read out => [.read out]
  | .hostStep n => List.replicate n.toNat .tick

def UartMove.isTick : UartMove → Bool
  | .tick => true
  | _ => false

/-- The byte a move accepts, completes, or takes. -/
def uartAccepted : Platform × UartMove → List Byte
  | (p, .write b) => if (uartWriteByte p b).1 = .ok then [b] else []
  | (_, .read _) => []
  | (_, .tick) => []

def uartCompleted : Platform × UartMove → List Byte
  | (_, .write _) => []
  | (_, .read _) => []
  | (p, .tick) => if uartCompletes p.gSoc.uart then [uartByte p.gSoc.uart] else []

def uartTaken : Platform × UartMove → List Byte
  | (_, .write _) => []
  | (p, .read out) => if (uartReadByte p out).rc = .ok then [uartReceived p.gSoc.uart] else []
  | (_, .tick) => []

/-- The byte between acceptance and completion, and between completion and read. -/
def uartInFlight (p : Platform) : List Byte :=
  if 0 < p.gSoc.uart.busy then [uartByte p.gSoc.uart] else []

def uartUnread (p : Platform) : List Byte :=
  if p.gSoc.uart.rxValid then [uartReceived p.gSoc.uart] else []

/-! ### One move -/

/-- The platform between two moves, with the tick latency `lat`. -/
structure UartReady (lat : Word) (p : Platform) : Prop where
  live : Live p
  enabled : p.gSoc.uart.ctrl &&& socUartCtrlEnable ≠ 0
  unstuck : p.gSoc.uart.faultStuckBusy = false
  latency : p.gSoc.uart.latencyTicks = lat
  idle : p.gSoc.dma.busy = false
  nonneg : 0 ≤ p.gSoc.uart.busy

theorem Live.host_tick {p : Platform} (h : Live p) :
    socHostStep p 1 = { p with gSoc := socTick p.gSoc } := by
  rw [socHostStep, h.ensure, socStep_eq_run]
  rfl

theorem uartCount_eq {lat : Word} (hlat : lat.toNat < 2 ^ 31) :
    uartCount lat = max lat.toNat 1 := by
  unfold uartCount
  split_ifs with h
  · rw [BitVec.toInt_eq_toNat_of_lt (by omega)]
    bv_omega
  · have h0 : lat.toNat = 0 := by bv_omega
    rw [h0]
    rfl

theorem uartByte_written (b : Byte) : ((b.setWidth 32 : Word) &&& 0xFF).setWidth 8 = b := by
  have hb := b.isLt
  refine BitVec.eq_of_toNat_eq ?_
  rw [byte_mask, BitVec.toNat_setWidth, BitVec.toNat_setWidth, Nat.mod_eq_of_lt (a := b.toNat)
    (by omega), Nat.mod_eq_of_lt hb]

section Move

variable {lat : Word} (hlat : lat.toNat < 2 ^ 31) {p : Platform} (h : UartReady lat p)

include h

theorem MemAccOnly.ready {q : Platform} (hk : MemAccOnly p q) : UartReady lat q := by
  have hlive := hk.live h.live
  obtain ⟨m, rfl⟩ := hk
  exact ⟨hlive, h.enabled, h.unstuck, h.latency, h.idle, h.nonneg⟩

theorem UartReady.of_uart {u : SocUart} {perf : SocPerf}
    (hctrl : u.ctrl = p.gSoc.uart.ctrl) (hstuck : u.faultStuckBusy = p.gSoc.uart.faultStuckBusy)
    (hlatency : u.latencyTicks = p.gSoc.uart.latencyTicks) (hnonneg : 0 ≤ u.busy) :
    UartReady lat { p with gSoc := { p.gSoc with uart := u, perf := perf } } :=
  ⟨⟨h.live.inited, h.live.wired.of_eq rfl rfl rfl rfl rfl rfl⟩, hctrl ▸ h.enabled,
    hstuck.trans h.unstuck, hlatency.trans h.latency, h.idle, hnonneg⟩

include hlat

/-- A write is refused while a byte is in flight, and accepted otherwise. -/
theorem UartReady.write (b : Byte) :
    UartReady lat (uartMove p (.write b)) ∧
      (uartMove p (.write b)).gSoc.intc = p.gSoc.intc ∧
      ((0 < p.gSoc.uart.busy ∧ (uartWriteByte p b).1 = .errTimeout ∧
          MemAccOnly p (uartMove p (.write b))) ∨
        (p.gSoc.uart.busy = 0 ∧ (uartWriteByte p b).1 = .ok ∧
          (uartMove p (.write b)).gSoc.uart =
            { p.gSoc.uart with txdata := b.setWidth 32, busy := uartCount lat })) := by
  have hnonneg := h.nonneg
  rcases uartWriteByte_cases h.live b with ⟨hoff, -⟩ | ⟨-, hb, hrc, hk⟩ | ⟨-, hb, hrc, perf, heq⟩
  · exact absurd hoff h.enabled
  · refine ⟨hk.ready h, ?_, Or.inl ⟨hb, hrc, hk⟩⟩
    obtain ⟨m, heq⟩ := hk
    rw [uartMove, heq]
    rfl
  · rw [uartMove, heq, h.latency]
    refine ⟨h.of_uart rfl rfl (by rw [h.latency]) ?_, rfl, Or.inr ⟨by omega, hrc, rfl⟩⟩
    show 0 ≤ uartCount lat
    rw [uartCount_eq hlat]
    omega

omit hlat in
/-- A read takes the byte there is. -/
theorem UartReady.read (out : Option Byte) :
    UartReady lat (uartMove p (.read out)) ∧
      (uartMove p (.read out)).gSoc.intc = p.gSoc.intc ∧
      (uartMove p (.read out)).gSoc.uart = { p.gSoc.uart with rxValid := false } ∧
      ((uartReadByte p out).rc = .ok ↔ p.gSoc.uart.rxValid = true) := by
  rcases uartReadByte_cases h.live out with ⟨hv, hrc, -, hk⟩ | ⟨hv, hrc, -, perf, heq⟩
  · refine ⟨hk.ready h, ?_, ?_, ?_⟩
    · obtain ⟨m, heq⟩ := hk
      rw [uartMove, heq]
      rfl
    · rw [uartMove, hk.uart, ← hv]
    · rw [hrc, hv]
      decide
  · rw [uartMove, heq]
    exact ⟨h.of_uart rfl rfl rfl h.nonneg, rfl, rfl, iff_of_true hrc hv⟩

omit hlat in
theorem UartReady.rc_iff (out : Option Byte) :
    (uartReadByte p out).rc = .ok ↔ uartUnread p ≠ [] := by
  rw [(h.read out).2.2.2, uartUnread]
  split_ifs with hv
  · exact iff_of_true hv (List.cons_ne_nil _ _)
  · exact iff_of_false hv (not_not.mpr rfl)

omit hlat in
theorem UartReady.tick_soc : (uartMove p .tick).gSoc = socTickFront p.gSoc := by
  rw [uartMove, h.live.host_tick]
  exact socTickDma_idle (Or.inl h.idle)

omit hlat in
/-- A tick completes the byte in flight on its last tick, and counts before. -/
theorem UartReady.tick :
    UartReady lat (uartMove p .tick) ∧
      ((p.gSoc.uart.busy = 1 ∧ uartCompleted (p, .tick) = [uartByte p.gSoc.uart] ∧
          (uartMove p .tick).gSoc.uart.core = { p.gSoc.uart.core with
            busy := 0, rxdata := p.gSoc.uart.txdata, rxValid := true }) ∨
        (p.gSoc.uart.busy ≠ 1 ∧ uartCompleted (p, .tick) = [] ∧
          (uartMove p .tick).gSoc.uart =
            { p.gSoc.uart with busy := p.gSoc.uart.busy - if 0 < p.gSoc.uart.busy then 1 else 0 })) := by
  have hsoc := h.tick_soc
  have huart : (uartMove p .tick).gSoc.uart = (socUartStep p.gSoc.uart).1 := by rw [hsoc]; rfl
  have hlive : Live (uartMove p .tick) := by
    rw [uartMove, h.live.host_tick]
    exact ⟨h.live.inited, h.live.wired.tick⟩
  have hidle : (uartMove p .tick).gSoc.dma.busy = false := by
    rw [hsoc]
    exact h.idle
  have hnonneg := h.nonneg
  rw [uartCompleted, huart]
  cases hc : uartCompletes p.gSoc.uart with
  | true =>
    have hbusy : p.gSoc.uart.busy = 1 := by
      rw [uartCompletes, Bool.and_eq_true, decide_eq_true_iff] at hc
      exact hc.1
    have hcore : (socUartStep p.gSoc.uart).1.core = { p.gSoc.uart.core with
        busy := 0, rxdata := p.gSoc.uart.txdata, rxValid := true } := by
      rw [socUartStep_complete hc, socUartDmaTxAppend_core]
      rfl
    refine ⟨⟨hlive, ?_, ?_, ?_, hidle, ?_⟩, Or.inl ⟨hbusy, rfl, hcore⟩⟩
    · have hctrl : (socUartStep p.gSoc.uart).1.ctrl = p.gSoc.uart.ctrl := by
        show (socUartStep p.gSoc.uart).1.core.ctrl = _
        rw [hcore]
        rfl
      rw [huart, hctrl]
      exact h.enabled
    · rw [huart]
      exact (congrArg SocUart.faultStuckBusy hcore).trans h.unstuck
    · rw [huart]
      exact (congrArg SocUart.latencyTicks hcore).trans h.latency
    · rw [huart]
      exact (congrArg SocUart.busy hcore).symm.le
  | false =>
    have hbusy : p.gSoc.uart.busy ≠ 1 := by
      intro h1
      rw [uartCompletes, decide_eq_true h1, h.unstuck] at hc
      exact absurd hc (by decide)
    have hstep : (socUartStep p.gSoc.uart).1 = { p.gSoc.uart with
        busy := p.gSoc.uart.busy - if 0 < p.gSoc.uart.busy then 1 else 0 } := by
      rw [socUartStep_count hc]
      by_cases hpos : 0 < p.gSoc.uart.busy
      · rw [if_pos ⟨hpos, h.unstuck⟩, if_pos hpos]
      · rw [if_neg fun h0 => hpos h0.1, if_neg hpos, sub_zero]
    refine ⟨⟨hlive, ?_, ?_, ?_, hidle, ?_⟩, Or.inr ⟨hbusy, rfl, hstep⟩⟩
    · rw [huart, hstep]
      exact h.enabled
    · rw [huart, hstep]
      exact h.unstuck
    · rw [huart, hstep]
      exact h.latency
    · rw [huart, hstep]
      dsimp only
      split_ifs <;> omega

theorem UartReady.move (e : UartMove) : UartReady lat (uartMove p e) := by
  cases e with
  | write b => exact (h.write hlat b).1
  | read out => exact (h.read out).1
  | tick => exact h.tick.1

/-! ### What is held -/

/-- Accepted bytes are in flight until they are completed. -/
theorem UartReady.flight_flow (e : UartMove) :
    uartInFlight p ++ uartAccepted (p, e) =
      uartCompleted (p, e) ++ uartInFlight (uartMove p e) := by
  have hnonneg := h.nonneg
  cases e with
  | write b =>
    rw [uartAccepted, uartCompleted, List.nil_append]
    rcases (h.write hlat b).2.2 with ⟨hb, hrc, hk⟩ | ⟨hb, hrc, heq⟩
    · rw [hrc, if_neg (by decide), List.append_nil, uartInFlight, uartInFlight, hk.uart]
    · have hcount : 0 < uartCount lat := by
        rw [uartCount_eq hlat]
        omega
      rw [hrc, if_pos rfl, uartInFlight, uartInFlight, heq, hb, if_neg (lt_irrefl 0),
        if_pos hcount]
      exact congrArg (fun c => [c]) (uartByte_written b).symm
  | read out =>
    rw [uartAccepted, uartCompleted, uartInFlight, uartInFlight, (h.read out).2.2.1,
      List.append_nil]
    rfl
  | tick =>
    rcases h.tick.2 with ⟨hb, hdone, hcore⟩ | ⟨hb, hnone, heq⟩
    · have hzero : (uartMove p .tick).gSoc.uart.busy = 0 := congrArg SocUart.busy hcore
      rw [uartAccepted, hdone, uartInFlight, uartInFlight, hzero, hb, if_pos Int.one_pos,
        if_neg (lt_irrefl 0), List.append_nil]
    · rw [uartAccepted, hnone, uartInFlight, uartInFlight, heq, List.append_nil, List.nil_append]
      dsimp only
      by_cases hpos : 0 < p.gSoc.uart.busy
      · have hleft : 0 < p.gSoc.uart.busy - 1 := by omega
        rw [if_pos hpos, if_pos hpos, if_pos hleft]
        rfl
      · rw [if_neg hpos, if_neg hpos, sub_zero, if_neg hpos]

/-- Completed bytes are unread until they are taken, or lost to the next completion. -/
theorem UartReady.unread_cases (e : UartMove) :
    (uartCompleted (p, e) = [] ∧ uartUnread p = uartTaken (p, e) ++ uartUnread (uartMove p e)) ∨
      (uartTaken (p, e) = [] ∧ uartCompleted (p, e) ≠ [] ∧
        uartUnread (uartMove p e) = uartCompleted (p, e)) := by
  cases e with
  | write b =>
    refine Or.inl ⟨rfl, ?_⟩
    rw [uartTaken, List.nil_append, uartUnread, uartUnread]
    rcases (h.write hlat b).2.2 with ⟨-, -, hk⟩ | ⟨-, -, heq⟩
    · rw [hk.uart]
    · rw [heq]
      rfl
  | read out =>
    obtain ⟨-, -, heq, hrc⟩ := h.read out
    refine Or.inl ⟨rfl, ?_⟩
    rw [uartTaken, uartUnread, uartUnread, heq]
    by_cases hv : p.gSoc.uart.rxValid = true
    · rw [if_pos hv, if_pos (hrc.mpr hv)]
      rfl
    · rw [if_neg hv, if_neg (mt hrc.mp hv)]
      rfl
  | tick =>
    rcases h.tick.2 with ⟨-, hdone, hcore⟩ | ⟨-, hnone, heq⟩
    · refine Or.inr ⟨rfl, by rw [hdone]; exact List.cons_ne_nil _ _, ?_⟩
      have hvalid : (uartMove p .tick).gSoc.uart.rxValid = true := congrArg SocUart.rxValid hcore
      have hdata : (uartMove p .tick).gSoc.uart.rxdata = p.gSoc.uart.txdata :=
        congrArg SocUart.rxdata hcore
      rw [hdone, uartUnread, if_pos hvalid, uartReceived, hdata]
      rfl
    · refine Or.inl ⟨hnone, ?_⟩
      rw [uartTaken, List.nil_append, uartUnread, uartUnread, heq]
      rfl

/-- RX_VALID is a latch, set by completions and cleared by reads. -/
theorem UartReady.unread_latch (e : UartMove) :
    uartUnread (uartMove p e) ≠ [] ↔
      uartCompleted (p, e) ≠ [] ∨ (uartUnread p ≠ [] ∧ ¬ uartTaken (p, e) ≠ []) := by
  rcases h.unread_cases hlat e with ⟨hnone, heq⟩ | ⟨-, hdone, heq⟩
  · -- there is one unread byte at most
    have hone : (uartTaken (p, e) ++ uartUnread (uartMove p e)).length ≤ 1 := by
      rw [← heq, uartUnread]
      split_ifs <;> simp
    rw [or_iff_right (not_not.mpr hnone), heq, not_not]
    constructor
    · intro hne
      refine ⟨List.append_ne_nil_of_right_ne_nil _ hne, ?_⟩
      have hpos := List.length_pos_iff.mpr hne
      rw [List.length_append] at hone
      exact List.length_eq_zero_iff.mp (by omega)
    · rintro ⟨hne, hnil⟩
      rwa [hnil, List.nil_append] at hne
  · rw [heq]
    exact iff_of_true hdone (Or.inl hdone)

/-- The last completed byte stays in RXDATA. -/
theorem UartReady.received (e : UartMove) :
    uartReceived (uartMove p e).gSoc.uart =
      (uartCompleted (p, e)).getLast?.getD (uartReceived p.gSoc.uart) := by
  cases e with
  | write b =>
    rcases (h.write hlat b).2.2 with ⟨-, -, hk⟩ | ⟨-, -, heq⟩
    · rw [hk.uart]
      rfl
    · rw [heq]
      rfl
  | read out =>
    rw [(h.read out).2.2.1]
    rfl
  | tick =>
    rcases h.tick.2 with ⟨-, hdone, hcore⟩ | ⟨-, hnone, heq⟩
    · have hdata : (uartMove p .tick).gSoc.uart.rxdata = p.gSoc.uart.txdata :=
        congrArg SocUart.rxdata hcore
      rw [hdone, uartReceived, hdata]
      rfl
    · rw [hnone, heq]
      rfl

/-- The RX stream takes every completed byte, while it has room. -/
theorem UartReady.stream (e : UartMove) :
    (uartMove p e).gSoc.uart.dmaRx.bytes =
      (p.gSoc.uart.dmaRx.bytes ++ uartCompleted (p, e)).take 16384 := by
  have hfit := bytes_length_le p.gSoc.uart.dmaRx
  cases e with
  | write b =>
    rw [uartCompleted, List.append_nil, List.take_of_length_le hfit]
    rcases (h.write hlat b).2.2 with ⟨-, -, hk⟩ | ⟨-, -, heq⟩
    · rw [hk.uart]
    · rw [heq]
  | read out =>
    rw [uartCompleted, List.append_nil, List.take_of_length_le hfit, (h.read out).2.2.1]
  | tick =>
    have hstep := (uartApply_bytes p.gSoc.uart .step).2
    rw [h.tick_soc]
    exact hstep.trans (Queues.step_put hfit _)

omit hlat in
/-- A completion raises line 0 once, and nothing else raises it. -/
theorem UartReady.line :
    (socRaises p.gSoc .tick).count socUartIrqLine = (uartCompleted (p, .tick)).length := by
  have htimer : (socTimerStep p.gSoc.timer).2.count socUartIrqLine = 0 :=
    List.count_eq_zero.mpr fun h0 => absurd (socTimerStep_raises h0) (by decide)
  have hdma : (dmaRaises p.gSoc .tick).count socUartIrqLine = 0 :=
    List.count_eq_zero.mpr fun h0 => absurd (h.live.wired.tick_dmaRaises h0) (by decide)
  rw [socRaises, List.count_append, List.count_append, htimer, hdma, uartCompleted]
  cases hc : uartCompletes p.gSoc.uart with
  | true =>
    rw [socUartStep_complete hc]
    rfl
  | false =>
    rw [socUartStep_count hc]
    rfl

end Move

/-! ### After boot and uart_init -/

/-- Nothing in flight, nothing unread, nothing in the RX stream. -/
structure UartFresh (lat : Word) (p : Platform) : Prop where
  ready : UartReady lat p
  flight : uartInFlight p = []
  unread : uartUnread p = []
  stream : p.gSoc.uart.dmaRx.bytes = []

/-- A boot leaves UART and engine idle and the streams empty. -/
theorem socBoot_uart (s : Soc) (romWords : Option (List Word)) (nwords : Word) :
    (socBoot s romWords nwords).uart = socUartReset s.uart ∧
      (socBoot s romWords nwords).dma.busy = false := by
  have hticks : ∀ e ∈ List.replicate socBootTicks.toNat SocEvent.tick, e = .tick := fun e he =>
    List.eq_of_mem_replicate he
  have hreset : (socBootReset s romWords nwords).uart = socUartReset s.uart ∧
      (socBootReset s romWords nwords).dma.busy = false := by
    rw [socBootReset_frame]
    exact ⟨rfl, rfl⟩
  have hrun := Runs.run_invariant socApply
    (P := fun t => t.uart = socUartReset s.uart ∧ t.dma.busy = false)
    (fun t e he ⟨huart, hidle⟩ => by
      subst he
      have hstill : socTick t = socTickFront t :=
        socTickDma_idle (s := socTickFront t) (Or.inl hidle)
      rw [socApply, hstill]
      refine ⟨?_, hidle⟩
      show (socUartStep t.uart).1 = _
      rw [huart]
      rfl)
    hticks hreset
  rw [← socStep_eq_run] at hrun
  exact hrun

theorem uartInit_eq {p : Platform} (h : Live p) (bauddiv : Word) :
    ∃ perf, uartInit p bauddiv = { p with gSoc := { p.gSoc with
      uart := { p.gSoc.uart with bauddiv := bauddiv, ctrl := vlabUartCtrlEnable }
      perf := perf } } := by
  have hwrite : ∀ q : Platform, Live q → ∀ addr ∈ ([vlabUartCtrl, vlabUartBauddiv] : List Word),
      ∀ val, halWriteReg q addr val = { q with gSoc := { q.gSoc with
        uart := (socUartWrite q.gSoc.uart (socPerfCountMem q.gSoc.perf) (addr - vlabUartBase)
          val).uart
        perf := (socUartWrite q.gSoc.uart (socPerfCountMem q.gSoc.perf) (addr - vlabUartBase)
          val).perf } } := fun q hq addr haddr val => by
    have hne : addr ≠ vlabUartTxdata := by
      rintro rfl
      exact absurd haddr (by decide)
    rw [halWriteReg_eq hq, hq.wired.write_uartReg (List.mem_cons_of_mem _ haddr)
      fun h0 => absurd h0 hne]
  have hlive := h.write vlabUartBauddiv bauddiv
  rw [uartInit]
  dsimp only
  rw [hwrite _ hlive vlabUartCtrl (by decide), hwrite p h vlabUartBauddiv (by decide)]
  exact ⟨_, rfl⟩

theorem uartInit_fresh {p : Platform} (hp : p.gInited = true → SocReachable p.gSoc)
    (bauddiv : Word) :
    UartFresh (socHostEnsure p).gSoc.config.uartLatencyTicks (uartInit (socHostBoot p) bauddiv) := by
  have hreach : SocReachable (socHostEnsure p).gSoc := by
    unfold socHostEnsure
    split_ifs with hi
    · exact hp hi
    · exact ⟨p.gSoc, _, [], rfl⟩
  have hlive := socHostEnsure_live p fun hi => (hp hi).wired
  rw [socHostBoot]
  generalize socHostEnsure p = q at hreach hlive ⊢
  obtain ⟨huart, hidle⟩ := socBoot_uart q.gSoc none 0
  have hboot : Live { q with gSoc := socBoot q.gSoc none 0 } :=
    ⟨hlive.inited, hlive.wired.boot none 0⟩
  obtain ⟨perf, heq⟩ := uartInit_eq hboot bauddiv
  have hnow : (uartInit { q with gSoc := socBoot q.gSoc none 0 } bauddiv).gSoc.uart =
      { socUartReset q.gSoc.uart with bauddiv := bauddiv, ctrl := vlabUartCtrlEnable } := by
    rw [heq, ← huart]
  have hstill : (uartInit { q with gSoc := socBoot q.gSoc none 0 } bauddiv).gSoc.dma.busy =
      false := by
    rw [heq]
    exact hidle
  refine ⟨⟨(hboot.write _ _).write _ _, ?_, ?_, ?_, hstill, ?_⟩, ?_, ?_, ?_⟩
  · rw [hnow]
    exact (by decide : vlabUartCtrlEnable &&& socUartCtrlEnable ≠ 0)
  · rw [hnow]
    rfl
  · rw [hnow]
    exact hreach.uart_latency
  · rw [hnow]
    exact le_refl 0
  · rw [uartInFlight, hnow]
    rfl
  · rw [uartUnread, hnow]
    rfl
  · rw [hnow]
    rfl

/-! ### Runs -/

/-- Calls are runs of moves. -/
theorem uartCall_eq {p : Platform} (h : Live p) (c : UartCall) :
    uartCall p c = Runs.run uartMove p c.moves := by
  cases c with
  | write b => rfl
  | read out => rfl
  | hostStep n =>
    have hticks : ∀ k : ℕ, ∀ s : Soc, SocWired s →
        Runs.run uartMove { p with gSoc := s } (List.replicate k .tick) =
          { p with gSoc := Runs.run socApply s (List.replicate k .tick) } := by
      intro k
      induction k with
      | zero => exact fun _ _ => rfl
      | succ k ih =>
        intro s hs
        have hlive : Live { p with gSoc := s } := ⟨h.inited, hs⟩
        rw [List.replicate_succ, List.replicate_succ, Runs.run_cons, Runs.run_cons, uartMove,
          hlive.host_tick]
        exact ih (socTick s) hs.tick
    rw [uartCall, socHostStep, h.ensure, socStep_eq_run, UartCall.moves,
      ← hticks n.toNat p.gSoc h.wired]

theorem uartCalls_eq {lat : Word} (hlat : lat.toNat < 2 ^ 31) (cs : List UartCall) :
    ∀ {p : Platform}, UartReady lat p →
      Runs.run uartCall p cs = Runs.run uartMove p (cs.flatMap UartCall.moves) := by
  induction cs with
  | nil => exact fun _ => rfl
  | cons c cs ih =>
    intro p hp
    have hready : UartReady lat (Runs.run uartMove p c.moves) :=
      Runs.run_invariant uartMove (A := fun _ => True) (fun q e _ hq => hq.move hlat e)
        (fun _ _ => trivial) hp
    rw [Runs.run_cons, List.flatMap_cons, Runs.run_append, uartCall_eq hp.live, ih hready]

/-- What a run of moves from `q` does, if a byte takes `L` ticks. -/
structure ExactlyOnce (q : Platform) (L : ℕ) (es : List UartMove) : Prop where
  /-- Accepted bytes are completed once each and in order, but for the one in flight. -/
  order : (Runs.stages uartMove q es).flatMap uartAccepted =
    (Runs.stages uartMove q es).flatMap uartCompleted ++ uartInFlight (Runs.run uartMove q es)
  /-- A byte is completed by tick `L` after its acceptance, and no byte before. -/
  timing : ∀ pre b post, es = pre ++ .write b :: post →
    (uartWriteByte (Runs.run uartMove q pre) b).1 = .ok →
    ∀ mid, mid ++ [.tick] <+: post → mid.countP UartMove.isTick < L →
      uartCompleted (Runs.run uartMove q (pre ++ .write b :: mid), .tick) =
        if mid.countP UartMove.isTick + 1 = L then [b] else []
  /-- A completion puts its byte into RXDATA. -/
  rxdata : ∀ v e, (v, e) ∈ Runs.stages uartMove q es →
    uartReceived (uartMove v e).gSoc.uart =
      (uartCompleted (v, e)).getLast?.getD (uartReceived v.gSoc.uart)
  /-- The RX stream holds the completed bytes, as many as it has room for. -/
  stream : (Runs.run uartMove q es).gSoc.uart.dmaRx.bytes =
    ((Runs.stages uartMove q es).flatMap uartCompleted).take 16384
  /-- A completion raises line 0 once; no other tick raises it, and no call raises a line. -/
  line : ∀ v e, (v, e) ∈ Runs.stages uartMove q es →
    (e = .tick →
      (socRaises v.gSoc .tick).count socUartIrqLine = (uartCompleted (v, e)).length) ∧
    (e ≠ .tick → (uartMove v e).gSoc.intc = v.gSoc.intc)
  /-- A write is refused while a byte is in flight, without a trace but MEM_ACC. -/
  writes : ∀ v b, (v, .write b) ∈ Runs.stages uartMove q es →
    (uartInFlight v = [] ∧ (uartWriteByte v b).1 = .ok) ∨
      (uartInFlight v ≠ [] ∧ (uartWriteByte v b).1 = .errTimeout ∧
        MemAccOnly v (uartWriteByte v b).2)
  /-- A read succeeds if a byte was completed since the last read that did. -/
  reads : ∀ pre out post, es = pre ++ .read out :: post →
    ((uartReadByte (Runs.run uartMove q pre) out).rc = .ok ↔
      ∃ pre' mid, pre = pre' ++ .tick :: mid ∧
        uartCompleted (Runs.run uartMove q pre', .tick) ≠ [] ∧
        ∀ x ∈ Runs.stages uartMove (Runs.run uartMove q (pre' ++ [.tick])) mid, uartTaken x = [])
  /-- It hands out the byte completed last. -/
  value : ∀ pre out post, es = pre ++ .read out :: post →
    (uartReadByte (Runs.run uartMove q pre) out).rc = .ok →
    ∃ b, ((Runs.stages uartMove q pre).flatMap uartCompleted).getLast? = some b ∧
      (uartReadByte (Runs.run uartMove q pre) out).out = out.map (fun _ => b) ∧
      uartTaken (Runs.run uartMove q pre, .read out) = [b]
  /-- The bytes read are a subsequence of the bytes accepted. -/
  subsequence : ((Runs.stages uartMove q es).flatMap uartTaken).Sublist
    ((Runs.stages uartMove q es).flatMap uartAccepted)
  /-- Nothing is skipped if there is a read between any two consecutive completions. -/
  nothing_skipped :
    (∀ l x m y r, Runs.stages uartMove q es = l ++ x :: m ++ y :: r →
      uartCompleted x ≠ [] → uartCompleted y ≠ [] → (∀ z ∈ m, uartCompleted z = []) →
      ∃ z ∈ m, ∃ out, z.2 = .read out) →
    (Runs.stages uartMove q es).flatMap uartCompleted =
      (Runs.stages uartMove q es).flatMap uartTaken ++ uartUnread (Runs.run uartMove q es)

section Run

variable {lat : Word} (hlat : lat.toNat < 2 ^ 31) {q : Platform} (hq : UartFresh lat q)

include hlat hq

theorem UartFresh.run (es : List UartMove) : UartReady lat (Runs.run uartMove q es) :=
  Runs.run_invariant uartMove (A := fun _ => True) (fun _ e _ hp => hp.move hlat e)
    (fun _ _ => trivial) hq.ready

theorem UartFresh.stage {es : List UartMove} {v : Platform} {e : UartMove}
    (hx : (v, e) ∈ Runs.stages uartMove q es) : UartReady lat v := by
  obtain ⟨pre, post, rfl, rfl⟩ := Runs.mem_stages.mp hx
  exact hq.run hlat pre

theorem UartFresh.order (es : List UartMove) :
    (Runs.stages uartMove q es).flatMap uartAccepted =
      (Runs.stages uartMove q es).flatMap uartCompleted ++
        uartInFlight (Runs.run uartMove q es) := by
  have hflow := Runs.run_flow uartMove (P := UartReady lat) (C := fun _ => True)
    (fun _ e _ hp => hp.move hlat e) uartInFlight uartAccepted uartCompleted
    (fun _ e _ hp => hp.flight_flow hlat e) (fun x (_ : x ∈ Runs.stages uartMove q es) => trivial)
    hq.ready
  rwa [hq.flight, List.nil_append] at hflow

theorem UartFresh.rx_stream (es : List UartMove) :
    (Runs.run uartMove q es).gSoc.uart.dmaRx.bytes =
      ((Runs.stages uartMove q es).flatMap uartCompleted).take 16384 := by
  have hfill := Runs.run_fill uartMove (P := UartReady lat) (C := fun _ => True)
    (fun _ e _ hp => hp.move hlat e) (fun p => p.gSoc.uart.dmaRx.bytes) (fun _ => true)
    uartCompleted 16384 (fun _ _ _ _ h0 => absurd h0 Bool.noConfusion)
    (fun _ e _ hp _ => hp.stream hlat e) (fun x (_ : x ∈ Runs.stages uartMove q es) => trivial)
    hq.ready (bytes_length_le _)
  rwa [hq.stream, List.nil_append, List.filter_eq_self.mpr fun _ _ => rfl] at hfill

/-- From the acceptance on, `L` ticks are counted down. -/
theorem UartFresh.timing {L : ℕ} (hL : L = max lat.toNat 1) {pre : List UartMove} {b : Byte}
    (hok : (uartWriteByte (Runs.run uartMove q pre) b).1 = .ok) {mid : List UartMove}
    (hmid : mid.countP UartMove.isTick < L) :
    uartCompleted (Runs.run uartMove q (pre ++ .write b :: mid), .tick) =
      if mid.countP UartMove.isTick + 1 = L then [b] else [] := by
  have hready := hq.run hlat pre
  set p := Runs.run uartMove q pre with hp
  have hstart : UartReady lat (uartMove p (.write b)) ∧
      (0 < L → (uartMove p (.write b)).gSoc.uart.busy = (L : Int) - (0 : ℕ) ∧
        uartByte (uartMove p (.write b)).gSoc.uart = b) := by
    obtain ⟨hnext, -, hcases⟩ := hready.write hlat b
    refine ⟨hnext, fun _ => ?_⟩
    rcases hcases with ⟨-, hrc, -⟩ | ⟨-, -, heq⟩
    · exact absurd (hok.symm.trans hrc) (by decide)
    · rw [heq, hL, ← uartCount_eq hlat]
      exact ⟨(sub_zero _).symm, uartByte_written b⟩
  have hclock := Runs.run_clock uartMove UartMove.isTick
    (R := fun k v => UartReady lat v ∧
      (k < L → v.gSoc.uart.busy = (L : Int) - k ∧ uartByte v.gSoc.uart = b))
    (A := fun _ => True) (fun k v e _ hv hno => ?_) (fun k v e _ hv hyes => ?_)
    (fun e (_ : e ∈ mid) => trivial) hstart
  · rw [zero_add] at hclock
    obtain ⟨hend, hleft⟩ := hclock
    obtain ⟨hbusy, hbyte⟩ := hleft hmid
    rw [Runs.run_append_cons, ← hp]
    rcases hend.tick.2 with ⟨hone, hdone, -⟩ | ⟨hne, hnone, -⟩
    · rw [hdone, hbyte, if_pos (by omega)]
    · rw [hnone, if_neg (by omega)]
  · -- writes are refused, reads do not concern the transmitter
    refine ⟨hv.1.move hlat e, fun hk => ?_⟩
    obtain ⟨hbusy, hbyte⟩ := hv.2 hk
    cases e with
    | write c =>
      rcases (hv.1.write hlat c).2.2 with ⟨-, -, hsame⟩ | ⟨h0, -, -⟩
      · rw [hsame.uart]
        exact ⟨hbusy, hbyte⟩
      · omega
    | read out =>
      rw [(hv.1.read out).2.2.1]
      exact ⟨hbusy, hbyte⟩
    | tick => exact absurd hno (by decide)
  · refine ⟨hv.1.move hlat e, fun hk => ?_⟩
    obtain ⟨hbusy, hbyte⟩ := hv.2 (by omega)
    cases e with
    | write c => exact absurd hyes Bool.false_ne_true
    | read out => exact absurd hyes Bool.false_ne_true
    | tick =>
      rcases hv.1.tick.2 with ⟨hone, -, -⟩ | ⟨-, -, heq⟩
      · omega
      · rw [heq]
        refine ⟨?_, hbyte⟩
        dsimp only
        rw [if_pos (by omega), hbusy]
        push_cast
        ring

theorem UartFresh.writes {es : List UartMove} {v : Platform} {b : Byte}
    (hx : (v, .write b) ∈ Runs.stages uartMove q es) :
    (uartInFlight v = [] ∧ (uartWriteByte v b).1 = .ok) ∨
      (uartInFlight v ≠ [] ∧ (uartWriteByte v b).1 = .errTimeout ∧
        MemAccOnly v (uartWriteByte v b).2) := by
  rcases ((hq.stage hlat hx).write hlat b).2.2 with ⟨hb, hrc, hk⟩ | ⟨hb, hrc, -⟩
  · refine Or.inr ⟨?_, hrc, hk⟩
    rw [uartInFlight, if_pos hb]
    exact List.cons_ne_nil _ _
  · refine Or.inl ⟨?_, hrc⟩
    rw [uartInFlight, hb, if_neg (lt_irrefl 0)]

/-- There is an unread byte if one was completed since the last successful read. -/
theorem UartFresh.unread_iff (pre : List UartMove) :
    uartUnread (Runs.run uartMove q pre) ≠ [] ↔
      ∃ pre' mid, pre = pre' ++ .tick :: mid ∧
        uartCompleted (Runs.run uartMove q pre', .tick) ≠ [] ∧
        ∀ x ∈ Runs.stages uartMove (Runs.run uartMove q (pre' ++ [.tick])) mid,
          uartTaken x = [] := by
  have hlatch := Runs.run_latch uartMove (fun p => uartUnread p ≠ [])
    (fun x => uartCompleted x ≠ []) (fun x => uartTaken x ≠ []) (P := UartReady lat)
    (A := fun _ => True) (fun _ e _ hp => hp.move hlat e)
    (fun _ e _ hp => hp.unread_latch hlat e) (fun e (_ : e ∈ pre) => trivial) hq.ready
  rw [hlatch, or_iff_right fun h0 => h0.1 hq.unread]
  constructor
  · rintro ⟨pre', e, mid, rfl, hset, hnone⟩
    cases e with
    | write b => exact absurd rfl hset
    | read out => exact absurd rfl hset
    | tick => exact ⟨pre', mid, rfl, hset, fun x hx => not_not.mp (hnone x hx)⟩
  · rintro ⟨pre', mid, rfl, hset, hnone⟩
    exact ⟨pre', .tick, mid, rfl, hset, fun x hx => not_not.mpr (hnone x hx)⟩

/-- The unread byte is that of the last completion. -/
theorem UartFresh.last_completion (pre : List UartMove)
    (hne : uartUnread (Runs.run uartMove q pre) ≠ []) :
    ∃ pre' mid, pre = pre' ++ .tick :: mid ∧
      uartCompleted (Runs.run uartMove q pre', .tick) ≠ [] ∧
      ∀ x ∈ Runs.stages uartMove (Runs.run uartMove q (pre' ++ [.tick])) mid,
        uartCompleted x = [] ∧ uartTaken x = [] := by
  induction pre using List.reverseRecOn with
  | nil => exact absurd hq.unread hne
  | append_singleton pre e ih =>
    rw [Runs.run_append, Runs.run_cons, Runs.run_nil,
      (hq.run hlat pre).unread_latch hlat e] at hne
    by_cases hdone : uartCompleted (Runs.run uartMove q pre, e) = []
    · obtain ⟨hunread, htaken⟩ := hne.resolve_left (not_not.mpr hdone)
      obtain ⟨pre', mid, rfl, hlast, hmid⟩ := ih hunread
      refine ⟨pre', mid ++ [e], by simp, hlast, fun x hx => ?_⟩
      rw [Runs.stages_append, List.mem_append] at hx
      rcases hx with hx | hx
      · exact hmid x hx
      · rw [Runs.stages, Runs.stages, List.mem_singleton, ← Runs.run_append,
          List.append_assoc] at hx
        rw [hx]
        exact ⟨hdone, not_not.mp htaken⟩
    · cases e with
      | write b => exact absurd rfl hdone
      | read out => exact absurd rfl hdone
      | tick => exact ⟨pre, [], rfl, hdone, fun x hx => absurd hx List.not_mem_nil⟩

/-- The read hands out what was completed last. -/
theorem UartFresh.value {pre : List UartMove} {out : Option Byte}
    (hok : (uartReadByte (Runs.run uartMove q pre) out).rc = .ok) :
    ∃ b, ((Runs.stages uartMove q pre).flatMap uartCompleted).getLast? = some b ∧
      (uartReadByte (Runs.run uartMove q pre) out).out = out.map (fun _ => b) ∧
      uartTaken (Runs.run uartMove q pre, .read out) = [b] := by
  have hready := hq.run hlat pre
  have hlast := Runs.run_last uartMove (P := UartReady lat) (C := fun _ => True)
    (fun _ e _ hp => hp.move hlat e) (fun p => uartReceived p.gSoc.uart) uartCompleted
    (fun _ e _ hp => hp.received hlat e)
    (fun x (_ : x ∈ Runs.stages uartMove q pre) => trivial) hq.ready
  -- there was a completion, since there is an unread byte
  obtain ⟨pre', mid, rfl, hdone, -⟩ := (hq.unread_iff hlat pre).mp ((hready.rc_iff out).mp hok)
  set p := Runs.run uartMove q (pre' ++ .tick :: mid) with hp
  cases hb : ((Runs.stages uartMove q (pre' ++ .tick :: mid)).flatMap uartCompleted).getLast? with
  | none =>
    rw [List.getLast?_eq_none_iff, List.flatMap_eq_nil_iff] at hb
    exact absurd (hb _ (Runs.mem_stages.mpr ⟨pre', mid, rfl, rfl⟩)) hdone
  | some b =>
    rw [hb, Option.getD_some] at hlast
    refine ⟨b, rfl, ?_, ?_⟩
    · rcases uartReadByte_cases hready.live out with ⟨-, hrc, -⟩ | ⟨-, -, hout, -⟩
      · exact absurd (hok.symm.trans hrc) (by decide)
      · rw [hout, hlast]
    · rw [uartTaken, if_pos hok, hlast]

theorem UartFresh.subsequence (es : List UartMove) :
    ((Runs.stages uartMove q es).flatMap uartTaken).Sublist
      ((Runs.stages uartMove q es).flatMap uartAccepted) := by
  have hleak := Runs.run_leak uartMove (P := UartReady lat) (C := fun _ => True)
    (fun _ e _ hp => hp.move hlat e) uartUnread uartCompleted uartTaken
    (fun p e _ hp => ?_) (fun x (_ : x ∈ Runs.stages uartMove q es) => trivial) hq.ready
  · rw [hq.unread, List.nil_append] at hleak
    rw [hq.order hlat es]
    exact ((List.sublist_append_left _ _).trans hleak).trans (List.sublist_append_left _ _)
  · rcases hp.unread_cases hlat e with ⟨hnone, heq⟩ | ⟨hnil, -, heq⟩
    · rw [hnone, List.append_nil, heq]
    · -- the byte before, if it was not read, is lost
      rw [hnil, heq, List.nil_append]
      exact List.sublist_append_right _ _

/-- Nothing unread is overwritten, if there is a read between any two completions. -/
theorem UartFresh.nothing_skipped {es : List UartMove}
    (hreads : ∀ l x m y r, Runs.stages uartMove q es = l ++ x :: m ++ y :: r →
      uartCompleted x ≠ [] → uartCompleted y ≠ [] → (∀ z ∈ m, uartCompleted z = []) →
      ∃ z ∈ m, ∃ out, z.2 = .read out) :
    (Runs.stages uartMove q es).flatMap uartCompleted =
      (Runs.stages uartMove q es).flatMap uartTaken ++ uartUnread (Runs.run uartMove q es) := by
  have hfree : ∀ x ∈ Runs.stages uartMove q es,
      uartCompleted x = [] ∨ uartUnread x.1 = [] := by
    rintro ⟨v, e⟩ hx
    by_contra hlost
    rw [not_or] at hlost
    obtain ⟨pre, post, rfl, rfl⟩ := Runs.mem_stages.mp hx
    obtain ⟨pre', mid, rfl, hdone, hmid⟩ := hq.last_completion hlat pre hlost.2
    have hnext : Runs.run uartMove q (pre' ++ [.tick]) = uartMove (Runs.run uartMove q pre') .tick :=
      Runs.run_append uartMove q pre' [.tick]
    -- the two completions follow one another, so there is a read between them
    obtain ⟨z, hz, out, hread⟩ := hreads (Runs.stages uartMove q pre') _
      (Runs.stages uartMove (Runs.run uartMove q (pre' ++ [.tick])) mid) _
      (Runs.stages uartMove (uartMove (Runs.run uartMove q (pre' ++ .tick :: mid)) e) post)
      (by
        rw [Runs.stages_append, Runs.stages_append, Runs.stages, Runs.stages, Runs.run_append,
          Runs.run_cons, hnext])
      hdone hlost.1 fun z hz => (hmid z hz).1
    obtain ⟨w, f⟩ := z
    obtain ⟨m, n, rfl, rfl⟩ := Runs.mem_stages.mp hz
    obtain rfl : f = .read out := hread
    rw [Runs.stages_append] at hmid
    -- it found the byte of the first, and took it
    have hrun : Runs.run uartMove (Runs.run uartMove q (pre' ++ [.tick])) m =
        Runs.run uartMove q (pre' ++ .tick :: m) := by
      rw [← Runs.run_append, List.append_assoc]
      rfl
    have hunread := (hq.unread_iff hlat (pre' ++ .tick :: m)).mpr
      ⟨pre', m, rfl, hdone, fun x hx => (hmid x (List.mem_append_left _ hx)).2⟩
    have hok := (((hq.run hlat (pre' ++ .tick :: m)).rc_iff out).mpr hunread)
    have hnil := (hmid _ (List.mem_append_right _ List.mem_cons_self)).2
    rw [hrun, uartTaken, if_pos hok] at hnil
    exact List.cons_ne_nil _ _ hnil
  have hflow := Runs.run_flow uartMove (P := UartReady lat)
    (C := fun x => uartCompleted x = [] ∨ uartUnread x.1 = []) (fun _ e _ hp => hp.move hlat e)
    uartUnread uartCompleted uartTaken (fun p e hC hp => ?_) hfree hq.ready
  · rwa [hq.unread, List.nil_append] at hflow
  · rcases hp.unread_cases hlat e with ⟨hnone, heq⟩ | ⟨hnil, hdone, heq⟩
    · rw [hnone, List.append_nil, heq]
    · rw [hnil, heq, hC.resolve_left hdone]

theorem UartFresh.exactly_once {L : ℕ} (hL : L = max lat.toNat 1) (es : List UartMove) :
    ExactlyOnce q L es where
  order := hq.order hlat es
  timing := fun _ _ _ _ hok _ _ hmid => hq.timing hlat hL hok hmid
  rxdata := fun _ e hx => (hq.stage hlat hx).received hlat e
  stream := hq.rx_stream hlat es
  line := fun v e hx => by
    have hready := hq.stage hlat hx
    cases e with
    | write b => exact ⟨UartMove.noConfusion, fun _ => (hready.write hlat b).2.1⟩
    | read out => exact ⟨UartMove.noConfusion, fun _ => (hready.read out).2.1⟩
    | tick => exact ⟨fun _ => hready.line, fun h0 => absurd rfl h0⟩
  writes := fun _ _ hx => hq.writes hlat hx
  reads := fun pre out _ _ =>
    ((hq.run hlat pre).rc_iff out).trans (hq.unread_iff hlat pre)
  value := fun _ _ _ _ hok => hq.value hlat hok
  subsequence := hq.subsequence hlat es
  nothing_skipped := hq.nothing_skipped hlat

end Run

/-- Whatever happened before the boot: the driver delivers the bytes it accepts exactly once
and in order, whatever sequence of writes, reads and steps follows on boot and `uart_init`,
for every latency below 2 ^ 31, 0 acting as 1. -/
theorem uart_exactly_once (p : Platform) (hp : p.gInited = true → SocReachable p.gSoc)
    (hlat : (socHostEnsure p).gSoc.config.uartLatencyTicks.toNat < 2 ^ 31) (bauddiv : Word)
    (cs : List UartCall) :
    let q := uartInit (socHostBoot p) bauddiv
    let es := cs.flatMap UartCall.moves
    Runs.run uartCall q cs = Runs.run uartMove q es ∧
      ExactlyOnce q (max (socHostEnsure p).gSoc.config.uartLatencyTicks.toNat 1) es := by
  intro q es
  have hfresh := uartInit_fresh hp bauddiv
  exact ⟨uartCalls_eq hlat cs hfresh.ready, hfresh.exactly_once hlat rfl es⟩

/-- Two bytes with the default latency, the second after the first was read. -/
theorem uart_exactly_once_pair :
    let q := uartInit (socHostBoot (platformStart default)) 0
    let cs : List UartCall := [.write 0x41, .hostStep 5, .read (some 0), .write 0x42, .hostStep 5]
    ExactlyOnce q 5 (cs.flatMap UartCall.moves) := by
  intro q cs
  have hp : (platformStart default).gInited = true → SocReachable (platformStart default).gSoc :=
    fun h0 => absurd h0 Bool.false_ne_true
  exact (uart_exactly_once (platformStart default) hp (by decide) 0 cs).2

end VlabSoc
