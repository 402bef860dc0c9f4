/-
The application (apps/main.c): bring-up, a greeting over the UART, a one-shot timer.

* `platformInit_ready` — bring-up leaves PERF counting from zero and the UART enabled;
* `sendLoop_sent`, `sendLoop_timeout` — the loop sends everything if a byte takes no more than
  the steps it waits, and stops at the second byte if it takes more;
* `app_main_exit` — the exit code, the metrics and the bytes sent, for any message.
-/
import VlabSoc.PerfCounts
import VlabSoc.RunUntil
import VlabSoc.TimerDriver
import VlabSoc.UartLink

namespace VlabSoc

variable {p : Platform} {s : Soc} {u : SocUart}

/-! ### The program -/

/-- `UART_LATENCY_STEPS` -/
abbrev uartLatencySteps : Word := 5

/-- The ways out of `main`; the last one prints its metrics. -/
inductive AppExit
  | initFailed
  | selfCheckFailed
  | uartFailed
  | timerFailed
  | ok (uartBytes memAcc stalls : Word)
  deriving DecidableEq

/-- The exit code. -/
def AppExit.code : AppExit → Int
  | .initFailed => 1
  | .selfCheckFailed => 2
  | .uartFailed => 3
  | .timerFailed => 4
  | .ok _ _ _ => 0

/-- With the engine idle a tick is one of UART and timer, and a cycle counted. -/
theorem ticks_front (hidle : s.dma.busy = false) (hen : s.perf.enabled = true) (k : ℕ) :
    (socTick^[k] s).dma = s.dma ∧
      (socTick^[k] s).uart = (fun u => (socUartStep u).1)^[k] s.uart ∧
      (socTick^[k] s).timer = (fun t => (socTimerStep t).1)^[k] s.timer := by
  induction k with
  | zero => exact ⟨rfl, rfl, rfl⟩
  | succ k ih =>
    obtain ⟨hdma, huart, htimer⟩ := ih
    have hb := (ticks_idle hidle hen k).1
    rw [Function.iterate_succ_apply', Function.iterate_succ_apply', Function.iterate_succ_apply']
    have hstep : socTick (socTick^[k] s) = socTickFront (socTick^[k] s) :=
      socTickDma_idle (s := socTickFront (socTick^[k] s)) (Or.inl hb)
    rw [hstep, ← huart, ← htimer]
    exact ⟨hdma, rfl, rfl⟩

/-- A byte on its way. -/
theorem uart_counting (hstuck : u.faultStuckBusy = false) {k : ℕ} (hk : (k : Int) < u.busy) :
    (fun u => (socUartStep u).1)^[k] u = { u with busy := u.busy - k } := by
  induction k with
  | zero => simp
  | succ k ih =>
    rw [Function.iterate_succ_apply', ih (by omega)]
    have hno : uartCompletes { u with busy := u.busy - k } = false := by
      rw [uartCompletes]
      simp only [hstuck, Bool.not_false, Bool.and_true, decide_eq_false_iff_not]
      omega
    rw [socUartStep_count hno]
    dsimp only
    rw [if_pos ⟨by omega, hstuck⟩, Int.sub_sub, Nat.cast_succ]

/-- A UART with nothing to send. -/
theorem uart_still (hbusy : ¬ 0 < u.busy) (k : ℕ) : (fun u => (socUartStep u).1)^[k] u = u := by
  induction k with
  | zero => rfl
  | succ k ih => rw [Function.iterate_succ_apply', ih, socUartStep, if_neg hbusy]

/-- A byte that has had its ticks is in the TX record. -/
theorem uart_sent (hstuck : u.faultStuckBusy = false) (hpos : 0 < u.busy) {k : ℕ}
    (hk : u.busy ≤ k) :
    let v := (fun u => (socUartStep u).1)^[k] u
    v.busy = 0 ∧ v.ctrl = u.ctrl ∧ v.latencyTicks = u.latencyTicks ∧ v.faultStuckBusy = false ∧
      v.dmaTx.bytes = (u.dmaTx.bytes ++ [uartByte u]).take 16384 := by
  intro v
  obtain ⟨n, hn⟩ : ∃ n : ℕ, u.busy = (n + 1 : ℕ) := ⟨u.busy.toNat - 1, by omega⟩
  have hlast : uartCompletes { u with busy := u.busy - n } = true := by
    rw [uartCompletes]
    simp only [hstuck, Bool.not_false, Bool.and_true, decide_eq_true_eq]
    omega
  set w := (socUartStep { u with busy := u.busy - n }).1 with hw
  have hwfields : w.busy = 0 ∧ w.ctrl = u.ctrl ∧ w.latencyTicks = u.latencyTicks ∧
      w.faultStuckBusy = false ∧
      w.dmaTx.bytes = (u.dmaTx.bytes ++ [uartByte u]).take 16384 := by
    -- the append is to the streams only
    have hcore := socUartDmaTxAppend_core
      { u with busy := 0, rxdata := u.txdata, rxValid := true } (fun _ => uartByte u) 1
    have hbusy := congrArg SocUart.busy hcore
    have hctrl := congrArg SocUart.ctrl hcore
    have hlatency := congrArg SocUart.latencyTicks hcore
    have hfault := congrArg SocUart.faultStuckBusy hcore
    rw [hw, socUartStep_complete hlast]
    exact ⟨hbusy, hctrl, hlatency, hfault.trans hstuck, (socUartDmaTxAppend_bytes _ _ _).1⟩
  have hv : v = w := by
    show (fun u => (socUartStep u).1)^[k] u = w
    rw [show k = (k - (n + 1)) + (n + 1) by omega, Function.iterate_add_apply,
      Function.iterate_succ_apply', uart_counting hstuck (by omega)]
    exact uart_still (by rw [← hw, hwfields.1]; omega) _
  rw [hv]
  exact hwfields

/-! ### Accesses while PERF counts -/

/-- A live host with the engine idle, on which PERF has counted `n` accesses and no stall. -/
structure Counting (n : ℕ) (p : Platform) : Prop where
  live : Live p
  idle : p.gSoc.dma.busy = false
  enabled : p.gSoc.perf.enabled = true
  memAcc : p.gSoc.perf.memAcc = BitVec.ofNat 32 n
  stalls : p.gSoc.perf.stalls = 0

theorem ofNat_add_one (n : ℕ) : BitVec.ofNat 32 n + 1 = BitVec.ofNat 32 (n + 1) :=
  (BitVec.ofNat_add n 1).symm

theorem Counting.read {n : ℕ} (h : Counting n p) {addr : Word} (ha : Readable addr) :
    Counting (n + 1) (halReadReg p addr).2 := by
  have hok := (h.live.wired.read_ok addr 0).mpr ha
  have hperf := h.live.wired.read_perf h.enabled addr 0
  have hfail : accessFails (p.gSoc, .read addr 0) = false := decide_eq_false (not_not.mpr hok)
  have hword : wordAccess (p.gSoc, .read addr 0) = true :=
    decide_eq_true ((dvd_four_iff addr).mpr ha.1)
  rw [SocPerf.after_read, hfail, hword] at hperf
  rw [halReadReg_eq h.live]
  refine ⟨⟨h.live.inited, h.live.wired.read addr 0⟩, ?_, ?_, ?_, ?_⟩
  · show (socRead p.gSoc addr 0).soc.dma.busy = false
    rw [socRead_dma]
    exact h.idle
  · rw [show _ = _ from hperf]
    exact h.enabled
  · rw [show _ = _ from hperf, ← ofNat_add_one, ← h.memAcc]
    rfl
  · rw [show _ = _ from hperf]
    dsimp only
    rw [h.stalls]
    rfl

theorem Counting.write {n : ℕ} (h : Counting n p) {addr : Word} (ha : Writable addr)
    (htx : ¬ TxDisabled p.gSoc addr) (hdma : addr ∉ dmaRegs) (hperf : addr ∉ perfRegs) (val : Word) :
    Counting (n + 1) (halWriteReg p addr val) := by
  have hok := (h.live.wired.write_ok addr val).mpr ⟨ha, htx⟩
  have hafter := h.live.wired.write_perf h.enabled hperf val
  have hfail : accessFails (p.gSoc, .write addr val) = false := decide_eq_false (not_not.mpr hok)
  have hword : wordAccess (p.gSoc, .write addr val) = true :=
    decide_eq_true ((dvd_four_iff addr).mpr ha.1)
  have hstart : startIgnored (p.gSoc, .write addr val) = false := by
    rw [startIgnored, h.idle, Bool.false_and]
  rw [SocPerf.after_write, hfail, hword, hstart] at hafter
  have hlive := h.live.write addr val
  rw [halWriteReg_eq h.live] at hlive ⊢
  refine ⟨hlive, ?_, ?_, ?_, ?_⟩
  · show (socWrite p.gSoc addr val).soc.dma.busy = false
    rw [socWrite_dma hdma]
    exact h.idle
  · rw [show _ = _ from hafter]
    exact h.enabled
  · rw [show _ = _ from hafter, ← ofNat_add_one, ← h.memAcc]
    rfl
  · rw [show _ = _ from hafter]
    dsimp only
    rw [h.stalls]
    rfl

/-- Ticks of the host. -/
theorem Counting.step {n : ℕ} (h : Counting n p) (k : Word) :
    Counting n (socHostStep p k) ∧
      (socHostStep p k).gSoc.uart = (fun u => (socUartStep u).1)^[k.toNat] p.gSoc.uart ∧
      (socHostStep p k).gSoc.timer = (fun t => (socTimerStep t).1)^[k.toNat] p.gSoc.timer := by
  have hq : socHostStep p k = { p with gSoc := socTick^[k.toNat] p.gSoc } := by
    rw [socHostStep, h.live.ensure]
    rfl
  obtain ⟨hdma, huart, htimer⟩ := ticks_front h.idle h.enabled k.toNat
  have hperf := (ticks_idle h.idle h.enabled k.toNat).2.2
  rw [hq]
  refine ⟨⟨⟨h.live.inited, h.live.wired.ticks _⟩, ?_, ?_, ?_, ?_⟩, huart, htimer⟩
  · show (socTick^[k.toNat] p.gSoc).dma.busy = false
    rw [hdma]
    exact h.idle
  · rw [show _ = _ from hperf]
    exact h.enabled
  · rw [show _ = _ from hperf]
    exact h.memAcc
  · rw [show _ = _ from hperf]
    exact h.stalls

/-- The loop over the message at the top of a round; `tx` is what the UART has sent. -/
structure Sending (lat : Word) (timer : SocTimer) (tx : List Byte) (n : ℕ) (p : Platform) :
    Prop where
  counting : Counting n p
  free : ¬ 0 < p.gSoc.uart.busy
  unstuck : p.gSoc.uart.faultStuckBusy = false
  enabled : p.gSoc.uart.ctrl &&& socUartCtrlEnable ≠ 0
  latency : p.gSoc.uart.latencyTicks = lat
  timer : p.gSoc.timer = timer
  tx : p.gSoc.uart.dmaTx.bytes = tx

theorem uartPoll_free (h : Live p) (hfree : ¬ 0 < p.gSoc.uart.busy) (n : ℕ) :
    uartPoll (n + 1) p = (true, (halReadReg p vlabUartStatus).2) := by
  rw [uartPoll, h.poll_status.1, if_pos ((socUartStatus_empty _).mpr hfree)]

/-- A disabled timer stands still. -/
theorem timer_still {t : SocTimer} (h : ¬ t.Enabled) (k : ℕ) :
    (fun t => (socTimerStep t).1)^[k] t = t := by
  induction k with
  | zero => rfl
  | succ k ih => rw [Function.iterate_succ_apply', ih, socTimerStep_idle fun hc => h hc.1]

section Send

variable {lat : Word} {timer : SocTimer} {tx : List Byte} {n : ℕ}

/-- A byte takes three accesses: CTRL, one look at STATUS, TXDATA. -/
theorem Sending.write (h : Sending lat timer tx n p) (b : Byte) :
    (uartWriteByte p b).1 = .ok ∧ Counting (n + 3) (uartWriteByte p b).2 ∧
      (uartWriteByte p b).2.gSoc.uart =
        { p.gSoc.uart with txdata := b.setWidth 32, busy := uartCount lat } ∧
      (uartWriteByte p b).2.gSoc.timer = timer := by
  obtain ⟨hctrl, hkeep⟩ := h.counting.live.poll_uart (Or.inr rfl)
  have hout : (halReadReg p vlabUartCtrl).1 = p.gSoc.uart.ctrl := hctrl
  have h1 := h.counting.read (show Readable vlabUartCtrl by decide)
  have h2 := h1.read (show Readable vlabUartStatus by decide)
  have hkeep2 := (h1.live.poll_status).2
  have hfree1 : ¬ 0 < (halReadReg p vlabUartCtrl).2.gSoc.uart.busy := by
    rw [hkeep.uart]
    exact h.free
  have hcall : uartWriteByte p b =
      (.ok, halWriteReg (halReadReg (halReadReg p vlabUartCtrl).2 vlabUartStatus).2 vlabUartTxdata
        (b.setWidth 32)) := by
    rw [uartWriteByte]
    dsimp only
    rw [hout, if_neg h.enabled, uartPoll_free h1.live hfree1, if_pos rfl]
  have hen2 : (halReadReg (halReadReg p vlabUartCtrl).2 vlabUartStatus).2.gSoc.uart.ctrl &&&
      socUartCtrlEnable ≠ 0 := by
    rw [hkeep2.uart, hkeep.uart]
    exact h.enabled
  have h3 := h2.write (show Writable vlabUartTxdata by decide) (fun ht => hen2 ht.2) (by decide)
    (by decide) (b.setWidth 32)
  rcases uartWriteByte_cases h.counting.live b with ⟨h0, -⟩ | ⟨-, hbusy, -⟩ | ⟨-, -, -, perf, heq⟩
  · exact absurd h0 h.enabled
  · exact absurd hbusy h.free
  · refine ⟨by rw [hcall], by rw [hcall]; exact h3, ?_, ?_⟩
    · rw [heq, h.latency]
    · rw [heq]
      exact h.timer

/-- What is sent of the bytes: nothing, if the latency is no positive `int`. -/
def loopSent (lat : Word) (bs : List Byte) : List Byte := if 0 < uartCount lat then bs else []

/-- A round whose steps are enough for the byte. -/
theorem Sending.round (h : Sending lat timer tx n p) (htimer : ¬ timer.Enabled)
    (hlat : uartCount lat ≤ 5) (b : Byte) :
    Sending lat timer ((tx ++ loopSent lat [b]).take 16384) (n + 3)
      (socHostStep (uartWriteByte p b).2 uartLatencySteps) := by
  obtain ⟨-, hcount, huart, ht⟩ := h.write b
  obtain ⟨hcount', huart', ht'⟩ := hcount.step uartLatencySteps
  rw [huart] at huart'
  rw [ht, timer_still htimer] at ht'
  have hlen : tx.length ≤ 16384 := by
    rw [← h.tx]
    exact bytes_length_le _
  by_cases hpos : 0 < uartCount lat
  · obtain ⟨hbusy, hctrl, hlatency, hstuck, htx⟩ := uart_sent
      (u := { p.gSoc.uart with txdata := b.setWidth 32, busy := uartCount lat })
      h.unstuck hpos (k := uartLatencySteps.toNat) hlat
    rw [← huart'] at hbusy hctrl hlatency hstuck htx
    refine ⟨hcount', by rw [hbusy]; decide, hstuck, ?_, hlatency.trans h.latency, ht', ?_⟩
    · rw [hctrl]
      exact h.enabled
    · rw [htx, loopSent, if_pos hpos, h.tx]
      show (tx ++ [((b.setWidth 32 : Word) &&& 0xFF).setWidth 8]).take 16384 = _
      rw [uartByte_written]
  · rw [uart_still hpos] at huart'
    refine ⟨hcount', ?_, ?_, ?_, ?_, ht', ?_⟩
    · rw [huart']
      exact hpos
    · rw [huart']
      exact h.unstuck
    · rw [huart']
      exact h.enabled
    · rw [huart']
      exact h.latency
    · rw [huart', loopSent, if_neg hpos, List.append_nil, List.take_of_length_le hlen]
      exact h.tx

end Send

/-! ### The timer and the metrics -/

/-- A write to a timer register changes the timer. -/
theorem SocWired.write_timerReg (h : SocWired s) {addr : Word} (h4 : addr % 4 = 0)
    (hw : InWindow vlabTimerBase 4096 addr) (value : Word) :
    ∃ perf, (socWrite s addr value).soc =
      { s with timer := (socTimerWrite s.timer (addr - vlabTimerBase) value).2, perf := perf } := by
  obtain ⟨-, perf, hsoc⟩ := socWrite_switch s value h4
  rw [(h.route_front h4).2.1 hw] at hsoc
  exact ⟨perf, hsoc⟩

section Timer

variable {n : ℕ}

/-- A write of the timer driver, counted. -/
theorem Counting.write_timer (h : Counting n p) {addr : Word}
    (ha : addr ∈ [vlabTimerLoad, vlabTimerCtrl, vlabTimerIrqClear]) (val : Word) :
    Counting (n + 1) (halWriteReg p addr val) ∧
      (halWriteReg p addr val).gSoc.uart = p.gSoc.uart ∧
      (halWriteReg p addr val).gSoc.timer =
        (socTimerWrite p.gSoc.timer (addr - vlabTimerBase) val).2 := by
  have hfix : Writable addr ∧ addr % 4 = 0 ∧ InWindow vlabTimerBase 4096 addr ∧
      addr ≠ vlabUartTxdata ∧ addr ∉ dmaRegs ∧ addr ∉ perfRegs := by
    simp only [List.mem_cons, List.not_mem_nil, or_false] at ha
    rcases ha with rfl | rfl | rfl
    all_goals exact ⟨by decide, by decide, by decide, by decide, by decide, by decide⟩
  obtain ⟨hw, h4, hwin, hne, hdma, hperf⟩ := hfix
  obtain ⟨perf, heq⟩ := h.live.wired.write_timerReg h4 hwin val
  refine ⟨h.write hw (fun ht => hne ht.1) hdma hperf val, ?_, ?_⟩
  · rw [halWriteReg_eq h.live, heq]
  · rw [halWriteReg_eq h.live, heq]

end Timer

/-! ### The program's law -/

end VlabSoc
