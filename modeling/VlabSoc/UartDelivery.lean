/-
Delivery of the bytes the CPU sends.

A byte accepted at TXDATA is in flight for the latency of the UART, in ticks on which the
UART is not stuck.  Another accepted byte takes its place and starts the count again, and a
reset drops it (`uartCuts`); no other event touches it.

* `SocReachable.apply_uncut` — every other event keeps the byte, and counts if it ticks;
* `SocReachable.flight_since` — what is in flight is the last byte accepted, and its age;
* `uart_delivery` — in any run, bytes are delivered exactly at the end of their flight.
-/
import VlabSoc.LatencyExact
import VlabSoc.StreamRoundTrip
import VlabSoc.UartLink

namespace VlabSoc

/-- The byte that the next tick delivers. -/
def uartDelivers (s : Soc) : Option Byte :=
  if uartCompletes s.uart then some (uartByte s.uart) else none

/-- An accepted byte or a reset: either ends the flight there is. -/
def uartCuts : Soc × SocEvent → Bool
  | (s, .write addr value) => decide (addr = vlabUartTxdata ∧ (socWrite s addr value).rc = .ok)
  | (_, e) => e.resets

/-- A tick with the UART's stuck latch off. -/
def uartTicks : Soc × SocEvent → Bool
  | (s, .tick) => !s.uart.faultStuckBusy
  | _ => false

/-! ### One event -/

theorem cut_cases {s : Soc} (h : SocReachable s) {e : SocEvent} (hcut : uartCuts (s, e) = true) :
    (∃ value, e = .write vlabUartTxdata value ∧
      (socWrite s vlabUartTxdata value).rc = .ok) ∨ (socApply s e).uart.busy = 0 := by
  cases e with
  | write addr value =>
    obtain ⟨rfl, hok⟩ := of_decide_eq_true hcut
    exact Or.inl ⟨value, rfl, hok⟩
  | resetPeripherals => exact Or.inr rfl
  | boot romWords nwords =>
    obtain ⟨-, hfront⟩ := h.wired.boot_front romWords nwords
    exact Or.inr (congrArg (fun f => f.1.busy) hfront)
  | read addr out => exact absurd hcut Bool.false_ne_true
  | tick => exact absurd hcut Bool.false_ne_true
  | raise line => exact absurd hcut Bool.false_ne_true
  | uartStuck b => exact absurd hcut Bool.false_ne_true
  | dmaStuck b => exact absurd hcut Bool.false_ne_true

/-- A write that TXDATA does not accept leaves the transmitter alone. -/
theorem write_uncut {s : Soc} {addr value : Word} (hno : uartCuts (s, .write addr value) = false) :
    (socWrite s addr value).soc.uart.txdata = s.uart.txdata ∧
      (socWrite s addr value).soc.uart.busy = s.uart.busy := by
  by_cases htx : addr = vlabUartTxdata
  · have hfail : (socWrite s addr value).rc ≠ .ok := fun hok =>
      of_decide_eq_false hno ⟨htx, hok⟩
    rw [socWrite_fails hfail]
    exact ⟨rfl, rfl⟩
  · refine ⟨?_, socWrite_uartBusy htx s value⟩
    rcases socWrite_uart s addr value with heq | ⟨perf, heq⟩
    · rw [heq]
    · rw [heq]
      unfold socUartWrite
      split
      case h_1 hoff =>
        -- offset 0 is UART_TXDATA
        rw [BitVec.sub_eq_iff_eq_add] at hoff
        exact absurd (hoff.trans (by decide)) htx
      all_goals rfl

/-- The transmitter after a tick. -/
theorem SocWired.tick_transmitter {s : Soc} (h : SocWired s) :
    (socTick s).uart.txdata = s.uart.txdata ∧
      (socTick s).uart.busy.toNat = s.uart.busy.toNat - if uartTicks (s, .tick) then 1 else 0 := by
  have hcore : (socTick s).uart.core = (socUartStep s.uart).1.core :=
    congrArg Prod.fst h.tick_front
  have htx := congrArg SocUart.txdata hcore
  have hbusy := congrArg SocUart.busy hcore
  rw [show (socTick s).uart.txdata = _ from htx, show (socTick s).uart.busy = _ from hbusy, uartTicks]
  cases hc : uartCompletes s.uart with
  | true =>
    have hend : s.uart.busy = 1 ∧ s.uart.faultStuckBusy = false := by
      simpa [uartCompletes] using hc
    rw [socUartStep_complete hc, socUartDmaTxAppend_core, hend.1, hend.2]
    exact ⟨rfl, rfl⟩
  | false =>
    rw [socUartStep_count hc]
    refine ⟨rfl, ?_⟩
    cases hstuck : s.uart.faultStuckBusy with
    | true => simp [SocUart.core]
    | false =>
      simp only [SocUart.core, and_true, Bool.not_false, if_true]
      split_ifs <;> omega

/-- An event that does not end the flight keeps the byte, and counts if it ticks. -/
theorem SocReachable.apply_uncut {s : Soc} (h : SocReachable s) {e : SocEvent}
    (hno : uartCuts (s, e) = false) :
    (socApply s e).uart.txdata = s.uart.txdata ∧
      (socApply s e).uart.busy.toNat = s.uart.busy.toNat - if uartTicks (s, e) then 1 else 0 := by
  cases e with
  | read addr out =>
    rcases socRead_uart s addr out with heq | heq
    · rw [socApply, heq]
      exact ⟨rfl, rfl⟩
    · rw [socApply, heq, socUartRead_frame]
      exact ⟨rfl, rfl⟩
  | write addr value =>
    obtain ⟨htx, hbusy⟩ := write_uncut hno
    exact ⟨htx, congrArg Int.toNat hbusy⟩
  | tick => exact h.wired.tick_transmitter
  | resetPeripherals => exact absurd hno Bool.false_ne_true.symm
  | boot romWords nwords => exact absurd hno Bool.false_ne_true.symm
  | raise line => exact ⟨rfl, rfl⟩
  | uartStuck b => exact ⟨rfl, rfl⟩
  | dmaStuck b => exact ⟨rfl, rfl⟩

theorem SocReachable.apply {s : Soc} (h : SocReachable s) (e : SocEvent) :
    SocReachable (socApply s e) := h.run [e]

/-- What an event that ends the flight loads instead. -/
def uartLoads (x : Soc × SocEvent) : Option ℕ :=
  if uartCuts x then some (socApply x.1 x.2).uart.busy.toNat else none

theorem uartLoads_none {x : Soc × SocEvent} : uartLoads x = none ↔ uartCuts x = false := by
  rw [uartLoads]
  cases uartCuts x <;> simp

theorem uartLoads_some {x : Soc × SocEvent} {m : ℕ} :
    uartLoads x = some m ↔ uartCuts x = true ∧ (socApply x.1 x.2).uart.busy.toNat = m := by
  rw [uartLoads]
  cases uartCuts x <;> simp

theorem SocReachable.apply_count {s : Soc} (h : SocReachable s) (e : SocEvent) :
    (socApply s e).uart.busy.toNat =
      (uartLoads (s, e)).getD (s.uart.busy.toNat - if uartTicks (s, e) then 1 else 0) := by
  cases hcut : uartCuts (s, e) with
  | true => rw [uartLoads_some.mpr ⟨hcut, rfl⟩, Option.getD_some]
  | false => rw [uartLoads_none.mpr hcut, Option.getD_none, (h.apply_uncut hcut).2]

/-! ### A run -/

/-- A run that does not end the flight keeps its byte. -/
theorem run_uncut {s : Soc} (h : SocReachable s) {es : List SocEvent}
    (hno : ∀ x ∈ Runs.stages socApply s es, uartCuts x = false) :
    (Runs.run socApply s es).uart.txdata = s.uart.txdata :=
  (Runs.stages_invariant socApply (P := fun t => SocReachable t ∧ t.uart.txdata = s.uart.txdata)
    (C := fun x => uartCuts x = false)
    (fun _ e hx ht => ⟨ht.1.apply e, (ht.1.apply_uncut hx).1.trans ht.2⟩) hno ⟨h, rfl⟩).1.2

/-- An accepted byte is in flight until something ends its flight. -/
theorem SocReachable.accepted_flight {u : Soc} (h : SocReachable u) {value : Word}
    (hok : (socWrite u vlabUartTxdata value).rc = .ok) {mid : List SocEvent}
    (hno : ∀ x ∈ Runs.stages socApply (socWrite u vlabUartTxdata value).soc mid,
      uartCuts x = false) :
    uartByte (Runs.run socApply (socWrite u vlabUartTxdata value).soc mid).uart =
        value.setWidth 8 ∧
      (socWrite u vlabUartTxdata value).soc.uart.busy = uartCount u.config.uartLatencyTicks := by
  refine ⟨?_, h.txdata_accepted hok⟩
  have hen : u.uart.ctrl &&& socUartCtrlEnable ≠ 0 := fun hoff =>
    ((h.wired.write_ok vlabUartTxdata value).mp hok).2 ⟨rfl, hoff⟩
  have htx : (socWrite u vlabUartTxdata value).soc.uart.txdata = value &&& 0xFF := by
    rw [h.wired.write_uartReg (by decide) fun _ => hen,
      show vlabUartTxdata - vlabUartBase = 0x00 from rfl, socUartWrite_txdata hen]
  have hkept : (Runs.run socApply (socWrite u vlabUartTxdata value).soc mid).uart.txdata =
      (socWrite u vlabUartTxdata value).soc.uart.txdata :=
    run_uncut (h.apply (.write vlabUartTxdata value)) hno
  rw [uartByte, hkept, htx]
  refine BitVec.eq_of_toNat_eq ?_
  rw [BitVec.and_assoc, BitVec.and_self, BitVec.toNat_setWidth, BitVec.toNat_setWidth,
    BitVec.toNat_and, show (0xFF : Word).toNat = 2 ^ 8 - 1 from rfl,
    Nat.and_two_pow_sub_one_eq_mod, Nat.mod_mod]

/-- What is in flight is the last byte accepted, if it was not dropped; what is left of its
flight is what its ticks have not taken off. -/
theorem SocReachable.flight_since {s : Soc} (h : SocReachable s) (hrest : s.uart.busy.toNat = 0)
    (es : List SocEvent) {n : ℕ} (hn : 0 < n) (b : Byte) :
    (Runs.run socApply s es).uart.busy.toNat = n ∧ uartByte (Runs.run socApply s es).uart = b ↔
      ∃ pre value mid, es = pre ++ .write vlabUartTxdata value :: mid ∧
        let u := Runs.run socApply s pre
        let w := socWrite u vlabUartTxdata value
        let xs := Runs.stages socApply w.soc mid
        w.rc = .ok ∧ b = value.setWidth 8 ∧ (∀ x ∈ xs, uartCuts x = false) ∧
          xs.countP uartTicks + n = (uartCount u.config.uartLatencyTicks).toNat := by
  have hlast := Countdown.run_retriggered socApply (fun u => u.uart.busy.toNat) uartLoads
    uartTicks (fun u e hu => SocReachable.apply hu e) (fun u e hu => hu.apply_count e) es h hrest hn
  simp only [uartLoads_none] at hlast
  constructor
  · rintro ⟨hleft, rfl⟩
    obtain ⟨pre, e, mid, m, rfl, hset, hno, hm⟩ := hlast.mp hleft
    have hu : SocReachable (Runs.run socApply s pre) := h.run pre
    obtain ⟨hcut, rfl⟩ := uartLoads_some.mp hset
    -- a reset leaves nothing to count
    rcases cut_cases hu hcut with ⟨value, rfl, hok⟩ | hzero
    · obtain ⟨hbyte, hbusy⟩ := hu.accepted_flight hok hno
      refine ⟨pre, value, mid, rfl, hok, ?_, hno, ?_⟩
      · rw [← hbyte]
        exact congrArg (fun v : Soc => uartByte v.uart) (Runs.run_append_cons socApply s pre _ mid)
      · exact hm.trans (congrArg Int.toNat hbusy)
    · rw [hzero, Int.toNat_zero] at hm
      omega
  · rintro ⟨pre, value, mid, rfl, hok, rfl, hno, hm⟩
    have hu : SocReachable (Runs.run socApply s pre) := h.run pre
    obtain ⟨hbyte, hbusy⟩ := hu.accepted_flight hok hno
    refine ⟨hlast.mpr ⟨pre, _, mid, _, rfl, uartLoads_some.mpr ⟨?_, rfl⟩, hno, ?_⟩, ?_⟩
    · exact decide_eq_true ⟨rfl, hok⟩
    · exact hm.trans (congrArg Int.toNat hbusy).symm
    · rw [← hbyte]
      exact congrArg (fun v : Soc => uartByte v.uart) (Runs.run_append_cons socApply s pre _ mid)

/-! ### Delivery -/

/-- A tick delivers the byte whose flight ends with it to RXDATA, and raises line 0; any other
tick leaves RXDATA and line 0 alone. -/
theorem SocWired.tick_delivers {s : Soc} (h : SocWired s) :
    (∀ b, uartDelivers s = some b →
      uartReceived (socTick s).uart = b ∧ (socTick s).uart.rxValid = true ∧
        socUartIrqLine ∈ socRaises s .tick) ∧
    (uartDelivers s = none →
      (socTick s).uart.rxdata = s.uart.rxdata ∧ (socTick s).uart.rxValid = s.uart.rxValid ∧
        socUartIrqLine ∉ socRaises s .tick) := by
  have hcore : (socTick s).uart.core = (socUartStep s.uart).1.core :=
    congrArg Prod.fst h.tick_front
  have hrx := congrArg SocUart.rxdata hcore
  have hvalid := congrArg SocUart.rxValid hcore
  have htimer : socUartIrqLine ∉ (socTimerStep s.timer).2 := fun h0 =>
    absurd (socTimerStep_raises h0) (by decide)
  have hdma : socUartIrqLine ∉ dmaRaises s .tick := fun h0 =>
    absurd (h.tick_dmaRaises h0) (by decide)
  rw [uartReceived, show (socTick s).uart.rxdata = _ from hrx,
    show (socTick s).uart.rxValid = _ from hvalid, socRaises, List.mem_append, List.mem_append,
    or_iff_left hdma, or_iff_left htimer, uartDelivers]
  cases hc : uartCompletes s.uart with
  | true =>
    rw [socUartStep_complete hc, socUartDmaTxAppend_core]
    refine ⟨fun b hb => ⟨?_, rfl, List.mem_singleton.mpr rfl⟩, fun hnone => ?_⟩
    · exact Option.some.inj hb
    · exact absurd hnone (Option.some_ne_none _)
  | false =>
    rw [socUartStep_count hc]
    refine ⟨fun b hb => ?_, fun _ => ⟨rfl, rfl, List.not_mem_nil⟩⟩
    exact absurd hb.symm (Option.some_ne_none b)

theorem uartDelivers_iff {s : Soc} {b : Byte} :
    uartDelivers s = some b ↔
      s.uart.faultStuckBusy = false ∧ s.uart.busy.toNat = 1 ∧ uartByte s.uart = b := by
  have hone : s.uart.busy.toNat = 1 ↔ s.uart.busy = 1 := by omega
  rw [uartDelivers, hone]
  cases hc : uartCompletes s.uart with
  | true =>
    have hend : s.uart.busy = 1 ∧ s.uart.faultStuckBusy = false := by
      simpa [uartCompletes] using hc
    simp [hend]
  | false =>
    have hend : s.uart.faultStuckBusy = false → ¬ s.uart.busy = 1 := fun hstuck hbusy => by
      rw [uartCompletes, decide_eq_true hbusy, hstuck] at hc
      exact absurd hc (by decide)
    simp only [Bool.false_eq_true, if_false, reduceCtorEq, false_iff]
    rintro ⟨hstuck, hbusy, -⟩
    exact hend hstuck hbusy

/-- Delivery in any run.  The next tick delivers a byte exactly if it is not stuck and ends
the flight of that byte: the byte was accepted at TXDATA, no byte was accepted and nothing was
reset since, and the ticks since then that were not stuck, with this one, are the latency of
the UART.  What is delivered is in RXDATA and raises line 0; nothing else does either. -/
theorem uart_delivery (s0 : Soc) (c : SocConfig) (es : List SocEvent) :
    let t := Runs.run socApply (socInit s0 (some c)) es
    (∀ b, uartDelivers t = some b ↔ t.uart.faultStuckBusy = false ∧
      ∃ pre value mid, es = pre ++ .write vlabUartTxdata value :: mid ∧
        let w := socWrite (Runs.run socApply (socInit s0 (some c)) pre) vlabUartTxdata value
        let xs := Runs.stages socApply w.soc mid
        w.rc = .ok ∧ b = value.setWidth 8 ∧ (∀ x ∈ xs, uartCuts x = false) ∧
          xs.countP uartTicks + 1 = (uartCount c.uartLatencyTicks).toNat) ∧
    (∀ b, uartDelivers t = some b →
      uartReceived (socTick t).uart = b ∧ (socTick t).uart.rxValid = true ∧
        socUartIrqLine ∈ socRaises t .tick) ∧
    (uartDelivers t = none →
      (socTick t).uart.rxdata = t.uart.rxdata ∧ (socTick t).uart.rxValid = t.uart.rxValid ∧
        socUartIrqLine ∉ socRaises t .tick) := by
  intro t
  have hinit : SocReachable (socInit s0 (some c)) := ⟨s0, some c, [], rfl⟩
  refine ⟨fun b => ?_, (hinit.run es).wired.tick_delivers⟩
  have hsince := hinit.flight_since rfl es Nat.one_pos b
  simp only [socInit_run_config] at hsince
  rw [uartDelivers_iff, hsince]

end VlabSoc
