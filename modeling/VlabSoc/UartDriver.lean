/-
The UART driver (drivers/uart.c) on the live model.

Every call ends in one of few ways: `uart_write_byte` refuses without a trace but PERF
MEM_ACC, or programs TXDATA (`uartWriteByte_cases`), `uart_read_byte` refuses in the same
way, or takes the byte (`uartReadByte_cases`).
-/
import VlabSoc.FirmwareRuns
import VlabSoc.UartStreams

namespace VlabSoc

/-! ### PERF MEM_ACC -/

/-- The platform with another MEM_ACC count. -/
def Platform.withMemAcc (p : Platform) (m : Word) : Platform :=
  { p with gSoc := { p.gSoc with perf := { p.gSoc.perf with memAcc := m } } }

/-- `q` is `p` up to the MEM_ACC count. -/
def MemAccOnly (p q : Platform) : Prop := ∃ m, q = p.withMemAcc m

theorem MemAccOnly.refl (p : Platform) : MemAccOnly p p := ⟨p.gSoc.perf.memAcc, rfl⟩

theorem MemAccOnly.trans {p q r : Platform} (hpq : MemAccOnly p q) (hqr : MemAccOnly q r) :
    MemAccOnly p r := by
  obtain ⟨m, rfl⟩ := hpq
  obtain ⟨n, rfl⟩ := hqr
  exact ⟨n, rfl⟩

/-- What a counted access leaves, if it does nothing else. -/
theorem MemAccOnly.count (p : Platform) :
    MemAccOnly p { p with gSoc := { p.gSoc with perf := socPerfCountMem p.gSoc.perf } } := by
  refine ⟨(socPerfCountMem p.gSoc.perf).memAcc, ?_⟩
  rw [Platform.withMemAcc, socPerfCountMem]
  split_ifs <;> rfl

theorem MemAccOnly.live {p q : Platform} (h : MemAccOnly p q) (hp : Live p) : Live q := by
  obtain ⟨m, rfl⟩ := h
  exact ⟨hp.inited, hp.wired.of_eq rfl rfl rfl rfl rfl rfl⟩

theorem MemAccOnly.uart {p q : Platform} (h : MemAccOnly p q) : q.gSoc.uart = p.gSoc.uart := by
  obtain ⟨m, rfl⟩ := h
  rfl

/-! ### STATUS -/

theorem socUartStatus_empty (u : SocUart) :
    socUartStatus u &&& vlabUartStatusTxEmpty ≠ 0 ↔ ¬ 0 < u.busy := by
  unfold socUartStatus
  split_ifs with hb hv hv
  · exact iff_of_false (by decide) (not_not.mpr hb)
  · exact iff_of_false (by decide) (not_not.mpr hb)
  · exact iff_of_true (by decide) hb
  · exact iff_of_true (by decide) hb

theorem socUartStatus_valid (u : SocUart) :
    socUartStatus u &&& vlabUartStatusRxValid = 0 ↔ u.rxValid = false := by
  rw [← Bool.not_eq_true]
  unfold socUartStatus
  split_ifs with hb hv hv
  · exact iff_of_false (by decide) (not_not.mpr hv)
  · exact iff_of_true (by decide) hv
  · exact iff_of_false (by decide) (not_not.mpr hv)
  · exact iff_of_true (by decide) hv

/-- A read of STATUS or CTRL counts an access and does nothing else. -/
theorem Live.poll_uart {p : Platform} (h : Live p) {addr : Word}
    (ha : addr = vlabUartStatus ∨ addr = vlabUartCtrl) :
    (halReadReg p addr).1 = (socUartRead p.gSoc.uart (addr - vlabUartBase) 0).out ∧
      MemAccOnly p (halReadReg p addr).2 := by
  have hmem : addr ∈ uartReadRegs := by
    rcases ha with rfl | rfl <;> decide
  have hsame : (socUartRead p.gSoc.uart (addr - vlabUartBase) 0).uart = p.gSoc.uart := by
    rcases ha with rfl | rfl <;> rfl
  rw [h.read_uartReg hmem, hsame]
  exact ⟨rfl, MemAccOnly.count p⟩

theorem Live.poll_status {p : Platform} (h : Live p) :
    (halReadReg p vlabUartStatus).1 = socUartStatus p.gSoc.uart ∧
      MemAccOnly p (halReadReg p vlabUartStatus).2 := h.poll_uart (Or.inl rfl)

/-- The poll ends at once, or runs into its bound. -/
theorem uartPoll_spec {p : Platform} (h : Live p) (n : ℕ) :
    (uartPoll (n + 1) p).1 = decide (¬ 0 < p.gSoc.uart.busy) ∧
      MemAccOnly p (uartPoll (n + 1) p).2 := by
  induction n generalizing p with
  | zero =>
    obtain ⟨hst, hkeep⟩ := h.poll_status
    have hempty := socUartStatus_empty p.gSoc.uart
    rw [uartPoll, hst]
    by_cases hb : 0 < p.gSoc.uart.busy
    · rw [if_neg (mt hempty.mp (not_not.mpr hb)), if_pos rfl]
      exact ⟨(decide_eq_false (not_not.mpr hb)).symm, hkeep⟩
    · rw [if_pos (hempty.mpr hb)]
      exact ⟨(decide_eq_true hb).symm, hkeep⟩
  | succ n ih =>
    obtain ⟨hst, hkeep⟩ := h.poll_status
    have hempty := socUartStatus_empty p.gSoc.uart
    rw [uartPoll, hst]
    by_cases hb : 0 < p.gSoc.uart.busy
    · obtain ⟨hrest, hkeep'⟩ := ih (hkeep.live h)
      rw [hkeep.uart] at hrest
      rw [if_neg (mt hempty.mp (not_not.mpr hb)), if_neg (Nat.succ_ne_zero n)]
      exact ⟨hrest, hkeep.trans hkeep'⟩
    · rw [if_pos (hempty.mpr hb)]
      exact ⟨(decide_eq_true hb).symm, hkeep⟩

/-! ### The two calls -/

/-- The ticks a byte is in flight. -/
def uartCount (latencyTicks : Word) : Int := if 0 < latencyTicks then latencyTicks.toInt else 1

/-- The byte `uart_read_byte` hands out. -/
def uartReceived (u : SocUart) : Byte := (u.rxdata &&& 0xFF).setWidth 8

theorem byte_mask (b : Byte) : (b.setWidth 32 : Word) &&& 0xFF = b.setWidth 32 := by
  have hb := b.isLt
  refine BitVec.eq_of_toNat_eq ?_
  rw [BitVec.toNat_and, BitVec.toNat_setWidth, Nat.mod_eq_of_lt (by omega),
    show (0xFF : Word).toNat = 2 ^ 8 - 1 from rfl, Nat.and_two_pow_sub_one_eq_mod,
    Nat.mod_eq_of_lt hb]

theorem socUartWrite_txdata {u : SocUart} (hen : u.ctrl &&& socUartCtrlEnable ≠ 0)
    (perf : SocPerf) (value : Word) :
    socUartWrite u perf 0x00 value =
      ⟨.ok, { u with txdata := value &&& 0xFF, busy := uartCount u.latencyTicks }, perf⟩ :=
  if_neg hen

/-- An accepted byte is in flight. -/
theorem Live.write_txdata {p : Platform} (h : Live p)
    (hen : p.gSoc.uart.ctrl &&& socUartCtrlEnable ≠ 0) (b : Byte) :
    ∃ perf, halWriteReg p vlabUartTxdata (b.setWidth 32) = { p with gSoc := { p.gSoc with
      uart := { p.gSoc.uart with
        txdata := b.setWidth 32, busy := uartCount p.gSoc.uart.latencyTicks }
      perf := perf } } := by
  have hmem : vlabUartTxdata ∈ ([vlabUartTxdata, vlabUartCtrl, vlabUartBauddiv] : List Word) := by
    decide
  rw [halWriteReg_eq h, h.wired.write_uartReg hmem fun _ => hen,
    show vlabUartTxdata - vlabUartBase = 0x00 from rfl, socUartWrite_txdata hen, byte_mask]
  exact ⟨_, rfl⟩

theorem uartWriteByte_cases {p : Platform} (h : Live p) (b : Byte) :
    (p.gSoc.uart.ctrl &&& socUartCtrlEnable = 0 ∧ (uartWriteByte p b).1 = .errDisabled ∧
      MemAccOnly p (uartWriteByte p b).2) ∨
    (p.gSoc.uart.ctrl &&& socUartCtrlEnable ≠ 0 ∧ 0 < p.gSoc.uart.busy ∧
      (uartWriteByte p b).1 = .errTimeout ∧ MemAccOnly p (uartWriteByte p b).2) ∨
    (p.gSoc.uart.ctrl &&& socUartCtrlEnable ≠ 0 ∧ ¬ 0 < p.gSoc.uart.busy ∧
      (uartWriteByte p b).1 = .ok ∧ ∃ perf, (uartWriteByte p b).2 = { p with gSoc := { p.gSoc with
        uart := { p.gSoc.uart with
          txdata := b.setWidth 32, busy := uartCount p.gSoc.uart.latencyTicks }
        perf := perf } }) := by
  obtain ⟨hctrl, hkeep⟩ := h.poll_uart (Or.inr rfl)
  have hout : (halReadReg p vlabUartCtrl).1 = p.gSoc.uart.ctrl := hctrl
  obtain ⟨hpoll, hkeep'⟩ := uartPoll_spec (hkeep.live h) 999
  rw [hkeep.uart] at hpoll
  rw [uartWriteByte]
  dsimp only
  rw [hout, hpoll]
  by_cases hen : p.gSoc.uart.ctrl &&& socUartCtrlEnable = 0
  · rw [if_pos hen]
    exact Or.inl ⟨hen, rfl, hkeep⟩
  · rw [if_neg hen]
    by_cases hb : 0 < p.gSoc.uart.busy
    · rw [decide_eq_false (not_not.mpr hb), if_neg Bool.false_ne_true]
      exact Or.inr (Or.inl ⟨hen, hb, rfl, hkeep.trans hkeep'⟩)
    · rw [decide_eq_true hb, if_pos rfl]
      refine Or.inr (Or.inr ⟨hen, hb, rfl, ?_⟩)
      have hlive := hkeep'.live (hkeep.live h)
      obtain ⟨m, heq⟩ := hkeep.trans hkeep'
      rw [heq] at hlive ⊢
      exact hlive.write_txdata hen b

theorem uartReadByte_cases {p : Platform} (h : Live p) (out : Option Byte) :
    (p.gSoc.uart.rxValid = false ∧ (uartReadByte p out).rc = .errTimeout ∧
      (uartReadByte p out).out = out ∧ MemAccOnly p (uartReadByte p out).platform) ∨
    (p.gSoc.uart.rxValid = true ∧ (uartReadByte p out).rc = .ok ∧
      (uartReadByte p out).out = out.map (fun _ => uartReceived p.gSoc.uart) ∧
      ∃ perf, (uartReadByte p out).platform = { p with gSoc := { p.gSoc with
        uart := { p.gSoc.uart with rxValid := false }, perf := perf } }) := by
  obtain ⟨hst, hkeep⟩ := h.poll_status
  have hvalid := socUartStatus_valid p.gSoc.uart
  rw [uartReadByte, hst]
  by_cases hv : p.gSoc.uart.rxValid = false
  · rw [if_pos (hvalid.mpr hv)]
    exact Or.inl ⟨hv, rfl, rfl, hkeep⟩
  · rw [if_neg (mt hvalid.mp hv)]
    refine Or.inr ⟨Bool.not_eq_false _ ▸ hv, rfl, ?_⟩
    have hlive := hkeep.live h
    obtain ⟨m, heq⟩ := hkeep
    rw [heq] at hlive ⊢
    rw [hlive.read_uartReg (by decide)]
    refine ⟨?_, _, rfl⟩
    show out.map (fun _ => (p.gSoc.uart.rxdata &&& 0xFF &&& 0xFF).setWidth 8) = _
    rw [BitVec.and_assoc, BitVec.and_self]
    rfl

end VlabSoc
