/-
The latency arithmetic against the integers.

START and TXDATA compute their countdowns in `uint32_t` and read them as `int32_t`, and
nothing bounds the configuration.  The countdown is the documented one exactly if it fits
(`socDmaCountdown_exact_iff`), no step on the way wraps exactly if the round-up to bursts
fits as well (`countdown_noWrap_iff`), and a configuration is exact in every run exactly if
its longest transfer and its UART latency are (`latency_exact_iff`).
-/
import VlabSoc.DmaDuration
import VlabSoc.UartDriver

namespace VlabSoc

/-! ### The DMA countdown -/

/-- No step of the arithmetic of `soc_dma_start` wraps: the round-up of LEN, the product, the
round-up to bursts, the sum, and the conversion to `int32_t`. -/
structure CountdownNoWrap {M : Type} (c : SocDmaConfig M) (len : Word) : Prop where
  roundUp : (len + 3).toNat = len.toNat + 3
  product : ((len + 3) / 4 * c.latencyPerWord).toNat =
    ((len + 3) / 4).toNat * c.latencyPerWord.toNat
  bursts : ((len + 3) / 4 + c.burst).toNat = ((len + 3) / 4).toNat + c.burst.toNat
  burstsPred : 0 < ((len + 3) / 4 + c.burst).toNat
  extra : 0 < (((len + 3) / 4 + c.burst - 1) / c.burst).toNat
  sum : ((len + 3) / 4 * c.latencyPerWord +
      (((len + 3) / 4 + c.burst - 1) / c.burst - 1)).toNat =
    ((len + 3) / 4 * c.latencyPerWord).toNat +
      (((len + 3) / 4 + c.burst - 1) / c.burst - 1).toNat
  signed : ((len + 3) / 4 * c.latencyPerWord +
      (((len + 3) / 4 + c.burst - 1) / c.burst - 1)).toInt =
    ((len + 3) / 4 * c.latencyPerWord + (((len + 3) / 4 + c.burst - 1) / c.burst - 1)).toNat

/-- The countdown and the round-up to bursts fit. -/
structure CountdownFits (c : SocConfig) (len : Word) : Prop where
  ticks : dmaTransferTicks c len < 2 ^ 31
  bursts : dmaWords len + atLeastOne c.dmaBurst < 2 ^ 32

theorem CountdownFits.duration {c : SocConfig} {len : Word} (hlen : len ≠ 0)
    (h : CountdownFits c len) : DurationFits c len := by
  have hbpos := dmaBursts_pos c hlen
  obtain ⟨hticks, hbursts⟩ := h
  rw [dmaTransferTicks] at hticks
  exact ⟨by omega, by omega⟩

/-- The round-up to bursts wraps: no burst at all is counted, which takes a tick off. -/
theorem socDmaCountdown_wrapped {c : SocConfig} {len : Word} (hlen : len ≠ 0)
    (hle : len.toNat ≤ 16384) (hticks : dmaTransferTicks c len < 2 ^ 31)
    (hwords : ¬ dmaWords len + atLeastOne c.dmaBurst - 1 < 2 ^ 32) :
    socDmaCountdown (vlabDmaConfig c) len < dmaTransferTicks c len := by
  have hwpos := dmaWords_pos hlen
  have hW := toNat_dmaWords hle
  have hblt : atLeastOne c.dmaBurst < 2 ^ 32 := by
    rw [← toNat_burst]
    exact BitVec.isLt _
  have hwle : dmaWords len ≤ 4096 := by
    rw [dmaWords, Nat.ceilDiv_eq_add_pred_div]
    omega
  have hlpos := atLeastOne_pos c.dmaLatencyPerWordTicks
  rw [dmaTransferTicks] at hticks ⊢
  -- at least two words, since a burst has less than `2 ^ 32`
  have hproduct : 2 ≤ dmaWords len * atLeastOne c.dmaLatencyPerWordTicks :=
    le_trans (by omega) (Nat.le_mul_of_pos_right _ hlpos)
  set words := (len + 3) / 4 with hwdef
  have hzero : (words + (vlabDmaConfig c).burst - 1) / (vlabDmaConfig c).burst = 0 := by
    refine BitVec.eq_of_toNat_eq ?_
    rw [BitVec.toNat_udiv, BitVec.toNat_sub, BitVec.toNat_add, hW, toNat_burst,
      show (1 : Word).toNat = 1 from rfl, show (0 : Word).toNat = 0 from rfl]
    exact Nat.div_eq_of_lt (by omega)
  have hR : (words * (vlabDmaConfig c).latencyPerWord + (0 - 1)).toNat =
      dmaWords len * atLeastOne c.dmaLatencyPerWordTicks - 1 := by
    rw [BitVec.toNat_add, BitVec.toNat_mul, hW, toNat_latency, show (0 - 1 : Word).toNat = 2 ^ 32 - 1 from rfl]
    generalize dmaWords len * atLeastOne c.dmaLatencyPerWordTicks = product at hticks hproduct ⊢
    omega
  have hint : (words * (vlabDmaConfig c).latencyPerWord + (0 - 1)).toInt =
      (dmaWords len * atLeastOne c.dmaLatencyPerWordTicks - 1 : ℕ) := by
    rw [BitVec.toInt_eq_toNat_of_lt, hR]
    rw [hR]
    omega
  rw [socDmaCountdown, ← hwdef, hzero, hint]
  clear hR hint hzero
  split_ifs <;> omega

/-- The loaded countdown is the documented one exactly if that fits. -/
theorem socDmaCountdown_exact_iff {c : SocConfig} {len : Word} (hlen : len ≠ 0)
    (hle : len.toNat ≤ 16384) :
    socDmaCountdown (vlabDmaConfig c) len = dmaTransferTicks c len ↔ DurationFits c len := by
  refine ⟨fun h => ?_, socDmaCountdown_eq hlen hle⟩
  have hbpos := dmaBursts_pos c hlen
  have hlt := socDmaCountdown_lt (vlabDmaConfig c) len
  have hticks : dmaTransferTicks c len < 2 ^ 31 := by
    rw [h] at hlt
    exact_mod_cast hlt
  refine ⟨?_, ?_⟩
  · rw [dmaTransferTicks] at hticks
    omega
  · by_contra hwords
    exact absurd h (ne_of_lt (socDmaCountdown_wrapped hlen hle hticks hwords))

/-- In a countdown that fits no step wraps. -/
theorem CountdownFits.noWrap {c : SocConfig} {len : Word} (hlen : len ≠ 0)
    (hle : len.toNat ≤ 16384) (h : CountdownFits c len) :
    CountdownNoWrap (vlabDmaConfig c) len := by
  have hbpos := dmaBursts_pos c hlen
  have hwpos := dmaWords_pos hlen
  have hW := toNat_dmaWords hle
  have hB := toNat_dmaBursts hle (h.duration hlen).words
  have hticks := h.ticks
  rw [dmaTransferTicks] at hticks
  have hproduct : ((len + 3) / 4 * (vlabDmaConfig c).latencyPerWord).toNat =
      dmaWords len * atLeastOne c.dmaLatencyPerWordTicks := by
    rw [BitVec.toNat_mul, hW, toNat_latency, Nat.mod_eq_of_lt (by omega)]
  have hbursts : ((len + 3) / 4 + (vlabDmaConfig c).burst).toNat =
      dmaWords len + atLeastOne c.dmaBurst := by
    rw [BitVec.toNat_add, hW, toNat_burst, Nat.mod_eq_of_lt h.bursts]
  set bursts := ((len + 3) / 4 + (vlabDmaConfig c).burst - 1) / (vlabDmaConfig c).burst with hbdef
  have hextra : (bursts - 1).toNat = dmaBursts c len - 1 := by
    rw [BitVec.toNat_sub, hB, show (1 : Word).toNat = 1 from rfl]
    omega
  have hsum : ((len + 3) / 4 * (vlabDmaConfig c).latencyPerWord + (bursts - 1)).toNat =
      dmaWords len * atLeastOne c.dmaLatencyPerWordTicks + (dmaBursts c len - 1) := by
    rw [BitVec.toNat_add, hproduct, hextra, Nat.mod_eq_of_lt (by omega)]
  exact {
    roundUp := by
      rw [BitVec.toNat_add, show (3 : Word).toNat = 3 from rfl, Nat.mod_eq_of_lt (by omega)]
    product := by rw [hproduct, hW, toNat_latency]
    bursts := by rw [hbursts, hW, toNat_burst]
    burstsPred := by
      rw [hbursts]
      omega
    extra := by
      rw [← hbdef, hB]
      exact hbpos
    sum := by rw [← hbdef, hsum, hproduct, hextra]
    signed := BitVec.toInt_eq_toNat_of_lt (by
      rw [← hbdef, hsum]
      omega) }

theorem countdown_noWrap_iff {c : SocConfig} {len : Word} (hlen : len ≠ 0)
    (hle : len.toNat ≤ 16384) :
    (socDmaCountdown (vlabDmaConfig c) len = dmaTransferTicks c len ∧
      CountdownNoWrap (vlabDmaConfig c) len) ↔ CountdownFits c len := by
  have hbpos := dmaBursts_pos c hlen
  constructor
  · rintro ⟨hexact, hno⟩
    have hfits := (socDmaCountdown_exact_iff hlen hle).mp hexact
    have hbursts := hno.bursts
    rw [toNat_dmaWords hle, toNat_burst] at hbursts
    refine ⟨?_, ?_⟩
    · have hticks := hfits.ticks
      rw [dmaTransferTicks]
      omega
    · rw [← hbursts]
      exact BitVec.isLt _
  · intro h
    exact ⟨socDmaCountdown_eq hlen hle (h.duration hlen), h.noWrap hlen hle⟩

theorem dmaWords_mono {l m : Word} (h : l.toNat ≤ m.toNat) : dmaWords l ≤ dmaWords m := by
  rw [dmaWords, dmaWords, Nat.ceilDiv_eq_add_pred_div, Nat.ceilDiv_eq_add_pred_div]
  omega

/-- Whatever a long transfer fits, a shorter one fits too. -/
theorem CountdownFits.mono {c : SocConfig} {l m : Word} (hle : l.toNat ≤ m.toNat)
    (h : CountdownFits c m) : CountdownFits c l := by
  have hwords := dmaWords_mono hle
  have hproduct := Nat.mul_le_mul_right (atLeastOne c.dmaLatencyPerWordTicks) hwords
  have hbursts : dmaBursts c l ≤ dmaBursts c m := by
    rw [dmaBursts, dmaBursts, Nat.ceilDiv_eq_add_pred_div, Nat.ceilDiv_eq_add_pred_div]
    exact Nat.div_le_div_right (by omega)
  obtain ⟨hticks, hsum⟩ := h
  rw [dmaTransferTicks] at hticks
  refine ⟨?_, by omega⟩
  rw [dmaTransferTicks]
  omega

/-! ### The UART count -/

theorem uartCount_exact_iff (latencyTicks : Word) :
    (uartCount latencyTicks = atLeastOne latencyTicks ∧ 0 < uartCount latencyTicks) ↔
      latencyTicks.toNat < 2 ^ 31 := by
  unfold uartCount atLeastOne
  by_cases h0 : latencyTicks = 0
  · rw [h0]
    exact iff_of_true ⟨rfl, by decide⟩ (by decide)
  have hpos : 0 < latencyTicks := (BitVec.pos_iff_ne_zero latencyTicks).mpr h0
  rw [if_neg h0, if_pos hpos]
  constructor
  · rintro ⟨hexact, -⟩
    have hlt := BitVec.toInt_lt (x := latencyTicks)
    rw [hexact] at hlt
    exact_mod_cast hlt
  · intro hlt
    have hone : 0 < latencyTicks.toNat := hpos
    have hint : latencyTicks.toInt = latencyTicks.toNat := BitVec.toInt_eq_toNat_of_lt (by omega)
    exact ⟨hint, by omega⟩

/-! ### Accepted writes -/

/-- An accepted START, with what it loads. -/
theorem SocReachable.start_accepted {s : Soc} (h : SocReachable s) {value : Word}
    (hidle : s.dma.busy = false) (haccept : (socWrite s vlabDmaCtrl value).soc.dma.busy = true) :
    s.dma.length ≠ 0 ∧ s.dma.length.toNat ≤ 16384 ∧
      (socWrite s vlabDmaCtrl value).soc.dma.remaining =
        socDmaCountdown (vlabDmaConfig s.config) s.dma.length := by
  have hstart : value &&& socDmaCtrlStart ≠ 0 := by
    intro hno
    have hword : (SocEvent.write vlabDmaCtrl value).startWord = none := if_neg fun h0 => h0.2 hno
    have hrest : (socWrite s vlabDmaCtrl value).soc.dma.busy = false :=
      (h.wired.idle_cases hidle (e := .write vlabDmaCtrl value) trivial hword).1
    exact absurd (hrest.symm.trans haccept) Bool.false_ne_true
  obtain ⟨hvalid, hdma⟩ := h.wired.start_accepted hidle hstart haccept
  refine ⟨hvalid.len_ne, hvalid.len_le, ?_⟩
  rw [hdma, ← h.wired.dma]
  rfl

/-- An accepted byte, with the count it loads. -/
theorem SocReachable.txdata_accepted {s : Soc} (h : SocReachable s) {value : Word}
    (hok : (socWrite s vlabUartTxdata value).rc = .ok) :
    (socWrite s vlabUartTxdata value).soc.uart.busy = uartCount s.config.uartLatencyTicks := by
  have hen : s.uart.ctrl &&& socUartCtrlEnable ≠ 0 := fun hoff =>
    ((h.wired.write_ok vlabUartTxdata value).mp hok).2 ⟨rfl, hoff⟩
  rw [h.wired.write_uartReg (by decide) fun _ => hen,
    show vlabUartTxdata - vlabUartBase = 0x00 from rfl, socUartWrite_txdata hen, h.uart_latency]

/-! ### A configuration -/

/-- What START and TXDATA load when they are accepted in `s` is exact. -/
structure LatencyExact (s : Soc) : Prop where
  start : ∀ value, s.dma.busy = false → (socWrite s vlabDmaCtrl value).soc.dma.busy = true →
    (socWrite s vlabDmaCtrl value).soc.dma.remaining = dmaTransferTicks s.config s.dma.length ∧
      CountdownNoWrap s.dma.cfg s.dma.length
  txdata : ∀ value, (socWrite s vlabUartTxdata value).rc = .ok →
    (socWrite s vlabUartTxdata value).soc.uart.busy = atLeastOne s.config.uartLatencyTicks ∧
      0 < (socWrite s vlabUartTxdata value).soc.uart.busy

/-- The longest transfer, of 16384 bytes, and the UART latency fit. -/
structure LatencyFits (c : SocConfig) : Prop where
  countdown : CountdownFits c 16384
  uart : c.uartLatencyTicks.toNat < 2 ^ 31

theorem SocReachable.start_exact_iff {s : Soc} (h : SocReachable s) {value : Word}
    (hidle : s.dma.busy = false) (haccept : (socWrite s vlabDmaCtrl value).soc.dma.busy = true) :
    ((socWrite s vlabDmaCtrl value).soc.dma.remaining = dmaTransferTicks s.config s.dma.length ∧
      CountdownNoWrap s.dma.cfg s.dma.length) ↔ CountdownFits s.config s.dma.length := by
  obtain ⟨hlen, hle, hload⟩ := h.start_accepted hidle haccept
  rw [hload, h.wired.dma]
  exact countdown_noWrap_iff hlen hle

theorem SocReachable.txdata_exact_iff {s : Soc} (h : SocReachable s) {value : Word}
    (hok : (socWrite s vlabUartTxdata value).rc = .ok) :
    ((socWrite s vlabUartTxdata value).soc.uart.busy = atLeastOne s.config.uartLatencyTicks ∧
      0 < (socWrite s vlabUartTxdata value).soc.uart.busy) ↔
      s.config.uartLatencyTicks.toNat < 2 ^ 31 := by
  rw [h.txdata_accepted hok]
  exact uartCount_exact_iff _

/-- The configuration `soc_init` was given stays. -/
theorem socInit_run_config (s0 : Soc) (c : SocConfig) (es : List SocEvent) :
    (Runs.run socApply (socInit s0 (some c)) es).config = c := by
  have hall : ∀ e ∈ es, True := fun _ _ => trivial
  have hrun := Runs.run_invariant socApply (P := fun t => SocWired t ∧ t.config = c)
    (fun t e _ ht => ⟨ht.1.apply e, (socApply_latency ht.1 e).1.trans ht.2⟩)
    hall ⟨socInit_wired s0 (some c), rfl⟩
  exact hrun.2

/-- Enables the UART and sets up the longest transfer, within SRAM. -/
def longestSetup : List SocEvent :=
  [.write vlabUartCtrl socUartCtrlEnable, .write vlabDmaSrc vlabSramBase,
    .write vlabDmaDst (vlabSramBase + 0x4000), .write vlabDmaLen 16384]

/-- A write to a register of the descriptor. -/
theorem SocWired.write_descriptor {s : Soc} (h : SocWired s) (v : Word) :
    ((socWrite s vlabDmaSrc v).soc.dma = { s.dma with src := v } ∧
      (socWrite s vlabDmaSrc v).soc.uart = s.uart) ∧
    ((socWrite s vlabDmaDst v).soc.dma = { s.dma with dst := v } ∧
      (socWrite s vlabDmaDst v).soc.uart = s.uart) ∧
    (socWrite s vlabDmaLen v).soc.dma = { s.dma with length := v } ∧
      (socWrite s vlabDmaLen v).soc.uart = s.uart := by
  have hsrc : vlabDmaSrc ∈ dmaRegs := by decide
  have hdst : vlabDmaDst ∈ dmaRegs := by decide
  have hlen : vlabDmaLen ∈ dmaRegs := by decide
  rw [h.write_dmaReg hsrc, h.write_dmaReg hdst, h.write_dmaReg hlen]
  exact ⟨⟨rfl, rfl⟩, ⟨rfl, rfl⟩, rfl, rfl⟩

theorem SocWired.longestSetup_eq {s : Soc} (h : SocWired s) :
    (Runs.run socApply s longestSetup).dma = { s.dma with
      src := vlabSramBase, dst := vlabSramBase + 0x4000, length := 16384 } ∧
    (Runs.run socApply s longestSetup).uart = { s.uart with ctrl := socUartCtrlEnable } := by
  have hctrl : vlabUartCtrl ∈ ([vlabUartTxdata, vlabUartCtrl, vlabUartBauddiv] : List Word) := by
    decide
  have henable := h.write_uartReg hctrl (fun heq => absurd heq (by decide)) socUartCtrlEnable
  have w1 := h.write vlabUartCtrl socUartCtrlEnable
  obtain ⟨⟨hdma2, huart2⟩, -⟩ := w1.write_descriptor vlabSramBase
  have w2 := w1.write vlabDmaSrc vlabSramBase
  obtain ⟨-, ⟨hdma3, huart3⟩, -⟩ := w2.write_descriptor (vlabSramBase + 0x4000)
  have w3 := w2.write vlabDmaDst (vlabSramBase + 0x4000)
  obtain ⟨-, -, hdma4, huart4⟩ := w3.write_descriptor 16384
  rw [longestSetup, Runs.run_cons, Runs.run_cons, Runs.run_cons, Runs.run_cons, Runs.run_nil]
  simp only [socApply]
  rw [hdma4, hdma3, hdma2, huart4, huart3, huart2, henable]
  exact ⟨rfl, rfl⟩

/-- The run that sets up the longest transfer needs room for it, and for the UART latency. -/
theorem latencyFits_of_exact {c : SocConfig}
    (h : LatencyExact (Runs.run socApply (socInit default (some c)) longestSetup)) :
    LatencyFits c := by
  have hr : SocReachable (Runs.run socApply (socInit default (some c)) longestSetup) :=
    ⟨default, some c, longestSetup, rfl⟩
  have hconfig := socInit_run_config default c longestSetup
  obtain ⟨hdma, huart⟩ := (socInit_wired default (some c)).longestSetup_eq
  set s := Runs.run socApply (socInit default (some c)) longestSetup with hs
  have hidle : s.dma.busy = false := by
    rw [hdma]
    rfl
  have hstart : (1 : Word) &&& socDmaCtrlStart ≠ 0 := by decide
  have haccept : (socWrite s vlabDmaCtrl 1).soc.dma.busy = true := by
    rcases hr.wired.start_cases hidle hstart with ⟨-, heq, -⟩ | ⟨hno, -⟩
    · rw [heq]
      rfl
    · rw [hdma] at hno
      have hvalid : VlabValid vlabSramBase (vlabSramBase + 0x4000) 16384 := by decide
      exact absurd hvalid hno
  have hok : (socWrite s vlabUartTxdata 0).rc = .ok := by
    refine (hr.wired.write_ok _ _).mpr ⟨by decide, fun hoff => ?_⟩
    have hzero := hoff.2
    rw [huart] at hzero
    have hne : socUartCtrlEnable &&& socUartCtrlEnable ≠ 0 := by decide
    exact hne hzero
  have hfits := (hr.start_exact_iff hidle haccept).mp (h.start 1 hidle haccept)
  have hlat := (hr.txdata_exact_iff hok).mp (h.txdata 0 hok)
  rw [hconfig, hdma] at hfits
  rw [hconfig] at hlat
  exact ⟨hfits, hlat⟩

theorem LatencyFits.exact {s : Soc} (h : LatencyFits s.config) (hr : SocReachable s) :
    LatencyExact s where
  start := fun _ hidle haccept => (hr.start_exact_iff hidle haccept).mpr
    (CountdownFits.mono (m := 16384) (hr.start_accepted hidle haccept).2.1 h.countdown)
  txdata := fun _ hok => (hr.txdata_exact_iff hok).mpr h.uart

/-- The latency arithmetic is exact in every run of a configuration exactly if that leaves
room for the longest transfer and for the UART latency, and of every single START and TXDATA
exactly if its own countdown fits. -/
theorem latency_exact_iff (c : SocConfig) :
    ((∀ s0 es, LatencyExact (Runs.run socApply (socInit s0 (some c)) es)) ↔ LatencyFits c) ∧
    ∀ s0 es, let s := Runs.run socApply (socInit s0 (some c)) es
      (∀ value, s.dma.busy = false → (socWrite s vlabDmaCtrl value).soc.dma.busy = true →
        (((socWrite s vlabDmaCtrl value).soc.dma.remaining = dmaTransferTicks c s.dma.length ∧
          CountdownNoWrap s.dma.cfg s.dma.length) ↔ CountdownFits c s.dma.length)) ∧
      ∀ value, (socWrite s vlabUartTxdata value).rc = .ok →
        (((socWrite s vlabUartTxdata value).soc.uart.busy = atLeastOne c.uartLatencyTicks ∧
          0 < (socWrite s vlabUartTxdata value).soc.uart.busy) ↔
          c.uartLatencyTicks.toNat < 2 ^ 31) := by
  have hreach : ∀ s0 es, SocReachable (Runs.run socApply (socInit s0 (some c)) es) :=
    fun s0 es => ⟨s0, some c, es, rfl⟩
  have hconfig := fun s0 es => socInit_run_config s0 c es
  refine ⟨⟨fun h => latencyFits_of_exact (h default longestSetup), fun h s0 es => ?_⟩,
    fun s0 es => ?_⟩
  · exact LatencyFits.exact ((hconfig s0 es).symm ▸ h) (hreach s0 es)
  · intro s
    have hc : s.config = c := hconfig s0 es
    have hr : SocReachable s := hreach s0 es
    refine ⟨fun value hidle haccept => ?_, fun value hok => ?_⟩
    · rw [← hc]
      exact hr.start_exact_iff hidle haccept
    · rw [← hc]
      exact hr.txdata_exact_iff hok

/-- A latency of `2 ^ 31` ticks: a word is done after one of them, a byte never, and a burst of
`2 ^ 32 - 1` words takes a tick off. -/
theorem latency_wraps :
    let c : SocConfig := { socConfigDefault with
      uartLatencyTicks := 0x80000000, dmaLatencyPerWordTicks := 0x80000000 }
    let s := Runs.run socApply (socInit default (some c)) [.write vlabUartCtrl socUartCtrlEnable,
      .write vlabDmaSrc vlabSramBase, .write vlabDmaDst (vlabSramBase + 0x100), .write vlabDmaLen 4]
    ((socWrite s vlabDmaCtrl 1).soc.dma.busy = true ∧
      (socWrite s vlabDmaCtrl 1).soc.dma.remaining = 1 ∧ dmaTransferTicks c 4 = 2 ^ 31) ∧
    ((socWrite s vlabUartTxdata 0).rc = .ok ∧
      (socWrite s vlabUartTxdata 0).soc.uart.busy = - 2 ^ 31) ∧
    ¬ LatencyExact s ∧
    socDmaCountdown (vlabDmaConfig { socConfigDefault with dmaBurst := 0xFFFFFFFF }) 8 = 1 := by
  intro c s
  have hstart : (socWrite s vlabDmaCtrl 1).soc.dma.busy = true ∧
      (socWrite s vlabDmaCtrl 1).soc.dma.remaining = 1 := by decide +kernel
  have hok : (socWrite s vlabUartTxdata 0).rc = .ok := by decide +kernel
  have hbusy : (socWrite s vlabUartTxdata 0).soc.uart.busy = - 2 ^ 31 := by decide +kernel
  refine ⟨⟨hstart.1, hstart.2, by decide +kernel⟩, ⟨hok, hbusy⟩, fun h => ?_, by decide +kernel⟩
  have hpos := (h.txdata 0 hok).2
  rw [hbusy] at hpos
  exact absurd hpos (by decide)

end VlabSoc
