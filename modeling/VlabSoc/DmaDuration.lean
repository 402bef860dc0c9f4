/-
How long a DMA transfer takes.

`dmaTransferTicks` is the duration of a transfer in ticks.  As long as it fits the
engine's arithmetic it is the countdown that START loads (`socDmaCountdown_eq`),
and nothing but a tick with the stuck latch off moves that countdown
(`SocWired.flight_countdown`).  `transfer_duration` says so of every run after a
START, and of `soc_run_until` with the predicate of the endpoint tests.
-/
import Mathlib.Algebra.Order.Floor.Div
import VlabSoc.DmaFlight

namespace VlabSoc

/-! ### The duration in words and bursts -/

/-- A timing parameter, 0 read as 1. -/
def atLeastOne (x : Word) : ℕ := if x = 0 then 1 else x.toNat

theorem atLeastOne_pos (x : Word) : 0 < atLeastOne x := by
  unfold atLeastOne
  split_ifs with h
  · exact Nat.one_pos
  · exact Nat.pos_of_ne_zero fun h0 => h (BitVec.eq_of_toNat_eq h0)

theorem toNat_atLeastOne (x : Word) : (if 0 < x then x else 1).toNat = atLeastOne x := by
  unfold atLeastOne
  by_cases h : x = 0
  · rw [if_pos h, h]
    rfl
  · have hpos : 0 < x := (BitVec.pos_iff_ne_zero x).mpr h
    rw [if_neg h, if_pos hpos]

theorem toNat_latency (c : SocConfig) :
    (vlabDmaConfig c).latencyPerWord.toNat = atLeastOne c.dmaLatencyPerWordTicks :=
  toNat_atLeastOne _

theorem toNat_burst (c : SocConfig) : (vlabDmaConfig c).burst.toNat = atLeastOne c.dmaBurst :=
  toNat_atLeastOne _

def dmaWords (len : Word) : ℕ := len.toNat ⌈/⌉ 4

def dmaBursts (c : SocConfig) (len : Word) : ℕ := dmaWords len ⌈/⌉ atLeastOne c.dmaBurst

/-- Every word takes the latency, and every burst but the first one tick more. -/
def dmaTransferTicks (c : SocConfig) (len : Word) : ℕ :=
  dmaWords len * atLeastOne c.dmaLatencyPerWordTicks + (dmaBursts c len - 1)

/-- The duration fits the 32-bit arithmetic of `soc_dma_start`. -/
structure DurationFits (c : SocConfig) (len : Word) : Prop where
  ticks : dmaWords len * atLeastOne c.dmaLatencyPerWordTicks + dmaBursts c len - 1 < 2 ^ 31
  words : dmaWords len + atLeastOne c.dmaBurst - 1 < 2 ^ 32

theorem dmaWords_pos {len : Word} (h : len ≠ 0) : 0 < dmaWords len := by
  have hlen := len_pos_iff.mpr h
  rw [dmaWords, Nat.ceilDiv_eq_add_pred_div]
  omega

theorem dmaBursts_pos (c : SocConfig) {len : Word} (h : len ≠ 0) : 0 < dmaBursts c len := by
  have hwords := dmaWords_pos h
  have hburst := atLeastOne_pos c.dmaBurst
  rw [dmaBursts, Nat.ceilDiv_eq_add_pred_div]
  exact Nat.div_pos (by omega) hburst

theorem dmaTransferTicks_pos (c : SocConfig) {len : Word} (h : len ≠ 0) :
    0 < dmaTransferTicks c len :=
  Nat.add_pos_left (Nat.mul_pos (dmaWords_pos h) (atLeastOne_pos _)) _

/-- LEN in words, as `soc_dma_start` rounds it. -/
theorem toNat_dmaWords {len : Word} (hle : len.toNat ≤ 16384) :
    ((len + 3) / 4).toNat = dmaWords len := by
  rw [BitVec.toNat_udiv, BitVec.toNat_add, dmaWords, Nat.ceilDiv_eq_add_pred_div,
    show (3 : Word).toNat = 3 from rfl, show (4 : Word).toNat = 4 from rfl,
    Nat.mod_eq_of_lt (by omega)]
  omega

theorem toNat_dmaBursts {c : SocConfig} {len : Word} (hle : len.toNat ≤ 16384)
    (hwords : dmaWords len + atLeastOne c.dmaBurst - 1 < 2 ^ 32) :
    (((len + 3) / 4 + (vlabDmaConfig c).burst - 1) / (vlabDmaConfig c).burst).toNat =
      dmaBursts c len := by
  have hb1 := atLeastOne_pos c.dmaBurst
  rw [BitVec.toNat_udiv, toNat_burst, dmaBursts, Nat.ceilDiv_eq_add_pred_div]
  congr 1
  rw [BitVec.toNat_sub, BitVec.toNat_add, toNat_dmaWords hle, toNat_burst,
    show (1 : Word).toNat = 1 from rfl]
  omega

/-- The countdown START loads, when the arithmetic does not wrap. -/
theorem socDmaCountdown_eq {c : SocConfig} {len : Word} (hlen : len ≠ 0)
    (hle : len.toNat ≤ 16384) (h : DurationFits c len) :
    socDmaCountdown (vlabDmaConfig c) len = dmaTransferTicks c len := by
  obtain ⟨hticks, hwords⟩ := h
  have hbpos := dmaBursts_pos c hlen
  have hW := toNat_dmaWords hle
  have hB := toNat_dmaBursts hle hwords
  set words := (len + 3) / 4 with hwdef
  set bursts := (words + (vlabDmaConfig c).burst - 1) / (vlabDmaConfig c).burst with hbdef
  have hR : (words * (vlabDmaConfig c).latencyPerWord + (bursts - 1)).toNat =
      dmaTransferTicks c len := by
    rw [BitVec.toNat_add, BitVec.toNat_mul, BitVec.toNat_sub, hW, hB, toNat_latency, dmaTransferTicks,
      show (1 : Word).toNat = 1 from rfl]
    generalize dmaWords len * atLeastOne c.dmaLatencyPerWordTicks = product at hticks ⊢
    omega
  have hpos := dmaTransferTicks_pos c hlen
  have hint : (words * (vlabDmaConfig c).latencyPerWord + (bursts - 1)).toInt =
      dmaTransferTicks c len := by
    rw [BitVec.toInt_eq_toNat_of_lt, hR]
    rw [hR, dmaTransferTicks]
    omega
  rw [socDmaCountdown, hint, if_neg (by omega)]

/-! ### In flight -/

/-- Up to the last of its ticks a transfer is in flight, whatever else happens; its countdown
falls by the ticks that count. -/
theorem SocWired.flight_countdown {s : Soc} (h : SocWired s) (hinv : DmaInv s.dma)
    (hbusy : s.dma.busy = true) {es : List SocEvent} (hes : ∀ e ∈ es, e.keepsPower)
    (hn : (Runs.stages socApply s es).countP dmaTicks < s.dma.remaining.toNat) :
    (Runs.run socApply s es).dma.busy = true ∧
      (Runs.run socApply s es).dma.remaining.toNat +
        (Runs.stages socApply s es).countP dmaTicks = s.dma.remaining.toNat := by
  have hpos := hinv.busy_iff.mp hbusy
  -- a busy engine moves only at a tick that counts, whatever is written
  have hkeep : ∀ t e, e.keepsPower → SocWired t ∧ t.dma.busy = true → dmaTicks (t, e) = false →
      (SocWired (socApply t e) ∧ (socApply t e).dma.busy = true) ∧
        (socApply t e).dma.remaining.toNat = t.dma.remaining.toNat := by
    rintro t e he ⟨hw, hb⟩ hno
    rcases hw.flight_cases hb he with ⟨-, hsame, -⟩ | ⟨hyes, -⟩ | ⟨-, hyes, -⟩
    · exact ⟨⟨hw.apply e, hsame.busy⟩, by rw [hsame.remaining]⟩
    · exact absurd (hno.symm.trans hyes) Bool.false_ne_true
    · exact absurd (hno.symm.trans hyes) Bool.false_ne_true
  -- and such a tick above one takes one off
  have htick : ∀ t e, e.keepsPower → SocWired t ∧ t.dma.busy = true → dmaTicks (t, e) = true →
      1 < t.dma.remaining.toNat → (SocWired (socApply t e) ∧ (socApply t e).dma.busy = true) ∧
        (socApply t e).dma.remaining.toNat + 1 = t.dma.remaining.toNat := by
    rintro t e he ⟨hw, hb⟩ hyes hgt
    rcases hw.flight_cases hb he with ⟨hno, -⟩ | ⟨-, hrem, hdma, -⟩ | ⟨-, -, hle, -⟩
    · exact absurd (hno.symm.trans hyes) Bool.false_ne_true
    · refine ⟨⟨hw.apply e, ?_⟩, ?_⟩
      · rw [hdma]
        exact hb
      · rw [hdma]
        dsimp only
        omega
    · omega
  rcases Runs.run_countdown socApply _ (fun t => t.dma.remaining.toNat) dmaTicks hkeep htick hes
    ⟨h, hbusy⟩ (by omega) with ⟨-, hb, hsum⟩ | ⟨pre, e, post, rfl, hlast, hcount, -, -⟩
  · exact ⟨hb.2, hsum⟩
  · -- the run has passed the last tick
    have hpast : (Runs.stages socApply s pre).countP dmaTicks + 1 ≤
        (Runs.stages socApply s (pre ++ e :: post)).countP dmaTicks := by
      rw [Runs.stages_append, Runs.stages, List.countP_append, List.countP_cons_of_pos hlast]
      omega
    omega

/-! ### STATUS -/

/-- What a read of STATUS answers. -/
def statusRead (s : Soc) : SocRc × Word :=
  let r := socRead s vlabDmaStatus 0
  (r.rc, r.out)

theorem SocWired.read_status {s : Soc} (h : SocWired s) :
    (socRead s vlabDmaStatus 0).rc = .ok ∧
      (socRead s vlabDmaStatus 0).out = socDmaStatus s.dma ∧
      (socRead s vlabDmaStatus 0).soc = { s with perf := socPerfCountMem s.perf } :=
  h.read_dmaReg (by decide) 0

theorem SocWired.statusRead_eq {s : Soc} (h : SocWired s) :
    statusRead s = (.ok, socDmaStatus s.dma) := by
  obtain ⟨hrc, hout, -⟩ := h.read_status
  rw [statusRead, hrc, hout]

theorem DmaInv.status_busy {d : SocDma DmaCtx} (h : DmaInv d) (hbusy : d.busy = true) :
    socDmaStatus d = vlabDmaStatusBusy := by
  rw [socDmaStatus, hbusy, h.busy_not_done hbusy, h.busy_not_error hbusy]
  rfl

theorem DmaInv.status_ended {d : SocDma DmaCtx} (h : DmaInv d) (hidle : d.busy = false)
    (hend : d.done = true ∨ d.error = true) :
    socDmaStatus d = vlabDmaStatusDone ∨ socDmaStatus d = vlabDmaStatusError := by
  rcases hend with hdone | herror
  · refine Or.inl ?_
    rw [socDmaStatus, hidle, hdone, h.done_not_error hdone]
    rfl
  · have hdone : d.done = false :=
      Bool.eq_false_iff.mpr fun hd => absurd ((h.done_not_error hd).symm.trans herror) (by decide)
    refine Or.inr ?_
    rw [socDmaStatus, hidle, hdone, herror]
    rfl

/-! ### `soc_run_until` -/

/-- `pred_term` of the endpoint tests: STATUS shows DONE or ERROR. -/
def predTerm : SocPred := fun s =>
  let r := socRead s vlabDmaStatus 0
  (decide (r.out &&& (vlabDmaStatusDone ||| vlabDmaStatusError) ≠ 0), r.soc)

theorem SocWired.predTerm_eq {s : Soc} (h : SocWired s) :
    predTerm s = (s.dma.done || s.dma.error, { s with perf := socPerfCountMem s.perf }) := by
  obtain ⟨-, hout, hsoc⟩ := h.read_status
  rw [predTerm, hout, hsoc, socDmaStatus]
  cases s.dma.busy <;> cases s.dma.done <;> cases s.dma.error <;> rfl

/-- Once the transfer has ended the loop returns without another tick. -/
theorem SocWired.runUntil_ended {s : Soc} (h : SocWired s)
    (hend : s.dma.done = true ∨ s.dma.error = true) (elapsed : Word) (n : ℕ) :
    (socRunUntilFrom predTerm elapsed n s).1 = elapsed.toInt := by
  have hpred : (predTerm s).1 = true := by
    rw [h.predTerm_eq]
    exact Bool.or_eq_true_iff.mpr hend
  cases n with
  | zero => rw [socRunUntilFrom, if_pos hpred]
  | succ n => rw [socRunUntilFrom, if_pos hpred]

/-- While the transfer is in flight every pass of the loop is one tick. -/
theorem SocWired.runUntil_step {s : Soc} (h : SocWired s) (hinv : DmaInv s.dma)
    (hbusy : s.dma.busy = true) (elapsed : Word) (n : ℕ) :
    socRunUntilFrom predTerm elapsed (n + 1) s =
      socRunUntilFrom predTerm (elapsed + 1) n
        (socTick { s with perf := socPerfCountMem s.perf }) := by
  have hpred : (predTerm s).1 = false := by
    rw [h.predTerm_eq, hinv.busy_not_done hbusy, hinv.busy_not_error hbusy]
    rfl
  rw [socRunUntilFrom, if_neg (by simp [hpred]), h.predTerm_eq]
  rfl

/-- The loop ends with the countdown: induction on the ticks left. -/
theorem SocWired.runUntil_flight {k : ℕ} : ∀ {s : Soc} {n : ℕ} (elapsed : Word), SocWired s →
    DmaInv s.dma → s.dma.busy = true → s.dma.faultStuckBusy = false → s.dma.remaining = k + 1 →
    k + 1 ≤ n → (socRunUntilFrom predTerm elapsed n s).1 = (elapsed + BitVec.ofNat 32 (k + 1)).toInt := by
  induction k with
  | zero =>
    -- the last tick: the next look at STATUS ends the loop
    intro s n elapsed h hinv hbusy hstuck hrem hn
    obtain ⟨m, rfl⟩ : ∃ m, n = m + 1 := ⟨n - 1, by omega⟩
    have hread : SocWired { s with perf := socPerfCountMem s.perf } :=
      h.of_eq rfl rfl rfl rfl rfl rfl
    rw [h.runUntil_step hinv hbusy]
    exact hread.tick.runUntil_ended (hread.completing_dma hbusy hstuck (by simp [hrem])).2 _ m
  | succ k ih =>
    -- the look itself counts a memory access, the tick takes one off the countdown
    intro s n elapsed h hinv hbusy hstuck hrem hn
    obtain ⟨m, rfl⟩ : ∃ m, n = m + 1 := ⟨n - 1, by omega⟩
    set t : Soc := { s with perf := socPerfCountMem s.perf } with ht
    have hread : SocWired t := h.of_eq rfl rfl rfl rfl rfl rfl
    have htick : (socTick t).dma = { s.dma with remaining := s.dma.remaining - 1 } :=
      congrArg Soc.dma (socTickDma_count (s := socTickFront t) hbusy hstuck
        (by show 1 < s.dma.remaining; omega))
    rw [h.runUntil_step hinv hbusy, ih (elapsed + 1) hread.tick (hread.dmaInv_tick hinv)
      (by rw [htick]; exact hbusy) (by rw [htick]; exact hstuck)
      (by rw [htick]; dsimp only; omega) (by omega)]
    have hsum : elapsed + 1 + BitVec.ofNat 32 (k + 1) = elapsed + BitVec.ofNat 32 (k + 1 + 1) := by
      rw [BitVec.ofNat_add (k + 1) 1, BitVec.add_assoc]
      exact congrArg (elapsed + ·) (BitVec.add_comm _ _)
    rw [hsum]

/-! ### The law -/

/-- Exact DMA duration.  After a START that is accepted, in every run without reset, STATUS
reads BUSY as long as fewer than `R = words * latency + (bursts - 1)` ticks have passed with
the stuck latch off, and the `R`-th of them leaves BUSY; `R` is taken from LEN at START,
whatever is written later.  From anywhere in between with the latch off, `soc_run_until`
returns exactly the ticks that are left, for every budget that reaches them. -/
theorem transfer_duration {s : Soc} (h : SocReachable s) (hidle : s.dma.busy = false)
    {value : Word} (hstart : value &&& socDmaCtrlStart ≠ 0)
    (haccept : (socWrite s vlabDmaCtrl value).soc.dma.busy = true)
    (hfits : DurationFits s.config s.dma.length) {es : List SocEvent}
    (hes : ∀ e ∈ es, e.keepsPower) :
    let s1 := (socWrite s vlabDmaCtrl value).soc
    let R := dmaTransferTicks s.config s.dma.length
    let t := Runs.run socApply s1 es
    let n := (Runs.stages socApply s1 es).countP dmaTicks
    (n < R → statusRead t = (.ok, vlabDmaStatusBusy)) ∧
    (n + 1 = R → t.dma.faultStuckBusy = false →
      statusRead (socTick t) = (.ok, vlabDmaStatusDone) ∨
        statusRead (socTick t) = (.ok, vlabDmaStatusError)) ∧
    (n < R → t.dma.faultStuckBusy = false → ∀ maxTicks : Word, R ≤ n + maxTicks.toNat →
      maxTicks.toNat < 2 ^ 31 →
      (socRunUntil t (some predTerm) maxTicks).1 = ((R - n : ℕ) : Int)) := by
  intro s1 R t n
  have hwired : SocWired s1 := h.wired.write vlabDmaCtrl value
  have hinv : DmaInv s1.dma := h.wired.dmaInv_apply h.dmaInv (.write vlabDmaCtrl value)
  -- the countdown START has loaded is R
  have hrem : s1.dma.remaining.toNat = R := by
    obtain ⟨hvalid, hdma⟩ := h.wired.start_accepted hidle hstart haccept
    have hload : s1.dma.remaining = socDmaCountdown s.dma.cfg s.dma.length :=
      congrArg SocDma.remaining hdma
    rw [hload, h.wired.dma, socDmaCountdown_eq hvalid.len_ne hvalid.len_le hfits]
    rfl
  have ht : SocWired t := hwired.run es
  have htinv : DmaInv t.dma := hwired.dmaInv_run hinv es
  have hflight : n < R → t.dma.busy = true ∧ t.dma.remaining.toNat + n = R := by
    intro hn
    rw [← hrem] at hn ⊢
    exact hwired.flight_countdown hinv haccept hes hn
  refine ⟨fun hn => ?_, fun hn hstuck => ?_, fun hn hstuck maxTicks hreach hmax => ?_⟩
  · rw [ht.statusRead_eq, htinv.status_busy (hflight hn).1]
  · obtain ⟨hbusy, hleft⟩ := hflight (by omega)
    have hend := ht.completing_dma hbusy hstuck (by omega)
    rw [ht.tick.statusRead_eq]
    rcases (ht.dmaInv_tick htinv).status_ended hend.1 hend.2 with hdone | herror
    · exact Or.inl (by rw [hdone])
    · exact Or.inr (by rw [herror])
  · -- the budget reaches the last tick, so the count does not wrap
    obtain ⟨hbusy, hleft⟩ := hflight hn
    obtain ⟨k, hk⟩ : ∃ k, R - n = k + 1 := ⟨R - n - 1, by omega⟩
    have hloop := ht.runUntil_flight (k := k) (n := maxTicks.toNat) 0 htinv hbusy hstuck
      (by omega) (by omega)
    have hsum : (0 : Word) + BitVec.ofNat 32 (k + 1) = BitVec.ofNat 32 (k + 1) := BitVec.zero_add _
    have hsmall : (BitVec.ofNat 32 (k + 1)).toNat = k + 1 := by
      rw [BitVec.toNat_ofNat]
      omega
    rw [socRunUntil, hk]
    show (socRunUntilFrom predTerm 0 maxTicks.toNat t).1 = _
    rw [hloop, hsum, BitVec.toInt_eq_toNat_of_lt (by omega), hsmall]

/-- Five words in bursts of four: six ticks, one of them here before the descriptor is rewritten. -/
theorem transfer_duration_rewritten :
    let s := Runs.run socApply (socInit default none) [.write vlabDmaSrc vlabSramBase,
      .write vlabDmaDst (vlabSramBase + 0x100), .write vlabDmaLen 20]
    (socRunUntil (Runs.run socApply (socWrite s vlabDmaCtrl 0x1).soc [.dmaStuck true, .tick,
      .dmaStuck false, .tick, .write vlabDmaLen 4, .write vlabDmaCtrl 0x1])
      (some predTerm) 100).1 = ((6 - 1 : ℕ) : Int) := by
  dsimp only
  have hreach : SocReachable (Runs.run socApply (socInit default none)
      [.write vlabDmaSrc vlabSramBase, .write vlabDmaDst (vlabSramBase + 0x100),
        .write vlabDmaLen 20]) := ⟨default, none, _, rfl⟩
  have hes : ∀ e ∈ [SocEvent.dmaStuck true, .tick, .dmaStuck false, .tick, .write vlabDmaLen 4,
      .write vlabDmaCtrl 0x1], e.keepsPower := by
    simp [SocEvent.keepsPower]
  have hstart : (0x1 : Word) &&& socDmaCtrlStart ≠ 0 := by decide
  have hlaw := transfer_duration hreach (by decide +kernel) hstart (by decide +kernel)
    ⟨by decide +kernel, by decide +kernel⟩ hes
  exact hlaw.2.2 (by decide +kernel) (by decide +kernel) 100 (by decide +kernel) (by decide)

end VlabSoc
