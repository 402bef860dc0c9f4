/-
`soc_run_until` and the test hook `vlab_test_dma_complete` as bounded searches.

A predicate that only looks (`SocPred.Observes`) does not disturb the ticks, so the
loop stops at the first tick it holds after: `run_until_least`.  The hook is the
same search for the engine to leave BUSY: `dmaCompleteLoop_eq`,
`test_dma_complete_exact`.
-/
import VlabSoc.DmaDuration
import VlabSoc.Firmware
import VlabSoc.Polling
import VlabSoc.Search

namespace VlabSoc

/-! ### The loop -/

/-- The answer of a look. -/
def SocPred.answer (pred : SocPred) (s : Soc) : Bool := (pred s).1

/-- What happens between two looks: the first look's effect and a tick. -/
def SocPred.round (pred : SocPred) (s : Soc) : Soc := socTick (pred s).2

theorem socStep_one (s : Soc) : socStep s 1 = socTick s := rfl

theorem add_one_add_ofNat (w : Word) (k : ℕ) :
    w + 1 + BitVec.ofNat 32 k = w + BitVec.ofNat 32 (k + 1) := by
  rw [BitVec.ofNat_add k 1, BitVec.add_assoc]
  exact congrArg (w + ·) (BitVec.add_comm _ _)

/-- The loop is a search over one look more than its budget. -/
theorem socRunUntilFrom_eq (pred : SocPred) (n : ℕ) (elapsed : Word) (s : Soc) :
    socRunUntilFrom pred elapsed n s =
      match Search.first pred.answer pred.round (n + 1) s with
      | some k => ((elapsed + BitVec.ofNat 32 k).toInt, (pred (pred.round^[k] s)).2)
      | none => (-1, (pred (pred.round^[n] s)).2) := by
  -- on the budget that is left
  induction n generalizing elapsed s with
  | zero =>
    cases hp : pred.answer s with
    | true =>
      rw [socRunUntilFrom, if_pos (show (pred s).1 = true from hp), Search.first_succ_stop hp]
      simp
    | false =>
      rw [socRunUntilFrom, if_neg (show ¬ (pred s).1 = true by simpa [SocPred.answer] using hp),
        Search.first_succ_next hp]
      rfl
  | succ n ih =>
    cases hp : pred.answer s with
    | true =>
      rw [socRunUntilFrom, if_pos (show (pred s).1 = true from hp), Search.first_succ_stop hp]
      simp
    | false =>
      rw [socRunUntilFrom, if_neg (show ¬ (pred s).1 = true by simpa [SocPred.answer] using hp),
        Search.first_succ_next hp, socStep_one, ih (elapsed + 1) (socTick (pred s).2)]
      show (match Search.first _ pred.round (n + 1) (pred.round s) with
        | some k => _
        | none => _) = _
      cases Search.first pred.answer pred.round (n + 1) (pred.round s) with
      | none => rfl
      | some k =>
        dsimp only [Option.map_some]
        rw [add_one_add_ofNat]
        rfl

/-! ### Predicates that only look -/

/-- The predicate changes nothing but the MEM_ACC and STALLS counts, and does not answer
by them. -/
structure SocPred.Observes (pred : SocPred) : Prop where
  keeps : ∀ s, (pred s).2.uncounted = s.uncounted
  sees : ∀ s, pred.answer s = pred.answer s.uncounted

/-- A predicate on what a read answers, of a register that a read does not change. -/
theorem observes_read {addr : Word} (hrx : addr ≠ vlabUartRxdata) (hack : addr ≠ vlabIntcAck)
    (hcount : addr ∉ countRegs) (q : Word → Bool) :
    SocPred.Observes fun s => (q (socRead s addr 0).out, (socRead s addr 0).soc) :=
  ⟨fun s => socRead_uncounted hrx hack s 0,
    fun s => congrArg q ((socRead_congr s addr 0).2.1 hcount)⟩

theorem predTerm_observes : SocPred.Observes predTerm :=
  observes_read (show vlabDmaStatus ≠ vlabUartRxdata by decide) (by decide) (by decide)
    fun w => decide (w &&& (vlabDmaStatusDone ||| vlabDmaStatusError) ≠ 0)

variable {pred : SocPred}

theorem SocPred.Observes.semiconj (h : pred.Observes) :
    Function.Semiconj Soc.uncounted pred.round socTick := fun s => by
  rw [SocPred.round, socTick_uncounted, h.keeps]

/-- Whether the predicate holds after `k` ticks. -/
def SocPred.holdsAfter (pred : SocPred) (s : Soc) (k : ℕ) : Prop :=
  pred.answer (socTick^[k] s) = true

instance (pred : SocPred) (s : Soc) (k : ℕ) : Decidable (pred.holdsAfter s k) :=
  inferInstanceAs (Decidable (_ = _))

/-- The looks between the ticks leave no trace in the answers. -/
theorem SocPred.Observes.holds_iff (h : pred.Observes) (s : Soc) (k : ℕ) :
    pred.answer (pred.round^[k] s) = true ↔ pred.holdsAfter s k := by
  have hticks : Function.Semiconj Soc.uncounted socTick socTick := socTick_uncounted
  rw [SocPred.holdsAfter, h.sees, h.sees (socTick^[k] s), h.semiconj.iterate_right k s,
    hticks.iterate_right k s]

/-- Nor in the state, after the last look. -/
theorem SocPred.Observes.uncounted_eq (h : pred.Observes) (s : Soc) (k : ℕ) :
    (pred (pred.round^[k] s)).2.uncounted = (socTick^[k] s).uncounted := by
  have hticks : Function.Semiconj Soc.uncounted socTick socTick := socTick_uncounted
  rw [h.keeps, h.semiconj.iterate_right k s, hticks.iterate_right k s]

/-- The loop stops at the first tick that the predicate holds after. -/
theorem SocPred.Observes.runUntil_first (h : pred.Observes) {s : Soc} {maxTicks : Word} {k : ℕ}
    (hk : k ≤ maxTicks.toNat) (hholds : pred.holdsAfter s k)
    (hno : ∀ j < k, ¬ pred.holdsAfter s j) :
    (socRunUntil s (some pred) maxTicks).1 = (BitVec.ofNat 32 k).toInt ∧
      (socRunUntil s (some pred) maxTicks).2.uncounted = (socTick^[k] s).uncounted := by
  have hfirst : Search.first pred.answer pred.round (maxTicks.toNat + 1) s = some k :=
    Search.first_eq_some_iff.mpr ⟨Nat.lt_succ_of_le hk, (h.holds_iff s k).mpr hholds, fun j hj =>
      Bool.eq_false_iff.mpr fun hj' => hno j hj ((h.holds_iff s j).mp hj')⟩
  have hloop : socRunUntil s (some pred) maxTicks = socRunUntilFrom pred 0 maxTicks.toNat s := rfl
  rw [hloop, socRunUntilFrom_eq, hfirst]
  dsimp only
  rw [show (0 : Word) + BitVec.ofNat 32 k = BitVec.ofNat 32 k from BitVec.zero_add _]
  exact ⟨rfl, h.uncounted_eq s k⟩

/-- `soc_run_until` with a predicate that only looks: it returns the first tick, up to the
budget, that the predicate holds after, as an `int`, having run exactly so many ticks; and
-1 after the whole budget if there is none.  As long as the budget is an `int`, -1 means
that there is none. -/
theorem run_until_least (h : pred.Observes) (s : Soc) (maxTicks : Word) :
    let r := socRunUntil s (some pred) maxTicks
    (∀ k ≤ maxTicks.toNat, pred.holdsAfter s k → (∀ j < k, ¬ pred.holdsAfter s j) →
      r.1 = (BitVec.ofNat 32 k).toInt ∧ r.2.uncounted = (socTick^[k] s).uncounted) ∧
    ((∀ k ≤ maxTicks.toNat, ¬ pred.holdsAfter s k) →
      r.1 = -1 ∧ r.2.uncounted = (socStep s maxTicks).uncounted) ∧
    (maxTicks.toNat < 2 ^ 31 → (r.1 = -1 ↔ ∀ k ≤ maxTicks.toNat, ¬ pred.holdsAfter s k)) := by
  intro r
  have hleast : ∀ k ≤ maxTicks.toNat, pred.holdsAfter s k → (∀ j < k, ¬ pred.holdsAfter s j) →
      r.1 = (BitVec.ofNat 32 k).toInt ∧ r.2.uncounted = (socTick^[k] s).uncounted :=
    fun k hk hholds hno => h.runUntil_first hk hholds hno
  have hnever : (∀ k ≤ maxTicks.toNat, ¬ pred.holdsAfter s k) →
      r.1 = -1 ∧ r.2.uncounted = (socStep s maxTicks).uncounted := by
    intro hnone
    have hfirst : Search.first pred.answer pred.round (maxTicks.toNat + 1) s = none :=
      Search.first_eq_none_iff.mpr fun k hk => Bool.eq_false_iff.mpr fun hk' =>
        hnone k (Nat.lt_succ_iff.mp hk) ((h.holds_iff s k).mp hk')
    have hr : r = socRunUntilFrom pred 0 maxTicks.toNat s := rfl
    rw [socRunUntilFrom_eq, hfirst] at hr
    rw [hr]
    exact ⟨rfl, h.uncounted_eq s maxTicks.toNat⟩
  refine ⟨hleast, hnever, fun hmax => ⟨fun hr k hk hholds => ?_, fun hnone => (hnever hnone).1⟩⟩
  -- the least tick is an `int`, and not negative
  have hex : ∃ j, pred.holdsAfter s j := ⟨k, hholds⟩
  have hle : Nat.find hex ≤ k := Nat.find_min' hex hholds
  have hsmall : (BitVec.ofNat 32 (Nat.find hex)).toNat = Nat.find hex := by
    rw [BitVec.toNat_ofNat]
    omega
  have hval := (hleast (Nat.find hex) (by omega) (Nat.find_spec hex)
    fun j hj => Nat.find_min hex hj).1
  rw [hr, BitVec.toInt_eq_toNat_of_lt (by omega), hsmall] at hval
  omega

/-- Eight words through a burst of four, watched for a budget of 20 ticks and of 3. -/
theorem run_until_least_words :
    let s := Runs.run socApply (socInit default none) [.write vlabDmaSrc vlabSramBase,
      .write vlabDmaDst (vlabSramBase + 0x100), .write vlabDmaLen 32, .write vlabDmaCtrl 0x1]
    (socRunUntil s (some predTerm) 20).1 = (BitVec.ofNat 32 9).toInt ∧
      (socRunUntil s (some predTerm) 3).1 = -1 := by
  intro s
  have hnot : ∀ j < 9, ¬ predTerm.holdsAfter s j := by decide +kernel
  exact ⟨((run_until_least predTerm_observes s 20).1 9 (by decide) (by decide +kernel) hnot).1,
    ((run_until_least predTerm_observes s 3).2.1 fun k hk => hnot k (by
      rw [show (3 : Word).toNat = 3 from rfl] at hk
      omega)).1⟩

/-! ### The completion hook -/

/-- What two SoCs have in common that agree but for the two counts. -/
theorem uncounted_fields {s t : Soc} (h : s.uncounted = t.uncounted) :
    s.dma = t.dma ∧ s.uart = t.uart ∧ s.sram = t.sram ∧ s.intc = t.intc := by
  have hdma := congrArg Soc.dma h
  have huart := congrArg Soc.uart h
  have hsram := congrArg Soc.sram h
  have hintc := congrArg Soc.intc h
  exact ⟨hdma, huart, hsram, hintc⟩

/-- What the hook waits for. -/
def engineLeft (s : Soc) : Bool := !s.dma.busy

theorem SocWired.of_uncounted {s t : Soc} (h : SocWired s) (heq : t.uncounted = s.uncounted) :
    SocWired t := by
  have hregions := congrArg Soc.regions heq
  have hn := congrArg Soc.nRegions heq
  have hconfig := congrArg Soc.config heq
  have hrom := congrArg (fun v => v.rom.shape) heq
  have hsram := congrArg (fun v => v.sram.shape) heq
  have hdma := congrArg (fun v => v.dma.cfg) heq
  exact h.of_eq hregions hn hconfig hrom hsram hdma

/-- The rounds of the hook: one tick each until the engine is not BUSY. -/
def hookTicks (n : ℕ) (s : Soc) : ℕ := (Search.first engineLeft socTick n s).getD n

/-- The looks do not show in the ticks. -/
theorem hookTicks_uncounted (n : ℕ) (s : Soc) : hookTicks n s.uncounted = hookTicks n s := by
  have hstop : ∀ t : Soc, engineLeft t = engineLeft t.uncounted := fun _ => rfl
  rw [hookTicks, hookTicks, Search.first_semiconj hstop socTick_uncounted n s]

theorem SocWired.hook_read {s : Soc} (h : SocWired s) (out : Word) :
    (socRead s (vlabDmaBase + 0x10) out).out = socDmaStatus s.dma ∧
      (socRead s (vlabDmaBase + 0x10) out).soc = { s with perf := socPerfCountMem s.perf } := by
  obtain ⟨-, hout, hsoc⟩ := h.read_dmaReg (show vlabDmaStatus ∈ dmaReadRegs by decide) out
  rw [show vlabDmaBase + 0x10 = vlabDmaStatus from rfl]
  exact ⟨hout, hsoc⟩

/-- The loop as a run: looks at STATUS and ticks. -/
theorem dmaCompleteLoop_run (n : ℕ) (st : Word) (s : Soc) :
    ∃ es, (∀ e ∈ es, e = .tick ∨ ∃ out, e = .read vlabDmaStatus out) ∧
      dmaCompleteLoop n st s = Runs.run socApply s es := by
  induction n generalizing st s with
  | zero => exact ⟨[], by simp, rfl⟩
  | succ n ih =>
    have hlook : ∃ es, (∀ e ∈ es, e = .tick ∨ ∃ out, e = .read vlabDmaStatus out) ∧
        (socRead s (vlabDmaBase + 0x10) st).soc = Runs.run socApply s es :=
      ⟨[.read vlabDmaStatus st], by simp, rfl⟩
    rw [dmaCompleteLoop]
    split_ifs
    · exact hlook
    · exact hlook
    · -- a look, a tick, and the rest
      obtain ⟨es, hes, heq⟩ := ih (socRead s (vlabDmaBase + 0x10) st).out
        (socStep (socRead s (vlabDmaBase + 0x10) st).soc 1)
      refine ⟨.read vlabDmaStatus st :: .tick :: es, fun e he => ?_, heq⟩
      rcases List.mem_cons.mp he with rfl | he
      · exact Or.inr ⟨st, rfl⟩
      rcases List.mem_cons.mp he with rfl | he
      · exact Or.inl rfl
      · exact hes e he

/-- The loop ticks until the engine is not BUSY, and counts its looks. -/
theorem dmaCompleteLoop_eq (n : ℕ) : ∀ (st : Word) {s : Soc}, SocWired s → DmaInv s.dma →
    (dmaCompleteLoop n st s).uncounted = (socTick^[hookTicks n s] s).uncounted := by
  have hticks : Function.Semiconj Soc.uncounted socTick socTick := socTick_uncounted
  -- on the rounds that are left
  induction n with
  | zero => exact fun _ _ _ _ => rfl
  | succ n ih =>
    intro st s h hinv
    obtain ⟨hout, hsoc⟩ := h.hook_read st
    rw [dmaCompleteLoop, hout, hsoc]
    cases hbusy : s.dma.busy with
    | false =>
      -- DONE, ERROR or an idle engine: in each case the loop returns
      have hleft : hookTicks (n + 1) s = 0 := by
        rw [hookTicks, Search.first_succ_stop (by rw [engineLeft, hbusy]; rfl)]
        rfl
      have hidle : socDmaStatus s.dma &&& vlabDmaStatusBusy = 0 := by
        rw [← not_not (a := socDmaStatus s.dma &&& vlabDmaStatusBusy = 0)]
        intro hne
        exact absurd (hbusy.symm.trans ((socDmaStatus_busy s.dma).mp hne)) (by decide)
      rw [if_pos hidle, ite_self, hleft]
      exact uncounted_countMem s
    | true =>
      set t : Soc := { s with perf := socPerfCountMem s.perf } with ht
      have hwt : SocWired t := h.countMem
      have hnext : hookTicks (n + 1) s = hookTicks n (socTick s) + 1 := by
        rw [hookTicks, hookTicks, Search.first_succ_next (by rw [engineLeft, hbusy]; rfl)]
        cases Search.first engineLeft socTick n (socTick s) <;> rfl
      have hsame : (socTick t).uncounted = (socTick s).uncounted := by
        rw [socTick_uncounted, socTick_uncounted, ht, uncounted_countMem]
      rw [hinv.status_busy hbusy, if_neg (by decide), if_neg (by decide), socStep_one,
        ih _ hwt.tick (hwt.dmaInv_tick hinv), hnext, Function.iterate_succ_apply,
        hticks.iterate_right, hticks.iterate_right, hsame, ← hookTicks_uncounted n (socTick t),
        hsame, hookTicks_uncounted]

theorem SocWired.ticks {s : Soc} (h : SocWired s) (k : ℕ) : SocWired (socTick^[k] s) := by
  induction k with
  | zero => exact h
  | succ k ih =>
    rw [Function.iterate_succ_apply']
    exact ih.tick

/-- The engine on the way through its countdown. -/
theorem SocWired.ticks_countdown {s : Soc} (h : SocWired s) (hbusy : s.dma.busy = true)
    (hstuck : s.dma.faultStuckBusy = false) {k : ℕ} (hk : (k : Int) < s.dma.remaining) :
    SocWired (socTick^[k] s) ∧
      (socTick^[k] s).dma = { s.dma with remaining := s.dma.remaining - k } := by
  refine ⟨h.ticks k, ?_⟩
  induction k with
  | zero =>
    rw [Nat.cast_zero, Int.sub_zero]
    rfl
  | succ k ih =>
    have hdma := ih (by omega)
    rw [Function.iterate_succ_apply']
    set t := socTick^[k] s with ht
    have hcount := socTickDma_count (s := socTickFront t)
      (by rw [socTickFront_dma, hdma]; exact hbusy) (by rw [socTickFront_dma, hdma]; exact hstuck)
      (by rw [socTickFront_dma, hdma]; dsimp only; omega)
    rw [show (socTick t).dma = _ from congrArg Soc.dma hcount]
    show { t.dma with remaining := t.dma.remaining - 1 } = _
    rw [hdma]
    dsimp only
    rw [Int.sub_sub, Nat.cast_succ]

/-- Nothing moves a stuck engine. -/
theorem SocWired.ticks_stuck {s : Soc} (hstuck : s.dma.faultStuckBusy = true) (k : ℕ) :
    (socTick^[k] s).dma = s.dma := by
  induction k with
  | zero => rfl
  | succ k ih =>
    have hidle : socTickDma (socTickFront (socTick^[k] s)) = socTickFront (socTick^[k] s) :=
      socTickDma_idle (Or.inr (by rw [socTickFront_dma, ih]; exact hstuck))
    rw [Function.iterate_succ_apply', socTick, hidle, socTickFront_dma, ih]

/-- The ticks of the hook, and whether the engine is BUSY after them. -/
theorem hookTicks_eq {s : Soc} (h : SocWired s) (hinv : DmaInv s.dma) (n : ℕ) :
    hookTicks n s =
        (if s.dma.busy = false then 0
        else if s.dma.faultStuckBusy then n else min s.dma.remaining.toNat n) ∧
      ((socTick^[hookTicks n s] s).dma.busy = true ↔
        s.dma.busy = true ∧ (s.dma.faultStuckBusy = true ∨ n < s.dma.remaining.toNat)) := by
  cases hbusy : s.dma.busy with
  | false =>
    have hzero : hookTicks n s = 0 := by
      rw [hookTicks]
      cases n with
      | zero => rfl
      | succ n =>
        rw [Search.first_succ_stop (by rw [engineLeft, hbusy]; rfl)]
        rfl
    rw [hzero, if_pos rfl]
    exact ⟨rfl, iff_of_false (by simp [hbusy]) fun hc => absurd hc.1 (by decide)⟩
  | true =>
    rw [if_neg (by decide)]
    cases hstuck : s.dma.faultStuckBusy with
    | true =>
      have hnone : Search.first engineLeft socTick n s = none :=
        Search.first_eq_none_iff.mpr fun k _ => by
          rw [engineLeft, SocWired.ticks_stuck hstuck, hbusy]
          rfl
      rw [hookTicks, hnone, SocWired.ticks_stuck hstuck, hbusy]
      exact ⟨rfl, iff_of_true rfl ⟨rfl, Or.inl rfl⟩⟩
    | false =>
      have hpos : 1 ≤ s.dma.remaining := hinv.busy_iff.mp hbusy
      have hflight : ∀ k < s.dma.remaining.toNat, (socTick^[k] s).dma.busy = true :=
        fun k hk => by
          rw [(h.ticks_countdown hbusy hstuck (k := k) (by omega)).2]
          exact hbusy
      -- the tick with the countdown at one
      have hend : (socTick^[s.dma.remaining.toNat] s).dma.busy = false := by
        obtain ⟨r, hr⟩ : ∃ r, s.dma.remaining.toNat = r + 1 :=
          ⟨s.dma.remaining.toNat - 1, by omega⟩
        obtain ⟨hw, hdma⟩ := h.ticks_countdown hbusy hstuck (k := r) (by omega)
        rw [hr, Function.iterate_succ_apply']
        exact (hw.completing_dma (by rw [hdma]; exact hbusy) (by rw [hdma]; exact hstuck)
          (by rw [hdma]; dsimp only; omega)).1
      rw [if_neg (by decide)]
      rcases Nat.lt_or_ge s.dma.remaining.toNat n with hlt | hge
      · have hfirst : Search.first engineLeft socTick n s = some s.dma.remaining.toNat :=
          Search.first_eq_some_iff.mpr ⟨hlt, by rw [engineLeft, hend]; rfl, fun j hj => by
            rw [engineLeft, hflight j hj]
            rfl⟩
        rw [hookTicks, hfirst, Nat.min_eq_left (Nat.le_of_lt hlt), Option.getD_some, hend]
        exact ⟨rfl, iff_of_false (by decide) fun hc => by
          rcases hc.2 with hc | hc
          · exact absurd hc (by decide)
          · omega⟩
      · have hnone : Search.first engineLeft socTick n s = none :=
          Search.first_eq_none_iff.mpr fun k hk => by
            rw [engineLeft, hflight k (by omega)]
            rfl
        rw [hookTicks, hnone, Nat.min_eq_right hge, Option.getD_none]
        refine ⟨rfl, ?_⟩
        rcases Nat.lt_or_ge n s.dma.remaining.toNat with hlt | hle
        · rw [hflight n hlt]
          exact iff_of_true rfl ⟨rfl, Or.inr hlt⟩
        · rw [show n = s.dma.remaining.toNat by omega, hend]
          exact iff_of_false (by decide) fun hc => by
            rcases hc.2 with hc | hc
            · exact absurd hc (by decide)
            · omega

/-- `vlab_test_dma_complete` on an initialised host: exactly the ticks that the transfer in
flight has left, at most 100000, and none if there is no transfer; a stuck engine takes all
of them.  It is left BUSY exactly if it is stuck or its countdown is longer.  Nothing but
ticks and the counts of the looks happens to the model, and nothing at all to the drivers. -/
theorem test_dma_complete_exact {p : Platform} (hin : p.gInited = true)
    (hsoc : SocReachable p.gSoc) :
    let q := vlabTestDmaComplete p
    let d := p.gSoc.dma
    let n :=
      if d.busy = false then 0
      else if d.faultStuckBusy then 100000 else min d.remaining.toNat 100000
    q = { p with gSoc := q.gSoc } ∧ q.gSoc.uncounted = (socTick^[n] p.gSoc).uncounted ∧
      (q.gSoc.dma.busy = true ↔
        d.busy = true ∧ (d.faultStuckBusy = true ∨ 100000 < d.remaining.toNat)) := by
  intro q d n
  obtain ⟨hn, hbusy⟩ := hookTicks_eq hsoc.wired hsoc.dmaInv 100000
  have hq : q = { p with gSoc := dmaCompleteLoop 100000 0 p.gSoc } := if_pos hin
  have hloop := dmaCompleteLoop_eq 100000 0 hsoc.wired hsoc.dmaInv
  have hdma := (uncounted_fields hloop).1
  rw [hq]
  refine ⟨rfl, ?_, ?_⟩
  · rw [show n = _ from hn.symm]
    exact hloop
  · dsimp only
    rw [hdma]
    exact hbusy

/-- Five words in flight: six ticks. -/
theorem test_dma_complete_exact_words :
    let s := Runs.run socApply (socInit default none) [.write vlabDmaSrc vlabSramBase,
      .write vlabDmaDst (vlabSramBase + 0x100), .write vlabDmaLen 20, .write vlabDmaCtrl 0x1]
    let p : Platform := { platformStart s with gInited := true }
    s.dma.remaining = 6 ∧ (vlabTestDmaComplete p).gSoc.uncounted = (socTick^[6] s).uncounted := by
  intro s p
  have hreach : SocReachable s := ⟨default, none, _, rfl⟩
  exact ⟨by decide +kernel, (test_dma_complete_exact (p := p) rfl hreach).2.1⟩

end VlabSoc
