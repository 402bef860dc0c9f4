/-
The benchmark of the DMA engine against a CPU copy (bench/cpu_vs_dma.c).

Every cell of its table boots a model, fills the source, times one transfer with
`soc_run_until` and compares the two blocks word by word.

* `bench_start` — the four register writes set a valid transfer in flight;
* `bench_flight` — `soc_run_until` returns its duration and leaves the source copied;
* `cpu_vs_dma_table` — for any table of valid sizes and bursts no comparison fails, and every
  line has the duration by words and bursts.
-/
import VlabSoc.DmaJobs

namespace VlabSoc

variable {s : Soc}

/-! ### The program -/

/-- `pred_done`: STATUS shows DONE or ERROR. -/
def predDone : SocPred := fun s =>
  let st := socRead s vlabDmaStatus 0
  (decide (st.out &&& (vlabDmaStatusDone ||| vlabDmaStatusError) ≠ 0), st.soc)

/-- The loop that fills the source, at `i` with `n` rounds left. -/
def benchFill : ℕ → ℕ → Soc → Soc
  | 0, _, s => s
  | n + 1, i, s =>
    benchFill n (i + 1)
      (socSramWriteWord s (vlabSramBase + BitVec.ofNat 32 (i * 4))
        (0xA5000000 ||| BitVec.ofNat 32 i)).soc

/-- The loop that compares the blocks, at `i` with `n` rounds left: `false` is a mismatch. -/
def benchCompare : ℕ → ℕ → Soc → Bool
  | 0, _, _ => true
  | n + 1, i, s =>
    let a := socSramReadWord s (vlabSramBase + BitVec.ofNat 32 (i * 4)) 0
    let b := socSramReadWord a.soc (vlabSramBase + 0x8000 + BitVec.ofNat 32 (i * 4)) 0
    if a.out ≠ b.out then false else benchCompare n (i + 1) b.soc

/-- A line of the table. -/
structure BenchRow where
  size : Word
  burst : Word
  words : Word
  nbursts : Word
  dmaTicks : Int
  cpuTicks : Word
  deriving DecidableEq

/-- One cell, on the `soc_t` that lies on the stack; `none` is a mismatch. -/
def benchCell (s : Soc) (size burst : Word) : Option BenchRow :=
  let s := socBoot (socInit s (some { socConfigDefault with dmaBurst := burst })) none 0
  let s := benchFill (size / 4).toNat 0 s
  let s := (socWrite s vlabDmaSrc vlabSramBase).soc
  let s := (socWrite s vlabDmaDst (vlabSramBase + 0x8000)).soc
  let s := (socWrite s vlabDmaLen size).soc
  let s := (socWrite s vlabDmaCtrl 0x1).soc
  let r := socRunUntil s (some predDone) 100000
  let words := size / 4
  let nbursts := (words + burst - 1) / burst
  if benchCompare words.toNat 0 r.2 then some ⟨size, burst, words, nbursts, r.1, words * 3⟩
  else none

/-- The exit code and the lines printed before it. -/
def benchTable (stack : Word → Word → Soc) : List (Word × Word) → Int × List BenchRow
  | [] => (0, [])
  | (size, burst) :: cells =>
    match benchCell (stack size burst) size burst with
    | none => (1, [])
    | some row => ((benchTable stack cells).1, row :: (benchTable stack cells).2)

def benchSizes : List Word := [16, 64, 256, 1024, 4096, 16384]

def benchBursts : List Word := [1, 2, 4, 8, 16]

/-- `main` -/
def benchMain (stack : Word → Word → Soc) : Int × List BenchRow :=
  benchTable stack (benchSizes ×ˢ benchBursts)

/-! ### Words of the store -/

/-- A copied word. -/
theorem FlatMem.word_copy (m : FlatMem) {a n k : ℕ} (f : ℕ → Byte) (hk : k + 4 ≤ n) :
    (m.copy a n f).word (a + k) = leWord (f k) (f (k + 1)) (f (k + 2)) (f (k + 3)) := by
  have hbyte : ∀ b < 4, m.copy a n f (a + k + b) = f (k + b) := by
    intro b hb
    rw [FlatMem.copy, if_pos ⟨by omega, by omega⟩]
    congr 1
    omega
  have h0 := hbyte 0 (by omega)
  rw [Nat.add_zero, Nat.add_zero] at h0
  rw [FlatMem.word, h0, hbyte 1 (by omega), hbyte 2 (by omega), hbyte 3 (by omega)]

/-- A word below the copy. -/
theorem FlatMem.word_below (m : FlatMem) {a n i : ℕ} (f : ℕ → Byte) (hi : i + 4 ≤ a) :
    (m.copy a n f).word i = m.word i := by
  have hbyte : ∀ b < 4, m.copy a n f (i + b) = m (i + b) := by
    intro b hb
    rw [FlatMem.copy, if_neg fun h => by omega]
  have h0 := hbyte 0 (by omega)
  rw [Nat.add_zero] at h0
  rw [FlatMem.word, FlatMem.word, h0, hbyte 1 (by omega), hbyte 2 (by omega), hbyte 3 (by omega)]

/-- Word `i` of a block at `base`. -/
theorem bench_word (base : Word) (h4 : base.toNat % 4 = 0) (hlow : vlabSramBase.toNat ≤ base.toNat)
    (hhigh : base.toNat + 16384 ≤ vlabSramBase.toNat + 65536) {i : ℕ} (hi : i < 4096) :
    (base + BitVec.ofNat 32 (i * 4)).toNat = base.toNat + 4 * i ∧
      (base + BitVec.ofNat 32 (i * 4)).toNat % 4 = 0 ∧
      InWindow vlabSramBase 65536 (base + BitVec.ofNat 32 (i * 4)) := by
  have hbase : vlabSramBase.toNat = 0x10000000 := rfl
  have haddr : (base + BitVec.ofNat 32 (i * 4)).toNat = base.toNat + 4 * i := by
    rw [BitVec.toNat_add, BitVec.toNat_ofNat]
    omega
  refine ⟨haddr, by omega, ?_⟩
  rw [InWindow, haddr]
  omega

/-! ### Up to START -/

/-- A model ready to copy. -/
structure BenchReady (c : SocConfig) (s : Soc) : Prop where
  wired : SocWired s
  config : s.config = c
  idle : s.dma.busy = false
  unstuck : s.dma.faultStuckBusy = false
  quiet : s.uart.busy = 0

theorem bench_boot (s : Soc) (c : SocConfig) : BenchReady c (socBoot (socInit s (some c)) none 0) := by
  have hw : SocWired (socInit s (some c)) := socInit_wired _ _
  have hdma := socBoot_dma (socInit s (some c)) none 0
  obtain ⟨hconfig, hfront⟩ := hw.boot_front none 0
  refine ⟨hw.boot none 0, hconfig, ?_, ?_, ?_⟩
  · rw [hdma]
    rfl
  · rw [hdma]
    rfl
  · exact congrArg (fun x => x.1.busy) hfront

/-- Filling the source keeps it ready. -/
theorem BenchReady.fill {c : SocConfig} {n i : ℕ} (h : BenchReady c s) (hn : i + n ≤ 4096) :
    BenchReady c (benchFill n i s) := by
  induction n generalizing i s with
  | zero => exact h
  | succ n ih =>
    obtain ⟨-, h4, hwin⟩ := bench_word vlabSramBase (i := i) (by decide) (by decide)
      (by decide) (by omega)
    rw [benchFill]
    refine ih ?_ (by omega)
    obtain ⟨perf, heq⟩ := h.wired.write_ram h4 hwin (0xA5000000 ||| BitVec.ofNat 32 i)
    have hw := h.wired.write (vlabSramBase + BitVec.ofNat 32 (i * 4))
      (0xA5000000 ||| BitVec.ofNat 32 i)
    rw [socSramWriteWord]
    rw [heq] at hw ⊢
    exact ⟨hw, h.config, h.idle, h.unstuck, h.quiet⟩

/-- A transfer in flight, without its interrupt. -/
structure BenchFlying (c : SocConfig) (src dst len : Word) (s : Soc) : Prop where
  wired : SocWired s
  moving : Moving false s.dma
  unstuck : s.dma.faultStuckBusy = false
  quiet : s.uart.busy = 0
  descriptor : s.dma.src = src ∧ s.dma.dst = dst ∧ s.dma.length = len
  remaining : s.dma.remaining = socDmaCountdown (vlabDmaConfig c) len

theorem bench_start {c : SocConfig} (h : BenchReady c s) {src dst len : Word}
    (hvalid : VlabValid src dst len) :
    BenchFlying c src dst len
      (socWrite (socWrite (socWrite (socWrite s vlabDmaSrc src).soc vlabDmaDst dst).soc
        vlabDmaLen len).soc vlabDmaCtrl 0x1).soc := by
  have hw1 := h.wired.write vlabDmaSrc src
  have hw2 := hw1.write vlabDmaDst dst
  have hw3 := hw2.write vlabDmaLen len
  -- the descriptor first
  obtain ⟨perf, heq⟩ : ∃ perf,
      (socWrite (socWrite (socWrite s vlabDmaSrc src).soc vlabDmaDst dst).soc vlabDmaLen len).soc =
        { s with dma := { s.dma with src := src, dst := dst, length := len }, perf := perf } := by
    rw [hw2.write_dmaReg (by decide), hw1.write_dmaReg (by decide), h.wired.write_dmaReg (by decide)]
    exact ⟨_, rfl⟩
  have hw4 := hw3.write vlabDmaCtrl 0x1
  have hcfg : s.dma.cfg = vlabDmaConfig c := h.wired.dma.trans (congrArg vlabDmaConfig h.config)
  have hcheck : socDmaStartCheck s.dma.cfg src dst len = none := by
    rw [hcfg]
    exact (vlabStartCheck_none c src dst len).mpr hvalid
  have hwrite := hw3.write_dmaReg (show vlabDmaCtrl ∈ dmaRegs by decide) 0x1
  rw [show vlabDmaCtrl - vlabDmaBase = 0x0C from by decide, socDmaWrite_start (by decide), heq,
    socDmaStart_ok (d := { s.dma with src := src, dst := dst, length := len }) h.idle hcheck]
    at hwrite
  rw [heq] at hw4 ⊢
  rw [hwrite] at hw4 ⊢
  refine ⟨hw4, ⟨rfl, rfl, rfl, rfl, hvalid⟩, h.unstuck, h.quiet, ⟨rfl, rfl, rfl⟩, ?_⟩
  rw [← hcfg]

/-! ### The transfer -/

/-- `soc_run_until` times the transfer and leaves it done. -/
theorem bench_flight {c : SocConfig} {src dst len : Word} (h : BenchFlying c src dst len s)
    (hfits : DurationFits c len) (maxTicks : Word)
    (hbudget : dmaTransferTicks c len ≤ maxTicks.toNat) (hmax : maxTicks.toNat < 2 ^ 31) :
    let r := socRunUntil s (some predDone) maxTicks
    r.1 = (dmaTransferTicks c len : Int) ∧ SocWired r.2 ∧ r.2.store = s.store.move src dst len := by
  intro r
  obtain ⟨hsrc, hdst, hlength⟩ := h.descriptor
  have hvalid : VlabValid src dst len := by
    have hv := h.moving.valid
    rwa [hsrc, hdst, hlength] at hv
  set R := dmaTransferTicks c len with hR
  have hrem : s.dma.remaining = R := by
    rw [h.remaining, socDmaCountdown_eq hvalid.len_ne hvalid.len_le hfits]
  have hpos : 0 < R := dmaTransferTicks_pos c hvalid.len_ne
  obtain ⟨hdma, -, -, -, hstore⟩ := h.wired.job_flight h.moving h.unstuck h.quiet (by omega)
  rw [show s.dma.remaining.toNat = R by omega] at hdma hstore
  have hholds : predTerm.holdsAfter s R := by
    show (predTerm (socTick^[R] s)).1 = true
    rw [(h.wired.ticks R).predTerm_eq, hdma]
    rfl
  have hno : ∀ j < R, ¬ predTerm.holdsAfter s j := by
    intro j hj hc
    have hflight := (h.wired.ticks_countdown h.moving.busy h.unstuck (k := j) (by omega)).2
    have hc' : (predTerm (socTick^[j] s)).1 = true := hc
    rw [(h.wired.ticks j).predTerm_eq, hflight, h.moving.done, h.moving.error] at hc'
    exact Bool.false_ne_true hc'
  obtain ⟨hval, hsoc⟩ := predTerm_observes.runUntil_first hbudget hholds hno
  have hsmall : (BitVec.ofNat 32 R).toNat = R := by
    rw [BitVec.toNat_ofNat]
    omega
  rw [BitVec.toInt_eq_toNat_of_lt (by omega), hsmall] at hval
  obtain ⟨-, huart, hsram, -⟩ := uncounted_fields hsoc
  refine ⟨hval, (h.wired.ticks R).of_uncounted hsoc, (Soc.store_congr hsram huart).trans ?_⟩
  rw [hstore, hsrc, hdst, hlength]

/-! ### The comparison -/

/-- Blocks that agree in the store pass the loop, whose reads leave the store alone. -/
theorem benchCompare_true {n i : ℕ} (h : SocWired s) (hn : i + n ≤ 4096)
    (heq : ∀ k < i + n, s.store.mem.word (vlabSramBase.toNat + 4 * k) =
      s.store.mem.word ((vlabSramBase + 0x8000).toNat + 4 * k)) :
    benchCompare n i s = true := by
  -- on the rounds left
  induction n generalizing i s with
  | zero => rfl
  | succ n ih =>
    obtain ⟨haddr, h4, hwin⟩ := bench_word vlabSramBase (i := i) (by decide) (by decide)
      (by decide) (by omega)
    obtain ⟨haddr', h4', hwin'⟩ := bench_word (vlabSramBase + 0x8000) (i := i) (by decide)
      (by decide) (by decide) (by omega)
    have hkeep : ∀ {t u : Soc}, u.uncounted = t.uncounted → u.store = t.store := fun hu =>
      Soc.store_congr (uncounted_fields hu).2.2.1 (uncounted_fields hu).2.1
    obtain ⟨-, ha, hsa⟩ := h.load_word h4 hwin 0
    set a := socRead s (vlabSramBase + BitVec.ofNat 32 (i * 4)) 0 with hadef
    obtain ⟨-, hb, hsb⟩ := (h.of_uncounted hsa).load_word h4' hwin' 0
    set b := socRead a.soc (vlabSramBase + 0x8000 + BitVec.ofNat 32 (i * 4)) 0 with hbdef
    have hsame : a.out = b.out := by
      rw [ha, hb, hkeep hsa, haddr, haddr']
      exact heq i (by omega)
    have hround : benchCompare (n + 1) i s = benchCompare n (i + 1) b.soc :=
      if_neg (not_not.mpr hsame)
    rw [hround]
    refine ih ((h.of_uncounted hsa).of_uncounted hsb) (by omega) fun k hk => ?_
    rw [hkeep hsb, hkeep hsa]
    exact heq k (by omega)

/-- A block copied above itself agrees with its copy. -/
theorem move_agrees (st : JobStore) {src dst len : Word} (htx : dst ≠ vlabUartTxdata)
    (hrx : src ≠ vlabUartRxdata) (habove : src.toNat + len.toNat ≤ dst.toNat) {k : ℕ}
    (hk : 4 * k + 4 ≤ len.toNat) :
    (st.move src dst len).mem.word (src.toNat + 4 * k) =
      (st.move src dst len).mem.word (dst.toNat + 4 * k) := by
  have hmem : (st.move src dst len).mem = st.mem.copy dst.toNat len.toNat (st.payload src) := by
    rw [JobStore.move, if_neg htx]
  have hpay : ∀ i, st.payload src i = st.mem (src.toNat + i) := fun i => if_neg hrx
  rw [hmem, FlatMem.word_below _ _ (by omega), FlatMem.word_copy _ _ hk, hpay, hpay, hpay, hpay]
  rfl

/-! ### The table -/

/-- Sizes and bursts the table can hold: whole words that the engine takes at once. -/
def BenchFits (cell : Word × Word) : Prop :=
  cell.1 ≠ 0 ∧ cell.1.toNat % 4 = 0 ∧ cell.1.toNat ≤ 16384 ∧ cell.2 ≠ 0 ∧
    cell.1.toNat / 4 + cell.2.toNat ≤ 2 ^ 32

instance (cell : Word × Word) : Decidable (BenchFits cell) := inferInstanceAs (Decidable (_ ∧ _))

/-- The line of a cell: a word a tick and a tick between bursts, against three a word. -/
def benchLine (cell : Word × Word) : BenchRow :=
  let words := cell.1.toNat / 4
  let nbursts := words ⌈/⌉ cell.2.toNat
  { size := cell.1
    burst := cell.2
    words := BitVec.ofNat 32 words
    nbursts := BitVec.ofNat 32 nbursts
    dmaTicks := words + (nbursts - 1 : ℕ)
    cpuTicks := BitVec.ofNat 32 (3 * words) }

/-- There are no more bursts than words. -/
theorem ceilDiv_le_words {burst : ℕ} (hburst : 0 < burst) (words : ℕ) :
    words ⌈/⌉ burst ≤ words := by
  refine (ceilDiv_le_iff_le_mul hburst).mpr ?_
  exact Nat.le_mul_of_pos_left words hburst

theorem benchCell_eq (s : Soc) {size burst : Word} (hfits : BenchFits (size, burst)) :
    benchCell s size burst = some (benchLine (size, burst)) := by
  obtain ⟨hsize, h4, hle, hburst, hsum⟩ := hfits
  dsimp only at hsize h4 hle hburst hsum
  set c : SocConfig := { socConfigDefault with dmaBurst := burst } with hc
  have hbase : vlabSramBase.toNat = 0x10000000 := rfl
  have hdst : (vlabSramBase + 0x8000).toNat = 0x10008000 := rfl
  have hwords : dmaWords size = size.toNat / 4 := by
    rw [dmaWords, Nat.ceilDiv_eq_add_pred_div]
    omega
  have hb : atLeastOne c.dmaBurst = burst.toNat := if_neg hburst
  have hbpos : 0 < burst.toNat := len_pos_iff.mpr hburst
  have hn : dmaBursts c size = (size.toNat / 4) ⌈/⌉ burst.toNat := by rw [dmaBursts, hwords, hb]
  have hnle : dmaBursts c size ≤ size.toNat / 4 := hn ▸ ceilDiv_le_words hbpos _
  have hticks : dmaTransferTicks c size = size.toNat / 4 + (dmaBursts c size - 1) := by
    rw [dmaTransferTicks, hwords, show atLeastOne c.dmaLatencyPerWordTicks = 1 from rfl, Nat.mul_one]
  have hdur : DurationFits c size := by
    refine ⟨?_, ?_⟩
    · rw [hwords, show atLeastOne c.dmaLatencyPerWordTicks = 1 from rfl]
      omega
    · rw [hwords, hb]
      omega
  have hvalid : VlabValid vlabSramBase (vlabSramBase + 0x8000) size := by
    have hsrc : SramRange vlabSramBase size := ⟨le_refl _, by rw [hbase]; omega⟩
    have hdst' : SramRange (vlabSramBase + 0x8000) size := ⟨by decide, by rw [hdst, hbase]; omega⟩
    exact vlabValid_iff.mpr ⟨hsize, h4, hle, by decide, by decide, Or.inr ⟨hsize, hsrc⟩,
      Or.inr ⟨hsize, hdst'⟩, by decide⟩
  -- the cell, stage by stage
  have hready := (bench_boot s c).fill (n := (size / 4).toNat) (i := 0) (by
    rw [BitVec.toNat_udiv, show (4 : Word).toNat = 4 from rfl]
    omega)
  have hstart := bench_start hready hvalid
  obtain ⟨hval, hw, hstore⟩ := bench_flight hstart hdur 100000
    (by rw [hticks, show (100000 : Word).toNat = 100000 from rfl]; omega) (by decide)
  set r := socRunUntil _ (some predDone) 100000 with hr
  have hquot : (size / 4).toNat = size.toNat / 4 := BitVec.toNat_udiv
  have hcompare : benchCompare (size / 4).toNat 0 r.2 = true := by
    refine benchCompare_true hw (by omega) fun k hk => ?_
    rw [hstore]
    exact move_agrees _ (by decide) (by decide) (by rw [hbase, hdst]; omega) (by omega)
  have hcell : benchCell s size burst =
      if benchCompare (size / 4).toNat 0 r.2 then
        some ⟨size, burst, size / 4, (size / 4 + burst - 1) / burst, r.1, size / 4 * 3⟩
      else none := rfl
  have hline1 : size / 4 = BitVec.ofNat 32 (size.toNat / 4) := by
    rw [← hquot, BitVec.ofNat_toNat, BitVec.setWidth_eq]
  have hline2 : (size / 4 + burst - 1) / burst =
      BitVec.ofNat 32 ((size.toNat / 4) ⌈/⌉ burst.toNat) := by
    refine BitVec.eq_of_toNat_eq ?_
    have hadd : (size / 4 + burst - 1).toNat = size.toNat / 4 + burst.toNat - 1 := by
      rw [BitVec.toNat_sub, BitVec.toNat_add, hquot, show (1 : Word).toNat = 1 from rfl]
      omega
    rw [BitVec.toNat_udiv, hadd, ← Nat.ceilDiv_eq_add_pred_div, ← hn, BitVec.toNat_ofNat]
    omega
  have hline3 : size / 4 * 3 = BitVec.ofNat 32 (3 * (size.toNat / 4)) := by
    refine BitVec.eq_of_toNat_eq ?_
    rw [BitVec.toNat_mul, hquot, show (3 : Word).toNat = 3 from rfl, BitVec.toNat_ofNat,
      Nat.mul_comm]
  have hline4 : r.1 = ((size.toNat / 4 : ℕ) : Int) +
      ((size.toNat / 4) ⌈/⌉ burst.toNat - 1 : ℕ) := by
    rw [hval, hticks, hn, Nat.cast_add]
  rw [hcell, if_pos hcompare, hline2, hline3, hline4, hline1]
  rfl

/-- The benchmark.  Whatever lies on the stack, for any cells of whole-word sizes up to 16384
bytes with bursts that do not overflow the count, the program ends with 0: no block differs
from its copy, and every line has the duration of a word a tick and a tick between bursts, which
is less than what the CPU takes. -/
theorem cpu_vs_dma_table (stack : Word → Word → Soc) {cells : List (Word × Word)}
    (hcells : ∀ cell ∈ cells, BenchFits cell) :
    benchTable stack cells = (0, cells.map benchLine) ∧
      ∀ cell ∈ cells, (benchLine cell).dmaTicks < (benchLine cell).cpuTicks.toNat := by
  refine ⟨?_, fun cell hcell => ?_⟩
  · induction cells with
    | nil => rfl
    | cons cell cells ih =>
      obtain ⟨size, burst⟩ := cell
      rw [benchTable, benchCell_eq _ (hcells _ List.mem_cons_self)]
      dsimp only
      rw [ih fun cell hcell => hcells cell (List.mem_cons_of_mem _ hcell)]
      rfl
  · obtain ⟨hsize, h4, hle, hburst, -⟩ := hcells cell hcell
    have hpos := len_pos_iff.mpr hsize
    have hbpos := len_pos_iff.mpr hburst
    have hnle := ceilDiv_le_words hbpos (cell.1.toNat / 4)
    show ((cell.1.toNat / 4 : ℕ) : Int) + ((cell.1.toNat / 4) ⌈/⌉ cell.2.toNat - 1 : ℕ) <
      (BitVec.ofNat 32 (3 * (cell.1.toNat / 4))).toNat
    rw [BitVec.toNat_ofNat, Nat.mod_eq_of_lt (by omega)]
    omega

/-- The table of the program. -/
theorem cpu_vs_dma_table_main :
    (benchMain fun _ _ => default).1 = 0 ∧
      (benchMain fun _ _ => default).2 = (benchSizes ×ˢ benchBursts).map benchLine := by
  have hall : ((benchSizes ×ˢ benchBursts).all fun cell => decide (BenchFits cell)) = true := by
    decide +kernel
  have hfits : ∀ cell ∈ benchSizes ×ˢ benchBursts, BenchFits cell := fun cell hcell =>
    of_decide_eq_true (List.all_eq_true.mp hall cell hcell)
  have h := (cpu_vs_dma_table (fun _ _ => default) hfits).1
  exact ⟨congrArg Prod.fst h, congrArg Prod.snd h⟩

end VlabSoc
