/-
The driver as an executor of transfer jobs.

A client stores and loads words of the SRAM and runs jobs.  A job is a `dma_submit`
with the interrupt enabled, the wait for the engine or an injected error, an
`isr_dispatch` and a `dma_recover`.  `JobStore` is what the client sees of the
model: the bytes of the SRAM and the two streams of the UART.

* `SocWired.job_flight` — the ticks of one transfer, as a move in the store;
* `JobsReady.run` — one operation, against `JobStore.run`;
* `jobs_refine` — every sequence of operations.
-/
import Mathlib.Data.BitVec
import VlabSoc.FaultLifecycle
import VlabSoc.FlatMemory
import VlabSoc.UartLink

namespace VlabSoc

variable {A : Type} {p : Platform} {s : Soc}

/-! ### The store -/

/-- The bytes of the SRAM, 0 outside, and the bytes of the TX record and the RX stream. -/
@[ext] structure JobStore where
  mem : FlatMem
  tx : List Byte
  rx : List Byte

/-- A byte of the source. -/
def JobStore.payload (st : JobStore) (src : Word) (i : ℕ) : Byte :=
  if src = vlabUartRxdata then st.rx.getD i 0 else st.mem (src.toNat + i)

/-- A transfer: the UART records what it is sent and hears it back, and hands out the RX
stream, with zeros once it is empty. -/
def JobStore.move (st : JobStore) (src dst len : Word) : JobStore :=
  if dst = vlabUartTxdata then
    let bytes := (List.range len.toNat).map (st.payload src)
    { st with tx := (st.tx ++ bytes).take 16384, rx := (st.rx ++ bytes).take 16384 }
  else
    { st with
      mem := st.mem.copy dst.toNat len.toNat (st.payload src)
      rx := if src = vlabUartRxdata then st.rx.drop len.toNat else st.rx }

/-- An address of the SRAM. -/
def InSram (a : ℕ) : Prop := vlabSramBase.toNat ≤ a ∧ a < vlabSramBase.toNat + 65536

instance (a : ℕ) : Decidable (InSram a) := inferInstanceAs (Decidable (_ ∧ _))

/-- The store a SoC holds. -/
def Soc.store (s : Soc) : JobStore where
  mem := fun a => if InSram a then s.sram.byteAt a else 0
  tx := s.uart.dmaTx.bytes
  rx := s.uart.dmaRx.bytes

theorem Soc.store_congr {s t : Soc} (hsram : t.sram = s.sram) (huart : t.uart = s.uart) :
    t.store = s.store := by
  unfold Soc.store
  rw [hsram, huart]

theorem SramRange.inSram {addr len : Word} (h : SramRange addr len) {i : ℕ} (hi : i < len.toNat) :
    InSram (addr.toNat + i) := by
  have hlow : vlabSramBase.toNat ≤ addr.toNat := h.1
  have hhigh : addr.toNat + len.toNat ≤ vlabSramBase.toNat + 65536 := h.2
  exact ⟨by omega, by omega⟩

/-- Patching the SRAM is a copy in the store. -/
theorem store_patched {v w : Soc} {dst len : Word} {f g : ℕ → Byte} (hdst : SramRange dst len)
    (hpatch : SramPatched v w dst len f) (hfg : ∀ i < len.toNat, f i = g i) :
    w.store.mem = v.store.mem.copy dst.toNat len.toNat g := by
  funext a
  show (if InSram a then w.sram.byteAt a else 0) = FlatMem.copy _ _ _ _ a
  unfold FlatMem.copy
  by_cases hin : dst.toNat ≤ a ∧ a < dst.toNat + len.toNat
  · have ha : InSram a := by
      have hmem := hdst.inSram (i := a - dst.toNat) (by omega)
      rwa [show dst.toNat + (a - dst.toNat) = a by omega] at hmem
    rw [if_pos ha, hpatch.2 a ha.1, if_pos hin, if_pos hin, hfg _ (by omega)]
  · rw [if_neg hin]
    show _ = if InSram a then v.sram.byteAt a else 0
    by_cases ha : InSram a
    · rw [if_pos ha, if_pos ha, hpatch.2 a ha.1, if_neg hin]
    · rw [if_neg ha, if_neg ha]

theorem store_payload_sram {src len : Word} (hsrc : SramRange src len) (hne : src ≠ vlabUartRxdata)
    {i : ℕ} (hi : i < len.toNat) : s.sram.byteAt (src.toNat + i) = s.store.payload src i := by
  unfold JobStore.payload
  rw [if_neg hne]
  exact (if_pos (hsrc.inSram hi)).symm

/-- What the completing step of a valid transfer leaves is a move in the store. -/
theorem Transferred.store {src dst len : Word} {irq : Bool} {v w : Soc} (hlen : len ≠ 0)
    (h : Transferred src dst len irq v w) : w.store = v.store.move src dst len := by
  unfold JobStore.move
  rcases h.data with ⟨hs, hd, huart, hpatch⟩ | ⟨hs, hd, hsram, -, htx, hrx⟩ | ⟨hs, hd, huart, hrx, hpatch⟩
  · -- RAM to RAM
    have hsne := (hs.not_fifo hlen).2
    rw [if_neg (hd.not_fifo hlen).1, if_neg hsne]
    exact JobStore.ext (store_patched hd hpatch fun i hi => store_payload_sram hs hsne hi)
      (congrArg (·.dmaTx.bytes) huart) (congrArg (·.dmaRx.bytes) huart)
  · -- RAM to uart-tx
    have hsne := (hs.not_fifo hlen).2
    have hbytes : ((List.range len.toNat).map fun i => v.sram.byteAt (src.toNat + i)) =
        (List.range len.toNat).map (v.store.payload src) :=
      List.map_congr_left fun i hi => store_payload_sram hs hsne (List.mem_range.mp hi)
    rw [hbytes] at htx hrx
    rw [if_pos hd]
    refine JobStore.ext ?_ htx hrx
    funext a
    show (if InSram a then w.sram.byteAt a else 0) = if InSram a then v.sram.byteAt a else 0
    rw [hsram]
  · -- uart-rx to RAM
    rw [if_neg (hd.not_fifo hlen).1, if_pos hs]
    refine JobStore.ext (store_patched hd hpatch fun i _ => ?_) ?_ hrx
    · unfold JobStore.payload
      rw [if_pos hs]
      rfl
    · exact congrArg (·.dmaTx.bytes) huart

/-! ### The ticks of a job -/

/-- A UART that sends nothing stands still. -/
theorem socUartStep_quiet {u : SocUart} (h : u.busy = 0) : socUartStep u = (u, []) := by
  rw [socUartStep, if_neg (by omega)]

/-- What the ticks of a transfer keep, with a quiet UART, up to the last of them. -/
theorem SocWired.flight_still (h : SocWired s) (hbusy : s.dma.busy = true)
    (hstuck : s.dma.faultStuckBusy = false) (huart : s.uart.busy = 0) {k : ℕ}
    (hk : (k : Int) < s.dma.remaining) :
    let t := socTick^[k] s
    t.sram = s.sram ∧ t.uart = s.uart ∧ t.intc.enable = s.intc.enable := by
  intro t
  induction k with
  | zero => exact ⟨rfl, rfl, rfl⟩
  | succ k ih =>
    obtain ⟨hsram, hu, henable⟩ := ih (by omega)
    have hdma := (h.ticks_countdown hbusy hstuck (k := k) (by omega)).2
    set v := socTick^[k] s with hv
    have hcount : socTick v = _ := socTickDma_count (s := socTickFront v)
      (by rw [socTickFront_dma, hdma]; exact hbusy) (by rw [socTickFront_dma, hdma]; exact hstuck)
      (by rw [socTickFront_dma, hdma]; dsimp only; omega)
    have ht : t = socTick v := Function.iterate_succ_apply' socTick k s
    rw [ht, hcount]
    refine ⟨hsram, ?_, (socTickFront_intc v).2.trans henable⟩
    show (socUartStep v.uart).1 = s.uart
    rw [hu, socUartStep_quiet huart]

/-- A valid transfer, from its START to the tick that ends it. -/
theorem SocWired.job_flight {irq : Bool} (h : SocWired s) (hm : Moving irq s.dma)
    (hstuck : s.dma.faultStuckBusy = false) (huart : s.uart.busy = 0)
    (hpos : 1 ≤ s.dma.remaining) :
    let t := socTick^[s.dma.remaining.toNat] s
    t.dma = { s.dma with remaining := 0, busy := false, done := true, error := false } ∧
      (irq = true → t.intc.dmaPending = true) ∧ t.intc.enable = s.intc.enable ∧
      t.uart.busy = 0 ∧ t.store = s.store.move s.dma.src s.dma.dst s.dma.length := by
  intro t
  obtain ⟨k, hk⟩ : ∃ k, s.dma.remaining.toNat = k + 1 := ⟨s.dma.remaining.toNat - 1, by omega⟩
  obtain ⟨hw, hdma⟩ := h.ticks_countdown hm.busy hstuck (k := k) (by omega)
  obtain ⟨hsram, hu, henable⟩ := h.flight_still hm.busy hstuck huart (k := k) (by omega)
  set v := socTick^[k] s with hv
  have ht : t = socTick v := by
    show socTick^[s.dma.remaining.toNat] s = _
    rw [hk]
    exact Function.iterate_succ_apply' socTick k s
  -- the front of the last tick changes neither streams nor memory
  have hfront : (socTickFront v).uart = s.uart := by
    show (socUartStep v.uart).1 = s.uart
    rw [hu, socUartStep_quiet huart]
  have hstore : (socTickFront v).store = s.store := Soc.store_congr hsram hfront
  have hfd : (socTickFront v).dma = { s.dma with remaining := s.dma.remaining - k } := hdma
  have hend := hw.tickFront.tickDma_valid (by rw [hfd]; exact hm.busy)
    (by rw [hfd]; exact hstuck) (by rw [hfd]; dsimp only; omega) (by rw [hfd]; exact hm.valid)
  have htick : t = socTickDma (socTickFront v) := ht
  rw [← htick, hfd] at hend
  dsimp only at hend
  have hmove := hend.store hm.valid.len_ne
  rw [hstore] at hmove
  refine ⟨?_, ?_, ?_, ?_, hmove⟩
  · rw [hend.status, hfd]
    dsimp only
    rw [show s.dma.remaining - k - 1 = 0 by omega]
  · intro hirq
    rw [hend.intc, hm.latched, if_pos hirq]
    show ((socTickFront v).intc.pending ||| (1 : Word) <<< socIrqDma).getLsbD socIrqDma = true
    rw [BitVec.getLsbD_or, show ((1 : Word) <<< socIrqDma).getLsbD socIrqDma = true from by decide,
      Bool.or_true]
  · rw [hend.intc]
    exact (socTickFront_intc v).2.trans henable
  · -- the streams are all that a transfer changes of the UART
    have hbusy : t.uart.busy = (socTickFront v).uart.busy := by
      rcases hend.data with ⟨-, -, hsame, -⟩ | ⟨-, -, -, hsame, -⟩ | ⟨-, -, hsame, -⟩
      · rw [hsame]
      · rw [hsame]
      · rw [hsame]
    rw [hbusy, hfront]
    exact huart

/-! ### Dispatch -/

/-- Nothing a client of the store sees, and no mask, has changed. -/
structure SameStore (p q : Platform) : Prop where
  live : Live q
  sram : q.gSoc.sram = p.gSoc.sram
  uart : q.gSoc.uart = p.gSoc.uart
  enable : q.gSoc.intc.enable = p.gSoc.intc.enable

theorem SameStore.trans {p q r : Platform} (hpq : SameStore p q) (hqr : SameStore q r) :
    SameStore p r :=
  ⟨hqr.live, hqr.sram.trans hpq.sram, hqr.uart.trans hpq.uart, hqr.enable.trans hpq.enable⟩

theorem SameStore.store {q : Platform} (h : SameStore p q) : q.gSoc.store = p.gSoc.store :=
  Soc.store_congr h.sram h.uart

theorem Live.clear_line (h : Live p) (line : Word) :
    SameStore p (halWriteReg p vlabIntcClear line) := by
  have hlive := h.write vlabIntcClear line
  have henable := (socWrite_intc (show vlabIntcClear ∉ dmaRegs by decide) p.gSoc line).2 (by decide)
  rw [h.wired.write_intc (Or.inr rfl)] at henable
  rw [h.write_intc (Or.inr rfl)] at hlive ⊢
  exact ⟨hlive, rfl, rfl, henable⟩

theorem Live.isr_store (h : Live p) (line : Word) : SameStore p (dmaIsr line p) := by
  obtain ⟨perf, heq⟩ := dmaIsr_eq h line
  have hc := h.cleared perf
  rw [heq]
  exact ⟨⟨hc.inited, hc.wired⟩, rfl, rfl, rfl⟩

/-- The other lines' handlers make no calls. -/
abbrev noCalls : AppCall → Prop := fun _ => False

theorem Isr.ServesDma.calm {isr : Isr A} (h : isr.ServesDma noCalls) :
    isr.ServesDma AppCall.calm := by
  refine ⟨h.dma, fun l f hl hf line p a => ?_⟩
  obtain ⟨cs, hcs, heq⟩ := h.others l f hl hf line p a
  exact ⟨cs, fun c hc => absurd (hcs c hc) id, heq⟩

theorem HandlerCalls.still {f : IsrHandler A} (h : HandlerCalls noCalls f) (line : Word)
    (p : Platform) (a : A) : (f line (p, a)).1 = p := by
  obtain ⟨cs, hcs, heq⟩ := h line p a
  have hnil : cs = [] := List.eq_nil_iff_forall_not_mem.mpr hcs
  rw [heq, hnil, Runs.run_nil]

/-- A dispatch moves nothing in the store. -/
theorem dispatch_store {m : Machine A} (hisr : m.isr.ServesDma noCalls) (h : Live m.platform) :
    let q := (isrDispatch m).2
    q.isr.ServesDma noCalls ∧ SameStore m.platform q.platform := by
  refine isrDispatch_rule
    (P := fun q => q.isr.ServesDma noCalls ∧ SameStore m.platform q.platform)
    (fun q hq => hq.2.live) (fun q hq => ⟨hq.1, hq.2.trans ⟨hq.2.live.polled, rfl, rfl, rfl⟩⟩)
    (fun q line hq _ _ => ⟨hq.1, hq.2.trans ⟨hq.2.live.acked line, rfl, rfl, rfl⟩⟩) ?_
    ⟨hisr, h, rfl, rfl, rfl⟩
  intro q line hq hline _
  have hacked : SameStore q.platform (q.platform.acked line) :=
    ⟨hq.2.live.acked line, rfl, rfl, rfl⟩
  refine ⟨⟨hq.1.dma, hq.1.others⟩, hq.2.trans (hacked.trans ?_)⟩
  rw [isrServe_platform _ (socIntcHighest_lt hline)]
  dsimp only
  cases hf : q.isr.sVectors line with
  | none => exact hacked.live.clear_line _
  | some f =>
    by_cases hdma : line = socIrqDma
    · rw [hdma, hq.1.dma] at hf
      rw [← Option.some_inj.mp hf]
      have hdone := hacked.live.isr_store (BitVec.ofNat 32 line)
      exact hdone.trans (hdone.live.clear_line _)
    · dsimp only
      rw [(hq.1.others line f hdma hf).still]
      exact hacked.live.clear_line _

/-! ### The operations -/

/-- What a client does: a word stored, a word loaded, a job that may be hit by an error. -/
inductive JobOp
  | store (addr value : Word)
  | load (addr : Word)
  | job (src dst len : Word) (fault : Option Word)

/-- What it gets back. -/
inductive JobOutcome
  | stored
  | word (w : Word)
  | rejected
  | done
  | failed (code : Word)
  deriving DecidableEq

/-- The wait for the engine, or the error that hits it. -/
def jobWait (p : Platform) : Option Word → Platform
  | none => vlabTestDmaComplete p
  | some code => vlabTestDmaError p code

/-- What the driver's latches say after the dispatch. -/
def jobOutcome (p : Platform) : JobOutcome :=
  if dmaState p = .complete then .done else .failed (dmaLatchedError p)

/-- A job that is accepted is waited for, dispatched and recovered from. -/
def runJob (m : Machine A) (src dst len : Word) (fault : Option Word) : JobOutcome × Machine A :=
  let r := dmaSubmit m.platform src dst len 1
  if r.1 ≠ .ok then (.rejected, { m with platform := r.2 })
  else
    let d := (isrDispatch { m with platform := jobWait r.2 fault }).2
    (jobOutcome d.platform, { d with platform := dmaRecover d.platform })

def runOp (m : Machine A) : JobOp → JobOutcome × Machine A
  | .store addr value => (.stored, { m with platform := vlabMmioWrite m.platform addr value })
  | .load addr =>
    let r := vlabMmioRead m.platform addr
    (.word r.1, { m with platform := r.2 })
  | .job src dst len fault => runJob m src dst len fault

/-- A job on the store: it moves its bytes unless its descriptor is not valid or an error
hits it. -/
def JobStore.job (st : JobStore) (src dst len : Word) (fault : Option Word) :
    JobOutcome × JobStore :=
  if VlabValid src dst len then
    match fault with
    | none => (.done, st.move src dst len)
    | some code => (.failed code, st)
  else (.rejected, st)

/-- The operations on the store. -/
def JobStore.run (st : JobStore) : JobOp → JobOutcome × JobStore
  | .store addr value => (.stored, { st with mem := st.mem.store addr.toNat value })
  | .load addr => (.word (st.mem.word addr.toNat), st)
  | .job src dst len fault => st.job src dst len fault

/-- The client's machine after an operation. -/
def jobStep (m : Machine A) (o : JobOp) : Machine A := (runOp m o).2

/-- The store after an operation. -/
def JobStore.step (st : JobStore) (o : JobOp) : JobStore := (st.run o).2

/-- The jobs that reach the engine. -/
def JobOp.runs : JobOp → Bool
  | .job src dst len _ => decide (VlabValid src dst len)
  | _ => false

/-- Words are stored and loaded inside the SRAM; a valid job that is not hit by an error ends
while the completion hook waits. -/
def JobOp.fits (c : SocConfig) : JobOp → Prop
  | .store addr _ => addr.toNat % 4 = 0 ∧ InWindow vlabSramBase 65536 addr
  | .load addr => addr.toNat % 4 = 0 ∧ InWindow vlabSramBase 65536 addr
  | .job src dst len fault =>
    fault = none → VlabValid src dst len → socDmaCountdown (vlabDmaConfig c) len ≤ 100000

/-- Between two operations: the driver IDLE with its tables, the engine at rest, the UART
quiet, the DMA line enabled. -/
structure JobsReady (c : SocConfig) (p : Platform) : Prop where
  live : Live p
  tables : VlabTables p.dma
  idle : p.dma.sState = .idle
  resting : Resting p.gSoc.dma
  unstuck : p.gSoc.dma.faultStuckBusy = false
  cfg : p.gSoc.dma.cfg = vlabDmaConfig c
  quiet : p.gSoc.uart.busy = 0
  enabled : p.gSoc.intc.dmaEnabled = true

variable {c : SocConfig}

/-- The model may change as long as engine, UART and mask do not. -/
theorem JobsReady.of_statics {q : Platform} (h : JobsReady c p) (hlive : Live q)
    (hstatics : q.dma = p.dma) (hengine : q.gSoc.dma = p.gSoc.dma)
    (hquiet : q.gSoc.uart.busy = p.gSoc.uart.busy)
    (henable : q.gSoc.intc.enable = p.gSoc.intc.enable) : JobsReady c q := by
  refine ⟨hlive, ?_, ?_, ?_, ?_, ?_, hquiet.trans h.quiet, ?_⟩
  · rw [hstatics]
    exact h.tables
  · rw [hstatics]
    exact h.idle
  · rw [hengine]
    exact h.resting
  · rw [hengine]
    exact h.unstuck
  · rw [hengine]
    exact h.cfg
  · rw [SocIntc.dmaEnabled, henable]
    exact h.enabled

/-- Routing of a word of the SRAM. -/
theorem SocWired.write_ram (h : SocWired s) {addr : Word} (haddr : addr.toNat % 4 = 0)
    (hwin : InWindow vlabSramBase 65536 addr) (value : Word) :
    ∃ perf, (socWrite s addr value).soc =
      { s with sram := (socMemWriteWord s.sram addr value).2, perf := perf } := by
  obtain ⟨perf, hperf⟩ := socWrite_soc s value ((dvd_four_iff addr).mpr haddr)
  have h0 : ¬ InWindow vlabRomBase 16384 addr := fun h0 => by
    have hlow := rom_low h0
    have hhigh := (sram_low hwin).1
    omega
  rw [h.route, socBusRoute_vlab haddr, if_neg h0, if_pos hwin] at hperf
  exact ⟨perf, hperf⟩

/-- A word store in the SRAM. -/
theorem SocWired.store_word (h : SocWired s) {addr : Word} (haddr : addr.toNat % 4 = 0)
    (hwin : InWindow vlabSramBase 65536 addr) (value : Word) :
    (socWrite s addr value).soc.store =
      { s.store with mem := s.store.mem.store addr.toNat value } := by
  obtain ⟨perf, heq⟩ := h.write_ram haddr hwin value
  have hok : (socMemWriteWord s.sram addr value).1 = .ok :=
    socMemWriteWord_ok.mpr ⟨haddr, h.sram_writable, (h.sram_covers haddr).mpr hwin⟩
  have hlow : vlabSramBase.toNat ≤ addr.toNat := hwin.1
  have hhigh : addr.toNat < vlabSramBase.toNat + 65536 := hwin.2
  have hbase : vlabSramBase.toNat % 4 = 0 := by decide
  rw [heq]
  refine JobStore.ext (funext fun a => ?_) rfl rfl
  show (if InSram a then (socMemWriteWord s.sram addr value).2.byteAt a else 0) =
    if addr.toNat ≤ a ∧ a < addr.toNat + 4 then byteOf value (a - addr.toNat)
    else if InSram a then s.sram.byteAt a else 0
  by_cases ha : InSram a
  · rw [if_pos ha, if_pos ha, socMemWriteWord_byteAt hok (by rw [h.sram_base]; exact ha.1)]
  · -- a word in the window does not reach over its end
    have hno : ¬ (addr.toNat ≤ a ∧ a < addr.toNat + 4) := fun hin =>
      ha ⟨by omega, by omega⟩
    rw [if_neg ha, if_neg hno, if_neg ha]

/-- A word load from the SRAM. -/
theorem SocWired.load_word (h : SocWired s) {addr : Word} (haddr : addr.toNat % 4 = 0)
    (hwin : InWindow vlabSramBase 65536 addr) (out : Word) :
    (socRead s addr out).rc = .ok ∧ (socRead s addr out).out = s.store.mem.word addr.toNat ∧
      (socRead s addr out).soc.uncounted = s.uncounted := by
  have hok : (socRead s addr out).rc = .ok :=
    (h.read_ok addr out).mpr ⟨haddr, Or.inr (Or.inl hwin)⟩
  have hmem : SramIs s s.store.mem := fun a ha ha' => (if_pos ⟨ha, ha'⟩).symm
  have hlow := (sram_low hwin).2
  refine ⟨hok, h.read_sram hmem hwin hok, socRead_uncounted (fun hrx => ?_) (fun hack => ?_) s out⟩
  · rw [hrx] at hlow
    exact absurd hlow (by decide)
  · rw [hack] at hlow
    exact absurd hlow (by decide)

theorem JobsReady.store (h : JobsReady c p) {addr : Word} (haddr : addr.toNat % 4 = 0)
    (hwin : InWindow vlabSramBase 65536 addr) (value : Word) :
    let q := vlabMmioWrite p addr value
    JobsReady c q ∧ q.dma = p.dma ∧
      q.gSoc.store = { p.gSoc.store with mem := p.gSoc.store.mem.store addr.toNat value } := by
  intro q
  have hq : q = { p with gSoc := (socWrite p.gSoc addr value).soc } := halWriteReg_eq h.live addr value
  have hstore := h.live.wired.store_word haddr hwin value
  obtain ⟨perf, heq⟩ := h.live.wired.write_ram haddr hwin value
  have hlive : Live q := h.live.write addr value
  rw [heq] at hq hstore
  refine ⟨h.of_statics hlive (by rw [hq]) (by rw [hq]) (by rw [hq]) (by rw [hq]), by rw [hq], ?_⟩
  rw [hq]
  exact hstore

theorem JobsReady.load (h : JobsReady c p) {addr : Word} (haddr : addr.toNat % 4 = 0)
    (hwin : InWindow vlabSramBase 65536 addr) :
    let r := vlabMmioRead p addr
    JobsReady c r.2 ∧ r.2.dma = p.dma ∧ r.2.gSoc.store = p.gSoc.store ∧
      r.1 = p.gSoc.store.mem.word addr.toNat := by
  intro r
  have hr : r = _ := halReadReg_eq h.live addr
  obtain ⟨hok, hout, hsoc⟩ := h.live.wired.load_word haddr hwin 0
  obtain ⟨hdma, huart, hsram, hintc⟩ := uncounted_fields hsoc
  rw [if_neg (not_not.mpr hok), hout] at hr
  rw [hr]
  refine ⟨h.of_statics ⟨h.live.inited, h.live.wired.read addr 0⟩ rfl hdma
    (congrArg SocUart.busy huart) (congrArg SocIntc.enable hintc), rfl,
    Soc.store_congr hsram huart, rfl⟩

/-! ### Jobs -/

/-- A job under way whose engine has stopped, with its interrupt ready. -/
structure JobEnded (c : SocConfig) (p : Platform) : Prop where
  live : Live p
  tables : VlabTables p.dma
  unstuck : p.gSoc.dma.faultStuckBusy = false
  cfg : p.gSoc.dma.cfg = vlabDmaConfig c
  quiet : p.gSoc.uart.busy = 0
  ready : p.gSoc.intc.dmaReady = true
  stopped : p.gSoc.dma.busy = false
  ended : p.gSoc.dma.done = true ∨ p.gSoc.dma.error = true

/-- The dispatch serves it and the recovery makes room for the next. -/
theorem JobEnded.finish {m : Machine A} (hisr : m.isr.ServesDma noCalls)
    (h : JobEnded c m.platform) :
    let d := (isrDispatch m).2
    let q := dmaRecover d.platform
    d.isr.ServesDma noCalls ∧ JobsReady c q ∧ q.gSoc.store = m.platform.gSoc.store ∧
      q.dma.sIrqCount = m.platform.dma.sIrqCount + 1 ∧
      d.platform.dma = m.platform.dma.served m.platform.gSoc.dma := by
  intro d q
  obtain ⟨-, hlive, hstatics, hengine⟩ := dispatch_dma hisr.calm h.live
  obtain ⟨hserves, hsame⟩ := dispatch_store hisr h.live
  rw [if_pos h.ready] at hstatics hengine
  obtain ⟨-, henabled⟩ := Bool.and_eq_true_iff.mp h.ready
  -- the driver has left ACTIVE, one interrupt further
  have hstate : d.platform.dma.sState = .error ∨ d.platform.dma.sState = .complete := by
    show (isrDispatch m).2.platform.dma.sState = _ ∨ _
    rw [hstatics, DmaDriver.served]
    rcases h.ended with hdone | herror
    · rw [if_pos hdone]
      exact Or.inr rfl
    · split_ifs
      · exact Or.inr rfl
      · exact Or.inl rfl
  have hcount : d.platform.dma.sIrqCount = m.platform.dma.sIrqCount + 1 := by
    show (isrDispatch m).2.platform.dma.sIrqCount = _
    rw [hstatics, DmaDriver.served]
    split_ifs <;> rfl
  have htables : VlabTables d.platform.dma := by
    show VlabTables (isrDispatch m).2.platform.dma
    rw [hstatics]
    exact h.tables.served _
  have heng : d.platform.gSoc.dma = m.platform.gSoc.dma.cleared := hengine
  rcases dmaRecover_eq hlive with ⟨-, perf, heq⟩ | ⟨hno, -⟩
  swap
  · exact absurd hstate hno
  have hq : q = _ := heq
  have hc := hlive.cleared perf
  rw [hq]
  refine ⟨hserves, ⟨⟨hc.inited, hc.wired⟩, htables.state .idle 0 0, rfl, ?_, ?_, ?_, ?_, ?_⟩,
    hsame.store, hcount, hstatics⟩
  · show Resting d.platform.gSoc.dma.cleared
    rw [heng]
    exact ⟨h.stopped, rfl, rfl⟩
  · show d.platform.gSoc.dma.faultStuckBusy = false
    rw [heng]
    exact h.unstuck
  · show d.platform.gSoc.dma.cfg = _
    rw [heng]
    exact h.cfg
  · show d.platform.gSoc.uart.busy = 0
    rw [hsame.uart]
    exact h.quiet
  · show (d.platform.gSoc.intc.enable).getLsbD socIrqDma = true
    rw [hsame.enable]
    exact henabled

theorem submitted_inv (d : SocDma DmaCtx) (src dst len : Word) (irqEnable : Int) :
    DmaInv (d.submitted src dst len irqEnable) where
  busy_not_done := fun _ => rfl
  busy_not_error := fun _ => rfl
  done_not_error := fun h => absurd h Bool.false_ne_true
  errCode_iff := iff_of_false (fun h => h rfl) Bool.false_ne_true
  busy_iff := iff_of_true rfl (socDmaCountdown_pos d.cfg len)
  ctrl_start := ctrl_store _

/-- The platform once a job is accepted. -/
def Platform.accepted (p : Platform) (src dst len : Word) (perf : SocPerf) : Platform :=
  { p with
    gSoc := { p.gSoc with dma := p.gSoc.dma.submitted src dst len 1, perf := perf }
    dma := { p.dma with sDoneFlag := 0, sErrLatch := 0, sState := .active }
    sIrqMasked := p.sIrqMasked &&& 1 }

/-- The wait for the engine carries the job out. -/
theorem JobsReady.complete (h : JobsReady c p) {src dst len : Word} (hvalid : VlabValid src dst len)
    (hfits : socDmaCountdown (vlabDmaConfig c) len ≤ 100000) (perf : SocPerf) :
    let q := vlabTestDmaComplete (p.accepted src dst len perf)
    JobEnded c q ∧ q.gSoc.dma.done = true ∧
      q.dma = (p.accepted src dst len perf).dma ∧
      q.gSoc.store = p.gSoc.store.move src dst len := by
  intro q
  set a := p.accepted src dst len perf with ha
  have hwired : SocWired a.gSoc := h.live.wired.of_eq rfl rfl rfl rfl rfl rfl
  have hinv : DmaInv a.gSoc.dma := submitted_inv p.gSoc.dma src dst len 1
  have hm : Moving true a.gSoc.dma := submitted_moving p.gSoc.dma 1 hvalid
  have hrem : a.gSoc.dma.remaining = socDmaCountdown (vlabDmaConfig c) len := by
    rw [← h.cfg]
    rfl
  have hpos : 1 ≤ a.gSoc.dma.remaining := hinv.busy_iff.mp rfl
  -- the hook stops with the transfer
  have hticks : hookTicks 100000 a.gSoc = a.gSoc.dma.remaining.toNat := by
    rw [(hookTicks_eq hwired hinv 100000).1, hm.busy, if_neg (by decide),
      if_neg (by rw [show a.gSoc.dma.faultStuckBusy = _ from h.unstuck]; decide),
      Nat.min_eq_left (by omega)]
  have hloop := dmaCompleteLoop_eq 100000 0 hwired hinv
  rw [hticks] at hloop
  have hq : q = { a with gSoc := dmaCompleteLoop 100000 0 a.gSoc } := if_pos h.live.inited
  obtain ⟨es, -, hrun⟩ := dmaCompleteLoop_run 100000 0 a.gSoc
  have hlive : Live q := by
    have hlive : Live a := ⟨h.live.inited, hwired⟩
    rw [hq, hrun]
    exact hlive.run es
  obtain ⟨hdma, hpending, henable, hquiet, hstore⟩ :=
    hwired.job_flight hm h.unstuck h.quiet hpos
  generalize socTick^[a.gSoc.dma.remaining.toNat] a.gSoc = t at hloop hdma hpending henable hquiet hstore
  have hqsoc : q.gSoc.uncounted = t.uncounted := by
    rw [hq]
    exact hloop
  obtain ⟨hqdma, hquart, hqsram, hqintc⟩ := uncounted_fields hqsoc
  have hqstatics : q.dma = a.dma := by rw [hq]
  rw [hdma] at hqdma
  refine ⟨⟨hlive, ?_, ?_, ?_, ?_, ?_, ?_, Or.inl ?_⟩, ?_, hqstatics, ?_⟩
  · rw [hqstatics]
    exact h.tables.state .active 0 0
  · rw [hqdma]
    exact h.unstuck
  · rw [hqdma]
    exact h.cfg
  · rw [hquart]
    exact hquiet
  · rw [hqintc, SocIntc.dmaReady, hpending rfl, SocIntc.dmaEnabled, henable]
    exact h.enabled
  · rw [hqdma]
  · rw [hqdma]
  · rw [hqdma]
  · rw [Soc.store_congr hqsram hquart, hstore]
    rfl

/-- The injected error stops it before it has moved anything. -/
theorem JobsReady.abort (h : JobsReady c p) (src dst len : Word) (perf : SocPerf) (code : Word) :
    let q := vlabTestDmaError (p.accepted src dst len perf) code
    JobEnded c q ∧ q.gSoc.dma.done = false ∧ q.gSoc.dma.error = true ∧ q.gSoc.dma.errCode = code ∧
      q.dma = (p.accepted src dst len perf).dma ∧ q.gSoc.store = p.gSoc.store := by
  intro q
  have hctrl : (p.accepted src dst len perf).gSoc.dma.ctrl &&& socDmaCtrlIrqEnable ≠ 0 := by
    show socDmaCtrlStored (ctrlWord 1) &&& socDmaCtrlIrqEnable ≠ 0
    decide
  have hq : q = _ := if_pos h.live.inited
  dsimp only at hq
  rw [if_pos hctrl] at hq
  have hready : q.gSoc.intc.dmaReady = true := by
    rw [hq, SocIntc.dmaReady, SocIntc.dmaPending, socIntcRaise_pending,
      decide_eq_true ⟨rfl, by decide⟩, Bool.or_true, SocIntc.dmaEnabled, socIntcRaise_enable,
      Bool.true_and]
    exact h.enabled
  refine ⟨⟨?_, ?_, ?_, ?_, ?_, hready, ?_, Or.inr ?_⟩, ?_, ?_, ?_, ?_, ?_⟩
  all_goals rw [hq]
  · exact ⟨h.live.inited, h.live.wired.of_eq rfl rfl rfl rfl rfl rfl⟩
  · exact h.tables.state .active 0 0
  · exact h.unstuck
  · exact h.cfg
  · exact h.quiet
  · rfl

/-- A job of the client is one on the store. -/
theorem JobsReady.job {m : Machine A} (hisr : m.isr.ServesDma noCalls) (h : JobsReady c m.platform)
    (src dst len : Word) {fault : Option Word}
    (hfits : fault = none → VlabValid src dst len →
      socDmaCountdown (vlabDmaConfig c) len ≤ 100000) :
    let r := runJob m src dst len fault
    (r.2.isr.ServesDma noCalls ∧ JobsReady c r.2.platform) ∧
      (r.1, r.2.platform.gSoc.store) = m.platform.gSoc.store.job src dst len fault ∧
      dmaIrqCount r.2.platform =
        dmaIrqCount m.platform + if decide (VlabValid src dst len) then 1 else 0 := by
  rw [runJob, JobStore.job.eq_def]
  rcases dmaSubmit_cases h.live h.tables src dst len 1 with ⟨hne, -⟩ |
    ⟨-, hbad, rc, perf, hne, -, heq⟩ | ⟨-, -, hvalid, perf, heq⟩
  · exact absurd h.idle hne
  · -- rejected
    have hno : ¬ VlabValid src dst len := hbad.resolve_left (by rw [h.resting.busy]; decide)
    rw [heq]
    dsimp only
    rw [if_pos hne, if_neg hno, decide_eq_false hno]
    exact ⟨⟨hisr, h.of_statics ⟨h.live.inited, h.live.wired.of_eq rfl rfl rfl rfl rfl rfl⟩ rfl rfl
      rfl rfl⟩, rfl, (BitVec.add_zero _).symm⟩
  have haccept : dmaSubmit m.platform src dst len 1 =
      (.ok, m.platform.accepted src dst len perf) := heq
  rw [haccept]
  dsimp only
  rw [if_neg (by decide), if_pos hvalid, decide_eq_true hvalid]
  cases fault with
  | none =>
    obtain ⟨hended, hdone, hstatics, hstore⟩ := h.complete hvalid (hfits rfl hvalid) perf
    dsimp only [jobWait]
    generalize vlabTestDmaComplete (m.platform.accepted src dst len perf) = q at *
    obtain ⟨hserves, hready, hsame, hcount, hserved⟩ :=
      hended.finish (m := { m with platform := q }) hisr
    dsimp only at hserved hcount hsame
    have hout : jobOutcome (isrDispatch { m with platform := q }).2.platform = .done := by
      rw [jobOutcome, dmaState, hserved, DmaDriver.served, if_pos hdone, if_pos rfl]
    rw [hout]
    rw [hstatics] at hcount
    exact ⟨⟨hserves, hready⟩, Prod.ext rfl (hsame.trans hstore), hcount⟩
  | some code =>
    obtain ⟨hended, hdone, herror, hcode, hstatics, hstore⟩ := h.abort src dst len perf code
    dsimp only [jobWait]
    generalize vlabTestDmaError (m.platform.accepted src dst len perf) code = q at *
    obtain ⟨hserves, hready, hsame, hcount, hserved⟩ :=
      hended.finish (m := { m with platform := q }) hisr
    dsimp only at hserved hcount hsame
    rw [served_error hdone herror, hcode] at hserved
    have hout : jobOutcome (isrDispatch { m with platform := q }).2.platform = .failed code := by
      rw [jobOutcome, dmaState, dmaLatchedError, hserved, if_neg DmaState.noConfusion]
    rw [hout]
    rw [hstatics] at hcount
    exact ⟨⟨hserves, hready⟩, Prod.ext rfl (hsame.trans hstore), hcount⟩

/-- One operation of the client is one on the store. -/
theorem JobsReady.run {m : Machine A} (hisr : m.isr.ServesDma noCalls) (h : JobsReady c m.platform)
    {o : JobOp} (ho : o.fits c) :
    let r := runOp m o
    (r.2.isr.ServesDma noCalls ∧ JobsReady c r.2.platform) ∧
      (r.1, r.2.platform.gSoc.store) = m.platform.gSoc.store.run o ∧
      dmaIrqCount r.2.platform = dmaIrqCount m.platform + if o.runs then 1 else 0 := by
  cases o with
  | store addr value =>
    obtain ⟨hready, hstatics, hstore⟩ := h.store ho.1 ho.2 value
    refine ⟨⟨hisr, hready⟩, Prod.ext rfl hstore, ?_⟩
    show (vlabMmioWrite m.platform addr value).dma.sIrqCount = _
    rw [hstatics]
    exact (BitVec.add_zero _).symm
  | load addr =>
    obtain ⟨hready, hstatics, hstore, hword⟩ := h.load ho.1 ho.2
    refine ⟨⟨hisr, hready⟩, Prod.ext (congrArg JobOutcome.word hword) hstore, ?_⟩
    show (vlabMmioRead m.platform addr).2.dma.sIrqCount = _
    rw [hstatics]
    exact (BitVec.add_zero _).symm
  | job src dst len fault => exact h.job hisr src dst len ho

/-! ### From boot -/

/-- Host, boot and driver initialised, and the lines of the mask enabled. -/
def jobsStart (gSoc : Soc) (cfg : Option SocConfig) (mask : Word) (app : A) (isr : Isr A) :
    Machine A where
  platform := intcEnable (dmaInit (socHostBoot (socHostInit (platformStart gSoc) cfg))) mask
  app := app
  isr := isr

/-- A SRAM of zeros and empty streams. -/
def JobStore.empty : JobStore := ⟨fun _ => 0, [], []⟩

theorem SocWired.boot_store (h : SocWired s) (romWords : Option (List Word)) (nwords : Word) :
    (socBoot s romWords nwords).store = JobStore.empty := by
  refine JobStore.ext (funext fun a => ?_) ?_ ?_
  · show (if InSram a then (socBoot s romWords nwords).sram.byteAt a else 0) = 0
    by_cases ha : InSram a
    · rw [if_pos ha]
      exact h.boot_sram romWords nwords a ha.1 ha.2
    · rw [if_neg ha]
  · show (socBoot s romWords nwords).uart.dmaTx.bytes = []
    rw [(socBoot_uart s romWords nwords).1]
    rfl
  · show (socBoot s romWords nwords).uart.dmaRx.bytes = []
    rw [(socBoot_uart s romWords nwords).1]
    rfl

theorem jobsStart_ready (gSoc : Soc) (cfg : Option SocConfig) {mask : Word}
    (hmask : mask.getLsbD socIrqDma = true) (app : A) (isr : Isr A) :
    JobsReady (cfg.getD socConfigDefault) (jobsStart gSoc cfg mask app isr).platform ∧
      (jobsStart gSoc cfg mask app isr).platform.gSoc.store = JobStore.empty ∧
      dmaIrqCount (jobsStart gSoc cfg mask app isr).platform = 0 := by
  set g := socInit gSoc (some (cfg.getD socConfigDefault)) with hg
  have hgw : SocWired g := socInit_wired _ _
  have hboot : socHostBoot (socHostInit (platformStart gSoc) cfg) =
      { platformStart gSoc with gSoc := socBoot g none 0, gInited := true } := rfl
  have hlive : Live (dmaInit (socHostBoot (socHostInit (platformStart gSoc) cfg))) := by
    rw [hboot]
    exact ⟨rfl, hgw.boot none 0⟩
  have hp : (jobsStart gSoc cfg mask app isr).platform = _ :=
    hlive.write_intc (Or.inl rfl) (mask &&& 0x7)
  have hwired := hlive.write vlabIntcEnable (mask &&& 0x7)
  rw [hboot] at hp
  dsimp only [dmaInit] at hp
  have hdma : (socBoot g none 0).dma = socDmaReset g.dma := socBoot_dma g none 0
  have hengine : (jobsStart gSoc cfg mask app isr).platform.gSoc.dma = socDmaReset g.dma := by
    rw [hp]
    exact hdma
  refine ⟨⟨hwired, ?_, ?_, ?_, ?_, ?_, ?_, ?_⟩, ?_, ?_⟩
  · rw [hp]
    exact ⟨rfl, rfl, rfl, rfl, rfl⟩
  · rw [hp]
    rfl
  · rw [hengine]
    exact ⟨rfl, rfl, rfl⟩
  · rw [hengine]
    rfl
  · rw [hengine]
    exact hgw.dma
  · rw [hp]
    exact congrArg SocUart.busy (socBoot_uart g none 0).1
  · rw [hp]
    show (mask &&& 0x7 &&& 0x7).getLsbD socIrqDma = true
    rw [BitVec.getLsbD_and, BitVec.getLsbD_and, hmask]
    rfl
  · rw [hp]
    exact hgw.boot_store none 0
  · rw [hp]
    rfl

/-- Every run of operations, against the store. -/
theorem JobsReady.runs {m : Machine A} (hisr : m.isr.ServesDma noCalls)
    (h : JobsReady c m.platform) {ops : List JobOp} (hops : ∀ o ∈ ops, o.fits c) :
    let q := Runs.run jobStep m ops
    (Runs.stages jobStep m ops).map (fun x => (runOp x.1 x.2).1) =
        (Runs.stages JobStore.step m.platform.gSoc.store ops).map (fun x => (x.1.run x.2).1) ∧
      q.platform.gSoc.store = Runs.run JobStore.step m.platform.gSoc.store ops ∧
      JobsReady c q.platform ∧
      dmaIrqCount q.platform =
        dmaIrqCount m.platform + BitVec.ofNat 32 (ops.countP JobOp.runs) := by
  intro q
  have hkeep : ∀ (m : Machine A) (o : JobOp), o.fits c →
      m.isr.ServesDma noCalls ∧ JobsReady c m.platform →
      (jobStep m o).isr.ServesDma noCalls ∧ JobsReady c (jobStep m o).platform :=
    fun m o ho hm => (hm.2.run hm.1 ho).1
  obtain ⟨hanswers, hend⟩ := Runs.run_answers runOp JobStore.run
    (fun m : Machine A => m.platform.gSoc.store)
    (P := fun m => m.isr.ServesDma noCalls ∧ JobsReady c m.platform) hkeep
    (fun m o ho hm => (hm.2.run hm.1 ho).2.1) hops ⟨hisr, h⟩
  have hcount := Runs.run_count jobStep
    (fun m => dmaIrqCount m.platform) (fun x => x.2.runs)
    (P := fun m => m.isr.ServesDma noCalls ∧ JobsReady c m.platform) hkeep
    (fun m o ho hm => (hm.2.run hm.1 ho).2.2) hops ⟨hisr, h⟩
  obtain ⟨-, hready⟩ := Runs.run_invariant jobStep
    (P := fun m => m.isr.ServesDma noCalls ∧ JobsReady c m.platform) hkeep hops ⟨hisr, h⟩
  rw [Runs.countP_stages] at hcount
  exact ⟨hanswers, hend, hready, hcount⟩

/-- The driver executes jobs.  From boot with any configuration, with the DMA line enabled and
`dma_isr` serving it, over any sequence of word stores and loads in the SRAM and of jobs with
any descriptors, hit by errors or not, of which the valid ones end while the completion hook
waits: every operation returns what it returns on the store, where a valid job moves its bytes,
one hit by an error moves nothing and reports the code, and any other is rejected; the SRAM and
both streams are those of the store; and one interrupt has been counted for each job that was
accepted. -/
theorem jobs_refine (gSoc : Soc) (cfg : Option SocConfig) {mask : Word}
    (hmask : mask.getLsbD socIrqDma = true) (app : A) {isr : Isr A}
    (hisr : isr.ServesDma noCalls) {ops : List JobOp}
    (hops : ∀ o ∈ ops, o.fits (cfg.getD socConfigDefault)) :
    let m0 := jobsStart gSoc cfg mask app isr
    let m := Runs.run jobStep m0 ops
    (Runs.stages jobStep m0 ops).map (fun x => (runOp x.1 x.2).1) =
        (Runs.stages JobStore.step JobStore.empty ops).map
          (fun x => (x.1.run x.2).1) ∧
      m.platform.gSoc.store = Runs.run JobStore.step JobStore.empty ops ∧
      dmaState m.platform = .idle ∧
      dmaIrqCount m.platform = BitVec.ofNat 32 (ops.countP JobOp.runs) := by
  intro m0 m
  obtain ⟨hready, hstore, hzero⟩ := jobsStart_ready gSoc cfg hmask app isr
  obtain ⟨hanswers, hend, hlast, hcount⟩ := hready.runs hisr hops
  rw [hstore] at hanswers hend
  rw [hzero] at hcount
  exact ⟨hanswers, hend, hlast.idle, hcount.trans (BitVec.zero_add _)⟩

/-- A word stored, moved and read back, with a job that is hit by an error and one that is too
long for the engine. -/
theorem jobs_refine_word :
    let m0 := jobsStart default none 4 () isrDma
    let ops := [JobOp.store vlabSramBase 0xCAFE, .job vlabSramBase (vlabSramBase + 8) 4 none,
      .job vlabSramBase (vlabSramBase + 12) 4 (some 3), .job vlabSramBase vlabUartTxdata 0x100000 none,
      .load (vlabSramBase + 8), .load (vlabSramBase + 12)]
    (Runs.stages jobStep m0 ops).map (fun x => (runOp x.1 x.2).1) =
      [.stored, .done, .failed 3, .rejected, .word 0xCAFE, .word 0] := by
  intro m0 ops
  have hserves : isrDma.ServesDma noCalls := isrRegister_serves (by decide) (by simp [isrStart])
  have hops : ∀ o ∈ ops, o.fits ((none : Option SocConfig).getD socConfigDefault) := by
    intro o ho
    simp only [ops, List.mem_cons, List.not_mem_nil, or_false] at ho
    rcases ho with rfl | rfl | rfl | rfl | rfl | rfl
    · exact ⟨by decide, by decide⟩
    · exact fun _ _ => by decide
    · exact fun h => absurd h (by decide)
    · exact fun _ hvalid => absurd hvalid (by decide)
    · exact ⟨by decide, by decide⟩
    · exact ⟨by decide, by decide⟩
  exact (jobs_refine default none (by decide) () hserves hops).1.trans (by decide +kernel)

end VlabSoc
