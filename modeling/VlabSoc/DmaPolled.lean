/-
The driver polled: transfers started with `dma_start`, watched with `dma_status` and
`dma_err_code` and acknowledged with `dma_clear`, while the CPU works on.

`Mover` is what the client sees then: the store of its jobs, the transfer under way
with the ticks it has left, and how the last one ended.  A transfer acts on the store
once, at its last tick.

* `PolledSoc.ticks` — the ticks of the SoC, as those of the mover;
* `Polled.run` — one operation, against `Mover.run`;
* `poll_refines` — every sequence of operations;
* `polled_jobs_agree` — jobs that are polled, against jobs that are served by interrupt.
-/
import VlabSoc.DmaJobs
import VlabSoc.UartTraffic

namespace VlabSoc

variable {p : Platform} {s : Soc} {c : SocConfig}

/-! ### The mover -/

/-- A transfer under way. -/
structure Flight where
  src : Word
  dst : Word
  len : Word
  left : ℕ

/-- How the last transfer ended, until it is cleared. -/
inductive TransferEnd
  | none
  | done
  | failed (code : Word)

structure Mover where
  store : JobStore
  flight : Option Flight
  ended : TransferEnd

/-- The last tick carries the transfer out. -/
def Mover.tick (v : Mover) : Mover :=
  match v.flight with
  | none => v
  | some f =>
    if f.left ≤ 1 then
      { store := v.store.move f.src f.dst f.len, flight := none, ended := .done }
    else { v with flight := some { f with left := f.left - 1 } }

/-- The STATUS word. -/
def Mover.status (v : Mover) : Word :=
  match v.flight, v.ended with
  | some _, _ => vlabDmaStatusBusy
  | none, .none => 0
  | none, .done => vlabDmaStatusDone
  | none, .failed _ => vlabDmaStatusError

/-- The ERR_CODE word. -/
def Mover.errCode (v : Mover) : Word :=
  match v.ended with
  | .failed code => code
  | _ => 0

/-- Empty, with nothing under way. -/
def Mover.empty : Mover := ⟨JobStore.empty, none, .none⟩

/-- What a client does.  It stores and loads words, steps the host, and may touch other
registers; tests inject errors and reboot. -/
inductive PollOp
  | start (src dst len : Word) (irqEnable : Int)
  | step (n : Word)
  | status
  | errCode
  | clear
  | store (addr value : Word)
  | load (addr : Word)
  | touch (addr : Word)
  | testError (code : Word)
  | boot

/-- What it gets back. -/
inductive PollOutcome
  | quiet
  | accepted
  | busy
  | rejected
  | read (w : Word)
  deriving DecidableEq

/-- The operations on the mover; `cost` is the ticks a transfer takes by its length. -/
def Mover.run (cost : Word → ℕ) (v : Mover) : PollOp → PollOutcome × Mover
  | .start src dst len _ =>
    if v.flight.isSome then (.busy, v)
    else if VlabValid src dst len then
      (.accepted, { v with flight := some ⟨src, dst, len, cost len⟩, ended := .none })
    else (.rejected, v)
  | .step n => (.quiet, Mover.tick^[n.toNat] v)
  | .status => (.read v.status, v)
  | .errCode => (.read v.errCode, v)
  | .clear => (.quiet, { v with ended := .none })
  | .store addr value =>
    (.quiet,
      if addr.toNat % 4 = 0 ∧ InWindow vlabSramBase 65536 addr then
        { v with store := { v.store with mem := v.store.mem.store addr.toNat value } }
      else v)
  | .load addr => (.read (v.store.mem.word addr.toNat), v)
  | .touch _ => (.quiet, v)
  | .testError code => (.quiet, { v with flight := none, ended := .failed code })
  | .boot => (.quiet, Mover.empty)

/-- The mover after an operation. -/
def Mover.step (cost : Word → ℕ) (v : Mover) (o : PollOp) : Mover := (v.run cost o).2

/-- Writes stay away from the UART and from the DMA registers, loads inside the SRAM, and
RXDATA is not read. -/
def PollOp.fits : PollOp → Prop
  | .store addr _ => addr ∉ dmaRegs ∧ ¬ InWindow vlabUartBase 4096 addr
  | .load addr => addr.toNat % 4 = 0 ∧ InWindow vlabSramBase 65536 addr
  | .touch addr => addr ≠ vlabUartRxdata
  | _ => True

/-! ### The driver's operations -/

def startOutcome : DmaRc → PollOutcome
  | .ok => .accepted
  | .errBusy => .busy
  | _ => .rejected

def pollRun (p : Platform) : PollOp → PollOutcome × Platform
  | .start src dst len irqEnable =>
    let r := dmaStart p src dst len irqEnable
    (startOutcome r.1, r.2)
  | .step n => (.quiet, socHostStep p n)
  | .status =>
    let r := dmaStatus p
    (.read r.1, r.2)
  | .errCode =>
    let r := dmaErrCode p
    (.read r.1, r.2)
  | .clear => (.quiet, dmaClear p)
  | .store addr value => (.quiet, vlabMmioWrite p addr value)
  | .load addr =>
    let r := vlabMmioRead p addr
    (.read r.1, r.2)
  | .touch addr => (.quiet, (vlabMmioRead p addr).2)
  | .testError code => (.quiet, vlabTestDmaError p code)
  | .boot => (.quiet, socHostBoot p)

/-- The client's host after an operation. -/
def pollStep (p : Platform) (o : PollOp) : Platform := (pollRun p o).2

/-! ### The engine as a mover -/

def SocDma.flight (d : SocDma DmaCtx) : Option Flight :=
  if d.busy then some ⟨d.src, d.dst, d.length, d.remaining.toNat⟩ else none

def SocDma.ended (d : SocDma DmaCtx) : TransferEnd :=
  if d.done then .done else if d.error then .failed d.errCode else .none

/-- The mover a SoC holds. -/
def Soc.mover (s : Soc) : Mover := ⟨s.store, s.dma.flight, s.dma.ended⟩

theorem Soc.mover_flight (s : Soc) : s.mover.flight.isSome = s.dma.busy := by
  show s.dma.flight.isSome = s.dma.busy
  rw [SocDma.flight]
  cases s.dma.busy <;> rfl

theorem Soc.mover_congr {s t : Soc} (hstore : t.store = s.store) (hdma : t.dma = s.dma) :
    t.mover = s.mover := by
  rw [Soc.mover, hstore, hdma]
  rfl

/-- What a polled engine is like at any time. -/
structure PolledEngine (c : SocConfig) (d : SocDma DmaCtx) : Prop where
  cfg : d.cfg = vlabDmaConfig c
  unstuck : d.faultStuckBusy = false
  moving : d.busy = true → Moving d.irqEnableLatched d ∧ 1 ≤ d.remaining
  ended : d.done = true → d.error = false
  code : d.error = false → d.errCode = 0

/-- At rest nothing is asked of the descriptor. -/
theorem PolledEngine.of_rest {d : SocDma DmaCtx} (hcfg : d.cfg = vlabDmaConfig c)
    (hstuck : d.faultStuckBusy = false) (hbusy : d.busy = false)
    (hended : d.done = true → d.error = false) (hcode : d.error = false → d.errCode = 0) :
    PolledEngine c d :=
  ⟨hcfg, hstuck, fun hno => absurd (hbusy.symm.trans hno) Bool.false_ne_true, hended, hcode⟩

theorem PolledEngine.counted {d : SocDma DmaCtx} (h : PolledEngine c d) (hrem : 1 < d.remaining) :
    PolledEngine c { d with remaining := d.remaining - 1 } where
  cfg := h.cfg
  unstuck := h.unstuck
  moving := fun hbusy => by
    obtain ⟨hm, -⟩ := h.moving hbusy
    have hpos : 1 ≤ d.remaining - 1 := by omega
    exact ⟨⟨hm.busy, hm.done, hm.error, hm.latched, hm.valid⟩, hpos⟩
  ended := h.ended
  code := h.code

theorem PolledEngine.status {d : SocDma DmaCtx} (h : PolledEngine c d) (st : JobStore) :
    socDmaStatus d = Mover.status ⟨st, d.flight, d.ended⟩ := by
  unfold socDmaStatus Mover.status SocDma.flight SocDma.ended
  cases hbusy : d.busy with
  | true =>
    obtain ⟨hm, -⟩ := h.moving hbusy
    rw [hm.done, hm.error]
    rfl
  | false =>
    cases hdone : d.done with
    | true =>
      rw [h.ended hdone]
      rfl
    | false => cases d.error <;> rfl

theorem PolledEngine.errCode {d : SocDma DmaCtx} (h : PolledEngine c d) (st : JobStore) :
    d.errCode = Mover.errCode ⟨st, d.flight, d.ended⟩ := by
  unfold Mover.errCode SocDma.ended
  cases hdone : d.done with
  | true => exact h.code (h.ended hdone)
  | false =>
    cases herror : d.error with
    | true => rfl
    | false => exact h.code herror

theorem PolledEngine.cleared {d : SocDma DmaCtx} (h : PolledEngine c d) :
    PolledEngine c d.cleared where
  cfg := h.cfg
  unstuck := h.unstuck
  moving := fun hbusy => by
    obtain ⟨hm, hpos⟩ := h.moving hbusy
    exact ⟨⟨hm.busy, rfl, rfl, hm.latched, hm.valid⟩, hpos⟩
  ended := fun _ => rfl
  code := fun _ => rfl

theorem PolledEngine.submitted {d : SocDma DmaCtx} (h : PolledEngine c d) {src dst len : Word}
    (hvalid : VlabValid src dst len) (irqEnable : Int) :
    PolledEngine c (d.submitted src dst len irqEnable) where
  cfg := h.cfg
  unstuck := h.unstuck
  moving := fun _ => ⟨⟨rfl, rfl, rfl, rfl, hvalid⟩, socDmaCountdown_pos d.cfg len⟩
  ended := fun _ => rfl
  code := fun _ => rfl

/-! ### Ticks -/

/-- The engine polled, and a UART that sends nothing. -/
structure PolledSoc (c : SocConfig) (s : Soc) : Prop where
  wired : SocWired s
  engine : PolledEngine c s.dma
  quiet : s.uart.busy = 0

theorem PolledSoc.of_eq (h : PolledSoc c s) {t : Soc} (hwired : SocWired t) (hdma : t.dma = s.dma)
    (huart : t.uart = s.uart) : PolledSoc c t :=
  ⟨hwired, hdma ▸ h.engine, huart ▸ h.quiet⟩

/-- The front of a tick touches neither streams nor memory. -/
theorem PolledSoc.front (h : PolledSoc c s) :
    (socTickFront s).uart = s.uart ∧ (socTickFront s).store = s.store := by
  have huart : (socTickFront s).uart = s.uart := by
    show (socUartStep s.uart).1 = s.uart
    rw [socUartStep_quiet h.quiet]
  exact ⟨huart, Soc.store_congr rfl huart⟩

theorem PolledSoc.tick_idle (h : PolledSoc c s) (hidle : s.dma.busy = false) :
    PolledSoc c (socTick s) ∧ (socTick s).mover = s.mover := by
  obtain ⟨huart, hstore⟩ := h.front
  have htick : socTick s = socTickFront s := socTickDma_idle (Or.inl hidle)
  rw [htick]
  exact ⟨h.of_eq h.wired.tickFront rfl huart, Soc.mover_congr hstore rfl⟩

theorem PolledSoc.tick_count (h : PolledSoc c s) (hbusy : s.dma.busy = true)
    (hrem : 1 < s.dma.remaining) :
    PolledSoc c (socTick s) ∧
      (socTick s).mover = { s.mover with
        flight := some ⟨s.dma.src, s.dma.dst, s.dma.length, s.dma.remaining.toNat - 1⟩ } := by
  obtain ⟨huart, hstore⟩ := h.front
  have hwired := h.wired.tick
  have htick : socTick s = { socTickFront s with
      dma := { s.dma with remaining := s.dma.remaining - 1 } } :=
    socTickDma_count (s := socTickFront s) hbusy h.engine.unstuck hrem
  have hleft : (s.dma.remaining - 1).toNat = s.dma.remaining.toNat - 1 := by omega
  rw [htick] at hwired ⊢
  refine ⟨⟨hwired, h.engine.counted hrem, ?_⟩, ?_⟩
  · show (socTickFront s).uart.busy = 0
    rw [huart]
    exact h.quiet
  · show Mover.mk (socTickFront s).store (SocDma.flight { s.dma with remaining := _ }) _ = _
    rw [hstore, SocDma.flight, if_pos hbusy]
    dsimp only
    rw [hleft]
    rfl

theorem PolledSoc.tick_last (h : PolledSoc c s) (hbusy : s.dma.busy = true)
    (hrem : s.dma.remaining ≤ 1) :
    PolledSoc c (socTick s) ∧
      (socTick s).mover =
        ⟨s.store.move s.dma.src s.dma.dst s.dma.length, none, .done⟩ := by
  obtain ⟨hm, hpos⟩ := h.engine.moving hbusy
  obtain ⟨hdma, -, -, hquiet, hstore⟩ := h.wired.job_flight hm h.engine.unstuck h.quiet hpos
  rw [show s.dma.remaining.toNat = 1 by omega, Function.iterate_one] at hdma hquiet hstore
  refine ⟨⟨h.wired.tick, ?_, hquiet⟩, ?_⟩
  · rw [hdma]
    exact PolledEngine.of_rest h.engine.cfg h.engine.unstuck rfl (fun _ => rfl)
      fun _ => h.engine.code hm.error
  · rw [Soc.mover, hstore, hdma]
    rfl

/-- A tick of the SoC is one of the mover: the engine idles, counts or ends its transfer. -/
theorem PolledSoc.tick (h : PolledSoc c s) :
    PolledSoc c (socTick s) ∧ (socTick s).mover = s.mover.tick := by
  cases hbusy : s.dma.busy with
  | false =>
    have hflight : s.mover.flight = none := if_neg (by rw [hbusy]; exact Bool.false_ne_true)
    rw [Mover.tick, hflight]
    exact h.tick_idle hbusy
  | true =>
    have hflight : s.mover.flight =
        some ⟨s.dma.src, s.dma.dst, s.dma.length, s.dma.remaining.toNat⟩ := if_pos hbusy
    rw [Mover.tick, hflight]
    dsimp only
    by_cases hlast : s.dma.remaining ≤ 1
    · rw [if_pos (by omega)]
      exact h.tick_last hbusy hlast
    · rw [if_neg (by omega)]
      exact h.tick_count hbusy (by omega)

theorem PolledSoc.ticks (h : PolledSoc c s) (k : ℕ) :
    PolledSoc c (socTick^[k] s) ∧ (socTick^[k] s).mover = Mover.tick^[k] s.mover := by
  induction k generalizing s with
  | zero => exact ⟨h, rfl⟩
  | succ k ih =>
    obtain ⟨hnext, hmover⟩ := h.tick
    rw [Function.iterate_succ_apply, Function.iterate_succ_apply, ← hmover]
    exact ih hnext

/-! ### One operation -/

/-- The host between two operations. -/
structure Polled (c : SocConfig) (p : Platform) : Prop where
  inited : p.gInited = true
  tables : VlabTables p.dma
  soc : PolledSoc c p.gSoc

theorem Polled.live (h : Polled c p) : Live p := ⟨h.inited, h.soc.wired⟩

/-- `dma_start` by the outcome of its checks. -/
theorem dmaStart_cases (h : Live p) (ht : VlabTables p.dma) (src dst len : Word)
    (irqEnable : Int) :
    (p.gSoc.dma.busy = true ∧ ∃ perf, dmaStart p src dst len irqEnable =
      (.errBusy, { p with gSoc := { p.gSoc with perf := perf } })) ∨
    (p.gSoc.dma.busy = false ∧ ¬ VlabValid src dst len ∧ ∃ rc perf, rc ≠ .ok ∧ rc ≠ .errBusy ∧
      dmaStart p src dst len irqEnable =
        (rc, { p with gSoc := { p.gSoc with perf := perf } })) ∨
    (p.gSoc.dma.busy = false ∧ VlabValid src dst len ∧ ∃ perf, dmaStart p src dst len irqEnable =
      (.ok, { p with gSoc := { p.gSoc with
        dma := p.gSoc.dma.submitted src dst len irqEnable, perf := perf } })) := by
  obtain ⟨hok, hnobusy⟩ := ht.validate_ok src dst len
  rw [dmaStart, validate_eq h.inited h.wired.regions h.wired.nRegions]
  dsimp only
  cases hbusy : p.gSoc.dma.busy with
  | true =>
    rw [if_pos rfl, if_pos (by decide)]
    exact Or.inl ⟨rfl, _, rfl⟩
  | false =>
    rw [if_neg Bool.false_ne_true]
    by_cases hvalid : VlabValid src dst len
    · rw [if_neg (not_not.mpr (hok.mpr hvalid))]
      obtain ⟨perf, hprogram⟩ := dmaProgram_eq
        (p := { p with gSoc := { p.gSoc with perf := socPerfCountMem p.gSoc.perf } })
        ⟨h.inited, h.wired.countMem⟩ hbusy hvalid irqEnable
      rw [hprogram]
      exact Or.inr (Or.inr ⟨rfl, hvalid, perf, rfl⟩)
    · have hne := hok.not.mpr hvalid
      rw [if_pos hne]
      exact Or.inr (Or.inl ⟨rfl, hvalid, _, _, hne, hnobusy, rfl⟩)

theorem Polled.countMem (h : Polled c p) (perf : SocPerf) :
    Polled c { p with gSoc := { p.gSoc with perf := perf } } :=
  ⟨h.inited, h.tables, h.soc.of_eq (h.soc.wired.of_eq rfl rfl rfl rfl rfl rfl) rfl rfl⟩

theorem Polled.start (h : Polled c p) (src dst len : Word) (irqEnable : Int) :
    let r := dmaStart p src dst len irqEnable
    Polled c r.2 ∧ (startOutcome r.1, r.2.gSoc.mover) =
      p.gSoc.mover.run (fun len => (socDmaCountdown (vlabDmaConfig c) len).toNat)
        (.start src dst len irqEnable) := by
  rw [Mover.run, Soc.mover_flight]
  rcases dmaStart_cases h.live h.tables src dst len irqEnable with
    ⟨hbusy, perf, heq⟩ | ⟨hidle, hno, rc, perf, hok, hnobusy, heq⟩ | ⟨hidle, hvalid, perf, heq⟩
  · rw [heq, if_pos hbusy]
    exact ⟨h.countMem perf, rfl⟩
  · have hrejected : startOutcome rc = .rejected := by cases rc <;> first | rfl | contradiction
    rw [heq, hidle, if_neg Bool.false_ne_true, if_neg hno]
    exact ⟨h.countMem perf, Prod.ext hrejected rfl⟩
  · rw [heq, hidle, if_neg Bool.false_ne_true, if_pos hvalid]
    refine ⟨⟨h.inited, h.tables, ⟨h.soc.wired.of_eq rfl rfl rfl rfl rfl rfl,
      h.soc.engine.submitted hvalid irqEnable, h.soc.quiet⟩⟩, Prod.ext rfl ?_⟩
    rw [← h.soc.engine.cfg]
    rfl

/-- A write outside the UART and the DMA registers stores a word in the SRAM or does nothing
to the mover. -/
theorem PolledSoc.write (h : PolledSoc c s) {addr : Word} (hdma : addr ∉ dmaRegs)
    (huart : ¬ InWindow vlabUartBase 4096 addr) (value : Word) :
    PolledSoc c (socWrite s addr value).soc ∧ (socWrite s addr value).soc.mover =
      if addr.toNat % 4 = 0 ∧ InWindow vlabSramBase 65536 addr then
        { s.mover with store := { s.store with mem := s.store.mem.store addr.toNat value } }
      else s.mover := by
  have hengine := socWrite_dma hdma s value
  have hquiet : (socWrite s addr value).soc.uart = s.uart := by
    rw [h.wired.write_uartEvents, uartEvents, if_neg fun hin => huart hin.2]
    rfl
  refine ⟨h.of_eq (h.wired.write addr value) hengine hquiet, ?_⟩
  split_ifs with hram
  · rw [Soc.mover, h.wired.store_word hram.1 hram.2, hengine]
    rfl
  · have hsram := h.wired.write_sram addr value
    rw [if_neg hram] at hsram
    exact Soc.mover_congr (Soc.store_congr hsram hquiet) hengine

/-- No read but that of RXDATA shows in the mover. -/
theorem PolledSoc.read (h : PolledSoc c s) {addr : Word} (hrx : addr ≠ vlabUartRxdata) (out : Word) :
    PolledSoc c (socRead s addr out).soc ∧ (socRead s addr out).soc.mover = s.mover := by
  have hquiet : (socRead s addr out).soc.uart = s.uart := by
    by_cases hack : addr = vlabIntcAck
    · rw [h.wired.read_uartEvents, hack]
      rfl
    · exact (uncounted_fields (socRead_uncounted hrx hack s out)).2.1
  have hengine := socRead_dma s addr out
  exact ⟨h.of_eq (h.wired.read addr out) hengine hquiet,
    Soc.mover_congr (Soc.store_congr (socRead_sram s addr out) hquiet) hengine⟩

theorem Polled.read (h : Polled c p) {addr : Word} (hrx : addr ≠ vlabUartRxdata) :
    Polled c (halReadReg p addr).2 ∧ (halReadReg p addr).2.gSoc.mover = p.gSoc.mover := by
  obtain ⟨hsoc, hmover⟩ := h.soc.read hrx 0
  rw [halReadReg_eq h.live]
  exact ⟨⟨h.inited, h.tables, hsoc⟩, hmover⟩

theorem Polled.hostStep (h : Polled c p) (n : Word) :
    Polled c (socHostStep p n) ∧
      (socHostStep p n).gSoc.mover = Mover.tick^[n.toNat] p.gSoc.mover := by
  obtain ⟨hsoc, hmover⟩ := h.soc.ticks n.toNat
  have heq : socHostStep p n = { p with gSoc := socTick^[n.toNat] p.gSoc } := by
    rw [socHostStep, h.live.ensure]
    rfl
  rw [heq]
  exact ⟨⟨h.inited, h.tables, hsoc⟩, hmover⟩

/-- An injected error stops the engine where it is. -/
theorem Polled.testError (h : Polled c p) (code : Word) :
    Polled c (vlabTestDmaError p code) ∧ (vlabTestDmaError p code).gSoc.mover =
      { p.gSoc.mover with flight := none, ended := .failed code } := by
  rw [vlabTestDmaError, if_pos h.inited]
  refine ⟨⟨h.inited, h.tables, ⟨h.soc.wired.of_eq rfl rfl rfl rfl rfl rfl, ?_, h.soc.quiet⟩⟩, rfl⟩
  exact PolledEngine.of_rest h.soc.engine.cfg h.soc.engine.unstuck rfl
    (fun hno => absurd hno Bool.false_ne_true) fun hno => absurd hno Bool.noConfusion

/-- A reboot leaves nothing under way and nothing stored. -/
theorem Polled.boot (h : Polled c p) :
    Polled c (socHostBoot p) ∧ (socHostBoot p).gSoc.mover = Mover.empty := by
  have hboot : socHostBoot p = { p with gSoc := socBoot p.gSoc none 0 } := by
    rw [socHostBoot, h.live.ensure]
  have hdma := socBoot_dma p.gSoc none 0
  rw [hboot]
  refine ⟨⟨h.inited, h.tables, ⟨h.soc.wired.boot none 0, ?_, ?_⟩⟩, ?_⟩
  · rw [hdma]
    exact PolledEngine.of_rest h.soc.engine.cfg rfl rfl (fun _ => rfl) fun _ => rfl
  · exact congrArg SocUart.busy (socBoot_uart p.gSoc none 0).1
  · rw [Soc.mover, h.soc.wired.boot_store, hdma]
    rfl

/-- The ticks of a transfer by its length. -/
def transferTicks (c : SocConfig) (len : Word) : ℕ := (socDmaCountdown (vlabDmaConfig c) len).toNat

/-- One operation of the client is one on the mover. -/
theorem Polled.run (h : Polled c p) {o : PollOp} (ho : o.fits) :
    Polled c (pollRun p o).2 ∧
      ((pollRun p o).1, (pollRun p o).2.gSoc.mover) = p.gSoc.mover.run (transferTicks c) o := by
  cases o with
  | start src dst len irqEnable => exact h.start src dst len irqEnable
  | step n =>
    obtain ⟨hp, hmover⟩ := h.hostStep n
    exact ⟨hp, Prod.ext rfl hmover⟩
  | status =>
    obtain ⟨hp, hmover⟩ := h.read (show vlabDmaStatus ≠ vlabUartRxdata by decide)
    have hword : (halReadReg p vlabDmaStatus).1 = p.gSoc.mover.status := by
      rw [h.live.read_status]
      exact h.soc.engine.status p.gSoc.store
    exact ⟨hp, Prod.ext (congrArg PollOutcome.read hword) hmover⟩
  | errCode =>
    obtain ⟨hp, hmover⟩ := h.read (show vlabDmaErrCode ≠ vlabUartRxdata by decide)
    have hword : (halReadReg p vlabDmaErrCode).1 = p.gSoc.mover.errCode := by
      rw [h.live.read_dmaReg (by decide)]
      exact h.soc.engine.errCode p.gSoc.store
    exact ⟨hp, Prod.ext (congrArg PollOutcome.read hword) hmover⟩
  | clear =>
    rw [pollRun, dmaClear_eq h.live]
    exact ⟨⟨h.inited, h.tables, ⟨h.soc.wired.of_eq rfl rfl rfl rfl rfl rfl, h.soc.engine.cleared,
      h.soc.quiet⟩⟩, rfl⟩
  | store addr value =>
    obtain ⟨hsoc, hmover⟩ := h.soc.write ho.1 ho.2 value
    have heq : vlabMmioWrite p addr value = _ := halWriteReg_eq h.live addr value
    rw [pollRun, heq]
    exact ⟨⟨h.inited, h.tables, hsoc⟩, Prod.ext rfl hmover⟩
  | load addr =>
    obtain ⟨hok, hout, -⟩ := h.soc.wired.load_word ho.1 ho.2 0
    have hrx : addr ≠ vlabUartRxdata := fun hrx => by
      have hlow := (sram_low ho.2).2
      rw [hrx] at hlow
      exact absurd hlow (by decide)
    obtain ⟨hp, hmover⟩ := h.read hrx
    have hword : (halReadReg p addr).1 = p.gSoc.store.mem.word addr.toNat := by
      rw [halReadReg_eq h.live, if_neg (not_not.mpr hok)]
      exact hout
    exact ⟨hp, Prod.ext (congrArg PollOutcome.read hword) hmover⟩
  | touch addr =>
    obtain ⟨hp, hmover⟩ := h.read ho
    exact ⟨hp, Prod.ext rfl hmover⟩
  | testError code =>
    obtain ⟨hp, hmover⟩ := h.testError code
    exact ⟨hp, Prod.ext rfl hmover⟩
  | boot =>
    obtain ⟨hp, hmover⟩ := h.boot
    exact ⟨hp, Prod.ext rfl hmover⟩

/-! ### From boot -/

/-- Host, boot and driver initialised. -/
def pollStart (gSoc : Soc) (cfg : Option SocConfig) : Platform :=
  dmaInit (socHostBoot (socHostInit (platformStart gSoc) cfg))

theorem pollStart_polled (gSoc : Soc) (cfg : Option SocConfig) :
    Polled (cfg.getD socConfigDefault) (pollStart gSoc cfg) ∧
      (pollStart gSoc cfg).gSoc.mover = Mover.empty := by
  set g := socInit gSoc (some (cfg.getD socConfigDefault)) with hg
  have hgw : SocWired g := socInit_wired _ _
  have hinit : Polled (cfg.getD socConfigDefault)
      (dmaInit { platformStart gSoc with gSoc := g, gInited := true }) :=
    ⟨rfl, dmaInit_tables _, ⟨hgw,
      PolledEngine.of_rest hgw.dma rfl rfl (fun _ => rfl) fun _ => rfl, rfl⟩⟩
  exact hinit.boot

/-- The driver polled is a mover.  From boot with any configuration, over any interleaving of
transfers started with any descriptors, ticks, polls of STATUS and ERR_CODE, clears, word
stores and loads, other register traffic, injected errors and reboots: every operation returns
what it returns on the mover, and SRAM, UART streams and engine are those of the mover. -/
theorem poll_refines (gSoc : Soc) (cfg : Option SocConfig) {ops : List PollOp}
    (hops : ∀ o ∈ ops, o.fits) :
    let cost := transferTicks (cfg.getD socConfigDefault)
    let p0 := pollStart gSoc cfg
    (Runs.stages pollStep p0 ops).map (fun x => (pollRun x.1 x.2).1) =
        (Runs.stages (Mover.step cost) Mover.empty ops).map (fun x => (x.1.run cost x.2).1) ∧
      (Runs.run pollStep p0 ops).gSoc.mover = Runs.run (Mover.step cost) Mover.empty ops := by
  intro cost p0
  obtain ⟨hpolled, hempty⟩ := pollStart_polled gSoc cfg
  obtain ⟨hanswers, hend⟩ := Runs.run_answers pollRun (Mover.run cost)
    (fun p : Platform => p.gSoc.mover) (P := Polled (cfg.getD socConfigDefault))
    (fun p o ho hp => (hp.run ho).1) (fun p o ho hp => (hp.run ho).2) hops hpolled
  rw [hempty] at hanswers hend
  exact ⟨hanswers, hend⟩

/-- The word that is moved is the one found at the last tick. -/
theorem poll_refines_late :
    let p0 := pollStart default none
    let ops := [PollOp.store vlabSramBase 0xCAFE, .start vlabSramBase (vlabSramBase + 8) 8 0,
      .step 1, .status, .store (vlabSramBase + 4) 0xBEEF, .start vlabSramBase vlabSramBase 4 0,
      .load (vlabSramBase + 12), .step 1, .status, .load (vlabSramBase + 12)]
    (Runs.stages pollStep p0 ops).map (fun x => (pollRun x.1 x.2).1) =
      [.quiet, .accepted, .quiet, .read vlabDmaStatusBusy, .quiet, .busy, .read 0, .quiet,
        .read vlabDmaStatusDone, .read 0xBEEF] := by
  intro p0 ops
  have hops : ∀ o ∈ ops, o.fits := by
    intro o ho
    simp only [ops, List.mem_cons, List.not_mem_nil, or_false] at ho
    rcases ho with rfl | rfl | rfl | rfl | rfl | rfl | rfl | rfl | rfl | rfl
    · exact ⟨by decide, by decide⟩
    · exact trivial
    · exact trivial
    · exact trivial
    · exact ⟨by decide, by decide⟩
    · exact trivial
    · exact ⟨by decide, by decide⟩
    · exact trivial
    · exact trivial
    · exact ⟨by decide, by decide⟩
  exact (poll_refines default none hops).1.trans (by decide +kernel)

/-! ### Polled jobs -/

/-- The end of a polled job: its status and error code, and the clear. -/
def pollOutcome (p : Platform) : JobOutcome × Platform :=
  let st := dmaStatus p
  let code := dmaErrCode st.2
  (if st.1 &&& vlabDmaStatusDone ≠ 0 then .done else .failed code.1, dmaClear code.2)

/-- A job that is started, waited for or hit by an error, and polled. -/
def pollJob (wait : Word) (p : Platform) (src dst len : Word) (fault : Option Word) :
    JobOutcome × Platform :=
  let r := dmaStart p src dst len 0
  if r.1 ≠ .ok then (.rejected, r.2)
  else
    match fault with
    | none => pollOutcome (socHostStep r.2 wait)
    | some code => pollOutcome (vlabTestDmaError r.2 code)

def pollJobOp (wait : Word) (p : Platform) : JobOp → JobOutcome × Platform
  | .store addr value => (.stored, vlabMmioWrite p addr value)
  | .load addr =>
    let r := vlabMmioRead p addr
    (.word r.1, r.2)
  | .job src dst len fault => pollJob wait p src dst len fault

/-- The client's host after an operation. -/
def pollJobStep (wait : Word) (p : Platform) (o : JobOp) : Platform := (pollJobOp wait p o).2

theorem Mover.ticks_idle {v : Mover} (h : v.flight = none) (k : ℕ) : Mover.tick^[k] v = v := by
  refine Function.iterate_fixed ?_ k
  rw [Mover.tick, h]

theorem Mover.run_start {v : Mover} (h : v.flight = none) (cost : Word → ℕ) (src dst len : Word)
    (irqEnable : Int) :
    v.run cost (.start src dst len irqEnable) =
      if VlabValid src dst len then
        (.accepted, ⟨v.store, some ⟨src, dst, len, cost len⟩, .none⟩)
      else (.rejected, v) := by
  rw [Mover.run, h]
  rfl

/-- Enough ticks carry the transfer out. -/
theorem Mover.ticks_land {v : Mover} {f : Flight} (h : v.flight = some f) {k : ℕ} (hpos : 0 < k)
    (hk : f.left ≤ k) :
    Mover.tick^[k] v = ⟨v.store.move f.src f.dst f.len, none, .done⟩ := by
  induction k generalizing v f with
  | zero => exact absurd hpos (Nat.lt_irrefl 0)
  | succ k ih =>
    rw [Function.iterate_succ_apply]
    by_cases hlast : f.left ≤ 1
    · have htick : v.tick = ⟨v.store.move f.src f.dst f.len, none, .done⟩ := by
        rw [Mover.tick, h]
        exact if_pos hlast
      rw [htick]
      exact Mover.ticks_idle rfl k
    · have htick : v.tick = { v with flight := some { f with left := f.left - 1 } } := by
        rw [Mover.tick, h]
        exact if_neg hlast
      rw [htick]
      exact ih (f := { f with left := f.left - 1 }) rfl (by omega)
        (show f.left - 1 ≤ k by omega)

/-- The polls of a transfer that is over, and the clear. -/
theorem Polled.outcome (h : Polled c p) {v : Mover} (hv : p.gSoc.mover = v) :
    let r := pollOutcome p
    Polled c r.2 ∧ r.2.gSoc.mover = { v with ended := .none } ∧
      r.1 = if v.status &&& vlabDmaStatusDone ≠ 0 then .done else .failed v.errCode := by
  intro r
  obtain ⟨h1, heq1⟩ := h.run (o := .status) trivial
  obtain ⟨hstatus, hsame1⟩ := Prod.mk.inj heq1
  obtain ⟨h2, heq2⟩ := h1.run (o := .errCode) trivial
  obtain ⟨hcode, hsame2⟩ := Prod.mk.inj heq2
  obtain ⟨h3, heq3⟩ := h2.run (o := .clear) trivial
  have hword : (dmaStatus p).1 = v.status := by
    rw [← hv]
    exact PollOutcome.read.inj hstatus
  have herr : (dmaErrCode (dmaStatus p).2).1 = v.errCode := by
    rw [← hv, ← hsame1]
    exact PollOutcome.read.inj hcode
  refine ⟨h3, ?_, ?_⟩
  · rw [← hv, ← hsame1, ← hsame2]
    exact congrArg Prod.snd heq3
  · show (if (dmaStatus p).1 &&& vlabDmaStatusDone ≠ 0 then JobOutcome.done
      else .failed (dmaErrCode (dmaStatus p).2).1) = _
    rw [hword, herr]

theorem startOutcome_accepted {rc : DmaRc} : startOutcome rc = .accepted ↔ rc = .ok := by
  cases rc <;> simp [startOutcome]

/-- A polled job, from a host with nothing under way, is one on the store. -/
theorem Polled.job (h : Polled c p) (hrest : p.gSoc.mover.flight = none) {wait : Word}
    (src dst len : Word) {fault : Option Word} (hpos : 0 < wait.toNat)
    (hwait : fault = none → VlabValid src dst len → transferTicks c len ≤ wait.toNat) :
    let r := pollJob wait p src dst len fault
    (Polled c r.2 ∧ r.2.gSoc.mover.flight = none) ∧
      (r.1, r.2.gSoc.store) = p.gSoc.store.job src dst len fault := by
  obtain ⟨h1, heq⟩ := h.run (o := .start src dst len 0) trivial
  rw [Mover.run_start hrest] at heq
  rw [pollJob.eq_def, JobStore.job.eq_def]
  dsimp only [pollRun] at h1 heq ⊢
  generalize dmaStart p src dst len 0 = r0 at h1 heq ⊢
  by_cases hvalid : VlabValid src dst len
  swap
  · -- rejected
    rw [if_neg hvalid] at heq ⊢
    obtain ⟨hrc, hmover⟩ := Prod.mk.inj heq
    have hne : r0.1 ≠ .ok := fun hok => by
      rw [startOutcome_accepted.mpr hok] at hrc
      exact PollOutcome.noConfusion hrc
    rw [if_pos hne]
    exact ⟨⟨h1, (congrArg Mover.flight hmover).trans hrest⟩,
      Prod.ext rfl (congrArg Mover.store hmover)⟩
  rw [if_pos hvalid] at heq ⊢
  obtain ⟨hrc, hmover⟩ := Prod.mk.inj heq
  rw [if_neg (not_not.mpr (startOutcome_accepted.mp hrc))]
  cases fault with
  | none =>
    obtain ⟨h2, hland⟩ := h1.hostStep wait
    rw [hmover, Mover.ticks_land rfl hpos (hwait rfl hvalid)] at hland
    obtain ⟨h3, hend, hout⟩ := h2.outcome hland
    have hdone : vlabDmaStatusDone &&& vlabDmaStatusDone ≠ 0 := by decide
    exact ⟨⟨h3, congrArg Mover.flight hend⟩,
      Prod.ext (hout.trans (if_pos hdone)) (congrArg Mover.store hend)⟩
  | some code =>
    obtain ⟨h2, hfail⟩ := h1.testError code
    rw [hmover] at hfail
    obtain ⟨h3, hend, hout⟩ := h2.outcome hfail
    have hdone : ¬ (vlabDmaStatusError &&& vlabDmaStatusDone ≠ 0) := by decide
    exact ⟨⟨h3, congrArg Mover.flight hend⟩,
      Prod.ext (hout.trans (if_neg hdone)) (congrArg Mover.store hend)⟩

/-- One operation of the polling client is one on the store. -/
theorem Polled.jobOp (h : Polled c p) (hrest : p.gSoc.mover.flight = none) {wait : Word}
    (hwait : 100000 ≤ wait.toNat) {o : JobOp} (ho : o.fits c) :
    let r := pollJobOp wait p o
    (Polled c r.2 ∧ r.2.gSoc.mover.flight = none) ∧
      (r.1, r.2.gSoc.store) = p.gSoc.store.run o := by
  cases o with
  | store addr value =>
    obtain ⟨haddr, hwin⟩ := ho
    have hlow := (sram_low hwin).2
    have hengine : addr ∉ dmaRegs := fun hmem => by
      simp only [dmaRegs, List.mem_cons, List.not_mem_nil, or_false] at hmem
      rcases hmem with rfl | rfl | rfl | rfl | rfl <;> exact absurd hlow (by decide)
    have huart : ¬ InWindow vlabUartBase 4096 addr := fun hin =>
      absurd hlow (Nat.not_lt.mpr hin.1)
    obtain ⟨h1, heq⟩ := h.run (o := .store addr value) ⟨hengine, huart⟩
    have hmover : (vlabMmioWrite p addr value).gSoc.mover = _ := congrArg Prod.snd heq
    dsimp only [Mover.run] at hmover
    rw [if_pos ⟨haddr, hwin⟩] at hmover
    exact ⟨⟨h1, (congrArg Mover.flight hmover).trans hrest⟩,
      Prod.ext rfl (congrArg Mover.store hmover)⟩
  | load addr =>
    obtain ⟨h1, heq⟩ := h.run (o := .load addr) ho
    obtain ⟨hword, hmover⟩ := Prod.mk.inj heq
    exact ⟨⟨h1, (congrArg Mover.flight hmover).trans hrest⟩,
      Prod.ext (congrArg JobOutcome.word (PollOutcome.read.inj hword)) (congrArg Mover.store hmover)⟩
  | job src dst len fault =>
    refine h.job hrest src dst len (by omega) fun hno hvalid => ?_
    have hfits := ho hno hvalid
    unfold transferTicks
    omega

/-- Polling and interrupts agree.  For every sequence of word stores and loads in the SRAM and
of jobs with any descriptors, hit by errors or not, the driver that is polled and the one that
is served by `dma_isr` return the same at every operation and leave the same SRAM and the same
UART streams, whatever the latencies of the two systems, as long as the valid jobs end within
the wait on both. -/
theorem polled_jobs_agree {A : Type} (gSoc gSoc' : Soc) (cfg cfg' : Option SocConfig) {mask : Word}
    (hmask : mask.getLsbD socIrqDma = true) (app : A) {isr : Isr A}
    (hisr : isr.ServesDma noCalls) {wait : Word} (hwait : 100000 ≤ wait.toNat) {ops : List JobOp}
    (hops : ∀ o ∈ ops, o.fits (cfg.getD socConfigDefault))
    (hops' : ∀ o ∈ ops, o.fits (cfg'.getD socConfigDefault)) :
    let m0 := jobsStart gSoc cfg mask app isr
    let p0 := pollStart gSoc' cfg'
    (Runs.stages jobStep m0 ops).map (fun x => (runOp x.1 x.2).1) =
        (Runs.stages (pollJobStep wait) p0 ops).map (fun x => (pollJobOp wait x.1 x.2).1) ∧
      (Runs.run jobStep m0 ops).platform.gSoc.store =
        (Runs.run (pollJobStep wait) p0 ops).gSoc.store := by
  intro m0 p0
  obtain ⟨hready, hstore, -⟩ := jobsStart_ready gSoc cfg hmask app isr
  obtain ⟨hanswers, hend, -⟩ := hready.runs hisr hops
  rw [hstore] at hanswers hend
  obtain ⟨hpolled, hempty⟩ := pollStart_polled gSoc' cfg'
  have hrest : p0.gSoc.mover.flight = none := congrArg Mover.flight hempty
  have hstore' : p0.gSoc.store = JobStore.empty := congrArg Mover.store hempty
  obtain ⟨hanswers', hend'⟩ := Runs.run_answers (pollJobOp wait) JobStore.run
    (fun p : Platform => p.gSoc.store)
    (P := fun p => Polled (cfg'.getD socConfigDefault) p ∧ p.gSoc.mover.flight = none)
    (fun p o ho hp => (hp.1.jobOp hp.2 hwait ho).1)
    (fun p o ho hp => (hp.1.jobOp hp.2 hwait ho).2) hops' ⟨hpolled, hrest⟩
  rw [hstore'] at hanswers' hend'
  exact ⟨hanswers.trans hanswers'.symm, hend.trans hend'.symm⟩

/-- A word copied and a job hit by an error, on a system with slow words and one without. -/
theorem polled_jobs_agree_slow :
    let ops := [JobOp.store vlabSramBase 0xCAFE, .job vlabSramBase (vlabSramBase + 8) 4 none,
      .job vlabSramBase (vlabSramBase + 12) 4 (some 3), .load (vlabSramBase + 8)]
    let slow : SocConfig := { socConfigDefault with dmaLatencyPerWordTicks := 9 }
    (Runs.stages jobStep (jobsStart default (some slow) 4 () isrDma) ops).map
        (fun x => (runOp x.1 x.2).1) =
      (Runs.stages (pollJobStep 100000) (pollStart default none) ops).map
        (fun x => (pollJobOp 100000 x.1 x.2).1) := by
  intro ops slow
  have hserves : isrDma.ServesDma noCalls := isrRegister_serves (by decide) (by simp [isrStart])
  have hops : ∀ cfg, cfg = some slow ∨ cfg = none →
      ∀ o ∈ ops, o.fits (cfg.getD socConfigDefault) := by
    intro cfg hcfg o ho
    simp only [ops, List.mem_cons, List.not_mem_nil, or_false] at ho
    rcases ho with rfl | rfl | rfl | rfl
    · exact ⟨by decide, by decide⟩
    · rcases hcfg with rfl | rfl <;> exact fun _ _ => by decide
    · exact fun h => absurd h (by decide)
    · exact ⟨by decide, by decide⟩
  exact (polled_jobs_agree default default (some slow) none (by decide) () hserves (by decide)
    (hops _ (Or.inl rfl)) (hops _ (Or.inr rfl))).1

end VlabSoc
