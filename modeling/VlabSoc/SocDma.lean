/-
The DMA engine (soc_dma.c).

The engine reaches memory and FIFOs only through the reader and writer callbacks
it is given, so it is modelled over any context `M` they work on.  What
`soc_dma_init` fixes for the life of the engine is a `SocDmaConfig`.

* `socDmaStartCheck` — the checks of `soc_dma_start`, as the code handed to
  `soc_dma_fail`; `socDmaStart_busy`, `socDmaStart_fail` and `socDmaStart_ok` are
  its three exits;
* `socDmaStep_idle`, `socDmaStep_count`, `socDmaStep_complete` — one tick;
* `socDmaComplete_eq` — the completing tick, by the answers of the two callbacks.

`malloc` is taken to succeed.
-/
import VlabSoc.SocIntc

namespace VlabSoc

abbrev socDmaErrNone : Word := 0
abbrev socDmaErrAddr : Word := 1
abbrev socDmaErrAlign : Word := 2
abbrev socDmaErrLen : Word := 3
abbrev socDmaErrUnsupported : Word := 4

abbrev socDmaCtrlStart : Word := 0x1
abbrev socDmaCtrlIrqEnable : Word := 0x2

/-- What a reader callback returns: its code, the filled buffer, its context. -/
structure DmaRead (M : Type) where
  rc : SocRc
  out : Buf Byte
  ctx : M

/-- What a writer callback returns. -/
structure DmaWrite (M : Type) where
  rc : SocRc
  ctx : M

/-- `soc_dma_reader_t`: context, address, length, buffer to fill. -/
abbrev SocDmaReader (M : Type) := M → Word → Word → Buf Byte → DmaRead M

/-- `soc_dma_writer_t`: context, address, payload, length. -/
abbrev SocDmaWriter (M : Type) := M → Word → Buf Byte → Word → DmaWrite M

/-- The fields of `soc_dma_t` that `soc_dma_init` sets for good. -/
structure SocDmaConfig (M : Type) where
  latencyPerWord : Word
  burst : Word
  regions : Option (List MemoryRegion)
  nRegions : Word
  periphEps : Option (List DmaPeriphEp)
  nPeriphEps : Word
  caps : DmaCaps
  irqLine : Int
  reader : Option (SocDmaReader M)
  writer : Option (SocDmaWriter M)
  deriving Inhabited

/-- `soc_dma_t` -/
structure SocDma (M : Type) where
  cfg : SocDmaConfig M
  src : Word
  dst : Word
  length : Word
  ctrl : Word
  busy : Bool
  done : Bool
  error : Bool
  errCode : Word
  remaining : Int
  irqEnableLatched : Bool
  faultStuckBusy : Bool
  deriving Inhabited

/-- Strict endpoint classes: 0 memory, 1 peripheral, -1 unmapped or overflowing,
-2 mapped but not DMA-capable.  Without a table, the legacy classification. -/
def socEndpointClass (regions : Option (List MemoryRegion)) (n : Word)
    (eps : Option (List DmaPeriphEp)) (nEps addr len : Word) : Int :=
  if eps.isSome ∨ 0 < nEps then
    if (dmaPeriphFind eps nEps addr).isSome then 1
    else
      match findRegion regions n addr len with
      | none => -1
      | some r => if r.type = .sram ∨ r.type = .dram then 0 else -2
  else dmaEndpointType regions n addr len

variable {M : Type}

def socDmaInit (latencyPerWord burst : Word) (regions : Option (List MemoryRegion))
    (nRegions : Word) (periphEps : Option (List DmaPeriphEp)) (nPeriphEps : Word)
    (caps : Option DmaCaps) (irqLine : Int) (reader : Option (SocDmaReader M))
    (writer : Option (SocDmaWriter M)) : SocDma M where
  cfg :=
    { latencyPerWord := if 0 < latencyPerWord then latencyPerWord else 1
      burst := if 0 < burst then burst else 1
      regions := regions
      nRegions := nRegions
      periphEps := periphEps
      nPeriphEps := if periphEps.isSome then nPeriphEps else 0
      caps := caps.getD
        { alignment := 4, maxTransfer := 0, supportsRamToRam := true
          supportsMemToPeriph := false, supportsPeriphToMem := false }
      irqLine := irqLine
      reader := reader
      writer := writer }
  src := 0
  dst := 0
  length := 0
  ctrl := 0
  busy := false
  done := false
  error := false
  errCode := socDmaErrNone
  remaining := 0
  irqEnableLatched := false
  faultStuckBusy := false

def socDmaReset (d : SocDma M) : SocDma M :=
  { d with
    src := 0, dst := 0, length := 0, ctrl := 0, busy := false, done := false, error := false
    errCode := socDmaErrNone, remaining := 0, irqEnableLatched := false, faultStuckBusy := false }

/-- The STATUS word. -/
def socDmaStatus (d : SocDma M) : Word :=
  (if d.busy then 0x1 else 0) ||| (if d.done then 0x2 else 0) ||| (if d.error then 0x4 else 0)

def socDmaRead (d : SocDma M) (offset out : Word) : SocRc × Word :=
  match offset with
  | 0x00 => (.ok, d.src)
  | 0x04 => (.ok, d.dst)
  | 0x08 => (.ok, d.length)
  | 0x0C => (.ok, d.ctrl)
  | 0x10 => (.ok, socDmaStatus d)
  | 0x18 => (.ok, d.errCode)
  | _ => (.errBus, out)

/-- Effect of an engine operation on the engine and the PERF block, with the
interrupt lines it raises. -/
structure DmaOut (M : Type) where
  dma : SocDma M
  perf : SocPerf
  raises : List Int

/-- The raise at the end of a transfer, if it was enabled at its START. -/
def SocDma.irq (d : SocDma M) : List Int := if d.irqEnableLatched then [d.cfg.irqLine] else []

def socDmaFail (d : SocDma M) (perf : SocPerf) (code : Word) : DmaOut M where
  dma := { d with busy := false, done := false, error := true, errCode := code }
  perf := perf
  raises := d.irq

/-- The checks of `soc_dma_start` on a descriptor, in their order: the code of
the first that fails. -/
def socDmaStartCheck (c : SocDmaConfig M) (src dst length : Word) : Option Word :=
  let align := if 1 < c.caps.alignment then c.caps.alignment else 1
  if length = 0 ∨ (1 < align ∧ length % align ≠ 0) then some socDmaErrLen
  else if 1 < align ∧ (src % align ≠ 0 ∨ dst % align ≠ 0) then some socDmaErrAlign
  else if c.caps.maxTransfer ≠ 0 ∧ c.caps.maxTransfer < length then some socDmaErrUnsupported
  else
    let srcType := socEndpointClass c.regions c.nRegions c.periphEps c.nPeriphEps src length
    let dstType := socEndpointClass c.regions c.nRegions c.periphEps c.nPeriphEps dst length
    if srcType < 0 ∨ dstType < 0 then
      some (if srcType = -1 ∨ dstType = -1 then socDmaErrAddr else socDmaErrUnsupported)
    else if (c.periphEps.isSome ∨ 0 < c.nPeriphEps) ∧
        ((∃ e ∈ dmaPeriphFind c.periphEps c.nPeriphEps src, e.roles &&& dmaEpSrc = 0) ∨
          ∃ e ∈ dmaPeriphFind c.periphEps c.nPeriphEps dst, e.roles &&& dmaEpDst = 0) then
      some socDmaErrUnsupported
    else if dmaDirectionSupported (some c.caps) srcType dstType = false then
      some socDmaErrUnsupported
    else none

/-- The countdown of an accepted transfer, `uint32_t` arithmetic read as
`int32_t`. -/
def socDmaCountdown (c : SocDmaConfig M) (length : Word) : Int :=
  let words := (length + 3) / 4
  let bursts := (words + c.burst - 1) / c.burst
  let remaining := (words * c.latencyPerWord + (bursts - 1)).toInt
  if remaining < 1 then 1 else remaining

def socDmaStart (d : SocDma M) (perf : SocPerf) (irqEnable : Bool) : DmaOut M :=
  if d.busy then ⟨d, socPerfCountStall perf 1, []⟩
  else
    let d := { d with
      irqEnableLatched := irqEnable, done := false, error := false, errCode := socDmaErrNone }
    match socDmaStartCheck d.cfg d.src d.dst d.length with
    | some code => socDmaFail d perf code
    | none =>
      ⟨{ d with busy := true, remaining := socDmaCountdown d.cfg d.length }, perf, []⟩

/-- The CTRL word kept of a written one: START is not stored. -/
def socDmaCtrlStored (value : Word) : Word :=
  (value &&& ~~~socDmaCtrlStart) |||
    (if value &&& socDmaCtrlIrqEnable ≠ 0 then socDmaCtrlIrqEnable else 0)

def socDmaWrite (d : SocDma M) (perf : SocPerf) (offset value : Word) : SocRc × DmaOut M :=
  match offset with
  | 0x00 => (.ok, ⟨{ d with src := value }, perf, []⟩)
  | 0x04 => (.ok, ⟨{ d with dst := value }, perf, []⟩)
  | 0x08 => (.ok, ⟨{ d with length := value }, perf, []⟩)
  | 0x0C =>
    let irqEn := decide (value &&& socDmaCtrlIrqEnable ≠ 0)
    let r := if value &&& socDmaCtrlStart ≠ 0 then socDmaStart d perf irqEn else ⟨d, perf, []⟩
    (.ok, { r with dma := { r.dma with ctrl := socDmaCtrlStored value } })
  | 0x14 => (.ok, ⟨{ d with done := false, error := false, errCode := socDmaErrNone }, perf, []⟩)
  | _ => (.errBus, ⟨d, perf, []⟩)

/-- Effect of a tick: also on the context of the callbacks. -/
structure DmaStep (M : Type) where
  dma : SocDma M
  perf : SocPerf
  mem : M
  raises : List Int

/-- The end of the completing tick: read into a temporary buffer, then write. -/
def socDmaComplete (d : SocDma M) (perf : SocPerf) (mem : M) : DmaStep M :=
  match d.cfg.reader, d.cfg.writer with
  | some reader, some writer =>
    let abort : SocDma M :=
      { d with busy := false, done := false, error := true, errCode := socDmaErrAddr }
    let r := reader mem d.src d.length fun _ => 0
    if r.rc ≠ .ok then ⟨abort, perf, r.ctx, d.irq⟩
    else
      let w := writer r.ctx d.dst r.out d.length
      if w.rc ≠ .ok then ⟨abort, perf, w.ctx, d.irq⟩
      else
        ⟨{ d with busy := false, done := true, error := false },
          socPerfCountDma perf d.length, w.ctx, d.irq⟩
  | _, _ => ⟨d, perf, mem, []⟩

def socDmaStep (d : SocDma M) (perf : SocPerf) (mem : M) : DmaStep M :=
  if ¬ d.busy then ⟨d, perf, mem, []⟩
  else if d.faultStuckBusy then ⟨d, perf, mem, []⟩
  else
    let d := { d with remaining := d.remaining - 1 }
    if 0 < d.remaining then ⟨d, perf, mem, []⟩
    else socDmaComplete d perf mem

/-! ### STATUS -/

theorem socDmaStatus_busy (d : SocDma M) :
    socDmaStatus d &&& vlabDmaStatusBusy ≠ 0 ↔ d.busy = true := by
  unfold socDmaStatus
  cases d.busy <;> cases d.done <;> cases d.error <;> decide

theorem socDmaStatus_done (d : SocDma M) :
    socDmaStatus d &&& vlabDmaStatusDone ≠ 0 ↔ d.done = true := by
  unfold socDmaStatus
  cases d.busy <;> cases d.done <;> cases d.error <;> decide

theorem socDmaStatus_error (d : SocDma M) :
    socDmaStatus d &&& vlabDmaStatusError ≠ 0 ↔ d.error = true := by
  unfold socDmaStatus
  cases d.busy <;> cases d.done <;> cases d.error <;> decide

/-! ### START -/

theorem socDmaStart_busy {d : SocDma M} {perf : SocPerf} {irqEnable : Bool}
    (h : d.busy = true) :
    socDmaStart d perf irqEnable = ⟨d, socPerfCountStall perf 1, []⟩ := by
  rw [socDmaStart, if_pos h]

theorem socDmaStart_fail {d : SocDma M} {perf : SocPerf} {irqEnable : Bool} {code : Word}
    (h : d.busy = false) (hcheck : socDmaStartCheck d.cfg d.src d.dst d.length = some code) :
    socDmaStart d perf irqEnable =
      ⟨{ d with
          irqEnableLatched := irqEnable, busy := false, done := false, error := true
          errCode := code }, perf,
        if irqEnable then [d.cfg.irqLine] else []⟩ := by
  rw [socDmaStart, if_neg (by simp [h])]
  dsimp only
  rw [hcheck]
  rfl

theorem socDmaStart_ok {d : SocDma M} {perf : SocPerf} {irqEnable : Bool}
    (h : d.busy = false) (hcheck : socDmaStartCheck d.cfg d.src d.dst d.length = none) :
    socDmaStart d perf irqEnable =
      ⟨{ d with
          irqEnableLatched := irqEnable, busy := true, done := false, error := false
          errCode := socDmaErrNone, remaining := socDmaCountdown d.cfg d.length }, perf, []⟩ := by
  rw [socDmaStart, if_neg (by simp [h])]
  dsimp only
  rw [hcheck]

/-- Flags, latch and countdown are all that moves. -/
theorem socDmaStart_frame (d : SocDma M) (perf : SocPerf) (irqEnable : Bool) :
    let t := (socDmaStart d perf irqEnable).dma
    t = { d with
      irqEnableLatched := t.irqEnableLatched, busy := t.busy, done := t.done, error := t.error
      errCode := t.errCode, remaining := t.remaining } := by
  intro t
  cases hb : d.busy with
  | true => rw [show t = d from congrArg DmaOut.dma (socDmaStart_busy hb)]
  | false =>
    cases hc : socDmaStartCheck d.cfg d.src d.dst d.length with
    | some code => rw [show t = _ from congrArg DmaOut.dma (socDmaStart_fail hb hc)]
    | none => rw [show t = _ from congrArg DmaOut.dma (socDmaStart_ok hb hc)]

/-- A START that finds the engine BUSY is counted as a stall. -/
theorem socDmaStart_perf (d : SocDma M) (perf : SocPerf) (irqEnable : Bool) :
    (socDmaStart d perf irqEnable).perf = if d.busy then socPerfCountStall perf 1 else perf := by
  cases hb : d.busy with
  | true => rw [socDmaStart_busy hb, if_pos rfl]
  | false =>
    rw [if_neg Bool.false_ne_true]
    cases hc : socDmaStartCheck d.cfg d.src d.dst d.length with
    | some code => rw [socDmaStart_fail hb hc]
    | none => rw [socDmaStart_ok hb hc]

/-- The checks report the four documented codes only. -/
theorem socDmaStartCheck_code {c : SocDmaConfig M} {src dst length code : Word}
    (h : socDmaStartCheck c src dst length = some code) :
    code ∈ [socDmaErrAddr, socDmaErrAlign, socDmaErrLen, socDmaErrUnsupported] := by
  unfold socDmaStartCheck at h
  dsimp only at h
  split_ifs at h <;> · cases h; decide

/-- A failing check never reports `SOC_DMA_ERR_NONE`. -/
theorem socDmaStartCheck_ne_zero {c : SocDmaConfig M} {src dst length code : Word}
    (h : socDmaStartCheck c src dst length = some code) : code ≠ 0 := by
  have hnone : socDmaErrNone ∉
      [socDmaErrAddr, socDmaErrAlign, socDmaErrLen, socDmaErrUnsupported] := by
    decide
  rintro rfl
  exact hnone (socDmaStartCheck_code h)

theorem socDmaCountdown_pos (c : SocDmaConfig M) (length : Word) :
    1 ≤ socDmaCountdown c length := by
  unfold socDmaCountdown
  dsimp only
  split_ifs with h
  · exact le_rfl
  · exact not_lt.mp h

theorem socDmaCountdown_lt (c : SocDmaConfig M) (length : Word) :
    socDmaCountdown c length < 2 ^ 31 := by
  unfold socDmaCountdown
  dsimp only
  split_ifs
  · decide
  · exact BitVec.toInt_lt

/-- A CTRL write with START. -/
theorem socDmaWrite_start {value : Word} (h : value &&& socDmaCtrlStart ≠ 0) (d : SocDma M)
    (perf : SocPerf) :
    let r := socDmaStart d perf (decide (value &&& socDmaCtrlIrqEnable ≠ 0))
    (socDmaWrite d perf 0x0C value).2 =
      { r with dma := { r.dma with ctrl := socDmaCtrlStored value } } := by
  intro r
  have hctrl : (socDmaWrite d perf 0x0C value).2 =
      (let r' := if value &&& socDmaCtrlStart ≠ 0 then r else ⟨d, perf, []⟩
      { r' with dma := { r'.dma with ctrl := socDmaCtrlStored value } }) := rfl
  rw [hctrl, if_pos h]

/-- Without START a register write leaves BUSY alone. -/
theorem socDmaWrite_busy {d : SocDma M} {perf : SocPerf} {offset value : Word}
    (h : ¬ (offset = 0x0C ∧ value &&& socDmaCtrlStart ≠ 0)) :
    (socDmaWrite d perf offset value).2.dma.busy = d.busy := by
  unfold socDmaWrite
  split
  case h_4 =>
    have hno : ¬ value &&& socDmaCtrlStart ≠ 0 := fun h0 => h ⟨rfl, h0⟩
    dsimp only
    rw [if_neg hno]
  all_goals rfl

/-! ### One tick -/

theorem socDmaStep_idle {d : SocDma M} {perf : SocPerf} {mem : M}
    (h : d.busy = false ∨ d.faultStuckBusy = true) :
    socDmaStep d perf mem = ⟨d, perf, mem, []⟩ := by
  rw [socDmaStep]
  rcases h with h | h
  · rw [if_pos (by simp [h])]
  · rw [h, if_pos rfl, ite_self]

theorem socDmaStep_count {d : SocDma M} {perf : SocPerf} {mem : M} (hbusy : d.busy = true)
    (hstuck : d.faultStuckBusy = false) (hrem : 1 < d.remaining) :
    socDmaStep d perf mem = ⟨{ d with remaining := d.remaining - 1 }, perf, mem, []⟩ := by
  rw [socDmaStep, if_neg (by simp [hbusy]), if_neg (by simp [hstuck])]
  dsimp only
  rw [if_pos (by omega)]

theorem socDmaStep_complete {d : SocDma M} {perf : SocPerf} {mem : M} (hbusy : d.busy = true)
    (hstuck : d.faultStuckBusy = false) (hrem : d.remaining ≤ 1) :
    socDmaStep d perf mem = socDmaComplete { d with remaining := d.remaining - 1 } perf mem := by
  rw [socDmaStep, if_neg (by simp [hbusy]), if_neg (by simp [hstuck])]
  dsimp only
  rw [if_neg (by omega)]

/-- The completing tick, by the answers of the callbacks. -/
theorem socDmaComplete_eq {d : SocDma M} {perf : SocPerf} {mem : M} {reader : SocDmaReader M}
    {writer : SocDmaWriter M} (hr : d.cfg.reader = some reader) (hw : d.cfg.writer = some writer) :
    let r := reader mem d.src d.length fun _ => 0
    let w := writer r.ctx d.dst r.out d.length
    let abort : SocDma M :=
      { d with busy := false, done := false, error := true, errCode := socDmaErrAddr }
    socDmaComplete d perf mem =
      if r.rc ≠ .ok then ⟨abort, perf, r.ctx, d.irq⟩
      else if w.rc ≠ .ok then ⟨abort, perf, w.ctx, d.irq⟩
      else ⟨{ d with busy := false, done := true, error := false },
        socPerfCountDma perf d.length, w.ctx, d.irq⟩ := by
  intro r w abort
  rw [socDmaComplete, hr, hw]

/-! ### What no operation changes -/

theorem socDmaStart_cfg (d : SocDma M) (perf : SocPerf) (irqEnable : Bool) :
    (socDmaStart d perf irqEnable).dma.cfg = d.cfg := by
  rw [socDmaStart_frame]

theorem socDmaWrite_cfg (d : SocDma M) (perf : SocPerf) (offset value : Word) :
    (socDmaWrite d perf offset value).2.dma.cfg = d.cfg := by
  unfold socDmaWrite
  split
  case h_4 =>
    dsimp only
    split_ifs
    · exact socDmaStart_cfg d perf _
    · rfl
  all_goals rfl

theorem socDmaStep_cfg (d : SocDma M) (perf : SocPerf) (mem : M) :
    (socDmaStep d perf mem).dma.cfg = d.cfg := by
  by_cases hidle : d.busy = false ∨ d.faultStuckBusy = true
  · rw [socDmaStep_idle hidle]
  · rw [not_or, Bool.not_eq_false, Bool.not_eq_true] at hidle
    by_cases hrem : 1 < d.remaining
    · rw [socDmaStep_count hidle.1 hidle.2 hrem]
    · rw [socDmaStep_complete hidle.1 hidle.2 (by omega), socDmaComplete]
      split
      · dsimp only
        split_ifs <;> rfl
      · rfl

end VlabSoc
