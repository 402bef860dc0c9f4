/-
Driver and engine validate alike.

`validateDescriptor_eq` compares the two decision procedures under tables
installed on both sides (`SameTables`), whatever the tables are;
`driver_engine_agree` is the driver's answer against a START of the engine.
-/
import VlabSoc.DmaDriver

namespace VlabSoc

variable {M : Type} {d : DmaDriver} {c : SocDmaConfig M}

/-- The driver's statics are the engine's tables. -/
structure SameTables (d : DmaDriver) (c : SocDmaConfig M) : Prop where
  map : d.sMap = c.regions
  mapN : d.sMapN = c.nRegions
  caps : d.sCaps = some c.caps
  periphs : d.sPeriphs = c.periphEps
  periphN : d.sPeriphN = c.nPeriphEps

/-- The driver's code for an outcome of the engine's checks. -/
def rcOfCheck : Option Word → DmaRc
  | none => .ok
  | some code =>
    if code = socDmaErrAddr then .errAddr
    else if code = socDmaErrAlign then .errAlign
    else if code = socDmaErrLen then .errLen
    else .errUnsupported

/-- In strict mode the two classifications of an endpoint go hand in hand. -/
theorem classify_strict (h : SameTables d c) (hstrict : c.periphEps.isSome ∨ 0 < c.nPeriphEps)
    (addr len : Word) :
    let kind := (classify d addr len).1
    let k := socEndpointClass c.regions c.nRegions c.periphEps c.nPeriphEps addr len
    (classify d addr len).2 = dmaPeriphFind c.periphEps c.nPeriphEps addr ∧
      (kind = .invalid ↔ k = -1) ∧ (kind = .incapable ↔ k = -2) ∧
      (k = -1 ∨ k = -2 ∨ (0 ≤ k ∧ k = kind.addrType)) := by
  rw [socEndpointClass, if_pos hstrict, classify, h.periphs, h.periphN, h.map, h.mapN]
  cases hep : dmaPeriphFind c.periphEps c.nPeriphEps addr with
  | some e =>
    rw [if_pos Option.isSome_some]
    exact ⟨rfl, by simp, by simp, by simp [EpKind.addrType]⟩
  | none =>
    rw [if_neg (by decide)]
    cases hr : findRegion c.regions c.nRegions addr len with
    | none => exact ⟨rfl, by simp, by simp, by simp [EpKind.addrType]⟩
    | some r =>
      dsimp only
      split_ifs
      · exact ⟨rfl, by simp, by simp, by simp [EpKind.addrType]⟩
      · exact ⟨rfl, by simp, by simp, by simp [EpKind.addrType]⟩

theorem validateDirection_eq (h : SameTables d c) (srcType dstType : Int) :
    validateDirection d srcType dstType =
      rcOfCheck (if dmaDirectionSupported (some c.caps) srcType dstType = false then
        some socDmaErrUnsupported else none) := by
  rw [validateDirection, h.caps]
  by_cases hdir : dmaDirectionSupported (some c.caps) srcType dstType = false
  · rw [if_pos ⟨Option.isSome_some, hdir⟩, if_pos hdir]
    decide
  · rw [if_neg fun hc => hdir hc.2, if_neg hdir]
    decide

/-- The end of the checks in strict mode. -/
theorem validate_strict (h : SameTables d c) (hstrict : c.periphEps.isSome ∨ 0 < c.nPeriphEps)
    (src dst len : Word) :
    (let s := classify d src len
    let t := classify d dst len
    if s.1 = .invalid ∨ t.1 = .invalid then DmaRc.errAddr
    else if s.1 = .incapable ∨ t.1 = .incapable then .errUnsupported
    else if ∃ ep ∈ s.2, ep.roles &&& dmaEpSrc = 0 then .errUnsupported
    else if ∃ ep ∈ t.2, ep.roles &&& dmaEpDst = 0 then .errUnsupported
    else validateDirection d s.1.addrType t.1.addrType) =
    rcOfCheck
      (let srcType := socEndpointClass c.regions c.nRegions c.periphEps c.nPeriphEps src len
      let dstType := socEndpointClass c.regions c.nRegions c.periphEps c.nPeriphEps dst len
      if srcType < 0 ∨ dstType < 0 then
        some (if srcType = -1 ∨ dstType = -1 then socDmaErrAddr else socDmaErrUnsupported)
      else if (c.periphEps.isSome ∨ 0 < c.nPeriphEps) ∧
          ((∃ e ∈ dmaPeriphFind c.periphEps c.nPeriphEps src, e.roles &&& dmaEpSrc = 0) ∨
            ∃ e ∈ dmaPeriphFind c.periphEps c.nPeriphEps dst, e.roles &&& dmaEpDst = 0) then
        some socDmaErrUnsupported
      else if dmaDirectionSupported (some c.caps) srcType dstType = false then
        some socDmaErrUnsupported
      else none) := by
  obtain ⟨hepS, hinvS, hincS, hkS⟩ := classify_strict h hstrict src len
  obtain ⟨hepD, hinvD, hincD, hkD⟩ := classify_strict h hstrict dst len
  dsimp only
  rw [hepS, hepD]
  set srcType := socEndpointClass c.regions c.nRegions c.periphEps c.nPeriphEps src len
  set dstType := socEndpointClass c.regions c.nRegions c.periphEps c.nPeriphEps dst len
  have hinvalid := or_congr hinvS hinvD
  have hincapable := or_congr hincS hincD
  by_cases hinv : srcType = -1 ∨ dstType = -1
  · have hneg : srcType < 0 ∨ dstType < 0 := by omega
    rw [if_pos (hinvalid.mpr hinv), if_pos hneg, if_pos hinv]
    decide
  by_cases hinc : srcType = -2 ∨ dstType = -2
  · have hneg : srcType < 0 ∨ dstType < 0 := by omega
    rw [if_neg (hinvalid.not.mpr hinv), if_pos (hincapable.mpr hinc), if_pos hneg, if_neg hinv]
    decide
  -- both endpoints are capable: roles, then direction
  have htS : srcType = (classify d src len).1.addrType := by omega
  have htD : dstType = (classify d dst len).1.addrType := by omega
  have hnonneg : ¬ (srcType < 0 ∨ dstType < 0) := by omega
  rw [if_neg (hinvalid.not.mpr hinv), if_neg (hincapable.not.mpr hinc), if_neg hnonneg, ← htS,
    ← htD]
  by_cases hroleS : ∃ e ∈ dmaPeriphFind c.periphEps c.nPeriphEps src, e.roles &&& dmaEpSrc = 0
  · rw [if_pos hroleS, if_pos ⟨hstrict, Or.inl hroleS⟩]
    decide
  by_cases hroleD : ∃ e ∈ dmaPeriphFind c.periphEps c.nPeriphEps dst, e.roles &&& dmaEpDst = 0
  · rw [if_neg hroleS, if_pos hroleD, if_pos ⟨hstrict, Or.inr hroleD⟩]
    decide
  rw [if_neg hroleS, if_neg hroleD, if_neg fun hc => hc.2.elim hroleS hroleD]
  exact validateDirection_eq h srcType dstType

/-- The driver's checks are the engine's. -/
theorem validateDescriptor_eq (h : SameTables d c) (src dst len : Word) :
    validateDescriptor d src dst len = rcOfCheck (socDmaStartCheck c src dst len) := by
  unfold validateDescriptor socDmaStartCheck
  rw [h.caps]
  dsimp only
  set align : Word := if 1 < c.caps.alignment then c.caps.alignment else 1
  by_cases hlen : len = 0 ∨ (1 < align ∧ len % align ≠ 0)
  · rw [if_pos hlen, if_pos hlen]
    decide
  rw [if_neg hlen, if_neg hlen]
  by_cases halign : 1 < align ∧ (src % align ≠ 0 ∨ dst % align ≠ 0)
  · rw [if_pos halign, if_pos halign]
    decide
  rw [if_neg halign, if_neg halign]
  by_cases hmax : c.caps.maxTransfer ≠ 0 ∧ c.caps.maxTransfer < len
  · rw [if_pos ⟨c.caps, rfl, hmax⟩, if_pos hmax]
    decide
  rw [if_neg (by rintro ⟨_, ⟨⟩, hm⟩; exact hmax hm), if_neg hmax, h.periphs, h.periphN]
  by_cases hstrict : c.periphEps.isSome ∨ 0 < c.nPeriphEps
  · rw [if_pos hstrict]
    exact validate_strict h hstrict src dst len
  · -- legacy: both classify by `dma_endpoint_type`, which knows no -2
    rw [if_neg hstrict, h.map, h.mapN, socEndpointClass, if_neg hstrict, socEndpointClass,
      if_neg hstrict]
    by_cases hneg : dmaEndpointType c.regions c.nRegions src len < 0 ∨
        dmaEndpointType c.regions c.nRegions dst len < 0
    · rw [if_pos hneg, if_pos hneg, if_pos (hneg.imp dmaEndpointType_neg dmaEndpointType_neg)]
      decide
    · rw [if_neg hneg, if_neg hneg, if_neg fun hc => hstrict hc.1]
      exact validateDirection_eq h _ _

/-! ### Against a START of the engine -/

/-- Tables handed to `dma_configure`, `dma_configure_periph` and `soc_dma_init`
alike are the same on both sides, once `dma_configure` has taken the map. -/
theorem sameTables_configure (d0 : DmaDriver) (latencyPerWord burst : Word)
    {map : Option (List MemoryRegion)} {n : Word} (caps : DmaCaps)
    (eps : Option (List DmaPeriphEp)) (nEps : Word) (irqLine : Int)
    (reader : Option (SocDmaReader M)) (writer : Option (SocDmaWriter M))
    (hmap : (map.isSome ∧ 0 < n) ∨ (d0.sMap = map ∧ d0.sMapN = n)) :
    SameTables (dmaConfigurePeriph (dmaConfigure d0 map n (some caps)) eps nEps)
      (socDmaInit latencyPerWord burst map n eps nEps (some caps) irqLine reader writer).cfg := by
  unfold dmaConfigurePeriph dmaConfigure
  dsimp only
  rw [if_pos Option.isSome_some]
  by_cases hset : map.isSome ∧ 0 < n
  · rw [if_pos hset]
    exact ⟨rfl, rfl, rfl, rfl, rfl⟩
  · obtain ⟨h1, h2⟩ := hmap.resolve_left hset
    rw [if_neg hset]
    exact ⟨h1, h2, rfl, rfl, rfl⟩

theorem rcOfCheck_ok {o : Option Word} : rcOfCheck o = .ok ↔ o = none := by
  cases o with
  | none => simp [rcOfCheck]
  | some code =>
    unfold rcOfCheck
    dsimp only
    split_ifs <;> simp

theorem rcOfCheck_ne_busy (o : Option Word) : rcOfCheck o ≠ .errBusy := by
  cases o with
  | none => simp [rcOfCheck]
  | some code =>
    unfold rcOfCheck
    dsimp only
    split_ifs <;> simp

/-- Driver code and ERR_CODE of one cause. -/
def sameCause : List (Int × Word) := [(-1, 1), (-2, 2), (-3, 3), (-5, 4)]

/-- Every code the checks report has a return code with the same cause. -/
theorem socDmaStartCheck_cause {src dst len code : Word}
    (h : socDmaStartCheck c src dst len = some code) :
    ((rcOfCheck (some code)).code, code) ∈ sameCause := by
  have hcode := socDmaStartCheck_code h
  simp only [List.mem_cons, List.not_mem_nil, or_false] at hcode
  rcases hcode with rfl | rfl | rfl | rfl
  all_goals decide

/-- The STATUS poll needs the bus only, not the engine's own tables. -/
theorem halReadReg_status {p : Platform} (hinit : p.gInited = true)
    (hregions : p.gSoc.regions = vlabMemoryMap) (hn : p.gSoc.nRegions = vlabMemoryMapN) :
    halReadReg p vlabDmaStatus =
      (socDmaStatus p.gSoc.dma,
        { p with gSoc := { p.gSoc with perf := socPerfCountMem p.gSoc.perf } }) := by
  have hroute : socRoute { p.gSoc with perf := socPerfCountMem p.gSoc.perf } vlabDmaStatus = 4 := by
    rw [socRoute]
    dsimp only
    rw [hregions, hn]
    decide
  have hread : socRead p.gSoc vlabDmaStatus 0 =
      ⟨.ok, socDmaStatus p.gSoc.dma, { p.gSoc with perf := socPerfCountMem p.gSoc.perf }⟩ := by
    rw [socRead, if_neg (by decide)]
    dsimp only
    rw [hroute]
    rfl
  rw [halReadReg, vlabMmioRead, socHostEnsure, if_pos hinit, hread]
  rfl

/-- `validate` by the state of the engine. -/
theorem validate_eq {p : Platform} (hinit : p.gInited = true)
    (hregions : p.gSoc.regions = vlabMemoryMap) (hn : p.gSoc.nRegions = vlabMemoryMapN)
    (src dst len : Word) :
    validate p src dst len =
      (if p.gSoc.dma.busy then .errBusy else validateDescriptor p.dma src dst len,
        { p with gSoc := { p.gSoc with perf := socPerfCountMem p.gSoc.perf } }) := by
  rw [validate, halReadReg_status hinit hregions hn]
  dsimp only
  have hbusy := socDmaStatus_busy p.gSoc.dma
  cases hb : p.gSoc.dma.busy with
  | true =>
    rw [if_pos (hbusy.mpr hb)]
    rfl
  | false =>
    rw [if_neg (by rw [hbusy, hb]; decide)]
    rfl

/-- `soc_dma_write` on the engine of a SoC. -/
def socDmaWriteAt (s : Soc) (offset value : Word) : Soc :=
  let r := (socDmaWrite s.dma s.perf offset value).2
  { s with dma := r.dma, perf := r.perf, intc := socIntcRaiseAll s.intc r.raises }

/-- SRC, DST and LEN written to the engine. -/
def dmaProgrammed (s : Soc) (src dst len : Word) : Soc :=
  socDmaWriteAt (socDmaWriteAt (socDmaWriteAt s 0x00 src) 0x04 dst) 0x08 len

theorem socDmaWriteAt_ctrl {s : Soc} {ctrl : Word} (h : ctrl &&& socDmaCtrlStart ≠ 0) :
    let r := socDmaStart s.dma s.perf (decide (ctrl &&& socDmaCtrlIrqEnable ≠ 0))
    socDmaWriteAt s 0x0C ctrl =
      { s with
        dma := { r.dma with ctrl := socDmaCtrlStored ctrl }
        perf := r.perf
        intc := socIntcRaiseAll s.intc r.raises } := by
  intro r
  rw [socDmaWriteAt, socDmaWrite_start h]

/-- Driver and engine agree.  With the same tables on both sides, whatever they are,
and the engine in any state: `validate` accepts exactly the descriptors whose START
takes the engine from idle to BUSY, reports BUSY exactly for a busy engine, which
then ignores the START with one stall, and otherwise names the cause of ERR_CODE; a
rejected START leaves memories, UART and counters as they were. -/
theorem driver_engine_agree {p : Platform} (hinit : p.gInited = true)
    (hregions : p.gSoc.regions = vlabMemoryMap) (hn : p.gSoc.nRegions = vlabMemoryMapN)
    {d0 : DmaDriver} {latencyPerWord burst : Word} {map : Option (List MemoryRegion)} {n : Word}
    {caps : DmaCaps} {eps : Option (List DmaPeriphEp)} {nEps : Word} {irqLine : Int}
    {reader : Option (SocDmaReader DmaCtx)} {writer : Option (SocDmaWriter DmaCtx)}
    (hmap : (map.isSome ∧ 0 < n) ∨ (d0.sMap = map ∧ d0.sMapN = n))
    (hdriver : p.dma = dmaConfigurePeriph (dmaConfigure d0 map n (some caps)) eps nEps)
    (hengine : p.gSoc.dma.cfg = (socDmaInit latencyPerWord burst map n eps nEps (some caps) irqLine
      reader writer).cfg)
    (src dst len : Word) {ctrl : Word} (hstart : ctrl &&& socDmaCtrlStart ≠ 0) :
    let rc := (validate p src dst len).1
    let u := dmaProgrammed p.gSoc src dst len
    let t := socDmaWriteAt u 0x0C ctrl
    (rc = .ok ↔ u.dma.busy = false ∧ t.dma.busy = true) ∧
    (rc = .errBusy ↔ p.gSoc.dma.busy = true) ∧
    (p.gSoc.dma.busy = true →
      t = { u with
        dma := { u.dma with ctrl := t.dma.ctrl }, perf := socPerfCountStall p.gSoc.perf 1 }) ∧
    (p.gSoc.dma.busy = false → rc ≠ .ok →
      (rc.code, t.dma.errCode) ∈ sameCause ∧ t.dma.busy = false ∧ t.dma.error = true ∧
      t.sram = p.gSoc.sram ∧ t.rom = p.gSoc.rom ∧ t.uart = p.gSoc.uart ∧
      t.perf = p.gSoc.perf) := by
  intro rc u t
  have hrc : rc = if p.gSoc.dma.busy then .errBusy else validateDescriptor p.dma src dst len :=
    congrArg Prod.fst (validate_eq hinit hregions hn src dst len)
  have hsame : SameTables p.dma p.gSoc.dma.cfg := by
    rw [hdriver, hengine]
    exact sameTables_configure d0 latencyPerWord burst caps eps nEps irqLine reader writer hmap
  rw [validateDescriptor_eq hsame] at hrc
  have ht := socDmaWriteAt_ctrl (s := u) hstart
  have hu : u.dma.busy = p.gSoc.dma.busy := rfl
  cases hb : p.gSoc.dma.busy with
  | true =>
    rw [hb, if_pos rfl] at hrc
    rw [socDmaStart_busy (hu.trans hb)] at ht
    rw [hrc]
    refine ⟨iff_of_false (by decide) fun h => ?_, iff_of_true rfl rfl, fun _ => ?_,
      fun h => absurd h (by decide)⟩
    · rw [hu, hb] at h
      exact absurd h.1 (by decide)
    · rw [show t = _ from ht]
      rfl
  | false =>
    rw [hb, if_neg (by decide)] at hrc
    have hbusy : rc ≠ .errBusy := by
      rw [hrc]
      exact rcOfCheck_ne_busy _
    cases hc : socDmaStartCheck p.gSoc.dma.cfg src dst len with
    | none =>
      rw [socDmaStart_ok (hu.trans hb) hc] at ht
      rw [hc] at hrc
      have hok : rc = .ok := hrc
      refine ⟨iff_of_true hok ⟨hu.trans hb, ?_⟩, iff_of_false hbusy (by decide),
        fun h => absurd h (by decide), fun _ h => absurd hok h⟩
      rw [show t = _ from ht]
    | some code =>
      rw [socDmaStart_fail (hu.trans hb) hc] at ht
      rw [hc] at hrc
      have hno : rc ≠ .ok := by
        rw [hrc, ne_eq, rcOfCheck_ok]
        exact Option.some_ne_none code
      refine ⟨iff_of_false hno ?_, iff_of_false hbusy (by decide),
        fun h => absurd h (by decide), fun _ _ => ?_⟩
      · rw [show t = _ from ht]
        rintro ⟨-, h⟩
        exact absurd h Bool.false_ne_true
      · rw [show t = _ from ht, hrc]
        exact ⟨socDmaStartCheck_cause hc, rfl, rfl, rfl, rfl, rfl, rfl⟩

/-- The VLAB tables on both sides, the engine idle, LEN zero. -/
theorem driver_engine_agree_len_zero :
    let p : Platform := { platformStart (socInit default none) with
      gInited := true
      dma := dmaConfigurePeriph (dmaConfigure dmaDriverStart (some vlabMemoryMap) vlabMemoryMapN
        (some vlabDmaCaps)) (some vlabDmaPeriphEps) vlabDmaPeriphEpsN }
    let t := socDmaWriteAt (dmaProgrammed p.gSoc vlabSramBase vlabSramBase 0) 0x0C 0x1
    ((validate p vlabSramBase vlabSramBase 0).1.code, t.dma.errCode) ∈ sameCause := by
  intro p t
  have hstart : (0x1 : Word) &&& socDmaCtrlStart ≠ 0 := by decide
  exact ((driver_engine_agree (p := p) rfl rfl rfl (Or.inl ⟨rfl, by decide⟩) rfl rfl vlabSramBase
    vlabSramBase 0 hstart).2.2.2 rfl (by decide)).1

end VlabSoc
