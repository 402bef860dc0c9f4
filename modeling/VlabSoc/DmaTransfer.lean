/-
Descriptors on the VLAB platform: which ones START accepts, and what the
completing tick does with any descriptor.

* `vlabStartCheck_none` — the checks of `soc_dma_start` under the VLAB tables
  accept exactly the descriptors that are `VlabValid`;
* `SocWired.tickDma_cases` — everything the DMA step of a wired SoC can do.  The
  completing one aborts or moves `dmaPayload`, depending on what the bridges can
  read and write;
* `SocWired.moved_byteAt`, `moved_uart` — what a move leaves of SRAM and UART.
-/
import VlabSoc.SocRuns

namespace VlabSoc

/-! ### Valid descriptors -/

/-- The range lies in the SRAM window. -/
def SramRange (addr len : Word) : Prop :=
  vlabSramBase.toNat ≤ addr.toNat ∧ addr.toNat + len.toNat ≤ vlabSramBase.toNat + 65536

instance (addr len : Word) : Decidable (SramRange addr len) := inferInstanceAs (Decidable (_ ∧ _))

/-- What the reader bridge can read. -/
def DmaReads (src len : Word) : Prop := src = vlabUartRxdata ∨ (len ≠ 0 ∧ SramRange src len)

/-- What the writer bridge can write. -/
def DmaWrites (dst len : Word) : Prop := dst = vlabUartTxdata ∨ (len ≠ 0 ∧ SramRange dst len)

instance (src len : Word) : Decidable (DmaReads src len) := inferInstanceAs (Decidable (_ ∨ _))

instance (dst len : Word) : Decidable (DmaWrites dst len) := inferInstanceAs (Decidable (_ ∨ _))

/-- The descriptors the platform's tables permit. -/
structure VlabValid (src dst len : Word) : Prop where
  len_ne : len ≠ 0
  len_align : len.toNat % 4 = 0
  len_le : len.toNat ≤ 16384
  src_align : src.toNat % 4 = 0
  dst_align : dst.toNat % 4 = 0
  reads : DmaReads src len
  writes : DmaWrites dst len
  not_periph : ¬ (src = vlabUartRxdata ∧ dst = vlabUartTxdata)

theorem vlabValid_iff {src dst len : Word} :
    VlabValid src dst len ↔
      len ≠ 0 ∧ len.toNat % 4 = 0 ∧ len.toNat ≤ 16384 ∧ src.toNat % 4 = 0 ∧ dst.toNat % 4 = 0 ∧
        DmaReads src len ∧ DmaWrites dst len ∧ ¬ (src = vlabUartRxdata ∧ dst = vlabUartTxdata) :=
  ⟨fun h => ⟨h.1, h.2, h.3, h.4, h.5, h.6, h.7, h.8⟩,
    fun ⟨h1, h2, h3, h4, h5, h6, h7, h8⟩ => ⟨h1, h2, h3, h4, h5, h6, h7, h8⟩⟩

instance (src dst len : Word) : Decidable (VlabValid src dst len) :=
  decidable_of_iff _ vlabValid_iff.symm

/-- The SRAM window holds no FIFO register. -/
theorem SramRange.not_fifo {addr len : Word} (h : SramRange addr len) (hlen : len ≠ 0) :
    addr ≠ vlabUartTxdata ∧ addr ≠ vlabUartRxdata := by
  have hpos : 0 < len.toNat := Nat.pos_of_ne_zero fun h0 => hlen (BitVec.eq_of_toNat_eq h0)
  have hbase : vlabSramBase.toNat = 0x10000000 := rfl
  rw [SramRange, hbase] at h
  constructor
  · rintro rfl
    rw [show (vlabUartTxdata.toNat) = 0x20000000 from rfl] at h
    omega
  · rintro rfl
    rw [show (vlabUartRxdata.toNat) = 0x20000004 from rfl] at h
    omega

/-! ### The checks under the VLAB tables -/

theorem vlabPeriphFind (addr : Word) :
    dmaPeriphFind (some vlabDmaPeriphEps) vlabDmaPeriphEpsN addr =
      if addr = vlabUartTxdata then some ⟨vlabUartTxdata, dmaEpDst⟩
      else if addr = vlabUartRxdata then some ⟨vlabUartRxdata, dmaEpSrc⟩
      else none := by
  have htake : vlabDmaPeriphEps.take vlabDmaPeriphEpsN.toNat = vlabDmaPeriphEps := rfl
  rw [dmaPeriphFind, htake, vlabDmaPeriphEps, List.find?_cons, List.find?_cons, List.find?_nil]
  by_cases htx : addr = vlabUartTxdata
  · simp [htx]
  · by_cases hrx : addr = vlabUartRxdata
    · simp [hrx]
    · rw [if_neg htx, if_neg hrx]
      dsimp only
      rw [decide_eq_false (Ne.symm htx), decide_eq_false (Ne.symm hrx)]

/-- Endpoint class under the VLAB tables. -/
abbrev vlabClass (addr len : Word) : Int :=
  socEndpointClass (some vlabMemoryMap) vlabMemoryMapN (some vlabDmaPeriphEps) vlabDmaPeriphEpsN
    addr len

theorem vlabClass_fifo {addr len : Word} (h : addr = vlabUartTxdata ∨ addr = vlabUartRxdata) :
    vlabClass addr len = 1 := by
  have hfound : (dmaPeriphFind (some vlabDmaPeriphEps) vlabDmaPeriphEpsN addr).isSome = true := by
    rw [vlabPeriphFind]
    rcases h with rfl | rfl <;> decide
  rw [vlabClass, socEndpointClass, if_pos (Or.inl Option.isSome_some), if_pos hfound]

theorem vlabClass_other {addr len : Word} (htx : addr ≠ vlabUartTxdata)
    (hrx : addr ≠ vlabUartRxdata) :
    vlabClass addr len =
      match findRegion (some vlabMemoryMap) vlabMemoryMapN addr len with
      | none => -1
      | some r => if r.type = .sram ∨ r.type = .dram then 0 else -2 := by
  have hnone : dmaPeriphFind (some vlabDmaPeriphEps) vlabDmaPeriphEpsN addr = none := by
    rw [vlabPeriphFind, if_neg htx, if_neg hrx]
  rw [vlabClass, socEndpointClass, if_pos (Or.inl Option.isSome_some), hnone]
  exact if_neg (by decide)

theorem len_pos_iff {len : Word} : 0 < len.toNat ↔ len ≠ 0 := by
  rw [Nat.pos_iff_ne_zero, ne_eq, ne_eq, ← BitVec.toNat_inj]
  rfl

/-- The SRAM entry of the map owns exactly the SRAM ranges. -/
theorem sram_contains {addr len : Word} :
    memoryRegionContains ⟨vlabSramBase, 65536, .sram⟩ addr len = true ↔
      len ≠ 0 ∧ SramRange addr len := by
  have hbase : vlabSramBase.toNat = 0x10000000 := rfl
  have hsize : (65536 : Word).toNat = 65536 := rfl
  rw [memoryRegionContains_iff, len_pos_iff, SramRange, hbase, hsize]
  constructor
  · rintro ⟨h1, -, h3, h4⟩
    exact ⟨h1, h3, h4⟩
  · rintro ⟨h1, h3, h4⟩
    exact ⟨h1, by omega, h3, h4⟩

theorem findRegion_sram {addr len : Word} (h : len ≠ 0 ∧ SramRange addr len) :
    findRegion (some vlabMemoryMap) vlabMemoryMapN addr len =
      some ⟨vlabSramBase, 65536, .sram⟩ := by
  have hrom : memoryRegionContains ⟨vlabRomBase, 16384, .rom⟩ addr len = false := by
    rw [Bool.eq_false_iff, ne_eq, memoryRegionContains_iff]
    have hlow := h.2.1
    rw [show vlabSramBase.toNat = 0x10000000 from rfl] at hlow
    rw [show vlabRomBase.toNat = 0 from rfl, show (16384 : Word).toNat = 16384 from rfl]
    omega
  rw [findRegion, show vlabMemoryMap.take vlabMemoryMapN.toNat = vlabMemoryMap from rfl,
    vlabMemoryMap, List.find?_cons, hrom, List.find?_cons, sram_contains.mpr h]

theorem vlabClass_sram {addr len : Word} (h : len ≠ 0 ∧ SramRange addr len) :
    vlabClass addr len = 0 := by
  obtain ⟨htx, hrx⟩ := h.2.not_fifo h.1
  rw [vlabClass_other htx hrx, findRegion_sram h]
  rfl

/-- Everything else is unmapped or not DMA-capable. -/
theorem vlabClass_neg {addr len : Word} (htx : addr ≠ vlabUartTxdata)
    (hrx : addr ≠ vlabUartRxdata) (h : ¬ (len ≠ 0 ∧ SramRange addr len)) :
    vlabClass addr len < 0 := by
  rw [vlabClass_other htx hrx]
  cases hr : findRegion (some vlabMemoryMap) vlabMemoryMapN addr len with
  | none => decide
  | some r =>
    rw [findRegion] at hr
    have hmem : r ∈ vlabMemoryMap := List.mem_of_mem_take (List.mem_of_find?_eq_some hr)
    have hin : memoryRegionContains r addr len = true :=
      List.find?_some (p := fun r => memoryRegionContains r addr len) hr
    have htype : ¬ (r.type = .sram ∨ r.type = .dram) := by
      intro ht
      have honly : ∀ r ∈ vlabMemoryMap, (r.type = .sram ∨ r.type = .dram) →
          r = ⟨vlabSramBase, 65536, .sram⟩ := by decide
      rw [honly r hmem ht] at hin
      exact h (sram_contains.mp hin)
    dsimp only
    rw [if_neg htype]
    decide

/-- A source the checks accept is one the reader bridge can read. -/
theorem vlabClass_nonneg {addr len : Word} :
    0 ≤ vlabClass addr len ↔
      addr = vlabUartTxdata ∨ addr = vlabUartRxdata ∨ (len ≠ 0 ∧ SramRange addr len) := by
  constructor
  · intro h
    by_contra hno
    simp only [not_or] at hno
    exact absurd (vlabClass_neg hno.1 hno.2.1 hno.2.2) (by omega)
  · rintro (h | h | h)
    · rw [vlabClass_fifo (Or.inl h)]
      decide
    · rw [vlabClass_fifo (Or.inr h)]
      decide
    · rw [vlabClass_sram h]

/-- The source role: only the TX FIFO lacks it. -/
theorem vlabRole_src {src len : Word} (hsrc : 0 ≤ vlabClass src len) :
    (∃ e ∈ dmaPeriphFind (some vlabDmaPeriphEps) vlabDmaPeriphEpsN src,
      e.roles &&& dmaEpSrc = 0) ↔ ¬ DmaReads src len := by
  rw [vlabPeriphFind]
  rcases vlabClass_nonneg.mp hsrc with h | h | h
  · have hno : ¬ DmaReads src len := by
      rintro (hrx | hmem)
      · rw [h] at hrx
        exact absurd hrx (by decide)
      · exact (hmem.2.not_fifo hmem.1).1 h
    rw [if_pos h]
    exact iff_of_true ⟨_, rfl, by decide⟩ hno
  · rw [if_neg (by rw [h]; decide), if_pos h]
    refine iff_of_false ?_ (not_not.mpr (Or.inl h))
    rintro ⟨e, he, h0⟩
    cases he
    exact absurd h0 (by decide)
  · -- memory is in no FIFO table
    obtain ⟨htx, hrx⟩ := h.2.not_fifo h.1
    rw [if_neg htx, if_neg hrx]
    exact iff_of_false (by simp) (not_not.mpr (Or.inr h))

/-- The destination role: only the RX FIFO lacks it. -/
theorem vlabRole_dst {dst len : Word} (hdst : 0 ≤ vlabClass dst len) :
    (∃ e ∈ dmaPeriphFind (some vlabDmaPeriphEps) vlabDmaPeriphEpsN dst,
      e.roles &&& dmaEpDst = 0) ↔ ¬ DmaWrites dst len := by
  rw [vlabPeriphFind]
  rcases vlabClass_nonneg.mp hdst with h | h | h
  · rw [if_pos h]
    refine iff_of_false ?_ (not_not.mpr (Or.inl h))
    rintro ⟨e, he, h0⟩
    cases he
    exact absurd h0 (by decide)
  · have hno : ¬ DmaWrites dst len := by
      rintro (htx | hmem)
      · rw [h] at htx
        exact absurd htx (by decide)
      · exact (hmem.2.not_fifo hmem.1).2 h
    rw [if_neg (by rw [h]; decide), if_pos h]
    exact iff_of_true ⟨_, rfl, by decide⟩ hno
  · obtain ⟨htx, hrx⟩ := h.2.not_fifo h.1
    rw [if_neg htx, if_neg hrx]
    exact iff_of_false (by simp) (not_not.mpr (Or.inr h))

/-- The role check of strict platforms, for two accepted endpoints. -/
theorem vlabRoles {src dst len : Word} (hsrc : 0 ≤ vlabClass src len)
    (hdst : 0 ≤ vlabClass dst len) :
    ((∃ e ∈ dmaPeriphFind (some vlabDmaPeriphEps) vlabDmaPeriphEpsN src, e.roles &&& dmaEpSrc = 0) ∨
      ∃ e ∈ dmaPeriphFind (some vlabDmaPeriphEps) vlabDmaPeriphEpsN dst, e.roles &&& dmaEpDst = 0) ↔
      ¬ (DmaReads src len ∧ DmaWrites dst len) := by
  rw [vlabRole_src hsrc, vlabRole_dst hdst, not_and_or]

/-- With the right roles only FIFO to FIFO is no direction of the platform. -/
theorem vlabDirection {src dst len : Word} (hsrc : DmaReads src len) (hdst : DmaWrites dst len) :
    dmaDirectionSupported (some vlabDmaCaps) (vlabClass src len) (vlabClass dst len) = true ↔
      ¬ (src = vlabUartRxdata ∧ dst = vlabUartTxdata) := by
  rcases hsrc with hs | hs <;> rcases hdst with hd | hd
  · rw [vlabClass_fifo (Or.inr hs), vlabClass_fifo (Or.inl hd)]
    exact iff_of_false (by decide) (not_not.mpr ⟨hs, hd⟩)
  · rw [vlabClass_fifo (Or.inr hs), vlabClass_sram hd]
    exact iff_of_true (by decide) fun h => (hd.2.not_fifo hd.1).1 h.2
  · rw [vlabClass_sram hs, vlabClass_fifo (Or.inl hd)]
    exact iff_of_true (by decide) fun h => (hs.2.not_fifo hs.1).2 h.1
  · rw [vlabClass_sram hs, vlabClass_sram hd]
    exact iff_of_true (by decide) fun h => (hd.2.not_fifo hd.1).1 h.2

/-- A descriptor passes the checks of `soc_dma_start` under the VLAB tables exactly
when it is valid. -/
theorem vlabStartCheck_none (cfg : SocConfig) (src dst len : Word) :
    socDmaStartCheck (vlabDmaConfig cfg) src dst len = none ↔ VlabValid src dst len := by
  have hmax : (16384 : Word).toNat = 16384 := rfl
  unfold socDmaStartCheck
  simp only [show (vlabDmaConfig cfg).caps = vlabDmaCaps from rfl,
    show (vlabDmaConfig cfg).regions = some vlabMemoryMap from rfl,
    show (vlabDmaConfig cfg).nRegions = vlabMemoryMapN from rfl,
    show (vlabDmaConfig cfg).periphEps = some vlabDmaPeriphEps from rfl,
    show (vlabDmaConfig cfg).nPeriphEps = vlabDmaPeriphEpsN from rfl]
  rw [show (if 1 < vlabDmaCaps.alignment then vlabDmaCaps.alignment else 1) = 4 from rfl]
  split_ifs with hlen halign hmaxlen hneg hrole hdir
  · refine iff_of_false (by simp) fun hv => ?_
    rcases hlen with h0 | ⟨-, h0⟩
    · exact hv.len_ne h0
    · exact h0 ((dvd_four_iff len).mpr hv.len_align)
  · refine iff_of_false (by simp) fun hv => ?_
    rcases halign.2 with h0 | h0
    · exact h0 ((dvd_four_iff src).mpr hv.src_align)
    · exact h0 ((dvd_four_iff dst).mpr hv.dst_align)
  · refine iff_of_false (by simp) fun hv => ?_
    have hle := hv.len_le
    have hlt : (16384 : Word).toNat < len.toNat := BitVec.lt_def.mp hmaxlen.2
    omega
  · refine iff_of_false (by simp) fun hv => ?_
    rcases hneg with h0 | h0
    · have hS := vlabClass_nonneg.mpr (Or.inr hv.reads)
      exact absurd h0 (not_lt.mpr hS)
    · have hD : 0 ≤ vlabClass dst len :=
        vlabClass_nonneg.mpr (hv.writes.imp_right Or.inr)
      exact absurd h0 (not_lt.mpr hD)
  all_goals rw [not_or, not_lt, not_lt] at hneg
  · exact iff_of_false (by simp) fun hv =>
      (vlabRoles hneg.1 hneg.2).mp hrole.2 ⟨hv.reads, hv.writes⟩
  · have hacc : DmaReads src len ∧ DmaWrites dst len := by
      by_contra hno
      exact hrole ⟨Or.inl rfl, (vlabRoles hneg.1 hneg.2).mpr hno⟩
    refine iff_of_false (by simp) fun hv => ?_
    rw [(vlabDirection hacc.1 hacc.2).mpr hv.not_periph] at hdir
    exact absurd hdir (by decide)
  · have hacc : DmaReads src len ∧ DmaWrites dst len := by
      by_contra hno
      exact hrole ⟨Or.inl rfl, (vlabRoles hneg.1 hneg.2).mpr hno⟩
    have h14 : (1 : Word) < 4 := by decide
    refine iff_of_true rfl
      { len_ne := fun h0 => hlen (Or.inl h0)
        len_align := by
          by_contra h0
          exact hlen (Or.inr ⟨h14, fun h => h0 ((dvd_four_iff len).mp h)⟩)
        len_le := by
          by_contra h0
          exact hmaxlen ⟨by decide, BitVec.lt_def.mpr (show (16384 : Word).toNat < _ by omega)⟩
        src_align := by
          by_contra h0
          exact halign ⟨h14, Or.inl fun h => h0 ((dvd_four_iff src).mp h)⟩
        dst_align := by
          by_contra h0
          exact halign ⟨h14, Or.inr fun h => h0 ((dvd_four_iff dst).mp h)⟩
        reads := hacc.1
        writes := hacc.2
        not_periph := (vlabDirection hacc.1 hacc.2).mp ((Bool.not_eq_false _).mp hdir) }

/-! ### The DMA step -/

/-- The bytes the reader bridge hands over. -/
def dmaPayload (s : Soc) (src : Word) (i : ℕ) : Byte :=
  if src = vlabUartRxdata then s.uart.dmaRx.bytes.getD i 0 else s.sram.byteAt (src.toNat + i)

/-- The UART after the reader bridge. -/
def dmaDrained (s : Soc) (src len : Word) : SocUart :=
  if src = vlabUartRxdata then (socUartDmaRxDrain s.uart (fun _ => 0) len).uart else s.uart

/-- What the bridges leave of UART and SRAM after a complete transfer. -/
def dmaMoved (s : Soc) (src dst len : Word) : DmaCtx :=
  let r := socDmaReaderBridge ⟨s.uart, s.sram⟩ src len fun _ => 0
  (socDmaWriterBridge r.ctx dst r.out len).ctx

/-- The SoC after a completing tick that failed; `uart` is the UART it leaves. -/
def dmaAborted (s : Soc) (uart : SocUart) : Soc :=
  { s with
    dma := { s.dma with
      remaining := s.dma.remaining - 1, busy := false, done := false, error := true
      errCode := socDmaErrAddr }
    uart := uart
    intc := socIntcRaiseAll s.intc s.dma.irq }

/-- The SoC after a completing tick that succeeded. -/
def dmaFinished (s : Soc) : Soc :=
  { s with
    dma := { s.dma with
      remaining := s.dma.remaining - 1, busy := false, done := true, error := false }
    perf := socPerfCountDma s.perf s.dma.length
    uart := (dmaMoved s s.dma.src s.dma.dst s.dma.length).uart
    sram := (dmaMoved s s.dma.src s.dma.dst s.dma.length).sram
    intc := socIntcRaiseAll s.intc s.dma.irq }

theorem socTickDma_idle {s : Soc} (h : s.dma.busy = false ∨ s.dma.faultStuckBusy = true) :
    socTickDma s = s := by
  rw [socTickDma, socDmaStep_idle h]
  rfl

theorem socTickDma_count {s : Soc} (hbusy : s.dma.busy = true)
    (hstuck : s.dma.faultStuckBusy = false) (hrem : 1 < s.dma.remaining) :
    socTickDma s = { s with dma := { s.dma with remaining := s.dma.remaining - 1 } } := by
  rw [socTickDma, socDmaStep_count hbusy hstuck hrem]
  rfl

theorem SocWired.sram_covers_range {s : Soc} (h : SocWired s) {addr len : Word} :
    s.sram.Covers addr len ↔ len ≠ 0 ∧ SramRange addr len := by
  have hbase : vlabSramBase.toNat = 0x10000000 := rfl
  have hsize : (65536 : Word).toNat = 65536 := rfl
  rw [SocMem.Covers, h.sram_base, h.sram_size, len_pos_iff, SramRange, hbase, hsize]
  constructor
  · rintro ⟨h1, -, h3, h4⟩
    exact ⟨h1, h3, h4⟩
  · rintro ⟨h1, h3, h4⟩
    exact ⟨h1, by omega, h3, h4⟩

theorem SocWired.reader_rc {s : Soc} (h : SocWired s) (src len : Word) (out : Buf Byte) :
    (socDmaReaderBridge ⟨s.uart, s.sram⟩ src len out).rc = .ok ↔ DmaReads src len := by
  unfold socDmaReaderBridge DmaReads
  rw [show vlabUartBase + 0x04 = vlabUartRxdata from by decide]
  by_cases hrx : src = vlabUartRxdata
  · rw [if_pos hrx]
    exact iff_of_true rfl (Or.inl hrx)
  · rw [if_neg hrx, socMemReadBytes_eq]
    by_cases hc : s.sram.Covers src len
    · rw [if_pos hc]
      exact iff_of_true rfl (Or.inr (h.sram_covers_range.mp hc))
    · rw [if_neg hc]
      refine iff_of_false (by simp) ?_
      rintro (h0 | h0)
      · exact hrx h0
      · exact hc (h.sram_covers_range.mpr h0)

theorem SocWired.writer_rc {s : Soc} (h : SocWired s) (uart : SocUart) (dst len : Word)
    (payload : Buf Byte) :
    (socDmaWriterBridge ⟨uart, s.sram⟩ dst payload len).rc = .ok ↔ DmaWrites dst len := by
  unfold socDmaWriterBridge DmaWrites
  rw [show vlabUartBase + 0x00 = vlabUartTxdata from by decide]
  by_cases htx : dst = vlabUartTxdata
  · rw [if_pos htx]
    exact iff_of_true rfl (Or.inl htx)
  · rw [if_neg htx, socMemWriteBytes_eq]
    by_cases hc : s.sram.Covers dst len
    · rw [if_pos ⟨h.sram_writable, hc⟩]
      exact iff_of_true rfl (Or.inr (h.sram_covers_range.mp hc))
    · rw [if_neg fun h0 => hc h0.2]
      refine iff_of_false (by simp) ?_
      rintro (h0 | h0)
      · exact htx h0
      · exact hc (h.sram_covers_range.mpr h0)

/-- The reader bridge touches the RX stream only. -/
theorem reader_ctx (s : Soc) (src len : Word) :
    (socDmaReaderBridge ⟨s.uart, s.sram⟩ src len fun _ => 0).ctx =
      ⟨dmaDrained s src len, s.sram⟩ := by
  unfold socDmaReaderBridge dmaDrained
  rw [show vlabUartBase + 0x04 = vlabUartRxdata from by decide]
  split_ifs <;> rfl

/-- A writer bridge that fails touches nothing. -/
theorem writer_ctx_fails {m : DmaCtx} {dst len : Word} {payload : Buf Byte}
    (h : (socDmaWriterBridge m dst payload len).rc ≠ .ok) :
    (socDmaWriterBridge m dst payload len).ctx = m := by
  unfold socDmaWriterBridge at h ⊢
  split_ifs at h ⊢ with htx
  · exact absurd rfl h
  · dsimp only at h ⊢
    rw [socMemWriteBytes_eq] at h ⊢
    split_ifs at h ⊢
    · exact absurd rfl h
    · rfl

/-- The completing DMA step, by what the bridges can read and write. -/
theorem SocWired.tickDma_complete {s : Soc} (h : SocWired s) (hbusy : s.dma.busy = true)
    (hstuck : s.dma.faultStuckBusy = false) (hrem : s.dma.remaining ≤ 1) :
    socTickDma s =
      if ¬ DmaReads s.dma.src s.dma.length then dmaAborted s s.uart
      else if ¬ DmaWrites s.dma.dst s.dma.length then
        dmaAborted s (dmaDrained s s.dma.src s.dma.length)
      else dmaFinished s := by
  have hreads := h.reader_rc s.dma.src s.dma.length fun _ => 0
  have hctx := reader_ctx s s.dma.src s.dma.length
  rw [socTickDma, socDmaStep_complete hbusy hstuck hrem,
    socDmaComplete_eq (d := { s.dma with remaining := s.dma.remaining - 1 }) h.reader h.writer]
  dsimp only
  by_cases hr : DmaReads s.dma.src s.dma.length
  · have hwrites := h.writer_rc (dmaDrained s s.dma.src s.dma.length) s.dma.dst s.dma.length
      (socDmaReaderBridge ⟨s.uart, s.sram⟩ s.dma.src s.dma.length fun _ => 0).out
    rw [if_neg (not_not.mpr (hreads.mpr hr)), if_neg (not_not.mpr hr)]
    by_cases hw : DmaWrites s.dma.dst s.dma.length
    · rw [if_neg (not_not.mpr hw), if_neg (by rw [hctx, not_not]; exact hwrites.mpr hw)]
      rfl
    · have hfail := mt hwrites.mp hw
      rw [if_pos hw, if_pos (by rw [hctx]; exact hfail), hctx, writer_ctx_fails hfail]
      rfl
  · have hfail := mt hreads.mp hr
    have hsrc : s.dma.src ≠ vlabUartRxdata := fun h0 => hr (Or.inl h0)
    rw [if_pos hfail, if_pos hr, hctx, dmaDrained, if_neg hsrc]
    rfl

/-- The engine is in the tick that completes its transfer. -/
def Completing (d : SocDma DmaCtx) : Prop :=
  d.busy = true ∧ d.faultStuckBusy = false ∧ d.remaining ≤ 1

/-- Everything a DMA step can do. -/
theorem SocWired.tickDma_cases {s : Soc} (h : SocWired s) :
    ((s.dma.busy = false ∨ s.dma.faultStuckBusy = true) ∧ socTickDma s = s) ∨
    (s.dma.busy = true ∧ s.dma.faultStuckBusy = false ∧ 1 < s.dma.remaining ∧
      socTickDma s = { s with dma := { s.dma with remaining := s.dma.remaining - 1 } }) ∨
    (Completing s.dma ∧ ¬ DmaReads s.dma.src s.dma.length ∧
      socTickDma s = dmaAborted s s.uart) ∨
    (Completing s.dma ∧ DmaReads s.dma.src s.dma.length ∧ ¬ DmaWrites s.dma.dst s.dma.length ∧
      socTickDma s = dmaAborted s (dmaDrained s s.dma.src s.dma.length)) ∨
    (Completing s.dma ∧ DmaReads s.dma.src s.dma.length ∧ DmaWrites s.dma.dst s.dma.length ∧
      socTickDma s = dmaFinished s) := by
  by_cases hidle : s.dma.busy = false ∨ s.dma.faultStuckBusy = true
  · exact Or.inl ⟨hidle, socTickDma_idle hidle⟩
  rw [not_or, Bool.not_eq_false, Bool.not_eq_true] at hidle
  obtain ⟨hbusy, hstuck⟩ := hidle
  by_cases hrem : 1 < s.dma.remaining
  · exact Or.inr (Or.inl ⟨hbusy, hstuck, hrem, socTickDma_count hbusy hstuck hrem⟩)
  have hend : Completing s.dma := ⟨hbusy, hstuck, not_lt.mp hrem⟩
  rw [h.tickDma_complete hbusy hstuck (not_lt.mp hrem)]
  refine Or.inr (Or.inr ?_)
  by_cases hr : DmaReads s.dma.src s.dma.length
  · by_cases hw : DmaWrites s.dma.dst s.dma.length
    · exact Or.inr (Or.inr ⟨hend, hr, hw, by rw [if_neg (not_not.mpr hr), if_neg (not_not.mpr hw)]⟩)
    · exact Or.inr (Or.inl ⟨hend, hr, hw, by rw [if_neg (not_not.mpr hr), if_pos hw]⟩)
  · exact Or.inl ⟨hend, hr, if_pos hr⟩

/-- A DMA step that ends in DONE is the completing one, and moved what the bridges
serve. -/
theorem SocWired.tickDma_done {s : Soc} (h : SocWired s) (hinv : DmaInv s.dma)
    (hbusy : s.dma.busy = true) (hdone : (socTickDma s).dma.done = true) :
    DmaReads s.dma.src s.dma.length ∧ DmaWrites s.dma.dst s.dma.length ∧
      socTickDma s = dmaFinished s := by
  have hnot := hinv.busy_not_done hbusy
  rcases h.tickDma_cases with ⟨-, heq⟩ | ⟨-, -, -, heq⟩ | ⟨-, -, heq⟩ | ⟨-, -, -, heq⟩ |
    ⟨-, hr, hw, heq⟩
  · rw [heq, hnot] at hdone
    exact absurd hdone Bool.false_ne_true
  · rw [heq] at hdone
    exact absurd (hnot.symm.trans hdone) Bool.false_ne_true
  · rw [heq] at hdone
    exact absurd hdone Bool.false_ne_true
  · rw [heq] at hdone
    exact absurd hdone Bool.false_ne_true
  · exact ⟨hr, hw, heq⟩

/-- A DMA step that does not end in DONE keeps the SRAM. -/
theorem SocWired.tickDma_sram {s : Soc} (h : SocWired s)
    (hno : ¬ (s.dma.busy = true ∧ (socTickDma s).dma.done = true)) :
    (socTickDma s).sram = s.sram := by
  rcases h.tickDma_cases with ⟨-, heq⟩ | ⟨-, -, -, heq⟩ | ⟨-, -, heq⟩ | ⟨-, -, -, heq⟩ |
    ⟨hend, -, -, heq⟩
  · rw [heq]
  · rw [heq]
  · rw [heq]
    rfl
  · rw [heq]
    rfl
  · exact absurd ⟨hend.1, by rw [heq]; rfl⟩ hno

/-! ### What a complete transfer leaves -/

theorem SocWired.reader_out {s : Soc} (h : SocWired s) {src len : Word} (hr : DmaReads src len)
    {i : ℕ} (hi : i < len.toNat) :
    (socDmaReaderBridge ⟨s.uart, s.sram⟩ src len fun _ => 0).out i = dmaPayload s src i := by
  unfold socDmaReaderBridge dmaPayload
  rw [show vlabUartBase + 0x04 = vlabUartRxdata from by decide]
  by_cases hrx : src = vlabUartRxdata
  · rw [if_pos hrx, if_pos hrx]
    exact drain_out s.uart _ len hi
  · have hc := h.sram_covers_range.mpr (hr.resolve_left hrx)
    rw [if_neg hrx, if_neg hrx, socMemReadBytes_eq, if_pos hc]
    dsimp only
    rw [Buf.memcpy_front hi, Buf.from_apply, hc.offset, SocMem.byteAt]
    have hle := hc.2.2.1
    congr 1
    omega

/-- Byte for byte, the SRAM after a transfer. -/
theorem SocWired.moved_byteAt {s : Soc} (h : SocWired s) {src dst len : Word}
    (hr : DmaReads src len) (hw : DmaWrites dst len) {a : ℕ} (ha : vlabSramBase.toNat ≤ a) :
    (dmaMoved s src dst len).sram.byteAt a =
      if dst ≠ vlabUartTxdata ∧ dst.toNat ≤ a ∧ a < dst.toNat + len.toNat then
        dmaPayload s src (a - dst.toNat)
      else s.sram.byteAt a := by
  unfold dmaMoved
  dsimp only
  rw [reader_ctx]
  unfold socDmaWriterBridge
  rw [show vlabUartBase + 0x00 = vlabUartTxdata from by decide]
  by_cases htx : dst = vlabUartTxdata
  · rw [if_pos htx, if_neg fun h0 => h0.1 htx]
  · have hc := h.sram_covers_range.mpr (hw.resolve_left htx)
    have hle := hc.2.2.1
    rw [if_neg htx, socMemWriteBytes_eq, if_pos ⟨h.sram_writable, hc⟩]
    dsimp only [SocMem.byteAt]
    rw [hc.offset]
    rw [h.sram_base] at hle ⊢
    by_cases hin : dst.toNat ≤ a ∧ a < dst.toNat + len.toNat
    · have hoff : a - vlabSramBase.toNat =
          dst.toNat - vlabSramBase.toNat + (a - dst.toNat) := by omega
      rw [if_pos ⟨htx, hin⟩, hoff, Buf.memcpy_inside (by omega), h.reader_out hr (by omega)]
    · rw [if_neg fun h0 => hin h0.2, Buf.memcpy_outside (by omega)]

theorem moved_sram (s : Soc) (src dst len : Word) :
    (dmaMoved s src dst len).sram =
      { s.sram with data := (dmaMoved s src dst len).sram.data } := by
  unfold dmaMoved
  dsimp only
  rw [reader_ctx]
  unfold socDmaWriterBridge
  split_ifs
  · rfl
  · dsimp only
    rw [socMemWriteBytes_eq]
    split_ifs <;> rfl

/-- The payload of a transfer of `len` bytes. -/
def dmaPayloadList (s : Soc) (src len : Word) : List Byte :=
  Buf.toList (dmaPayload s src) len.toNat

theorem SocWired.reader_toList {s : Soc} (h : SocWired s) {src len : Word} (hr : DmaReads src len) :
    Buf.toList (socDmaReaderBridge ⟨s.uart, s.sram⟩ src len fun _ => 0).out len.toNat =
      dmaPayloadList s src len :=
  Buf.toList_congr fun _ hi => h.reader_out hr hi

theorem dmaDrained_uart (s : Soc) (src len : Word) :
    dmaDrained s src len = { s.uart with dmaRx := (dmaDrained s src len).dmaRx } := by
  unfold dmaDrained socUartDmaRxDrain
  split_ifs <;> rfl

/-- A drain removes the bytes it hands over. -/
theorem dmaDrained_rx (s : Soc) (src len : Word) :
    (dmaDrained s src len).dmaRx.bytes =
      if src = vlabUartRxdata then s.uart.dmaRx.bytes.drop len.toNat else s.uart.dmaRx.bytes := by
  unfold dmaDrained
  split_ifs
  · exact drain_bytes s.uart _ len
  · rfl

theorem dmaDrained_eq_self {s : Soc} {src len : Word} (h : src ≠ vlabUartRxdata) :
    dmaDrained s src len = s.uart := if_neg h

/-- A transfer to the TX FIFO appends its payload to both streams, within their
capacity. -/
theorem txAppend_bytes (u : SocUart) (payload : Buf Byte) {len : Word} (hlen : len ≠ 0) :
    (socUartDmaTxAppend u payload len).dmaTx.bytes =
        (u.dmaTx.bytes ++ Buf.toList payload len.toNat).take 16384 ∧
      (socUartDmaTxAppend u payload len).dmaRx.bytes =
        (u.dmaRx.bytes ++ Buf.toList payload len.toNat).take 16384 ∧
      socUartDmaTxAppend u payload len =
        { u with
          dmaTx := (socUartDmaTxAppend u payload len).dmaTx
          dmaRx := (socUartDmaTxAppend u payload len).dmaRx } := by
  rw [socUartDmaTxAppend, if_neg hlen]
  exact ⟨u.dmaTx.append_bytes payload len, u.dmaRx.append_bytes payload len, rfl⟩

theorem moved_uart (s : Soc) (src dst len : Word) :
    (dmaMoved s src dst len).uart =
      if dst = vlabUartTxdata then
        socUartDmaTxAppend (dmaDrained s src len)
          (socDmaReaderBridge ⟨s.uart, s.sram⟩ src len fun _ => 0).out len
      else dmaDrained s src len := by
  unfold dmaMoved
  dsimp only
  rw [reader_ctx]
  unfold socDmaWriterBridge
  rw [show vlabUartBase + 0x00 = vlabUartTxdata from by decide]
  split_ifs <;> rfl

end VlabSoc
