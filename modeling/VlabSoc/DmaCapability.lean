/-
The capability model of DMA.

What a platform lets its DMA do, in the terms of dma_caps.h: which addresses can be the memory
end or the peripheral end of a transfer (`MemoryEnd`, `PeripheralEnd`), and which pairs of ends
it supports (`Capable`).  With an endpoint table the peripheral ends are the listed FIFOs that
have the role; without one they are the regions that `dma_address_valid` admits.

* `startCheck_iff` — the checks of a START decide the model, with a table and without;
* `Capable.mono` — more capabilities allow more;
* `capability_model` — engine and driver accept exactly what the model allows.
-/
import VlabSoc.DmaValidate

namespace VlabSoc

variable {M : Type}

/-! ### The model -/

/-- A multiple of the granularity. -/
def DmaCaps.Aligned (caps : DmaCaps) (w : Word) : Prop :=
  1 < caps.alignment → w % caps.alignment = 0

/-- An endpoint table is installed. -/
def SocDmaConfig.Strict (c : SocDmaConfig M) : Prop := c.periphEps.isSome ∨ 0 < c.nPeriphEps

instance (c : SocDmaConfig M) : Decidable c.Strict := inferInstanceAs (Decidable (_ ∨ _))

/-- The address can be the memory end of a transfer of `len` bytes. -/
def MemoryEnd (c : SocDmaConfig M) (addr len : Word) : Prop :=
  dmaAddressValid c.regions c.nRegions (some c.caps) addr len dmaAddrMem = true ∧
    dmaPeriphFind c.periphEps c.nPeriphEps addr = none

/-- The address can be its peripheral end, in the role. -/
def PeripheralEnd (c : SocDmaConfig M) (role addr len : Word) : Prop :=
  if c.Strict then
    len ≠ 0 ∧ c.caps.Aligned addr ∧ c.caps.Aligned len ∧
      ∃ ep ∈ dmaPeriphFind c.periphEps c.nPeriphEps addr, ep.roles &&& role ≠ 0
  else dmaAddressValid c.regions c.nRegions (some c.caps) addr len dmaAddrPeripheral = true

/-- The platform supports the transfer. -/
structure Capable (c : SocDmaConfig M) (src dst len : Word) : Prop where
  max : c.caps.maxTransfer = 0 ∨ len ≤ c.caps.maxTransfer
  ends :
    (c.caps.supportsRamToRam = true ∧ MemoryEnd c src len ∧ MemoryEnd c dst len) ∨
    (c.caps.supportsMemToPeriph = true ∧ MemoryEnd c src len ∧ PeripheralEnd c dmaEpDst dst len) ∨
    (c.caps.supportsPeriphToMem = true ∧ PeripheralEnd c dmaEpSrc src len ∧ MemoryEnd c dst len)

/-! ### Ends and endpoint classes -/

theorem dmaAddressValid_iff {table : Option (List MemoryRegion)} {n : Word} {caps : DmaCaps}
    {addr len : Word} {type : Int} (htype : type = dmaAddrMem ∨ type = dmaAddrPeripheral) :
    dmaAddressValid table n (some caps) addr len type = true ↔
      len ≠ 0 ∧ caps.Aligned addr ∧ caps.Aligned len ∧
        if type = dmaAddrMem then dmaEndpointType table n addr len = 0
        else dmaEndpointType table n addr len = 1 ∨ dmaEndpointType table n addr len = 2 := by
  unfold dmaAddressValid DmaCaps.Aligned
  dsimp only
  by_cases hlen : len = 0
  · rw [if_pos hlen]
    exact iff_of_false Bool.false_ne_true fun h => h.1 hlen
  by_cases halign : 1 < caps.alignment ∧ (addr % caps.alignment ≠ 0 ∨ len % caps.alignment ≠ 0)
  · rw [if_neg hlen, if_pos halign]
    refine iff_of_false Bool.false_ne_true fun h => ?_
    exact halign.2.elim (fun h0 => h0 (h.2.1 halign.1)) fun h0 => h0 (h.2.2.1 halign.1)
  have haddr : 1 < caps.alignment → addr % caps.alignment = 0 := fun h1 => by
    by_contra h0
    exact halign ⟨h1, Or.inl h0⟩
  have hmult : 1 < caps.alignment → len % caps.alignment = 0 := fun h1 => by
    by_contra h0
    exact halign ⟨h1, Or.inr h0⟩
  rw [if_neg hlen, if_neg halign, and_iff_right hlen, and_iff_right haddr, and_iff_right hmult]
  rcases htype with rfl | rfl
  · split_ifs <;> simp <;> omega
  · split_ifs <;> simp <;> omega

/-- Without a table no endpoint is found. -/
theorem find_legacy {c : SocDmaConfig M} (h : ¬ c.Strict) (addr : Word) :
    dmaPeriphFind c.periphEps c.nPeriphEps addr = none := by
  cases heps : c.periphEps with
  | none => rfl
  | some t => exact absurd (Or.inl (by rw [heps, Option.isSome_some])) h

section Class

variable {c : SocDmaConfig M} {addr len : Word}

/-- The class of an address by the region map alone. -/
def regionClass (c : SocDmaConfig M) (addr len : Word) : Int :=
  match findRegion c.regions c.nRegions addr len with
  | none => -1
  | some r => if r.type = .sram ∨ r.type = .dram then 0 else -2

theorem class_strict (hs : c.Strict) :
    socEndpointClass c.regions c.nRegions c.periphEps c.nPeriphEps addr len =
      if (dmaPeriphFind c.periphEps c.nPeriphEps addr).isSome then 1
      else regionClass c addr len := if_pos hs

theorem class_legacy (hs : ¬ c.Strict) :
    socEndpointClass c.regions c.nRegions c.periphEps c.nPeriphEps addr len =
      dmaEndpointType c.regions c.nRegions addr len := if_neg hs

theorem regionClass_cases (c : SocDmaConfig M) (addr len : Word) :
    (regionClass c addr len = 0 ∧ dmaEndpointType c.regions c.nRegions addr len = 0) ∨
      (regionClass c addr len < 0 ∧ dmaEndpointType c.regions c.nRegions addr len ≠ 0) := by
  unfold regionClass dmaEndpointType
  cases findRegion c.regions c.nRegions addr len with
  | none => exact Or.inr ⟨by decide, by decide⟩
  | some r =>
    dsimp only
    split_ifs
    · exact Or.inl ⟨rfl, rfl⟩
    · exact Or.inr ⟨by decide, by decide⟩
    · exact Or.inr ⟨by decide, by decide⟩

/-- Memory is the class 0, with a table and without. -/
theorem class_memory :
    socEndpointClass c.regions c.nRegions c.periphEps c.nPeriphEps addr len = 0 ↔
      dmaEndpointType c.regions c.nRegions addr len = 0 ∧
        dmaPeriphFind c.periphEps c.nPeriphEps addr = none := by
  by_cases hs : c.Strict
  · rw [class_strict hs]
    cases hfind : dmaPeriphFind c.periphEps c.nPeriphEps addr with
    | some ep => simp
    | none =>
      rw [if_neg (by simp), and_iff_left rfl]
      rcases regionClass_cases c addr len with ⟨h0, h1⟩ | ⟨h0, h1⟩
      · exact iff_of_true h0 h1
      · exact iff_of_false h0.ne h1
  · rw [class_legacy hs, and_iff_left (find_legacy hs addr)]

/-- A peripheral is a listed FIFO or, without a table, a region that is not memory. -/
theorem class_peripheral :
    (socEndpointClass c.regions c.nRegions c.periphEps c.nPeriphEps addr len = 1 ∨
        socEndpointClass c.regions c.nRegions c.periphEps c.nPeriphEps addr len = 2) ↔
      if c.Strict then (dmaPeriphFind c.periphEps c.nPeriphEps addr).isSome = true
      else dmaEndpointType c.regions c.nRegions addr len = 1 ∨
        dmaEndpointType c.regions c.nRegions addr len = 2 := by
  by_cases hs : c.Strict
  · rw [class_strict hs, if_pos hs]
    cases hfind : dmaPeriphFind c.periphEps c.nPeriphEps addr with
    | some ep => simp
    | none =>
      have hle : regionClass c addr len ≤ 0 := by
        rcases regionClass_cases c addr len with ⟨h0, -⟩ | ⟨h0, -⟩
        · exact h0.le
        · exact h0.le
      rw [if_neg (by simp)]
      exact iff_of_false (by omega) (by simp)
  · rw [class_legacy hs, if_neg hs]

theorem memoryEnd_iff :
    MemoryEnd c addr len ↔ len ≠ 0 ∧ c.caps.Aligned addr ∧ c.caps.Aligned len ∧
      socEndpointClass c.regions c.nRegions c.periphEps c.nPeriphEps addr len = 0 := by
  rw [MemoryEnd, dmaAddressValid_iff (Or.inl rfl), if_pos rfl, class_memory]
  tauto

/-- The role is checked of a listed FIFO alone. -/
theorem peripheralEnd_iff {role : Word} :
    PeripheralEnd c role addr len ↔ len ≠ 0 ∧ c.caps.Aligned addr ∧ c.caps.Aligned len ∧
      (socEndpointClass c.regions c.nRegions c.periphEps c.nPeriphEps addr len = 1 ∨
        socEndpointClass c.regions c.nRegions c.periphEps c.nPeriphEps addr len = 2) ∧
      ¬ (c.Strict ∧ ∃ ep ∈ dmaPeriphFind c.periphEps c.nPeriphEps addr, ep.roles &&& role = 0) := by
  rw [PeripheralEnd, class_peripheral]
  by_cases hs : c.Strict
  · rw [if_pos hs, if_pos hs]
    cases hfind : dmaPeriphFind c.periphEps c.nPeriphEps addr with
    | none => simp
    | some ep => simp [hs]
  · rw [if_neg hs, if_neg hs, dmaAddressValid_iff (Or.inr rfl), if_neg (by decide)]
    simp [hs]

end Class

/-! ### The checks of a START -/

theorem dmaDirectionSupported_iff {caps : DmaCaps} {srcType dstType : Int} :
    dmaDirectionSupported (some caps) srcType dstType = true ↔
      (caps.supportsRamToRam = true ∧ srcType = 0 ∧ dstType = 0) ∨
      (caps.supportsMemToPeriph = true ∧ srcType = 0 ∧ (dstType = 1 ∨ dstType = 2)) ∨
      (caps.supportsPeriphToMem = true ∧ (srcType = 1 ∨ srcType = 2) ∧ dstType = 0) := by
  unfold dmaDirectionSupported
  dsimp only
  split_ifs with hrr hmp hpm
  · obtain ⟨rfl, rfl⟩ := hrr
    simp
  · obtain ⟨rfl, hdst⟩ := hmp
    rcases hdst with rfl | rfl <;> simp
  · obtain ⟨hsrc, rfl⟩ := hpm
    rcases hsrc with rfl | rfl <;> simp
  · refine iff_of_false not_false ?_
    rintro (⟨-, hs, hd⟩ | ⟨-, hs, hd⟩ | ⟨-, hs, hd⟩)
    · exact hrr ⟨hs, hd⟩
    · exact hmp ⟨hs, hd⟩
    · exact hpm ⟨hs, hd⟩

/-- The granularity as the checks read it. -/
theorem aligned_iff {caps : DmaCaps} {w : Word} :
    caps.Aligned w ↔ ¬ (1 < (if 1 < caps.alignment then caps.alignment else 1) ∧
      w % (if 1 < caps.alignment then caps.alignment else 1) ≠ 0) := by
  rw [DmaCaps.Aligned]
  split_ifs with h1
  · rw [not_and_not_right]
  · exact iff_of_true (fun h0 => absurd h0 h1) fun h0 => absurd h0.1 (by decide)

/-- The checks one by one.  An endpoint of a negative class supports no direction. -/
theorem startCheck_none {c : SocDmaConfig M} {src dst len : Word} :
    socDmaStartCheck c src dst len = none ↔
      len ≠ 0 ∧ c.caps.Aligned len ∧ c.caps.Aligned src ∧ c.caps.Aligned dst ∧
      (c.caps.maxTransfer = 0 ∨ len ≤ c.caps.maxTransfer) ∧
      ¬ (c.Strict ∧ ∃ e ∈ dmaPeriphFind c.periphEps c.nPeriphEps src, e.roles &&& dmaEpSrc = 0) ∧
      ¬ (c.Strict ∧ ∃ e ∈ dmaPeriphFind c.periphEps c.nPeriphEps dst, e.roles &&& dmaEpDst = 0) ∧
      dmaDirectionSupported (some c.caps)
        (socEndpointClass c.regions c.nRegions c.periphEps c.nPeriphEps src len)
        (socEndpointClass c.regions c.nRegions c.periphEps c.nPeriphEps dst len) = true := by
  have hfails : ∀ {code : Word} {P : Prop}, ¬ P → ((some code : Option Word) = none ↔ P) :=
    fun hP => iff_of_false (Option.some_ne_none _) hP
  unfold socDmaStartCheck
  simp only [aligned_iff]
  set align : Word := if 1 < c.caps.alignment then c.caps.alignment else 1
  set srcType := socEndpointClass c.regions c.nRegions c.periphEps c.nPeriphEps src len
  set dstType := socEndpointClass c.regions c.nRegions c.periphEps c.nPeriphEps dst len
  by_cases hlen : len = 0 ∨ (1 < align ∧ len % align ≠ 0)
  · rw [if_pos hlen]
    exact hfails fun h => hlen.elim h.1 h.2.1
  by_cases halign : 1 < align ∧ (src % align ≠ 0 ∨ dst % align ≠ 0)
  · rw [if_neg hlen, if_pos halign]
    exact hfails fun h => halign.2.elim (fun h0 => h.2.2.1 ⟨halign.1, h0⟩)
      fun h0 => h.2.2.2.1 ⟨halign.1, h0⟩
  by_cases hmax : c.caps.maxTransfer ≠ 0 ∧ c.caps.maxTransfer < len
  · rw [if_neg hlen, if_neg halign, if_pos hmax]
    exact hfails fun h => h.2.2.2.2.1.elim hmax.1 fun h0 => absurd hmax.2 (by bv_omega)
  rw [if_neg hlen, if_neg halign, if_neg hmax]
  by_cases hneg : srcType < 0 ∨ dstType < 0
  · rw [if_pos hneg]
    refine hfails fun h => ?_
    have hdir := dmaDirectionSupported_iff.mp h.2.2.2.2.2.2.2
    omega
  by_cases hrole : (c.periphEps.isSome ∨ 0 < c.nPeriphEps) ∧
      ((∃ e ∈ dmaPeriphFind c.periphEps c.nPeriphEps src, e.roles &&& dmaEpSrc = 0) ∨
        ∃ e ∈ dmaPeriphFind c.periphEps c.nPeriphEps dst, e.roles &&& dmaEpDst = 0)
  · rw [if_neg hneg, if_pos hrole]
    exact hfails fun h => hrole.2.elim (fun h0 => h.2.2.2.2.2.1 ⟨hrole.1, h0⟩)
      fun h0 => h.2.2.2.2.2.2.1 ⟨hrole.1, h0⟩
  rw [if_neg hneg, if_neg hrole]
  by_cases hdir : dmaDirectionSupported (some c.caps) srcType dstType = false
  · rw [if_pos hdir]
    exact hfails fun h => absurd (hdir.symm.trans h.2.2.2.2.2.2.2) Bool.false_ne_true
  · rw [if_neg hdir]
    refine iff_of_true rfl ⟨fun h0 => hlen (Or.inl h0), fun h0 => hlen (Or.inr h0),
      fun h0 => halign ⟨h0.1, Or.inl h0.2⟩, fun h0 => halign ⟨h0.1, Or.inr h0.2⟩, ?_,
      fun h0 => hrole ⟨h0.1, Or.inl h0.2⟩, fun h0 => hrole ⟨h0.1, Or.inr h0.2⟩,
      Bool.not_eq_false _ ▸ hdir⟩
    by_contra h0
    rw [not_or, BitVec.not_le] at h0
    exact hmax h0

/-- With an endpoint table and without, the checks of a START decide the model. -/
theorem startCheck_iff {c : SocDmaConfig M} {src dst len : Word} :
    socDmaStartCheck c src dst len = none ↔ Capable c src dst len := by
  rw [startCheck_none, dmaDirectionSupported_iff]
  constructor
  · rintro ⟨hlen, hmult, hsrc, hdst, hmax, hread, hwrite, hends⟩
    refine ⟨hmax, ?_⟩
    rcases hends with ⟨hcap, hs, hd⟩ | ⟨hcap, hs, hd⟩ | ⟨hcap, hs, hd⟩
    · exact Or.inl ⟨hcap, memoryEnd_iff.mpr ⟨hlen, hsrc, hmult, hs⟩,
        memoryEnd_iff.mpr ⟨hlen, hdst, hmult, hd⟩⟩
    · exact Or.inr (Or.inl ⟨hcap, memoryEnd_iff.mpr ⟨hlen, hsrc, hmult, hs⟩,
        peripheralEnd_iff.mpr ⟨hlen, hdst, hmult, hd, hwrite⟩⟩)
    · exact Or.inr (Or.inr ⟨hcap, peripheralEnd_iff.mpr ⟨hlen, hsrc, hmult, hs, hread⟩,
        memoryEnd_iff.mpr ⟨hlen, hdst, hmult, hd⟩⟩)
  · rintro ⟨hmax, hends⟩
    -- memory is not a listed FIFO, so no role is asked of it
    have hfree : ∀ {addr role : Word}, MemoryEnd c addr len →
        ¬ (c.Strict ∧ ∃ e ∈ dmaPeriphFind c.periphEps c.nPeriphEps addr, e.roles &&& role = 0) := by
      rintro addr role hm ⟨-, e, he, -⟩
      rw [hm.2] at he
      exact absurd he (by simp)
    rcases hends with ⟨hcap, hs, hd⟩ | ⟨hcap, hs, hd⟩ | ⟨hcap, hs, hd⟩
    · obtain ⟨hlen, hsrc, hmult, hsc⟩ := memoryEnd_iff.mp hs
      obtain ⟨-, hdst, -, hdc⟩ := memoryEnd_iff.mp hd
      exact ⟨hlen, hmult, hsrc, hdst, hmax, hfree hs, hfree hd, Or.inl ⟨hcap, hsc, hdc⟩⟩
    · obtain ⟨hlen, hsrc, hmult, hsc⟩ := memoryEnd_iff.mp hs
      obtain ⟨-, hdst, -, hdc, hrole⟩ := peripheralEnd_iff.mp hd
      exact ⟨hlen, hmult, hsrc, hdst, hmax, hfree hs, hrole, Or.inr (Or.inl ⟨hcap, hsc, hdc⟩)⟩
    · obtain ⟨hlen, hsrc, hmult, hsc, hrole⟩ := peripheralEnd_iff.mp hs
      obtain ⟨-, hdst, -, hdc⟩ := memoryEnd_iff.mp hd
      exact ⟨hlen, hmult, hsrc, hdst, hmax, hrole, hfree hd, Or.inr (Or.inr ⟨hcap, hsc, hdc⟩)⟩

instance (c : SocDmaConfig M) (src dst len : Word) : Decidable (Capable c src dst len) :=
  decidable_of_iff (socDmaStartCheck c src dst len = none) startCheck_iff

/-! ### More capabilities -/

/-- `b` asks no more of a transfer than `a`, and supports what `a` supports. -/
structure DmaCaps.Within (a b : DmaCaps) : Prop where
  alignment : 1 < b.alignment → 1 < a.alignment ∧ a.alignment % b.alignment = 0
  maxTransfer : b.maxTransfer = 0 ∨ (a.maxTransfer ≠ 0 ∧ a.maxTransfer ≤ b.maxTransfer)
  ramToRam : a.supportsRamToRam = true → b.supportsRamToRam = true
  memToPeriph : a.supportsMemToPeriph = true → b.supportsMemToPeriph = true
  periphToMem : a.supportsPeriphToMem = true → b.supportsPeriphToMem = true

section Within

variable {c : SocDmaConfig M} {caps : DmaCaps} (h : c.caps.Within caps)

include h

theorem DmaCaps.Within.aligned {w : Word} (hw : c.caps.Aligned w) : caps.Aligned w := by
  intro h1
  obtain ⟨hone, hdvd⟩ := h.alignment h1
  have hmod := hw hone
  rw [← BitVec.toNat_inj, BitVec.toNat_umod] at hdvd hmod ⊢
  exact Nat.mod_eq_zero_of_dvd
    ((Nat.dvd_of_mod_eq_zero hdvd).trans (Nat.dvd_of_mod_eq_zero hmod))

theorem MemoryEnd.mono {addr len : Word} (hm : MemoryEnd c addr len) :
    MemoryEnd { c with caps := caps } addr len := by
  obtain ⟨hlen, haddr, hmult, hclass⟩ := memoryEnd_iff.mp hm
  exact memoryEnd_iff.mpr ⟨hlen, h.aligned haddr, h.aligned hmult, hclass⟩

theorem PeripheralEnd.mono {role addr len : Word} (hp : PeripheralEnd c role addr len) :
    PeripheralEnd { c with caps := caps } role addr len := by
  obtain ⟨hlen, haddr, hmult, hclass, hrole⟩ := peripheralEnd_iff.mp hp
  exact peripheralEnd_iff.mpr ⟨hlen, h.aligned haddr, h.aligned hmult, hclass, hrole⟩

/-- More capabilities allow more. -/
theorem Capable.mono {src dst len : Word} (hc : Capable c src dst len) :
    Capable { c with caps := caps } src dst len := by
  refine ⟨?_, ?_⟩
  · rcases h.maxTransfer with hfree | ⟨hbound, hle⟩
    · exact Or.inl hfree
    · exact Or.inr (BitVec.le_trans (hc.max.resolve_left hbound) hle)
  · rcases hc.ends with ⟨hcap, hs, hd⟩ | ⟨hcap, hs, hd⟩ | ⟨hcap, hs, hd⟩
    · exact Or.inl ⟨h.ramToRam hcap, hs.mono h, hd.mono h⟩
    · exact Or.inr (Or.inl ⟨h.memToPeriph hcap, hs.mono h, hd.mono h⟩)
    · exact Or.inr (Or.inr ⟨h.periphToMem hcap, hs.mono h, hd.mono h⟩)

end Within

/-! ### Engine and driver -/

/-- Engine and driver implement the capability model.  For every configuration, with an endpoint
table and without: a START of the engine at rest makes it busy exactly if the model allows the
transfer; the driver's checks, on the same tables, pass exactly if it does; and neither refuses
under more capabilities what it accepted under fewer. -/
theorem capability_model {d : SocDma M} (hidle : d.busy = false) (perf : SocPerf) {value : Word}
    (hstart : value &&& socDmaCtrlStart ≠ 0) {drv : DmaDriver} (htables : SameTables drv d.cfg) :
    ((socDmaWrite d perf 0x0C value).2.dma.busy = true ↔ Capable d.cfg d.src d.dst d.length) ∧
    (∀ src dst len, validateDescriptor drv src dst len = .ok ↔ Capable d.cfg src dst len) ∧
    ∀ caps : DmaCaps, d.cfg.caps.Within caps → ∀ src dst len, Capable d.cfg src dst len →
      Capable { d.cfg with caps := caps } src dst len := by
  refine ⟨?_, fun src dst len => ?_, fun caps hcaps src dst len hc => hc.mono hcaps⟩
  · rw [← startCheck_iff, socDmaWrite_start hstart]
    dsimp only
    cases hcheck : socDmaStartCheck d.cfg d.src d.dst d.length with
    | none =>
      rw [socDmaStart_ok hidle hcheck]
      exact iff_of_true rfl rfl
    | some code =>
      rw [socDmaStart_fail hidle hcheck]
      exact iff_of_false Bool.false_ne_true (Option.some_ne_none code)
  · rw [validateDescriptor_eq htables, rcOfCheck_ok, startCheck_iff]

/-- Without a table a transfer may go to the timer, with 64 bytes and with the default bound. -/
theorem capability_model_legacy :
    let small : DmaCaps := { vlabDmaCaps with maxTransfer := 64 }
    let d : SocDma Unit :=
      { socDmaInit 1 4 (some vlabMemoryMap) vlabMemoryMapN none 0 (some small) socIrqDma none none with
        src := vlabSramBase, dst := vlabTimerBase, length := 64 }
    (socDmaWrite d default 0x0C 0x1).2.dma.busy = true ∧
      Capable { d.cfg with caps := vlabDmaCaps } d.src d.dst d.length := by
  intro small d
  have htables : SameTables (dmaConfigurePeriph (dmaConfigure dmaDriverStart (some vlabMemoryMap)
      vlabMemoryMapN (some small)) none 0) d.cfg :=
    sameTables_configure dmaDriverStart 1 4 small none 0 socIrqDma none none
      (Or.inl ⟨rfl, by decide⟩)
  have hvalue : (0x1 : Word) &&& socDmaCtrlStart ≠ 0 := by decide
  obtain ⟨hstart, -, hmore⟩ := capability_model (d := d) rfl default hvalue htables
  have hcapable : Capable d.cfg d.src d.dst d.length := by decide
  exact ⟨hstart.mpr hcapable, hmore vlabDmaCaps ⟨by decide, by decide, id, id, id⟩ _ _ _ hcapable⟩

end VlabSoc
