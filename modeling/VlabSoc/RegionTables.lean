/-
Tables of memory regions (mem_regions.h, bus.c).

The helpers on ranges are arithmetic on `uint64_t` ends; as sets of addresses they say

* `memoryRangeOverlaps_iff` — the ranges share an address;
* `memoryRegionContains_addrs` — every address of the range is one of the region.

In a table of regions that do not overlap at most one entry contains a range, so
that a search finds the owner, in whichever order it goes (`region_lookup`), and the
two passes of `soc_bus_route` agree with the single one of `find_region`
(`decode_agree`).
-/
import VlabSoc.SocBus

namespace VlabSoc

/-! ### Ranges as sets of addresses -/

/-- `x` is an address of the range of `len` bytes at `base`, taken in the integers. -/
def InRange (base len : Word) (x : ℕ) : Prop :=
  base.toNat ≤ x ∧ x < base.toNat + len.toNat

theorem memoryRangeOverlaps_ends {aBase aLen bBase bLen : Word} :
    memoryRangeOverlaps aBase aLen bBase bLen = true ↔
      0 < aLen.toNat ∧ 0 < bLen.toNat ∧ aBase.toNat < bBase.toNat + bLen.toNat ∧
        bBase.toNat < aBase.toNat + aLen.toNat := by
  have hzero : ∀ len : Word, len = 0 ↔ len.toNat = 0 := fun len => by
    rw [← BitVec.toNat_inj]
    rfl
  unfold memoryRangeOverlaps
  split_ifs with h0
  · rw [hzero, hzero] at h0
    refine iff_of_false id ?_
    omega
  · rw [hzero, hzero] at h0
    rw [Bool.and_eq_true, decide_eq_true_iff, decide_eq_true_iff]
    omega

/-- Two ranges overlap when they share an address: the larger of their bases. -/
theorem memoryRangeOverlaps_iff {aBase aLen bBase bLen : Word} :
    memoryRangeOverlaps aBase aLen bBase bLen = true ↔
      ∃ x, InRange aBase aLen x ∧ InRange bBase bLen x := by
  rw [memoryRangeOverlaps_ends]
  constructor
  · intro h
    refine ⟨max aBase.toNat bBase.toNat, ⟨le_max_left _ _, ?_⟩, ⟨le_max_right _ _, ?_⟩⟩
    · exact max_lt (by omega) h.2.2.2
    · exact max_lt h.2.2.1 (by omega)
  · rintro ⟨x, ⟨ha, ha'⟩, ⟨hb, hb'⟩⟩
    omega

theorem memoryRangeOverlaps_comm (aBase aLen bBase bLen : Word) :
    memoryRangeOverlaps aBase aLen bBase bLen = memoryRangeOverlaps bBase bLen aBase aLen := by
  rw [Bool.eq_iff_iff, memoryRangeOverlaps_iff, memoryRangeOverlaps_iff]
  exact exists_congr fun x => and_comm

theorem memoryRangeOverflows_iff {addr len : Word} :
    memoryRangeOverflows addr len = true ↔ 2 ^ 32 < addr.toNat + len.toNat :=
  decide_eq_true_iff

/-- A region contains a range when it has its first and its last address. -/
theorem memoryRegionContains_addrs {r : MemoryRegion} {addr len : Word} :
    memoryRegionContains r addr len = true ↔
      0 < len.toNat ∧ addr.toNat + len.toNat ≤ 2 ^ 32 ∧
        ∀ x, InRange addr len x → InRange r.base r.size x := by
  rw [memoryRegionContains_iff]
  constructor
  · rintro ⟨hlen, hfit, hlow, hhigh⟩
    refine ⟨hlen, hfit, fun x hx => ⟨hlow.trans hx.1, hx.2.trans_le hhigh⟩⟩
  · rintro ⟨hlen, hfit, hall⟩
    have hfirst := hall addr.toNat ⟨le_refl _, by omega⟩
    have hlast := hall (addr.toNat + len.toNat - 1) ⟨by omega, by omega⟩
    exact ⟨hlen, hfit, hfirst.1, by have h2 := hlast.2; omega⟩

/-! ### Tables without overlaps -/

/-- No two entries of the table overlap. -/
def DisjointRegions (table : List MemoryRegion) : Prop :=
  table.Pairwise fun r s => memoryRangeOverlaps r.base r.size s.base s.size = false

instance (table : List MemoryRegion) : Decidable (DisjointRegions table) :=
  inferInstanceAs (Decidable (List.Pairwise _ _))

/-- Two regions with a common range overlap. -/
theorem overlaps_of_contains {r s : MemoryRegion} {addr len : Word}
    (hr : memoryRegionContains r addr len = true) (hs : memoryRegionContains s addr len = true) :
    memoryRangeOverlaps r.base r.size s.base s.size = true := by
  obtain ⟨hlen, -, hall⟩ := memoryRegionContains_addrs.mp hr
  obtain ⟨-, -, hall'⟩ := memoryRegionContains_addrs.mp hs
  have hfirst : InRange addr len addr.toNat := ⟨le_refl _, by omega⟩
  exact memoryRangeOverlaps_iff.mpr ⟨addr.toNat, hall _ hfirst, hall' _ hfirst⟩

/-- At most one index of a table without overlaps holds a region that contains a range. -/
theorem DisjointRegions.index_unique {table : List MemoryRegion} (h : DisjointRegions table)
    {addr len : Word} {i j : ℕ} {hi : i < table.length} {hj : j < table.length}
    (hri : memoryRegionContains table[i] addr len = true)
    (hrj : memoryRegionContains table[j] addr len = true) : i = j := by
  have hpair := List.pairwise_iff_getElem.mp h
  rcases Nat.lt_trichotomy i j with hlt | heq | hgt
  · exact absurd ((hpair i j hi hj hlt).symm.trans (overlaps_of_contains hri hrj))
      Bool.false_ne_true
  · exact heq
  · exact absurd ((hpair j i hj hi hgt).symm.trans (overlaps_of_contains hrj hri))
      Bool.false_ne_true

/-- The owner found is an entry that contains the range. -/
theorem findRegion_getElem {table : List MemoryRegion} {n : Word} (hn : n.toNat = table.length)
    (h : DisjointRegions table) {addr len : Word} {i : ℕ} (hi : i < table.length) :
    findRegion (some table) n addr len = some table[i] ↔
      memoryRegionContains table[i] addr len = true := by
  rw [findRegion, hn, List.take_length, List.find?_eq_some_iff_getElem]
  constructor
  · exact And.left
  · intro hc
    refine ⟨hc, i, hi, rfl, fun j hj => ?_⟩
    rw [Bool.not_eq_true', Bool.eq_false_iff]
    intro hcj
    have heq : j = i := h.index_unique hcj hc
    exact absurd heq hj.ne

theorem findRegion_none {table : List MemoryRegion} {n : Word} (hn : n.toNat = table.length)
    {addr len : Word} :
    findRegion (some table) n addr len = none ↔
      ∀ r ∈ table, memoryRegionContains r addr len = false := by
  rw [findRegion, hn, List.take_length, List.find?_eq_none]
  simp

/-- The range helpers are exact, and a lookup in a table without overlaps finds the one entry
that contains the range, whichever way the table is ordered. -/
theorem region_lookup :
    (∀ aBase aLen bBase bLen : Word,
      (memoryRangeOverlaps aBase aLen bBase bLen = true ↔
        ∃ x, InRange aBase aLen x ∧ InRange bBase bLen x) ∧
      memoryRangeOverlaps aBase aLen bBase bLen = memoryRangeOverlaps bBase bLen aBase aLen) ∧
    (∀ (r : MemoryRegion) (addr len : Word),
      (memoryRegionContains r addr len = true ↔
        0 < len.toNat ∧ addr.toNat + len.toNat ≤ 2 ^ 32 ∧
          ∀ x, InRange addr len x → InRange r.base r.size x) ∧
      memoryRangeValid r addr len = memoryRegionContains r addr len ∧
      (memoryRangeOverflows addr len = true ↔ 2 ^ 32 < addr.toNat + len.toNat)) ∧
    ∀ (table : List MemoryRegion) (n : Word), n.toNat = table.length → DisjointRegions table →
      ∀ addr len : Word,
        (∀ r, findRegion (some table) n addr len = some r ↔
          ∃ i, ∃ hi : i < table.length, table[i] = r ∧ memoryRegionContains r addr len = true ∧
            ∀ j, ∀ hj : j < table.length, memoryRegionContains table[j] addr len = true → j = i) ∧
        (findRegion (some table) n addr len = none ↔
          ∀ r ∈ table, ¬ memoryRegionContains r addr len = true) ∧
        ∀ table' : List MemoryRegion, table'.Perm table →
          findRegion (some table') n addr len = findRegion (some table) n addr len := by
  refine ⟨fun aBase aLen bBase bLen => ⟨memoryRangeOverlaps_iff, memoryRangeOverlaps_comm _ _ _ _⟩,
    fun r addr len => ⟨memoryRegionContains_addrs, ?_, memoryRangeOverflows_iff⟩,
    fun table n hn hdisjoint addr len => ⟨fun r => ?_, ?_, fun table' hperm => ?_⟩⟩
  · -- a range that is contained is not empty
    rw [Bool.eq_iff_iff, memoryRangeValid, Bool.and_eq_true, decide_eq_true_iff]
    exact and_iff_right_of_imp fun hc => BitVec.lt_def.mpr (memoryRegionContains_iff.mp hc).1
  · constructor
    · intro hfound
      have hsome := hfound
      rw [findRegion, hn, List.take_length, List.find?_eq_some_iff_getElem] at hsome
      obtain ⟨hc, i, hi, rfl, -⟩ := hsome
      exact ⟨i, hi, rfl, hc, fun j hj hcj => hdisjoint.index_unique hcj hc⟩
    · rintro ⟨i, hi, rfl, hc, -⟩
      exact (findRegion_getElem hn hdisjoint hi).mpr hc
  · rw [findRegion_none hn]
    simp
  · -- both searches have at most one entry to find
    have hlen : n.toNat = table'.length := hn.trans hperm.length_eq.symm
    rw [findRegion, findRegion, hn, List.take_length, ← hn, hlen, List.take_length]
    refine List.find?_eq_find?_of_perm hperm fun r hr s hs => ?_
    obtain ⟨i, hi, rfl⟩ := List.getElem_of_mem (hperm.mem_iff.mp hr.1)
    obtain ⟨j, hj, rfl⟩ := List.getElem_of_mem (hperm.mem_iff.mp hs.1)
    have heq : i = j := hdisjoint.index_unique hr.2 hs.2
    subst heq
    rfl

/-- A window of the UART, looked up in the VLAB map and in its reverse. -/
theorem region_lookup_vlab :
    findRegion (some vlabMemoryMap.reverse) vlabMemoryMapN vlabUartStatus 4 =
      findRegion (some vlabMemoryMap) vlabMemoryMapN vlabUartStatus 4 :=
  (region_lookup.2.2 vlabMemoryMap vlabMemoryMapN (by decide) (by decide) vlabUartStatus 4).2.2
    vlabMemoryMap.reverse (List.reverse_perm vlabMemoryMap)

/-! ### The two passes of the bus -/

/-- A word-aligned table. -/
def AlignedRegions (table : List MemoryRegion) : Prop :=
  ∀ r ∈ table, r.base.toNat % 4 = 0 ∧ r.size.toNat % 4 = 0

instance (table : List MemoryRegion) : Decidable (AlignedRegions table) :=
  inferInstanceAs (Decidable (∀ r ∈ table, _))

/-- In a word-aligned region a word and its first byte are probed alike. -/
theorem contains_word {r : MemoryRegion} (hr : r.base.toNat % 4 = 0 ∧ r.size.toNat % 4 = 0)
    {addr : Word} (h4 : addr.toNat % 4 = 0) :
    memoryRegionContains r addr 1 = memoryRegionContains r addr 4 := by
  have h1 : (1 : Word).toNat = 1 := rfl
  have h4' : (4 : Word).toNat = 4 := rfl
  have haddr := addr.isLt
  rw [Bool.eq_iff_iff, memoryRegionContains_iff, memoryRegionContains_iff, h1, h4']
  omega

theorem scanFrom_none {p : ℕ → MemoryRegion → Bool} {rs : List MemoryRegion} {k : ℕ}
    (h : ∀ j, ∀ hj : j < rs.length, p (k + j) rs[j] = false) : scanFrom p k rs = none := by
  induction rs generalizing k with
  | nil => rfl
  | cons r rs ih =>
    have hfirst : p k r = false := h 0 (Nat.zero_lt_succ _)
    rw [scanFrom, if_neg (by rw [hfirst]; exact Bool.false_ne_true)]
    refine ih fun j hj => ?_
    have hnext := h (j + 1) (Nat.succ_lt_succ hj)
    rwa [List.getElem_cons_succ, Nat.add_comm j, ← Nat.add_assoc] at hnext

/-- The scan stops at the first index that passes. -/
theorem scanFrom_first {p : ℕ → MemoryRegion → Bool} {rs : List MemoryRegion} {k i : ℕ}
    (hi : i < rs.length) (hp : p (k + i) rs[i] = true)
    (h : ∀ j, ∀ hj : j < i, p (k + j) rs[j] = false) : scanFrom p k rs = some (k + i) := by
  induction rs generalizing k i with
  | nil => exact absurd hi (Nat.not_lt_zero i)
  | cons r rs ih =>
    cases i with
    | zero =>
      rw [scanFrom, if_pos]
      · rfl
      · exact hp
    | succ i =>
      have hfirst : p k r = false := h 0 (Nat.zero_lt_succ _)
      rw [scanFrom, if_neg (by rw [hfirst]; exact Bool.false_ne_true)]
      rw [List.getElem_cons_succ, Nat.add_comm i, ← Nat.add_assoc] at hp
      rw [ih (Nat.lt_of_succ_lt_succ hi) hp fun j hj => ?_, Nat.add_comm i, ← Nat.add_assoc]
      rw [show k + 1 + j = k + (j + 1) by omega]
      exact h (j + 1) (Nat.succ_lt_succ hj)

/-- `(int)` of an index below `2 ^ 31` is the index. -/
theorem cInt_of_lt {i : ℕ} (hi : i < 2 ^ 31) : cInt i = i := by
  have hnat : (BitVec.ofNat 32 i).toNat = i := by
    rw [BitVec.toNat_ofNat]
    omega
  rw [cInt, BitVec.toInt_eq_toNat_of_lt (by omega), hnat]

/-- And negative from there on. -/
theorem cInt_neg {i : ℕ} (hlow : 2 ^ 31 ≤ i) (hhigh : i < 2 ^ 32) : cInt i < 0 := by
  have hnat : (BitVec.ofNat 32 i).toNat = i := by
    rw [BitVec.toNat_ofNat]
    omega
  rw [cInt, BitVec.toInt_eq_toNat_cond, if_neg (by omega), hnat]
  omega

section Decode

variable {regions : List MemoryRegion} {n : Word} (hn : n.toNat = regions.length)
  (haligned : AlignedRegions regions) {addr : Word} (h4 : addr.toNat % 4 = 0)

include hn haligned h4

/-- Nobody owns the address: both passes of the bus come to their end. -/
theorem socBusRoute_none (hnone : ∀ r ∈ regions, memoryRegionContains r addr 4 = false) :
    socBusRoute regions n addr = -1 := by
  have hword : scanFrom (fun _ r => memoryRegionContains r addr 4) 0 regions = none :=
    scanFrom_none fun j hj => hnone _ (List.getElem_mem hj)
  have hbyte : scanFrom (fun i r => memoryRegionContains r addr 1 && decide (2 ≤ cInt i)) 0
      regions = none := by
    refine scanFrom_none fun j hj => ?_
    rw [contains_word (haligned _ (List.getElem_mem hj)) h4, hnone _ (List.getElem_mem hj),
      Bool.false_and]
  rw [socBusRoute, hn, List.take_length, hword, hbyte]
  rfl

/-- Entry `i` owns the address: the bus answers its index, if an `int` holds it. -/
theorem socBusRoute_owner (hdisjoint : DisjointRegions regions) {i : ℕ} (hi : i < regions.length)
    (hc : memoryRegionContains regions[i] addr 4 = true) :
    socBusRoute regions n addr = if i < 2 ^ 31 then (i : Int) else -1 := by
  have hother : ∀ j, ∀ hj : j < regions.length, j ≠ i →
      memoryRegionContains regions[j] addr 4 = false := fun j hj hne =>
    Bool.eq_false_iff.mpr fun hcj => hne (hdisjoint.index_unique hcj hc)
  have hword : scanFrom (fun _ r => memoryRegionContains r addr 4) 0 regions = some i := by
    rw [scanFrom_first hi hc fun j hj => hother j (hj.trans hi) hj.ne, Nat.zero_add]
  have hwide : i < 2 ^ 32 := by
    have hlt := n.isLt
    omega
  rw [socBusRoute, hn, List.take_length, hword]
  show (if cInt i = 0 ∨ cInt i = 1 then cInt i else _) = _
  by_cases hint : i < 2 ^ 31
  · rw [if_pos hint, cInt_of_lt hint]
    by_cases hfirst : (i : Int) = 0 ∨ (i : Int) = 1
    · rw [if_pos hfirst]
    · -- the second pass finds the same entry
      have hbyte : scanFrom (fun i r => memoryRegionContains r addr 1 && decide (2 ≤ cInt i)) 0
          regions = some i := by
        rw [scanFrom_first hi ?_ fun j hj => ?_, Nat.zero_add]
        · rw [contains_word (haligned _ (List.getElem_mem hi)) h4, hc, Nat.zero_add,
            cInt_of_lt hint, Bool.true_and, decide_eq_true_iff]
          omega
        · rw [contains_word (haligned _ (List.getElem_mem _)) h4,
            hother j (hj.trans hi) hj.ne, Bool.false_and]
      rw [if_neg hfirst, hbyte]
      exact cInt_of_lt hint
  · -- the index turns negative and both passes miss it
    have hneg := cInt_neg (not_lt.mp hint) hwide
    have hbyte : scanFrom (fun i r => memoryRegionContains r addr 1 && decide (2 ≤ cInt i)) 0
        regions = none := by
      refine scanFrom_none fun j hj => ?_
      by_cases hji : j = i
      · subst hji
        rw [Nat.zero_add, decide_eq_false (by omega), Bool.and_false]
      · rw [contains_word (haligned _ (List.getElem_mem hj)) h4, hother j hj hji, Bool.false_and]
    rw [if_neg hint, if_neg (by omega), hbyte]

end Decode

/-- The bus and the lookup of the DMA agree on who owns a word: over every word-aligned table
without overlaps the bus answers index `i` exactly if `find_region` returns entry `i`, for
every index an `int` holds, and -1 exactly if `find_region` returns nothing or an entry
beyond; up to `2 ^ 31` entries there is no such entry. -/
theorem decode_agree {regions : List MemoryRegion} {n : Word} (hn : n.toNat = regions.length)
    (haligned : AlignedRegions regions) (hdisjoint : DisjointRegions regions) {addr : Word}
    (h4 : addr.toNat % 4 = 0) :
    (∀ i, ∀ hi : i < regions.length, i < 2 ^ 31 →
      (socBusRoute regions n addr = i ↔ findRegion (some regions) n addr 4 = some regions[i])) ∧
    (socBusRoute regions n addr = -1 ↔
      findRegion (some regions) n addr 4 = none ∨
        ∃ i, ∃ hi : i < regions.length, 2 ^ 31 ≤ i ∧
          findRegion (some regions) n addr 4 = some regions[i]) ∧
    (n.toNat ≤ 2 ^ 31 →
      (socBusRoute regions n addr = -1 ↔ findRegion (some regions) n addr 4 = none)) := by
  have hfind : ∀ i, ∀ hi : i < regions.length,
      (findRegion (some regions) n addr 4 = some regions[i] ↔
        memoryRegionContains regions[i] addr 4 = true) := fun i hi =>
    findRegion_getElem hn hdisjoint hi
  by_cases hown : ∃ i, ∃ hi : i < regions.length, memoryRegionContains regions[i] addr 4 = true
  · obtain ⟨i, hi, hc⟩ := hown
    have hroute := socBusRoute_owner hn haligned h4 hdisjoint hi hc
    have hsome := (hfind i hi).mpr hc
    have hunique : ∀ j, ∀ hj : j < regions.length,
        findRegion (some regions) n addr 4 = some regions[j] → j = i := fun j hj hfj =>
      hdisjoint.index_unique ((hfind j hj).mp hfj) hc
    have hnever : findRegion (some regions) n addr 4 ≠ none := by
      rw [hsome]
      exact Option.some_ne_none _
    refine ⟨fun j hj hint => ?_, ?_, fun hsmall => ?_⟩
    · rw [hroute]
      constructor
      · intro heq
        have hji : j = i := by
          split_ifs at heq
          omega
        subst hji
        exact hsome
      · intro hfj
        obtain rfl := hunique j hj hfj
        exact if_pos hint
    · rw [hroute, or_iff_right hnever]
      constructor
      · intro heq
        have hint : ¬ i < 2 ^ 31 := fun hlt => by
          rw [if_pos hlt] at heq
          omega
        exact ⟨i, hi, not_lt.mp hint, hsome⟩
      · rintro ⟨j, hj, hfar, hfj⟩
        obtain rfl := hunique j hj hfj
        exact if_neg (not_lt.mpr hfar)
    · rw [hroute, if_pos (by omega)]
      exact iff_of_false (by omega) hnever
  · have hnone : ∀ r ∈ regions, memoryRegionContains r addr 4 = false := by
      intro r hr
      obtain ⟨i, hi, rfl⟩ := List.getElem_of_mem hr
      exact Bool.eq_false_iff.mpr fun hc => hown ⟨i, hi, hc⟩
    have hroute := socBusRoute_none hn haligned h4 hnone
    have hnothing := (findRegion_none hn).mpr hnone
    refine ⟨fun j hj _ => ?_, iff_of_true hroute (Or.inl hnothing),
      fun _ => iff_of_true hroute hnothing⟩
    rw [hroute, hnothing]
    exact iff_of_false (by omega) (Option.some_ne_none _).symm

/-- The SRAM on the VLAB map. -/
theorem decode_agree_vlab :
    socBusRoute vlabMemoryMap vlabMemoryMapN vlabSramBase = ((1 : ℕ) : Int) ↔
      findRegion (some vlabMemoryMap) vlabMemoryMapN vlabSramBase 4 = some vlabMemoryMap[1] := by
  have h4 : vlabSramBase.toNat % 4 = 0 := by decide
  have hn : vlabMemoryMapN.toNat = vlabMemoryMap.length := by decide
  exact (decode_agree hn (by decide) (by decide) h4).1 1 (by decide) (by decide)

/-- `k` empty regions with an SRAM behind them. -/
def farTable (k : ℕ) : List MemoryRegion :=
  List.replicate k ⟨0, 0, .rom⟩ ++ [⟨vlabSramBase, 65536, .sram⟩]

theorem farTable_length (k : ℕ) : (farTable k).length = k + 1 := by
  rw [farTable, List.length_append, List.length_replicate, List.length_singleton]

theorem farTable_aligned (k : ℕ) : AlignedRegions (farTable k) := by
  intro r hr
  rcases List.mem_append.mp hr with hr | hr
  · rw [List.eq_of_mem_replicate hr]
    decide
  · rw [List.mem_singleton.mp hr]
    decide

theorem farTable_disjoint (k : ℕ) : DisjointRegions (farTable k) := by
  refine List.pairwise_append.mpr ⟨List.pairwise_replicate.mpr (Or.inr rfl),
    List.pairwise_singleton _ _, fun r hr s _ => ?_⟩
  rw [List.eq_of_mem_replicate hr]
  rfl

/-- With its owner at index `2 ^ 31` an address is mapped for the DMA and unmapped on the bus. -/
theorem decode_beyond_int :
    ¬ ∀ (regions : List MemoryRegion) (n : Word), n.toNat = regions.length → 2 ≤ n.toNat →
      AlignedRegions regions → DisjointRegions regions → ∀ addr : Word, addr.toNat % 4 = 0 →
        (∀ i, ∀ hi : i < regions.length,
          (socBusRoute regions n addr = i ↔
            findRegion (some regions) n addr 4 = some regions[i])) ∧
        (socBusRoute regions n addr = -1 ↔ findRegion (some regions) n addr 4 = none) := by
  intro hall
  obtain ⟨k, hk⟩ : ∃ k : ℕ, k = 2 ^ 31 := ⟨_, rfl⟩
  have hn : (0x80000001 : Word).toNat = (farTable k).length := by
    rw [farTable_length, hk]
    rfl
  have hi : k < (farTable k).length := by
    rw [farTable_length]
    omega
  have hlast : (farTable k)[k] = ⟨vlabSramBase, 65536, .sram⟩ := by
    simp [farTable]
  have hc : memoryRegionContains (farTable k)[k] vlabSramBase 4 = true := by
    rw [hlast]
    decide
  have h4 : vlabSramBase.toNat % 4 = 0 := by decide
  have hroute := socBusRoute_owner hn (farTable_aligned k) h4 (farTable_disjoint k) hi hc
  rw [if_neg (by omega)] at hroute
  have hclaim := (hall (farTable k) 0x80000001 hn (by decide) (farTable_aligned k)
    (farTable_disjoint k) vlabSramBase (by decide)).2.mp hroute
  rw [(findRegion_getElem hn (farTable_disjoint k) hi).mpr hc] at hclaim
  exact Option.some_ne_none _ hclaim

end VlabSoc
