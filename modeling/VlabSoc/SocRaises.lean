/-
The lines raised in a run, and the interrupt controller event by event.

`socRaises s e` lists the lines that an event passes to `soc_intc_raise`, in order:
from the UART, the TIMER and the engine on a tick, from the engine on a write, from
the test hook.  On a wired SoC an event resets the controller, or is an ACK, or a
write to it, or raises its lines (`SocWired.intc_cases`), so that its bits are latches:

* `SocWired.apply_pending` — PENDING, set by a raise, cleared by the ACK that
  answers with the line;
* `SocWired.apply_active` — ACTIVE, set by that ACK, cleared by a CLEAR write.

A reset or a boot clears both.
-/
import VlabSoc.Isolation

namespace VlabSoc

/-- The lines the engine raises in an event. -/
def dmaRaises (s : Soc) : SocEvent → List Int
  | .write addr value =>
    if addr % 4 = 0 ∧ socRoute s addr = 4 then
      (socDmaWrite s.dma (socPerfCountMem s.perf) (addr - vlabDmaBase) value).2.raises
    else []
  | .tick =>
    let s := socTickFront s
    (socDmaStep s.dma s.perf ⟨s.uart, s.sram⟩).raises
  | _ => []

/-- All lines raised in an event. -/
def socRaises (s : Soc) : SocEvent → List Int
  | .tick => (socUartStep s.uart).2 ++ (socTimerStep s.timer).2 ++ dmaRaises s .tick
  | .raise line => [line]
  | e => dmaRaises s e

/-- The event is an ACK read that answers `line`. -/
def socAcks (line : ℕ) : Soc × SocEvent → Bool
  | (s, .read addr out) =>
    decide (addr = vlabIntcAck ∧ (socRead s addr out).out = BitVec.ofNat 32 line)
  | _ => false

/-- The event is a CLEAR write for `line`. -/
def SocEvent.clearsLine (line : ℕ) : SocEvent → Bool
  | .write addr value => decide (addr = vlabIntcClear ∧ value.toNat = line)
  | _ => false

/-- A reset of the peripherals, alone or as part of a boot. -/
def SocEvent.resets : SocEvent → Bool
  | .resetPeripherals => true
  | .boot _ _ => true
  | _ => false

/-! ### Raises -/

/-- Only DMA registers make the engine raise. -/
theorem dmaRaises_write_other {addr : Word} (haddr : addr ∉ dmaRegs) (s : Soc) (value : Word) :
    dmaRaises s (.write addr value) = [] := by
  rw [dmaRaises]
  split_ifs
  · rw [socDmaWrite_other (dmaOffset_other haddr)]
  · rfl

theorem SocWired.dmaRaises_write {s : Soc} (h : SocWired s) {addr : Word} (ha : addr ∈ dmaRegs)
    (value : Word) :
    dmaRaises s (.write addr value) =
      (socDmaWrite s.dma (socPerfCountMem s.perf) (addr - vlabDmaBase) value).2.raises := by
  have hfix : addr % 4 = 0 ∧ socBusRoute vlabMemoryMap vlabMemoryMapN addr = 4 := by
    simp only [dmaRegs, List.mem_cons, List.not_mem_nil, or_false] at ha
    rcases ha with rfl | rfl | rfl | rfl | rfl <;> exact ⟨by decide, by decide⟩
  rw [dmaRaises, if_pos ⟨hfix.1, (h.route addr).trans hfix.2⟩]

/-- The raises of a tick arrive in the order UART, TIMER, DMA. -/
theorem socTick_intc (s : Soc) : (socTick s).intc = socIntcRaiseAll s.intc (socRaises s .tick) := by
  rw [socRaises, socIntcRaiseAll_append, socIntcRaiseAll_append]
  rfl

theorem SocWired.write_dma_intc {s : Soc} (h : SocWired s) {addr : Word} (ha : addr ∈ dmaRegs)
    (value : Word) :
    (socWrite s addr value).soc.intc =
      socIntcRaiseAll s.intc (socRaises s (.write addr value)) := by
  rw [socRaises, h.dmaRaises_write ha, h.write_dmaReg ha]
  · exact SocEvent.noConfusion
  · exact fun _ => SocEvent.noConfusion

/-! ### Resets -/

/-- Nothing is raised during a boot. -/
theorem SocWired.boot_intc {s : Soc} (h : SocWired s) (romWords : Option (List Word))
    (nwords : Word) : (socBoot s romWords nwords).intc = socIntcInit := by
  have hticks : ∀ e ∈ List.replicate socBootTicks.toNat SocEvent.tick, e = .tick := fun e he =>
    List.eq_of_mem_replicate he
  have hreset : (socBootReset s romWords nwords).front = frontReset s.uart.latencyTicks ∧
      (socBootReset s romWords nwords).dma.busy = false ∧
      (socBootReset s romWords nwords).intc = socIntcInit := by
    rw [socBootReset_frame]
    exact ⟨rfl, rfl, rfl⟩
  have hrun := Runs.run_invariant socApply
    (P := fun t => SocWired t ∧ t.front = frontReset s.uart.latencyTicks ∧ t.dma.busy = false ∧
      t.intc = socIntcInit)
    (fun t e he ⟨hw, hfront, hidle, hintc⟩ => by
      subst he
      obtain ⟨huart, htimer⟩ := Prod.mk.inj hfront
      have hstill : socTick t = socTickFront t :=
        socTickDma_idle (s := socTickFront t) (Or.inl hidle)
      refine ⟨hw.tick, hw.tick_frontReset hfront, ?_, ?_⟩
      · exact (congrArg (fun u => u.dma.busy) hstill).trans hidle
      · show (socTick t).intc = _
        rw [hstill, socTickFront_frame]
        dsimp only
        rw [(socUartStep_core t.uart).2, huart, htimer, hintc]
        rfl)
    hticks ⟨h.bootReset romWords nwords, hreset⟩
  rw [← socStep_eq_run] at hrun
  exact hrun.2.2.2

theorem SocWired.reset_intc {s : Soc} (h : SocWired s) {e : SocEvent} (he : e.resets = true) :
    (socApply s e).intc = socIntcInit := by
  cases e with
  | resetPeripherals => rfl
  | boot romWords nwords => exact h.boot_intc romWords nwords
  | _ => exact absurd he Bool.false_ne_true

/-! ### ACK reads -/

/-- The two answers of an ACK read. -/
theorem SocWired.read_ack_cases {s : Soc} (h : SocWired s) (out : Word) :
    (socIntcHighest s.intc = none ∧ (socRead s vlabIntcAck out).out = socIrqNone ∧
      (socRead s vlabIntcAck out).soc = { s with perf := socPerfCountMem s.perf }) ∨
    ∃ line, socIntcHighest s.intc = some line ∧ line < socNLines ∧
      (socRead s vlabIntcAck out).out = BitVec.ofNat 32 line ∧
      (socRead s vlabIntcAck out).soc =
        { s with
          intc := s.intc.acked line, perf := socPerfCountIrq (socPerfCountMem s.perf) } := by
  obtain ⟨-, hout, hsoc⟩ := h.read_ack out
  rw [hout, hsoc, socIntcRead_ack]
  cases hline : socIntcHighest s.intc with
  | none => exact Or.inl ⟨rfl, rfl, rfl⟩
  | some line => exact Or.inr ⟨line, rfl, socIntcHighest_lt hline, rfl, rfl⟩

/-- An ACK answers a line exactly when it is the highest. -/
theorem SocWired.acks_iff {s : Soc} (h : SocWired s) {line : ℕ} (hl : line < socNLines)
    (out : Word) :
    socAcks line (s, .read vlabIntcAck out) = true ↔ socIntcHighest s.intc = some line := by
  rw [socAcks, decide_eq_true_iff]
  rcases h.read_ack_cases out with ⟨hnone, hout, -⟩ | ⟨top, hsome, htop, hout, -⟩
  · rw [hnone, hout]
    refine iff_of_false ?_ (by simp)
    rintro ⟨-, heq⟩
    exact line_ne_none hl heq.symm
  · rw [hsome, hout, Option.some_inj]
    constructor
    · rintro ⟨-, heq⟩
      have hnat := congrArg BitVec.toNat heq
      rwa [toNat_line htop, toNat_line hl] at hnat
    · rintro rfl
      exact ⟨rfl, rfl⟩

theorem socAcks_other {addr : Word} (haddr : addr ≠ vlabIntcAck) (line : ℕ) (s : Soc) (out : Word) :
    socAcks line (s, .read addr out) = false := decide_eq_false fun h => haddr h.1

/-! ### One event of the controller -/

/-- An event that acknowledges, clears and resets nothing. -/
structure IntcPassive (s : Soc) (e : SocEvent) : Prop where
  acks : ∀ line < socNLines, socAcks line (s, e) = false
  clears : ∀ line, e.clearsLine line = false
  resets : e.resets = false

/-- A write to no DMA register, on the controller. -/
theorem SocWired.write_other_intc {s : Soc} (h : SocWired s) {addr : Word} (ha : addr ∉ dmaRegs)
    (value : Word) :
    (socWrite s addr value).soc.intc = (socIntcWrite s.intc (addr - vlabIntcBase) value).2 := by
  by_cases hi : addr = vlabIntcEnable ∨ addr = vlabIntcClear
  · rw [h.write_intc hi]
  · have h0 : addr - vlabIntcBase ≠ 0x00 := fun hoff => by
      rw [BitVec.sub_eq_iff_eq_add] at hoff
      exact hi (Or.inl (hoff.trans (by decide)))
    have hc : addr - vlabIntcBase ≠ 0x0C := fun hoff => by
      rw [BitVec.sub_eq_iff_eq_add] at hoff
      exact hi (Or.inr (hoff.trans (by decide)))
    rcases socWrite_intc_cases ha s value with heq | heq
    · rw [heq, socIntcWrite_other h0 hc]
    · exact heq

/-- Everything an event can do to the controller: reset it, take a line from it by an ACK,
write a register, or raise lines. -/
theorem SocWired.intc_cases {s : Soc} (h : SocWired s) (e : SocEvent) :
    (e.resets = true ∧ (∀ line, socAcks line (s, e) = false) ∧ socRaises s e = [] ∧
      (socApply s e).intc = socIntcInit) ∨
    (∃ out top, e = .read vlabIntcAck out ∧ socIntcHighest s.intc = some top ∧
      (socApply s e).intc = s.intc.acked top) ∨
    (∃ addr value, e = .write addr value ∧ socRaises s e = [] ∧
      (socApply s e).intc = (socIntcWrite s.intc (addr - vlabIntcBase) value).2) ∨
    (IntcPassive s e ∧ (socApply s e).intc = socIntcRaiseAll s.intc (socRaises s e)) := by
  cases e with
  | read addr out =>
    by_cases hack : addr = vlabIntcAck
    · subst hack
      rcases h.read_ack_cases out with ⟨hnone, -, hsoc⟩ | ⟨top, htop, -, -, hsoc⟩
      · -- nothing ready: the answer is NONE
        refine Or.inr (Or.inr (Or.inr ⟨⟨fun line hl => ?_, fun _ => rfl, rfl⟩, ?_⟩))
        · rw [Bool.eq_false_iff, ne_eq, h.acks_iff hl, hnone]
          exact Option.some_ne_none line ∘ Eq.symm
        · rw [socApply, hsoc]
          rfl
      · exact Or.inr (Or.inl ⟨out, top, rfl, htop, by rw [socApply, hsoc]⟩)
    · refine Or.inr (Or.inr (Or.inr ⟨⟨fun line _ => socAcks_other hack line s out,
        fun _ => rfl, rfl⟩, ?_⟩))
      rw [socApply, socRead_intc hack]
      rfl
  | write addr value =>
    by_cases ha : addr ∈ dmaRegs
    · have hclear : addr ≠ vlabIntcClear := by
        rintro rfl
        exact absurd ha (by decide)
      exact Or.inr (Or.inr (Or.inr ⟨⟨fun _ _ => rfl,
        fun line => decide_eq_false fun h0 => hclear h0.1, rfl⟩, h.write_dma_intc ha value⟩))
    · refine Or.inr (Or.inr (Or.inl ⟨addr, value, rfl, ?_, h.write_other_intc ha value⟩))
      exact dmaRaises_write_other ha s value
  | tick => exact Or.inr (Or.inr (Or.inr ⟨⟨fun _ _ => rfl, fun _ => rfl, rfl⟩, socTick_intc s⟩))
  | resetPeripherals => exact Or.inl ⟨rfl, fun _ => rfl, rfl, h.reset_intc rfl⟩
  | boot romWords nwords => exact Or.inl ⟨rfl, fun _ => rfl, rfl, h.reset_intc rfl⟩
  | raise line => exact Or.inr (Or.inr (Or.inr ⟨⟨fun _ _ => rfl, fun _ => rfl, rfl⟩, rfl⟩))
  | uartStuck b => exact Or.inr (Or.inr (Or.inr ⟨⟨fun _ _ => rfl, fun _ => rfl, rfl⟩, rfl⟩))
  | dmaStuck b => exact Or.inr (Or.inr (Or.inr ⟨⟨fun _ _ => rfl, fun _ => rfl, rfl⟩, rfl⟩))

/-! ### PENDING and ACTIVE as latches -/

/-- PENDING of a line after an event. -/
theorem SocWired.apply_pending {s : Soc} (h : SocWired s) {line : ℕ} (hl : line < socNLines)
    (e : SocEvent) :
    (socApply s e).intc.pending.getLsbD line = true ↔
      (line : Int) ∈ socRaises s e ∨
        (s.intc.pending.getLsbD line = true ∧
          ¬ (socAcks line (s, e) = true ∨ e.resets = true)) := by
  have hl3 : line < 3 := hl
  rcases h.intc_cases e with ⟨hreset, -, hnone, heq⟩ | ⟨out, top, rfl, htop, heq⟩ |
    ⟨addr, value, rfl, hnone, heq⟩ | ⟨hpassive, heq⟩
  · rw [heq, hnone, hreset]
    simp [socIntcInit]
  · -- the ACK takes the bit of the line it answers
    have hnone : (line : Int) ∉ socRaises s (.read vlabIntcAck out) := List.not_mem_nil
    rw [heq, h.acks_iff hl, htop, Option.some_inj, SocIntc.acked_pending _ (by omega),
      Bool.and_eq_true, decide_eq_true_iff, or_iff_right hnone, eq_comm (a := top)]
    simp [SocEvent.resets]
  · rw [heq, hnone, socIntcWrite_pending]
    simp [socAcks, SocEvent.resets]
  · rw [heq, hpassive.acks line hl, hpassive.resets, socIntcRaiseAll_pending, Bool.or_eq_true,
      decide_eq_true_iff, and_iff_left hl, or_comm]
    simp

/-- ACTIVE of a line after an event. -/
theorem SocWired.apply_active {s : Soc} (h : SocWired s) {line : ℕ} (hl : line < socNLines)
    (e : SocEvent) :
    (socApply s e).intc.active.getLsbD line = true ↔
      socAcks line (s, e) = true ∨
        (s.intc.active.getLsbD line = true ∧ ¬ (e.clearsLine line = true ∨ e.resets = true)) := by
  have hl3 : line < 3 := hl
  rcases h.intc_cases e with ⟨hreset, hnone, -, heq⟩ | ⟨out, top, rfl, htop, heq⟩ |
    ⟨addr, value, rfl, -, heq⟩ | ⟨hpassive, heq⟩
  · rw [heq, hnone, hreset]
    simp [socIntcInit]
  · have htop3 : top < 3 := socIntcHighest_lt htop
    rw [heq, h.acks_iff hl, htop, Option.some_inj, SocIntc.acked_active _ (by omega),
      Bool.or_eq_true, decide_eq_true_iff, or_comm, eq_comm (b := top)]
    simp [SocEvent.resets, SocEvent.clearsLine]
  · have hoff : addr - vlabIntcBase = 0x0C ↔ addr = vlabIntcClear := by
      rw [BitVec.sub_eq_iff_eq_add]
      exact Iff.of_eq rfl
    rw [heq, socIntcWrite_active, SocEvent.clearsLine, decide_eq_true_iff]
    split_ifs with hv
    · rw [getLsbD_clear _ (by omega), Bool.and_eq_true, decide_eq_true_iff, ne_comm]
      simp [socAcks, SocEvent.resets, hoff.mp hv.1]
    · -- another register, or an argument out of range
      have hne : ¬ (addr = vlabIntcClear ∧ value.toNat = line) := fun h0 =>
        hv ⟨hoff.mpr h0.1, by rw [h0.2]; exact hl⟩
      constructor
      · intro hset
        exact Or.inr ⟨hset, fun h0 => h0.elim hne Bool.false_ne_true⟩
      · intro h0
        exact (h0.resolve_left Bool.false_ne_true).1
  · rw [heq, hpassive.acks line hl, hpassive.clears line, hpassive.resets, socIntcRaiseAll_active]
    simp

end VlabSoc
