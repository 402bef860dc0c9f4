/-
The trace law of the interrupt controller.

In a run from boot PENDING and ACTIVE of a line tell its history, and an ACK read
follows the fixed priority on what is pending and enabled: `intc_trace`.
-/
import VlabSoc.SocRaises

namespace VlabSoc

/-! ### Priority -/

/-- The line is pending and enabled. -/
def SocIntc.Ready (ic : SocIntc) (line : ℕ) : Prop :=
  ic.pending.getLsbD line = true ∧ ic.enable.getLsbD line = true

instance (ic : SocIntc) (line : ℕ) : Decidable (ic.Ready line) :=
  inferInstanceAs (Decidable (_ ∧ _))

theorem socIntcHighest_ready (ic : SocIntc) :
    socIntcHighest ic =
      if ic.Ready 1 then some 1
      else if ic.Ready 2 then some 2
      else if ic.Ready 0 then some 0
      else none := socIntcHighest_eq ic

/-- The lines ahead of `line` in the fixed priority. -/
def linesAhead (line : ℕ) : List ℕ := kPriority.takeWhile fun l => decide (l ≠ line)

theorem socIntcHighest_iff (ic : SocIntc) {line : ℕ} (hl : line < socNLines) :
    socIntcHighest ic = some line ↔ ic.Ready line ∧ ∀ l ∈ linesAhead line, ¬ ic.Ready l := by
  have hl3 : line < 3 := hl
  have ahead0 : linesAhead 0 = [1, 2] := rfl
  have ahead1 : linesAhead 1 = [] := rfl
  have ahead2 : linesAhead 2 = [1] := rfl
  rw [socIntcHighest_ready]
  -- one line at a time: the `if`s of `socIntcHighest_ready` test 1, 2, 0 in this order
  obtain rfl | rfl | rfl : line = 0 ∨ line = 1 ∨ line = 2 := by omega
  · rw [ahead0]
    split_ifs with h1 h2 h0
    · exact iff_of_false (by simp) fun h => h.2 1 (by simp) h1
    · exact iff_of_false (by simp) fun h => h.2 2 (by simp) h2
    · exact iff_of_true rfl ⟨h0, by simp [h1, h2]⟩
    · exact iff_of_false (by simp) fun h => h0 h.1
  · rw [ahead1]
    split_ifs with h1 h2 h0
    · exact iff_of_true rfl ⟨h1, by simp⟩
    all_goals exact iff_of_false (by simp) fun h => h1 h.1
  · rw [ahead2]
    split_ifs with h1 h2 h0
    · exact iff_of_false (by simp) fun h => h.2 1 (by simp) h1
    · exact iff_of_true rfl ⟨h2, by simp [h1]⟩
    all_goals exact iff_of_false (by simp) fun h => h2 h.1

theorem socIntcHighest_none_iff (ic : SocIntc) :
    socIntcHighest ic = none ↔ ∀ line < socNLines, ¬ ic.Ready line := by
  rw [socIntcHighest_ready]
  split_ifs with h1 h2 h0
  · exact iff_of_false (by simp) fun h => h 1 (by decide) h1
  · exact iff_of_false (by simp) fun h => h 2 (by decide) h2
  · exact iff_of_false (by simp) fun h => h 0 (by decide) h0
  · refine iff_of_true rfl fun line hl => ?_
    have hl3 : line < 3 := hl
    obtain rfl | rfl | rfl : line = 0 ∨ line = 1 ∨ line = 2 := by omega
    · exact h0
    · exact h1
    · exact h2

/-! ### Bits above the lines -/

/-- No bit above line 2 in any of the three words. -/
def SocIntc.Narrow (ic : SocIntc) : Prop :=
  ∀ k, socNLines ≤ k →
    ic.pending.getLsbD k = false ∧ ic.active.getLsbD k = false ∧ ic.enable.getLsbD k = false

theorem SocIntc.Narrow.init : socIntcInit.Narrow := fun k _ => by simp [socIntcInit]

theorem SocIntc.Narrow.raiseAll {ic : SocIntc} (h : ic.Narrow) (lines : List Int) :
    (socIntcRaiseAll ic lines).Narrow := by
  intro k hk
  obtain ⟨hp, ha, he⟩ := h k hk
  rw [socIntcRaiseAll_pending, socIntcRaiseAll_active, socIntcRaiseAll_enable, hp,
    decide_eq_false fun h0 => absurd h0.2 (not_lt.mpr hk)]
  exact ⟨rfl, ha, he⟩

theorem SocIntc.Narrow.acked {ic : SocIntc} (h : ic.Narrow) {line : ℕ} (hl : line < socNLines) :
    (ic.acked line).Narrow := by
  intro k hk
  obtain ⟨hp, ha, he⟩ := h k hk
  have hl3 : line < 3 := hl
  have hne : k ≠ line := by
    rintro rfl
    exact absurd hl (not_lt.mpr hk)
  refine ⟨?_, ?_, he⟩
  · show (ic.pending &&& ~~~((1 : Word) <<< line)).getLsbD k = false
    rw [BitVec.getLsbD_and, hp, Bool.false_and]
  · rw [SocIntc.acked_active ic (by omega), ha, decide_eq_false hne]
    rfl

theorem SocIntc.Narrow.write {ic : SocIntc} (h : ic.Narrow) (offset value : Word) :
    (socIntcWrite ic offset value).2.Narrow := by
  unfold socIntcWrite
  split
  · -- ENABLE keeps three bits of the value
    intro k hk
    have h7 : (0x7 : Word).getLsbD k = false := by
      have hk3 : 3 ≤ k := hk
      have h7' : (0x7 : Word) = BitVec.ofNat 32 (2 ^ 3 - 1) := rfl
      rw [h7', BitVec.getLsbD_ofNat, Nat.testBit_two_pow_sub_one]
      simp [show ¬ k < 3 by omega]
    refine ⟨(h k hk).1, (h k hk).2.1, ?_⟩
    show (value &&& 0x7).getLsbD k = false
    rw [BitVec.getLsbD_and, h7, Bool.and_false]
  · -- CLEAR takes bits away from ACTIVE
    dsimp only
    split_ifs
    · intro k hk
      obtain ⟨hp, ha, he⟩ := h k hk
      refine ⟨hp, ?_, he⟩
      rw [BitVec.getLsbD_and, ha, Bool.false_and]
    · exact h
  · exact h

theorem SocWired.apply_narrow {s : Soc} (h : SocWired s) (hn : s.intc.Narrow) (e : SocEvent) :
    (socApply s e).intc.Narrow := by
  rcases h.intc_cases e with ⟨-, -, -, heq⟩ | ⟨out, top, -, htop, heq⟩ |
    ⟨addr, value, -, -, heq⟩ | ⟨-, heq⟩
  · rw [heq]
    exact SocIntc.Narrow.init
  · rw [heq]
    exact hn.acked (socIntcHighest_lt htop)
  · rw [heq]
    exact hn.write _ _
  · rw [heq]
    exact hn.raiseAll _

/-! ### Accounting -/

def SocIntc.pendingCount (ic : SocIntc) (line : ℕ) : ℕ :=
  if ic.pending.getLsbD line then 1 else 0

/-- An ACK takes a pending bit, a raise pays for one. -/
theorem SocWired.apply_budget {s : Soc} (h : SocWired s) {line : ℕ} (hl : line < socNLines)
    (e : SocEvent) :
    (if socAcks line (s, e) then 1 else 0) + (socApply s e).intc.pendingCount line ≤
      (socRaises s e).count (line : Int) + s.intc.pendingCount line := by
  have hpend := h.apply_pending hl e
  unfold SocIntc.pendingCount
  by_cases hack : socAcks line (s, e) = true
  · -- the bit was pending and is gone
    obtain ⟨out, rfl⟩ : ∃ out, e = .read vlabIntcAck out := by
      cases e with
      | read addr out => exact ⟨out, by rw [(of_decide_eq_true hack).1]⟩
      | _ => exact absurd hack Bool.false_ne_true
    have hready := ((socIntcHighest_iff s.intc hl).mp ((h.acks_iff hl out).mp hack)).1
    have hgone : (socApply s (.read vlabIntcAck out)).intc.pending.getLsbD line ≠ true := by
      rw [ne_eq, hpend, not_or]
      exact ⟨List.not_mem_nil, fun h0 => h0.2 (Or.inl hack)⟩
    rw [if_pos hack, if_neg hgone, if_pos hready.1]
    omega
  · -- a bit that is new was raised by this event
    rw [if_neg hack]
    split_ifs with hnew hold hold
    · omega
    · have hraised : (line : Int) ∈ socRaises s e :=
        (hpend.mp hnew).resolve_right fun h0 => hold h0.1
      have hpos := List.count_pos_iff.mpr hraised
      omega
    · omega
    · omega

/-! ### The law -/

/-- Interrupt controller trace law, for every run from boot and every line: PENDING is set
exactly if the line was raised and neither acknowledged nor reset since; ACTIVE exactly if
it was acknowledged and neither cleared nor reset since; an ACK answers with the line
exactly if it is pending and enabled and no line ahead of it is, and without any such line
answers NONE and only counts its memory access; acknowledgements and the pending bit never
exceed the raises; and no bit above line 2 is ever set. -/
theorem intc_trace {s : Soc} (h : SocReachable s) (romWords : Option (List Word)) (nwords : Word)
    (es : List SocEvent) {line : ℕ} (hl : line < socNLines) :
    let s0 := socBoot s romWords nwords
    let t := Runs.run socApply s0 es
    (t.intc.pending.getLsbD line = true ↔
      ∃ pre e post, es = pre ++ e :: post ∧
        (line : Int) ∈ socRaises (Runs.run socApply s0 pre) e ∧
        ∀ x ∈ Runs.stages socApply (Runs.run socApply s0 (pre ++ [e])) post,
          ¬ (socAcks line x = true ∨ x.2.resets = true)) ∧
    (t.intc.active.getLsbD line = true ↔
      ∃ pre e post, es = pre ++ e :: post ∧
        socAcks line (Runs.run socApply s0 pre, e) = true ∧
        ∀ x ∈ Runs.stages socApply (Runs.run socApply s0 (pre ++ [e])) post,
          ¬ (x.2.clearsLine line = true ∨ x.2.resets = true)) ∧
    (∀ out, (socRead t vlabIntcAck out).rc = .ok ∧
      ((socRead t vlabIntcAck out).out = BitVec.ofNat 32 line ↔
        t.intc.Ready line ∧ ∀ l ∈ linesAhead line, ¬ t.intc.Ready l) ∧
      ((∀ l < socNLines, ¬ t.intc.Ready l) →
        (socRead t vlabIntcAck out).out = socIrqNone ∧
        (socRead t vlabIntcAck out).soc = { t with perf := socPerfCountMem t.perf })) ∧
    (Runs.stages socApply s0 es).countP (socAcks line) + t.intc.pendingCount line ≤
      ((Runs.stages socApply s0 es).map fun x => (socRaises x.1 x.2).count (line : Int)).sum ∧
    t.intc.Narrow := by
  intro s0 t
  have hw : SocWired s0 := h.wired.boot romWords nwords
  have hintc : s0.intc = socIntcInit := h.wired.boot_intc romWords nwords
  have hall : ∀ e ∈ es, True := fun _ _ => trivial
  have ht : SocWired t := hw.run es
  refine ⟨?_, ?_, fun out => ⟨(ht.read_ack out).1, ?_, fun hnone => ?_⟩, ?_, ?_⟩
  · -- PENDING is a latch, and boot leaves it clear
    have hlatch := Runs.run_latch socApply (fun u => u.intc.pending.getLsbD line = true)
      (fun x => (line : Int) ∈ socRaises x.1 x.2)
      (fun x => socAcks line x = true ∨ x.2.resets = true) (fun _ e _ hu => hu.apply e)
      (fun _ e _ hu => hu.apply_pending hl e) hall hw
    refine hlatch.trans (or_iff_right ?_)
    rintro ⟨h0, -⟩
    rw [hintc] at h0
    exact absurd h0 (by simp [socIntcInit])
  · -- so is ACTIVE
    have hlatch := Runs.run_latch socApply (fun u => u.intc.active.getLsbD line = true)
      (fun x => socAcks line x = true)
      (fun x => x.2.clearsLine line = true ∨ x.2.resets = true) (fun _ e _ hu => hu.apply e)
      (fun _ e _ hu => hu.apply_active hl e) hall hw
    refine hlatch.trans (or_iff_right ?_)
    rintro ⟨h0, -⟩
    rw [hintc] at h0
    exact absurd h0 (by simp [socIntcInit])
  · rw [← socIntcHighest_iff t.intc hl, ← ht.acks_iff hl out, socAcks, decide_eq_true_iff]
    exact (and_iff_right rfl).symm
  · rcases ht.read_ack_cases out with ⟨-, hout, hsoc⟩ | ⟨top, hsome, -⟩
    · exact ⟨hout, hsoc⟩
    · rw [(socIntcHighest_none_iff t.intc).mpr hnone] at hsome
      exact absurd hsome (by simp)
  · -- every acknowledgement was paid for by a raise
    have hbudget := Runs.run_budget socApply (fun u => u.intc.pendingCount line)
      (fun x => (socRaises x.1 x.2).count (line : Int)) (socAcks line)
      (fun _ e _ hu => hu.apply e) (fun _ e _ hu => hu.apply_budget hl e) hall hw
    have hzero : s0.intc.pendingCount line = 0 := by
      rw [hintc]
      simp [SocIntc.pendingCount, socIntcInit]
    rwa [hzero, Nat.add_zero] at hbudget
  · have hrun := Runs.run_invariant socApply (P := fun u => SocWired u ∧ u.intc.Narrow)
      (fun u e _ hu => ⟨hu.1.apply e, hu.1.apply_narrow hu.2 e⟩) hall
      ⟨hw, hintc ▸ SocIntc.Narrow.init⟩
    exact hrun.2

/-- A raise of line 0 by the hook, seen as pending. -/
theorem intc_trace_hook :
    (Runs.run socApply (socBoot (socInit default none) none 0) [.raise 0]).intc.pending.getLsbD 0 =
      true :=
  (intc_trace (s := socInit default none) ⟨default, none, [], rfl⟩ none 0 [.raise 0]
    (show 0 < socNLines by decide)).1.mpr
    ⟨[], .raise 0, [], rfl, List.mem_singleton_self _, fun _ hx => absurd hx List.not_mem_nil⟩

end VlabSoc
