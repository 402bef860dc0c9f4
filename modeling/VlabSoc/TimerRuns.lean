/-
The timer alone, over runs of register writes and ticks.

`timerFires` is the tick that sets FIRED; it is the tick of a running timer whose VALUE
is 1 or 0 (`timerFires_iff`), and all a tick does beyond the countdown is done there
(`socTimerStep_cases`).  VALUE 0 is the case that should not be: it cannot be reached
from reset except by programming a LOAD while the timer is enabled with VALUE 0
(`timer_sound_iff`).
-/
import VlabSoc.Runs
import VlabSoc.SocTimer

namespace VlabSoc

/-! ### The bits -/

def SocTimer.Enabled (t : SocTimer) : Prop := t.ctrl &&& socTimerCtrlEnable ≠ 0

def SocTimer.Periodic (t : SocTimer) : Prop := t.ctrl &&& socTimerCtrlPeriodic ≠ 0

def SocTimer.IrqEnabled (t : SocTimer) : Prop := t.ctrl &&& socTimerCtrlIrqEnable ≠ 0

def SocTimer.Fired (t : SocTimer) : Prop := t.irqStatus &&& socTimerIrqFired ≠ 0

instance (t : SocTimer) : Decidable t.Enabled := inferInstanceAs (Decidable (_ ≠ _))

instance (t : SocTimer) : Decidable t.Periodic := inferInstanceAs (Decidable (_ ≠ _))

instance (t : SocTimer) : Decidable t.IrqEnabled := inferInstanceAs (Decidable (_ ≠ _))

instance (t : SocTimer) : Decidable t.Fired := inferInstanceAs (Decidable (_ ≠ _))

theorem fired_or (w : Word) : (w ||| socTimerIrqFired) &&& socTimerIrqFired ≠ 0 := by
  intro h
  have h0 := congrArg (fun v => v.getLsbD 0) h
  simp at h0

theorem bit_cleared (w b : Word) : w &&& ~~~b &&& b = 0 := by
  rw [BitVec.and_assoc, BitVec.and_comm (~~~b), BitVec.and_not_self]
  exact BitVec.and_zero

/-! ### One tick -/

/-- The timer counts. -/
def SocTimer.Counts (t : SocTimer) : Prop := t.Enabled ∧ 0 < t.load

/-- The tick sets FIRED. -/
def timerFires (t : SocTimer) : Bool :=
  decide (socTimerStep { t with irqStatus := 0 }).1.Fired

/-- The timer after the tick that fires. -/
def SocTimer.expired (t : SocTimer) : SocTimer :=
  { t with
    irqStatus := t.irqStatus ||| socTimerIrqFired
    value := if t.Periodic then t.load else 0
    ctrl := if t.Periodic then t.ctrl else t.ctrl &&& ~~~socTimerCtrlEnable }

theorem socTimerStep_idle {t : SocTimer} (h : ¬ t.Counts) : socTimerStep t = (t, []) := by
  rw [socTimerStep]
  by_cases hen : t.ctrl &&& socTimerCtrlEnable = 0
  · rw [if_pos hen]
  · have hload : t.load = 0 := by
      by_contra hne
      exact h ⟨hen, by bv_omega⟩
    rw [if_neg hen, if_pos hload]

theorem socTimerStep_count {t : SocTimer} (h : t.Counts) (hv : 1 < t.value) :
    socTimerStep t = ({ t with value := t.value - 1 }, []) := by
  have hload : t.load ≠ 0 := fun h0 => absurd h.2 (by rw [h0]; decide)
  have hpos : 0 < t.value := by bv_omega
  have hleft : t.value - 1 ≠ 0 := by bv_omega
  rw [socTimerStep, if_neg h.1, if_neg hload, if_pos hpos]
  dsimp only
  rw [if_neg hleft]

theorem socTimerStep_expire {t : SocTimer} (h : t.Counts) (hv : t.value ≤ 1) :
    socTimerStep t = (t.expired, if t.IrqEnabled then [socTimerIrqLine] else []) := by
  have hload : t.load ≠ 0 := fun h0 => absurd h.2 (by rw [h0]; decide)
  -- the decrement ends in zero, whether there was one or not
  have hzero : (if 0 < t.value then { t with value := t.value - 1 } else t) =
      { t with value := 0 } := by
    by_cases hpos : 0 < t.value
    · rw [if_pos hpos, show t.value - 1 = 0 by bv_omega]
    · have h0 : t.value = 0 := by bv_omega
      rw [if_neg hpos, ← h0]
  rw [socTimerStep, if_neg h.1, if_neg hload, hzero]
  dsimp only
  rw [if_pos rfl, SocTimer.expired]
  by_cases hper : t.Periodic
  · rw [if_pos hper, if_pos hper, if_pos (show t.ctrl &&& socTimerCtrlPeriodic ≠ 0 from hper)]
    rfl
  · rw [if_neg hper, if_neg hper, if_neg (show ¬ t.ctrl &&& socTimerCtrlPeriodic ≠ 0 from hper)]
    rfl

theorem SocTimer.expired_fired (t : SocTimer) : t.expired.Fired := fired_or t.irqStatus

/-- A tick fires when the countdown is at its end. -/
theorem timerFires_iff {t : SocTimer} : timerFires t = true ↔ t.Counts ∧ t.value ≤ 1 := by
  have hclear : ¬ SocTimer.Fired { t with irqStatus := 0 } := by
    intro h
    exact h (BitVec.zero_and)
  rw [timerFires, decide_eq_true_iff]
  by_cases hr : t.Counts
  · by_cases hv : t.value ≤ 1
    · rw [socTimerStep_expire (t := { t with irqStatus := 0 }) hr hv]
      exact iff_of_true (SocTimer.expired_fired _) ⟨hr, hv⟩
    · rw [socTimerStep_count (t := { t with irqStatus := 0 }) hr (by bv_omega)]
      exact iff_of_false hclear fun h => hv h.2
  · rw [socTimerStep_idle (t := { t with irqStatus := 0 }) hr]
    exact iff_of_false hclear fun h => hr h.1

/-- Everything a tick can do. -/
theorem socTimerStep_cases (t : SocTimer) :
    (¬ t.Counts ∧ timerFires t = false ∧ socTimerStep t = (t, [])) ∨
    (t.Counts ∧ 1 < t.value ∧ timerFires t = false ∧
      socTimerStep t = ({ t with value := t.value - 1 }, [])) ∨
    (t.Counts ∧ t.value ≤ 1 ∧ timerFires t = true ∧
      socTimerStep t = (t.expired, if t.IrqEnabled then [socTimerIrqLine] else [])) := by
  have hfires := timerFires_iff (t := t)
  by_cases hr : t.Counts
  · by_cases hv : t.value ≤ 1
    · exact Or.inr (Or.inr ⟨hr, hv, hfires.mpr ⟨hr, hv⟩, socTimerStep_expire hr hv⟩)
    · have hlt : 1 < t.value := by bv_omega
      refine Or.inr (Or.inl ⟨hr, hlt, ?_, socTimerStep_count hr hlt⟩)
      exact Bool.eq_false_iff.mpr fun h => hv (hfires.mp h).2
  · exact Or.inl ⟨hr, Bool.eq_false_iff.mpr fun h => hr (hfires.mp h).1, socTimerStep_idle hr⟩

/-! ### Soundness -/

/-- What a tick does beyond the countdown: it sets FIRED, raises, reloads or disables. -/
def TickActs (t : SocTimer) : Prop :=
  let r := socTimerStep t
  timerFires t = true ∨ socTimerIrqLine ∈ r.2 ∨ t.value < r.1.value ∨ (t.Enabled ∧ ¬ r.1.Enabled)

/-- The next tick acts only on VALUE 1, and a running timer has something to count. -/
structure TimerSound (t : SocTimer) : Prop where
  acts : TickActs t → t.value = 1
  counts : t.Enabled → 0 < t.load → 0 < t.value

/-- A tick acts when it fires, and only then. -/
theorem tickActs_iff (t : SocTimer) : TickActs t ↔ timerFires t = true := by
  refine ⟨fun h => ?_, Or.inl⟩
  rcases socTimerStep_cases t with ⟨-, hno, heq⟩ | ⟨-, hv, hno, heq⟩ | ⟨-, -, hyes, -⟩
  · rw [TickActs, heq, hno] at h
    rcases h with h | h | h | h
    · exact absurd h Bool.false_ne_true
    · exact absurd h List.not_mem_nil
    · exact absurd h (BitVec.lt_irrefl _)
    · exact absurd h.1 h.2
  · rw [TickActs, heq, hno] at h
    rcases h with h | h | h | h
    · exact absurd h Bool.false_ne_true
    · exact absurd h List.not_mem_nil
    · exact absurd h (show ¬ t.value < t.value - 1 by bv_omega)
    · exact absurd h.1 h.2
  · exact hyes

/-- The two halves of soundness say the same. -/
theorem timerSound_iff (t : SocTimer) : TimerSound t ↔ (t.Counts → 0 < t.value) := by
  constructor
  · exact fun h hr => h.counts hr.1 hr.2
  · intro h
    refine ⟨fun hacts => ?_, fun hen hload => h ⟨hen, hload⟩⟩
    obtain ⟨hr, hv⟩ := timerFires_iff.mp ((tickActs_iff t).mp hacts)
    have hpos := h hr
    bv_omega

/-! ### Runs from reset -/

inductive TimerEvent
  | write (offset value : Word)
  | tick

def timerApply (t : SocTimer) : TimerEvent → SocTimer
  | .write offset value => (socTimerWrite t offset value).2
  | .tick => (socTimerStep t).1

/-- A LOAD is programmed into an enabled timer whose VALUE is 0. -/
def LateLoad : SocTimer × TimerEvent → Prop
  | (t, .write offset value) => offset = 0x04 ∧ t.Enabled ∧ t.value = 0 ∧ value ≠ 0
  | _ => False

theorem SocTimer.clearFired_frame (t : SocTimer) (value : Word) :
    t.clearFired value = { t with irqStatus := (t.clearFired value).irqStatus } := by
  unfold SocTimer.clearFired
  split_ifs <;> rfl

/-- A write to CTRL: an enable edge that finds VALUE 0 loads it. -/
theorem socTimerWrite_ctrl (t : SocTimer) (ctrl : Word) :
    (socTimerWrite t 0x00 ctrl).2 =
      { t with
        ctrl := ctrl
        value := if ctrl &&& socTimerCtrlEnable ≠ 0 ∧ ¬ t.Enabled ∧ t.value = 0 then t.load
          else t.value } := by
  show (if ctrl &&& socTimerCtrlEnable ≠ 0 ∧ ¬ t.Enabled ∧ t.value = 0 then
    { t with ctrl := ctrl, value := t.load } else { t with ctrl := ctrl }) = _
  split_ifs <;> rfl

/-- The other writes: LOAD, the two that clear FIRED, and the rejected ones. -/
theorem socTimerWrite_other (t : SocTimer) {offset : Word} (h0 : offset ≠ 0x00) (value : Word) :
    (socTimerWrite t offset value).2 =
      { t with
        load := if offset = 0x04 then value else t.load
        irqStatus := (socTimerWrite t offset value).2.irqStatus } := by
  unfold socTimerWrite
  split
  case h_1 => exact absurd rfl h0
  case h_2 => rfl
  case h_3 =>
    dsimp only
    rw [if_neg (by decide), ← SocTimer.clearFired_frame]
  case h_4 =>
    dsimp only
    rw [if_neg (by decide), ← SocTimer.clearFired_frame]
  case h_5 h4 _ _ =>
    dsimp only
    rw [if_neg (show ¬ offset = 4 from h4)]

/-- One event of a sound timer. -/
theorem timerApply_sound {t : SocTimer} (h : TimerSound t) (e : TimerEvent) :
    TimerSound (timerApply t e) ↔ ¬ LateLoad (t, e) := by
  rw [timerSound_iff] at h ⊢
  cases e with
  | write offset value =>
    by_cases h0 : offset = 0x00
    · -- an edge that starts the timer leaves something to count
      subst h0
      refine iff_of_true ?_ fun hlate => absurd hlate.1 (by decide)
      rw [timerApply, socTimerWrite_ctrl]
      rintro ⟨hen, hload⟩
      show 0 < if value &&& socTimerCtrlEnable ≠ 0 ∧ ¬ t.Enabled ∧ t.value = 0 then t.load
        else t.value
      split_ifs with hedge
      · exact hload
      · by_cases hwas : t.Enabled
        · exact h ⟨hwas, hload⟩
        · have hne : t.value ≠ 0 := fun hv => hedge ⟨hen, hwas, hv⟩
          bv_omega
    · rw [timerApply, socTimerWrite_other t h0]
      constructor
      · rintro hs ⟨rfl, hen, hv, hvalue⟩
        have hpos : 0 < t.value := hs ⟨hen, show 0 < value by bv_omega⟩
        bv_omega
      · rintro hlate ⟨hen, hload⟩
        dsimp only at hload ⊢
        by_cases h4 : offset = 0x04
        · rw [if_pos h4] at hload
          by_contra hv
          exact hlate ⟨h4, hen, by bv_omega, by bv_omega⟩
        · rw [if_neg h4] at hload
          exact h ⟨hen, hload⟩
  | tick =>
    refine iff_of_true ?_ id
    rw [timerApply]
    rcases socTimerStep_cases t with ⟨-, -, heq⟩ | ⟨-, hv, -, heq⟩ | ⟨hr, -, -, heq⟩
    · rw [heq]
      exact h
    · rw [heq]
      exact fun _ => show 0 < t.value - 1 by bv_omega
    · -- reloaded, or disabled
      rw [heq]
      rintro ⟨hen, hload⟩
      show 0 < if t.Periodic then t.load else 0
      split_ifs with hper
      · exact hload
      · refine absurd ?_ hen
        show (if t.Periodic then t.ctrl else t.ctrl &&& ~~~socTimerCtrlEnable) &&& _ = 0
        rw [if_neg hper]
        exact bit_cleared t.ctrl _

/-- From reset, the timer is sound at every moment of a run exactly when no LOAD other than 0
is written while it is enabled with VALUE 0. -/
theorem timer_sound_run_iff (t : SocTimer) (es : List TimerEvent) :
    (∀ pre, pre <+: es → TimerSound (Runs.run timerApply (socTimerReset t) pre)) ↔
      ∀ x ∈ Runs.stages timerApply (socTimerReset t) es, ¬ LateLoad x := by
  have hreset : TimerSound (socTimerReset t) :=
    (timerSound_iff _).mpr fun hr => absurd (BitVec.zero_and) hr.1
  exact Runs.run_always_iff timerApply TimerSound LateLoad (P := fun _ => True)
    (A := fun _ => True) (fun _ _ _ _ => trivial) (fun _ e _ _ hs => timerApply_sound hs e)
    (fun _ _ => trivial) trivial hreset

/-- Enabled first and loaded with 5 then, the timer fires at the next tick. -/
theorem timer_early :
    ¬ ∀ (t : SocTimer) (es : List TimerEvent),
      TimerSound (Runs.run timerApply (socTimerReset t) es) := by
  intro h
  have hs := h default [.write 0x00 0x1, .write 0x04 5]
  have hfires : TickActs (Runs.run timerApply (socTimerReset default)
      [.write 0x00 0x1, .write 0x04 5]) := Or.inl (by decide)
  exact absurd (hs.acts hfires) (by decide)

end VlabSoc
