/-
The timer driver (drivers/timer.c).

`timer_start` programs LOAD and then CTRL, and leaves VALUE to the enable edge, which
loads it only if it is 0.  So a started timer runs from the VALUE it finds, if there is
one (`timerStart_timer`), and honours its load exactly if that VALUE is 0 or the load
itself (`timer_start_honours_iff`).
-/
import VlabSoc.FirmwareRuns
import VlabSoc.TimerPeriod

namespace VlabSoc

/-! ### drivers/timer.c -/

abbrev timerEnable : Word := 0x1
abbrev timerPeriodic : Word := 0x2
abbrev timerIrqEn : Word := 0x4

/-- The CTRL word of a start. -/
def timerCtrlWord (periodic irqEnable : Int) : Word :=
  timerEnable ||| (if periodic ≠ 0 then timerPeriodic else 0) |||
    (if irqEnable ≠ 0 then timerIrqEn else 0)

def timerStart (p : Platform) (load : Word) (periodic irqEnable : Int) : Int × Platform :=
  if load = 0 then (-1, p)
  else
    let p := halWriteReg p vlabTimerLoad load
    (0, halWriteReg p vlabTimerCtrl (timerCtrlWord periodic irqEnable))

def timerStop (p : Platform) : Platform := halWriteReg p vlabTimerCtrl 0

def timerFired (p : Platform) : Int × Platform :=
  let r := halReadReg p vlabTimerIrqStatus
  (if r.1 &&& 0x1 ≠ 0 then 1 else 0, r.2)

def timerClear (p : Platform) : Platform := halWriteReg p vlabTimerIrqClear 0x1

def timerValue (p : Platform) : Word × Platform := halReadReg p vlabTimerValue

/-! ### On a live host -/

theorem timerCtrlWord_bits (periodic irqEnable : Int) :
    timerCtrlWord periodic irqEnable &&& socTimerCtrlEnable ≠ 0 ∧
      (timerCtrlWord periodic irqEnable &&& socTimerCtrlPeriodic ≠ 0 ↔ periodic ≠ 0) ∧
      (timerCtrlWord periodic irqEnable &&& socTimerCtrlIrqEnable ≠ 0 ↔ irqEnable ≠ 0) := by
  unfold timerCtrlWord
  split_ifs with hper hirq hirq
  · exact ⟨by decide, iff_of_true (by decide) hper, iff_of_true (by decide) hirq⟩
  · exact ⟨by decide, iff_of_true (by decide) hper, iff_of_false (by decide) hirq⟩
  · exact ⟨by decide, iff_of_false (by decide) hper, iff_of_true (by decide) hirq⟩
  · exact ⟨by decide, iff_of_false (by decide) hper, iff_of_false (by decide) hirq⟩

theorem Live.read_timer {p : Platform} (h : Live p) :
    (timerFired p).1 = (if p.gSoc.timer.Fired then 1 else 0) ∧
      (timerValue p).1 = p.gSoc.timer.value := by
  have hread : ∀ addr ∈ [vlabTimerIrqStatus, vlabTimerValue], (halReadReg p addr).1 =
      (socTimerRead p.gSoc.timer (addr - vlabTimerBase) 0).2 := by
    intro addr haddr
    have hfix : addr % 4 = 0 ∧ InWindow vlabTimerBase 4096 addr ∧
        (socTimerRead p.gSoc.timer (addr - vlabTimerBase) 0).1 = .ok := by
      simp only [List.mem_cons, List.not_mem_nil, or_false] at haddr
      rcases haddr with rfl | rfl
      · exact ⟨by decide, by decide, rfl⟩
      · exact ⟨by decide, by decide, rfl⟩
    obtain ⟨hrc, hout, -⟩ := h.wired.read_timer hfix.1 hfix.2.1 0
    rw [halReadReg_eq h, hrc, hout, hfix.2.2, if_neg (not_not.mpr rfl)]
  refine ⟨?_, hread vlabTimerValue (by decide)⟩
  rw [timerFired, hread vlabTimerIrqStatus (by decide)]
  rfl

/-- A write to a timer register. -/
theorem Live.write_timer {p : Platform} (h : Live p) {addr : Word} (h4 : addr % 4 = 0)
    (hw : InWindow vlabTimerBase 4096 addr) (val : Word) :
    (halWriteReg p addr val).gSoc.timer =
      (socTimerWrite p.gSoc.timer (addr - vlabTimerBase) val).2 := by
  rw [halWriteReg_eq h]
  exact congrArg Prod.snd (h.wired.write_timer h4 hw val).2

/-- The timer a start leaves: VALUE is loaded only on an enable edge that finds it at 0. -/
theorem timerStart_timer {p : Platform} (h : Live p) {load : Word} (hload : load ≠ 0)
    (periodic irqEnable : Int) :
    (timerStart p load periodic irqEnable).1 = 0 ∧
      Live (timerStart p load periodic irqEnable).2 ∧
      (timerStart p load periodic irqEnable).2.gSoc.timer =
        { ctrl := timerCtrlWord periodic irqEnable
          load := load
          value := if ¬ p.gSoc.timer.Enabled ∧ p.gSoc.timer.value = 0 then load
            else p.gSoc.timer.value
          irqStatus := p.gSoc.timer.irqStatus } := by
  have hen := (timerCtrlWord_bits periodic irqEnable).1
  have hlive := h.write vlabTimerLoad load
  rw [timerStart, if_neg hload]
  refine ⟨rfl, hlive.write _ _, ?_⟩
  dsimp only
  rw [hlive.write_timer (by decide) (by decide),
    show vlabTimerCtrl - vlabTimerBase = 0x00 from rfl, socTimerWrite_ctrl,
    h.write_timer (by decide) (by decide)]
  show _ = (SocTimer.mk _ _ _ _)
  simp only [hen, ne_eq, not_false_eq_true, true_and]
  rfl

/-! ### Calls -/

inductive TimerCall
  | start (load : Word) (periodic irqEnable : Int)
  | stop
  | clear
  | hostStep (n : Word)

def timerCall (p : Platform) : TimerCall → Platform
  | .start load periodic irqEnable => (timerStart p load periodic irqEnable).2
  | .stop => timerStop p
  | .clear => timerClear p
  | .hostStep n => socHostStep p n

/-- An enabled timer has a load, and something left to count. -/
def TimerArmed (t : SocTimer) : Prop := t.Enabled → 0 < t.load ∧ 0 < t.value

theorem TimerArmed.tick {t : SocTimer} (h : TimerArmed t) : TimerArmed (socTimerStep t).1 := by
  rcases socTimerStep_cases t with ⟨-, -, heq⟩ | ⟨-, hv, -, heq⟩ | ⟨hr, -, -, heq⟩
  · rw [heq]
    exact h
  · rw [heq]
    exact fun hen => ⟨(h hen).1, show 0 < t.value - 1 by bv_omega⟩
  · rw [heq]
    intro hen
    refine ⟨hr.2, ?_⟩
    by_cases hper : t.Periodic
    · show 0 < if t.Periodic then t.load else 0
      rw [if_pos hper]
      exact hr.2
    · rw [SocTimer.expired, if_neg hper, if_neg hper] at hen
      exact absurd (bit_cleared t.ctrl _) hen

theorem timerCall_armed {p : Platform} (h : Live p) (ha : TimerArmed p.gSoc.timer)
    (c : TimerCall) : Live (timerCall p c) ∧ TimerArmed (timerCall p c).gSoc.timer := by
  cases c with
  | start load periodic irqEnable =>
    by_cases hload : load = 0
    · rw [timerCall, timerStart, if_pos hload]
      exact ⟨h, ha⟩
    · obtain ⟨-, hlive, htimer⟩ := timerStart_timer h hload periodic irqEnable
      have hpos : 0 < load := by bv_omega
      refine ⟨hlive, ?_⟩
      rw [timerCall, htimer]
      refine fun _ => ⟨hpos, ?_⟩
      show 0 < if ¬ p.gSoc.timer.Enabled ∧ p.gSoc.timer.value = 0 then load else p.gSoc.timer.value
      split_ifs with hedge
      · exact hpos
      · by_cases hen : p.gSoc.timer.Enabled
        · exact (ha hen).2
        · have hv : p.gSoc.timer.value ≠ 0 := fun hv => hedge ⟨hen, hv⟩
          bv_omega
  | stop =>
    refine ⟨h.write _ _, ?_⟩
    rw [timerCall, timerStop, h.write_timer (by decide) (by decide),
      show vlabTimerCtrl - vlabTimerBase = 0x00 from rfl, socTimerWrite_ctrl]
    exact fun hen => absurd BitVec.zero_and hen
  | clear =>
    refine ⟨h.write _ _, ?_⟩
    rw [timerCall, timerClear, h.write_timer (by decide) (by decide),
      socTimerWrite_other _ (by decide)]
    exact ha
  | hostStep n =>
    rw [timerCall, socHostStep, h.ensure, socStep_eq_run]
    have hticks : ∀ e ∈ List.replicate n.toNat SocEvent.tick, e = .tick := fun e he =>
      List.eq_of_mem_replicate he
    have hrun := Runs.run_invariant socApply (P := fun s => SocWired s ∧ TimerArmed s.timer)
      (fun s e he hs => by
        subst he
        refine ⟨hs.1.tick, ?_⟩
        rw [socApply, hs.1.tick_timer]
        exact hs.2.tick)
      hticks ⟨h.wired, ha⟩
    exact ⟨⟨h.inited, hrun.1⟩, hrun.2⟩

/-! ### Honouring the load -/

/-- From here on, as long as nothing writes the timer's registers and nothing resets:
`timer_fired` is false before tick `load` and true from it on, the timer expires at tick
`load`, and at every multiple of it in periodic mode, and line 1 is raised at these ticks if
the interrupt is enabled, and at no others. -/
def HonoursLoad (p : Platform) (load : Word) (periodic irqEnable : Int) : Prop :=
  ∀ es : List SocEvent, (∀ e ∈ es, e.sparesTimer ∧ ¬ e.clearsFired) →
    ((timerFired { p with gSoc := Runs.run socApply p.gSoc es }).1 = 1 ↔
      load.toNat ≤ es.countP SocEvent.isTick) ∧
    ∀ pre, pre ++ [.tick] <+: es →
      let k := pre.countP SocEvent.isTick + 1
      let s := Runs.run socApply p.gSoc pre
      let due := if periodic ≠ 0 then load.toNat ∣ k else k = load.toNat
      (timerFires s.timer = true ↔ due) ∧
        (socTimerIrqLine ∈ socRaises s .tick ↔ irqEnable ≠ 0 ∧ due)

/-- A timer that starts to count at VALUE honours its load exactly if VALUE is the load. -/
theorem honoursLoad_iff {p : Platform} (h : Live p) (hen : p.gSoc.timer.Enabled)
    (hload : 0 < p.gSoc.timer.load) (hv : 0 < p.gSoc.timer.value) (hfired : ¬ p.gSoc.timer.Fired)
    {periodic irqEnable : Int} (hper : p.gSoc.timer.Periodic ↔ periodic ≠ 0)
    (hirq : p.gSoc.timer.IrqEnabled ↔ irqEnable ≠ 0) :
    HonoursLoad p p.gSoc.timer.load periodic irqEnable ↔
      p.gSoc.timer.value = p.gSoc.timer.load := by
  have hr : p.gSoc.timer.Counts := ⟨hen, hload⟩
  have hone : ∀ es : List SocEvent, (∀ e ∈ es, e.sparesTimer ∧ ¬ e.clearsFired) →
      ((timerFired { p with gSoc := Runs.run socApply p.gSoc es }).1 = 1 ↔
        p.gSoc.timer.value.toNat ≤ es.countP SocEvent.isTick) := fun es hes => by
    rw [(h.run es).read_timer.1, ← fired_quiet_iff h.wired hr hv (fun e he => (hes e he).1) hfired
      fun e he => (hes e he).2]
    dsimp only
    split_ifs with hf <;> simp [hf]
  constructor
  · -- a run of ticks only, long enough for the one and too short for the other
    intro hall
    have hticks : ∀ n : ℕ, p.gSoc.timer.value.toNat ≤ n ↔ p.gSoc.timer.load.toNat ≤ n := fun n => by
      have hes : ∀ e ∈ List.replicate n SocEvent.tick, e.sparesTimer ∧ ¬ e.clearsFired :=
        fun e he => by
          rw [List.eq_of_mem_replicate he]
          exact ⟨trivial, id⟩
      have hn : (List.replicate n SocEvent.tick).countP SocEvent.isTick = n := by
        simp [List.countP_replicate, SocEvent.isTick]
      have hboth := (hone _ hes).symm.trans (hall _ hes).1
      rwa [hn] at hboth
    have h1 := hticks p.gSoc.timer.value.toNat
    have h2 := hticks p.gSoc.timer.load.toNat
    exact BitVec.eq_of_toNat_eq (by omega)
  · intro heq es hes
    have hspare : ∀ e ∈ es, e.sparesTimer := fun e he => (hes e he).1
    refine ⟨by rw [hone es hes, heq], fun pre hpre => ?_⟩
    intro k s due
    have hprefix : pre <+: es := (List.prefix_append pre _).trans hpre
    have hdue : timerFires s.timer = true ↔ due := by
      by_cases hp : periodic ≠ 0
      · rw [(periodic_closed_form h.wired hr hv hspare (hper.mpr hp)).2.2 pre hprefix, heq]
        show _ ↔ if _ then _ else _
        rw [if_pos hp, Countdown.ends_self_iff]
      · rw [(single_closed_form h.wired hr hv hspare (mt hper.mp hp)).2.2.2 pre hprefix, heq]
        show _ ↔ if _ then _ else _
        rw [if_neg hp]
    have hmem : (s, SocEvent.tick) ∈ Runs.stages socApply p.gSoc es := by
      obtain ⟨post, rfl⟩ := hpre
      exact Runs.mem_stages.mpr ⟨pre, post, by simp, rfl⟩
    refine ⟨hdue, ?_⟩
    rw [timer_line h.wired hr hv hspare hmem, hdue, hirq, and_comm]

/-- A start that finds an armed timer. -/
theorem TimerArmed.start_honours_iff {p : Platform} (h : Live p) (ha : TimerArmed p.gSoc.timer)
    (hfired : ¬ p.gSoc.timer.Fired) {load : Word} (hload : load ≠ 0) (periodic irqEnable : Int) :
    HonoursLoad (timerStart p load periodic irqEnable).2 load periodic irqEnable ↔
      p.gSoc.timer.value = 0 ∨ p.gSoc.timer.value = load := by
  obtain ⟨-, hr, htimer⟩ := timerStart_timer h hload periodic irqEnable
  obtain ⟨hen, hper, hirq⟩ := timerCtrlWord_bits periodic irqEnable
  generalize (timerStart p load periodic irqEnable).2 = r at hr htimer ⊢
  have hl : r.gSoc.timer.load = load := congrArg SocTimer.load htimer
  have hctrl : r.gSoc.timer.ctrl = timerCtrlWord periodic irqEnable :=
    congrArg SocTimer.ctrl htimer
  have hirqStatus : r.gSoc.timer.irqStatus = p.gSoc.timer.irqStatus := by rw [htimer]
  have hv : r.gSoc.timer.value = if ¬ p.gSoc.timer.Enabled ∧ p.gSoc.timer.value = 0 then load
      else p.gSoc.timer.value := congrArg SocTimer.value htimer
  -- the VALUE the start leaves
  have hvalue : 0 < r.gSoc.timer.value ∧ (r.gSoc.timer.value = load ↔
      p.gSoc.timer.value = 0 ∨ p.gSoc.timer.value = load) := by
    rw [hv]
    by_cases h0 : p.gSoc.timer.value = 0
    · have hoff : ¬ p.gSoc.timer.Enabled := fun h1 => absurd (ha h1).2 (by bv_omega)
      rw [if_pos ⟨hoff, h0⟩]
      exact ⟨by bv_omega, iff_of_true rfl (Or.inl h0)⟩
    · rw [if_neg fun h1 => h0 h1.2]
      exact ⟨by bv_omega, (or_iff_right h0).symm⟩
  rw [← hvalue.2, ← hl]
  refine honoursLoad_iff hr ?_ ?_ hvalue.1 ?_ ?_ ?_
  · rw [SocTimer.Enabled, hctrl]
    exact hen
  · rw [hl]
    bv_omega
  · rw [SocTimer.Fired, hirqStatus]
    exact hfired
  · rw [SocTimer.Periodic, hctrl]
    exact hper
  · rw [SocTimer.IrqEnabled, hctrl]
    exact hirq

theorem socHostBoot_armed {p : Platform} (hp : p.gInited = true → SocWired p.gSoc) :
    Live (socHostBoot p) ∧ TimerArmed (socHostBoot p).gSoc.timer := by
  have hlive := socHostEnsure_live p hp
  rw [socHostBoot]
  generalize socHostEnsure p = q at hlive ⊢
  refine ⟨⟨hlive.inited, hlive.wired.boot none 0⟩, ?_⟩
  have htimer : (socBoot q.gSoc none 0).timer = socTimerInit :=
    congrArg Prod.snd (hlive.wired.boot_front none 0).2
  dsimp only
  rw [htimer]
  exact fun hen => absurd BitVec.zero_and hen

theorem timerCalls_armed {p : Platform} (hp : p.gInited = true → SocWired p.gSoc)
    (cs : List TimerCall) :
    Live (Runs.run timerCall (socHostBoot p) cs) ∧
      TimerArmed (Runs.run timerCall (socHostBoot p) cs).gSoc.timer :=
  Runs.run_invariant timerCall (P := fun p => Live p ∧ TimerArmed p.gSoc.timer)
    (A := fun _ => True) (fun _ c _ hpc => timerCall_armed hpc.1 hpc.2 c) (fun _ _ => trivial)
    (socHostBoot_armed hp)

/-- `timer_start` honours its load, wherever starts, stops, clears and ticks have left the
timer, exactly if it finds VALUE at 0 or at the load. -/
theorem timer_start_honours_iff (p : Platform) (hp : p.gInited = true → SocWired p.gSoc)
    (cs : List TimerCall) (load : Word) (periodic irqEnable : Int) :
    let q := Runs.run timerCall (socHostBoot p) cs
    let r := timerStart q load periodic irqEnable
    r.1 = 0 → (timerFired r.2).1 = 0 →
      (HonoursLoad r.2 load periodic irqEnable ↔
        q.gSoc.timer.value = 0 ∨ q.gSoc.timer.value = load) := by
  intro q r hok hclear
  obtain ⟨hlive, harmed⟩ : Live q ∧ TimerArmed q.gSoc.timer := timerCalls_armed hp cs
  have hload : load ≠ 0 := by
    rintro rfl
    exact absurd (show (-1 : Int) = 0 from hok) (by decide)
  obtain ⟨-, hr, htimer⟩ := timerStart_timer hlive hload periodic irqEnable
  have hfired : ¬ q.gSoc.timer.Fired := by
    intro hf
    have hf' : r.2.gSoc.timer.Fired := by
      rw [SocTimer.Fired, congrArg SocTimer.irqStatus htimer]
      exact hf
    rw [hr.read_timer.1, if_pos hf'] at hclear
    exact absurd hclear (by decide)
  exact harmed.start_honours_iff hlive hfired hload periodic irqEnable

/-- Started with 10, stopped after three ticks and started again with 5, the timer runs on from
7. -/
theorem timer_start_stale :
    ¬ ∀ (p : Platform) (cs : List TimerCall) (load : Word) (periodic irqEnable : Int),
      let q := Runs.run timerCall (socHostBoot p) cs
      let r := timerStart q load periodic irqEnable
      r.1 = 0 → (timerFired r.2).1 = 0 → HonoursLoad r.2 load periodic irqEnable := by
  intro hall
  have hp : (platformStart default).gInited = true → SocWired (platformStart default).gSoc :=
    fun h0 => absurd h0 Bool.false_ne_true
  have hcalls := timerCalls_armed hp [.start 10 0 0, .hostStep 3, .stop]
  have hhonours := hall (platformStart default) [.start 10 0 0, .hostStep 3, .stop] 5 0 0
    (by decide) (by decide)
  rw [hcalls.2.start_honours_iff hcalls.1 (by decide) (by decide)] at hhonours
  exact absurd hhonours (by decide)

/-- A first start. -/
theorem timer_start_fresh :
    HonoursLoad (timerStart (socHostBoot (platformStart default)) 100 0 1).2 100 0 1 := by
  have hp : (platformStart default).gInited = true → SocWired (platformStart default).gSoc :=
    fun h0 => absurd h0 Bool.false_ne_true
  exact (timer_start_honours_iff (platformStart default) hp [] 100 0 1 (by decide)
    (by decide)).mpr (Or.inl (by decide))

end VlabSoc
