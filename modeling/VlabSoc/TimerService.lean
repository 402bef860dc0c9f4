/-
The periodic timer as an interrupt source.

An application starts the timer with `timer_start` and then runs and dispatches in turn.  The
TIMER line is raised in the rounds whose ticks reach a multiple of the load, and its handler is
called once in each of these.

* `TimerAt.run` — a stretch of application code, by its ticks;
* `TimerAt.round` — a round, with its dispatch;
* `timer_service` — the calls of the handler over a run.
-/
import VlabSoc.IsrService
import VlabSoc.TimerDriver

namespace VlabSoc

variable {A : Type}

/-! ### The lines of the engine -/

/-- The engine raises no line but its own. -/
theorem SocWired.dmaRaises_line {s : Soc} (h : SocWired s) {e : SocEvent} {l : Int}
    (hl : l ∈ dmaRaises s e) : l = socIrqDma := by
  have hnil : dmaRaises s e = [] → l = socIrqDma := fun heq => by
    rw [heq] at hl
    exact absurd hl List.not_mem_nil
  cases e with
  | tick => exact h.tick_dmaRaises hl
  | write addr value =>
    cases hb : s.dma.busy with
    | true =>
      rcases h.flight_cases hb (e := .write addr value) trivial with ⟨-, -, heq⟩ | ⟨-, -, -, heq⟩ |
        ⟨htick, -⟩
      · exact hnil heq
      · exact hnil heq
      · exact absurd htick SocEvent.noConfusion
    | false =>
      cases hw : (SocEvent.write addr value).startWord with
      | none => exact hnil (h.idle_cases hb (e := .write addr value) trivial hw).2
      | some v =>
        obtain ⟨heq, hstart⟩ := startWord_iff.mp hw
        rw [heq] at hl hnil
        rcases h.start_cases hb hstart with ⟨-, -, hno⟩ | ⟨-, -, -, hirq⟩
        · exact hnil hno
        · rw [hirq, irqOf] at hl
          split_ifs at hl
          · exact List.mem_singleton.mp hl
          · exact absurd hl List.not_mem_nil
  | _ => exact hnil rfl

/-! ### A timer left to itself -/

/-- An event that leaves the timer and its line to themselves, and the line enabled. -/
structure SocEvent.LeavesTimer (e : SocEvent) : Prop where
  spares : e.sparesTimer
  raise : ∀ line, e = .raise line → line ≠ socTimerIrqLine
  enable : ∀ value, e = .write vlabIntcEnable value → value.getLsbD socIrqTimer = true

/-- The timer, started with the setup `t` and its whole LOAD, after `k` ticks. -/
structure TimerAt (t : SocTimer) (k : ℕ) (s : Soc) : Prop where
  running : TimerRunning t s
  enabled : s.timer.Enabled
  value : s.timer.value.toNat = t.load.toNat - k % t.load.toNat
  line : s.intc.enable.getLsbD socIrqTimer = true

/-- The enable bit of the line. -/
theorem SocWired.apply_enable {s : Soc} (h : SocWired s) {e : SocEvent} (he : e.LeavesTimer)
    (hline : s.intc.enable.getLsbD socIrqTimer = true) :
    (socApply s e).intc.enable.getLsbD socIrqTimer = true := by
  rcases h.intc_cases e with ⟨hreset, -⟩ | ⟨out, top, rfl, -, heq⟩ | ⟨addr, value, rfl, -, heq⟩ |
    ⟨-, heq⟩
  · have hspares := he.spares
    cases e with
    | resetPeripherals => exact absurd hspares id
    | boot romWords nwords => exact absurd hspares id
    | _ => exact absurd hreset Bool.false_ne_true
  · rw [heq]
    exact hline
  · rw [heq]
    by_cases h0 : addr - vlabIntcBase = 0x00
    · -- ENABLE itself
      have haddr : addr = vlabIntcEnable := (BitVec.sub_eq_iff_eq_add.mp h0).trans (by decide)
      have hbit := he.enable value (by rw [haddr])
      rw [h0]
      show (value &&& 0x7).getLsbD socIrqTimer = true
      rw [BitVec.getLsbD_and, hbit]
      rfl
    · rw [socIntcWrite_enable h0]
      exact hline
  · rw [heq, socIntcRaiseAll_enable]
    exact hline

/-- The TIMER line is raised by expiries. -/
theorem TimerRunning.raises {t : SocTimer} {s : Soc} (h : TimerRunning t s) (hirq : t.IrqEnabled)
    {e : SocEvent} (he : e.LeavesTimer) :
    socTimerIrqLine ∈ socRaises s e ↔ timerExpires (s, e) = true := by
  have hdma : socTimerIrqLine ∉ dmaRaises s e := fun h0 =>
    absurd (h.wired.dmaRaises_line h0) (by decide)
  have hno : e.isTick = false → socTimerIrqLine ∉ socRaises s e →
      (socTimerIrqLine ∈ socRaises s e ↔ timerExpires (s, e) = true) := fun ht hnot => by
    rw [timerExpires, ht, Bool.false_and]
    exact iff_of_false hnot Bool.false_ne_true
  cases e with
  | tick =>
    rw [h.wired.tick_raises_timer, h.setup.irqEnabled]
    exact and_iff_left hirq
  | raise line => exact hno rfl fun h0 => he.raise line rfl (List.mem_singleton.mp h0).symm
  | _ => exact hno rfl hdma

section Stretch

variable {t : SocTimer} (hload : 0 < t.load) (hper : t.Periodic)
include hload hper

/-- A stretch of events, by its ticks: where it leaves the timer, and whether its line was
raised. -/
theorem TimerAt.run (hirq : t.IrqEnabled) {k : ℕ} {s : Soc} (h : TimerAt t k s)
    {es : List SocEvent} (hes : ∀ e ∈ es, e.LeavesTimer) :
    let n := es.countP SocEvent.isTick
    TimerAt t (k + n) (Runs.run socApply s es) ∧
      ((Runs.stages socApply s es).any fun y => decide (socTimerIrqLine ∈ socRaises y.1 y.2)) =
        decide (k / t.load.toNat < (k + n) / t.load.toNat) := by
  intro n
  have hL : 0 < t.load.toNat := hload
  have hmod := Nat.mod_lt k hL
  have hspares : ∀ e ∈ es, e.sparesTimer := fun e he => (hes e he).spares
  have hcounts : s.timer.Counts := (h.running.counts_iff hload).mpr h.enabled
  obtain ⟨hleft, hends, -⟩ := periodic_closed_form h.running.wired hcounts
    (h.running.counts h.enabled) hspares (h.running.setup.periodic.mpr hper)
  rw [h.running.setup.load, h.value] at hleft hends
  -- the setup, the switch and the enable bit
  have hkeep : ∀ u e, SocEvent.LeavesTimer e → (TimerRunning t u ∧ u.timer.Enabled ∧
      u.intc.enable.getLsbD socIrqTimer = true) → TimerRunning t (socApply u e) ∧
      (socApply u e).timer.Enabled ∧
      (socApply u e).intc.enable.getLsbD socIrqTimer = true := fun u e he hu =>
    ⟨hu.1.apply hload he.spares, (hu.1.apply_periodic hload hper hu.2.1 he.spares).1,
      hu.1.wired.apply_enable he hu.2.2⟩
  obtain ⟨⟨hrunning, henabled, hline⟩, hstages⟩ := Runs.stages_invariant socApply
    (C := fun x => x.2.LeavesTimer) hkeep (Runs.forall_stages.mpr hes)
    ⟨h.running, h.enabled, h.line⟩
  refine ⟨⟨hrunning, henabled, ?_, hline⟩, Bool.eq_iff_iff.mpr ?_⟩
  · rw [hleft, Countdown.left_period hL]
  · rw [decide_eq_true_iff, ← Countdown.ends_period hL, ← hends, List.countP_pos_iff,
      List.any_eq_true]
    have hsame : ∀ x ∈ Runs.stages socApply s es, (decide (socTimerIrqLine ∈ socRaises x.1 x.2) = true ↔
        timerExpires x = true) := fun x hx => by
      have hx2 := Runs.forall_stages.mpr hes x hx
      rw [decide_eq_true_iff]
      exact (hstages x hx).1.raises hirq hx2
    exact exists_congr fun x => and_congr_right fun hx => hsame x hx

/-- An event that is no tick. -/
theorem TimerAt.quiet {k : ℕ} {s : Soc} (h : TimerAt t k s) {e : SocEvent} (he : e.LeavesTimer)
    (ht : e.isTick = false) : TimerAt t k (socApply s e) := by
  obtain ⟨hen, hvalue, -⟩ := h.running.apply_periodic hload hper h.enabled he.spares
  exact ⟨h.running.apply hload he.spares, hen, (hvalue ht).trans h.value,
    h.running.wired.apply_enable he h.line⟩

end Stretch

/-! ### Rounds -/

def AppCall.ticks : AppCall → ℕ
  | .hostStep n => n.toNat
  | _ => 0

/-- The ticks of a round. -/
def roundTicks (cs : List AppCall) : ℕ := (cs.map AppCall.ticks).sum

theorem roundTicks_events (cs : List AppCall) :
    (cs.flatMap AppCall.events).countP SocEvent.isTick = roundTicks cs := by
  have hticks : ∀ c : AppCall, c.events.countP SocEvent.isTick = c.ticks := by
    intro c
    cases c with
    | hostStep n => rw [AppCall.events, List.countP_replicate]; rfl
    | _ => rfl
  rw [List.countP_flatMap, roundTicks]
  exact congrArg List.sum (List.map_congr_left fun c _ => hticks c)

/-- What a handler may do here: nothing that raises or acknowledges, or touches the timer, and
no ticks. -/
structure TimerQuiet (x : Soc × SocEvent) : Prop where
  passive : Passive x
  leaves : x.2.LeavesTimer
  noTick : x.2.isTick = false

/-- The machine between two rounds. -/
structure ServiceAt (t : SocTimer) (k : ℕ) (m : Machine A) : Prop where
  live : Live m.platform
  lines : 3 ≤ m.isr.sNLines.toNat
  code : m.isr.HandlersDo TimerQuiet
  timer : TimerAt t k m.platform.gSoc

theorem ServiceAt.of_soc {t : SocTimer} {k : ℕ} {m : Machine A} (h : ServiceAt t k m) {p : Platform}
    (hp : Live p) (htimer : p.gSoc.timer = m.platform.gSoc.timer)
    (henable : p.gSoc.intc.enable = m.platform.gSoc.intc.enable) :
    ServiceAt t k { m with platform := p } := by
  refine ⟨hp, h.lines, h.code, ⟨⟨hp.wired, ?_, ?_⟩, ?_, ?_, ?_⟩⟩
  · rw [htimer]
    exact h.timer.running.setup
  · rw [htimer]
    exact h.timer.running.counts
  · rw [htimer]
    exact h.timer.enabled
  · rw [htimer]
    exact h.timer.value
  · rw [henable]
    exact h.timer.line

/-- The calls of the timer's handler, by the log of the lines answered. -/
theorem Isr.count_handled {isr : Isr A} (hvector : (isr.sVectors socIrqTimer).isSome)
    {ls : List ℕ} (hls : ∀ l ∈ ls, l < socNLines) :
    (isr.handled (ls.map (BitVec.ofNat 32))).count vlabIrqTimer = ls.count socIrqTimer := by
  rw [Isr.handled, List.count_filter (by exact hvector), List.count, List.countP_map, List.count]
  refine List.countP_congr fun l hl => ?_
  have hl3 : l < 3 := hls l hl
  rw [Function.comp_apply, beq_iff_eq, beq_iff_eq, ← BitVec.toNat_inj, toNat_line hl3]
  rfl

section Round

variable {t : SocTimer} (hload : 0 < t.load) (hper : t.Periodic)
include hload hper

/-- The dispatcher leaves the timer where it is. -/
theorem ServiceAt.dispatch {k : ℕ} {m : Machine A} (h : ServiceAt t k m) :
    ServiceAt t k (isrDispatch m).2 := by
  refine isrDispatch_rule (P := ServiceAt t k) (fun m hm => hm.live)
    (fun m hm => hm.of_soc hm.live.polled rfl rfl)
    (fun m line hm _ _ => hm.of_soc (hm.live.acked line) rfl rfl)
    (fun m line hm hline hlt => ?_) h
  -- the handler, then the CLEAR write
  have hl : line < socNLines := socIntcHighest_lt hline
  have hacked := hm.of_soc (hm.live.acked line) rfl rfl
  set a : Machine A := { m with platform := m.platform.acked line } with ha
  have hclear : ∀ q : Platform, Live q → TimerAt t k q.gSoc →
      TimerAt t k (halWriteReg q vlabIntcClear (BitVec.ofNat 32 line)).gSoc := by
    intro q hq htimer
    rw [halWriteReg_eq hq]
    refine htimer.quiet hload hper (e := .write vlabIntcClear (BitVec.ofNat 32 line))
      ⟨⟨by decide, by decide⟩, fun _ => SocEvent.noConfusion, fun value heq => ?_⟩ rfl
    injection heq with haddr _
    exact absurd haddr (by decide)
  obtain ⟨es, -, hlive, -⟩ := isrServe_events hacked.live hacked.code (BitVec.ofNat 32 line)
  refine ⟨hlive, hm.lines, hm.code, ?_⟩
  rw [isrServe_platform a hl]
  cases hf : a.isr.sVectors line with
  | none => exact hclear _ hacked.live hacked.timer
  | some f =>
    have hf' : a.isr.sVectors (BitVec.ofNat 32 line : Word).toNat = some f := by
      rw [toNat_line hl]
      exact hf
    obtain ⟨fs, hfs, hinit, hsoc⟩ :=
      hacked.code (BitVec.ofNat 32 line) f hf' a.platform a.app hacked.live
    have hq : Live (f (BitVec.ofNat 32 line) (a.platform, a.app)).1 :=
      ⟨hinit, hsoc ▸ hacked.live.wired.run fs⟩
    refine hclear _ hq ?_
    rw [hsoc]
    exact (Runs.stages_invariant socApply (P := TimerAt t k) (C := TimerQuiet)
      (fun u e he hu => hu.quiet hload hper he.leaves he.noTick) hfs hacked.timer).1

/-- A round: its ticks, and whether the line is raised in them. -/
theorem ServiceAt.round (hirq : t.IrqEnabled) {k : ℕ} {m : Machine A} (h : ServiceAt t k m)
    {cs : List AppCall} (hcs : ∀ c ∈ cs, ∀ e ∈ c.events, e.LeavesTimer) :
    ServiceAt t (k + roundTicks cs) (mainRound m cs) ∧
      (serviceRound (m, cs)).heard socIrqTimer = true ∧
      (serviceRound (m, cs)).rung socIrqTimer =
        decide (k / t.load.toNat < (k + roundTicks cs) / t.load.toNat) := by
  have hes : ∀ e ∈ cs.flatMap AppCall.events, e.LeavesTimer := by
    intro e he
    obtain ⟨c, hc, hec⟩ := List.mem_flatMap.mp he
    exact hcs c hc e hec
  obtain ⟨htimer, hraised⟩ := h.timer.run hload hper hirq hes
  rw [← roundTicks_events]
  refine ⟨?_, htimer.line, hraised⟩
  have hservice : ServiceAt t (k + (cs.flatMap AppCall.events).countP SocEvent.isTick)
      { m with platform := Runs.run appCall m.platform cs } := by
    rw [appRun_eq h.live]
    exact ⟨h.live.run _, h.lines, h.code, htimer⟩
  exact hservice.dispatch hload hper

/-- A run of rounds: the line is heard in all, and rung in those that cross a multiple of the
load. -/
theorem ServiceAt.rounds (hirq : t.IrqEnabled) {rounds : List (List AppCall)}
    (hrounds : ∀ cs ∈ rounds, ∀ c ∈ cs, ∀ e ∈ c.events, e.LeavesTimer) {k : ℕ} {m : Machine A}
    (h : ServiceAt t k m) :
    let rs := (Runs.stages mainRound m rounds).map serviceRound
    (∀ r ∈ rs, r.heard socIrqTimer = true) ∧
      (rs.countP fun r => r.rung socIrqTimer) =
        Countdown.crossings t.load.toNat k (rounds.map roundTicks) := by
  induction rounds generalizing k m with
  | nil => exact ⟨fun r hr => absurd hr List.not_mem_nil, rfl⟩
  | cons cs rounds ih =>
    obtain ⟨hnext, hheard, hrung⟩ := h.round hload hper hirq (hrounds cs List.mem_cons_self)
    obtain ⟨hrest, hcount⟩ := ih (fun cs' hcs' => hrounds cs' (List.mem_cons_of_mem cs hcs')) hnext
    dsimp only
    rw [Runs.stages, List.map_cons, List.forall_mem_cons, List.countP_cons, hcount, List.map_cons,
      Countdown.crossings, hrung, Nat.add_comm]
    refine ⟨⟨hheard, hrest⟩, ?_⟩
    simp only [decide_eq_true_iff]

/-- The handler's calls in a run of rounds. -/
theorem ServiceAt.calls (hirq : t.IrqEnabled) {k : ℕ} {m : Machine A} (h : ServiceAt t k m)
    (hvector : (m.isr.sVectors socIrqTimer).isSome)
    (hpending : m.platform.gSoc.intc.pending.getLsbD socIrqTimer = false)
    {rounds : List (List AppCall)}
    (hrounds : ∀ cs ∈ rounds, ∀ c ∈ cs, c.noAck ∧ ∀ e ∈ c.events, e.LeavesTimer) :
    (Runs.run mainRound (m.logged []) rounds).app.2.count vlabIrqTimer =
      Countdown.crossings t.load.toNat k (rounds.map roundTicks) := by
  have hpos : 0 < m.isr.sNLines.toNat := Nat.lt_of_lt_of_le (by decide) h.lines
  obtain ⟨hheard, hrung⟩ := h.rounds hload hper hirq fun cs hcs c hc => (hrounds cs hcs c hc).2
  -- the log is that of the board, on which the line is not owed
  obtain ⟨-, served, hanswered, hlogged, -⟩ := mainRound_run h.live hpos
    (h.code.mono fun x hx => hx.passive) (fun cs hcs c hc => (hrounds cs hcs c hc).1)
    (b := ⟨m.platform.gSoc.intc.owedLines, [], []⟩) rfl []
  have hmine : ∀ l ∈ kPriority, m.isr.mine l = true := fun l hl =>
    decide_eq_true ((mem_priority.mp hl).trans_le h.lines)
  have howed : socIrqTimer ∉ m.platform.gSoc.intc.owedLines := by
    intro hmem
    have hbit := (List.mem_filter.mp hmem).2
    rw [hpending] at hbit
    exact absurd hbit Bool.false_ne_true
  obtain ⟨-, hcount⟩ := Doorbells.run_answered (show kPriority.Nodup by decide) hmine
    (show socIrqTimer ∈ kPriority by decide) hheard (b := ⟨m.platform.gSoc.intc.owedLines, [], []⟩)
    howed
  rw [List.nil_append] at hanswered
  have hserved : ∀ l ∈ served, l < socNLines := by
    intro l hl
    rw [← hanswered] at hl
    exact mem_priority.mp ((Doorbells.run_answered_mem hl).resolve_left List.not_mem_nil)
  have hlog : (Runs.run mainRound (m.logged []) rounds).app.2 =
      m.isr.handled (served.map (BitVec.ofNat 32)) := congrArg (fun q => q.app.2) hlogged
  rw [hlog, Isr.count_handled hvector hserved, ← hanswered, hcount, hrung]
  exact Nat.zero_add _

end Round

/-! ### The service -/

/-- `timer_start` leaves the controller alone. -/
theorem timerStart_intc {p : Platform} (h : Live p) {load : Word} (hload : load ≠ 0)
    (periodic irqEnable : Int) :
    let q := (timerStart p load periodic irqEnable).2
    q.gSoc.intc.pending = p.gSoc.intc.pending ∧ q.gSoc.intc.enable = p.gSoc.intc.enable := by
  have hone : ∀ {q : Platform}, Live q → ∀ addr, addr ∉ dmaRegs → addr ≠ vlabIntcEnable → ∀ v,
      (halWriteReg q addr v).gSoc.intc.pending = q.gSoc.intc.pending ∧
        (halWriteReg q addr v).gSoc.intc.enable = q.gSoc.intc.enable := by
    intro q hq addr hdma hne v
    obtain ⟨hp, he⟩ := socWrite_intc hdma q.gSoc v
    rw [halWriteReg_eq hq]
    exact ⟨hp, he hne⟩
  obtain ⟨hp1, he1⟩ := hone h vlabTimerLoad (by decide) (by decide) load
  obtain ⟨hp2, he2⟩ := hone (h.write vlabTimerLoad load) vlabTimerCtrl (by decide) (by decide)
    (timerCtrlWord periodic irqEnable)
  rw [timerStart, if_neg hload]
  exact ⟨hp2.trans hp1, he2.trans he1⟩

/-- Started with `timer_start` as a periodic interrupt source, the timer is served in every
round of the main loop in which its ticks reach a multiple of the load, and once: a loop that
dispatches at least once a period calls the handler once for each period, a slower one once
for each round that completes a period or more. -/
theorem timer_service {m : Machine A} (h : Live m.platform) (hn : 3 ≤ m.isr.sNLines.toNat)
    (hcode : m.isr.HandlersDo TimerQuiet) (hvector : (m.isr.sVectors socIrqTimer).isSome)
    (hstopped : ¬ m.platform.gSoc.timer.Enabled) (hzero : m.platform.gSoc.timer.value = 0)
    (hpending : m.platform.gSoc.intc.pending.getLsbD socIrqTimer = false)
    (henable : m.platform.gSoc.intc.enable.getLsbD socIrqTimer = true)
    {load : Word} (hload : load ≠ 0) {periodic irqEnable : Int} (hper : periodic ≠ 0)
    (hirq : irqEnable ≠ 0) {rounds : List (List AppCall)}
    (hrounds : ∀ cs ∈ rounds, ∀ c ∈ cs, c.noAck ∧ ∀ e ∈ c.events, e.LeavesTimer) :
    let p := (timerStart m.platform load periodic irqEnable).2
    let r := Runs.run mainRound ({ m with platform := p }.logged []) rounds
    let ns := rounds.map roundTicks
    r.app.2.count vlabIrqTimer = Countdown.crossings load.toNat 0 ns ∧
      ((∀ n ∈ ns, n ≤ load.toNat) → r.app.2.count vlabIrqTimer = ns.sum / load.toNat) := by
  intro p r ns
  have hpos : 0 < load.toNat := Nat.pos_of_ne_zero fun h0 => hload (BitVec.eq_of_toNat_eq h0)
  obtain ⟨hen, hperiodic, hirqen⟩ := timerCtrlWord_bits periodic irqEnable
  obtain ⟨-, hlive, htimer⟩ := timerStart_timer h hload periodic irqEnable
  obtain ⟨hp, he⟩ := timerStart_intc h hload periodic irqEnable
  rw [if_pos ⟨hstopped, hzero⟩] at htimer
  -- the timer as `timer_start` leaves it
  set t : SocTimer :=
    ⟨timerCtrlWord periodic irqEnable, load, load, m.platform.gSoc.timer.irqStatus⟩ with ht
  have hsetup : p.gSoc.timer = t := htimer
  have hservice : ServiceAt t 0 { m with platform := p } := by
    refine ⟨hlive, hn, hcode, ⟨⟨hlive.wired, ?_, fun _ => ?_⟩, ?_, ?_, ?_⟩⟩
    · show SameSetup t p.gSoc.timer
      rw [hsetup]
      exact ⟨rfl, Iff.rfl, Iff.rfl⟩
    · show 0 < p.gSoc.timer.value
      rw [hsetup]
      exact hpos
    · show p.gSoc.timer.Enabled
      rw [hsetup]
      exact hen
    · show p.gSoc.timer.value.toNat = load.toNat - 0 % load.toNat
      rw [hsetup, Nat.zero_mod, Nat.sub_zero]
    · show p.gSoc.intc.enable.getLsbD socIrqTimer = true
      rw [he, henable]
  have hcalls : r.app.2.count vlabIrqTimer = Countdown.crossings load.toNat 0 ns :=
    hservice.calls (show 0 < t.load from hpos) (hperiodic.mpr hper) (hirqen.mpr hirq) hvector
      ((congrArg (fun w => w.getLsbD socIrqTimer) hp).trans hpending) hrounds
  refine ⟨hcalls, fun hshort => hcalls.trans ?_⟩
  have hsum := Countdown.crossings_short hpos hshort 0
  rwa [Nat.zero_div, Nat.zero_add, Nat.zero_add] at hsum

/-- After boot, with the lines enabled and a handler for the timer. -/
def serviceMachine : Machine Unit where
  platform := Runs.run appCall (socHostBoot (platformStart default)) [.intcEnable 0x7]
  app := ()
  isr := isrRegister isrStart 1 (some timerHandler)

theorem serviceMachine_quiet : serviceMachine.isr.HandlersDo TimerQuiet := by
  intro line f hf p a hp
  have hvector : serviceMachine.isr.sVectors =
      Function.update (fun _ => none) 1 (some timerHandler) := rfl
  have hline : line.toNat = 1 := by
    by_contra hne
    rw [hvector, Function.update_of_ne hne] at hf
    exact absurd hf (by simp)
  rw [hvector, hline, Function.update_self] at hf
  obtain rfl : timerHandler = f := Option.some.inj hf
  refine ⟨[.write vlabTimerIrqClear 1], fun x hx => ?_, ?_, ?_⟩
  · obtain rfl : x = (p.gSoc, .write vlabTimerIrqClear 1) := List.mem_singleton.mp hx
    refine ⟨⟨fun _ => SocEvent.noConfusion, dmaRaises_write_other (by decide) p.gSoc 1, rfl, ?_⟩,
      ⟨⟨by decide, by decide⟩, fun _ => SocEvent.noConfusion, ?_⟩, rfl⟩
    · intro value heq
      injection heq with haddr _
      exact absurd haddr (by decide)
    · intro value heq
      injection heq with haddr _
      exact absurd haddr (by decide)
  · rw [timerHandler, halWriteReg_eq hp]
    exact hp.inited
  · rw [timerHandler, halWriteReg_eq hp]
    rfl

/-- Rounds of 3, 25 and 2 ticks with a period of 10: two of them are served. -/
theorem timer_service_rounds :
    (Runs.run mainRound
      ({ serviceMachine with platform := (timerStart serviceMachine.platform 10 1 1).2 }.logged [])
      [[.hostStep 3], [.hostStep 25], [.hostStep 2, .mmioRead vlabTimerValue]]).app.2.count
        vlabIrqTimer = 2 := by
  have hlive : Live serviceMachine.platform := by
    obtain ⟨hboot, -⟩ := socHostBoot_eq (p := platformStart default) fun h0 =>
      absurd h0 Bool.false_ne_true
    have hcalls : serviceMachine.platform = _ := appRun_eq hboot _
    rw [hcalls]
    exact hboot.run _
  have htick : SocEvent.tick.LeavesTimer :=
    ⟨trivial, fun _ => SocEvent.noConfusion, fun _ => SocEvent.noConfusion⟩
  have hstep : ∀ n : Word, (AppCall.hostStep n).noAck ∧
      ∀ e ∈ (AppCall.hostStep n).events, e.LeavesTimer := fun n =>
    ⟨AppCall.noConfusion, fun e he => by rw [List.eq_of_mem_replicate he]; exact htick⟩
  have hread : (AppCall.mmioRead vlabTimerValue).noAck ∧
      ∀ e ∈ (AppCall.mmioRead vlabTimerValue).events, e.LeavesTimer := by
    refine ⟨fun heq => absurd (AppCall.mmioRead.inj heq) (by decide), fun e he => ?_⟩
    rw [List.mem_singleton.mp he]
    exact ⟨trivial, fun _ => SocEvent.noConfusion, fun _ => SocEvent.noConfusion⟩
  have hrounds : ∀ cs ∈ [[AppCall.hostStep 3], [.hostStep 25],
      [.hostStep 2, .mmioRead vlabTimerValue]], ∀ c ∈ cs,
      c.noAck ∧ ∀ e ∈ c.events, e.LeavesTimer := by
    simp only [List.mem_cons, List.not_mem_nil, or_false]
    rintro cs (rfl | rfl | rfl) c hc
    · rw [List.mem_singleton.mp hc]
      exact hstep 3
    · rw [List.mem_singleton.mp hc]
      exact hstep 25
    · simp only [List.mem_cons, List.not_mem_nil, or_false] at hc
      rcases hc with rfl | rfl
      · exact hstep 2
      · exact hread
  have hvector : (serviceMachine.isr.sVectors socIrqTimer).isSome := rfl
  have hstopped : ¬ serviceMachine.platform.gSoc.timer.Enabled := by decide +kernel
  have hzero : serviceMachine.platform.gSoc.timer.value = 0 := by decide +kernel
  have hpending : serviceMachine.platform.gSoc.intc.pending.getLsbD socIrqTimer = false := by
    decide +kernel
  have henable : serviceMachine.platform.gSoc.intc.enable.getLsbD socIrqTimer = true := by
    decide +kernel
  have hlines : 3 ≤ serviceMachine.isr.sNLines.toNat := by decide
  have hcount := (timer_service hlive hlines serviceMachine_quiet hvector hstopped hzero hpending
    henable (show (10 : Word) ≠ 0 by decide) (show (1 : Int) ≠ 0 by decide)
    (show (1 : Int) ≠ 0 by decide) hrounds).1
  rw [hcount]
  decide +kernel

end VlabSoc
