/-
Interrupt service over a whole run of the firmware.

A main loop alternates application code and `isr_dispatch`.  The interrupt controller and the
dispatcher together are then a board of doorbells (`Doorbells`): raising a line rings it, a
round of the loop hears the enabled lines, and answers the ones it has a vector for.

* `isrDispatchLoop_short` — a dispatch, for every number of configured lines;
* `mainRound_step` — a round of the loop is a round of the board;
* `interrupt_service` — so is a run of them, with the handlers called in the order of the
  answers, and no line served more often than it was raised.
-/
import VlabSoc.Doorbells
import VlabSoc.IsrDispatch

namespace VlabSoc

open Doorbells (loses)

variable {A : Type}

/-! ### A dispatch with any number of lines -/

/-- The lines a dispatcher has vectors for. -/
def Isr.mine (isr : Isr A) (l : ℕ) : Bool := decide (l < isr.sNLines.toNat)

/-- A pass of the loop, by what the controller answers. -/
theorem isrAcks_cases {m : Machine A} (h : Live m.platform) (n handled : ℕ) :
    (socIntcHighest m.platform.gSoc.intc = none ∧ isrAcks (n + 1) m = [] ∧
      isrDispatchLoop (n + 1) m handled = (handled, { m with platform := m.platform.polled })) ∨
    (∃ k, socIntcHighest m.platform.gSoc.intc = some k ∧ m.isr.mine k = false ∧
      isrAcks (n + 1) m = [] ∧ isrDispatchLoop (n + 1) m handled =
        (handled, { m with platform := m.platform.acked k })) ∨
    ∃ k line, socIntcHighest m.platform.gSoc.intc = some k ∧ m.isr.mine k = true ∧
      isrNext m = some line ∧ line.toNat = k ∧
      isrAcks (n + 1) m = (m, line) :: isrAcks n (isrPass m line) ∧
      isrDispatchLoop (n + 1) m handled = isrDispatchLoop n (isrPass m line) (handled + 1) := by
  have hread := h.read_ack
  rw [isrAcks_succ]
  cases hline : socIntcHighest m.platform.gSoc.intc with
  | none =>
    rw [hline] at hread
    have hnext : isrNext m = none := by
      rw [isrNext, hread]
      exact if_pos (Or.inl rfl)
    rw [hnext]
    exact Or.inl ⟨rfl, rfl, isrDispatchLoop_none h hline n handled⟩
  | some k =>
    have hk : k < socNLines := socIntcHighest_lt hline
    rw [hline] at hread
    by_cases hmine : k < m.isr.sNLines.toNat
    · have hnext : isrNext m = some (BitVec.ofNat 32 k) := by
        rw [isrNext, hread]
        exact if_neg (ack_configured hk hmine)
      have hpass : isrPass m (BitVec.ofNat 32 k) =
          isrServe { m with platform := m.platform.acked k } (BitVec.ofNat 32 k) := by
        rw [isrPass, hread]
      rw [hnext]
      refine Or.inr (Or.inr ⟨k, BitVec.ofNat 32 k, rfl, decide_eq_true hmine, rfl,
        toNat_line hk, rfl, ?_⟩)
      rw [isrDispatchLoop_some h hline hmine, hpass]
    · have hge : m.isr.sNLines.toNat ≤ k := not_lt.mp hmine
      have hk3 : k < 3 := hk
      have hnext : isrNext m = none := by
        rw [isrNext, hread]
        refine if_pos (Or.inr ?_)
        rw [BitVec.le_def, toNat_line hk]
        exact hge
      rw [hnext]
      exact Or.inr (Or.inl ⟨k, rfl, decide_eq_false hmine, rfl,
        isrDispatchLoop_beyond h hline hge n handled⟩)

/-- What a dispatch leaves of the machine. -/
structure AfterDispatch (m r : Machine A) : Prop where
  live : Live r.platform
  enable : r.platform.gSoc.intc.enable = m.platform.gSoc.intc.enable
  vectors : r.isr.sVectors = m.isr.sVectors
  lines : r.isr.sNLines = m.isr.sNLines

/-- Passive handlers, whatever the number of configured lines: the ready lines are served in
order, up to the first without a vector; that one is acknowledged and forgotten. -/
theorem isrDispatchLoop_short {m : Machine A} (n : ℕ) (h : Live m.platform)
    (hcode : m.isr.HandlersDo Passive) (handled : ℕ)
    (hlen : (m.platform.gSoc.intc.readyLines.takeWhile m.isr.mine).length +
      (loses m.isr.mine m.platform.gSoc.intc.readyLines).length ≤ n) :
    let ls := m.platform.gSoc.intc.readyLines
    let r := (isrDispatchLoop n m handled).2
    (isrAcks n m).map (fun x => x.2.toNat) = ls.takeWhile m.isr.mine ∧ AfterDispatch m r ∧
      ∀ l < socNLines, (r.platform.gSoc.intc.pending.getLsbD l = true ↔
        m.platform.gSoc.intc.pending.getLsbD l = true ∧ l ∉ ls.takeWhile m.isr.mine ∧
          l ∉ loses m.isr.mine ls) := by
  -- by recursion on the passes that are left: each takes the head of the ready lines
  induction n generalizing m handled with
  | zero =>
    intro ls r
    obtain ⟨hzero, hzero'⟩ := Nat.add_eq_zero_iff.mp (Nat.le_zero.mp hlen)
    have hserved : ls.takeWhile m.isr.mine = [] := List.length_eq_zero_iff.mp hzero
    have hlost : loses m.isr.mine ls = [] := List.length_eq_zero_iff.mp hzero'
    rw [hserved, hlost]
    exact ⟨rfl, ⟨h, rfl, rfl, rfl⟩, fun l _ => by simp [r, isrDispatchLoop]⟩
  | succ n ih =>
    intro ls r
    rcases isrAcks_cases h n handled with ⟨hnone, hacks, heq⟩ | ⟨k, htop, hmine, hacks, heq⟩ |
      ⟨k, line, htop, hmine, hnext, hnat, hacks, heq⟩
    · -- nothing is ready
      have hnil : ls = [] := by
        rw [socIntcHighest_head] at hnone
        exact List.head?_eq_none_iff.mp hnone
      rw [hacks, hnil, show r = _ from congrArg Prod.snd heq]
      exact ⟨rfl, ⟨h.polled, rfl, rfl, rfl⟩, fun l _ => by simp [Platform.polled, loses]⟩
    · -- a line without a vector
      obtain ⟨rest, hls⟩ : ∃ rest, ls = k :: rest := by
        rw [socIntcHighest_head] at htop
        exact ⟨_, (List.cons_head?_tail htop).symm⟩
      rw [hacks, hls, show r = _ from congrArg Prod.snd heq, loses,
        List.takeWhile_cons_of_neg (by simp [hmine]), List.dropWhile_cons_of_neg (by simp [hmine])]
      refine ⟨rfl, ⟨h.acked k, rfl, rfl, rfl⟩, fun l hl => ?_⟩
      have hl3 : l < 3 := hl
      show (m.platform.gSoc.intc.acked k).pending.getLsbD l = true ↔ _
      rw [SocIntc.acked_pending _ (by omega)]
      simp
    · obtain ⟨hpending, henable⟩ := isrPass_pending h hcode hnext
      set ic := m.platform.gSoc.intc with hic
      set ic' := (isrPass m line).platform.gSoc.intc with hic'
      have hready : ∀ l < socNLines, ic'.Ready l ↔ ic.Ready l ∧ l ≠ k := by
        intro l hl
        rw [SocIntc.Ready, SocIntc.Ready, hpending l hl, henable, Bool.and_eq_true,
          decide_eq_true_iff, hnat, and_right_comm]
      have hls : ls = k :: ic'.readyLines := SocIntc.readyLines_taken htop hready
      have hserved : ls.takeWhile m.isr.mine = k :: ic'.readyLines.takeWhile m.isr.mine := by
        rw [hls, List.takeWhile_cons_of_pos hmine]
      have hlost : loses m.isr.mine ls = loses m.isr.mine ic'.readyLines := by
        rw [hls, loses, loses, List.dropWhile_cons_of_pos hmine]
      have hshort : (ic'.readyLines.takeWhile m.isr.mine).length +
          (loses m.isr.mine ic'.readyLines).length ≤ n := by
        rw [show ic.readyLines = ls from rfl, hserved, hlost, List.length_cons] at hlen
        omega
      obtain ⟨hmap, hrest, hpending'⟩ :=
        ih (isrPass_live h hcode hnext) hcode (handled + 1) hshort
      rw [show r = _ from congrArg Prod.snd heq, hacks, hserved, hlost, List.map_cons, hnat]
      refine ⟨congrArg _ hmap, ⟨hrest.live, hrest.enable.trans henable, hrest.vectors, hrest.lines⟩,
        fun l hl => (hpending' l hl).trans ?_⟩
      rw [← hic', hpending l hl, Bool.and_eq_true, decide_eq_true_iff, hnat, List.mem_cons]
      show _ ∧ (l ∉ ic'.readyLines.takeWhile m.isr.mine) ∧ l ∉ loses m.isr.mine ic'.readyLines ↔ _
      tauto

/-! ### Rounds -/

/-- A round of a main loop: application code, then a dispatch. -/
def mainRound (m : Machine A) (cs : List AppCall) : Machine A :=
  (isrDispatch { m with platform := Runs.run appCall m.platform cs }).2

/-- Nothing but the dispatcher reads ACK. -/
def AppCall.noAck (c : AppCall) : Prop := c ≠ .mmioRead vlabIntcAck

/-- The lines pending, in the order of the priority. -/
def SocIntc.owedLines (ic : SocIntc) : List ℕ := kPriority.filter ic.pending.getLsbD

/-- What a round rings and hears. -/
def serviceRound (x : Machine A × List AppCall) : Doorbells.Round ℕ :=
  let es := x.2.flatMap AppCall.events
  let s := x.1.platform.gSoc
  { rung := fun l => (Runs.stages socApply s es).any fun y => decide ((l : Int) ∈ socRaises y.1 y.2)
    heard := (Runs.run socApply s es).intc.enable.getLsbD }

theorem mem_priority {l : ℕ} : l ∈ kPriority ↔ l < socNLines := by
  rw [show kPriority = [1, 2, 0] from rfl, show socNLines = 3 from rfl]
  simp only [List.mem_cons, List.not_mem_nil, or_false]
  omega

/-- Without an ACK or a reset, a pending line stays so and a raised one becomes it. -/
theorem SocWired.noAck_pending {s : Soc} (h : SocWired s) {es : List SocEvent}
    (hes : ∀ e ∈ es, (∀ out, e ≠ .read vlabIntcAck out) ∧ e.resets = false) {l : ℕ}
    (hl : l < socNLines) :
    (Runs.run socApply s es).intc.pending.getLsbD l = true ↔
      s.intc.pending.getLsbD l = true ∨
        (Runs.stages socApply s es).any (fun y => decide ((l : Int) ∈ socRaises y.1 y.2)) = true := by
  induction es generalizing s with
  | nil => simp [Runs.stages]
  | cons e es ih =>
    obtain ⟨hack, hreset⟩ := hes e List.mem_cons_self
    have hnoAck : socAcks l (s, e) = false := NoAck.acks (fun out => hack out) l
    rw [Runs.run_cons, ih (h.apply e) fun e' he' => hes e' (List.mem_cons_of_mem e he'),
      h.apply_pending hl e, Runs.stages, List.any_cons, hnoAck, hreset, Bool.or_eq_true,
      decide_eq_true_iff]
    simp only [Bool.false_eq_true, or_self, not_false_eq_true, and_true]
    tauto

theorem AppCall.noAck_events {c : AppCall} (hc : c.noAck) :
    ∀ e ∈ c.events, (∀ out, e ≠ .read vlabIntcAck out) ∧ e.resets = false := by
  intro e he
  cases c with
  | hostStep n =>
    rw [List.eq_of_mem_replicate he]
    exact ⟨fun _ => SocEvent.noConfusion, rfl⟩
  | raiseIrq line =>
    rw [List.mem_singleton.mp he]
    exact ⟨fun _ => SocEvent.noConfusion, rfl⟩
  | intcEnable mask =>
    rw [List.mem_singleton.mp he]
    exact ⟨fun _ => SocEvent.noConfusion, rfl⟩
  | mmioRead addr =>
    rw [List.mem_singleton.mp he]
    refine ⟨fun out heq => hc ?_, rfl⟩
    injection heq with haddr _
    rw [haddr]
  | mmioWrite addr val =>
    rw [List.mem_singleton.mp he]
    exact ⟨fun _ => SocEvent.noConfusion, rfl⟩

/-- A dispatch has passes for all it takes. -/
theorem taken_length (ready : ℕ → Bool) {n : ℕ} (hn : 0 < n) :
    let ls := kPriority.filter ready
    (ls.takeWhile fun l => decide (l < n)).length + (loses (fun l => decide (l < n)) ls).length ≤
      n := by
  intro ls
  obtain rfl | rfl | h3 : n = 1 ∨ n = 2 ∨ 3 ≤ n := by omega
  · cases h1 : ready 1 <;> cases h2 : ready 2 <;> cases h0 : ready 0 <;>
      simp [ls, kPriority, loses, h1, h2, h0]
  · cases h1 : ready 1 <;> cases h2 : ready 2 <;> cases h0 : ready 0 <;>
      simp [ls, kPriority, loses, h1, h2, h0]
  · -- every line has a vector
    have hmine : ∀ l ∈ ls, decide (l < n) = true := by
      intro l hl
      have hlt : l < 3 := mem_priority.mp (List.mem_filter.mp hl).1
      exact decide_eq_true (by omega)
    have hlen : ls.length ≤ 3 := List.length_filter_le _ kPriority
    rw [Doorbells.loses_mine hmine, List.takeWhile_eq_self_iff.mpr hmine, List.length_nil]
    omega

/-- A round of the loop is a round of the board, and calls the handlers of the answered
lines. -/
theorem mainRound_step {m : Machine A} (h : Live m.platform) (hn : 0 < m.isr.sNLines.toNat)
    (hcode : m.isr.HandlersDo Passive) {cs : List AppCall} (hcs : ∀ c ∈ cs, c.noAck)
    {b : Doorbells.Board ℕ} (hb : m.platform.gSoc.intc.owedLines = b.owed) (log : List Word) :
    let b' := Doorbells.step kPriority m.isr.mine b (serviceRound (m, cs))
    let m' := mainRound m cs
    Live m'.platform ∧ m'.isr.sVectors = m.isr.sVectors ∧ m'.isr.sNLines = m.isr.sNLines ∧
      m'.platform.gSoc.intc.owedLines = b'.owed ∧
      ∃ served, b'.answered = b.answered ++ served ∧
        mainRound (m.logged log) cs =
          m'.logged (log ++ m.isr.handled (served.map (BitVec.ofNat 32))) ∧
        m'.isr.sDispatched = m.isr.sDispatched + BitVec.ofNat 32 served.length := by
  intro b' m'
  set es := cs.flatMap AppCall.events with hes
  set m1 : Machine A := { m with platform := Runs.run appCall m.platform cs } with hm1
  have hplatform : m1.platform = { m.platform with gSoc := Runs.run socApply m.platform.gSoc es } :=
    appRun_eq h cs
  have hlive : Live m1.platform := by
    rw [hplatform]
    exact h.run es
  have hsoc : m1.platform.gSoc = Runs.run socApply m.platform.gSoc es := congrArg _ hplatform
  set r := serviceRound (m, cs) with hr
  -- what the application has made of PENDING
  have hpending : ∀ l < socNLines, (m1.platform.gSoc.intc.pending.getLsbD l = true ↔
      l ∈ Doorbells.pending kPriority b r) := by
    intro l hl
    have hevents : ∀ e ∈ es, (∀ out, e ≠ .read vlabIntcAck out) ∧ e.resets = false := by
      intro e he
      obtain ⟨c, hc, hec⟩ := List.mem_flatMap.mp he
      exact AppCall.noAck_events (hcs c hc) e hec
    rw [hsoc, h.wired.noAck_pending hevents hl, Doorbells.pending, List.mem_filter, ← hb, Bool.or_eq_true, decide_eq_true_iff,
      SocIntc.owedLines, List.mem_filter, and_iff_right (mem_priority.mpr hl),
      and_iff_right (mem_priority.mpr hl)]
    rfl
  have hready : m1.platform.gSoc.intc.readyLines = Doorbells.ready kPriority b r := by
    rw [SocIntc.readyLines, Doorbells.ready, Doorbells.pending, List.filter_filter]
    refine List.filter_congr fun l hl => Bool.eq_iff_iff.mpr ?_
    have hl3 := mem_priority.mp hl
    rw [decide_eq_true_iff, SocIntc.Ready, hpending l hl3, Doorbells.pending, List.mem_filter,
      and_iff_right hl, hsoc, Bool.and_eq_true, and_comm]
    rfl
  -- the dispatch
  obtain ⟨hmap, hdone, hrest⟩ := isrDispatchLoop_short m1.isr.sNLines.toNat hlive hcode 0
    (taken_length (fun l => decide (m1.platform.gSoc.intc.Ready l)) hn)
  have hlog := isrDispatchLoop_logged m1.isr.sNLines.toNat m1 log 0
  obtain ⟨-, hcount⟩ := isrDispatchLoop_count m1.isr.sNLines.toNat m1 0
  rw [hready] at hmap hrest
  set acks := isrAcks m1.isr.sNLines.toNat m1 with hacks
  have hwords : acks.map Prod.snd =
      ((Doorbells.ready kPriority b r).takeWhile m.isr.mine).map (BitVec.ofNat 32) := by
    rw [show m.isr.mine = m1.isr.mine from rfl, ← hmap, List.map_map]
    exact List.map_congr_left fun x _ => by simp
  refine ⟨hdone.live, hdone.vectors, hdone.lines, ?_,
    (Doorbells.ready kPriority b r).takeWhile m.isr.mine, rfl, ?_, ?_⟩
  · rw [SocIntc.owedLines, show b'.owed = (Doorbells.pending kPriority b r).filter _ from rfl]
    nth_rewrite 1 [Doorbells.pending]
    rw [List.filter_filter]
    refine List.filter_congr fun l hl => Bool.eq_iff_iff.mpr ?_
    have hl3 := mem_priority.mp hl
    refine (hrest l hl3).trans ?_
    rw [hpending l hl3, Doorbells.pending, List.mem_filter, and_iff_right hl, Bool.and_eq_true,
      decide_eq_true_iff, and_comm]
  · rw [← hwords]
    exact congrArg Prod.snd hlog
  · rw [← List.length_map (BitVec.ofNat 32), ← hwords, List.length_map]
    exact hcount

/-- A run of the loop is a run of the board. -/
theorem mainRound_run {rounds : List (List AppCall)} :
    ∀ {m : Machine A}, Live m.platform → 0 < m.isr.sNLines.toNat → m.isr.HandlersDo Passive →
      (∀ cs ∈ rounds, ∀ c ∈ cs, c.noAck) →
      ∀ {b : Doorbells.Board ℕ}, m.platform.gSoc.intc.owedLines = b.owed → ∀ log : List Word,
      let b' := Runs.run (Doorbells.step kPriority m.isr.mine) b
        ((Runs.stages mainRound m rounds).map serviceRound)
      let m' := Runs.run mainRound m rounds
      m'.platform.gSoc.intc.owedLines = b'.owed ∧
        ∃ served, b'.answered = b.answered ++ served ∧
          Runs.run mainRound (m.logged log) rounds =
            m'.logged (log ++ m.isr.handled (served.map (BitVec.ofNat 32))) ∧
          m'.isr.sDispatched = m.isr.sDispatched + BitVec.ofNat 32 served.length := by
  induction rounds with
  | nil =>
    intro m h hn hcode _ b hb log
    refine ⟨hb, [], (List.append_nil _).symm, ?_, (BitVec.add_zero _).symm⟩
    show m.logged log = m.logged (log ++ [])
    rw [List.append_nil]
  | cons cs rounds ih =>
    intro m h hn hcode hrounds b hb log
    obtain ⟨hlive, hvectors, hlines, howed, served, hanswered, hlogged, hcount⟩ :=
      mainRound_step h hn hcode (hrounds cs List.mem_cons_self) hb log
    set m1 := mainRound m cs with hm1
    have hmine : m1.isr.mine = m.isr.mine := by
      funext l
      rw [Isr.mine, Isr.mine, hlines]
    have hhandled : m1.isr.handled = m.isr.handled := by
      funext ls
      rw [Isr.handled, Isr.handled, hvectors]
    have hcode1 : m1.isr.HandlersDo Passive := by
      intro line f hf
      rw [hvectors] at hf
      exact hcode line f hf
    obtain ⟨howed', served', hanswered', hlogged', hcount'⟩ :=
      ih hlive (by rw [hlines]; exact hn) hcode1
        (fun cs' hcs' => hrounds cs' (List.mem_cons_of_mem cs hcs')) howed
        (log ++ m.isr.handled (served.map (BitVec.ofNat 32)))
    rw [hmine] at howed' hanswered'
    refine ⟨howed', served ++ served', ?_, ?_, ?_⟩
    · rw [← List.append_assoc, ← hanswered]
      exact hanswered'
    · rw [Runs.run_cons, hlogged, hlogged', hhandled, List.append_assoc, List.map_append]
      rw [Isr.handled, Isr.handled, Isr.handled, List.filter_append]
      rfl
    · rw [Runs.run_cons, hcount', hcount, List.length_append, BitVec.ofNat_add, BitVec.add_assoc]

end VlabSoc
