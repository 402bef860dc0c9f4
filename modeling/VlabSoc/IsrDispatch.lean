/-
A dispatch, whatever the handlers do.

Handlers may do anything but read ACK: raise lines, write ENABLE, clear lines.  `isrAcks`
are the ACKs of a dispatch that answer a line.  Each answers the highest line that is
pending and enabled at that moment, its handler is called once, and none of these lines
is ACTIVE at the end; if the handlers raise nothing and leave ENABLE alone, every line
that was pending and enabled is dispatched once, in the order of the priority
(`isr_dispatch_bounded`).
-/
import VlabSoc.IntcTrace
import VlabSoc.FirmwareRuns

namespace VlabSoc

variable {A : Type}

/-! ### The ACKs of a dispatch -/

/-- One pass of the loop of `isr_dispatch` that is answered with `line`. -/
def isrPass (m : Machine A) (line : Word) : Machine A :=
  isrServe { m with platform := (halReadReg m.platform vlabIntcAck).2 } line

/-- The machine at every ACK that answers a line, and the line, in `n` passes of the loop. -/
def isrAcks : ℕ → Machine A → List (Machine A × Word)
  | 0, _ => []
  | n + 1, m =>
    match isrNext m with
    | none => []
    | some line => (m, line) :: isrAcks n (isrPass m line)

theorem isrAcks_succ (n : ℕ) (m : Machine A) :
    isrAcks (n + 1) m =
      match isrNext m with
      | none => []
      | some line => (m, line) :: isrAcks n (isrPass m line) := by
  rfl

theorem isrAcks_length_le (n : ℕ) (m : Machine A) : (isrAcks n m).length ≤ n := by
  induction n generalizing m with
  | zero => exact Nat.le_refl 0
  | succ n ih =>
    rw [isrAcks_succ]
    cases isrNext m with
    | none => exact Nat.zero_le _
    | some line => exact Nat.succ_le_succ (ih _)

/-- A dispatch counts these ACKs, in its result and in `s_dispatched`. -/
theorem isrDispatchLoop_count (n : ℕ) (m : Machine A) (handled : ℕ) :
    (isrDispatchLoop n m handled).1 = handled + (isrAcks n m).length ∧
      (isrDispatchLoop n m handled).2.isr.sDispatched =
        m.isr.sDispatched + BitVec.ofNat 32 (isrAcks n m).length := by
  induction n generalizing m handled with
  | zero => exact ⟨rfl, (BitVec.add_zero _).symm⟩
  | succ n ih =>
    rw [isrDispatchLoop_next, isrAcks_succ]
    cases isrNext m with
    | none => exact ⟨rfl, (BitVec.add_zero _).symm⟩
    | some line =>
      obtain ⟨hcount, hdispatched⟩ := ih (isrPass m line) (handled + 1)
      refine ⟨hcount.trans ?_, hdispatched.trans ?_⟩
      · rw [List.length_cons]
        omega
      · show m.isr.sDispatched + 1 + _ = _
        rw [List.length_cons, BitVec.add_assoc, Nat.add_comm, BitVec.ofNat_add]
        rfl

/-! ### Logged handlers -/

/-- A handler that also logs its calls. -/
def loggedHandler (f : IsrHandler A) : IsrHandler (A × List Word) := fun line r =>
  let q := f line (r.1, r.2.1)
  (q.1, q.2, r.2.2 ++ [line])

/-- The machine with a log of the handler calls. -/
def Machine.logged (m : Machine A) (log : List Word) : Machine (A × List Word) where
  platform := m.platform
  app := (m.app, log)
  isr :=
    { sVectors := fun l => (m.isr.sVectors l).map loggedHandler
      sNLines := m.isr.sNLines
      sDispatched := m.isr.sDispatched
      lines_le := m.isr.lines_le
      registered := fun l hl => m.isr.registered l (by simpa using hl) }

/-- The lines that have a handler. -/
def Isr.handled (isr : Isr A) (lines : List Word) : List Word :=
  lines.filter fun line => (isr.sVectors line.toNat).isSome

theorem isrPass_logged (m : Machine A) (log : List Word) (line : Word) :
    isrPass (m.logged log) line = (isrPass m line).logged (log ++ m.isr.handled [line]) := by
  rw [isrPass, isrPass, isrServe, isrServe, Isr.handled]
  cases hf : m.isr.sVectors line.toNat with
  | none => simp [Machine.logged, hf]
  | some f => simp [Machine.logged, loggedHandler, hf]

/-- The log does not disturb a dispatch, and grows by one call for every ACK of a line that
has a handler. -/
theorem isrDispatchLoop_logged (n : ℕ) (m : Machine A) (log : List Word) (handled : ℕ) :
    isrDispatchLoop n (m.logged log) handled =
      ((isrDispatchLoop n m handled).1,
        (isrDispatchLoop n m handled).2.logged
          (log ++ m.isr.handled ((isrAcks n m).map Prod.snd))) := by
  induction n generalizing m log handled with
  | zero =>
    show (handled, m.logged log) = (handled, m.logged (log ++ []))
    rw [List.append_nil]
  | succ n ih =>
    have hnext : isrNext (m.logged log) = isrNext m := rfl
    rw [isrDispatchLoop_next, isrDispatchLoop_next, isrAcks_succ, hnext]
    cases isrNext m with
    | none =>
      show (handled, _) = (handled, Machine.logged _ (log ++ []))
      rw [List.append_nil]
      rfl
    | some line =>
      have hpass := isrPass_logged m log line
      have hrest := ih (isrPass m line) (log ++ m.isr.handled [line]) (handled + 1)
      have hcons : m.isr.handled (line :: (isrAcks n (isrPass m line)).map Prod.snd) =
          m.isr.handled [line] ++ m.isr.handled ((isrAcks n (isrPass m line)).map Prod.snd) := by
        rw [Isr.handled, Isr.handled, Isr.handled, ← List.filter_append]
        rfl
      rw [← hpass, List.append_assoc] at hrest
      show isrDispatchLoop n (isrPass (m.logged log) line) (handled + 1) =
        ((isrDispatchLoop n (isrPass m line) (handled + 1)).1, Machine.logged _ (log ++
          m.isr.handled (line :: (isrAcks n (isrPass m line)).map Prod.snd)))
      rw [hrest, hcons]
      rfl

/-! ### What handlers do -/

/-- The handlers act on the SoC by events that `ok` allows where they happen, and on the
statics of the driver and the application as they like. -/
def Isr.HandlersDo (isr : Isr A) (ok : Soc × SocEvent → Prop) : Prop :=
  ∀ (line : Word) f, isr.sVectors line.toNat = some f → ∀ p a, Live p →
    ∃ es, (∀ x ∈ Runs.stages socApply p.gSoc es, ok x) ∧ (f line (p, a)).1.gInited = true ∧
      (f line (p, a)).1.gSoc = Runs.run socApply p.gSoc es

/-- Anything but an ACK read. -/
def NoAck (x : Soc × SocEvent) : Prop := ∀ out, x.2 ≠ .read vlabIntcAck out

/-- Nothing is acknowledged, raised or reset, and ENABLE is not written. -/
structure Passive (x : Soc × SocEvent) : Prop where
  noAck : NoAck x
  raises : socRaises x.1 x.2 = []
  resets : x.2.resets = false
  enable : ∀ value, x.2 ≠ .write vlabIntcEnable value

theorem Isr.HandlersDo.mono {isr : Isr A} {ok ok' : Soc × SocEvent → Prop}
    (h : isr.HandlersDo ok) (hle : ∀ x, ok x → ok' x) : isr.HandlersDo ok' := by
  intro line f hf p a hp
  obtain ⟨es, hes, hrest⟩ := h line f hf p a hp
  exact ⟨es, fun x hx => hle x (hes x hx), hrest⟩

theorem NoAck.acks {s : Soc} {e : SocEvent} (h : NoAck (s, e)) (line : ℕ) :
    socAcks line (s, e) = false := by
  cases e with
  | read addr out =>
    refine socAcks_other ?_ line s out
    rintro rfl
    exact h out rfl
  | _ => rfl

/-- Without an ACK no line becomes ACTIVE. -/
theorem SocWired.noAck_active {s : Soc} (h : SocWired s) {es : List SocEvent}
    (hes : ∀ x ∈ Runs.stages socApply s es, NoAck x) {line : ℕ} (hl : line < socNLines) :
    (Runs.run socApply s es).intc.active.getLsbD line = true →
      s.intc.active.getLsbD line = true := by
  have hrun := Runs.stages_invariant socApply
    (P := fun t => SocWired t ∧
      (t.intc.active.getLsbD line = true → s.intc.active.getLsbD line = true))
    (C := NoAck) (fun t e he ht => ⟨ht.1.apply e, fun hset => ?_⟩) hes ⟨h, id⟩
  · exact hrun.1.2
  · rcases (ht.1.apply_active hl e).mp hset with hack | ⟨hold, -⟩
    · rw [he.acks line] at hack
      exact absurd hack Bool.false_ne_true
    · exact ht.2 hold

theorem socIntcWrite_enable {offset : Word} (h : offset ≠ 0x00) (ic : SocIntc) (value : Word) :
    (socIntcWrite ic offset value).2.enable = ic.enable := by
  unfold socIntcWrite
  split
  case h_1 => exact absurd rfl h
  case h_2 =>
    dsimp only
    split_ifs <;> rfl
  case h_3 => rfl

/-- Passive code leaves PENDING and ENABLE alone. -/
theorem SocWired.passive_intc {s : Soc} (h : SocWired s) {es : List SocEvent}
    (hes : ∀ x ∈ Runs.stages socApply s es, Passive x) :
    (∀ line < socNLines, (Runs.run socApply s es).intc.pending.getLsbD line =
      s.intc.pending.getLsbD line) ∧
    (Runs.run socApply s es).intc.enable = s.intc.enable := by
  have hrun := Runs.stages_invariant socApply
    (P := fun t => SocWired t ∧
      (∀ line < socNLines, t.intc.pending.getLsbD line = s.intc.pending.getLsbD line) ∧
      t.intc.enable = s.intc.enable)
    (C := Passive) (fun t e he ht => ⟨ht.1.apply e, fun line hl => ?_, ?_⟩) hes
    ⟨h, fun _ _ => rfl, rfl⟩
  · exact hrun.1.2
  · rw [← ht.2.1 line hl]
    refine Bool.eq_iff_iff.mpr ((ht.1.apply_pending hl e).trans ?_)
    rw [he.raises, he.noAck.acks line, he.resets]
    simp
  · rw [← ht.2.2]
    rcases ht.1.intc_cases e with ⟨hreset, -⟩ | ⟨out, top, rfl, -⟩ | ⟨addr, value, rfl, -, heq⟩ |
      ⟨-, heq⟩
    · rw [he.resets] at hreset
      exact absurd hreset Bool.false_ne_true
    · exact absurd rfl (he.noAck out)
    · rw [heq]
      refine socIntcWrite_enable (fun h0 => ?_) _ _
      rw [BitVec.sub_eq_iff_eq_add] at h0
      exact he.enable value (by rw [h0]; rfl)
    · rw [heq, socIntcRaiseAll_enable]

/-! ### One pass -/

/-- The handler's events, if there is a handler, then the CLEAR write. -/
theorem isrServe_events {m : Machine A} (h : Live m.platform) {ok : Soc × SocEvent → Prop}
    (hcode : m.isr.HandlersDo ok) (line : Word) :
    ∃ es, (∀ x ∈ Runs.stages socApply m.platform.gSoc es, ok x) ∧
      Live (isrServe m line).platform ∧
      (isrServe m line).platform.gSoc.intc =
        (socIntcWrite (Runs.run socApply m.platform.gSoc es).intc 0x0C line).2 := by
  have hclear : vlabIntcClear - vlabIntcBase = 0x0C := by decide
  rw [isrServe]
  cases hf : m.isr.sVectors line.toNat with
  | none =>
    refine ⟨[], fun x hx => absurd hx List.not_mem_nil, h.write _ _, ?_⟩
    dsimp only
    rw [h.write_intc (Or.inr rfl), hclear, Runs.run_nil]
  | some f =>
    obtain ⟨es, hes, hinit, hsoc⟩ := hcode line f hf m.platform m.app h
    have hlive : Live (f line (m.platform, m.app)).1 := ⟨hinit, hsoc ▸ h.wired.run es⟩
    refine ⟨es, hes, hlive.write _ _, ?_⟩
    dsimp only
    rw [hlive.write_intc (Or.inr rfl), hclear, hsoc]

theorem isrPass_live {m : Machine A} (h : Live m.platform) {ok : Soc × SocEvent → Prop}
    (hcode : m.isr.HandlersDo ok) {line : Word} (hnext : isrNext m = some line) :
    Live (isrPass m line).platform := by
  obtain ⟨k, -, -, -, hack⟩ := isrNext_some h hnext
  rw [isrPass, hack]
  obtain ⟨-, -, hlive, -⟩ :=
    isrServe_events (m := { m with platform := m.platform.acked k }) (h.acked k) hcode line
  exact hlive

/-- After a pass its line is not ACTIVE, nor is any line that was not before. -/
theorem isrPass_active {m : Machine A} (h : Live m.platform) (hcode : m.isr.HandlersDo NoAck)
    {line : Word} (hnext : isrNext m = some line) {l : ℕ} (hl : l < socNLines)
    (hset : (isrPass m line).platform.gSoc.intc.active.getLsbD l = true) :
    l ≠ line.toNat ∧ m.platform.gSoc.intc.active.getLsbD l = true := by
  obtain ⟨k, hk, -, hnat, hack⟩ := isrNext_some h hnext
  have hk3 : k < 3 := hk
  have hl3 : l < 3 := hl
  rw [isrPass, hack] at hset
  obtain ⟨es, hes, -, hintc⟩ :=
    isrServe_events (m := { m with platform := m.platform.acked k }) (h.acked k) hcode line
  rw [hintc, socIntcWrite_active, if_pos ⟨rfl, by rw [hnat]; exact hk⟩, hnat,
    getLsbD_clear _ (by omega), Bool.and_eq_true, decide_eq_true_iff] at hset
  have hold := (h.acked k).wired.noAck_active hes hl hset.1
  have hacked : (m.platform.gSoc.intc.acked k).active.getLsbD l = true := hold
  rw [SocIntc.acked_active _ (by omega), Bool.or_eq_true, decide_eq_true_iff] at hacked
  exact ⟨hnat ▸ hset.2, hacked.resolve_right hset.2⟩

/-- A passive pass takes its line from PENDING, and that is all. -/
theorem isrPass_pending {m : Machine A} (h : Live m.platform) (hcode : m.isr.HandlersDo Passive)
    {line : Word} (hnext : isrNext m = some line) :
    (∀ l < socNLines, (isrPass m line).platform.gSoc.intc.pending.getLsbD l =
      (m.platform.gSoc.intc.pending.getLsbD l && decide (l ≠ line.toNat))) ∧
    (isrPass m line).platform.gSoc.intc.enable = m.platform.gSoc.intc.enable := by
  obtain ⟨k, -, -, hnat, hack⟩ := isrNext_some h hnext
  obtain ⟨es, hes, -, hintc⟩ :=
    isrServe_events (m := { m with platform := m.platform.acked k }) (h.acked k) hcode line
  obtain ⟨hpending, henable⟩ := (h.acked k).wired.passive_intc hes
  rw [isrPass, hack, hintc, socIntcWrite_pending, socIntcWrite_enable (by decide)]
  refine ⟨fun l hl => ?_, henable⟩
  have hl3 : l < 3 := hl
  rw [hpending l hl, hnat]
  exact SocIntc.acked_pending _ (by omega)

/-! ### A dispatch -/

/-- The lines that are pending and enabled, in the order of the priority. -/
def SocIntc.readyLines (ic : SocIntc) : List ℕ := kPriority.filter fun l => decide (ic.Ready l)

theorem SocIntc.mem_readyLines (ic : SocIntc) {l : ℕ} (hl : l < socNLines) :
    l ∈ ic.readyLines ↔ ic.Ready l := by
  have hl3 : l < 3 := hl
  have hmem : l ∈ kPriority := by
    obtain rfl | rfl | rfl : l = 0 ∨ l = 1 ∨ l = 2 := by omega
    all_goals decide
  rw [readyLines, List.mem_filter, decide_eq_true_iff]
  exact and_iff_right hmem

theorem socIntcHighest_head (ic : SocIntc) : socIntcHighest ic = ic.readyLines.head? := by
  rw [socIntcHighest_ready, SocIntc.readyLines, kPriority]
  split_ifs with h1 h2 h0
  · simp [h1]
  · simp [h1, h2]
  · simp [h1, h2, h0]
  · simp [h1, h2, h0]

/-- Taking the highest line from the ready ones leaves the rest, in order. -/
theorem SocIntc.readyLines_taken {ic ic' : SocIntc} {k : ℕ} (htop : socIntcHighest ic = some k)
    (hready : ∀ l < socNLines, ic'.Ready l ↔ ic.Ready l ∧ l ≠ k) :
    ic.readyLines = k :: ic'.readyLines := by
  obtain ⟨rest, hlines⟩ : ∃ rest, ic.readyLines = k :: rest := by
    rw [socIntcHighest_head] at htop
    exact ⟨_, (List.cons_head?_tail htop).symm⟩
  have hfilter : ic'.readyLines = ic.readyLines.filter fun l => decide (l ≠ k) := by
    rw [SocIntc.readyLines, SocIntc.readyLines, List.filter_filter]
    refine List.filter_congr fun l hl => ?_
    have hl3 : l < socNLines := by
      simp only [kPriority, List.mem_cons, List.not_mem_nil, or_false] at hl
      rcases hl with rfl | rfl | rfl <;> decide
    rw [← Bool.decide_and, decide_eq_decide, hready l hl3, and_comm]
  -- `k` occurs once
  have hnodup : ic.readyLines.Nodup := List.Nodup.filter _ (by decide)
  rw [hlines, List.nodup_cons] at hnodup
  rw [hfilter, hlines, List.filter_cons_of_neg (by simp)]
  congr 1
  refine (List.filter_eq_self.mpr fun l hl => decide_eq_true ?_).symm
  rintro rfl
  exact hnodup.1 hl

section Dispatch

variable {m : Machine A} {ok : Soc × SocEvent → Prop}

theorem isrAcks_next (n : ℕ) (h : Live m.platform) (hcode : m.isr.HandlersDo ok) :
    ∀ x ∈ isrAcks n m, Live x.1.platform ∧ isrNext x.1 = some x.2 := by
  induction n generalizing m with
  | zero => exact fun x hx => absurd hx List.not_mem_nil
  | succ n ih =>
    rw [isrAcks_succ]
    cases hnext : isrNext m with
    | none => exact fun x hx => absurd hx List.not_mem_nil
    | some line =>
      dsimp only
      rw [List.forall_mem_cons]
      exact ⟨⟨h, hnext⟩, ih (isrPass_live h hcode hnext) hcode⟩

/-- What is ACTIVE after a dispatch was so before, and is no line of it. -/
theorem isrDispatchLoop_active (n : ℕ) (h : Live m.platform) (hn : 3 ≤ m.isr.sNLines.toNat)
    (hcode : m.isr.HandlersDo NoAck) (handled : ℕ) {l : ℕ} (hl : l < socNLines)
    (hset : (isrDispatchLoop n m handled).2.platform.gSoc.intc.active.getLsbD l = true) :
    (∀ x ∈ isrAcks n m, l ≠ x.2.toNat) ∧ m.platform.gSoc.intc.active.getLsbD l = true := by
  induction n generalizing m handled with
  | zero => exact ⟨fun x hx => absurd hx List.not_mem_nil, hset⟩
  | succ n ih =>
    rw [isrDispatchLoop_next] at hset
    rw [isrAcks_succ]
    cases hnext : isrNext m with
    | none =>
      rw [hnext] at hset
      dsimp only at hset
      rw [(isrNext_none h hn hnext).2] at hset
      exact ⟨fun x hx => absurd hx List.not_mem_nil, hset⟩
    | some line =>
      rw [hnext] at hset
      obtain ⟨hrest, hpass⟩ := ih (isrPass_live h hcode hnext) hn hcode (handled + 1) hset
      obtain ⟨hne, hold⟩ := isrPass_active h hcode hnext hl hpass
      dsimp only
      rw [List.forall_mem_cons]
      exact ⟨⟨hne, hrest⟩, hold⟩

/-- Passive handlers let the dispatch take the ready lines in order, and nothing else. -/
theorem isrDispatchLoop_passive (n : ℕ) (h : Live m.platform) (hn : 3 ≤ m.isr.sNLines.toNat)
    (hcode : m.isr.HandlersDo Passive) (handled : ℕ)
    (hlen : m.platform.gSoc.intc.readyLines.length ≤ n) :
    (isrAcks n m).map (fun x => x.2.toNat) = m.platform.gSoc.intc.readyLines ∧
    (isrDispatchLoop n m handled).2.platform.gSoc.intc.enable = m.platform.gSoc.intc.enable ∧
    ∀ l < socNLines,
      (isrDispatchLoop n m handled).2.platform.gSoc.intc.pending.getLsbD l = true ↔
        m.platform.gSoc.intc.pending.getLsbD l = true ∧ ¬ m.platform.gSoc.intc.Ready l := by
  -- by recursion on the passes that are left: each takes the head of the ready lines
  induction n generalizing m handled with
  | zero =>
    have hnil : m.platform.gSoc.intc.readyLines = [] := List.length_eq_zero_iff.mp (by omega)
    refine ⟨hnil.symm, rfl, fun l hl => (and_iff_left fun hready => ?_).symm⟩
    have hmem := (m.platform.gSoc.intc.mem_readyLines hl).mpr hready
    rw [hnil] at hmem
    exact absurd hmem List.not_mem_nil
  | succ n ih =>
    rw [isrDispatchLoop_next, isrAcks_succ]
    cases hnext : isrNext m with
    | none =>
      obtain ⟨hnone, hpolled⟩ := isrNext_none h hn hnext
      have hnil : m.platform.gSoc.intc.readyLines = [] := by
        rw [socIntcHighest_head] at hnone
        exact List.head?_eq_none_iff.mp hnone
      dsimp only
      rw [hpolled]
      refine ⟨hnil.symm, rfl, fun l hl => (and_iff_left fun hready => ?_).symm⟩
      exact (socIntcHighest_none_iff _).mp hnone l hl hready
    | some line =>
      obtain ⟨k, hk, htop, hnat, -⟩ := isrNext_some h hnext
      obtain ⟨hpending, henable⟩ := isrPass_pending h hcode hnext
      set ic := m.platform.gSoc.intc with hic
      set ic' := (isrPass m line).platform.gSoc.intc with hic'
      have hready : ∀ l < socNLines, ic'.Ready l ↔ ic.Ready l ∧ l ≠ k := by
        intro l hl
        rw [SocIntc.Ready, SocIntc.Ready, hpending l hl, henable, Bool.and_eq_true,
          decide_eq_true_iff, hnat, and_right_comm]
      have hlines := SocIntc.readyLines_taken htop hready
      have hshort : ic'.readyLines.length ≤ n := by
        rw [hlines, List.length_cons] at hlen
        omega
      obtain ⟨hmap, henable', hpending'⟩ :=
        ih (isrPass_live h hcode hnext) hn hcode (handled + 1) hshort
      refine ⟨?_, henable'.trans henable, fun l hl => (hpending' l hl).trans ?_⟩
      · dsimp only
        rw [List.map_cons, hmap, hlines, hnat]
      · rw [← hic', hready l hl, hpending l hl, Bool.and_eq_true, decide_eq_true_iff, hnat]
        constructor
        · rintro ⟨⟨hp, hne⟩, hno⟩
          exact ⟨hp, fun hr => hno ⟨hr, hne⟩⟩
        · rintro ⟨hp, hno⟩
          refine ⟨⟨hp, ?_⟩, fun hr => hno hr.1⟩
          rintro rfl
          refine hno ((ic.mem_readyLines hk).mp ?_)
          rw [hlines]
          exact List.mem_cons_self

end Dispatch

/-- Bounded dispatch, for every state of the controller, at least three configured lines and
handlers that do not read ACK.  The passes are at most the configured lines, and counted by
the result and by `s_dispatched`; each ACK answers the highest line that is pending and
enabled; the handlers called are those of these lines, once for every ACK; and none of the
lines is ACTIVE at the end.  If the handlers are passive, the lines are those that were pending
and enabled, in order, none is left, and the masked ones stay pending. -/
theorem isr_dispatch_bounded {m : Machine A} (h : Live m.platform)
    (hn : 3 ≤ m.isr.sNLines.toNat) (hcode : m.isr.HandlersDo NoAck) :
    let acks := isrAcks m.isr.sNLines.toNat m
    let r := isrDispatch m
    (r.1 = acks.length ∧ r.1 ≤ m.isr.sNLines.toNat ∧ m.isr.sNLines.toNat ≤ 8 ∧
      r.2.isr.sDispatched = m.isr.sDispatched + BitVec.ofNat 32 r.1) ∧
    (∀ x ∈ acks, x.1.platform.gSoc.intc.Ready x.2.toNat ∧
      ∀ l ∈ linesAhead x.2.toNat, ¬ x.1.platform.gSoc.intc.Ready l) ∧
    isrDispatch (m.logged []) = (r.1, r.2.logged (m.isr.handled (acks.map Prod.snd))) ∧
    (∀ x ∈ acks, r.2.platform.gSoc.intc.active.getLsbD x.2.toNat = false) ∧
    (m.isr.HandlersDo Passive →
      acks.map (fun x => x.2.toNat) = m.platform.gSoc.intc.readyLines ∧
      (∀ l < socNLines, ¬ r.2.platform.gSoc.intc.Ready l) ∧
      ∀ l < socNLines, m.platform.gSoc.intc.pending.getLsbD l = true →
        m.platform.gSoc.intc.enable.getLsbD l = false →
        r.2.platform.gSoc.intc.pending.getLsbD l = true) := by
  intro acks r
  obtain ⟨hcount, hdispatched⟩ := isrDispatchLoop_count m.isr.sNLines.toNat m 0
  rw [Nat.zero_add] at hcount
  have hacks := isrAcks_next m.isr.sNLines.toNat h hcode
  refine ⟨⟨hcount, ?_, m.isr.lines_le, ?_⟩, fun x hx => ?_,
    isrDispatchLoop_logged m.isr.sNLines.toNat m [] 0, fun x hx => ?_, fun hpassive => ?_⟩
  · rw [show r.1 = _ from hcount]
    exact isrAcks_length_le _ m
  · rw [show r.1 = _ from hcount]
    exact hdispatched
  · obtain ⟨hlive, hnext⟩ := hacks x hx
    obtain ⟨k, hk, htop, hnat, -⟩ := isrNext_some hlive hnext
    rw [hnat]
    exact (socIntcHighest_iff _ hk).mp htop
  · obtain ⟨hlive, hnext⟩ := hacks x hx
    obtain ⟨k, hk, -, hnat, -⟩ := isrNext_some hlive hnext
    refine Bool.eq_false_iff.mpr fun hset => ?_
    have hno := isrDispatchLoop_active m.isr.sNLines.toNat h hn hcode 0 (hnat ▸ hk) hset
    exact hno.1 x hx rfl
  · have hlen : m.platform.gSoc.intc.readyLines.length ≤ 3 := List.length_filter_le _ kPriority
    obtain ⟨hmap, henable, hpending⟩ :=
      isrDispatchLoop_passive m.isr.sNLines.toNat h hn hpassive 0 (by omega)
    refine ⟨hmap, fun l hl hready => ?_, fun l hl hp hmasked => (hpending l hl).mpr ⟨hp, ?_⟩⟩
    · obtain ⟨hp, hno⟩ := (hpending l hl).mp hready.1
      refine hno ⟨hp, ?_⟩
      rw [← henable]
      exact hready.2
    · rintro ⟨-, hen⟩
      exact absurd (hmasked.symm.trans hen) Bool.false_ne_true

/-- A handler that clears the timer's flag. -/
def timerHandler : IsrHandler Unit := fun _ r => (halWriteReg r.1 vlabTimerIrqClear 1, r.2)

/-- Eight configured lines and a handler for the timer; TIMER and UART are ready, DMA is masked. -/
def timerMachine : Machine Unit where
  platform := Runs.run appCall (socHostBoot (platformStart default))
    [.raiseIrq 0, .raiseIrq 2, .raiseIrq 1, .intcEnable 0x3]
  app := ()
  isr := isrRegister (isrConfigure isrStart 8) 1 (some timerHandler)

theorem timerMachine_live : Live timerMachine.platform := by
  obtain ⟨hboot, -⟩ := socHostBoot_eq (p := platformStart default) fun h0 =>
    absurd h0 Bool.false_ne_true
  have hcalls : timerMachine.platform = _ := appRun_eq hboot _
  rw [hcalls]
  exact hboot.run _

theorem timerMachine_passive : timerMachine.isr.HandlersDo Passive := by
  intro line f hf p a hp
  have hvector : timerMachine.isr.sVectors =
      Function.update (fun _ => none) 1 (some timerHandler) := rfl
  have hline : line.toNat = 1 := by
    by_contra hne
    rw [hvector, Function.update_of_ne hne] at hf
    exact absurd hf (by simp)
  rw [hvector, hline, Function.update_self] at hf
  obtain rfl : timerHandler = f := Option.some.inj hf
  refine ⟨[.write vlabTimerIrqClear 1], fun x hx => ?_, ?_, ?_⟩
  · obtain rfl : x = (p.gSoc, .write vlabTimerIrqClear 1) := List.mem_singleton.mp hx
    exact {
      noAck := fun _ => SocEvent.noConfusion
      raises := dmaRaises_write_other (by decide) p.gSoc 1
      resets := rfl
      enable := fun value heq => by
        injection heq with haddr _
        exact absurd haddr (by decide) }
  · rw [timerHandler, halWriteReg_eq hp]
    exact hp.inited
  · rw [timerHandler, halWriteReg_eq hp]
    rfl

/-- Two dispatches, TIMER first, and DMA stays pending. -/
theorem isr_dispatch_bounded_timer :
    (isrAcks 8 timerMachine).map (fun x => x.2.toNat) = [1, 0] ∧
    (isrDispatch timerMachine).1 = (isrAcks 8 timerMachine).length ∧
    (isrDispatch timerMachine).2.platform.gSoc.intc.pending.getLsbD 2 = true := by
  obtain ⟨⟨hcount, -⟩, -, -, -, hpassive⟩ := isr_dispatch_bounded timerMachine_live (by decide)
    (timerMachine_passive.mono fun _ hx => hx.noAck)
  obtain ⟨hlines, -, hmasked⟩ := hpassive timerMachine_passive
  have hready : timerMachine.platform.gSoc.intc.readyLines = [1, 0] := by decide
  exact ⟨hlines.trans hready, hcount, hmasked 2 (by decide) (by decide) (by decide)⟩

end VlabSoc
