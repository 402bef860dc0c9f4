/-
Interrupt accounting of the DMA engine.

Whether a transfer raises line 2 is settled by the CTRL write that starts it:
`flight_latched` carries that decision through whatever happens in flight, and
`flight_end` spends it at the tick that leaves BUSY; `flight_origin` finds it again
from there.  `dma_interrupts` is the law for runs from boot: every START taken raises
once if it asked to, at its own end, and nothing else raises.
-/
import VlabSoc.DmaFlight

namespace VlabSoc

/-! ### One transfer -/

/-- An event of a transfer in flight keeps it silent, or is the tick that ends it. -/
theorem SocWired.flight_end {s : Soc} (h : SocWired s) (hbusy : s.dma.busy = true) {f : SocEvent}
    (hf : f.keepsPower) :
    ((socApply s f).dma.busy = true →
      dmaRaises s f = [] ∧ (socApply s f).dma.irqEnableLatched = s.dma.irqEnableLatched) ∧
    ((socApply s f).dma.busy = false → f = .tick ∧ dmaRaises s f = s.dma.irq) := by
  rcases h.flight_cases hbusy hf with ⟨-, hsame, hraise⟩ | ⟨-, -, hdma, hraise⟩ |
    ⟨htick, -, -, hidle, hraise⟩
  · refine ⟨fun _ => ⟨hraise, hsame.latched⟩, fun hidle => ?_⟩
    exact absurd (hsame.busy.symm.trans hidle) Bool.false_ne_true.symm
  · refine ⟨fun _ => ⟨hraise, by rw [hdma]⟩, fun hidle => ?_⟩
    rw [hdma] at hidle
    exact absurd (hbusy.symm.trans hidle) Bool.false_ne_true.symm
  · exact ⟨fun hb => absurd (hidle.symm.trans hb) Bool.false_ne_true, fun _ => ⟨htick, hraise⟩⟩

/-- While the engine stays BUSY the decision to raise stays. -/
theorem SocWired.flight_latched {s : Soc} (h : SocWired s) {es : List SocEvent}
    (hes : ∀ e ∈ es, e.keepsPower)
    (hbusy : ∀ m, m <+: es → (Runs.run socApply s m).dma.busy = true) :
    (Runs.run socApply s es).dma.irqEnableLatched = s.dma.irqEnableLatched := by
  induction es using List.reverseRecOn with
  | nil => rfl
  | append_singleton es f ih =>
    have hfirst := ih (fun e he => hes e (List.mem_append_left _ he)) fun m hm =>
      hbusy m (hm.trans (List.prefix_append es [f]))
    have hlast := hbusy (es ++ [f]) List.prefix_rfl
    rw [Runs.run_append_cons, Runs.run_nil] at hlast ⊢
    rw [← hfirst]
    exact (((h.run es).flight_end (hbusy es (List.prefix_append es [f]))
      (hes f (List.mem_append_right _ (List.mem_singleton_self f)))).1 hlast).2

/-- The raise of a START that is taken, from the CTRL write on. -/
theorem SocWired.start_raises {s : Soc} (h : SocWired s) (hidle : s.dma.busy = false)
    {e : SocEvent} {value : Word} (he : e.startWord = some value) :
    ((socApply s e).dma.busy = false → dmaRaises s e = irqOf value) ∧
    ((socApply s e).dma.busy = true →
      dmaRaises s e = [] ∧ (socApply s e).dma.irqEnableLatched = irqAsked value) := by
  obtain ⟨rfl, hstart⟩ := startWord_iff.mp he
  rcases h.start_cases hidle hstart with ⟨-, hdma, hraise⟩ | ⟨-, hrest, -, hraise⟩
  · have hbusy : (socApply s (.write vlabDmaCtrl value)).dma.busy = true :=
      congrArg SocDma.busy hdma
    refine ⟨fun h0 => absurd (h0.symm.trans hbusy) Bool.false_ne_true, fun _ => ⟨hraise, ?_⟩⟩
    exact congrArg SocDma.irqEnableLatched hdma
  · exact ⟨fun _ => hraise, fun h0 => absurd (hrest.symm.trans h0) Bool.false_ne_true⟩

theorem SocWired.irq_of_latched {s : Soc} (h : SocWired s) {value : Word}
    (hlatch : s.dma.irqEnableLatched = irqAsked value) : s.dma.irq = irqOf value := by
  rw [h.dma_irq, hlatch, irqOf]

theorem irqOf_raises {value : Word} (h : irqOf value ≠ []) :
    irqAsked value = true ∧ irqOf value = [(socIrqDma : Int)] := by
  unfold irqOf at h ⊢
  cases hask : irqAsked value with
  | true => exact ⟨rfl, rfl⟩
  | false =>
    rw [hask] at h
    exact absurd rfl h

/-- In flight the engine owes the raise its own START asked for. -/
theorem SocWired.flight_irq {s : Soc} (h : SocWired s) (hidle : s.dma.busy = false) {e : SocEvent}
    {value : Word} (hword : e.startWord = some value) (hstarted : (socApply s e).dma.busy = true)
    {mid : List SocEvent} (hkeep : ∀ g ∈ mid, g.keepsPower)
    (hmid : ∀ m, m <+: mid → (Runs.run socApply (socApply s e) m).dma.busy = true) :
    (Runs.run socApply (socApply s e) mid).dma.irq = irqOf value := by
  refine ((h.apply e).run mid).irq_of_latched ?_
  rw [(h.apply e).flight_latched hkeep hmid]
  exact ((h.start_raises hidle hword).2 hstarted).2

/-- At rest only a START that is rejected raises. -/
theorem SocWired.raise_at_rest {s : Soc} (h : SocWired s) (hidle : s.dma.busy = false)
    {f : SocEvent} (hf : f.keepsPower) (hraise : dmaRaises s f ≠ []) :
    dmaRaises s f = [(socIrqDma : Int)] ∧ (socApply s f).dma.busy = false ∧
      ∃ value, f.startWord = some value ∧ irqAsked value = true := by
  cases hword : f.startWord with
  | none => exact absurd (h.idle_cases hidle hf hword).2 hraise
  | some value =>
    obtain ⟨hrej, hacc⟩ := h.start_raises hidle hword
    have hno : (socApply s f).dma.busy = false :=
      Bool.eq_false_iff.mpr fun hbusy => hraise (hacc hbusy).1
    rw [hrej hno] at hraise ⊢
    obtain ⟨hask, hirq⟩ := irqOf_raises hraise
    exact ⟨hirq, hno, value, rfl, hask⟩

/-- A transfer in flight goes back to the START that was taken when the engine last left
rest, and owes the raise that START asked for. -/
theorem SocWired.flight_origin {s : Soc} (h : SocWired s) (hrest : s.dma.busy = false)
    {es : List SocEvent} (hes : ∀ e ∈ es, e.keepsPower)
    (hbusy : (Runs.run socApply s es).dma.busy = true) :
    ∃ front e value mid, es = front ++ e :: mid ∧ e.startWord = some value ∧
      (Runs.run socApply s front).dma.busy = false ∧
      (∀ m, m <+: mid → (Runs.run socApply s (front ++ e :: m)).dma.busy = true) ∧
      (Runs.run socApply s es).dma.irq = irqOf value := by
  obtain ⟨front, e, mid, rfl, hidle, hmid⟩ :=
    Runs.run_rise (B := fun t : Soc => t.dma.busy = true) (by simp [hrest]) hbusy
  have hfront : SocWired (Runs.run socApply s front) := h.run front
  have hidle : (Runs.run socApply s front).dma.busy = false := Bool.eq_false_iff.mpr hidle
  have hrun := Runs.run_append_cons socApply s front e
  have hstarted : (socApply (Runs.run socApply s front) e).dma.busy = true := by
    have hnow := hmid [] List.nil_prefix
    rwa [hrun] at hnow
  cases hword : e.startWord with
  | none =>
    have hke : e.keepsPower := hes e (List.mem_append_right _ List.mem_cons_self)
    rw [(hfront.idle_cases hidle hke hword).1] at hstarted
    exact absurd hstarted Bool.false_ne_true
  | some value =>
    refine ⟨front, e, value, mid, rfl, hword, hidle, hmid, ?_⟩
    rw [hrun]
    refine hfront.flight_irq hidle hword hstarted (fun g hg => ?_) fun m hm => hrun m ▸ hmid m hm
    exact hes g (List.mem_append_right _ (List.mem_cons_of_mem _ hg))

/-! ### Accounting -/

/-- The engine raises in this event. -/
def dmaRaised (x : Soc × SocEvent) : Bool := !(dmaRaises x.1 x.2).isEmpty

/-- A START with IRQ_ENABLE that is taken in this event. -/
def irqStarted (x : Soc × SocEvent) : Bool :=
  !x.1.dma.busy && (x.2.startWord.any irqAsked)

/-- Transfers in flight that will raise. -/
def irqsInFlight (s : Soc) : ℕ := if s.dma.busy && s.dma.irqEnableLatched then 1 else 0

theorem irqOf_isEmpty (value : Word) : (irqOf value).isEmpty = !irqAsked value := by
  unfold irqOf
  cases irqAsked value <;> rfl

/-- One event: what is started with IRQ_ENABLE is in flight until it raises. -/
theorem SocWired.irq_balance {s : Soc} (h : SocWired s) {e : SocEvent} (he : e.keepsPower) :
    irqsInFlight s + (if irqStarted (s, e) then 1 else 0) =
      (if dmaRaised (s, e) then 1 else 0) + irqsInFlight (socApply s e) := by
  unfold irqsInFlight irqStarted dmaRaised
  dsimp only
  cases hbusy : s.dma.busy with
  | true =>
    obtain ⟨hgo, hend⟩ := h.flight_end hbusy he
    cases hnext : (socApply s e).dma.busy with
    | true =>
      obtain ⟨hraise, hlatch⟩ := hgo hnext
      rw [hraise, hlatch]
      simp
    | false =>
      obtain ⟨-, hraise⟩ := hend hnext
      rw [hraise, h.dma_irq]
      cases s.dma.irqEnableLatched <;> simp
  | false =>
    cases hword : e.startWord with
    | none =>
      obtain ⟨hrest, hraise⟩ := h.idle_cases hbusy he hword
      rw [hrest, hraise]
      simp
    | some value =>
      obtain ⟨hrej, hacc⟩ := h.start_raises hbusy hword
      cases hnext : (socApply s e).dma.busy with
      | true =>
        obtain ⟨hraise, hlatch⟩ := hacc hnext
        rw [hraise, hlatch]
        simp
      | false =>
        rw [hrej hnext, irqOf_isEmpty]
        simp

/-! ### The law -/

/-- DMA interrupt accounting, in every run from boot without reset.  A START taken while not
BUSY raises line 2 exactly if its own CTRL word has IRQ_ENABLE: at once if it is rejected, else
at the tick that leaves BUSY and not before, whatever is written in between.  Every raise of
the engine is of this kind.  In numbers: the STARTs taken with IRQ_ENABLE are the raises and
the transfers still in flight that will raise. -/
theorem dma_interrupts {s : Soc} (h : SocReachable s) (romWords : Option (List Word))
    (nwords : Word) {es : List SocEvent} (hes : ∀ e ∈ es, e.keepsPower) :
    let s0 := socBoot s romWords nwords
    let after := Runs.run socApply s0
    (∀ pre e post value, es = pre ++ e :: post → e.startWord = some value →
      (after pre).dma.busy = false →
      ((after (pre ++ [e])).dma.busy = false → dmaRaises (after pre) e = irqOf value) ∧
      ((after (pre ++ [e])).dma.busy = true → dmaRaises (after pre) e = [] ∧
        ∀ mid f rest, post = mid ++ f :: rest →
          (∀ m, m <+: mid → (after (pre ++ e :: m)).dma.busy = true) →
          ((after (pre ++ e :: mid ++ [f])).dma.busy = true →
            dmaRaises (after (pre ++ e :: mid)) f = []) ∧
          ((after (pre ++ e :: mid ++ [f])).dma.busy = false →
            f = .tick ∧ dmaRaises (after (pre ++ e :: mid)) f = irqOf value))) ∧
    (∀ pre f rest, es = pre ++ f :: rest → dmaRaises (after pre) f ≠ [] →
      dmaRaises (after pre) f = [(socIrqDma : Int)] ∧ (after (pre ++ [f])).dma.busy = false ∧
      ((∃ value, f.startWord = some value ∧ irqAsked value = true ∧
          (after pre).dma.busy = false) ∨
        (f = .tick ∧ ∃ front e value mid, pre = front ++ e :: mid ∧
          e.startWord = some value ∧ irqAsked value = true ∧ (after front).dma.busy = false ∧
          ∀ m, m <+: mid → (after (front ++ e :: m)).dma.busy = true))) ∧
    (Runs.stages socApply s0 es).countP irqStarted =
      (Runs.stages socApply s0 es).countP dmaRaised + irqsInFlight (after es) := by
  intro s0 after
  have hw : SocWired s0 := h.wired.boot romWords nwords
  have hrest : s0.dma.busy = false := by
    rw [show s0.dma = _ from socBoot_dma s romWords nwords]
    rfl
  have hnext : ∀ pre f, after (pre ++ [f]) = socApply (after pre) f := fun pre f =>
    Runs.run_append_cons socApply s0 pre f []
  refine ⟨?_, ?_, ?_⟩
  · -- a START taken at rest
    rintro pre e post value rfl hword hidle
    obtain ⟨hrej, hacc⟩ := (hw.run pre).start_raises hidle hword
    rw [hnext]
    refine ⟨hrej, fun hbusy => ⟨(hacc hbusy).1, ?_⟩⟩
    rintro mid f rest rfl hmid
    have hrun := Runs.run_append_cons socApply s0 pre e
    have hkeep : ∀ g ∈ mid ++ f :: rest, g.keepsPower := fun g hg =>
      hes g (List.mem_append_right _ (List.mem_cons_of_mem _ hg))
    have hirq : (after (pre ++ e :: mid)).dma.irq = irqOf value := by
      have hirq := (hw.run pre).flight_irq hidle hword hbusy
        (fun g hg => hkeep g (List.mem_append_left _ hg)) fun m hm => hrun m ▸ hmid m hm
      rwa [← hrun mid] at hirq
    obtain ⟨hgo, hend⟩ := (hw.run (pre ++ e :: mid)).flight_end (hmid mid List.prefix_rfl)
      (hkeep f (List.mem_append_right _ List.mem_cons_self))
    rw [hnext]
    refine ⟨fun hb => (hgo hb).1, fun hb => ⟨(hend hb).1, ?_⟩⟩
    exact (hend hb).2.trans hirq
  · -- a raise
    rintro pre f rest rfl hraise
    have hkpre : ∀ g ∈ pre, g.keepsPower := fun g hg => hes g (List.mem_append_left _ hg)
    have hkf : f.keepsPower := hes f (List.mem_append_right _ List.mem_cons_self)
    rw [hnext]
    cases hb : (after pre).dma.busy with
    | false =>
      obtain ⟨hirq, hno, hstart⟩ := (hw.run pre).raise_at_rest hb hkf hraise
      obtain ⟨value, hword, hask⟩ := hstart
      exact ⟨hirq, hno, Or.inl ⟨value, hword, hask, rfl⟩⟩
    | true =>
      obtain ⟨hgo, hend⟩ := (hw.run pre).flight_end hb hkf
      have hno : (socApply (after pre) f).dma.busy = false :=
        Bool.eq_false_iff.mpr fun hbusy => hraise (hgo hbusy).1
      obtain ⟨htick, hirq⟩ := hend hno
      obtain ⟨front, e, value, mid, heq, hword, hidle, hmid, hval⟩ :=
        hw.flight_origin hrest hkpre hb
      rw [hirq, show (after pre).dma.irq = irqOf value from hval] at hraise ⊢
      obtain ⟨hask, hline⟩ := irqOf_raises hraise
      exact ⟨hline, hno, Or.inr ⟨htick, front, e, value, mid, heq, hword, hask, hidle, hmid⟩⟩
  · -- what was started with IRQ_ENABLE and has not raised is in flight
    have hbal := Runs.run_balance socApply irqsInFlight irqStarted dmaRaised
      (fun _ e _ hu => hu.apply e) (fun _ e he hu => hu.irq_balance he) hes hw
    have hzero : irqsInFlight s0 = 0 := by
      rw [irqsInFlight, hrest]
      rfl
    rwa [hzero, Nat.zero_add] at hbal

theorem dma_interrupts_rewritten :
    dmaRaises (Runs.run socApply (socBoot (socInit default none) none 0)
      ([.write vlabDmaSrc vlabSramBase, .write vlabDmaDst (vlabSramBase + 0x100),
        .write vlabDmaLen 4] ++ .write vlabDmaCtrl 0x3 :: [.write vlabDmaCtrl 0x0])) .tick =
      irqOf 0x3 := by
  have hinit : SocReachable (socInit default none) := ⟨default, none, [], rfl⟩
  have hes : ∀ e ∈ [SocEvent.write vlabDmaSrc vlabSramBase,
      .write vlabDmaDst (vlabSramBase + 0x100), .write vlabDmaLen 4] ++
        .write vlabDmaCtrl 0x3 :: [.write vlabDmaCtrl 0x0, .tick], e.keepsPower := by
    simp [SocEvent.keepsPower]
  have hstart := (dma_interrupts hinit none 0 hes).1 _ _ _ 0x3 rfl rfl (by decide +kernel)
  have hflight := (hstart.2 (by decide +kernel)).2 [.write vlabDmaCtrl 0x0] .tick [] rfl
  have hmid : ∀ m, m <+: [SocEvent.write vlabDmaCtrl 0x0] →
      (Runs.run socApply (socBoot (socInit default none) none 0)
        ([.write vlabDmaSrc vlabSramBase, .write vlabDmaDst (vlabSramBase + 0x100),
          .write vlabDmaLen 4] ++ .write vlabDmaCtrl 0x3 :: m)).dma.busy = true := by
    intro m hm
    rcases List.prefix_cons_iff.mp hm with rfl | ⟨t, rfl, ht⟩
    · decide +kernel
    · obtain rfl := List.prefix_nil.mp ht
      decide +kernel
  exact ((hflight hmid).2 (by decide +kernel)).2

end VlabSoc
