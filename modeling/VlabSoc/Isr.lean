/-
The interrupt dispatcher (isr/isr.c).

A handler works on the platform and on the statics `A` of the application it
belongs to; it does not register handlers.  `isrServe` is the body of the loop in
`isr_dispatch` after its ACK.

* `isrDispatchLoop_none`, `isrDispatchLoop_some` — one pass, by the line the
  interrupt controller answers with;
* `isrDispatch_rule` — what every pass keeps holds after `isr_dispatch`.
-/
import VlabSoc.DmaDriver

namespace VlabSoc

/-- `VLAB_IRQ_COUNT` -/
abbrev vlabIrqCount : Word := 3

/-- `ISR_MAX_LINES` -/
abbrev isrMaxLines : Word := 8

/-- `isr_handler_t` -/
abbrev IsrHandler (A : Type) := Word → Platform × A → Platform × A

variable {A : Type}

/-- The statics of isr/isr.c.  A configured line count is in range, and handlers
are registered for configured lines only. -/
structure Isr (A : Type) where
  sVectors : ℕ → Option (IsrHandler A)
  sNLines : Word
  sDispatched : Word
  lines_le : sNLines ≤ isrMaxLines
  registered : ∀ l, (sVectors l).isSome → l < sNLines.toNat

/-- The statics at program start. -/
def isrStart : Isr A where
  sVectors := fun _ => none
  sNLines := vlabIrqCount
  sDispatched := 0
  lines_le := by decide
  registered := by simp

/-- A line count out of range keeps the old configuration. -/
def isrConfigure (isr : Isr A) (nLines : Word) : Isr A :=
  if h : nLines = 0 ∨ isrMaxLines < nLines then isr
  else
    { isr with
      sNLines := nLines
      sVectors := fun _ => none
      lines_le := BitVec.not_lt.mp fun hlt => h (Or.inr hlt)
      registered := by simp }

/-- `none` unregisters; lines that are not configured are ignored. -/
def isrRegister (isr : Isr A) (line : Word) (handler : Option (IsrHandler A)) : Isr A :=
  if h : line < isr.sNLines then
    { isr with
      sVectors := Function.update isr.sVectors line.toNat handler
      registered := by
        intro l hl
        by_cases hline : l = line.toNat
        · rw [hline]
          exact BitVec.lt_def.mp h
        · rw [Function.update_of_ne hline] at hl
          exact isr.registered l hl }
  else isr

/-- The linked firmware: platform, application statics, dispatcher. -/
structure Machine (A : Type) where
  platform : Platform
  app : A
  isr : Isr A

/-- The handler of an acknowledged line, if there is one, then the CLEAR write that
ends its ACTIVE phase. -/
def isrServe (m : Machine A) (line : Word) : Machine A :=
  let r :=
    match m.isr.sVectors line.toNat with
    | some h => h line (m.platform, m.app)
    | none => (m.platform, m.app)
  { platform := halWriteReg r.1 vlabIntcClear line
    app := r.2
    isr := { m.isr with sDispatched := m.isr.sDispatched + 1 } }

/-- The loop of `isr_dispatch` with that many passes left, and lines handled so far. -/
def isrDispatchLoop : ℕ → Machine A → ℕ → ℕ × Machine A
  | 0, m, handled => (handled, m)
  | n + 1, m, handled =>
    let ack := halReadReg m.platform vlabIntcAck
    let m := { m with platform := ack.2 }
    if ack.1 = vlabIrqNone ∨ m.isr.sNLines ≤ ack.1 then (handled, m)
    else isrDispatchLoop n (isrServe m ack.1) (handled + 1)

def isrDispatch (m : Machine A) : ℕ × Machine A := isrDispatchLoop m.isr.sNLines.toNat m 0

/-- The line whose handler the next pass of `isr_dispatch` calls, if there is one. -/
def isrNext (m : Machine A) : Option Word :=
  let ack := halReadReg m.platform vlabIntcAck
  if ack.1 = vlabIrqNone ∨ m.isr.sNLines ≤ ack.1 then none else some ack.1

/-! ### One pass -/

/-- A pass of the loop, by the handler it calls. -/
theorem isrDispatchLoop_next (n : ℕ) (m : Machine A) (handled : ℕ) :
    let m' : Machine A := { m with platform := (halReadReg m.platform vlabIntcAck).2 }
    isrDispatchLoop (n + 1) m handled =
      match isrNext m with
      | none => (handled, m')
      | some line => isrDispatchLoop n (isrServe m' line) (handled + 1) := by
  intro m'
  rw [isrDispatchLoop, isrNext]
  dsimp only
  split_ifs <;> rfl

/-- A platform whose PERF block has counted the memory access of a poll. -/
def Platform.polled (p : Platform) : Platform :=
  { p with gSoc := { p.gSoc with perf := socPerfCountMem p.gSoc.perf } }

/-- A platform after an ACK read that answered `line`. -/
def Platform.acked (p : Platform) (line : ℕ) : Platform :=
  { p with gSoc := { p.gSoc with
      intc := p.gSoc.intc.acked line
      perf := socPerfCountIrq (socPerfCountMem p.gSoc.perf) } }

theorem Live.polled {p : Platform} (h : Live p) : Live p.polled := ⟨h.inited, h.wired.countMem⟩

theorem Live.acked {p : Platform} (h : Live p) (line : ℕ) : Live (p.acked line) :=
  ⟨h.inited, h.wired.of_eq rfl rfl rfl rfl rfl rfl⟩

theorem Live.read_ack {p : Platform} (h : Live p) :
    halReadReg p vlabIntcAck =
      match socIntcHighest p.gSoc.intc with
      | none => (vlabIrqNone, p.polled)
      | some line => (BitVec.ofNat 32 line, p.acked line) := by
  obtain ⟨hok, hout, hsoc⟩ := h.wired.read_ack 0
  rw [halReadReg_eq h, if_neg (not_not.mpr hok), hout, hsoc, socIntcRead_ack]
  cases socIntcHighest p.gSoc.intc with
  | none => rfl
  | some line => rfl

/-- The answer of an ACK, when it is a configured line. -/
theorem ack_configured {line : ℕ} (hl : line < socNLines) {n : Word} (hn : line < n.toNat) :
    ¬ (BitVec.ofNat 32 line = vlabIrqNone ∨ n ≤ BitVec.ofNat 32 line) := by
  rintro (hnone | hge)
  · exact line_ne_none hl hnone
  · rw [BitVec.le_def, toNat_line hl] at hge
    omega

/-- An ACK that answers a line answers the highest that is ready. -/
theorem isrNext_some {m : Machine A} (h : Live m.platform) {line : Word}
    (hnext : isrNext m = some line) :
    ∃ k < socNLines, socIntcHighest m.platform.gSoc.intc = some k ∧ line.toNat = k ∧
      (halReadReg m.platform vlabIntcAck).2 = m.platform.acked k := by
  rw [isrNext, h.read_ack] at hnext
  rw [h.read_ack]
  cases hline : socIntcHighest m.platform.gSoc.intc with
  | none =>
    rw [hline] at hnext
    simp at hnext
  | some k =>
    have hk := socIntcHighest_lt hline
    rw [hline] at hnext
    dsimp only at hnext
    split_ifs at hnext
    have heq : BitVec.ofNat 32 k = line := Option.some.inj hnext
    exact ⟨k, hk, rfl, heq ▸ toNat_line hk, rfl⟩

/-- With the three lines configured it answers every line that is ready. -/
theorem isrNext_none {m : Machine A} (h : Live m.platform) (hn : 3 ≤ m.isr.sNLines.toNat)
    (hnext : isrNext m = none) :
    socIntcHighest m.platform.gSoc.intc = none ∧
      (halReadReg m.platform vlabIntcAck).2 = m.platform.polled := by
  rw [isrNext, h.read_ack] at hnext
  rw [h.read_ack]
  cases hline : socIntcHighest m.platform.gSoc.intc with
  | none => exact ⟨rfl, rfl⟩
  | some k =>
    have hk : k < 3 := socIntcHighest_lt hline
    rw [hline] at hnext
    dsimp only at hnext
    rw [if_neg (ack_configured hk (by omega))] at hnext
    exact absurd hnext (by simp)

/-- Nothing pending and enabled: the loop ends. -/
theorem isrDispatchLoop_none {m : Machine A} (h : Live m.platform)
    (hnone : socIntcHighest m.platform.gSoc.intc = none) (n handled : ℕ) :
    isrDispatchLoop (n + 1) m handled = (handled, { m with platform := m.platform.polled }) := by
  rw [isrDispatchLoop, h.read_ack, hnone]
  dsimp only
  rw [if_pos (Or.inl rfl)]

/-- A configured line is served. -/
theorem isrDispatchLoop_some {m : Machine A} (h : Live m.platform) {line : ℕ}
    (hline : socIntcHighest m.platform.gSoc.intc = some line) (hlt : line < m.isr.sNLines.toNat)
    (n handled : ℕ) :
    isrDispatchLoop (n + 1) m handled =
      isrDispatchLoop n
        (isrServe { m with platform := m.platform.acked line } (BitVec.ofNat 32 line))
        (handled + 1) := by
  rw [isrDispatchLoop, h.read_ack, hline]
  dsimp only
  rw [if_neg (ack_configured (socIntcHighest_lt hline) hlt)]

/-- A line beyond the configured ones ends the loop, acknowledged. -/
theorem isrDispatchLoop_beyond {m : Machine A} (h : Live m.platform) {line : ℕ}
    (hline : socIntcHighest m.platform.gSoc.intc = some line) (hge : m.isr.sNLines.toNat ≤ line)
    (n handled : ℕ) :
    isrDispatchLoop (n + 1) m handled =
      (handled, { m with platform := m.platform.acked line }) := by
  have hl : line < 3 := socIntcHighest_lt hline
  rw [isrDispatchLoop, h.read_ack, hline]
  dsimp only
  rw [if_pos (Or.inr ?_)]
  rw [BitVec.le_def, BitVec.toNat_ofNat]
  omega

/-- The platform once a line is served. -/
theorem isrServe_platform (m : Machine A) {line : ℕ} (hl : line < 3) :
    (isrServe m (BitVec.ofNat 32 line)).platform =
      halWriteReg
        (match m.isr.sVectors line with
        | some f => (f (BitVec.ofNat 32 line) (m.platform, m.app)).1
        | none => m.platform)
        vlabIntcClear (BitVec.ofNat 32 line) := by
  rw [isrServe, toNat_line hl]
  cases m.isr.sVectors line with
  | some f => rfl
  | none => rfl

/-! ### The rule of the loop -/

section Rule

variable {P : Machine A → Prop} (hlive : ∀ m, P m → Live m.platform)
  (hpoll : ∀ m, P m → P { m with platform := m.platform.polled })
  (hack : ∀ m line, P m → socIntcHighest m.platform.gSoc.intc = some line →
    m.isr.sNLines.toNat ≤ line → P { m with platform := m.platform.acked line })
  (hserve : ∀ m line, P m → socIntcHighest m.platform.gSoc.intc = some line →
    line < m.isr.sNLines.toNat →
    P (isrServe { m with platform := m.platform.acked line } (BitVec.ofNat 32 line)))

include hlive hpoll hack hserve

/-- A property of the machine that the poll, a bare ACK and a served line keep holds
after the loop. -/
theorem isrDispatchLoop_rule (n : ℕ) {m : Machine A} (handled : ℕ) (hm : P m) :
    P (isrDispatchLoop n m handled).2 := by
  -- by recursion on the passes that are left
  induction n generalizing m handled with
  | zero => exact hm
  | succ n ih =>
    cases hline : socIntcHighest m.platform.gSoc.intc with
    | none =>
      rw [isrDispatchLoop_none (hlive m hm) hline]
      exact hpoll m hm
    | some line =>
      rcases Nat.lt_or_ge line m.isr.sNLines.toNat with hlt | hge
      · rw [isrDispatchLoop_some (hlive m hm) hline hlt]
        exact ih _ (hserve m line hm hline hlt)
      · rw [isrDispatchLoop_beyond (hlive m hm) hline hge]
        exact hack m line hm hline hge

/-- The rule for `isr_dispatch`. -/
theorem isrDispatch_rule {m : Machine A} (hm : P m) : P (isrDispatch m).2 :=
  isrDispatchLoop_rule hlive hpoll hack hserve _ 0 hm

end Rule

end VlabSoc
