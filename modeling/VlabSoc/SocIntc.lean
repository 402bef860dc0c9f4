/-
The interrupt controller (soc_intc.c).

A peripheral model does not hold the controller it raises lines on; its step
returns the lines it passes to `soc_intc_raise`, in order, and the SoC applies
them with `socIntcRaiseAll`.  `socIntcHighest_eq` is the fixed priority
TIMER > DMA > UART on the pending and enabled bits.
-/
import VlabSoc.SocPerf

namespace VlabSoc

abbrev socIrqUart : ℕ := 0
abbrev socIrqTimer : ℕ := 1
abbrev socIrqDma : ℕ := 2
abbrev socIrqNone : Word := 0xFFFFFFFF
abbrev socNLines : ℕ := 3

/-- `soc_intc_t` -/
structure SocIntc where
  enable : Word
  pending : Word
  active : Word
  deriving Inhabited

def kPriority : List ℕ := [socIrqTimer, socIrqDma, socIrqUart]

def socIntcInit : SocIntc where
  enable := 0
  pending := 0
  active := 0

def socIntcReset (ic : SocIntc) : SocIntc :=
  { ic with enable := 0, pending := 0, active := 0 }

def socIntcRaise (ic : SocIntc) (line : Int) : SocIntc :=
  if 0 ≤ line ∧ line < socNLines then
    { ic with pending := ic.pending ||| ((1 : Word) <<< line.toNat) }
  else ic

/-- The raises of one peripheral step, in order. -/
def socIntcRaiseAll (ic : SocIntc) (lines : List Int) : SocIntc := lines.foldl socIntcRaise ic

/-- Highest pending and enabled line; `none` is the `-1` of the source. -/
def socIntcHighest (ic : SocIntc) : Option ℕ :=
  let gated := ic.pending &&& ic.enable &&& (0x7 : Word)
  kPriority.find? fun l => gated &&& ((1 : Word) <<< l) ≠ 0

/-- An ACK read also counts an interrupt in the PERF block. -/
structure IntcRead where
  rc : SocRc
  out : Word
  intc : SocIntc
  perf : SocPerf

def socIntcRead (ic : SocIntc) (perf : SocPerf) (offset out : Word) : IntcRead :=
  match offset with
  | 0x00 => ⟨.ok, ic.enable, ic, perf⟩
  | 0x04 => ⟨.ok, ic.pending, ic, perf⟩
  | 0x10 => ⟨.ok, ic.active, ic, perf⟩
  | 0x08 =>
    match socIntcHighest ic with
    | none => ⟨.ok, socIrqNone, ic, perf⟩
    | some line =>
      ⟨.ok, BitVec.ofNat 32 line,
        { ic with
          pending := ic.pending &&& ~~~((1 : Word) <<< line)
          active := ic.active ||| ((1 : Word) <<< line) },
        socPerfCountIrq perf⟩
  | _ => ⟨.errBus, out, ic, perf⟩

def socIntcWrite (ic : SocIntc) (offset value : Word) : SocRc × SocIntc :=
  match offset with
  | 0x00 => (.ok, { ic with enable := value &&& 0x7 })
  | 0x0C =>
    (.ok, if value.toNat < socNLines then
        { ic with active := ic.active &&& ~~~((1 : Word) <<< value.toNat) }
      else ic)
  | _ => (.errBus, ic)

/-! ### Bits -/

theorem socIntcRaise_pending (ic : SocIntc) (line : Int) (k : ℕ) :
    (socIntcRaise ic line).pending.getLsbD k =
      (ic.pending.getLsbD k || decide (line = k ∧ k < socNLines)) := by
  unfold socIntcRaise
  split_ifs with h
  · obtain ⟨l, rfl⟩ := Int.eq_ofNat_of_zero_le h.1
    have hl : l < 3 := by simpa using h.2
    rw [Int.toNat_natCast, getLsbD_set _ (by omega)]
    congr 1
    rw [decide_eq_decide]
    constructor
    · rintro rfl
      exact ⟨rfl, hl⟩
    · rintro ⟨hk, -⟩
      exact (Int.ofNat_inj.mp hk).symm
  · have hno : ¬ (line = k ∧ k < socNLines) := by
      rintro ⟨rfl, hk⟩
      exact h ⟨Int.natCast_nonneg k, by exact_mod_cast hk⟩
    simp [hno]

@[simp] theorem socIntcRaise_enable (ic : SocIntc) (line : Int) :
    (socIntcRaise ic line).enable = ic.enable := by
  unfold socIntcRaise; split <;> rfl

@[simp] theorem socIntcRaise_active (ic : SocIntc) (line : Int) :
    (socIntcRaise ic line).active = ic.active := by
  unfold socIntcRaise; split <;> rfl

@[simp] theorem socIntcRaiseAll_nil (ic : SocIntc) : socIntcRaiseAll ic [] = ic := rfl

@[simp] theorem socIntcRaiseAll_enable (ic : SocIntc) (lines : List Int) :
    (socIntcRaiseAll ic lines).enable = ic.enable := by
  induction lines generalizing ic with
  | nil => rfl
  | cons l ls ih => exact (ih (socIntcRaise ic l)).trans (socIntcRaise_enable ic l)

@[simp] theorem socIntcRaiseAll_active (ic : SocIntc) (lines : List Int) :
    (socIntcRaiseAll ic lines).active = ic.active := by
  induction lines generalizing ic with
  | nil => rfl
  | cons l ls ih => exact (ih (socIntcRaise ic l)).trans (socIntcRaise_active ic l)

theorem socIntcRaiseAll_append (ic : SocIntc) (ls ms : List Int) :
    socIntcRaiseAll ic (ls ++ ms) = socIntcRaiseAll (socIntcRaiseAll ic ls) ms :=
  List.foldl_append

/-- A bit is pending after some raises if it was before, or its line is raised. -/
theorem socIntcRaiseAll_pending (ic : SocIntc) (lines : List Int) (k : ℕ) :
    (socIntcRaiseAll ic lines).pending.getLsbD k =
      (ic.pending.getLsbD k || decide ((k : Int) ∈ lines ∧ k < socNLines)) := by
  induction lines generalizing ic with
  | nil => simp
  | cons l ls ih =>
    rw [show socIntcRaiseAll ic (l :: ls) = socIntcRaiseAll (socIntcRaise ic l) ls from rfl, ih,
      socIntcRaise_pending, Bool.or_assoc]
    congr 1
    by_cases hl : l = k
    · simp [hl]
    · simp [hl, Ne.symm hl]

/-- A register write leaves the pending bits alone. -/
theorem socIntcWrite_pending (ic : SocIntc) (offset value : Word) :
    (socIntcWrite ic offset value).2.pending = ic.pending := by
  unfold socIntcWrite
  split
  case h_2 =>
    dsimp only
    split_ifs <;> rfl
  all_goals rfl

/-- Only CLEAR, of a line there is, changes the active bits. -/
theorem socIntcWrite_active (ic : SocIntc) (offset value : Word) :
    (socIntcWrite ic offset value).2.active =
      if offset = 0x0C ∧ value.toNat < socNLines then
        ic.active &&& ~~~((1 : Word) <<< value.toNat)
      else ic.active := by
  unfold socIntcWrite
  split
  case h_1 => rfl
  case h_2 =>
    dsimp only
    split_ifs with hv hboth hboth
    · rfl
    · exact absurd ⟨rfl, hv⟩ hboth
    · exact absurd hboth.2 hv
    · rfl
  case h_3 h0 hc => exact (if_neg fun hboth => hc hboth.1).symm

theorem socIntcWrite_other {offset : Word} (h0 : offset ≠ 0x00) (hc : offset ≠ 0x0C)
    (ic : SocIntc) (value : Word) : (socIntcWrite ic offset value).2 = ic := by
  unfold socIntcWrite
  split
  case h_1 => exact absurd rfl h0
  case h_2 => exact absurd rfl hc
  case h_3 => rfl

/-- The fixed priority on the pending and enabled bits. -/
theorem socIntcHighest_eq (ic : SocIntc) :
    socIntcHighest ic =
      if ic.pending.getLsbD 1 ∧ ic.enable.getLsbD 1 then some 1
      else if ic.pending.getLsbD 2 ∧ ic.enable.getLsbD 2 then some 2
      else if ic.pending.getLsbD 0 ∧ ic.enable.getLsbD 0 then some 0
      else none := by
  have hgate : ∀ l, l < 3 →
      decide (ic.pending &&& ic.enable &&& (0x7 : Word) &&& ((1 : Word) <<< l) ≠ 0) =
        decide (ic.pending.getLsbD l = true ∧ ic.enable.getLsbD l = true) := by
    intro l hl
    rw [decide_eq_decide, and_shiftLeft_ne_zero _ (by omega), BitVec.getLsbD_and,
      BitVec.getLsbD_and]
    have h7 : (0x7 : Word).getLsbD l = true := by
      rcases show l = 0 ∨ l = 1 ∨ l = 2 by omega with rfl | rfl | rfl <;> decide
    rw [h7, Bool.and_true, Bool.and_eq_true]
  have h1 := hgate socIrqTimer (by decide)
  have h2 := hgate socIrqDma (by decide)
  have h0 := hgate socIrqUart (by decide)
  rw [socIntcHighest, kPriority, List.find?_cons, List.find?_cons, List.find?_cons, List.find?_nil,
    h1, h2, h0]
  by_cases c1 : ic.pending.getLsbD 1 = true ∧ ic.enable.getLsbD 1 = true
  · rw [if_pos c1, decide_eq_true c1]
  · rw [if_neg c1, decide_eq_false c1]
    by_cases c2 : ic.pending.getLsbD 2 = true ∧ ic.enable.getLsbD 2 = true
    · rw [if_pos c2, decide_eq_true c2]
    · rw [if_neg c2, decide_eq_false c2]
      by_cases c0 : ic.pending.getLsbD 0 = true ∧ ic.enable.getLsbD 0 = true
      · rw [if_pos c0, decide_eq_true c0]
      · rw [if_neg c0, decide_eq_false c0]

/-- The controller after an ACK of `line`. -/
def SocIntc.acked (ic : SocIntc) (line : ℕ) : SocIntc :=
  { ic with
    pending := ic.pending &&& ~~~((1 : Word) <<< line)
    active := ic.active ||| ((1 : Word) <<< line) }

theorem SocIntc.acked_pending (ic : SocIntc) {line k : ℕ} (hk : k < 32) :
    (ic.acked line).pending.getLsbD k = (ic.pending.getLsbD k && decide (k ≠ line)) :=
  getLsbD_clear ic.pending hk

theorem SocIntc.acked_active (ic : SocIntc) {line k : ℕ} (hline : line < 32) :
    (ic.acked line).active.getLsbD k = (ic.active.getLsbD k || decide (k = line)) :=
  getLsbD_set ic.active hline

/-- An ACK read, by the line it answers with. -/
theorem socIntcRead_ack (ic : SocIntc) (perf : SocPerf) (out : Word) :
    socIntcRead ic perf 0x08 out =
      match socIntcHighest ic with
      | none => ⟨.ok, socIrqNone, ic, perf⟩
      | some line => ⟨.ok, BitVec.ofNat 32 line, ic.acked line, socPerfCountIrq perf⟩ := rfl

theorem socIntcHighest_lt {ic : SocIntc} {l : ℕ} (h : socIntcHighest ic = some l) :
    l < socNLines := by
  rw [socIntcHighest_eq] at h
  split_ifs at h <;> · cases h; decide

/-- A line as the word an ACK answers. -/
theorem toNat_line {line : ℕ} (hl : line < socNLines) : (BitVec.ofNat 32 line).toNat = line := by
  have hl3 : line < 3 := hl
  rw [BitVec.toNat_ofNat]
  omega

/-- NONE is no line. -/
theorem line_ne_none {line : ℕ} (hl : line < socNLines) :
    (BitVec.ofNat 32 line : Word) ≠ socIrqNone := by
  have hl3 : line < 3 := hl
  intro heq
  have hnat := congrArg BitVec.toNat heq
  rw [toNat_line hl, show socIrqNone.toNat = 4294967295 from rfl] at hnat
  omega

end VlabSoc
