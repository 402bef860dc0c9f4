/-
The timer (soc_timer.c).
-/
import VlabSoc.SocIntc

namespace VlabSoc

abbrev socTimerCtrlEnable : Word := 0x1
abbrev socTimerCtrlPeriodic : Word := 0x2
abbrev socTimerCtrlIrqEnable : Word := 0x4
abbrev socTimerIrqFired : Word := 0x1
abbrev socTimerIrqLine : Int := 1

/-- `soc_timer_t` -/
structure SocTimer where
  ctrl : Word
  load : Word
  value : Word
  irqStatus : Word
  deriving Inhabited

def socTimerInit : SocTimer where
  ctrl := 0
  load := 0
  value := 0
  irqStatus := 0

def socTimerReset (t : SocTimer) : SocTimer :=
  { t with ctrl := 0, load := 0, value := 0, irqStatus := 0 }

def socTimerRead (t : SocTimer) (offset out : Word) : SocRc × Word :=
  match offset with
  | 0x00 => (.ok, t.ctrl)
  | 0x04 => (.ok, t.load)
  | 0x08 => (.ok, t.value)
  | 0x0C => (.ok, t.irqStatus)
  | _ => (.errBus, out)

/-- Write-one-to-clear of `FIRED`, shared by IRQ_STATUS and IRQ_CLEAR. -/
def SocTimer.clearFired (t : SocTimer) (value : Word) : SocTimer :=
  if value &&& socTimerIrqFired ≠ 0 then
    { t with irqStatus := t.irqStatus &&& ~~~socTimerIrqFired }
  else t

def socTimerWrite (t : SocTimer) (offset value : Word) : SocRc × SocTimer :=
  match offset with
  | 0x00 =>
    let wasEnabled := t.ctrl &&& socTimerCtrlEnable ≠ 0
    let t := { t with ctrl := value }
    let nowEnabled := t.ctrl &&& socTimerCtrlEnable ≠ 0
    (.ok, if nowEnabled ∧ ¬ wasEnabled ∧ t.value = 0 then { t with value := t.load } else t)
  | 0x04 => (.ok, { t with load := value })
  | 0x0C => (.ok, t.clearFired value)
  | 0x10 => (.ok, t.clearFired value)
  | _ => (.errBus, t)

/-- One tick, with the lines it raises. -/
def socTimerStep (t : SocTimer) : SocTimer × List Int :=
  if t.ctrl &&& socTimerCtrlEnable = 0 then (t, [])
  else if t.load = 0 then (t, [])
  else
    let t := if 0 < t.value then { t with value := t.value - 1 } else t
    if t.value = 0 then
      let t := { t with irqStatus := t.irqStatus ||| socTimerIrqFired }
      let raises := if t.ctrl &&& socTimerCtrlIrqEnable ≠ 0 then [socTimerIrqLine] else []
      if t.ctrl &&& socTimerCtrlPeriodic ≠ 0 then ({ t with value := t.load }, raises)
      else ({ t with ctrl := t.ctrl &&& ~~~socTimerCtrlEnable }, raises)
    else (t, [])

/-- The timer raises its own line only. -/
theorem socTimerStep_raises {t : SocTimer} {l : Int} (h : l ∈ (socTimerStep t).2) :
    l = socTimerIrqLine := by
  unfold socTimerStep at h
  grind

end VlabSoc
