/-
Performance counters (soc_perf.c).
-/
import VlabSoc.SocBus

namespace VlabSoc

/-- `soc_perf_t` -/
structure SocPerf where
  cycles : Word
  memAcc : Word
  dmaBytes : Word
  irqCount : Word
  stalls : Word
  enabled : Bool
  ctrl : Word
  deriving Inhabited

def socPerfInit : SocPerf where
  cycles := 0
  memAcc := 0
  dmaBytes := 0
  irqCount := 0
  stalls := 0
  enabled := false
  ctrl := 0

def socPerfResetCounters (p : SocPerf) : SocPerf :=
  { p with cycles := 0, memAcc := 0, dmaBytes := 0, irqCount := 0, stalls := 0 }

def socPerfTick (p : SocPerf) : SocPerf :=
  if p.enabled then { p with cycles := p.cycles + 1 } else p

def socPerfCountMem (p : SocPerf) : SocPerf :=
  if p.enabled then { p with memAcc := p.memAcc + 1 } else p

def socPerfCountStall (p : SocPerf) (n : Word) : SocPerf :=
  if p.enabled then { p with stalls := p.stalls + n } else p

def socPerfCountDma (p : SocPerf) (nbytes : Word) : SocPerf :=
  if p.enabled then { p with dmaBytes := p.dmaBytes + nbytes } else p

def socPerfCountIrq (p : SocPerf) : SocPerf :=
  if p.enabled then { p with irqCount := p.irqCount + 1 } else p

/-- Register read at `offset` into the caller's word `out`. -/
def socPerfRead (p : SocPerf) (offset out : Word) : SocRc × Word :=
  match offset with
  | 0x00 => (.ok, p.cycles)
  | 0x04 => (.ok, p.memAcc)
  | 0x08 => (.ok, p.dmaBytes)
  | 0x0C => (.ok, p.irqCount)
  | 0x10 => (.ok, p.stalls)
  | 0x14 => (.ok, p.ctrl)
  | _ => (.errBus, out)

def socPerfWrite (p : SocPerf) (offset value : Word) : SocRc × SocPerf :=
  match offset with
  | 0x00 => (.ok, { p with cycles := value })
  | 0x04 => (.ok, { p with memAcc := value })
  | 0x08 => (.ok, { p with dmaBytes := value })
  | 0x0C => (.ok, { p with irqCount := value })
  | 0x10 => (.ok, { p with stalls := value })
  | 0x14 =>
    let p := { p with ctrl := value, enabled := value &&& vlabPerfCtrlEnable ≠ 0 }
    (.ok, if value &&& vlabPerfCtrlReset ≠ 0 then socPerfResetCounters p else p)
  | _ => (.errBus, p)

/-! ### What the counters leave alone -/

@[simp] theorem socPerfCountMem_dmaBytes (p : SocPerf) :
    (socPerfCountMem p).dmaBytes = p.dmaBytes := by
  unfold socPerfCountMem; split <;> rfl

@[simp] theorem socPerfCountStall_dmaBytes (p : SocPerf) (n : Word) :
    (socPerfCountStall p n).dmaBytes = p.dmaBytes := by
  unfold socPerfCountStall; split <;> rfl

end VlabSoc
