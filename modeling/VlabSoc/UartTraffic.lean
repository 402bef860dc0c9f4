/-
The UART of the SoC is the UART alone.

Whatever the SoC does, its UART moves by the operations of the UART: accesses to its window,
steps at ticks, its stuck latch, and what the DMA engine drains from and appends to its streams
in the ticks that complete a transfer (`uartEvents`).

* `SocWired.apply_uart` — every event moves the UART by its operations;
* `SocWired.tick_landed` — what a transfer out of the RX stream leaves in SRAM;
* `uart_traffic` — over a run, where all bytes on the streams come from and go to.
-/
import VlabSoc.StreamRoundTrip
import VlabSoc.UartStreams

namespace VlabSoc

/-! ### Operations -/

/-- What the completing tick of a transfer does to the UART.  A transfer whose destination turns
out not to be one has drained the stream all the same. -/
def dmaUartEvents (s : Soc) : List UartEvent :=
  let r := socDmaReaderBridge ⟨s.uart, s.sram⟩ s.dma.src s.dma.length fun _ => 0
  (if s.dma.src = vlabUartRxdata then [.drain (fun _ => 0) s.dma.length] else []) ++
    if DmaReads s.dma.src s.dma.length ∧ s.dma.dst = vlabUartTxdata then
      [.append r.out s.dma.length]
    else []

/-- What an event does to the UART. -/
def uartEvents : Soc × SocEvent → List UartEvent
  | (_, .read addr out) =>
    if addr % 4 = 0 ∧ InWindow vlabUartBase 4096 addr then [.read (addr - vlabUartBase) out] else []
  | (s, .write addr value) =>
    if addr % 4 = 0 ∧ InWindow vlabUartBase 4096 addr then
      [.write (socPerfCountMem s.perf) (addr - vlabUartBase) value]
    else []
  | (s, .tick) =>
    .step :: if dmaCompletes (s, .tick) then dmaUartEvents (socTickFront s) else []
  | (_, .uartStuck b) => [.stuck b]
  | _ => []

/-! ### One event -/

theorem dmaCompletes_iff {s : Soc} : dmaCompletes (s, .tick) = true ↔ Completing s.dma := by
  simp [dmaCompletes, Completing, and_assoc]

section Event

variable {s : Soc} (h : SocWired s)

include h

theorem SocWired.route_uart {addr : Word} (h4 : addr % 4 = 0) :
    socRoute s addr = 2 ↔ InWindow vlabUartBase 4096 addr := by
  refine ⟨fun hkind => ?_, (h.route_front h4).1⟩
  rw [h.route, socBusRoute_vlab ((dvd_four_iff addr).mp h4)] at hkind
  split_ifs at hkind with hrom hsram huart
  · exact absurd hkind (by decide)
  · exact absurd hkind (by decide)
  · exact huart
  all_goals exact absurd hkind (by decide)

theorem SocWired.read_uartEvents (addr out : Word) :
    (socRead s addr out).soc.uart =
      Runs.run uartApply s.uart (uartEvents (s, .read addr out)) := by
  rw [uartEvents]
  by_cases h4 : addr % 4 = 0
  · obtain ⟨-, -, perf, hsoc⟩ := socRead_switch s out h4
    rw [hsoc]
    by_cases hw : InWindow vlabUartBase 4096 addr
    · rw [if_pos ⟨h4, hw⟩, (h.route_uart h4).mpr hw]
      rfl
    · have hne : socRoute s addr ≠ 2 := mt (h.route_uart h4).mp hw
      rw [if_neg fun h0 => hw h0.2]
      unfold socReadSwitch
      split
      case h_3 hkind => exact absurd hkind hne
      all_goals rfl
  · rw [socRead, if_pos h4, if_neg fun h0 => h4 h0.1]
    rfl

theorem SocWired.write_uartEvents (addr value : Word) :
    (socWrite s addr value).soc.uart =
      Runs.run uartApply s.uart (uartEvents (s, .write addr value)) := by
  rw [uartEvents]
  by_cases h4 : addr % 4 = 0
  · obtain ⟨-, perf, hsoc⟩ := socWrite_switch s value h4
    rw [hsoc]
    by_cases hw : InWindow vlabUartBase 4096 addr
    · rw [if_pos ⟨h4, hw⟩, (h.route_uart h4).mpr hw]
      rfl
    · have hne : socRoute s addr ≠ 2 := mt (h.route_uart h4).mp hw
      rw [if_neg fun h0 => hw h0.2]
      unfold socWriteSwitch
      split
      case h_3 hkind => exact absurd hkind hne
      all_goals rfl
  · rw [socWrite_misaligned s value h4, if_neg fun h0 => h4 h0.1]
    rfl

/-- The completing half of a tick moves the UART by its drain and its append. -/
theorem SocWired.completing_uartEvents (hend : Completing s.dma) :
    (socTickDma s).uart = Runs.run uartApply s.uart (dmaUartEvents s) := by
  have hdrained : Runs.run uartApply s.uart (if s.dma.src = vlabUartRxdata then
      [.drain (fun _ => 0) s.dma.length] else []) = dmaDrained s s.dma.src s.dma.length := by
    rw [dmaDrained]
    split_ifs <;> rfl
  rw [h.tickDma_complete hend.1 hend.2.1 hend.2.2, dmaUartEvents, Runs.run_append, hdrained]
  by_cases hr : DmaReads s.dma.src s.dma.length
  · by_cases hw : DmaWrites s.dma.dst s.dma.length
    · rw [if_neg (not_not.mpr hr), if_neg (not_not.mpr hw)]
      show (dmaMoved s s.dma.src s.dma.dst s.dma.length).uart = _
      rw [moved_uart]
      by_cases htx : s.dma.dst = vlabUartTxdata
      · rw [if_pos htx, if_pos ⟨hr, htx⟩]
        rfl
      · rw [if_neg htx, if_neg fun h0 => htx h0.2]
        rfl
    · -- the stream is drained for nothing
      rw [if_neg (not_not.mpr hr), if_pos hw, if_neg fun h0 => hw (Or.inl h0.2)]
      rfl
  · rw [if_pos hr, if_neg fun h0 => hr h0.1, dmaDrained_eq_self fun h0 => hr (Or.inl h0)]
    rfl

theorem SocWired.tick_uartEvents :
    (socTick s).uart = Runs.run uartApply s.uart (uartEvents (s, .tick)) := by
  rw [uartEvents, Runs.run_cons]
  show (socTickDma (socTickFront s)).uart = Runs.run uartApply (socTickFront s).uart _
  by_cases hend : Completing s.dma
  · rw [if_pos (dmaCompletes_iff.mpr hend)]
    exact h.tickFront.completing_uartEvents hend
  · rw [if_neg (mt dmaCompletes_iff.mp hend)]
    rcases h.tickFront.tickDma_cases with ⟨-, heq⟩ | ⟨-, -, -, heq⟩ | ⟨h0, -⟩ | ⟨h0, -⟩ | ⟨h0, -⟩
    · rw [heq]
      rfl
    · rw [heq]
      rfl
    all_goals exact absurd h0 hend

/-- Every event that keeps the power on moves the UART by its operations. -/
theorem SocWired.apply_uart {e : SocEvent} (he : e.keepsPower) :
    (socApply s e).uart = Runs.run uartApply s.uart (uartEvents (s, e)) := by
  cases e with
  | read addr out => exact h.read_uartEvents addr out
  | write addr value => exact h.write_uartEvents addr value
  | tick => exact h.tick_uartEvents
  | resetPeripherals => exact absurd he id
  | boot romWords nwords => exact absurd he id
  | raise line => rfl
  | uartStuck b => rfl
  | dmaStuck b => rfl

/-- A transfer from the RX stream to SRAM leaves there what the stream handed out, and zeros. -/
theorem SocWired.tick_landed (hend : Completing s.dma) (hsrc : s.dma.src = vlabUartRxdata)
    (hdst : s.dma.length ≠ 0 ∧ SramRange s.dma.dst s.dma.length) :
    let q := (socTickFront s).uart.dmaRx.bytes
    sramRange (socTick s) s.dma.dst s.dma.length =
      q.take s.dma.length.toNat ++ List.replicate (s.dma.length.toNat - q.length) 0 := by
  intro q
  have hr : DmaReads s.dma.src s.dma.length := Or.inl hsrc
  have hw : DmaWrites s.dma.dst s.dma.length := Or.inr hdst
  have hdone : socTick s = dmaFinished (socTickFront s) := by
    rw [socTick, h.tickFront.tickDma_complete hend.1 hend.2.1 hend.2.2]
    exact (if_neg (not_not.mpr hr)).trans (if_neg (not_not.mpr hw))
  have htx : s.dma.dst ≠ vlabUartTxdata := (hdst.2.not_fifo hdst.1).1
  have hlow : vlabSramBase.toNat ≤ s.dma.dst.toNat := hdst.2.1
  have hout := drain_toList (socTickFront s).uart (fun _ => 0) s.dma.length
  rw [← DmaStream.bytes_length] at hout
  rw [← hout, sramRange, hdone]
  refine Buf.toList_congr fun i hi => ?_
  have hbyte := h.tickFront.moved_byteAt (s := socTickFront s) hr hw
    (a := s.dma.dst.toNat + i) (by omega)
  rw [if_pos ⟨htx, by omega, by omega⟩, Nat.add_sub_cancel_left, dmaPayload, if_pos hsrc] at hbyte
  rw [drain_out _ _ _ hi]
  exact hbyte

end Event

/-! ### Runs -/

/-- The traffic on the UART over a run.  The UART moves by its operations alone; the TX record
keeps what they offered, up to its capacity; what the RX stream held and took is what it handed
out and still holds, in order; and what it handed out to a transfer into SRAM lands there,
followed by zeros. -/
theorem uart_traffic {s : Soc} (h : SocReachable s) {es : List SocEvent}
    (hes : ∀ e ∈ es, e.keepsPower) :
    let t := Runs.run socApply s es
    let us := (Runs.stages socApply s es).flatMap uartEvents
    let xs := Runs.stages uartApply s.uart us
    t.uart = Runs.run uartApply s.uart us ∧
      t.uart.dmaTx.bytes = (s.uart.dmaTx.bytes ++ xs.flatMap uartOffered).take 16384 ∧
      s.uart.dmaRx.bytes ++
          xs.flatMap (fun x => Queues.taken 16384 (x.1.dmaRx.bytes, uartQueueOp x)) =
        xs.flatMap (fun x => Queues.handed (x.1.dmaRx.bytes, uartQueueOp x)) ++
          t.uart.dmaRx.bytes ∧
      ∀ u, (u, SocEvent.tick) ∈ Runs.stages socApply s es → Completing u.dma →
        u.dma.src = vlabUartRxdata → u.dma.length ≠ 0 ∧ SramRange u.dma.dst u.dma.length →
          let q := (socTickFront u).uart.dmaRx.bytes
          sramRange (socTick u) u.dma.dst u.dma.length =
            q.take u.dma.length.toNat ++ List.replicate (u.dma.length.toNat - q.length) 0 := by
  intro t us xs
  have hall : ∀ e ∈ us, True := fun _ _ => trivial
  have hstage : ∀ x ∈ xs, True := fun _ _ => trivial
  have huart : t.uart = Runs.run uartApply s.uart us :=
    Runs.run_part socApply uartApply Soc.uart uartEvents (fun _ e _ hs => SocWired.apply hs e)
      (fun _ _ he hs => hs.apply_uart he) hes h.wired
  refine ⟨huart, ?_, ?_, fun u hu hend hsrc hdst => ?_⟩
  · -- the record only grows
    have hgrow := Runs.run_fill uartApply (P := fun _ => True) (C := fun _ => True)
      (fun _ _ _ _ => trivial) (fun v => v.dmaTx.bytes) (fun _ => true) uartOffered 16384
      (fun _ _ _ _ h => absurd h Bool.noConfusion) (fun v e _ _ _ => (uartApply_bytes v e).1)
      hstage trivial (bytes_length_le _)
    rw [List.filter_eq_self.mpr fun _ _ => rfl, ← huart] at hgrow
    exact hgrow
  · -- the stream is the queue
    obtain ⟨hrx, hstages⟩ := Runs.run_refines (P := fun _ => True) (A := fun _ => True) uartApply
      (Queues.step 16384) (fun v => v.dmaRx.bytes) uartQueueOp (fun _ _ _ _ => trivial)
      (fun v e _ _ => (uartApply_bytes v e).2) (s := s.uart) hall trivial
    have hflow : _ = _ ++ Runs.run (Queues.step 16384) s.uart.dmaRx.bytes (xs.map uartQueueOp) :=
      Queues.run_conserves s.uart.dmaRx.bytes (xs.map uartQueueOp)
    rw [hstages, ← hrx, List.flatMap_map, List.flatMap_map, ← huart] at hflow
    exact hflow
  · obtain ⟨pre, post, -, rfl⟩ := Runs.mem_stages.mp hu
    exact (h.run pre).wired.tick_landed hend hsrc hdst

/-- A byte is sent, and a transfer out of the stream waits for the tick that delivers it. -/
def byteReceived : List SocEvent :=
  [.write vlabUartCtrl 0x1, .write vlabUartTxdata 0x41, .tick, .tick, .tick, .tick,
    .write vlabDmaSrc vlabUartRxdata, .write vlabDmaDst vlabSramBase, .write vlabDmaLen 4,
    .write vlabDmaCtrl 0x1]

/-- The transfer takes the byte in that tick, and three zeros. -/
theorem uart_traffic_byte :
    sramRange (socTick (Runs.run socApply (socInit default none) byteReceived)) vlabSramBase 4 =
      [0x41, 0, 0, 0] := by
  have hes : ∀ e ∈ byteReceived ++ [.tick], e.keepsPower := by
    simp [byteReceived, SocEvent.keepsPower]
  have hinit : SocReachable (socInit default none) := ⟨default, none, [], rfl⟩
  obtain ⟨-, -, -, hlanded⟩ := uart_traffic hinit hes
  have hstage : (Runs.run socApply (socInit default none) byteReceived, SocEvent.tick) ∈
      Runs.stages socApply (socInit default none) (byteReceived ++ [.tick]) :=
    Runs.mem_stages.mpr ⟨byteReceived, [], rfl, rfl⟩
  have hend : Completing (Runs.run socApply (socInit default none) byteReceived).dma :=
    ⟨by decide +kernel, by decide +kernel, by decide +kernel⟩
  have hsrc : (Runs.run socApply (socInit default none) byteReceived).dma.src = vlabUartRxdata := by
    decide +kernel
  have hdst : (Runs.run socApply (socInit default none) byteReceived).dma.dst = vlabSramBase := by
    decide +kernel
  have hlen : (Runs.run socApply (socInit default none) byteReceived).dma.length = 4 := by
    decide +kernel
  have hin := hlanded _ hstage hend hsrc (by rw [hdst, hlen]; decide)
  rw [hdst, hlen] at hin
  rw [hin]
  decide +kernel

end VlabSoc
