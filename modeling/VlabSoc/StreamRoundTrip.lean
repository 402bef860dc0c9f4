/-
Bytes sent to the UART by DMA and fetched back by DMA.

A RAM to uart-tx transfer appends to the RX stream (the loopback), a uart-rx to RAM
transfer takes from its head.  `StreamBoundary` is what holds between any two events
while software leaves the UART's own transmitter alone and descriptors alone in
flight; `loopback_round_trip` puts `Runs.run_fill` and `Runs.run_drain` together, for
every cutting on either side.
-/
import VlabSoc.DmaFlight
import VlabSoc.FlatMemory

namespace VlabSoc

/-! ### Completions -/

/-- The tick that completes the transfer in flight. -/
def dmaCompletes : Soc × SocEvent → Bool
  | (s, .tick) => s.dma.busy && !s.dma.faultStuckBusy && decide (s.dma.remaining ≤ 1)
  | _ => false

/-- The states of a run in which a transfer is about to complete. -/
def completions (s : Soc) (es : List SocEvent) : List Soc :=
  ((Runs.stages socApply s es).filter dmaCompletes).map Prod.fst

/-- A range of the SRAM. -/
def sramRange (s : Soc) (addr len : Word) : List Byte :=
  Buf.toList (fun i => s.sram.byteAt (addr.toNat + i)) len.toNat

/-- The sources of the transfers a run completes, each as it is read. -/
def sourceBytes (s : Soc) (es : List SocEvent) : List Byte :=
  (completions s es).flatMap fun t => sramRange t t.dma.src t.dma.length

/-- Their destinations, each as the transfer leaves it. -/
def landedBytes (s : Soc) (es : List SocEvent) : List Byte :=
  (completions s es).flatMap fun t => sramRange (socTick t) t.dma.dst t.dma.length

/-- The bytes a run transfers. -/
def transferred (s : Soc) (es : List SocEvent) : ℕ :=
  ((completions s es).map fun t => t.dma.length.toNat).sum

/-- Where a transfer puts its bytes. -/
def SocDma.target {M : Type} (d : SocDma M) : Finset ℕ :=
  Finset.Ico d.dst.toNat (d.dst.toNat + d.length.toNat)

/-- Where software stores. -/
def SocEvent.storeTarget : SocEvent → Finset ℕ
  | .write addr _ => Finset.Ico addr.toNat (addr.toNat + 4)
  | _ => ∅

/-- Power stays on, nothing is written to UART_TXDATA, and SRC, DST and LEN are not written
in flight. -/
def StreamStage : Soc × SocEvent → Prop
  | (s, .write addr _) =>
    addr ≠ vlabUartTxdata ∧
      (s.dma.busy = true → addr ∉ ([vlabDmaSrc, vlabDmaDst, vlabDmaLen] : List Word))
  | (_, .resetPeripherals) => False
  | (_, .boot _ _) => False
  | _ => True

instance : DecidablePred StreamStage
  | (_, .read _ _) => .isTrue trivial
  | (_, .write _ _) => inferInstanceAs (Decidable (_ ∧ _))
  | (_, .tick) => .isTrue trivial
  | (_, .resetPeripherals) => .isFalse id
  | (_, .boot _ _) => .isFalse id
  | (_, .raise _) => .isTrue trivial
  | (_, .uartStuck _) => .isTrue trivial
  | (_, .dmaStuck _) => .isTrue trivial

theorem StreamStage.keepsPower {s : Soc} {e : SocEvent} (h : StreamStage (s, e)) :
    e.keepsPower := by
  cases e with
  | resetPeripherals => exact h
  | boot romWords nwords => exact h
  | _ => exact trivial

/-! ### The UART and the SRAM under other events -/

theorem socRead_loopback (s : Soc) (addr out : Word) :
    (socRead s addr out).soc.uart.dmaRx = s.uart.dmaRx ∧
      (socRead s addr out).soc.uart.busy = s.uart.busy := by
  rcases socRead_uart s addr out with heq | heq
  · rw [heq]
    exact ⟨rfl, rfl⟩
  · rw [heq, socUartRead_frame]
    exact ⟨rfl, rfl⟩

/-- Only a write to UART_TXDATA starts the transmitter. -/
theorem socWrite_uartBusy {addr : Word} (ha : addr ≠ vlabUartTxdata) (s : Soc) (value : Word) :
    (socWrite s addr value).soc.uart.busy = s.uart.busy := by
  rcases socWrite_uart s addr value with heq | ⟨perf, heq⟩
  · rw [heq]
  · rw [heq]
    unfold socUartWrite
    split
    case h_1 hoff =>
      -- offset 0 is UART_TXDATA
      rw [BitVec.sub_eq_iff_eq_add] at hoff
      exact absurd (hoff.trans (by decide)) ha
    all_goals rfl

/-- A write keeps the SRAM bytes outside the word it is addressed to. -/
theorem SocWired.write_byteAt {s : Soc} (h : SocWired s) (addr value : Word) {a : ℕ}
    (hlow : vlabSramBase.toNat ≤ a) (ha : ¬ (addr.toNat ≤ a ∧ a < addr.toNat + 4)) :
    (socWrite s addr value).soc.sram.byteAt a = s.sram.byteAt a := by
  rw [h.write_sram]
  split_ifs with hin
  · have hok : (socMemWriteWord s.sram addr value).1 = .ok :=
      socMemWriteWord_ok.mpr ⟨hin.1, h.sram_writable, (h.sram_covers hin.1).mpr hin.2⟩
    rw [socMemWriteWord_byteAt hok (by rw [h.sram_base]; exact hlow), if_neg ha]
  · rfl

/-- In flight, CTRL and IRQ_CLEAR do not reach the descriptor. -/
theorem socDmaWrite_descriptor {d : SocDma DmaCtx} (hb : d.busy = true) (perf : SocPerf)
    {offset : Word} (value : Word) (ho : offset ∉ ([0x00, 0x04, 0x08] : List Word)) :
    let d' := (socDmaWrite d perf offset value).2.dma
    d'.src = d.src ∧ d'.dst = d.dst ∧ d'.length = d.length := by
  unfold socDmaWrite
  split
  case h_4 =>
    dsimp only
    rw [socDmaStart_busy hb]
    split_ifs <;> exact ⟨rfl, rfl, rfl⟩
  case h_5 => exact ⟨rfl, rfl, rfl⟩
  case h_6 => exact ⟨rfl, rfl, rfl⟩
  all_goals exact absurd (by decide) ho

/-! ### Between two events -/

/-- The transmitter rests, and a transfer in flight has an accepted descriptor. -/
structure StreamBoundary (s : Soc) : Prop where
  wired : SocWired s
  quiet : ¬ 0 < s.uart.busy
  valid : s.dma.busy = true → VlabValid s.dma.src s.dma.dst s.dma.length

theorem StreamBoundary.front {s : Soc} (h : StreamBoundary s) :
    (socTickFront s).uart = s.uart := by
  have hstep : (socUartStep s.uart).1 = s.uart := by
    rw [socUartStep, if_neg h.quiet]
  exact hstep

/-- A completion moves the data of an accepted descriptor. -/
theorem StreamBoundary.completing {s : Soc} (h : StreamBoundary s) {e : SocEvent}
    (hc : dmaCompletes (s, e) = true) :
    e = .tick ∧ VlabValid s.dma.src s.dma.dst s.dma.length ∧
      Transferred s.dma.src s.dma.dst s.dma.length s.dma.irqEnableLatched (socTickFront s)
        (socTick s) := by
  cases e with
  | tick =>
    simp only [dmaCompletes, Bool.and_eq_true, Bool.not_eq_true', decide_eq_true_eq] at hc
    obtain ⟨⟨hbusy, hstuck⟩, hrem⟩ := hc
    exact ⟨rfl, h.valid hbusy,
      h.wired.tickFront.tickDma_valid hbusy hstuck hrem (h.valid hbusy)⟩
  | _ => exact absurd hc Bool.false_ne_true

/-- Every other tick leaves UART and SRAM alone. -/
theorem StreamBoundary.tick_other {s : Soc} (h : StreamBoundary s)
    (hc : dmaCompletes (s, .tick) = false) :
    (socTick s).uart = s.uart ∧ (socTick s).sram = s.sram ∧
      ((socTick s).dma = s.dma ∨
        (socTick s).dma = { s.dma with remaining := s.dma.remaining - 1 }) := by
  have hno : ¬ Completing (socTickFront s).dma := by
    rintro ⟨hbusy, hstuck, hrem⟩
    have hyes : dmaCompletes (s, .tick) = true := by
      simp only [dmaCompletes, Bool.and_eq_true, Bool.not_eq_true', decide_eq_true_eq]
      exact ⟨⟨hbusy, hstuck⟩, hrem⟩
    exact Bool.false_ne_true (hc.symm.trans hyes)
  -- with the transmitter at rest the front half of the tick sends nothing
  rcases h.wired.tickFront.tickDma_cases with ⟨-, heq⟩ | ⟨-, -, -, heq⟩ | ⟨hend, -⟩ |
    ⟨hend, -⟩ | ⟨hend, -⟩
  · rw [socTick, heq]
    exact ⟨h.front, rfl, Or.inl rfl⟩
  · rw [socTick, heq]
    exact ⟨h.front, rfl, Or.inr rfl⟩
  all_goals exact absurd hend hno

/-- An event that completes nothing leaves the RX stream alone, the transmitter at rest, and
the SRAM outside the word it writes. -/
theorem StreamBoundary.other {s : Soc} (h : StreamBoundary s) {e : SocEvent}
    (hs : StreamStage (s, e)) (hc : dmaCompletes (s, e) = false) :
    (socApply s e).uart.dmaRx = s.uart.dmaRx ∧ (socApply s e).uart.busy = s.uart.busy ∧
      ∀ a, vlabSramBase.toNat ≤ a → a ∉ e.storeTarget →
        (socApply s e).sram.byteAt a = s.sram.byteAt a := by
  cases e with
  | read addr out =>
    obtain ⟨hrx, hbusy⟩ := socRead_loopback s addr out
    refine ⟨hrx, hbusy, fun a _ _ => ?_⟩
    rw [socApply, socRead_sram]
  | write addr value =>
    refine ⟨(socWrite_keeps s addr value).dmaRx, socWrite_uartBusy hs.1 s value, ?_⟩
    intro a ha hout
    exact h.wired.write_byteAt addr value ha fun hin => hout (Finset.mem_Ico.mpr hin)
  | tick =>
    obtain ⟨huart, hsram, -⟩ := h.tick_other hc
    exact ⟨congrArg SocUart.dmaRx huart, congrArg SocUart.busy huart,
      fun a _ _ => congrArg (fun m => SocMem.byteAt m a) hsram⟩
  | resetPeripherals => exact absurd hs id
  | boot romWords nwords => exact absurd hs id
  | raise line => exact ⟨rfl, rfl, fun _ _ _ => rfl⟩
  | uartStuck b => exact ⟨rfl, rfl, fun _ _ _ => rfl⟩
  | dmaStuck b => exact ⟨rfl, rfl, fun _ _ _ => rfl⟩

/-- A descriptor in flight is the one START accepted. -/
theorem StreamBoundary.write_valid {s : Soc} (h : StreamBoundary s) {addr value : Word}
    (hs : StreamStage (s, .write addr value)) :
    let d := (socWrite s addr value).soc.dma
    d.busy = true → VlabValid d.src d.dst d.length := by
  intro d hbusy
  cases hb : s.dma.busy with
  | true =>
    -- the write leaves the descriptor alone
    have hsame : d.src = s.dma.src ∧ d.dst = s.dma.dst ∧ d.length = s.dma.length := by
      by_cases ha : addr ∈ dmaRegs
      · have hoff : addr - vlabDmaBase ∉ ([0x00, 0x04, 0x08] : List Word) := by
          intro hmem
          have hback : addr = (addr - vlabDmaBase) + vlabDmaBase :=
            (BitVec.sub_add_cancel _ _).symm
          apply hs.2 hb
          simp only [List.mem_cons, List.not_mem_nil, or_false] at hmem
          rcases hmem with h0 | h0 | h0 <;> · rw [hback, h0]; decide
        have hwrite : d = _ := congrArg Soc.dma (h.wired.write_dmaReg ha value)
        rw [hwrite]
        exact socDmaWrite_descriptor hb _ value hoff
      · rw [show d = s.dma from socWrite_dma ha s value]
        exact ⟨rfl, rfl, rfl⟩
    rw [hsame.1, hsame.2.1, hsame.2.2]
    exact h.valid hb
  | false =>
    cases hstart : (SocEvent.write addr value).startWord with
    | none =>
      have hrest := (h.wired.idle_cases hb (e := .write addr value) hs.keepsPower hstart).1
      exact absurd (hrest.symm.trans hbusy) Bool.false_ne_true
    | some v =>
      obtain ⟨heq, hv⟩ := startWord_iff.mp hstart
      obtain ⟨rfl, rfl⟩ := SocEvent.write.inj heq
      obtain ⟨hvalid, hdma⟩ := h.wired.start_accepted hb hv hbusy
      rw [show d = s.dma.started value from hdma]
      exact hvalid

/-- Every event keeps the boundary. -/
theorem StreamBoundary.step {s : Soc} (h : StreamBoundary s) {e : SocEvent}
    (hs : StreamStage (s, e)) : StreamBoundary (socApply s e) := by
  cases hc : dmaCompletes (s, e) with
  | true =>
    -- a completing tick leaves the engine at rest, and no transfer starts the transmitter
    obtain ⟨rfl, -, htransfer⟩ := h.completing hc
    have hfront := h.front
    refine ⟨h.wired.tick, ?_, fun hbusy => ?_⟩
    · have hbusy : (socTick s).uart.busy = s.uart.busy := by
        rcases htransfer.data with ⟨-, -, huart, -⟩ | ⟨-, -, -, huart, -⟩ | ⟨-, -, huart, -⟩
        · rw [huart, hfront]
        · rw [huart, hfront]
        · rw [huart, hfront]
      show ¬ 0 < (socTick s).uart.busy
      rw [hbusy]
      exact h.quiet
    · have hidle : (socTick s).dma.busy = false := by rw [htransfer.status]
      exact absurd (hidle.symm.trans hbusy) Bool.false_ne_true
  | false =>
    obtain ⟨-, hquiet, -⟩ := h.other hs hc
    refine ⟨h.wired.apply e, by rw [hquiet]; exact h.quiet, ?_⟩
    cases e with
    | read addr out =>
      rw [socApply, socRead_dma]
      exact h.valid
    | write addr value => exact h.write_valid hs
    | tick =>
      obtain ⟨-, -, hdma | hdma⟩ := h.tick_other hc
      · rw [socApply, hdma]
        exact h.valid
      · rw [socApply, hdma]
        exact h.valid
    | resetPeripherals => exact absurd hs id
    | boot romWords nwords => exact absurd hs id
    | raise line => exact h.valid
    | uartStuck b => exact h.valid
    | dmaStuck b => exact h.valid

/-! ### The two halves -/

theorem mem_completions {s t : Soc} {es : List SocEvent} :
    t ∈ completions s es ↔
      ∃ e, (t, e) ∈ Runs.stages socApply s es ∧ dmaCompletes (t, e) = true := by
  rw [completions, List.mem_map]
  constructor
  · rintro ⟨⟨u, e⟩, hmem, rfl⟩
    exact ⟨e, List.mem_filter.mp hmem⟩
  · rintro ⟨e, hmem⟩
    exact ⟨(t, e), List.mem_filter.mpr hmem, rfl⟩

/-- Sending appends the sources to the RX stream, whatever the TX record holds. -/
theorem StreamBoundary.sends {s : Soc} (h : StreamBoundary s) {es : List SocEvent}
    (hes : ∀ x ∈ Runs.stages socApply s es, StreamStage x)
    (hto : ∀ t ∈ completions s es, t.dma.dst = vlabUartTxdata) :
    (Runs.run socApply s es).uart.dmaRx.bytes =
      (s.uart.dmaRx.bytes ++ sourceBytes s es).take 16384 := by
  have hfill := Runs.run_fill socApply (P := StreamBoundary)
    (C := fun x => StreamStage x ∧ (dmaCompletes x = true → x.1.dma.dst = vlabUartTxdata))
    (fun s e hC hs => hs.step hC.1) (fun s => s.uart.dmaRx.bytes) dmaCompletes
    (fun x => sramRange x.1 x.1.dma.src x.1.dma.length) 16384 ?_ ?_ (s := s)
    (fun x hx => ⟨hes x hx, fun hc => hto x.1 (mem_completions.mpr ⟨x.2, hx, hc⟩)⟩) h
    (by rw [DmaStream.bytes_length]; exact s.uart.dmaRx.len_le)
  · rw [hfill, sourceBytes, completions, List.flatMap_map]
  · intro s e hC hs hc
    exact congrArg DmaStream.bytes (hs.other hC.1 hc).1
  · intro s e hC hs hc
    obtain ⟨rfl, hvalid, htransfer⟩ := hs.completing hc
    have htx : s.dma.dst = vlabUartTxdata := hC.2 hc
    -- of the three kinds of transfer only RAM to uart-tx has this destination
    rcases htransfer.data with ⟨-, hdst, -⟩ | ⟨-, -, -, -, -, hrx⟩ | ⟨-, hdst, -⟩
    · exact absurd htx (hdst.not_fifo hvalid.len_ne).1
    · rw [hs.front] at hrx
      exact hrx
    · exact absurd htx (hdst.not_fifo hvalid.len_ne).1

/-- The bytes of a full read, from the head of the stream. -/
theorem toList_getD {xs : List Byte} {n : ℕ} (h : n ≤ xs.length) :
    Buf.toList (fun i => xs.getD i 0) n = xs.take n := by
  refine List.ext_getElem ?_ fun i hi hi' => ?_
  · simp [Buf.toList, h]
  · have hin : i < xs.length := by
      rw [List.length_take] at hi'
      omega
    simp [Buf.toList, List.getD_eq_getElem?_getD, List.getElem?_eq_getElem hin]

/-- Receiving hands out the head of the RX stream. -/
theorem StreamBoundary.receives {s : Soc} (h : StreamBoundary s) {es : List SocEvent}
    (hes : ∀ x ∈ Runs.stages socApply s es, StreamStage x)
    (hfrom : ∀ t ∈ completions s es, t.dma.src = vlabUartRxdata)
    (hle : transferred s es ≤ s.uart.dmaRx.bytes.length) :
    landedBytes s es = s.uart.dmaRx.bytes.take (transferred s es) ∧
      (Runs.run socApply s es).uart.dmaRx.bytes = s.uart.dmaRx.bytes.drop (transferred s es) := by
  have htotal : transferred s es =
      (((Runs.stages socApply s es).filter dmaCompletes).map
        fun x => x.1.dma.length.toNat).sum := by
    rw [transferred, completions, List.map_map]
    rfl
  rw [htotal] at hle ⊢
  rw [landedBytes, completions, List.flatMap_map]
  refine Runs.run_drain socApply (P := StreamBoundary)
    (C := fun x => StreamStage x ∧ (dmaCompletes x = true → x.1.dma.src = vlabUartRxdata))
    (fun s e hC hs => hs.step hC.1) (fun s => s.uart.dmaRx.bytes) dmaCompletes
    (fun x => x.1.dma.length.toNat)
    (fun x => sramRange (socTick x.1) x.1.dma.dst x.1.dma.length) ?_ ?_
    (fun x hx => ⟨hes x hx, fun hc => hfrom x.1 (mem_completions.mpr ⟨x.2, hx, hc⟩)⟩) h hle
  · intro s e hC hs hc
    exact congrArg DmaStream.bytes (hs.other hC.1 hc).1
  · intro s e hC hs hc
    obtain ⟨rfl, hvalid, htransfer⟩ := hs.completing hc
    have hrx : s.dma.src = vlabUartRxdata := hC.2 hc
    -- and only uart-rx to RAM has this source
    rcases htransfer.data with ⟨hsrc, -⟩ | ⟨hsrc, -⟩ | ⟨-, hdst, -, hstream, -, hpatch⟩
    · exact absurd hrx (hsrc.not_fifo hvalid.len_ne).2
    · exact absurd hrx (hsrc.not_fifo hvalid.len_ne).2
    · rw [hs.front] at hstream hpatch
      refine ⟨hstream, fun hfull => ?_⟩
      rw [← toList_getD hfull]
      refine Buf.toList_congr fun i hi => ?_
      have hlow : vlabSramBase.toNat ≤ s.dma.dst.toNat := hdst.1
      dsimp only at hi ⊢
      rw [hpatch _ (by omega), if_pos ⟨by omega, by omega⟩, Nat.add_sub_cancel_left]

/-- What a transfer left in the SRAM stays, if neither a later transfer nor a later store goes
there. -/
theorem StreamBoundary.landed_kept {s : Soc} (h : StreamBoundary s) {es : List SocEvent}
    (hes : ∀ x ∈ Runs.stages socApply s es, StreamStage x)
    (hfrom : ∀ t ∈ completions s es, t.dma.src = vlabUartRxdata)
    (hdisjoint : (completions s es).Pairwise fun t u => Disjoint t.dma.target u.dma.target)
    (hstores : (Runs.stages socApply s es).Pairwise fun x y =>
      dmaCompletes x = true → Disjoint x.1.dma.target y.2.storeTarget) :
    (completions s es).flatMap
        (fun t => sramRange (Runs.run socApply s es) t.dma.dst t.dma.length) =
      landedBytes s es := by
  have hstep : ∀ s e, StreamStage (s, e) → StreamBoundary s → StreamBoundary (socApply s e) :=
    fun s e hC hs => hs.step hC
  rw [completions, List.pairwise_map, List.pairwise_filter] at hdisjoint
  rw [landedBytes]
  refine List.flatMap_congr fun t ht => ?_
  obtain ⟨e, hmem, hc⟩ := mem_completions.mp ht
  have hb : StreamBoundary t := (Runs.stages_invariant socApply hstep hes h).2 _ hmem
  obtain ⟨rfl, hvalid, htransfer⟩ := hb.completing hc
  have htx : t.dma.dst ≠ vlabUartTxdata := fun h0 => hvalid.not_periph ⟨hfrom t ht, h0⟩
  have hlow : vlabSramBase.toNat ≤ t.dma.dst.toNat := (hvalid.writes.resolve_left htx).2.1
  refine Buf.toList_congr fun i hi => ?_
  set a := t.dma.dst.toNat + i with ha
  have hin : a ∈ t.dma.target := Finset.mem_Ico.mpr ⟨by omega, by omega⟩
  -- byte `a`: a completion that covers it leaves it, what lies elsewhere does not touch it
  refine Runs.run_kept socApply hstep (fun s : Soc => s.sram.byteAt a)
    (fun x => dmaCompletes x = true ∧ a ∈ x.1.dma.target)
    (fun x => (dmaCompletes x = true ∧ a ∈ x.1.dma.target) ∨ a ∈ x.2.storeTarget) ?_ hes h ?_
    (t, .tick) hmem ⟨hc, hin⟩
  · intro s e hC hs hno
    rw [not_or, not_and] at hno
    cases hce : dmaCompletes (s, e) with
    | false => exact (hs.other hC hce).2.2 a (by omega) hno.2
    | true =>
      obtain ⟨rfl, -, htransfer⟩ := hs.completing hce
      have hout : ¬ (s.dma.dst.toNat ≤ a ∧ a < s.dma.dst.toNat + s.dma.length.toNat) :=
        fun hin => hno.1 hce (Finset.mem_Ico.mpr hin)
      rcases htransfer.data with ⟨-, -, -, hpatch⟩ | ⟨-, -, hsram, -⟩ | ⟨-, -, -, -, hpatch⟩
      · exact (hpatch.2 a (by omega)).trans (if_neg hout)
      · exact congrArg (fun m => SocMem.byteAt m a) hsram
      · exact (hpatch.2 a (by omega)).trans (if_neg hout)
  · refine (hdisjoint.and hstores).imp ?_
    rintro x y ⟨hd, hst⟩ ⟨hx, hax⟩ (⟨hy, hay⟩ | hay)
    · exact Finset.disjoint_left.mp (hd hx hy) hax hay
    · exact Finset.disjoint_left.mp (hst hx) hax hay

/-! ### The round trip -/

/-- The loopback round trip.  From any reachable state with an empty RX stream, no byte in
the transmitter and the engine idle, let software send by RAM to uart-tx transfers and then
receive as many bytes by uart-rx to RAM transfers, cut however it likes.  What lands is what
was read, and the RX stream is empty again; and it is what the destinations hold in the end,
if they are disjoint and software stores nothing over them. -/
theorem loopback_round_trip {s : Soc} (h : SocReachable s) (hempty : s.uart.dmaRx.bytes = [])
    (hquiet : ¬ 0 < s.uart.busy) (hidle : s.dma.busy = false) {sends receives : List SocEvent}
    (hstages : ∀ x ∈ Runs.stages socApply s (sends ++ receives), StreamStage x)
    (hto : ∀ t ∈ completions s sends, t.dma.dst = vlabUartTxdata)
    (hfrom : ∀ t ∈ completions (Runs.run socApply s sends) receives, t.dma.src = vlabUartRxdata)
    (hfits : transferred s sends ≤ 16384)
    (htotal : transferred (Runs.run socApply s sends) receives = transferred s sends) :
    let m := Runs.run socApply s sends
    let t := Runs.run socApply m receives
    landedBytes m receives = sourceBytes s sends ∧ t.uart.dmaRx.bytes = [] ∧
      ((completions m receives).Pairwise (fun u v => Disjoint u.dma.target v.dma.target) →
        (Runs.stages socApply m receives).Pairwise (fun x y =>
          dmaCompletes x = true → Disjoint x.1.dma.target y.2.storeTarget) →
        (completions m receives).flatMap (fun u => sramRange t u.dma.dst u.dma.length) =
          sourceBytes s sends) := by
  intro m t
  have hstart : StreamBoundary s :=
    ⟨h.wired, hquiet, fun hbusy => absurd (hidle.symm.trans hbusy) Bool.false_ne_true⟩
  rw [Runs.stages_append, List.forall_mem_append] at hstages
  have hmid : StreamBoundary m :=
    (Runs.stages_invariant socApply (fun s e hC hs => StreamBoundary.step hs hC) hstages.1 hstart).1
  -- all that was sent fits into the stream
  have hlength : (sourceBytes s sends).length = transferred s sends := by
    rw [sourceBytes, transferred, List.length_flatMap]
    simp [sramRange, Buf.toList]
  have hrx : m.uart.dmaRx.bytes = sourceBytes s sends := by
    rw [hstart.sends hstages.1 hto, hempty, List.nil_append]
    exact List.take_of_length_le (by rw [hlength]; exact hfits)
  have hall : transferred m receives = m.uart.dmaRx.bytes.length := by
    rw [hrx, hlength]
    exact htotal
  -- and all of it is taken out again
  obtain ⟨hlanded, hleft⟩ := hmid.receives hstages.2 hfrom hall.le
  rw [hall, List.take_length, hrx] at hlanded
  rw [hall, List.drop_length] at hleft
  refine ⟨hlanded, hleft, fun hdisjoint hstores => ?_⟩
  rw [hmid.landed_kept hstages.2 hfrom hdisjoint hstores, hlanded]

/-- Three words stored, then sent as one and two. -/
def wordsSent : List SocEvent :=
  [.write vlabSramBase 0x44332211, .write (vlabSramBase + 4) 0x88776655,
    .write (vlabSramBase + 8) 0xCCBBAA99,
    .write vlabDmaSrc vlabSramBase, .write vlabDmaDst vlabUartTxdata, .write vlabDmaLen 4,
    .write vlabDmaCtrl 0x1, .tick,
    .write vlabDmaSrc (vlabSramBase + 4), .write vlabDmaLen 8, .write vlabDmaCtrl 0x1, .tick, .tick]

/-- And received as two and one. -/
def wordsReceived : List SocEvent :=
  [.write vlabDmaSrc vlabUartRxdata, .write vlabDmaDst (vlabSramBase + 0x100),
    .write vlabDmaCtrl 0x1, .tick, .tick,
    .write vlabDmaDst (vlabSramBase + 0x200), .write vlabDmaLen 4, .write vlabDmaCtrl 0x1, .tick]

theorem loopback_round_trip_words :
    (completions (Runs.run socApply (socInit default none) wordsSent) wordsReceived).flatMap
        (fun u => sramRange (Runs.run socApply (Runs.run socApply (socInit default none) wordsSent)
          wordsReceived) u.dma.dst u.dma.length) =
      [0x11, 0x22, 0x33, 0x44, 0x55, 0x66, 0x77, 0x88, 0x99, 0xAA, 0xBB, 0xCC] := by
  have hsource : sourceBytes (socInit default none) wordsSent =
      [0x11, 0x22, 0x33, 0x44, 0x55, 0x66, 0x77, 0x88, 0x99, 0xAA, 0xBB, 0xCC] := by
    decide +kernel
  have htrip := @loopback_round_trip (socInit default none) ⟨default, none, [], rfl⟩
    (by decide +kernel) (by decide +kernel) (by decide +kernel) wordsSent wordsReceived
    (by decide +kernel) (by decide +kernel) (by decide +kernel) (by decide +kernel)
    (by decide +kernel)
  exact (htrip.2.2 (by decide +kernel) (by decide +kernel)).trans hsource

end VlabSoc
