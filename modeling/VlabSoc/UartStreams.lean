/-
The UART streams are bounded queues.

Over any sequence of register accesses, ticks, appends and drains the TX record holds the
first bytes of all that was offered, and the RX stream is a queue of the same capacity:
an append is a `put` of its payload, a tick that completes a CPU byte a `put` of this
byte, and a drain a `get` whose short reads are padded with zeros
(`uart_streams_refine`).
-/
import VlabSoc.Queues
import VlabSoc.SocFrames

namespace VlabSoc

open Queues (Op)

/-! ### The tick of the UART -/

/-- The tick completes the byte in flight. -/
def uartCompletes (u : SocUart) : Bool := decide (u.busy = 1) && !u.faultStuckBusy

/-- The byte in flight. -/
def uartByte (u : SocUart) : Byte := (u.txdata &&& 0xFF).setWidth 8

theorem socUartStep_complete {u : SocUart} (h : uartCompletes u = true) :
    socUartStep u =
      (socUartDmaTxAppend { u with busy := 0, rxdata := u.txdata, rxValid := true }
        (fun _ => uartByte u) 1, [socUartIrqLine]) := by
  rw [uartCompletes, Bool.and_eq_true, decide_eq_true_iff, Bool.not_eq_true'] at h
  obtain ⟨hbusy, hstuck⟩ := h
  have hpos : 0 < u.busy := by omega
  have hzero : u.busy - 1 = 0 := by omega
  rw [socUartStep, if_pos hpos, hstuck, if_neg Bool.false_ne_true]
  dsimp only
  rw [if_pos hzero, hzero]
  rfl

/-- Any other tick counts down, or does nothing. -/
theorem socUartStep_count {u : SocUart} (h : uartCompletes u = false) :
    socUartStep u =
      ({ u with busy := if 0 < u.busy ∧ u.faultStuckBusy = false then u.busy - 1 else u.busy },
        []) := by
  rw [socUartStep]
  by_cases hpos : 0 < u.busy
  · rw [if_pos hpos]
    cases hstuck : u.faultStuckBusy with
    | true =>
      rw [if_pos rfl, if_neg fun h0 => Bool.false_ne_true h0.2.symm, ← hstuck]
    | false =>
      have hone : u.busy - 1 ≠ 0 := by
        intro hzero
        have hbusy : u.busy = 1 := by omega
        rw [uartCompletes, decide_eq_true hbusy, hstuck] at h
        exact absurd h (by decide)
      rw [if_neg Bool.false_ne_true]
      dsimp only
      rw [if_neg hone, if_pos ⟨hpos, rfl⟩]
  · rw [if_neg hpos, if_neg fun h0 => hpos h0.1]

/-! ### Operations -/

/-- Everything that is done to a UART between two resets. -/
inductive UartEvent
  | read (offset out : Word)
  | write (perf : SocPerf) (offset value : Word)
  | step
  | stuck (b : Bool)
  | append (payload : Buf Byte) (len : Word)
  | drain (out : Buf Byte) (len : Word)

def uartApply (u : SocUart) : UartEvent → SocUart
  | .read offset out => (socUartRead u offset out).uart
  | .write perf offset value => (socUartWrite u perf offset value).uart
  | .step => (socUartStep u).1
  | .stuck b => { u with faultStuckBusy := b }
  | .append payload len => socUartDmaTxAppend u payload len
  | .drain out len => (socUartDmaRxDrain u out len).uart

/-- The payload offered to the streams, by an append or by the CPU loopback. -/
def uartOffered : SocUart × UartEvent → List Byte
  | (_, .append payload len) => Buf.toList payload len.toNat
  | (u, .step) => if uartCompletes u then [uartByte u] else []
  | _ => []

/-- The event as an operation of the RX queue. -/
def uartQueueOp : SocUart × UartEvent → Op Byte
  | (_, .drain _ len) => .get len.toNat
  | x => .put (uartOffered x)

/-! ### One operation -/

theorem socUartDmaTxAppend_bytes (u : SocUart) (payload : Buf Byte) (len : Word) :
    (socUartDmaTxAppend u payload len).dmaTx.bytes =
        (u.dmaTx.bytes ++ Buf.toList payload len.toNat).take 16384 ∧
      (socUartDmaTxAppend u payload len).dmaRx.bytes =
        (u.dmaRx.bytes ++ Buf.toList payload len.toNat).take 16384 := by
  unfold socUartDmaTxAppend
  split_ifs with h0
  · -- an empty payload changes nothing
    have hnone : Buf.toList payload len.toNat = [] := by
      rw [h0]
      rfl
    have hfit : ∀ s : DmaStream, s.bytes.take 16384 = s.bytes := fun s =>
      List.take_of_length_le (by rw [s.bytes_length]; exact s.len_le)
    rw [hnone, List.append_nil, List.append_nil, hfit, hfit]
    exact ⟨rfl, rfl⟩
  · exact ⟨u.dmaTx.append_bytes payload len, u.dmaRx.append_bytes payload len⟩

theorem bytes_length_le (s : DmaStream) : s.bytes.length ≤ 16384 := by
  rw [s.bytes_length]
  exact s.len_le

theorem uartApply_bytes (u : SocUart) (e : UartEvent) :
    (uartApply u e).dmaTx.bytes = (u.dmaTx.bytes ++ uartOffered (u, e)).take 16384 ∧
      (uartApply u e).dmaRx.bytes = Queues.step 16384 u.dmaRx.bytes (uartQueueOp (u, e)) := by
  have hfit : u.dmaTx.bytes.take 16384 = u.dmaTx.bytes :=
    List.take_of_length_le (bytes_length_le _)
  -- an event that offers nothing leaves the streams alone
  have hsame : ∀ v : SocUart, v.dmaTx = u.dmaTx → v.dmaRx = u.dmaRx →
      v.dmaTx.bytes = (u.dmaTx.bytes ++ []).take 16384 ∧
        v.dmaRx.bytes = Queues.step 16384 u.dmaRx.bytes (.put []) := fun v htx hrx => by
    rw [htx, hrx, Queues.step_put (bytes_length_le _), List.append_nil, List.append_nil, hfit,
      List.take_of_length_le (bytes_length_le _)]
    exact ⟨rfl, rfl⟩
  cases e with
  | read offset out =>
    refine hsame _ ?_ ?_
    · rw [uartApply, socUartRead_frame]
    · rw [uartApply, socUartRead_frame]
  | write perf offset value =>
    refine hsame _ ?_ ?_
    · rw [uartApply, socUartWrite_frame]
    · rw [uartApply, socUartWrite_frame]
  | step =>
    rw [uartQueueOp, uartOffered, uartApply]
    · cases hc : uartCompletes u with
      | true =>
        have hone : Buf.toList (fun _ => uartByte u) (1 : Word).toNat = [uartByte u] := rfl
        obtain ⟨htx, hrx⟩ := socUartDmaTxAppend_bytes
          { u with busy := 0, rxdata := u.txdata, rxValid := true } (fun _ => uartByte u) 1
        rw [hone] at htx hrx
        rw [socUartStep_complete hc]
        exact ⟨htx, hrx.trans (Queues.step_put (bytes_length_le _) _).symm⟩
      | false =>
        rw [socUartStep_count hc]
        exact hsame _ rfl rfl
    · exact fun _ _ _ h => UartEvent.noConfusion (congrArg Prod.snd h)
  | stuck b => exact hsame _ rfl rfl
  | append payload len =>
    obtain ⟨htx, hrx⟩ := socUartDmaTxAppend_bytes u payload len
    exact ⟨htx, hrx.trans (Queues.step_put (bytes_length_le _) _).symm⟩
  | drain out len =>
    refine ⟨?_, drain_bytes u out len⟩
    have htx : (uartApply u (.drain out len)).dmaTx = u.dmaTx := by
      rw [uartApply, socUartDmaRxDrain]
      split_ifs <;> rfl
    rw [htx, uartOffered, List.append_nil, hfit]
    all_goals simp

/-- What a drain hands out: the head of the queue, padded with zeros. -/
theorem drain_toList (u : SocUart) (out : Buf Byte) (len : Word) :
    Buf.toList (socUartDmaRxDrain u out len).out len.toNat =
      u.dmaRx.bytes.take len.toNat ++ List.replicate (len.toNat - u.dmaRx.len.toNat) 0 := by
  have hlen := u.dmaRx.bytes_length
  refine List.ext_getElem (by simp; omega) fun i hi hi' => ?_
  have hin : i < len.toNat := by simpa using hi
  rw [Buf.toList_getElem, drain_out u out len hin, List.getD_eq_getElem?_getD]
  by_cases hhas : i < u.dmaRx.bytes.length
  · rw [List.getElem?_eq_getElem hhas, List.getElem_append_left (by simp; omega)]
    simp
  · rw [List.getElem?_eq_none (not_lt.mp hhas), List.getElem_append_right (by simp; omega)]
    simp

/-- An offer is taken up to a point and refused from there on. -/
theorem taken_append_refused (x : SocUart × UartEvent) :
    Queues.taken 16384 (x.1.dmaRx.bytes, uartQueueOp x) ++
      Queues.refused 16384 (x.1.dmaRx.bytes, uartQueueOp x) = uartOffered x := by
  obtain ⟨u, e⟩ := x
  cases e with
  | drain out len => rfl
  | _ => exact Queues.taken_append_refused _ _

/-! ### Runs -/

/-- The UART streams refine bounded queues.  In every sequence of operations from reset both
lengths stay within the capacity; the TX record holds the first bytes of all payloads; the RX
stream is the queue, each drain hands out its head and zeros; an offer is taken up to a point;
what the queue took is what it handed out and what it still holds, in order; and an offer is
cut short only by a stream that is full then. -/
theorem uart_streams_refine (u : SocUart) (es : List UartEvent) :
    let xs := Runs.stages uartApply (socUartReset u) es
    let t := Runs.run uartApply (socUartReset u) es
    t.dmaTx.len.toNat ≤ 16384 ∧ t.dmaRx.len.toNat ≤ 16384 ∧
      t.dmaTx.bytes = (xs.flatMap uartOffered).take 16384 ∧
      t.dmaRx.bytes = Runs.run (Queues.step 16384) [] (xs.map uartQueueOp) ∧
      (∀ v out len, (v, UartEvent.drain out len) ∈ xs →
        Buf.toList (socUartDmaRxDrain v out len).out len.toNat =
          Queues.handed (v.dmaRx.bytes, uartQueueOp (v, .drain out len)) ++
            List.replicate (len.toNat - v.dmaRx.len.toNat) 0) ∧
      (∀ x ∈ xs, Queues.taken 16384 (x.1.dmaRx.bytes, uartQueueOp x) ++
        Queues.refused 16384 (x.1.dmaRx.bytes, uartQueueOp x) = uartOffered x) ∧
      xs.flatMap (fun x => Queues.taken 16384 (x.1.dmaRx.bytes, uartQueueOp x)) =
        xs.flatMap (fun x => Queues.handed (x.1.dmaRx.bytes, uartQueueOp x)) ++ t.dmaRx.bytes ∧
      ∀ x ∈ xs, Queues.refused 16384 (x.1.dmaRx.bytes, uartQueueOp x) ≠ [] →
        (uartApply x.1 x.2).dmaRx.len.toNat = 16384 := by
  intro xs t
  have hall : ∀ e ∈ es, True := fun _ _ => trivial
  obtain ⟨hrx, hstages⟩ := Runs.run_refines (P := fun _ => True) (A := fun _ => True) uartApply
    (Queues.step 16384) (fun v => v.dmaRx.bytes) uartQueueOp (fun _ _ _ _ => trivial)
    (fun v e _ _ => (uartApply_bytes v e).2) (s := socUartReset u) hall trivial
  have hempty : (socUartReset u).dmaRx.bytes = [] := rfl
  rw [hempty] at hrx hstages
  refine ⟨t.dmaTx.len_le, t.dmaRx.len_le, ?_, hrx, fun v out len _ => drain_toList v out len,
    fun x _ => taken_append_refused x, ?_, fun x _ hcut => ?_⟩
  · -- the record only grows
    have hstage : ∀ x ∈ Runs.stages uartApply (socUartReset u) es, True := fun _ _ => trivial
    have hgrow := Runs.run_fill uartApply (P := fun _ => True) (C := fun _ => True)
      (fun _ _ _ _ => trivial) (fun v => v.dmaTx.bytes) (fun _ => true) uartOffered 16384
      (fun _ _ _ _ h => absurd h Bool.noConfusion)
      (fun v e _ _ _ => (uartApply_bytes v e).1) hstage trivial (bytes_length_le _)
    rw [List.filter_eq_self.mpr fun _ _ => rfl] at hgrow
    exact hgrow
  · have hflow : [] ++ _ = _ ++ Runs.run (Queues.step 16384) [] (xs.map uartQueueOp) :=
      Queues.run_conserves ([] : List Byte) (xs.map uartQueueOp)
    rw [hstages, ← hrx, List.nil_append, List.flatMap_map, List.flatMap_map] at hflow
    exact hflow
  · have hfull := Queues.refused_full (bytes_length_le _) hcut
    rw [← (uartApply_bytes x.1 x.2).2, DmaStream.bytes_length] at hfull
    exact hfull

end VlabSoc
