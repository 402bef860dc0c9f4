/-
The UART (soc_uart.c): CPU loopback and the two streams the DMA engine sees.

`dma_tx_fifo`/`dma_tx_len` and `dma_rx_fifo`/`dma_rx_len` are each a `DmaStream`,
an array together with a fill level that never passes its capacity.

* `DmaStream.append_bytes` — an append keeps what fits;
* `drain_bytes`, `drain_out` — a drain removes a prefix and hands it out, padded
  with zeros.
-/
import VlabSoc.SocIntc

namespace VlabSoc

abbrev socUartCtrlEnable : Word := 0x1
abbrev socUartIrqLine : Int := 0

/-- `SOC_UART_DMA_FIFO_SIZE` -/
abbrev socUartDmaFifoSize : Word := 16384

/-- A stream FIFO of the UART, `uint8_t fifo[SOC_UART_DMA_FIFO_SIZE]` with its length. -/
@[ext] structure DmaStream where
  fifo : Buf Byte
  len : Word
  len_le : len.toNat ≤ 16384

instance : Inhabited DmaStream := ⟨⟨fun _ => 0, 0, by decide⟩⟩

/-- The bytes of the stream, oldest first. -/
def DmaStream.bytes (s : DmaStream) : List Byte := Buf.toList s.fifo s.len.toNat

/-- `len = 0`; the array keeps its stale contents. -/
def DmaStream.clear (s : DmaStream) : DmaStream :=
  { s with len := 0, len_le := by decide }

/-- `soc_uart_t` -/
structure SocUart where
  latencyTicks : Word
  ctrl : Word
  bauddiv : Word
  txdata : Word
  rxdata : Word
  busy : Int
  rxValid : Bool
  faultStuckBusy : Bool
  dmaTx : DmaStream
  dmaRx : DmaStream
  deriving Inhabited

/-- The stream arrays are not initialised. -/
def socUartInit (u : SocUart) (latencyTicks : Word) : SocUart where
  latencyTicks := latencyTicks
  ctrl := 0
  bauddiv := 0
  txdata := 0
  rxdata := 0
  busy := 0
  rxValid := false
  faultStuckBusy := false
  dmaTx := u.dmaTx.clear
  dmaRx := u.dmaRx.clear

def socUartReset (u : SocUart) : SocUart :=
  { u with
    ctrl := 0, bauddiv := 0, txdata := 0, rxdata := 0, busy := 0, rxValid := false
    faultStuckBusy := false, dmaTx := u.dmaTx.clear, dmaRx := u.dmaRx.clear }

def socUartStatus (u : SocUart) : Word :=
  (if 0 < u.busy then 0x1 else 0x2) ||| (if u.rxValid then 0x4 else 0)

/-- Read result of the UART: return code, the caller's word, the device. -/
structure UartRead where
  rc : SocRc
  out : Word
  uart : SocUart

def socUartRead (u : SocUart) (offset out : Word) : UartRead :=
  match offset with
  | 0x04 => ⟨.ok, u.rxdata &&& 0xFF, { u with rxValid := false }⟩
  | 0x08 => ⟨.ok, socUartStatus u, u⟩
  | 0x0C => ⟨.ok, u.ctrl, u⟩
  | 0x10 => ⟨.ok, u.bauddiv, u⟩
  | _ => ⟨.errBus, out, u⟩

/-- A transmit while disabled counts a stall. -/
structure UartWrite where
  rc : SocRc
  uart : SocUart
  perf : SocPerf

def socUartWrite (u : SocUart) (perf : SocPerf) (offset value : Word) : UartWrite :=
  match offset with
  | 0x00 =>
    if u.ctrl &&& socUartCtrlEnable = 0 then
      ⟨.uartErrDisabled, u, socPerfCountStall perf 1⟩
    else
      ⟨.ok,
        { u with
          txdata := value &&& 0xFF
          busy := if 0 < u.latencyTicks then u.latencyTicks.toInt else 1 },
        perf⟩
  | 0x0C => ⟨.ok, { u with ctrl := value }, perf⟩
  | 0x10 => ⟨.ok, { u with bauddiv := value }, perf⟩
  | _ => ⟨.errBus, u, perf⟩

/-! ### The streams -/

/-- Room for `len` more bytes, at most `len`. -/
def DmaStream.room (s : DmaStream) (len : Word) : Word :=
  let space := if s.len < socUartDmaFifoSize then socUartDmaFifoSize - s.len else 0
  if len < space then len else space

theorem DmaStream.room_toNat (s : DmaStream) (len : Word) :
    (s.room len).toNat = min len.toNat (16384 - s.len.toNat) := by
  have h := s.len_le
  have hlen := s.len.isLt
  have hcap : socUartDmaFifoSize.toNat = 16384 := rfl
  have hspace : (if s.len < socUartDmaFifoSize then socUartDmaFifoSize - s.len else 0).toNat =
      16384 - s.len.toNat := by
    split_ifs with hlt
    · rw [BitVec.lt_def, hcap] at hlt
      rw [BitVec.toNat_sub, hcap]
      omega
    · rw [BitVec.lt_def, hcap] at hlt
      rw [show ((0 : Word).toNat) = 0 from rfl]
      omega
  unfold DmaStream.room
  dsimp only
  split_ifs at hspace ⊢ <;> rw [BitVec.lt_def] at * <;> omega

theorem DmaStream.len_add_room (s : DmaStream) (len : Word) :
    (s.len + s.room len).toNat = s.len.toNat + (s.room len).toNat := by
  have h := s.len_le
  rw [BitVec.toNat_add, s.room_toNat]
  omega

/-- One half of `soc_uart_dma_tx_append`; with no room nothing changes. -/
def DmaStream.append (s : DmaStream) (payload : Buf Byte) (len : Word) : DmaStream :=
  let n := s.room len
  { fifo := Buf.memcpy s.fifo s.len.toNat payload n.toNat
    len := s.len + n
    len_le := by
      have h := s.len_le
      rw [s.len_add_room, s.room_toNat]
      omega }

/-- Both streams record the payload; the loopback feeds the second one. -/
def socUartDmaTxAppend (u : SocUart) (payload : Buf Byte) (len : Word) : SocUart :=
  if len = 0 then u
  else { u with dmaTx := u.dmaTx.append payload len, dmaRx := u.dmaRx.append payload len }

/-- What a drain of `len` bytes finds, at most `len`. -/
def DmaStream.avail (s : DmaStream) (len : Word) : Word := if len < s.len then len else s.len

theorem DmaStream.avail_toNat (s : DmaStream) (len : Word) :
    (s.avail len).toNat = min len.toNat s.len.toNat := by
  unfold DmaStream.avail
  split_ifs with h <;> rw [BitVec.lt_def] at h <;> omega

theorem DmaStream.len_sub_avail (s : DmaStream) (len : Word) :
    (s.len - s.avail len).toNat = s.len.toNat - min len.toNat s.len.toNat := by
  rw [BitVec.toNat_sub_of_le (BitVec.le_def.mpr (by rw [s.avail_toNat]; omega)), s.avail_toNat]

/-- The stream without its first `avail len` bytes, moved to the front. -/
def DmaStream.remove (s : DmaStream) (len : Word) : DmaStream where
  fifo := Buf.memcpy s.fifo 0 (s.fifo.from (s.avail len).toNat) (s.len - s.avail len).toNat
  len := s.len - s.avail len
  len_le := by
    have h := s.len_le
    rw [s.len_sub_avail]
    omega

/-- Result of a drain: the device and the caller's buffer. -/
structure UartDrain where
  uart : SocUart
  out : Buf Byte

/-- Removes up to `len` bytes from the RX stream into `out`, padded with zeros. -/
def socUartDmaRxDrain (u : SocUart) (out : Buf Byte) (len : Word) : UartDrain :=
  if len = 0 then ⟨u, out⟩
  else
    let n := u.dmaRx.avail len
    { uart := { u with dmaRx := u.dmaRx.remove len }
      out := Buf.memset (Buf.memcpy out 0 u.dmaRx.fifo n.toNat) n.toNat 0 (len - n).toNat }

/-- One tick, with the lines it raises. -/
def socUartStep (u : SocUart) : SocUart × List Int :=
  if 0 < u.busy then
    if u.faultStuckBusy then (u, [])
    else
      let u := { u with busy := u.busy - 1 }
      if u.busy = 0 then
        let u := { u with rxdata := u.txdata, rxValid := true }
        let b : Byte := (u.txdata &&& 0xFF).setWidth 8
        (socUartDmaTxAppend u (fun _ => b) 1, [socUartIrqLine])
      else (u, [])
  else (u, [])

/-- The UART raises its own line only. -/
theorem socUartStep_raises {u : SocUart} {l : Int} (h : l ∈ (socUartStep u).2) :
    l = socUartIrqLine := by
  unfold socUartStep at h
  split at h
  · split at h
    · simp at h
    · dsimp only at h
      split at h
      · simpa using h
      · simp at h
  · simp at h

/-! ### The streams as lists -/

@[simp] theorem DmaStream.bytes_length (s : DmaStream) : s.bytes.length = s.len.toNat := by
  simp [DmaStream.bytes]

/-- An append keeps the longest prefix of the payload that fits. -/
theorem DmaStream.append_bytes (s : DmaStream) (payload : Buf Byte) (len : Word) :
    (s.append payload len).bytes = (s.bytes ++ Buf.toList payload len.toNat).take 16384 := by
  have h := s.len_le
  have hsplit : (s.append payload len).bytes =
      s.bytes ++ Buf.toList payload (s.room len).toNat := by
    rw [DmaStream.bytes, DmaStream.append]
    dsimp only
    rw [s.len_add_room, Buf.toList_memcpy_append]
    rfl
  rw [hsplit, List.take_append, List.take_of_length_le (by rw [s.bytes_length]; exact h),
    s.bytes_length, Buf.take_toList, s.room_toNat, Nat.min_comm]

theorem DmaStream.remove_bytes (s : DmaStream) (len : Word) :
    (s.remove len).bytes = s.bytes.drop len.toNat := by
  rw [DmaStream.bytes, DmaStream.remove]
  dsimp only
  rw [s.len_sub_avail, s.avail_toNat, Buf.toList_memcpy_shift]
  rcases Nat.le_total len.toNat s.len.toNat with hle | hle
  · rw [Nat.min_eq_left hle]
    rfl
  · rw [Nat.min_eq_right hle, List.drop_eq_nil_of_le (by simp),
      List.drop_eq_nil_of_le (by simpa using hle)]

/-- A drain removes a prefix of the stream. -/
theorem drain_bytes (u : SocUart) (out : Buf Byte) (len : Word) :
    (socUartDmaRxDrain u out len).uart.dmaRx.bytes = u.dmaRx.bytes.drop len.toNat := by
  unfold socUartDmaRxDrain
  split_ifs with h0
  · simp [h0]
  · exact u.dmaRx.remove_bytes len

/-- A drain hands out the first bytes of the stream, then zeros. -/
theorem drain_out (u : SocUart) (out : Buf Byte) (len : Word) {i : ℕ} (hi : i < len.toNat) :
    (socUartDmaRxDrain u out len).out i = u.dmaRx.bytes.getD i 0 := by
  have h0 : len ≠ 0 := by
    rintro rfl
    exact absurd hi (by simp)
  have hn := u.dmaRx.avail_toNat len
  have hpad : (len - u.dmaRx.avail len).toNat = len.toNat - (u.dmaRx.avail len).toNat :=
    BitVec.toNat_sub_of_le (BitVec.le_def.mpr (by omega))
  rw [socUartDmaRxDrain, if_neg h0]
  dsimp only
  rw [hpad]
  by_cases hin : i < u.dmaRx.len.toNat
  · rw [Buf.memset_outside (Or.inl (by omega)), Buf.memcpy_front (by omega), List.getD_eq_getElem?_getD,
      List.getElem?_eq_getElem (by simpa using hin)]
    simp [DmaStream.bytes]
  · rw [Buf.memset_inside (by omega), List.getD_eq_getElem?_getD,
      List.getElem?_eq_none (by simpa using hin)]
    rfl

end VlabSoc
