/-
Byte-addressable memories (soc_memory.c).

`Covers m addr len` is the range check of `soc_mem_offset`; the specification
lemmas say which accesses succeed and, address by address, what they read and
write:

* `socMemReadWord_ok`, `socMemWriteWord_ok` — aligned words, little-endian;
* `socMemReadBytes_eq`, `socMemWriteBytes_eq` — blocks;
* `socMemLoadFrom_data` — the image loader.
-/
import VlabSoc.SocBus

namespace VlabSoc

/-- `soc_mem_t`, without the name; `data` is the caller's backing store. -/
structure SocMem where
  base : Word
  size : Word
  readonly : Bool
  data : Buf Byte
  deriving Inhabited

def socMemInit (base size : Word) (readonly : Bool) (backing : Buf Byte) : SocMem where
  base := base
  size := size
  readonly := readonly
  data := Buf.memset backing 0 0 size.toNat

/-- Offset of a range, `none` where the source returns `SOC_ERR_BUS`. -/
def socMemOffset (m : SocMem) (addr len : Word) : Option Word :=
  if len = 0 then none
  else if addr.toNat + len.toNat > 0x100000000 then none
  else if ¬ (m.base ≤ addr ∧ addr.toNat + len.toNat ≤ m.base.toNat + m.size.toNat) then none
  else some (addr - m.base)

/-- `data[off .. off + 4] = value`, little-endian. -/
def storeWord (data : Buf Byte) (off value : Word) : Buf Byte :=
  let data := Function.update data off.toNat (byteOf value 0)
  let data := Function.update data (off + 1).toNat (byteOf value 1)
  let data := Function.update data (off + 2).toNat (byteOf value 2)
  Function.update data (off + 3).toNat (byteOf value 3)

def socMemReadWord (m : SocMem) (addr out : Word) : SocRc × Word :=
  if addr % 4 ≠ 0 then (.errBus, out)
  else
    match socMemOffset m addr 4 with
    | none => (.errBus, out)
    | some off =>
      (.ok, leWord (m.data off.toNat) (m.data (off + 1).toNat) (m.data (off + 2).toNat)
        (m.data (off + 3).toNat))

def socMemWriteWord (m : SocMem) (addr value : Word) : SocRc × SocMem :=
  if addr % 4 ≠ 0 then (.errBus, m)
  else if m.readonly then (.errBus, m)
  else
    match socMemOffset m addr 4 with
    | none => (.errBus, m)
    | some off => (.ok, { m with data := storeWord m.data off value })

def socMemReadBytes (m : SocMem) (addr len : Word) (out : Buf Byte) : SocRc × Buf Byte :=
  match socMemOffset m addr len with
  | none => (.errBus, out)
  | some off => (.ok, Buf.memcpy out 0 (m.data.from off.toNat) len.toNat)

def socMemWriteBytes (m : SocMem) (addr : Word) (payload : Buf Byte) (len : Word) :
    SocRc × SocMem :=
  if m.readonly then (.errBus, m)
  else
    match socMemOffset m addr len with
    | none => (.errBus, m)
    | some off => (.ok, { m with data := Buf.memcpy m.data off.toNat payload len.toNat })

/-- The loader's loop from word `i` on. -/
def socMemLoadFrom (m : SocMem) (i : Word) : List Word → SocRc × SocMem
  | [] => (.ok, m)
  | w :: ws =>
    let off := i * 4
    if m.size < off + 4 then (.errBus, m)
    else socMemLoadFrom { m with data := storeWord m.data off w } (i + 1) ws

def socMemLoadWords (m : SocMem) (words : List Word) (nwords : Word) : SocRc × SocMem :=
  socMemLoadFrom m 0 (words.take nwords.toNat)

def socMemZero (m : SocMem) : SocMem :=
  { m with data := Buf.memset m.data 0 0 m.size.toNat }

/-! ### Ranges -/

/-- The memory owns every byte of a non-empty range that does not wrap. -/
def SocMem.Covers (m : SocMem) (addr len : Word) : Prop :=
  0 < len.toNat ∧ addr.toNat + len.toNat ≤ 0x100000000 ∧ m.base.toNat ≤ addr.toNat ∧
    addr.toNat + len.toNat ≤ m.base.toNat + m.size.toNat

instance (m : SocMem) (addr len : Word) : Decidable (m.Covers addr len) :=
  inferInstanceAs (Decidable (_ ∧ _ ∧ _ ∧ _))

/-- The byte at an address, as a number. -/
def SocMem.byteAt (m : SocMem) (a : ℕ) : Byte := m.data (a - m.base.toNat)

theorem socMemOffset_eq (m : SocMem) (addr len : Word) :
    socMemOffset m addr len = if m.Covers addr len then some (addr - m.base) else none := by
  have hlen : len = 0 ↔ len.toNat = 0 := by
    rw [← BitVec.toNat_inj]
    rfl
  unfold socMemOffset
  by_cases hc : m.Covers addr len
  · obtain ⟨h1, h2, h3, h4⟩ := id hc
    have hne : len ≠ 0 := fun h => by
      have := hlen.mp h
      omega
    rw [if_pos hc, if_neg hne, if_neg (by omega),
      if_neg (not_not.mpr ⟨BitVec.le_def.mpr h3, h4⟩)]
  · rw [if_neg hc]
    split_ifs with h0 h1 h2
    · rfl
    · rfl
    · have hpos : 0 < len.toNat := Nat.pos_of_ne_zero fun h => h0 (hlen.mpr h)
      exact absurd ⟨hpos, by omega, BitVec.le_def.mp h2.1, h2.2⟩ hc
    · rfl

theorem SocMem.Covers.offset {m : SocMem} {addr len : Word} (h : m.Covers addr len) :
    (addr - m.base).toNat = addr.toNat - m.base.toNat :=
  BitVec.toNat_sub_of_le (BitVec.le_def.mpr h.2.2.1)

/-- Inside a covered word the byte offsets do not wrap. -/
theorem SocMem.Covers.offset_add {m : SocMem} {addr : Word} (h : m.Covers addr 4) {k : ℕ}
    (hk : k < 4) : (addr - m.base + BitVec.ofNat 32 k).toNat = addr.toNat - m.base.toNat + k := by
  have hlen : ((4 : Word).toNat) = 4 := rfl
  have hlt := addr.isLt
  have hfit := h.2.1
  rw [hlen] at hfit
  rw [BitVec.toNat_add, h.offset, BitVec.toNat_ofNat]
  omega

theorem dvd_four_iff (addr : Word) : addr % 4 = 0 ↔ addr.toNat % 4 = 0 := by
  rw [← BitVec.toNat_inj, BitVec.toNat_umod]
  rfl

/-! ### Words -/

theorem socMemReadWord_ok {m : SocMem} {addr out : Word} :
    (socMemReadWord m addr out).1 = .ok ↔ addr.toNat % 4 = 0 ∧ m.Covers addr 4 := by
  unfold socMemReadWord
  rw [socMemOffset_eq, ← dvd_four_iff]
  by_cases ha : addr % 4 = 0
  · rw [if_neg (not_not.mpr ha)]
    by_cases hc : m.Covers addr 4
    · rw [if_pos hc]
      exact iff_of_true rfl ⟨ha, hc⟩
    · rw [if_neg hc]
      exact iff_of_false (by simp) fun h => hc h.2
  · rw [if_pos ha]
    exact iff_of_false (by simp) fun h => ha h.1

theorem socMemReadWord_value {m : SocMem} {addr out : Word}
    (h : (socMemReadWord m addr out).1 = .ok) :
    (socMemReadWord m addr out).2 =
      leWord (m.byteAt addr.toNat) (m.byteAt (addr.toNat + 1)) (m.byteAt (addr.toNat + 2))
        (m.byteAt (addr.toNat + 3)) := by
  obtain ⟨ha, hc⟩ := socMemReadWord_ok.mp h
  have hb := hc.2.2.1
  have h1 := hc.offset_add (k := 1) (by omega)
  have h2 := hc.offset_add (k := 2) (by omega)
  have h3 := hc.offset_add (k := 3) (by omega)
  unfold socMemReadWord
  rw [socMemOffset_eq, if_pos hc, if_neg (by rw [not_not, dvd_four_iff]; exact ha)]
  dsimp only
  rw [hc.offset, show (1 : Word) = BitVec.ofNat 32 1 from rfl, h1,
    show (2 : Word) = BitVec.ofNat 32 2 from rfl, h2, show (3 : Word) = BitVec.ofNat 32 3 from rfl,
    h3]
  unfold SocMem.byteAt
  congr 2 <;> omega

theorem socMemReadWord_err {m : SocMem} {addr out : Word}
    (h : (socMemReadWord m addr out).1 ≠ .ok) : socMemReadWord m addr out = (.errBus, out) := by
  unfold socMemReadWord at h ⊢
  split_ifs at h ⊢
  · rfl
  · cases hoff : socMemOffset m addr 4 with
    | none => rfl
    | some off =>
      rw [hoff] at h
      exact absurd rfl h

/-- What a stored word leaves in the array. -/
theorem storeWord_apply {data : Buf Byte} {off value : Word} (hoff : off.toNat + 4 ≤ 2 ^ 32)
    (i : ℕ) :
    storeWord data off value i =
      if off.toNat ≤ i ∧ i < off.toNat + 4 then byteOf value (i - off.toNat) else data i := by
  have hadd : ∀ k, k < 4 → (off + BitVec.ofNat 32 k).toNat = off.toNat + k := by
    intro k hk
    rw [BitVec.toNat_add, BitVec.toNat_ofNat]
    omega
  unfold storeWord
  rw [show (1 : Word) = BitVec.ofNat 32 1 from rfl, hadd 1 (by omega),
    show (2 : Word) = BitVec.ofNat 32 2 from rfl, hadd 2 (by omega),
    show (3 : Word) = BitVec.ofNat 32 3 from rfl, hadd 3 (by omega)]
  simp only [Function.update_apply]
  by_cases hin : off.toNat ≤ i ∧ i < off.toNat + 4
  · obtain ⟨k, rfl⟩ := Nat.exists_eq_add_of_le hin.1
    rw [if_pos hin, Nat.add_sub_cancel_left]
    rcases show k = 0 ∨ k = 1 ∨ k = 2 ∨ k = 3 by omega with rfl | rfl | rfl | rfl <;> simp
  · rw [if_neg hin, if_neg (by omega), if_neg (by omega), if_neg (by omega), if_neg (by omega)]

theorem socMemWriteWord_ok {m : SocMem} {addr value : Word} :
    (socMemWriteWord m addr value).1 = .ok ↔
      addr.toNat % 4 = 0 ∧ m.readonly = false ∧ m.Covers addr 4 := by
  unfold socMemWriteWord
  rw [socMemOffset_eq, ← dvd_four_iff]
  by_cases ha : addr % 4 = 0
  · rw [if_neg (not_not.mpr ha)]
    cases hr : m.readonly with
    | true => exact iff_of_false (by simp) fun h => by simp at h
    | false =>
      by_cases hc : m.Covers addr 4
      · rw [if_pos hc]
        exact iff_of_true rfl ⟨ha, rfl, hc⟩
      · rw [if_neg hc]
        exact iff_of_false (by simp) fun h => hc h.2.2
  · rw [if_pos ha]
    exact iff_of_false (by simp) fun h => ha h.1

theorem socMemWriteWord_err {m : SocMem} {addr value : Word}
    (h : (socMemWriteWord m addr value).1 ≠ .ok) : socMemWriteWord m addr value = (.errBus, m) := by
  unfold socMemWriteWord at h ⊢
  split_ifs at h ⊢
  · rfl
  · rfl
  · cases hoff : socMemOffset m addr 4 with
    | none => rfl
    | some off =>
      rw [hoff] at h
      exact absurd rfl h

/-- A successful word write changes the four bytes at its address. -/
theorem socMemWriteWord_byteAt {m : SocMem} {addr value : Word}
    (h : (socMemWriteWord m addr value).1 = .ok) {a : ℕ} (ha : m.base.toNat ≤ a) :
    (socMemWriteWord m addr value).2.byteAt a =
      if addr.toNat ≤ a ∧ a < addr.toNat + 4 then byteOf value (a - addr.toNat)
      else m.byteAt a := by
  obtain ⟨h4, hr, hc⟩ := socMemWriteWord_ok.mp h
  have hb := hc.2.2.1
  have hfit := hc.2.1
  rw [show ((4 : Word).toNat) = 4 from rfl] at hfit
  unfold socMemWriteWord
  rw [socMemOffset_eq, if_pos hc, if_neg (by rw [not_not, dvd_four_iff]; exact h4),
    if_neg (by simp [hr])]
  dsimp only [SocMem.byteAt]
  rw [storeWord_apply (by rw [hc.offset]; omega), hc.offset]
  split_ifs with h1 h2 h2
  · congr 1
    omega
  · omega
  · omega
  · rfl

/-! ### Blocks -/

theorem socMemReadBytes_eq (m : SocMem) (addr len : Word) (out : Buf Byte) :
    socMemReadBytes m addr len out =
      if m.Covers addr len then
        (.ok, Buf.memcpy out 0 (m.data.from (addr - m.base).toNat) len.toNat)
      else (.errBus, out) := by
  unfold socMemReadBytes
  rw [socMemOffset_eq]
  split_ifs <;> rfl

theorem socMemWriteBytes_eq (m : SocMem) (addr : Word) (payload : Buf Byte) (len : Word) :
    socMemWriteBytes m addr payload len =
      if m.readonly = false ∧ m.Covers addr len then
        (.ok, { m with data := Buf.memcpy m.data (addr - m.base).toNat payload len.toNat })
      else (.errBus, m) := by
  unfold socMemWriteBytes
  rw [socMemOffset_eq]
  cases m.readonly with
  | true => rw [if_pos rfl, if_neg (by simp)]
  | false =>
    by_cases hc : m.Covers addr len
    · rw [if_neg (by simp), if_pos hc, if_pos ⟨rfl, hc⟩]
    · rw [if_neg (by simp), if_neg hc, if_neg fun h => hc h.2]

/-! ### The image loader -/

/-- After loading from word `i` on, the words of the image that fit are in
place and every other byte is as before. -/
theorem socMemLoadFrom_data {n : ℕ} (hn : 4 * n + 4 < 2 ^ 32) :
    ∀ (ws : List Word) (m : SocMem) (i : Word), m.size.toNat = 4 * n → i.toNat ≤ n →
      ∀ k b, b < 4 → (socMemLoadFrom m i ws).2.data (4 * k + b) =
        if i.toNat ≤ k ∧ k < n ∧ k - i.toNat < ws.length then
          byteOf (ws.getD (k - i.toNat) 0) b
        else m.data (4 * k + b) := by
  intro ws
  induction ws with
  | nil =>
    intro m i _ _ k b _
    rw [socMemLoadFrom, if_neg (by simp)]
  | cons w ws ih =>
    intro m i hsize hi k b hb
    have hlen : (w :: ws).length = ws.length + 1 := List.length_cons
    have hoff : (i * 4).toNat = 4 * i.toNat := by
      rw [BitVec.toNat_mul, show ((4 : Word).toNat) = 4 from rfl]
      omega
    have hend : (i * 4 + 4).toNat = 4 * i.toNat + 4 := by
      rw [BitVec.toNat_add, hoff, show ((4 : Word).toNat) = 4 from rfl]
      omega
    have hcut : m.size < i * 4 + 4 ↔ 4 * n < 4 * i.toNat + 4 := by
      rw [BitVec.lt_def, hend, hsize]
    unfold socMemLoadFrom
    dsimp only
    by_cases hfull : m.size < i * 4 + 4
    · -- the image is cut off here
      rw [if_pos hfull, if_neg (by rw [hcut] at hfull; omega)]
    · have hsucc : (i + 1).toNat = i.toNat + 1 := by
        rw [BitVec.toNat_add, show ((1 : Word).toNat) = 1 from rfl]
        omega
      rw [hcut] at hfull
      have hrec := ih { m with data := storeWord m.data (i * 4) w } (i + 1) hsize
        (by omega) k b hb
      rw [if_neg (hcut.not.mpr hfull), hrec, hsucc, hlen]
      dsimp only
      by_cases hk : k = i.toNat
      · -- the word stored in this round
        subst hk
        rw [if_neg (by omega), storeWord_apply (by omega), hoff, if_pos (by omega),
          if_pos (by omega), Nat.sub_self, List.getD_cons_zero]
        congr 1
        omega
      · rw [storeWord_apply (by omega), hoff, if_neg (by omega : ¬ (4 * i.toNat ≤ 4 * k + b ∧ _))]
        by_cases hin : i.toNat + 1 ≤ k ∧ k < n ∧ k - (i.toNat + 1) < ws.length
        · rw [if_pos hin, if_pos (by omega), show k - i.toNat = (k - (i.toNat + 1)) + 1 by omega,
            List.getD_cons_succ]
        · rw [if_neg hin, if_neg (by omega)]

/-- The loader leaves the geometry of the memory alone. -/
theorem socMemLoadFrom_geometry (ws : List Word) (m : SocMem) (i : Word) :
    (socMemLoadFrom m i ws).2.base = m.base ∧ (socMemLoadFrom m i ws).2.size = m.size ∧
      (socMemLoadFrom m i ws).2.readonly = m.readonly := by
  induction ws generalizing m i with
  | nil => exact ⟨rfl, rfl, rfl⟩
  | cons w ws ih =>
    unfold socMemLoadFrom
    dsimp only
    split_ifs
    · exact ⟨rfl, rfl, rfl⟩
    · exact ih _ _

end VlabSoc
