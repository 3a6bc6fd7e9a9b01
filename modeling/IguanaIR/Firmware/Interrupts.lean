import IguanaIR.Firmware.Instructions
import IguanaIR.Transition
import Mathlib.Data.Int.ModEq

/-! # The receive buffer under interrupts

What holds of the receive buffer before every instruction, whatever the timer interrupts put in
between.  The shape of the buffer depends on the next instruction: between the read pointer's move
and the size's update in `get_byte` the oldest byte is still counted, and between `mov [read_ptr]`
and `mov [buf_size]` in `rx_reset` nothing agrees yet.  There both interrupts may be unmasked: the
condition on a run is `KeepsPointer`, and `keepsPointer_of_quiet` says which handlers break it. -/

namespace IguanaIR.Firmware

/-! ### A buffer with its head given -/

theorem toNat_pred {a : Byte} (h : 0 < a.toNat) : (a - 1).toNat = a.toNat - 1 := by
  have h₁ : (1 : Byte).toNat = 1 := rfl
  rw [BitVec.toNat_sub, h₁]
  omega

/-- With the read pointer on cell `x`. -/
def Mcu.readingAt (m : Mcu) (x : ℕ) : Mcu := { m with readPtr := buffer + BitVec.ofNat 8 x }

theorem Mcu.readingAt_head (m : Mcu) {x : ℕ} (hx : x < 150) : (m.readingAt x).head = x := by
  have hsub : buffer + BitVec.ofNat 8 x - buffer = BitVec.ofNat 8 x := by
    rw [BitVec.add_comm, BitVec.add_sub_cancel]
  rw [head, readingAt, hsub, BitVec.toNat_ofNat]
  omega

theorem putByte_readingAt (a : Byte) (m : Mcu) (x : ℕ) :
    putByte a (m.readingAt x) = (putByte a m).readingAt x :=
  putByte_comm (f := fun m => m.readingAt x) (fun _ => rfl) (fun _ => rfl) (fun _ => rfl)
    (fun _ _ _ _ => rfl) a m

/-- The buffer holds `bytes` from cell `x` on, wherever the read pointer is. -/
structure Holds (m : Mcu) (x : ℕ) (bytes : List Byte) : Prop where
  lt : x < 150
  well : (m.readingAt x).RingWell
  received : (m.readingAt x).received = bytes

section holds
variable {m : Mcu} {x : ℕ} {bytes : List Byte}

theorem Holds.length (h : Holds m x bytes) : bytes.length = m.bufSize.toNat := by
  rw [← h.received]
  exact Ring.contents_length _ _ _ _

theorem Holds.size_le (h : Holds m x bytes) : m.bufSize.toNat ≤ 150 := h.well.size_le

theorem Holds.ptr (h : Holds m x bytes) :
    m.ram bufferPtr = buffer + BitVec.ofNat 8 ((x + m.bufSize.toNat) % 150) := by
  have hptr := h.well.ptr
  rw [m.readingAt_head h.lt] at hptr
  exact hptr

/-- With the pointer at its start and the size zero the buffer is empty. -/
theorem Holds.empty (hptr : m.ram bufferPtr = buffer) (hsize : m.bufSize = 0) : Holds m 0 [] := by
  have hhead := m.readingAt_head (show 0 < 150 by omega)
  have hsize' : (m.readingAt 0).bufSize = 0 := hsize
  refine ⟨by omega, ⟨?_, ?_, ?_⟩, ?_⟩
  · rw [hhead]
    omega
  · rw [hhead, hsize']
    exact hptr.trans (BitVec.add_zero _).symm
  · rw [hsize']
    exact Nat.zero_le 150
  · rw [Mcu.received, hsize']
    rfl

/-- Writes behind the buffer and its pointer do not change it. -/
theorem Holds.frame {m' : Mcu} (h : Holds m x bytes)
    (hram : ∀ y : Byte, y.toNat ≤ bufferPtr.toNat → m'.ram y = m.ram y)
    (hsize : m'.bufSize = m.bufSize) : Holds m' x bytes := by
  have hhead := m'.readingAt_head h.lt
  have hhead₀ := m.readingAt_head h.lt
  have hsize' : (m'.readingAt x).bufSize = (m.readingAt x).bufSize := hsize
  refine ⟨h.lt, ⟨?_, ?_, ?_⟩, ?_⟩
  · rw [hhead]
    exact h.lt
  · rw [hhead, hsize']
    exact (hram bufferPtr (Nat.le_refl _)).trans h.ptr
  · rw [hsize']
    exact h.well.size_le
  · rw [← h.received, Mcu.received, Mcu.received, hhead, hhead₀, hsize']
    unfold Ring.contents
    refine List.map_congr_left fun i _ => ?_
    apply hram
    have hb : buffer.toNat = 93 := rfl
    have hp : bufferPtr.toNat = 243 := rfl
    have hlt : (x + i) % 150 < 150 := Nat.mod_lt _ (by omega)
    rw [BitVec.toNat_add, hb, hp, BitVec.toNat_ofNat]
    omega

/-- The first byte is not counted any more. -/
theorem Holds.pop {a : Byte} (h : Holds m x (a :: bytes)) :
    Holds { m with bufSize := m.bufSize - 1 } ((x + 1) % 150) bytes ∧
      a = m.ram (buffer + BitVec.ofNat 8 x) := by
  have hlen := h.length
  have hsize := h.size_le
  rw [List.length_cons] at hlen
  have hdec : (m.bufSize - 1).toNat = bytes.length := by
    rw [toNat_pred (by omega)]
    omega
  have hx : (x + 1) % 150 < 150 := Nat.mod_lt _ (by omega)
  have hhead := Mcu.readingAt_head { m with bufSize := m.bufSize - 1 } hx
  have hreceived := h.received
  rw [Mcu.received, m.readingAt_head h.lt] at hreceived
  have hcontents : a :: bytes = m.cell x ::
      Ring.contents 150 m.cell ((x + 1) % 150) bytes.length := by
    rw [← Ring.contents_pop _ h.lt, hlen]
    exact hreceived.symm
  obtain ⟨hcell, hrest⟩ := List.cons.inj hcontents
  refine ⟨⟨hx, ⟨?_, ?_, ?_⟩, ?_⟩, hcell⟩
  · rw [hhead]
    exact hx
  · rw [hhead]
    change m.ram bufferPtr = buffer + BitVec.ofNat 8 (((x + 1) % 150 + (m.bufSize - 1).toNat) % 150)
    rw [hdec, Nat.mod_add_mod, Nat.add_assoc, Nat.add_comm 1, hlen]
    exact h.ptr
  · change (m.bufSize - 1).toNat ≤ 150
    omega
  · rw [Mcu.received, hhead]
    change Ring.contents 150 m.cell ((x + 1) % 150) (m.bufSize - 1).toNat = bytes
    rw [hdec]
    exact hrest.symm

/-- A byte goes behind the others when there is room, and nowhere when there is none. -/
theorem Holds.putByte (h : Holds m x bytes) (a : Byte) :
    Holds (putByte a m) x (bytes ++ if m.bufSize = BUFFER_SIZE then [] else [a]) := by
  by_cases hfull : m.bufSize = BUFFER_SIZE
  · rw [if_pos hfull, List.append_nil, Firmware.putByte, if_pos hfull]
    exact h.frame (fun _ _ => rfl) rfl
  · have hsize := h.size_le
    have hroom : (m.readingAt x).bufSize.toNat < 150 := by
      have hne : m.bufSize.toNat ≠ BUFFER_SIZE.toNat := fun he => hfull (BitVec.eq_of_toNat_eq he)
      have hcap : BUFFER_SIZE.toNat = 150 := rfl
      change m.bufSize.toNat < 150
      omega
    obtain ⟨hwell, hreceived, -⟩ := putByte_spec h.well hroom a
    rw [putByte_readingAt] at hwell hreceived
    rw [if_neg hfull]
    exact ⟨h.lt, hwell, hreceived.trans (by rw [h.received])⟩

theorem Holds.putBytes : ∀ (added : List Byte) {m : Mcu} {bytes : List Byte}, Holds m x bytes →
    Holds (putBytes added m) x (bytes ++ accepted added m)
  | [], m, bytes, h => by
      rw [accepted, List.append_nil]
      exact h
  | b :: added, m, bytes, h => by
      rw [accepted, ← List.append_assoc]
      exact Holds.putBytes added (h.putByte b)

theorem putByte_readPtr (a : Byte) (m : Mcu) : (putByte a m).readPtr = m.readPtr := by
  unfold putByte
  dsimp only
  split_ifs <;> rfl

theorem putBytes_readPtr : ∀ (added : List Byte) (m : Mcu), (putBytes added m).readPtr = m.readPtr
  | [], _ => rfl
  | b :: added, m => (putBytes_readPtr added _).trans (putByte_readPtr b m)

/-- The variables behind the buffer's pointer are not written. -/
theorem Holds.putByte_ram (h : Holds m x bytes) (a : Byte) {y : Byte}
    (hy : bufferPtr.toNat < y.toNat) : (Firmware.putByte a m).ram y = m.ram y := by
  by_cases hfull : m.bufSize = BUFFER_SIZE
  · rw [Firmware.putByte, if_pos hfull]
  · have hcell : (x + m.bufSize.toNat) % 150 < 150 := Nat.mod_lt _ (by omega)
    obtain ⟨ram, heq, -, hram⟩ := putByte_eq hcell h.ptr hfull a
    have hne : y ≠ bufferPtr := by
      rintro rfl
      exact Nat.lt_irrefl _ hy
    have hcellne : y ≠ buffer + BitVec.ofNat 8 ((x + m.bufSize.toNat) % 150) := by
      rintro rfl
      have hb : buffer.toNat = 93 := rfl
      have hp : bufferPtr.toNat = 243 := rfl
      rw [BitVec.toNat_add, hb, hp, BitVec.toNat_ofNat] at hy
      omega
    rw [heq]
    exact (hram y hne).trans (if_neg hcellne)

theorem Holds.putBytes_ram : ∀ (added : List Byte) {m : Mcu} {bytes : List Byte}, Holds m x bytes →
    ∀ {y : Byte}, bufferPtr.toNat < y.toNat → (Firmware.putBytes added m).ram y = m.ram y
  | [], _, _, _, _, _ => rfl
  | b :: added, _, _, h, _, hy =>
      (Holds.putBytes_ram added (h.putByte b) hy).trans (h.putByte_ram b hy)

theorem Holds.putBytes_size (h : Holds m x bytes) (added : List Byte) :
    m.bufSize.toNat ≤ (Firmware.putBytes added m).bufSize.toNat := by
  have hlen := (h.putBytes added).length
  rw [List.length_append, h.length] at hlen
  omega

end holds

/-! ### The invariant -/

/-- What the buffer looks like before an instruction. -/
inductive Shape where
  | resetting
  | rewound
  | whole
  | taken
  | turned
  | dropped
deriving DecidableEq, Repr

def Pc.shape : Pc → Shape
  | .getByte .cmp | .getByte .jnz | .getByte .mov => .taken
  | .getByte .andF | .getByte .dec => .turned
  | .getByte .orF | .getByte .ret => .dropped
  | .rxReset .andFlags | .rxReset .movReadPtr => .resetting
  | .rxReset .movBufferPtr | .rxReset .movBufSize => .rewound
  | _ => .whole

/-- The bytes that were put and not yet returned are in the buffer, up to the one that `get_byte`
has in A. -/
def Shape.Fits (c : Chip) : Shape → Prop
  | .resetting => True
  | .rewound => c.mcu.readPtr = buffer
  | .whole => ∃ x bytes, Holds c.mcu x bytes ∧ c.put = c.got ++ bytes ∧
      c.mcu.readPtr = buffer + BitVec.ofNat 8 x
  -- the read pointer has moved, and may be behind the last cell
  | .taken => ∃ x bytes, Holds c.mcu x (c.a :: bytes) ∧ c.put = c.got ++ c.a :: bytes ∧
      c.mcu.readPtr = buffer + BitVec.ofNat 8 (x + 1)
  | .turned => ∃ x bytes, Holds c.mcu x (c.a :: bytes) ∧ c.put = c.got ++ c.a :: bytes ∧
      c.mcu.readPtr = buffer + BitVec.ofNat 8 ((x + 1) % 150)
  -- the size has followed
  | .dropped => ∃ x bytes, Holds c.mcu x bytes ∧ c.put = c.got ++ c.a :: bytes ∧
      c.mcu.readPtr = buffer + BitVec.ofNat 8 x

/-- The loop of `write_signal` with `k` bytes done.  In the round for the next one the packet
pointer, X and the size may have moved on already. -/
def Copying (c : Chip) (moved counted taken : ℕ) : Prop :=
  ∃ k < 7, c.mcu.ram tmp1 = controlPkt + BitVec.ofNat 8 (k + moved) ∧
    c.x.toNat + k + counted = 7 ∧ 7 ≤ c.mcu.bufSize.toNat + k + taken

/-- What the routines know of their registers before an instruction. -/
def Facts (c : Chip) : Prop :=
  match c.pc with
  | .writeSignal .jc => c.carry = false → 7 ≤ c.mcu.bufSize.toNat
  | .writeSignal .movX => 7 ≤ c.mcu.bufSize.toNat
  | .writeSignal .movTmp1 => c.x.toNat = 7 ∧ 7 ≤ c.mcu.bufSize.toNat
  | .writeSignal .callGetByte | .getByte .mvi | .getByte .cmp | .getByte .andF | .getByte .dec =>
      Copying c 0 0 0
  | .getByte .jnz =>
      Copying c 0 0 0 ∧ (c.zero = true ↔ c.mcu.readPtr = buffer + BUFFER_SIZE)
  | .getByte .mov => Copying c 0 0 0 ∧ c.mcu.readPtr = buffer + BUFFER_SIZE
  | .getByte .orF | .getByte .ret | .writeSignal .mviByte => Copying c 0 0 1
  | .writeSignal .decX => Copying c 1 0 1
  | .writeSignal .jnz => Copying c 1 1 1 ∧ (c.zero = true ↔ c.x = 0)
  | .writeSignal .movA | .writeSignal .mviLevel => c.mcu.ram tmp1 = controlPkt + BitVec.ofNat 8 7
  | _ => True

structure Chip.Inv (c : Chip) : Prop where
  fits : c.pc.shape.Fits c
  facts : Facts c

/-! ### A handler runs -/

theorem Copying.mono {c : Chip} {m : Mcu} {put : List Byte} {moved counted taken : ℕ}
    (h : Copying c moved counted taken) (htmp : m.ram tmp1 = c.mcu.ram tmp1)
    (hsize : c.mcu.bufSize.toNat ≤ m.bufSize.toNat) :
    Copying { c with mcu := m, put := put } moved counted taken := by
  obtain ⟨k, hlt, hpointer, hx, henough⟩ := h
  refine ⟨k, hlt, htmp.trans hpointer, hx, ?_⟩
  dsimp only
  omega

/-- A buffer that grows takes no knowledge away. -/
theorem Facts.mono {c : Chip} {m : Mcu} {put : List Byte} (h : Facts c)
    (hread : m.readPtr = c.mcu.readPtr) (htmp : m.ram tmp1 = c.mcu.ram tmp1)
    (hsize : c.mcu.bufSize.toNat ≤ m.bufSize.toNat) : Facts { c with mcu := m, put := put } := by
  obtain ⟨pc, caller, a, x, zero, carry, gie, twrap, m₀, put₀, got⟩ := c
  cases pc with
  | idle => trivial
  | body p => trivial
  | rxReset p => trivial
  | getByte p =>
      cases p with
      | mvi | cmp | andF | dec | orF | ret => exact Copying.mono h htmp hsize
      | jnz =>
          refine ⟨Copying.mono h.1 htmp hsize, h.2.trans ?_⟩
          rw [hread]
      | mov => exact ⟨Copying.mono h.1 htmp hsize, hread.trans h.2⟩
  | writeSignal p =>
      cases p with
      | cmp | movSize | movPacket | lcallPacket | ret => trivial
      | jc => exact fun hcarry => (h hcarry).trans hsize
      | movX => exact Nat.le_trans h hsize
      | movTmp1 => exact ⟨h.1, h.2.trans hsize⟩
      | callGetByte | mviByte | decX => exact Copying.mono h htmp hsize
      | jnz => exact ⟨Copying.mono h.1 htmp hsize, h.2⟩
      | movA | mviLevel => exact htmp.trans h

theorem Shape.Fits.interrupt {c : Chip} {s : Shape} (h : s.Fits c) (added : List Byte) :
    s.Fits { c with mcu := putBytes added c.mcu, put := c.put ++ accepted added c.mcu } := by
  have hread := putBytes_readPtr added c.mcu
  have hadd {bytes : List Byte} (hput : c.put = c.got ++ bytes) :
      c.put ++ accepted added c.mcu = c.got ++ (bytes ++ accepted added c.mcu) := by
    rw [hput, List.append_assoc]
  cases s with
  | resetting => trivial
  | rewound => exact hread.trans h
  | whole | taken | turned =>
      obtain ⟨x, bytes, hholds, hput, hptr⟩ := h
      exact ⟨x, _, hholds.putBytes added, hadd hput, hread.trans hptr⟩
  | dropped =>
      obtain ⟨x, bytes, hholds, hput, hptr⟩ := h
      exact ⟨x, _, hholds.putBytes added, hadd hput, hread.trans hptr⟩

/-- Only `rx_reset` leaves the buffer in disorder. -/
theorem Pc.reset_of_shape {pc : Pc} (h : pc.shape = .resetting ∨ pc.shape = .rewound) :
    ∃ p, pc = .rxReset p := by
  cases pc with
  | rxReset p => exact ⟨p, rfl⟩
  | idle | body p | writeSignal p => simp [shape] at h
  | getByte p => cases p <;> simp [shape] at h

theorem Chip.Inv.holds {c : Chip} (h : c.Inv)
    (hpc : ¬(c.pc.shape = .resetting ∨ c.pc.shape = .rewound)) :
    ∃ x bytes, Holds c.mcu x bytes := by
  have hfits := h.fits
  cases hs : c.pc.shape with
  | resetting => exact absurd (.inl hs) hpc
  | rewound => exact absurd (.inr hs) hpc
  | whole | taken | turned | dropped =>
      rw [hs] at hfits
      obtain ⟨x, bytes, hholds, -⟩ := hfits
      exact ⟨x, _, hholds⟩

/-- **A handler** keeps the invariant, before any instruction. -/
theorem interrupt_inv {c : Chip} (h : c.Inv) (added : List Byte) :
    Chip.Inv { c with mcu := putBytes added c.mcu, put := c.put ++ accepted added c.mcu } := by
  refine ⟨h.fits.interrupt added, ?_⟩
  by_cases hpc : c.pc.shape = .resetting ∨ c.pc.shape = .rewound
  · obtain ⟨p, hp⟩ := Pc.reset_of_shape hpc
    unfold Facts
    rw [hp]
    trivial
  · obtain ⟨x, bytes, hholds⟩ := h.holds hpc
    exact h.facts.mono (putBytes_readPtr added c.mcu) (hholds.putBytes_ram added (by decide))
      (hholds.putBytes_size added)

/-! ### An instruction is executed -/

/-- Nothing that belongs to the receive buffer is different in `c'`. -/
structure Framed (c c' : Chip) : Prop where
  ram : ∀ y : Byte, y.toNat ≤ bufferPtr.toNat → c'.mcu.ram y = c.mcu.ram y
  size : c'.mcu.bufSize = c.mcu.bufSize
  read : c'.mcu.readPtr = c.mcu.readPtr
  put : c'.put = c.put
  got : c'.got = c.got

theorem whole_framed {c c' : Chip} (hfits : Shape.whole.Fits c) (h : Framed c c') :
    Shape.whole.Fits c' := by
  obtain ⟨x, bytes, hholds, hput, hread⟩ := hfits
  exact ⟨x, bytes, hholds.frame h.ram h.size, by rw [h.put, h.got, hput], h.read.trans hread⟩

/-- A write above the buffer's pointer. -/
theorem write_ram_above (m : Mcu) {p y : Byte} (v : Byte) (hp : bufferPtr.toNat < p.toNat)
    (hy : y.toNat ≤ bufferPtr.toNat) : (m.write p v).ram y = m.ram y := by
  apply Mcu.write_ne
  rintro rfl
  omega

theorem mvi_ram_above (m : Mcu) {p y : Byte} (a : Byte) (hp : bufferPtr.toNat < p.toNat)
    (hto : bufferPtr.toNat < (m.ram p).toNat) (hy : y.toNat ≤ bufferPtr.toNat) :
    (m.mvi p a).ram y = m.ram y := by
  rw [Mcu.mvi, write_ram_above _ _ hp hy, write_ram_above _ _ hto hy]

/-- The loop's packet pointer is in the control packet. -/
theorem packetPointer_above {k : ℕ} (hk : k ≤ 7) :
    bufferPtr.toNat < (controlPkt + BitVec.ofNat 8 k).toNat := by
  have hp : bufferPtr.toNat = 243 := rfl
  have hc : controlPkt.toNat = 248 := rfl
  rw [BitVec.toNat_add, hp, hc, BitVec.toNat_ofNat]
  omega

/-- Nothing is asked of the registers before these instructions, and the buffer is whole. -/
structure Pc.Plain (pc : Pc) : Prop where
  shape : pc.shape = .whole
  facts : ∀ c : Chip, c.pc = pc → Facts c

theorem Pc.Plain.inv {c : Chip} (h : c.pc.Plain) (hfits : Shape.whole.Fits c) : c.Inv := by
  refine ⟨?_, h.facts c rfl⟩
  rw [h.shape]
  exact hfits

theorem plain_idle : Pc.idle.Plain := by
  refine ⟨rfl, ?_⟩
  intro c hpc
  unfold Facts
  rw [hpc]
  trivial

theorem plain_body (p : Body) : (Pc.body p).Plain := by
  refine ⟨rfl, ?_⟩
  intro c hpc
  unfold Facts
  rw [hpc]
  trivial

theorem plain_wsDone : (Pc.writeSignal .ret).Plain := by
  refine ⟨rfl, ?_⟩
  intro c hpc
  unfold Facts
  rw [hpc]
  trivial

theorem lcallWritePacket_framed (next : Pc) (c : Chip) : Framed c (lcallWritePacket next c) := by
  have htmp₁ : bufferPtr.toNat < tmp1.toNat := by decide
  have htmp₂ : bufferPtr.toNat < tmp2.toNat := by decide
  have hflags : bufferPtr.toNat < loaderFlags.toNat := by decide
  unfold lcallWritePacket writePacket
  dsimp only
  split_ifs
  · refine ⟨?_, rfl, rfl, rfl, rfl⟩
    intro y hy
    refine (write_ram_above _ _ hflags hy).trans ?_
    rw [write_ram_above _ _ htmp₂ hy, write_ram_above _ _ htmp₁ hy]
  · refine ⟨?_, rfl, rfl, rfl, rfl⟩
    intro y hy
    refine (write_ram_above _ _ htmp₂ hy).trans ?_
    rw [write_ram_above _ _ htmp₁ hy]

/-- The loader comes back, or goes on in the main loop. -/
theorem lcallWritePacket_pc (next : Pc) (c : Chip) :
    (lcallWritePacket next c).pc = next ∨ (lcallWritePacket next c).pc = .idle := by
  unfold lcallWritePacket
  split
  · exact .inl rfl
  · exact .inr rfl

theorem lcallWritePacket_inv {next : Pc} {c : Chip} (hnext : next.Plain)
    (h : Shape.whole.Fits c) : (lcallWritePacket next c).Inv := by
  apply Pc.Plain.inv
  · obtain hpc | hpc := lcallWritePacket_pc next c
    · rw [hpc]
      exact hnext
    · rw [hpc]
      exact plain_idle
  · exact whole_framed h (lcallWritePacket_framed next c)

theorem lcallWriteControl_inv {next : Pc} {c : Chip} (hnext : next.Plain)
    (h : Shape.whole.Fits c) : (lcallWriteControl next c).Inv := by
  apply lcallWritePacket_inv hnext
  refine whole_framed h ⟨?_, rfl, rfl, rfl, rfl⟩
  intro y hy
  refine (write_ram_above _ _ (by decide) hy).trans ?_
  exact (write_ram_above _ _ (by decide) hy).trans (write_ram_above _ _ (by decide) hy)

theorem getByte_inv {c : Chip} {p : GetByte} (hpc : c.pc = .getByte p) (h : c.Inv) :
    (getByte c p).Inv := by
  obtain ⟨pc, caller, a, x, zero, carry, gie, twrap, m, put, got⟩ := c
  obtain rfl : pc = .getByte p := hpc
  obtain ⟨hfits, hfacts⟩ := h
  cases p with
  | mvi =>
      obtain ⟨y, bytes, hholds, hput, hread⟩ := hfits
      obtain ⟨k, hlt, hpointer, hx, henough⟩ := hfacts
      dsimp only at henough hread
      -- there is a byte, since the loop only asks for what it has found
      have hlen := hholds.length
      dsimp only at hlen
      obtain ⟨b, bytes, rfl⟩ := List.exists_cons_of_length_pos (show 0 < bytes.length by omega)
      obtain rfl : b = m.ram m.readPtr := by
        rw [hread]
        exact hholds.pop.2
      refine ⟨⟨y, bytes, hholds.frame (fun _ _ => rfl) rfl, hput, ?_⟩, k, hlt, hpointer, hx,
        henough⟩
      change m.readPtr + 1 = _
      rw [hread, BitVec.add_assoc, BitVec.ofNat_add]
      rfl
  | cmp => exact ⟨hfits, hfacts, decide_eq_true_iff⟩
  | jnz =>
      obtain ⟨hcopy, hzero⟩ := hfacts
      cases zero with
      | true => exact ⟨hfits, hcopy, hzero.mp rfl⟩
      | false =>
          obtain ⟨y, bytes, hholds, hput, hread⟩ := hfits
          refine ⟨⟨y, bytes, hholds, hput, hread.trans ?_⟩, hcopy⟩
          have hne : y + 1 ≠ 150 := by
            intro hend
            have hend' := hread
            rw [hend] at hend'
            exact Bool.false_ne_true (hzero.mpr hend')
          have hlt := hholds.lt
          rw [Nat.mod_eq_of_lt (by omega)]
  | mov =>
      obtain ⟨hcopy, hend⟩ := hfacts
      obtain ⟨y, bytes, hholds, hput, hread⟩ := hfits
      have hlt := hholds.lt
      have hlast : y + 1 = 150 := by
        have heq := hread.symm.trans hend
        rw [BitVec.add_right_inj, ← BitVec.toNat_inj, BitVec.toNat_ofNat] at heq
        have hcap : BUFFER_SIZE.toNat = 150 := rfl
        omega
      refine ⟨⟨y, bytes, hholds.frame (fun _ _ => rfl) rfl, hput, ?_⟩, hcopy⟩
      rw [hlast]
      rfl
  | andF => exact ⟨hfits, hfacts⟩
  | dec =>
      obtain ⟨y, bytes, hholds, hput, hread⟩ := hfits
      obtain ⟨k, hlt, hpointer, hx, henough⟩ := hfacts
      have hlen := hholds.length
      rw [List.length_cons] at hlen
      have hpop := hholds.pop.1
      refine ⟨⟨_, bytes, hpop, hput, hread⟩, k, hlt, hpointer, hx, ?_⟩
      have hlen' := hpop.length
      change 7 ≤ (m.bufSize - 1).toNat + k + 1
      dsimp only at henough hlen hlen'
      omega
  | orF => exact ⟨hfits, hfacts⟩
  | ret =>
      obtain ⟨y, bytes, hholds, hput, hread⟩ := hfits
      refine ⟨⟨y, bytes, hholds, ?_, hread⟩, hfacts⟩
      change put = (got ++ [a]) ++ bytes
      rw [List.append_assoc]
      exact hput

theorem txPinsOff_bufSize (m : Mcu) : (txPinsOff m).bufSize = m.bufSize := by
  unfold txPinsOff
  split_ifs <;> rfl

theorem txPinsOff_readPtr (m : Mcu) : (txPinsOff m).readPtr = m.readPtr := by
  unfold txPinsOff
  split_ifs <;> rfl

/-- `rx_reset` leaves an empty buffer, if its pointer is still at the start when the size is
cleared. -/
theorem rxResetAt_inv {c : Chip} {p : RxReset} (hpc : c.pc = .rxReset p) (h : c.Inv)
    (hptr : p = .movBufSize → c.mcu.ram bufferPtr = buffer) : (rxResetAt c p).Inv := by
  obtain ⟨pc, caller, a, x, zero, carry, gie, twrap, m, put, got⟩ := c
  obtain rfl : pc = .rxReset p := hpc
  obtain ⟨hfits, -⟩ := h
  cases p with
  | andFlags => exact ⟨trivial, trivial⟩
  | movReadPtr => exact ⟨rfl, trivial⟩
  | movBufferPtr => exact ⟨hfits, trivial⟩
  | movBufSize =>
      have hread : m.readPtr = buffer := hfits
      refine ⟨⟨0, [], .empty (hptr rfl) rfl, rfl, ?_⟩, trivial⟩
      rw [BitVec.add_zero]
      exact hread
  | andMsk1 | orMsk1 =>
      exact ⟨whole_framed hfits ⟨fun _ _ => rfl, rfl, rfl, rfl, rfl⟩, trivial⟩
  | callPinsOff =>
      refine ⟨whole_framed hfits ⟨?_, ?_, ?_, rfl, rfl⟩, trivial⟩
      · intro y _
        exact congrFun (txPinsOff_ram m) y
      · exact txPinsOff_bufSize m
      · exact txPinsOff_readPtr m
  | jz =>
      cases zero with
      | true => exact ⟨hfits, trivial⟩
      | false => exact ⟨hfits, trivial⟩
  | jnz =>
      cases zero with
      | true => exact ⟨hfits, trivial⟩
      | false => exact ⟨hfits, trivial⟩
  | ret =>
      cases caller with
      | request => exact ⟨hfits, trivial⟩
      | overflow => exact ⟨hfits, trivial⟩
  | callDisable | andMsk2 | retDisable | movA | andOn | movTimerLow | movTimerHigh | movTcapInts
  | andClr1 | andClr2 | movFlags | andRepeater | orMsk2 => exact ⟨hfits, trivial⟩

theorem writeSignal_inv {c : Chip} {p : WriteSignal} (hpc : c.pc = .writeSignal p) (h : c.Inv) :
    (writeSignal c p).Inv := by
  obtain ⟨pc, caller, a, x, zero, carry, gie, twrap, m, put, got⟩ := c
  obtain rfl : pc = .writeSignal p := hpc
  obtain ⟨hfits, hfacts⟩ := h
  have htmp : bufferPtr.toNat < tmp1.toNat := by decide
  cases p with
  | cmp =>
      refine ⟨hfits, ?_⟩
      intro hcarry
      have hge := of_decide_eq_false hcarry
      have hseven : (PACKET_SIZE - 1).toNat = 7 := rfl
      rw [BitVec.lt_def, hseven] at hge
      exact Nat.le_of_not_lt hge
  | jc =>
      cases carry with
      | true => exact ⟨hfits, trivial⟩
      | false => exact ⟨hfits, hfacts rfl⟩
  | movX => exact ⟨hfits, rfl, hfacts⟩
  | movTmp1 =>
      obtain ⟨hx, hsize⟩ := hfacts
      refine ⟨whole_framed hfits ⟨?_, rfl, rfl, rfl, rfl⟩, 0, by omega, Mcu.write_same _ _ _, ?_,
        hsize⟩
      · intro y hy
        exact write_ram_above m _ htmp hy
      · exact hx
  | callGetByte => exact ⟨hfits, hfacts⟩
  | mviByte =>
      obtain ⟨k, hlt, hpointer, hx, henough⟩ := hfacts
      have hto : bufferPtr.toNat < (m.ram tmp1).toNat := by
        rw [hpointer]
        exact packetPointer_above (by omega)
      refine ⟨whole_framed hfits ⟨?_, rfl, rfl, rfl, rfl⟩, k, hlt, ?_, hx, henough⟩
      · intro y hy
        exact mvi_ram_above m a htmp hto hy
      · refine (Mcu.write_same _ _ _).trans ?_
        rw [Nat.add_zero] at hpointer
        rw [hpointer, BitVec.add_assoc, BitVec.ofNat_add]
        rfl
  | decX =>
      obtain ⟨k, hlt, hpointer, hx, henough⟩ := hfacts
      refine ⟨hfits, ⟨k, hlt, hpointer, ?_, henough⟩, decide_eq_true_iff⟩
      dsimp only at hx
      change (x - 1).toNat + k + 1 = 7
      rw [toNat_pred (by omega)]
      omega
  | jnz =>
      obtain ⟨⟨k, hlt, hpointer, hx, henough⟩, hzero⟩ := hfacts
      dsimp only at hx henough hzero
      cases zero with
      | true =>
          -- the last round
          obtain rfl := hzero.mp rfl
          obtain rfl : k = 6 := by
            change 0 + k + 1 = 7 at hx
            omega
          exact ⟨hfits, hpointer⟩
      | false =>
          have hne : x.toNat ≠ 0 := by
            intro h₀
            exact Bool.false_ne_true (hzero.mpr (BitVec.eq_of_toNat_eq h₀))
          refine ⟨hfits, k + 1, by omega, hpointer, ?_, ?_⟩
          · change x.toNat + (k + 1) + 0 = 7
            omega
          · change 7 ≤ m.bufSize.toNat + (k + 1) + 0
            omega
  | movA => exact ⟨hfits, hfacts⟩
  | mviLevel =>
      have hto : bufferPtr.toNat < (m.ram tmp1).toNat := by
        rw [show m.ram tmp1 = _ from hfacts]
        exact packetPointer_above (by omega)
      refine ⟨whole_framed hfits ⟨?_, rfl, rfl, rfl, rfl⟩, trivial⟩
      intro y hy
      exact mvi_ram_above m a htmp hto hy
  | lcallPacket => exact lcallWritePacket_inv plain_wsDone hfits
  | movSize | movPacket => exact ⟨hfits, trivial⟩
  | ret => exact ⟨hfits, trivial⟩

theorem body_inv {c : Chip} {p : Body} (hpc : c.pc = .body p) (h : c.Inv) : (body c p).Inv := by
  obtain ⟨pc, caller, a, x, zero, carry, gie, twrap, m, put, got⟩ := c
  obtain rfl : pc = .body p := hpc
  obtain ⟨hfits, -⟩ := h
  cases p with
  | orOn | andOn => exact ⟨whole_framed hfits ⟨fun _ _ => rfl, rfl, rfl, rfl, rfl⟩, trivial⟩
  | lcallOn | lcallOff | lcallReset => exact ⟨trivial, trivial⟩
  | lcallAck => exact lcallWriteControl_inv (plain_body _) hfits
  | lcallControl => exact lcallWriteControl_inv (plain_body _) hfits
  | movCode =>
      refine ⟨whole_framed hfits ⟨?_, rfl, rfl, rfl, rfl⟩, trivial⟩
      intro y hy
      exact write_ram_above m _ (by decide) hy
  | jz =>
      cases zero with
      | true => exact ⟨hfits, trivial⟩
      | false => exact ⟨hfits, trivial⟩
  | movAck | retAck | movA | andOverflow | movX | lcallSignal | ret => exact ⟨hfits, trivial⟩

/-! ### Runs -/

/-- `mov [buf_size], 0` of `rx_reset` finds the pointer of `put_byte` where the instruction before
it left it. -/
def KeepsPointer (c : Chip) : ChipEvent → Prop
  | .instruction => c.pc = .rxReset .movBufSize → c.mcu.ram bufferPtr = buffer
  | _ => True

theorem Chip.Starts.inv {c : Chip} (h : c.Starts) : c.Inv := by
  refine ⟨?_, ?_⟩
  · rw [h.pc]
    trivial
  · unfold Facts
    rw [h.pc]
    trivial

theorem Operation.entry_plain (op : Operation) : op.entry.Plain := by
  cases op with
  | recvOn => exact plain_body _
  | recvOff => exact plain_body _
  | loop => exact plain_body _

theorem chipStep_inv {c c' : Chip} {e : ChipEvent} {o : Unit} (h : c.Inv) (hg : KeepsPointer c e)
    (hstep : chipStep c e = some (c', o)) : c'.Inv := by
  cases e with
  | instruction =>
      obtain ⟨c₁, hc₁, heq⟩ := Option.map_eq_some_iff.mp hstep
      obtain ⟨rfl, -⟩ := Prod.mk.inj heq
      unfold instruction at hc₁
      cases hpc : c.pc with
      | idle => simp [hpc] at hc₁
      | body p =>
          simp only [hpc, Option.some.injEq] at hc₁
          rw [← hc₁]
          exact body_inv hpc h
      | writeSignal p =>
          simp only [hpc, Option.some.injEq] at hc₁
          rw [← hc₁]
          exact writeSignal_inv hpc h
      | getByte p =>
          simp only [hpc, Option.some.injEq] at hc₁
          rw [← hc₁]
          exact getByte_inv hpc h
      | rxReset p =>
          simp only [hpc, Option.some.injEq] at hc₁
          rw [← hc₁]
          refine rxResetAt_inv hpc h ?_
          rintro rfl
          exact hg hpc
  | call op =>
      simp only [chipStep, Option.ite_none_right_eq_some, Option.some.injEq, Prod.mk.injEq] at hstep
      obtain ⟨hidle, rfl, -⟩ := hstep
      have hfits := h.fits
      rw [hidle] at hfits
      exact Pc.Plain.inv op.entry_plain hfits
  | interrupt i added =>
      simp only [chipStep, Option.ite_none_right_eq_some, Option.some.injEq, Prod.mk.injEq] at hstep
      obtain ⟨-, rfl, -⟩ := hstep
      exact interrupt_inv h added

/-! ### When the pointer is kept

Only a handler can move the pointer in between, and only by putting a byte. -/

/-- No handler finds room for a byte right before `mov [buf_size], 0`. -/
def Quiet (c : Chip) : ChipEvent → Prop
  | .interrupt _ bytes => c.pc = .rxReset .movBufSize → accepted bytes c.mcu = []
  | _ => True

theorem putBytes_full : ∀ (bytes : List Byte) (m : Mcu), accepted bytes m = [] →
    (putBytes bytes m).ram = m.ram
  | [], _, _ => rfl
  | b :: bytes, m, h => by
      obtain ⟨hfull, hrest⟩ := List.append_eq_nil_iff.mp h
      have hsize : m.bufSize = BUFFER_SIZE := by
        by_contra hne
        rw [if_neg hne] at hfull
        exact List.cons_ne_nil b [] hfull
      rw [putBytes, putBytes_full bytes _ hrest, putByte, if_pos hsize]

/-- `mov [buffer_ptr], buffer` is the only way to `mov [buf_size], 0`. -/
theorem movBufSize_entered {c c' : Chip} (h : instruction c = some c')
    (hpc : c'.pc = .rxReset .movBufSize) : c'.mcu.ram bufferPtr = buffer := by
  obtain ⟨pc, caller, a, x, zero, carry, gie, twrap, m, put, got⟩ := c
  cases pc with
  | idle => exact absurd h nofun
  | body p =>
      obtain rfl := Option.some.inj h
      cases p with
      | lcallAck | lcallControl =>
          obtain hpc' | hpc' := lcallWritePacket_pc _ _ <;> exact absurd (hpc'.symm.trans hpc) nofun
      | _ => cases hpc
  | writeSignal p =>
      obtain rfl := Option.some.inj h
      cases p with
      | lcallPacket =>
          obtain hpc' | hpc' := lcallWritePacket_pc _ _ <;> exact absurd (hpc'.symm.trans hpc) nofun
      | _ => cases hpc
  | getByte p =>
      obtain rfl := Option.some.inj h
      cases p <;> cases hpc
  | rxReset p =>
      obtain rfl := Option.some.inj h
      cases p with
      | movBufferPtr => exact Mcu.write_same _ _ _
      | jz | jnz => cases zero <;> cases hpc
      | ret => cases caller <;> cases hpc
      | _ => cases hpc

theorem quiet_step {c c' : Chip} {e : ChipEvent} {o : Unit}
    (h : c.pc = .rxReset .movBufSize → c.mcu.ram bufferPtr = buffer) (hq : Quiet c e)
    (hstep : chipStep c e = some (c', o)) :
    c'.pc = .rxReset .movBufSize → c'.mcu.ram bufferPtr = buffer := by
  intro hpc
  cases e with
  | instruction =>
      obtain ⟨c₁, hc₁, heq⟩ := Option.map_eq_some_iff.mp hstep
      obtain ⟨rfl, -⟩ := Prod.mk.inj heq
      exact movBufSize_entered hc₁ hpc
  | call op =>
      simp only [chipStep, Option.ite_none_right_eq_some, Option.some.injEq, Prod.mk.injEq] at hstep
      obtain ⟨-, rfl, -⟩ := hstep
      cases op <;> cases hpc
  | interrupt i bytes =>
      simp only [chipStep, Option.ite_none_right_eq_some, Option.some.injEq, Prod.mk.injEq] at hstep
      obtain ⟨-, rfl, -⟩ := hstep
      exact (congrFun (putBytes_full bytes c.mcu (hq hpc)) bufferPtr).trans (h hpc)

/-- **The pointer is kept** in every run in which no handler puts a byte between the two
instructions that set the pointer and the size. -/
theorem keepsPointer_of_quiet : ∀ (es : List ChipEvent) {c : Chip},
    (c.pc = .rxReset .movBufSize → c.mcu.ram bufferPtr = buffer) →
      Transition.Guarded chipStep Quiet c es → Transition.Guarded chipStep KeepsPointer c es
  | [], _, _, _ => trivial
  | e :: es, c, h, hq => by
      refine ⟨?_, ?_⟩
      · cases e with
        | instruction => exact h
        | call op => trivial
        | interrupt i bytes => trivial
      · intro r hr
        exact keepsPointer_of_quiet es (quiet_step h hq.1 hr) (hq.2 r hr)

/-- What the pointers, the size and the bytes have to do with each other between operations. -/
structure Chip.InOrder (c : Chip) : Prop where
  size_le : c.mcu.bufSize.toNat ≤ 150
  size : (c.mcu.bufSize.toNat : ℤ) = c.put.length - c.got.length
  apart : ((c.mcu.ram bufferPtr).toNat : ℤ) - c.mcu.readPtr.toNat ≡ c.mcu.bufSize.toNat [ZMOD 150]
  order : c.put = c.got ++ c.mcu.received

theorem Chip.Inv.inOrder {c : Chip} (h : c.Inv) (hidle : c.pc = .idle) : c.InOrder := by
  have hfits := h.fits
  rw [hidle] at hfits
  obtain ⟨x, bytes, hholds, hput, hread⟩ := hfits
  have hreceived : c.mcu.received = bytes := by
    rw [← hholds.received, Mcu.readingAt, ← hread]
  have hlen := hholds.length
  refine ⟨hholds.size_le, ?_, ?_, ?_⟩
  · rw [hput, List.length_append, ← hlen]
    omega
  · have hlt := hholds.lt
    have hb : buffer.toNat = 93 := rfl
    rw [hholds.ptr, hread, BitVec.toNat_add, BitVec.toNat_add, hb, BitVec.toNat_ofNat,
      BitVec.toNat_ofNat, Int.ModEq]
    omega
  · rw [hreceived, hput]

/-- **The receive buffer under interrupts.**  In a run from the first `rx_reset` on, with handlers
between any two instructions, what was put and what was got since the last reset agree with the
buffer whenever the main loop is between operations, as long as no reset clears the size behind a
byte that a handler has just put. -/
theorem interrupted_inOrder {c₀ c : Chip} {es : List ChipEvent} {os : List Unit}
    (h₀ : c₀.Starts) (hg : Transition.Guarded chipStep KeepsPointer c₀ es)
    (hrun : Transition.run chipStep c₀ es = some (c, os)) (hidle : c.pc = .idle) : c.InOrder := by
  have hinv := Transition.run_invariant (fun s e s' o hs hG hstep => chipStep_inv hs hG hstep)
    es c₀ c os h₀.inv hg hrun
  exact hinv.inOrder hidle

instance decidableKeepsPointer : DecidableRel KeepsPointer
  | _, .instruction => inferInstanceAs (Decidable (_ → _))
  | _, .call _ => isTrue trivial
  | _, .interrupt _ _ => isTrue trivial

/-- The receiver is to be on, and the interrupts are still masked. -/
def receiverOn : Chip where
  pc := .rxReset .andFlags
  caller := .request
  a := 0
  x := 0
  zero := false
  carry := false
  gie := true
  twrap := false
  mcu := { Mcu.cleared 0 with rxFlags := RX_ON_FLAG }
  put := []
  got := []

/-- A capture between two operations, and a wrap in the first `get_byte` of the packet. -/
def captureAndWrap : List ChipEvent :=
  List.replicate 26 .instruction ++ .interrupt .tcap [0xFF, 0xFF, 0xFF, 0xFF, 0xFF, 0xFF, 0xFF, 0x85]
    :: .call .loop :: List.replicate 10 .instruction ++ .interrupt .twrap [0x80]
    :: List.replicate 82 .instruction

theorem interrupted_inOrder_wrap : ∃ c : Chip, c.InOrder ∧ c.got.length = 7 ∧ c.put.length = 9 := by
  have hend : (Transition.run chipStep receiverOn captureAndWrap).map
      (fun r => (r.1.pc, r.1.got.length, r.1.put.length)) = some (.idle, 7, 9) := by decide +kernel
  obtain ⟨⟨c, os⟩, hrun, heq⟩ := Option.map_eq_some_iff.mp hend
  obtain ⟨hidle, hgot, hput⟩ : c.pc = .idle ∧ c.got.length = 7 ∧ c.put.length = 9 := by
    simpa using heq
  exact ⟨c, interrupted_inOrder ⟨rfl, rfl, rfl⟩ (by decide +kernel) hrun hidle, hgot, hput⟩

/-- The receiver is turned off, and a capture comes in right before the size is cleared. -/
def lateCapture : List ChipEvent :=
  List.replicate 26 .instruction ++ .call .recvOff :: List.replicate 5 .instruction
    ++ .interrupt .tcap [0x05] :: List.replicate 13 .instruction

/-- The buffer is empty then, but its pointers are one byte apart. -/
theorem lateCapture_apart : ¬ ∀ (c₀ c : Chip) (es : List ChipEvent) (os : List Unit),
    c₀.Starts → Transition.run chipStep c₀ es = some (c, os) → c.pc = .idle → c.InOrder := by
  intro h
  have hend : (Transition.run chipStep receiverOn lateCapture).map
      (fun r => (r.1.pc, r.1.mcu.bufSize, r.1.mcu.ram bufferPtr, r.1.mcu.readPtr)) =
        some (.idle, 0, buffer + 1, buffer) := by decide +kernel
  obtain ⟨⟨c, os⟩, hrun, heq⟩ := Option.map_eq_some_iff.mp hend
  obtain ⟨hidle, hsize, hptr, hread⟩ : c.pc = .idle ∧ c.mcu.bufSize = 0 ∧
      c.mcu.ram bufferPtr = buffer + 1 ∧ c.mcu.readPtr = buffer := by
    simpa using heq
  have hapart := (h receiverOn c lateCapture os ⟨rfl, rfl, rfl⟩ hrun hidle).apart
  rw [hsize, hptr, hread] at hapart
  exact absurd hapart (by decide)

end IguanaIR.Firmware
