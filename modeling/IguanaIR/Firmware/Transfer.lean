import IguanaIR.Firmware.Pc
import IguanaIR.Chunks
import Mathlib.Data.List.GetD

/-! # Reading signal data

What `read_buffer` takes off the OUT endpoint: as many packets as it needs for the bytes that it
is asked for, or for one byte more than the buffer has when it is asked for too many.  The
buffer, its pointer and the two counters are all that it changes in RAM. -/

namespace IguanaIR.Firmware

/-! ### What stays as it is -/

/-- Only the buffer, its pointer and the first two temporaries may have changed. -/
def KeepsRest (m m' : Mcu) : Prop :=
  ∃ ram, m' = { m with ram := ram } ∧ ∀ x, x = loaderFlags ∨ tmp3 ≤ x → ram x = m.ram x

theorem KeepsRest.halted_iff {m m' : Mcu} (h : KeepsRest m m') : halted m' ↔ halted m := by
  obtain ⟨ram, rfl, hram⟩ := h
  change ram loaderFlags &&& FLAG_HALTED ≠ 0 ↔ _
  rw [hram loaderFlags (.inl rfl)]
  rfl

theorem tmp3_le {x : Byte} (hx : tmp3 ≤ x) : loaderFlags < x ∧ x ≠ tmp1 ∧ x ≠ tmp2 := by
  refine ⟨?_, ?_, ?_⟩
  · have htmp3 : tmp3.toNat = 247 := rfl
    have hflags : loaderFlags.toNat = 244 := rfl
    rw [BitVec.le_def] at hx
    rw [BitVec.lt_def]
    omega
  · rintro rfl
    exact absurd hx (by decide)
  · rintro rfl
    exact absurd hx (by decide)

/-- The same of what is below the buffer, too. -/
def KeepsOutside (m m' : Mcu) : Prop :=
  ∃ ram, m' = { m with ram := ram } ∧
    ∀ x, x < buffer ∨ bufferPtr < x → x ≠ tmp1 → x ≠ tmp2 → ram x = m.ram x

namespace KeepsOutside

theorem refl (m : Mcu) : KeepsOutside m m := ⟨m.ram, rfl, fun _ _ _ _ => rfl⟩

theorem trans {m₁ m₂ m₃ : Mcu} (h : KeepsOutside m₁ m₂) (h' : KeepsOutside m₂ m₃) :
    KeepsOutside m₁ m₃ := by
  obtain ⟨ram, rfl, hram⟩ := h
  obtain ⟨ram', rfl, hram'⟩ := h'
  exact ⟨ram', rfl, fun x hx h₁ h₂ => (hram' x hx h₁ h₂).trans (hram x hx h₁ h₂)⟩

/-- A byte of the buffer or its pointer. -/
theorem write {m : Mcu} {a : Byte} (b : Byte) (h : buffer ≤ a) (h' : a ≤ bufferPtr) :
    KeepsOutside m (m.write a b) := by
  refine ⟨_, rfl, fun x hx _ _ => if_neg ?_⟩
  rintro rfl
  rcases hx with hx | hx
  · exact absurd h (BitVec.not_le.mpr hx)
  · exact absurd h' (BitVec.not_le.mpr hx)

theorem write_tmp1 (m : Mcu) (b : Byte) : KeepsOutside m (m.write tmp1 b) :=
  ⟨_, rfl, fun _ _ h₁ _ => if_neg h₁⟩

theorem write_tmp2 (m : Mcu) (b : Byte) : KeepsOutside m (m.write tmp2 b) :=
  ⟨_, rfl, fun _ _ _ h₂ => if_neg h₂⟩

theorem out {m m' : Mcu} (h : KeepsOutside m m') : m'.out = m.out := by
  obtain ⟨ram, rfl, -⟩ := h
  rfl

theorem keepsRest {m m' : Mcu} (h : KeepsOutside m m') : KeepsRest m m' := by
  obtain ⟨ram, rfl, hram⟩ := h
  refine ⟨ram, rfl, fun x hx => ?_⟩
  rcases hx with rfl | hx
  · exact hram loaderFlags (.inr (by decide)) (by decide) (by decide)
  · obtain ⟨hflags, h₁, h₂⟩ := tmp3_le hx
    exact hram x (.inr (BitVec.lt_trans (by decide) hflags)) h₁ h₂

/-- The packets behind those that are read are not looked at. -/
theorem setOut {m m' : Mcu} (h : KeepsOutside m m') (out : List (List Byte)) :
    KeepsOutside { m with out := out } { m' with out := out } := by
  obtain ⟨ram, rfl, hram⟩ := h
  exact ⟨ram, rfl, hram⟩

end KeepsOutside

/-! ### The buffer -/

theorem bufferByte_lt {w : ℕ} (h : w < 150) :
    buffer + BitVec.ofNat 8 w < bufferPtr := by
  have hb : buffer.toNat = 93 := rfl
  have hp : bufferPtr.toNat = 243 := rfl
  rw [BitVec.lt_def, BitVec.toNat_add, hb, hp, BitVec.toNat_ofNat]
  omega

theorem bufferEnd_iff {w : ℕ} (h : w ≤ 150) :
    buffer + BitVec.ofNat 8 w = buffer + BUFFER_SIZE ↔ w = 150 := by
  rw [BitVec.add_right_inj, ← BitVec.toNat_inj, BitVec.toNat_ofNat, Nat.mod_eq_of_lt (by omega)]
  rfl

/-- The addresses of the buffer. -/
theorem bufferByte_toNat {i : ℕ} (h : i < 150) : (buffer + BitVec.ofNat 8 i).toNat = 93 + i := by
  have hb : buffer.toNat = 93 := rfl
  rw [BitVec.toNat_add, hb, BitVec.toNat_ofNat]
  omega

theorem bufferByte_ne {i : ℕ} (h : i < 150) {x : Byte} (hx : bufferPtr ≤ x) :
    buffer + BitVec.ofNat 8 i ≠ x := by
  rintro rfl
  exact absurd (bufferByte_lt h) (BitVec.not_lt.mpr hx)

theorem Stored.write_high {m : Mcu} {bytes : List Byte} (h : Stored m buffer bytes)
    (hlen : bytes.length ≤ 150) {x : Byte} (hx : bufferPtr ≤ x) (v : Byte) :
    Stored (m.write x v) buffer bytes := by
  apply h.congr
  intro i hi
  exact Mcu.write_ne _ _ (bufferByte_ne (by omega) hx)

/-! ### One packet -/

/-- `w` bytes are in the buffer and `left` are to come. -/
structure Reading (m : Mcu) (w left : ℕ) : Prop where
  ptr : m.ram bufferPtr = buffer + BitVec.ofNat 8 w
  room : w ≤ 150
  count : m.ram tmp1 = BitVec.ofNat 8 left
  pos : 0 < left
  le : left ≤ 255

/-- How many bytes it takes to end the reading: those to come, or one that does not fit. -/
def needed (w left : ℕ) : ℕ := min left (151 - w)

/-- How a packet of `k` bytes ends. -/
def fragEnd (w left k : ℕ) : FragEnd :=
  if k < needed w left then .fragment else if left ≤ 150 - w then .done else .overflow

theorem ofNat_pred {n : ℕ} (h : 0 < n) : BitVec.ofNat 8 n - 1 = BitVec.ofNat 8 (n - 1) := by
  obtain ⟨k, rfl⟩ : ∃ k, n = k + 1 := ⟨n - 1, by omega⟩
  rw [BitVec.ofNat_add]
  exact BitVec.add_sub_cancel _ _

theorem ofNat_eq_zero_iff {n : ℕ} (h : n ≤ 255) : BitVec.ofNat 8 n = 0 ↔ n = 0 := by
  rw [← BitVec.toNat_inj, BitVec.toNat_ofNat, Nat.mod_eq_of_lt (by omega)]
  rfl

theorem Reading.end_iff {m : Mcu} {w left : ℕ} (h : Reading m w left) :
    m.ram bufferPtr = buffer + BUFFER_SIZE ↔ w = 150 := by
  rw [h.ptr]
  exact bufferEnd_iff h.room

theorem storeByte_spec {m : Mcu} {got : List Byte} {left : ℕ} (h : Reading m got.length left)
    (hroom : got.length < 150) (hgot : Stored m buffer got) (b : Byte) :
    KeepsOutside m (storeByte m b) ∧
      (storeByte m b).ram bufferPtr = buffer + BitVec.ofNat 8 (got.length + 1) ∧
      (storeByte m b).ram tmp1 = BitVec.ofNat 8 (left - 1) ∧
      Stored (storeByte m b) buffer (got ++ [b]) := by
  have hlt := bufferByte_lt hroom
  have hge : buffer ≤ buffer + BitVec.ofNat 8 got.length := by
    have hb : buffer.toNat = 93 := rfl
    rw [BitVec.le_def, bufferByte_toNat hroom, hb]
    omega
  rw [← h.ptr] at hlt hge
  have htmp1 : bufferPtr < tmp1 := by decide
  have hptr : bufferPtr ≠ m.ram bufferPtr := (BitVec.ne_of_lt hlt).symm
  have hcount : tmp1 ≠ m.ram bufferPtr := (BitVec.ne_of_lt (BitVec.lt_trans hlt htmp1)).symm
  refine ⟨?_, ?_, ?_, ?_⟩
  · have hbyte := KeepsOutside.write (m := m) b hge (BitVec.le_of_lt hlt)
    have hpointer (v : Byte) : KeepsOutside (m.write (m.ram bufferPtr) b)
        ((m.write (m.ram bufferPtr) b).write bufferPtr v) := .write v (by decide) (by decide)
    exact (hbyte.trans (hpointer _)).trans (.write_tmp1 _ _)
  · have hne : bufferPtr ≠ tmp1 := by decide
    simp only [storeByte, Mcu.write_ram, if_neg hne, if_neg hptr, if_pos]
    rw [h.ptr, BitVec.add_assoc, BitVec.ofNat_add]
    rfl
  · have hne : tmp1 ≠ bufferPtr := by decide
    simp only [storeByte, Mcu.write_ram, if_neg hne, if_neg hcount, if_pos]
    rw [h.count, ofNat_pred h.pos]
  · have hram (i : ℕ) (hi : i < 150) : (storeByte m b).ram (buffer + BitVec.ofNat 8 i) =
        if i = got.length then b else m.ram (buffer + BitVec.ofNat 8 i) := by
      have h₁ := bufferByte_ne hi (show bufferPtr ≤ bufferPtr by decide)
      have h₂ := bufferByte_ne hi (show bufferPtr ≤ tmp1 by decide)
      have hiff : buffer + BitVec.ofNat 8 i = m.ram bufferPtr ↔ i = got.length := by
        rw [h.ptr, ← BitVec.toNat_inj, bufferByte_toNat hi, bufferByte_toNat hroom]
        omega
      simp only [storeByte, Mcu.write_ram, if_neg h₁, if_neg h₂, hiff]
    apply hgot.snoc
    · intro i hi
      rw [hram i (by omega), if_neg (by omega)]
    · rw [hram _ hroom, if_pos rfl]

/-- The reading goes on behind a byte that is not the last one. -/
theorem Reading.byte {m : Mcu} {got : List Byte} {left : ℕ} (h : Reading m got.length left)
    (hroom : got.length < 150) (hgot : Stored m buffer got) (hmore : left ≠ 1) (b v : Byte) :
    Reading ((storeByte m b).write tmp2 v) (got ++ [b]).length (left - 1) ∧
      Stored ((storeByte m b).write tmp2 v) buffer (got ++ [b]) := by
  have hpos := h.pos
  have hle := h.le
  have hlen : (got ++ [b]).length = got.length + 1 := by simp
  obtain ⟨-, hptr, hcount, hstored⟩ := storeByte_spec h hroom hgot b
  refine ⟨?_, hstored.write_high (by omega) (by decide) v⟩
  rw [hlen]
  refine ⟨?_, by omega, ?_, by omega, by omega⟩
  · rw [Mcu.write_ne _ _ (by decide), hptr]
  · rw [Mcu.write_ne _ _ (by decide), hcount]

theorem Reading.needed_pos {m : Mcu} {w left : ℕ} (h : Reading m w left) : 0 < needed w left := by
  have hpos := h.pos
  have hroom := h.room
  unfold needed
  omega

theorem needed_sub {w left k : ℕ} (h : k < needed w left) :
    needed w left - k = needed (w + k) (left - k) := by
  unfold needed at h ⊢
  omega

/-- What the bytes `p` leave, behind those that the buffer has got. -/
structure Copied (m m' : Mcu) (got : List Byte) (left : ℕ) (p : List Byte) : Prop where
  keeps : KeepsOutside m m'
  stored : Stored m' buffer (got ++ p.take (min left (150 - got.length)))
  reading : p.length < needed got.length left → Reading m' (got.length + p.length) (left - p.length)

/-- A packet that does not end the reading is copied whole. -/
theorem Copied.whole {m m' : Mcu} {got p : List Byte} {left : ℕ} (h : Copied m m' got left p)
    (hlt : p.length < needed got.length left) :
    Reading m' (got ++ p).length (left - p.length) ∧ Stored m' buffer (got ++ p) := by
  have hall : p.length ≤ min left (150 - got.length) := by
    unfold needed at hlt
    omega
  have hstored := h.stored
  rw [List.take_of_length_le hall] at hstored
  rw [List.length_append]
  exact ⟨h.reading hlt, hstored⟩

/-- **The loop over a packet**: it ends where the packet, the data or the buffer does. -/
theorem readLoopRb_copies (p : List Byte) {m : Mcu} {got : List Byte} {left : ℕ}
    (h : Reading m got.length left) (hgot : Stored m buffer got) :
    ∃ m', readLoopRb m p = (m', fragEnd got.length left p.length) ∧ Copied m m' got left p := by
  induction p generalizing m got left with
  | nil =>
      refine ⟨m, ?_, .refl m, ?_, fun _ => h⟩
      · rw [List.length_nil, fragEnd, if_pos h.needed_pos]
        rfl
      · rw [List.take_nil, List.append_nil]
        exact hgot
  | cons b rest ih =>
      have hpos := h.pos
      have hroom := h.room
      have hle := h.le
      rw [readLoopRb, List.length_cons]
      by_cases hfull : got.length = 150
      · -- the byte does not fit
        have hneeded : needed got.length left = 1 := by
          unfold needed
          omega
        have hnone : min left (150 - got.length) = 0 := by omega
        refine ⟨m, ?_, .refl m, ?_, fun hlt => absurd hlt ?_⟩
        · rw [if_pos (h.end_iff.mpr hfull), fragEnd, if_neg (by omega), if_neg (by omega)]
        · rw [hnone, List.take_zero, List.append_nil]
          exact hgot
        · rw [hneeded, List.length_cons]
          omega
      · rw [if_neg (fun hc => hfull (h.end_iff.mp hc))]
        obtain ⟨hkeeps, hptr, hcount, hstored⟩ := storeByte_spec h (by omega) hgot b
        by_cases hlast : left = 1
        · -- it is the last one that was asked for
          have hneeded : needed got.length left = 1 := by
            unfold needed
            omega
          have hzero : (storeByte m b).ram tmp1 = 0 := by rw [hcount, hlast]; rfl
          have hone : min left (150 - got.length) = 1 := by omega
          refine ⟨storeByte m b, ?_, hkeeps, ?_, fun hlt => absurd hlt ?_⟩
          · simp only [if_pos hzero]
            rw [fragEnd, if_neg (by omega), if_pos (by omega)]
          · rw [hone, List.take_succ_cons, List.take_zero]
            exact hstored
          · rw [hneeded, List.length_cons]
            omega
        · have hmore : (storeByte m b).ram tmp1 ≠ 0 := by
            rw [hcount, Ne, ofNat_eq_zero_iff (by omega)]
            omega
          have hlen : (got ++ [b]).length = got.length + 1 := by simp
          obtain ⟨hreading, hstored'⟩ := h.byte (by omega) hgot hlast b
            ((storeByte m b).ram tmp2 - 1)
          obtain ⟨m', hloop, hcopied⟩ := ih hreading hstored'
          have hiff : rest.length < needed (got ++ [b]).length (left - 1) ↔
              rest.length + 1 < needed got.length left := by
            unfold needed
            omega
          have hroom' : left - 1 ≤ 150 - (got ++ [b]).length ↔ left ≤ 150 - got.length := by omega
          refine ⟨m', ?_, (hkeeps.trans (.write_tmp2 _ _)).trans hcopied.keeps, ?_, fun hlt => ?_⟩
          · simp only [if_neg hmore, hloop, fragEnd, hiff, hroom']
          · have hstored' := hcopied.stored
            have htake : min left (150 - got.length) =
                min (left - 1) (150 - (got ++ [b]).length) + 1 := by omega
            rw [List.append_assoc, List.singleton_append] at hstored'
            rwa [htake, List.take_succ_cons]
          · have hreading' := hcopied.reading (hiff.mpr hlt)
            rwa [hlen, show got.length + 1 + rest.length = got.length + (b :: rest).length by
              rw [List.length_cons]; omega, show left - 1 - rest.length = left - (b :: rest).length by
              rw [List.length_cons]; omega] at hreading'

/-! ### All the packets -/

theorem Reading.next {m : Mcu} {w left : ℕ} (h : Reading m w left) (out : List (List Byte))
    (v : Byte) : Reading (({ m with out := out }).write tmp2 v) w left := by
  refine ⟨?_, h.room, ?_, h.pos, h.le⟩
  · rw [Mcu.write_ne _ _ (by decide)]
    exact h.ptr
  · rw [Mcu.write_ne _ _ (by decide)]
    exact h.count

theorem Stored.next {m : Mcu} {got : List Byte} (h : Stored m buffer got)
    (hroom : got.length ≤ 150) (out : List (List Byte)) (v : Byte) :
    Stored (({ m with out := out } : Mcu).write tmp2 v) buffer got :=
  Stored.write_high (m := { m with out := out }) h hroom (by decide) v

/-- **All the packets**: the bytes that fit are in the buffer, and the packets behind those that
it takes to end the reading are left. -/
theorem readFragments_copies (out : List (List Byte)) {m : Mcu} {got : List Byte} {left : ℕ}
    (h : Reading m got.length left) (hgot : Stored m buffer got) (hrun : ¬halted m)
    (hne : ∀ p ∈ out, p ≠ []) (queue : List (List Byte))
    (hout : Chunks.dropCover (needed got.length left) out = some queue) :
    ∃ m', readFragments m out = some (if left ≤ 150 - got.length then (m', true)
        else (m'.setCtl CDATA BUFFER_SIZE, false)) ∧
      KeepsOutside { m with out := queue } m' ∧
      Stored m' buffer (got ++ out.flatten.take (min left (150 - got.length))) := by
  induction out generalizing m got left with
  | nil =>
      rw [Chunks.dropCover_nil h.needed_pos] at hout
      cases hout
  | cons p out ih =>
      obtain ⟨m', hloop, hcopied⟩ := readLoopRb_copies p (h.next out (BitVec.ofNat 8 p.length))
        (hgot.next h.room out _)
      have hkeeps : KeepsOutside { m with out := out } m' :=
        (KeepsOutside.write_tmp2 _ _).trans hcopied.keeps
      rw [readFragments, if_neg (not_or.mpr ⟨hrun, hne p (List.mem_cons_self ..)⟩), hloop,
        List.flatten_cons, List.take_append]
      rcases Nat.lt_or_ge p.length (needed got.length left) with hlt | hge
      · -- the next packet goes on behind this one
        have hlen : (got ++ p).length = got.length + p.length := List.length_append
        obtain ⟨hreading, hstored⟩ := hcopied.whole hlt
        rw [Chunks.dropCover_cons_of_lt hlt, needed_sub hlt, ← hlen] at hout
        obtain ⟨m₁, hrest, hkeeps₁, hstored₁⟩ := ih hreading hstored
          (fun hh => hrun (hkeeps.keepsRest.halted_iff.mp hh))
          (fun q hq => hne q (List.mem_cons_of_mem _ hq)) hout
        have hall : p.length ≤ min left (150 - got.length) := by
          unfold needed at hlt
          omega
        have hroom' : left - p.length ≤ 150 - (got ++ p).length ↔ left ≤ 150 - got.length := by
          omega
        refine ⟨m₁, ?_, (hkeeps.setOut queue).trans hkeeps₁, ?_⟩
        · simp only [fragEnd, if_pos hlt, hrest, hroom']
        · have hmin : min (left - p.length) (150 - (got ++ p).length) =
              min left (150 - got.length) - p.length := by omega
          rw [List.take_of_length_le hall]
          rwa [hmin, List.append_assoc] at hstored₁
      · obtain rfl : out = queue := by
          rw [Chunks.dropCover_cons_of_le h.needed_pos hge] at hout
          exact Option.some.inj hout
        have hnone : min left (150 - got.length) - p.length = 0 := by
          unfold needed at hge
          omega
        refine ⟨m', ?_, hkeeps, ?_⟩
        · unfold fragEnd
          rw [if_neg (Nat.not_lt.mpr hge)]
          split_ifs <;> rfl
        · rw [hnone, List.take_zero, List.append_nil]
          exact hcopied.stored

/-- A reading that runs out of packets does not end. -/
theorem readFragments_none (out : List (List Byte)) {m : Mcu} {got : List Byte} {left : ℕ}
    (h : Reading m got.length left) (hgot : Stored m buffer got)
    (hout : Chunks.dropCover (needed got.length left) out = none) : readFragments m out = none := by
  induction out generalizing m got left with
  | nil => rfl
  | cons p out ih =>
      obtain ⟨m', hloop, hcopied⟩ := readLoopRb_copies p (h.next out (BitVec.ofNat 8 p.length))
        (hgot.next h.room out _)
      rw [readFragments]
      split_ifs
      · rfl
      rcases Nat.lt_or_ge p.length (needed got.length left) with hlt | hge
      · obtain ⟨hreading, hstored⟩ := hcopied.whole hlt
        rw [Chunks.dropCover_cons_of_lt hlt, needed_sub hlt, ← List.length_append] at hout
        simp only [hloop, fragEnd, if_pos hlt]
        exact ih hreading hstored hout
      · rw [Chunks.dropCover_cons_of_le h.needed_pos hge] at hout
        cases hout

/-! ### The length byte -/

/-- How many bytes `read_buffer` takes off the endpoint when it is asked for `n`. -/
def consumed (n : ℕ) : ℕ := min n 151

theorem halted_bufclr (m : Mcu) :
    halted (m.write loaderFlags (m.ram loaderFlags ||| FLAG_BODY_BUFCLR)) ↔ halted m := by
  have h : (m.ram loaderFlags ||| FLAG_BODY_BUFCLR) &&& FLAG_HALTED =
      m.ram loaderFlags &&& FLAG_HALTED := by
    rw [BitVec.and_or_distrib_right]
    exact BitVec.or_zero
  unfold halted
  rw [Mcu.write_same, h]

/-- A reading starts. -/
def startReading (n : Byte) (m : Mcu) : Mcu :=
  let m := (m.write bufferPtr buffer).write tmp1 n
  m.write loaderFlags (m.ram loaderFlags ||| FLAG_BODY_BUFCLR)

theorem readBufferReal_eq {n : Byte} (hn : n ≠ 0) (m : Mcu) :
    readBufferReal n m = readFragments (startReading n m) m.out := by
  rw [readBufferReal, if_neg hn]
  rfl

/-- The start of a reading that is not empty. -/
theorem startReading_reading {n : Byte} (hn : n ≠ 0) (m : Mcu) :
    Reading (startReading n m) ([] : List Byte).length n.toNat := by
  refine ⟨?_, Nat.zero_le _, ?_, ?_, Nat.le_of_lt_succ n.isLt⟩
  · rw [startReading, Mcu.write_ne _ _ (by decide), Mcu.write_ne _ _ (by decide), Mcu.write_same]
    rfl
  · rw [startReading, Mcu.write_ne _ _ (by decide), Mcu.write_same, BitVec.ofNat_toNat,
      BitVec.setWidth_eq]
  · exact Nat.pos_of_ne_zero (fun h0 => hn (BitVec.eq_of_toNat_eq h0))

theorem startReading_flags (n : Byte) (m : Mcu) :
    (startReading n m).ram loaderFlags = m.ram loaderFlags ||| FLAG_BODY_BUFCLR := by
  rw [startReading, Mcu.write_same, Mcu.write_ne _ _ (by decide), Mcu.write_ne _ _ (by decide)]

theorem startReading_halted (n : Byte) (m : Mcu) : halted (startReading n m) ↔ halted m := by
  unfold startReading
  rw [halted_bufclr]
  unfold halted
  rw [Mcu.write_ne _ _ (by decide), Mcu.write_ne _ _ (by decide)]

/-- What a reading of `n` bytes leaves, but for the length that it records when they do not fit. -/
structure BufferRead (n : Byte) (m m' : Mcu) (queue : List (List Byte)) : Prop where
  keeps : KeepsOutside { startReading n m with out := queue } m'
  stored : Stored m' buffer (m.out.flatten.take (min n.toNat 150))

namespace BufferRead

variable {n : Byte} {m m' : Mcu} {queue : List (List Byte)}

theorem rest (h : BufferRead n m m' queue) : ∃ ram, m' = { m with ram := ram, out := queue } := by
  obtain ⟨ram, hm', -⟩ := h.keeps
  exact ⟨ram, hm'⟩

theorem flags (h : BufferRead n m m' queue) :
    m'.ram loaderFlags = m.ram loaderFlags ||| FLAG_BODY_BUFCLR := by
  obtain ⟨ram, rfl, hram⟩ := h.keeps
  rw [← startReading_flags n m]
  exact hram loaderFlags (.inr (by decide)) (by decide) (by decide)

theorem outside (h : BufferRead n m m' queue) {x : Byte} (hx : x < buffer ∨ loaderFlags < x)
    (h₁ : x ≠ tmp1) (h₂ : x ≠ tmp2) : m'.ram x = m.ram x := by
  obtain ⟨ram, rfl, hram⟩ := h.keeps
  have hptr : bufferPtr < loaderFlags := by decide
  have hne : x ≠ bufferPtr ∧ x ≠ loaderFlags := by
    rcases hx with hx | hx
    · exact ⟨BitVec.ne_of_lt (BitVec.lt_trans hx (by decide)),
        BitVec.ne_of_lt (BitVec.lt_trans hx (by decide))⟩
    · exact ⟨(BitVec.ne_of_lt (BitVec.lt_trans hptr hx)).symm, (BitVec.ne_of_lt hx).symm⟩
  refine (hram x (hx.imp_right (BitVec.lt_trans hptr)) h₁ h₂).trans ?_
  change (startReading n m).ram x = m.ram x
  rw [startReading, Mcu.write_ne _ _ hne.2, Mcu.write_ne _ _ h₁, Mcu.write_ne _ _ hne.1]

/-- Outside of the buffer and of the variables everything is as it was. -/
theorem kept (h : BufferRead n m m' queue) {x : Byte} (hx : x < buffer ∨ buffer + BUFFER_SIZE ≤ x)
    (hvar : x ∉ [bufferPtr, loaderFlags, tmp1, tmp2]) : m'.ram x = m.ram x := by
  simp only [List.mem_cons, List.not_mem_nil, or_false, not_or] at hvar
  have habove : buffer + BUFFER_SIZE ≤ x → loaderFlags < x := by
    intro hge
    have hend : (buffer + BUFFER_SIZE).toNat = 243 := rfl
    have hflags : loaderFlags.toNat = 244 := rfl
    have hptr : bufferPtr.toNat = 243 := rfl
    have h₁ : x.toNat ≠ bufferPtr.toNat := fun heq => hvar.1 (BitVec.eq_of_toNat_eq heq)
    have h₂ : x.toNat ≠ loaderFlags.toNat := fun heq => hvar.2.1 (BitVec.eq_of_toNat_eq heq)
    rw [BitVec.le_def] at hge
    rw [BitVec.lt_def]
    omega
  exact h.outside (hx.imp_right habove) hvar.2.2.1 hvar.2.2.2

end BufferRead

/-- **`read_buffer_body_real`** fills the buffer from the packets that hold what it needs. -/
theorem readBufferReal_copies {n : Byte} (hn : n ≠ 0) {m : Mcu} {queue : List (List Byte)}
    (hrun : ¬halted m) (hne : ∀ p ∈ m.out, p ≠ [])
    (hout : Chunks.dropCover (consumed n.toNat) m.out = some queue) :
    ∃ m', readBufferReal n m = some (if n.toNat ≤ 150 then (m', true)
      else (m'.setCtl CDATA BUFFER_SIZE, false)) ∧ BufferRead n m m' queue := by
  have hrun' : ¬halted (startReading n m) := fun h => hrun ((startReading_halted n m).mp h)
  obtain ⟨m', hread, hkeeps, hstored⟩ := readFragments_copies m.out
    (startReading_reading hn m) (.nil _ _) hrun' hne queue hout
  refine ⟨m', ?_, hkeeps, hstored⟩
  rw [readBufferReal_eq hn, hread]
  rfl

/-- **`read_buffer`** takes the packets that hold the bytes it is asked for off the queue. -/
theorem readBuffer_out {m : Mcu} (hrun : ¬halted m) (hne : ∀ p ∈ m.out, p ≠ []) :
    (readBuffer m).map (·.1.out) = Chunks.dropCover (consumed (m.ctl CDATA).toNat) m.out := by
  unfold readBuffer
  by_cases hzero : m.ctl CDATA = 0
  · rw [readBufferReal, if_pos hzero, hzero]
    simp [consumed]
  · cases hout : Chunks.dropCover (consumed (m.ctl CDATA).toNat) m.out with
    | none =>
        rw [readBufferReal_eq hzero, readFragments_none m.out
          (startReading_reading hzero m) (.nil _ _) hout]
        rfl
    | some queue =>
        obtain ⟨m', hread, hfilled⟩ := readBufferReal_copies hzero hrun hne hout
        obtain ⟨ram, rfl⟩ := hfilled.rest
        rw [hread]
        split_ifs <;> rfl

/-! ### A control packet -/

theorem writeAll_eq (bytes : List Byte) (m : Mcu) (a : Byte) :
    ∃ ram, m.writeAll a bytes = { m with ram := ram } := by
  induction bytes generalizing m a with
  | nil => exact ⟨m.ram, rfl⟩
  | cons b rest ih =>
      obtain ⟨ram, h⟩ := ih (m.write a b) (a + 1)
      exact ⟨ram, h⟩

/-- The control packet as it is stored: what the host wrote, and nulls behind it. -/
theorem readPacket_clear {m : Mcu} {p : List Byte} {out : List (List Byte)} (hp : p ≠ [])
    (hlen : p.length ≤ 8) (hout : m.out = p :: out) :
    ∃ m', readPacket (clearControlPkt m) = some m' ∧
      (∃ ram, m' = { m with ram := ram, out := out }) ∧
      (∀ i : ℕ, i < 8 → m'.ram (controlPkt + BitVec.ofNat 8 i) = p.getD i 0) ∧
      ∀ x, x < controlPkt → x ≠ tmp1 → x ≠ tmp2 → m'.ram x = m.ram x := by
  have hbase : controlPkt.toNat = 248 := rfl
  obtain ⟨ram, hclear⟩ := writeAll_eq (List.replicate PACKET_SIZE.toNat 0) m controlPkt
  have hzero (i : ℕ) (hi : i < 8) : ram (controlPkt + BitVec.ofNat 8 i) = 0 := by
    have h := Mcu.writeAll_ram_add (List.replicate PACKET_SIZE.toNat 0) m controlPkt (by decide) i
      (by rw [List.length_replicate]; exact hi)
    rw [hclear, List.getElem_replicate] at h
    exact h
  have hbelow (x : Byte) (hx : x < controlPkt) : ram x = m.ram x := by
    have h := Mcu.writeAll_ram_of_lt (List.replicate PACKET_SIZE.toNat 0) m controlPkt x (by decide)
      (.inl hx)
    rwa [hclear] at h
  unfold readPacket clearControlPkt
  rw [hclear]
  simp only [hout, if_neg hp]
  generalize hm₀ : (({ m with ram := ram, out := out } : Mcu).write tmp1 0).write tmp2 controlPkt
    = m₀
  have hram (x : Byte) (h₁ : x ≠ tmp1) (h₂ : x ≠ tmp2) : m₀.ram x = ram x := by
    rw [← hm₀, Mcu.write_ne _ _ h₂, Mcu.write_ne _ _ h₁]
  obtain ⟨ram', hall⟩ := writeAll_eq p m₀ controlPkt
  refine ⟨_, rfl, ⟨ram', ?_⟩, fun i hi => ?_, fun x hx h₁ h₂ => ?_⟩
  · rw [hall, ← hm₀]
    rfl
  · rcases Nat.lt_or_ge i p.length with hlt | hge
    · rw [Mcu.writeAll_ram_add p m₀ controlPkt (by omega) i hlt, List.getD_eq_getElem _ _ hlt]
    · have hx : (controlPkt + BitVec.ofNat 8 i).toNat = 248 + i := by
        rw [BitVec.toNat_add, BitVec.toNat_ofNat, hbase]
        omega
      have h₁ : controlPkt + BitVec.ofNat 8 i ≠ tmp1 := fun h => by
        rw [h] at hx
        exact absurd hx (by have : tmp1.toNat = 245 := rfl; omega)
      have h₂ : controlPkt + BitVec.ofNat 8 i ≠ tmp2 := fun h => by
        rw [h] at hx
        exact absurd hx (by have : tmp2.toNat = 246 := rfl; omega)
      rw [Mcu.writeAll_ram_of_lt p m₀ controlPkt _ (by omega) (.inr (by omega)), hram _ h₁ h₂,
        hzero i hi, List.getD_eq_default _ _ hge]
  · rw [Mcu.writeAll_ram_of_lt p m₀ controlPkt x (by omega) (.inl hx), hram x h₁ h₂, hbelow x hx]

/-- **A control packet of the host** is recognized, with its arguments behind the code. -/
theorem readControl_some {m : Mcu} {code : Byte} {arguments : List Byte}
    {out : List (List Byte)} (hlen : arguments.length ≤ 4)
    (hout : m.out = ([0, 0, FROM_PC, code] ++ arguments) :: out) :
    ∃ m', readControl m = some (m', code) ∧ (∃ ram, m' = { m with ram := ram, out := out }) ∧
      m'.ctl CCODE = code ∧
      (∀ i : ℕ, i < 4 → m'.ctl (CDATA + BitVec.ofNat 8 i) = arguments.getD i 0) ∧
      ∀ x, x < controlPkt → x ≠ tmp1 → x ≠ tmp2 → m'.ram x = m.ram x := by
  obtain ⟨m', hread, hrest, hbytes, hbelow⟩ := readPacket_clear (by simp)
    (by rw [List.length_append, List.length_cons, List.length_cons, List.length_cons,
      List.length_cons, List.length_nil]; omega) hout
  have h₀ : m'.ram controlPkt = 0 := hbytes 0 (by omega)
  have h₁ : m'.ram (controlPkt + 1) = 0 := hbytes 1 (by omega)
  have h₂ : m'.ram (controlPkt + 1 + 1) = FROM_PC := hbytes 2 (by omega)
  have h₃ : m'.ram (controlPkt + 1 + 1 + 1) = code := hbytes 3 (by omega)
  have hskip : skipZeros m' controlPkt 256 = some (controlPkt + 1 + 1) := by
    rw [skipZeros, if_pos h₀, skipZeros, if_pos h₁, skipZeros, if_neg (by rw [h₂]; decide)]
  refine ⟨m', ?_, hrest, h₃, fun i hi => ?_, hbelow⟩
  · simp only [readControl, hread, Option.bind_eq_bind, Option.bind_some, hskip, h₂, if_true, h₃]
  · have h := hbytes (4 + i) (by omega)
    rw [BitVec.ofNat_add, List.getD_append_right _ _ _ _ (Nat.le_add_right 4 i)] at h
    have hi' : 4 + i - [0, 0, FROM_PC, code].length = i := Nat.add_sub_cancel_left 4 i
    rw [hi'] at h
    exact h

end IguanaIR.Firmware
