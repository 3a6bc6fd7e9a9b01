import IguanaIR.Firmware.Loader
import IguanaIR.Firmware.Transfer

/-! # The grammar of control packets

A control packet of the host is `FROM_PC` behind any number of nulls, then the code and the
arguments.  `read_control` finds the first byte that is not null, with no bound on the search, and
takes the byte behind it for the code.  The handlers read the arguments at a fixed place.

`examined` has the addresses that the function looks at, next to the function itself, and nothing
else decides what it returns (`storedCode_examined`). -/

namespace IguanaIR.Firmware

/-! ### What is examined -/

/-- The addresses in `rc_read_zero`, from `x` on. -/
def zerosExamined (m : Mcu) (x : Byte) : ℕ → List Byte
  | 0 => []
  | n + 1 => x :: if m.ram x = 0 then zerosExamined m (x + 1) n else []

/-- The addresses examined after the packet is read: those of the search, and the one behind the
marker if there is a marker. -/
def examined (m : Mcu) : List Byte :=
  zerosExamined m controlPkt 256 ++
    match skipZeros m controlPkt 256 with
    | some x => if m.ram x = FROM_PC then [x + 1] else []
    | none => []

/-- The bytes of `control_pkt`. -/
def InControlPkt (a : Byte) : Prop := ∃ i < 8, a = controlPkt + BitVec.ofNat 8 i

instance (a : Byte) : Decidable (InControlPkt a) := inferInstanceAs (Decidable (∃ i < 8, _))

/-! ### The grammar -/

/-- A packet with a code, behind so many nulls and the marker. -/
structure IsControl (p : List Byte) (zeros : ℕ) (code : Byte) (arguments : List Byte) : Prop where
  bytes : p = List.replicate zeros 0 ++ FROM_PC :: code :: arguments
  code : code ≠ 0

/-- The arguments of such a packet are where the handlers read them. -/
def AtData (m : Mcu) (zeros : ℕ) (arguments : List Byte) : Prop :=
  ∀ i, ∀ h : i < arguments.length,
    controlPkt + BitVec.ofNat 8 (zeros + 2 + i) = controlPkt + CDATA + BitVec.ofNat 8 i ∧
      m.ctl (CDATA + BitVec.ofNat 8 i) = arguments[i]

/-- `read_control` follows the grammar for the packet `p`, which is the next one of `m`. -/
def FollowsGrammar (m : Mcu) (p : List Byte) : Prop :=
  ∃ m' c, readPacket (clearControlPkt m) = some m' ∧ readControl m = some (m', c) ∧
    (∀ a ∈ examined m', InControlPkt a) ∧
    (∀ zeros code arguments, IsControl p zeros code arguments →
      c = code ∧ AtData m' zeros arguments) ∧
    ((¬∃ zeros code arguments, IsControl p zeros code arguments) →
      c = 0 ∧ ∀ others, mainRecv others m = some m')

/-! ### The search -/

section Search

variable {m : Mcu}

/-- Behind nulls the search goes on. -/
theorem mem_zerosExamined (k : ℕ) {n : ℕ} {x : Byte} (hn : k < n)
    (hzero : ∀ i < k, m.ram (x + BitVec.ofNat 8 i) = 0) :
    x + BitVec.ofNat 8 k ∈ zerosExamined m x n := by
  induction k generalizing n x with
  | zero =>
      obtain ⟨n, rfl⟩ : ∃ n', n = n' + 1 := ⟨n - 1, by omega⟩
      rw [BitVec.add_zero, zerosExamined]
      exact List.mem_cons_self
  | succ k ih =>
      obtain ⟨n, rfl⟩ : ∃ n', n = n' + 1 := ⟨n - 1, by omega⟩
      have hfirst : m.ram x = 0 := by
        have h := hzero 0 (Nat.succ_pos k)
        rwa [BitVec.add_zero] at h
      rw [zerosExamined, if_pos hfirst, add_ofNat_succ]
      refine List.mem_cons_of_mem _ (ih (by omega) (fun i hi => ?_))
      rw [← add_ofNat_succ]
      exact hzero (i + 1) (by omega)

/-- It ends at the first byte that is not null. -/
theorem skipZeros_found (k : ℕ) {n : ℕ} {x : Byte} (hn : k < n)
    (hzero : ∀ i < k, m.ram (x + BitVec.ofNat 8 i) = 0)
    (hne : m.ram (x + BitVec.ofNat 8 k) ≠ 0) :
    skipZeros m x n = some (x + BitVec.ofNat 8 k) ∧
      ∀ a ∈ zerosExamined m x n, ∃ i ≤ k, a = x + BitVec.ofNat 8 i := by
  induction k generalizing n x with
  | zero =>
      obtain ⟨n, rfl⟩ : ∃ n', n = n' + 1 := ⟨n - 1, by omega⟩
      rw [BitVec.add_zero] at hne ⊢
      rw [skipZeros, zerosExamined, if_neg hne, if_neg hne]
      refine ⟨rfl, fun a ha => ⟨0, Nat.le_refl 0, ?_⟩⟩
      rw [BitVec.add_zero]
      exact List.mem_singleton.mp ha
  | succ k ih =>
      obtain ⟨n, rfl⟩ : ∃ n', n = n' + 1 := ⟨n - 1, by omega⟩
      have hfirst : m.ram x = 0 := by
        have h := hzero 0 (Nat.succ_pos k)
        rwa [BitVec.add_zero] at h
      rw [add_ofNat_succ] at hne
      obtain ⟨hskip, hexamined⟩ := @ih n (x + 1) (by omega) (fun i hi => by
        rw [← add_ofNat_succ]
        exact hzero (i + 1) (by omega)) hne
      rw [skipZeros, zerosExamined, if_pos hfirst, if_pos hfirst, hskip, add_ofNat_succ]
      refine ⟨rfl, fun a ha => ?_⟩
      rcases List.mem_cons.mp ha with rfl | ha
      · exact ⟨0, by omega, (BitVec.add_zero a).symm⟩
      · obtain ⟨i, hi, rfl⟩ := hexamined a ha
        exact ⟨i + 1, by omega, (add_ofNat_succ x i).symm⟩

/-- The search reads what is listed, and ends there. -/
theorem skipZeros_examined {m' : Mcu} (n : ℕ) {x : Byte}
    (h : ∀ a ∈ zerosExamined m x n, m'.ram a = m.ram a) :
    skipZeros m' x n = skipZeros m x n ∧ ∀ a ∈ skipZeros m x n, a ∈ zerosExamined m x n := by
  induction n generalizing x with
  | zero => exact ⟨rfl, by simp [skipZeros]⟩
  | succ n ih =>
      rw [zerosExamined] at h ⊢
      have hfirst := h x List.mem_cons_self
      rw [skipZeros, skipZeros, hfirst]
      by_cases hzero : m.ram x = 0
      · rw [if_pos hzero] at h
        obtain ⟨hsame, hmem⟩ := ih (fun a ha => h a (List.mem_cons_of_mem _ ha))
        rw [if_pos hzero, if_pos hzero, if_pos hzero]
        exact ⟨hsame, fun a ha => List.mem_cons_of_mem _ (hmem a ha)⟩
      · rw [if_neg hzero, if_neg hzero, if_neg hzero]
        exact ⟨rfl, by simp⟩

/-- The code of the packet that is stored. -/
def storedCode (m : Mcu) : Option Byte :=
  (skipZeros m controlPkt 256).map (fun x => if m.ram x = FROM_PC then m.ram (x + 1) else 0)

/-- **Nothing else is read**: the code is decided by the bytes at the addresses examined. -/
theorem storedCode_examined {m' : Mcu} (h : ∀ a ∈ examined m, m'.ram a = m.ram a) :
    storedCode m' = storedCode m := by
  obtain ⟨hsame, hmem⟩ := @skipZeros_examined m m' 256 controlPkt
    (fun a ha => h a (List.mem_append_left _ ha))
  unfold storedCode
  rw [hsame]
  cases hskip : skipZeros m controlPkt 256 with
  | none => rfl
  | some x =>
      have hmarker := h x (List.mem_append_left _ (hmem x hskip))
      simp only [Option.map_some, hmarker]
      split_ifs with hmark
      · have hnext : x + 1 ∈ examined m := by
          refine List.mem_append_right _ ?_
          simp [hskip, hmark]
        rw [h _ hnext]
      · rfl

end Search

theorem readControl_code {m m' : Mcu} (h : readPacket (clearControlPkt m) = some m') :
    (readControl m).map (·.2) = storedCode m' := by
  simp only [readControl, h, storedCode, Option.bind_eq_bind, Option.bind_some]
  cases skipZeros m' controlPkt 256 with
  | none => rfl
  | some x => rfl

/-- A packet has nulls only, or nulls in front of another byte. -/
theorem leading_zeros (p : List Byte) :
    (∀ b ∈ p, b = 0) ∨ ∃ k b rest, p = List.replicate k 0 ++ b :: rest ∧ b ≠ 0 := by
  induction p with
  | nil => exact .inl (by simp)
  | cons a p ih =>
      by_cases ha : a = 0
      · subst ha
        rcases ih with h | ⟨k, b, rest, rfl, hb⟩
        · exact .inl (by simpa using h)
        · exact .inr ⟨k + 1, b, rest, rfl, hb⟩
      · exact .inr ⟨0, a, p, rfl, ha⟩

/-- The nulls in front of another byte are counted in one way. -/
theorem leading_unique {k k' : ℕ} {b b' : Byte} {rest rest' : List Byte} (hb : b ≠ 0)
    (hb' : b' ≠ 0)
    (h : List.replicate k 0 ++ b :: rest = List.replicate k' 0 ++ b' :: rest') :
    k = k' ∧ b = b' ∧ rest = rest' := by
  induction k generalizing k' with
  | zero =>
      cases k' with
      | zero => simpa using h
      | succ k' => exact absurd (List.cons.inj h).1 hb
  | succ k ih =>
      cases k' with
      | zero => exact absurd (List.cons.inj h).1.symm hb'
      | succ k' =>
          obtain ⟨rfl, hrest⟩ := ih (List.cons.inj h).2
          exact ⟨rfl, hrest⟩

/-! ### The packet that is read -/

section Packet

variable {m : Mcu} {p : List Byte} {out : List (List Byte)}

/-- Nulls in front of another byte: the search finds that byte, and the byte behind it is the code
if it is the marker. -/
theorem readControl_leading {k : ℕ} {b : Byte} {rest : List Byte} (hlen : p.length ≤ 8)
    (hout : m.out = p :: out) (hp : p = List.replicate k 0 ++ b :: rest) (hb : b ≠ 0) :
    ∃ m', readPacket (clearControlPkt m) = some m' ∧
      (∀ i : ℕ, i < 8 → m'.ram (controlPkt + BitVec.ofNat 8 i) = p.getD i 0) ∧
      readControl m = some (m',
        if b = FROM_PC then m'.ram (controlPkt + BitVec.ofNat 8 (k + 1)) else 0) ∧
      (∀ a ∈ examined m', (∃ i ≤ k, a = controlPkt + BitVec.ofNat 8 i) ∨
        b = FROM_PC ∧ a = controlPkt + BitVec.ofNat 8 (k + 1)) ∧
      (b = FROM_PC → controlPkt + BitVec.ofNat 8 (k + 1) ∈ examined m') := by
  have hk : k < p.length := by
    rw [hp, List.length_append, List.length_replicate, List.length_cons]
    omega
  obtain ⟨m', hread, -, hbytes, -⟩ :=
    readPacket_clear (List.length_pos_iff.mp (by omega)) hlen hout
  have hzero (i : ℕ) (hi : i < k) : m'.ram (controlPkt + BitVec.ofNat 8 i) = 0 := by
    rw [hbytes i (by omega), hp, List.getD_append _ _ _ _ (by rwa [List.length_replicate])]
    simp [List.getD_eq_getElem?_getD, hi]
  have hfound : m'.ram (controlPkt + BitVec.ofNat 8 k) = b := by
    rw [hbytes k (by omega), hp, List.getD_append_right _ _ _ _ (by rw [List.length_replicate])]
    simp
  obtain ⟨hskip, hexamined⟩ := skipZeros_found k (show k < 256 by omega) hzero
    (by rw [hfound]; exact hb)
  have hnext : controlPkt + BitVec.ofNat 8 k + 1 = controlPkt + BitVec.ofNat 8 (k + 1) := by
    rw [BitVec.add_assoc, BitVec.ofNat_add]
    rfl
  refine ⟨m', hread, hbytes, ?_, fun a ha => ?_, fun hmark => ?_⟩
  · simp only [readControl, hread, Option.bind_eq_bind, Option.bind_some, hskip, hfound, hnext]
  · simp only [examined, hskip, hfound, hnext] at ha
    rcases List.mem_append.mp ha with ha | ha
    · exact .inl (hexamined a ha)
    · split_ifs at ha with hmark
      · exact .inr ⟨hmark, List.mem_singleton.mp ha⟩
      · cases ha
  · simp only [examined, hskip, hfound, hnext, if_pos hmark]
    exact List.mem_append_right _ (List.mem_singleton.mpr rfl)

/-- Behind a packet of nulls the search leaves the packet. -/
theorem examined_zeros (hne : p ≠ []) (hlen : p.length ≤ 8) (hout : m.out = p :: out)
    (hzero : ∀ b ∈ p, b = 0) :
    ∃ m', readPacket (clearControlPkt m) = some m' ∧
      controlPkt + BitVec.ofNat 8 8 ∈ examined m' := by
  obtain ⟨m', hread, -, hbytes, -⟩ := readPacket_clear hne hlen hout
  refine ⟨m', hread, List.mem_append_left _ (mem_zerosExamined 8 (by decide) (fun i hi => ?_))⟩
  rw [hbytes i hi, List.getD_eq_getElem?_getD]
  cases hget : p[i]? with
  | none => rfl
  | some b => exact hzero b (List.mem_of_getElem? hget)

theorem not_inControlPkt : ¬InControlPkt (controlPkt + BitVec.ofNat 8 8) := by decide

/-- The packets that are read by the grammar: not of nulls only, no marker in the last place, and
two nulls in front of the marker if there are arguments. -/
structure Regular (p : List Byte) : Prop where
  nonzero : ∃ b ∈ p, b ≠ 0
  marker : p ≠ List.replicate 7 0 ++ [FROM_PC]
  place : ∀ zeros code arguments, IsControl p zeros code arguments →
    zeros = 2 ∨ arguments = []

/-- A packet is in the grammar in one way. -/
theorem IsControl.unique {k zeros : ℕ} {b code : Byte} {rest arguments : List Byte}
    (h : IsControl (List.replicate k 0 ++ b :: rest) zeros code arguments) (hb : b ≠ 0) :
    k = zeros ∧ b = FROM_PC ∧ rest = code :: arguments :=
  leading_unique hb (by decide) h.bytes

theorem regular_of_follows (hne : p ≠ []) (hlen : p.length ≤ 8) (hout : m.out = p :: out)
    (h : FollowsGrammar m p) : Regular p := by
  obtain ⟨m', c, hread, -, hinside, hcontrol, -⟩ := h
  refine ⟨?_, ?_, fun zeros code arguments hp => ?_⟩
  · by_contra hzero
    push Not at hzero
    obtain ⟨m'', hread', hmem⟩ := examined_zeros hne hlen hout hzero
    obtain rfl := Option.some.inj (hread.symm.trans hread')
    exact not_inControlPkt (hinside _ hmem)
  · intro hp
    obtain ⟨m'', hread', -, -, -, hmem⟩ := readControl_leading hlen hout hp (by decide)
    obtain rfl := Option.some.inj (hread.symm.trans hread')
    exact not_inControlPkt (hinside _ (hmem rfl))
  · obtain ⟨-, hdata⟩ := hcontrol zeros code arguments hp
    cases arguments with
    | nil => exact .inr rfl
    | cons a rest =>
        have hplace := congrArg BitVec.toNat (hdata 0 (Nat.succ_pos _)).1
        have hzeros := congrArg List.length hp.bytes
        simp only [List.length_append, List.length_replicate, List.length_cons] at hzeros
        have hbase : controlPkt.toNat = 248 := rfl
        have hcdata : (controlPkt + CDATA + BitVec.ofNat 8 0).toNat = 252 := rfl
        rw [hcdata, BitVec.toNat_add, BitVec.toNat_ofNat, hbase] at hplace
        omega

theorem follows_of_regular (hlen : p.length ≤ 8) (hout : m.out = p :: out) (h : Regular p) :
    FollowsGrammar m p := by
  rcases leading_zeros p with hzero | ⟨k, b, rest, hp, hb⟩
  · obtain ⟨b, hmem, hb⟩ := h.nonzero
    exact absurd (hzero b hmem) hb
  obtain ⟨m', hread, hbytes, hcode, hexamined, -⟩ := readControl_leading hlen hout hp hb
  have hcount : p.length = k + (rest.length + 1) := by
    rw [hp, List.length_append, List.length_replicate, List.length_cons]
  have hbehind (i : ℕ) : p.getD (k + 1 + i) 0 = rest.getD i 0 := by
    rw [hp, List.getD_append_right _ _ _ _ (by rw [List.length_replicate]; omega),
      List.length_replicate, show k + 1 + i - k = i + 1 by omega, List.getD_cons_succ]
  -- the code would be outside of the packet only behind seven nulls and the marker
  have hroom (hmark : b = FROM_PC) : k + 1 < 8 := by
    by_contra hlast
    refine h.marker ?_
    obtain rfl : k = 7 := by omega
    obtain rfl : rest = [] := List.eq_nil_of_length_eq_zero (by omega)
    rw [hp, hmark]
  refine ⟨m', _, hread, hcode, fun a ha => ?_, fun zeros code arguments hcontrol => ?_,
    fun hnone => ?_⟩
  · rcases hexamined a ha with ⟨i, hi, rfl⟩ | ⟨hmark, rfl⟩
    · exact ⟨i, by omega, rfl⟩
    · exact ⟨k + 1, hroom hmark, rfl⟩
  · obtain ⟨rfl, rfl, rfl⟩ := IsControl.unique (hp ▸ hcontrol) hb
    rw [List.length_cons] at hcount
    refine ⟨?_, fun i hi => ?_⟩
    · rw [if_pos rfl, hbytes _ (by omega)]
      exact hbehind 0
    · have harguments : arguments ≠ [] := by
        rintro rfl
        exact absurd hi (Nat.not_lt_zero i)
      obtain rfl := (h.place _ _ _ hcontrol).resolve_right harguments
      have hplace : controlPkt + BitVec.ofNat 8 (2 + 2 + i) =
          controlPkt + CDATA + BitVec.ofNat 8 i := by
        rw [BitVec.add_assoc, BitVec.ofNat_add]
        rfl
      refine ⟨hplace, ?_⟩
      rw [Mcu.ctl, ← BitVec.add_assoc, ← hplace, hbytes _ (by omega),
        show 2 + 2 + i = 2 + 1 + (i + 1) by omega, hbehind, List.getD_cons_succ,
        List.getD_eq_getElem _ _ hi]
  · have hzero : (if b = FROM_PC then m'.ram (controlPkt + BitVec.ofNat 8 (k + 1)) else 0) = 0 := by
      split_ifs with hmark
      · rw [hbytes _ (hroom hmark)]
        refine (hbehind 0).trans ?_
        cases rest with
        | nil => rfl
        | cons code arguments =>
            by_contra hcode
            exact hnone ⟨k, code, arguments, by rw [hp, hmark], hcode⟩
      · rfl
    refine ⟨hzero, fun others => ?_⟩
    simp only [mainRecv, hcode, hzero, Option.bind_eq_bind, Option.bind_some, if_true]

/-- **The grammar of control packets** is followed for a packet of up to 8 bytes, whatever else is
in RAM, exactly if the packet is regular. -/
theorem followsGrammar_iff (hne : p ≠ []) (hlen : p.length ≤ 8) (hout : m.out = p :: out) :
    FollowsGrammar m p ↔ Regular p :=
  ⟨regular_of_follows hne hlen hout, follows_of_regular hlen hout⟩

end Packet

/-- An idle device with a packet to read. -/
def packetMcu (p : List Byte) : Mcu := { Mcu.cleared 0 with out := [p] }

/-- The checksum of a page is asked for, as the driver does. -/
theorem followsGrammar_checksum :
    [0, 0, FROM_PC, IG_DEV_CHECKSUM, 0x30] ≠ [] ∧
      (packetMcu [0, 0, FROM_PC, IG_DEV_CHECKSUM, 0x30]).out =
        [[0, 0, FROM_PC, IG_DEV_CHECKSUM, 0x30]] ∧
      FollowsGrammar (packetMcu [0, 0, FROM_PC, IG_DEV_CHECKSUM, 0x30])
        [0, 0, FROM_PC, IG_DEV_CHECKSUM, 0x30] := by
  refine ⟨by decide, rfl, (followsGrammar_iff (by decide) (by decide) rfl).mpr
    ⟨by decide, by decide, fun zeros code arguments h => .inl ?_⟩⟩
  exact (@IsControl.unique 2 zeros FROM_PC code [IG_DEV_CHECKSUM, 0x30] arguments h
    (by decide)).1.symm

/-- With a third null in front the packet is in the grammar, but its code is taken for the number
of the page.  Two nulls alone are not, and get the code from behind the packet. -/
theorem grammar_not_followed :
    IsControl [0, 0, 0, FROM_PC, IG_DEV_CHECKSUM, 0x30] 3 IG_DEV_CHECKSUM [0x30] ∧
      (readControl (packetMcu [0, 0, 0, FROM_PC, IG_DEV_CHECKSUM, 0x30])).map
        (fun r => (r.2, r.1.ctl CDATA)) = some (IG_DEV_CHECKSUM, IG_DEV_CHECKSUM) ∧
      ¬FollowsGrammar (packetMcu [0, 0, 0, FROM_PC, IG_DEV_CHECKSUM, 0x30])
        [0, 0, 0, FROM_PC, IG_DEV_CHECKSUM, 0x30] ∧
      (readControl (((packetMcu [0, 0]).write 0x00 FROM_PC).write 0x01 IG_DEV_RESET)).map (·.2) =
        some IG_DEV_RESET ∧
      ¬FollowsGrammar (((packetMcu [0, 0]).write 0x00 FROM_PC).write 0x01 IG_DEV_RESET) [0, 0] := by
  have hcontrol : IsControl [0, 0, 0, FROM_PC, IG_DEV_CHECKSUM, 0x30] 3 IG_DEV_CHECKSUM [0x30] :=
    ⟨rfl, by decide⟩
  refine ⟨hcontrol, by decide, fun h => ?_, by decide, fun h => ?_⟩
  · have hregular := regular_of_follows (by decide) (by decide) rfl h
    rcases hregular.place 3 _ _ hcontrol with hzeros | harguments
    · omega
    · cases harguments
  · have hregular := @regular_of_follows _ [0, 0] [] (by decide) (by decide) rfl h
    obtain ⟨b, hmem, hb⟩ := hregular.nonzero
    revert b
    decide

end IguanaIR.Firmware
