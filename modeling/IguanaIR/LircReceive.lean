import IguanaIR.KindRuns
import IguanaIR.ReceivedPulses

/-! # Received signals in the LIRC driver

`recv_loop` of `iguanair.c`, which makes LIRC's words of the pulses and spaces that the daemon
sends.  The last word of a packet stays in `prevCode`, as more of its kind may follow in the next
packet.  `lirc_t` is a 32-bit `int`, of which -1 says that there is no word yet.

Without the packets the loop is `mergeFrom`, and that is one word for each run of a kind
(`mergeFrom_runs`). -/

namespace IguanaIR

/-! ### The loop -/

/-- LIRC's own constants. -/
def PULSE_BIT : BitVec 32 := 0x01000000
def PULSE_MASK : BitVec 32 := 0x00FFFFFF

/-- `prevCode` for the first word of a kind. -/
def startCode (code : BitVec 32) : BitVec 32 :=
  let prevCode := code &&& IG_PULSE_MASK
  let prevCode := if PULSE_MASK.slt prevCode then PULSE_MASK else prevCode
  if code &&& IG_PULSE_BIT ≠ 0 then prevCode ||| PULSE_BIT else prevCode

def sameCode (prevCode code : BitVec 32) : Prop :=
  (prevCode &&& PULSE_BIT ≠ 0 ∧ code &&& IG_PULSE_BIT ≠ 0) ∨
    (¬prevCode &&& PULSE_BIT ≠ 0 ∧ ¬code &&& IG_PULSE_BIT ≠ 0)

instance (prevCode code : BitVec 32) : Decidable (sameCode prevCode code) :=
  inferInstanceAs (Decidable (_ ∨ _))

/-- `prevCode` with one more word of its kind. -/
def extendCode (prevCode code : BitVec 32) : BitVec 32 :=
  if PULSE_MASK < (prevCode &&& PULSE_MASK) + (code &&& IG_PULSE_MASK) then
    (prevCode &&& PULSE_BIT) ||| PULSE_MASK
  else prevCode + (code &&& IG_PULSE_MASK)

/-- The variables of the inner loop; `buffer` has its first `y` entries. -/
structure RecvLoop where
  prevCode : BitVec 32
  buffer : List (BitVec 32)
deriving DecidableEq, Repr

/-- One word; there are eight entries in the buffer. -/
def RecvLoop.translate (s : RecvLoop) (code : BitVec 32) : Option RecvLoop :=
  if s.prevCode = -1 then some { s with prevCode := startCode code }
  else if sameCode s.prevCode code then
    some { s with prevCode := extendCode s.prevCode code }
  else if s.buffer.length < 8 then some ⟨startCode code, s.buffer ++ [s.prevCode]⟩
  else none

/-- The last `prevCode`, and the words that are written to the pipe. -/
def recvLoop : BitVec 32 → List (List (BitVec 32)) → Option (BitVec 32 × List (BitVec 32))
  | prevCode, [] => some (prevCode, [])
  | prevCode, packet :: packets => do
      let s ← packet.foldlM RecvLoop.translate ⟨prevCode, []⟩
      let (last, written) ← recvLoop s.prevCode packets
      some (last, s.buffer ++ written)

/-- What has not been written yet. -/
def pending (prevCode : BitVec 32) : List (BitVec 32) := if prevCode = -1 then [] else [prevCode]

/-! ### Runs of one kind -/

def isPulse (word : BitVec 32) : Bool := word &&& IG_PULSE_BIT != 0

def duration (word : BitVec 32) : ℕ := (word &&& IG_PULSE_MASK).toNat

/-- Addition that saturates. -/
def saturatingAdd (a b : ℕ) : ℕ := min (a + b) PULSE_MASK.toNat

def lircWord (pulse : Bool) (d : ℕ) : BitVec 32 :=
  BitVec.ofNat 32 d ||| if pulse then PULSE_BIT else 0

/-- The word for words of one kind. -/
def mergedWord (run : List (BitVec 32)) : BitVec 32 :=
  lircWord (run.head?.any isPulse) ((run.map duration).foldl saturatingAdd 0)

/-- The loop over all words at once, with the one that is left at its end. -/
def mergeFrom (prevCode : BitVec 32) : List (BitVec 32) → List (BitVec 32)
  | [] => [prevCode]
  | code :: rest =>
      if sameCode prevCode code then mergeFrom (extendCode prevCode code) rest
      else prevCode :: mergeFrom (startCode code) rest

/-! ### Words -/

theorem or_zero_word (word : BitVec 32) : word ||| 0 = word := BitVec.or_zero

theorem lircWord_toNat (pulse : Bool) {d : ℕ} (h : d ≤ PULSE_MASK.toNat) :
    (lircWord pulse d).toNat = (if pulse then 16777216 else 0) + d := by
  have hmask : PULSE_MASK.toNat = 16777215 := rfl
  have hd : (BitVec.ofNat 32 d).toNat = d := Nat.mod_eq_of_lt (by omega)
  cases pulse with
  | false =>
    rw [lircWord, if_neg Bool.false_ne_true, or_zero_word, hd, if_neg Bool.false_ne_true,
      Nat.zero_add]
  | true =>
    rw [lircWord, if_pos rfl, if_pos rfl]
    have hor := @or_pulseBit (BitVec.ofNat 32 d) (by omega)
    rw [hd] at hor
    exact hor

theorem and_mask_toNat (word : BitVec 32) : (word &&& PULSE_MASK).toNat = word.toNat % 16777216 := by
  rw [BitVec.toNat_and]
  exact Nat.and_two_pow_sub_one_eq_mod word.toNat 24

theorem and_bit_ne_zero (word : BitVec 32) :
    word &&& PULSE_BIT ≠ 0 ↔ word.toNat / 16777216 % 2 = 1 := by
  have hbit : PULSE_BIT = BitVec.twoPow 32 24 := by decide
  have htest : word.getLsbD 24 = decide (word.toNat / 16777216 % 2 = 1) :=
    Nat.testBit_eq_decide_div_mod_eq
  rw [hbit, BitVec.and_twoPow, htest]
  by_cases h : word.toNat / 16777216 % 2 = 1
  · rw [if_pos (decide_eq_true h)]
    exact iff_of_true (by decide) h
  · rw [if_neg (by simpa using h)]
    exact iff_of_false (fun hne => hne rfl) h

theorem isPulse_iff (word : BitVec 32) : isPulse word = true ↔ word &&& IG_PULSE_BIT ≠ 0 := bne_iff_ne

theorem and_bit (word : BitVec 32) : word &&& PULSE_BIT = if isPulse word then PULSE_BIT else 0 := by
  have hbit : PULSE_BIT = BitVec.twoPow 32 24 := by decide
  by_cases h : word &&& PULSE_BIT = 0
  · rw [if_neg ((isPulse_iff word).not.mpr (not_not.mpr h)), h]
  · rw [if_pos ((isPulse_iff word).mpr h)]
    rw [hbit, BitVec.and_twoPow] at h ⊢
    split at h
    · rw [if_pos ‹_›]
    · exact absurd rfl h

theorem isPulse_lircWord (pulse : Bool) {d : ℕ} (h : d ≤ PULSE_MASK.toNat) :
    isPulse (lircWord pulse d) = pulse := by
  have hmask : PULSE_MASK.toNat = 16777215 := rfl
  rw [Bool.eq_iff_iff, isPulse_iff, show IG_PULSE_BIT = PULSE_BIT from rfl, and_bit_ne_zero,
    lircWord_toNat pulse h]
  cases pulse with
  | false =>
    simp
    omega
  | true =>
    simp
    omega

theorem duration_lircWord (pulse : Bool) {d : ℕ} (h : d ≤ PULSE_MASK.toNat) :
    duration (lircWord pulse d) = d := by
  have hmask : PULSE_MASK.toNat = 16777215 := rfl
  rw [duration, show IG_PULSE_MASK = PULSE_MASK from rfl, and_mask_toNat, lircWord_toNat pulse h]
  split <;> omega

theorem duration_le (word : BitVec 32) : duration word ≤ PULSE_MASK.toNat := by
  have hmask : PULSE_MASK.toNat = 16777215 := rfl
  rw [duration, show IG_PULSE_MASK = PULSE_MASK from rfl, and_mask_toNat]
  omega

theorem lircWord_ne (pulse : Bool) {d : ℕ} (h : d ≤ PULSE_MASK.toNat) : lircWord pulse d ≠ -1 := by
  have hmask : PULSE_MASK.toNat = 16777215 := rfl
  intro heq
  have hnat := congrArg BitVec.toNat heq
  rw [lircWord_toNat pulse h, show (-1 : BitVec 32).toNat = 4294967295 from rfl] at hnat
  split at hnat <;> omega

theorem saturatingAdd_le (a b : ℕ) : saturatingAdd a b ≤ PULSE_MASK.toNat := Nat.min_le_right ..

theorem startCode_eq (code : BitVec 32) : startCode code = lircWord (isPulse code) (duration code) := by
  have hmask : PULSE_MASK.toNat = 16777215 := rfl
  have hd := duration_le code
  have hslt : ¬PULSE_MASK.slt (code &&& IG_PULSE_MASK) = true := by
    rw [BitVec.slt_iff_toInt_lt, BitVec.toInt_eq_toNat_of_lt, BitVec.toInt_eq_toNat_of_lt]
    · rw [duration] at hd
      omega
    · rw [duration] at hd
      omega
    · omega
  have hofNat : BitVec.ofNat 32 (duration code) = code &&& IG_PULSE_MASK := by
    rw [duration, BitVec.ofNat_toNat, BitVec.setWidth_eq]
  simp only [startCode, if_neg hslt, lircWord, hofNat, isPulse_iff]
  split
  · rfl
  · rw [or_zero_word]

theorem sameCode_lircWord (pulse : Bool) {d : ℕ} (h : d ≤ PULSE_MASK.toNat) (code : BitVec 32) :
    sameCode (lircWord pulse d) code ↔ pulse = isPulse code := by
  have hkind := isPulse_lircWord pulse h
  rw [sameCode, ← isPulse_iff code, show PULSE_BIT = IG_PULSE_BIT from rfl, ← isPulse_iff, hkind]
  cases pulse <;> cases isPulse code <;> decide

theorem extendCode_lircWord (pulse : Bool) {d : ℕ} (h : d ≤ PULSE_MASK.toNat) (code : BitVec 32) :
    extendCode (lircWord pulse d) code = lircWord pulse (saturatingAdd d (duration code)) := by
  have hmask : PULSE_MASK.toNat = 16777215 := rfl
  have hcode := duration_le code
  have hd : (lircWord pulse d &&& PULSE_MASK).toNat = d := duration_lircWord pulse h
  have hkind : lircWord pulse d &&& PULSE_BIT = if pulse then PULSE_BIT else 0 := by
    rw [and_bit, isPulse_lircWord pulse h]
  have hsum : ((lircWord pulse d &&& PULSE_MASK) + (code &&& IG_PULSE_MASK)).toNat =
      d + duration code := by
    rw [BitVec.toNat_add, hd]
    change (d + duration code) % 2 ^ 32 = d + duration code
    exact Nat.mod_eq_of_lt (by omega)
  rw [extendCode]
  by_cases hlong : PULSE_MASK.toNat < d + duration code
  · rw [if_pos (by rw [BitVec.lt_def, hsum]; exact hlong), hkind, saturatingAdd,
      Nat.min_eq_right (by omega), lircWord, BitVec.or_comm]
    rfl
  · rw [if_neg (by rw [BitVec.lt_def, hsum]; exact hlong), saturatingAdd,
      Nat.min_eq_left (by omega)]
    apply BitVec.eq_of_toNat_eq
    rw [BitVec.toNat_add, lircWord_toNat pulse h, lircWord_toNat pulse (by omega)]
    rw [duration] at hlong hcode ⊢
    split <;> omega

/-! ### Runs -/

/-- A word of LIRC's, so that it is not the sentinel. -/
def IsLircWord (word : BitVec 32) : Prop := ∃ pulse d, d ≤ PULSE_MASK.toNat ∧ word = lircWord pulse d

theorem isLircWord_startCode (code : BitVec 32) : IsLircWord (startCode code) :=
  ⟨_, _, duration_le code, startCode_eq code⟩

theorem IsLircWord.extend {prevCode : BitVec 32} (h : IsLircWord prevCode) (code : BitVec 32) :
    IsLircWord (extendCode prevCode code) := by
  obtain ⟨pulse, d, hd, rfl⟩ := h
  exact ⟨pulse, _, saturatingAdd_le _ _, extendCode_lircWord pulse hd code⟩

theorem IsLircWord.ne {prevCode : BitVec 32} (h : IsLircWord prevCode) : prevCode ≠ -1 := by
  obtain ⟨pulse, d, hd, rfl⟩ := h
  exact lircWord_ne pulse hd

theorem isPulse_startCode (code : BitVec 32) : isPulse (startCode code) = isPulse code := by
  rw [startCode_eq, isPulse_lircWord _ (duration_le code)]

theorem IsLircWord.isPulse_extend {prevCode : BitVec 32} (h : IsLircWord prevCode)
    (code : BitVec 32) : isPulse (extendCode prevCode code) = isPulse prevCode := by
  obtain ⟨pulse, d, hd, rfl⟩ := h
  rw [extendCode_lircWord pulse hd, isPulse_lircWord pulse (saturatingAdd_le _ _),
    isPulse_lircWord pulse hd]

theorem IsLircWord.sameCode {prevCode : BitVec 32} (h : IsLircWord prevCode) (code : BitVec 32) :
    sameCode prevCode code ↔ isPulse prevCode = isPulse code := by
  obtain ⟨pulse, d, hd, rfl⟩ := h
  rw [sameCode_lircWord pulse hd, isPulse_lircWord pulse hd]

theorem total_le : ∀ (durations : List ℕ) (d : ℕ), d ≤ PULSE_MASK.toNat →
    durations.foldl saturatingAdd d ≤ PULSE_MASK.toNat
  | [], _, h => h
  | _ :: durations, _, _ => total_le durations _ (saturatingAdd_le _ _)

theorem mergedWord_single (code : BitVec 32) : mergedWord [code] = startCode code := by
  have hzero : saturatingAdd 0 (duration code) = duration code := by
    rw [saturatingAdd, Nat.zero_add]
    exact Nat.min_eq_left (duration_le code)
  rw [startCode_eq, mergedWord, List.map_singleton, List.foldl_cons, hzero]
  rfl

theorem mergedWord_append (a : BitVec 32) (g : List (BitVec 32)) (code : BitVec 32) :
    mergedWord (a :: g ++ [code]) = extendCode (mergedWord (a :: g)) code := by
  have htotal := total_le ((a :: g).map duration) 0 (Nat.zero_le _)
  have hextend := extendCode_lircWord (isPulse a) htotal code
  have hword : mergedWord (a :: g) =
      lircWord (isPulse a) (((a :: g).map duration).foldl saturatingAdd 0) := rfl
  rw [hword, hextend, mergedWord, List.map_append, List.foldl_append]
  rfl

theorem mergeFrom_eq : ∀ (rest : List (BitVec 32)) (prevCode : BitVec 32), IsLircWord prevCode →
    mergeFrom prevCode rest =
      KindRuns.accumulate isPulse startCode extendCode (isPulse prevCode) prevCode rest
  | [], _, _ => rfl
  | code :: rest, prevCode, h => by
      have hext := mergeFrom_eq rest _ (h.extend code)
      have hstart := mergeFrom_eq rest _ (isLircWord_startCode code)
      rw [isPulse_startCode] at hstart
      rw [h.isPulse_extend] at hext
      rw [mergeFrom, KindRuns.accumulate, hext, hstart]
      exact if_congr (h.sameCode code) rfl rfl

/-- **Runs of one kind.** -/
theorem mergeFrom_runs (code : BitVec 32) (rest : List (BitVec 32)) :
    mergeFrom (startCode code) rest =
      ((code :: rest).splitBy (KindRuns.sameKind isPulse)).map mergedWord := by
  rw [mergeFrom_eq rest _ (isLircWord_startCode code), isPulse_startCode]
  exact KindRuns.accumulate_start mergedWord_single mergedWord_append code rest

/-- Neighbours are of different kinds. -/
theorem mergeFrom_alternates {prevCode : BitVec 32} (h : IsLircWord prevCode)
    (rest : List (BitVec 32)) :
    (mergeFrom prevCode rest).IsChain (fun x y => isPulse x ≠ isPulse y) := by
  rw [mergeFrom_eq rest prevCode h]
  exact (KindRuns.accumulate_isChain (P := IsLircWord)
    (fun code => ⟨isLircWord_startCode code, isPulse_startCode code⟩)
    (fun value code hvalue => ⟨hvalue.extend code, hvalue.isPulse_extend code⟩) rest prevCode h).1

/-! ### Packets -/

/-- One packet, whatever follows. -/
theorem foldlM_translate : ∀ (packet : List (BitVec 32)) (s : RecvLoop), IsLircWord s.prevCode →
    s.buffer.length + packet.length ≤ 8 →
      ∃ s', packet.foldlM RecvLoop.translate s = some s' ∧ IsLircWord s'.prevCode ∧
        ∀ rest, s.buffer ++ mergeFrom s.prevCode (packet ++ rest) =
          s'.buffer ++ mergeFrom s'.prevCode rest
  | [], s, h, _ => ⟨s, rfl, h, fun _ => rfl⟩
  | code :: packet, s, h, hroom => by
      rw [List.length_cons] at hroom
      rw [List.foldlM_cons, RecvLoop.translate, if_neg h.ne]
      by_cases hsame : sameCode s.prevCode code
      · obtain ⟨s', hrun, hs', hrest⟩ := foldlM_translate packet
          { s with prevCode := extendCode s.prevCode code } (h.extend code) (by simp only; omega)
        refine ⟨s', ?_, hs', ?_⟩
        · rw [if_pos hsame]
          exact hrun
        · intro rest
          rw [List.cons_append, mergeFrom, if_pos hsame]
          exact hrest rest
      · obtain ⟨s', hrun, hs', hrest⟩ := foldlM_translate packet
          ⟨startCode code, s.buffer ++ [s.prevCode]⟩ (isLircWord_startCode code)
          (by rw [List.length_append, List.length_singleton]; omega)
        refine ⟨s', ?_, hs', ?_⟩
        · rw [if_neg hsame, if_pos (by omega)]
          exact hrun
        · intro rest
          rw [List.cons_append, mergeFrom, if_neg hsame, ← hrest rest, List.append_assoc]
          rfl

theorem recvLoop_mergeFrom : ∀ (packets : List (List (BitVec 32))) (prevCode : BitVec 32),
    IsLircWord prevCode → (∀ packet ∈ packets, packet.length ≤ 7) →
      ∃ last written, recvLoop prevCode packets = some (last, written) ∧ IsLircWord last ∧
        written ++ [last] = mergeFrom prevCode packets.flatten
  | [], prevCode, h, _ => ⟨prevCode, [], rfl, h, rfl⟩
  | packet :: packets, prevCode, h, hlen => by
      have hpacket := hlen packet (List.mem_cons_self ..)
      obtain ⟨s, hrun, hs, hrest⟩ := foldlM_translate packet ⟨prevCode, []⟩ h (by
        rw [List.length_nil]
        omega)
      obtain ⟨last, written, hloop, hlast, hwritten⟩ :=
        recvLoop_mergeFrom packets s.prevCode hs (fun p hp => hlen p (List.mem_cons_of_mem _ hp))
      refine ⟨last, s.buffer ++ written, ?_, hlast, ?_⟩
      · rw [recvLoop, hrun]
        simp only [Option.bind_eq_bind, Option.bind_some, hloop]
      · rw [List.flatten_cons, List.append_assoc, hwritten, ← hrest]
        rfl

/-- The sentinel goes with the first word. -/
theorem recvLoop_start : ∀ (packets : List (List (BitVec 32))),
    (∀ packet ∈ packets, packet.length ≤ 7) →
      (packets.flatten = [] → recvLoop (-1) packets = some (-1, [])) ∧
      ∀ code rest, packets.flatten = code :: rest →
        ∃ last written, recvLoop (-1) packets = some (last, written) ∧ IsLircWord last ∧
          written ++ [last] = mergeFrom (startCode code) rest
  | [], _ => ⟨fun _ => rfl, fun _ _ h => absurd h (List.cons_ne_nil _ _).symm⟩
  | [] :: packets, hlen => by
      obtain ⟨hnil, hcons⟩ := recvLoop_start packets (fun p hp => hlen p (List.mem_cons_of_mem _ hp))
      have hstep : recvLoop (-1) ([] :: packets) = recvLoop (-1) packets := by
        rw [recvLoop, List.foldlM_nil]
        simp only [Option.pure_def, Option.bind_eq_bind, Option.bind_some, List.nil_append]
        exact Option.bind_fun_some _
      rw [hstep]
      exact ⟨hnil, hcons⟩
  | (code :: packet) :: packets, hlen => by
      have hpacket := hlen (code :: packet) (List.mem_cons_self ..)
      rw [List.length_cons] at hpacket
      refine ⟨fun h => ?_, ?_⟩
      · rw [List.flatten_cons, List.cons_append] at h
        exact absurd h (List.cons_ne_nil _ _)
      · intro code' rest hflatten
        rw [List.flatten_cons, List.cons_append] at hflatten
        obtain ⟨rfl, rfl⟩ := List.cons.inj hflatten
        obtain ⟨last, written, hloop, hlast, hwritten⟩ :=
          recvLoop_mergeFrom (packet :: packets) (startCode code) (isLircWord_startCode code) (by
            intro p hp
            obtain rfl | hp := List.mem_cons.mp hp
            · omega
            · exact hlen p (List.mem_cons_of_mem _ hp))
        refine ⟨last, written, ?_, hlast, hwritten⟩
        rw [recvLoop] at hloop ⊢
        rw [List.foldlM_cons, RecvLoop.translate, if_pos rfl]
        exact hloop

/-- **The words that LIRC gets.**  Behind packets of up to seven words each there is one word for
every run of a kind, but for the last one it is pending; so it does not matter how the words are
divided into packets.  The words alternate, and the buffer has room for them. -/
theorem recvLoop_merged (packets : List (List (BitVec 32)))
    (hlen : ∀ packet ∈ packets, packet.length ≤ 7) :
    ∃ last written, recvLoop (-1) packets = some (last, written) ∧
      written ++ pending last = (packets.flatten.splitBy (KindRuns.sameKind isPulse)).map mergedWord ∧
      written.IsChain (fun x y => isPulse x ≠ isPulse y) ∧
      ∀ packets' : List (List (BitVec 32)), (∀ packet ∈ packets', packet.length ≤ 7) →
        packets'.flatten = packets.flatten → recvLoop (-1) packets' = recvLoop (-1) packets := by
  obtain ⟨hnil, hcons⟩ := recvLoop_start packets hlen
  cases hflatten : packets.flatten with
  | nil =>
    refine ⟨-1, [], hnil hflatten, rfl, List.isChain_nil, ?_⟩
    intro packets' hlen' heq
    rw [hnil hflatten]
    exact (recvLoop_start packets' hlen').1 heq
  | cons code rest =>
    obtain ⟨last, written, hloop, hlast, hwritten⟩ := hcons code rest hflatten
    have hpending : pending last = [last] := if_neg hlast.ne
    have halternates := mergeFrom_alternates (isLircWord_startCode code) rest
    rw [← hwritten] at halternates
    refine ⟨last, written, hloop, ?_, (List.isChain_append.mp halternates).1, ?_⟩
    · rw [hpending, hwritten, mergeFrom_runs]
    · intro packets' hlen' heq
      obtain ⟨last', written', hloop', -, hwritten'⟩ :=
        (recvLoop_start packets' hlen').2 code rest heq
      obtain ⟨rfl, hsingle⟩ := List.append_inj' (hwritten'.trans hwritten.symm) rfl
      obtain rfl := List.singleton_inj.mp hsingle
      rw [hloop, hloop']

theorem recvLoop_merged_two : ∃ last written,
    recvLoop (-1) [[0x01000005, 0x01000006, 0x00FFFFFF], [0x00000001, 0x01000002]] =
      some (last, written) ∧
    written ++ pending last = ([0x01000005, 0x01000006, 0x00FFFFFF, 0x00000001, 0x01000002].splitBy
      (KindRuns.sameKind isPulse)).map mergedWord ∧
    recvLoop (-1) [[0x01000005], [0x01000006, 0x00FFFFFF, 0x00000001, 0x01000002]] =
      some (last, written) := by
  obtain ⟨last, written, hloop, hmerged, -, hother⟩ := recvLoop_merged
    [[0x01000005, 0x01000006, 0x00FFFFFF], [0x00000001, 0x01000002]] (by decide)
  refine ⟨last, written, hloop, hmerged, ?_⟩
  rw [← hloop]
  exact hother _ (by decide) rfl

end IguanaIR
