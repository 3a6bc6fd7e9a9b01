import IguanaIR.ClientInterface

/-! # The size of an encoded signal

`pulsesToIguanaSend` with its memory: `codeLength` has 32 bits and `*results` is a block that grows
with each entry.  It is undefined (`none`) where it would write outside of the block.  Below
2 GiB it never is, and it stores the bytes of the model without memory (`encode_stores`).

`IG_DEV_SENDSIZE` only counts the bytes, and returns their number in 16 bits. -/

namespace IguanaIR

open Compress

/-! ### The function with its memory -/

/-- `memset(buffer + start, value, count)`. -/
def memset (buffer : List Byte) (start : ℤ) (value : Byte) (count : ℕ) : Option (List Byte) :=
  if count = 0 then some buffer
  else if 0 ≤ start ∧ start + count ≤ buffer.length then
    some (buffer.take start.toNat ++ List.replicate count value ++ buffer.drop (start.toNat + count))
  else none

/-- `buffer[index] = value`. -/
def storeByte (buffer : List Byte) (index : ℕ) (value : Byte) : Option (List Byte) :=
  if index < buffer.length then some (buffer.set index value) else none

/-- The codes of an entry at the end of a block that has grown for them.  `heap` is what stands
behind the old ones. -/
def storeCodes (heap : List Byte) (results : Option (List Byte)) (codeLength : BitVec 32)
    (inSpace : Bool) (cycles numBytes : ℕ) : Option (List Byte) := do
  let size := codeLength + BitVec.ofNat 32 numBytes
  let buffer ← memset (realloc results heap size.toNat) codeLength.toInt
    (LENGTH_MASK ||| stateBit inSpace) (numBytes - 1)
  storeByte buffer (size - 1).toNat (BitVec.ofNat 8 cycles ||| stateBit inSpace)

/-- Store the codes if requested: `results` is `none` where the source has `NULL`, and
`*results` is `NULL` before the first entry. -/
def storeRequested (heap : List Byte) (results : Option (Option (List Byte)))
    (codeLength : BitVec 32) (inSpace : Bool) (cycles numBytes : ℕ) :
    Option (Option (Option (List Byte))) :=
  match results with
  | none => some none
  | some block =>
      if numBytes = 0 then some (some block)
      else (storeCodes heap block codeLength inSpace cycles numBytes).map (fun codes =>
        some (some codes))

/-- The loop over the entries still to come; `heap` may be another one for each of them. -/
def encodeLoop (heap : ℕ → List Byte) (compress : Compress) (inSpace : Bool) (lastCycles : ℕ) :
    List ℕ → BitVec 32 → Option (Option (List Byte)) →
      Option (BitVec 32 × Option (Option (List Byte)))
  | [], codeLength, results => some (codeLength, results)
  | total :: rest, codeLength, results => do
      let cycles := lastByteCycles total
      let numBytes :=
        if dropsPulse compress inSpace lastCycles cycles (!rest.isEmpty) then 0 else entryBytes total
      let lastCycles' := if compress = COMPRESS_VER1 ∧ inSpace = false then cycles else lastCycles
      let results ← storeRequested (heap rest.length) results codeLength inSpace cycles numBytes
      encodeLoop heap compress (!inSpace) lastCycles' rest (codeLength + BitVec.ofNat 32 numBytes)
        results

/-- `pulsesToIguanaSend(carrier, sendCode, length, results, compress)`: the value returned and
what `results` points to. -/
def encode (fl : ℚ → ℚ) (heap : ℕ → List Byte) (carrier : ℕ) (sendCode : List (BitVec 32))
    (compress : Compress) (requested : Bool) : Option (BitVec 32 × Option (Option (List Byte))) :=
  encodeLoop heap compress false 0 (sendCode.map (entryCycles fl carrier)) 0
    (if requested then some none else none)

/-! ### It stays inside -/

theorem storeEntry_length (inSpace : Bool) (cycles numBytes : ℕ) :
    (storeEntry inSpace cycles numBytes).length = numBytes := by
  unfold storeEntry
  split_ifs with h
  · exact h.symm
  · simp only [List.length_append, List.length_replicate, List.length_singleton]
    omega

/-- A block that grows keeps its bytes. -/
theorem realloc_grow (results : Option (List Byte)) (heap : List Byte) (n : ℕ) :
    ∃ more : List Byte, more.length = n ∧
      realloc results heap ((results.getD []).length + n) = results.getD [] ++ more := by
  refine ⟨((heap ++ List.replicate ((results.getD []).length + n) 0).take n), ?_, ?_⟩
  · simp only [List.length_take, List.length_append, List.length_replicate]
    omega
  · rw [realloc, List.append_assoc, List.take_length_add_append]

theorem memset_end {stored more : List Byte} (value : Byte) (count : ℕ)
    (h : count ≤ more.length) :
    memset (stored ++ more) stored.length value count =
      some (stored ++ (List.replicate count value ++ more.drop count)) := by
  unfold memset
  split_ifs with h₀ h₁
  · simp [h₀]
  · simp [List.drop_append]
  · simp only [List.length_append] at h₁
    omega

theorem storeByte_last (stored : List Byte) (old value : Byte) :
    storeByte (stored ++ [old]) stored.length value = some (stored ++ [value]) := by
  simp [storeByte]

variable {heap : List Byte} {results : Option (List Byte)} {codeLength : BitVec 32}

/-- The codes of an entry are added to the block. -/
theorem storeCodes_eq {inSpace : Bool} {cycles numBytes : ℕ} (hpos : numBytes ≠ 0)
    (hlen : codeLength.toNat = (results.getD []).length)
    (hfits : (results.getD []).length + numBytes < 2147483648) :
    storeCodes heap results codeLength inSpace cycles numBytes =
      some (results.getD [] ++ storeEntry inSpace cycles numBytes) := by
  obtain ⟨more, hmore, hgrow⟩ := realloc_grow results heap numBytes
  have hsize : (codeLength + BitVec.ofNat 32 numBytes).toNat =
      (results.getD []).length + numBytes := by
    rw [BitVec.toNat_add, BitVec.toNat_ofNat, hlen]
    omega
  have hindex : (codeLength + BitVec.ofNat 32 numBytes - 1).toNat =
      (results.getD []).length + (numBytes - 1) := by
    rw [BitVec.toNat_sub, hsize, show (1 : BitVec 32).toNat = 1 from rfl]
    omega
  have hstart : codeLength.toInt = (results.getD []).length := by
    rw [BitVec.toInt_eq_toNat_cond, hlen, if_pos (by omega)]
  -- all but one of the new bytes are full ones
  obtain ⟨old, hold⟩ : ∃ old, more.drop (numBytes - 1) = [old] := by
    rw [← List.length_eq_one_iff, List.length_drop]
    omega
  have hlast : (results.getD [] ++ List.replicate (numBytes - 1)
      (LENGTH_MASK ||| stateBit inSpace)).length = (results.getD []).length + (numBytes - 1) := by
    simp
  simp only [storeCodes, hsize, hgrow, hstart, memset_end _ _ (show numBytes - 1 ≤ more.length by
    omega), hold, Option.bind_eq_bind, Option.bind_some, hindex, storeEntry, if_neg hpos]
  rw [← List.append_assoc, ← hlast, storeByte_last, List.append_assoc]

/-- What `results` points to when the bytes in `codes` are stored. -/
def codesBlock (codes : List Byte) : Option (List Byte) := if codes = [] then none else some codes

theorem codesBlock_getD (codes : List Byte) : (codesBlock codes).getD [] = codes := by
  unfold codesBlock
  split_ifs with h
  · exact h.symm
  · rfl

theorem storeRequested_eq {codes : List Byte} {inSpace : Bool} {cycles numBytes : ℕ}
    (hlen : codeLength.toNat = codes.length) (hfits : codes.length + numBytes < 2147483648) :
    storeRequested heap (some (codesBlock codes)) codeLength inSpace cycles numBytes =
      some (some (codesBlock (codes ++ storeEntry inSpace cycles numBytes))) := by
  have hcodes := codesBlock_getD codes
  by_cases hzero : numBytes = 0
  · simp [storeRequested, storeEntry, hzero]
  · have hne : codes ++ storeEntry inSpace cycles numBytes ≠ [] := by
      simp [storeEntry, hzero]
    rw [storeRequested]
    simp only [if_neg hzero]
    rw [storeCodes_eq hzero (by rw [hcodes, hlen]) (by rw [hcodes]; exact hfits), hcodes,
      Option.map_some, codesBlock, if_neg hne]

section Loop

variable {heaps : ℕ → List Byte} {compress : Compress}

/-- Storing: the block holds the codes so far, and `codeLength` is their number. -/
theorem encodeLoop_stores (totals : List ℕ) (codes : List Byte) {inSpace : Bool} {lastCycles : ℕ}
    (hlen : codeLength.toNat = codes.length)
    (hfits : codes.length + (pulsesLoop compress inSpace lastCycles totals).length < 2147483648) :
    encodeLoop heaps compress inSpace lastCycles totals codeLength (some (codesBlock codes)) =
      some (BitVec.ofNat 32 (codes ++ pulsesLoop compress inSpace lastCycles totals).length,
        some (codesBlock (codes ++ pulsesLoop compress inSpace lastCycles totals))) := by
  induction totals generalizing codes codeLength inSpace lastCycles with
  | nil =>
      rw [pulsesLoop, List.append_nil, encodeLoop, ← hlen, BitVec.ofNat_toNat, BitVec.setWidth_eq]
  | cons total rest ih =>
      rw [encodeLoop, pulsesLoop]
      rw [pulsesLoop] at hfits
      -- the same number of bytes on both sides
      generalize (if dropsPulse compress inSpace lastCycles (lastByteCycles total) (!rest.isEmpty)
        then 0 else entryBytes total) = numBytes at hfits ⊢
      simp only [List.length_append, storeEntry_length] at hfits
      rw [storeRequested_eq hlen (by omega), Option.bind_eq_bind, Option.bind_some, ih,
        List.append_assoc]
      · rw [BitVec.toNat_add, BitVec.toNat_ofNat, hlen, List.length_append, storeEntry_length]
        omega
      · rw [List.length_append, storeEntry_length]
        omega

/-- Counting: nothing is stored, and the number is the same modulo `2 ^ 32`. -/
theorem encodeLoop_counts (totals : List ℕ) (codeLength : BitVec 32) (inSpace : Bool)
    (lastCycles : ℕ) :
    encodeLoop heaps compress inSpace lastCycles totals codeLength none =
      some (codeLength + BitVec.ofNat 32 (pulsesLoop compress inSpace lastCycles totals).length,
        none) := by
  induction totals generalizing codeLength inSpace lastCycles with
  | nil => rw [encodeLoop, pulsesLoop, List.length_nil, BitVec.add_zero]
  | cons total rest ih =>
      rw [encodeLoop, storeRequested, Option.bind_eq_bind, Option.bind_some, ih, pulsesLoop,
        List.length_append, storeEntry_length, BitVec.ofNat_add, BitVec.add_assoc]

end Loop

section Encode

variable (fl : ℚ → ℚ) (heaps : ℕ → List Byte) (carrier : ℕ) (words : List (BitVec 32))
  (compress : Compress)

/-- **The memory of `pulsesToIguanaSend`**: the block has grown to the bytes that the model without
memory gives, every one of them was written inside of it, and their number is returned. -/
theorem encode_stores
    (h : (pulsesToIguanaSend fl carrier words compress).length < 2147483648) :
    encode fl heaps carrier words compress true =
      some (BitVec.ofNat 32 (pulsesToIguanaSend fl carrier words compress).length,
        some (codesBlock (pulsesToIguanaSend fl carrier words compress))) :=
  encodeLoop_stores _ [] rfl (by simpa [pulsesToIguanaSend] using h)

theorem encode_counts :
    encode fl heaps carrier words compress false =
      some (BitVec.ofNat 32 (pulsesToIguanaSend fl carrier words compress).length, none) := by
  have hzero (n : BitVec 32) : (0 : BitVec 32) + n = n := BitVec.zero_add _
  have h := @encodeLoop_counts heaps compress (words.map (entryCycles fl carrier)) 0 false 0
  rw [hzero] at h
  exact h

end Encode

/-! ### The number of bytes -/

/-- Is entry `x` a pulse that is left out?  It ends in the byte in which the pulse before ended,
which is not a full one, and it is not the last entry. -/
def leftOut (compress : Compress) (totals : List ℕ) (x : ℕ) : Prop :=
  compress = COMPRESS_VER1 ∧ x % 2 = 0 ∧ 2 ≤ x ∧ x + 1 < totals.length ∧
    totals.getD x 0 % 127 ≠ 0 ∧ totals.getD x 0 % 127 = totals.getD (x - 2) 0 % 127

instance decidableLeftOut (compress : Compress) (totals : List ℕ) (x : ℕ) :
    Decidable (leftOut compress totals x) := inferInstanceAs (Decidable (_ ∧ _))

/-- A byte for every 127 cycles begun, none for a pulse that is left out. -/
def bytesOf (compress : Compress) (totals : List ℕ) (x : ℕ) : ℕ :=
  if leftOut compress totals x then 0 else (totals.getD x 0 + 126) / 127

/-- The bytes of all the entries. -/
def signalBytes (compress : Compress) (totals : List ℕ) : ℕ :=
  ((List.range totals.length).map (bytesOf compress totals)).sum

/-- `lastCycles` at entry `x`: from the last pulse before it, which is at an even index. -/
def lastPulse (totals : List ℕ) (x : ℕ) : ℕ :=
  if x = 0 then 0 else lastByteCycles (totals.getD ((x - 1) / 2 * 2) 0)

theorem entryBytes_eq (total : ℕ) : entryBytes total = (total + 126) / 127 := by
  unfold entryBytes MAX_DATA_BYTE
  split_ifs <;> omega

/-- Two entries end in one byte that is not full. -/
theorem lastByteCycles_repeat (c p : ℕ) :
    (lastByteCycles c ≠ 127 ∧ lastByteCycles c = lastByteCycles p) ↔
      c % 127 ≠ 0 ∧ c % 127 = p % 127 := by
  unfold lastByteCycles MAX_DATA_BYTE
  split_ifs <;> omega

section Length

variable {compress : Compress} {totals : List ℕ}

theorem dropsPulse_iff {x total : ℕ} {lastCycles : ℕ} (htotal : totals.getD x 0 = total)
    (hlast : compress = COMPRESS_VER1 → lastCycles = lastPulse totals x) :
    dropsPulse compress (decide (x % 2 = 1)) lastCycles (lastByteCycles total)
        (decide (x + 1 < totals.length)) = true ↔ leftOut compress totals x := by
  have hpos := lastByteCycles_pos total
  simp only [dropsPulse, leftOut, htotal, MAX_DATA_BYTE, Bool.and_eq_true, beq_iff_eq, bne_iff_ne,
    Bool.not_eq_true', decide_eq_false_iff_not, decide_eq_true_eq]
  constructor
  · rintro ⟨⟨⟨⟨hver, heven⟩, hfull⟩, hsame⟩, hmore⟩
    rw [hlast hver, lastPulse] at hsame
    split_ifs at hsame with hzero
    · omega
    rw [show (x - 1) / 2 * 2 = x - 2 by omega] at hsame
    obtain ⟨hrest, hrepeat⟩ := (lastByteCycles_repeat _ _).mp ⟨hfull, hsame⟩
    exact ⟨hver, by omega, by omega, hmore, hrest, hrepeat⟩
  · rintro ⟨hver, heven, htwo, hmore, hrest, hrepeat⟩
    obtain ⟨hfull, hsame⟩ := (lastByteCycles_repeat _ _).mpr ⟨hrest, hrepeat⟩
    refine ⟨⟨⟨⟨hver, by omega⟩, hfull⟩, ?_⟩, hmore⟩
    rw [hlast hver, lastPulse, if_neg (by omega), show (x - 1) / 2 * 2 = x - 2 by omega, hsame]

/-- Entry by entry, from `x` on. -/
theorem pulsesLoop_length (n x lastCycles : ℕ) (hn : x + n = totals.length)
    (hlast : compress = COMPRESS_VER1 → lastCycles = lastPulse totals x) :
    (pulsesLoop compress (decide (x % 2 = 1)) lastCycles (totals.drop x)).length =
      ((List.range' x n).map (bytesOf compress totals)).sum := by
  induction n generalizing x lastCycles with
  | zero => rw [List.drop_eq_nil_of_le (by omega)]; rfl
  | succ n ih =>
      have hx : x < totals.length := by omega
      have hget : totals.getD x 0 = totals[x] := by simp [hx]
      have hmore : (!(totals.drop (x + 1)).isEmpty) = decide (x + 1 < totals.length) := by
        rcases Nat.lt_or_ge (x + 1) totals.length with h | h
        · rw [decide_eq_true h, Bool.not_eq_true', List.isEmpty_eq_false_iff]
          simpa using h
        · rw [decide_eq_false (by omega), List.drop_eq_nil_of_le h]
          rfl
      have hspace : (!decide (x % 2 = 1)) = decide ((x + 1) % 2 = 1) := by
        rcases Nat.mod_two_eq_zero_or_one x with h | h <;> simp [h, Nat.add_mod]
      have hbytes : (if dropsPulse compress (decide (x % 2 = 1)) lastCycles
          (lastByteCycles totals[x]) (!(totals.drop (x + 1)).isEmpty) then 0
          else entryBytes totals[x]) = bytesOf compress totals x := by
        rw [hmore, entryBytes_eq, bytesOf, hget]
        exact if_congr (dropsPulse_iff hget hlast) rfl rfl
      rw [List.drop_eq_getElem_cons hx, pulsesLoop]
      simp only [hbytes, List.length_append, storeEntry_length, hspace]
      rw [ih _ _ (by omega), List.range'_succ, List.map_cons, List.sum_cons]
      -- `lastCycles` changes at a pulse
      intro hver
      rcases Nat.mod_two_eq_zero_or_one x with h | h
      · rw [if_pos ⟨hver, by simp [h]⟩, lastPulse, if_neg (by omega),
          show (x + 1 - 1) / 2 * 2 = x by omega, hget]
      · rw [if_neg (by simp [h]), hlast hver, lastPulse, lastPulse, if_neg (by omega),
          if_neg (by omega), show (x + 1 - 1) / 2 * 2 = (x - 1) / 2 * 2 by omega]

end Length

theorem pulsesToIguanaSend_length (fl : ℚ → ℚ) (carrier : ℕ) (words : List (BitVec 32))
    (compress : Compress) :
    (pulsesToIguanaSend fl carrier words compress).length =
      signalBytes compress (words.map (entryCycles fl carrier)) := by
  have h := @pulsesLoop_length compress (words.map (entryCycles fl carrier))
    (words.map (entryCycles fl carrier)).length 0 0 (Nat.zero_add _) (fun _ => rfl)
  rw [signalBytes, List.range_eq_range', ← h]
  rfl

/-! ### The two requests -/

section Requests

variable (fl : ℚ → ℚ)

/-- The packets carry `bytes`, and the terminator of old firmware. -/
def Streams (d : Device) (p : Prepared) (bytes : List Byte) : Prop :=
  ∃ packets, dataStream d p none = some (true, packets) ∧
    packets.flatten = bytes ++
      if p.sent < p.request.dataLen ∧ d.idev.version < 3 ∧ p.request.code = IG_DEV_SEND
        then [0] else []

/-- `size` is what `IG_DEV_SENDSIZE` replies for the request of `s`, the number of bytes that
`IG_DEV_SEND` streams to the device, and the size of the block. -/
structure TellsSize (s : Session) (d : Device) (words : List (BitVec 32)) (size : BitVec 16) :
    Prop where
  replied : switchRequest fl (s.setCode IG_DEV_SENDSIZE) =
    some ((s.setCode IG_DEV_SENDSIZE).reply (halfBytes size), true)
  counted : ∀ heaps, ∃ codeLength,
    encode fl heaps d.idev.carrier.hz words (compressVersion (some d)) false =
      some (codeLength, none) ∧ size = codeLength.setWidth 16
  sent : ∃ r, switchRequest fl (s.setCode IG_DEV_SEND) = some (r, false) ∧ r.device = some d ∧
    ∀ checks d' p, prepare fl checks d r.request = some (d', p) →
      ∃ bytes, Streams d' p bytes ∧ bytes.length = size.toNat
  inside : ∀ heaps, ∃ block,
    encode fl heaps d.idev.carrier.hz words (compressVersion (some d)) true =
      some (size.setWidth 32, some block) ∧ (block.getD []).length = size.toNat

variable {fl}
variable {s : Session} {d : Device} {words : List (BitVec 32)}

theorem switchRequest_sendSize (hd : s.device = some d) (hwords : sendCode s.request = some words) :
    switchRequest fl (s.setCode IG_DEV_SENDSIZE) =
      some ((s.setCode IG_DEV_SENDSIZE).reply (halfBytes (BitVec.ofNat 16
        (pulsesToIguanaSend fl d.idev.carrier.hz words (compressVersion (some d))).length)),
        true) := by
  have hcases : switchRequest fl (s.setCode IG_DEV_SENDSIZE) =
      s.device.bind (sendSize fl (s.setCode IG_DEV_SENDSIZE)) := rfl
  have hcode : sendCode (s.setCode IG_DEV_SENDSIZE).request = some words := hwords
  rw [hcases, hd, Option.bind_some, sendSize, encodedSignal, hcode]
  rfl

theorem switchRequest_send (hd : s.device = some d) (hwords : sendCode s.request = some words) :
    switchRequest fl (s.setCode IG_DEV_SEND) =
      some ({ s.setCode IG_DEV_SEND with request :=
        ⟨IG_DEV_SEND, (pulsesToIguanaSend fl d.idev.carrier.hz words
            (compressVersion (some d))).length,
          codesBlock (pulsesToIguanaSend fl d.idev.carrier.hz words
            (compressVersion (some d)))⟩ }, false) := by
  have hcases : switchRequest fl (s.setCode IG_DEV_SEND) =
      s.device.bind (sendRequest fl (s.setCode IG_DEV_SEND)) := rfl
  have hcode : sendCode (s.setCode IG_DEV_SEND).request = some words := hwords
  rw [hcases, hd, Option.bind_some, sendRequest, encodedSignal, hcode]
  rfl

/-- On the way to the wire the number of bytes stays, though a checksum may overwrite two of them:
old firmware knows `IG_DEV_SEND` under the code of `IG_DEV_WRITEBLOCK`. -/
theorem checksumBlock_codes {code : Byte} {request request' : DataPacket} {codes : List Byte}
    (hdata : request.data = codesBlock codes) (hlen : request.dataLen = codes.length)
    (h : checksumBlock code request = some request') :
    request'.code = request.code ∧ request'.dataLen = request.dataLen ∧
      ∃ bytes, request'.data = codesBlock bytes ∧ bytes.length = codes.length := by
  unfold checksumBlock at h
  split_ifs at h with hblock
  · obtain ⟨block, hread, rfl⟩ := Option.map_eq_some_iff.mp h
    have hblocklen := readBytes_length hread
    have hcodes : request.data.getD [] = codes := by rw [hdata, codesBlock_getD]
    have hlong : (addChecksum block ++ codes.drop 68).length = codes.length := by
      simp only [List.length_append, addChecksum_length, List.length_drop]
      omega
    refine ⟨rfl, rfl, addChecksum block ++ codes.drop 68, ?_, hlong⟩
    have hne : addChecksum block ++ codes.drop 68 ≠ [] := by
      rw [← List.length_pos_iff, hlong]
      omega
    rw [codesBlock, if_neg hne, hcodes]
  · obtain rfl := Option.some.inj h
    exact ⟨rfl, rfl, codes, hdata, rfl⟩

variable {checks : Device → Option (Device × Bool)}

theorem prepare_send {d' : Device} {request : DataPacket} {p : Prepared} {codes : List Byte}
    (hcode : request.code = IG_DEV_SEND) (hdata : request.data = codesBlock codes)
    (hlen : request.dataLen = codes.length) (h : prepare fl checks d request = some (d', p)) :
    p.sent = 0 ∧ p.request.code = IG_DEV_SEND ∧ p.request.dataLen = codes.length ∧
      ∃ bytes, p.request.data = codesBlock bytes ∧ bytes.length = codes.length := by
  have hlabel : replaceLabel request d.idev.version = some request := by
    rw [replaceLabel, if_neg (by rw [hcode]; decide)]
  rw [prepare, hlabel] at h
  simp only [Option.bind_eq_bind, Option.bind_some] at h
  obtain ⟨request', hblock, hpack⟩ := Option.bind_eq_some_iff.mp h
  obtain ⟨hcode', hlen', bytes, hdata', hbytes⟩ := checksumBlock_codes hdata hlen hblock
  rw [hcode] at hcode'
  rw [hlen] at hlen'
  have hstream : hasDataStream request'.code := by rw [hcode']; exact .inl rfl
  rw [packRequest, if_pos hstream] at hpack
  suffices p.sent = 0 ∧ p.request = request' by
    obtain ⟨hsent, hrequest⟩ := this
    rw [hrequest]
    exact ⟨hsent, hcode', hlen', bytes, hdata', hbytes⟩
  split_ifs at hpack with hversion
  · rw [streamArguments] at hpack
    simp only [Option.bind_eq_bind] at hpack
    obtain ⟨⟨d₁, tail⟩, -, hpack⟩ := Option.bind_eq_some_iff.mp hpack
    rw [if_neg (by rw [hcode']; decide)] at hpack
    obtain ⟨-, rfl⟩ := Prod.mk.inj (Option.some.inj hpack)
    exact ⟨rfl, rfl⟩
  · obtain ⟨-, rfl⟩ := Prod.mk.inj (Option.some.inj hpack)
    exact ⟨rfl, rfl⟩

/-- The packets put together again. -/
theorem sendPackets_flatten {m : ℕ} (hm : 0 < m) (buffer : List Byte) (addTerminator : Bool) :
    (sendPackets m buffer addTerminator).flatten =
      buffer ++ if addTerminator then [0] else [] := by
  have hblocks := Chunks.blocks_flatten_append_rest hm buffer
  cases addTerminator with
  | true => simp [sendPackets, ← List.append_assoc, hblocks]
  | false =>
      by_cases hlast : Chunks.rest m buffer = []
      · rw [hlast, List.append_nil] at hblocks
        simp [sendPackets, hlast, hblocks]
      · simp [sendPackets, hlast, hblocks]

theorem streams_send {p : Prepared} {bytes : List Byte} (hsent : p.sent = 0)
    (hcode : p.request.code = IG_DEV_SEND) (hlen : p.request.dataLen = bytes.length)
    (hdata : p.request.data = codesBlock bytes) : Streams d p bytes := by
  unfold Streams dataStream
  rw [hsent, hlen, hdata, hcode]
  by_cases hempty : bytes = []
  · subst hempty
    exact ⟨[], by simp, by simp⟩
  · have hpos : 0 < bytes.length := List.length_pos_iff.mpr hempty
    have hread : readBytes (codesBlock bytes) bytes.length = some bytes := by
      rw [codesBlock, if_neg hempty, readBytes_some (Nat.le_refl _), List.take_length]
    refine ⟨sendPackets d.idev.maxPacketSize bytes (d.idev.version < 3), ?_, ?_⟩
    · rw [if_pos (by omega), hread]
      simp [sendData]
    · rw [sendPackets_flatten d.idev.packetSize_pos]
      simp [hpos]

theorem streams_length {p : Prepared} {bytes bytes' : List Byte} (h : Streams d p bytes)
    (h' : Streams d p bytes') : bytes.length = bytes'.length := by
  obtain ⟨packets, hstream, hflat⟩ := h
  obtain ⟨packets', hstream', hflat'⟩ := h'
  rw [hstream] at hstream'
  obtain ⟨-, rfl⟩ := Prod.mk.inj (Option.some.inj hstream')
  rw [hflat] at hflat'
  exact congrArg List.length (List.append_cancel_right hflat')

/-- The signal is streamed with all of its bytes. -/
theorem sent_bytes {d' : Device} {p : Prepared} {codes : List Byte}
    (h : prepare fl checks d ⟨IG_DEV_SEND, codes.length, codesBlock codes⟩ = some (d', p)) :
    ∃ bytes, Streams d' p bytes ∧ bytes.length = codes.length := by
  obtain ⟨hsent, hcode, hlen, bytes, hdata, hbytes⟩ := prepare_send rfl rfl rfl h
  exact ⟨bytes, streams_send hsent hcode (by rw [hlen, hbytes]) hdata, hbytes⟩

theorem channelBytes_unknown (d : Device) :
    ∃ tail, channelBytes fl (fun d => some (d, false)) d = some (d, tail) := by
  unfold channelBytes loopCycles
  split_ifs
  · exact ⟨_, rfl⟩
  · exact ⟨_, rfl⟩
  · exact ⟨_, rfl⟩

/-- The signal can be prepared: for one, with features that stay unknown. -/
theorem prepare_send_isSome (d : Device) (codes : List Byte) :
    ∃ d' p, prepare fl (fun d => some (d, false)) d
      ⟨IG_DEV_SEND, codes.length, codesBlock codes⟩ = some (d', p) := by
  obtain ⟨request, hblock⟩ : ∃ request, checksumBlock (deviceCode IG_DEV_SEND d.idev.version)
      ⟨IG_DEV_SEND, codes.length, codesBlock codes⟩ = some request := by
    unfold checksumBlock
    split_ifs with h
    · have hlen : codes.length = 68 := by
        have := h.2
        simp only at this
        omega
      have hne : codes ≠ [] := by
        rintro rfl
        simp at hlen
      have hread : readBytes (codesBlock codes) 68 = some (codes.take 68) := by
        rw [codesBlock, if_neg hne]
        exact @readBytes_some codes 68 (by omega)
      exact ⟨_, Option.map_eq_some_iff.mpr ⟨_, hread, rfl⟩⟩
    · exact ⟨_, rfl⟩
  obtain ⟨hcode, -, -⟩ := checksumBlock_codes rfl rfl hblock
  obtain ⟨tail, htail⟩ := @channelBytes_unknown fl d
  have hprepare : prepare fl (fun d => some (d, false)) d
      ⟨IG_DEV_SEND, codes.length, codesBlock codes⟩ =
      packRequest fl (fun d => some (d, false)) d (deviceCode IG_DEV_SEND d.idev.version)
        request := by
    have hlabel : replaceLabel ⟨IG_DEV_SEND, codes.length, codesBlock codes⟩ d.idev.version =
      some ⟨IG_DEV_SEND, codes.length, codesBlock codes⟩ := rfl
    rw [prepare, hlabel]
    exact congrArg (Option.bind · _) hblock
  rw [hprepare, packRequest, if_pos (by rw [hcode]; exact .inl rfl)]
  split_ifs
  · rw [streamArguments, streamTail, hcode, if_pos (.inl rfl), htail]
    exact ⟨_, _, rfl⟩
  · exact ⟨_, _, rfl⟩

/-- A size that is told fits. -/
theorem tellsSize_fits {size : BitVec 16} (hd : s.device = some d)
    (hwords : sendCode s.request = some words) (h : TellsSize fl s d words size) :
    signalBytes (compressVersion (some d)) (words.map (entryCycles fl d.idev.carrier.hz)) <
      65536 := by
  obtain ⟨r, hr, -, hsent⟩ := h.sent
  rw [switchRequest_send hd hwords] at hr
  obtain ⟨rfl, -⟩ := Prod.mk.inj (Option.some.inj hr)
  obtain ⟨d', p, hp⟩ := @prepare_send_isSome fl d
    (pulsesToIguanaSend fl d.idev.carrier.hz words (compressVersion (some d)))
  obtain ⟨bytes, hbytes, hsize⟩ := hsent _ _ _ hp
  obtain ⟨bytes', hbytes', hlen⟩ := sent_bytes hp
  have := streams_length hbytes hbytes'
  have := size.isLt
  rw [← pulsesToIguanaSend_length]
  omega

/-- **`IG_DEV_SENDSIZE` tells the truth about `IG_DEV_SEND`** exactly for the signals whose size
fits its 16 bits. -/
theorem tellsSize_iff (hd : s.device = some d) (hwords : sendCode s.request = some words) :
    (∃ size, TellsSize fl s d words size) ↔
      signalBytes (compressVersion (some d))
        (words.map (entryCycles fl d.idev.carrier.hz)) < 65536 := by
  constructor
  · rintro ⟨size, h⟩
    exact tellsSize_fits hd hwords h
  · intro hfits
    rw [← pulsesToIguanaSend_length] at hfits
    generalize hcodes : pulsesToIguanaSend fl d.idev.carrier.hz words (compressVersion (some d)) =
      codes at hfits
    have hsize : (BitVec.ofNat 16 codes.length).toNat = codes.length := by
      rw [BitVec.toNat_ofNat]
      omega
    refine ⟨BitVec.ofNat 16 codes.length, ?_, fun heaps => ?_, ?_, fun heaps => ?_⟩
    · rw [← hcodes]
      exact switchRequest_sendSize hd hwords
    · refine ⟨BitVec.ofNat 32 codes.length, ?_, by simp⟩
      rw [← hcodes]
      exact encode_counts fl heaps _ words _
    · refine ⟨_, switchRequest_send hd hwords, hd, fun checks d' p hp => ?_⟩
      obtain ⟨bytes, hbytes, hlen⟩ := sent_bytes hp
      exact ⟨bytes, hbytes, by rw [hlen, hcodes, hsize]⟩
    · refine ⟨codesBlock codes, ?_, by rw [codesBlock_getD, hsize]⟩
      have hwide : (BitVec.ofNat 16 codes.length).setWidth 32 = BitVec.ofNat 32 codes.length := by
        apply BitVec.eq_of_toNat_eq
        rw [BitVec.toNat_setWidth, hsize, BitVec.toNat_ofNat]
      rw [hwide, ← hcodes]
      exact encode_stores fl heaps _ words _ (by rw [hcodes]; omega)

end Requests

/-! ### Signals of 16 seconds to an entry -/

/-- A device with a carrier of 100 kHz. -/
def signalDevice : Device :=
  (startWorker 8 eight_pos ⟨0, ascii "0", none, none⟩ (1, 2) 0x0309 ⟨[], []⟩).setCarrier
    ⟨100000, by decide, by decide⟩

/-- A request with `n` entries. -/
def signalRequest (n : ℕ) : Session where
  server := ⟨true, []⟩
  device := some signalDevice
  target := ⟨0, 0, IG_PROTOCOL_VERSION⟩
  request := ⟨IG_DEV_SENDSIZE, 4 * n, some (List.replicate n [0x00, 0x24, 0xF4, 0x00]).flatten⟩

theorem entryCycles_signal : entryCycles Binary64.nearest 100000 16000000 = 1600000 := by
  have h₁ : Binary64.nearest 16 = 16 :=
    Binary64.nearest_of_dyadic (m := 16) (e := 0) (by norm_num) (by norm_num)
  have h₂ : Binary64.nearest 1600000 = 1600000 :=
    Binary64.nearest_of_dyadic (m := 1600000) (e := 0) (by norm_num) (by norm_num)
  have h₃ : Binary64.nearest (3200001 / 2) = 3200001 / 2 :=
    Binary64.nearest_of_dyadic (m := 3200001) (e := -1) (by norm_num) (by norm_num)
  have hmask : (16000000 &&& IG_PULSE_MASK : BitVec 32).toNat = 16000000 := by decide
  have hfloor : ⌊(3200001 / 2 : ℚ)⌋₊ = 1600000 := by
    apply (Nat.floor_eq_iff (by norm_num)).mpr
    constructor <;> norm_num
  rw [entryCycles, hmask]
  norm_num [h₁, h₂, h₃, hfloor]

/-- Two entries. -/
theorem tellsSize_two : (signalRequest 2).device = some signalDevice ∧
    sendCode (signalRequest 2).request = some [16000000, 16000000] ∧
    ∃ size, TellsSize Binary64.nearest (signalRequest 2) signalDevice [16000000, 16000000] size :=
  ⟨rfl, by decide, (tellsSize_iff rfl (by decide)).mpr (by
    simp only [List.map_cons, List.map_nil, show signalDevice.idev.carrier.hz = 100000 from rfl,
      entryCycles_signal]
    decide)⟩

/-- Of twelve entries the bytes are 88193, and the reply is 22657. -/
theorem sendSize_wraps :
    sendCode (signalRequest 12).request = some (List.replicate 12 16000000) ∧
    signalBytes (compressVersion (some signalDevice))
      ((List.replicate 12 16000000).map (entryCycles Binary64.nearest 100000)) = 88193 ∧
    switchRequest Binary64.nearest ((signalRequest 12).setCode IG_DEV_SENDSIZE) =
      some (((signalRequest 12).setCode IG_DEV_SENDSIZE).reply (halfBytes 22657), true) ∧
    ¬∃ size, TellsSize Binary64.nearest (signalRequest 12) signalDevice
      (List.replicate 12 16000000) size := by
  have hwords : sendCode (signalRequest 12).request = some (List.replicate 12 16000000) := by
    decide
  have hcount : signalBytes (compressVersion (some signalDevice))
      ((List.replicate 12 16000000).map (entryCycles Binary64.nearest 100000)) = 88193 := by
    rw [List.map_replicate, entryCycles_signal]
    decide
  refine ⟨hwords, hcount, ?_, ?_⟩
  · have hreply := @switchRequest_sendSize Binary64.nearest (signalRequest 12) signalDevice _ rfl
      hwords
    rw [pulsesToIguanaSend_length, show signalDevice.idev.carrier.hz = 100000 from rfl, hcount]
      at hreply
    exact hreply
  · rintro ⟨size, h⟩
    have hfits := tellsSize_fits rfl hwords h
    rw [show signalDevice.idev.carrier.hz = 100000 from rfl, hcount] at hfits
    omega

end IguanaIR
