import IguanaIR.Firmware.SignalOrder
import IguanaIR.LircReceive
import IguanaIR.ReplyPerRequest
import IguanaIR.RunBounds
import IguanaIR.SignalDelivery

/-! # A received signal on its way to LIRC

The captures of the firmware, the packets of `write_signal`, the reader, `handleReader` with
`iguanaDevToPulses`, and `recv_loop` of the LIRC driver, one after the other.  The firmware cuts the
signal into packets of seven bytes, the daemon turns every packet into words of its own, and the
driver joins the words of one kind again.

The cuts cost nothing but rounding: the words that LIRC gets are the runs of the signal, with a
duration between that of the whole run and that of its bytes one by one. -/

namespace IguanaIR

open Firmware

/-! ### Levels -/

/-- The state and the ticks of each byte. -/
def byteTicks (code : List Byte) : List (Byte × ℕ) :=
  code.map (fun b => (b &&& STATE_MASK, (receivedTicks b).toNat))

/-- The state and the microseconds of each word. -/
def wordLevels (words : List (BitVec 32)) : List (Byte × ℕ) :=
  words.map (fun word => (if isPulse word then 0 else STATE_MASK, duration word))

/-- `(ticks << 6) / 3` -/
def microseconds (ticks : ℕ) : ℕ := 64 * ticks / 3

/-- What fits a word. -/
def saturated (d : ℕ) : ℕ := min d PULSE_MASK.toNat

/-- The words are the runs of the bytes, in microseconds.  A run lasts at most as long as all of its
ticks, and at least as long as its bytes one by one. -/
structure Renders (code : List Byte) (words : List (BitVec 32)) : Prop where
  lower : Runs.Le (Runs.scale saturated (Runs.merge (Runs.scale microseconds (byteTicks code))))
    (wordLevels words)
  upper : Runs.Le (wordLevels words)
    (Runs.scale saturated (Runs.scale microseconds (Runs.merge (byteTicks code))))

theorem wordLevels_append (words words' : List (BitVec 32)) :
    wordLevels (words ++ words') = wordLevels words ++ wordLevels words' := List.map_append

theorem microseconds_roundsDown : Runs.RoundsDown microseconds := by
  refine ⟨fun a b => ?_, fun a ha => ?_⟩
  · unfold microseconds
    omega
  · unfold microseconds
    omega

theorem saturated_mono : Monotone saturated := fun _ _ h => min_le_min_right _ h

theorem saturated_add (a b : ℕ) : saturatingAdd (saturated a) b = saturated (a + b) := by
  unfold saturatingAdd saturated
  omega

theorem saturated_le (d : ℕ) : saturated d ≤ PULSE_MASK.toNat := Nat.min_le_right ..

/-! ### The words of a packet -/

theorem and_state : ∀ b : Byte, b &&& STATE_MASK = 0 ∨ b &&& STATE_MASK = STATE_MASK := by decide

theorem total_byteTicks (s : Byte) (code : List Byte) :
    Runs.total s (byteTicks code) ≤ 1024 * code.length := by
  induction code with
  | nil => simp [byteTicks]
  | cons b code ih =>
      have hticks := (receivedTicks_le b).1
      change Runs.total s ((b &&& STATE_MASK, (receivedTicks b).toNat) :: byteTicks code) ≤ _
      rw [Runs.total_cons, List.length_cons]
      split <;> omega

/-- The runs of a few bytes are pulses or spaces, and short. -/
theorem signalRuns_mem {code : List Byte} {run : Byte × ℕ} (h : run ∈ signalRuns code) :
    (run.1 = 0 ∨ run.1 = STATE_MASK) ∧ run.2 ≤ 1024 * code.length := by
  have hle := Runs.le_total h
  rw [signalRuns, Runs.total_merge] at hle
  have htotal := total_byteTicks run.1 code
  have hbytes : Runs.total run.1 (byteTicks code) =
      Runs.total run.1 (code.map (fun b => (b &&& STATE_MASK, (receivedTicks b).toNat))) := rfl
  obtain ⟨q, hq, hstate⟩ := Runs.mem_merge h
  obtain ⟨b, -, rfl⟩ := List.mem_map.mp hq
  exact ⟨hstate ▸ and_state b, by omega⟩

theorem IsWord.level {state : Byte} {t : ℕ} {word : BitVec 32} (h : IsWord state t word)
    (hs : state = 0 ∨ state = STATE_MASK) :
    (if isPulse word then 0 else STATE_MASK, duration word) = (state, microseconds t) := by
  have hfits : microseconds t ≤ 16777215 := h.fits
  have hvalue : word.toNat = (if state = 0 then 16777216 else 0) + microseconds t := h.value
  have hpulse : isPulse word = true ↔ state = 0 := by
    rw [isPulse_iff, show IG_PULSE_BIT = PULSE_BIT from rfl, and_bit_ne_zero]
    by_cases hzero : state = 0
    · rw [if_pos hzero] at hvalue
      exact iff_of_true (by omega) hzero
    · rw [if_neg hzero] at hvalue
      exact iff_of_false (by omega) hzero
  have hduration : duration word = microseconds t := by
    rw [duration, show IG_PULSE_MASK = PULSE_MASK from rfl, and_mask_toNat]
    split at hvalue <;> omega
  rw [hduration]
  rcases hs with rfl | rfl
  · rw [if_pos (hpulse.mpr rfl)]
  · rw [if_neg (fun h => absurd (hpulse.mp h) (by decide))]

theorem Grouped.levels {runs : List (Byte × ℕ)} {words : List (BitVec 32)} (h : Grouped runs words)
    (hruns : ∀ run ∈ runs, (run.1 = 0 ∨ run.1 = STATE_MASK) ∧ run.2 ≤ 786431) :
    wordLevels words = Runs.scale microseconds runs := by
  induction h with
  | nil => rfl
  | @run state total runs words rest pieces hsum hwords hwhole hrest ih =>
      obtain ⟨hs, hshort⟩ := hruns (state, total) (List.mem_cons_self ..)
      obtain rfl := hwhole ((fits_iff total).mpr hshort)
      cases hwords with
      | cons hword hnil =>
          cases hnil
          rw [wordLevels_append, Runs.scale_cons,
            ih (fun run hrun => hruns run (List.mem_cons_of_mem _ hrun))]
          exact congrArg (· :: _) (hword.level hs)

theorem IsWord.small {state : Byte} {t : ℕ} {word : BitVec 32} (h : IsWord state t word) :
    word.toNat < 33554432 := by
  have hfits : microseconds t ≤ 16777215 := h.fits
  have hvalue : word.toNat = (if state = 0 then 16777216 else 0) + microseconds t := h.value
  split at hvalue <;> omega

theorem small_words {state : Byte} {pieces : List ℕ} {words : List (BitVec 32)}
    (h : List.Forall₂ (IsWord state) pieces words) : ∀ word ∈ words, word.toNat < 33554432 := by
  induction h with
  | nil => simp
  | cons hfirst _ ih =>
      intro word hword
      rcases List.mem_cons.mp hword with rfl | hword
      · exact hfirst.small
      · exact ih word hword

theorem Grouped.small {runs : List (Byte × ℕ)} {words : List (BitVec 32)} (h : Grouped runs words) :
    ∀ word ∈ words, word.toNat < 33554432 := by
  induction h with
  | nil => simp
  | run pieces _ hwords _ _ ih =>
      intro word hword
      rcases List.mem_append.mp hword with hword | hword
      · exact small_words hwords word hword
      · exact ih word hword

/-- `iguanaDevToPulses` of a packet's bytes: one word for each of their runs. -/
theorem devToPulses_packet {w : List Byte} (hlen : w.length = 7) :
    ∃ words, iguanaDevToPulses w = some words ∧ words.length ≤ 7 ∧
      (∀ word ∈ words, word.toNat < 33554432) ∧
      wordLevels words = Runs.scale microseconds (Runs.merge (byteTicks w)) := by
  obtain _ | ⟨b, rest⟩ := w
  · cases hlen
  · have hruns : ∀ run ∈ signalRuns (b :: rest),
        (run.1 = 0 ∨ run.1 = STATE_MASK) ∧ run.2 ≤ 786431 := by
      intro run hrun
      obtain ⟨hs, hle⟩ := signalRuns_mem hrun
      exact ⟨hs, by omega⟩
    have hgrouped := grouped_devToPulses rest (b &&& STATE_MASK) (receivedTicks b)
      (receivedTicks_le b).2 (fun run hrun => (hruns run hrun).2)
    have hcount := devToPulses_length_le rest (b &&& STATE_MASK) (receivedTicks b)
    rw [List.length_cons] at hlen
    exact ⟨_, rfl, by omega, hgrouped.small, hgrouped.levels hruns⟩

/-! ### LIRC's words -/

theorem wordLevels_lircWord (pulse : Bool) {d : ℕ} (h : d ≤ PULSE_MASK.toNat) :
    wordLevels [lircWord pulse d] = [(if pulse then 0 else STATE_MASK, d)] := by
  simp [wordLevels, isPulse_lircWord pulse h, duration_lircWord pulse h]

/-- The loop puts words of one kind together, as merging does, but for the limit of a word. -/
theorem wordLevels_mergeFrom : ∀ (rest : List (BitVec 32)) (pulse : Bool) (d : ℕ), 0 < d →
    (∀ word ∈ rest, 0 < duration word) →
      wordLevels (mergeFrom (lircWord pulse (saturated d)) rest) =
        Runs.scale saturated (Runs.push (if pulse then 0 else STATE_MASK) d
          (Runs.merge (wordLevels rest)))
  | [], pulse, d, hd, _ => by
      have hnil : Runs.merge (wordLevels []) = [] := rfl
      rw [mergeFrom, wordLevels_lircWord pulse (saturated_le d), hnil, Runs.push_nil _ hd]
      rfl
  | word :: rest, pulse, d, hd, hpos => by
      have hword := hpos word (List.mem_cons_self ..)
      have hrest : ∀ word ∈ rest, 0 < duration word :=
        fun w hw => hpos w (List.mem_cons_of_mem _ hw)
      have hlevels : Runs.merge (wordLevels (word :: rest)) =
          Runs.push (if isPulse word then 0 else STATE_MASK) (duration word)
            (Runs.merge (wordLevels rest)) := rfl
      have hsame := sameCode_lircWord pulse (saturated_le d) word
      rw [hlevels, mergeFrom]
      by_cases hkind : pulse = isPulse word
      · rw [if_pos (hsame.mpr hkind), extendCode_lircWord pulse (saturated_le d), saturated_add,
          wordLevels_mergeFrom rest pulse (d + duration word) (by omega) hrest, ← hkind,
          Runs.push_push]
      · -- the next word begins with its own duration
        have hfits : saturated (duration word) = duration word :=
          Nat.min_eq_left (duration_le word)
        have ih := wordLevels_mergeFrom rest (isPulse word) (duration word) hword hrest
        rw [hfits, ← startCode_eq] at ih
        have hlevel : (if pulse then 0 else STATE_MASK) ≠ (if isPulse word then 0 else STATE_MASK) := by
          revert hkind
          cases pulse <;> cases isPulse word <;> decide
        rw [if_neg (hsame.not.mpr hkind), Runs.push_other hlevel hd hword, Runs.scale_cons, ← ih]
        exact congrArg (· ++ _) (wordLevels_lircWord pulse (saturated_le d))

/-- **`recv_loop`** merges the words of all packets. -/
theorem recvLoop_levels (packets : List (List (BitVec 32)))
    (hlen : ∀ packet ∈ packets, packet.length ≤ 7)
    (hpos : ∀ word ∈ packets.flatten, 0 < duration word) :
    ∃ last written, recvLoop (-1) packets = some (last, written) ∧
      wordLevels (written ++ pending last) =
        Runs.scale saturated (Runs.merge (wordLevels packets.flatten)) := by
  obtain ⟨hnil, hcons⟩ := recvLoop_start packets hlen
  cases hflatten : packets.flatten with
  | nil => exact ⟨-1, [], hnil hflatten, rfl⟩
  | cons word rest =>
      obtain ⟨last, written, hloop, hlast, hwritten⟩ := hcons word rest hflatten
      rw [hflatten] at hpos
      have hfits : saturated (duration word) = duration word := Nat.min_eq_left (duration_le word)
      have hlevels := wordLevels_mergeFrom rest (isPulse word) (duration word)
        (hpos word (List.mem_cons_self ..)) (fun w hw => hpos w (List.mem_cons_of_mem _ hw))
      rw [hfits, ← startCode_eq, ← hwritten] at hlevels
      have hpending : pending last = [last] := if_neg hlast.ne
      exact ⟨last, written, hloop, by rw [hpending, hlevels]; rfl⟩

/-! ### The daemon -/

theorem bytesWords_wordBytes (words : List (BitVec 32)) :
    bytesWords (words.flatMap wordBytes) = words := by
  induction words with
  | nil => rfl
  | cons word words ih =>
      have hword : word.extractLsb' 24 8 ++ word.extractLsb' 16 8 ++ word.extractLsb' 8 8 ++
          word.extractLsb' 0 8 = word := by
        ext i hi
        simp only [BitVec.getElem_append, BitVec.getElem_extractLsb']
        split_ifs <;> grind
      rw [List.flatMap_cons]
      change (word.extractLsb' 24 8 ++ word.extractLsb' 16 8 ++ word.extractLsb' 8 8 ++
        word.extractLsb' 0 8) :: bytesWords (words.flatMap wordBytes) = _
      rw [hword, ih]

/-- For this packet `handleReader` sends these words to a client that receives pulses. -/
def TellsWords (packet : DataPacket) (words : List (BitVec 32)) : Prop :=
  ∀ me : Client, me.receiving = IG_DEV_RECVON → me.version ≤ IG_PROTOCOL_VERSION →
    ∃ code payload, translateProtocol IG_DEV_RECV me.version true = some code ∧
      tellPacket packet (fun _ => true) [me] =
        some ([me], [(me.fd, ⟨code, payload.length, payload⟩)]) ∧
      bytesWords payload = words

theorem tellsWords_signal {w : List Byte} {words : List (BitVec 32)} (hlen : w.length = 7)
    (hpulses : iguanaDevToPulses w = some words) : TellsWords ⟨IG_DEV_RECV, 7, some w⟩ words := by
  intro me hon hknown
  obtain ⟨code, hcode⟩ := Option.isSome_iff_exists.mp (translateProtocol_recv hknown)
  have hread : readBytes (some w) 7 = some w := by
    have h := @readBytes_some w 7 (by omega)
    rwa [List.take_of_length_le (by omega)] at h
  have hne : ¬me.receiving = IG_DEV_RAWRECVON := by
    rw [hon]
    decide
  refine ⟨code, words.flatMap wordBytes, hcode, ?_, bytesWords_wordBytes words⟩
  have hraw : forEach (tellReceivers ⟨IG_DEV_RECV, 7, some w⟩ false (fun _ => true)) [me] =
      some ([me], []) := by
    simp [forEach, tellReceivers, hne]
  have hframe := pulsePacket_frame ⟨IG_DEV_RECV, 7, some w⟩ words code
  have htold : forEach (tellReceivers (pulsePacket ⟨IG_DEV_RECV, 7, some w⟩ words) true
      (fun _ => true)) [me] = some ([me], [(me.fd, ⟨code, (words.flatMap wordBytes).length,
        words.flatMap wordBytes⟩)]) := by
    have hpulse : translateProtocol (pulsePacket ⟨IG_DEV_RECV, 7, some w⟩ words).code me.version
        true = some code := hcode
    simp [forEach, tellReceivers, hon, hpulse, hframe]
  rw [tellPacket, if_pos rfl, tellSignal, hraw]
  simp only [Option.bind_eq_bind, Option.bind_some, hread, hpulses, htold, List.nil_append]

/-! ### Pieces of a signal -/

theorem byteTicks_flatten (pieces : List (List Byte)) :
    byteTicks pieces.flatten = (pieces.map byteTicks).flatten := List.map_flatten

/-- The words that a receiver of pulses is sent for pieces of a signal. -/
structure PieceWords (pieces : List (List Byte)) (words : List (List (BitVec 32))) : Prop where
  told : List.Forall₂ (fun w packet => TellsWords ⟨IG_DEV_RECV, 7, some w⟩ packet) pieces words
  count : ∀ packet ∈ words, packet.length ≤ 7
  small : ∀ word ∈ words.flatten, word.toNat < 33554432
  levels : wordLevels words.flatten =
    ((pieces.map byteTicks).map (fun l => Runs.scale microseconds (Runs.merge l))).flatten

theorem pieceWords : ∀ {pieces : List (List Byte)}, (∀ w ∈ pieces, w.length = 7) →
    ∃ words, PieceWords pieces words
  | [], _ => ⟨[], .nil, by simp, by simp, rfl⟩
  | w :: pieces, hlen => by
      have hw := hlen w (List.mem_cons_self ..)
      obtain ⟨packet, hpulses, hcount, hsmall, hlevels⟩ := devToPulses_packet hw
      obtain ⟨words, htold, hcounts, hsmalls, hrest⟩ :=
        pieceWords (fun w hw => hlen w (List.mem_cons_of_mem _ hw))
      refine ⟨packet :: words, .cons (tellsWords_signal hw hpulses) htold, ?_, ?_, ?_⟩
      · intro p hp
        rcases List.mem_cons.mp hp with rfl | hp
        · exact hcount
        · exact hcounts p hp
      · intro word hword
        rcases List.mem_append.mp hword with hword | hword
        · exact hsmall word hword
        · exact hsmalls word hword
      · rw [List.flatten_cons, wordLevels_append, hlevels, hrest]
        rfl

/-- Every word has a duration. -/
theorem PieceWords.pos {pieces : List (List Byte)} {words : List (List (BitVec 32))}
    (h : PieceWords pieces words) : ∀ word ∈ words.flatten, 0 < duration word := by
  intro word hword
  have hmem : (if isPulse word then 0 else STATE_MASK, duration word) ∈ wordLevels words.flatten :=
    List.mem_map_of_mem hword
  rw [h.levels] at hmem
  obtain ⟨piece, hpiece, hmem⟩ := List.mem_flatten.mp hmem
  obtain ⟨l, -, rfl⟩ := List.mem_map.mp hpiece
  obtain ⟨run, hrun, heq⟩ := List.mem_map.mp hmem
  rw [← (Prod.mk.inj heq).2]
  exact microseconds_roundsDown.pos _ (Runs.merge_pos l run hrun)

/-- The words of all pieces, merged, against the signal. -/
theorem PieceWords.bounds {pieces : List (List Byte)} {words : List (List (BitVec 32))}
    (h : PieceWords pieces words) :
    Runs.Le (Runs.merge (Runs.scale microseconds (byteTicks pieces.flatten)))
        (Runs.merge (wordLevels words.flatten)) ∧
      Runs.Le (Runs.merge (wordLevels words.flatten))
        (Runs.scale microseconds (Runs.merge (byteTicks pieces.flatten))) := by
  rw [h.levels, byteTicks_flatten]
  exact Runs.merge_pieces microseconds_roundsDown (pieces.map byteTicks)

/-! ### The reader -/

theorem take_infix_packetBytes {packets : List (List Byte)} {p : List Byte} (hp : p ∈ packets) :
    p.take 7 <:+: packetBytes packets := by
  obtain ⟨front, back, rfl⟩ := List.append_of_mem hp
  refine ⟨packetBytes front, packetBytes back, ?_⟩
  rw [packetBytes_append, List.append_assoc]
  rfl

/-- The reader queues what the packets hold of the signal. -/
theorem handleIncomingPackets_pieces {es : List SignalEvent} (hreads : ReadsPieces es)
    (settings : ReaderSettings) : ∀ (packets : List (List Byte)) (prev : ℤ),
      (∀ p ∈ packets, p.length = 8 ∧ p.take 7 <:+: stream es) →
      ∃ prev', handleIncomingPackets settings (.waiting prev) (packets.map .data) =
        some (.waiting prev', packets.map (fun p => .recvList ⟨IG_DEV_RECV, 7, some (p.take 7)⟩))
  | [], prev, _ => ⟨prev, rfl⟩
  | p :: packets, prev, h => by
      obtain ⟨hlen, hinfix⟩ := h p (List.mem_cons_self ..)
      obtain ⟨prev', hrest⟩ := handleIncomingPackets_pieces hreads settings packets 8
        (fun q hq => h q (List.mem_cons_of_mem _ hq))
      refine ⟨prev', ?_⟩
      have htake : (p.take 7).length = 7 := by
        rw [List.length_take]
        omega
      obtain ⟨fill, hfill⟩ : ∃ fill, p.drop 7 = [fill] := by
        apply List.length_eq_one_iff.mp
        rw [List.length_drop]
        omega
      have hp : p.take 7 ++ [fill] = p := by rw [← hfill, List.take_append_drop]
      have hone := hreads (p.take 7) fill settings prev htake hinfix
      rw [hp, handleIncomingPackets_cons] at hone
      obtain ⟨⟨phase, routed⟩, hstep, hone⟩ := Option.bind_eq_some_iff.mp hone
      obtain ⟨rfl, rfl⟩ : phase = .waiting 8 ∧
          routed = [.recvList ⟨IG_DEV_RECV, 7, some (p.take 7)⟩] := by
        simpa [handleIncomingPackets, Transition.run] using hone
      rw [List.map_cons, handleIncomingPackets_cons, hstep, Option.bind_some, hrest]
      rfl

/-! ### Captures and wraps -/

/-- The state and the ticks that the host finds for an interrupt. -/
def eventTicks : SignalEvent → List (Byte × ℕ)
  | .capture rising timer => [(pulseBit rising,
      128 * (timer.toNat / 64 / 128) + remainderTicks (timer.toNat / 64 % 256))]
  | .wrap => [(STATE_MASK, 1024)]
  | _ => []

theorem remainderTicks_bounds (x : ℕ) : 0 < remainderTicks x ∧ remainderTicks x ≤ 1024 := by
  unfold remainderTicks
  split_ifs <;> omega

theorem merge_captureBytes (rising : Bool) (timer : BitVec 16) :
    Runs.merge (byteTicks (captureBytes rising timer)) = eventTicks (.capture rising timer) := by
  obtain ⟨hstate, hfull⟩ := full_spec rising
  obtain ⟨hpos, hle⟩ := remainderTicks_bounds (timer.toNat / 64 % 256)
  have hremainder : (receivedTicks (remainderByte (timer.extractLsb' 8 8) (timer.extractLsb' 0 8)
      (pulseBit rising))).toNat = remainderTicks (timer.toNat / 64 % 256) := by
    rw [receivedTicks_remainderByte, BitVec.toNat_ofNat]
    omega
  have hbytes : byteTicks (captureBytes rising timer) =
      (List.replicate (fullBytes timer) 128 ++ [remainderTicks (timer.toNat / 64 % 256)]).map
        (fun n => (pulseBit rising, n)) ++ [] := by
    rw [captureBytes, byteTicks, List.map_append, List.map_append, List.append_nil,
      List.map_replicate, List.map_replicate, List.map_singleton, List.map_singleton, hstate, hfull,
      hremainder]
    congr 2
    exact Prod.ext (state_remainder _ _) rfl
  rw [hbytes, Runs.merge_same_append, List.sum_append, List.sum_replicate_nat, List.sum_singleton,
    Runs.merge_nil, Runs.push_nil _ (by omega), fullBytes_eq, Nat.mul_comm]
  rfl

/-- The runs of a signal are those of its captures and wraps. -/
theorem merge_stream (es : List SignalEvent) :
    Runs.merge (byteTicks (stream es)) = Runs.merge (es.flatMap eventTicks) := by
  have hevent : ∀ e : SignalEvent, Runs.merge (byteTicks e.bytes) = eventTicks e := by
    intro e
    cases e with
    | capture rising timer => exact merge_captureBytes rising timer
    | instruction | loop | wrap => rfl
  have hstream : byteTicks (stream es) = (es.map (fun e => byteTicks e.bytes)).flatten := by
    rw [byteTicks, stream, List.flatMap, List.map_flatten, List.map_map]
    rfl
  rw [hstream, ← Runs.merge_flatten, List.map_map, List.flatMap]
  congr 3
  funext e
  exact hevent e

/-! ### The whole way -/

/-- What arrives at the host of a signal: packets whose bytes the reader queues as they are. -/
structure Arrives (settings : ReaderSettings) (prev : ℤ) (c c' : Chip) (es : List SignalEvent)
    (packets : List (List Byte)) (queue : List DataPacket) : Prop where
  sent : c'.mcu.sent = c.mcu.sent ++ packets
  divided : Divided c' (stream es) packets
  pieces : queue = packets.map (fun p => ⟨IG_DEV_RECV, 7, some (p.take 7)⟩)
  read : ∃ prev', handleIncomingPackets settings (.waiting prev) (packets.map .data) =
    some (.waiting prev', queue.map .recvList)

theorem signal_arrives {c c' : Chip} {es : List SignalEvent} {os : List Unit} (h : c.Listens)
    (hrunning : ¬halted c.mcu) (halt : AlternatingEdges es)
    (hroom : Transition.Guarded signalStep HasRoom c es)
    (hrun : Transition.run signalStep c es = some (c', os)) (settings : ReaderSettings) (prev : ℤ) :
    ∃ packets queue, Arrives settings prev c c' es packets queue := by
  obtain ⟨packets, hsent, hdivided⟩ := (signalRun_accounts h hrunning hroom hrun).divided
  obtain ⟨-, hput⟩ := signalRun_signals h.signals hroom hrun
  rw [h.put, List.nil_append] at hput
  rw [hput] at hdivided
  obtain ⟨taken, held, -, hparts, -⟩ := hdivided.parts
  have hprefix : packetBytes packets <+: stream es := ⟨taken ++ held, hparts.symm⟩
  have hpackets : ∀ p ∈ packets, p.length = 8 ∧ p.take 7 <:+: stream es := fun p hp =>
    ⟨hdivided.whole p hp, (take_infix_packetBytes hp).trans hprefix.isInfix⟩
  obtain ⟨prev', hreader⟩ := handleIncomingPackets_pieces (alternating_readsPieces halt) settings
    packets prev hpackets
  refine ⟨packets, _, hsent, hdivided, rfl, prev', ?_⟩
  rw [hreader, List.map_map]
  rfl

/-- When all bytes have been sent, the packets hold all of them. -/
theorem Arrives.whole {settings : ReaderSettings} {prev : ℤ} {c c' : Chip} {es : List SignalEvent}
    {packets : List (List Byte)} {queue : List DataPacket}
    (h : Arrives settings prev c c' es packets queue) (hidle : c'.pc = .idle)
    (hempty : c'.mcu.received = []) : packetBytes packets = stream es := by
  have hall := h.divided.idle hidle
  rw [hempty, List.append_nil] at hall
  exact hall.symm

/-- The words that a receiver of pulses gets of it. -/
theorem Arrives.pieceWords {settings : ReaderSettings} {prev : ℤ} {c c' : Chip}
    {es : List SignalEvent} {packets : List (List Byte)} {queue : List DataPacket}
    (h : Arrives settings prev c c' es packets queue) :
    ∃ words, List.Forall₂ TellsWords queue words ∧ PieceWords (packets.map (·.take 7)) words := by
  have hpieces : ∀ w ∈ packets.map (·.take 7), w.length = 7 := by
    intro w hw
    obtain ⟨p, hp, rfl⟩ := List.mem_map.mp hw
    have hwhole := h.divided.whole p hp
    rw [List.length_take]
    omega
  obtain ⟨words, hwords⟩ := IguanaIR.pieceWords hpieces
  have htold := hwords.told
  rw [List.forall₂_map_left_iff] at htold
  refine ⟨words, ?_, hwords⟩
  rw [h.pieces, List.forall₂_map_left_iff]
  exact htold

/-- **From the timer to LIRC.**  While captures alternate and nothing overflows, the reader takes
every packet for a signal, and LIRC's words are the runs of the bytes in the packets.  When all
bytes have been sent, these are the runs of the captures and wraps. -/
theorem receivedSignal {c c' : Chip} {es : List SignalEvent} {os : List Unit} (h : c.Listens)
    (hrunning : ¬halted c.mcu) (halt : AlternatingEdges es)
    (hroom : Transition.Guarded signalStep HasRoom c es)
    (hrun : Transition.run signalStep c es = some (c', os)) (settings : ReaderSettings) (prev : ℤ) :
    ∃ packets queue words last written, Arrives settings prev c c' es packets queue ∧
      List.Forall₂ TellsWords queue words ∧ recvLoop (-1) words = some (last, written) ∧
      Renders (packetBytes packets) (written ++ pending last) ∧
      (c'.pc = .idle → c'.mcu.received = [] → Runs.Le (wordLevels (written ++ pending last))
        (Runs.scale saturated (Runs.scale microseconds (Runs.merge (es.flatMap eventTicks))))) := by
  obtain ⟨packets, queue, harrives⟩ := signal_arrives h hrunning halt hroom hrun settings prev
  obtain ⟨words, htold, hwords⟩ := harrives.pieceWords
  obtain ⟨last, written, hloop, hmerged⟩ := recvLoop_levels words hwords.count hwords.pos
  obtain ⟨hlower, hupper⟩ := hwords.bounds
  have hrenders : Renders (packetBytes packets) (written ++ pending last) := by
    refine ⟨?_, ?_⟩
    · rw [hmerged]
      exact hlower.scale_mono saturated_mono
    · rw [hmerged]
      exact hupper.scale_mono saturated_mono
  refine ⟨packets, queue, words, last, written, harrives, htold, hloop, hrenders, ?_⟩
  intro hidle hempty
  rw [← merge_stream, ← harrives.whole hidle hempty]
  exact hrenders.upper

/-- A pulse whose bytes are divided between two packets, and a space. -/
def cutPulse : List SignalEvent :=
  [.capture true 0xFA00, .capture false 0xA280, .loop] ++ List.replicate 92 .instruction ++
    .loop :: List.replicate 92 .instruction

theorem listening_listens : listening.Listens :=
  ⟨rfl, by decide, by decide, rfl, rfl, rfl, rfl, rfl⟩

theorem cutPulse_edges : AlternatingEdges cutPulse := by decide +kernel

theorem cutPulse_room : Transition.Guarded signalStep HasRoom listening cutPulse := by
  decide +kernel

theorem cutPulse_stream :
    stream cutPulse = captureBytes true 0xFA00 ++ captureBytes false 0xA280 := by decide +kernel

/-- Both packets of `cutPulse` are sent. -/
theorem cutPulse_run : ∃ c' os, Transition.run signalStep listening cutPulse = some (c', os) ∧
    c'.pc = .idle ∧ c'.mcu.received = [] ∧ c'.mcu.sent.length = 2 := by
  have hend : (Transition.run signalStep listening cutPulse).map
      (fun r => (r.1.pc, r.1.mcu.received, r.1.mcu.sent.length)) = some (.idle, [], 2) := by
    decide +kernel
  obtain ⟨⟨c', os⟩, hrun, heq⟩ := Option.map_eq_some_iff.mp hend
  exact ⟨c', os, hrun, by simpa using heq⟩

theorem receivedSignal_cut : ∃ packets words last written, packets.length = 2 ∧
    packetBytes packets = captureBytes true 0xFA00 ++ captureBytes false 0xA280 ∧
    recvLoop (-1) words = some (last, written) ∧
    Renders (packetBytes packets) (written ++ pending last) := by
  obtain ⟨c', os, hrun, hidle, hreceived, hsent⟩ := cutPulse_run
  obtain ⟨packets, queue, words, last, written, harrives, -, hloop, hrenders, -⟩ :=
    receivedSignal listening_listens (by decide) cutPulse_edges cutPulse_room hrun
      ⟨8, BODY_9, false⟩ 0
  have hcount : packets.length = 2 := by
    rw [← hsent, harrives.sent]
    rfl
  exact ⟨packets, words, last, written, hcount,
    (harrives.whole hidle hreceived).trans cutPulse_stream, hloop, hrenders⟩

end IguanaIR
