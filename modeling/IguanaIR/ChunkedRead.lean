import IguanaIR.WritePacket

/-! # Reading from a socket that fills up

`readDataPacket` on a non-blocking socket whose bytes come in chunks.  `select` waits until there
is something to read, but the loop behind it takes `EAGAIN` for an error, so it fails when it is
ahead of the chunks.

How many more chunks have come by each `read` is up to the writer and the scheduler: a list of
numbers, where behind its end nothing comes unless `select` waits for it. -/

namespace IguanaIR

/-! ### The socket -/

/-- What can be read now, and the chunks that are still to come. -/
structure Socket where
  buffer : List Byte
  coming : List (List Byte)
deriving DecidableEq, Repr

namespace Socket

/-- The rest of the stream. -/
def remaining (s : Socket) : List Byte := s.buffer ++ s.coming.flatten

/-- The next `k` chunks come. -/
def arrive (k : ℕ) (s : Socket) : Socket :=
  ⟨s.buffer ++ (s.coming.take k).flatten, s.coming.drop k⟩

/-- `select`: wait until there is something to read. -/
def wait (s : Socket) : Socket := if s.buffer = [] then s.arrive 1 else s

/-- What the `read` calls for `goal` bytes return, and the socket behind them.  Every call but the
last returns something, so there are no more than `goal` of them. -/
def reads : ℕ → ℕ → List ℕ → Socket → List (Option (List Byte)) × Socket
  | 0, _, _, s => ([], s)
  | fuel + 1, goal, times, s =>
      if goal = 0 then ([], s)
      else
        let s := s.arrive (times.headD 0)
        if s.buffer = [] then ([none], s)
        else
          let (more, s') := reads fuel (goal - (s.buffer.take goal).length) times.tail
            ⟨s.buffer.drop goal, s.coming⟩
          (some (s.buffer.take goal) :: more, s')

/-- The kernel's answers to one `readPipeTimed`. -/
def answers (goal : ℕ) (times : List ℕ) (s : Socket) : PipeAnswers × Socket :=
  let s := s.wait
  if s.buffer = [] then (⟨.timeout, []⟩, s)
  else
    let (all, s) := reads goal goal times s
    (⟨.ready, all⟩, s)

end Socket

/-- `readDataPacket` on the socket, with everything in time, and what it leaves of the stream. -/
def readFromSocket (s : Socket) (headerTimes payloadTimes : List ℕ) :
    Option DataPacket × List Byte :=
  let (header, s) := s.answers PACKET_BYTES headerTimes
  let (result, bytes) := readPipeTimed header PACKET_BYTES
  let goal := if result = PACKET_BYTES then (headerFields bytes).2.toInt.toNat else 0
  let (payload, s) := s.answers goal payloadTimes
  (readDataPacket ⟨header, true, true, payload⟩, s.remaining)

/-- The header comes in one chunk, and so does a payload of `n` bytes. -/
def Unsplit (n : ℕ) : List (List Byte) → Prop
  | [] => False
  | c :: cs => PACKET_BYTES ≤ c.length ∧
      if c.length = PACKET_BYTES then n ≤ (cs.headD []).length else PACKET_BYTES + n ≤ c.length

instance (n : ℕ) : ∀ chunks, Decidable (Unsplit n chunks)
  | [] => isFalse id
  | c :: cs => by
      unfold Unsplit
      infer_instance

/-! ### One timed read -/

namespace Socket

@[simp] theorem remaining_arrive (k : ℕ) (s : Socket) : (s.arrive k).remaining = s.remaining := by
  unfold remaining arrive
  rw [List.append_assoc, ← List.flatten_append, List.take_append_drop]

@[simp] theorem remaining_wait (s : Socket) : s.wait.remaining = s.remaining := by
  unfold wait
  split_ifs
  · exact remaining_arrive 1 s
  · rfl

theorem length_le_arrive (k : ℕ) (s : Socket) : s.buffer.length ≤ (s.arrive k).buffer.length := by
  simp [arrive]

@[simp] theorem arrive_zero (s : Socket) : s.arrive 0 = s := by simp [arrive]

@[simp] theorem reads_zero (fuel : ℕ) (times : List ℕ) (s : Socket) :
    reads fuel 0 times s = ([], s) := by
  cases fuel with
  | zero => rfl
  | succ fuel => simp [reads]

theorem remaining_take {s : Socket} {n : ℕ} (h : n ≤ s.buffer.length) :
    s.remaining.take n = s.buffer.take n ∧
      (⟨s.buffer.drop n, s.coming⟩ : Socket).remaining = s.remaining.drop n := by
  unfold remaining
  rw [List.take_append_of_le_length h, List.drop_append_of_le_length h]
  exact ⟨rfl, rfl⟩

/-- All that is asked for is there when `select` is over: one `read` gets it. -/
theorem answers_whole {s : Socket} {goal : ℕ} (hpos : 0 < goal) (h : goal ≤ s.wait.buffer.length)
    (times : List ℕ) :
    s.answers goal times = (⟨.ready, [some (s.remaining.take goal)]⟩,
      ⟨(s.wait.arrive (times.headD 0)).buffer.drop goal,
        (s.wait.arrive (times.headD 0)).coming⟩) := by
  have hle := h.trans (length_le_arrive (times.headD 0) s.wait)
  have hready : s.wait.buffer ≠ [] := List.ne_nil_of_length_pos (by omega)
  have hmore : (s.wait.arrive (times.headD 0)).buffer ≠ [] := List.ne_nil_of_length_pos (by omega)
  obtain ⟨fuel, rfl⟩ : ∃ fuel, goal = fuel + 1 := ⟨goal - 1, by omega⟩
  have htake := (remaining_take hle).1
  rw [remaining_arrive, remaining_wait] at htake
  simp only [answers, if_neg hready, reads, if_neg (Nat.succ_ne_zero fuel), if_neg hmore]
  rw [List.length_take, Nat.min_eq_left hle, Nat.sub_self, reads_zero, htake]

/-- What `answers_whole` leaves of the stream. -/
theorem remaining_whole {s : Socket} {goal : ℕ} (h : goal ≤ s.wait.buffer.length) (k : ℕ) :
    (⟨(s.wait.arrive k).buffer.drop goal, (s.wait.arrive k).coming⟩ : Socket).remaining =
      s.remaining.drop goal := by
  rw [(remaining_take (h.trans (length_le_arrive k s.wait))).2, remaining_arrive, remaining_wait]

/-- Nothing is read when nothing is asked for. -/
theorem remaining_answers_zero (s : Socket) (times : List ℕ) :
    (s.answers 0 times).2.remaining = s.remaining := by
  rw [← remaining_wait s]
  unfold answers
  simp only [reads_zero]
  split_ifs <;> rfl

/-- Less than that is there, and nothing comes while the loop runs: the second `read` would
block. -/
theorem answers_short {s : Socket} {goal : ℕ} (hready : s.wait.buffer ≠ [])
    (h : s.wait.buffer.length < goal) :
    (s.answers goal []).1 = ⟨.ready, [some s.wait.buffer, none]⟩ := by
  have hpos := List.length_pos_iff.mpr hready
  obtain ⟨fuel, rfl⟩ : ∃ fuel, goal = fuel + 1 + 1 := ⟨goal - 2, by omega⟩
  have hdrop : s.wait.buffer.drop (fuel + 1 + 1) = [] := List.drop_of_length_le (by omega)
  have hgoal : fuel + 1 + 1 - s.wait.buffer.length ≠ 0 := by omega
  simp only [answers, if_neg hready, reads, List.headD_nil, arrive_zero, List.tail_nil,
    List.take_of_length_le h.le, hdrop, if_neg (Nat.succ_ne_zero (fuel + 1)), if_neg hgoal, if_true]

end Socket

/-- A loop that gets all of it at once. -/
theorem readPipeTimed_whole {bytes : List Byte} (hne : bytes ≠ []) :
    readPipeTimed ⟨.ready, [some bytes]⟩ bytes.length = ((bytes.length : ℤ), bytes) := by
  cases bytes with
  | nil => exact absurd rfl hne
  | cons b rest =>
      have htake : (b :: rest).take (rest.length + 1) = b :: rest := List.take_of_length_le (by simp)
      simp only [readPipeTimed, List.length_cons, readLoop, List.isEmpty_cons, Bool.false_eq_true,
        if_false, htake, Nat.sub_self, List.nil_append]

/-- A loop that would block. -/
theorem readPipeTimed_short {bytes : List Byte} {goal : ℕ} (hne : bytes ≠ [])
    (h : bytes.length < goal) : (readPipeTimed ⟨.ready, [some bytes, none]⟩ goal).1 = -1 := by
  obtain ⟨n, rfl⟩ : ∃ n, goal = n + 1 := ⟨goal - 1, by omega⟩
  obtain ⟨k, hk⟩ : ∃ k, n + 1 - bytes.length = k + 1 := ⟨n - bytes.length, by omega⟩
  simp only [readPipeTimed, readLoop, List.isEmpty_iff, hne, if_false, List.take_of_length_le h.le,
    hk]

/-! ### The packet -/

/-- The header fails, and so does the packet. -/
theorem readDataPacket_header {a : Arrival}
    (h : (readPipeTimed a.header PACKET_BYTES).1 ≠ PACKET_BYTES) : readDataPacket a = none := by
  unfold readDataPacket
  dsimp only
  rw [if_neg h]

section Whole

variable {memory : ℕ → Byte} {code : Byte} {length : BitVec 32}

theorem readPipeTimed_header : readPipeTimed ⟨.ready, [some (headerBytes memory code length)]⟩
    PACKET_BYTES = ((PACKET_BYTES : ℤ), headerBytes memory code length) := by
  have hne : headerBytes memory code length ≠ [] :=
    List.ne_nil_of_length_pos (by rw [headerBytes_length]; decide)
  have h := readPipeTimed_whole hne
  rwa [headerBytes_length] at h

theorem headerFields_header : headerFields (headerBytes memory code length) = (code, length) := by
  have h := headerFields_headerBytes memory code length []
  rwa [List.append_nil] at h

/-- A header without a payload is the packet. -/
theorem readDataPacket_bare {payload : PipeAnswers} (hlen : length.toInt ≤ 0) :
    readDataPacket ⟨⟨.ready, [some (headerBytes memory code length)]⟩, true, true, payload⟩ =
      some ⟨code, length.toInt, none⟩ := by
  unfold readDataPacket
  simp only [readPipeTimed_header, headerFields_header, if_true, if_pos hlen]

/-- A header, and what becomes of the payload. -/
theorem readDataPacket_payload {payload : PipeAnswers} (hlen : 0 < length.toInt) :
    readDataPacket ⟨⟨.ready, [some (headerBytes memory code length)]⟩, true, true, payload⟩ =
      if (readPipeTimed payload length.toInt.toNat).1 = length.toInt then
        some ⟨code, length.toInt, some (readPipeTimed payload length.toInt.toNat).2⟩
      else none := by
  have hpos : ¬length.toInt ≤ 0 := by omega
  have hnat : length.toNat = length.toInt.toNat := by
    rw [BitVec.toInt_eq_toNat_cond] at hlen ⊢
    split_ifs at hlen ⊢ with hsmall
    · omega
    · have hlt := length.isLt
      omega
  unfold readDataPacket
  simp only [readPipeTimed_header, headerFields_header, if_true, if_neg hpos, Bool.and_self, hnat]

end Whole

/-! ### Every timing -/

section Timing

variable {memory : ℕ → Byte} {code : Byte} {length : BitVec 32} {payload rest : List Byte}
  {chunks : List (List Byte)}

/-- What the second wait brings when the payload is not split. -/
theorem payload_there {c : List Byte} {cs : List (List Byte)} {n : ℕ} (hpos : 0 < n)
    (h : Unsplit n (c :: cs)) (k : ℕ) :
    n ≤ (Socket.wait ⟨((Socket.mk c cs).arrive k).buffer.drop PACKET_BYTES,
      ((Socket.mk c cs).arrive k).coming⟩).buffer.length := by
  obtain ⟨hheader, h⟩ := h
  by_cases hend : c.length = PACKET_BYTES
  · -- the payload is in the next chunk, which may be there already
    rw [if_pos hend] at h
    cases cs with
    | nil => simp at h; omega
    | cons c₂ cs =>
        have hc₂ : c₂ ≠ [] := List.ne_nil_of_length_pos (by simp at h; omega)
        cases k with
        | zero => simpa [Socket.wait, Socket.arrive, ← hend] using h
        | succ k =>
            simp [Socket.wait, Socket.arrive, ← hend, hc₂] at h ⊢
            omega
  · rw [if_neg hend] at h
    have hbuffer : ((Socket.mk c cs).arrive k).buffer.drop PACKET_BYTES ≠ [] := by
      apply List.ne_nil_of_length_pos
      simp [Socket.arrive]
      omega
    simp only [Socket.wait, if_neg hbuffer]
    simp [Socket.arrive]
    omega

/-- Whatever else comes, the packet is read when the two waits bring all of it. -/
theorem readFromSocket_whole (hlen : 0 ≤ length.toInt)
    (hpayload : payload.length = length.toInt.toNat)
    (hstream : chunks.flatten = headerBytes memory code length ++ payload ++ rest)
    (h : Unsplit length.toInt.toNat chunks) (t₁ t₂ : List ℕ) :
    readFromSocket ⟨[], chunks⟩ t₁ t₂ =
      (some ⟨code, length.toInt, if length.toInt = 0 then none else some payload⟩, rest) := by
  cases chunks with
  | nil => exact absurd h id
  | cons c cs =>
      have hwait : Socket.wait ⟨[], c :: cs⟩ = ⟨c, cs⟩ := by simp [Socket.wait, Socket.arrive]
      have hremaining : Socket.remaining ⟨[], c :: cs⟩ =
          headerBytes memory code length ++ (payload ++ rest) := by
        rw [← List.append_assoc, ← hstream]
        rfl
      have hheader : PACKET_BYTES ≤ (Socket.wait ⟨[], c :: cs⟩).buffer.length := by
        rw [hwait]
        exact h.1
      have hfirst := Socket.answers_whole (by decide) hheader t₁
      have hleft := Socket.remaining_whole hheader (t₁.headD 0)
      rw [hremaining, ← headerBytes_length memory code length, List.take_left] at hfirst
      rw [hremaining, ← headerBytes_length memory code length, List.drop_left] at hleft
      rw [headerBytes_length, hwait] at hfirst hleft
      generalize hs₁ : (⟨((Socket.mk c cs).arrive (t₁.headD 0)).buffer.drop PACKET_BYTES,
        ((Socket.mk c cs).arrive (t₁.headD 0)).coming⟩ : Socket) = s₁ at hfirst hleft
      simp only [readFromSocket, hfirst, readPipeTimed_header, headerFields_header, if_true]
      rcases Int.lt_or_eq_of_le hlen with hpos | hzero
      · have hthere : length.toInt.toNat ≤ s₁.wait.buffer.length := by
          rw [← hs₁]
          exact payload_there (by omega) h _
        have hsecond := Socket.answers_whole (by omega) hthere t₂
        have hend := Socket.remaining_whole hthere (t₂.headD 0)
        rw [hleft, ← hpayload, List.take_left] at hsecond
        rw [hleft, ← hpayload, List.drop_left] at hend
        have hpayloadRead := readPipeTimed_whole
          (List.ne_nil_of_length_pos (show 0 < payload.length by omega))
        rw [← hpayload, hsecond, readDataPacket_payload hpos, ← hpayload, hpayloadRead, hend,
          if_pos (by omega), if_neg (by omega)]
      · have hnil : payload = [] := List.eq_nil_of_length_eq_zero (by omega)
        rw [← hzero, Int.toNat_zero, Socket.remaining_answers_zero, hleft, hnil, List.nil_append,
          readDataPacket_bare (by omega), ← hzero, if_pos rfl]

/-- The first wait brings less than the header. -/
theorem readFromSocket_header {s : Socket} (hready : s.wait.buffer ≠ [])
    (h : s.wait.buffer.length < PACKET_BYTES) (t : List ℕ) : (readFromSocket s [] t).1 = none := by
  have hfails : (readPipeTimed (s.answers PACKET_BYTES []).1 PACKET_BYTES).1 ≠ PACKET_BYTES := by
    rw [Socket.answers_short hready h, readPipeTimed_short hready h]
    decide
  simp only [readFromSocket]
  exact readDataPacket_header hfails

/-- The second wait brings less than the payload. -/
theorem readFromSocket_payload {s : Socket} (hpos : 0 < length.toInt)
    (hheader : PACKET_BYTES ≤ s.wait.buffer.length)
    (hbytes : s.remaining.take PACKET_BYTES = headerBytes memory code length)
    (hready : (Socket.wait ⟨s.wait.buffer.drop PACKET_BYTES, s.wait.coming⟩).buffer ≠ [])
    (h : (Socket.wait ⟨s.wait.buffer.drop PACKET_BYTES, s.wait.coming⟩).buffer.length <
      length.toInt.toNat) : (readFromSocket s [] []).1 = none := by
  have hfirst := Socket.answers_whole (by decide) hheader []
  rw [hbytes, List.headD_nil, Socket.arrive_zero] at hfirst
  simp only [readFromSocket, hfirst, readPipeTimed_header, headerFields_header, if_true]
  rw [readDataPacket_payload hpos, Socket.answers_short hready h, readPipeTimed_short hready h,
    if_neg (by omega)]

/-- When nothing comes while a loop runs, the packet is only read if it is not split. -/
theorem unsplit_of_read (hlen : 0 ≤ length.toInt) (hpayload : payload.length = length.toInt.toNat)
    (hne : ∀ c ∈ chunks, c ≠ [])
    (hstream : chunks.flatten = headerBytes memory code length ++ payload ++ rest)
    (h : (readFromSocket ⟨[], chunks⟩ [] []).1 ≠ none) : Unsplit length.toInt.toNat chunks := by
  have hbase : PACKET_BYTES = 40 := rfl
  cases chunks with
  | nil =>
      have hlength := congrArg List.length hstream
      simp at hlength
      omega
  | cons c cs =>
      have hwait : Socket.wait ⟨[], c :: cs⟩ = ⟨c, cs⟩ := by simp [Socket.wait, Socket.arrive]
      have hc : c ≠ [] := hne c (List.mem_cons_self ..)
      by_cases hheader : PACKET_BYTES ≤ c.length
      · refine ⟨hheader, ?_⟩
        by_contra hsplit
        have hbytes : (Socket.remaining ⟨[], c :: cs⟩).take PACKET_BYTES =
            headerBytes memory code length := by
          have hremaining : Socket.remaining ⟨[], c :: cs⟩ =
              headerBytes memory code length ++ (payload ++ rest) := by
            rw [← List.append_assoc, ← hstream]
            rfl
          rw [hremaining, ← headerBytes_length memory code length, List.take_left]
        have hlength := congrArg List.length hstream
        rw [List.flatten_cons, List.length_append, List.length_append, List.length_append,
          headerBytes_length] at hlength
        apply h
        by_cases hend : c.length = PACKET_BYTES
        · -- the payload starts with the next chunk
          rw [if_pos hend] at hsplit
          cases cs with
          | nil => simp at hlength hsplit; omega
          | cons c₂ cs =>
              have hc₂ : c₂ ≠ [] := hne c₂ (by simp)
              have hsecond : (Socket.wait ⟨c.drop PACKET_BYTES, c₂ :: cs⟩).buffer = c₂ := by
                simp [Socket.wait, Socket.arrive, ← hend]
              simp only [List.headD_cons] at hsplit
              apply readFromSocket_payload (by omega) (by rwa [hwait]) hbytes
              · rw [hwait, hsecond]
                exact hc₂
              · rw [hwait, hsecond]
                omega
        · rw [if_neg hend] at hsplit
          have hdrop : c.drop PACKET_BYTES ≠ [] := by
            apply List.ne_nil_of_length_pos
            rw [List.length_drop]
            omega
          have hsecond : (Socket.wait ⟨c.drop PACKET_BYTES, cs⟩).buffer = c.drop PACKET_BYTES := by
            simp [Socket.wait, hdrop]
          apply readFromSocket_payload (by omega) (by rwa [hwait]) hbytes
          · rwa [hwait, hsecond]
          · rw [hwait, hsecond, List.length_drop]
            omega
      · exact absurd (readFromSocket_header (by rwa [hwait]) (by rw [hwait]; simpa using hheader) [])
          h

end Timing

/-- **Reading a frame** works in every timing of its chunks if and only if neither its header nor
its payload is split. -/
theorem read_frame_iff {memory : ℕ → Byte} {code : Byte} {length : BitVec 32}
    {payload rest : List Byte} {chunks : List (List Byte)} (hlen : 0 ≤ length.toInt)
    (hpayload : payload.length = length.toInt.toNat) (hne : ∀ c ∈ chunks, c ≠ [])
    (hstream : chunks.flatten = headerBytes memory code length ++ payload ++ rest) :
    (∀ t₁ t₂, readFromSocket ⟨[], chunks⟩ t₁ t₂ =
      (some ⟨code, length.toInt, if length.toInt = 0 then none else some payload⟩, rest)) ↔
      Unsplit length.toInt.toNat chunks := by
  constructor
  · intro h
    apply unsplit_of_read hlen hpayload hne hstream
    rw [h [] []]
    exact Option.some_ne_none _
  · exact readFromSocket_whole hlen hpayload hstream

/-- A request for pin 3, as a client sends it. -/
def pinRequest : List Byte := headerBytes (fun _ => 0) IG_DEV_SETPINS 2 ++ [0x00, 0x08]

/-- A header and its payload in chunks of their own. -/
theorem read_frame_two_chunks :
    Unsplit 2 [pinRequest.take 40, pinRequest.drop 40] ∧
      ∀ t₁ t₂, readFromSocket ⟨[], [pinRequest.take 40, pinRequest.drop 40]⟩ t₁ t₂ =
        (some ⟨IG_DEV_SETPINS, 2, some [0x00, 0x08]⟩, []) := by
  have hunsplit : Unsplit 2 [pinRequest.take 40, pinRequest.drop 40] := by decide
  have hlen : (0 : ℤ) ≤ (2 : BitVec 32).toInt := by decide
  have hpayload : ([0x00, 0x08] : List Byte).length = (2 : BitVec 32).toInt.toNat := by decide
  have hne : ∀ c ∈ [pinRequest.take 40, pinRequest.drop 40], c ≠ [] :=
    List.all_iff_forall_prop.mp (by decide)
  have hstream : [pinRequest.take 40, pinRequest.drop 40].flatten =
      headerBytes (fun _ => 0) IG_DEV_SETPINS 2 ++ [0x00, 0x08] ++ [] := by decide
  exact ⟨hunsplit, (read_frame_iff hlen hpayload hne hstream).mpr hunsplit⟩

/-- The same bytes with the header cut one byte short: the second `read` would block. -/
theorem split_header_fails : pinRequest.take 39 ++ pinRequest.drop 39 = pinRequest ∧
    (readFromSocket ⟨[], [pinRequest.take 39, pinRequest.drop 39]⟩ [] []).1 = none :=
  ⟨List.take_append_drop 39 pinRequest, readFromSocket_header (by decide) (by decide) []⟩

end IguanaIR
