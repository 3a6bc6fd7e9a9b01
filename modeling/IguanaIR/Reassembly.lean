import IguanaIR.ReceivedPulses

/-! # Where the reader stores a packet

The blocks that `handleIncomingPackets` allocates for `current->data` and what it copies into them,
and what `handleReader` then reads of a packet that it takes from the queue.

The block of a packet whose type demands more data has the size of the type, but every further
transfer is copied whole.  A signal without a byte has a block of size 0, and `iguanaDevToPulses`
reads its first byte. -/

namespace IguanaIR

/-! ### What is copied and read -/

/-- A `memcpy` into a block. -/
structure Copy where
  allocated : ℤ
  offset : ℤ
  length : ℤ
deriving DecidableEq, Repr

def Copy.Fits (c : Copy) : Prop := 0 ≤ c.offset ∧ 0 ≤ c.length ∧ c.offset + c.length ≤ c.allocated

instance (c : Copy) : Decidable c.Fits := inferInstanceAs (Decidable (_ ∧ _ ∧ _))

/-- The size of the block for a packet that a transfer starts. -/
def allocation (version : Version) (current : DataPacket) : ℤ :=
  match findTypeEntry current.code version with
  | none => current.dataLen
  | some type =>
      if type.inData ≠ NO_PAYLOAD ∧ current.dataLen < type.inData then type.inData
      else current.dataLen

/-- What one round of either loop copies into `current->data`. -/
def copies (settings : ReaderSettings) (phase : Phase) (received : Received) : List Copy :=
  match phase, received with
  | .waiting _, .data buffer =>
      if buffer.isEmpty then []
      else
        let current := startPacket settings.version buffer
        [⟨allocation settings.version current, 0, current.dataLen⟩]
  | .collecting type current, .data buffer =>
      if buffer.isEmpty ∨ settings.maxPacketSize < buffer.length then []
      else [⟨type.inData, current.dataLen, buffer.length⟩]
  | _, _ => []

/-- What `handleReader` reads of a packet: its bytes, and of a signal the words for them, which are
in the block that `iguanaDevToPulses` allocates. -/
def ReaderInside (packet : DataPacket) : Prop :=
  ∃ bytes, readBytes packet.data packet.dataLen = some bytes ∧
    (packet.code = IG_DEV_RECV → ∀ malloc : List (BitVec 32), malloc.length = bytes.length →
      ∃ words, decodePulses malloc bytes = some words ∧ words.length ≤ malloc.length)

/-- A round copies into its block only, and what it queues can be read. -/
structure Inside (settings : ReaderSettings) (phase : Phase) (received : Received) : Prop where
  copied : ∀ c ∈ copies settings phase received, c.Fits
  queued : ∀ phase' routed, handleIncoming settings phase received = some (phase', routed) →
    ∀ packet, Routed.recvList packet ∈ routed → ReaderInside packet

/-- The code in a control header; one that has no translation stays as it is. -/
def headerCode (version : Version) (buffer : List Byte) : Byte :=
  (translateDevice (buffer.getD CODE_OFFSET 0) version false).getD (buffer.getD CODE_OFFSET 0)

/-- A signal without a byte: the fill level alone, or a bare header with the code of a signal. -/
def EmptySignal (version : Version) (buffer : List Byte) : Prop :=
  buffer.length = 1 ∨
    (isControl buffer = true ∧ buffer.length = MIN_CTL_LENGTH ∧
      headerCode version buffer = IG_DEV_RECV)

/-- What arrives does not exceed what the packet misses, and no signal is empty. -/
def ArrivalFits (settings : ReaderSettings) (phase : Phase) (received : Received) : Prop :=
  match phase, received with
  | .waiting _, .data buffer => ¬EmptySignal settings.version buffer
  | .collecting type current, .data buffer =>
      buffer.length ≤ settings.maxPacketSize → current.dataLen + buffer.length ≤ type.inData
  | _, _ => True

/-! ### Packets -/

/-- The packet has all of its bytes. -/
def Complete (packet : DataPacket) : Prop :=
  ∃ bytes, packet.data = some bytes ∧ (bytes.length : ℤ) = packet.dataLen

/-- A packet that waits for more data is of the type that is demanded, and no signal. -/
def PhaseFits : Phase → Prop
  | .collecting type current =>
      Complete current ∧ current.dataLen < type.inData ∧ current.code ≠ IG_DEV_RECV
  | _ => True

theorem isControl_length {buffer : List Byte} (h : isControl buffer = true) :
    MIN_CTL_LENGTH ≤ buffer.length := by
  rw [isControl, Bool.and_eq_true] at h
  exact of_decide_eq_true h.1

theorem startPacket_control (version : Version) {buffer : List Byte} (h : isControl buffer = true) :
    startPacket version buffer = ⟨headerCode version buffer, buffer.length - MIN_CTL_LENGTH,
      some (buffer.drop MIN_CTL_LENGTH)⟩ := by
  rw [startPacket, if_pos h]
  rfl

theorem startPacket_signal (version : Version) {buffer : List Byte} (h : ¬isControl buffer = true) :
    startPacket version buffer =
      ⟨IG_DEV_RECV, buffer.length - 1, some (buffer.take (buffer.length - 1))⟩ := by
  rw [startPacket, if_neg h]

theorem startPacket_complete (version : Version) {buffer : List Byte} (h : buffer ≠ []) :
    Complete (startPacket version buffer) := by
  have hpos := List.length_pos_iff.mpr h
  by_cases hcontrol : isControl buffer = true
  · have hlen := isControl_length hcontrol
    rw [startPacket_control version hcontrol]
    refine ⟨_, rfl, ?_⟩
    simp only [List.length_drop]
    omega
  · rw [startPacket_signal version hcontrol]
    refine ⟨_, rfl, ?_⟩
    simp only [List.length_take]
    omega

/-- The empty signals are the packets with the code of a signal and without data. -/
theorem emptySignal_iff (version : Version) {buffer : List Byte} (h : buffer ≠ []) :
    EmptySignal version buffer ↔
      (startPacket version buffer).code = IG_DEV_RECV ∧ (startPacket version buffer).dataLen = 0 := by
  have hpos := List.length_pos_iff.mpr h
  have hmin : MIN_CTL_LENGTH = 4 := rfl
  rw [EmptySignal]
  by_cases hcontrol : isControl buffer = true
  · have hlen := isControl_length hcontrol
    rw [startPacket_control version hcontrol]
    simp only
    constructor
    · rintro (hone | ⟨-, hfour, hcode⟩)
      · omega
      · exact ⟨hcode, by omega⟩
    · rintro ⟨hcode, hzero⟩
      exact .inr ⟨hcontrol, by omega, hcode⟩
  · rw [startPacket_signal version hcontrol]
    simp only [true_and]
    constructor
    · rintro (hone | ⟨hcontrol', -⟩)
      · omega
      · exact absurd hcontrol' hcontrol
    · intro hzero
      exact .inl (by omega)

theorem Complete.read {packet : DataPacket} (h : Complete packet) :
    ∃ bytes, readBytes packet.data packet.dataLen = some bytes ∧
      (bytes.length : ℤ) = packet.dataLen := by
  obtain ⟨bytes, hdata, hlen⟩ := h
  refine ⟨bytes, ?_, hlen⟩
  rw [hdata, ← hlen, readBytes_some (Nat.le_refl _), List.take_length]

/-- A packet can be read exactly when it is not an empty signal. -/
theorem readerInside_iff {packet : DataPacket} (h : Complete packet) :
    ReaderInside packet ↔ ¬(packet.code = IG_DEV_RECV ∧ packet.dataLen = 0) := by
  obtain ⟨bytes, hread, hlen⟩ := h.read
  constructor
  · rintro ⟨bytes', hread', hwords⟩ ⟨hcode, hzero⟩
    obtain rfl := Option.some.inj (hread.symm.trans hread')
    obtain rfl : bytes = [] := List.eq_nil_of_length_eq_zero (by omega)
    obtain ⟨words, hdecode, -⟩ := hwords hcode [] rfl
    cases hdecode
  · intro hne
    refine ⟨bytes, hread, ?_⟩
    intro hcode malloc hmalloc
    have hbytes : bytes ≠ [] := by
      rintro rfl
      exact hne ⟨hcode, by rw [← hlen]; rfl⟩
    rw [decodePulses_eq hbytes hmalloc]
    cases bytes with
    | nil => exact absurd rfl hbytes
    | cons b rest =>
      refine ⟨_, rfl, ?_⟩
      rw [hmalloc]
      exact devToPulses_length_le rest _ _

/-! ### The reader's run -/

variable {settings : ReaderSettings}

theorem mem_queueDataPacket {type : Option PacketType} {current packet : DataPacket}
    (h : Routed.recvList packet ∈ [queueDataPacket type current]) : packet = current := by
  rw [List.mem_singleton] at h
  cases type with
  | none => exact Routed.recvList.inj h
  | some type =>
    rw [queueDataPacket] at h
    split at h
    · exact Routed.recvList.inj h
    · cases h

/-- A signal is queued as it arrives. -/
theorem outerPacket_recv {version : Version} {buffer : List Byte} (hne : buffer ≠ [])
    (hcode : (startPacket version buffer).code = IG_DEV_RECV) :
    outerPacket version buffer =
      (.waiting buffer.length, [.recvList (startPacket version buffer)]) := by
  obtain ⟨bytes, -, hlen⟩ := startPacket_complete version hne
  have hany : (ANY_PAYLOAD : ℤ) = 0 := rfl
  simp only [outerPacket, hcode, findTypeEntry_recv]
  rw [if_neg]
  · rfl
  · rintro ⟨-, hless⟩
    omega

theorem outerPacket_packet {version : Version} {buffer : List Byte} {packet : DataPacket}
    (h : Routed.recvList packet ∈ (outerPacket version buffer).2) :
    packet = startPacket version buffer := by
  rw [outerPacket] at h
  cases htype : findTypeEntry (startPacket version buffer).code version with
  | none =>
    simp only [htype] at h
    exact mem_queueDataPacket h
  | some type =>
    simp only [htype] at h
    split at h
    · exact absurd h List.not_mem_nil
    · exact mem_queueDataPacket h

/-- A signal does not wait for more data. -/
theorem outerPacket_phase {version : Version} {buffer : List Byte} (h : buffer ≠ []) :
    PhaseFits (outerPacket version buffer).1 := by
  have hcomplete := startPacket_complete version h
  rw [outerPacket]
  cases htype : findTypeEntry (startPacket version buffer).code version with
  | none => trivial
  | some type =>
    simp only
    split
    · rename_i hmore
      refine ⟨hcomplete, hmore.2, ?_⟩
      intro hcode
      rw [hcode, findTypeEntry_recv] at htype
      obtain rfl := Option.some.inj htype
      obtain ⟨bytes, -, hlen⟩ := hcomplete
      have hany : (ANY_PAYLOAD : ℤ) = 0 := rfl
      have hless := hmore.2
      simp only [hany] at hless
      omega
    · trivial

theorem innerPacket_phase {type : PacketType} {current : DataPacket} {buffer : List Byte}
    {phase : Phase} {routed : List Routed} (h : PhaseFits (.collecting type current))
    (hstep : innerPacket type current buffer = some (phase, routed)) : PhaseFits phase := by
  obtain ⟨⟨bytes, hdata, hlen⟩, -, hcode⟩ := h
  simp only [innerPacket] at hstep
  split_ifs at hstep with hlong hless
  all_goals obtain ⟨rfl, -⟩ := Prod.mk.inj (Option.some.inj hstep)
  · refine ⟨⟨bytes ++ buffer, ?_, ?_⟩, hless, hcode⟩
    · rw [hdata]
      rfl
    · rw [List.length_append]
      push_cast
      omega
  · trivial

theorem phaseFits_step {phase phase' : Phase} {received : Received} {routed : List Routed}
    (h : PhaseFits phase) (hstep : handleIncoming settings phase received = some (phase', routed)) :
    PhaseFits phase' := by
  cases phase with
  | exited =>
    cases received <;> cases hstep <;> trivial
  | waiting prev =>
    cases received with
    | data buffer =>
      rw [handleIncoming] at hstep
      split at hstep
      · cases hstep
        trivial
      · rename_i hne
        obtain ⟨rfl, -⟩ := Prod.mk.inj (Option.some.inj hstep)
        exact outerPacket_phase (fun h => hne (List.isEmpty_iff.mpr h))
    | pipeError =>
      obtain ⟨rfl, -⟩ := Prod.mk.inj (Option.some.inj hstep)
      split <;> trivial
    | timeout | failed =>
      cases hstep
      trivial
  | collecting type current =>
    cases received with
    | data buffer =>
      simp only [handleIncoming] at hstep
      split_ifs at hstep
      · cases hstep
        trivial
      · cases hstep
        trivial
      · exact innerPacket_phase h hstep
    | timeout | pipeError | failed =>
      cases hstep
      trivial

/-- The block is as large as what is copied into it first. -/
theorem allocation_ge (version : Version) (current : DataPacket) :
    current.dataLen ≤ allocation version current := by
  rw [allocation]
  split
  · exact Int.le_refl _
  · split
    · omega
    · exact Int.le_refl _

theorem inside_outer (prev : ℤ) (buffer : List Byte) :
    Inside settings (.waiting prev) (.data buffer) ↔
      ArrivalFits settings (.waiting prev) (.data buffer) := by
  by_cases hempty : buffer = []
  · subst hempty
    refine iff_of_true ⟨fun c hc => absurd hc List.not_mem_nil, ?_⟩ ?_
    · intro phase' routed hstep packet hpacket
      cases hstep
      exact absurd hpacket List.not_mem_nil
    · rintro (hone | ⟨-, hfour, -⟩)
      · cases hone
      · cases hfour
  · have hne : ¬buffer.isEmpty = true := fun h => hempty (List.isEmpty_iff.mp h)
    have hcomplete := startPacket_complete settings.version hempty
    have hcopies : copies settings (.waiting prev) (.data buffer) =
        [⟨allocation settings.version (startPacket settings.version buffer), 0,
          (startPacket settings.version buffer).dataLen⟩] := if_neg hne
    have hstep : handleIncoming settings (.waiting prev) (.data buffer) =
        some (outerPacket settings.version buffer) := if_neg hne
    rw [ArrivalFits, emptySignal_iff _ hempty, ← readerInside_iff hcomplete]
    constructor
    · intro h
      by_contra hread
      obtain ⟨hcode, -⟩ := not_not.mp ((readerInside_iff hcomplete).not.mp hread)
      rw [outerPacket_recv hempty hcode] at hstep
      exact hread (h.queued _ _ hstep _ (List.mem_singleton.mpr rfl))
    · intro hread
      refine ⟨?_, ?_⟩
      · intro c hc
        rw [hcopies, List.mem_singleton] at hc
        subst hc
        obtain ⟨bytes, -, hlen⟩ := hcomplete
        have hge := allocation_ge settings.version (startPacket settings.version buffer)
        refine ⟨Int.le_refl 0, ?_, ?_⟩
        · simp only
          omega
        · simp only
          omega
      · intro phase' routed hrouted packet hpacket
        have houter : outerPacket settings.version buffer = (phase', routed) :=
          Option.some.inj (hstep.symm.trans hrouted)
        have hmem : Routed.recvList packet ∈ (outerPacket settings.version buffer).2 := by
          rw [houter]
          exact hpacket
        rw [outerPacket_packet hmem]
        exact hread

/-- Every packet that an inner round queues has the code that the first transfer gave it. -/
theorem innerPacket_packet {type : PacketType} {current packet : DataPacket} {buffer : List Byte}
    {phase : Phase} {routed : List Routed} (h : PhaseFits (.collecting type current))
    (hstep : innerPacket type current buffer = some (phase, routed))
    (hpacket : Routed.recvList packet ∈ routed) :
    Complete packet ∧ packet.code = current.code := by
  obtain ⟨⟨bytes, hdata, hlen⟩, -, -⟩ := h
  simp only [innerPacket] at hstep
  split_ifs at hstep
  all_goals obtain ⟨-, rfl⟩ := Prod.mk.inj (Option.some.inj hstep)
  · exact absurd hpacket List.not_mem_nil
  · obtain rfl := mem_queueDataPacket hpacket
    refine ⟨⟨bytes ++ buffer, ?_, ?_⟩, rfl⟩
    · rw [hdata]
      rfl
    · rw [List.length_append]
      push_cast
      omega

theorem collecting_packet {type : PacketType} {current packet : DataPacket} {received : Received}
    {phase : Phase} {routed : List Routed} (h : PhaseFits (.collecting type current))
    (hstep : handleIncoming settings (.collecting type current) received = some (phase, routed))
    (hpacket : Routed.recvList packet ∈ routed) :
    Complete packet ∧ packet.code = current.code := by
  cases received with
  | data buffer =>
    simp only [handleIncoming] at hstep
    split_ifs at hstep
    · cases hstep
      obtain rfl := mem_queueDataPacket hpacket
      exact ⟨h.1, rfl⟩
    · cases hstep
      obtain rfl := mem_queueDataPacket hpacket
      exact ⟨h.1, rfl⟩
    · exact innerPacket_packet h hstep hpacket
  | timeout | pipeError | failed =>
    cases hstep
    obtain rfl := mem_queueDataPacket hpacket
    exact ⟨h.1, rfl⟩

theorem inside_inner {type : PacketType} {current : DataPacket} (received : Received)
    (h : PhaseFits (.collecting type current)) :
    Inside settings (.collecting type current) received ↔
      ArrivalFits settings (.collecting type current) received := by
  have hqueued : ∀ phase' routed,
      handleIncoming settings (.collecting type current) received = some (phase', routed) →
        ∀ packet, Routed.recvList packet ∈ routed → ReaderInside packet := by
    intro phase' routed hstep packet hpacket
    obtain ⟨hcomplete, hcode⟩ := collecting_packet h hstep hpacket
    exact (readerInside_iff hcomplete).mpr (fun hempty => h.2.2 (hcode.symm.trans hempty.1))
  obtain ⟨⟨bytes, -, hlen⟩, hless, -⟩ := h
  cases received with
  | data buffer =>
    simp only [ArrivalFits]
    constructor
    · intro hinside hsize
      by_cases hempty : buffer = []
      · subst hempty
        simp only [List.length_nil]
        omega
      · have hcopy : (⟨type.inData, current.dataLen, buffer.length⟩ : Copy) ∈
            copies settings (.collecting type current) (.data buffer) := by
          rw [copies, if_neg]
          · exact List.mem_singleton.mpr rfl
          · rintro (hnil | hlong)
            · exact hempty (List.isEmpty_iff.mp hnil)
            · omega
        exact (hinside.copied _ hcopy).2.2
    · intro hfits
      refine ⟨?_, hqueued⟩
      intro c hc
      rw [copies] at hc
      split at hc
      · exact absurd hc List.not_mem_nil
      · rename_i hsize
        rw [List.mem_singleton] at hc
        subst hc
        refine ⟨?_, ?_, hfits (Nat.le_of_not_lt (fun hlt => hsize (.inr hlt)))⟩
        · simp only
          omega
        · simp only
          omega
  | timeout | pipeError | failed =>
    exact iff_of_true ⟨fun c hc => absurd hc List.not_mem_nil, hqueued⟩ trivial

/-- One round. -/
theorem inside_iff (phase : Phase) (received : Received) (h : PhaseFits phase) :
    Inside settings phase received ↔ ArrivalFits settings phase received := by
  have hnothing {phase' : Phase} {received : Received} (hcopies : copies settings phase' received = [])
      (hqueued : ∀ p, handleIncoming settings phase' received = some p → p.2 = []) :
      Inside settings phase' received := by
    refine ⟨?_, ?_⟩
    · rw [hcopies]
      exact fun c hc => absurd hc List.not_mem_nil
    · intro phase'' routed hstep packet hpacket
      have hnil : routed = [] := hqueued _ hstep
      rw [hnil] at hpacket
      exact absurd hpacket List.not_mem_nil
  cases phase with
  | exited =>
    refine iff_of_true (hnothing ?_ ?_) ?_
    · cases received <;> rfl
    · intro p hp
      cases received <;> cases hp <;> rfl
    · cases received <;> trivial
  | waiting prev =>
    cases received with
    | data buffer => exact inside_outer prev buffer
    | timeout | pipeError | failed =>
      refine iff_of_true (hnothing rfl ?_) trivial
      intro p hp
      cases hp
      rfl
  | collecting type current => exact inside_inner received h

/-- **Reassembly stays inside its blocks** exactly when no signal is empty and no transfer is longer
than what its packet misses. -/
theorem reassembly_inside_iff (settings : ReaderSettings) (received : List Received) :
    Transition.Guarded (handleIncoming settings) (Inside settings) (.waiting 0) received ↔
      Transition.Guarded (handleIncoming settings) (ArrivalFits settings) (.waiting 0) received :=
  Transition.guarded_iff (I := PhaseFits)
    (fun _ _ _ _ h hstep => phaseFits_step h hstep) inside_iff received _ trivial

/-- The reader of a device of the current version. -/
def currentReader : ReaderSettings := ⟨8, 0x308, false⟩

/-- A transfer of one byte is read behind its end; a label whose reply comes in pieces is written
behind the end of its block. -/
theorem reassembly_outside :
    ¬Transition.Guarded (handleIncoming currentReader) (Inside currentReader) (.waiting 0)
      [.data [0x05]] ∧
    ¬Transition.Guarded (handleIncoming currentReader) (Inside currentReader) (.waiting 0)
      [.data [0, 0, 0xDC, 0x20], .data (List.replicate 8 1), .data (List.replicate 8 1)] := by
  constructor
  · intro h
    have hread := h.1.queued _ _ rfl _ (List.mem_singleton.mpr rfl)
    obtain ⟨bytes, hbytes, hwords⟩ := hread
    cases hbytes
    obtain ⟨words, hdecode, -⟩ := hwords rfl [] rfl
    cases hdecode
  · intro h
    have hcopied := ((h.2 _ rfl).2 _ rfl).1.copied _ (List.mem_singleton.mpr rfl)
    revert hcopied
    decide

end IguanaIR
