import IguanaIR.ReceivedPackets

/-! # The order of received bytes

Where the bytes of a signal are between the interrupts that put them and the host: in a packet that
was sent, with `write_signal`, or in the receive buffer still.  The three follow on each other, so
the packets leave nothing out, repeat nothing and keep the order. -/

namespace IguanaIR.Firmware

/-! ### The bytes of a packet -/

/-- How many bytes `get_byte` has returned for the next packet. -/
def Chip.returned (c : Chip) : ℕ :=
  match c.pc with
  | .getByte _ | .writeSignal .callGetByte | .writeSignal .jnz => 7 - c.x.toNat
  | .writeSignal .mviByte | .writeSignal .decX => 8 - c.x.toNat
  | .writeSignal .movA | .writeSignal .mviLevel | .writeSignal .movSize | .writeSignal .movPacket
  | .writeSignal .lcallPacket => 7
  | _ => 0

/-- What packets hold of the signal; the byte behind it is the fill level. -/
def packetBytes (packets : List (List Byte)) : List Byte := packets.flatMap (·.take 7)

theorem packetBytes_append (packets packets' : List (List Byte)) :
    packetBytes (packets ++ packets') = packetBytes packets ++ packetBytes packets' :=
  List.flatMap_append

theorem packetBytes_single {w : List Byte} (hlen : w.length = 7) (fill : Byte) :
    packetBytes [w ++ [fill]] = w := by
  simp [packetBytes, hlen]

/-- The packets since `sent₀` are whole, and what was returned is in them and in the next one. -/
structure Chip.Accounts (sent₀ : List (List Byte)) (c : Chip) : Prop where
  signals : c.Signals sent₀
  running : ¬halted c.mcu
  order : ∃ packets rest, c.mcu.sent = sent₀ ++ packets ∧ (∀ p ∈ packets, p.length = 8) ∧
    c.got = packetBytes packets ++ rest ∧ rest.length = c.returned

/-! ### Instructions -/

theorem Copying.x_pos {c : Chip} {moved taken : ℕ} (h : Copying c moved 0 taken) :
    0 < c.x.toNat ∧ c.x.toNat ≤ 7 := by
  obtain ⟨k, hlt, -, hx, -⟩ := h
  omega

theorem getByte_accounts {sent₀ : List (List Byte)} {c : Chip} {p : GetByte}
    (hpc : c.pc = .getByte p) (h : c.Accounts sent₀) : (getByte c p).Accounts sent₀ := by
  have hsignals := getByte_signals hpc h.signals
  have hfacts := h.signals.inv.facts
  obtain ⟨pc, caller, a, x, zero, carry, gie, twrap, m, put, got⟩ := c
  obtain rfl : pc = .getByte p := hpc
  obtain ⟨-, hrunning, packets, rest, hsent, hwhole, hgot, hlen⟩ := h
  cases p with
  | mvi | cmp | mov | andF | dec | orF =>
      exact ⟨hsignals, hrunning, packets, rest, hsent, hwhole, hgot, hlen⟩
  | jnz =>
      refine ⟨hsignals, hrunning, packets, rest, hsent, hwhole, hgot, ?_⟩
      cases zero <;> exact hlen
  | ret =>
      -- the byte in A has been returned
      obtain ⟨hpos, hle⟩ := Copying.x_pos hfacts
      refine ⟨hsignals, hrunning, packets, rest ++ [a], hsent, hwhole, ?_, ?_⟩
      · change got ++ [a] = _
        rw [← List.append_assoc]
        exact congrArg (· ++ [a]) hgot
      · have hlen' : rest.length = 7 - x.toNat := hlen
        have hpos' : 0 < x.toNat := hpos
        have hle' : x.toNat ≤ 7 := hle
        change (rest ++ [a]).length = 8 - x.toNat
        rw [List.length_append, List.length_singleton]
        omega

/-- What `write_packet` reads of a control packet that holds a whole packet. -/
theorem readAll_packed {m : Mcu} {w : List Byte} {fill : Byte} (hlen : w.length = 7)
    (h : Stored m controlPkt (w ++ [fill])) :
    ((m.write tmp1 PACKET_SIZE).write tmp2 controlPkt).readAll controlPkt PACKET_SIZE.toNat =
      w ++ [fill] := by
  have htmp : ∀ i < 8, controlPkt + BitVec.ofNat 8 i ≠ tmp1 ∧ controlPkt + BitVec.ofNat 8 i ≠ tmp2 := by
    decide
  have hlen' : (w ++ [fill]).length = PACKET_SIZE.toNat := by
    rw [List.length_append, hlen]
    rfl
  rw [← hlen']
  apply Stored.readAll
  apply h.congr
  intro i hi
  obtain ⟨hne₁, hne₂⟩ := htmp i (by rwa [hlen'] at hi)
  rw [Mcu.write_ne _ _ hne₂, Mcu.write_ne _ _ hne₁]

/-- The packet that is sent holds what was returned for it. -/
theorem lcallPacket_accounts {sent₀ : List (List Byte)} {c : Chip}
    (hpc : c.pc = .writeSignal .lcallPacket) (h : c.Accounts sent₀) :
    (lcallWritePacket (.writeSignal .ret) c).Accounts sent₀ := by
  have hsignals := lcallPacket_signals hpc h.signals
  have hloads := h.signals.loads
  obtain ⟨pc, caller, a, x, zero, carry, gie, twrap, m, put, got⟩ := c
  obtain rfl : pc = .writeSignal .lcallPacket := hpc
  obtain ⟨-, hrunning, packets, rest, hsent, hwhole, hgot, hrest⟩ := h
  obtain ⟨⟨front, w, fill, hgot', hlen, hstored⟩, hx, ha⟩ := hloads
  obtain rfl : x = PACKET_SIZE := hx
  obtain rfl : a = controlPkt := ha
  obtain ⟨rfl, rfl⟩ := List.append_inj' (hgot'.symm.trans hgot) (hlen.trans hrest.symm)
  have hflags : loaderFlags ≠ tmp1 ∧ loaderFlags ≠ tmp2 := by decide
  have hrunning' : ¬halted ((m.write tmp1 PACKET_SIZE).write tmp2 controlPkt) := by
    unfold halted
    rw [Mcu.write_ne _ _ hflags.2, Mcu.write_ne _ _ hflags.1]
    exact hrunning
  unfold lcallWritePacket writePacket at hsignals ⊢
  dsimp only at hsignals ⊢
  rw [if_neg hrunning'] at hsignals ⊢
  refine ⟨hsignals, hrunning', packets ++ [w ++ [fill]], [], ?_, ?_, ?_, rfl⟩
  · change m.sent ++ [_] = _
    rw [readAll_packed hlen hstored, ← List.append_assoc]
    exact congrArg (· ++ [w ++ [fill]]) hsent
  · intro p hp
    rcases List.mem_append.mp hp with hp | hp
    · exact hwhole p hp
    · rw [List.mem_singleton.mp hp, List.length_append, hlen]
      rfl
  · rw [packetBytes_append, packetBytes_single hlen, List.append_nil]
    exact hgot

/-- The flags of the loader are no variable of `write_signal`. -/
theorem mvi_halted {m : Mcu} {k : ℕ} (hk : k ≤ 7) (hptr : m.ram tmp1 = controlPkt + BitVec.ofNat 8 k)
    (a : Byte) : halted (m.mvi tmp1 a) ↔ halted m := by
  have hne : ∀ k ≤ 7, loaderFlags ≠ controlPkt + BitVec.ofNat 8 k := by decide
  have htmp : loaderFlags ≠ tmp1 := by decide
  unfold halted
  rw [Mcu.mvi, Mcu.write_ne _ _ htmp, hptr, Mcu.write_ne _ _ (hne k hk)]

theorem writeSignal_accounts {sent₀ : List (List Byte)} {c : Chip} {p : WriteSignal}
    (hpc : c.pc = .writeSignal p) (h : c.Accounts sent₀) : (writeSignal c p).Accounts sent₀ := by
  by_cases hp : p = .lcallPacket
  · subst hp
    exact lcallPacket_accounts hpc h
  have hsignals := writeSignal_signals hpc h.signals
  have hfacts := h.signals.inv.facts
  obtain ⟨pc, caller, a, x, zero, carry, gie, twrap, m, put, got⟩ := c
  obtain rfl : pc = .writeSignal p := hpc
  obtain ⟨-, hrunning, packets, rest, hsent, hwhole, hgot, hlen⟩ := h
  refine ⟨hsignals, ?_, packets, rest, ?_, hwhole, ?_, ?_⟩
  · cases p with
    | lcallPacket => exact absurd rfl hp
    | movTmp1 =>
        have htmp : loaderFlags ≠ tmp1 := by decide
        change ¬halted (m.write tmp1 controlPkt)
        unfold halted
        rw [Mcu.write_ne _ _ htmp]
        exact hrunning
    | mviByte =>
        obtain ⟨k, hlt, hptr, -⟩ := hfacts
        exact (mvi_halted (by omega) hptr a).not.mpr hrunning
    | mviLevel => exact (mvi_halted (Nat.le_refl 7) hfacts a).not.mpr hrunning
    | _ => exact hrunning
  · cases p with
    | lcallPacket => exact absurd rfl hp
    | _ => exact hsent
  · cases p with
    | lcallPacket => exact absurd rfl hp
    | _ => exact hgot
  · cases p with
    | lcallPacket => exact absurd rfl hp
    | jc => cases carry <;> exact hlen
    | movTmp1 =>
        -- nothing is returned yet
        obtain ⟨hx, -⟩ := hfacts
        have hx' : x.toNat = 7 := hx
        change rest.length = 7 - x.toNat
        rw [hx']
        exact hlen
    | decX =>
        obtain ⟨k, hlt, -, hx, -⟩ := hfacts
        have hx' : x.toNat + k + 0 = 7 := hx
        have hlen' : rest.length = 8 - x.toNat := hlen
        change rest.length = 7 - (x - 1).toNat
        rw [toNat_pred (by omega)]
        omega
    | jnz =>
        obtain ⟨-, hzero⟩ := hfacts
        cases zero with
        | true =>
            have hx : x = 0 := hzero.mp rfl
            subst hx
            exact hlen
        | false => exact hlen
    | _ => exact hlen

theorem body_accounts {sent₀ : List (List Byte)} {c : Chip} {p : Body} (hpc : c.pc = .body p)
    (h : c.Accounts sent₀) : (body c p).Accounts sent₀ := by
  have hsignals := body_signals hpc h.signals
  have hloads := h.signals.loads
  obtain ⟨pc, caller, a, x, zero, carry, gie, twrap, m, put, got⟩ := c
  obtain rfl : pc = .body p := hpc
  obtain ⟨-, hrunning, packets, rest, hsent, hwhole, hgot, hlen⟩ := h
  cases p with
  | movA | andOverflow | lcallSignal | ret =>
      exact ⟨hsignals, hrunning, packets, rest, hsent, hwhole, hgot, hlen⟩
  | jz =>
      obtain rfl : zero = true := hloads
      exact ⟨hsignals, hrunning, packets, rest, hsent, hwhole, hgot, hlen⟩
  | orOn | lcallOn | andOn | lcallOff | movAck | lcallAck | retAck | movCode | movX | lcallControl
  | lcallReset => exact hloads.elim

theorem instruction_accounts {sent₀ : List (List Byte)} {c c' : Chip} (h : c.Accounts sent₀)
    (hc : instruction c = some c') : c'.Accounts sent₀ := by
  unfold instruction at hc
  cases hpc : c.pc with
  | idle => simp [hpc] at hc
  | body p =>
      simp only [hpc, Option.some.injEq] at hc
      exact hc ▸ body_accounts hpc h
  | writeSignal p =>
      simp only [hpc, Option.some.injEq] at hc
      exact hc ▸ writeSignal_accounts hpc h
  | getByte p =>
      simp only [hpc, Option.some.injEq] at hc
      exact hc ▸ getByte_accounts hpc h
  | rxReset p =>
      have hloads := h.signals.loads
      unfold Loads at hloads
      rw [hpc] at hloads
      exact hloads.elim

/-! ### Runs -/

theorem Chip.Accounts.interrupt {sent₀ : List (List Byte)} {c : Chip} (h : c.Accounts sent₀)
    {added : List Byte} (hroom : c.mcu.bufSize.toNat + added.length ≤ 150) :
    Chip.Accounts sent₀
      { c with mcu := putBytes added c.mcu, put := c.put ++ accepted added c.mcu } := by
  obtain ⟨x, bytes, hholds⟩ := h.signals.inv.holds h.signals.loads.shape
  obtain ⟨-, -, hsent⟩ := accepted_all added hholds hroom
  refine ⟨h.signals.interrupt hroom, ?_, ?_⟩
  · have hflags : bufferPtr.toNat < loaderFlags.toNat := by decide
    change ¬halted (putBytes added c.mcu)
    unfold halted
    rw [hholds.putBytes_ram added hflags]
    exact h.running
  · rw [hsent]
    exact h.order

theorem signalStep_accounts {sent₀ : List (List Byte)} {c c' : Chip} {e : SignalEvent} {o : Unit}
    (h : c.Accounts sent₀) (hroom : HasRoom c e) (hstep : signalStep c e = some (c', o)) :
    c'.Accounts sent₀ := by
  have hsignals := (signalStep_signals h.signals hroom hstep).1
  have hinterrupt {i : Interrupt} {added : List Byte}
      (hadded : c.mcu.bufSize.toNat + added.length ≤ 150)
      (hstep : chipStep c (.interrupt i added) = some (c', o)) : c'.Accounts sent₀ := by
    simp only [chipStep, Option.ite_none_right_eq_some, Option.some.injEq, Prod.mk.injEq] at hstep
    obtain ⟨-, rfl, -⟩ := hstep
    exact h.interrupt hadded
  cases e with
  | instruction =>
      obtain ⟨c₁, hc₁, heq⟩ := Option.map_eq_some_iff.mp hstep
      obtain ⟨rfl, -⟩ := Prod.mk.inj heq
      exact instruction_accounts h hc₁
  | loop =>
      simp only [signalStep, SignalEvent.toChip, chipStep, Option.ite_none_right_eq_some,
        Option.some.injEq, Prod.mk.injEq] at hstep
      obtain ⟨hidle, rfl, -⟩ := hstep
      obtain ⟨-, hrunning, packets, rest, hsent, hwhole, hgot, hlen⟩ := h
      refine ⟨hsignals, hrunning, packets, rest, hsent, hwhole, hgot, ?_⟩
      unfold Chip.returned at hlen
      rw [hidle] at hlen
      exact hlen
  | capture rising timer => exact hinterrupt hroom hstep
  | wrap => exact hinterrupt hroom hstep

theorem Chip.Listens.accounts {c : Chip} (h : c.Listens) (hrunning : ¬halted c.mcu) :
    c.Accounts c.mcu.sent := by
  refine ⟨h.signals, hrunning, [], [], (List.append_nil _).symm, by simp, h.got, ?_⟩
  unfold Chip.returned
  rw [h.pc]
  rfl

theorem signalRun_accounts {c c' : Chip} {es : List SignalEvent} {os : List Unit} (h : c.Listens)
    (hrunning : ¬halted c.mcu) (hroom : Transition.Guarded signalStep HasRoom c es)
    (hrun : Transition.run signalStep c es = some (c', os)) : c'.Accounts c.mcu.sent :=
  Transition.run_invariant (fun _ _ _ _ hs hG hstep => signalStep_accounts hs hG hstep)
    es c c' os (h.accounts hrunning) hroom hrun

/-- Before the packet is sent it misses none of what was returned. -/
theorem Chip.Inv.returned_le {c : Chip} (h : c.Inv) :
    c.returned ≤ 7 ∧ (c.pc.shape = .dropped → c.returned ≤ 6) := by
  have hfacts := h.facts
  obtain ⟨pc, caller, a, x, zero, carry, gie, twrap, m, put, got⟩ := c
  cases pc with
  | idle | body p | rxReset p => exact ⟨Nat.zero_le 7, fun _ => Nat.zero_le 6⟩
  | getByte p =>
      refine ⟨Nat.sub_le 7 x.toNat, fun hshape => ?_⟩
      cases p with
      | mvi | cmp | jnz | mov | andF | dec => cases hshape
      | orF | ret =>
          have hpos : 0 < x.toNat := (Copying.x_pos hfacts).1
          change 7 - x.toNat ≤ 6
          omega
  | writeSignal p =>
      refine ⟨?_, fun hshape => by cases p <;> cases hshape⟩
      cases p with
      | callGetByte | jnz => exact Nat.sub_le 7 x.toNat
      | mviByte | decX =>
          have hpos : 0 < x.toNat := (Copying.x_pos hfacts).1
          change 8 - x.toNat ≤ 7
          omega
      | movA | mviLevel | movSize | movPacket | lcallPacket => exact Nat.le_refl 7
      | cmp | jc | movX | movTmp1 | ret => exact Nat.zero_le 7

/-- Where the bytes are that were put: in the packets, with `write_signal`, or in the buffer. -/
structure Divided (c : Chip) (bytes : List Byte) (packets : List (List Byte)) : Prop where
  whole : ∀ p ∈ packets, p.length = 8
  parts : ∃ taken held x, bytes = packetBytes packets ++ (taken ++ held) ∧ taken.length ≤ 7 ∧
    Holds c.mcu x held
  idle : c.pc = .idle → bytes = packetBytes packets ++ c.mcu.received

theorem Chip.Accounts.divided {sent₀ : List (List Byte)} {c : Chip} (h : c.Accounts sent₀) :
    ∃ packets, c.mcu.sent = sent₀ ++ packets ∧ Divided c c.put packets := by
  obtain ⟨hle, hdropped⟩ := h.signals.inv.returned_le
  have hfits := h.signals.inv.fits
  have hshape := h.signals.loads.shape
  obtain ⟨packets, rest, hsent, hwhole, hgot, hlen⟩ := h.order
  refine ⟨packets, hsent, hwhole, ?_, ?_⟩
  · cases hs : c.pc.shape with
    | resetting => exact absurd (.inl hs) hshape
    | rewound => exact absurd (.inr hs) hshape
    | whole | taken | turned =>
        rw [hs] at hfits
        obtain ⟨x, bytes, hholds, hput, -⟩ := hfits
        refine ⟨rest, _, x, ?_, by omega, hholds⟩
        rw [hput, hgot, List.append_assoc]
    | dropped =>
        -- one more byte is in A
        rw [hs] at hfits
        obtain ⟨x, bytes, hholds, hput, -⟩ := hfits
        have hrest := hdropped hs
        refine ⟨rest ++ [c.a], bytes, x, ?_, ?_, hholds⟩
        · simp [hput, hgot]
        · rw [List.length_append, List.length_singleton]
          omega
  · intro hidle
    have hnone : rest = [] := by
      apply List.eq_nil_of_length_eq_zero
      rw [hlen, Chip.returned, hidle]
    rw [(h.signals.inv.inOrder hidle).order, hgot, hnone, List.append_nil]

/-- **No byte is lost, repeated or moved** between the interrupts and the packets: at any time the
bytes of all the captures and wraps so far are those in the packets, then at most seven that
`write_signal` works on, then those in the receive buffer.  In the main loop there are none
in between. -/
theorem signalRun_divided {c c' : Chip} {es : List SignalEvent} {os : List Unit} (h : c.Listens)
    (hrunning : ¬halted c.mcu) (hroom : Transition.Guarded signalStep HasRoom c es)
    (hrun : Transition.run signalStep c es = some (c', os)) :
    ∃ packets, c'.mcu.sent = c.mcu.sent ++ packets ∧ Divided c' (stream es) packets := by
  obtain ⟨packets, hsent, hdivided⟩ := (signalRun_accounts h hrunning hroom hrun).divided
  obtain ⟨-, hput⟩ := signalRun_signals h.signals hroom hrun
  rw [h.put, List.nil_append] at hput
  rw [hput] at hdivided
  exact ⟨packets, hsent, hdivided⟩

/-- Seven of eight bytes are in a packet. -/
theorem signalRun_divided_nulls : ∃ c' : Chip, c'.pc = .idle ∧ c'.mcu.received = [0] ∧
    Divided c' (stream nullPulses) [[0, 0x80, 0, 0x80, 0, 0x80, 0x80, 1]] := by
  have hend : (Transition.run signalStep listening nullPulses).map
      (fun r => (r.1.pc, r.1.mcu.received, r.1.mcu.sent)) =
        some (.idle, [0], [[0, 0x80, 0, 0x80, 0, 0x80, 0x80, 1]]) := by decide +kernel
  obtain ⟨⟨c', os⟩, hrun, heq⟩ := Option.map_eq_some_iff.mp hend
  obtain ⟨hidle, hreceived, hsent⟩ : c'.pc = .idle ∧ c'.mcu.received = [0] ∧
      c'.mcu.sent = [[0, 0x80, 0, 0x80, 0, 0x80, 0x80, 1]] := by
    simpa using heq
  have hlistens : listening.Listens := ⟨rfl, by decide, by decide, rfl, rfl, rfl, rfl, rfl⟩
  have hroom : Transition.Guarded signalStep HasRoom listening nullPulses := by decide +kernel
  obtain ⟨packets, hpackets, hdivided⟩ := signalRun_divided hlistens (by decide) hroom hrun
  rw [hsent] at hpackets
  obtain rfl : [[0, 0x80, 0, 0x80, 0, 0x80, 0x80, 1]] = packets := hpackets
  exact ⟨c', hidle, hreceived, hdivided⟩

end IguanaIR.Firmware
