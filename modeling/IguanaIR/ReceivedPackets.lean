import IguanaIR.Capture
import IguanaIR.Firmware.SignalPackets

/-! # Signal data is no control packet

The packets that `write_signal` sends against the header of control packets, which starts with
two null bytes.  A signal has null bytes too, but never two of them in a row: only the last byte
of a pulse can be null, and behind a pulse comes a space or a wrap, whose bytes all have the state
bit. -/

namespace IguanaIR

open Firmware

/-! ### Null bytes -/

/-- There are no two null bytes in a row. -/
def NoTwoNulls (bytes : List Byte) : Prop := bytes.IsChain (fun a b => ¬(a = 0 ∧ b = 0))

theorem NoTwoNulls.append {front back : List Byte} (hfront : ∀ a ∈ front, a ≠ 0)
    (hback : NoTwoNulls back) : NoTwoNulls (front ++ back) := by
  induction front with
  | nil => exact hback
  | cons a front ih =>
      apply List.isChain_cons.mpr
      constructor
      · intro b _ hnulls
        exact hfront a (List.mem_cons_self ..) hnulls.1
      · exact ih (fun b hb => hfront b (List.mem_cons_of_mem _ hb))

theorem pulseBit_or_ne : ∀ rising : Bool, pulseBit rising ||| 0x7F ≠ 0 := by decide

/-- The full bytes of a capture are not null. -/
theorem full_ne {rising : Bool} {n : ℕ} : ∀ a ∈ List.replicate n (pulseBit rising ||| 0x7F), a ≠ 0 := by
  intro a ha
  rw [List.eq_of_mem_replicate ha]
  exact pulseBit_or_ne rising

/-- Neither is any byte of a space. -/
theorem spaceBytes_ne {timer : BitVec 16} : ∀ a ∈ captureBytes false timer, a ≠ 0 := by
  intro a ha
  obtain ha | ha := List.mem_append.mp ha
  · exact full_ne a ha
  · rw [List.mem_singleton.mp ha]
    intro hnull
    have hstate : remainderByte (timer.extractLsb' 8 8) (timer.extractLsb' 0 8) (pulseBit false) &&&
        STATE_MASK = pulseBit false := state_remainder _ _
    rw [hnull] at hstate
    exact absurd hstate (by decide)

theorem stream_cons (e : SignalEvent) (es : List SignalEvent) :
    stream (e :: es) = e.bytes ++ stream es := List.flatMap_cons ..

/-- When the next capture is a space, the next byte is not null. -/
theorem stream_head_ne {es : List SignalEvent}
    (hedge : ∀ rising ∈ (es.filterMap SignalEvent.edge).head?, rising = false) :
    ∀ b ∈ (stream es).head?, b ≠ 0 := by
  induction es with
  | nil => nofun
  | cons e es ih =>
      rw [stream_cons]
      intro b hb
      cases e with
      | instruction => exact ih hedge b hb
      | loop => exact ih hedge b hb
      | wrap =>
          have hfirst : b = 0x80 := (Option.some.inj hb).symm
          rw [hfirst]
          decide
      | capture rising timer =>
          rw [List.filterMap_cons_some (show SignalEvent.edge _ = some rising from rfl)] at hedge
          obtain rfl : rising = false := hedge rising rfl
          obtain ⟨first, rest, hbytes, -⟩ := captureBytes_cons false timer
          have hmem : first ∈ captureBytes false timer := by
            rw [hbytes]
            exact List.mem_cons_self ..
          have hb' : b ∈ (captureBytes false timer ++ stream es).head? := hb
          rw [hbytes, List.cons_append] at hb'
          rw [← Option.some.inj hb']
          exact spaceBytes_ne first hmem

/-- **Received signals** have no two null bytes in a row. -/
theorem stream_noTwoNulls {es : List SignalEvent} (halt : AlternatingEdges es) :
    NoTwoNulls (stream es) := by
  induction es with
  | nil => exact List.isChain_nil
  | cons e es ih =>
      rw [stream_cons]
      cases e with
      | instruction => exact ih halt
      | loop => exact ih halt
      | wrap =>
          apply NoTwoNulls.append
          · intro a ha
            rw [List.mem_singleton.mp ha]
            decide
          · exact ih halt
      | capture rising timer =>
          unfold AlternatingEdges at halt
          rw [List.filterMap_cons_some (show SignalEvent.edge _ = some rising from rfl)] at halt
          obtain ⟨hnext, hrest⟩ := List.isChain_cons.mp halt
          cases rising with
          | false => exact NoTwoNulls.append spaceBytes_ne (ih hrest)
          | true =>
              -- the next capture is a space
              have hspace : ∀ rising ∈ (es.filterMap SignalEvent.edge).head?, rising = false :=
                fun rising hr => Bool.eq_false_iff.mpr (fun heq => hnext rising hr heq.symm)
              have hhead := stream_head_ne hspace
              change NoTwoNulls (captureBytes true timer ++ stream es)
              rw [captureBytes, List.append_assoc]
              apply NoTwoNulls.append full_ne
              apply List.isChain_cons.mpr
              constructor
              · intro b hb hnulls
                exact hhead b hb hnulls.2
              · exact ih hrest

/-! ### The reader -/

/-- A packet that starts with bytes which are not both null is a signal. -/
theorem signal_outerPacket {version : Version} {a b : Byte} {rest : List Byte} (fill : Byte)
    (h : ¬(a = 0 ∧ b = 0)) (hlen : (a :: b :: rest).length = 7) :
    outerPacket version (a :: b :: rest ++ [fill]) =
      (.waiting 8, [.recvList ⟨IG_DEV_RECV, 7, some (a :: b :: rest)⟩]) := by
  have hcontrol : isControl (a :: b :: rest ++ [fill]) = false := by
    apply Bool.eq_false_iff.mpr
    intro hheader
    simp only [isControl, Bool.and_eq_true, beq_iff_eq] at hheader
    obtain ⟨ha, hrest⟩ := List.cons.inj hheader.2
    exact h ⟨ha, (List.cons.inj hrest).1⟩
  have hsize : (a :: b :: rest ++ [fill]).length = 8 := by
    rw [List.length_append, hlen, List.length_singleton]
  have hstart : startPacket version (a :: b :: rest ++ [fill]) =
      ⟨IG_DEV_RECV, 7, some (a :: b :: rest)⟩ := by
    have htake : (a :: b :: rest ++ [fill]).take (8 - 1) = a :: b :: rest := List.take_left' hlen
    rw [startPacket, hcontrol, hsize, htake]
    rfl
  rw [outerPacket, hstart, hsize]
  simp only [findTypeEntry_recv]
  rfl

/-- Each packet that is sent is seven bytes of the signal, one after the other, and a fill level. -/
def SendsPieces (c c' : Chip) (es : List SignalEvent) : Prop :=
  ∃ packets, c'.mcu.sent = c.mcu.sent ++ packets ∧ ∀ p ∈ packets, p.length = 8 →
    ∃ w fill, p = w ++ [fill] ∧ w.length = 7 ∧ w <:+: stream es

/-- The reader makes a received signal of any seven bytes in a row, with any fill level. -/
def ReadsPieces (es : List SignalEvent) : Prop :=
  ∀ (w : List Byte) (fill : Byte) (settings : ReaderSettings) (prev : ℤ), w.length = 7 →
    w <:+: stream es → handleIncomingPackets settings (.waiting prev) [.data (w ++ [fill])] =
      some (.waiting 8, [.recvList ⟨IG_DEV_RECV, 7, some w⟩])

theorem alternating_readsPieces {es : List SignalEvent} (halt : AlternatingEdges es) :
    ReadsPieces es := by
  intro w fill settings prev hlen hw
  obtain ⟨before, after, hstream⟩ := hw
  have hall := stream_noTwoNulls halt
  rw [← hstream] at hall
  have hnulls := hall.left_of_append.right_of_append
  obtain _ | ⟨a, _ | ⟨b, rest⟩⟩ := w
  · cases hlen
  · cases hlen
  · obtain ⟨hab, -⟩ := List.isChain_cons_cons.mp hnulls
    have hstep : handleIncoming settings (.waiting prev) (.data (a :: b :: rest ++ [fill])) =
        some (outerPacket settings.version (a :: b :: rest ++ [fill])) := rfl
    simp only [handleIncomingPackets, Transition.run, hstep, signal_outerPacket fill hab hlen,
      Option.bind_eq_bind, Option.bind_some, Option.map_some, List.flatten_cons, List.flatten_nil,
      List.append_nil]

/-- **Signal data is never taken for a control packet.**  Captures alternate, wraps come in
between them, and nothing overflows: then `write_signal` sends pieces of the signal, and the
reader makes received signals of them. -/
theorem signal_received {c c' : Chip} {es : List SignalEvent} {os : List Unit} (h : c.Listens)
    (halt : AlternatingEdges es) (hroom : Transition.Guarded signalStep HasRoom c es)
    (hrun : Transition.run signalStep c es = some (c', os)) :
    SendsPieces c c' es ∧ ReadsPieces es := by
  obtain ⟨packets, hsent, hpackets⟩ := signalRun_packets h hroom hrun
  refine ⟨⟨packets, hsent, ?_⟩, alternating_readsPieces halt⟩
  intro p hp hlen
  obtain rfl | hw := hpackets p hp
  · cases hlen
  · exact hw

/-- The receiver has just been turned on. -/
def listening : Chip where
  pc := .idle
  caller := .request
  a := 0
  x := 0
  zero := false
  carry := false
  gie := true
  twrap := true
  mcu := { (Mcu.cleared 0).write bufferPtr buffer with
    rxFlags := RX_ON_FLAG, readPtr := buffer, rxEnabled := true }
  put := []
  got := []

/-- Pulses of one tick, whose bytes are null, with spaces of one tick and a wrap between them, and
the packet that they fill. -/
def nullPulses : List SignalEvent :=
  [.capture true 0x40, .capture false 0x40, .capture true 0x40, .capture false 0x40,
    .capture true 0x40, .wrap, .capture false 0x40, .capture true 0x40, .loop] ++
    List.replicate 92 .instruction

instance : DecidableRel HasRoom := fun _ _ => inferInstanceAs (Decidable (_ ≤ _))

instance : DecidablePred AlternatingEdges := fun es =>
  inferInstanceAs (Decidable (List.IsChain (· ≠ ·) (es.filterMap SignalEvent.edge)))

theorem signal_received_nulls : ∃ c' : Chip,
    c'.mcu.sent = [[0, 0x80, 0, 0x80, 0, 0x80, 0x80, 1]] ∧
      SendsPieces listening c' nullPulses ∧ ReadsPieces nullPulses := by
  have hend : (Transition.run signalStep listening nullPulses).map (fun r => r.1.mcu.sent) =
      some [[0, 0x80, 0, 0x80, 0, 0x80, 0x80, 1]] := by decide +kernel
  obtain ⟨⟨c', os⟩, hrun, hsent⟩ := Option.map_eq_some_iff.mp hend
  have hlistens : listening.Listens := ⟨rfl, by decide, by decide, rfl, rfl, rfl, rfl, rfl⟩
  have halt : AlternatingEdges nullPulses := by decide +kernel
  have hroom : Transition.Guarded signalStep HasRoom listening nullPulses := by decide +kernel
  exact ⟨c', hsent, signal_received hlistens halt hroom hrun⟩

end IguanaIR
