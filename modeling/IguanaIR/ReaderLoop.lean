import IguanaIR.Incoming

/-! # Pipe errors of the reader

The reader thread ignores a pipe error unless it is the second one in a row, or so it means to:
`prev` is the length that the last round ended with, and a round that goes on never ends with a
negative one.

`Reader` is the reader with what its last read was, and `KeepsLaw` what a read should lead to. -/

namespace IguanaIR

open Transition

/-- The phase, and whether the last read failed with `EPIPE`. -/
structure Reader where
  phase : Phase
  piped : Bool
deriving DecidableEq, Repr

namespace Reader

variable {settings : ReaderSettings}

/-- Before the first read. -/
def start : Reader := ⟨.waiting 0, false⟩

/-- One read, in either loop. -/
def step (settings : ReaderSettings) (s : Reader) (received : Received) :
    Option (Reader × List Routed) :=
  (handleIncoming settings s.phase received).map (fun r => (⟨r.1, received == .pipeError⟩, r.2))

/-- The second pipe error in a row ends the loop, timeouts and other pipe errors do not, and any
other failure in the outer loop does. -/
structure KeepsLaw (settings : ReaderSettings) (s : Reader) (received : Received) : Prop where
  double : s.phase ≠ .exited → s.piped = true → received = .pipeError →
    ∀ r ∈ step settings s received, r.1.phase = .exited
  isolated : s.phase ≠ .exited →
    received = .timeout ∨ received = .pipeError ∧ s.piped = false →
    ∀ r ∈ step settings s received, r.1.phase ≠ .exited
  other : ∀ prev, s.phase = .waiting prev → received = .failed →
    ∀ r ∈ step settings s received, r.1.phase = .exited

/-- Is the reader in the inner loop? -/
def inner (s : Reader) : Bool :=
  match s.phase with
  | .collecting _ _ => true
  | _ => false

/-- No second pipe error in a row while the reader is there, and in the inner loop neither a timeout
nor a pipe error. -/
def Survivable (s : Reader) (received : Received) : Prop :=
  (s.phase ≠ .exited → s.piped = true → received ≠ .pipeError) ∧
    (s.inner = true → received ≠ .timeout ∧ received ≠ .pipeError)

instance : DecidableRel Survivable := fun _ _ =>
  inferInstanceAs (Decidable ((_ → _ → _) ∧ (_ → _)))

/-! ### The length of the last round -/

/-- A round that goes on does not end with a negative length, and behind a pipe error not in the
inner loop. -/
structure Going (s : Reader) : Prop where
  length : ∀ prev, s.phase = .waiting prev → 0 ≤ prev
  outer : s.piped = true → s.inner = false

theorem start_going : start.Going := by
  refine ⟨fun prev h => ?_, fun h => ?_⟩
  · obtain rfl := Phase.waiting.inj h
    exact Int.le_refl 0
  · cases h

/-- What a length that is not negative is left by. -/
theorem outerPacket_length {version : Version} {buffer : List Byte} {prev : ℤ}
    (h : (outerPacket version buffer).1 = .waiting prev) : 0 ≤ prev := by
  unfold outerPacket at h
  dsimp only at h
  split at h
  · obtain rfl := Phase.waiting.inj h
    omega
  · split_ifs at h
    obtain rfl := Phase.waiting.inj h
    omega

theorem innerPacket_length {type : PacketType} {current : DataPacket} {buffer : List Byte}
    {phase : Phase} {routed : List Routed}
    (h : innerPacket type current buffer = some (phase, routed)) {prev : ℤ}
    (hphase : phase = .waiting prev) : 0 ≤ prev := by
  subst hphase
  unfold innerPacket at h
  dsimp only at h
  split_ifs at h
  · cases h
  · cases h
    omega

/-- In every phase a read leads to a phase of this kind. -/
theorem handleIncoming_length {phase phase' : Phase} {received : Received} {routed : List Routed}
    (h : handleIncoming settings phase received = some (phase', routed)) {prev : ℤ}
    (hphase : phase' = .waiting prev) : 0 ≤ prev := by
  subst hphase
  cases phase with
  | exited => cases h
  | waiting last =>
      cases received with
      | data buffer =>
          simp only [handleIncoming] at h
          split_ifs at h
          · cases h
            omega
          · exact outerPacket_length (congrArg Prod.fst (Option.some.inj h))
      | timeout =>
          cases h
          omega
      | pipeError =>
          simp only [handleIncoming, Option.some.injEq, Prod.mk.injEq] at h
          obtain ⟨h, -⟩ := h
          split_ifs at h
          cases h
          omega
      | failed => cases h
  | collecting type current =>
      cases received with
      | data buffer =>
          simp only [handleIncoming] at h
          split_ifs at h
          · cases h
            omega
          · cases h
            omega
          · exact innerPacket_length h rfl
      | timeout => cases h
      | pipeError => cases h
      | failed => cases h

/-- A pipe error does not lead into the inner loop. -/
theorem handleIncoming_pipeError {phase phase' : Phase} {routed : List Routed}
    (h : handleIncoming settings phase .pipeError = some (phase', routed)) :
    phase' = .exited ∨ phase' = .waiting 0 := by
  cases phase with
  | exited =>
      cases h
      exact .inl rfl
  | waiting prev =>
      simp only [handleIncoming, Option.some.injEq, Prod.mk.injEq] at h
      obtain ⟨rfl, -⟩ := h
      split_ifs
      · exact .inl rfl
      · exact .inr rfl
  | collecting type current =>
      cases h
      exact .inl rfl

theorem step_going {s s' : Reader} {received : Received} {routed : List Routed}
    (h : step settings s received = some (s', routed)) : s'.Going := by
  obtain ⟨⟨phase', routed'⟩, hstep, hs'⟩ := Option.map_eq_some_iff.mp h
  obtain ⟨rfl, rfl⟩ := Prod.mk.inj hs'
  refine ⟨fun prev hphase => handleIncoming_length hstep hphase, fun hpiped => ?_⟩
  obtain rfl : received = .pipeError := by simpa using hpiped
  rcases handleIncoming_pipeError hstep with rfl | rfl <;> rfl

/-! ### What a read leads to -/

/-- A read that is neither a timeout nor a pipe error is what the law says in the outer loop. -/
theorem keepsLaw_data {s : Reader} {buffer : List Byte} : KeepsLaw settings s (.data buffer) := by
  refine ⟨fun _ _ h => ?_, fun _ h => ?_, fun _ _ h => ?_⟩
  · cases h
  · rcases h with h | ⟨h, -⟩ <;> cases h
  · cases h

theorem keepsLaw_failed {s : Reader} : KeepsLaw settings s .failed := by
  refine ⟨fun _ _ h => ?_, fun _ h => ?_, fun prev hphase _ r hr => ?_⟩
  · cases h
  · rcases h with h | ⟨h, -⟩ <;> cases h
  · rw [step, hphase] at hr
    cases hr
    rfl

theorem keepsLaw_timeout {s : Reader} : KeepsLaw settings s .timeout ↔ s.inner = false := by
  obtain ⟨phase, piped⟩ := s
  constructor
  · intro h
    cases phase with
    | collecting type current => exact absurd rfl (h.isolated (by simp) (.inl rfl) _ rfl)
    | waiting prev => rfl
    | exited => rfl
  · intro h
    refine ⟨fun _ _ h => ?_, fun hgone _ r hr => ?_, fun _ _ h => ?_⟩
    · cases h
    · cases phase with
      | collecting type current => cases h
      | waiting prev =>
          cases hr
          simp
      | exited => exact absurd rfl hgone
    · cases h

/-- `prev` is not negative, so no pipe error ends the outer loop. -/
theorem keepsLaw_pipeError {s : Reader} (hconf : settings.disconnectOnEPipe = false)
    (h : s.Going) :
    KeepsLaw settings s .pipeError ↔
      s.phase = .exited ∨ s.inner = false ∧ s.piped = false := by
  obtain ⟨phase, piped⟩ := s
  cases phase with
  | exited =>
      refine iff_of_true ⟨fun h => absurd rfl h, fun h => absurd rfl h, fun _ _ h => ?_⟩ (.inl rfl)
      cases h
  | waiting prev =>
      have hprev : ¬prev < 0 := by
        have := h.length prev rfl
        omega
      have hstep : step settings ⟨.waiting prev, piped⟩ .pipeError =
          some (⟨.waiting 0, true⟩, []) := by
        simp [step, handleIncoming, hconf, hprev]
      constructor
      · intro hlaw
        refine .inr ⟨rfl, ?_⟩
        by_contra hpiped
        have hleft := hlaw.double (by simp) (by simpa using hpiped) rfl _ hstep
        cases hleft
      · rintro (hexited | ⟨-, hpiped⟩)
        · cases hexited
        · refine ⟨fun _ h => ?_, fun _ _ r hr => ?_, fun _ _ h => ?_⟩
          · exact absurd (hpiped.symm.trans h) (by decide)
          · obtain rfl := Option.some.inj (hstep.symm.trans hr)
            simp
          · cases h
  | collecting type current =>
      have hpiped : piped = false := by
        by_contra hpiped
        have hinner := h.outer (by simpa using hpiped)
        cases hinner
      constructor
      · intro hlaw
        exact absurd rfl (hlaw.isolated (by simp) (.inr ⟨rfl, hpiped⟩) _ rfl)
      · rintro (hexited | ⟨hinner, -⟩)
        · cases hexited
        · cases hinner

theorem keepsLaw_iff {s : Reader} {received : Received}
    (hconf : settings.disconnectOnEPipe = false) (h : s.Going) :
    KeepsLaw settings s received ↔ Survivable s received := by
  cases received with
  | data buffer => exact iff_of_true keepsLaw_data ⟨fun _ _ => by simp, fun _ => by simp⟩
  | failed => exact iff_of_true keepsLaw_failed ⟨fun _ _ => by simp, fun _ => by simp⟩
  | timeout =>
      rw [keepsLaw_timeout]
      simp [Survivable]
  | pipeError =>
      rw [keepsLaw_pipeError hconf h]
      by_cases hexited : s.phase = .exited
      · have hinner : s.inner = false := by simp [inner, hexited]
        simp [Survivable, hexited, hinner]
      · cases hinner : s.inner <;> simp [Survivable, hexited, hinner]

/-- **The reader loop** keeps its law in every read of a run exactly if no two pipe errors come in a
row, and none nor a timeout in the inner loop. -/
theorem readerLaw_iff (hconf : settings.disconnectOnEPipe = false) (received : List Received) :
    Guarded (step settings) (KeepsLaw settings) start received ↔
      Guarded (step settings) Survivable start received :=
  guarded_iff (I := Going) (fun _ _ _ _ _ h => step_going h) (fun _ _ h => keepsLaw_iff hconf h)
    received start start_going

/-- The settings for a device of version 0x0309, as they are by default. -/
def defaultReader : ReaderSettings := ⟨8, 0x0309, false⟩

theorem readerLaw_isolated : defaultReader.disconnectOnEPipe = false ∧
    Guarded (step defaultReader) (KeepsLaw defaultReader) start
      [.timeout, .pipeError, .timeout, .pipeError, .data [0x05, 0x83, 0x02], .failed] :=
  ⟨rfl, (readerLaw_iff rfl _).mpr (by decide)⟩

/-- On a dead pipe the loop goes on for ever. -/
theorem run_dead (hconf : settings.disconnectOnEPipe = false) (n : ℕ) (s : Reader)
    (hs : s.phase = .waiting 0) :
    ∃ s' routed, run (step settings) s (List.replicate n .pipeError) = some (s', routed) ∧
      s'.phase = .waiting 0 := by
  induction n generalizing s with
  | zero => exact ⟨s, [], rfl, hs⟩
  | succ n ih =>
      have hstep : step settings s .pipeError = some (⟨.waiting 0, true⟩, []) := by
        simp [step, handleIncoming, hs, hconf]
      obtain ⟨s', routed, hrun, hphase⟩ := ih ⟨.waiting 0, true⟩ rfl
      refine ⟨s', [] :: routed, ?_, hphase⟩
      simp only [List.replicate_succ, run, hstep, Option.bind_eq_bind, Option.bind_some, hrun]

/-- The first of the packets with a pin configuration. -/
def halfConfig : Received := .data [0x00, 0x00, 0xDC, IG_DEV_GETPINCONFIG, 0x01, 0x02, 0x03, 0x04]

/-- The second pipe error is ignored like the first, and in the inner loop a timeout ends it. -/
theorem readerLaw_broken :
    run (step defaultReader) start [.pipeError, .pipeError] =
        some (⟨.waiting 0, true⟩, [[], []]) ∧
      ¬Guarded (step defaultReader) (KeepsLaw defaultReader) start [.pipeError, .pipeError] ∧
      (run (step defaultReader) start [halfConfig, .timeout]).map (·.1) =
        some ⟨.exited, false⟩ ∧
      ¬Guarded (step defaultReader) (KeepsLaw defaultReader) start [halfConfig, .timeout] := by
  refine ⟨by decide, fun h => ?_, by decide, fun h => ?_⟩
  · have hlaw := (h.2 (⟨.waiting 0, true⟩, []) (by decide)).1
    have hleft := hlaw.double (by decide) rfl rfl (⟨.waiting 0, true⟩, []) (by decide)
    cases hleft
  · obtain ⟨r, hr, hinner⟩ : ∃ r, step defaultReader start halfConfig = some r ∧
        r.1.inner = true := ⟨_, rfl, by decide⟩
    have houter := keepsLaw_timeout.mp (h.2 r hr).1
    exact absurd (hinner.symm.trans houter) (by decide)

end Reader

end IguanaIR
