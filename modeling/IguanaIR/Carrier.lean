import IguanaIR.Protocol
import IguanaIR.Binary64

/-! # Carrier frequencies

The frequencies the daemon stores (`IG_DEV_SETCARRIER` of `client-interface.c`) and
`computeCarrierDelays` of `device-interface.c`, which splits the time of half a carrier period
into the two jump offsets that the transmit loop of the firmware takes.

Frequencies outside of 25 kHz to 150 kHz are never stored, so a `Carrier` carries its bounds.
The cycle count is a `double` expression and takes its rounding as the parameter `fl`, as in
`entryCycles`. -/

namespace IguanaIR

/-- `idev->carrier`. -/
structure Carrier where
  hz : ℕ
  low : 25000 ≤ hz
  high : hz ≤ 150000
deriving DecidableEq, Repr

theorem Carrier.hz_lt (carrier : Carrier) : carrier.hz < 2 ^ 32 := by
  have := carrier.high
  omega

/-- The frequency as the C `unsigned int`. -/
def Carrier.word (carrier : Carrier) : BitVec 32 := BitVec.ofNat 32 carrier.hz

@[simp] theorem Carrier.word_toNat (carrier : Carrier) : carrier.word.toNat = carrier.hz := by
  rw [Carrier.word, BitVec.toNat_ofNat]
  exact Nat.mod_eq_of_lt carrier.hz_lt

/-- 38 kHz, the default. -/
def defaultCarrier : Carrier := ⟨38000, by decide, by decide⟩

/-- The frequency stored for a requested one: higher than 150 kHz uses 150 kHz, lower than
25 kHz uses 25 kHz. -/
def clampCarrier (carrier : BitVec 32) : Carrier :=
  if h₁ : 150000 < carrier.toNat then ⟨150000, by decide, by decide⟩
  else if h₂ : carrier.toNat < 25000 then ⟨25000, by decide, by decide⟩
  else ⟨carrier.toNat, by omega, by omega⟩

theorem clampCarrier_hz (carrier : BitVec 32) :
    (clampCarrier carrier).hz = max 25000 (min carrier.toNat 150000) := by
  unfold clampCarrier
  split_ifs <;> simp only <;> omega

/-! ### The transmit loop's delays -/

/-- `(int)(((1.0 / carrier) / (1.0 / 24000000) / 2) + 0.5)`. -/
def carrierCycles (fl : ℚ → ℚ) (carrier : ℕ) : ℕ :=
  ⌊fl (fl (fl (fl (1 / carrier) / fl (1 / 24000000)) / 2) + 1 / 2)⌋₊

/-- The cycles that are left after the overhead of the loop, in sevens and fours. -/
def sevens (cycles : BitVec 32) : Byte := ((4 - cycles % 4) % 4).setWidth 8

def fours (cycles : BitVec 32) : Byte := ((cycles - (sevens cycles).setWidth 32 * 7) / 4).setWidth 8

/-- The offsets for a number of cycles that is known already. -/
def delayOffsets (cycles : BitVec 32) (loopCycles : Byte) : Byte × Byte :=
  let cycles := cycles - loopCycles.setWidth 32
  ((4 - sevens cycles) * 2, 110 - fours cycles)

/-- `delays[0]` and `delays[1]`. -/
def computeCarrierDelays (fl : ℚ → ℚ) (carrier : Carrier) (loopCycles : Byte) : Byte × Byte :=
  delayOffsets (BitVec.ofNat 32 (carrierCycles fl carrier.hz)) loopCycles

/-- The overhead counted from the firmware's code lines. -/
def LOOP_CYCLES : Byte := 5 + 5 + 7 + 6 + 6 + 7 + (5 + 7) + (5 + 7) + 5

end IguanaIR
