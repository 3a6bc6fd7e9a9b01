import IguanaIR.DataPacket

/-! # Timed pipe operations

The waits of `timedPipeOperation` of `pipes.c`: the deadline is set once, and every pass through
`eintr_loop` hands the time that is left to `select`.

`timeout` is an `int` of 32 bits, and so is `timeout * 1000`.  The clock counts microseconds in
64 bits, which last for 292 thousand years, so times are plain numbers. -/

namespace IguanaIR

/-- `struct timeval`. -/
structure Timeval where
  sec : ℤ
  usec : ℤ
deriving DecidableEq, Repr

/-- In microseconds. -/
def Timeval.micros (tv : Timeval) : ℤ := tv.sec * 1000000 + tv.usec

/-- `microsSinceX() + timeout * 1000`, where only the sum has 64 bits. -/
def stoptime (timeout : BitVec 32) (start : ℕ) : ℤ := start + (timeout * 1000).toInt

/-- The timeout for `select` at a reading of the clock; `none` is `NULL`. -/
def selectTimeout (timeout : BitVec 32) (stoptime : ℤ) (now : ℕ) : Option Timeval :=
  if 0 ≤ timeout.toInt then
    let timeremaining := stoptime - now
    let timeremaining := if timeremaining < 0 then 0 else timeremaining
    some ⟨timeremaining / 1000000, timeremaining % 1000000⟩
  else none

/-- The passes through `eintr_loop`: the reading of the clock for every `select`, all but the last
of which are interrupted, and what the last one answers, at the time `ended`. -/
structure TimedRun where
  start : ℕ
  restarts : List ℕ
  now : ℕ
  answer : SelectAnswer
  ended : ℕ

namespace TimedRun

/-- The timeouts of the passes in order. -/
def waits (timeout : BitVec 32) (stoptime : ℤ) (now : ℕ) : List ℕ → List (Option Timeval)
  | [] => [selectTimeout timeout stoptime now]
  | restart :: restarts =>
      selectTimeout timeout stoptime restart :: waits timeout stoptime now restarts

/-- `timedPipeOperation` up to the end of the wait: the timeouts, and whether it reports one. -/
def timedPipeOperation (timeout : BitVec 32) (r : TimedRun) : List (Option Timeval) × Bool :=
  (waits timeout (stoptime timeout r.start) r.now r.restarts, r.answer = .timeout)

/-- The readings for the passes. -/
def readings (r : TimedRun) : List ℕ := r.restarts ++ [r.now]

/-- What `select` documents: it reports a timeout when the time it was given has passed, and never
if it was given none. -/
def SelectWaits (timeout : BitVec 32) (r : TimedRun) : Prop :=
  r.answer = .timeout →
    ∃ tv, selectTimeout timeout (stoptime timeout r.start) r.now = some tv ∧
      r.now + tv.micros ≤ r.ended

/-- The time left until `timeout` milliseconds after the start. -/
def timeLeft (timeout : BitVec 32) (start now : ℕ) : ℤ := max 0 (start + 1000 * timeout.toInt - now)

/-- A timeout of `micros` microseconds. -/
def Hands (micros : ℤ) (wait : Option Timeval) : Prop :=
  ∃ tv, wait = some tv ∧ tv.micros = micros ∧ 0 ≤ tv.usec ∧ tv.usec < 1000000

/-- Every wait is exact, and no timeout is reported too early. -/
structure WaitsExactly (timeout : BitVec 32) (r : TimedRun) : Prop where
  waits : List.Forall₂ (fun now wait => Hands (timeLeft timeout r.start now) wait) r.readings
    (r.timedPipeOperation timeout).1
  report : (r.timedPipeOperation timeout).2 = true → r.start + 1000 * timeout.toInt ≤ r.ended

/-! ### One pass -/

variable {timeout : BitVec 32}

/-- Seconds and microseconds put together again. -/
theorem selectTimeout_eq (hpos : 0 ≤ timeout.toInt) (stoptime : ℤ) (now : ℕ) :
    Hands (max 0 (stoptime - now)) (selectTimeout timeout stoptime now) := by
  refine ⟨_, if_pos hpos, ?_, ?_, ?_⟩
  · simp only [Timeval.micros]
    split_ifs <;> omega
  · exact Int.emod_nonneg _ (by omega)
  · exact Int.emod_lt_of_pos _ (by omega)

theorem hands_unique {m m' : ℤ} {wait : Option Timeval} (h : Hands m wait) (h' : Hands m' wait) :
    m = m' := by
  obtain ⟨tv, rfl, rfl, -⟩ := h
  obtain ⟨tv', htv, rfl, -⟩ := h'
  rw [Option.some.inj htv]

/-- The product fits 32 bits up to this timeout, and is too small beyond it. -/
theorem product_eq_iff (hpos : 0 ≤ timeout.toInt) :
    ((timeout * 1000).toInt = 1000 * timeout.toInt ↔ timeout.toInt ≤ 2147483) ∧
      (timeout * 1000).toInt ≤ 1000 * timeout.toInt := by
  have hnat : timeout.toInt = timeout.toNat := by
    rw [BitVec.toInt_eq_toNat_cond] at hpos ⊢
    split_ifs at hpos ⊢ <;> omega
  have hproduct : (timeout * 1000).toNat = timeout.toNat * 1000 % 4294967296 := by
    rw [BitVec.toNat_mul]
    rfl
  rw [hnat] at hpos ⊢
  rw [BitVec.toInt_eq_toNat_cond, hproduct]
  have := timeout.isLt
  split_ifs <;> omega

/-- The wait of a pass is exact if the product fits, or if no time is left anyway. -/
theorem hands_iff (hpos : 0 ≤ timeout.toInt) (start now : ℕ) :
    Hands (timeLeft timeout start now)
        (selectTimeout timeout (stoptime timeout start) now) ↔
      timeout.toInt ≤ 2147483 ∨ start + 1000 * timeout.toInt ≤ now := by
  obtain ⟨hproduct, hle⟩ := product_eq_iff hpos
  have hwait := selectTimeout_eq hpos (stoptime timeout start) now
  have hiff : max 0 (stoptime timeout start - now) = timeLeft timeout start now ↔
      timeout.toInt ≤ 2147483 ∨ start + 1000 * timeout.toInt ≤ now := by
    rw [← hproduct, stoptime, timeLeft]
    omega
  rw [← hiff]
  exact ⟨fun h => hands_unique hwait h, fun h => h ▸ hwait⟩

/-! ### All the passes -/

theorem waits_iff (hpos : 0 ≤ timeout.toInt) (start now : ℕ) (restarts : List ℕ) :
    List.Forall₂ (fun now wait => Hands (timeLeft timeout start now) wait) (restarts ++ [now])
        (waits timeout (stoptime timeout start) now restarts) ↔
      ∀ reading ∈ restarts ++ [now],
        timeout.toInt ≤ 2147483 ∨ start + 1000 * timeout.toInt ≤ reading := by
  induction restarts with
  | nil =>
      rw [List.nil_append, waits, List.forall₂_cons, hands_iff hpos]
      simp
  | cons restart restarts ih =>
      rw [List.cons_append, waits, List.forall₂_cons, hands_iff hpos, ih, List.forall_mem_cons]

/-- A timeout that is reported after an exact wait is not early. -/
theorem report_of_hands {r : TimedRun} (hselect : SelectWaits timeout r)
    (hwait : Hands (timeLeft timeout r.start r.now)
      (selectTimeout timeout (stoptime timeout r.start) r.now))
    (h : (r.timedPipeOperation timeout).2 = true) :
    r.start + 1000 * timeout.toInt ≤ r.ended := by
  obtain ⟨tv, htv, hended⟩ := hselect (of_decide_eq_true h)
  obtain ⟨tv', htv', hmicros, -⟩ := hwait
  rw [htv] at htv'
  obtain rfl := Option.some.inj htv'
  rw [timeLeft] at hmicros
  omega

/-- **The waits are exact** for the timeouts whose product with 1000 fits 32 bits, and otherwise
only in passes that begin when the time is over. -/
theorem waitsExactly_iff (timeout : BitVec 32) (r : TimedRun) (hpos : 0 ≤ timeout.toInt)
    (hselect : SelectWaits timeout r) :
    WaitsExactly timeout r ↔
      ∀ now ∈ r.readings, timeout.toInt ≤ 2147483 ∨ r.start + 1000 * timeout.toInt ≤ now := by
  have hwaits := waits_iff hpos r.start r.now r.restarts
  constructor
  · intro h
    exact hwaits.mp h.waits
  · intro h
    have hlast := h r.now (by simp [readings])
    exact ⟨hwaits.mpr h, report_of_hands hselect ((hands_iff hpos r.start r.now).mpr hlast)⟩

/-- A second, interrupted twice. -/
def secondRun : TimedRun := ⟨5000000, [5000000, 5400000], 5700000, .timeout, 6000000⟩

theorem waitsExactly_second : 0 ≤ (1000 : BitVec 32).toInt ∧ SelectWaits 1000 secondRun ∧
    WaitsExactly 1000 secondRun := by
  have hselect : SelectWaits 1000 secondRun := fun _ => ⟨⟨0, 300000⟩, by decide, by decide⟩
  exact ⟨by decide, hselect, (waitsExactly_iff 1000 secondRun (by decide) hselect).mpr
    (fun _ _ => .inl (by decide))⟩

end TimedRun

/-! ### The timeouts of the callers -/

/-- For the packets that are written to clients. -/
def WAIT_FOREVER : BitVec 32 := 0x7FFFFFFF

/-- `srvSettings.scanSeconds * 1000`. -/
def scanTimeout (scanSeconds : BitVec 32) : BitVec 32 := scanSeconds * 1000

/-- The numbers that `ARG_SCANWHEN` accepts. -/
def AcceptedScan (scanSeconds : BitVec 32) : Prop :=
  0 ≤ scanSeconds.toInt ∧ scanSeconds.toInt ≤ 3600

/-- Of the scan periods that the option accepts those beyond 2147 seconds are too long. -/
theorem scanTimeout_fits {scanSeconds : BitVec 32} (h : AcceptedScan scanSeconds) :
    0 ≤ (scanTimeout scanSeconds).toInt ∧
      ((scanTimeout scanSeconds).toInt ≤ 2147483 ↔ scanSeconds.toInt ≤ 2147) := by
  obtain ⟨hproduct, -⟩ := TimedRun.product_eq_iff h.1
  have hle := h.2
  have heq := hproduct.mpr (by omega)
  have hpos := h.1
  rw [scanTimeout, heq]
  omega

namespace TimedRun

/-- Reported at once. -/
def hastyRun : TimedRun := ⟨0, [], 0, .timeout, 0⟩

/-- Waiting forever, or for an hour, takes no time at all. -/
theorem forever_hasty :
    AcceptedScan 3600 ∧
    hastyRun.timedPipeOperation WAIT_FOREVER = ([some ⟨0, 0⟩], true) ∧
    hastyRun.timedPipeOperation (scanTimeout 3600) = ([some ⟨0, 0⟩], true) ∧
    SelectWaits WAIT_FOREVER hastyRun ∧ SelectWaits (scanTimeout 3600) hastyRun ∧
    ¬WaitsExactly WAIT_FOREVER hastyRun ∧ ¬WaitsExactly (scanTimeout 3600) hastyRun := by
  refine ⟨⟨by decide, by decide⟩, by decide, by decide, fun _ => ⟨⟨0, 0⟩, by decide, by decide⟩,
    fun _ => ⟨⟨0, 0⟩, by decide, by decide⟩, ?_, ?_⟩
  · intro h
    have hearly := h.report rfl
    revert hearly
    decide
  · intro h
    have hearly := h.report rfl
    revert hearly
    decide

end TimedRun

end IguanaIR
