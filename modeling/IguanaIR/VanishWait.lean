import IguanaIR.Reconnect
import Mathlib.Data.Rat.Floor

/-! # Waiting for the device to vanish

The two loops of the reflasher's `connect`, on an endless sequence of listings, each with at most
so many rounds.  The timeout is a number of seconds; up to 2^51 of them a `float` is exact when a
quarter is taken away.

`quarters` counts what is left of a timeout, and with it the loops do what the steps of `Reflasher`
do (`connectLoops_run`). -/

namespace IguanaIR

/-- What the script finds when it lists the devices, and how it goes when it tries to connect. -/
structure Listing where
  dir : SocketDir
  first : ConnectAttempt
  second : ConnectAttempt

/-- check every quarter second -/
def sleepTime : ℚ := 1 / 4

/-- The quarters of a second in a timeout. -/
def quarters (timeout : ℚ) : ℤ := ⌈timeout / sleepTime⌉

theorem quarters_pos {timeout : ℚ} : 0 < quarters timeout ↔ 0 < timeout := by
  rw [quarters, Int.ceil_pos, sleepTime]
  constructor
  · intro h
    linarith
  · intro h
    linarith

theorem quarters_sub (timeout : ℚ) : quarters (timeout - sleepTime) = quarters timeout - 1 := by
  have hne : sleepTime ≠ 0 := by norm_num [sleepTime]
  rw [quarters, sub_div, div_self hne, Int.ceil_sub_one, quarters]

/-- What is left of the timeout behind a round of the second loop. -/
def countDown (timeout : ℚ) : ℚ := if timeout > 0 then timeout - sleepTime else timeout

theorem quarters_countDown (timeout : ℚ) : quarters (countDown timeout) =
    if quarters timeout > 0 then quarters timeout - 1 else quarters timeout := by
  unfold countDown
  by_cases h : timeout > 0
  · rw [if_pos h, if_pos (quarters_pos.mpr h), quarters_sub]
  · rw [if_neg h, if_neg (fun hq => h (quarters_pos.mp hq))]

namespace Reflasher

/-! ### The loops -/

/-- The loop that waits for the device to vanish: how many listings there were when it was left, or
`none` while it goes on.  Nothing in it changes the timeout. -/
def vanishLoop (devNam : Option CString) (timeout : ℚ) (listings : ℕ → Listing) :
    ℕ → ℕ → Option ℕ
  | 0, made => if timeout > 0 then none else some made
  | rounds + 1, made =>
      if timeout > 0 then
        if listed devNam (listings made).dir then
          vanishLoop devNam timeout listings rounds (made + 1)
        else some (made + 1)
      else some made

/-- What follows the second loop when its time is up. -/
def timeUp (s : Reflasher) (devices : SocketDir) : Reflasher :=
  if s.conn = .unset then
    if devices.listDevices true = [] then s.goto .interrupted else s.goto .choosing
  else s.goto .idle

/-- The loop that waits for it to come back: the state that it leaves, and how many listings there
were, or `none` while it goes on. -/
def retryLoop (listings : ℕ → Listing) :
    ℕ → Reflasher → ℚ → Bool → SocketDir → ℕ → Option (Reflasher × ℕ)
  | 0, s, timeout, first, devices, made =>
      if first = true ∨ timeout > 0 then none else some (s.timeUp devices, made)
  | rounds + 1, s, timeout, first, devices, made =>
      -- try once no matter the timeout
      if first = true ∨ timeout > 0 then
        let found := listings made
        match s.connectAgain found.dir found.first found.second with
        | (s, true) => some (s.goto .idle, made + 1)
        | (s, false) =>
            if found.dir.listDevices true ≠ [] ∧ s.devLoc = none ∧ s.devNam = none then
              some (s.goto .choosing, made + 1)
            else
              retryLoop listings rounds s (countDown timeout) false found.dir (made + 1)
      else some (s.timeUp devices, made)

/-- `connect`, up to where it returns, raises or asks which device to take. -/
def connectLoops (s : Reflasher) (timeout : ℚ) (waitVanish : Bool) (devices : SocketDir)
    (listings : ℕ → Listing) (waits attempts : ℕ) : Option (Reflasher × ℕ) :=
  if waitVanish && listed s.devNam devices then do
    let made ← vanishLoop s.devNam timeout listings waits 0
    retryLoop listings attempts { s with conn := .unset } (timeout - sleepTime) true devices made
  else retryLoop listings attempts { s with conn := .unset } timeout true devices 0

/-- Both loops are left after as many rounds as there are quarters of a second in the timeout; the
second one tries once no matter the timeout. -/
def InTime (s : Reflasher) (timeout : ℚ) (devices : SocketDir) (listings : ℕ → Listing) : Prop :=
  (connectLoops s timeout true devices listings (quarters timeout).toNat
    (max 1 (quarters timeout).toNat)).isSome

/-! ### When they end -/

variable {listings : ℕ → Listing}

theorem vanishLoop_isSome_iff (devNam : Option CString) (timeout : ℚ) (rounds made : ℕ) :
    (vanishLoop devNam timeout listings rounds made).isSome ↔
      (0 < timeout → ∃ k < rounds, listed devNam (listings (made + k)).dir = false) := by
  induction rounds generalizing made with
  | zero =>
      rw [vanishLoop]
      split_ifs with h
      · exact iff_of_false nofun (fun hk => by
          obtain ⟨k, hk, -⟩ := hk h
          exact Nat.not_lt_zero k hk)
      · exact iff_of_true rfl (fun h' => absurd h' h)
  | succ rounds ih =>
      rw [vanishLoop]
      split_ifs with h hlisted
      · rw [ih (made + 1)]
        constructor
        · intro hrest _
          obtain ⟨k, hk, hgone⟩ := hrest h
          refine ⟨k + 1, Nat.succ_lt_succ hk, ?_⟩
          rwa [show made + (k + 1) = made + 1 + k by omega]
        · intro hall _
          obtain ⟨k, hk, hgone⟩ := hall h
          cases k with
          | zero => exact absurd hlisted (by rw [Nat.add_zero] at hgone; rw [hgone]; nofun)
          | succ k =>
              refine ⟨k, Nat.lt_of_succ_lt_succ hk, ?_⟩
              rwa [show made + (k + 1) = made + 1 + k by omega] at hgone
      · refine iff_of_true rfl (fun _ => ⟨0, Nat.succ_pos _, ?_⟩)
        rw [Nat.add_zero]
        exact Bool.eq_false_iff.mpr hlisted
      · exact iff_of_true rfl (fun h' => absurd h' h)

/-- While the device is listed the first loop goes on, for however long. -/
theorem vanishLoop_forever {devNam : Option CString} {timeout : ℚ} (hpos : 0 < timeout)
    (h : ∀ k, listed devNam (listings k).dir = true) (rounds made : ℕ) :
    vanishLoop devNam timeout listings rounds made = none := by
  rw [← Option.not_isSome_iff_eq_none, vanishLoop_isSome_iff]
  intro hvanish
  obtain ⟨k, -, hgone⟩ := hvanish hpos
  rw [h] at hgone
  cases hgone

/-- The second loop counts its timeout down. -/
theorem retryLoop_isSome (rounds : ℕ) (s : Reflasher) (timeout : ℚ) (first : Bool)
    (devices : SocketDir) (made : ℕ) (hle : quarters timeout ≤ rounds)
    (hfirst : first = true → 0 < rounds) :
    (retryLoop listings rounds s timeout first devices made).isSome := by
  induction rounds generalizing s timeout first devices made with
  | zero =>
      have hout : ¬(first = true ∨ timeout > 0) := by
        rintro (h | h)
        · exact Nat.lt_irrefl 0 (hfirst h)
        · have := quarters_pos.mpr h
          omega
      rw [retryLoop, if_neg hout]
      rfl
  | succ rounds ih =>
      rw [retryLoop]
      by_cases hgo : first = true ∨ timeout > 0
      · rw [if_pos hgo]
        dsimp only
        rcases s.connectAgain (listings made).dir (listings made).first (listings made).second with
          ⟨s₁, connected⟩
        cases connected with
        | true => rfl
        | false =>
            dsimp only
            by_cases hask : (listings made).dir.listDevices true ≠ [] ∧ s₁.devLoc = none ∧
                s₁.devNam = none
            · rw [if_pos hask]
              rfl
            · rw [if_neg hask]
              refine ih _ _ false _ _ ?_ nofun
              rw [quarters_countDown]
              split_ifs <;> omega
      · rw [if_neg hgo]
        rfl

/-- **The wait ends in time** exactly when the device is not there to begin with, there is no time to
wait, or the device is missing from one of the listings that there is time for. -/
theorem inTime_iff (s : Reflasher) (timeout : ℚ) (devices : SocketDir) (listings : ℕ → Listing) :
    InTime s timeout devices listings ↔ (listed s.devNam devices = true → 0 < timeout →
      ∃ k < (quarters timeout).toNat, listed s.devNam (listings k).dir = false) := by
  unfold InTime connectLoops
  rw [Bool.true_and]
  by_cases hlisted : listed s.devNam devices = true
  · have hloop := @vanishLoop_isSome_iff listings s.devNam timeout (quarters timeout).toNat 0
    simp only [Nat.zero_add] at hloop
    rw [if_pos hlisted]
    cases hvanish : vanishLoop s.devNam timeout listings (quarters timeout).toNat 0 with
    | none =>
        rw [hvanish] at hloop
        exact iff_of_false nofun (fun h => absurd (hloop.mpr (h hlisted)) nofun)
    | some made =>
        rw [hvanish] at hloop
        refine iff_of_true ?_ (fun _ => hloop.mp rfl)
        apply retryLoop_isSome
        · rw [quarters_sub]
          omega
        · omega
  · rw [if_neg hlisted]
    refine iff_of_true ?_ (fun h => absurd h hlisted)
    apply retryLoop_isSome <;> omega

/-- A device that stays. -/
def staying : SocketDir := ⟨some [(ascii "0", false)], fun _ => some 1⟩

/-- `connect(5, True)`, as between two pages of an old device. -/
theorem connect_hangs :
    (∀ waits attempts, connectLoops { start staying with devNam := some (ascii "0") } 5 true staying
      (fun _ => ⟨staying, ⟨true, none⟩, ⟨true, none⟩⟩) waits attempts = none) ∧
    ¬InTime { start staying with devNam := some (ascii "0") } 5 staying
      (fun _ => ⟨staying, ⟨true, none⟩, ⟨true, none⟩⟩) := by
  have hlisted : listed (some (ascii "0")) staying = true := by decide
  have hnone (waits attempts : ℕ) :
      connectLoops { start staying with devNam := some (ascii "0") } 5 true staying
        (fun _ => ⟨staying, ⟨true, none⟩, ⟨true, none⟩⟩) waits attempts = none := by
    unfold connectLoops
    rw [Bool.true_and, if_pos hlisted, vanishLoop_forever (by norm_num) (fun _ => hlisted)]
    rfl
  refine ⟨hnone, fun h => ?_⟩
  rw [InTime, hnone] at h
  cases h

/-! ### The steps of the loops -/

/-- The polls of a number of listings. -/
def polls (listings : ℕ → Listing) (made n : ℕ) : List ReflasherEvent :=
  (List.range' made n).map (fun k => .poll (listings k).dir (listings k).first (listings k).second)

theorem polls_succ (listings : ℕ → Listing) (made n : ℕ) :
    polls listings made (n + 1) =
      .poll (listings made).dir (listings made).first (listings made).second ::
        polls listings (made + 1) n := rfl

theorem connectDev_goto_see (s : Reflasher) (pc : ReflasherPc) (seen dir : SocketDir)
    (name : CString) (attempt : ConnectAttempt) :
    ((s.goto pc).see seen).connectDev dir name attempt =
      (((s.connectDev dir name attempt).1.goto pc).see seen, (s.connectDev dir name attempt).2) := by
  cases hconnect : dir.connect s.target attempt with
  | none =>
      have hconnect' : dir.connect ((s.goto pc).see seen).target attempt = none := hconnect
      rw [connectDev_none hconnect, connectDev_none hconnect']
      rfl
  | some device =>
      have hconnect' : dir.connect ((s.goto pc).see seen).target attempt = some device := hconnect
      rw [connectDev_some hconnect, connectDev_some hconnect']
      rfl

theorem connectListed_goto_see (s : Reflasher) (pc : ReflasherPc) (seen dir : SocketDir)
    (name : Option CString) (attempt : ConnectAttempt) :
    ((s.goto pc).see seen).connectListed dir name attempt =
      (((s.connectListed dir name attempt).1.goto pc).see seen,
        (s.connectListed dir name attempt).2) := by
  cases name with
  | none => rfl
  | some name =>
      unfold connectListed
      split_ifs
      · exact connectDev_goto_see s pc seen dir name attempt
      · rfl

/-- An attempt does not look at the program counter. -/
theorem connectAgain_goto_see (s : Reflasher) (pc : ReflasherPc) (seen dir : SocketDir)
    (first second : ConnectAttempt) :
    ((s.goto pc).see seen).connectAgain dir first second =
      (((s.connectAgain dir first second).1.goto pc).see seen,
        (s.connectAgain dir first second).2) := by
  unfold connectAgain
  have hloc := connectListed_goto_see s pc seen dir s.devLoc first
  change connectListed _ dir ((s.goto pc).see seen).devLoc first = _ at hloc
  rw [hloc]
  rcases s.connectListed dir s.devLoc first with ⟨s₁, connected⟩
  cases connected with
  | true => rfl
  | false => exact connectListed_goto_see s₁ pc seen dir s₁.devNam second

theorem retryFailed_goto_see (s : Reflasher) (pc : ReflasherPc) (q : ℤ) (seen dir : SocketDir) :
    ((s.goto pc).see seen).retryFailed q dir =
      if (if q > 0 then q - 1 else q) > 0 then
        (s.goto (.retrying (if q > 0 then q - 1 else q))).see seen
      else (s.timeUp dir).see seen := by
  have hconn : ((s.goto pc).see seen).conn = s.conn := rfl
  rw [retryFailed, timeUp, hconn]
  by_cases hmore : (if q > 0 then q - 1 else q) > 0
  · rw [if_pos hmore, if_pos hmore]
    rfl
  · rw [if_neg hmore, if_neg hmore]
    split_ifs <;> rfl

/-- A round of the second loop, as a step. -/
theorem retry_goto_see (s : Reflasher) (q : ℤ) (seen dir : SocketDir)
    (first second : ConnectAttempt) :
    ((s.goto (.retrying q)).see seen).retry q dir first second =
      match s.connectAgain dir first second with
      | (s, true) => (s.goto .idle).see seen
      | (s, false) =>
          if dir.listDevices true ≠ [] ∧ s.devLoc = none ∧ s.devNam = none then
            (s.goto .choosing).see seen
          else if (if q > 0 then q - 1 else q) > 0 then
            (s.goto (.retrying (if q > 0 then q - 1 else q))).see seen
          else (s.timeUp dir).see seen := by
  rw [retry, connectAgain_goto_see]
  rcases s.connectAgain dir first second with ⟨s₁, connected⟩
  cases connected with
  | true => rfl
  | false =>
      dsimp only
      rw [retryFailed_goto_see]
      rfl

theorem retryLoop_out (rounds : ℕ) (s : Reflasher) {timeout : ℚ} (h : ¬timeout > 0)
    (devices : SocketDir) (made : ℕ) :
    retryLoop listings rounds s timeout false devices made = some (s.timeUp devices, made) := by
  have hout : ¬(false = true ∨ timeout > 0) := not_or.mpr ⟨nofun, h⟩
  cases rounds with
  | zero => rw [retryLoop, if_neg hout]
  | succ rounds => rw [retryLoop, if_neg hout]

/-- The second loop does what the steps do from its first round on. -/
theorem retryLoop_run (rounds : ℕ) {s s' : Reflasher} {timeout : ℚ} {first : Bool}
    {devices : SocketDir} {made made' : ℕ} (seen : SocketDir) (hgo : first = true ∨ timeout > 0)
    (h : retryLoop listings rounds s timeout first devices made = some (s', made')) :
    ∃ n seen' os, made' = made + n ∧
      Transition.run step ((s.goto (.retrying (quarters timeout))).see seen)
        (polls listings made n) = some (s'.see seen', os) := by
  induction rounds generalizing s timeout first devices made seen with
  | zero =>
      rw [retryLoop, if_pos hgo] at h
      cases h
  | succ rounds ih =>
      rw [retryLoop, if_pos hgo] at h
      dsimp only at h
      obtain ⟨found, hfound⟩ : ∃ found, found = listings made := ⟨_, rfl⟩
      rw [← hfound] at h
      have hstep : step ((s.goto (.retrying (quarters timeout))).see seen)
          (.poll found.dir found.first found.second) =
            some ((((s.goto (.retrying (quarters timeout))).see seen).retry (quarters timeout)
              found.dir found.first found.second).see found.dir, ()) := rfl
      rw [retry_goto_see, ← quarters_countDown] at hstep
      rcases hs₁ : s.connectAgain found.dir found.first found.second with ⟨s₁, connected⟩
      rw [hs₁] at h hstep
      cases connected with
      | true =>
          obtain ⟨rfl, rfl⟩ := Prod.mk.inj (Option.some.inj h)
          refine ⟨1, found.dir, [()], rfl, ?_⟩
          rw [polls_succ, ← hfound]
          exact Transition.run_step hstep rfl
      | false =>
          dsimp only at h hstep
          by_cases hask : found.dir.listDevices true ≠ [] ∧ s₁.devLoc = none ∧ s₁.devNam = none
          · rw [if_pos hask] at h hstep
            obtain ⟨rfl, rfl⟩ := Prod.mk.inj (Option.some.inj h)
            refine ⟨1, found.dir, [()], rfl, ?_⟩
            rw [polls_succ, ← hfound]
            exact Transition.run_step hstep rfl
          · rw [if_neg hask] at h hstep
            by_cases hmore : countDown timeout > 0
            · rw [if_pos (quarters_pos.mpr hmore)] at hstep
              obtain ⟨n, seen', os, rfl, hrun⟩ := ih found.dir (.inr hmore) h
              refine ⟨n + 1, seen', () :: os, by omega, ?_⟩
              rw [polls_succ, ← hfound]
              exact Transition.run_step hstep hrun
            · rw [if_neg (fun hq => hmore (quarters_pos.mp hq))] at hstep
              rw [retryLoop_out rounds s₁ hmore] at h
              obtain ⟨rfl, rfl⟩ := Prod.mk.inj (Option.some.inj h)
              refine ⟨1, found.dir, [()], rfl, ?_⟩
              rw [polls_succ, ← hfound]
              exact Transition.run_step hstep rfl

/-- The first loop does what the steps do. -/
theorem vanishLoop_run {timeout : ℚ} (hpos : timeout > 0) (rounds : ℕ) {s : Reflasher}
    {made made' : ℕ} (seen : SocketDir)
    (h : vanishLoop s.devNam timeout listings rounds made = some made') :
    ∃ n seen' os, made' = made + n ∧
      Transition.run step ((s.goto (.vanishing (quarters timeout))).see seen)
        (polls listings made n) =
          some ((s.startRetry (quarters (timeout - sleepTime))).see seen', os) := by
  induction rounds generalizing made seen with
  | zero =>
      rw [vanishLoop, if_pos hpos] at h
      cases h
  | succ rounds ih =>
      rw [vanishLoop, if_pos hpos] at h
      obtain ⟨dir, hdir⟩ : ∃ dir, dir = (listings made).dir := ⟨_, rfl⟩
      rw [← hdir] at h
      have hstep : step ((s.goto (.vanishing (quarters timeout))).see seen)
          (.poll dir (listings made).first (listings made).second) =
            some ((((s.goto (.vanishing (quarters timeout))).see seen).vanish (quarters timeout)
              dir).see dir, ()) := rfl
      have hname : ((s.goto (.vanishing (quarters timeout))).see seen).devNam = s.devNam := rfl
      rw [vanish, hname] at hstep
      by_cases hlisted : listed s.devNam dir = true
      · rw [if_pos hlisted] at h hstep
        obtain ⟨n, seen', os, rfl, hrun⟩ := ih dir h
        refine ⟨n + 1, seen', () :: os, by omega, ?_⟩
        rw [polls_succ, ← hdir]
        exact Transition.run_step hstep hrun
      · rw [if_neg hlisted] at h hstep
        obtain rfl := Option.some.inj h
        refine ⟨1, dir, [()], rfl, ?_⟩
        rw [polls_succ, ← hdir, quarters_sub]
        exact Transition.run_step hstep rfl

/-- **The loops** do what the steps do, with the timeout in quarters of a second. -/
theorem connectLoops_run {s s' : Reflasher} (hidle : s.pc = .idle) {timeout : ℚ} {waitVanish : Bool}
    {devices : SocketDir} {waits attempts made : ℕ}
    (h : connectLoops s timeout waitVanish devices listings waits attempts = some (s', made)) :
    ∃ seen os, Transition.run step s
      (.connect (quarters timeout) waitVanish devices :: polls listings 0 made) =
        some (s'.see seen, os) := by
  have hstep : step s (.connect (quarters timeout) waitVanish devices) =
      some ((s.connectStarts (quarters timeout) waitVanish devices).see devices, ()) := by
    simp only [step, hidle]
  rw [connectStarts] at hstep
  unfold connectLoops at h
  by_cases hwait : (waitVanish && listed s.devNam devices) = true
  · rw [if_pos hwait] at h hstep
    obtain ⟨vanished, hvanish, hretry⟩ := Option.bind_eq_some_iff.mp h
    by_cases hpos : timeout > 0
    · rw [if_pos (quarters_pos.mpr hpos)] at hstep
      obtain ⟨n, seen₁, os₁, rfl, hrun₁⟩ := vanishLoop_run hpos waits devices hvanish
      obtain ⟨n', seen₂, os₂, rfl, hrun₂⟩ := retryLoop_run attempts seen₁ (.inl rfl) hretry
      rw [Nat.zero_add] at hrun₂ ⊢
      have hpolls : polls listings 0 (n + n') = polls listings 0 n ++ polls listings n n' := by
        have hrange := @List.range'_append_1 0 n n'
        rw [Nat.zero_add] at hrange
        rw [polls, polls, polls, ← List.map_append, hrange]
      rw [hpolls]
      exact ⟨seen₂, _, Transition.run_step hstep (Transition.run_trans hrun₁ hrun₂)⟩
    · rw [if_neg (fun hq => hpos (quarters_pos.mp hq)), ← quarters_sub] at hstep
      obtain rfl : vanished = 0 := by
        cases waits with
        | zero =>
            rw [vanishLoop, if_neg hpos] at hvanish
            exact (Option.some.inj hvanish).symm
        | succ waits =>
            rw [vanishLoop, if_neg hpos] at hvanish
            exact (Option.some.inj hvanish).symm
      obtain ⟨n, seen, os, rfl, hrun⟩ := retryLoop_run attempts devices (.inl rfl) hretry
      rw [Nat.zero_add]
      exact ⟨seen, _, Transition.run_step hstep hrun⟩
  · rw [if_neg hwait] at h hstep
    obtain ⟨n, seen, os, rfl, hrun⟩ := retryLoop_run attempts devices (.inl rfl) h
    rw [Nat.zero_add]
    exact ⟨seen, _, Transition.run_step hstep hrun⟩

end Reflasher

end IguanaIR
