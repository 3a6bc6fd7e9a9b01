import Mathlib.Data.List.Sort
import IguanaIR.SocketNames
import IguanaIR.Transition

/-! # The reflasher's connection

`connect`, `connectDev` and `connectWhich` of the `iguanaIR-reflasher` script, which look for the
device again after every reset.  The directory may be another one each time the script looks at it,
so every event brings the directory that it finds, how the attempts to connect go and what the user
types.  A wait is counted in quarters of a second.

Indexes are given out again after a reset, and `connectDev` connects to `_devNam`, whatever name it
is called with. -/

namespace IguanaIR

/-- The socket directory as the script finds it. -/
structure SocketDir where
  /-- The names, each with whether it is a link, or `none` where the directory can't be read. -/
  entries : Option (List (CString × Bool))
  /-- The device that a name leads to. -/
  leads : CString → Option ℕ

/-- How an attempt to connect goes where the name leads to a device. -/
structure ConnectAttempt where
  connected : Bool
  /-- The data of the reply to `IG_DEV_GETLOCATION`, or `none` if the transaction fails. -/
  location : Option (List Byte)

/-- `_conn`, which is `INVALID_PIPE` after a failed attempt. -/
inductive Conn where
  | unset
  | invalid
  | opened (device : ℕ)
deriving DecidableEq, Repr

/-- A line that the user types. -/
inductive TypedLine where
  | blank
  | quit
  | number (n : ℤ)
  | other
deriving DecidableEq, Repr

inductive ReflasherPc where
  | idle
  /-- In the loop that waits for the device to vanish. -/
  | vanishing (timeout : ℤ)
  /-- At the top of the loop that waits for it to come back. -/
  | retrying (timeout : ℤ)
  /-- About to call `connectWhich`, and then to connect. -/
  | choosing
  | interrupted
deriving DecidableEq, Repr

/-- The globals of the script, beside what happened to the device at hand. -/
structure Reflasher where
  pc : ReflasherPc
  conn : Conn
  devLoc : Option CString
  devNam : Option CString
  /-- The directory as it was last seen. -/
  seen : SocketDir
  /-- The device that was connected to first. -/
  chosen : Option ℕ
  /-- The devices that pages were written to. -/
  written : List ℕ

inductive ReflasherEvent where
  | connect (timeout : ℤ) (waitVanish : Bool) (dir : SocketDir)
  | poll (dir : SocketDir) (first second : ConnectAttempt)
  | choose (bare full dir : SocketDir) (answers : List TypedLine) (attempt : ConnectAttempt)
  | writePage
  | nextDevice

/-- The listing, with the guess where there is none. -/
def SocketDir.listDevices (dir : SocketDir) (withAliases : Bool) : List CString :=
  let devices : List CString := match dir.entries with
    | none => [ascii "0"]
    | some entries =>
        (entries.filter (fun e => e.1 != ascii "ctl" && (withAliases || !e.2))).map (·.1)
  devices.insertionSort (· ≤ ·)

/-- `iguanaIR.connect`. -/
def SocketDir.connect (dir : SocketDir) (name : CString) (attempt : ConnectAttempt) : Option ℕ :=
  if attempt.connected then dir.leads name else none

/-- The number of a device in the menu, or a line that says which; at the end of the input a line is
blank. -/
def pickFrom (devMap : List CString) : List TypedLine → Option CString
  | [] | .blank :: _ => devMap[0]?
  | .quit :: _ => none
  | .number n :: answers =>
      if 1 ≤ n ∧ n ≤ devMap.length then devMap[n.toNat - 1]? else pickFrom devMap answers
  | .other :: answers => pickFrom devMap answers

/-- `none` where it raises. -/
def connectWhich (bare full : SocketDir) (answers : List TypedLine) : Option CString :=
  match bare.listDevices false with
  | [] => none
  | [device] => some device
  | _ => pickFrom (full.listDevices true) answers

namespace Reflasher

/-- `None` until the first device is chosen, and no attempt is made before. -/
def target (s : Reflasher) : CString := s.devNam.getD (ascii "0")

def listed (name : Option CString) (dir : SocketDir) : Bool :=
  name.any (fun name => (dir.listDevices true).contains name)

/-- `_devLoc` when the reply is in; only two bytes fit the format. -/
def locationAfter (s : Reflasher) (attempt : ConnectAttempt) : Option CString :=
  match attempt.location with
  | some [bus, port] => some (locationAlias (bus, port))
  | _ => s.devLoc

/-- The state behind the attempt, and whether it was successful.  The name is not used. -/
def connectDev (s : Reflasher) (dir : SocketDir) (_name : CString) (attempt : ConnectAttempt) :
    Reflasher × Bool :=
  match dir.connect s.target attempt with
  | none => ({ s with conn := .invalid }, false)
  | some device =>
      ({ s with
        conn := .opened device
        devLoc := s.locationAfter attempt
        chosen := s.chosen.or (some device) }, true)

/-- `name is not None and name in devices and connectDev(name)`. -/
def connectListed (s : Reflasher) (dir : SocketDir) (name : Option CString) (attempt : ConnectAttempt) :
    Reflasher × Bool :=
  match name with
  | none => (s, false)
  | some n => if listed name dir then s.connectDev dir n attempt else (s, false)

/-- The location is favored. -/
def connectAgain (s : Reflasher) (dir : SocketDir) (first second : ConnectAttempt) : Reflasher × Bool :=
  match s.connectListed dir s.devLoc first with
  | (s, true) => (s, true)
  | (s, false) => s.connectListed dir s.devNam second

/-- The second half of `connect` begins. -/
def startRetry (s : Reflasher) (timeout : ℤ) : Reflasher :=
  { s with conn := .unset, pc := .retrying timeout }

def goto (s : Reflasher) (pc : ReflasherPc) : Reflasher := { s with pc := pc }

def see (s : Reflasher) (dir : SocketDir) : Reflasher := { s with seen := dir }

def connectStarts (s : Reflasher) (timeout : ℤ) (waitVanish : Bool) (dir : SocketDir) : Reflasher :=
  if waitVanish && listed s.devNam dir then
    if timeout > 0 then s.goto (.vanishing timeout) else s.startRetry (timeout - 1)
  else s.startRetry timeout

/-- The timeout does not change in this loop. -/
def vanish (s : Reflasher) (timeout : ℤ) (dir : SocketDir) : Reflasher :=
  if listed s.devNam dir then s else s.startRetry (timeout - 1)

/-- The rest of a round without a connection. -/
def retryFailed (s : Reflasher) (timeout : ℤ) (dir : SocketDir) : Reflasher :=
  let timeout := if timeout > 0 then timeout - 1 else timeout
  if timeout > 0 then s.goto (.retrying timeout)
  else if s.conn = .unset then
    if dir.listDevices true = [] then s.goto .interrupted else s.goto .choosing
  else s.goto .idle

def retry (s : Reflasher) (timeout : ℤ) (dir : SocketDir) (first second : ConnectAttempt) : Reflasher :=
  match s.connectAgain dir first second with
  | (s, true) => s.goto .idle
  | (s, false) =>
      if dir.listDevices true ≠ [] ∧ s.devLoc = none ∧ s.devNam = none then s.goto .choosing
      else s.retryFailed timeout dir

def named (s : Reflasher) (name : CString) : Reflasher := { s with devNam := some name }

def choose (s : Reflasher) (bare full dir : SocketDir) (answers : List TypedLine) (attempt : ConnectAttempt) :
    Reflasher :=
  match connectWhich bare full answers with
  | none => s.goto .interrupted
  | some name => (((s.named name).connectDev dir name attempt).1).goto .idle

/-- A page goes to the device that is connected, if there is one; with `_conn` unset the script
connects first. -/
def writePage (s : Reflasher) : Option Reflasher :=
  match s.conn with
  | .unset => none
  | .invalid => some s
  | .opened device => some { s with written := s.written ++ [device] }

/-- The main loop closes the connection and begins with another device. -/
def nextDevice (s : Reflasher) : Reflasher :=
  { s with pc := .idle, conn := .unset, chosen := none, written := [] }

def step (s : Reflasher) (e : ReflasherEvent) : Option (Reflasher × Unit) :=
  match s.pc, e with
  | .idle, .connect timeout waitVanish dir =>
      some ((s.connectStarts timeout waitVanish dir).see dir, ())
  | .vanishing timeout, .poll dir _ _ => some ((s.vanish timeout dir).see dir, ())
  | .retrying timeout, .poll dir first second => some ((s.retry timeout dir first second).see dir, ())
  | .choosing, .choose bare full dir answers attempt =>
      some ((s.choose bare full dir answers attempt).see dir, ())
  | .idle, .writePage => s.writePage.map (·, ())
  | .idle, .nextDevice | .interrupted, .nextDevice => some (s.nextDevice, ())
  | _, _ => none

def start (dir : SocketDir) : Reflasher := ⟨.idle, .unset, none, none, dir, none, []⟩

/-! ### The same device -/

/-- A connection that `connect` left is to the device first chosen, and to the one that `_devLoc`
leads to if that is listed; pages were written to the device first chosen. -/
structure SameDevice (s : Reflasher) : Prop where
  chosen : s.pc = .idle → ∀ device, s.conn = .opened device → s.chosen = some device
  located : s.pc = .idle → ∀ device, s.conn = .opened device → ∀ loc ∈ s.devLoc,
    listed (some loc) s.seen → s.seen.leads loc = some device
  written : ∀ device ∈ s.written, s.chosen = some device

/-- Should an attempt be successful, `_devNam` leads to the device first chosen, and the location
that is kept, if it is listed, to the same one. -/
def Matches (s : Reflasher) (dir : SocketDir) (attempt : ConnectAttempt) : Prop :=
  dir.connect s.target attempt ≠ none →
    (∀ device ∈ s.chosen, dir.leads s.target = some device) ∧
    ∀ loc ∈ s.locationAfter attempt, listed (some loc) dir → dir.leads loc = dir.leads s.target

/-- Every attempt that is made matches. -/
def KeepsDevice (s : Reflasher) (e : ReflasherEvent) : Prop :=
  match s.pc, e with
  | .retrying _, .poll dir first second =>
      (listed s.devLoc dir → s.Matches dir first) ∧
      (listed s.devNam dir → ¬ (listed s.devLoc dir ∧ dir.connect s.target first ≠ none) →
        s.Matches dir second)
  | .choosing, .choose bare full dir answers attempt =>
      ∀ name ∈ connectWhich bare full answers, (s.named name).Matches dir attempt
  | _, _ => True

/-- Nothing is connected in the second half of `connect`. -/
def Disconnected (s : Reflasher) : Prop :=
  match s.pc with
  | .retrying _ | .choosing | .interrupted => ∀ device, s.conn ≠ .opened device
  | _ => True

instance (s : Reflasher) (dir : SocketDir) (attempt : ConnectAttempt) : Decidable (s.Matches dir attempt) := by
  unfold Matches
  infer_instance

instance : DecidableRel KeepsDevice := fun s e => by
  unfold KeepsDevice
  split <;> infer_instance

variable {s : Reflasher} {dir : SocketDir}

theorem connectDev_none {name : CString} {attempt : ConnectAttempt}
    (h : dir.connect s.target attempt = none) :
    s.connectDev dir name attempt = ({ s with conn := .invalid }, false) := by
  rw [connectDev, h]

theorem connectDev_some {name : CString} {attempt : ConnectAttempt} {device : ℕ}
    (h : dir.connect s.target attempt = some device) :
    s.connectDev dir name attempt = ({ s with
      conn := .opened device
      devLoc := s.locationAfter attempt
      chosen := s.chosen.or (some device) }, true) := by
  rw [connectDev, h]

theorem connect_leads {name : CString} {attempt : ConnectAttempt} {device : ℕ}
    (h : dir.connect name attempt = some device) : dir.leads name = some device := by
  rw [SocketDir.connect] at h
  split at h
  · exact h
  · cases h

/-- Where nothing is connected only the pages count. -/
theorem sameDevice_disconnected (hconn : ∀ device, s.conn ≠ .opened device)
    (hwritten : ∀ device ∈ s.written, s.chosen = some device) : s.SameDevice :=
  ⟨fun _ device h => absurd h (hconn device), fun _ device h => absurd h (hconn device), hwritten⟩

/-- A connection is right exactly when the attempt matches. -/
theorem sameDevice_connectDev {name : CString} {attempt : ConnectAttempt}
    (hwritten : ∀ device ∈ s.written, s.chosen = some device) :
    (((s.connectDev dir name attempt).1.goto .idle).see dir).SameDevice ↔
      s.Matches dir attempt := by
  cases hconnect : dir.connect s.target attempt with
  | none =>
    rw [connectDev_none hconnect]
    refine iff_of_true (sameDevice_disconnected ?_ hwritten) (fun h => absurd hconnect h)
    intro device h
    cases h
  | some device =>
    have hleads := connect_leads hconnect
    rw [connectDev_some hconnect]
    constructor
    · intro hsame _
      have hchosen : s.chosen.or (some device) = some device := hsame.chosen rfl device rfl
      refine ⟨?_, ?_⟩
      · intro c hc
        rw [Option.mem_def.mp hc, Option.some_or] at hchosen
        rw [hleads, hchosen]
      · intro loc hloc hlisted
        rw [hleads]
        exact hsame.located rfl device rfl loc hloc hlisted
    · intro hmatch
      obtain ⟨hchosen, hloc⟩ := hmatch (by rw [hconnect]; exact Option.some_ne_none _)
      refine ⟨?_, ?_, ?_⟩
      · rintro - _ ⟨⟩
        change s.chosen.or (some device) = some device
        cases hc : s.chosen with
        | none => rfl
        | some c =>
          have hc' := hchosen c hc
          rw [Option.some_or, ← hc', hleads]
      · rintro - _ ⟨⟩ loc hmem hlisted
        rw [← hleads]
        exact hloc loc hmem hlisted
      · intro d hd
        change s.chosen.or (some device) = some d
        rw [hwritten d hd, Option.some_or]

/-- What an attempt under a name comes to: it is not made, it fails or it is successful. -/
theorem connectListed_cases (name : Option CString) (attempt : ConnectAttempt) :
    (¬ (listed name dir ∧ dir.connect s.target attempt ≠ none) ∧
      ∃ conn, s.connectListed dir name attempt = ({ s with conn := conn }, false) ∧
        (conn = s.conn ∨ conn = .invalid)) ∨
    (listed name dir ∧ dir.connect s.target attempt ≠ none ∧
      ∃ n, s.connectListed dir name attempt = ((s.connectDev dir n attempt).1, true)) := by
  cases name with
  | none => exact .inl ⟨fun h => absurd h.1 (by simp [listed]), s.conn, rfl, .inl rfl⟩
  | some n =>
    by_cases hlisted : listed (some n) dir
    · rw [connectListed, if_pos hlisted]
      cases hconnect : dir.connect s.target attempt with
      | none =>
        refine .inl ⟨fun h => h.2 rfl, .invalid, ?_, .inr rfl⟩
        rw [connectDev_none hconnect]
      | some device =>
        refine .inr ⟨hlisted, Option.some_ne_none _, n, ?_⟩
        rw [connectDev_some hconnect]
    · rw [connectListed, if_neg hlisted]
      exact .inl ⟨fun h => hlisted h.1, s.conn, rfl, .inl rfl⟩

theorem retryFailed_conn (timeout : ℤ) :
    (s.retryFailed timeout dir).conn = s.conn ∧ (s.retryFailed timeout dir).chosen = s.chosen ∧
      (s.retryFailed timeout dir).written = s.written := by
  simp only [retryFailed]
  split_ifs
  all_goals exact ⟨rfl, rfl, rfl⟩

/-- A round without a connection. -/
theorem retry_failed {timeout : ℤ} {first second : ConnectAttempt}
    (hfirst : ¬ (listed s.devLoc dir ∧ dir.connect s.target first ≠ none))
    (hsecond : ¬ (listed s.devNam dir ∧ dir.connect s.target second ≠ none))
    (hconn : ∀ device, s.conn ≠ .opened device) :
    (∀ device, (s.retry timeout dir first second).conn ≠ .opened device) ∧
      (s.retry timeout dir first second).chosen = s.chosen ∧
      (s.retry timeout dir first second).written = s.written := by
  obtain ⟨-, conn₁, h₁, hconn₁⟩ | ⟨hl, hc, -⟩ := @connectListed_cases s dir s.devLoc first
  swap
  · exact absurd ⟨hl, hc⟩ hfirst
  obtain ⟨-, conn₂, h₂, hconn₂⟩ | ⟨hl, hc, -⟩ :=
    @connectListed_cases { s with conn := conn₁ } dir s.devNam second
  swap
  · exact absurd ⟨hl, hc⟩ hsecond
  have hclosed : ∀ device, conn₂ ≠ .opened device := by
    intro device h
    obtain rfl | rfl := hconn₂
    · obtain rfl | rfl := hconn₁
      · exact hconn device h
      · cases h
    · cases h
  simp only [retry, connectAgain, h₁, h₂]
  split
  · exact ⟨hclosed, rfl, rfl⟩
  · obtain ⟨hc, hchosen, hwritten⟩ :=
      @retryFailed_conn { s with conn := conn₂ } dir timeout
    rw [hc, hchosen, hwritten]
    exact ⟨hclosed, rfl, rfl⟩

/-- A round in which the attempt under the location is successful. -/
theorem retry_first {timeout : ℤ} {first second : ConnectAttempt}
    (h : listed s.devLoc dir ∧ dir.connect s.target first ≠ none) :
    ∃ n, s.retry timeout dir first second = (s.connectDev dir n first).1.goto .idle := by
  obtain ⟨hnot, -⟩ | ⟨-, -, n, h₁⟩ := @connectListed_cases s dir s.devLoc first
  · exact absurd h hnot
  · refine ⟨n, ?_⟩
    rw [retry, connectAgain, h₁]

/-- A round in which only the attempt under the index is. -/
theorem retry_second {timeout : ℤ} {first second : ConnectAttempt}
    (hfirst : ¬ (listed s.devLoc dir ∧ dir.connect s.target first ≠ none))
    (h : listed s.devNam dir ∧ dir.connect s.target second ≠ none) :
    ∃ conn n, s.retry timeout dir first second =
      (({ s with conn := conn } : Reflasher).connectDev dir n second).1.goto .idle := by
  obtain ⟨-, conn, h₁, -⟩ | ⟨hl, hc, -⟩ := @connectListed_cases s dir s.devLoc first
  swap
  · exact absurd ⟨hl, hc⟩ hfirst
  obtain ⟨hnot, -⟩ | ⟨-, -, n, h₂⟩ :=
    @connectListed_cases { s with conn := conn } dir s.devNam second
  · exact absurd h hnot
  · refine ⟨conn, n, ?_⟩
    rw [retry, connectAgain, h₁]
    simp only [h₂]

theorem sameDevice_retry {timeout : ℤ} {first second : ConnectAttempt}
    (hconn : ∀ device, s.conn ≠ .opened device)
    (hwritten : ∀ device ∈ s.written, s.chosen = some device) :
    ((s.retry timeout dir first second).see dir).SameDevice ↔
      (listed s.devLoc dir → s.Matches dir first) ∧
      (listed s.devNam dir → ¬ (listed s.devLoc dir ∧ dir.connect s.target first ≠ none) →
        s.Matches dir second) := by
  by_cases hfirst : listed s.devLoc dir ∧ dir.connect s.target first ≠ none
  · obtain ⟨n, hretry⟩ := @retry_first s dir timeout first second hfirst
    rw [hretry, sameDevice_connectDev hwritten]
    constructor
    · intro h
      exact ⟨fun _ => h, fun _ hnot => absurd hfirst hnot⟩
    · intro h
      exact h.1 hfirst.1
  · have hunused : listed s.devLoc dir → s.Matches dir first :=
      fun hl hc => absurd ⟨hl, hc⟩ hfirst
    by_cases hsecond : listed s.devNam dir ∧ dir.connect s.target second ≠ none
    · obtain ⟨conn, n, hretry⟩ := @retry_second s dir timeout first second hfirst hsecond
      rw [hretry, @sameDevice_connectDev { s with conn := conn } dir n second hwritten]
      constructor
      · intro h
        exact ⟨hunused, fun _ _ => h⟩
      · intro h
        exact h.2 hsecond.1 hfirst
    · obtain ⟨hclosed, hchosen, hpages⟩ :=
        @retry_failed s dir timeout first second hfirst hsecond hconn
      refine iff_of_true (sameDevice_disconnected hclosed ?_)
        ⟨hunused, fun hl _ hc => absurd ⟨hl, hc⟩ hsecond⟩
      change ∀ device ∈ (s.retry timeout dir first second).written,
        (s.retry timeout dir first second).chosen = some device
      rw [hchosen, hpages]
      exact hwritten

theorem disconnected_idle (h : s.pc = .idle) : s.Disconnected := by
  rw [Disconnected, h]
  trivial

theorem disconnected_closed (h : ∀ device, s.conn ≠ .opened device) : s.Disconnected := by
  rw [Disconnected]
  split
  all_goals first
    | exact h
    | trivial

theorem disconnected_retry {timeout : ℤ} {first second : ConnectAttempt}
    (hconn : ∀ device, s.conn ≠ .opened device) :
    ((s.retry timeout dir first second).see dir).Disconnected := by
  by_cases hfirst : listed s.devLoc dir ∧ dir.connect s.target first ≠ none
  · obtain ⟨n, hretry⟩ := @retry_first s dir timeout first second hfirst
    rw [hretry]
    exact disconnected_idle rfl
  · by_cases hsecond : listed s.devNam dir ∧ dir.connect s.target second ≠ none
    · obtain ⟨conn, n, hretry⟩ := @retry_second s dir timeout first second hfirst hsecond
      rw [hretry]
      exact disconnected_idle rfl
    · exact disconnected_closed
        (@retry_failed s dir timeout first second hfirst hsecond hconn).1

theorem disconnected_step {s' : Reflasher} {e : ReflasherEvent} {o : Unit} (hs : s.Disconnected)
    (h : s.step e = some (s', o)) : s'.Disconnected := by
  unfold step at h
  split at h
  case h_1 timeout waitVanish dir hpc =>
    cases h
    simp only [connectStarts]
    split_ifs
    · trivial
    all_goals exact disconnected_closed (fun device h => by cases h)
  case h_2 timeout dir first second hpc =>
    cases h
    rw [vanish]
    split_ifs
    · rw [Disconnected, see, hpc]
      trivial
    · exact disconnected_closed (fun device h => by cases h)
  case h_3 timeout dir first second hpc =>
    cases h
    rw [Disconnected, hpc] at hs
    exact disconnected_retry hs
  case h_4 bare full dir answers attempt hpc =>
    cases h
    rw [Disconnected, hpc] at hs
    rw [choose]
    split
    · exact disconnected_closed hs
    · exact disconnected_idle rfl
  case h_5 hpc =>
    obtain ⟨s'', hwrite, heq⟩ := Option.map_eq_some_iff.mp h
    obtain ⟨rfl, -⟩ := Prod.mk.inj heq
    rw [writePage] at hwrite
    split at hwrite
    all_goals cases hwrite
    all_goals exact disconnected_idle hpc
  case h_6 | h_7 =>
    cases h
    exact disconnected_idle rfl
  case h_8 => cases h

/-- **One step** keeps to the device exactly when the attempts that it makes match. -/
theorem sameDevice_step {s' : Reflasher} {e : ReflasherEvent} {o : Unit} (hsame : s.SameDevice)
    (hs : s.Disconnected) (h : s.step e = some (s', o)) :
    s'.SameDevice ↔ s.KeepsDevice e := by
  unfold step at h
  split at h
  case h_1 timeout waitVanish dir hpc =>
    cases h
    simp only [KeepsDevice, hpc]
    refine iff_of_true ?_ trivial
    simp only [connectStarts]
    split_ifs
    · refine ⟨?_, ?_, hsame.written⟩
      all_goals
        intro h
        cases h
    · exact sameDevice_disconnected (fun device h => by cases h) hsame.written
    · exact sameDevice_disconnected (fun device h => by cases h) hsame.written
  case h_2 timeout dir first second hpc =>
    cases h
    simp only [KeepsDevice, hpc]
    refine iff_of_true ?_ trivial
    rw [vanish]
    split_ifs
    · refine ⟨fun h => ?_, fun h => ?_, hsame.written⟩
      all_goals exact absurd (hpc.symm.trans h) (by simp)
    · exact sameDevice_disconnected (fun device h => by cases h) hsame.written
  case h_3 timeout dir first second hpc =>
    cases h
    rw [Disconnected, hpc] at hs
    simp only [KeepsDevice, hpc]
    exact sameDevice_retry hs hsame.written
  case h_4 bare full dir answers attempt hpc =>
    cases h
    rw [Disconnected, hpc] at hs
    simp only [choose, KeepsDevice, hpc]
    split
    · rename_i hwhich
      refine iff_of_true (sameDevice_disconnected hs hsame.written) ?_
      simp [hwhich]
    · rename_i name hwhich
      rw [@sameDevice_connectDev (s.named name) dir name attempt hsame.written]
      simp [hwhich]
  case h_5 hpc =>
    obtain ⟨s'', hwrite, heq⟩ := Option.map_eq_some_iff.mp h
    obtain ⟨rfl, -⟩ := Prod.mk.inj heq
    simp only [KeepsDevice, hpc]
    refine iff_of_true ?_ trivial
    rw [writePage] at hwrite
    split at hwrite
    · cases hwrite
    · cases hwrite
      exact hsame
    · rename_i device hconn
      cases hwrite
      refine ⟨hsame.chosen, hsame.located, ?_⟩
      intro d hd
      obtain hd | hd := List.mem_append.mp hd
      · exact hsame.written d hd
      · obtain rfl := List.mem_singleton.mp hd
        exact hsame.chosen hpc d hconn
  case h_6 hpc | h_7 hpc =>
    cases h
    simp only [KeepsDevice, hpc]
    refine iff_of_true (sameDevice_disconnected (fun device h => by cases h) ?_) trivial
    exact fun device h => absurd h List.not_mem_nil
  case h_8 => cases h

/-- **The reflasher stays with its device** exactly when every attempt that it makes, should it be
successful, goes to the device first chosen, and to the one that the location it keeps leads to. -/
theorem same_device_iff (dir : SocketDir) (es : List ReflasherEvent) (s' : Reflasher)
    (os : List Unit) (h : Transition.run step (.start dir) es = some (s', os)) :
    Transition.Always step SameDevice (.start dir) es ↔
      Transition.Guarded step KeepsDevice (.start dir) es := by
  have hstart : (Reflasher.start dir).Disconnected := disconnected_idle rfl
  have hsame : (Reflasher.start dir).SameDevice :=
    sameDevice_disconnected (fun device h => by cases h) (fun device h => absurd h List.not_mem_nil)
  have hinv := Transition.guarded_of_invariant
    (fun s e s' o hs hstep => @disconnected_step s s' e o hs hstep) es _ hstart
  exact Transition.always_iff_guarded
    (fun s e s' o hsame hs hstep => sameDevice_step hsame hs hstep) es _ s' os hsame hinv h

/-- Two devices; `first` is the one that `0` leads to. -/
def twoDevices (first second : ℕ) : SocketDir :=
  ⟨some [(ascii "0", false), (ascii "1", false), (ascii "1-2", true), (ascii "1-3", true)],
    fun name =>
      if name = ascii "0" then some first else if name = ascii "1" then some second
      else if name = ascii "1-2" then some 1 else if name = ascii "1-3" then some 2 else none⟩

/-- The first device is chosen and a page written, and then the devices have come back and it
answers `location` or nothing; another page is written. -/
def replugged (back : SocketDir) (location : Option (List Byte)) : List ReflasherEvent :=
  let chosen := twoDevices 1 2
  [.connect 8 false chosen, .poll chosen ⟨true, none⟩ ⟨true, none⟩,
    .choose chosen chosen chosen [.number 1] ⟨true, some [1, 2]⟩, .writePage,
    .connect 8 false back, .poll back ⟨true, location⟩ ⟨true, location⟩, .writePage]

theorem same_device_iff_replugged :
    ∃ s' os, Transition.run step (.start (twoDevices 1 2)) (replugged (twoDevices 1 2) none) =
        some (s', os) ∧
      Transition.Always step SameDevice (.start (twoDevices 1 2))
        (replugged (twoDevices 1 2) none) := by
  have hrun : (Transition.run step (.start (twoDevices 1 2))
      (replugged (twoDevices 1 2) none)).isSome := by decide
  obtain ⟨⟨s', os⟩, h⟩ := Option.isSome_iff_exists.mp hrun
  have hkeeps : Transition.Guarded step KeepsDevice (.start (twoDevices 1 2))
      (replugged (twoDevices 1 2) none) := by decide
  exact ⟨s', os, h, (same_device_iff _ _ s' os h).mpr hkeeps⟩

/-- The devices have come back in the other order.  The location leads to the device first chosen,
and the page goes to the other one. -/
theorem other_device :
    ∃ s' os, Transition.run step (.start (twoDevices 1 2)) (replugged (twoDevices 2 1) none) =
        some (s', os) ∧
      s'.conn = .opened 2 ∧ s'.devLoc = some (ascii "1-2") ∧ listed s'.devLoc s'.seen = true ∧
      s'.seen.leads (ascii "1-2") = some 1 ∧ s'.chosen = some 1 ∧ s'.written = [1, 2] ∧
      ¬ Transition.Always step SameDevice (.start (twoDevices 1 2))
        (replugged (twoDevices 2 1) none) := by
  have hrun : (Transition.run step (.start (twoDevices 1 2))
      (replugged (twoDevices 2 1) none)).any (fun r => r.1.conn = .opened 2 ∧
        r.1.devLoc = some (ascii "1-2") ∧ listed r.1.devLoc r.1.seen = true ∧
        r.1.seen.leads (ascii "1-2") = some 1 ∧ r.1.chosen = some 1 ∧ r.1.written = [1, 2]) := by
    decide
  obtain ⟨⟨s', os⟩, h, hend⟩ := (Option.any_eq_true _ _).mp hrun
  obtain ⟨hconn, hloc, hlisted, hleads, hchosen, hwritten⟩ := of_decide_eq_true hend
  refine ⟨s', os, h, hconn, hloc, hlisted, hleads, hchosen, hwritten, ?_⟩
  intro halways
  have hsecond := (Transition.always_end halways h).written 2
  rw [hwritten, hchosen] at hsecond
  revert hsecond
  decide

end Reflasher

end IguanaIR
