import IguanaIR.ClientCommands
import IguanaIR.Successive

/-! # The pin settings of igclient

`getSetting`, `setSetting` and `handleInternalTask` of `client.c`.  A byte of `pinState` has the five
settings of one pin, each as the bit of its mask, and `getSetting` leaves that bit where it is
when it moves it to the place of the pin. -/

namespace IguanaIR

def IG_PIN_COUNT : ℕ := 8

abbrev PinState := Vector Byte IG_PIN_COUNT

inductive PinSetting where
  | output
  | pullup
  | openDrain
  | highSink
  | threshold
deriving DecidableEq, Repr

/-- The `bit` of the commands for a setting. -/
def PinSetting.bit : PinSetting → Byte
  | output => IG_OUTPUT
  | pullup => IG_PULLUP
  | openDrain => IG_OPEN_DRAIN
  | highSink => IG_HIGH_SINK
  | threshold => IG_THRESHOLD

/-- The mask that `handleInternalTask` passes on. -/
def PinSetting.mask (setting : PinSetting) : BitVec 32 := setting.bit.setWidth 32

def getSetting (setting : BitVec 32) (pinState : PinState) : Byte :=
  (List.finRange IG_PIN_COUNT).foldl (fun value x =>
    value + ((pinState[x].setWidth 32 &&& setting) <<< x.val).setWidth 8) 0

def setSetting (setting : BitVec 32) (pins : CString) (pinState : PinState) : PinState :=
  match parseNumber pins with
  | none => pinState
  | some value => pinState.mapFinIdx (fun x pin _ =>
      if value &&& (1#32 <<< x) ≠ 0 then (pin.setWidth 32 ||| setting).setWidth 8
      else (pin.setWidth 32 &&& ~~~setting).setWidth 8)

/-! ### The internal tasks -/

/-- What an internal task prints. -/
inductive InternalResult where
  | slept
  | shown (value : Byte)
  | stored
  | unhandled
deriving DecidableEq, Repr

def handleInternalTask (spec : CommandSpec) (arg : CString) (pinState : PinState) :
    InternalResult × PinState :=
  if spec.code = INTERNAL_SLEEP then (.slept, pinState)
  else if spec.code &&& INTERNAL_GETCONFIG = INTERNAL_GETCONFIG then
    (.shown (getSetting (spec.bit.setWidth 32) pinState), pinState)
  else if spec.code &&& INTERNAL_SETCONFIG = INTERNAL_SETCONFIG then
    (.stored, setSetting (spec.bit.setWidth 32) arg pinState)
  else (.unhandled, pinState)

/-- **Every setting** has a row of the table that gets it and one that sets it. -/
theorem handleInternalTask_rows (setting : PinSetting) :
    ∃ get ∈ supportedCommands, ∃ set ∈ supportedCommands, get.internal ∧ set.internal ∧
      ∀ arg pinState,
        handleInternalTask get arg pinState = (.shown (getSetting setting.mask pinState), pinState) ∧
        handleInternalTask set arg pinState = (.stored, setSetting setting.mask arg pinState) := by
  obtain ⟨get, set, hget, hset⟩ : ∃ get set : CommandSpec,
      (get ∈ supportedCommands ∧ get.internal ∧ get.bit = setting.bit ∧ get.code ≠ INTERNAL_SLEEP ∧
        get.code &&& INTERNAL_GETCONFIG = INTERNAL_GETCONFIG) ∧
      (set ∈ supportedCommands ∧ set.internal ∧ set.bit = setting.bit ∧ set.code ≠ INTERNAL_SLEEP ∧
        set.code &&& INTERNAL_GETCONFIG ≠ INTERNAL_GETCONFIG ∧
        set.code &&& INTERNAL_SETCONFIG = INTERNAL_SETCONFIG) := by
    cases setting with
    | output => exact ⟨supportedCommands[35], supportedCommands[36],
        ⟨List.getElem_mem _, by decide⟩, List.getElem_mem _, by decide⟩
    | pullup => exact ⟨supportedCommands[37], supportedCommands[38],
        ⟨List.getElem_mem _, by decide⟩, List.getElem_mem _, by decide⟩
    | openDrain => exact ⟨supportedCommands[39], supportedCommands[40],
        ⟨List.getElem_mem _, by decide⟩, List.getElem_mem _, by decide⟩
    | highSink => exact ⟨supportedCommands[41], supportedCommands[42],
        ⟨List.getElem_mem _, by decide⟩, List.getElem_mem _, by decide⟩
    | threshold => exact ⟨supportedCommands[43], supportedCommands[44],
        ⟨List.getElem_mem _, by decide⟩, List.getElem_mem _, by decide⟩
  obtain ⟨hget, hgetInternal, hgetBit, hgetSleep, hgetCode⟩ := hget
  obtain ⟨hset, hsetInternal, hsetBit, hsetSleep, hsetGet, hsetCode⟩ := hset
  refine ⟨get, hget, set, hset, hgetInternal, hsetInternal, fun arg pinState => ⟨?_, ?_⟩⟩
  · rw [handleInternalTask, if_neg hgetSleep, if_pos hgetCode, hgetBit]
    rfl
  · rw [handleInternalTask, if_neg hsetSleep, if_neg hsetGet, if_pos hsetCode, hsetBit]
    rfl

/-! ### The pins that have a setting -/

/-- The place of its bit. -/
def PinSetting.place : PinSetting → ℕ
  | output => 0
  | pullup => 1
  | openDrain => 2
  | highSink => 3
  | threshold => 4

/-- The bit of a pin that is on. -/
def pinBit (x : ℕ) (on : Bool) : Byte := if on then BitVec.twoPow 8 x else 0

/-- The pins that are on, one bit for each. -/
def pinBits (on : Fin IG_PIN_COUNT → Bool) : Byte :=
  (List.finRange IG_PIN_COUNT).foldl (fun pins x => pins + pinBit x.val (on x)) 0

/-- Does a pin have the setting? -/
def PinSetting.isOn (setting : PinSetting) (pinState : PinState) (x : Fin IG_PIN_COUNT) : Bool :=
  pinState[x].getLsbD setting.place

theorem PinSetting.mask_eq (setting : PinSetting) : setting.mask = BitVec.twoPow 32 setting.place := by
  cases setting <;> decide

theorem PinSetting.place_lt (setting : PinSetting) : setting.place < 8 := by
  cases setting <;> decide

theorem PinSetting.place_inj {setting other : PinSetting} (h : setting.place = other.place) :
    setting = other := by
  revert h
  cases setting <;> cases other <;> decide

/-- One round of `getSetting`: the bit goes up to the pin from where it is. -/
theorem masked_shifted (setting : PinSetting) (pin : Byte) (x : Fin IG_PIN_COUNT) :
    ((pin.setWidth 32 &&& setting.mask) <<< x.val).setWidth 8 =
      pinBit x (pin.getLsbD setting.place) <<< setting.place := by
  have hplace := setting.place_lt
  have hx : x.val < 8 := x.isLt
  rw [setting.mask_eq, BitVec.and_twoPow, BitVec.getLsbD_setWidth]
  have hlt : setting.place < 32 := by omega
  simp only [hlt, decide_true, Bool.true_and, pinBit]
  cases pin.getLsbD setting.place with
  | false => simp
  | true =>
      apply BitVec.eq_of_getLsbD_eq
      intro i hi
      rw [Bool.eq_iff_iff]
      simp
      omega

/-- A sum of shifted bytes is the shifted sum. -/
theorem foldl_add_shiftLeft {α : Type} (f : α → Byte) (n : ℕ) (xs : List α) (value : Byte) :
    xs.foldl (fun value x => value + f x <<< n) (value <<< n) =
      xs.foldl (fun value x => value + f x) value <<< n := by
  induction xs generalizing value with
  | nil => rfl
  | cons x xs ih =>
      rw [List.foldl_cons, List.foldl_cons, ← BitVec.shiftLeft_add_distrib]
      exact ih (value + f x)

/-- **What `getSetting` returns** is as much too large as the mask of the setting. -/
theorem getSetting_eq (setting : PinSetting) (pinState : PinState) :
    getSetting setting.mask pinState = pinBits (setting.isOn pinState) <<< setting.place := by
  have hsum := foldl_add_shiftLeft (fun x => pinBit x.val (setting.isOn pinState x)) setting.place
    (List.finRange IG_PIN_COUNT) 0
  have hzero : (0 : Byte) <<< setting.place = 0 := BitVec.zero_shiftLeft _
  rw [hzero] at hsum
  simp only [getSetting, masked_shifted]
  exact hsum

theorem pinBits_getLsbD : ∀ value : Byte, pinBits (fun x => value.getLsbD x) = value := by
  decide +kernel

/-! ### Setting -/

/-- The test of one bit. -/
theorem and_bit_eq_zero {value : BitVec 32} {x : ℕ} (hx : x < 32) :
    value &&& 1#32 <<< x = 0 ↔ value.getLsbD x = false := by
  have hone : BitVec.twoPow 32 x ≠ 0 := by
    intro hzero
    have hlsb := congrArg (fun b => b.getLsbD x) hzero
    simp at hlsb
    omega
  rw [← BitVec.twoPow_eq, BitVec.and_twoPow]
  cases value.getLsbD x with
  | false => simp
  | true => exact iff_of_false hone (by simp)

theorem setSetting_pin (setting : PinSetting) {pins : CString} {value : BitVec 32}
    (h : parseNumber pins = some value) (pinState : PinState) (x : Fin IG_PIN_COUNT) :
    (setSetting setting.mask pins pinState)[x] =
      if value.getLsbD x then (pinState[x].setWidth 32 ||| setting.mask).setWidth 8
      else (pinState[x].setWidth 32 &&& ~~~setting.mask).setWidth 8 := by
  have hx : x.val < 8 := x.isLt
  have hbit : value &&& 1#32 <<< x.val ≠ 0 ↔ value.getLsbD x = true := by
    rw [Ne, and_bit_eq_zero (by omega), Bool.not_eq_false]
  simp only [setSetting, h, Fin.getElem_fin, Vector.getElem_mapFinIdx, hbit]

/-- A pin behind a set: the bit of the setting is that of the value, the others stay. -/
theorem setSetting_bit (setting : PinSetting) {pins : CString} {value : BitVec 32}
    (h : parseNumber pins = some value) (pinState : PinState) (x : Fin IG_PIN_COUNT) {i : ℕ}
    (hi : i < 8) :
    ((setSetting setting.mask pins pinState)[x]).getLsbD i =
      if i = setting.place then value.getLsbD x else (pinState[x]).getLsbD i := by
  have hplace := setting.place_lt
  have hi' : i < 32 := by omega
  rw [setSetting_pin setting h, setting.mask_eq]
  cases value.getLsbD x with
  | false =>
    by_cases heq : i = setting.place
    · subst heq
      simp [hplace, hi']
    · simp [hi, hi', heq]
  | true =>
    by_cases heq : i = setting.place
    · subst heq
      simp [hplace, hi']
    · simp [hi, heq, Ne.symm heq]

theorem setSetting_isOn (setting other : PinSetting) {pins : CString} {value : BitVec 32}
    (h : parseNumber pins = some value) (pinState : PinState) (x : Fin IG_PIN_COUNT) :
    other.isOn (setSetting setting.mask pins pinState) x =
      if other = setting then value.getLsbD x else other.isOn pinState x := by
  rw [PinSetting.isOn, setSetting_bit setting h pinState x other.place_lt]
  by_cases hsame : other = setting
  · rw [if_pos hsame, if_pos (congrArg PinSetting.place hsame)]
  · rw [if_neg hsame, if_neg (fun hplace => hsame (PinSetting.place_inj hplace))]
    rfl

/-- **A get behind a set** of the same setting. -/
theorem getSetting_setSetting (setting : PinSetting) {pins : CString} {value : BitVec 32}
    (h : parseNumber pins = some value) (pinState : PinState) :
    getSetting setting.mask (setSetting setting.mask pins pinState) =
      value.setWidth 8 <<< setting.place := by
  have hon : setting.isOn (setSetting setting.mask pins pinState) =
      fun x => (value.setWidth 8).getLsbD x.val := by
    funext x
    have hx : x.val < 8 := x.isLt
    rw [setSetting_isOn setting setting h, if_pos rfl]
    simp [hx]
  rw [getSetting_eq, hon, pinBits_getLsbD]

/-- **A get behind a set** of another setting. -/
theorem getSetting_setSetting_ne {setting other : PinSetting} (hne : other ≠ setting) {pins : CString}
    {value : BitVec 32} (h : parseNumber pins = some value) (pinState : PinState) :
    getSetting other.mask (setSetting setting.mask pins pinState) = getSetting other.mask pinState := by
  have hon : other.isOn (setSetting setting.mask pins pinState) = other.isOn pinState := by
    funext x
    rw [setSetting_isOn setting other h, if_neg hne]
  rw [getSetting_eq, getSetting_eq, hon]

/-- The shift does no harm to the first setting, and to no other unless there is nothing to shift. -/
theorem shifted_eq_iff (setting : PinSetting) (value : Byte) :
    value <<< setting.place = value ↔ setting = .output ∨ value = 0 := by
  revert value
  cases setting <;> decide +kernel

/-! ### Sequences of sets -/

/-- A set with an argument that `parseNumber` accepts. -/
structure PinSet where
  setting : PinSetting
  pins : CString
  value : BitVec 32
  accepted : parseNumber pins = some value

def PinSet.apply (set : PinSet) (pinState : PinState) : PinState :=
  setSetting set.setting.mask set.pins pinState

/-- The state behind the sets. -/
def applySets (pinState : PinState) (sets : List PinSet) : PinState :=
  sets.foldl (fun pinState set => set.apply pinState) pinState

/-- The last value set for a setting. -/
def lastSet (setting : PinSetting) (sets : List PinSet) : Option (BitVec 32) :=
  ((sets.filter (fun set => set.setting = setting)).getLast?).map (·.value)

/-- Every set gets back what it sets and leaves the other settings alone, and behind all of them
each setting is the value last set for it. -/
structure SettingsGetBack (pinState : PinState) (sets : List PinSet) : Prop where
  back : Successive.All (fun before set =>
    (getSetting set.setting.mask (set.apply (applySets pinState before))).toNat =
      set.value.toNat % 256) sets
  others : Successive.All (fun before set => ∀ other ≠ set.setting,
    getSetting other.mask (set.apply (applySets pinState before)) =
      getSetting other.mask (applySets pinState before)) sets
  last : ∀ setting value, lastSet setting sets = some value →
    (getSetting setting.mask (applySets pinState sets)).toNat = value.toNat % 256

theorem PinSet.getSetting_apply (set : PinSet) (pinState : PinState) :
    (getSetting set.setting.mask (set.apply pinState)).toNat = set.value.toNat % 256 ↔
      set.setting = .output ∨ set.value.toNat % 256 = 0 := by
  have hvalue : (set.value.setWidth 8).toNat = set.value.toNat % 256 := BitVec.toNat_setWidth ..
  have hzero : set.value.setWidth 8 = 0 ↔ set.value.toNat % 256 = 0 := by
    rw [← hvalue, ← BitVec.toNat_inj]
    rfl
  rw [PinSet.apply, getSetting_setSetting set.setting set.accepted, ← hvalue, BitVec.toNat_inj,
    shifted_eq_iff, hzero, hvalue]

theorem applySets_append (pinState : PinState) (sets sets' : List PinSet) :
    applySets pinState (sets ++ sets') = applySets (applySets pinState sets) sets' :=
  List.foldl_append ..

/-- A setting that is not set stays as it is. -/
theorem getSetting_applySets_ne (setting : PinSetting) (sets : List PinSet) (pinState : PinState)
    (h : ∀ set ∈ sets, set.setting ≠ setting) :
    getSetting setting.mask (applySets pinState sets) = getSetting setting.mask pinState := by
  induction sets generalizing pinState with
  | nil => rfl
  | cons set sets ih =>
      have hrest := ih (set.apply pinState) (fun s hs => h s (List.mem_cons_of_mem _ hs))
      have hset := getSetting_setSetting_ne (Ne.symm (h set (List.mem_cons_self ..))) set.accepted
        pinState
      exact hrest.trans hset

/-- Where the last value was set. -/
theorem lastSet_split {setting : PinSetting} {value : BitVec 32} {sets : List PinSet}
    (h : lastSet setting sets = some value) :
    ∃ before set after, sets = before ++ set :: after ∧ set.setting = setting ∧ set.value = value ∧
      ∀ s ∈ after, s.setting ≠ setting := by
  obtain ⟨set, hlast, rfl⟩ := Option.map_eq_some_iff.mp h
  obtain ⟨ys, hys⟩ := List.getLast?_eq_some_iff.mp hlast
  obtain ⟨before, rest, hsplit, -, hrest⟩ := List.filter_eq_append_iff.mp hys
  obtain ⟨between, after, rfl, -, hset, hafter⟩ := List.filter_eq_cons_iff.mp hrest
  refine ⟨before ++ between, set, after, ?_, of_decide_eq_true hset, rfl, ?_⟩
  · rw [hsplit, List.append_assoc]
  · intro s hs heq
    exact List.filter_eq_nil_iff.mp hafter s hs (decide_eq_true heq)

/-- **The settings get back** what was set exactly when nothing but zeros was set for the settings
other than the first one. -/
theorem settingsGetBack_iff (pinState : PinState) (sets : List PinSet) :
    SettingsGetBack pinState sets ↔
      ∀ set ∈ sets, set.setting = .output ∨ set.value.toNat % 256 = 0 := by
  constructor
  · intro h
    exact Successive.all_const.mp
      (h.back.imp (fun before set _ hset => (set.getSetting_apply _).mp hset))
  · intro h
    have hback : Successive.All (fun before set =>
        (getSetting set.setting.mask (set.apply (applySets pinState before))).toNat =
          set.value.toNat % 256) sets :=
      (Successive.all_const.mpr h).imp (fun before set _ hset => (set.getSetting_apply _).mpr hset)
    refine ⟨hback, ?_, ?_⟩
    · intro before set after _ other hne
      exact getSetting_setSetting_ne hne set.accepted _
    · intro setting value hlast
      obtain ⟨before, set, after, hsplit, rfl, rfl, hafter⟩ := lastSet_split hlast
      rw [← hback before set after hsplit, hsplit, applySets_append, applySets, List.foldl_cons]
      exact congrArg BitVec.toNat (getSetting_applySets_ne _ after _ hafter)

/-- The pull-up of the first pin, on pins without any settings. -/
def pullupFirst : PinSet := ⟨.pullup, ascii "1", 1, by decide⟩

/-- It is read as that of the second pin. -/
theorem pullup_not_back :
    getSetting PinSetting.pullup.mask (pullupFirst.apply (Vector.replicate 8 0)) = 2 ∧
      ¬ SettingsGetBack (Vector.replicate 8 0) [pullupFirst] := by
  refine ⟨by decide, fun h => ?_⟩
  have hback := h.back [] pullupFirst [] rfl
  revert hback
  decide

end IguanaIR
