import IguanaIR.LeastUnused
import IguanaIR.Protocol
import IguanaIR.Transition
import Mathlib.Data.List.Nodup
import Mathlib.Data.List.ProdSigma
import Mathlib.Data.List.TakeWhile
import Mathlib.Data.Set.Basic

/-! # The driver's list of devices

`updateDeviceList`, `claimDevice` and `releaseDevice` of `drivers/libusb.c`.  What libusb reports
and how its calls end are given with each scan.  The driver's list is the list of its entries (the
links are those of `list.c`), in which a scan looks for the place of each device of libusb's. -/

namespace IguanaIR

/-- A device as libusb lists it: the port is the port of its hub, and only the address differs from
those of all other devices on the bus. -/
structure LibusbDevice where
  bus : Byte
  port : Byte
  address : Byte
  idVendor : BitVec 16
  idProduct : BitVec 16
deriving DecidableEq, Repr

structure UsbId where
  idVendor : BitVec 16
  idProduct : BitVec 16
deriving DecidableEq, Repr

/-- The devices that the daemon looks for. -/
def usbIds : List UsbId := [⟨0x1781, 0x0938⟩]

/-- An entry, with the device that its handle was opened for. -/
structure UsbDevice where
  device : LibusbDevice
  busIndex : Byte
  devIndex : Byte
  id : ℕ
  type : UsbId
  removed : Bool
deriving DecidableEq, Repr

/-- A round of the loop that configures the device and claims its interface. -/
inductive Attempt where
  | claimed
  /-- Was the error `EBUSY`, and did `checkInUse` unbind another driver? -/
  | failed (busy unbound : Bool)
deriving DecidableEq, Repr

/-- How the calls for one device end. -/
structure ClaimResult where
  opened : Bool
  attempts : List Attempt
  /-- Does `startWorker` start its threads, or release the device? -/
  started : Bool
deriving DecidableEq, Repr

structure DeviceList where
  entries : List UsbDevice
  ids : List UsbId
  describe : Bool
  force : Bool
deriving DecidableEq, Repr

/-- A call of `startWorker`, and the list at that time. -/
structure StartCall where
  info : UsbDevice
  entries : List UsbDevice
deriving DecidableEq, Repr

/-- The list of `prepareDeviceList` and `claimDevices`. -/
def DeviceList.prepared (ids : List UsbId) (claim force : Bool) : DeviceList :=
  ⟨[], ids, !claim, force⟩

def releaseDevice (list : DeviceList) (handle : UsbDevice) : DeviceList :=
  if handle.removed then list else { list with entries := list.entries.erase handle }

def findId (id : ℕ) (item : UsbDevice) : ℕ :=
  if ¬item.removed ∧ item.id = id then id + 1 else id

/-- The search for an id, if `fuel` rounds are enough. -/
def findIdLoop : ℕ → List UsbDevice → ℕ → Option ℕ
  | 0, _, _ => none
  | fuel + 1, entries, prev =>
      let id := entries.foldl findId prev
      if prev = id then some id else findIdLoop fuel entries id

/-- The loop that claims the interface, if it ends. -/
def claimLoop (force : Bool) : List Attempt → Option Bool
  | [] => none
  | .claimed :: _ => some true
  | .failed busy unbound :: rest =>
      if busy ∧ force ∧ unbound then claimLoop force rest else some false

/-- The new entry goes between `before` and `after`. -/
def claimDevice (result : ClaimResult) (list : DeviceList) (dev : LibusbDevice) (id : UsbId)
    (before after : List UsbDevice) : Option (DeviceList × List StartCall) := do
  let number ← findIdLoop (list.entries.length + 1) list.entries 0
  let newDev := ⟨dev, dev.bus, dev.port, number, id, false⟩
  if result.opened then
    if ← claimLoop list.force result.attempts then
      let list := { list with entries := before ++ newDev :: after }
      let calls := [⟨newDev, list.entries⟩]
      if result.started then some (list, calls) else some (releaseDevice list newDev, calls)
    else some (list, [])
  else some (list, [])

/-- Does the walk go past this entry? -/
def walksPast (dev : LibusbDevice) (devPos : UsbDevice) : Bool :=
  devPos.busIndex < dev.bus || (devPos.busIndex = dev.bus && devPos.devIndex < dev.port)

/-- A listed device against one id. -/
def examine (claims : LibusbDevice → UsbId → ClaimResult) (list : DeviceList)
    (examined : LibusbDevice × UsbId) : Option (DeviceList × List StartCall) :=
  let (dev, id) := examined
  if dev.idVendor = id.idVendor ∧ dev.idProduct = id.idProduct then
    let devPos := list.entries.dropWhile (walksPast dev)
    if ∀ e ∈ devPos.head?, e.busIndex ≠ dev.bus ∨ e.devIndex ≠ dev.port then
      if list.describe then some (list, [])
      else claimDevice (claims dev id) list dev id (list.entries.takeWhile (walksPast dev)) devPos
    else some (list, [])
  else some (list, [])

/-- All listed devices, each against all ids. -/
def updateDeviceList (claims : LibusbDevice → UsbId → ClaimResult) (usbList : List LibusbDevice)
    (list : DeviceList) : Option (DeviceList × List StartCall) :=
  (Transition.run (examine claims) list (usbList.product list.ids)).map (fun (list, calls) =>
    (list, calls.flatten))

inductive DeviceEvent where
  | updateDeviceList (usbList : List LibusbDevice) (claims : LibusbDevice → UsbId → ClaimResult)
  | releaseDevice (handle : UsbDevice)

def deviceStep (list : DeviceList) : DeviceEvent → Option (DeviceList × List StartCall)
  | .updateDeviceList usbList claims => updateDeviceList claims usbList list
  | .releaseDevice handle => some (releaseDevice list handle, [])

/-! ### The order of the entries -/

/-- Strictly before in `busIndex` and `devIndex`. -/
def UsbDevice.Before (e e' : UsbDevice) : Prop :=
  e.busIndex < e'.busIndex ∨ (e.busIndex = e'.busIndex ∧ e.devIndex < e'.devIndex)

/-- A bus and a port as one number. -/
def location (bus port : Byte) : ℕ := bus.toNat * 256 + port.toNat

theorem location_lt {b b' p p' : Byte} :
    location b p < location b' p' ↔ b < b' ∨ (b = b' ∧ p < p') := by
  unfold location
  have hp := p.isLt
  have hp' := p'.isLt
  rw [BitVec.lt_def, BitVec.lt_def, ← BitVec.toNat_inj]
  omega

theorem location_inj {b b' p p' : Byte} :
    location b p = location b' p' ↔ b = b' ∧ p = p' := by
  unfold location
  have hp := p.isLt
  have hp' := p'.isLt
  rw [← BitVec.toNat_inj, ← BitVec.toNat_inj]
  omega

theorem location_small (b p : Byte) : location b p < 65536 := by
  unfold location
  have hb := b.isLt
  have hp := p.isLt
  omega

def UsbDevice.location (e : UsbDevice) : ℕ := IguanaIR.location e.busIndex e.devIndex

def LibusbDevice.location (dev : LibusbDevice) : ℕ := IguanaIR.location dev.bus dev.port

theorem before_iff {e e' : UsbDevice} : e.Before e' ↔ e.location < e'.location :=
  location_lt.symm

theorem walksPast_iff {dev : LibusbDevice} {e : UsbDevice} :
    walksPast dev e = true ↔ e.location < dev.location := by
  rw [UsbDevice.location, LibusbDevice.location, location_lt]
  simp [walksPast]

theorem locations_nodup {entries : List UsbDevice} (h : entries.Pairwise UsbDevice.Before) :
    (entries.map UsbDevice.location).Nodup := by
  apply List.Pairwise.map _ _ h
  intro e e' hbefore
  exact Nat.ne_of_lt (before_iff.mp hbefore)

/-- There are no more entries than locations. -/
theorem length_le_of_sorted {entries : List UsbDevice} (h : entries.Pairwise UsbDevice.Before) :
    entries.length ≤ 65536 := by
  have hsub : entries.map UsbDevice.location ⊆ List.range (65536) := by
    intro n hn
    obtain ⟨e, -, rfl⟩ := List.mem_map.mp hn
    exact List.mem_range.mpr (location_small _ _)
  have hlength := ((locations_nodup h).subperm hsub).length_le
  rwa [List.length_map, List.length_range] at hlength

/-- The invariant of the driver's list. -/
structure InOrder (list : DeviceList) : Prop where
  sorted : list.entries.Pairwise UsbDevice.Before
  distinct : (list.entries.map UsbDevice.id).Nodup
  /-- Numbers of an `unsigned int`, in particular. -/
  small : ∀ e ∈ list.entries, e.id < 65536
  present : ∀ e ∈ list.entries, e.removed = false
  located : ∀ e ∈ list.entries, e.busIndex = e.device.bus ∧ e.devIndex = e.device.port

namespace InOrder

variable {list : DeviceList}

theorem prepared (ids : List UsbId) (claim force : Bool) :
    InOrder (.prepared ids claim force) where
  sorted := List.Pairwise.nil
  distinct := List.nodup_nil
  small := nofun
  present := nofun
  located := nofun

theorem release (h : InOrder list) (handle : UsbDevice) : InOrder (releaseDevice list handle) := by
  unfold releaseDevice
  split_ifs
  · exact h
  · have hsub : (list.entries.erase handle).Sublist list.entries := List.erase_sublist
    exact ⟨h.sorted.sublist hsub, h.distinct.sublist (hsub.map _),
      fun e he => h.small e (hsub.subset he), fun e he => h.present e (hsub.subset he),
      fun e he => h.located e (hsub.subset he)⟩

end InOrder

/-! ### The id of a new entry -/

theorem foldl_findId {entries : List UsbDevice} (h : ∀ e ∈ entries, e.removed = false) (id : ℕ) :
    entries.foldl findId id = LeastUnused.pass (entries.map UsbDevice.id) id := by
  induction entries generalizing id with
  | nil => rfl
  | cons e entries ih =>
      have hfirst : findId id e = LeastUnused.next id e.id := by
        simp [findId, LeastUnused.next, h e (List.mem_cons_self ..)]
      rw [List.foldl_cons, hfirst, ih (fun e' he' => h e' (List.mem_cons_of_mem _ he'))]
      rfl

theorem findIdLoop_eq {entries : List UsbDevice} (h : ∀ e ∈ entries, e.removed = false)
    (fuel id : ℕ) :
    findIdLoop fuel entries id =
      LeastUnused.searchLoop fuel (entries.map UsbDevice.id) id := by
  induction fuel generalizing id with
  | zero => rfl
  | succ fuel ih =>
      rw [findIdLoop, LeastUnused.searchLoop, foldl_findId h, ih]
      by_cases hpass : LeastUnused.pass (entries.map UsbDevice.id) id = id
      · rw [if_pos hpass, if_pos hpass.symm, hpass]
      · rw [if_neg hpass, if_neg (Ne.symm hpass)]

/-- The loop ends, and finds the least id that no entry has. -/
theorem findIdLoop_spec {list : DeviceList} (h : InOrder list) :
    ∃ id, findIdLoop (list.entries.length + 1) list.entries 0 = some id ∧
      IsLeast {n | n ∉ list.entries.map UsbDevice.id} id := by
  have hsearch := LeastUnused.search_spec (list.entries.map UsbDevice.id)
  rw [List.length_map] at hsearch
  rw [findIdLoop_eq h.present]
  exact hsearch

/-! ### A new entry -/

/-- A new entry for `dev` between the two parts of the list. -/
structure Fits (list : DeviceList) (dev : LibusbDevice) (before after : List UsbDevice)
    (newDev : UsbDevice) : Prop where
  split : list.entries = before ++ after
  device : newDev.device = dev
  bus : newDev.busIndex = dev.bus
  port : newDev.devIndex = dev.port
  removed : newDev.removed = false
  least : IsLeast {n | n ∉ list.entries.map UsbDevice.id} newDev.id
  behind : ∀ e ∈ before, e.Before newDev
  ahead : ∀ e ∈ after, newDev.Before e

/-- No entry has the location of `dev`. -/
def Vacant (list : DeviceList) (dev : LibusbDevice) : Prop :=
  ∀ e ∈ list.entries, e.location ≠ dev.location

/-- The list with the new entry. -/
def DeviceList.insert (list : DeviceList) (before after : List UsbDevice) (newDev : UsbDevice) :
    DeviceList := { list with entries := before ++ newDev :: after }

namespace Fits

variable {list : DeviceList} {dev : LibusbDevice} {before after : List UsbDevice}
  {newDev : UsbDevice}

theorem notMem (h : Fits list dev before after newDev) : newDev ∉ before ++ after := by
  intro hmem
  rw [← h.split] at hmem
  exact h.least.1 (List.mem_map_of_mem hmem)

/-- Who gives up the new entry has the old list again. -/
theorem release (h : Fits list dev before after newDev) :
    releaseDevice (list.insert before after newDev) newDev = list := by
  have hbefore : newDev ∉ before := fun hmem => h.notMem (List.mem_append_left _ hmem)
  rw [releaseDevice, h.removed, if_neg Bool.false_ne_true, DeviceList.insert,
    List.erase_append_right _ hbefore, List.erase_cons_head, ← h.split]

theorem inOrder (h : Fits list dev before after newDev) (hlist : InOrder list) :
    InOrder (list.insert before after newDev) := by
  have hmem : ∀ e ∈ before ++ newDev :: after, e = newDev ∨ e ∈ list.entries := by
    intro e he
    rw [h.split]
    simp only [List.mem_append, List.mem_cons] at he ⊢
    tauto
  have hsorted : (before ++ newDev :: after).Pairwise UsbDevice.Before := by
    have hold := hlist.sorted
    rw [h.split, List.pairwise_append] at hold
    obtain ⟨hbefore, hafter, hacross⟩ := hold
    rw [List.pairwise_append, List.pairwise_cons]
    refine ⟨hbefore, ⟨h.ahead, hafter⟩, ?_⟩
    intro e he e' he'
    cases List.mem_cons.mp he' with
    | inl heq =>
        rw [heq]
        exact h.behind e he
    | inr hrest => exact hacross e he e' hrest
  have hdistinct : ((before ++ newDev :: after).map UsbDevice.id).Nodup := by
    rw [List.map_append, List.map_cons, List.nodup_middle, List.nodup_cons, ← List.map_append,
      ← h.split]
    exact ⟨h.least.1, hlist.distinct⟩
  have hremoved : ∀ e ∈ before ++ newDev :: after, e.removed = false := by
    intro e he
    obtain rfl | hold := hmem e he
    · exact h.removed
    · exact hlist.present e hold
  refine ⟨hsorted, hdistinct, ?_, hremoved, ?_⟩
  · have hlength := length_le_of_sorted hsorted
    have hleast := LeastUnused.le_length_of_isLeast h.least
    rw [List.length_map, h.split, List.length_append] at hleast
    rw [List.length_append, List.length_cons] at hlength
    intro e he
    obtain rfl | hold := hmem e he
    · omega
    · exact hlist.small e hold
  · intro e he
    obtain rfl | hold := hmem e he
    · rw [h.device]
      exact ⟨h.bus, h.port⟩
    · exact hlist.located e hold

end Fits

/-! ### The walk -/

/-- The walk has gone past all entries that are before the device. -/
theorem location_le_walk {dev : LibusbDevice} {entries : List UsbDevice}
    (h : entries.Pairwise UsbDevice.Before) :
    ∀ e ∈ entries.dropWhile (walksPast dev), dev.location ≤ e.location := by
  induction entries with
  | nil => exact nofun
  | cons e entries ih =>
      obtain ⟨hfirst, hrest⟩ := List.pairwise_cons.mp h
      by_cases hpast : walksPast dev e = true
      · rw [List.dropWhile_cons_of_pos hpast]
        exact ih hrest
      · rw [List.dropWhile_cons_of_neg hpast]
        have hle : dev.location ≤ e.location := Nat.le_of_not_lt (mt walksPast_iff.mpr hpast)
        intro e' he'
        cases List.mem_cons.mp he' with
        | inl heq =>
            rw [heq]
            exact hle
        | inr hbehind => exact Nat.le_trans hle (Nat.le_of_lt (before_iff.mp (hfirst e' hbehind)))

theorem walk_lt_location {dev : LibusbDevice} {entries : List UsbDevice} :
    ∀ e ∈ entries.takeWhile (walksPast dev), e.location < dev.location :=
  fun _ he => walksPast_iff.mp (List.mem_takeWhile_imp he)

/-- The entry at which the walk stops is the only one that can have the location. -/
theorem vacant_iff {list : DeviceList} {dev : LibusbDevice}
    (h : list.entries.Pairwise UsbDevice.Before) :
    (∀ e ∈ (list.entries.dropWhile (walksPast dev)).head?,
      e.busIndex ≠ dev.bus ∨ e.devIndex ≠ dev.port) ↔ Vacant list dev := by
  have hsplit : list.entries = list.entries.takeWhile (walksPast dev) ++
      list.entries.dropWhile (walksPast dev) := List.takeWhile_append_dropWhile.symm
  have hne : ∀ e : UsbDevice, e.location ≠ dev.location ↔
      e.busIndex ≠ dev.bus ∨ e.devIndex ≠ dev.port := by
    intro e
    rw [ne_eq, UsbDevice.location, LibusbDevice.location, location_inj, not_and_or]
  have hwalk : ∀ e ∈ list.entries.dropWhile (walksPast dev), dev.location ≤ e.location :=
    location_le_walk h
  have hsorted := h.sublist (List.dropWhile_sublist (walksPast dev))
  constructor
  · intro hhead e he
    rw [hsplit] at he
    cases List.mem_append.mp he with
    | inl hbehind => exact Nat.ne_of_lt (walk_lt_location e hbehind)
    | inr hahead =>
        cases hdrop : list.entries.dropWhile (walksPast dev) with
        | nil =>
            rw [hdrop] at hahead
            cases hahead
        | cons first rest =>
            rw [hdrop] at hhead hahead hwalk hsorted
            have hfirst := (hne first).mpr (hhead first rfl)
            cases List.mem_cons.mp hahead with
            | inl heq =>
                rw [heq]
                exact hfirst
            | inr hrest =>
                have hle := hwalk first (List.mem_cons_self ..)
                have hlt := before_iff.mp (List.rel_of_pairwise_cons hsorted hrest)
                omega
  · intro hvacant e he
    have hmem : e ∈ list.entries :=
      (List.dropWhile_sublist (walksPast dev)).subset (List.mem_of_head? he)
    exact (hne e).mp (hvacant e hmem)

/-- The walk stops where an entry for a vacant location fits. -/
theorem fits_walk {list : DeviceList} {dev : LibusbDevice} (id : UsbId) {number : ℕ}
    (hlist : InOrder list) (hvacant : Vacant list dev)
    (hleast : IsLeast {n | n ∉ list.entries.map UsbDevice.id} number) :
    Fits list dev (list.entries.takeWhile (walksPast dev))
      (list.entries.dropWhile (walksPast dev)) ⟨dev, dev.bus, dev.port, number, id, false⟩ where
  split := List.takeWhile_append_dropWhile.symm
  device := rfl
  bus := rfl
  port := rfl
  removed := rfl
  least := hleast
  behind := fun e he => before_iff.mpr (walk_lt_location e he)
  ahead := by
    intro e he
    have hle := location_le_walk hlist.sorted e he
    have hne := hvacant e ((List.dropWhile_sublist (walksPast dev)).subset he)
    exact before_iff.mpr (Nat.lt_of_le_of_ne hle (Ne.symm hne))

/-- Is the device claimed, if the calls come to an end? -/
def ClaimResult.claimed (result : ClaimResult) (force : Bool) : Option Bool :=
  if result.opened then claimLoop force result.attempts else some false

/-- The list behind the call of `startWorker`, which releases the device when it fails. -/
def ClaimResult.kept (result : ClaimResult) (list : DeviceList) (before after : List UsbDevice)
    (newDev : UsbDevice) : DeviceList :=
  if result.started then list.insert before after newDev else list

/-- **A device is claimed** when its calls succeed: then there is a new entry, which goes again if
its worker does not start. -/
theorem claimDevice_spec (result : ClaimResult) {list : DeviceList} {dev : LibusbDevice}
    (id : UsbId) (hlist : InOrder list) (hvacant : Vacant list dev) :
    ∃ before after newDev, Fits list dev before after newDev ∧
      claimDevice result list dev id (list.entries.takeWhile (walksPast dev))
          (list.entries.dropWhile (walksPast dev)) =
        (result.claimed list.force).map (fun claimed =>
          if claimed then (result.kept list before after newDev,
            [⟨newDev, before ++ newDev :: after⟩])
          else (list, [])) := by
  obtain ⟨number, hnumber, hleast⟩ := findIdLoop_spec hlist
  have hfits := fits_walk id hlist hvacant hleast
  refine ⟨_, _, _, hfits, ?_⟩
  have hrelease := hfits.release
  rw [claimDevice, hnumber, Option.bind_eq_bind, Option.bind_some, ClaimResult.claimed]
  cases result.opened with
  | false => rfl
  | true =>
      rw [if_pos rfl, if_pos rfl]
      cases claimLoop list.force result.attempts with
      | none => rfl
      | some claimed =>
          cases claimed with
          | false => rfl
          | true =>
              rw [ClaimResult.kept]
              cases result.started with
              | true => rfl
              | false =>
                  rw [DeviceList.insert] at hrelease
                  simp [hrelease]

/-! ### A scan -/

/-- Does the scan look at the entry's place for this id? -/
def Matches (dev : LibusbDevice) (id : UsbId) : Prop :=
  dev.idVendor = id.idVendor ∧ dev.idProduct = id.idProduct

instance : DecidableRel Matches := fun _ _ => inferInstanceAs (Decidable (_ ∧ _))

section Examine

variable {claims : LibusbDevice → UsbId → ClaimResult} {list list' : DeviceList}
  {calls : List StartCall} {dev : LibusbDevice} {id : UsbId}

theorem examine_skips (hlist : InOrder list)
    (h : ¬(Matches dev id ∧ Vacant list dev ∧ list.describe = false)) :
    examine claims list (dev, id) = some (list, []) := by
  simp only [examine]
  split_ifs with hmatches hhead hdescribe
  · rfl
  · exact absurd ⟨hmatches, (vacant_iff hlist.sorted).mp hhead, Bool.eq_false_iff.mpr hdescribe⟩ h
  · rfl
  · rfl

theorem examine_claims (hlist : InOrder list) (hmatches : Matches dev id)
    (hvacant : Vacant list dev) (hdescribe : list.describe = false) :
    examine claims list (dev, id) = claimDevice (claims dev id) list dev id
      (list.entries.takeWhile (walksPast dev)) (list.entries.dropWhile (walksPast dev)) := by
  simp only [examine]
  have hids : dev.idVendor = id.idVendor ∧ dev.idProduct = id.idProduct := hmatches
  rw [if_pos hids, if_pos ((vacant_iff hlist.sorted).mpr hvacant), hdescribe,
    if_neg Bool.false_ne_true]

/-- The id is the least that no other entry has. -/
def StartCall.Least (c : StartCall) : Prop :=
  IsLeast {n | ∀ e ∈ c.entries, e ≠ c.info → e.id ≠ n} c.info.id

theorem Fits.least_call {before after : List UsbDevice} {newDev : UsbDevice}
    (h : Fits list dev before after newDev) :
    StartCall.Least ⟨newDev, before ++ newDev :: after⟩ := by
  have hset : {n | ∀ e ∈ before ++ newDev :: after, e ≠ newDev → e.id ≠ n} =
      {n | n ∉ list.entries.map UsbDevice.id} := by
    ext n
    simp only [Set.mem_ofPred_eq, h.split, List.mem_map, not_exists, not_and]
    constructor
    · intro hn e he
      have hne : e ≠ newDev := fun heq => h.notMem (heq ▸ he)
      apply hn e _ hne
      simp only [List.mem_append, List.mem_cons] at he ⊢
      tauto
    · intro hn e he hne
      apply hn
      simp only [List.mem_append, List.mem_cons] at he ⊢
      tauto
  unfold StartCall.Least
  rw [hset]
  exact h.least

/-- What part of a scan does to the list: new entries are those that were started. -/
structure Scanned (list list' : DeviceList) (calls : List StartCall) : Prop where
  inOrder : InOrder list'
  ids : list'.ids = list.ids
  describe : list'.describe = list.describe
  force : list'.force = list.force
  least : ∀ c ∈ calls, c.Least
  entries : ∀ e ∈ list'.entries, e ∈ list.entries ∨ ∃ c ∈ calls, c.info = e

namespace Scanned

theorem refl (h : InOrder list) : Scanned list list [] :=
  ⟨h, rfl, rfl, rfl, nofun, fun _ he => .inl he⟩

theorem trans {list'' : DeviceList} {calls' : List StartCall} (h : Scanned list list' calls)
    (h' : Scanned list' list'' calls') : Scanned list list'' (calls ++ calls') where
  inOrder := h'.inOrder
  ids := h'.ids.trans h.ids
  describe := h'.describe.trans h.describe
  force := h'.force.trans h.force
  least := by
    intro c hc
    cases List.mem_append.mp hc with
    | inl hfirst => exact h.least c hfirst
    | inr hsecond => exact h'.least c hsecond
  entries := by
    intro e he
    obtain hmiddle | ⟨c, hc, heq⟩ := h'.entries e he
    · obtain hold | ⟨c, hc, heq⟩ := h.entries e hmiddle
      · exact .inl hold
      · exact .inr ⟨c, List.mem_append_left _ hc, heq⟩
    · exact .inr ⟨c, List.mem_append_right _ hc, heq⟩

theorem release (h : InOrder list) (handle : UsbDevice) :
    Scanned list (releaseDevice list handle) [] := by
  refine ⟨h.release handle, ?_, ?_, ?_, nofun, ?_⟩
  all_goals unfold releaseDevice
  · split_ifs <;> rfl
  · split_ifs <;> rfl
  · split_ifs <;> rfl
  · intro e he
    split_ifs at he
    · exact .inl he
    · exact .inl (List.mem_of_mem_erase he)

end Scanned

/-- A call of `startWorker`, and what it leaves behind. -/
theorem Fits.scanned {result : ClaimResult} {before after : List UsbDevice} {newDev : UsbDevice}
    (h : Fits list dev before after newDev) (hlist : InOrder list) :
    Scanned list (result.kept list before after newDev) [⟨newDev, before ++ newDev :: after⟩] := by
  have hleast : ∀ c ∈ [(⟨newDev, before ++ newDev :: after⟩ : StartCall)], c.Least := by
    intro c hc
    rw [List.mem_singleton.mp hc]
    exact h.least_call
  unfold ClaimResult.kept
  cases result.started with
  | false => exact ⟨hlist, rfl, rfl, rfl, hleast, fun _ he => .inl he⟩
  | true =>
      refine ⟨h.inOrder hlist, rfl, rfl, rfl, hleast, ?_⟩
      intro e he
      simp only [if_true, DeviceList.insert, List.mem_append, List.mem_cons] at he
      rw [h.split, List.mem_append]
      obtain hbefore | rfl | hafter := he
      · exact .inl (.inl hbefore)
      · exact .inr ⟨_, List.mem_singleton_self _, rfl⟩
      · exact .inl (.inr hafter)

/-- **One device**: nothing changes, or there is a call for a new entry that fits. -/
theorem examine_cases (hlist : InOrder list)
    (h : examine claims list (dev, id) = some (list', calls)) :
    (list' = list ∧ calls = []) ∨ ∃ before after newDev, Fits list dev before after newDev ∧
      list' = (claims dev id).kept list before after newDev ∧
      calls = [⟨newDev, before ++ newDev :: after⟩] := by
  by_cases hclaims : Matches dev id ∧ Vacant list dev ∧ list.describe = false
  · obtain ⟨hmatches, hvacant, hdescribe⟩ := hclaims
    obtain ⟨before, after, newDev, hfits, hclaim⟩ := claimDevice_spec (claims dev id) id hlist
      hvacant
    rw [examine_claims hlist hmatches hvacant hdescribe, hclaim] at h
    obtain ⟨claimed, -, hresult⟩ := Option.map_eq_some_iff.mp h
    cases claimed with
    | false =>
        obtain ⟨rfl, rfl⟩ := Prod.mk.inj hresult
        exact .inl ⟨rfl, rfl⟩
    | true =>
        obtain ⟨rfl, rfl⟩ := Prod.mk.inj hresult
        exact .inr ⟨before, after, newDev, hfits, rfl, rfl⟩
  · rw [examine_skips hlist hclaims] at h
    obtain ⟨rfl, rfl⟩ := Prod.mk.inj (Option.some.inj h)
    exact .inl ⟨rfl, rfl⟩

theorem examine_scanned (hlist : InOrder list)
    (h : examine claims list (dev, id) = some (list', calls)) : Scanned list list' calls := by
  obtain ⟨rfl, rfl⟩ | ⟨before, after, newDev, hfits, rfl, rfl⟩ := examine_cases hlist h
  · exact .refl hlist
  · exact hfits.scanned hlist

/-- What the steps do, the run does. -/
theorem run_scanned {ε : Type} {step : DeviceList → ε → Option (DeviceList × List StartCall)}
    (hstep : ∀ list e list' calls, InOrder list → step list e = some (list', calls) →
      Scanned list list' calls) {es : List ε} {os : List (List StartCall)} (hlist : InOrder list)
    (hrun : Transition.run step list es = some (list', os)) : Scanned list list' os.flatten := by
  induction es generalizing list os with
  | nil =>
      obtain ⟨rfl, rfl⟩ := Prod.mk.inj (Option.some.inj hrun)
      exact .refl hlist
  | cons e es ih =>
      obtain ⟨list₁, calls, os, hfirst, hrest, rfl⟩ := Transition.run_cons hrun
      have hscanned := hstep list e list₁ calls hlist hfirst
      exact hscanned.trans (ih hscanned.inOrder hrest)

theorem updateDeviceList_scanned {usbList : List LibusbDevice} (hlist : InOrder list)
    (h : updateDeviceList claims usbList list = some (list', calls)) :
    Scanned list list' calls := by
  obtain ⟨⟨list₁, os⟩, hrun, hresult⟩ := Option.map_eq_some_iff.mp h
  obtain ⟨rfl, rfl⟩ := Prod.mk.inj hresult
  exact run_scanned (fun _ _ _ _ => examine_scanned) hlist hrun

theorem deviceStep_scanned {event : DeviceEvent} (hlist : InOrder list)
    (h : deviceStep list event = some (list', calls)) : Scanned list list' calls := by
  cases event with
  | updateDeviceList usbList claims => exact updateDeviceList_scanned hlist h
  | releaseDevice handle =>
      obtain ⟨rfl, rfl⟩ := Prod.mk.inj (Option.some.inj h)
      exact .release hlist handle

/-- A scan comes to an end when the calls for each of its devices do. -/
theorem scan_ends {pairs : List (LibusbDevice × UsbId)} (hlist : InOrder list)
    (hends : ∀ p ∈ pairs, ((claims p.1 p.2).claimed list.force).isSome) :
    (Transition.run (examine claims) list pairs).isSome := by
  induction pairs generalizing list with
  | nil => rfl
  | cons pair pairs ih =>
      obtain ⟨dev, id⟩ := pair
      have hdefined : ∃ r, examine claims list (dev, id) = some r := by
        by_cases hclaims : Matches dev id ∧ Vacant list dev ∧ list.describe = false
        · obtain ⟨hmatches, hvacant, hdescribe⟩ := hclaims
          obtain ⟨before, after, newDev, -, hclaim⟩ := claimDevice_spec (claims dev id) id hlist
            hvacant
          obtain ⟨claimed, hclaimed⟩ := Option.isSome_iff_exists.mp
            (hends _ (List.mem_cons_self ..))
          rw [examine_claims hlist hmatches hvacant hdescribe, hclaim, hclaimed]
          exact ⟨_, rfl⟩
        · exact ⟨_, examine_skips hlist hclaims⟩
      obtain ⟨⟨list₁, calls₁⟩, hfirst⟩ := hdefined
      have hscanned := examine_scanned hlist hfirst
      have hrest := ih hscanned.inOrder (by
        intro p hp
        rw [hscanned.force]
        exact hends p (List.mem_cons_of_mem _ hp))
      obtain ⟨r, hr⟩ := Option.isSome_iff_exists.mp hrest
      simp [Transition.run, hfirst, hr]

end Examine

/-- **The driver's list** after any scans and releases is strictly increasing, and its ids are
distinct.  Every entry was started, with the least id that no other entry had, and the search for an
id never keeps a scan from coming to an end. -/
theorem device_list_in_order {ids : List UsbId} {claim force : Bool} {es : List DeviceEvent}
    {list : DeviceList} {os : List (List StartCall)}
    (hrun : Transition.run deviceStep (.prepared ids claim force) es = some (list, os)) :
    list.entries.Pairwise UsbDevice.Before ∧ (list.entries.map UsbDevice.id).Nodup ∧
      (∀ e ∈ list.entries, e.id < 65536) ∧ (∀ c ∈ os.flatten, c.Least) ∧
      (∀ e ∈ list.entries, ∃ c ∈ os.flatten, c.info = e) ∧
      ∀ usbList claims,
        (∀ dev ∈ usbList, ∀ id ∈ ids, ((claims dev id : ClaimResult).claimed force).isSome) →
        (updateDeviceList claims usbList list).isSome := by
  have hscanned := run_scanned (fun _ _ _ _ => deviceStep_scanned) (.prepared ids claim force) hrun
  have hlist := hscanned.inOrder
  refine ⟨hlist.sorted, hlist.distinct, hlist.small, hscanned.least, ?_, ?_⟩
  · intro e he
    obtain hnone | hcall := hscanned.entries e he
    · cases hnone
    · exact hcall
  · intro usbList claims hends
    rw [updateDeviceList, Option.isSome_map]
    apply scan_ends hlist
    intro p hp
    rw [hscanned.ids] at hp
    obtain ⟨hdev, hid⟩ := List.mem_product.mp hp
    rw [hscanned.force]
    exact hends p.1 hdev p.2 hid

/-- Every call succeeds. -/
def claimsAll : LibusbDevice → UsbId → ClaimResult := fun _ _ => ⟨true, [.claimed], true⟩

/-- A transceiver at a port of bus 1. -/
def transceiver (port address : Byte) : LibusbDevice := ⟨1, port, address, 0x1781, 0x0938⟩

/-- Two devices, the first of which goes before a third comes. -/
def replugged : List DeviceEvent :=
  [.updateDeviceList [transceiver 4 5, transceiver 2 6] claimsAll,
    .releaseDevice ⟨transceiver 4 5, 1, 4, 0, ⟨0x1781, 0x0938⟩, false⟩,
    .updateDeviceList [transceiver 2 6, transceiver 3 7] claimsAll]

/-- The third device has the id of the first. -/
theorem device_list_in_order_replug : ∃ list os,
    Transition.run deviceStep (.prepared usbIds true false) replugged = some (list, os) ∧
    list.entries.map (fun e => (e.devIndex, e.id)) = [(2, 1), (3, 0)] ∧
    list.entries.Pairwise UsbDevice.Before ∧ (list.entries.map UsbDevice.id).Nodup ∧
      (∀ e ∈ list.entries, e.id < 65536) ∧ (∀ c ∈ os.flatten, c.Least) ∧
      (∀ e ∈ list.entries, ∃ c ∈ os.flatten, c.info = e) ∧
      ∀ usbList claims,
        (∀ dev ∈ usbList, ∀ id ∈ usbIds, ((claims dev id : ClaimResult).claimed false).isSome) →
        (updateDeviceList claims usbList list).isSome := by
  have hend : (Transition.run deviceStep (.prepared usbIds true false) replugged).map
      (fun r => r.1.entries.map (fun e => (e.devIndex, e.id))) = some [(2, 1), (3, 0)] := by decide
  obtain ⟨⟨list, os⟩, hrun, hentries⟩ := Option.map_eq_some_iff.mp hend
  exact ⟨list, os, hrun, hentries, device_list_in_order hrun⟩

end IguanaIR
