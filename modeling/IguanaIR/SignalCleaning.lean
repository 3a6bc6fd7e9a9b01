import IguanaIR.Binary64
import IguanaIR.ExceptFold
import Mathlib.Data.List.AList
import Mathlib.Data.List.Sort

/-! # Cleaning a signal

`cleanSignals` of `mode2-translator`: the lengths of a signal are counted, the peaks of the counts
are found, peaks that are close to each other are merged, and every length that is close to its
nearest peak is replaced by the median of the lengths that have this peak.

A dictionary is an association list without double keys, and the order in which a loop over a
dictionary finds its keys is a parameter.  An exception ends the function.  A length is an integer
of any size; its conversion to a `float` raises `OverflowError` from `floatOverflow` on. -/

namespace IguanaIR

/-! ### Python -/

inductive PyError where
  | typeError
  | keyError
  | indexError
  | valueError
  | overflowError
  | zeroDivisionError
deriving DecidableEq, Repr

abbrev Dict (α : Type) : Type := AList (fun _ : ℕ => α)

/-- `d[key]` -/
def Dict.index {α : Type} (d : Dict α) (key : ℕ) : Except PyError α :=
  match d.lookup key with
  | some v => .ok v
  | none => .error .keyError

/-- From here on the nearest `float` is out of range. -/
@[irreducible] def floatOverflow : ℕ := 2 ^ 1024 - 2 ^ 970

/-- `float(n)` -/
def toFloat (n : ℕ) : Except PyError ℚ :=
  if n < floatOverflow then .ok (Binary64.nearest n) else .error .overflowError

/-- `|a - b|` -/
def absDiff (a b : ℕ) : ℕ := (a - b) + (b - a)

/-- `float(abs(a - b)) / (a + b) < 0.1`; a quotient too small for `nearest` is less in any case. -/
def closeEnough (a : ℕ) : Option ℕ → Except PyError Bool
  | none => .error .typeError
  | some b => do
      let difference ← toFloat (absDiff a b)
      let sum ← toFloat (a + b)
      if a + b = 0 then .error .zeroDivisionError
      else .ok (decide (Binary64.nearest (difference / sum) < Binary64.nearest (1 / 10)))

/-! ### The histogram -/

/-- Count one length. -/
def countLength (bins : Dict ℕ) (length : ℕ) : Dict ℕ :=
  let bins := if length ∈ bins then bins else bins.insert length 0
  bins.insert length ((bins.lookup length).getD 0 + 1)

/-- Count the occurrences of each length. -/
def countLengths (lengths : List ℕ) : Dict ℕ := lengths.foldl countLength ∅

/-- `sorted(bins)` -/
def sortedKeys (bins : Dict ℕ) : List ℕ := bins.keys.insertionSort (· ≤ ·)

structure PeakScan where
  peaks : List ℕ
  prevLen : Option ℕ
  rising : Bool

/-- One length of the scan for peaks. -/
def scanLength (bins : Dict ℕ) (s : PeakScan) (length : ℕ) : Except PyError PeakScan :=
  match s.prevLen with
  | none => .ok { s with prevLen := some length }
  | some prevLen => do
      let count ← bins.index length
      let prevCount ← bins.index prevLen
      if s.rising then
        if count < prevCount then .ok ⟨s.peaks ++ [prevLen], some length, false⟩
        else .ok { s with prevLen := some length }
      else if prevCount < count then .ok ⟨s.peaks, some length, true⟩
      else .ok { s with prevLen := some length }

/-- Find peaks in the histogram. -/
def findPeaks (bins : Dict ℕ) : Except PyError (List ℕ) := do
  let s ← (sortedKeys bins).foldlM (scanLength bins) ⟨[], none, true⟩
  .ok s.peaks

/-! ### Merging -/

/-- The peak that a pass over the peaks discards, the less common one of the first two that are
too close together. -/
def tooClose (bins : Dict ℕ) (prevPeak : ℕ) : List ℕ → Except PyError (Option ℕ)
  | [] => .ok none
  | peak :: rest => do
      if ← closeEnough peak (some prevPeak) then
        let count ← bins.index peak
        let prevCount ← bins.index prevPeak
        .ok (some (if count < prevCount then peak else prevPeak))
      else tooClose bins peak rest

/-- One pass over the peaks. -/
def mergePass (bins : Dict ℕ) : List ℕ → Except PyError (Option ℕ)
  | [] => .ok none
  | peak :: rest => tooClose bins peak rest

/-- The loop ends with the first pass that discards none. -/
def mergePeaks (bins : Dict ℕ) (peaks : List ℕ) : Except PyError (List ℕ) :=
  match mergePass bins peaks with
  | .error e => .error e
  | .ok none => .ok peaks
  | .ok (some peak) =>
      if _h : peak ∈ peaks then mergePeaks bins (peaks.erase peak) else .error .valueError
termination_by peaks.length
decreasing_by
  have := List.length_pos_of_mem _h
  rw [List.length_erase_of_mem _h]
  omega

/-- The first passes of the loop; nothing while it goes on. -/
def mergePasses (bins : Dict ℕ) : ℕ → List ℕ → Option (Except PyError (List ℕ))
  | 0, _ => none
  | n + 1, peaks =>
      match mergePass bins peaks with
      | .error e => some (.error e)
      | .ok none => some (.ok peaks)
      | .ok (some peak) =>
          if peak ∈ peaks then mergePasses bins n (peaks.erase peak)
          else some (.error .valueError)

/-- **The loop ends** after as many passes as there are peaks, and one. -/
theorem mergePasses_ends (bins : Dict ℕ) (peaks : List ℕ) :
    mergePasses bins (peaks.length + 1) peaks = some (mergePeaks bins peaks) := by
  induction hn : peaks.length generalizing peaks with
  | zero =>
      obtain rfl := List.length_eq_zero_iff.mp hn
      rw [mergePeaks]
      rfl
  | succ n ih =>
      rw [mergePasses, mergePeaks]
      cases mergePass bins peaks with
      | error e => rfl
      | ok discarded =>
          cases discarded with
          | none => rfl
          | some peak =>
              dsimp only
              by_cases hmem : peak ∈ peaks
              · rw [if_pos hmem, dif_pos hmem]
                apply ih
                rw [List.length_erase_of_mem hmem, hn, Nat.add_sub_cancel]
              · rw [if_neg hmem, dif_neg hmem]

/-! ### Replacing -/

/-- One peak of the search for the closest one. -/
def closer (length : ℕ) (closest : Option ℕ) (peak : ℕ) : Option ℕ :=
  match closest with
  | none => some peak
  | some c => if absDiff peak length < absDiff c length then some peak else some c

def closestPeak (peaks : List ℕ) (length : ℕ) : Option ℕ := peaks.foldl (closer length) none

/-- Enter one length under its peak. -/
def mapLength (peaks : List ℕ) (map : Dict (List ℕ)) (length : ℕ) :
    Except PyError (Dict (List ℕ)) := do
  let closest := closestPeak peaks length
  if ← closeEnough length closest then
    match closest with
    | none => .ok map
    | some peak => .ok (map.insert peak ((map.lookup peak).getD [] ++ [length]))
  else .ok map

/-- What lengths will end up replaced by what peaks. -/
def mapLengths (bins : Dict ℕ) (peaks : List ℕ) : Except PyError (Dict (List ℕ)) :=
  (sortedKeys bins).foldlM (mapLength peaks) ∅

/-- The lengths of a peak, each as often as it occurs. -/
def medianList (bins : Dict ℕ) (group : List ℕ) : Except PyError (List ℕ) :=
  group.foldlM (fun medianList length => do
    let count ← bins.index length
    .ok (medianList ++ List.replicate count length)) []

def median (bins : Dict ℕ) (group : List ℕ) : Except PyError ℕ := do
  let list ← medianList bins group
  match list[list.length / 2]? with
  | some length => .ok length
  | none => .error .indexError

/-- Replace the lengths of one peak. -/
def replacePeak (bins : Dict ℕ) (map : Dict (List ℕ)) (finalMap : Dict ℕ) (peak : ℕ) :
    Except PyError (Dict ℕ) := do
  let group ← map.index peak
  let length ← median bins group
  .ok (group.foldl (fun finalMap old => finalMap.insert old length) finalMap)

/-- The final replacement map; `order` is the order of the keys. -/
def finalMap (order : List ℕ → List ℕ) (bins : Dict ℕ) (map : Dict (List ℕ)) :
    Except PyError (Dict ℕ) :=
  (order map.keys).foldlM (replacePeak bins map) ∅

def cleanSignals (order : List ℕ → List ℕ) (lengths : List ℕ) : Except PyError (List ℕ) := do
  let bins := countLengths lengths
  let peaks ← findPeaks bins
  let peaks ← mergePeaks bins peaks
  let map ← mapLengths bins peaks
  let final ← finalMap order bins map
  .ok (lengths.map (fun length => (final.lookup length).getD length))

/-! ### Counting -/

theorem lookup_countLength (bins : Dict ℕ) (length x : ℕ) :
    (countLength bins length).lookup x =
      if x = length then some ((bins.lookup x).getD 0 + 1) else bins.lookup x := by
  unfold countLength
  dsimp only
  by_cases hx : x = length
  · subst hx
    rw [if_pos rfl, AList.lookup_insert]
    by_cases hmem : x ∈ bins
    · rw [if_pos hmem]
    · rw [if_neg hmem, AList.lookup_insert, AList.lookup_eq_none.mpr hmem]
      rfl
  · rw [if_neg hx, AList.lookup_insert_ne hx]
    split_ifs
    · rfl
    · exact AList.lookup_insert_ne hx

theorem lookup_foldl_countLength (x : ℕ) (lengths : List ℕ) (bins : Dict ℕ) :
    (lengths.foldl countLength bins).lookup x =
      if x ∈ lengths then some ((bins.lookup x).getD 0 + lengths.count x) else bins.lookup x := by
  induction lengths generalizing bins with
  | nil => rw [List.foldl_nil, if_neg List.not_mem_nil]
  | cons length lengths ih =>
      rw [List.foldl_cons, ih, lookup_countLength]
      by_cases hx : x = length
      · subst hx
        rw [if_pos rfl, if_pos (List.mem_cons_self ..), List.count_cons_self]
        split_ifs with hmem
        · rw [Option.getD_some]
          congr 1
          omega
        · rw [List.count_eq_zero_of_not_mem hmem]
      · have hiff : x ∈ length :: lengths ↔ x ∈ lengths := by simp [hx]
        rw [if_neg hx, List.count_cons_of_ne (Ne.symm hx)]
        simp only [hiff]

theorem lookup_countLengths (lengths : List ℕ) (x : ℕ) :
    (countLengths lengths).lookup x = if x ∈ lengths then some (lengths.count x) else none := by
  rw [countLengths, lookup_foldl_countLength, AList.lookup_empty, Option.getD_none, Nat.zero_add]

/-- Every length has its bin. -/
theorem index_countLengths {lengths : List ℕ} {x : ℕ} (hx : x ∈ lengths) :
    (countLengths lengths).index x = .ok (lengths.count x) := by
  rw [Dict.index, lookup_countLengths, if_pos hx]

theorem mem_sortedKeys {lengths : List ℕ} {x : ℕ} :
    x ∈ sortedKeys (countLengths lengths) ↔ x ∈ lengths := by
  rw [sortedKeys, List.mem_insertionSort, ← AList.mem_keys, ← AList.lookup_isSome,
    lookup_countLengths]
  split_ifs with hx
  · exact iff_of_true rfl hx
  · exact iff_of_false nofun hx

theorem sortedKeys_pairwise (bins : Dict ℕ) : (sortedKeys bins).Pairwise (· < ·) := by
  have hle : (sortedKeys bins).Pairwise (· ≤ ·) := List.pairwise_insertionSort (· ≤ ·) bins.keys
  have hne : (sortedKeys bins).Nodup :=
    (List.perm_insertionSort (· ≤ ·) bins.keys).nodup_iff.mpr bins.keys_nodup
  exact (hle.and hne).imp (fun h => Nat.lt_of_le_of_ne h.1 h.2)

/-! ### Peaks -/

variable {lengths : List ℕ}

/-- One length of the scan, with the counts. -/
theorem scanLength_some {s : PeakScan} {prevLen length : ℕ} (hs : s.prevLen = some prevLen)
    (hprev : prevLen ∈ lengths) (hlength : length ∈ lengths) :
    scanLength (countLengths lengths) s length = .ok
      (if s.rising = true ∧ lengths.count length < lengths.count prevLen then
        ⟨s.peaks ++ [prevLen], some length, false⟩
      else ⟨s.peaks, some length,
        s.rising || decide (lengths.count prevLen < lengths.count length)⟩) := by
  obtain ⟨peaks, prev, rising⟩ := s
  obtain rfl : prev = some prevLen := hs
  simp only [scanLength]
  rw [ExceptFold.bind_ok (index_countLengths hlength), ExceptFold.bind_ok (index_countLengths hprev)]
  cases rising with
  | true =>
      simp only [if_true, true_and, Bool.true_or]
      split_ifs <;> rfl
  | false =>
      simp only [Bool.false_eq_true, if_false, false_and, Bool.false_or]
      split_ifs with h
      · rw [decide_eq_true h]
      · rw [decide_eq_false h]

/-- What the scan has found so far are lengths of the signal. -/
structure PeaksScanned (lengths : List ℕ) (s : PeakScan) : Prop where
  peaks : ∀ peak ∈ s.peaks, peak ∈ lengths
  prevLen : ∀ prevLen, s.prevLen = some prevLen → prevLen ∈ lengths

theorem scanLength_peaksScanned {s : PeakScan} (hs : PeaksScanned lengths s) {length : ℕ}
    (hlength : length ∈ lengths) :
    ∃ s', scanLength (countLengths lengths) s length = .ok s' ∧ PeaksScanned lengths s' := by
  cases hprev : s.prevLen with
  | none =>
      refine ⟨{ s with prevLen := some length }, by rw [scanLength, hprev], hs.peaks, ?_⟩
      intro prev h
      obtain rfl := Option.some.inj h
      exact hlength
  | some prevLen =>
      have hmem := hs.prevLen prevLen hprev
      refine ⟨_, scanLength_some hprev hmem hlength, ?_, ?_⟩
      · split_ifs
        · intro peak hpeak
          rcases List.mem_append.mp hpeak with hold | hnew
          · exact hs.peaks peak hold
          · rwa [List.mem_singleton.mp hnew]
        · exact hs.peaks
      · split_ifs <;>
        · intro prev h
          obtain rfl := Option.some.inj h
          exact hlength

theorem findPeaks_ok (lengths : List ℕ) :
    ∃ peaks, findPeaks (countLengths lengths) = .ok peaks ∧ ∀ peak ∈ peaks, peak ∈ lengths := by
  have hstart : PeaksScanned lengths ⟨[], none, true⟩ := ⟨nofun, nofun⟩
  obtain ⟨s, hscan, hs⟩ := ExceptFold.foldlM_ok (PeaksScanned lengths) hstart
    (fun s length hlength hs => scanLength_peaksScanned hs (mem_sortedKeys.mp hlength))
  exact ⟨s.peaks, by rw [findPeaks, ExceptFold.bind_ok hscan], hs.peaks⟩

/-- A peak stays in the list. -/
theorem foldlM_scanLength_peaks (bins : Dict ℕ) (keys : List ℕ) {s s' : PeakScan}
    (h : keys.foldlM (scanLength bins) s = .ok s') (hs : s.peaks ≠ []) : s'.peaks ≠ [] := by
  induction keys generalizing s with
  | nil =>
      rw [List.foldlM_nil] at h
      obtain rfl := Except.ok.inj h
      exact hs
  | cons length keys ih =>
      rw [List.foldlM_cons] at h
      obtain ⟨s₁, hstep, hrest⟩ := ExceptFold.bind_ok_iff.mp h
      apply ih hrest
      unfold scanLength at hstep
      cases hprev : s.prevLen with
      | none =>
          rw [hprev] at hstep
          obtain rfl := Except.ok.inj hstep
          exact hs
      | some prevLen =>
          rw [hprev] at hstep
          obtain ⟨count, -, hstep⟩ := ExceptFold.bind_ok_iff.mp hstep
          obtain ⟨prevCount, -, hstep⟩ := ExceptFold.bind_ok_iff.mp hstep
          split_ifs at hstep <;>
          · obtain rfl := Except.ok.inj hstep
            simp [hs]

/-- The counts do not fall along the keys. -/
def NotFalling (lengths : List ℕ) : List ℕ → Prop :=
  List.IsChain (fun a b => lengths.count a ≤ lengths.count b)

/-- While the counts rise there is a peak as soon as they fall. -/
theorem foldlM_scanLength_nil_iff (keys : List ℕ) {s s' : PeakScan} {prevLen : ℕ}
    (hprev : s.prevLen = some prevLen) (hrising : s.rising = true) (hpeaks : s.peaks = [])
    (hmem : prevLen ∈ lengths) (hkeys : ∀ key ∈ keys, key ∈ lengths)
    (h : keys.foldlM (scanLength (countLengths lengths)) s = .ok s') :
    s'.peaks = [] ↔ NotFalling lengths (prevLen :: keys) := by
  induction keys generalizing s prevLen with
  | nil =>
      rw [List.foldlM_nil] at h
      obtain rfl := Except.ok.inj h
      exact iff_of_true hpeaks (List.IsChain.singleton _)
  | cons length keys ih =>
      have hlength := hkeys length (List.mem_cons_self ..)
      rw [List.foldlM_cons, ExceptFold.bind_ok (scanLength_some hprev hmem hlength)] at h
      unfold NotFalling
      rw [List.isChain_cons_cons]
      by_cases hfall : lengths.count length < lengths.count prevLen
      · rw [if_pos ⟨hrising, hfall⟩] at h
        have hsome := foldlM_scanLength_peaks _ keys h (by simp)
        exact iff_of_false hsome (fun hc => absurd hc.1 (Nat.not_le.mpr hfall))
      · rw [if_neg (fun hc => hfall hc.2)] at h
        rw [hrising, Bool.true_or] at h
        rw [ih (s := ⟨s.peaks, some length, true⟩) rfl rfl hpeaks hlength
          (fun key hkey => hkeys key (List.mem_cons_of_mem _ hkey)) h]
        exact ⟨fun hc => ⟨Nat.not_lt.mp hfall, hc⟩, And.right⟩

/-- Some length occurs less often than a smaller one. -/
def Falls (lengths : List ℕ) : Prop :=
  ∃ a ∈ lengths, ∃ b ∈ lengths, a < b ∧ lengths.count b < lengths.count a

theorem notFalling_iff : NotFalling lengths (sortedKeys (countLengths lengths)) ↔ ¬Falls lengths := by
  have htrans : IsTrans ℕ (fun a b => lengths.count a ≤ lengths.count b) :=
    ⟨fun _ _ _ => Nat.le_trans⟩
  have hsorted := sortedKeys_pairwise (countLengths lengths)
  unfold NotFalling
  rw [List.isChain_iff_pairwise]
  constructor
  · rintro hchain ⟨a, ha, b, hb, hlt, hfall⟩
    have hup : (sortedKeys (countLengths lengths)).Pairwise
        (fun a b => a < b → lengths.count a ≤ lengths.count b) := by
      refine hchain.imp ?_
      intro a b h _
      exact h
    have hdown : (sortedKeys (countLengths lengths)).Pairwise
        (fun a b => b < a → lengths.count b ≤ lengths.count a) := by
      refine hsorted.imp ?_
      intro a b h h'
      exact absurd h' (Nat.lt_asymm h)
    have hle := hup.forall_of_forall_of_flip (fun x _ hx => absurd hx (Nat.lt_irrefl x)) hdown
    exact absurd (hle (mem_sortedKeys.mpr ha) (mem_sortedKeys.mpr hb) hlt) (Nat.not_le.mpr hfall)
  · intro hfalls
    refine hsorted.imp_of_mem ?_
    intro a b ha hb hlt
    exact Nat.not_lt.mp (fun hfall =>
      hfalls ⟨a, mem_sortedKeys.mp ha, b, mem_sortedKeys.mp hb, hlt, hfall⟩)

/-- **There is a peak** when some length occurs less often than a smaller one. -/
theorem findPeaks_nil_iff {peaks : List ℕ} (h : findPeaks (countLengths lengths) = .ok peaks) :
    peaks = [] ↔ ¬Falls lengths := by
  obtain ⟨s, hscan, hs⟩ := ExceptFold.bind_ok_iff.mp h
  obtain rfl := Except.ok.inj hs
  rw [← notFalling_iff]
  have hkeys : ∀ key ∈ sortedKeys (countLengths lengths), key ∈ lengths :=
    fun _ => mem_sortedKeys.mp
  cases hsorted : sortedKeys (countLengths lengths) with
  | nil =>
      rw [hsorted] at hscan
      obtain rfl := Except.ok.inj hscan
      exact iff_of_true rfl List.IsChain.nil
  | cons key keys =>
      rw [hsorted] at hscan hkeys
      rw [List.foldlM_cons] at hscan
      exact foldlM_scanLength_nil_iff keys (s := ⟨[], some key, true⟩) rfl rfl rfl
        (hkeys key (List.mem_cons_self ..)) (fun k hk => hkeys k (List.mem_cons_of_mem _ hk)) hscan

end IguanaIR
