import IguanaIR.SignalCleaning

/-! # What the cleaning of a signal leaves

`cleanSignals` raises nothing exactly when there is a peak and every sum of two lengths that it
compares is in the range of a `float`.  What it compares is collected beside the loops
(`mergeTrace`, `comparisons`), with `near` in place of the comparison that may raise. -/

namespace IguanaIR

variable {lengths : List ℕ}

/-! ### Close enough -/

/-- `closeEnough` of two lengths whose sum is in range. -/
def near (a b : ℕ) : Bool :=
  decide (Binary64.nearest (Binary64.nearest (absDiff a b : ℕ) / Binary64.nearest (a + b : ℕ)) <
    Binary64.nearest (1 / 10))

theorem closeEnough_cases {a : ℕ} (b : ℕ) (hpos : 0 < a) :
    (a + b < floatOverflow ∧ closeEnough a (some b) = .ok (near a b)) ∨
      (¬a + b < floatOverflow ∧ closeEnough a (some b) = .error .overflowError) := by
  have hle : absDiff a b ≤ a + b := by
    unfold absDiff
    omega
  have hsum : a + b ≠ 0 := by omega
  unfold closeEnough toFloat near
  dsimp only
  by_cases h : a + b < floatOverflow
  · left
    refine ⟨h, ?_⟩
    rw [if_pos (Nat.lt_of_le_of_lt hle h), if_pos h, ExceptFold.bind_ok rfl,
      ExceptFold.bind_ok rfl, if_neg hsum]
  · right
    refine ⟨h, ?_⟩
    rw [if_neg h]
    by_cases hdiff : absDiff a b < floatOverflow
    · rw [if_pos hdiff]
      rfl
    · rw [if_neg hdiff]
      rfl

/-- Every sum is in the range of a `float`. -/
def SumsInRange (pairs : List (ℕ × ℕ)) : Prop := ∀ pair ∈ pairs, pair.1 + pair.2 < floatOverflow

theorem sumsInRange_cons {a b : ℕ} {pairs : List (ℕ × ℕ)} :
    SumsInRange ((a, b) :: pairs) ↔ a + b < floatOverflow ∧ SumsInRange pairs := List.forall_mem_cons

theorem sumsInRange_append {pairs pairs' : List (ℕ × ℕ)} :
    SumsInRange (pairs ++ pairs') ↔ SumsInRange pairs ∧ SumsInRange pairs' := List.forall_mem_append

/-! ### Merging -/

/-- The peak that a pass discards, and what it compares. -/
def closeTrace (count : ℕ → ℕ) (prevPeak : ℕ) : List ℕ → Option ℕ × List (ℕ × ℕ)
  | [] => (none, [])
  | peak :: rest =>
      if near peak prevPeak then
        (some (if count peak < count prevPeak then peak else prevPeak), [(peak, prevPeak)])
      else ((closeTrace count peak rest).1, (peak, prevPeak) :: (closeTrace count peak rest).2)

def passTrace (count : ℕ → ℕ) : List ℕ → Option ℕ × List (ℕ × ℕ)
  | [] => (none, [])
  | peak :: rest => closeTrace count peak rest

/-- The peaks that are left, and what was compared. -/
def mergeTrace (count : ℕ → ℕ) (peaks : List ℕ) : List ℕ × List (ℕ × ℕ) :=
  match passTrace count peaks with
  | (none, pairs) => (peaks, pairs)
  | (some peak, pairs) =>
      if _h : peak ∈ peaks then
        ((mergeTrace count (peaks.erase peak)).1,
          pairs ++ (mergeTrace count (peaks.erase peak)).2)
      else (peaks, pairs)
termination_by peaks.length
decreasing_by
  all_goals
    have := List.length_pos_of_mem _h
    rw [List.length_erase_of_mem _h]
    omega

theorem closeTrace_mem (count : ℕ → ℕ) (rest : List ℕ) (prevPeak : ℕ) {peak : ℕ}
    (h : (closeTrace count prevPeak rest).1 = some peak) : peak ∈ prevPeak :: rest ∧ rest ≠ [] := by
  induction rest generalizing prevPeak with
  | nil => cases h
  | cons next rest ih =>
      refine ⟨?_, List.cons_ne_nil _ _⟩
      rw [closeTrace] at h
      split_ifs at h with hnear hcount
      · obtain rfl := Option.some.inj h
        simp
      · obtain rfl := Option.some.inj h
        simp
      · exact List.mem_cons_of_mem _ (ih next h).1

/-- A pass discards a peak of the list, and one stays. -/
theorem passTrace_mem {count : ℕ → ℕ} {peaks : List ℕ} {peak : ℕ}
    (h : (passTrace count peaks).1 = some peak) : peak ∈ peaks ∧ peaks.erase peak ≠ [] := by
  cases peaks with
  | nil => cases h
  | cons first rest =>
      obtain ⟨hmem, hrest⟩ := closeTrace_mem count rest first h
      refine ⟨hmem, fun hnil => ?_⟩
      have hlen := List.length_erase_of_mem hmem
      have hpos := List.length_pos_iff.mpr hrest
      rw [hnil, List.length_cons, List.length_nil] at hlen
      omega

theorem mergeTrace_none {count : ℕ → ℕ} {peaks : List ℕ} (h : (passTrace count peaks).1 = none) :
    mergeTrace count peaks = (peaks, (passTrace count peaks).2) := by
  rcases hpass : passTrace count peaks with ⟨discarded, pairs⟩
  obtain rfl : discarded = none := by rwa [hpass] at h
  rw [mergeTrace, hpass]

theorem mergeTrace_some {count : ℕ → ℕ} {peaks : List ℕ} {peak : ℕ}
    (h : (passTrace count peaks).1 = some peak) :
    mergeTrace count peaks = ((mergeTrace count (peaks.erase peak)).1,
      (passTrace count peaks).2 ++ (mergeTrace count (peaks.erase peak)).2) := by
  have hmem := (passTrace_mem h).1
  rcases hpass : passTrace count peaks with ⟨discarded, pairs⟩
  obtain rfl : discarded = some peak := by rwa [hpass] at h
  rw [mergeTrace, hpass]
  dsimp only
  rw [dif_pos hmem]

/-- What a pass leaves is shorter, so that the passes come to an end. -/
theorem merge_induction (count : ℕ → ℕ) {P : List ℕ → Prop}
    (stop : ∀ peaks, (passTrace count peaks).1 = none → P peaks)
    (discard : ∀ peaks peak, (passTrace count peaks).1 = some peak → P (peaks.erase peak) → P peaks) :
    ∀ peaks, P peaks := by
  intro peaks
  induction hn : peaks.length using Nat.strong_induction_on generalizing peaks with
  | _ n ih =>
      cases hpass : (passTrace count peaks).1 with
      | none => exact stop peaks hpass
      | some peak =>
          have hmem := (passTrace_mem hpass).1
          have hpos := List.length_pos_of_mem hmem
          refine discard peaks peak hpass (ih (peaks.erase peak).length ?_ _ rfl)
          rw [List.length_erase_of_mem hmem]
          omega

theorem mergeTrace_subset (count : ℕ → ℕ) (peaks : List ℕ) :
    ∀ peak ∈ (mergeTrace count peaks).1, peak ∈ peaks := by
  induction peaks using merge_induction count with
  | stop peaks hpass =>
      rw [mergeTrace_none hpass]
      exact fun _ => id
  | discard peaks peak hpass ih =>
      rw [mergeTrace_some hpass]
      exact fun p hp => List.mem_of_mem_erase (ih p hp)

theorem mergeTrace_nil_iff (count : ℕ → ℕ) (peaks : List ℕ) :
    (mergeTrace count peaks).1 = [] ↔ peaks = [] := by
  induction peaks using merge_induction count with
  | stop peaks hpass => rw [mergeTrace_none hpass]
  | discard peaks peak hpass ih =>
      obtain ⟨hmem, hrest⟩ := passTrace_mem hpass
      rw [mergeTrace_some hpass]
      exact iff_of_false (fun hnil => hrest (ih.mp hnil)) (List.ne_nil_of_mem hmem)

/-- A pass raises nothing but the exception for a sum that is out of range. -/
theorem tooClose_cases (hpos : ∀ l ∈ lengths, 0 < l) (rest : List ℕ) (prevPeak : ℕ)
    (hmem : ∀ p ∈ prevPeak :: rest, p ∈ lengths) :
    (SumsInRange (closeTrace lengths.count prevPeak rest).2 ∧
      tooClose (countLengths lengths) prevPeak rest =
        .ok (closeTrace lengths.count prevPeak rest).1) ∨
    (¬SumsInRange (closeTrace lengths.count prevPeak rest).2 ∧
      tooClose (countLengths lengths) prevPeak rest = .error .overflowError) := by
  induction rest generalizing prevPeak with
  | nil => exact .inl ⟨fun _ h => absurd h List.not_mem_nil, rfl⟩
  | cons peak rest ih =>
      have hpeak : peak ∈ lengths := hmem peak (List.mem_cons_of_mem _ (List.mem_cons_self ..))
      have hprev : prevPeak ∈ lengths := hmem prevPeak (List.mem_cons_self ..)
      rw [tooClose, closeTrace]
      rcases closeEnough_cases prevPeak (hpos peak hpeak) with ⟨hlt, hclose⟩ | ⟨hge, hclose⟩
      · rw [ExceptFold.bind_ok hclose]
        cases hnear : near peak prevPeak with
        | true =>
            left
            rw [if_pos rfl, if_pos rfl, ExceptFold.bind_ok (index_countLengths hpeak),
              ExceptFold.bind_ok (index_countLengths hprev)]
            exact ⟨sumsInRange_cons.mpr ⟨hlt, fun _ h => absurd h List.not_mem_nil⟩, rfl⟩
        | false =>
            rw [if_neg nofun, if_neg nofun, sumsInRange_cons]
            rcases ih peak (fun p hp => hmem p (List.mem_cons_of_mem _ hp)) with
              ⟨hin, hrest⟩ | ⟨hout, hrest⟩
            · exact .inl ⟨⟨hlt, hin⟩, hrest⟩
            · exact .inr ⟨fun h => hout h.2, hrest⟩
      · right
        rw [hclose]
        refine ⟨?_, rfl⟩
        split_ifs <;>
        · intro hin
          exact hge (sumsInRange_cons.mp hin).1

theorem mergePass_cases (hpos : ∀ l ∈ lengths, 0 < l) {peaks : List ℕ}
    (hmem : ∀ p ∈ peaks, p ∈ lengths) :
    (SumsInRange (passTrace lengths.count peaks).2 ∧
      mergePass (countLengths lengths) peaks = .ok (passTrace lengths.count peaks).1) ∨
    (¬SumsInRange (passTrace lengths.count peaks).2 ∧
      mergePass (countLengths lengths) peaks = .error .overflowError) := by
  cases peaks with
  | nil => exact .inl ⟨fun _ h => absurd h List.not_mem_nil, rfl⟩
  | cons first rest => exact tooClose_cases hpos rest first hmem

/-- **Merging** leaves the peaks of the trace, or raises. -/
theorem mergePeaks_cases (hpos : ∀ l ∈ lengths, 0 < l) (peaks : List ℕ) :
    (∀ p ∈ peaks, p ∈ lengths) →
      (SumsInRange (mergeTrace lengths.count peaks).2 ∧
        mergePeaks (countLengths lengths) peaks = .ok (mergeTrace lengths.count peaks).1) ∨
      (¬SumsInRange (mergeTrace lengths.count peaks).2 ∧
        mergePeaks (countLengths lengths) peaks = .error .overflowError) := by
  induction peaks using merge_induction lengths.count with
  | stop peaks hstop =>
      intro hmem
      rw [mergeTrace_none hstop, mergePeaks]
      rcases mergePass_cases hpos hmem with ⟨hin, hpass⟩ | ⟨hout, hpass⟩
      · rw [hpass, hstop]
        exact .inl ⟨hin, rfl⟩
      · rw [hpass]
        exact .inr ⟨hout, rfl⟩
  | discard peaks peak hsome ih =>
      intro hmem
      rw [mergeTrace_some hsome, mergePeaks]
      rcases mergePass_cases hpos hmem with ⟨hin, hpass⟩ | ⟨hout, hpass⟩
      · rw [hpass, hsome]
        dsimp only
        rw [dif_pos (passTrace_mem hsome).1, sumsInRange_append]
        rcases ih (fun p hp => hmem p (List.mem_of_mem_erase hp)) with ⟨hin', hrest⟩ | ⟨hout, hrest⟩
        · exact .inl ⟨⟨hin, hin'⟩, hrest⟩
        · exact .inr ⟨fun h => hout h.2, hrest⟩
      · rw [hpass, sumsInRange_append]
        exact .inr ⟨fun h => hout h.1, rfl⟩

/-! ### The closest peak -/

theorem foldl_closer (length : ℕ) (peaks : List ℕ) (c : ℕ) :
    ∃ peak ∈ c :: peaks, peaks.foldl (closer length) (some c) = some peak := by
  induction peaks generalizing c with
  | nil => exact ⟨c, List.mem_cons_self .., rfl⟩
  | cons peak peaks ih =>
      rw [List.foldl_cons, closer]
      split_ifs
      · obtain ⟨closest, hmem, hfold⟩ := ih peak
        exact ⟨closest, List.mem_cons_of_mem _ hmem, hfold⟩
      · obtain ⟨closest, hmem, hfold⟩ := ih c
        refine ⟨closest, ?_, hfold⟩
        rcases List.mem_cons.mp hmem with rfl | hmem
        · exact List.mem_cons_self ..
        · exact List.mem_cons_of_mem _ (List.mem_cons_of_mem _ hmem)

theorem closestPeak_nil (length : ℕ) : closestPeak [] length = none := rfl

theorem closestPeak_some {peaks : List ℕ} (h : peaks ≠ []) (length : ℕ) :
    ∃ peak ∈ peaks, closestPeak peaks length = some peak := by
  cases peaks with
  | nil => exact absurd rfl h
  | cons first rest => exact foldl_closer length rest first

/-! ### Lengths under their peaks -/

/-- The lengths that are entered under a peak are close to it. -/
def Mapped (lengths peaks : List ℕ) (map : Dict (List ℕ)) : Prop :=
  ∀ peak group, map.lookup peak = some group → peak ∈ peaks ∧ group ≠ [] ∧
    ∀ l ∈ group, l ∈ lengths ∧ closeEnough l (some peak) = .ok true

theorem mapLength_mapped {peaks : List ℕ} {map : Dict (List ℕ)} (hmap : Mapped lengths peaks map)
    {length peak : ℕ} (hlength : length ∈ lengths) (hpos : 0 < length) (hpeak : peak ∈ peaks)
    (hclosest : closestPeak peaks length = some peak) (hlt : length + peak < floatOverflow) :
    ∃ map', mapLength peaks map length = .ok map' ∧ Mapped lengths peaks map' := by
  rcases closeEnough_cases peak hpos with ⟨-, hclose⟩ | ⟨hge, -⟩
  · unfold mapLength
    simp only [hclosest]
    rw [ExceptFold.bind_ok hclose]
    cases hnear : near length peak with
    | false => exact ⟨map, rfl, hmap⟩
    | true =>
        rw [hnear] at hclose
        refine ⟨_, rfl, fun p group hgroup => ?_⟩
        by_cases hp : p = peak
        · subst hp
          rw [AList.lookup_insert] at hgroup
          obtain rfl := Option.some.inj hgroup
          refine ⟨hpeak, by simp, fun l hl => ?_⟩
          rcases List.mem_append.mp hl with hold | hnew
          · cases hlookup : map.lookup p with
            | none =>
                rw [hlookup] at hold
                exact absurd hold List.not_mem_nil
            | some old =>
                rw [hlookup] at hold
                exact (hmap p old hlookup).2.2 l hold
          · obtain rfl := List.mem_singleton.mp hnew
            exact ⟨hlength, hclose⟩
        · rw [AList.lookup_insert_ne hp] at hgroup
          exact hmap p group hgroup
  · exact absurd hlt hge

/-- What a length is compared with. -/
theorem mapLength_range {peaks : List ℕ} {map map' : Dict (List ℕ)} {length : ℕ}
    (hpos : 0 < length) (h : mapLength peaks map length = .ok map') :
    ∃ peak, closestPeak peaks length = some peak ∧ length + peak < floatOverflow := by
  obtain ⟨close, hclose, -⟩ := ExceptFold.bind_ok_iff.mp h
  cases hclosest : closestPeak peaks length with
  | none =>
      rw [hclosest] at hclose
      cases hclose
  | some peak =>
      rw [hclosest] at hclose
      rcases closeEnough_cases peak hpos with ⟨hlt, -⟩ | ⟨-, herror⟩
      · exact ⟨peak, rfl, hlt⟩
      · rw [herror] at hclose
        cases hclose

/-! ### The replacement -/

theorem medianList_ok (group list : List ℕ) (hmem : ∀ l ∈ group, l ∈ lengths) :
    group.foldlM (fun medianList length => do
      let count ← (countLengths lengths).index length
      .ok (medianList ++ List.replicate count length)) list =
        .ok (list ++ group.flatMap (fun l => List.replicate (lengths.count l) l)) := by
  induction group generalizing list with
  | nil =>
      rw [List.flatMap_nil, List.append_nil]
      rfl
  | cons l group ih =>
      have hindex := index_countLengths (hmem l (List.mem_cons_self ..))
      rw [List.foldlM_cons, ExceptFold.bind_ok hindex, ExceptFold.bind_ok rfl,
        ih _ (fun x hx => hmem x (List.mem_cons_of_mem _ hx)), List.flatMap_cons, List.append_assoc]

/-- The median of lengths of the signal is one of them. -/
theorem median_ok {group : List ℕ} (hne : group ≠ []) (hmem : ∀ l ∈ group, l ∈ lengths) :
    ∃ l ∈ group, median (countLengths lengths) group = .ok l := by
  obtain ⟨list, hlist⟩ : ∃ list, list =
    group.flatMap (fun l => List.replicate (lengths.count l) l) := ⟨_, rfl⟩
  have hmedian : medianList (countLengths lengths) group = .ok list := by
    rw [medianList, medianList_ok group [] hmem, hlist, List.nil_append]
  have hpos : 0 < list.length := by
    obtain ⟨first, rest, rfl⟩ := List.exists_cons_of_ne_nil hne
    have hcount := List.count_pos_iff.mpr (hmem first (List.mem_cons_self ..))
    rw [hlist, List.flatMap_cons, List.length_append, List.length_replicate]
    omega
  have hlt : list.length / 2 < list.length := Nat.div_lt_self hpos (by omega)
  have hall : ∀ x ∈ list, x ∈ group := by
    intro x hx
    rw [hlist, List.mem_flatMap] at hx
    obtain ⟨l, hl, hx⟩ := hx
    rwa [List.eq_of_mem_replicate hx]
  refine ⟨list[list.length / 2], hall _ (List.getElem_mem hlt), ?_⟩
  rw [median, ExceptFold.bind_ok hmedian, List.getElem?_eq_getElem hlt]

theorem lookup_foldl_insert (length x : ℕ) (group : List ℕ) (final : Dict ℕ) :
    (group.foldl (fun finalMap old => finalMap.insert old length) final).lookup x =
      if x ∈ group then some length else final.lookup x := by
  induction group generalizing final with
  | nil => rw [List.foldl_nil, if_neg List.not_mem_nil]
  | cons old group ih =>
      rw [List.foldl_cons, ih]
      by_cases hx : x = old
      · subst hx
        rw [if_pos (List.mem_cons_self ..), AList.lookup_insert, ite_self]
      · have hiff : x ∈ old :: group ↔ x ∈ group := by simp [hx]
        rw [AList.lookup_insert_ne hx]
        simp only [hiff]

/-- Both lengths are close to a common peak. -/
def Replaces (lengths peaks : List ℕ) (final : Dict ℕ) : Prop :=
  ∀ old new, final.lookup old = some new → new ∈ lengths ∧
    ∃ peak ∈ peaks, closeEnough old (some peak) = .ok true ∧ closeEnough new (some peak) = .ok true

theorem replacePeak_replaces {peaks : List ℕ} {map : Dict (List ℕ)} (hmap : Mapped lengths peaks map)
    {final : Dict ℕ} (hfinal : Replaces lengths peaks final) {peak : ℕ} (hpeak : peak ∈ map) :
    ∃ final', replacePeak (countLengths lengths) map final peak = .ok final' ∧
      Replaces lengths peaks final' := by
  obtain ⟨group, hgroup⟩ := Option.isSome_iff_exists.mp (AList.lookup_isSome.mpr hpeak)
  obtain ⟨hmem, hne, hclose⟩ := hmap peak group hgroup
  obtain ⟨length, hlength, hmedian⟩ := median_ok hne (fun l hl => (hclose l hl).1)
  have hindex : map.index peak = .ok group := by rw [Dict.index, hgroup]
  refine ⟨_, by rw [replacePeak, ExceptFold.bind_ok hindex, ExceptFold.bind_ok hmedian], ?_⟩
  intro old new hlookup
  rw [lookup_foldl_insert] at hlookup
  split_ifs at hlookup with hold
  · obtain rfl := Option.some.inj hlookup
    exact ⟨(hclose length hlength).1, peak, hmem, (hclose old hold).2, (hclose length hlength).2⟩
  · exact hfinal old new hlookup

theorem finalMap_replaces {order : List ℕ → List ℕ} (horder : ∀ keys, (order keys).Perm keys)
    {peaks : List ℕ} {map : Dict (List ℕ)} (hmap : Mapped lengths peaks map) :
    ∃ final, finalMap order (countLengths lengths) map = .ok final ∧ Replaces lengths peaks final := by
  have hstart : Replaces lengths peaks ∅ := by
    intro old new h
    rw [AList.lookup_empty] at h
    cases h
  refine ExceptFold.foldlM_ok (Replaces lengths peaks) hstart (fun final peak hpeak hfinal => ?_)
  exact replacePeak_replaces hmap hfinal (AList.mem_keys.mpr ((horder map.keys).mem_iff.mp hpeak))

/-! ### The whole function -/

/-- The peaks of the histogram. -/
def peaksOf (lengths : List ℕ) : List ℕ :=
  match findPeaks (countLengths lengths) with
  | .ok peaks => peaks
  | .error _ => []

/-- What is compared: peaks with each other, and every length with its closest peak. -/
def comparisons (lengths : List ℕ) : List (ℕ × ℕ) :=
  (mergeTrace lengths.count (peaksOf lengths)).2 ++
    (sortedKeys (countLengths lengths)).filterMap (fun length =>
      (closestPeak (mergeTrace lengths.count (peaksOf lengths)).1 length).map (Prod.mk length))

theorem findPeaks_eq (lengths : List ℕ) : findPeaks (countLengths lengths) = .ok (peaksOf lengths) ∧
    ∀ peak ∈ peaksOf lengths, peak ∈ lengths := by
  obtain ⟨peaks, hpeaks, hmem⟩ := findPeaks_ok lengths
  have hof : peaksOf lengths = peaks := by rw [peaksOf, hpeaks]
  rw [hof]
  exact ⟨hpeaks, hmem⟩

/-- A cleaned signal. -/
structure IsCleaning (lengths final : List ℕ) : Prop where
  length : final.length = lengths.length
  equal : ∀ i j : ℕ, lengths[i]? = lengths[j]? → final[i]? = final[j]?
  occurs : ∀ new ∈ final, new ∈ lengths
  close : ∀ (i : ℕ) (old new : ℕ), lengths[i]? = some old → final[i]? = some new → new ≠ old →
    ∃ peak ∈ peaksOf lengths, closeEnough old (some peak) = .ok true ∧
      closeEnough new (some peak) = .ok true

/-- The signal is cleaned without an exception, and the loop over the peaks ends. -/
def CleansSignal (order : List ℕ → List ℕ) (lengths : List ℕ) : Prop :=
  (∃ final, cleanSignals order lengths = .ok final ∧ IsCleaning lengths final) ∧
    ∀ peaks : List ℕ, mergePasses (countLengths lengths) (peaks.length + 1) peaks ≠ none

theorem isCleaning_map {final : Dict ℕ} {peaks : List ℕ}
    (hpeaks : ∀ peak ∈ peaks, peak ∈ peaksOf lengths) (hfinal : Replaces lengths peaks final) :
    IsCleaning lengths (lengths.map (fun length => (final.lookup length).getD length)) := by
  refine ⟨List.length_map .., fun i j h => ?_, fun new hnew => ?_, fun i old new hi hnew hne => ?_⟩
  · rw [List.getElem?_map, List.getElem?_map, h]
  · obtain ⟨old, hold, rfl⟩ := List.mem_map.mp hnew
    cases hlookup : final.lookup old with
    | none => exact hold
    | some replaced => exact (hfinal old replaced hlookup).1
  · rw [List.getElem?_map, hi] at hnew
    cases hlookup : final.lookup old with
    | none =>
        rw [Option.map_some, hlookup] at hnew
        exact absurd (Option.some.inj hnew).symm hne
    | some replaced =>
        rw [Option.map_some, hlookup] at hnew
        obtain rfl : replaced = new := Option.some.inj hnew
        obtain ⟨-, peak, hpeak, hclose⟩ := hfinal old replaced hlookup
        exact ⟨peak, hpeaks peak hpeak, hclose⟩

theorem mapLengths_mapped (hpos : ∀ l ∈ lengths, 0 < l) {peaks : List ℕ} (hne : peaks ≠ [])
    (hrange : SumsInRange ((sortedKeys (countLengths lengths)).filterMap
      (fun length => (closestPeak peaks length).map (Prod.mk length)))) :
    ∃ map, mapLengths (countLengths lengths) peaks = .ok map ∧ Mapped lengths peaks map := by
  have hstart : Mapped lengths peaks ∅ := by
    intro peak group h
    rw [AList.lookup_empty] at h
    cases h
  refine ExceptFold.foldlM_ok (Mapped lengths peaks) hstart (fun map length hkey hmap => ?_)
  have hlength : length ∈ lengths := mem_sortedKeys.mp hkey
  obtain ⟨peak, hpeak, hclosest⟩ := closestPeak_some hne length
  have hlt := hrange (length, peak)
    (List.mem_filterMap.mpr ⟨length, hkey, by rw [hclosest, Option.map_some]⟩)
  exact mapLength_mapped hmap hlength (hpos length hlength) hpeak hclosest hlt

/-! ### Signals of usual lengths -/

theorem closeTrace_pairs (count : ℕ → ℕ) (rest : List ℕ) (prevPeak : ℕ) :
    ∀ pair ∈ (closeTrace count prevPeak rest).2,
      pair.1 ∈ prevPeak :: rest ∧ pair.2 ∈ prevPeak :: rest := by
  induction rest generalizing prevPeak with
  | nil => exact fun _ h => absurd h List.not_mem_nil
  | cons peak rest ih =>
      intro pair h
      have hfirst : peak ∈ prevPeak :: peak :: rest := by simp
      have hsecond : prevPeak ∈ prevPeak :: peak :: rest := List.mem_cons_self ..
      rw [closeTrace] at h
      cases hnear : near peak prevPeak with
      | true =>
          rw [hnear, if_pos rfl] at h
          rw [List.mem_singleton.mp h]
          exact ⟨hfirst, hsecond⟩
      | false =>
          rw [hnear, if_neg nofun] at h
          rcases List.mem_cons.mp h with rfl | h
          · exact ⟨hfirst, hsecond⟩
          · obtain ⟨h₁, h₂⟩ := ih peak pair h
            exact ⟨List.mem_cons_of_mem _ h₁, List.mem_cons_of_mem _ h₂⟩

theorem passTrace_pairs (count : ℕ → ℕ) (peaks : List ℕ) :
    ∀ pair ∈ (passTrace count peaks).2, pair.1 ∈ peaks ∧ pair.2 ∈ peaks := by
  cases peaks with
  | nil => exact fun _ h => absurd h List.not_mem_nil
  | cons first rest => exact closeTrace_pairs count rest first

theorem mergeTrace_pairs (count : ℕ → ℕ) (peaks : List ℕ) :
    ∀ pair ∈ (mergeTrace count peaks).2, pair.1 ∈ peaks ∧ pair.2 ∈ peaks := by
  induction peaks using merge_induction count with
  | stop peaks hpass =>
      rw [mergeTrace_none hpass]
      exact passTrace_pairs count peaks
  | discard peaks peak hpass ih =>
      rw [mergeTrace_some hpass]
      intro pair hpair
      rcases List.mem_append.mp hpair with hpair | hpair
      · exact passTrace_pairs count peaks pair hpair
      · exact (ih pair hpair).imp List.mem_of_mem_erase List.mem_of_mem_erase

/-- Lengths below half of the range are never out of range. -/
theorem comparisons_sumsInRange (h : ∀ l ∈ lengths, 2 * l < floatOverflow) :
    SumsInRange (comparisons lengths) := by
  have hmem := (findPeaks_eq lengths).2
  have hsum {a b : ℕ} (ha : a ∈ lengths) (hb : b ∈ lengths) : a + b < floatOverflow := by
    have := h a ha
    have := h b hb
    omega
  refine sumsInRange_append.mpr ⟨fun pair hpair => ?_, fun pair hpair => ?_⟩
  · obtain ⟨h₁, h₂⟩ := mergeTrace_pairs _ _ pair hpair
    exact hsum (hmem _ h₁) (hmem _ h₂)
  · obtain ⟨length, hkey, hclosest⟩ := List.mem_filterMap.mp hpair
    obtain ⟨peak, hpeak, rfl⟩ := Option.map_eq_some_iff.mp hclosest
    have hne : (mergeTrace lengths.count (peaksOf lengths)).1 ≠ [] := by
      intro hnil
      rw [hnil, closestPeak_nil] at hpeak
      cases hpeak
    obtain ⟨peak', hmerged, hpeak'⟩ := closestPeak_some hne length
    obtain rfl := Option.some.inj (hpeak.symm.trans hpeak')
    exact hsum (mem_sortedKeys.mp hkey) (hmem _ (mergeTrace_subset _ _ _ hmerged))

theorem lt_floatOverflow {n : ℕ} (h : n < 2 ^ 64) : n < floatOverflow := by
  have hlow : (2 : ℕ) ^ 970 = 2 ^ 64 * 2 ^ 906 := by rw [← Nat.pow_add]
  have hhigh : (2 : ℕ) ^ 1024 = 2 ^ 118 * 2 ^ 906 := by rw [← Nat.pow_add]
  have hpos : 0 < (2 : ℕ) ^ 906 := by positivity
  unfold floatOverflow
  rw [hlow, hhigh]
  generalize 2 ^ 906 = x at hpos
  omega

/-! ### The whole function -/

theorem peaksOf_ne_nil_iff : peaksOf lengths ≠ [] ↔ Falls lengths := by
  rw [Ne, findPeaks_nil_iff (findPeaks_eq lengths).1, Classical.not_not]

/-- What raises nothing has compared every length with a peak, and the sums were in range. -/
theorem falls_of_clean {order : List ℕ → List ℕ} (hne : lengths ≠ []) (hpos : ∀ l ∈ lengths, 0 < l)
    {final : List ℕ} (hclean : cleanSignals order lengths = .ok final) :
    Falls lengths ∧ SumsInRange (comparisons lengths) := by
  obtain ⟨hpeaks, hmem⟩ := findPeaks_eq lengths
  unfold comparisons
  rw [sumsInRange_append, ← peaksOf_ne_nil_iff]
  unfold cleanSignals at hclean
  rw [ExceptFold.bind_ok hpeaks] at hclean
  obtain ⟨merged, hmerge, hclean⟩ := ExceptFold.bind_ok_iff.mp hclean
  obtain ⟨map, hmap, -⟩ := ExceptFold.bind_ok_iff.mp hclean
  rcases mergePeaks_cases hpos (peaksOf lengths) hmem with ⟨hin, hok⟩ | ⟨-, herror⟩
  · obtain rfl := Except.ok.inj (hok.symm.trans hmerge)
    have hall (length : ℕ) (hkey : length ∈ sortedKeys (countLengths lengths)) :=
      ExceptFold.forall_of_foldlM_ok (fun length => length ∈ lengths → ∃ peak,
        closestPeak (mergeTrace lengths.count (peaksOf lengths)).1 length = some peak ∧
          length + peak < floatOverflow)
        (fun map length map' h hl => mapLength_range (hpos length hl) h) hmap length hkey
        (mem_sortedKeys.mp hkey)
    refine ⟨fun hnil => ?_, hin, fun pair hpair => ?_⟩
    · obtain ⟨first, rest, hcons⟩ := List.exists_cons_of_ne_nil hne
      have hfirst : first ∈ lengths := by rw [hcons]; exact List.mem_cons_self ..
      obtain ⟨peak, hclosest, -⟩ := hall first (mem_sortedKeys.mpr hfirst)
      rw [(mergeTrace_nil_iff _ _).mpr hnil, closestPeak_nil] at hclosest
      cases hclosest
    · obtain ⟨length, hkey, hclosest⟩ := List.mem_filterMap.mp hpair
      obtain ⟨peak, hpeak, rfl⟩ := Option.map_eq_some_iff.mp hclosest
      obtain ⟨peak', hpeak', hlt⟩ := hall length hkey
      obtain rfl := Option.some.inj (hpeak.symm.trans hpeak')
      exact hlt
  · rw [herror] at hmerge
    cases hmerge

theorem clean_of_falls {order : List ℕ → List ℕ} (horder : ∀ keys, (order keys).Perm keys)
    (hpos : ∀ l ∈ lengths, 0 < l) (hfalls : Falls lengths)
    (hcompared : SumsInRange (comparisons lengths)) :
    ∃ final, cleanSignals order lengths = .ok final ∧ IsCleaning lengths final := by
  obtain ⟨hpeaks, hmem⟩ := findPeaks_eq lengths
  obtain ⟨hin, hrange⟩ := sumsInRange_append.mp hcompared
  rcases mergePeaks_cases hpos (peaksOf lengths) hmem with ⟨-, hmerge⟩ | ⟨hout, -⟩
  · have hmerged : (mergeTrace lengths.count (peaksOf lengths)).1 ≠ [] :=
      fun hnil => peaksOf_ne_nil_iff.mpr hfalls ((mergeTrace_nil_iff _ _).mp hnil)
    obtain ⟨map, hmap, hmapped⟩ := mapLengths_mapped hpos hmerged hrange
    obtain ⟨final, hfinal, hreplaces⟩ := finalMap_replaces horder hmapped
    refine ⟨_, ?_, isCleaning_map (mergeTrace_subset _ _) hreplaces⟩
    unfold cleanSignals
    rw [ExceptFold.bind_ok hpeaks, ExceptFold.bind_ok hmerge, ExceptFold.bind_ok hmap,
      ExceptFold.bind_ok hfinal]
  · exact absurd hin hout

/-- **Cleaning** needs a length that occurs less often than a smaller one, and, if there are lengths
from half of the range of a `float` on, sums that are in that range. -/
theorem cleansSignal_iff {order : List ℕ → List ℕ} (horder : ∀ keys, (order keys).Perm keys)
    {lengths : List ℕ} (hne : lengths ≠ []) (hpos : ∀ l ∈ lengths, 0 < l) :
    CleansSignal order lengths ↔ Falls lengths ∧
      ((∃ l ∈ lengths, floatOverflow ≤ 2 * l) → SumsInRange (comparisons lengths)) := by
  constructor
  · rintro ⟨⟨final, hclean, -⟩, -⟩
    obtain ⟨hfalls, hrange⟩ := falls_of_clean hne hpos hclean
    exact ⟨hfalls, fun _ => hrange⟩
  · rintro ⟨hfalls, hlarge⟩
    have hrange : SumsInRange (comparisons lengths) := by
      by_cases h : ∃ l ∈ lengths, floatOverflow ≤ 2 * l
      · exact hlarge h
      · exact comparisons_sumsInRange (fun l hl => Nat.not_le.mp (fun hle => h ⟨l, hl, hle⟩))
    exact ⟨clean_of_falls horder hpos hfalls hrange,
      fun peaks => by rw [mergePasses_ends]; exact Option.some_ne_none _⟩

theorem cleansSignal_remote : CleansSignal id [100, 100, 101] := by
  refine (cleansSignal_iff (fun _ => .rfl) (by simp) (by simp)).mpr
    ⟨⟨100, by simp, 101, by simp, by simp, by decide⟩, ?_⟩
  rintro ⟨l, hl, hlarge⟩
  have hsmall : l ≤ 101 := by
    simp only [List.mem_cons, List.not_mem_nil, or_false] at hl
    omega
  exact absurd (lt_floatOverflow (by omega)) (Nat.not_lt.mpr hlarge)

/-! ### Signals without a peak -/

/-- Without a peak there is no closest one to be close to. -/
theorem cleanSignals_typeError (order : List ℕ → List ℕ) (hne : lengths ≠ [])
    (hfalls : ¬Falls lengths) : cleanSignals order lengths = .error .typeError := by
  have hpeaks := (findPeaks_eq lengths).1
  have hnil : peaksOf lengths = [] := (findPeaks_nil_iff hpeaks).mpr hfalls
  rw [hnil] at hpeaks
  have hmerge : mergePeaks (countLengths lengths) [] = .ok [] := by
    rw [mergePeaks]
    rfl
  obtain ⟨first, rest, hcons⟩ := List.exists_cons_of_ne_nil hne
  have hfirst : first ∈ sortedKeys (countLengths lengths) := by
    rw [mem_sortedKeys, hcons]
    exact List.mem_cons_self ..
  obtain ⟨key, keys, hkeys⟩ := List.exists_cons_of_ne_nil (List.ne_nil_of_mem hfirst)
  have hmap : mapLengths (countLengths lengths) [] = .error .typeError := by
    rw [mapLengths, hkeys]
    rfl
  unfold cleanSignals
  rw [ExceptFold.bind_ok hpeaks, ExceptFold.bind_ok hmerge, hmap]
  rfl

theorem single_not_cleaned :
    cleanSignals id [100] = .error .typeError ∧ ¬CleansSignal id [100] := by
  have herror : cleanSignals id [100] = .error .typeError :=
    cleanSignals_typeError id (by simp) (by simp [Falls])
  refine ⟨herror, ?_⟩
  rintro ⟨⟨final, hclean, -⟩, -⟩
  rw [herror] at hclean
  cases hclean

end IguanaIR
