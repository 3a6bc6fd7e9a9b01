import Mathlib.Data.List.Basic

/-! # Runs of a partial machine

`step s e` takes a state and an event to the next state and an output, or is undefined.
`run` folds it over a list of events and collects the outputs.  `Guarded step G s es` says
that every event of the run meets the condition `G` in the state it finds.

`run_invariant` carries an invariant through a guarded run, and `run_always` one that needs no
guard through any run; `always_iff_guarded` says that a property holds all along a run exactly when
every event meets the condition that decides it, and `outputs_iff_guarded` says so of the outputs;
`run_simulates` carries a relation to the states of a second machine that
reads the events and the outputs of the first, and collects what the steps guarantee on the way;
`run_paired` carries one to a second run of the same machine, on other events. -/

namespace Transition

variable {σ ε ο τ : Type}

def run (step : σ → ε → Option (σ × ο)) : σ → List ε → Option (σ × List ο)
  | s, [] => some (s, [])
  | s, e :: es => do
      let (s₁, o) ← step s e
      let (s₂, os) ← run step s₁ es
      some (s₂, o :: os)

/-- Every event of the run meets `G` in the state it finds. -/
def Guarded (step : σ → ε → Option (σ × ο)) (G : σ → ε → Prop) : σ → List ε → Prop
  | _, [] => True
  | s, e :: es => G s e ∧ ∀ r ∈ step s e, Guarded step G r.1 es

variable {step : σ → ε → Option (σ × ο)} {G : σ → ε → Prop}

instance decidableGuarded [DecidableRel G] : ∀ s es, Decidable (Guarded step G s es)
  | _, [] => isTrue trivial
  | s, e :: es =>
      have : ∀ s', Decidable (Guarded step G s' es) := fun s' => decidableGuarded s' es
      inferInstanceAs (Decidable (G s e ∧ ∀ r ∈ step s e, Guarded step G r.1 es))

theorem run_cons {s s' : σ} {e : ε} {es : List ε} {os : List ο}
    (h : run step s (e :: es) = some (s', os)) :
    ∃ s₁ o os', step s e = some (s₁, o) ∧ run step s₁ es = some (s', os') ∧ os = o :: os' := by
  simp only [run, Option.bind_eq_bind, Option.bind_eq_some_iff, Option.some.injEq] at h
  obtain ⟨⟨s₁, o⟩, h₁, ⟨s₂, os'⟩, h₂, h₃⟩ := h
  obtain ⟨rfl, rfl⟩ := Prod.mk.inj h₃
  exact ⟨s₁, o, os', h₁, h₂, rfl⟩

theorem run_step {s s₁ s' : σ} {e : ε} {o : ο} {es : List ε} {os : List ο}
    (h : step s e = some (s₁, o)) (h' : run step s₁ es = some (s', os)) :
    run step s (e :: es) = some (s', o :: os) := by
  simp only [run, h, h', Option.bind_eq_bind, Option.bind_some]

/-- Two runs, the second one from where the first one ends. -/
theorem run_trans {es₁ es₂ : List ε} {s s₁ s' : σ} {os₁ os₂ : List ο}
    (h₁ : run step s es₁ = some (s₁, os₁)) (h₂ : run step s₁ es₂ = some (s', os₂)) :
    run step s (es₁ ++ es₂) = some (s', os₁ ++ os₂) := by
  induction es₁ generalizing s os₁ with
  | nil =>
      obtain ⟨rfl, rfl⟩ := Prod.mk.inj (Option.some.inj h₁)
      exact h₂
  | cons e es₁ ih =>
      obtain ⟨s₂, o, os, hstep, hrest, rfl⟩ := run_cons h₁
      exact run_step hstep (ih hrest)

/-- A run of two parts goes through a state between them. -/
theorem run_append {es₁ es₂ : List ε} {s s' : σ} {os : List ο}
    (h : run step s (es₁ ++ es₂) = some (s', os)) :
    ∃ s₁ os₁ os₂, run step s es₁ = some (s₁, os₁) ∧ run step s₁ es₂ = some (s', os₂) := by
  induction es₁ generalizing s os with
  | nil => exact ⟨s, [], os, rfl, h⟩
  | cons e es₁ ih =>
      obtain ⟨s₁, o, os', h₁, h₂, rfl⟩ := run_cons h
      obtain ⟨s₂, os₁, os₂, h₃, h₄⟩ := ih h₂
      exact ⟨s₂, o :: os₁, os₂, run_step h₁ h₃, h₄⟩

/-- Both parts of a guarded run are guarded. -/
theorem guarded_append {es₁ es₂ : List ε} {s s₁ : σ} {os : List ο}
    (hg : Guarded step G s (es₁ ++ es₂)) (h : run step s es₁ = some (s₁, os)) :
    Guarded step G s es₁ ∧ Guarded step G s₁ es₂ := by
  induction es₁ generalizing s os with
  | nil =>
      obtain ⟨rfl, -⟩ := Prod.mk.inj (Option.some.inj h)
      exact ⟨trivial, hg⟩
  | cons e es₁ ih =>
      obtain ⟨s₂, o, os', h₁, h₂, rfl⟩ := run_cons h
      have hrest := ih (hg.2 (s₂, o) h₁) h₂
      refine ⟨⟨hg.1, ?_⟩, hrest.2⟩
      intro r hr
      obtain rfl := Option.some.inj (h₁.symm.trans hr)
      exact hrest.1

/-- An invariant that every guarded step keeps holds at the end of a guarded run. -/
theorem run_invariant {I : σ → Prop}
    (hstep : ∀ s e s' o, I s → G s e → step s e = some (s', o) → I s') (es : List ε) (s s' : σ)
    (os : List ο) (hs : I s) (hg : Guarded step G s es) (h : run step s es = some (s', os)) :
    I s' := by
  induction es generalizing s os with
  | nil =>
      obtain ⟨rfl, -⟩ := Prod.mk.inj (Option.some.inj h)
      exact hs
  | cons e es ih =>
      obtain ⟨s₁, o, os', h₁, h₂, rfl⟩ := run_cons h
      exact ih s₁ os' (hstep s e s₁ o hs hg.1 h₁) (hg.2 (s₁, o) h₁) h₂

/-- An invariant that every step keeps holds at the end of every run. -/
theorem run_always {I : σ → Prop} (hstep : ∀ s e s' o, I s → step s e = some (s', o) → I s')
    (es : List ε) (s s' : σ) (os : List ο) (hs : I s) (h : run step s es = some (s', os)) :
    I s' := by
  induction es generalizing s os with
  | nil =>
      obtain ⟨rfl, -⟩ := Prod.mk.inj (Option.some.inj h)
      exact hs
  | cons e es ih =>
      obtain ⟨s₁, o, os', h₁, h₂, rfl⟩ := run_cons h
      exact ih s₁ os' (hstep s e s₁ o hs h₁) h₂

/-- An invariant that every step keeps guards every run. -/
theorem guarded_of_invariant {I : σ → Prop}
    (hstep : ∀ s e s' o, I s → step s e = some (s', o) → I s') (es : List ε) (s : σ) (hs : I s) :
    Guarded step (fun s _ => I s) s es := by
  induction es generalizing s with
  | nil => trivial
  | cons e es ih =>
      refine ⟨hs, ?_⟩
      rintro ⟨s₁, o⟩ h
      exact ih s₁ (hstep s e s₁ o hs h)

/-- Two conditions that agree from the states of an invariant guard the same runs. -/
theorem guarded_iff {I : σ → Prop} {G' : σ → ε → Prop}
    (hstep : ∀ s e s' o, I s → step s e = some (s', o) → I s')
    (hiff : ∀ s e, I s → (G s e ↔ G' s e)) (es : List ε) (s : σ) (hs : I s) :
    Guarded step G s es ↔ Guarded step G' s es := by
  induction es generalizing s with
  | nil => rfl
  | cons e es ih =>
      rw [Guarded, Guarded, hiff s e hs]
      refine and_congr_right (fun _ => forall₂_congr ?_)
      rintro ⟨s₁, o⟩ h
      exact ih s₁ (hstep s e s₁ o hs h)

/-- The property holds in every state of the run. -/
def Always (step : σ → ε → Option (σ × ο)) (P : σ → Prop) : σ → List ε → Prop
  | s, [] => P s
  | s, e :: es => P s ∧ ∀ r ∈ step s e, Always step P r.1 es

/-- What always holds along a run holds at its end. -/
theorem always_end {P : σ → Prop} {es : List ε} {s s' : σ} {os : List ο}
    (hP : Always step P s es) (h : run step s es = some (s', os)) : P s' := by
  induction es generalizing s os with
  | nil =>
      obtain ⟨rfl, -⟩ := Prod.mk.inj (Option.some.inj h)
      exact hP
  | cons e es ih =>
      obtain ⟨s₁, o, os', h₁, h₂, rfl⟩ := run_cons h
      exact ih (hP.2 (s₁, o) h₁) h₂

/-- When a condition decides at every step, of the events that meet `A`, whether a property goes
on to hold, the runs in which it always holds are the guarded ones. -/
theorem always_iff_guarded {A : σ → ε → Prop} {P : σ → Prop}
    (hstep : ∀ s e s' o, P s → A s e → step s e = some (s', o) → (P s' ↔ G s e)) (es : List ε)
    (s s' : σ) (os : List ο) (hs : P s) (hA : Guarded step A s es)
    (h : run step s es = some (s', os)) : Always step P s es ↔ Guarded step G s es := by
  induction es generalizing s os with
  | nil => exact iff_of_true hs trivial
  | cons e es ih =>
      obtain ⟨s₁, o, os', h₁, h₂, -⟩ := run_cons h
      have hiff := hstep s e s₁ o hs hA.1 h₁
      simp only [Always, Guarded, h₁, Option.mem_some_iff, forall_eq']
      constructor
      · rintro ⟨-, hrest⟩
        have hs₁ : P s₁ := by
          cases es with
          | nil => exact hrest
          | cons e' es => exact hrest.1
        exact ⟨hiff.mp hs₁, (ih s₁ os' hs₁ (hA.2 (s₁, o) h₁) h₂).mp hrest⟩
      · rintro ⟨hG, hrest⟩
        have hs₁ := hiff.mpr hG
        exact ⟨hs, (ih s₁ os' hs₁ (hA.2 (s₁, o) h₁) h₂).mpr hrest⟩

/-- When a condition decides at every step, from the states of an invariant, whether the output is
right, the runs all of whose outputs are right are the guarded ones. -/
theorem outputs_iff_guarded {I : σ → Prop} {Q : ο → Prop}
    (hstep : ∀ s e s' o, I s → step s e = some (s', o) → I s' ∧ (Q o ↔ G s e)) (es : List ε)
    (s s' : σ) (os : List ο) (hs : I s) (h : run step s es = some (s', os)) :
    (∀ o ∈ os, Q o) ↔ Guarded step G s es := by
  induction es generalizing s os with
  | nil =>
      obtain ⟨-, rfl⟩ := Prod.mk.inj (Option.some.inj h)
      exact iff_of_true (List.forall_mem_nil _) trivial
  | cons e es ih =>
      obtain ⟨s₁, o, os', h₁, h₂, rfl⟩ := run_cons h
      obtain ⟨hs₁, hiff⟩ := hstep s e s₁ o hs h₁
      have hrest := ih s₁ os' hs₁ h₂
      simp only [List.forall_mem_cons, Guarded, h₁, Option.mem_some_iff, forall_eq', hiff, hrest]

/-- The outputs of a run, each with the event that caused it. -/
def trace (es : List ε) (os : List ο) : List (ε × ο) := es.zip os

/-- A second machine that reads events and outputs, and what it asks of each step. -/
def Accepts (next : τ → ε → ο → τ) (ok : τ → ε → ο → Prop) : τ → List (ε × ο) → Prop
  | _, [] => True
  | t, (e, o) :: tr => ok t e o ∧ Accepts next ok (next t e o) tr

/-- **Simulation.**  When every guarded step from related states does what the second machine
asks and leads to related states, the trace of every guarded run is accepted. -/
theorem run_simulates {next : τ → ε → ο → τ} {ok : τ → ε → ο → Prop} {R : σ → τ → Prop}
    (hstep : ∀ s t e s' o, R s t → G s e → step s e = some (s', o) →
      ok t e o ∧ R s' (next t e o)) (es : List ε) (s s' : σ) (t : τ) (os : List ο) (hR : R s t)
    (hg : Guarded step G s es) (h : run step s es = some (s', os)) :
    Accepts next ok t (trace es os) := by
  induction es generalizing s t os with
  | nil => trivial
  | cons e es ih =>
      obtain ⟨s₁, o, os', h₁, h₂, rfl⟩ := run_cons h
      obtain ⟨hok, hR'⟩ := hstep s t e s₁ o hR hg.1 h₁
      exact ⟨hok, ih s₁ _ os' hR' (hg.2 (s₁, o) h₁) h₂⟩

/-- The events of two runs are related in the states that they find. -/
def Paired (step : σ → ε → Option (σ × ο)) (E : σ → σ → ε → ε → Prop) :
    σ → σ → List ε → List ε → Prop
  | _, _, [], [] => True
  | s, t, e :: es, f :: fs =>
      E s t e f ∧ ∀ r ∈ step s e, ∀ q ∈ step t f, Paired step E r.1 q.1 es fs
  | _, _, _, _ => False

theorem paired_cons {E : σ → σ → ε → ε → Prop} {s t s₁ t₁ : σ} {e f : ε} {o q : ο} {es fs : List ε}
    (hE : E s t e f) (hs : step s e = some (s₁, o)) (ht : step t f = some (t₁, q))
    (h : Paired step E s₁ t₁ es fs) : Paired step E s t (e :: es) (f :: fs) := by
  refine ⟨hE, fun r hr q hq => ?_⟩
  obtain rfl := Option.some.inj (hs.symm.trans hr)
  obtain rfl := Option.some.inj (ht.symm.trans hq)
  exact h

/-- **Two runs side by side.**  When related events have the same output in related states and lead
to related states, so do the runs. -/
theorem run_paired {R : σ → σ → Prop} {E : σ → σ → ε → ε → Prop}
    (hstep : ∀ s t e f s' o, R s t → E s t e f → step s e = some (s', o) →
      ∃ t', step t f = some (t', o) ∧ R s' t') (es fs : List ε) (s t s' : σ) (os : List ο)
    (hR : R s t) (hE : Paired step E s t es fs) (h : run step s es = some (s', os)) :
    ∃ t', run step t fs = some (t', os) ∧ R s' t' := by
  induction es generalizing fs s t os with
  | nil =>
      obtain ⟨rfl, rfl⟩ := Prod.mk.inj (Option.some.inj h)
      cases fs with
      | nil => exact ⟨t, rfl, hR⟩
      | cons f fs => exact hE.elim
  | cons e es ih =>
      cases fs with
      | nil => exact hE.elim
      | cons f fs =>
          obtain ⟨s₁, o, os', h₁, h₂, rfl⟩ := run_cons h
          obtain ⟨t₁, h₃, hR₁⟩ := hstep s t e f s₁ o hR hE.1 h₁
          obtain ⟨t', h₄, hR'⟩ := ih fs s₁ t₁ os' hR₁ (hE.2 (s₁, o) h₁ (t₁, o) h₃) h₂
          exact ⟨t', run_step h₃ h₄, hR'⟩

end Transition
