import Mathlib.Init

/-! Runs of a transition system.

A system is a step relation between states, labelled with events. A run lists the
events that happened; each of them met a guard in the state it happened in, so that
"in every run whose events all meet the guard" is a statement about `Run step guard`,
and the guard that is always met gives all runs. -/
namespace Transition

variable {σ ε : Type} {step : σ → ε → σ → Prop} {guard : σ → ε → Prop}

inductive Run (step : σ → ε → σ → Prop) (guard : σ → ε → Prop) : σ → List ε → σ → Prop where
  | nil (s : σ) : Run step guard s [] s
  | snoc {s t u : σ} {es : List ε} {e : ε} (before : Run step guard s es t) (meets : guard t e)
      (last : step t e u) : Run step guard s (es ++ [e]) u

theorem Run.of_snoc {s u : σ} {es : List ε} {e : ε} (h : Run step guard s (es ++ [e]) u) :
    ∃ t, Run step guard s es t ∧ guard t e ∧ step t e u := by
  generalize hall : es ++ [e] = all at h
  cases h with
  | nil => exact absurd hall (by simp)
  | @snoc t _ es' e' before meets last =>
    obtain ⟨rfl, hlast⟩ := List.append_inj' hall rfl
    cases hlast
    exact ⟨t, before, meets, last⟩

theorem Run.mono {guard' : σ → ε → Prop} (weaker : ∀ s e, guard s e → guard' s e) {s t : σ}
    {es : List ε} (h : Run step guard s es t) : Run step guard' s es t := by
  induction h with
  | nil => exact .nil _
  | snoc _ meets last ih => exact ih.snoc (weaker _ _ meets) last

theorem Run.cons {s t u : σ} {e : ε} {es : List ε} (meets : guard s e) (first : step s e t)
    (rest : Run step guard t es u) : Run step guard s (e :: es) u := by
  induction rest with
  | nil => exact (Run.nil s).snoc meets first
  | snoc _ meets' last ih => exact ih.snoc meets' last

theorem Run.of_foldlM {δ : Type} {next : σ → ε → Except δ σ} {s t : σ} {es : List ε}
    (h : es.foldlM next s = .ok t) : Run (fun s e s' => next s e = .ok s') (fun _ _ => True) s es t := by
  induction es generalizing s with
  | nil =>
    cases h
    exact .nil _
  | cons e rest ih =>
    rw [List.foldlM_cons] at h
    cases hfirst : next s e with
    | error d =>
      rw [hfirst] at h
      cases h
    | ok u =>
      rw [hfirst] at h
      exact .cons trivial hfirst (ih h)

/-- **The invariant rule**: what holds at the start and is kept by every step holds in
every state reached. -/
theorem Run.invariant {I : σ → Prop}
    (kept : ∀ s e s', I s → guard s e → step s e s' → I s') {s t : σ} {es : List ε}
    (h : Run step guard s es t) (hs : I s) : I t := by
  induction h with
  | nil => exact hs
  | snoc _ meets last ih => exact kept _ _ _ ih meets last

/-- **The simulation rule**: where every step is matched by a step of another system, every
run is matched by a run. -/
theorem Run.simulates {τ : Type} {step' : τ → ε → τ → Prop} {R : σ → τ → Prop}
    (matched : ∀ s e s' t, R s t → step s e s' → ∃ t', step' t e t' ∧ R s' t') {s s' : σ} {t : τ}
    {es : List ε} (h : Run step guard s es s') (hs : R s t) :
    ∃ t', Run step' (fun _ _ => True) t es t' ∧ R s' t' := by
  induction h with
  | nil => exact ⟨t, .nil t, hs⟩
  | snoc _ _ last ih =>
    obtain ⟨t₁, hrun, hrel⟩ := ih
    obtain ⟨t₂, hstep, hrel₂⟩ := matched _ _ _ t₁ hrel last
    exact ⟨t₂, hrun.snoc trivial hstep, hrel₂⟩

/-- Where every state reached satisfies the invariant, events that meet the guard meet what
the two imply. -/
theorem Run.mono_of_invariant {I : σ → Prop} {guard' : σ → ε → Prop}
    (kept : ∀ s e s', I s → guard s e → step s e s' → I s')
    (weaker : ∀ s e, I s → guard s e → guard' s e) {s t : σ} {es : List ε}
    (h : Run step guard s es t) (hs : I s) : Run step guard' s es t := by
  induction h with
  | nil => exact .nil _
  | snoc before meets last ih => exact ih.snoc (weaker _ _ (before.invariant kept hs) meets) last

/-- **The rule for a property that some steps break.** If it is known which steps keep the
property where it holds, then it holds after any run of such steps, and wherever else it
holds the next step keeps it exactly if it is such a step. -/
theorem Run.kept_iff {I R : σ → Prop} {keeps : σ → ε → Prop}
    (invariant : ∀ s e s', I s → guard s e → step s e s' → I s')
    (kept : ∀ s e s', I s → R s → guard s e → step s e s' → (R s' ↔ keeps s e)) {s t : σ} {es : List ε}
    (h : Run step guard s es t) (hs : I s) (hright : R s) :
    (Run step (fun s e => guard s e ∧ keeps s e) s es t → R t) ∧
      ∀ e u, guard t e → step t e u → R t → (R u ↔ keeps t e) := by
  constructor
  · intro hkept
    have hboth : ∀ s e s', I s ∧ R s → guard s e ∧ keeps s e → step s e s' → I s' ∧ R s' :=
      fun s e s' hs hmeets hstep => ⟨invariant s e s' hs.1 hmeets.1 hstep,
        (kept s e s' hs.1 hs.2 hmeets.1 hstep).mpr hmeets.2⟩
    exact (hkept.invariant hboth ⟨hs, hright⟩).2
  · intro e u hmeets hstep ht
    exact kept t e u (h.invariant invariant hs) ht hmeets hstep

/-- **The rule for what is lost for good.** A step that does not keep the property leads to
where no step brings it back, so the runs of steps that keep it are those after which it
holds. -/
theorem Run.kept_iff_of_lost {I L : σ → Prop} {keeps : σ → ε → Prop}
    (kept : ∀ s e s', I s → guard s e → keeps s e → step s e s' → I s')
    (lost : ∀ s e s', I s → guard s e → ¬ keeps s e → step s e s' → L s')
    (stays : ∀ s e s', L s → guard s e → step s e s' → L s')
    (apart : ∀ s, I s → ¬ L s) {s t : σ} {es : List ε} (h : Run step guard s es t) (hs : I s) :
    (Run step (fun s e => guard s e ∧ keeps s e) s es t ↔ I t) ∧ (I t ∨ L t) := by
  have hforward : Run step (fun s e => guard s e ∧ keeps s e) s es t → I t := fun hkept =>
    hkept.invariant (fun s e s' hI hmeets hstep => kept s e s' hI hmeets.1 hmeets.2 hstep) hs
  have hboth : (Run step (fun s e => guard s e ∧ keeps s e) s es t ∧ I t) ∨ L t := by
    clear hforward
    induction h with
    | nil => exact Or.inl ⟨.nil s, hs⟩
    | @snoc t u _ e before meets last ih =>
      rcases ih with ⟨hrun, hI⟩ | hL
      · by_cases hkeeps : keeps t e
        · exact Or.inl ⟨hrun.snoc ⟨meets, hkeeps⟩ last, kept t e u hI meets hkeeps last⟩
        · exact Or.inr (lost t e u hI meets hkeeps last)
      · exact Or.inr (stays t e u hL meets last)
  rcases hboth with ⟨hrun, hI⟩ | hL
  · exact ⟨iff_of_true hrun hI, Or.inl hI⟩
  · exact ⟨⟨hforward, fun hI => absurd hL (apart t hI)⟩, Or.inr hL⟩

/-! ### Requests

Some events ask for something and some serve it. -/

/-- The events ask for something that none of the later ones serves. -/
def Outstanding (asks serves : ε → Prop) (es : List ε) : Prop :=
  ∃ before e after, es = before ++ e :: after ∧ asks e ∧ ∀ e' ∈ after, ¬ serves e'

variable {asks serves : ε → Prop}

theorem not_outstanding_nil : ¬ Outstanding asks serves [] := by
  rintro ⟨before, e, after, h, _⟩
  cases before <;> cases h

theorem Outstanding.of_snoc {es : List ε} {e : ε} (h : Outstanding asks serves (es ++ [e])) :
    asks e ∨ Outstanding asks serves es ∧ ¬ serves e := by
  obtain ⟨before, e', after, hes, hasks, hafter⟩ := h
  rcases List.eq_nil_or_concat after with rfl | ⟨after, last, rfl⟩
  · obtain ⟨-, hlast⟩ := List.append_inj' hes rfl
    cases hlast
    exact Or.inl hasks
  · rw [List.concat_eq_append, ← List.cons_append, ← List.append_assoc] at hes
    obtain ⟨hinit, hlast⟩ := List.append_inj' hes rfl
    cases hlast
    refine Or.inr ⟨⟨before, e', after, hinit, hasks, fun x hx => hafter x ?_⟩, hafter e ?_⟩
    · simp [hx]
    · simp

end Transition
