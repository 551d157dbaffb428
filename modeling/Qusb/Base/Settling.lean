import Qusb.Base.Runs

/-! What a machine comes to when it is left to itself.

Some events are internal: they happen sooner or later wherever they can, in an order that nobody chooses.
A machine settles if every run of internal events ends, however they are ordered, and leads to a state of a
given kind. A measure that every internal event lowers gives the first, progress the second. -/

namespace Runs

variable {σ ε φ : Type*}

/-- Some internal event can happen. -/
def CanMove (step : σ → ε → Except φ σ) (J : ε → Prop) (s : σ) : Prop := ∃ e s', J e ∧ step s e = .ok s'

/-- Runs of internal events have an end, and those that cannot go on have led to `P`. -/
structure Settles (step : σ → ε → Except φ σ) (J : ε → Prop) (P : σ → Prop) (s : σ) : Prop where
  bounded : ∃ n, ∀ es s', (∀ e ∈ es, J e) → run step s es = .ok s' → es.length ≤ n
  ends : ∀ es s', (∀ e ∈ es, J e) → run step s es = .ok s' → ¬ CanMove step J s' → P s'

variable {step : σ → ε → Except φ σ} {J : ε → Prop} {I P : σ → Prop}

/-- A run is no longer than the measure of the state it starts from. -/
theorem length_le_of_measure {μ : σ → Nat} {s s' : σ} {es : List ε} (h0 : I s) (hes : ∀ e ∈ es, J e)
    (hrun : run step s es = .ok s') (hstep : ∀ s e s', I s → J e → step s e = .ok s' → I s' ∧ μ s' < μ s) :
    es.length + μ s' ≤ μ s := by
  induction es generalizing s with
  | nil =>
      cases hrun
      exact Nat.le_of_eq (Nat.zero_add _)
  | cons e es ih =>
      obtain ⟨he, hes'⟩ := List.forall_mem_cons.mp hes
      obtain ⟨s₁, hs, hrun⟩ := run_cons_eq_ok_iff.mp hrun
      obtain ⟨h1, hlt⟩ := hstep s e s₁ h0 he hs
      have htail := ih h1 hes' hrun
      rw [List.length_cons]
      omega

/-- **Settling.** Where internal events keep an invariant and lower a measure, and the invariant leaves no
state without an internal event but those with `P`, the machine settles in such a state. -/
theorem settles_of_measure {μ : σ → Nat} {s : σ} (h0 : I s)
    (hstep : ∀ s e s', I s → J e → step s e = .ok s' → I s' ∧ μ s' < μ s)
    (hprogress : ∀ s, I s → ¬ CanMove step J s → P s) : Settles step J P s where
  bounded := by
    refine ⟨μ s, fun es s' hes hrun => ?_⟩
    have htotal := length_le_of_measure h0 hes hrun hstep
    omega
  ends := by
    intro es s' hes hrun hstuck
    refine hprogress s' ?_ hstuck
    exact ((meets_of_forall fun e he _ => hes e he).reach hrun).inv h0
      fun s e s' hs he hok => (hstep s e s' hs he hok).1

/-- A machine that settles gets, by internal events alone, to a state with `P`. -/
theorem Settles.reach {s : σ} (h : Settles step J P s) : ∃ s', Reach step (fun _ e => J e) s s' ∧ P s' := by
  obtain ⟨n, hn⟩ := h.bounded
  -- The longest runs cannot go on: the induction is on what is left to the bound.
  suffices hlong : ∀ k es s', (∀ e ∈ es, J e) → run step s es = .ok s' → es.length + k = n →
      ∃ s₁, Reach step (fun _ e => J e) s s₁ ∧ P s₁ by
    exact hlong n [] s (fun _ he => absurd he List.not_mem_nil) rfl (Nat.zero_add n)
  intro k
  induction k with
  | zero =>
      intro es s' hes hrun hlength
      refine ⟨s', (meets_of_forall fun e he _ => hes e he).reach hrun, h.ends es s' hes hrun ?_⟩
      rintro ⟨e, s₁, he, hok⟩
      have hnext := hn (es ++ [e]) s₁ (List.forall_mem_append.mpr ⟨hes, by simpa using he⟩)
        ((run_append_ok hrun).trans (run_cons_ok hok))
      rw [List.length_append, List.length_singleton] at hnext
      omega
  | succ k ih =>
      intro es s' hes hrun hlength
      by_cases hmove : CanMove step J s'
      · obtain ⟨e, s₁, he, hok⟩ := hmove
        refine ih (es ++ [e]) s₁ (List.forall_mem_append.mpr ⟨hes, by simpa using he⟩)
          ((run_append_ok hrun).trans (run_cons_ok hok)) ?_
        rw [List.length_append, List.length_singleton]
        omega
      · exact ⟨s', (meets_of_forall fun e he _ => hes e he).reach hrun, h.ends es s' hes hrun hmove⟩

end Runs
