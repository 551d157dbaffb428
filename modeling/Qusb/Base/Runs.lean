import Mathlib.Data.List.Basic

/-! Runs of a machine whose step may fault.

A machine is a step function `σ → ε → Except φ σ` over states and events. `run` feeds a list of
events and stops at the first fault. `Meets` says that every event of a run satisfies a condition
in the state it is taken from; `Reach` collects the states reached by events that satisfy one. The
rules below turn a fact about one step into a fact about whole runs. -/

namespace Runs

variable {σ ε φ : Type*}

/-- Feed the events in order; the first fault ends the run. -/
def run (step : σ → ε → Except φ σ) : σ → List ε → Except φ σ
  | s, [] => .ok s
  | s, e :: es =>
      match step s e with
      | .error f => .error f
      | .ok s' => run step s' es

/-- The run ends without a fault. -/
def Safe (step : σ → ε → Except φ σ) (s : σ) (es : List ε) : Prop :=
  ∃ s', run step s es = .ok s'

/-- Every event of the run meets `C` in the state it is taken from. -/
def Meets (step : σ → ε → Except φ σ) (C : σ → ε → Prop) : σ → List ε → Prop
  | _, [] => True
  | s, e :: es => C s e ∧ ∀ s', step s e = .ok s' → Meets step C s' es

/-- The states reached from `s₀` by events that meet `C`. -/
inductive Reach (step : σ → ε → Except φ σ) (C : σ → ε → Prop) (s₀ : σ) : σ → Prop
  | start : Reach step C s₀ s₀
  | next {s s' : σ} (e : ε) : Reach step C s₀ s → C s e → step s e = .ok s' → Reach step C s₀ s'

variable {step : σ → ε → Except φ σ} {A C P : σ → ε → Prop} {I : σ → Prop}

theorem run_cons_ok {s s' : σ} {e : ε} {es : List ε} (h : step s e = .ok s') :
    run step s (e :: es) = run step s' es := by
  rw [run, h]

theorem run_cons_error {s : σ} {e : ε} {es : List ε} {f : φ} (h : step s e = .error f) :
    run step s (e :: es) = .error f := by
  rw [run, h]

theorem run_cons_eq_ok_iff {s s' : σ} {e : ε} {es : List ε} :
    run step s (e :: es) = .ok s' ↔ ∃ s₁, step s e = .ok s₁ ∧ run step s₁ es = .ok s' := by
  cases h : step s e with
  | error f => simp [run_cons_error h]
  | ok s₁ => simp [run_cons_ok h]

theorem safe_nil (s : σ) : Safe step s [] := ⟨s, rfl⟩

theorem safe_cons_iff {s : σ} {e : ε} {es : List ε} :
    Safe step s (e :: es) ↔ ∃ s', step s e = .ok s' ∧ Safe step s' es := by
  unfold Safe
  cases h : step s e with
  | error f => simp [run_cons_error h]
  | ok s' => simp [run_cons_ok h]

/-- An invariant of every allowed step holds in every reached state. -/
theorem Reach.inv {s₀ s : σ} (h : Reach step C s₀ s) (h0 : I s₀)
    (hstep : ∀ s e s', I s → C s e → step s e = .ok s' → I s') : I s := by
  induction h with
  | start => exact h0
  | next e _ hc hs ih => exact hstep _ e _ ih hc hs

theorem Reach.mono {s₀ s : σ} (h : Reach step A s₀ s) (himp : ∀ s e, A s e → C s e) : Reach step C s₀ s := by
  induction h with
  | start => exact .start
  | next e _ ha hs ih => exact .next e ih (himp _ e ha) hs

/-- Reaching on from a reached state. -/
theorem Reach.trans {s₀ s₁ s₂ : σ} (h₁ : Reach step C s₀ s₁) (h₂ : Reach step C s₁ s₂) :
    Reach step C s₀ s₂ := by
  induction h₂ with
  | start => exact h₁
  | next e _ hc hs ih => exact .next e ih hc hs

/-- A run all of whose events meet the condition reaches the state it ends in. -/
theorem Meets.reach {s s' : σ} {es : List ε} (h : Meets step C s es)
    (hrun : run step s es = .ok s') : Reach step C s s' := by
  induction es generalizing s with
  | nil =>
      cases hrun
      exact .start
  | cons e es ih =>
      obtain ⟨s₁, hs, hrun⟩ := run_cons_eq_ok_iff.mp hrun
      exact (Reach.next e .start h.1 hs).trans (ih (h.2 s₁ hs) hrun)

/-- A run whose events all go through is free of faults. -/
theorem Meets.safe {s : σ} {es : List ε} (h : Meets step C s es)
    (hok : ∀ s, ∀ e ∈ es, C s e → ∃ s', step s e = .ok s') : Safe step s es := by
  induction es generalizing s with
  | nil => exact safe_nil s
  | cons e es ih =>
      obtain ⟨s', hs⟩ := hok s e List.mem_cons_self h.1
      exact safe_cons_iff.mpr
        ⟨s', hs, ih (h.2 s' hs) fun s e he => hok s e (List.mem_cons_of_mem _ he)⟩

theorem meets_of_forall {s : σ} {es : List ε} (h : ∀ e ∈ es, ∀ s, C s e) : Meets step C s es := by
  induction es generalizing s with
  | nil => trivial
  | cons e es ih =>
      exact ⟨h e List.mem_cons_self s, fun _ _ => ih fun e he => h e (List.mem_cons_of_mem _ he)⟩

theorem meets_true {s : σ} {es : List ε} : Meets step (fun _ _ => True) s es :=
  meets_of_forall fun _ _ _ => trivial

/-- Where a run comes is reached. -/
theorem reach_of_run {s s' : σ} (es : List ε) (hrun : run step s es = .ok s') :
    Reach step (fun _ _ => True) s s' :=
  meets_true.reach hrun

/-- Equivalent conditions hold along the same runs. -/
theorem Meets.congr (hiff : ∀ s e, A s e ↔ P s e) {s : σ} {es : List ε} :
    Meets step A s es ↔ Meets step P s es := by
  induction es generalizing s with
  | nil => exact Iff.rfl
  | cons e es ih =>
      refine and_congr (hiff s e) ?_
      exact forall_congr' fun s' => imp_congr_right fun _ => ih

instance decidableExistsOkAnd {p : σ → Prop} [DecidablePred p] (r : Except φ σ) :
    Decidable (∃ s, r = .ok s ∧ p s) :=
  match r with
  | .ok s => decidable_of_iff (p s) (by simp)
  | .error _ => isFalse (by simp)

instance decidableExistsOk (r : Except φ σ) : Decidable (∃ s, r = .ok s) :=
  match r with
  | .ok s => isTrue ⟨s, rfl⟩
  | .error _ => isFalse (by simp)

instance decidableForallOk {p : σ → Prop} [DecidablePred p] (r : Except φ σ) :
    Decidable (∀ s, r = .ok s → p s) :=
  match r with
  | .ok s => decidable_of_iff (p s) (by simp)
  | .error _ => isTrue (by simp)

instance decidableForallError {p : φ → Prop} [DecidablePred p] (r : Except φ σ) :
    Decidable (∀ f, r = .error f → p f) :=
  match r with
  | .ok _ => isTrue (by simp)
  | .error f => decidable_of_iff (p f) (by simp)

instance (s : σ) (es : List ε) : Decidable (Safe step s es) :=
  inferInstanceAs (Decidable (∃ s', run step s es = .ok s'))

/-- Along a concrete run a decidable condition can be checked. -/
instance Meets.decidable [∀ s e, Decidable (C s e)] : ∀ s es, Decidable (Meets step C s es)
  | _, [] => isTrue trivial
  | s, e :: es =>
      match h : step s e with
      | .error _ => decidable_of_iff (C s e) (by simp [Meets, h])
      | .ok s' =>
          have := Meets.decidable s' es
          decidable_of_iff (C s e ∧ Meets step C s' es) (by simp [Meets, h])

/-- **Conditions along a run.** If, under an invariant, the events of the run that meet `A` have the
property `P`, every event of the run has it. -/
theorem Meets.imp {s : σ} {es : List ε} (h0 : I s) (h : Meets step A s es)
    (hprop : ∀ s e, I s → A s e → P s e)
    (hstep : ∀ s e s', I s → A s e → step s e = .ok s' → I s') : Meets step P s es := by
  induction es generalizing s with
  | nil => trivial
  | cons e es ih =>
      exact ⟨hprop s e h0 h.1, fun s' hs => ih (hstep s e s' h0 h.1 hs) (h.2 s' hs)⟩

/-- **Equivalent conditions along a run.** If, under an invariant kept by the events that meet `A` and `C`,
an event that meets `A` has the property `P` exactly when it meets `C`, the events of a run all have the
property exactly when they all meet the condition. -/
theorem meets_iff_of_inv {s : σ} {es : List ε} (h0 : I s) (h : Meets step A s es)
    (hiff : ∀ s e, I s → A s e → (P s e ↔ C s e))
    (hstep : ∀ s e s', I s → A s e → C s e → step s e = .ok s' → I s') :
    Meets step P s es ↔ Meets step C s es := by
  induction es generalizing s with
  | nil => exact Iff.rfl
  | cons e es ih =>
      constructor
      · rintro ⟨hp, hrest⟩
        have hc := (hiff s e h0 h.1).mp hp
        exact ⟨hc, fun s' hs => (ih (hstep s e s' h0 h.1 hc hs) (h.2 s' hs)).mp (hrest s' hs)⟩
      · rintro ⟨hc, hrest⟩
        exact ⟨(hiff s e h0 h.1).mpr hc,
          fun s' hs => (ih (hstep s e s' h0 h.1 hc hs) (h.2 s' hs)).mpr (hrest s' hs)⟩

/-- **Exact safety of runs.** If, under an invariant kept by the events that meet `A`, a step goes
through exactly when `C` holds, then a run of events that meet `A` is free of faults exactly when each
of them meets `C`. -/
theorem safe_iff_meets {s : σ} {es : List ε} (h0 : I s) (h : Meets step A s es)
    (hexact : ∀ s e, I s → A s e → ((∃ s', step s e = .ok s') ↔ C s e))
    (hstep : ∀ s e s', I s → A s e → step s e = .ok s' → I s') :
    Safe step s es ↔ Meets step C s es := by
  induction es generalizing s with
  | nil => exact ⟨fun _ => trivial, fun _ => safe_nil s⟩
  | cons e es ih =>
      rw [safe_cons_iff]
      constructor
      · rintro ⟨s', hs, hsafe⟩
        refine ⟨(hexact s e h0 h.1).mp ⟨s', hs⟩, fun s₁ hs₁ => ?_⟩
        obtain rfl : s' = s₁ := Except.ok.inj (hs.symm.trans hs₁)
        exact (ih (hstep s e s' h0 h.1 hs) (h.2 s' hs)).mp hsafe
      · rintro ⟨hc, hrest⟩
        obtain ⟨s', hs⟩ := (hexact s e h0 h.1).mpr hc
        exact ⟨s', hs, (ih (hstep s e s' h0 h.1 hs) (h.2 s' hs)).mpr (hrest s' hs)⟩

/-- A property of states that every step keeps holds at the end of a run that goes through. -/
theorem run_inv {s s' : σ} {es : List ε} (hrun : run step s es = .ok s') (h0 : I s)
    (hstep : ∀ s e s', I s → step s e = .ok s' → I s') : I s' :=
  (Meets.reach meets_true hrun).inv h0 fun s e s' hs _ => hstep s e s' hs

/-- Where every allowed event goes through and keeps a property of states, a run of such events does. -/
theorem run_ok_of_inv {D : ε → Prop} {s : σ} {es : List ε} (h0 : I s) (hes : ∀ e ∈ es, D e)
    (hstep : ∀ s e, I s → D e → ∃ s', step s e = .ok s' ∧ I s') : ∃ s', run step s es = .ok s' ∧ I s' := by
  induction es generalizing s with
  | nil => exact ⟨s, rfl, h0⟩
  | cons e es ih =>
      obtain ⟨he, hes'⟩ := List.forall_mem_cons.mp hes
      obtain ⟨s₁, hs, h1⟩ := hstep s e h0 he
      rw [run_cons_ok hs]
      exact ih h1 hes'

theorem run_append_ok {s s' : σ} {es fs : List ε} (h : run step s es = .ok s') :
    run step s (es ++ fs) = run step s' fs := by
  induction es generalizing s with
  | nil =>
      cases h
      rfl
  | cons e es ih =>
      obtain ⟨s₁, hs, hrun⟩ := run_cons_eq_ok_iff.mp h
      rw [List.cons_append, run_cons_ok hs, ih hrun]

/-! ### Simulation -/

/-- What a second machine does, turn by turn, while the first takes its events. -/
def matched {η : Type*} (step : σ → ε → Except φ σ) (turn : σ → ε → σ → η) : σ → List ε → List η
  | _, [] => []
  | s, e :: es =>
      match step s e with
      | .ok s' => turn s e s' :: matched step turn s' es
      | .error _ => []

/-- **Simulation.** Where every step that ends in `L` is matched by a turn of another machine, every run that
does is matched by its turns. -/
theorem run_matched {τ η ψ : Type*} {step' : τ → η → Except ψ τ} {f : σ → τ} {turn : σ → ε → σ → η}
    {L : σ → Prop} (hsim : ∀ s e s', I s → step s e = .ok s' →
      I s' ∧ (L s' → L s ∧ step' (f s) (turn s e s') = .ok (f s')))
    {s s' : σ} {es : List ε} (h0 : I s) (hrun : run step s es = .ok s') (hlive : L s') :
    L s ∧ run step' (f s) (matched step turn s es) = .ok (f s') := by
  induction es generalizing s with
  | nil =>
      cases hrun
      exact ⟨hlive, rfl⟩
  | cons e es ih =>
      obtain ⟨s₁, hs, hrun⟩ := run_cons_eq_ok_iff.mp hrun
      obtain ⟨h1, hturn⟩ := hsim s e s₁ h0 hs
      obtain ⟨hlive₁, hrest⟩ := ih h1 hrun
      obtain ⟨hlive₀, hmove⟩ := hturn hlive₁
      rw [matched, hs]
      exact ⟨hlive₀, (run_cons_ok hmove).trans hrest⟩

/-- The states that one machine reaches are matched by states that another reaches. -/
theorem Reach.simulated {τ η ψ : Type*} {step' : τ → η → Except ψ τ} {C' : τ → η → Prop} {R : σ → τ → Prop}
    {s₀ s : σ} {t₀ : τ} (hreach : Reach step C s₀ s) (hrel : R s₀ t₀)
    (hsim : ∀ s t e s', R s t → C s e → step s e = .ok s' → ∃ t', Reach step' C' t t' ∧ R s' t') :
    ∃ t, Reach step' C' t₀ t ∧ R s t := by
  induction hreach with
  | start => exact ⟨t₀, .start, hrel⟩
  | next e _ hc hs ih =>
      obtain ⟨t, ht, hrel⟩ := ih
      obtain ⟨t', ht', hrel'⟩ := hsim _ t e _ hrel hc hs
      exact ⟨t', ht.trans ht', hrel'⟩

/-! ### Consecutive pairs -/

section

variable {α : Type*} {p q : α → α → Bool}

/-- The number of places in `a :: l` where `p` holds between an element and the next. -/
def countPairs (p : α → α → Bool) : α → List α → Nat
  | _, [] => 0
  | a, b :: l => (if p a b then 1 else 0) + countPairs p b l

@[simp] theorem countPairs_nil (p : α → α → Bool) (a : α) : countPairs p a [] = 0 := rfl

@[simp] theorem countPairs_cons (p : α → α → Bool) (a b : α) (l : List α) :
    countPairs p a (b :: l) = (if p a b then 1 else 0) + countPairs p b l := rfl

theorem countPairs_mono (himp : ∀ a b, p a b = true → q a b = true) (a : α) (l : List α) :
    countPairs p a l ≤ countPairs q a l := by
  induction l generalizing a with
  | nil => exact Nat.le_refl 0
  | cons b l ih =>
      have htail := ih b
      simp only [countPairs_cons]
      by_cases hp : p a b = true
      · rw [if_pos hp, if_pos (himp a b hp)]
        omega
      · rw [if_neg hp]
        omega

/-- Where `p` holds without `q` as often as `p` holds, `q` never holds with it. -/
theorem countPairs_and_not_eq_iff {a : α} {l : List α} :
    countPairs (fun a b => p a b && !q a b) a l = countPairs p a l ↔
      (a :: l).IsChain fun a b => p a b = true → q a b = false := by
  induction l generalizing a with
  | nil => simp
  | cons b l ih =>
      have htail := countPairs_mono (p := fun a b => p a b && !q a b) (q := p)
        (fun a b h => (Bool.and_eq_true_iff.mp h).1) b l
      rw [List.isChain_cons_cons]
      refine Iff.trans ?_ (and_congr_right' ih)
      simp only [countPairs_cons]
      cases p a b with
      | false => simp
      | true =>
          cases q a b with
          | false => simp
          | true =>
              simp
              omega

end

/-! ### Histories -/

variable {γ : Type*} {next : σ → ε → σ → γ → γ}

/-- The machine with a history beside it, which records and never interferes. -/
def track (step : σ → ε → Except φ σ) (next : σ → ε → σ → γ → γ) (s : σ × γ) (e : ε) :
    Except φ (σ × γ) :=
  (step s.1 e).map fun s' => (s', next s.1 e s' s.2)

theorem track_eq_ok {s s' : σ × γ} {e : ε} :
    track step next s e = .ok s' ↔ step s.1 e = .ok s'.1 ∧ s'.2 = next s.1 e s'.1 s.2 := by
  unfold track
  cases h : step s.1 e with
  | error f => simp [Except.map]
  | ok s₁ =>
      obtain ⟨s', g'⟩ := s'
      simp only [Except.map, Except.ok.injEq, Prod.mk.injEq]
      constructor
      · rintro ⟨rfl, rfl⟩
        exact ⟨rfl, rfl⟩
      · rintro ⟨rfl, rfl⟩
        exact ⟨rfl, rfl⟩

/-- Without the history. -/
theorem Reach.untrack {s₀ s : σ × γ} (hreach : Reach (track step next) (fun s e => C s.1 e) s₀ s) :
    Reach step C s₀.1 s.1 := by
  induction hreach with
  | start => exact .start
  | next e _ hc hs ih => exact .next e ih hc (track_eq_ok.mp hs).1

end Runs
