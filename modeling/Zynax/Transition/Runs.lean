import Mathlib.Data.List.Basic

namespace Zynax.Transition

/-!
# Runs of a state machine

A machine is a step function on states and events; a run is the list of the events that happen to
it.
-/

variable {σ ε : Type} {step : σ → ε → σ} {C D : σ → ε → Prop} {I : σ → Prop} {s : σ}
  {events : List ε}

def run (step : σ → ε → σ) (s : σ) (events : List ε) : σ := events.foldl step s

def Along (step : σ → ε → σ) (C : σ → ε → Prop) : σ → List ε → Prop
  | _, [] => True
  | s, e :: events => C s e ∧ Along step C (step s e) events

instance Along.decidable [∀ s e, Decidable (C s e)] : ∀ s events, Decidable (Along step C s events)
  | _, [] => isTrue trivial
  | s, e :: events =>
    have := Along.decidable (step s e) events
    inferInstanceAs (Decidable (_ ∧ _))

@[simp] theorem run_nil (s : σ) : run step s [] = s := rfl

@[simp] theorem run_cons (s : σ) (e : ε) (events : List ε) :
    run step s (e :: events) = run step (step s e) events := rfl

theorem run_append (s : σ) (l r : List ε) : run step s (l ++ r) = run step (run step s l) r :=
  List.foldl_append

theorem along_append {l r : List ε} :
    Along step C s (l ++ r) ↔ Along step C s l ∧ Along step C (run step s l) r := by
  induction l generalizing s with
  | nil => simp [Along]
  | cons e l ih => simp [Along, ih, and_assoc]

/-- **The invariant rule.** -/
theorem run_invariant (hstep : ∀ s e, I s → C s e → I (step s e)) (hs : I s)
    (h : Along step C s events) : I (run step s events) := by
  induction events generalizing s with
  | nil => exact hs
  | cons e events ih => exact ih (hstep s e hs h.1) h.2

theorem along_of_invariant (hstep : ∀ s e, I s → C s e → D s e ∧ I (step s e)) (hs : I s)
    (h : Along step C s events) : Along step D s events := by
  induction events generalizing s with
  | nil => trivial
  | cons e events ih =>
    obtain ⟨hd, hnext⟩ := hstep s e hs h.1
    exact ⟨hd, ih hnext h.2⟩

theorem along_of_forall (h : ∀ e ∈ events, ∀ s, C s e) (s : σ) :
    Along step C s events := by
  induction events generalizing s with
  | nil => trivial
  | cons e events ih =>
    exact ⟨h e (by simp) s, ih (fun e' he' => h e' (by simp [he'])) _⟩

theorem Along.and (hC : Along step C s events)
    (hD : Along step D s events) : Along step (fun s e => C s e ∧ D s e) s events := by
  induction events generalizing s with
  | nil => trivial
  | cons e events ih => exact ⟨⟨hC.1, hD.1⟩, ih hC.2 hD.2⟩

/-! ### Fair runs -/

section Fair

variable {τ : Type} {core : σ → τ} {w : τ → Nat} {done : τ → Prop} {needed : List ε}

theorem run_le (hstep : ∀ s e, w (core (step s e)) < w (core s) ∨ core (step s e) = core s)
    (events : List ε) (s : σ) : w (core (run step s events)) ≤ w (core s) := by
  induction events generalizing s with
  | nil => exact Nat.le_refl _
  | cons e events ih =>
    apply Nat.le_trans (ih (step s e))
    grind

theorem run_lt_of_mem (hstep : ∀ s e, w (core (step s e)) < w (core s) ∨ core (step s e) = core s)
    {e : ε} (he : ∀ s', core s' = core s → w (core (step s' e)) < w (core s')) (hmem : e ∈ events) :
    w (core (run step s events)) < w (core s) := by
  -- up to that step the machine stays where it is, or has got closer already
  induction events generalizing s with
  | nil => cases hmem
  | cons e' events ih =>
    rcases hstep s e' with hlt | heq
    · exact Nat.lt_of_le_of_lt (run_le hstep events (step s e')) hlt
    · rcases List.mem_cons.mp hmem with rfl | hmem
      · have hlt := he s rfl
        rw [heq] at hlt
        exact absurd hlt (Nat.lt_irrefl _)
      · have hrest := ih (fun s' hs' => he s' (hs'.trans heq)) hmem
        rw [heq] at hrest
        exact hrest

/-- **Fair runs end.** -/
theorem run_fair (hstep : ∀ s e, w (core (step s e)) < w (core s) ∨ core (step s e) = core s)
    (hI : ∀ s e, I s → I (step s e)) (hdone : ∀ s e, done (core s) → done (core (step s e)))
    (hneeded : ∀ s, I s → ¬done (core s) →
      ∃ e ∈ needed, ∀ s', core s' = core s → w (core (step s' e)) < w (core s'))
    {rounds : List (List ε)} (hrounds : ∀ r ∈ rounds, ∀ e ∈ needed, e ∈ r) {s : σ} (hs : I s)
    (hlen : w (core s) ≤ rounds.length) : done (core (run step s rounds.flatten)) := by
  have hkeep : ∀ {P : σ → Prop}, (∀ s e, P s → P (step s e)) → ∀ events s, P s → P (run step s events) := by
    intro P hP events
    induction events with
    | nil => exact fun s h => h
    | cons e events ih => exact fun s h => ih (step s e) (hP s e h)
  induction rounds generalizing s with
  | nil =>
    -- nothing is left that could get closer
    by_contra hnot
    obtain ⟨e, -, he⟩ := hneeded s hs hnot
    grind
  | cons r rounds ih =>
    rw [List.flatten_cons, run_append]
    by_cases hend : done (core s)
    · exact hkeep hdone _ _ (hkeep hdone r s hend)
    · obtain ⟨e, hmem, he⟩ := hneeded s hs hend
      have hlt := run_lt_of_mem hstep he (hrounds r List.mem_cons_self e hmem)
      rw [List.length_cons] at hlen
      apply ih (fun r' hr' => hrounds r' (List.mem_cons_of_mem r hr')) (hkeep hI r s hs)
      omega

end Fair

end Zynax.Transition
