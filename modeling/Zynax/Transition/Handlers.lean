import Mathlib.Data.List.Basic

namespace Zynax.Transition

/-!
# Handlers

A handler serves one request: it puts things out, waits for something to happen, goes on, and returns
in the end.  What it can be told depends on where it waits, and is chosen from outside.

* `prefix_exec`, `exec_returned`, `mem_exec_iff`, `exec_step` — the rules: what holds of the whole
  output if it holds of every turn, and where a step stands in the run.
-/

variable {σ ω ρ : Type} {ι : σ → Type}

inductive Next (σ ρ : Type) where
  | waits (s : σ)
  | returns (r : ρ)

structure Turn (σ ω ρ : Type) where
  out : List ω
  next : Next σ ρ

def Turn.finish (out : List ω) (r : ρ) : Turn σ ω ρ := ⟨out, .returns r⟩

def Turn.wait (out : List ω) (s : σ) : Turn σ ω ρ := ⟨out, .waits s⟩

abbrev Answer (ι : σ → Type) : Type := (s : σ) → ι s

def exec (turn : (s : σ) → ι s → Turn σ ω ρ) : Turn σ ω ρ → List (Answer ι) → List ω × Next σ ρ
  | t, [] => (t.out, t.next)
  | t, a :: answers =>
    match t.next with
    | .returns r => (t.out, .returns r)
    | .waits s =>
      let rest := exec turn (turn s (a s)) answers
      (t.out ++ rest.1, rest.2)

def steps (turn : (s : σ) → ι s → Turn σ ω ρ) : Turn σ ω ρ → List (Answer ι) → List (Sigma ι)
  | _, [] => []
  | t, a :: answers =>
    match t.next with
    | .returns _ => []
    | .waits s => ⟨s, a s⟩ :: steps turn (turn s (a s)) answers

variable {turn : (s : σ) → ι s → Turn σ ω ρ}

variable {t : Turn σ ω ρ} {r : ρ}

theorem exec_of_returns (h : t.next = .returns r) (answers : List (Answer ι)) :
    exec turn t answers = (t.out, .returns r) := by
  cases answers <;> simp [exec, h]

theorem exec_cons_of_waits {s : σ} (h : t.next = .waits s) (a : Answer ι)
    (answers : List (Answer ι)) :
    exec turn t (a :: answers) =
      (t.out ++ (exec turn (turn s (a s)) answers).1, (exec turn (turn s (a s)) answers).2) := by
  simp [exec, h]

theorem steps_of_returns (h : t.next = .returns r) (answers : List (Answer ι)) :
    steps turn t answers = [] := by
  cases answers <;> simp [steps, h]

theorem steps_cons_of_waits {s : σ} (h : t.next = .waits s) (a : Answer ι)
    (answers : List (Answer ι)) :
    steps turn t (a :: answers) = ⟨s, a s⟩ :: steps turn (turn s (a s)) answers := by
  simp [steps, h]

theorem prefix_exec (t : Turn σ ω ρ) (answers : List (Answer ι)) :
    t.out <+: (exec turn t answers).1 := by
  cases answers with
  | nil => exact List.prefix_rfl
  | cons a answers =>
    cases hnext : t.next with
    | returns r =>
      have hexec : exec turn t (a :: answers) = (t.out, .returns r) := exec_of_returns hnext _
      grind
    | waits s =>
      rw [exec_cons_of_waits hnext]
      simp

def Turn.Within (Q R : List ω → Prop) (t : Turn σ ω ρ) : Prop :=
  match t.next with
  | .waits _ => Q t.out
  | .returns _ => R t.out

variable {answers : List (Answer ι)}

/-- **The output of a run that has returned**, put together from its turns. -/
theorem exec_returned {Q R : List ω → Prop} (happend : ∀ l m, Q l → R m → R (l ++ m))
    (hturn : ∀ s i, (turn s i).Within Q R) (ht : t.Within Q R)
    (hr : (exec turn t answers).2 = .returns r) :
    R (exec turn t answers).1 := by
  -- on the answers: the turns that go on meet `Q`, and what follows them `R`
  induction answers generalizing t with
  | nil =>
    have hnext : t.next = .returns r := hr
    show R t.out
    simpa only [Turn.Within, hnext] using ht
  | cons a answers ih =>
    cases hnext : t.next with
    | returns r' =>
      rw [exec_of_returns hnext]
      simpa only [Turn.Within, hnext] using ht
    | waits s =>
      rw [exec_cons_of_waits hnext] at hr ⊢
      refine happend _ _ ?_ (ih (hturn s (a s)) hr)
      simpa only [Turn.Within, hnext] using ht

/-- **What a run puts out is what its turns put out.** -/
theorem mem_exec_iff {o : ω} :
    o ∈ (exec turn t answers).1 ↔ o ∈ t.out ∨ ∃ p ∈ steps turn t answers, o ∈ (turn p.1 p.2).out := by
  induction answers generalizing t with
  | nil => simp [exec, steps]
  | cons a answers ih =>
    cases hnext : t.next with
    | returns r => simp [exec_of_returns hnext, steps_of_returns hnext]
    | waits s =>
      rw [exec_cons_of_waits hnext, steps_cons_of_waits hnext, List.mem_append, ih]
      simp

/-- **A step of a run is one after which the handler goes on, or the last one**, whose output ends
    the run. -/
theorem exec_step {p : Sigma ι}
    (hp : p ∈ steps turn t answers) :
    (∃ s, (turn p.1 p.2).next = .waits s) ∨
      ∃ before r, (turn p.1 p.2).next = .returns r ∧
        exec turn t answers = (before ++ (turn p.1 p.2).out, .returns r) := by
  induction answers generalizing t with
  | nil => exact absurd hp (by simp [steps])
  | cons a answers ih =>
    cases hnext : t.next with
    | returns r =>
      rw [steps_of_returns hnext] at hp
      exact absurd hp (by simp)
    | waits s =>
      rw [steps_cons_of_waits hnext] at hp
      rw [exec_cons_of_waits hnext]
      rcases List.mem_cons.mp hp with rfl | hp
      -- the step in question, or a later one
      · cases hstep : (turn s (a s)).next with
        | waits s' => exact Or.inl ⟨s', rfl⟩
        | returns r => exact Or.inr ⟨t.out, r, rfl, by rw [exec_of_returns hstep]⟩
      · grind

end Zynax.Transition
