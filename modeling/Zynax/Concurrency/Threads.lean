import Mathlib.Data.List.Basic

namespace Zynax.Concurrency

/-!
# Threads over shared memory

Any number of threads act on one shared memory, one atomic step at a time, in an order that is
chosen from outside.  A run is the list of what was chosen: which call came in, which thread
moved, and what its environment answered.

* `forall_update`, `countP_update` — how a property of the threads, or their number, changes
  when one of them moves.
-/

variable {σ τ κ ι : Type}

structure Program (σ τ κ ι : Type) where
  start : κ → τ
  step : ι → σ → τ → σ × τ × List τ

structure Config (σ τ : Type) where
  shared : σ
  threads : List τ
  deriving DecidableEq

inductive Act (κ ι : Type) where
  | call (k : κ)
  | step (i : Nat) (input : ι)
  deriving DecidableEq, Repr

def update (threads : List τ) (i : Nat) (t : τ) (more : List τ) : List τ := threads.set i t ++ more

def Program.act (P : Program σ τ κ ι) (c : Config σ τ) : Act κ ι → Config σ τ
  | .call k => { c with threads := c.threads ++ [P.start k] }
  | .step i input =>
    match c.threads[i]? with
    | none => c
    | some t =>
      let r := P.step input c.shared t
      ⟨r.1, update c.threads i r.2.1 r.2.2⟩

def Program.run (P : Program σ τ κ ι) (c : Config σ τ) (acts : List (Act κ ι)) : Config σ τ :=
  acts.foldl P.act c

def Program.Along (P : Program σ τ κ ι) (C : Config σ τ → Act κ ι → Prop) :
    Config σ τ → List (Act κ ι) → Prop
  | _, [] => True
  | c, a :: acts => C c a ∧ P.Along C (P.act c a) acts

variable {P : Program σ τ κ ι} {C : Config σ τ → Act κ ι → Prop} {I : Config σ τ → Prop}

@[simp] theorem Program.run_nil (c : Config σ τ) : P.run c [] = c := rfl

@[simp] theorem Program.run_cons (c : Config σ τ) (a : Act κ ι) (acts : List (Act κ ι)) :
    P.run c (a :: acts) = P.run (P.act c a) acts := rfl

theorem Program.run_append (c : Config σ τ) (l r : List (Act κ ι)) :
    P.run c (l ++ r) = P.run (P.run c l) r :=
  List.foldl_append

variable {c : Config σ τ} {i : Nat} {t : τ}

theorem Program.act_step (ht : c.threads[i]? = some t)
    (input : ι) :
    P.act c (.step i input) = ⟨(P.step input c.shared t).1,
      update c.threads i (P.step input c.shared t).2.1 (P.step input c.shared t).2.2⟩ := by
  simp only [Program.act, ht]

theorem Program.along_append {l r : List (Act κ ι)} :
    P.Along C c (l ++ r) ↔ P.Along C c l ∧ P.Along C (P.run c l) r := by
  induction l generalizing c with
  | nil => simp [Program.Along]
  | cons a l ih => simp [Program.Along, ih, and_assoc]

theorem Program.along_of_forall (h : ∀ c a, C c a) (acts : List (Act κ ι)) (c : Config σ τ) :
    P.Along C c acts := by
  induction acts generalizing c with
  | nil => trivial
  | cons a acts ih => exact ⟨h c a, ih _⟩

/-- **The invariant rule.**  What every call keeps, and every step that meets the condition,
    holds at the end of a run whose moves meet the condition. -/
theorem Program.run_invariant
    (hcall : ∀ c k, I c → I { c with threads := c.threads ++ [P.start k] })
    (hstep : ∀ (c : Config σ τ) i input t, I c → c.threads[i]? = some t → C c (.step i input) →
      I ⟨(P.step input c.shared t).1,
        update c.threads i (P.step input c.shared t).2.1 (P.step input c.shared t).2.2⟩)
    {acts : List (Act κ ι)} (hc : I c) (h : P.Along C c acts) :
    I (P.run c acts) := by
  induction acts generalizing c with
  | nil => exact hc
  | cons a acts ih =>
    rw [Program.run_cons]
    refine ih ?_ h.2
    cases a with
    | call k => exact hcall c k hc
    | step i input =>
      cases ht : c.threads[i]? with
      | none =>
        rw [Program.act]
        simpa only [ht] using hc
      | some t =>
        rw [Program.act_step ht]
        exact hstep c i input t hc ht h.1

/-! ### The threads after a move -/

variable {threads more : List τ}

theorem mem_update {u : τ} (hu : u ∈ update threads i t more) :
    u = t ∨ u ∈ more ∨ ∃ j, j ≠ i ∧ threads[j]? = some u := by
  rcases List.mem_append.mp hu with hu | hu
  · obtain ⟨j, hj⟩ := List.mem_iff_getElem?.mp hu
    grind
  · exact Or.inr (Or.inl hu)

theorem forall_update {Q : τ → Prop} (hother : ∀ j u, j ≠ i → threads[j]? = some u → Q u) (ht : Q t)
    (hmore : ∀ u ∈ more, Q u) :
    ∀ u ∈ update threads i t more, Q u := by
  intro u hu
  rcases mem_update hu with rfl | hu | ⟨j, hj, hu⟩
  · exact ht
  · exact hmore u hu
  · exact hother j u hj hu

theorem mem_update_self {t' : τ} (hi : threads[i]? = some t') : t ∈ update threads i t more := by
  obtain ⟨hlt, -⟩ := List.getElem?_eq_some_iff.mp hi
  exact List.mem_append_left _ (List.mem_set hlt t)

theorem mem_update_of_ne {j : Nat} {u : τ} (hj : j ≠ i)
    (hu : threads[j]? = some u) : u ∈ update threads i t more := by
  apply List.mem_append_left
  rw [List.mem_iff_getElem?]
  exact ⟨j, by rw [List.getElem?_set_ne (Ne.symm hj), hu]⟩

theorem countP_update (p : τ → Bool) {t' : τ}
    (hi : threads[i]? = some t') (t : τ) (more : List τ) :
    (update threads i t more).countP p + (if p t' then 1 else 0) =
      threads.countP p + (if p t then 1 else 0) + more.countP p := by
  obtain ⟨hlt, rfl⟩ := List.getElem?_eq_some_iff.mp hi
  have hpos : (if p threads[i] then 1 else 0) ≤ threads.countP p := by
    grind
  rw [update, List.countP_append, List.countP_set hlt]
  omega

end Zynax.Concurrency
