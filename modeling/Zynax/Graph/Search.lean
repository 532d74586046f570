import Mathlib.Data.Finset.Card
import Mathlib.Data.List.Chain

namespace Zynax.Graph

/-!
# Searching a directed graph

A graph is given by its successor function.  Paths, and two facts about searches that visit
every node at most once:

* `closure` — a breadth-first search with a queue; `mem_closure_iff`: with enough fuel it
  returns exactly the nodes reachable from the seeds.
-/

variable {α : Type}

def Edge (next : α → List α) (a b : α) : Prop := b ∈ next a

abbrev Reach (next : α → List α) : α → α → Prop := Relation.ReflTransGen (Edge next)

/-! ### Paths -/

variable {next : α → List α} {a b : α} {l : List α}

structure IsPath (next : α → List α) (a b : α) (l : List α) : Prop where
  chain : l.IsChain (Edge next)
  head : l.head? = some a
  last : l.getLast? = some b

theorem reach_of_isChain {x : α} (h : (a :: l).IsChain (Edge next)) (hx : x ∈ a :: l) : Reach next a x := by
  induction l generalizing a with
  | nil =>
    grind
  | cons b l ih =>
    rw [List.isChain_cons_cons] at h
    rcases List.mem_cons.mp hx with rfl | hx
    · rfl
    · exact Relation.ReflTransGen.head h.1 (ih h.2 hx)

theorem exists_next_of_isChain {R : α → α → Prop} {z x : α}
    (h : (l ++ [z]).IsChain R) (hx : x ∈ l) : ∃ y ∈ l ++ [z], R x y := by
  induction l with
  | nil => exact absurd hx (by simp)
  | cons a l ih =>
    obtain ⟨b, m, hbm⟩ := List.exists_cons_of_ne_nil (show l ++ [z] ≠ [] by simp)
    grind

theorem IsPath.reach (h : IsPath next a b l) :
    Reach next a b := by
  cases l with
  | nil => exact absurd h.head (by simp)
  | cons x l =>
    obtain rfl : x = a := by simpa using h.head
    exact reach_of_isChain h.chain (List.mem_of_mem_getLast? h.last)

theorem IsPath.concat {c : α} (h : IsPath next a b l)
    (hbc : c ∈ next b) : IsPath next a c (l ++ [c]) := by
  refine ⟨?_, ?_, by simp⟩
  · rw [List.isChain_append]
    refine ⟨h.chain, by simp, ?_⟩
    intro u hu v hv
    obtain rfl : b = u := Option.some.inj (h.last.symm.trans hu)
    obtain rfl : c = v := by simpa using hv
    exact hbc
  · rw [List.head?_append, h.head]
    rfl

theorem exists_isPath_of_reach (h : Reach next a b) :
    ∃ l, IsPath next a b l := by
  induction h with
  | refl => exact ⟨[a], by simp, rfl, rfl⟩
  | @tail b c _ hbc ih =>
    obtain ⟨l, hl⟩ := ih
    exact ⟨l ++ [c], hl.concat hbc⟩

/-- **A path through a node before its end** is a way to the node and, from one of its
    successors, a way to the end. -/
theorem exists_path_through_iff {c : α} :
    (∃ l, IsPath next a c l ∧ b ∈ l.dropLast) ↔
      Reach next a b ∧ ∃ v ∈ next b, Reach next v c := by
  constructor
  · rintro ⟨l, hl, hb⟩
    -- cut the path after `b`; something is left because `b` is not the last node
    obtain ⟨p, q, hpq⟩ := List.append_of_mem hb
    have hne : l ≠ [] := fun h => absurd hl.head (by simp [h])
    have hcut : l = (p ++ [b]) ++ (q ++ [c]) := by
      have hlast : l.getLast hne = c := by
        have hsome := hl.last
        grind
      rw [← List.dropLast_append_getLast hne, hpq, hlast]
      simp
    obtain ⟨hchain, hhead, -⟩ := hl
    rw [hcut, List.isChain_append] at hchain
    obtain ⟨hp, hq, hbq⟩ := hchain
    refine ⟨IsPath.reach ⟨hp, ?_, by simp⟩, ?_⟩
    · grind
    · obtain ⟨v, hv⟩ : ∃ v, (q ++ [c]).head? = some v := by
        simp
      exact ⟨v, hbq b (by simp) v hv, IsPath.reach ⟨hq, hv, by simp⟩⟩
  · rintro ⟨hab, v, hv, hvc⟩
    obtain ⟨p, hp⟩ := exists_isPath_of_reach hab
    obtain ⟨q, hq⟩ := exists_isPath_of_reach hvc
    have hpne : p ≠ [] := fun h => absurd hp.head (by simp [h])
    have hqne : q ≠ [] := fun h => absurd hq.head (by simp [h])
    refine ⟨p ++ q, ⟨?_, ?_, ?_⟩, ?_⟩
    · rw [List.isChain_append]
      refine ⟨hp.chain, hq.chain, ?_⟩
      intro u hu w hw
      obtain rfl : b = u := Option.some.inj (hp.last.symm.trans hu)
      obtain rfl : v = w := Option.some.inj (hq.head.symm.trans hw)
      exact hv
    · rw [List.head?_append_of_ne_nil _ hpne]
      exact hp.head
    · rw [List.getLast?_append_of_ne_nil _ hqne]
      exact hq.last
    · rw [List.dropLast_append_of_ne_nil hqne]
      exact List.mem_append_left _ (List.mem_of_mem_getLast? hp.last)

/-! ### Breadth-first search -/

section Bfs

variable [DecidableEq α] {U : Finset α} {next : α → List α} {seeds : List α}

structure Frontier (α : Type) where
  visited : List α
  queue : List α

def Frontier.push (f : Frontier α) (y : α) : Frontier α :=
  if y ∈ f.visited then f else ⟨y :: f.visited, f.queue ++ [y]⟩

def bfs (next : α → List α) : Nat → Frontier α → List α
  | 0, f => f.visited
  | fuel + 1, f =>
    match f.queue with
    | [] => f.visited
    | x :: q => bfs next fuel ((next x).foldl Frontier.push ⟨f.visited, q⟩)

def closure (next : α → List α) (fuel : Nat) (seeds : List α) : List α :=
  bfs next fuel ⟨seeds, seeds⟩

/-- One turn of the loop; it stays where it is when the queue is empty. -/
def Frontier.turn (next : α → List α) (f : Frontier α) : Frontier α :=
  match f.queue with
  | [] => f
  | x :: q => (next x).foldl Frontier.push ⟨f.visited, q⟩

/-- The loop ends, with an empty queue, and `result` is what it has visited then. -/
def Ends (next : α → List α) (seeds result : List α) : Prop :=
  ∃ turns, (Frontier.turn next)^[turns] ⟨seeds, seeds⟩ = ⟨result, []⟩

variable {ys : List α} {f : Frontier α}

theorem mem_visited_foldl_push {z : α} :
    z ∈ (ys.foldl Frontier.push f).visited ↔ z ∈ f.visited ∨ z ∈ ys := by
  induction ys generalizing f with
  | nil => simp
  | cons y ys ih =>
    rw [List.foldl_cons, ih, Frontier.push]
    grind

theorem mem_queue_foldl_push {z : α} :
    z ∈ (ys.foldl Frontier.push f).queue ↔ z ∈ f.queue ∨ z ∈ ys ∧ z ∉ f.visited := by
  induction ys generalizing f with
  | nil => simp
  | cons y ys ih =>
    rw [List.foldl_cons, ih, Frontier.push]
    grind

def Frontier.work (U : Finset α) (f : Frontier α) : Nat :=
  f.queue.length + (U \ f.visited.toFinset).card

theorem work_push_le {y : α} (hy : y ∈ U) :
    (f.push y).work U ≤ f.work U := by
  rw [Frontier.push]
  split
  · rfl
  · rename_i hnew
    have hlt : (U \ (y :: f.visited).toFinset).card < (U \ f.visited.toFinset).card := by
      apply Finset.card_lt_card
      rw [Finset.ssubset_iff_of_subset]
      · exact ⟨y, by simp [hy, hnew], by simp⟩
      · intro z hz
        simp only [List.toFinset_cons, Finset.mem_sdiff, Finset.mem_insert, List.mem_toFinset,
          not_or] at hz ⊢
        exact ⟨hz.1, hz.2.2⟩
    simp only [Frontier.work, List.length_append, List.length_cons, List.length_nil]
    omega

theorem work_foldl_push_le (hys : ∀ y ∈ ys, y ∈ U) :
    (ys.foldl Frontier.push f).work U ≤ f.work U := by
  induction ys generalizing f with
  | nil => exact le_rfl
  | cons y ys ih =>
    rw [List.foldl_cons]
    exact le_trans (ih (fun z hz => hys z (by simp [hz]))) (work_push_le (hys y (by simp)))

structure Frontier.Ok (next : α → List α) (seeds : List α) (f : Frontier α) : Prop where
  sound : ∀ y ∈ f.visited, ∃ x ∈ seeds, Reach next x y
  seeds_visited : ∀ x ∈ seeds, x ∈ f.visited
  queue_visited : ∀ x ∈ f.queue, x ∈ f.visited
  expanded : ∀ x ∈ f.visited, x ∉ f.queue → ∀ y ∈ next x, y ∈ f.visited

theorem Frontier.Ok.pop {v q : List α} {x : α}
    (h : Frontier.Ok next seeds ⟨v, x :: q⟩) :
    Frontier.Ok next seeds ((next x).foldl Frontier.push ⟨v, q⟩) := by
  have hx : x ∈ v := h.queue_visited x (by simp)
  refine ⟨?_, ?_, ?_, ?_⟩
  · intro y hy
    rcases mem_visited_foldl_push.mp hy with hy | hy
    · exact h.sound y hy
    · obtain ⟨s, hs, hreach⟩ := h.sound x hx
      exact ⟨s, hs, hreach.tail hy⟩
  · intro s hs
    exact mem_visited_foldl_push.mpr (Or.inl (h.seeds_visited s hs))
  · intro z hz
    rcases mem_queue_foldl_push.mp hz with hz | ⟨hz, _⟩
    · exact mem_visited_foldl_push.mpr (Or.inl (h.queue_visited z (by simp [hz])))
    · exact mem_visited_foldl_push.mpr (Or.inr hz)
  · intro z hz hzq y hy
    rw [mem_queue_foldl_push, not_or] at hzq
    -- a fresh successor of `x` is in the queue, so whatever is outside was marked before
    have hzv : z ∈ v := by
      by_contra hzv
      rcases mem_visited_foldl_push.mp hz with hz | hz
      · exact hzv hz
      · exact hzq.2 ⟨hz, hzv⟩
    by_cases hzx : z = x
    · subst hzx
      exact mem_visited_foldl_push.mpr (Or.inr hy)
    · have hzq' : z ∉ x :: q := by simp [hzx, hzq.1]
      exact mem_visited_foldl_push.mpr (Or.inl (h.expanded z hzv hzq' y hy))

theorem bfs_ok (hU : ∀ x, ∀ y ∈ next x, y ∈ U) {fuel : Nat} (h : f.Ok next seeds)
    (hfuel : f.work U ≤ fuel) : Frontier.Ok next seeds ⟨bfs next fuel f, []⟩ := by
  induction fuel generalizing f with
  | zero =>
    have hq : f.queue = [] := by
      rw [← List.length_eq_zero_iff]
      simp only [Frontier.work] at hfuel
      omega
    have hf : f = ⟨f.visited, []⟩ := by rw [← hq]
    rw [bfs, ← hf]
    exact h
  | succ fuel ih =>
    obtain ⟨v, q⟩ := f
    cases q with
    | nil => exact h
    | cons x q =>
      rw [bfs]
      apply ih h.pop
      have hle := work_foldl_push_le (f := ⟨v, q⟩) (hU x)
      simp only [Frontier.work, List.length_cons] at hfuel hle ⊢
      omega

theorem iterate_turn (hU : ∀ x, ∀ y ∈ next x, y ∈ U) {fuel : Nat} (hfuel : f.work U ≤ fuel) :
    (Frontier.turn next)^[fuel] f = ⟨bfs next fuel f, []⟩ := by
  induction fuel generalizing f with
  | zero =>
    obtain ⟨v, q⟩ := f
    have hq : q = [] := by
      rw [← List.length_eq_zero_iff]
      simp only [Frontier.work] at hfuel
      omega
    rw [hq]
    rfl
  | succ fuel ih =>
    obtain ⟨v, q⟩ := f
    rw [Function.iterate_succ_apply]
    cases q with
    | nil => exact Function.iterate_fixed rfl fuel
    | cons x q =>
      apply ih
      have hle := work_foldl_push_le (f := ⟨v, q⟩) (hU x)
      simp only [Frontier.turn, Frontier.work, List.length_cons] at hfuel hle ⊢
      omega

theorem work_start_le {nodes : List α} {fuel : Nat} (hfuel : seeds.length + nodes.length ≤ fuel) :
    (Frontier.mk seeds seeds).work nodes.toFinset ≤ fuel := by
  have hsub : (nodes.toFinset \ seeds.toFinset).card ≤ nodes.toFinset.card :=
    Finset.card_le_card Finset.sdiff_subset
  have hcard := nodes.toFinset_card_le
  simp only [Frontier.work]
  omega

theorem ends_closure {nodes : List α} (hnodes : ∀ x, ∀ y ∈ next x, y ∈ nodes) {fuel : Nat}
    (hfuel : seeds.length + nodes.length ≤ fuel) : Ends next seeds (closure next fuel seeds) :=
  ⟨fuel, iterate_turn (fun x y hy => List.mem_toFinset.mpr (hnodes x y hy)) (work_start_le hfuel)⟩

/-- **The search computes reachability**, when the fuel covers the seeds and the nodes that
    have an incoming edge. -/
theorem mem_closure_iff {nodes : List α}
    (hnodes : ∀ x, ∀ y ∈ next x, y ∈ nodes) {fuel : Nat}
    (hfuel : seeds.length + nodes.length ≤ fuel) {y : α} :
    y ∈ closure next fuel seeds ↔ ∃ x ∈ seeds, Reach next x y := by
  have hU : ∀ x, ∀ y ∈ next x, y ∈ nodes.toFinset := fun x y hy =>
    List.mem_toFinset.mpr (hnodes x y hy)
  have hinit : Frontier.Ok next seeds ⟨seeds, seeds⟩ :=
    ⟨fun y hy => ⟨y, hy, Relation.ReflTransGen.refl⟩, fun _ hx => hx, fun _ hx => hx,
      fun x hx hxq => absurd hx hxq⟩
  have hok := bfs_ok hU hinit (work_start_le hfuel)
  constructor
  · exact hok.sound y
  · rintro ⟨x, hx, hreach⟩
    induction hreach with
    | refl => exact hok.seeds_visited x hx
    | tail _ hedge ih => exact hok.expanded _ ih (by simp) _ hedge

end Bfs

/-! ### Finishing order of a depth-first search -/

inductive Finished (next : α → List α) (P : α → Prop) : List α → Prop
  | nil : Finished next P []
  | cons {u : α} {l : List α} (hl : Finished next P l) (hu : P u → ∀ v ∈ next u, v ∈ l) :
      Finished next P (u :: l)

theorem Finished.not_mem_of_step {P Q : α → Prop}
    (h : Finished next P l) (hQP : ∀ u, Q u → P u) (hstep : ∀ u, Q u → ∃ v ∈ next u, Q v) :
    ∀ u ∈ l, ¬ Q u := by
  induction h with
  | nil => intro u hu; exact absurd hu (by simp)
  | cons hl hu ih =>
    grind

end Zynax.Graph
