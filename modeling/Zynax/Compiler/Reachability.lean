import Zynax.Compiler.Validators

namespace Zynax.Compiler

open Golang

/-!
# The graph searches of the validators

`reachableFrom` and `productiveStates` compute exact closures, for every graph: also with self
loops, unknown targets and any iteration order of the state map.
-/

variable {g : WorkflowGraph} {id : String}

abbrev WorkflowGraph.Reach (g : WorkflowGraph) : String → String → Prop := Graph.Reach g.succs

theorem WorkflowGraph.mem_targets_of_mem_succs {target : String}
    (h : target ∈ g.succs id) : target ∈ g.targets := by
  obtain ⟨st, hst, t, ht, rfl⟩ := WorkflowGraph.mem_succs.mp h
  exact List.mem_flatMap.mpr ⟨⟨id, st⟩, GoMap.mem_entries_iff.mpr hst, List.mem_map.mpr ⟨t, ht, rfl⟩⟩

/-- **The forward search computes reachability.** -/
theorem mem_reachableFrom_iff {start : String} :
    id ∈ reachableFrom g start ↔ g.Reach start id := by
  rw [reachableFrom, Graph.mem_closure_iff (fun _ _ => WorkflowGraph.mem_targets_of_mem_succs) (by simp)]
  simp

theorem ends_reachableFrom (start : String) : Graph.Ends g.succs [start] (reachableFrom g start) :=
  Graph.ends_closure (fun _ _ => WorkflowGraph.mem_targets_of_mem_succs) (by simp)

/-! ### Backwards -/

variable {pred curr : String}

theorem mem_reverse_transitions {ts : List Transition}
    {m : GoMap (List String)} :
    pred ∈ GoMap.getD (ts.foldl
        (fun m t => AList.insert t.targetState (m.getD t.targetState [] ++ [id]) m) m) curr [] ↔
      pred ∈ m.getD curr [] ∨ pred = id ∧ ∃ t ∈ ts, t.targetState = curr := by
  induction ts generalizing m with
  | nil => simp
  | cons t ts ih =>
    rw [List.foldl_cons, ih, GoMap.getD_insert]
    grind

theorem mem_reverse_states {es : List (Σ _ : String, State)}
    {m : GoMap (List String)} :
    pred ∈ GoMap.getD (es.foldl (fun m e => e.2.transitions.foldl
        (fun m t => AList.insert t.targetState (m.getD t.targetState [] ++ [e.1]) m) m) m) curr [] ↔
      pred ∈ m.getD curr [] ∨ ∃ e ∈ es, pred = e.1 ∧ ∃ t ∈ e.2.transitions, t.targetState = curr := by
  induction es generalizing m with
  | nil => simp
  | cons e es ih =>
    rw [List.foldl_cons, ih, mem_reverse_transitions]
    grind

theorem mem_reverse_iff {es : List (Σ _ : String, State)}
    (hes : ∀ e, e ∈ es ↔ e ∈ g.states.entries) :
    pred ∈ GoMap.getD (es.foldl (fun m e => e.2.transitions.foldl
        (fun m t => AList.insert t.targetState (m.getD t.targetState [] ++ [e.1]) m) m)
        (g.states.mapVal (fun _ _ => []))) curr [] ↔ curr ∈ g.succs pred := by
  have hinit : (g.states.mapVal (fun _ _ => ([] : List String))).getD curr [] = [] := by
    rw [GoMap.getD, GoMap.lookup_mapVal]
    cases g.states.lookup curr with
    | none => rfl
    | some st => rfl
  rw [mem_reverse_states, hinit, WorkflowGraph.mem_succs]
  simp only [hes]
  constructor
  · rintro (h | ⟨⟨id, st⟩, he, rfl, t, ht, heq⟩)
    · exact absurd h (by simp)
    · exact ⟨st, GoMap.mem_entries_iff.mp he, t, ht, heq⟩
  · rintro ⟨st, hst, t, ht, heq⟩
    exact Or.inr ⟨⟨pred, st⟩, GoMap.mem_entries_iff.mpr hst, rfl, t, ht, heq⟩

theorem mem_reverseAdjacency_iff :
    pred ∈ (reverseAdjacency g).getD curr [] ↔ curr ∈ g.succs pred :=
  mem_reverse_iff fun _ => Iff.rfl

theorem mem_terminalStates_iff :
    id ∈ terminalStates g ↔ ∃ st, g.states.lookup id = some st ∧ st.type = .terminal := by
  simp only [terminalStates, List.mem_map, List.mem_filter, decide_eq_true_eq]
  constructor
  · rintro ⟨⟨id', st⟩, ⟨he, ht⟩, rfl⟩
    exact ⟨st, GoMap.mem_entries_iff.mp he, ht⟩
  · rintro ⟨st, hst, ht⟩
    exact ⟨⟨id, st⟩, ⟨GoMap.mem_entries_iff.mpr hst, ht⟩, rfl⟩

def WorkflowGraph.Productive (g : WorkflowGraph) (id : String) : Prop :=
  ∃ t ∈ terminalStates g, g.Reach id t

section Reverse

variable {reverse : String → List String} (hreverse : ∀ pred curr, pred ∈ reverse curr ↔ curr ∈ g.succs pred)
  {seeds : List String} (hlength : seeds.length ≤ g.states.entries.length)

include hreverse in
theorem mem_keys_of_mem_reverse {x y : String} (hy : y ∈ reverse x) : y ∈ g.states.keys := by
  obtain ⟨st, hst, -⟩ := WorkflowGraph.mem_succs.mp ((hreverse y x).mp hy)
  rw [← AList.mem_keys]
  exact AList.lookup_isSome.mp (by rw [hst]; rfl)

include hlength in
theorem seeds_add_keys_le :
    seeds.length + g.states.keys.length ≤ g.states.entries.length + g.states.entries.length := by
  have hlen : g.states.keys.length = g.states.entries.length := by simp [AList.keys, List.keys]
  omega

include hreverse hlength in
/-- **A search along reversed edges from the terminal states finds the productive ones**, whatever
    the order of the edges and of the terminal states. -/
theorem mem_closure_reverse_iff (hseeds : ∀ id, id ∈ seeds ↔ id ∈ terminalStates g) :
    id ∈ Graph.closure reverse (g.states.entries.length + g.states.entries.length) seeds ↔
      g.Productive id := by
  -- a walk along the reversed edges is a walk backwards
  have hswap : ∀ a b, Graph.Reach reverse a b ↔ g.Reach b a := by
    intro a b
    rw [Graph.Reach, WorkflowGraph.Reach, ← Relation.reflTransGen_swap]
    have hedge : Graph.Edge reverse = Function.swap (Graph.Edge g.succs) := by
      funext a b
      exact propext (hreverse b a)
    rw [hedge]
  rw [Graph.mem_closure_iff (fun _ _ => mem_keys_of_mem_reverse hreverse) (seeds_add_keys_le hlength)]
  simp only [hswap, hseeds]
  rfl

include hreverse hlength in
theorem ends_closure_reverse :
    Graph.Ends reverse seeds
      (Graph.closure reverse (g.states.entries.length + g.states.entries.length) seeds) :=
  Graph.ends_closure (fun _ _ => mem_keys_of_mem_reverse hreverse) (seeds_add_keys_le hlength)

end Reverse

/-- **The backward search computes the productive states.** -/
theorem mem_productiveStates_iff :
    id ∈ productiveStates g ↔ g.Productive id := by
  apply mem_closure_reverse_iff
  · exact fun _ _ => mem_reverseAdjacency_iff
  · rw [terminalStates, List.length_map]
    grind
  · simp

end Zynax.Compiler
