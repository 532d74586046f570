import Zynax.Compiler.Cycles

namespace Zynax.Compiler

open Golang

/-!
# What the cycle detector reports

The detector is exact: it reports something if and only if there is a cycle of states none of
which can reach a terminal one, and each path it prints is such a cycle.  A loop over the map of
states may go through it in any order, and each loop in another one.
-/

/-! ### Cycles and orders -/

structure TrappedCycle (g : WorkflowGraph) (path : List String) : Prop where
  closed : ∃ s l, path = s :: (l ++ [s])
  transitions : path.IsChain (Graph.Edge g.succs)
  trapped : ∀ s ∈ path, ¬ g.Productive s

structure Orders (g : WorkflowGraph) where
  /-- the loop that builds the reverse adjacency list -/
  edges : List (Σ _ : String, State)
  /-- the loop that collects the terminal states -/
  terminals : List (Σ _ : String, State)
  /-- the loop that visits the states the search from the initial one has not reached -/
  rest : List (Σ _ : String, State)
  edges_perm : edges.Perm g.states.entries
  terminals_perm : terminals.Perm g.states.entries
  rest_perm : rest.Perm g.states.entries

def productiveIn (g : WorkflowGraph) (o : Orders g) : List String :=
  let reverse := o.edges.foldl
    (fun m e => e.2.transitions.foldl
      (fun m t => AList.insert t.targetState (m.getD t.targetState [] ++ [e.1]) m) m)
    (g.states.mapVal (fun _ _ => []))
  Graph.closure (fun id => reverse.getD id []) (g.states.entries.length + g.states.entries.length)
    ((o.terminals.filter (fun e => decide (e.2.type = .terminal))).map Sigma.fst)

def visitState (g : WorkflowGraph) (productive : List String) (st : DfsState)
    (e : Σ _ : String, State) : DfsState :=
  match st.colorOf e.1 with
  | .white => dfs g productive (g.states.entries.length + 1) e.1 st
  | .gray | .black => st

def detectIn (g : WorkflowGraph) (o : Orders g) : List ParseError :=
  let productive := productiveIn g o
  let st := dfs g productive (g.states.entries.length + 1) g.initialState ⟨∅, [], [], []⟩
  (o.rest.foldl (visitState g productive) st).errs

/-- `reverse`, by the order of the loop that builds it. -/
def Orders.predecessors {g : WorkflowGraph} (o : Orders g) (id : String) : List String :=
  GoMap.getD (o.edges.foldl
    (fun m e => e.2.transitions.foldl
      (fun m t => AList.insert t.targetState (m.getD t.targetState [] ++ [e.1]) m) m)
    (g.states.mapVal (fun _ _ => []))) id []

/-- What is in `queue` before the loop. -/
def Orders.seeds {g : WorkflowGraph} (o : Orders g) : List String :=
  (o.terminals.filter (fun e => decide (e.2.type = .terminal))).map Sigma.fst

/-! ### What the search keeps -/

section

variable {g : WorkflowGraph} (o : Orders g)

theorem Orders.mem_predecessors_iff (pred curr : String) :
    pred ∈ o.predecessors curr ↔ curr ∈ g.succs pred :=
  mem_reverse_iff fun _ => o.edges_perm.mem_iff

theorem Orders.length_seeds_le : o.seeds.length ≤ g.states.entries.length := by
  rw [seeds, List.length_map, ← o.terminals_perm.length_eq]
  grind

variable {o}

theorem mem_productiveIn_iff {id : String} : id ∈ productiveIn g o ↔ g.Productive id := by
  apply mem_closure_reverse_iff o.mem_predecessors_iff o.length_seeds_le
  intro id
  rw [terminalStates]
  exact ((o.terminals_perm.filter _).map _).mem_iff

end

/-- **Both searches compute exact closures and come to an end**, in whatever order the map of states is
    iterated over. -/
theorem graph_searches_exact (g : WorkflowGraph) (o : Orders g) (start : String) :
    (∀ id, id ∈ reachableFrom g start ↔ g.Reach start id) ∧
    (∀ id, id ∈ productiveIn g o ↔
      ∃ t st, g.states.lookup t = some st ∧ st.type = .terminal ∧ g.Reach id t) ∧
    Graph.Ends g.succs [start] (reachableFrom g start) ∧
    Graph.Ends o.predecessors o.seeds (productiveIn g o) := by
  refine ⟨fun id => mem_reachableFrom_iff, fun id => ?_, ends_reachableFrom start,
    ends_closure_reverse o.mem_predecessors_iff o.length_seeds_le⟩
  rw [mem_productiveIn_iff, WorkflowGraph.Productive]
  simp only [mem_terminalStates_iff]
  grind

theorem backEdge_congr {p p' : List String} (h : ∀ s, s ∈ p ↔ s ∈ p') (st : DfsState)
    (next : String) : st.backEdge p next = st.backEdge p' next := by
  simp only [DfsState.backEdge, h]

theorem dfs_congr {g : WorkflowGraph} {p p' : List String} (h : ∀ s, s ∈ p ↔ s ∈ p') (fuel : Nat) :
    dfs g p fuel = dfs g p' fuel := by
  induction fuel with
  | zero =>
    rfl
  | succ fuel ih =>
    funext id st
    simp only [dfs, ih, backEdge_congr h]

section

variable {g : WorkflowGraph} {P : DfsState → Prop}

def KeptByBackEdges (g : WorkflowGraph) (P : DfsState → Prop) : Prop :=
  ∀ (st : DfsState) (rest : List String) (id next : String), st.Inv g → st.stack = rest ++ [id] →
    next ∈ g.succs id → P st → P (st.backEdge (productiveStates g) next)

def KeptAt (g : WorkflowGraph) (P : DfsState → Prop) (fuel : Nat) : Prop :=
  ∀ (id : String) (st : DfsState), st.Inv g → st.colorOf id = .white →
    (∀ u ∈ st.stack.getLast?, id ∈ g.succs u) → st.whites g < fuel → P st →
    P (dfs g (productiveStates g) fuel id st)

theorem visitEdges_preserves (hback : KeptByBackEdges g P) {fuel : Nat} (hkept : KeptAt g P fuel)
    {id : String} {rest : List String} {ts : List Transition}
    (hts : ∀ t ∈ ts, t.targetState ∈ g.succs id) {st : DfsState} (h : st.Inv g)
    (hstack : st.stack = rest ++ [id]) (hfuel : st.whites g < fuel) (hP : P st) :
    P (ts.foldl (visitEdge g fuel) st) := by
  induction ts generalizing st with
  | nil => exact hP
  | cons t ts ih =>
    have ht := hts t (by simp)
    obtain ⟨hext, hinv, -⟩ := visitEdge_spec (dfs_spec g fuel) h hstack hfuel ht
    rw [List.foldl_cons]
    refine ih (fun t' ht' => hts t' (by simp [ht'])) hinv (hext.stack_eq.trans hstack)
      (lt_of_le_of_lt hext.whites_le hfuel) ?_
    -- one edge: to a new node, back into the stack, or to a node that is done
    unfold visitEdge
    split
    · rename_i hwhite
      refine hkept _ st h hwhite ?_ hfuel hP
      grind
    · exact hback st rest id _ h hstack ht hP
    · exact hP

/-- **The rule of the search.**  What entering, leaving and back edges keep is kept by a visit. -/
theorem dfs_preserves (henter : ∀ st id, P st → P (st.enter id))
    (hleave : ∀ st id, P st → P (st.leave id)) (hback : KeptByBackEdges g P) (fuel : Nat) :
    KeptAt g P fuel := by
  induction fuel with
  | zero => intro id st _ _ _ hfuel; exact absurd hfuel (by omega)
  | succ fuel ih =>
    intro id st h hwhite hedge hfuel hP
    rw [dfs]
    cases hstate : g.states.lookup id with
    | none => exact hleave _ _ (henter _ _ hP)
    | some state =>
      have hlt := DfsState.whites_enter_lt hstate hwhite
      have hsuccs : ∀ t ∈ state.transitions, t.targetState ∈ g.succs id := fun t ht =>
        WorkflowGraph.mem_succs.mpr ⟨state, hstate, t, ht, rfl⟩
      apply hleave
      exact visitEdges_preserves hback ih hsuccs (h.enter hwhite hedge) rfl (by omega)
        (henter _ _ hP)

end

/-! ### The reports -/

def ReportsCycle (g : WorkflowGraph) (e : ParseError) : Prop :=
  ∃ path, e.message = ⟨"trapped cycle with no terminal escape: %s", [.strs path]⟩ ∧
    TrappedCycle g path

def Sound (g : WorkflowGraph) (st : DfsState) : Prop := ∀ e ∈ st.errs, ReportsCycle g e

/-- **A back edge that is reported closes a trapped cycle**: the part of the stack from its target
    on is a path to the node on top, from which the edge leads back. -/
theorem sound_backEdge (g : WorkflowGraph) : KeptByBackEdges g (Sound g) := by
  intro st rest id next h hstack hedge hsound
  unfold DfsState.backEdge
  split
  · exact hsound
  rename_i start hstart
  split
  · exact hsound
  dsimp only
  split
  · rename_i hall
    intro e he
    rcases List.mem_append.mp he with he | he
    · exact hsound e he
    rw [List.mem_singleton.mp he]
    obtain ⟨tail, htail⟩ := drop_findIdx hstart
    have hunproductive : ∀ s ∈ st.stack.drop start, ¬ g.Productive s := by
      intro s hs hprod
      have hnot := List.all_eq_true.mp hall s hs
      exact absurd (mem_productiveStates_iff.mpr hprod) (by simpa using hnot)
    refine ⟨_, rfl, ⟨next, tail, by rw [htail, List.cons_append]⟩, ?_, ?_⟩
    · rw [List.isChain_append]
      refine ⟨h.path.drop start, by simp, ?_⟩
      intro u hu v hv
      obtain rfl : next = v := by simpa using hv
      -- the last node of the stack is the one the edge leaves
      have hlast : u ∈ st.stack.getLast? := by
        grind
      rw [getLast?_of_stack hstack u hlast]
      exact hedge
    · grind
  · exact hsound

theorem sound_dfs (g : WorkflowGraph) (fuel : Nat) : KeptAt g (Sound g) fuel :=
  dfs_preserves (fun _ _ h => h) (fun _ _ h => h) (sound_backEdge g) fuel

theorem sound_visitStates (g : WorkflowGraph) (es : List (Σ _ : String, State)) {st : DfsState}
    (h : st.Inv g) (hstack : st.stack = []) (hsound : Sound g st) :
    Sound g (es.foldl (visitState g (productiveStates g)) st) := by
  induction es generalizing st with
  | nil => exact hsound
  | cons e es ih =>
    obtain ⟨hext, hinv, -⟩ := dfsRest_spec g [e] h hstack
    rw [List.foldl_cons]
    refine ih hinv (hext.stack_eq.trans hstack) ?_
    unfold visitState
    split
    · rename_i hwhite
      exact sound_dfs g _ e.1 st h hwhite (by simp [hstack]) (st.whites_lt g) hsound
    · exact hsound
    · exact hsound

/-- **The whole search**, in any order: the reports are sound, and where there are none the black
    states are in a finishing order. -/
theorem detectIn_spec (g : WorkflowGraph) (o : Orders g) :
    ∃ st : DfsState, detectIn g o = st.errs ∧ Sound g st ∧ st.Inv g ∧
      ∀ id state, g.states.lookup id = some state → st.colorOf id = .black := by
  have hproductive : ∀ s, s ∈ productiveIn g o ↔ s ∈ productiveStates g := fun s =>
    mem_productiveIn_iff.trans mem_productiveStates_iff.symm
  have hvisit : visitState g (productiveIn g o) = visitState g (productiveStates g) := by
    funext st e
    rw [visitState, visitState, dfs_congr hproductive]
  have hfirst := dfs_spec g (g.states.entries.length + 1) g.initialState ⟨∅, [], [], []⟩
    (DfsState.inv_init g) rfl (by simp) (DfsState.whites_lt g _)
  have hsound : Sound g (dfs g (productiveStates g) (g.states.entries.length + 1) g.initialState
      ⟨∅, [], [], []⟩) :=
    sound_dfs g _ g.initialState _ (DfsState.inv_init g) rfl (by simp) (DfsState.whites_lt g _)
      (by simp [Sound])
  obtain ⟨-, hinv, hblack⟩ := dfsRest_spec g o.rest hfirst.inv hfirst.extended.stack_eq
  refine ⟨_, ?_, sound_visitStates g o.rest hfirst.inv hfirst.extended.stack_eq hsound, hinv, ?_⟩
  · rw [detectIn, hvisit, dfs_congr hproductive]
  · intro id state hstate
    exact hblack ⟨id, state⟩ (o.rest_perm.mem_iff.mpr (GoMap.mem_entries_iff.mpr hstate))

theorem not_trappedCycle_of_finished {g : WorkflowGraph} {st : DfsState} (h : st.Inv g)
    (hblack : ∀ id state, g.states.lookup id = some state → st.colorOf id = .black)
    (herrs : st.errs = []) {path : List String} : ¬ TrappedCycle g path := by
  rintro ⟨⟨s, l, rfl⟩, htransitions, htrapped⟩
  obtain ⟨done, hdone, hfin⟩ := h.finished herrs
  rw [← List.cons_append] at htransitions
  have hstep : ∀ u ∈ s :: l, ∃ v ∈ g.succs u, v ∈ s :: l := by
    intro u hu
    obtain ⟨v, hv, hedge⟩ := Graph.exists_next_of_isChain htransitions hu
    rcases List.mem_append.mp hv with hv | hv
    · exact ⟨v, hedge, hv⟩
    · exact ⟨v, hedge, by rw [List.mem_singleton.mp hv]; simp⟩
  have hunproductive : ∀ u ∈ s :: l, ¬ g.Productive u := fun u hu =>
    htrapped u (by rw [← List.cons_append]; exact List.mem_append_left _ hu)
  -- the first state has a transition, so it is one of the graph and was visited
  obtain ⟨v, hv, -⟩ := hstep s (by simp)
  obtain ⟨state, hstate, -⟩ := WorkflowGraph.mem_succs.mp hv
  exact hfin.not_mem_of_step hunproductive hstep s ((hdone s).mpr (hblack s state hstate)) (by simp)

/-- **The detector is exact.**  For every graph, also with transitions to undefined states, and all
    orders of the loops: something is reported if and only if there is a trapped cycle, and every path
    that is printed is one. -/
theorem circularTransitionDetector_exact (g : WorkflowGraph) (o : Orders g) :
    (detectIn g o ≠ [] ↔ ∃ path, TrappedCycle g path) ∧ ∀ e ∈ detectIn g o, ReportsCycle g e := by
  obtain ⟨st, hdetect, hsound, hinv, hblack⟩ := detectIn_spec g o
  rw [hdetect]
  refine ⟨⟨?_, ?_⟩, hsound⟩
  · intro hne
    obtain ⟨e, he⟩ := List.exists_mem_of_ne_nil _ hne
    obtain ⟨path, -, hcycle⟩ := hsound e he
    exact ⟨path, hcycle⟩
  · rintro ⟨path, hcycle⟩ herrs
    exact not_trappedCycle_of_finished hinv hblack herrs hcycle

end Zynax.Compiler
