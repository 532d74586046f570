import Zynax.Compiler.Reachability

namespace Zynax.Compiler

open Golang

/-!
# The cycle detector

The three-colour search of `CircularTransitionDetector`, from what one node's visit preserves to
what the whole search establishes.
-/

/-! ### Marks -/

variable {st : DfsState} {id : String} {g : WorkflowGraph}

theorem DfsState.colorOf_enter {x : String} :
    (st.enter id).colorOf x = if x = id then .gray else st.colorOf x :=
  GoMap.getD_insert

theorem DfsState.colorOf_leave {x : String} :
    (st.leave id).colorOf x = if x = id then .black else st.colorOf x :=
  GoMap.getD_insert

structure DfsState.Inv (g : WorkflowGraph) (st : DfsState) : Prop where
  gray_iff : ∀ x, st.colorOf x = .gray ↔ x ∈ st.stack
  nodup : st.stack.Nodup
  path : st.stack.IsChain (Graph.Edge g.succs)
  reported : ∀ x ∈ st.reported, st.errs ≠ []
  finished : st.errs = [] → ∃ done, (∀ x, x ∈ done ↔ st.colorOf x = .black) ∧
    Graph.Finished g.succs (fun u => ¬ g.Productive u) done

structure DfsState.Extends (st st' : DfsState) : Prop where
  stack_eq : st'.stack = st.stack
  black : ∀ x, st.colorOf x = .black → st'.colorOf x = .black
  white : ∀ x, st'.colorOf x = .white → st.colorOf x = .white
  errs : st'.errs = [] → st.errs = []

theorem DfsState.Extends.refl (st : DfsState) : st.Extends st :=
  ⟨rfl, fun _ h => h, fun _ h => h, fun h => h⟩

theorem DfsState.Extends.trans {st' st'' : DfsState} (h : st.Extends st') (h' : st'.Extends st'') :
    st.Extends st'' :=
  ⟨h'.stack_eq.trans h.stack_eq, fun x hx => h'.black x (h.black x hx),
    fun x hx => h.white x (h'.white x hx), fun he => h.errs (h'.errs he)⟩

def DfsState.whites (g : WorkflowGraph) (st : DfsState) : Nat :=
  (g.states.keys.toFinset.filter (fun id => st.colorOf id = .white)).card

theorem DfsState.Extends.whites_le {st' : DfsState} (h : st.Extends st') :
    st'.whites g ≤ st.whites g := by
  apply Finset.card_le_card
  intro id hid
  rw [Finset.mem_filter] at hid ⊢
  exact ⟨hid.1, h.white id hid.2⟩

theorem DfsState.whites_enter_lt {state : State}
    (hstate : g.states.lookup id = some state) (hwhite : st.colorOf id = .white) :
    (st.enter id).whites g < st.whites g := by
  have hmem : id ∈ g.states.keys.toFinset := by
    rw [List.mem_toFinset, ← AList.mem_keys]
    exact AList.lookup_isSome.mp (by rw [hstate]; rfl)
  apply Finset.card_lt_card
  rw [Finset.ssubset_iff_of_subset]
  · refine ⟨id, Finset.mem_filter.mpr ⟨hmem, hwhite⟩, ?_⟩
    simp [DfsState.colorOf_enter]
  · intro x hx
    rw [Finset.mem_filter, DfsState.colorOf_enter] at hx
    grind

/-! ### Entering and leaving -/

variable {rest : List String}

theorem DfsState.Inv.enter (h : st.Inv g) (hwhite : st.colorOf id = .white)
    (hedge : ∀ u ∈ st.stack.getLast?, id ∈ g.succs u) : (st.enter id).Inv g := by
  have hnot : id ∉ st.stack := by
    intro hmem
    have hgray := (h.gray_iff id).mpr hmem
    grind
  refine ⟨?_, ?_, ?_, h.reported, ?_⟩
  · intro x
    rw [DfsState.colorOf_enter]
    by_cases hx : x = id
    · simp [hx, DfsState.enter]
    · simp [hx, DfsState.enter, h.gray_iff x]
  · show (st.stack ++ [id]).Nodup
    rw [List.nodup_append]
    refine ⟨h.nodup, by simp, ?_⟩
    grind
  · show (st.stack ++ [id]).IsChain _
    rw [List.isChain_append]
    refine ⟨h.path, by simp, ?_⟩
    intro u hu v hv
    obtain rfl : id = v := by simpa using hv
    exact hedge u hu
  · intro herrs
    obtain ⟨done, hdone, hfin⟩ := h.finished herrs
    refine ⟨done, ?_, hfin⟩
    intro x
    rw [hdone, DfsState.colorOf_enter]
    grind

theorem DfsState.Inv.leave (h : st.Inv g) (hstack : st.stack = rest ++ [id])
    (hsuccs : st.errs = [] → ¬ g.Productive id → ∀ v ∈ g.succs id, st.colorOf v = .black) :
    (st.leave id).Inv g := by
  have hdrop : (st.leave id).stack = rest := by
    show st.stack.dropLast = rest
    grind
  have hnd := h.nodup
  rw [hstack, List.nodup_append] at hnd
  have hnot : id ∉ rest := fun hmem => hnd.2.2 id hmem id (by simp) rfl
  refine ⟨?_, ?_, ?_, h.reported, ?_⟩
  · intro x
    rw [DfsState.colorOf_leave, hdrop]
    by_cases hx : x = id
    · grind
    · rw [if_neg hx, h.gray_iff x, hstack]
      simp [hx]
  · grind
  · rw [hdrop]
    have hpath := h.path
    rw [hstack, List.isChain_append] at hpath
    exact hpath.1
  · intro herrs
    obtain ⟨done, hdone, hfin⟩ := h.finished herrs
    refine ⟨id :: done, ?_, .cons hfin ?_⟩
    · intro x
      rw [List.mem_cons, hdone, DfsState.colorOf_leave]
      grind
    · intro hprod v hv
      exact (hdone v).mpr (hsuccs herrs hprod v hv)

/-! ### Back edges -/

variable {next : String}

theorem drop_findIdx {stack : List String} {start : Nat}
    (h : stack.findIdx? (· == next) = some start) :
    ∃ rest, stack.drop start = next :: rest := by
  rw [List.findIdx?_eq_some_iff_getElem] at h
  obtain ⟨hlt, heq, -⟩ := h
  refine ⟨stack.drop (start + 1), ?_⟩
  rw [List.drop_eq_getElem_cons hlt]
  grind

theorem DfsState.backEdge_extends {productive : List String} :
    st.Extends (st.backEdge productive next) := by
  unfold DfsState.backEdge
  split
  · exact DfsState.Extends.refl st
  · split
    · exact DfsState.Extends.refl st
    · dsimp only
      split
      · exact ⟨rfl, fun _ h => h, fun _ h => h, fun h => absurd h (by simp)⟩
      · exact DfsState.Extends.refl st

theorem DfsState.Inv.backEdge {productive : List String} (h : st.Inv g) :
    (st.backEdge productive next).Inv g := by
  unfold DfsState.backEdge
  split
  · exact h
  · split
    · exact h
    · dsimp only
      split
      · exact ⟨h.gray_iff, h.nodup, h.path, fun _ _ => by simp, fun he => absurd he (by simp)⟩
      · exact h

/-- **A back edge that is not reported leaves a productive node.**  The cycle it closes has a
    productive state, which the node at the top of the stack reaches through the edge. -/
theorem productive_of_backEdge (h : st.Inv g) (hedge : next ∈ g.succs id) (hgray : st.colorOf next = .gray)
    (herrs : (st.backEdge (productiveStates g) next).errs = []) : g.Productive id := by
  have hmem := (h.gray_iff next).mp hgray
  have hst : st.errs = [] := DfsState.backEdge_extends.errs herrs
  -- without errors nothing was reported before, so the edge is examined in full
  have hnew : next ∉ st.reported := fun hr => h.reported next hr hst
  obtain ⟨start, hstart⟩ : ∃ start, st.stack.findIdx? (· == next) = some start := by
    rw [← Option.isSome_iff_exists, List.findIdx?_isSome]
    grind
  simp only [DfsState.backEdge, hstart, if_neg hnew] at herrs
  split at herrs
  · exact absurd herrs (by simp)
  rename_i hall
  -- some state of the cycle is productive
  obtain ⟨s, hs, hprod⟩ : ∃ s ∈ st.stack.drop start, s ∈ productiveStates g := by
    simpa using hall
  obtain ⟨t, ht, hst'⟩ := mem_productiveStates_iff.mp hprod
  obtain ⟨rest, hrest⟩ := drop_findIdx hstart
  have hpath : (next :: rest).IsChain (Graph.Edge g.succs) := by
    rw [← hrest]
    exact h.path.drop start
  rw [hrest] at hs
  exact ⟨t, ht, Relation.ReflTransGen.head hedge ((Graph.reach_of_isChain hpath hs).trans hst')⟩

/-! ### A visit -/

def visitEdge (g : WorkflowGraph) (fuel : Nat) (st : DfsState) (t : Transition) : DfsState :=
  match st.colorOf t.targetState with
  | .white => dfs g (productiveStates g) fuel t.targetState st
  | .gray => st.backEdge (productiveStates g) t.targetState
  | .black => st

structure Visited (g : WorkflowGraph) (id : String) (st st' : DfsState) : Prop where
  extended : st.Extends st'
  inv : st'.Inv g
  black : st'.colorOf id = .black

def VisitsAt (g : WorkflowGraph) (fuel : Nat) : Prop :=
  ∀ id (st : DfsState), st.Inv g → st.colorOf id = .white →
    (∀ u ∈ st.stack.getLast?, id ∈ g.succs u) → st.whites g < fuel →
    Visited g id st (dfs g (productiveStates g) fuel id st)

theorem getLast?_of_stack (h : st.stack = rest ++ [id]) : ∀ u ∈ st.stack.getLast?, u = id := by
  grind

theorem visitEdge_spec {fuel : Nat} (hvisits : VisitsAt g fuel) (h : st.Inv g)
    (hstack : st.stack = rest ++ [id])
    (hfuel : st.whites g < fuel) {t : Transition} (ht : t.targetState ∈ g.succs id) :
    st.Extends (visitEdge g fuel st t) ∧ (visitEdge g fuel st t).Inv g ∧
      ((visitEdge g fuel st t).errs = [] → ¬ g.Productive id →
        (visitEdge g fuel st t).colorOf t.targetState = .black) := by
  unfold visitEdge
  split
  · rename_i hwhite
    have hlast : ∀ u ∈ st.stack.getLast?, t.targetState ∈ g.succs u := by
      grind
    have hv := hvisits t.targetState st h hwhite hlast hfuel
    exact ⟨hv.extended, hv.inv, fun _ _ => hv.black⟩
  · rename_i hgray
    refine ⟨DfsState.backEdge_extends, h.backEdge, ?_⟩
    intro herrs hprod
    exact absurd (productive_of_backEdge h ht hgray herrs) hprod
  · rename_i hblack
    exact ⟨DfsState.Extends.refl st, h, fun _ _ => hblack⟩

theorem visitEdges_spec {fuel : Nat} (hvisits : VisitsAt g fuel)
    {ts : List Transition}
    (hts : ∀ t ∈ ts, t.targetState ∈ g.succs id) (h : st.Inv g)
    (hstack : st.stack = rest ++ [id]) (hfuel : st.whites g < fuel) :
    st.Extends (ts.foldl (visitEdge g fuel) st) ∧ (ts.foldl (visitEdge g fuel) st).Inv g ∧
      ((ts.foldl (visitEdge g fuel) st).errs = [] → ¬ g.Productive id →
        ∀ t ∈ ts, (ts.foldl (visitEdge g fuel) st).colorOf t.targetState = .black) := by
  induction ts generalizing st with
  | nil => exact ⟨DfsState.Extends.refl st, h, fun _ _ t ht => absurd ht (by simp)⟩
  | cons t ts ih =>
    obtain ⟨hext, hinv, hblack⟩ := visitEdge_spec hvisits h hstack hfuel (hts t (by simp))
    obtain ⟨hext', hinv', hblack'⟩ := ih (fun t' ht' => hts t' (by simp [ht'])) hinv
      (hext.stack_eq.trans hstack) (lt_of_le_of_lt hext.whites_le hfuel)
    rw [List.foldl_cons]
    refine ⟨hext.trans hext', hinv', ?_⟩
    intro herrs hprod t' ht'
    rcases List.mem_cons.mp ht' with rfl | ht'
    · -- done at its own edge, and nothing done is undone
      exact hext'.black _ (hblack (hext'.errs herrs) hprod)
    · grind

theorem DfsState.Extends.enter_leave {cur : DfsState} (hwhite : st.colorOf id = .white)
    (h : (st.enter id).Extends cur) : st.Extends (cur.leave id) := by
  refine ⟨?_, ?_, ?_, h.errs⟩
  · show cur.stack.dropLast = st.stack
    rw [h.stack_eq]
    exact List.dropLast_concat
  · intro x hx
    have hne : x ≠ id := by
      grind
    rw [DfsState.colorOf_leave, if_neg hne]
    apply h.black
    rw [DfsState.colorOf_enter, if_neg hne]
    exact hx
  · intro x hx
    rw [DfsState.colorOf_leave] at hx
    split at hx
    · exact absurd hx (by decide)
    · rename_i hne
      have henter := h.white x hx
      rwa [DfsState.colorOf_enter, if_neg hne] at henter

/-- **A visit**, by induction on the depth left. -/
theorem dfs_spec (g : WorkflowGraph) (fuel : Nat) : VisitsAt g fuel := by
  induction fuel with
  | zero => intro id st _ _ _ hfuel; exact absurd hfuel (by omega)
  | succ fuel ih =>
    intro id st h hwhite hedge hfuel
    have henter := h.enter hwhite hedge
    have hstack : (st.enter id).stack = st.stack ++ [id] := rfl
    have hblack : ∀ cur : DfsState, (cur.leave id).colorOf id = .black := by
      intro cur
      rw [DfsState.colorOf_leave, if_pos rfl]
    rw [dfs]
    cases hstate : g.states.lookup id with
    | none =>
      -- no state, no edges: the node is finished at once
      have hsuccs : g.succs id = [] := by
        rw [WorkflowGraph.succs, hstate]
      refine ⟨(DfsState.Extends.refl _).enter_leave hwhite, henter.leave hstack ?_, hblack _⟩
      grind
    | some state =>
      -- entering used up one white state, so the visits below have fuel enough
      have hlt := DfsState.whites_enter_lt hstate hwhite
      have hsuccs : ∀ t ∈ state.transitions, t.targetState ∈ g.succs id := fun t ht =>
        WorkflowGraph.mem_succs.mpr ⟨state, hstate, t, ht, rfl⟩
      obtain ⟨hext, hinv, hdone⟩ := visitEdges_spec ih hsuccs henter hstack (by omega)
      show Visited g id st ((state.transitions.foldl (visitEdge g fuel) (st.enter id)).leave id)
      refine ⟨hext.enter_leave hwhite, hinv.leave (hext.stack_eq.trans hstack) ?_, hblack _⟩
      intro herrs hprod v hv
      obtain ⟨state', hstate', t, ht, rfl⟩ := WorkflowGraph.mem_succs.mp hv
      grind

/-! ### The whole search -/

theorem DfsState.inv_init (g : WorkflowGraph) : DfsState.Inv g ⟨∅, [], [], []⟩ := by
  refine ⟨?_, by simp, by simp, by simp, ?_⟩
  · intro x
    simp [DfsState.colorOf, GoMap.getD]
  · intro _
    exact ⟨[], by simp [DfsState.colorOf, GoMap.getD], .nil⟩

theorem DfsState.whites_lt (g : WorkflowGraph) (st : DfsState) :
    st.whites g < g.states.entries.length + 1 := by
  have hfilter : st.whites g ≤ g.states.keys.toFinset.card := Finset.card_filter_le _ _
  have hkeys := g.states.keys.toFinset_card_le
  have hlen : g.states.keys.length = g.states.entries.length := by
    simp [AList.keys, List.keys]
  omega

theorem dfsRest_spec (g : WorkflowGraph) (es : List (Σ _ : String, State)) (h : st.Inv g)
    (hstack : st.stack = []) :
    let st' := es.foldl (fun st e =>
      match st.colorOf e.1 with
      | .white => dfs g (productiveStates g) (g.states.entries.length + 1) e.1 st
      | .gray | .black => st) st
    st.Extends st' ∧ st'.Inv g ∧ ∀ e ∈ es, st'.colorOf e.1 = .black := by
  induction es generalizing st with
  | nil => exact ⟨DfsState.Extends.refl st, h, fun e he => absurd he (by simp)⟩
  | cons e es ih =>
    -- after its own turn the state is done: it cannot be on the empty stack
    have hturn : ∃ cur, (match st.colorOf e.1 with
        | .white => dfs g (productiveStates g) (g.states.entries.length + 1) e.1 st
        | .gray | .black => st) = cur ∧ st.Extends cur ∧ cur.Inv g ∧ cur.colorOf e.1 = .black := by
      cases hcolor : st.colorOf e.1 with
      | white =>
        have hv := dfs_spec g _ e.1 st h hcolor (by simp [hstack]) (st.whites_lt g)
        exact ⟨_, rfl, hv.extended, hv.inv, hv.black⟩
      | gray =>
        have hmem := (h.gray_iff e.1).mp hcolor
        grind
      | black => exact ⟨st, rfl, DfsState.Extends.refl st, h, hcolor⟩
    obtain ⟨cur, hcur, hext, hinv, hblack⟩ := hturn
    obtain ⟨hext', hinv', hblack'⟩ := ih hinv (hext.stack_eq.trans hstack)
    simp only [List.foldl_cons, hcur]
    refine ⟨hext.trans hext', hinv', ?_⟩
    intro e' he'
    rcases List.mem_cons.mp he' with rfl | he'
    · exact hext'.black _ hblack
    · exact hblack' e' he'

/-- **The whole search visits every state** and keeps the invariant. -/
theorem dfsAll_spec (g : WorkflowGraph) :
    (dfsAll g).Inv g ∧ ∀ id st, g.states.lookup id = some st → (dfsAll g).colorOf id = .black := by
  have hfirst := dfs_spec g (g.states.entries.length + 1) g.initialState ⟨∅, [], [], []⟩
    (DfsState.inv_init g) rfl (by simp) (DfsState.whites_lt g _)
  obtain ⟨-, hinv, hblack⟩ := dfsRest_spec g g.states.entries hfirst.inv hfirst.extended.stack_eq
  refine ⟨hinv, ?_⟩
  intro id st hst
  exact hblack ⟨id, st⟩ (GoMap.mem_entries_iff.mpr hst)

/-- **Where nothing is reported no run is trapped**: there is no set of unproductive ids, with a
    state among them, in which every id has a successor in the set. -/
theorem not_trapped_of_no_errors (h : circularTransitionDetector g = [])
    {Q : String → Prop} (hunproductive : ∀ u, Q u → ¬ g.Productive u)
    (hstep : ∀ u, Q u → ∃ v ∈ g.succs u, Q v) {st : State} (hst : g.states.lookup id = some st) :
    ¬ Q id := by
  obtain ⟨hinv, hblack⟩ := dfsAll_spec g
  obtain ⟨done, hdone, hfin⟩ := hinv.finished h
  exact hfin.not_mem_of_step hunproductive hstep id ((hdone id).mpr (hblack id st hst))

end Zynax.Compiler
