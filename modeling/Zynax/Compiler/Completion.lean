import Zynax.Compiler.Cycles

namespace Zynax.Compiler

open Golang

/-!
# Can every run still complete?

What the checks of `Build` and of the validators say together about the shapes a graph may have:
they exclude unknown targets, unreachable states and trapped cycles, but neither dead ends nor
terminal states with transitions.
-/

variable {g : WorkflowGraph}

def Completes (g : WorkflowGraph) : Prop :=
  (∀ id st, g.states.lookup id = some st → st.type = .terminal → st.transitions = []) ∧
    ∀ id st, g.states.lookup id = some st → g.Productive id

def DeadEndsTerminal (g : WorkflowGraph) : Prop :=
  ∀ id st, g.states.lookup id = some st → (st.type = .terminal ↔ st.transitions = [])

theorem circularTransitionDetector_of_runAll (h : runAll g = []) :
    circularTransitionDetector g = [] := by
  rw [runAll, List.flatMap_eq_nil_iff] at h
  exact h circularTransitionDetector (by simp)

theorem WorkflowGraph.Productive.of_terminal {id : String} {st : State}
    (hst : g.states.lookup id = some st) (hterm : st.type = .terminal) : g.Productive id :=
  ⟨id, mem_terminalStates_iff.mpr ⟨st, hst, hterm⟩, Relation.ReflTransGen.refl⟩

theorem WorkflowGraph.Productive.head {u v : String} (hv : v ∈ g.succs u)
    (h : g.Productive v) : g.Productive u := by
  obtain ⟨t, ht, hreach⟩ := h
  exact ⟨t, ht, Relation.ReflTransGen.head hv hreach⟩

theorem terminal_of_productive {id : String} {st : State}
    (hst : g.states.lookup id = some st) (hend : st.transitions = []) (h : g.Productive id) :
    st.type = .terminal := by
  obtain ⟨t, ht, hreach⟩ := h
  rcases Relation.ReflTransGen.cases_head hreach with rfl | ⟨v, hv, -⟩
  · obtain ⟨st', hst', hterm⟩ := mem_terminalStates_iff.mp ht
    grind
  · obtain ⟨st', hst', t', ht', -⟩ := WorkflowGraph.mem_succs.mp hv
    grind

/-- **The checks leave exactly two shapes out.**  In a graph that `Build` and the validators accept,
    terminal states are final and every state can complete if and only if the terminal states are
    those without transitions. -/
theorem completes_iff {m : Manifest} {g : WorkflowGraph} (hbuild : build m = .ok g)
    (hvalid : runAll g = []) : Completes g ↔ DeadEndsTerminal g := by
  obtain ⟨hwell, rfl⟩ := build_eq_ok.mp hbuild
  constructor
  · rintro ⟨hfinal, hprod⟩ id st hst
    exact ⟨hfinal id st hst, fun hend => terminal_of_productive hst hend (hprod id st hst)⟩
  · intro hends
    refine ⟨fun id st hst => (hends id st hst).mp, ?_⟩
    intro id st hst
    by_contra hunproductive
    -- the unproductive states: none of them is a dead end, so a run goes round in them for ever
    refine not_trapped_of_no_errors (circularTransitionDetector_of_runAll hvalid)
      (Q := fun u => ¬ WorkflowGraph.Productive _ u ∧ ∃ s, m.states.lookup u = some s)
      (fun u hu => hu.1) ?_ hst ⟨hunproductive, st, hst⟩
    rintro u ⟨hu, s, hs⟩
    have hnotTerminal : s.type ≠ .terminal := fun hterm =>
      hu (WorkflowGraph.Productive.of_terminal hs hterm)
    have hways : s.transitions ≠ [] := fun hend => hnotTerminal ((hends u s hs).mpr hend)
    obtain ⟨t, ts, htrans⟩ := List.exists_cons_of_ne_nil hways
    have ht : t ∈ s.transitions := by rw [htrans]; simp
    have hv : t.targetState ∈ WorkflowGraph.succs ⟨m.name, m.nameSpace, m.initialState, m.states⟩ u :=
      WorkflowGraph.mem_succs.mpr ⟨s, hs, t, ht, rfl⟩
    exact ⟨t.targetState, hv, fun hprod => hu (hprod.head hv), hwell.targets_known u s hs t ht⟩

/-! ### A drafting loop, and a workflow that can get stuck -/

def draftManifest : Manifest := plainManifest "draft" "draft"
  [("draft", ⟨"draft", .normal, [], [⟨"drafted", "review", "", ∅, ∅⟩], ∅, 0⟩),
    ("review", ⟨"review", .normal, [],
      [⟨"rejected", "draft", "", ∅, ∅⟩, ⟨"approved", "done", "", ∅, ∅⟩], ∅, 0⟩),
    ("done", ⟨"done", .terminal, [], [], ∅, 0⟩)]

def draftGraph : WorkflowGraph := ⟨"draft", "default", "draft", draftManifest.states⟩

theorem completes_draft : Completes draftGraph ↔ DeadEndsTerminal draftGraph := by
  refine completes_iff (m := draftManifest) ?_ ?_
  · rw [build, checked_eq_ok]
    exact ⟨by decide +kernel, rfl⟩
  · decide +kernel

def stuckYaml : YamlManifest := workflowYaml "stuck" "start"
  [("start", { on := [{ event := "parked", goto := "parked" }, { event := "passed", goto := "done" }] }),
    ("parked", {}),
    ("done", { type := "terminal", on := [{ event := "retry", goto := "start" }] })]

def stuckManifest : Manifest := plainManifest "stuck" "start"
  [("start", ⟨"start", .normal, [],
      [⟨"parked", "parked", "", ∅, ∅⟩, ⟨"passed", "done", "", ∅, ∅⟩], ∅, 0⟩),
    ("parked", ⟨"parked", .normal, [], [], ∅, 0⟩),
    ("done", ⟨"done", .terminal, [], [⟨"retry", "start", "", ∅, ∅⟩], ∅, 0⟩)]

def stuckGraph : WorkflowGraph := ⟨"stuck", "default", "start", stuckManifest.states⟩

def stuckText : List UInt8 := manifestText "stuck" "start"
  ("    start: \x7bon: [\x7bevent: parked, goto: parked\x7d, \x7bevent: passed, goto: done\x7d]\x7d\n" ++
    "    parked: \x7b\x7d\n" ++
    "    done: \x7btype: terminal, on: [\x7bevent: retry, goto: start\x7d]\x7d\n")

/-- **Both shapes are accepted**: no terminal state can be reached from `parked`, and the terminal
    state `done` has a transition. -/
theorem stuck_accepted :
    parseManifest (fixedYaml stuckYaml) stuckText = .ok stuckManifest ∧
      build stuckManifest = .ok stuckGraph ∧ runAll stuckGraph = [] ∧
      (∃ st, stuckGraph.states.lookup "parked" = some st ∧ ¬ stuckGraph.Productive "parked") ∧
      ∃ st, stuckGraph.states.lookup "done" = some st ∧ st.type = .terminal ∧ st.transitions ≠ [] := by
  refine ⟨rfl, ?_, by decide +kernel, ⟨_, rfl, ?_⟩, ⟨_, rfl, rfl, by simp⟩⟩
  · rw [build, checked_eq_ok]
    exact ⟨by decide +kernel, rfl⟩
  · rw [← mem_productiveStates_iff]
    decide +kernel

end Zynax.Compiler
