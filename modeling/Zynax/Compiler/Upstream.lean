import Zynax.Compiler.Reachability

namespace Zynax.Compiler

open Golang

/-!
# Upstream outputs

A reference is of use only if some synchronous action that declares the output can run before the
point where it is consumed.  `Build` asks only that some action of some state declares it.
-/

/-! ### The paths of runs -/

variable {g : WorkflowGraph}

def WorkflowGraph.isTerminal (g : WorkflowGraph) (id : String) : Bool :=
  match g.states.lookup id with
  | none => false
  | some st => decide (st.type = .terminal)

def WorkflowGraph.liveSuccs (g : WorkflowGraph) (id : String) : List String :=
  if g.isTerminal id then [] else g.succs id

def WorkflowGraph.liveFrom (g : WorkflowGraph) (start : String) : List String :=
  Graph.closure g.liveSuccs (1 + g.targets.length) [start]

theorem WorkflowGraph.mem_succs_of_mem_liveSuccs {id target : String}
    (h : target ∈ g.liveSuccs id) : target ∈ g.succs id := by
  rw [liveSuccs] at h
  grind

theorem WorkflowGraph.mem_liveFrom_iff {start id : String} :
    id ∈ g.liveFrom start ↔ Graph.Reach g.liveSuccs start id := by
  have htargets : ∀ x, ∀ y ∈ g.liveSuccs x, y ∈ g.targets := fun x y hy =>
    WorkflowGraph.mem_targets_of_mem_succs (WorkflowGraph.mem_succs_of_mem_liveSuccs hy)
  rw [liveFrom, Graph.mem_closure_iff htargets (by simp)]
  simp

/-! ### Outputs and where they are consumed -/

def publishes (actions : List Action) (k : String) : Bool :=
  actions.any (fun a => !a.async && decide (k ∈ a.outputBindings.keys))

def WorkflowGraph.publishesIn (g : WorkflowGraph) (s k : String) : Bool :=
  match g.states.lookup s with
  | none => false
  | some st => decide (st.type ≠ .terminal) && publishes st.actions k

def Upstream (g : WorkflowGraph) (s k c : String) (earlier : List Action) : Prop :=
  ∃ path, Graph.IsPath g.liveSuccs g.initialState c path ∧
    (s ∈ path.dropLast ∧ g.publishesIn s k = true ∨
      s = c ∧ g.isTerminal c = false ∧ publishes earlier k = true)

/-! ### A plan that needs what it plans -/

def planYaml : YamlManifest := workflowYaml "plan" "plan"
  [("plan",
      { actions := [{ capability := "plan"
                      input := GoMap.ofPairs [("draft", .str "$.states.write.output.text")] }]
        on := [{ event := "plan.completed", goto := "write" }] }),
    ("write",
      { actions := [{ capability := "write", output := GoMap.ofPairs [("text", .str "text")] }]
        on := [{ event := "write.completed", goto := "done" }] }),
    ("done",
      { type := "terminal"
        outputs := GoMap.ofPairs [("result", .str "$.states.write.output.text")] })]

def planDone : State where
  id := "done"
  type := .terminal
  actions := []
  transitions := []
  outputs := GoMap.ofPairs [("result", "$.states.write.output.text")]
  line := 0

def planAction : Action where
  capability := "plan"
  timeout := 0
  input := ∅
  outputBindings := ∅
  inputBindings := GoMap.ofPairs [("draft", "$.states.write.output.text")]
  async := false

def planManifest : Manifest := plainManifest "plan" "plan"
  [("plan", ⟨"plan", .normal, [planAction], [⟨"plan.completed", "write", "", ∅, ∅⟩], ∅, 0⟩),
    ("write", ⟨"write", .normal, [⟨"write", 0, ∅, GoMap.ofPairs [("text", "text")], ∅, false⟩],
      [⟨"write.completed", "done", "", ∅, ∅⟩], ∅, 0⟩),
    ("done", planDone)]

def planGraph : WorkflowGraph := ⟨"plan", "default", "plan", planManifest.states⟩

theorem build_plan : build planManifest = .ok planGraph := by
  rfl

def planText : List UInt8 := manifestText "plan" "plan"
  ("    plan:\n      actions: [\x7bcapability: plan, input: \x7bdraft: $.states.write.output.text\x7d\x7d]\n" ++
    "      on: [\x7bevent: plan.completed, goto: write\x7d]\n" ++
    "    write:\n      actions: [\x7bcapability: write, output: \x7btext: text\x7d\x7d]\n" ++
    "      on: [\x7bevent: write.completed, goto: done\x7d]\n" ++
    "    done: \x7btype: terminal, outputs: \x7bresult: $.states.write.output.text\x7d\x7d\n")

end Zynax.Compiler
