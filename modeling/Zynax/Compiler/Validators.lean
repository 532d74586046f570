import Zynax.Compiler.Graph

namespace Zynax.Compiler

open Golang

/-!
# Validators

The built-in structural and semantic validators, in the order `All` lists them.
-/

/-! ### Structural validators -/

def terminalStateValidator (g : WorkflowGraph) : List ParseError :=
  if g.states.entries.any (fun e => decide (e.2.type = .terminal)) then []
  else [{ code := .noTerminalState
          message := .text "workflow must have at least one terminal state" }]

def WorkflowGraph.targets (g : WorkflowGraph) : List String :=
  g.states.entries.flatMap (fun e => e.2.transitions.map Transition.targetState)

/-- The states that can be reached, `start` included. -/
def reachableFrom (g : WorkflowGraph) (start : String) : List String :=
  Graph.closure g.succs (1 + g.targets.length) [start]

def orphanStateValidator (g : WorkflowGraph) : List ParseError :=
  let reachable := reachableFrom g g.initialState
  g.states.entries.filterMap fun e =>
    if e.1 ∈ reachable then none
    else some (stateError .orphanState e.1 e.2.line
      ⟨"state %q is unreachable from initial state %q", [.str e.1, .str g.initialState]⟩)

def reverseAdjacency (g : WorkflowGraph) : GoMap (List String) :=
  g.states.entries.foldl
    (fun m e => e.2.transitions.foldl
      (fun m t => AList.insert t.targetState (m.getD t.targetState [] ++ [e.1]) m) m)
    (g.states.mapVal (fun _ _ => []))

def terminalStates (g : WorkflowGraph) : List String :=
  (g.states.entries.filter (fun e => decide (e.2.type = .terminal))).map Sigma.fst

/-- The states from which a terminal one can be reached. -/
def productiveStates (g : WorkflowGraph) : List String :=
  let reverse := reverseAdjacency g
  Graph.closure (fun id => reverse.getD id []) (g.states.entries.length + g.states.entries.length)
    (terminalStates g)

/-! ### The cycle detector -/

inductive Color where
  | white | gray | black
  deriving DecidableEq, Repr

structure DfsState where
  color : GoMap Color
  stack : List String
  reported : List String
  errs : List ParseError

def DfsState.colorOf (st : DfsState) (id : String) : Color := st.color.getD id .white

def DfsState.enter (st : DfsState) (id : String) : DfsState :=
  { st with color := AList.insert id .gray st.color, stack := st.stack ++ [id] }

def DfsState.leave (st : DfsState) (id : String) : DfsState :=
  { st with stack := st.stack.dropLast, color := AList.insert id .black st.color }

def DfsState.backEdge (productive : List String) (st : DfsState) (next : String) : DfsState :=
  match st.stack.findIdx? (· == next) with
  | none => st
  | some start =>
    if next ∈ st.reported then st
    else
      let cycle := st.stack.drop start
      if cycle.all (fun s => decide (s ∉ productive)) then
        { st with
          reported := next :: st.reported
          errs := st.errs ++ [{
            code := .circularTransition
            message := ⟨"trapped cycle with no terminal escape: %s", [.strs (cycle ++ [next])]⟩
            stateName := next }] }
      else st

def dfs (g : WorkflowGraph) (productive : List String) : Nat → String → DfsState → DfsState
  | 0, _, st => st
  | fuel + 1, id, st =>
    match g.states.lookup id with
    -- an unknown target has no edges, but it is marked all the same
    | none => (st.enter id).leave id
    | some state =>
      (state.transitions.foldl (fun st t =>
        match st.colorOf t.targetState with
        | .white => dfs g productive fuel t.targetState st
        | .gray => st.backEdge productive t.targetState
        | .black => st) (st.enter id)).leave id

def dfsAll (g : WorkflowGraph) : DfsState :=
  let productive := productiveStates g
  let fuel := g.states.entries.length + 1
  let st := dfs g productive fuel g.initialState ⟨∅, [], [], []⟩
  g.states.entries.foldl (fun st e =>
    match st.colorOf e.1 with
    | .white => dfs g productive fuel e.1 st
    | .gray | .black => st) st

/-- Cycles that cannot be left, by a coloured depth-first search. -/
def circularTransitionDetector (g : WorkflowGraph) : List ParseError := (dfsAll g).errs

/-! ### Naming rules -/

def isLower (c : Char) : Bool := 'a' ≤ c && c ≤ 'z'

def isLowerAlnum (c : Char) : Bool := isLower c || c.isDigit

def isSnakeCase (s : List Char) : Bool :=
  match s.splitOn '_' with
  | [] => false
  | w :: ws =>
    (match w with
      | [] => false
      | c :: cs => isLower c && cs.all isLowerAlnum) &&
    ws.all (fun w => !w.isEmpty && w.all isLowerAlnum)

def isDnsLabel (s : List Char) : Bool :=
  1 ≤ s.length && s.length ≤ 63 && s.all (fun c => isLowerAlnum c || c = '-') &&
    s.head? ≠ some '-' && s.getLast? ≠ some '-'

def capabilityNameRe (s : String) : Bool :=
  match s.toList.splitOn '/' with
  | [cap] => isSnakeCase cap
  | [ns, cap] => isDnsLabel ns && isSnakeCase cap
  | _ => false

def eventNameRe (s : String) : Bool := (s.toList.splitOn '.').all isSnakeCase

def namespaceRe (s : String) : Bool := isDnsLabel s.toList

/-! ### Semantic validators -/

def reservedPrefixes : List String := ["zynax_", "system_", "internal_"]

def bareCapability (cap : String) : String :=
  match indexOf ['/'] cap.toList with
  | none => cap
  | some i => String.ofList (cap.toList.drop (i + 1))

def capabilityRefValidator (g : WorkflowGraph) : List ParseError :=
  g.states.entries.flatMap fun e =>
    (e.2.actions.mapIdx fun i action =>
      if !capabilityNameRe action.capability then
        [stateError .invalidFieldValue e.1 e.2.line
          ⟨"state %q action[%d]: capability %q must be snake_case or <namespace>/snake_case (e.g. summarize, send_email, team-a/send_email)",
            [.str e.1, .int i, .str action.capability]⟩]
      else
        match reservedPrefixes.find? (fun p => hasPrefix (bareCapability action.capability) p) with
        | none => []
        | some p =>
          [stateError .invalidFieldValue e.1 e.2.line
            ⟨"state %q action[%d]: capability %q uses reserved prefix %q",
              [.str e.1, .int i, .str action.capability, .str p]⟩]).flatten

def eventNameValidator (g : WorkflowGraph) : List ParseError :=
  g.states.entries.flatMap fun e =>
    e.2.transitions.filterMap fun t =>
      if eventNameRe t.eventType then none
      else some (stateError .invalidFieldValue e.1 e.2.line
        ⟨"state %q transition: event_type %q must be dot-separated lowercase, underscores allowed within segments (e.g. review.approved, push, code_review.completed)",
          [.str e.1, .str t.eventType]⟩)

def namespaceValidator (g : WorkflowGraph) : List ParseError :=
  let ns := g.nameSpace
  -- `len` counts bytes, whatever the message says
  if ns = "" then []
  else if ns.utf8ByteSize > 63 then
    [{ code := .invalidFieldValue
       message := ⟨"namespace %q exceeds 63 characters (%d)", [.str ns, .int ns.utf8ByteSize]⟩ }]
  else if !namespaceRe ns then
    [{ code := .invalidFieldValue
       message := ⟨"namespace %q must be DNS-label safe: lowercase alphanumeric and hyphens, no leading/trailing hyphen",
         [.str ns]⟩ }]
  else []

def transitionSetValidator (g : WorkflowGraph) : List ParseError :=
  g.states.entries.flatMap fun e =>
    e.2.transitions.flatMap fun t =>
      t.set.entries.filterMap fun kv =>
        if kv.2.asString.isSome then none
        else some (stateError .invalidFieldValue e.1 e.2.line
          ⟨"state %q transition %q: set key %q must be a string, got %T",
            [.str e.1, .str t.eventType, .str kv.1, .str kv.2.goType]⟩)

/-- A qualified capability is of the own namespace. -/
def crossNamespaceCapabilityValidator (g : WorkflowGraph) : List ParseError :=
  g.states.entries.flatMap fun e =>
    (e.2.actions.mapIdx fun i action =>
      match indexOf ['/'] action.capability.toList with
      | none => []
      | some slashIdx =>
        let capNS := String.ofList (action.capability.toList.take slashIdx)
        if capNS = g.nameSpace then []
        else [stateError .invalidFieldValue e.1 e.2.line
          ⟨"state %q action[%d]: capability %q targets namespace %q but workflow namespace is %q; cross-namespace capability dispatch is not allowed",
            [.str e.1, .int i, .str action.capability, .str capNS, .str g.nameSpace]⟩]).flatten

def duplicateTransitions (stateID : String) (line : Int) :
    List String → List Transition → List ParseError
  | _, [] => []
  | seen, t :: ts =>
    -- guarded transitions may share an event, and are not remembered either
    if t.guard ≠ "" then duplicateTransitions stateID line seen ts
    else if t.eventType ∈ seen then
      stateError .invalidFieldValue stateID line
        ⟨"state %q has duplicate unguarded transition for event_type %q",
          [.str stateID, .str t.eventType]⟩ :: duplicateTransitions stateID line seen ts
    else duplicateTransitions stateID line (t.eventType :: seen) ts

def duplicateTransitionValidator (g : WorkflowGraph) : List ParseError :=
  g.states.entries.flatMap fun e => duplicateTransitions e.1 e.2.line [] e.2.transitions

/-- All validators, in the order of the source. -/
def runAll (g : WorkflowGraph) : List ParseError :=
  [terminalStateValidator, orphanStateValidator, circularTransitionDetector,
    duplicateTransitionValidator, capabilityRefValidator, eventNameValidator, namespaceValidator,
    transitionSetValidator, crossNamespaceCapabilityValidator].flatMap (fun v => v g)

end Zynax.Compiler
