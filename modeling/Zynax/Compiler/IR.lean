import Zynax.Compiler.Graph

namespace Zynax.Compiler

open Golang

/-!
# The intermediate representation

The messages of the compiled workflow and `ToIR`, which builds them from a graph.
-/

/-! ### Messages -/

inductive StateTypeIR where
  | unspecified | normal | terminal | humanInTheLoop
  deriving DecidableEq, Repr

structure Duration where
  seconds : Int
  nanos : Int
  deriving DecidableEq, Repr

structure ActionIR where
  capability : String
  timeout : Option Duration
  inputTemplateJson : String
  async : Bool
  outputBindings : GoMap String
  inputBindings : GoMap String
  deriving DecidableEq

structure TransitionIR where
  eventType : String
  targetState : String
  conditions : GoMap String
  deriving DecidableEq

structure StateIR where
  id : String
  type : StateTypeIR
  actions : List ActionIR
  transitions : List TransitionIR
  outputs : GoMap String
  deriving DecidableEq

structure WorkflowIR where
  workflowId : String
  name : String
  nameSpace : String
  apiVersion : String
  compiledAt : Int
  initialState : String
  states : List StateIR
  irVersion : String
  deriving DecidableEq

/-! ### Conversion -/

def irVersion : String := "v1"

/-- What a manifest of the default namespace is compiled to, at time 0 and under the id `wf-1`. -/
def plainIR (name initialState : String) (states : List StateIR) : WorkflowIR where
  workflowId := "wf-1"
  name := name
  nameSpace := "default"
  apiVersion := "zynax.io/v1"
  compiledAt := 0
  initialState := initialState
  states := states
  irVersion := irVersion

def convertStateType : StateType → StateTypeIR
  | .terminal => .terminal
  | .humanInTheLoop => .humanInTheLoop
  | .normal => .normal

def newDuration (nanos : Int) : Duration :=
  ⟨Int.tdiv nanos 1000000000, Int.tmod nanos 1000000000⟩

/-- The literal inputs as JSON; empty if there are none. -/
def marshalInputTemplate (input : GoMap Value) : Except String String :=
  if input.isEmpty then .ok ""
  else
    match (Value.map (input.entries.map (fun e => (e.1, e.2)))).toJson with
    | .error err => .error ("marshaling input template: " ++ err)
    | .ok j => .ok j.marshal

def convertActionIR (a : Action) : Except String ActionIR :=
  match marshalInputTemplate a.input with
  | .error err => .error err
  | .ok inputJSON =>
    .ok
      { capability := a.capability
        timeout := if a.timeout > 0 then some (newDuration a.timeout) else none
        inputTemplateJson := inputJSON
        async := a.async
        outputBindings := a.outputBindings
        inputBindings := a.inputBindings }

def convertActionsFrom (stateID : String) : Nat → List Action → Except Formatted (List ActionIR)
  | _, [] => .ok []
  | i, a :: as =>
    match convertActionIR a with
    | .error err =>
      .error ⟨"state %q action[%d]: cannot marshal input: %w", [.str stateID, .int i, .str err]⟩
    | .ok b =>
      match convertActionsFrom stateID (i + 1) as with
      | .error err => .error err
      | .ok bs => .ok (b :: bs)

def convertActions (stateID : String) (actions : List Action) : Except Formatted (List ActionIR) :=
  convertActionsFrom stateID 0 actions

/-- Guards and `set` maps stay behind. -/
def convertTransitions (transitions : List Transition) : List TransitionIR :=
  transitions.map fun t =>
    { eventType := t.eventType
      targetState := t.targetState
      conditions := t.conditions }

def convertStateIR (id : String) (s : State) : Except Formatted StateIR :=
  match convertActions id s.actions with
  | .error err => .error err
  | .ok actions =>
    .ok
      { id := id
        type := convertStateType s.type
        actions := actions
        transitions := convertTransitions s.transitions
        outputs := s.outputs }

def convertStatesList : List (Σ _ : String, State) → Except Formatted (List StateIR)
  | [] => .ok []
  | e :: es =>
    match convertStateIR e.1 e.2 with
    | .error err => .error err
    | .ok st =>
      match convertStatesList es with
      | .error err => .error err
      | .ok sts => .ok (st :: sts)

/-- The states in the order of their names. -/
def convertStates (states : GoMap State) : Except Formatted (List StateIR) :=
  convertStatesList (states.entries.insertionSort (fun a b => a.1 ≤ b.1))

/-- `ToIR`: the graph as the engine receives it. -/
def toIR (g : WorkflowGraph) (workflowID apiVersion : String) (compiledAt : Option Int) (now : Int) :
    Except Formatted WorkflowIR :=
  if workflowID = "" then .error (.text "workflowID must not be empty")
  else
    match convertStates g.states with
    | .error err => .error err
    | .ok states =>
      .ok
        { workflowId := workflowID
          name := g.name
          nameSpace := g.nameSpace
          apiVersion := apiVersion
          compiledAt := compiledAt.getD now
          initialState := g.initialState
          states := states
          irVersion := irVersion }

def findState (ir : WorkflowIR) (stateID : String) : Option StateIR :=
  ir.states.find? (fun s => s.id == stateID)

/-! ### What the conversion keeps -/

variable {i : Nat} {id wid api : String} {s : State} {st : StateIR} {sts : List StateIR}
  {g : WorkflowGraph} {at' : Option Int} {now : Int} {ir : WorkflowIR}

theorem exists_of_forall₂ {α β : Type} {R : α → β → Prop} {as : List α} {bs : List β}
    (h : List.Forall₂ R as bs) {a : α} (ha : a ∈ as) : ∃ b ∈ bs, R a b := by
  induction h with
  | nil => exact absurd ha (by simp)
  | cons hab _ ih =>
    grind

theorem getElem?_of_forall₂ {α β : Type} {R : α → β → Prop} {as : List α} {bs : List β}
    (h : List.Forall₂ R as bs) {a : α} (ha : as[i]? = some a) :
    ∃ b, bs[i]? = some b ∧ R a b := by
  induction h generalizing i with
  | nil => exact absurd ha (by simp)
  | cons hab _ ih =>
    grind

theorem convertActionsFrom_eq_ok {stateID : String} {as : List Action} {bs : List ActionIR}
    (h : convertActionsFrom stateID i as = .ok bs) :
    List.Forall₂ (fun a b => convertActionIR a = .ok b) as bs := by
  induction as generalizing i bs with
  | nil =>
    cases h
    exact .nil
  | cons a as ih =>
    rw [convertActionsFrom] at h
    split at h
    · exact absurd h (by simp)
    · rename_i b hb
      split at h
      · exact absurd h (by simp)
      · rename_i bs' hbs'
        obtain rfl := Except.ok.inj h
        exact .cons hb (ih hbs')

theorem convertActionIR_eq_ok {a : Action} {b : ActionIR} (h : convertActionIR a = .ok b) :
    b.capability = a.capability ∧ b.async = a.async ∧ b.outputBindings = a.outputBindings ∧
      b.inputBindings = a.inputBindings ∧ marshalInputTemplate a.input = .ok b.inputTemplateJson := by
  rw [convertActionIR] at h
  grind

structure ConvertedState (s : State) (st : StateIR) : Prop where
  type_eq : st.type = convertStateType s.type
  actions : List.Forall₂ (fun a b => convertActionIR a = .ok b) s.actions st.actions
  transitions_eq : st.transitions = convertTransitions s.transitions
  outputs_eq : st.outputs = s.outputs

theorem convertStateIR_eq_ok (h : convertStateIR id s = .ok st) : st.id = id ∧ ConvertedState s st := by
  rw [convertStateIR] at h
  split at h
  · exact absurd h (by simp)
  · rename_i actions hactions
    obtain rfl := Except.ok.inj h
    exact ⟨rfl, rfl, convertActionsFrom_eq_ok hactions, rfl, rfl⟩

theorem convertStatesList_eq_ok {es : List (Σ _ : String, State)} (h : convertStatesList es = .ok sts) :
    List.Forall₂ (fun e st => st.id = e.1 ∧ ConvertedState e.2 st) es sts := by
  induction es generalizing sts with
  | nil =>
    cases h
    exact .nil
  | cons e es ih =>
    rw [convertStatesList] at h
    split at h
    · exact absurd h (by simp)
    · rename_i st hst
      split at h
      · exact absurd h (by simp)
      · rename_i sts' hsts'
        obtain rfl := Except.ok.inj h
        exact .cons (convertStateIR_eq_ok hst) (ih hsts')

theorem lookup_of_mem_convertStates {states : GoMap State} (h : convertStates states = .ok sts)
    (hst : st ∈ sts) :
    ∃ s, states.lookup st.id = some s ∧ ConvertedState s st := by
  obtain ⟨e, he, hid, hconv⟩ := exists_of_forall₂ (convertStatesList_eq_ok h).flip hst
  rw [List.mem_insertionSort] at he
  exact ⟨e.2, hid ▸ GoMap.lookup_of_mem he, hconv⟩

theorem mem_convertStates_of_lookup {states : GoMap State} (h : convertStates states = .ok sts)
    (hs : states.lookup id = some s) :
    ∃ st ∈ sts, st.id = id := by
  have hmem : (⟨id, s⟩ : Σ _ : String, State) ∈
      states.entries.insertionSort (fun a b => a.1 ≤ b.1) := by
    rw [List.mem_insertionSort]
    exact GoMap.mem_entries_iff.mpr hs
  obtain ⟨st, hst, hid, -⟩ := exists_of_forall₂ (convertStatesList_eq_ok h) hmem
  exact ⟨st, hst, hid⟩

theorem toIR_eq_ok (h : toIR g wid api at' now = .ok ir) :
    ir.workflowId = wid ∧ ir.nameSpace = g.nameSpace ∧ ir.initialState = g.initialState ∧
      convertStates g.states = .ok ir.states := by
  rw [toIR] at h
  grind

/-- **Every state of the IR is a state of the graph**, converted field by field ... -/
theorem lookup_of_findState (h : toIR g wid api at' now = .ok ir) (hfind : findState ir id = some st) :
    ∃ s, g.states.lookup id = some s ∧ ConvertedState s st := by
  have hid : st.id = id := by simpa using List.find?_some hfind
  rw [← hid]
  exact lookup_of_mem_convertStates (toIR_eq_ok h).2.2.2 (List.mem_of_find?_eq_some hfind)

/-- ... **and every state of the graph is found in the IR.** -/
theorem findState_of_lookup (h : toIR g wid api at' now = .ok ir)
    (hs : g.states.lookup id = some s) : ∃ st, findState ir id = some st ∧ ConvertedState s st := by
  obtain ⟨st, hst, hid⟩ := mem_convertStates_of_lookup (toIR_eq_ok h).2.2.2 hs
  cases hfind : findState ir id with
  | none =>
    have hne := List.find?_eq_none.mp hfind st hst
    grind
  | some st' =>
    obtain ⟨s', hs', hconv⟩ := lookup_of_findState h hfind
    grind

/-! ### When the conversion succeeds -/

def Action.Encodable (a : Action) : Prop := ∀ k v, a.input.lookup k = some v → v.encodable = true

theorem exists_marshalInputTemplate_iff {input : GoMap Value} :
    (∃ json, marshalInputTemplate input = .ok json) ↔
      ∀ k v, input.lookup k = some v → v.encodable = true := by
  have hentries : (∃ j, (Value.map (input.entries.map (fun e => (e.1, e.2)))).toJson = .ok j) ↔
      ∀ k v, input.lookup k = some v → v.encodable = true := by
    rw [Value.exists_toJson_iff, Value.encodable, Value.encodableFields_iff, List.forall_mem_map,
      GoMap.forall_mem_entries_iff]
  rw [marshalInputTemplate, ← hentries]
  by_cases hempty : input.isEmpty = true
  · -- nothing to write: both sides hold
    rw [if_pos hempty, hentries]
    refine iff_of_true ⟨_, rfl⟩ ?_
    intro k v hv
    rw [GoMap.isEmpty_iff.mp hempty k] at hv
    exact absurd hv (by simp)
  · rw [if_neg hempty]
    cases (Value.map (input.entries.map (fun e => (e.1, e.2)))).toJson with
    | error err => simp
    | ok j => simp

theorem exists_convertActionIR_iff {a : Action} :
    (∃ b, convertActionIR a = .ok b) ↔ a.Encodable := by
  rw [Action.Encodable, ← exists_marshalInputTemplate_iff, convertActionIR]
  cases marshalInputTemplate a.input with
  | error err => simp
  | ok json => simp

theorem exists_convertActionsFrom_iff {stateID : String} {as : List Action} :
    (∃ bs, convertActionsFrom stateID i as = .ok bs) ↔ ∀ a ∈ as, a.Encodable := by
  induction as generalizing i with
  | nil => simp [convertActionsFrom]
  | cons a as ih =>
    have htail := @ih (i + 1)
    rw [List.forall_mem_cons, ← htail, ← exists_convertActionIR_iff, convertActionsFrom]
    grind

theorem exists_convertStatesList_iff {es : List (Σ _ : String, State)} :
    (∃ sts, convertStatesList es = .ok sts) ↔ ∀ e ∈ es, ∀ a ∈ e.2.actions, a.Encodable := by
  induction es with
  | nil => simp [convertStatesList]
  | cons e es ih =>
    have hhead : (∃ st, convertStateIR e.1 e.2 = .ok st) ↔ ∀ a ∈ e.2.actions, a.Encodable := by
      rw [← exists_convertActionsFrom_iff, convertStateIR, convertActions]
      cases convertActionsFrom e.1 0 e.2.actions with
      | error err => simp
      | ok actions => simp
    rw [List.forall_mem_cons, ← ih, ← hhead, convertStatesList]
    grind

/-- **A graph is converted exactly when every literal input can be written as JSON.** -/
theorem exists_toIR_iff (hwid : wid ≠ "") :
    (∃ ir, toIR g wid api at' now = .ok ir) ↔
      ∀ id s, g.states.lookup id = some s → ∀ a ∈ s.actions, a.Encodable := by
  have hstates : (∃ sts, convertStates g.states = .ok sts) ↔
      ∀ id s, g.states.lookup id = some s → ∀ a ∈ s.actions, a.Encodable := by
    rw [convertStates, exists_convertStatesList_iff]
    simp only [List.mem_insertionSort, GoMap.forall_mem_entries_iff]
  rw [← hstates, toIR, if_neg hwid]
  cases convertStates g.states with
  | error err => simp
  | ok sts => simp

end Zynax.Compiler
