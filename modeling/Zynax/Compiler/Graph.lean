import Zynax.Compiler.Manifest
import Zynax.Graph.Search

namespace Zynax.Compiler

open Golang

/-!
# Workflow graphs

`Build`: the graph of a parsed manifest, with the checks that need all states at once.
-/

structure WorkflowGraph where
  name : String
  nameSpace : String
  initialState : String
  states : GoMap State

def WorkflowGraph.succs (g : WorkflowGraph) (id : String) : List String :=
  match g.states.lookup id with
  | none => []
  | some st => st.transitions.map Transition.targetState

theorem WorkflowGraph.mem_succs {g : WorkflowGraph} {id target : String} :
    target ∈ g.succs id ↔
      ∃ st, g.states.lookup id = some st ∧ ∃ t ∈ st.transitions, t.targetState = target := by
  unfold succs
  grind

/-! ### Data references -/

/-- State and key of a reference, split at the first `.output.`. -/
def parseBindingRef (ref : String) : Option (String × String) :=
  if hasPrefix ref "$.states." then
    let rest := ref.toList.drop "$.states.".toList.length
    match indexOf ".output.".toList rest with
    | none => none
    | some idx =>
      let state := rest.take idx
      let key := rest.drop (idx + ".output.".toList.length)
      if idx = 0 ∨ state = [] ∨ key = [] then none
      else some (String.ofList state, String.ofList key)
  else none

/-- The output keys that each state declares. -/
def indexDeclaredOutputs (states : GoMap State) : GoMap (List String) :=
  states.filterMapVal (fun _ st =>
    let keys := st.actions.flatMap (fun a => a.outputBindings.keys)
    if keys.isEmpty then none else some keys)

structure RefMessages where
  malformed : Formatted
  unknownState : String → Formatted
  undeclaredKey : String → String → Formatted

def resolveRef (declared : GoMap (List String)) (msgs : RefMessages) (state : String) (line : Int)
    (ref : String) : Option ParseError :=
  match parseBindingRef ref with
  | none => some (stateError .invalidFieldValue state line msgs.malformed)
  | some (srcState, srcKey) =>
    match declared.lookup srcState with
    | none => some (stateError .invalidFieldValue state line (msgs.unknownState srcState))
    | some outputs =>
      if srcKey ∈ outputs then none
      else some (stateError .invalidFieldValue state line (msgs.undeclaredKey srcKey srcState))

def resolveBinding (consumer : String) (actionIdx : Nat) (inputKey ref : String) (line : Int)
    (declared : GoMap (List String)) : Option ParseError :=
  resolveRef declared
    { malformed :=
        ⟨"state %q: actions[%d].input[%q] reference %q is malformed; expected \"$.states.<state>.output.<key>\"",
          [.str consumer, .int actionIdx, .str inputKey, .str ref]⟩
      unknownState := fun srcState =>
        ⟨"state %q: actions[%d].input[%q] references output of unknown or output-less state %q",
          [.str consumer, .int actionIdx, .str inputKey, .str srcState]⟩
      undeclaredKey := fun srcKey srcState =>
        ⟨"state %q: actions[%d].input[%q] references undeclared output %q of state %q",
          [.str consumer, .int actionIdx, .str inputKey, .str srcKey, .str srcState]⟩ }
    consumer line ref

def resolveWorkflowOutput (state outputName ref : String) (line : Int)
    (declared : GoMap (List String)) : Option ParseError :=
  resolveRef declared
    { malformed :=
        ⟨"state %q: outputs[%q] reference %q is malformed; expected \"$.states.<state>.output.<key>\"",
          [.str state, .str outputName, .str ref]⟩
      unknownState := fun srcState =>
        ⟨"state %q: outputs[%q] references output of unknown or output-less state %q",
          [.str state, .str outputName, .str srcState]⟩
      undeclaredKey := fun srcKey srcState =>
        ⟨"state %q: outputs[%q] references undeclared output %q of state %q",
          [.str state, .str outputName, .str srcKey, .str srcState]⟩ }
    state line ref

/-- Errors of the references in action inputs. -/
def validateInputBindings (states : GoMap State) : List ParseError :=
  let declared := indexDeclaredOutputs states
  states.entries.flatMap fun e =>
    (e.2.actions.mapIdx fun ai a =>
      a.inputBindings.entries.filterMap fun b =>
        resolveBinding e.1 ai b.1 b.2 e.2.line declared).flatten

/-- Errors of the outputs of terminal states. -/
def validateWorkflowOutputs (states : GoMap State) : List ParseError :=
  let declared := indexDeclaredOutputs states
  states.entries.flatMap fun e =>
    if e.2.outputs.isEmpty then []
    else if e.2.type ≠ .terminal then
      [stateError .invalidFieldValue e.1 e.2.line
        ⟨"state %q: outputs may be declared only on a terminal state", [.str e.1]⟩]
    else
      e.2.outputs.entries.filterMap fun o =>
        -- a value without the reference root is a literal
        if hasPrefix o.2 inputBindingPrefix then
          resolveWorkflowOutput e.1 o.1 o.2 e.2.line declared
        else none

/-! ### Build -/

def initialStateErrors (m : Manifest) : List ParseError :=
  if (m.states.lookup m.initialState).isSome then []
  else [{ code := .unknownStateReference
          message := ⟨"initial_state %q is not defined in spec.states", [.str m.initialState]⟩
          stateName := m.initialState }]

def unknownTargetErrors (m : Manifest) : List ParseError :=
  m.states.entries.flatMap fun e =>
    e.2.transitions.filterMap fun t =>
      if (m.states.lookup t.targetState).isSome then none
      else some (stateError .unknownStateReference t.targetState e.2.line
        ⟨"state %q transitions to unknown state %q", [.str e.1, .str t.targetState]⟩)

def noTerminalErrors (m : Manifest) : List ParseError :=
  if m.states.entries.any (fun e => decide (e.2.type = .terminal)) then []
  else [{ code := .noTerminalState
          message := .text "workflow must have at least one terminal state" }]

def orphanErrors (m : Manifest) : List ParseError :=
  let reachable := m.initialState ::
    m.states.entries.flatMap (fun e => e.2.transitions.map Transition.targetState)
  m.states.entries.filterMap fun e =>
    if e.1 ∈ reachable then none
    else some (stateError .orphanState e.1 e.2.line
      ⟨"state %q is unreachable: no transition targets it", [.str e.1]⟩)

/-- `Build`: every check at once, then the graph. -/
def build (m : Manifest) : Except (List ParseError) WorkflowGraph :=
  checked
    (initialStateErrors m ++ unknownTargetErrors m ++ noTerminalErrors m ++ orphanErrors m ++
      validateInputBindings m.states ++ validateWorkflowOutputs m.states)
    { name := m.name
      nameSpace := m.nameSpace
      initialState := m.initialState
      states := m.states }

/-! ### What is accepted -/

variable {states : GoMap State} {m : Manifest}

def Declares (states : GoMap State) (s k : String) : Prop :=
  ∃ st, states.lookup s = some st ∧ ∃ a ∈ st.actions, k ∈ a.outputBindings.keys

theorem declares_iff {s k : String} :
    Declares states s k ↔ ∃ ks, (indexDeclaredOutputs states).lookup s = some ks ∧ k ∈ ks := by
  simp only [indexDeclaredOutputs, GoMap.lookup_filterMapVal, Option.bind_eq_some_iff, Declares]
  constructor
  · rintro ⟨st, hst, a, ha, hk⟩
    have hmem : k ∈ st.actions.flatMap (fun a => a.outputBindings.keys) :=
      List.mem_flatMap.mpr ⟨a, ha, hk⟩
    grind
  · grind

theorem resolveRef_eq_none {msgs : RefMessages} {state : String} {line : Int}
    {ref : String} :
    resolveRef (indexDeclaredOutputs states) msgs state line ref = none ↔
      ∃ s k, parseBindingRef ref = some (s, k) ∧ Declares states s k := by
  constructor
  · intro h
    simp only [resolveRef] at h
    split at h
    · exact absurd h (by simp)
    · rename_i s k hp
      split at h
      · exact absurd h (by simp)
      · rename_i ks hks
        split at h
        · rename_i hk
          exact ⟨s, k, hp, declares_iff.mpr ⟨ks, hks, hk⟩⟩
        · exact absurd h (by simp)
  · rintro ⟨s, k, hp, hd⟩
    obtain ⟨ks, hks, hk⟩ := declares_iff.mp hd
    simp [resolveRef, hp, hks, hk]

structure WellBuilt (initial : String) (states : GoMap State) : Prop where
  initial_known : ∃ st, states.lookup initial = some st
  targets_known : ∀ id st, states.lookup id = some st → ∀ t ∈ st.transitions,
    ∃ st', states.lookup t.targetState = some st'
  has_terminal : ∃ id st, states.lookup id = some st ∧ st.type = .terminal
  targeted : ∀ id st, states.lookup id = some st → id = initial ∨
    ∃ id' st', states.lookup id' = some st' ∧ ∃ t ∈ st'.transitions, t.targetState = id
  inputs_resolve : ∀ id st, states.lookup id = some st → ∀ a ∈ st.actions, ∀ key ref,
    a.inputBindings.lookup key = some ref →
      ∃ s k, parseBindingRef ref = some (s, k) ∧ Declares states s k
  outputs_terminal : ∀ id st, states.lookup id = some st → ∀ name ref,
    st.outputs.lookup name = some ref → st.type = .terminal
  outputs_resolve : ∀ id st, states.lookup id = some st → ∀ name ref,
    st.outputs.lookup name = some ref → hasPrefix ref inputBindingPrefix = true →
      ∃ s k, parseBindingRef ref = some (s, k) ∧ Declares states s k

theorem flatMap_entries_eq_nil {α ε : Type} {m : GoMap α} {f : (Σ _ : String, α) → List ε} :
    m.entries.flatMap f = [] ↔ ∀ k v, m.lookup k = some v → f ⟨k, v⟩ = [] := by
  rw [List.flatMap_eq_nil_iff, GoMap.forall_mem_entries_iff]

theorem filterMap_entries_eq_nil {α ε : Type} {m : GoMap α} {f : (Σ _ : String, α) → Option ε} :
    m.entries.filterMap f = [] ↔ ∀ k v, m.lookup k = some v → f ⟨k, v⟩ = none := by
  rw [List.filterMap_eq_nil_iff, GoMap.forall_mem_entries_iff]

theorem initialStateErrors_eq_nil :
    initialStateErrors m = [] ↔ ∃ st, m.states.lookup m.initialState = some st := by
  rw [initialStateErrors, ← Option.isSome_iff_exists]
  grind

theorem unknownTargetErrors_eq_nil :
    unknownTargetErrors m = [] ↔ ∀ id st, m.states.lookup id = some st → ∀ t ∈ st.transitions,
      ∃ st', m.states.lookup t.targetState = some st' := by
  simp only [unknownTargetErrors, flatMap_entries_eq_nil, List.filterMap_eq_nil_iff, ite_eq_left_iff,
    reduceCtorEq, imp_false, not_not, Option.isSome_iff_exists]

theorem noTerminalErrors_eq_nil :
    noTerminalErrors m = [] ↔ ∃ id st, m.states.lookup id = some st ∧ st.type = .terminal := by
  simp only [noTerminalErrors, ite_eq_left_iff, reduceCtorEq, imp_false, not_not, List.any_eq_true,
    decide_eq_true_eq]
  constructor
  · rintro ⟨⟨id, st⟩, he, ht⟩
    exact ⟨id, st, GoMap.mem_entries_iff.mp he, ht⟩
  · rintro ⟨id, st, he, ht⟩
    exact ⟨⟨id, st⟩, GoMap.mem_entries_iff.mpr he, ht⟩

theorem orphanErrors_eq_nil :
    orphanErrors m = [] ↔ ∀ id st, m.states.lookup id = some st → id = m.initialState ∨
      ∃ id' st', m.states.lookup id' = some st' ∧ ∃ t ∈ st'.transitions, t.targetState = id := by
  simp only [orphanErrors, filterMap_entries_eq_nil, ite_eq_left_iff, reduceCtorEq, imp_false,
    not_not, List.mem_cons, List.mem_flatMap, List.mem_map, Sigma.exists, GoMap.mem_entries_iff]

theorem validateInputBindings_eq_nil :
    validateInputBindings states = [] ↔ ∀ id st, states.lookup id = some st → ∀ a ∈ st.actions,
      ∀ key ref, a.inputBindings.lookup key = some ref →
        ∃ s k, parseBindingRef ref = some (s, k) ∧ Declares states s k := by
  simp only [validateInputBindings, flatMap_entries_eq_nil, List.flatten_eq_nil_iff,
    List.mem_mapIdx, forall_exists_index]
  constructor
  · intro h id st hst a ha key ref href
    obtain ⟨i, hi, rfl⟩ := List.getElem_of_mem ha
    have hnil := h id st hst _ i hi rfl
    exact resolveRef_eq_none.mp (filterMap_entries_eq_nil.mp hnil key ref href)
  · intro h id st hst errs i hi heq
    rw [← heq, filterMap_entries_eq_nil]
    intro key ref href
    exact resolveRef_eq_none.mpr (h id st hst _ (List.getElem_mem hi) key ref href)

theorem validateWorkflowOutputs_eq_nil :
    validateWorkflowOutputs states = [] ↔ ∀ id st, states.lookup id = some st → ∀ name ref,
      st.outputs.lookup name = some ref → st.type = .terminal ∧
        (hasPrefix ref inputBindingPrefix = true →
          ∃ s k, parseBindingRef ref = some (s, k) ∧ Declares states s k) := by
  simp only [validateWorkflowOutputs, flatMap_entries_eq_nil]
  refine forall_congr' fun id => forall_congr' fun st => forall_congr' fun _ => ?_
  split
  · rename_i hempty
    simp [GoMap.isEmpty_iff.mp hempty]
  · rename_i hne
    -- a non-empty map has an entry, whose state must then be terminal
    obtain ⟨name₀, ref₀, h₀⟩ : ∃ name ref, st.outputs.lookup name = some ref := by
      by_contra hno
      push Not at hno
      exact hne (GoMap.isEmpty_iff.mpr fun k => Option.eq_none_iff_forall_ne_some.mpr (hno k))
    split
    · grind
    · rename_i hty
      have hty : st.type = .terminal := not_not.mp hty
      rw [filterMap_entries_eq_nil]
      refine forall_congr' fun name => forall_congr' fun ref => forall_congr' fun _ => ?_
      split
      · rename_i hp
        simp only [hty, hp, true_and, forall_true_left]
        exact resolveRef_eq_none
      · grind

/-- **`Build` accepts exactly the well-built manifests**, and the graph is the manifest's. -/
theorem build_eq_ok {g : WorkflowGraph} :
    build m = .ok g ↔ WellBuilt m.initialState m.states ∧
      g = ⟨m.name, m.nameSpace, m.initialState, m.states⟩ := by
  rw [build, checked_eq_ok]
  simp only [List.append_eq_nil_iff, initialStateErrors_eq_nil, unknownTargetErrors_eq_nil,
    noTerminalErrors_eq_nil, orphanErrors_eq_nil, validateInputBindings_eq_nil,
    validateWorkflowOutputs_eq_nil]
  constructor
  · rintro ⟨⟨⟨⟨⟨⟨h1, h2⟩, h3⟩, h4⟩, h5⟩, h6⟩, rfl⟩
    exact ⟨⟨h1, h2, h3, h4, h5, fun id st hst name ref h => (h6 id st hst name ref h).1,
      fun id st hst name ref h => (h6 id st hst name ref h).2⟩, rfl⟩
  · rintro ⟨h, rfl⟩
    exact ⟨⟨⟨⟨⟨⟨h.initial_known, h.targets_known⟩, h.has_terminal⟩, h.targeted⟩, h.inputs_resolve⟩,
      fun id st hst name ref hr =>
        ⟨h.outputs_terminal id st hst name ref hr, h.outputs_resolve id st hst name ref hr⟩⟩, rfl⟩

end Zynax.Compiler
