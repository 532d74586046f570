import Zynax.Compiler.Value
import Zynax.Golang.Encoding

namespace Zynax.Compiler

open Golang

/-!
# Workflow manifests

The parser of the workflow compiler: from the decoded YAML of a manifest to the states of the
workflow's state machine.

* `YamlManifest` — the YAML shape; `Yaml` stands for the third-party decoder.
-/

/-! ### Errors -/

inductive CompilationErrorCode where
  | unspecified | yamlParseError | noInitialState | multipleInitialStates | noTerminalState
  | orphanState | unknownStateReference | duplicateStateName | missingRequiredField
  | invalidFieldValue | circularTransition
  deriving DecidableEq, Repr

/-- An error of the compiler, with its place. -/
structure ParseError where
  code : CompilationErrorCode
  message : Formatted
  line : Int := 0
  stateName : String := ""
  deriving DecidableEq, Repr

def checked {α : Type} (errs : List ParseError) (a : α) : Except (List ParseError) α :=
  if errs.isEmpty then .ok a else .error errs

theorem checked_eq_ok {α : Type} {errs : List ParseError} {a b : α} :
    checked errs a = .ok b ↔ errs = [] ∧ a = b := by
  cases errs with
  | nil => simp [checked]
  | cons e es => simp [checked]

theorem checked_ne_error_nil {α : Type} {errs : List ParseError} {a : α} :
    checked errs a ≠ .error [] := by
  cases errs with
  | nil => simp [checked]
  | cons e es => simp [checked]

/-! ### Domain types -/

inductive StateType where
  | normal | terminal | humanInTheLoop
  deriving DecidableEq, Repr

structure Action where
  capability : String
  timeout : Int
  input : GoMap Value
  outputBindings : GoMap String
  inputBindings : GoMap String
  async : Bool

structure Transition where
  eventType : String
  targetState : String
  guard : String
  set : GoMap Value
  conditions : GoMap String

structure State where
  id : String
  type : StateType
  actions : List Action
  transitions : List Transition
  outputs : GoMap String
  line : Int

structure Manifest where
  apiVersion : String
  kind : String
  name : String
  nameSpace : String
  annotations : GoMap String
  initialState : String
  states : GoMap State

/-! ### YAML shape -/

structure YamlAction where
  capability : String
  timeout : String := ""
  input : GoMap Value := ∅
  output : GoMap Value := ∅
  async : Bool := false

structure YamlTransition where
  event : String
  goto : String
  guard : String := ""
  set : GoMap Value := ∅

structure YamlState where
  type : String := ""
  actions : List YamlAction := []
  on : List YamlTransition := []
  outputs : GoMap Value := ∅

structure YamlMetadata where
  name : String
  nameSpace : String := ""
  annotations : GoMap String := ∅

structure YamlSpec where
  initialState : String
  states : GoMap YamlState

/-- A manifest as `yaml.v3` decodes it. -/
structure YamlManifest where
  kind : String
  apiVersion : String
  metadata : YamlMetadata
  spec : YamlSpec

inductive NodeKind where
  | document | sequence | mapping | scalar | alias
  deriving DecidableEq, Repr

inductive YamlNode where
  | mk (kind : NodeKind) (value : String) (line : Int) (content : List YamlNode)

namespace YamlNode

def kind : YamlNode → NodeKind
  | mk k _ _ _ => k

def value : YamlNode → String
  | mk _ v _ _ => v

def line : YamlNode → Int
  | mk _ _ l _ => l

def content : YamlNode → List YamlNode
  | mk _ _ _ c => c

end YamlNode

/-- What the parser uses of `yaml.v3`: reading a text into nodes, and a node into the YAML shape. -/
structure Yaml where
  unmarshal : List UInt8 → Except String (Option YamlNode)
  decode : YamlNode → Except String YamlManifest

/-- The decoder of one document. -/
def fixedYaml (raw : YamlManifest) : Yaml where
  unmarshal := fun _ => .ok (some (.mk .document "" 1 []))
  decode := fun _ => .ok raw

/-- A manifest of the default namespace with the given states, as it is decoded, -/
def workflowYaml (name initialState : String) (states : List (String × YamlState)) : YamlManifest where
  kind := "Workflow"
  apiVersion := "zynax.io/v1"
  metadata := { name := name }
  spec := { initialState := initialState, states := GoMap.ofPairs states }

/-- as it is parsed, -/
def plainManifest (name initialState : String) (states : List (String × State)) : Manifest where
  apiVersion := "zynax.io/v1"
  kind := "Workflow"
  name := name
  nameSpace := "default"
  annotations := ∅
  initialState := initialState
  states := GoMap.ofPairs states

/-- and as it is written. -/
def manifestText (name initialState states : String) : List UInt8 := stringBytes
  ("apiVersion: zynax.io/v1\nkind: Workflow\nmetadata:\n  name: " ++ name ++ "\nspec:\n  initial_state: " ++
    initialState ++ "\n  states:\n" ++ states)

/-! ### Source positions -/

def findLineNumber : List Char → Option Nat
  | [] => none
  | c :: s =>
    let digits := ((c :: s).drop 5).takeWhile Char.isDigit
    if ['l', 'i', 'n', 'e', ' '].isPrefixOf (c :: s) && !digits.isEmpty then some (natOfDigits digits)
    else findLineNumber s

def extractYAMLErrorLine (err : String) : Int :=
  match findLineNumber err.toList with
  | none => 0
  | some n => (min n (2 ^ 63 - 1) : Nat)

def keyValues : List YamlNode → List (YamlNode × YamlNode)
  | k :: v :: rest => (k, v) :: keyValues rest
  | _ => []

def stateLinesOfSpec : List (YamlNode × YamlNode) → GoMap Int → GoMap Int
  | [], lines => lines
  | (k, v) :: rest, lines =>
    if k.value ≠ "states" then stateLinesOfSpec rest lines
    else if v.kind ≠ .mapping then lines
    else
      stateLinesOfSpec rest
        ((keyValues v.content).foldl (fun m kv => AList.insert kv.1.value kv.1.line m) lines)

def stateLinesOfDocument : List (YamlNode × YamlNode) → GoMap Int → GoMap Int
  | [], lines => lines
  | (k, v) :: rest, lines =>
    if k.value ≠ "spec" then stateLinesOfDocument rest lines
    else if v.kind ≠ .mapping then lines
    else stateLinesOfDocument rest (stateLinesOfSpec (keyValues v.content) lines)

/-- The lines of the states in the document. -/
def extractStateLines (root : YamlNode) : GoMap Int :=
  if root.kind ≠ .document then ∅
  else
    match root.content with
    | [] => ∅
    | doc :: _ =>
      if doc.kind ≠ .mapping then ∅ else stateLinesOfDocument (keyValues doc.content) ∅

/-! ### Converting states -/

variable {v : Value} {input : GoMap Value} {key : String}

def inputBindingPrefix : String := "$.states."

def isReference (v : Value) : Bool :=
  match v.asString with
  | some s => hasPrefix s inputBindingPrefix
  | none => false

def stateError (code : CompilationErrorCode) (name : String) (line : Int) (message : Formatted) :
    ParseError :=
  { code := code, message := message, line := line, stateName := name }

def convertStringMap (mkErr : String → Value → ParseError) (raw : GoMap Value) :
    GoMap String × List ParseError :=
  (raw.filterMapVal (fun _ v => v.asString),
    raw.entries.filterMap (fun e => if e.2.asString.isSome then none else some (mkErr e.1 e.2)))

def convertWorkflowOutputs (state : String) (raw : GoMap Value) (line : Int) :
    GoMap String × List ParseError :=
  convertStringMap (fun key val => stateError .invalidFieldValue state line
    ⟨"state %q: outputs[%q] must be a string source path, got %T",
      [.str state, .str key, .str val.goType]⟩) raw

def convertOutputBindings (state : String) (actionIdx : Nat) (raw : GoMap Value) (line : Int) :
    GoMap String × List ParseError :=
  convertStringMap (fun key val => stateError .invalidFieldValue state line
    ⟨"state %q: actions[%d].output[%q] must be a string source path, got %T",
      [.str state, .int actionIdx, .str key, .str val.goType]⟩) raw

/-- Literal inputs and references apart. -/
def splitInputBindings (raw : GoMap Value) : GoMap Value × GoMap String :=
  (raw.filterMapVal (fun _ v => if isReference v then none else some v),
    raw.filterMapVal (fun _ v => if isReference v then v.asString else none))

theorem isReference_iff :
    isReference v = true ↔ ∃ ref, v = .str ref ∧ hasPrefix ref inputBindingPrefix = true := by
  cases v with
  | str s => simp [isReference, Value.asString]
  | _ => simp [isReference, Value.asString]

theorem lookup_splitInputBindings (h : input.lookup key = some v) :
    (splitInputBindings input).1.lookup key = (if isReference v then none else some v) ∧
      (splitInputBindings input).2.lookup key = (if isReference v then v.asString else none) := by
  simp [splitInputBindings, h]

theorem lookup_literals :
    (splitInputBindings input).1.lookup key = some v ↔
      input.lookup key = some v ∧ isReference v = false := by
  cases hw : input.lookup key with
  | none => simp [splitInputBindings, hw]
  | some w =>
    rw [(lookup_splitInputBindings hw).1]
    grind

theorem lookup_references {ref : String} :
    (splitInputBindings input).2.lookup key = some ref ↔
      input.lookup key = some (.str ref) ∧ hasPrefix ref inputBindingPrefix = true := by
  cases hw : input.lookup key with
  | none => simp [splitInputBindings, hw]
  | some w =>
    rw [(lookup_splitInputBindings hw).2]
    by_cases href : isReference w = true
    · rw [if_pos href]
      obtain ⟨r, rfl, hp⟩ := isReference_iff.mp href
      simp only [Value.asString, Option.some.injEq, Value.str.injEq]
      grind
    · rw [if_neg href]
      refine iff_of_false (by simp) ?_
      rintro ⟨hv, hp⟩
      exact href (isReference_iff.mpr ⟨ref, Option.some.inj hv, hp⟩)

def stateTypeOf (t : String) : Option StateType :=
  let l := toLower t
  if l = "" ∨ l = "normal" then some .normal
  else if l = "terminal" then some .terminal
  else if l = "human_in_the_loop" then some .humanInTheLoop
  else none

def convertAction (name : String) (line : Int) (ya : YamlAction) (i : Nat) :
    Option Action × List ParseError :=
  if ya.capability = "" then
    (none, [stateError .missingRequiredField name line
      ⟨"state %q: actions[%d].capability is required", [.str name, .int i]⟩])
  else
    let timeout := if ya.timeout = "" then some 0 else parseDuration ya.timeout
    -- a bad timeout is reported, and the action is added with a zero one
    let timeoutErrs :=
      match timeout with
      | some _ => []
      | none => [stateError .invalidFieldValue name line
          ⟨"state %q: actions[%d].timeout %q is not a valid duration",
            [.str name, .int i, .str ya.timeout]⟩]
    let outputs := convertOutputBindings name i ya.output line
    let inputs := splitInputBindings ya.input
    (some
      { capability := ya.capability
        timeout := timeout.getD 0
        input := inputs.1
        outputBindings := outputs.1
        inputBindings := inputs.2
        async := ya.async },
      timeoutErrs ++ outputs.2)

def convertTransition (name : String) (line : Int) (yt : YamlTransition) (i : Nat) :
    Option Transition × List ParseError :=
  if yt.event = "" then
    (none, [stateError .missingRequiredField name line
      ⟨"state %q: on[%d].event is required", [.str name, .int i]⟩])
  else if yt.goto = "" then
    (none, [stateError .missingRequiredField name line
      ⟨"state %q: on[%d].goto is required", [.str name, .int i]⟩])
  else
    (some
      { eventType := yt.event
        targetState := yt.goto
        guard := yt.guard
        set := yt.set
        conditions := ∅ }, [])

/-- One state, with all errors of its fields. -/
def convertState (name : String) (ys : YamlState) (line : Int) : Except (List ParseError) State :=
  let typeErrs :=
    if (stateTypeOf ys.type).isSome then []
    else [stateError .invalidFieldValue name line
      ⟨"state %q: unknown type %q", [.str name, .str ys.type]⟩]
  let actions := ys.actions.mapIdx (fun i ya => convertAction name line ya i)
  let transitions := ys.on.mapIdx (fun i yt => convertTransition name line yt i)
  let outputs := convertWorkflowOutputs name ys.outputs line
  checked (typeErrs ++ actions.flatMap Prod.snd ++ transitions.flatMap Prod.snd ++ outputs.2)
    { id := name
      type := (stateTypeOf ys.type).getD .normal
      actions := actions.filterMap Prod.fst
      transitions := transitions.filterMap Prod.fst
      outputs := outputs.1
      line := line }

/-! ### ParseManifest -/

def defaultNamespace : String := "default"

def topLevelErrors (raw : YamlManifest) : List ParseError :=
  (if raw.kind ≠ "Workflow" then
      [⟨.missingRequiredField, ⟨"kind must be 'Workflow', got %q", [.str raw.kind]⟩, 0, ""⟩]
    else []) ++
  (if raw.metadata.name = "" then
      [⟨.missingRequiredField, .text "metadata.name is required", 0, ""⟩]
    else []) ++
  (if raw.spec.initialState = "" then
      [⟨.noInitialState, .text "spec.initial_state is required", 0, ""⟩]
    else []) ++
  (if raw.spec.states.isEmpty then
      [⟨.missingRequiredField, .text "spec.states must contain at least one state", 0, ""⟩]
    else [])

def convertManifest (raw : YamlManifest) (stateLines : GoMap Int) :
    Except (List ParseError) Manifest :=
  let converted := raw.spec.states.mapVal (fun name ys => convertState name ys (stateLines.getD name 0))
  checked (converted.entries.flatMap (fun e => match e.2 with | .ok _ => [] | .error es => es))
    { apiVersion := raw.apiVersion
      kind := raw.kind
      name := raw.metadata.name
      nameSpace :=
        if raw.metadata.nameSpace = "" then defaultNamespace else raw.metadata.nameSpace
      annotations := raw.metadata.annotations
      initialState := raw.spec.initialState
      states := converted.filterMapVal (fun _ r => r.toOption) }

/-- `ParseManifest`: decode, check the fields, convert. -/
def parseManifest (yaml : Yaml) (data : List UInt8) : Except (List ParseError) Manifest :=
  match yaml.unmarshal data with
  | .error err => .error [⟨.yamlParseError, .text err, extractYAMLErrorLine err, ""⟩]
  | .ok none => .error [⟨.missingRequiredField, .text "manifest is empty", 0, ""⟩]
  | .ok (some root) =>
    match yaml.decode root with
    | .error err => .error [⟨.yamlParseError, .text err, extractYAMLErrorLine err, ""⟩]
    | .ok raw =>
      if (topLevelErrors raw).isEmpty then convertManifest raw (extractStateLines root)
      else .error (topLevelErrors raw)

/-! ### What is accepted -/

variable {name : String} {line : Int}

def YamlAction.toAction (ya : YamlAction) : Action where
  capability := ya.capability
  timeout := (if ya.timeout = "" then some 0 else parseDuration ya.timeout).getD 0
  input := (splitInputBindings ya.input).1
  outputBindings := ya.output.filterMapVal (fun _ v => v.asString)
  inputBindings := (splitInputBindings ya.input).2
  async := ya.async

def YamlTransition.toTransition (yt : YamlTransition) : Transition where
  eventType := yt.event
  targetState := yt.goto
  guard := yt.guard
  set := yt.set
  conditions := ∅

theorem filterMap_fst_of_no_errors {α β ε : Type} {f : Nat → α → Option β × List ε} {g : α → β}
    {l : List α} (hl : (l.mapIdx f).flatMap Prod.snd = [])
    (hf : ∀ i a, (f i a).2 = [] → (f i a).1 = some (g a)) :
    (l.mapIdx f).filterMap Prod.fst = l.map g := by
  induction l generalizing f with
  | nil => rfl
  | cons a l ih =>
    rw [List.mapIdx_cons, List.flatMap_cons, List.append_eq_nil_iff] at hl
    grind

theorem no_errors_of_mem {α β ε : Type} {f : Nat → α → Option β × List ε} {l : List α}
    (hl : (l.mapIdx f).flatMap Prod.snd = []) : ∀ a ∈ l, ∃ i, (f i a).2 = [] := by
  induction l generalizing f with
  | nil => intro a ha; exact absurd ha (by simp)
  | cons b l ih =>
    rw [List.mapIdx_cons, List.flatMap_cons, List.append_eq_nil_iff] at hl
    grind

theorem convertStringMap_no_errors {mkErr : String → Value → ParseError} {raw : GoMap Value}
    (h : (convertStringMap mkErr raw).2 = []) :
    ∀ k v, raw.lookup k = some v → ∃ s, v = .str s := by
  intro k v hk
  have hmem := List.filterMap_eq_nil_iff.mp h ⟨k, v⟩ (GoMap.mem_entries_iff.mpr hk)
  cases v with
  | str s => exact ⟨s, rfl⟩
  | _ => simp [Value.asString] at hmem

theorem convertAction_no_errors {ya : YamlAction} {i : Nat}
    (h : (convertAction name line ya i).2 = []) :
    (convertAction name line ya i).1 = some ya.toAction ∧ ya.capability ≠ "" ∧
      (ya.timeout ≠ "" → (parseDuration ya.timeout).isSome) ∧
      ∀ k v, ya.output.lookup k = some v → ∃ s, v = .str s := by
  rw [convertAction] at h ⊢
  split at h
  · exact absurd h (by simp)
  · rename_i hcap
    simp only [List.append_eq_nil_iff] at h
    refine ⟨by rw [if_neg hcap]; rfl, hcap, ?_, convertStringMap_no_errors h.2⟩
    grind

theorem convertTransition_no_errors {yt : YamlTransition} {i : Nat}
    (h : (convertTransition name line yt i).2 = []) :
    (convertTransition name line yt i).1 = some yt.toTransition ∧ yt.event ≠ "" ∧ yt.goto ≠ "" := by
  rw [convertTransition] at h ⊢
  split at h
  · exact absurd h (by simp)
  · rename_i hev
    split at h
    · exact absurd h (by simp)
    · rename_i hgo
      exact ⟨by rw [if_neg hev, if_neg hgo]; rfl, hev, hgo⟩

/-- **A converted state is the image of its YAML**: no action and no transition is dropped, in
    particular; every action names a capability and every transition an event and a target. -/
theorem convertState_eq_ok {ys : YamlState} {st : State}
    (h : convertState name ys line = .ok st) :
    st.id = name ∧ stateTypeOf ys.type = some st.type ∧
      st.actions = ys.actions.map YamlAction.toAction ∧
      st.transitions = ys.on.map YamlTransition.toTransition ∧
      st.outputs = ys.outputs.filterMapVal (fun _ v => v.asString) ∧
      (∀ ya ∈ ys.actions, ya.capability ≠ "") ∧
      (∀ yt ∈ ys.on, yt.event ≠ "" ∧ yt.goto ≠ "") := by
  obtain ⟨herrs, rfl⟩ := checked_eq_ok.mp h
  simp only [List.append_eq_nil_iff] at herrs
  obtain ⟨⟨⟨htype, hactions⟩, htrans⟩, -⟩ := herrs
  refine ⟨rfl, ?_, ?_, ?_, rfl, ?_, ?_⟩
  · cases ht : stateTypeOf ys.type with
    | none => simp [ht] at htype
    | some t => rfl
  · exact filterMap_fst_of_no_errors hactions (fun i ya hi => (convertAction_no_errors hi).1)
  · exact filterMap_fst_of_no_errors htrans (fun i yt hi => (convertTransition_no_errors hi).1)
  · intro ya hya
    obtain ⟨i, hi⟩ := no_errors_of_mem hactions ya hya
    exact (convertAction_no_errors hi).2.1
  · intro yt hyt
    obtain ⟨i, hi⟩ := no_errors_of_mem htrans yt hyt
    exact (convertTransition_no_errors hi).2

theorem convertManifest_eq_ok {raw : YamlManifest} {lines : GoMap Int} {m : Manifest}
    (h : convertManifest raw lines = .ok m) :
    m.initialState = raw.spec.initialState ∧ m.apiVersion = raw.apiVersion ∧
      m.annotations = raw.metadata.annotations ∧
      m.nameSpace = (if raw.metadata.nameSpace = "" then defaultNamespace
        else raw.metadata.nameSpace) ∧
      (∀ name ys, raw.spec.states.lookup name = some ys →
        ∃ st, m.states.lookup name = some st ∧
          convertState name ys (lines.getD name 0) = .ok st) ∧
      (∀ name st, m.states.lookup name = some st →
        ∃ ys, raw.spec.states.lookup name = some ys ∧
          convertState name ys (lines.getD name 0) = .ok st) := by
  obtain ⟨herrs, rfl⟩ := checked_eq_ok.mp h
  rw [List.flatMap_eq_nil_iff] at herrs
  refine ⟨rfl, rfl, rfl, rfl, ?_, ?_⟩
  · intro name ys hys
    have hentry : (raw.spec.states.mapVal
        (fun name ys => convertState name ys (lines.getD name 0))).lookup name =
        some (convertState name ys (lines.getD name 0)) := by
      rw [GoMap.lookup_mapVal, hys]
      rfl
    cases hc : convertState name ys (lines.getD name 0) with
    | error es =>
      -- a state that fails has errors, which phase 4 would have returned
      have hnil := herrs _ (GoMap.mem_entries_iff.mpr hentry)
      simp only [hc] at hnil
      exact absurd (hnil ▸ hc) checked_ne_error_nil
    | ok st =>
      refine ⟨st, ?_, rfl⟩
      simp [hys, hc, Except.toOption]
  · intro name st hst
    simp only [GoMap.lookup_filterMapVal, GoMap.lookup_mapVal, Option.bind_map] at hst
    obtain ⟨ys, hys, hconv⟩ := Option.bind_eq_some_iff.mp hst
    refine ⟨ys, hys, ?_⟩
    simp only [Function.comp_apply] at hconv
    cases hc : convertState name ys (lines.getD name 0) with
    | error es => simp [hc, Except.toOption] at hconv
    | ok st' =>
      simp only [hc, Except.toOption, Option.some.injEq] at hconv
      rw [hconv]

theorem parseManifest_eq_ok {yaml : Yaml} {data : List UInt8} {m : Manifest}
    (h : parseManifest yaml data = .ok m) :
    ∃ root raw, yaml.unmarshal data = .ok (some root) ∧ yaml.decode root = .ok raw ∧
      topLevelErrors raw = [] ∧ convertManifest raw (extractStateLines root) = .ok m := by
  simp only [parseManifest] at h
  grind

end Zynax.Compiler
