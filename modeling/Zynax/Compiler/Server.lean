import Zynax.Compiler.Validators
import Zynax.Compiler.IR

namespace Zynax.Compiler

open Golang

/-!
# The compiler service

`CompileWorkflow` and `ValidateManifest`: the pipeline of parser, policy gate, graph builder,
validators and IR generation.
-/

/-! ### The policy gate -/

structure RoutingPolicyConfig where
  nameSpace : String
  allowedEngines : List String
  deriving DecidableEq, Repr

structure PolicyGate where
  routingPolicies : GoMap RoutingPolicyConfig

def annotationEngineHint : String := "zynax.io/engine-hint"

def newPolicyGate (policies : List RoutingPolicyConfig) : PolicyGate :=
  ⟨GoMap.ofPairs
    ((policies.filter (fun p => decide (p.nameSpace ≠ ""))).map (fun p => (p.nameSpace, p)))⟩

/-- The engine that the annotation asks for must be allowed. -/
def PolicyGate.checkRoutingPolicy (pg : PolicyGate) (nameSpace : String)
    (annotations : GoMap String) : Option Formatted :=
  match pg.routingPolicies.lookup nameSpace with
  | none => none
  | some policy =>
    let hint := annotations.getD annotationEngineHint ""
    if policy.allowedEngines = [] ∨ hint = "" ∨ hint ∈ policy.allowedEngines then none
    else some ⟨"engine %q is not allowed in namespace %q; allowed engines: %v",
      [.str hint, .str nameSpace, .strs policy.allowedEngines]⟩

/-! ### Messages -/

inductive GrpcCode where
  | canceled | invalidArgument | deadlineExceeded | notFound | permissionDenied | internal
  deriving DecidableEq, Repr

structure GrpcError where
  code : GrpcCode
  message : Formatted
  deriving DecidableEq, Repr

inductive CompilationErrorCodeIR where
  | unspecified | yamlParseError | noInitialState | multipleInitialStates | noTerminalState
  | orphanState | unknownStateReference | duplicateStateName | missingRequiredField
  | invalidFieldValue
  deriving DecidableEq, Repr

def errorCodeMap : CompilationErrorCode → CompilationErrorCodeIR
  | .unspecified => .unspecified
  | .yamlParseError => .yamlParseError
  | .noInitialState => .noInitialState
  | .multipleInitialStates => .multipleInitialStates
  | .noTerminalState => .noTerminalState
  | .orphanState => .orphanState
  | .unknownStateReference => .unknownStateReference
  | .duplicateStateName => .duplicateStateName
  | .missingRequiredField => .missingRequiredField
  | .invalidFieldValue => .invalidFieldValue
  | .circularTransition => .invalidFieldValue

structure CompilationError where
  code : CompilationErrorCodeIR
  message : Formatted
  lineNumber : Int
  stateName : String
  deriving DecidableEq, Repr

def toProtoErrors (errs : List ParseError) : List CompilationError :=
  errs.map fun (e : ParseError) =>
    { code := errorCodeMap e.code
      message := e.message
      lineNumber := if e.line ≤ (2147483647 : Int) then e.line else 2147483647
      stateName := e.stateName }

structure CompileWorkflowRequest where
  manifestYaml : List UInt8
  nameSpace : String := ""

structure CompileWorkflowResponse where
  workflowIr : Option WorkflowIR := none
  errors : List CompilationError := []
  compilationDurationMs : Int := 0

structure ValidateManifestResponse where
  valid : Bool
  errors : List CompilationError

structure CallEnv where
  ctxErr : Option GrpcError := none
  workflowID : String
  now : Int
  elapsedMs : Int

structure Server where
  yaml : Yaml
  policyGate : Option PolicyGate := none

/-! ### The calls -/

def minDurationMs : Int := 1

def requestError (env : CallEnv) (manifestYaml : List UInt8) : Option GrpcError :=
  match env.ctxErr with
  | some err => some err
  | none =>
    if manifestYaml = [] then some ⟨.invalidArgument, .text "manifest_yaml must not be empty"⟩
    else none

def withRequestNamespace (m : Manifest) (requestNamespace : String) : Manifest :=
  if m.nameSpace = "" ∧ requestNamespace ≠ "" then { m with nameSpace := requestNamespace } else m

/-- `CompileWorkflow`: parse, gate, build, validate, convert. -/
def Server.compileWorkflow (s : Server) (env : CallEnv) (req : CompileWorkflowRequest) :
    Except GrpcError CompileWorkflowResponse :=
  match requestError env req.manifestYaml with
  | some err => .error err
  | none =>
    match parseManifest s.yaml req.manifestYaml with
    | .error errs => .ok { errors := toProtoErrors errs }
    | .ok parsed =>
      let manifest := withRequestNamespace parsed req.nameSpace
      match s.policyGate.bind
          (fun pg => pg.checkRoutingPolicy manifest.nameSpace manifest.annotations) with
      | some violation =>
        .error ⟨.permissionDenied, ⟨"routing policy violation: " ++ violation.format, violation.args⟩⟩
      | none =>
        match build manifest with
        | .error errs => .ok { errors := toProtoErrors errs }
        | .ok g =>
          let validationErrs := runAll g
          if validationErrs ≠ [] then .ok { errors := toProtoErrors validationErrs }
          else
            match toIR g env.workflowID manifest.apiVersion (some env.now) env.now with
            | .error err => .error ⟨.internal, ⟨"IR generation: " ++ err.format, err.args⟩⟩
            | .ok ir =>
              .ok
                { workflowIr := some ir
                  compilationDurationMs := if env.elapsedMs = 0 then minDurationMs else env.elapsedMs }

/-- `ValidateManifest`: the same without gate and IR. -/
def Server.validateManifest (s : Server) (env : CallEnv) (manifestYaml : List UInt8) :
    Except GrpcError ValidateManifestResponse :=
  match requestError env manifestYaml with
  | some err => .error err
  | none =>
    match parseManifest s.yaml manifestYaml with
    | .error errs => .ok { valid := false, errors := toProtoErrors errs }
    | .ok manifest =>
      let allErrs :=
        match build manifest with
        | .error errs => errs
        | .ok g => runAll g
      .ok { valid := allErrs.isEmpty, errors := toProtoErrors allErrs }

def Server.getCompiledWorkflow (env : CallEnv) (workflowId : String) : GrpcError :=
  match env.ctxErr with
  | some err => err
  | none =>
    if workflowId = "" then ⟨.invalidArgument, .text "workflow_id must not be empty"⟩
    else ⟨.notFound,
      ⟨"workflow %q not found: compiler is stateless — retain ir_payload from CompileWorkflow response",
        [.str workflowId]⟩⟩

/-! ### Accepted manifests -/

variable {s : Server} {env : CallEnv} {req : CompileWorkflowRequest} {ir : WorkflowIR}
  {raw : YamlManifest} {id : String} {ys : YamlState}

def Server.compiledIR (s : Server) (env : CallEnv) (req : CompileWorkflowRequest) :
    Option WorkflowIR :=
  match s.compileWorkflow env req with
  | .error _ => none
  | .ok resp => resp.workflowIr

def Server.Accepts (s : Server) (env : CallEnv) (req : CompileWorkflowRequest) (ir : WorkflowIR) :
    Prop :=
  s.compiledIR env req = some ir

structure Compiled (yaml : Yaml) (data : List UInt8) (raw : YamlManifest) (m : Manifest)
    (g : WorkflowGraph) (ir : WorkflowIR) : Prop where
  decoded : ∃ root, yaml.unmarshal data = .ok (some root) ∧ yaml.decode root = .ok raw ∧
    topLevelErrors raw = [] ∧ convertManifest raw (extractStateLines root) = .ok m
  built : WellBuilt g.initialState g.states
  states_eq : g.states = m.states
  initial_eq : g.initialState = m.initialState
  valid : runAll g = []
  converted : ∃ wid api at' now, toIR g wid api at' now = .ok ir

/-- **An accepted manifest went through every stage without an error.** -/
theorem compileWorkflow_accepts (h : s.Accepts env req ir) :
    ∃ raw m g, Compiled s.yaml req.manifestYaml raw m g ir := by
  obtain ⟨resp, hresp, hir⟩ : ∃ resp, s.compileWorkflow env req = .ok resp ∧
      resp.workflowIr = some ir := by
    simp only [Server.Accepts, Server.compiledIR] at h
    grind
  simp only [Server.compileWorkflow] at hresp
  split at hresp
  · exact absurd hresp (by simp)
  split at hresp
  · grind
  rename_i parsed hparsed
  split at hresp
  · exact absurd hresp (by simp)
  split at hresp
  · grind
  rename_i g hbuild
  split at hresp
  · grind
  rename_i hvalid
  split at hresp
  · exact absurd hresp (by simp)
  rename_i ir' hir'
  obtain rfl := Except.ok.inj hresp
  obtain rfl := Option.some.inj hir
  obtain ⟨root, raw, hroot, hraw, htop, hconv⟩ := parseManifest_eq_ok hparsed
  obtain ⟨hwell, rfl⟩ := build_eq_ok.mp hbuild
  have hstates : (withRequestNamespace parsed req.nameSpace).states = parsed.states := by
    rw [withRequestNamespace]
    split <;> rfl
  have hinit : (withRequestNamespace parsed req.nameSpace).initialState = parsed.initialState := by
    rw [withRequestNamespace]
    split <;> rfl
  exact ⟨raw, parsed, _, ⟨root, hroot, hraw, htop, hconv⟩, hwell, hstates, hinit,
    not_not.mp hvalid, _, _, _, _, hir'⟩

theorem Compiled.graphState {yaml : Yaml} {data : List UInt8} {m : Manifest}
    {g : WorkflowGraph} (h : Compiled yaml data raw m g ir) (hys : raw.spec.states.lookup id = some ys) :
    ∃ st line, g.states.lookup id = some st ∧ convertState id ys line = .ok st := by
  obtain ⟨root, -, -, -, hconv⟩ := h.decoded
  obtain ⟨-, -, -, -, hforth, -⟩ := convertManifest_eq_ok hconv
  obtain ⟨st, hst, hc⟩ := hforth id ys hys
  exact ⟨st, _, h.states_eq ▸ hst, hc⟩

/-- **A state of an accepted manifest, before and after compilation.** -/
theorem Server.Accepts.state {root : YamlNode} (hacc : s.Accepts env req ir)
    (hroot : s.yaml.unmarshal req.manifestYaml = .ok (some root)) (hraw : s.yaml.decode root = .ok raw)
    (hys : raw.spec.states.lookup id = some ys) :
    ∃ st line state, convertState id ys line = .ok st ∧ findState ir id = some state ∧
      ConvertedState st state := by
  obtain ⟨raw', m, g, hcomp⟩ := compileWorkflow_accepts hacc
  obtain ⟨root', hroot', hraw', -, -⟩ := hcomp.decoded
  obtain rfl : root = root' := Option.some.inj (Except.ok.inj (hroot.symm.trans hroot'))
  obtain rfl : raw = raw' := Except.ok.inj (hraw.symm.trans hraw')
  obtain ⟨st, line, hst, hconv⟩ := hcomp.graphState hys
  obtain ⟨wid, api, at', now, hir⟩ := hcomp.converted
  obtain ⟨state, hfind, hstate⟩ := findState_of_lookup hir hst
  grind

/-- **An action of an accepted manifest, before and after compilation.** -/
theorem Server.Accepts.action {root : YamlNode} (hacc : s.Accepts env req ir)
    (hroot : s.yaml.unmarshal req.manifestYaml = .ok (some root)) (hraw : s.yaml.decode root = .ok raw)
    (hys : raw.spec.states.lookup id = some ys) {i : Nat}
    {ya : YamlAction} (hya : ys.actions[i]? = some ya) :
    ∃ state a, findState ir id = some state ∧
      state.actions.drop i = a :: state.actions.drop (i + 1) ∧ convertActionIR ya.toAction = .ok a := by
  obtain ⟨st, line, state, hconv, hfind, hstate⟩ := hacc.state hroot hraw hys
  obtain ⟨-, -, hactions, -⟩ := convertState_eq_ok hconv
  have hst : st.actions[i]? = some ya.toAction := by
    grind
  obtain ⟨a, ha, hconvert⟩ := getElem?_of_forall₂ hstate.actions hst
  refine ⟨state, a, hfind, ?_, hconvert⟩
  rw [List.drop_eq_getElem?_toList_append, ha]
  rfl

end Zynax.Compiler
