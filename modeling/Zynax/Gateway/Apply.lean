import Zynax.Golang.Sha256
import Zynax.Compiler.Server

namespace Zynax.Gateway

open Golang Compiler

/-!
# Applying a manifest

The gateway's `ApplyService`: a manifest is compiled and, unless the request is a dry run,
submitted to the engine under an id derived from its contents.
-/

/-! ### The id of a manifest -/

variable {α : Type}

structure YamlCodec (α : Type) where
  unmarshal : List UInt8 → Except String α
  marshal : α → Except String (List UInt8)

def canonicalCodec : YamlCodec (List UInt8) where
  unmarshal := .ok
  marshal := .ok

/-- Read and written again; as it is if that fails. -/
def YamlCodec.canonicaliseYAML (y : YamlCodec α) (raw : List UInt8) : List UInt8 :=
  match y.unmarshal raw with
  | .error _ => raw
  | .ok v =>
    match y.marshal v with
    | .error _ => raw
    | .ok out => out

def manifestIDLen : Nat := 16

/-- The id is a hash of the canonical text. -/
def YamlCodec.manifestWorkflowID (y : YamlCodec α) (manifestYAML : List UInt8) : String :=
  let sum := sha256 (y.canonicaliseYAML manifestYAML)
  "wf-" ++ String.ofList ((hexEncodeToString sum).toList.take manifestIDLen)

def rerunWorkflowID (baseID : String) (unix : Int) : String :=
  baseID ++ "-" ++ String.ofList (decimalInt unix)

/-! ### The ports -/

structure CompileError where
  code : String
  message : Formatted
  line : Int
  deriving DecidableEq, Repr

structure CompileResult where
  ir : Option WorkflowIR := none
  nameSpace : String := ""
  warnings : List String := []
  errors : List CompileError := []

inductive WorkflowStatus where
  | unspecified | pending | running | completed | failed | cancelled
  deriving DecidableEq, Repr

structure WorkflowRunSummary where
  runID : String
  workflowID : String
  status : WorkflowStatus
  deriving DecidableEq, Repr

inductive EngineError where
  | notFound
  | unavailable
  | other (text : String)
  deriving DecidableEq, Repr

structure Submission where
  ir : Option WorkflowIR
  engineHint : String
  workflowID : String
  nameSpace : String
  deriving DecidableEq

structure EnginePort where
  getWorkflowStatus : String → Except EngineError WorkflowRunSummary
  submitWorkflow : Submission → Except EngineError String

def codeName : CompilationErrorCodeIR → String
  | .unspecified => "COMPILATION_ERROR_CODE_UNSPECIFIED"
  | .yamlParseError => "COMPILATION_ERROR_CODE_YAML_PARSE_ERROR"
  | .noInitialState => "COMPILATION_ERROR_CODE_NO_INITIAL_STATE"
  | .multipleInitialStates => "COMPILATION_ERROR_CODE_MULTIPLE_INITIAL_STATES"
  | .noTerminalState => "COMPILATION_ERROR_CODE_NO_TERMINAL_STATE"
  | .orphanState => "COMPILATION_ERROR_CODE_ORPHAN_STATE"
  | .unknownStateReference => "COMPILATION_ERROR_CODE_UNKNOWN_STATE_REFERENCE"
  | .duplicateStateName => "COMPILATION_ERROR_CODE_DUPLICATE_STATE_NAME"
  | .missingRequiredField => "COMPILATION_ERROR_CODE_MISSING_REQUIRED_FIELD"
  | .invalidFieldValue => "COMPILATION_ERROR_CODE_INVALID_FIELD_VALUE"

def compileResultFromProto (resp : CompileWorkflowResponse) : CompileResult where
  ir := resp.workflowIr
  nameSpace := (resp.workflowIr.map WorkflowIR.nameSpace).getD ""
  errors := resp.errors.map fun (e : CompilationError) => ⟨codeName e.code, e.message, e.lineNumber⟩

def compileWorkflowClient (s : Server) (env : CallEnv) (manifestYAML : List UInt8)
    (nameSpace : String) : Except GrpcError CompileResult :=
  match s.compileWorkflow env ⟨manifestYAML, nameSpace⟩ with
  | .ok resp => .ok (compileResultFromProto resp)
  | .error err =>
    if err.code = .invalidArgument then .ok { errors := [⟨"COMPILER_ERROR", err.message, 0⟩] }
    else .error err

/-! ### The service -/

structure ApplyRequest where
  manifestYAML : List UInt8
  nameSpace : String := ""
  dryRun : Bool := false
  engineHint : String := ""

inductive ApplyStatus where
  | none | new | existing
  deriving DecidableEq, Repr

structure ApplyResult where
  runID : String := ""
  warnings : List String := []
  status : ApplyStatus := .none
  deriving DecidableEq, Repr

inductive ApplyError where
  /-- "api-gateway: %w", the call of the compiler failed -/
  | compiler (err : GrpcError)
  /-- `ErrCompilationFailed`, with the diagnostics of the result -/
  | compilationFailed (errors : List CompileError) (warnings : List String)
  /-- "api-gateway: check existing workflow: %w" -/
  | checkExisting (err : EngineError)
  /-- "api-gateway: %w", the call that submits the run failed -/
  | submit (err : EngineError)
  deriving DecidableEq, Repr

inductive SubmitPlan where
  | fail (err : EngineError)
  | existing (runID : String)
  | start (workflowID : String)
  deriving DecidableEq, Repr

/-- What the state of the existing run calls for. -/
def planSubmit (workflowID : String) (unix : Int) (existing : Except EngineError WorkflowRunSummary) :
    SubmitPlan :=
  match existing with
  | .error .notFound => .start workflowID
  | .error err => .fail err
  | .ok run =>
    match run.status with
    | .running => .existing run.runID
    | .completed => .start (rerunWorkflowID workflowID unix)
    | _ => .start workflowID

/-- `submit`: nothing for a running id, a re-run for a completed one. -/
def submit (y : YamlCodec α) (engine : EnginePort) (unix : Int) (manifestYAML : List UInt8)
    (compiled : CompileResult) (engineHint : String) :
    Option Submission × Except ApplyError ApplyResult :=
  let workflowID := y.manifestWorkflowID manifestYAML
  match planSubmit workflowID unix (engine.getWorkflowStatus workflowID) with
  | .fail err => (none, .error (.checkExisting err))
  | .existing runID =>
    (none, .ok { runID := runID, warnings := compiled.warnings, status := .existing })
  | .start id =>
    let submission : Submission := ⟨compiled.ir, engineHint, id, compiled.nameSpace⟩
    (some submission,
      match engine.submitWorkflow submission with
      | .error err => .error (.submit err)
      | .ok runID => .ok { runID := runID, warnings := compiled.warnings, status := .new })

def applyCompiled (y : YamlCodec α) (engine : EnginePort) (unix : Int) (req : ApplyRequest)
    (compiled : Except GrpcError CompileResult) : Option Submission × Except ApplyError ApplyResult :=
  match compiled with
  | .error err => (none, .error (.compiler err))
  | .ok compiled =>
    if compiled.errors ≠ [] then
      (none, .error (.compilationFailed compiled.errors compiled.warnings))
    else if req.dryRun then (none, .ok { warnings := compiled.warnings })
    else submit y engine unix req.manifestYAML compiled req.engineHint

/-- `ApplyWorkflow`: compile, then submit. -/
def applyWorkflow (y : YamlCodec α) (s : Server) (env : CallEnv) (engine : EnginePort) (unix : Int)
    (req : ApplyRequest) : Option Submission × Except ApplyError ApplyResult :=
  applyCompiled y engine unix req (compileWorkflowClient s env req.manifestYAML req.nameSpace)

/-! ### The id and the plan -/

theorem manifestWorkflowID_congr {y : YamlCodec α} {m m' : List UInt8} {v : α} {out : List UInt8}
    (hm : y.unmarshal m = .ok v) (hm' : y.unmarshal m' = .ok v) (hv : y.marshal v = .ok out) :
    y.manifestWorkflowID m = y.manifestWorkflowID m' := by
  simp only [YamlCodec.manifestWorkflowID, YamlCodec.canonicaliseYAML, hm, hm', hv]

theorem rerunWorkflowID_ne (baseID : String) (unix : Int) : rerunWorkflowID baseID unix ≠ baseID := by
  intro h
  have hlen := congrArg (fun s => s.toList.length) h
  simp [rerunWorkflowID, String.toList_append] at hlen

theorem submission_of_applyCompiled {y : YamlCodec α} {engine : EnginePort} {unix : Int}
    {req : ApplyRequest} {compiled : Except GrpcError CompileResult} {sub : Submission}
    (h : (applyCompiled y engine unix req compiled).1 = some sub) :
    ∃ c, compiled = .ok c ∧ c.errors = [] ∧ req.dryRun = false ∧
      sub.engineHint = req.engineHint ∧ sub.nameSpace = c.nameSpace := by
  cases compiled with
  | error err => exact absurd h (by simp [applyCompiled])
  | ok c =>
    simp only [applyCompiled] at h
    split at h
    · exact absurd h (by simp)
    rename_i herr
    split at h
    · exact absurd h (by simp)
    rename_i hdry
    refine ⟨c, rfl, not_not.mp herr, by simpa using hdry, ?_⟩
    simp only [submit] at h
    grind

end Zynax.Gateway
