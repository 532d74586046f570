import Zynax.Golang.Time
import Zynax.Adapter.Events

namespace Zynax.Adapter.Ci

open Golang Grpc Transition
open Broker (storeSlice storeString fieldValues stringField storeInt storeMap)

/-!
# The ci adapter

Workflow runs of GitHub Actions: one capability starts a run and waits until it is listed, the other
one follows a run to its end.
-/

structure CIConfig where
  provider : String
  pollIntervalSeconds : Int64
  maxPollIntervalSeconds : Int64

structure CICapabilityConfig where
  name : String
  owner : String
  repo : String
  workflowID : String

def defaultBaseURL : String := "https://api.github.com"

def maxBodyBytes : Nat := 10 * 1024 * 1024

def timeoutMsgTrigger : String := "trigger_workflow: request exceeded timeout_seconds"

def timeoutMsgRunStatus : String := "get_run_status: request exceeded timeout_seconds"

/-! ### Payloads -/

structure TriggerWorkflowInput where
  ref : String
  inputs : Option (GoMap Json)

def decodeInputs (v : Json) : Option (Option (GoMap Json)) :=
  (fieldValues "inputs" v).bind fun vs =>
    if vs.all Json.inRange then
      (storeMap ∅ vs).map fun m => if vs.getLastD .null = .null then none else some m
    else none

def decodeTriggerWorkflow (v : Json) : Option TriggerWorkflowInput := do
  return ⟨← stringField "ref" v, ← decodeInputs v⟩

def decodeRunID (v : Json) : Option Int := (fieldValues "run_id" v).bind (storeInt 0)

structure WorkflowRun where
  id : Int
  htmlURL : String
  createdAt : String

def decodeRun (old : WorkflowRun) (v : Json) : Option WorkflowRun := do
  return ⟨← (fieldValues "id" v).bind (storeInt old.id),
    ← (fieldValues "html_url" v).bind (storeString old.htmlURL),
    ← (fieldValues "created_at" v).bind (storeString old.createdAt)⟩

def decodeRuns (v : Json) : Option (List WorkflowRun) :=
  ((fieldValues "workflow_runs" v).bind (storeSlice decodeRun ⟨0, "", ""⟩ none [])).map (·.getD [])

structure RunStatus where
  status : String
  conclusion : String

def decodeRunStatus (v : Json) : Option RunStatus := do
  return ⟨← stringField "status" v, ← stringField "conclusion" v⟩

def terminalConclusions : List String :=
  ["success", "failure", "cancelled", "skipped", "timed_out", "action_required", "neutral", "stale"]

/-! ### Requests -/

inductive Call where
  | dispatch (url : String) (inp : TriggerWorkflowInput)
  | read (url : String)

structure Exchanged where
  exchange : Exchange
  ctx : Observed

structure RequestError where
  statusCode : Int
  text : List UInt8

def sanitise (s : List UInt8) : List UInt8 := cutBytes maxErrMsgLen s

/-- A request and what becomes of it. -/
def doRequest (env : Linked) (method url : String) (x : Exchange) : Except RequestError (List UInt8) :=
  match env.newRequest method url with
  | some err => .error ⟨0, bytes "build request: " ++ err⟩
  | none =>
    match x with
    | .failed err => .error ⟨0, bytes "http request: " ++ err⟩
    | .broken statusCode err => .error ⟨statusCode, bytes "read response body: " ++ err⟩
    | .answered statusCode body =>
      if 400 ≤ statusCode then
        .error ⟨statusCode, bytes ("GitHub API error: HTTP " ++ String.ofList (decimalInt statusCode))⟩
      else .ok (body.take maxBodyBytes)

def ciErrCode (statusCode : Int) : String :=
  if statusCode = 429 ∨ statusCode = 403 then "RESOURCE_EXHAUSTED"
  else if statusCode = 404 then "NOT_FOUND"
  else if statusCode = 422 then "INVALID_INPUT"
  else "UPSTREAM_ERROR"

/-- A deadline is a timeout, whatever the error. -/
def requestFailure (ctx : Option ContextError) (err : RequestError) (timeoutMsg : String) :
    String × List UInt8 :=
  if ctx = some .deadlineExceeded then ("TIMEOUT", bytes timeoutMsg)
  else (ciErrCode err.statusCode, sanitise err.text)

/-- The first listed run that began at or after the dispatch. -/
def findNewRun (env : Linked) (runsURL : String) (triggerTime : Int) (x : Exchange) :
    Except RequestError (Option WorkflowRun) :=
  match doRequest env "GET" runsURL x with
  | .error err => .error err
  | .ok data =>
    match (Utf8.unmarshal data).bind decodeRuns with
    | none => .error ⟨0, bytes "parse runs list: " ++ env.unmarshalErr "workflow_runs" data⟩
    | some runs =>
      .ok (runs.find? fun run =>
        (parseRFC3339Nano run.createdAt.toList).any fun t => decide (triggerTime ≤ t))

/-! ### The handler -/

inductive State where
  | dispatching (ccap : CICapabilityConfig) (inp : TriggerWorkflowInput) (triggerTime : Int)
  | waiting (runsURL : String) (triggerTime : Int)
  | listing (runsURL : String) (triggerTime : Int)
  | sleeping (runURL apiURL : String) (interval : Int64)
  | reading (runURL apiURL : String) (interval : Int64)

def Input : State → Type
  | .dispatching _ _ _ => Exchanged
  | .waiting _ _ => Pause
  | .listing _ _ => Exchanged
  | .sleeping _ _ _ => Pause
  | .reading _ _ _ => Exchanged

def request (env : Linked) (method url : String) (c : Call) (s : State) : Serving Call State :=
  .wait (if (env.newRequest method url).isNone then [.call c] else []) s

def requestFailed (taskID timeoutMsg : String) (ctx : Observed) (err : RequestError) :
    Serving Call State :=
  let failure := requestFailure ctx.atCheck err timeoutMsg
  .fail taskID failure.1 failure.2

def dispatchURL (ccap : CICapabilityConfig) : String :=
  defaultBaseURL ++ "/repos/" ++ ccap.owner ++ "/" ++ ccap.repo ++ "/actions/workflows/" ++
    ccap.workflowID ++ "/dispatches"

def runsURL (ccap : CICapabilityConfig) (ref : String) : String :=
  defaultBaseURL ++ "/repos/" ++ ccap.owner ++ "/" ++ ccap.repo ++
    "/actions/runs?event=workflow_dispatch&branch=" ++ ref

def runPath (ccap : CICapabilityConfig) (runID : Int) : String :=
  ccap.owner ++ "/" ++ ccap.repo ++ "/actions/runs/" ++ String.ofList (decimalInt runID)

def triggeredPayload (run : WorkflowRun) : List UInt8 :=
  bytes (Json.obj [("run_id", .num (decimalInt run.id)), ("run_url", .str run.htmlURL)]).marshal

def progressPayload (runURL : String) (run : RunStatus) : List UInt8 :=
  bytes (Json.obj [("run_url", .str runURL), ("status", .str run.status)]).marshal

def finishedPayload (runURL : String) (run : RunStatus) : List UInt8 :=
  bytes (Json.obj [("conclusion", .str run.conclusion), ("run_url", .str runURL),
    ("status", .str run.status)]).marshal

def nanosPerSecond : Int64 := 1000000000

def backoff (cfg : CIConfig) (interval : Int64) : Int64 :=
  let maxInterval := cfg.maxPollIntervalSeconds * nanosPerSecond
  if interval * 2 > maxInterval then maxInterval else interval * 2

def statusRead (cfg : CIConfig) (taskID runURL apiURL : String) (interval : Int64) (data : List UInt8) :
    Serving Call State :=
  match (Utf8.unmarshal data).bind decodeRunStatus with
  | none => .fail taskID "UPSTREAM_ERROR" (bytes "failed to parse run status response")
  | some run =>
    if run.status = "completed" then .complete taskID (finishedPayload runURL run)
    else if run.conclusion ∈ terminalConclusions then .complete taskID (finishedPayload runURL run)
    else
      .wait [.send (progressEvent taskID (progressPayload runURL run))]
        (.sleeping runURL apiURL (backoff cfg interval))

/-- What a call does with the answer it waited for. -/
def turn (env : Linked) (cfg : CIConfig) (taskID : String) : (s : State) → Input s → Serving Call State
  -- `trigger_workflow`: the dispatch, then polls until the run appears
  | .dispatching ccap inp triggerTime, x =>
    match doRequest env "POST" (dispatchURL ccap) x.exchange with
    | .error err => requestFailed taskID timeoutMsgTrigger x.ctx err
    | .ok _ => .wait [] (.waiting (runsURL ccap inp.ref) triggerTime)
  | .waiting _ _, .done =>
    .fail taskID "TIMEOUT"
      (bytes "trigger_workflow: run ID did not appear within trigger_poll_timeout_seconds")
  | .waiting url triggerTime, .elapsed => request env "GET" url (.read url) (.listing url triggerTime)
  | .listing url triggerTime, x =>
    match findNewRun env url triggerTime x.exchange with
    | .error err => requestFailed taskID timeoutMsgTrigger x.ctx err
    | .ok (some run) => .complete taskID (triggeredPayload run)
    | .ok none => .wait [] (.waiting url triggerTime)
  -- `get_run_status`: a pause before each read
  | .sleeping _ _ _, .done => .fail taskID "TIMEOUT" (bytes timeoutMsgRunStatus)
  | .sleeping runURL apiURL interval, .elapsed =>
    request env "GET" apiURL (.read apiURL) (.reading runURL apiURL interval)
  | .reading runURL apiURL interval, x =>
    match doRequest env "GET" apiURL x.exchange with
    | .error err => requestFailed taskID timeoutMsgRunStatus x.ctx err
    | .ok data => statusRead cfg taskID runURL apiURL interval data

def invalid (taskID : String) (msg : List UInt8) : Serving Call State :=
  .fail taskID "INVALID_INPUT" msg

def triggerWorkflow (env : Linked) (now : Int) (ccap : CICapabilityConfig) (taskID : String)
    (payload : List UInt8) : Serving Call State :=
  match parsePayload env "triggerWorkflowInput" decodeTriggerWorkflow payload with
  | .error err => invalid taskID (sanitise err)
  | .ok inp =>
    if inp.ref = "" then invalid taskID (bytes "ref is required")
    else
      request env "POST" (dispatchURL ccap) (.dispatch (dispatchURL ccap) inp) (.dispatching ccap inp now)

def getRunStatus (env : Linked) (cfg : CIConfig) (ccap : CICapabilityConfig) (taskID : String)
    (payload : List UInt8) : Serving Call State :=
  match parsePayload env "getRunStatusInput" decodeRunID payload with
  | .error err => invalid taskID (sanitise err)
  | .ok runID =>
    if runID ≤ 0 then invalid taskID (bytes "run_id must be a positive integer")
    else
      .wait [] (.sleeping ("https://github.com/" ++ runPath ccap runID)
        (defaultBaseURL ++ "/repos/" ++ runPath ccap runID)
        (cfg.pollIntervalSeconds * nanosPerSecond))

def execute (env : Linked) (cfg : CIConfig) (now : Int) (ccap : CICapabilityConfig) (taskID : String)
    (payload : List UInt8) : Serving Call State :=
  if cfg.provider = "jenkins-stub" then
    .fail taskID "INTERNAL" (bytes "not implemented: provider jenkins not supported in M5")
  else if ccap.name = "trigger_workflow" then triggerWorkflow env now ccap taskID payload
  else if ccap.name = "get_run_status" then getRunStatus env cfg ccap taskID payload
  else .unknownCapability taskID ccap.name

/-- `ExecuteCapability` up to its first wait. -/
def executeCapability (env : Linked) (cfg : CIConfig) (capabilities : List CICapabilityConfig)
    (now : Int) (req : ExecuteRequest) : Serving Call State :=
  (checkRequest req).getD <|
    match (router CICapabilityConfig.name capabilities).lookup req.capabilityName with
    | none => .unknownCapability req.taskId req.capabilityName
    | some ccap => execute env cfg now ccap req.taskId req.inputPayload

abbrev serve (env : Linked) (cfg : CIConfig) (capabilities : List CICapabilityConfig) (now : Int)
    (req : ExecuteRequest) (answers : List (Answer Input)) :
    List (Action Call) × Next State (Option Status) :=
  exec (turn env cfg req.taskId) (executeCapability env cfg capabilities now req) answers

/-! ### The grammar -/

theorem ciErrCode_ne_empty (statusCode : Int) : ciErrCode statusCode ≠ "" := by
  unfold ciErrCode
  split_ifs <;> decide

theorem requestFailure_ne_empty (ctx : Option ContextError) (err : RequestError) (timeoutMsg : String) :
    (requestFailure ctx err timeoutMsg).1 ≠ "" := by
  unfold requestFailure
  split_ifs
  · simp
  · exact ciErrCode_ne_empty err.statusCode

theorem keeps_requestFailed (taskID timeoutMsg : String) (ctx : Observed) (err : RequestError) :
    Keeps taskID (requestFailed taskID timeoutMsg ctx err) :=
  keeps_fail taskID (requestFailure_ne_empty ctx.atCheck err timeoutMsg) _

theorem keeps_request (env : Linked) (taskID method url : String) (c : Call) (s : State) :
    Keeps taskID (request env method url c s) := by
  unfold request
  split_ifs
  · exact keeps_call taskID c s
  · exact keeps_wait taskID s

theorem keeps_invalid (taskID : String) (msg : List UInt8) : Keeps taskID (invalid taskID msg) :=
  keeps_fail taskID (by decide) msg

theorem keeps_statusRead (cfg : CIConfig) (taskID runURL apiURL : String) (interval : Int64)
    (data : List UInt8) : Keeps taskID (statusRead cfg taskID runURL apiURL interval data) := by
  unfold statusRead
  split
  · exact keeps_fail taskID (by decide) _
  · split_ifs
    · exact keeps_complete taskID _
    · exact keeps_complete taskID _
    · exact keeps_progress taskID _ _

theorem keeps_turn (env : Linked) (cfg : CIConfig) (taskID : String) (s : State) (i : Input s) :
    Keeps taskID (turn env cfg taskID s i) := by
  unfold turn
  split
  · split
    · exact keeps_requestFailed taskID _ _ _
    · exact keeps_wait taskID _
  · exact keeps_fail taskID (by decide) _
  · exact keeps_request env taskID _ _ _ _
  · split
    · exact keeps_requestFailed taskID _ _ _
    · exact keeps_complete taskID _
    · exact keeps_wait taskID _
  · exact keeps_fail taskID (by decide) _
  · exact keeps_request env taskID _ _ _ _
  · split
    · exact keeps_requestFailed taskID _ _ _
    · exact keeps_statusRead cfg taskID _ _ _ _

theorem keeps_execute (env : Linked) (cfg : CIConfig) (now : Int) (ccap : CICapabilityConfig)
    (taskID : String) (payload : List UInt8) :
    Keeps taskID (execute env cfg now ccap taskID payload) := by
  unfold execute triggerWorkflow getRunStatus
  split_ifs
  · exact keeps_fail taskID (by decide) _
  · split
    · exact keeps_invalid taskID _
    · split_ifs
      · exact keeps_invalid taskID _
      · exact keeps_request env taskID _ _ _ _
  · split
    · exact keeps_invalid taskID _
    · split_ifs
      · exact keeps_invalid taskID _
      · exact keeps_wait taskID _
  · exact keeps_unknownCapability taskID _

theorem keeps_executeCapability (env : Linked) (cfg : CIConfig) (capabilities : List CICapabilityConfig)
    (now : Int) {req : ExecuteRequest} (htask : req.taskId ≠ "") (hcap : req.capabilityName ≠ "") :
    Keeps req.taskId (executeCapability env cfg capabilities now req) := by
  unfold executeCapability
  rw [checkRequest_eq_none htask hcap, Option.getD_none]
  split
  · exact keeps_unknownCapability req.taskId req.capabilityName
  · exact keeps_execute env cfg now _ req.taskId req.inputPayload

end Zynax.Adapter.Ci
