import Zynax.Adapter.Events

namespace Zynax.Adapter.Http

open Golang Grpc Transition

/-!
# The http adapter

A capability is a route: its requests are sent to one URL, with progress while the upstream has not
answered.
-/

structure RouteConfig where
  name : String
  method : String
  url : String
  headers : GoMap String := ∅
  inputSchemaJSON : String := ""

structure Request where
  method : String
  url : String
  headers : GoMap String
  body : Option (List UInt8)

structure HttpResult where
  exchange : Exchange
  ctx : Observed

def maxResponseBytes : Nat := 10 * 1024 * 1024

def sanitise (s : List UInt8) : List UInt8 := cutBytes maxErrMsgLen s

/-- The payload against the schema of its route. -/
def validatePayload (env : Linked) (schemaJSON : String) (payload : List UInt8) : Option (List UInt8) :=
  match env.compile schemaJSON with
  | .error err => some (bytes "invalid schema configuration: " ++ err)
  | .ok schema =>
    match unmarshalAny payload with
    | none => some (bytes "invalid JSON payload: " ++ env.unmarshalErr "interface" payload)
    | some v => (schema v).map (bytes "payload schema validation: " ++ ·)

def timeout (taskID : String) : Serving Request Unit :=
  .fail taskID "TIMEOUT" (bytes "request exceeded timeout_seconds")

/-- The response as the last event. -/
def handleResult (taskID : String) (res : HttpResult) : Serving Request Unit :=
  match res.exchange with
  | .failed err =>
    if res.ctx.atCheck.isSome then timeout taskID
    else .fail taskID "UPSTREAM_ERROR" (sanitise err)
  -- whether the context has ended is not asked here
  | .broken _ _ => .fail taskID "UPSTREAM_ERROR" (bytes "failed to read response body")
  | .answered statusCode body =>
    -- one byte more than is accepted is read, to see that there is more
    let respBody := body.take (maxResponseBytes + 1)
    if maxResponseBytes < respBody.length then
      .fail taskID "UPSTREAM_ERROR" (bytes "response body exceeds 10 MB limit")
    else if 200 ≤ statusCode ∧ statusCode < 300 then .complete taskID respBody
    else
      .fail taskID "UPSTREAM_ERROR"
        (bytes ("upstream returned HTTP " ++ String.ofList (decimalInt statusCode)))

def turn (taskID : String) (_ : Unit) : Select HttpResult → Serving Request Unit
  | .tick => .wait [.send (progressEvent taskID)] ()
  | .result res => handleResult taskID res
  | .done => timeout taskID

def carriesBody (method : String) : Bool := method ∈ ["POST", "PUT", "PATCH"]

def execute (env : Linked) (route : RouteConfig) (taskID : String) (payload : List UInt8) :
    Serving Request Unit :=
  let method := env.tables.toUpper route.method
  let body := if payload ≠ [] ∧ carriesBody method = true then some payload else none
  match env.newRequest method route.url with
  | some err => .fail taskID "UPSTREAM_ERROR" (sanitise err)
  | none =>
    let headers := if body.isSome then AList.insert "Content-Type" "application/json" route.headers
      else route.headers
    .wait [.call ⟨method, route.url, headers, body⟩] ()

def schemaError (env : Linked) (route : RouteConfig) (payload : List UInt8) : Option (List UInt8) :=
  if route.inputSchemaJSON ≠ "" ∧ payload ≠ [] then validatePayload env route.inputSchemaJSON payload
  else none

def executeCapability (env : Linked) (capabilities : List RouteConfig) (req : ExecuteRequest) :
    Serving Request Unit :=
  (checkRequest req).getD <|
    match (router RouteConfig.name capabilities).lookup req.capabilityName with
    | none => .unknownCapability req.taskId req.capabilityName
    | some route =>
      match schemaError env route req.inputPayload with
      | some err => .fail req.taskId "INVALID_INPUT" (sanitise err)
      | none => execute env route req.taskId req.inputPayload

abbrev serve (env : Linked) (capabilities : List RouteConfig) (req : ExecuteRequest)
    (answers : List (Answer fun _ : Unit => Select HttpResult)) :
    List (Action Request) × Next Unit (Option Status) :=
  exec (turn req.taskId) (executeCapability env capabilities req) answers

/-! ### The grammar -/

theorem keeps_timeout (taskID : String) : Keeps taskID (timeout taskID) := keeps_fail taskID (by decide) _

theorem keeps_handleResult (taskID : String) (res : HttpResult) :
    Keeps taskID (handleResult taskID res) := by
  unfold handleResult
  split
  · split
    · exact keeps_timeout taskID
    · exact keeps_fail taskID (by decide) _
  · exact keeps_fail taskID (by decide) _
  · dsimp only
    split_ifs
    · exact keeps_fail taskID (by decide) _
    · exact keeps_complete taskID _
    · exact keeps_fail taskID (by decide) _

theorem keeps_turn (taskID : String) (s : Unit) (i : Select HttpResult) :
    Keeps taskID (turn taskID s i) := by
  cases i with
  | tick => exact keeps_progress taskID [] ()
  | result res => exact keeps_handleResult taskID res
  | done => exact keeps_timeout taskID

theorem keeps_execute (env : Linked) (route : RouteConfig) (taskID : String) (payload : List UInt8) :
    Keeps taskID (execute env route taskID payload) := by
  unfold execute
  dsimp only
  split
  · exact keeps_fail taskID (by decide) _
  · exact keeps_call taskID _ ()

theorem keeps_executeCapability (env : Linked) (capabilities : List RouteConfig) {req : ExecuteRequest}
    (htask : req.taskId ≠ "") (hcap : req.capabilityName ≠ "") :
    Keeps req.taskId (executeCapability env capabilities req) := by
  unfold executeCapability
  rw [checkRequest_eq_none htask hcap, Option.getD_none]
  split
  · exact keeps_unknownCapability req.taskId req.capabilityName
  · split
    · exact keeps_fail req.taskId (by decide) _
    · exact keeps_execute env _ req.taskId req.inputPayload

end Zynax.Adapter.Http
