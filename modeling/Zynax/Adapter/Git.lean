import Zynax.Golang.Replace
import Zynax.Adapter.Events

namespace Zynax.Adapter

open Golang Grpc Transition
open Broker (fieldValues stringField storeInt storeStrings)

/-!
# The git adapter

Pull requests of one configured repository, through the GitHub API.  What comes back is passed through
a redactor before it is sent.

* `Git.turn` — what the handler does where it waits: the two `select` loops, the request for reviewers
  and the poll loop after it.
-/

/-! ### Redaction -/

def placeholder : List UInt8 := bytes "[REDACTED]"

def minSecretLen : Nat := 8

/-- Secrets long enough to be redacted. -/
structure Redactor where
  secrets : List String := []
  long : ∀ s ∈ secrets, minSecretLen ≤ (bytes s).length := by simp

def Redactor.new (secrets : List String) : Redactor where
  secrets := (secrets.filter (fun s => minSecretLen ≤ (bytes s).length)).eraseDups
  long := fun s hs => by simpa using (List.mem_filter.mp (List.mem_eraseDups.mp hs)).2

/-- Replaces every secret, one after the other. -/
def Redactor.string (red : Redactor) (s : List UInt8) : List UInt8 :=
  if s = [] ∨ red.secrets = [] then s
  else red.secrets.foldl (fun s secret => replaceSub (Adapter.bytes secret) placeholder s) s

def Redactor.bytes (red : Redactor) (b : List UInt8) : List UInt8 :=
  if red.secrets = [] then b else red.string b

theorem Redactor.bytes_eq (red : Redactor) (b : List UInt8) : red.bytes b = red.string b := by
  unfold Redactor.bytes
  split
  · rename_i h
    rw [Redactor.string, if_pos (Or.inr h)]
  · rfl

namespace Git

/-! ### Payloads -/

structure GitCapabilityConfig where
  name : String
  owner : String
  repo : String

structure OpenPRInput where
  title : String
  head : String
  base : String
  body : String

structure RequestReviewInput where
  prNumber : Int
  reviewers : List String

def decodeOpenPR (v : Json) : Option OpenPRInput := do
  return ⟨← stringField "title" v, ← stringField "head" v, ← stringField "base" v,
    ← stringField "body" v⟩

def decodePRNumber (v : Json) : Option Int := (fieldValues "pr_number" v).bind (storeInt 0)

def decodeRequestReview (v : Json) : Option RequestReviewInput := do
  let prNumber ← decodePRNumber v
  let reviewers ← (fieldValues "reviewers" v).bind (storeStrings none)
  return ⟨prNumber, reviewers.getD []⟩

/-! ### The GitHub API -/

inductive Call where
  | create (owner repo : String) (inp : OpenPRInput)
  | requestReviewers (owner repo : String) (inp : RequestReviewInput)
  | get (owner repo : String) (number : Int)
  | diff (owner repo : String) (number : Int)

structure ApiError where
  statusCode : Option Int := none
  text : List UInt8
  ctx : Option ContextError := none

structure PullRequest where
  htmlURL : String
  number : Int

def githubErrCode (err : ApiError) : String :=
  match err.statusCode with
  | some 429 | some 403 => "RESOURCE_EXHAUSTED"
  | some 404 => "NOT_FOUND"
  | some 422 => "INVALID_INPUT"
  | _ => "UPSTREAM_ERROR"

def maxDiffBytes : Nat := 4 * 1024 * 1024

def maxPollCycles : Nat := 20

/-! ### The handler -/

inductive State where
  | opening
  | requesting (gcap : GitCapabilityConfig) (inp : RequestReviewInput)
  | pausing (gcap : GitCapabilityConfig) (inp : RequestReviewInput) (left : Nat)
  | polling (gcap : GitCapabilityConfig) (inp : RequestReviewInput) (left : Nat)
  | diffing

def Input : State → Type
  | .opening => Select (Except ApiError PullRequest)
  | .requesting _ _ => Except ApiError Unit
  | .pausing _ _ _ => Pause
  | .polling _ _ _ => Except ApiError (List String)
  | .diffing => Select (Except ApiError (List UInt8))

def sanitise (red : Redactor) (s : List UInt8) : List UInt8 := cutBytes maxErrMsgLen (red.string s)

def timeout (taskID : String) : Serving Call State :=
  .fail taskID "TIMEOUT" (bytes "request exceeded timeout_seconds")

def apiFailed (red : Redactor) (taskID : String) (err : ApiError) : Serving Call State :=
  .fail taskID (githubErrCode err) (sanitise red err.text)

def openPRPayload (pr : PullRequest) : List UInt8 :=
  bytes (Json.obj [("pr_number", .num (decimalInt pr.number)), ("pr_url", .str pr.htmlURL)]).marshal

def requestedPayload : List UInt8 := bytes (Json.obj [("requested", .bool true)]).marshal

/-- The diff, cut at the limit. -/
def diffPayload (body : List UInt8) : List UInt8 :=
  let data := body.take (maxDiffBytes + 1)
  let truncated := decide (maxDiffBytes < data.length)
  bytes "\x7b\"diff\":" ++ Utf8.quote (if truncated then data.take maxDiffBytes else data) ++
    bytes (",\"truncated\":" ++ (if truncated then "true" else "false") ++ "\x7d")

def cycle (gcap : GitCapabilityConfig) (taskID : String) (inp : RequestReviewInput) :
    Nat → Serving Call State
  | 0 => .complete taskID requestedPayload
  | left + 1 => .wait [.send (progressEvent taskID)] (.pausing gcap inp left)

def turn (red : Redactor) (taskID : String) : (s : State) → Input s → Serving Call State
  -- `open_pr`: the call runs beside the `select`
  | .opening, .tick => .wait [.send (progressEvent taskID)] .opening
  | .opening, .result (.error err) => apiFailed red taskID err
  | .opening, .result (.ok pr) => .complete taskID (red.bytes (openPRPayload pr))
  | .opening, .done => timeout taskID
  -- `request_review`: one call, then polls with a pause before each
  | .requesting _ _, .error err => apiFailed red taskID err
  | .requesting gcap inp, .ok _ => cycle gcap taskID inp maxPollCycles
  | .pausing _ _ _, .done => timeout taskID
  | .pausing gcap inp left, .elapsed =>
    .wait [.call (.get gcap.owner gcap.repo inp.prNumber)] (.polling gcap inp left)
  | .polling _ _ _, .error err => apiFailed red taskID err
  | .polling gcap inp left, .ok logins =>
    if logins.any (· ∈ inp.reviewers) then .complete taskID requestedPayload
    else cycle gcap taskID inp left
  -- `get_diff`
  | .diffing, .tick => .wait [.send (progressEvent taskID)] .diffing
  | .diffing, .result (.error err) => apiFailed red taskID err
  | .diffing, .result (.ok body) => .complete taskID (red.bytes (diffPayload body))
  | .diffing, .done => timeout taskID

def invalid (taskID : String) (msg : List UInt8) : Serving Call State :=
  .fail taskID "INVALID_INPUT" msg

def openPR (env : Linked) (red : Redactor) (gcap : GitCapabilityConfig) (taskID : String)
    (payload : List UInt8) : Serving Call State :=
  match parsePayload env "openPRInput" decodeOpenPR payload with
  | .error err => invalid taskID (sanitise red err)
  | .ok inp =>
    if inp.title = "" ∨ inp.head = "" ∨ inp.base = "" then
      invalid taskID (bytes "title, head, and base are required")
    else .wait [.call (.create gcap.owner gcap.repo inp)] .opening

def requestReview (env : Linked) (red : Redactor) (gcap : GitCapabilityConfig) (taskID : String)
    (payload : List UInt8) : Serving Call State :=
  match parsePayload env "requestReviewInput" decodeRequestReview payload with
  | .error err => invalid taskID (sanitise red err)
  | .ok inp =>
    if inp.prNumber ≤ 0 then invalid taskID (bytes "pr_number must be a positive integer")
    else if inp.reviewers = [] then invalid taskID (bytes "reviewers must be non-empty")
    else .wait [.call (.requestReviewers gcap.owner gcap.repo inp)] (.requesting gcap inp)

def getDiff (env : Linked) (red : Redactor) (gcap : GitCapabilityConfig) (taskID : String)
    (payload : List UInt8) : Serving Call State :=
  match parsePayload env "getDiffInput" decodePRNumber payload with
  | .error err => invalid taskID (sanitise red err)
  | .ok number =>
    if number ≤ 0 then invalid taskID (bytes "pr_number must be a positive integer")
    else .wait [.call (.diff gcap.owner gcap.repo number)] .diffing

def execute (env : Linked) (red : Redactor) (gcap : GitCapabilityConfig) (taskID : String)
    (payload : List UInt8) : Serving Call State :=
  if gcap.name = "open_pr" then openPR env red gcap taskID payload
  else if gcap.name = "request_review" then requestReview env red gcap taskID payload
  else if gcap.name = "get_diff" then getDiff env red gcap taskID payload
  else if gcap.name = "gitlab" then
    .fail taskID "INTERNAL" (bytes "not implemented: provider gitlab not supported in M5")
  else .unknownCapability taskID gcap.name

def resolve (capabilities : List GitCapabilityConfig) (req : ExecuteRequest) :
    Option GitCapabilityConfig :=
  (router GitCapabilityConfig.name capabilities).lookup req.capabilityName

def dispatch (env : Linked) (red : Redactor) (capabilities : List GitCapabilityConfig)
    (req : ExecuteRequest) : Serving Call State :=
  match resolve capabilities req with
  | none => .unknownCapability req.taskId req.capabilityName
  | some gcap => execute env red gcap req.taskId req.inputPayload

def executeCapability (env : Linked) (red : Redactor) (capabilities : List GitCapabilityConfig)
    (req : ExecuteRequest) : Serving Call State :=
  (checkRequest req).getD (dispatch env red capabilities req)

theorem executeCapability_getDiff {env : Linked} {red : Redactor}
    {capabilities : List GitCapabilityConfig} {req : ExecuteRequest} {gcap : GitCapabilityConfig}
    {number : Int} (htask : req.taskId ≠ "") (hcap : req.capabilityName ≠ "")
    (hresolve : resolve capabilities req = some gcap) (hname : gcap.name = "get_diff")
    (hparse : parsePayload env "getDiffInput" decodePRNumber req.inputPayload = .ok number)
    (hpos : 0 < number) :
    executeCapability env red capabilities req =
      .wait [.call (.diff gcap.owner gcap.repo number)] .diffing := by
  unfold executeCapability dispatch execute getDiff
  rw [checkRequest_eq_none htask hcap, Option.getD_none, hresolve]
  grind

abbrev serve (env : Linked) (red : Redactor) (capabilities : List GitCapabilityConfig)
    (req : ExecuteRequest) (answers : List (Answer Input)) :
    List (Action Call) × Next State (Option Status) :=
  exec (turn red req.taskId) (executeCapability env red capabilities req) answers

/-! ### What the handler sends -/

variable {red : Redactor} {taskID name : String}

def ownCodes : List String :=
  ["INVALID_INPUT", "INTERNAL", "TIMEOUT", "RESOURCE_EXHAUSTED", "NOT_FOUND", "UPSTREAM_ERROR"]

def ownMessages : List String :=
  ["request exceeded timeout_seconds", "title, head, and base are required",
    "pr_number must be a positive integer", "reviewers must be non-empty",
    "not implemented: provider gitlab not supported in M5"]

inductive Served (red : Redactor) (taskID name : String) : Serving Call State → Prop where
  | progress (s : State) : Served red taskID name (.wait [.send (progressEvent taskID)] s)
  | call (c : Call) (s : State) : Served red taskID name (.wait [.call c] s)
  | own {code msg : String} (hcode : code ∈ ownCodes) (hmsg : msg ∈ ownMessages) :
    Served red taskID name (.fail taskID code (bytes msg))
  | redacted {code : String} (hcode : code ∈ ownCodes) (err : List UInt8) :
    Served red taskID name (.fail taskID code (sanitise red err))
  | unknown : Served red taskID name (.unknownCapability taskID name)
  | result (payload : List UInt8) : Served red taskID name (.complete taskID (red.bytes payload))
  | requested : Served red taskID name (.complete taskID requestedPayload)

theorem served_timeout : Served red taskID name (timeout taskID) := .own (by decide) (by decide)

theorem served_apiFailed (err : ApiError) : Served red taskID name (apiFailed red taskID err) := by
  refine .redacted ?_ err.text
  unfold githubErrCode
  split <;> decide

theorem served_cycle (gcap : GitCapabilityConfig) (inp : RequestReviewInput) (left : Nat) :
    Served red taskID name (cycle gcap taskID inp left) := by
  cases left with
  | zero => exact .requested
  | succ left => exact .progress _

theorem served_turn (name : String) (s : State) (i : Input s) :
    Served red taskID name (turn red taskID s i) := by
  unfold turn
  split
  · exact .progress _
  · exact served_apiFailed _
  · exact .result _
  · exact served_timeout
  · exact served_apiFailed _
  · exact served_cycle _ _ _
  · exact served_timeout
  · exact .call _ _
  · exact served_apiFailed _
  · split
    · exact .requested
    · exact served_cycle _ _ _
  · exact .progress _
  · exact served_apiFailed _
  · exact .result _
  · exact served_timeout

theorem served_execute (env : Linked) (gcap : GitCapabilityConfig) (payload : List UInt8) :
    Served red taskID gcap.name (execute env red gcap taskID payload) := by
  unfold execute openPR requestReview getDiff
  split_ifs
  · split
    · exact .redacted (by decide) _
    · split_ifs
      · exact .own (by decide) (by decide)
      · exact .call _ _
  · split
    · exact .redacted (by decide) _
    · split_ifs
      · exact .own (by decide) (by decide)
      · exact .own (by decide) (by decide)
      · exact .call _ _
  · split
    · exact .redacted (by decide) _
    · split_ifs
      · exact .own (by decide) (by decide)
      · exact .call _ _
  · exact .own (by decide) (by decide)
  · exact .unknown

theorem served_dispatch (env : Linked) (capabilities : List GitCapabilityConfig) (req : ExecuteRequest) :
    Served red req.taskId req.capabilityName (dispatch env red capabilities req) := by
  unfold dispatch
  split
  · exact .unknown
  · rename_i gcap hresolve
    exact name_of_lookup_router hresolve ▸ served_execute env gcap req.inputPayload

/-! ### The grammar -/

theorem keeps_of_served {t : Serving Call State} (h : Served red taskID name t) : Keeps taskID t := by
  have hcodes : ∀ code ∈ ownCodes, code ≠ "" := by decide
  cases h with
  | progress s => exact keeps_progress taskID [] s
  | call c s => exact keeps_call taskID c s
  | own hcode hmsg => exact keeps_fail taskID (hcodes _ hcode) _
  | redacted hcode err => exact keeps_fail taskID (hcodes _ hcode) _
  | unknown => exact keeps_unknownCapability taskID name
  | result payload => exact keeps_complete taskID _
  | requested => exact keeps_complete taskID _

theorem keeps_turn (s : State) (i : Input s) : Keeps taskID (turn red taskID s i) :=
  keeps_of_served (served_turn "" s i)

theorem keeps_executeCapability (env : Linked) (red : Redactor)
    (capabilities : List GitCapabilityConfig) {req : ExecuteRequest} (htask : req.taskId ≠ "")
    (hcap : req.capabilityName ≠ "") :
    Keeps req.taskId (executeCapability env red capabilities req) := by
  unfold executeCapability
  rw [checkRequest_eq_none htask hcap, Option.getD_none]
  exact keeps_of_served (served_dispatch env capabilities req)

end Git

end Zynax.Adapter
