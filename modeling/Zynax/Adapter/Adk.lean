import Zynax.Adapter.Events

namespace Zynax.Adapter.Adk

open Golang Grpc Transition
open Broker (fieldValues stringField storeStrings)

/-!
# The adk adapter

A capability is an agent over a model.  The input is checked against the capability's schema, the
events of the agent become progress, and the final text is brought into the shape of the output schema.
-/

/-! ### The start -/

structure CapabilityConfig where
  name : String
  inputSchemaJSON : String := ""
  outputSchemaJSON : String := ""

structure CapRuntime where
  inSchema : Option Schema
  outSchema : Option Schema
  outKey : String

structure Iteration where
  first : List String → String
  mem : ∀ keys, keys ≠ [] → first keys ∈ keys

def compileSchema (env : Linked) (schemaJSON : String) : Except (List UInt8) (Option Schema) :=
  if trimSpace schemaJSON = "" then .ok none else (env.compile schemaJSON).map some

def storeTypes : GoMap String → List Json → Option (GoMap String)
  | types, [] => some types
  | types, v :: vs =>
    match v with
    | .null => storeTypes ∅ vs
    | .obj fs =>
      (fs.foldlM (fun m p => (stringField "type" p.2).map fun t => AList.insert p.1 t m) types).bind
        (storeTypes · vs)
    | _ => none

/-- The property that a text is wrapped in. -/
def outputTargetKey (it : Iteration) (schemaJSON : String) : String :=
  if trimSpace schemaJSON = "" then ""
  else
    match (do
        let v ← Json.unmarshal schemaJSON
        let types ← (fieldValues "properties" v).bind (storeTypes ∅)
        let required ← (fieldValues "required" v).bind (storeStrings none)
        return (types, required.getD [])) with
    | none => ""
    | some (types, required) =>
      let isString (k : String) : Bool := types.lookup k = some "string"
      match required.find? isString with
      | some k => k
      | none =>
        let keys := types.keys.filter isString
        if keys = [] then "" else it.first keys

def newAgentServer (env : Linked) (it : Iteration) (capabilities : List CapabilityConfig) :
    Option (GoMap CapRuntime) :=
  capabilities.foldlM (fun caps c => do
    let inSchema ← (compileSchema env c.inputSchemaJSON).toOption
    let outSchema ← (compileSchema env c.outputSchemaJSON).toOption
    return AList.insert c.name ⟨inSchema, outSchema, outputTargetKey it c.outputSchemaJSON⟩ caps) ∅

/-! ### Input and output -/

/-- At most so many characters of a long message. -/
def boundMessage (msg : List UInt8) : List UInt8 :=
  if msg.length ≤ maxErrMsgLen then msg
  else Utf8.encode ((Utf8.textFrom 0 msg).take maxErrMsgLen)

def parseInput (env : Linked) (payload : List UInt8) (schema : Option Schema) :
    Except (List UInt8) String :=
  match unmarshalAny payload with
  | none => .error (bytes "invalid JSON in input_payload: " ++ env.unmarshalErr "any" payload)
  | some v =>
    match schema.bind (· v) with
    | some err => .error (bytes "input_payload schema validation: " ++ err)
    | none =>
      match v with
      | .obj fs =>
        match (GoMap.ofPairs fs).lookup "prompt" with
        | some (.str prompt) =>
          if prompt = "" then .error (bytes "input_payload field \"prompt\" (string) is required")
          else .ok prompt
        | _ => .error (bytes "input_payload field \"prompt\" (string) is required")
      | _ => .error (bytes "input_payload must be a JSON object")

def validates (schema : Schema) (payload : String) : Bool :=
  (unmarshalAny (bytes payload)).any fun v => (schema v).isNone

/-- The text as the output schema wants it, if it can be. -/
def coerceOutput (text : String) (rt : CapRuntime) : Option String :=
  match rt.outSchema with
  | none => some text
  | some schema =>
    let trimmed := trimSpace text
    if hasPrefix trimmed "\x7b" ∧ validates schema trimmed = true then some trimmed
    else
      let wrapped := (Json.obj [(rt.outKey, .str text)]).marshal
      if rt.outKey ≠ "" ∧ validates schema wrapped = true then some wrapped else none

/-! ### The handler -/

structure Event where
  isPartial : Bool
  parts : List String

def eventText (ev : Event) : String := String.join ev.parts

inductive Yield where
  | event (ev : Event)
  | failed (err : List UInt8) (isDeadline : Bool) (ctx : Option ContextError)
  | ended (ctx : Option ContextError)

structure State where
  rt : CapRuntime
  finalText : String := ""
  emittedProgress : Bool := false

structure Call where
  sessionID : String
  prompt : String

def classify (isDeadline : Bool) (ctx : Option ContextError) : String :=
  if isDeadline ∨ ctx = some .deadlineExceeded then "TIMEOUT" else "UPSTREAM_ERROR"

def sendFailed (taskID code : String) (msg : List UInt8) : Serving Call State :=
  .fail taskID code (boundMessage msg)

def finished (taskID : String) (s : State) : Serving Call State :=
  let progress : List (Action Call) :=
    if s.emittedProgress then [] else [.send (progressEvent taskID (bytes s.finalText))]
  match coerceOutput s.finalText s.rt with
  | some payload => .finish (progress ++ [.send (completedEvent taskID (bytes payload))]) none
  | none =>
    .finish (progress ++ [.send (failedEvent taskID "UPSTREAM_ERROR"
      (boundMessage (bytes "model output did not satisfy the declared output_schema")))]) none

def turn (taskID : String) (s : State) : Yield → Serving Call State
  | .failed err isDeadline ctx => sendFailed taskID (classify isDeadline ctx) err
  | .event ev =>
    let text := eventText ev
    if text = "" then .wait [] s
    -- a chunk is progress; a whole text may be the final one
    else if ev.isPartial then
      .wait [.send (progressEvent taskID (bytes text))] { s with emittedProgress := true }
    else .wait [] { s with finalText := text }
  -- the iteration may end without an error when the context is over
  | .ended (some _) => sendFailed taskID "TIMEOUT" (bytes "request exceeded timeout")
  | .ended none => finished taskID s

def executeCapability (env : Linked) (caps : GoMap CapRuntime) (req : ExecuteRequest) :
    Serving Call State :=
  (checkRequest req).getD <|
    match caps.lookup req.capabilityName with
    | none => sendFailed req.taskId "INVALID_INPUT" (unknownMessage req.capabilityName)
    | some rt =>
      match parseInput env req.inputPayload rt.inSchema with
      | .error err => sendFailed req.taskId "INVALID_INPUT" err
      | .ok prompt =>
        .wait [.call ⟨if req.workflowId = "" then req.taskId else req.workflowId, prompt⟩] ⟨rt, "", false⟩

abbrev serve (env : Linked) (caps : GoMap CapRuntime) (req : ExecuteRequest)
    (answers : List (Answer fun _ : State => Yield)) : List (Action Call) × Next State (Option Status) :=
  exec (turn req.taskId) (executeCapability env caps req) answers

end Zynax.Adapter.Adk
