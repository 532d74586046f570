import Zynax.Adapter.Events

namespace Zynax.Adapter.Llm

open Golang Grpc Transition
open Broker (stringField)

/-!
# The llm adapter

A capability is a prompt to a provider: its chunks are passed on as progress, and the whole text is the
result.
-/

structure CapabilityConfig where
  name : String
  inputSchemaJSON : String := ""

def newChatCompletionHandler (env : Linked) (inputSchemaJSON : String) :
    Except (List UInt8) (Option Schema) :=
  if trimSpace inputSchemaJSON = "" then .ok none else (env.compile inputSchemaJSON).map some

def newRouter (env : Linked) (capabilities : List CapabilityConfig) : Option (GoMap (Option Schema)) :=
  capabilities.foldlM (fun handlers c => do
    let schema ← (newChatCompletionHandler env c.inputSchemaJSON).toOption
    return AList.insert c.name schema handlers) ∅

def sanitise (msg : List UInt8) : List UInt8 :=
  let runes := Utf8.textFrom 0 msg
  if maxErrMsgLen < runes.length then Utf8.encode (runes.take maxErrMsgLen) else msg

def parseInput (env : Linked) (schema : Option Schema) (payload : List UInt8) :
    Except (List UInt8) String :=
  match unmarshalAny payload with
  | none => .error (bytes "invalid JSON in input_payload: " ++ env.unmarshalErr "interface" payload)
  | some v =>
    match schema.bind (· v) with
    | some err => .error (bytes "input_payload schema validation: " ++ err)
    | none =>
      match stringField "prompt" v with
      | none => .error (bytes "invalid input_payload: " ++ env.unmarshalErr "chatInput" payload)
      | some prompt =>
        if prompt = "" then .error (bytes "input_payload field \"prompt\" is required") else .ok prompt

/-! ### The handler -/

inductive State where
  | opening
  | relaying (full : List UInt8) (emitted : Bool)

inductive Chunk where
  | text (text : List UInt8)
  | failed (err : List UInt8) (ctx : Option ContextError)
  | closed (ctx : Option ContextError)

def Input : State → Type
  | .opening => Option (List UInt8 × Option ContextError)
  | .relaying _ _ => Chunk

structure Call where
  prompt : String

def failed (taskID code : String) (msg : List UInt8) : Action Call :=
  .send (failedEvent taskID code (sanitise msg))

/-- A stream has at least one progress event. -/
def ensureProgress (taskID : String) (emitted : Bool) : List (Action Call) :=
  if emitted then [] else [.send (progressEvent taskID)]

def terminalTimeout (taskID : String) (emitted : Bool) : Serving Call State :=
  .finish (ensureProgress taskID emitted ++
    [failed taskID "TIMEOUT" (bytes "request exceeded timeout")]) none

def terminalForError (taskID : String) (err : List UInt8) (ctx : Option ContextError) (emitted : Bool) :
    Serving Call State :=
  if ctx.isSome then terminalTimeout taskID emitted
  else .finish (ensureProgress taskID emitted ++ [failed taskID "UPSTREAM_ERROR" err]) none

def completionPayload (full : List UInt8) : List UInt8 :=
  bytes "\x7b\"completion\":" ++ Utf8.quote full ++ bytes "\x7d"

def turn (taskID : String) : (s : State) → Input s → Serving Call State
  | .opening, some (err, ctx) => terminalForError taskID err ctx false
  | .opening, none => .wait [] (.relaying [] false)
  | .relaying full _, .text text =>
    .wait [.send (progressEvent taskID text)] (.relaying (full ++ text) true)
  | .relaying _ emitted, .failed err ctx => terminalForError taskID err ctx emitted
  -- the channel is closed at the end of the answer, and when the context is over
  | .relaying _ emitted, .closed (some _) => terminalTimeout taskID emitted
  | .relaying full emitted, .closed none =>
    .finish (ensureProgress taskID emitted ++ [.send (completedEvent taskID (completionPayload full))]) none

def execute (env : Linked) (schema : Option Schema) (taskID : String) (payload : List UInt8) :
    Serving Call State :=
  match parseInput env schema payload with
  | .error err => .finish [failed taskID "INVALID_INPUT" err] none
  | .ok prompt => .wait [.call ⟨prompt⟩] .opening

def executeCapability (env : Linked) (handlers : GoMap (Option Schema)) (req : ExecuteRequest) :
    Serving Call State :=
  (checkRequest req).getD <|
    match handlers.lookup req.capabilityName with
    | none => .refuse .notFound ("unknown capability: " ++ req.capabilityName)
    | some schema => execute env schema req.taskId req.inputPayload

abbrev serve (env : Linked) (handlers : GoMap (Option Schema)) (req : ExecuteRequest)
    (answers : List (Answer Input)) : List (Action Call) × Next State (Option Status) :=
  exec (turn req.taskId) (executeCapability env handlers req) answers

end Zynax.Adapter.Llm
