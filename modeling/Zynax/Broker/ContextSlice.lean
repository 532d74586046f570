import Zynax.Golang.JsonRaw
import Zynax.Golang.Numbers
import Zynax.Broker.Task

namespace Zynax.Broker

open Golang

/-!
# Context slices

A payload that targets an expert is rewritten at dispatch: its `context_slice` becomes the slice
that the expert's registered input schema declares.
-/

structure ContextSlice where
  files : List String
  maxTokens : Int
  deriving DecidableEq, Repr

/-- The expert that a payload names. -/
def expertTarget (payload : String) : Option String :=
  match Json.decodeObject payload with
  | none => none
  | some fields =>
    match fields.lookup "expert" with
    | some (.str expert) => if expert = "" then none else some expert
    | _ => none

/-- The first agent with the name or id. -/
def selectExpert (agents : List AgentInfo) (expert : String) : Option AgentInfo :=
  agents.find? (fun a => a.name == expert || a.agentID == expert)

/-! ### Reading a schema into structs -/

def foldName (s : String) : String :=
  String.ofList (s.toList.map fun c =>
    if 'a' ≤ c && c ≤ 'z' then Char.ofNat (c.toNat - 32)
    else if c = '\u017f' then 'S'
    else if c = '\u212a' then 'K'
    else c)

def fieldValues (name : String) : Json → Option (List Json)
  | .null => some []
  | .obj fs => some ((fs.filter (fun p => foldName p.1 = foldName name)).map Prod.snd)
  | _ => none

def fieldValuesOf (name : String) : List Json → Option (List Json)
  | [] => some []
  | v :: vs =>
    match fieldValues name v, fieldValuesOf name vs with
    | some xs, some ys => some (xs ++ ys)
    | _, _ => none

def storeMap : GoMap Json → List Json → Option (GoMap Json)
  | m, [] => some m
  | m, v :: vs =>
    match v with
    | .null => storeMap ∅ vs
    | .obj fs => storeMap (fs.foldl (fun m p => AList.insert p.1 p.2 m) m) vs
    | _ => none

def storeString : String → List Json → Option String
  | s, [] => some s
  | s, v :: vs =>
    match v with
    | .null => storeString s vs
    | .str s' => storeString s' vs
    | _ => none

/-- The elements of an array are decoded into those that are there. -/
def storeElems {α : Type} (decode : α → Json → Option α) (zero : α) :
    List α → List Json → Option (List α)
  | _, [] => some []
  | old, x :: xs => do
    let y ← decode (old.headD zero) x
    return y :: (← storeElems decode zero old.tail xs)

/-- A slice field that occurs several times, with the array behind it: a shorter slice leaves the later
    elements in place, an empty one starts anew. -/
def storeSlice {α : Type} (decode : α → Json → Option α) (zero : α) :
    Option (List α) → List α → List Json → Option (Option (List α))
  | slice, _, [] => some slice
  | _, array, v :: vs =>
    match v with
    | .null => storeSlice decode zero none [] vs
    | .arr [] => storeSlice decode zero (some []) [] vs
    | .arr xs =>
      match storeElems decode zero array xs with
      | some ys => storeSlice decode zero (some ys) (ys ++ array.drop ys.length) vs
      | none => none
    | _ => none

def storeStrings (slice : Option (List String)) : List Json → Option (Option (List String)) :=
  storeSlice (fun old x => storeString old [x]) "" slice (slice.getD [])

def parseInt (l : List Char) : Option Int :=
  let digits := if l.head? = some '-' then l.tail else l
  if digits.all Char.isDigit && !digits.isEmpty then
    let n : Int := natOfDigits digits
    let v := if l.head? = some '-' then -n else n
    if -2 ^ 63 ≤ v ∧ v < 2 ^ 63 then some v else none
  else none

def storeInt : Int → List Json → Option Int
  | n, [] => some n
  | n, v :: vs =>
    match v with
    | .null => storeInt n vs
    | .num l =>
      match parseInt l with
      | some n' => storeInt n' vs
      | none => none
    | _ => none

def stringField (name : String) (v : Json) : Option String :=
  (fieldValues name v).bind (storeString "")

def defaultsOf (decl : Json) (property : String) : Option (List Json) :=
  (fieldValues "properties" decl).bind fun ps =>
    (fieldValuesOf property ps).bind (fieldValuesOf "default")

/-- The slice that an input schema declares as default. -/
def declaredSlice (inputSchema : String) : Except BrokerError (Option ContextSlice) :=
  if inputSchema = "" then .ok none
  else
    match (Json.unmarshal inputSchema).bind fun schema =>
        (fieldValues "properties" schema).bind (storeMap ∅) with
    | none => .error ⟨none, ⟨"parse input_schema: %w", []⟩⟩
    | some properties =>
      match properties.lookup "context_slice" with
      | none => .ok none
      | some decl =>
        match (defaultsOf decl "files").bind (storeStrings none),
            (defaultsOf decl "max_tokens").bind (storeInt 0) with
        | some none, some _ => .ok none
        | some (some files), some maxTokens => .ok (some ⟨files, maxTokens⟩)
        | _, _ => .error ⟨none, ⟨"parse context_slice declaration: %w", []⟩⟩

/-! ### Binding -/

def ContextSlice.toJson (slice : ContextSlice) : Json :=
  .obj [("files", .arr (slice.files.map .str)), ("max_tokens", .num (decimalInt slice.maxTokens))]

def replaceSlice (fields : GoMap (List Char)) (slice : Option ContextSlice) : GoMap (List Char) :=
  let fields := fields.erase "context_slice"
  match slice with
  | none => fields
  | some s => AList.insert "context_slice" s.toJson.encode fields

/-- The payload with the declared slice in place of its own. -/
def bindContextSlice (payload : String) (slice : Option ContextSlice) : Except BrokerError String :=
  match Json.decodeRaw payload with
  | none => .error ⟨none, ⟨"parse input_payload: %w", []⟩⟩
  | some fields => .ok (Json.marshalRaw (replaceSlice fields slice))

/-- Agents and payload for a dispatch to an expert. -/
def prepareExpertDispatch (payload : String) (agents : List AgentInfo) :
    Except BrokerError (List AgentInfo × String) :=
  match expertTarget payload with
  | none => .ok (agents, payload)
  | some expert =>
    match selectExpert agents expert with
    | none =>
      .error (.of .noEligibleAgent "no agent %q provides the requested capability" [.str expert])
    | some agent =>
      let wrapExpert (err : BrokerError) : BrokerError :=
        { err with message := ⟨"task-broker: expert %q: " ++ err.message.format,
            .str expert :: err.message.args⟩ }
      match declaredSlice agent.inputSchema with
      | .error err => .error (wrapExpert err)
      | .ok slice =>
        match bindContextSlice payload slice with
        | .error err => .error (wrapExpert err)
        | .ok bound => .ok ([agent], bound)

end Zynax.Broker
