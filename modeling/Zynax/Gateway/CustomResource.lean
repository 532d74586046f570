import Zynax.Gateway.Apply

namespace Zynax.Gateway

open Golang Compiler

/-!
# The Workflow custom resource

The Kubernetes front end: the command line turns a manifest into a custom resource, the controller
rebuilds a manifest from it.
-/

/-! ### Dynamic maps -/

def mapValue (m : GoMap Value) : Value := .map (m.entries.map (fun e => (e.1, e.2)))

def stringOf (v : Option Value) : String := (v.bind Value.asString).getD ""

/-! ### The resource -/

structure Condition where
  type : String
  status : String
  reason : String
  message : Formatted
  lastTransitionTime : String
  deriving DecidableEq, Repr

structure DispatchRef where
  workflowID : String
  runID : String
  engine : String
  deriving DecidableEq, Repr

structure CRStatus where
  observedGeneration : Int := 0
  dispatch : Option DispatchRef := none
  conditions : List Condition := []
  deriving DecidableEq, Repr

structure WorkflowCR where
  name : String
  nameSpace : String
  spec : Option (GoMap Value)
  generation : Int
  status : CRStatus := {}

def manifestAPIVersion : String := "zynax.io/v1"

def kindWorkflow : String := "Workflow"

def manifestMetadata (name nameSpace version : String) : Value :=
  .map ([("name", .str name)] ++
    (if nameSpace = "" then [] else [("namespace", .str nameSpace)]) ++
    (if version = "" then [] else [("version", .str version)]))

def manifestDocument (metadata : Value) (spec : GoMap Value) : Value :=
  .map [("apiVersion", .str manifestAPIVersion), ("kind", .str kindWorkflow),
    ("metadata", metadata), ("spec", mapValue spec)]

def manifestSpec (spec : GoMap Value) : GoMap Value := (spec.erase "engine").erase "version"

/-- The manifest of a resource, with its engine hint. -/
def buildManifest (y : YamlCodec Value) (u : WorkflowCR) : Except Formatted (List UInt8 × String) :=
  match u.spec with
  | none => .error ⟨"workflow %s: missing spec", [.str u.name]⟩
  | some spec =>
    let engineHint := stringOf (spec.lookup "engine")
    let version := stringOf (spec.lookup "version")
    match y.marshal (manifestDocument (manifestMetadata u.name u.nameSpace version)
        (manifestSpec spec)) with
    | .error err => .error ⟨"workflow %s: marshal manifest: %w", [.str u.name, .str err]⟩
    | .ok out => .ok (out, engineHint)

end Zynax.Gateway
