import Mathlib.Data.List.Basic

namespace Zynax.Kubernetes

/-!
# Unstructured objects

An object of the Kubernetes API as the machinery decodes it when it has no Go type, and the reads of
its nested fields.

* `nestedBool`, `nestedInt64`, `nestedString`, `nestedSlice` — the typed reads with the zero value
  for a field that is missing or of another type.
-/

inductive Unstructured where
  | null
  | bool (b : Bool)
  | int64 (n : Int)
  | float64 (x : Float)
  | string (s : String)
  | slice (elems : List Unstructured)
  | map (fields : List (String × Unstructured))

namespace Unstructured

def asBool : Unstructured → Option Bool
  | .bool b => some b
  | _ => none

def asInt64 : Unstructured → Option Int
  | .int64 n => some n
  | _ => none

def asString : Unstructured → Option String
  | .string s => some s
  | _ => none

def asSlice : Unstructured → Option (List Unstructured)
  | .slice elems => some elems
  | _ => none

def member (v : Unstructured) (name : String) : Option Unstructured :=
  match v with
  | .map fields => fields.lookup name
  | _ => none

def field (v : Unstructured) : List String → Option Unstructured
  | [] => some v
  | name :: path => (v.member name).bind (fun w => w.field path)

def nestedBool (v : Unstructured) (path : List String) : Bool := ((v.field path).bind asBool).getD false

def nestedInt64 (v : Unstructured) (path : List String) : Int := ((v.field path).bind asInt64).getD 0

def nestedString (v : Unstructured) (path : List String) : String :=
  ((v.field path).bind asString).getD ""

def nestedSlice (v : Unstructured) (path : List String) : List Unstructured :=
  ((v.field path).bind asSlice).getD []

/-! ### Metadata -/

def getName (v : Unstructured) : String := v.nestedString ["metadata", "name"]

def getNamespace (v : Unstructured) : String := v.nestedString ["metadata", "namespace"]

def getGeneration (v : Unstructured) : Int := v.nestedInt64 ["metadata", "generation"]

def label (v : Unstructured) (name : String) : String :=
  match v.field ["metadata", "labels"] with
  | some (.map fields) =>
    if fields.all (fun f => f.2.asString.isSome) then ((fields.lookup name).bind asString).getD "" else ""
  | _ => ""

end Unstructured

/-! ### Reads -/

structure NamespacedName where
  nameSpace : String
  name : String
  deriving DecidableEq, Repr

def NamespacedName.text (n : NamespacedName) : String := n.nameSpace ++ "/" ++ n.name

inductive Answer where
  | found (object : Unstructured)
  | notFound
  | failed (err : String)

end Zynax.Kubernetes
