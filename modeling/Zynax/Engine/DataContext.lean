import Zynax.Golang.Numbers
import Zynax.Golang.JsonRoundTrip

namespace Zynax.Engine

open Golang

/-!
# The run-scoped data context

The key/value store behind the data flow between states: written by an action's output
bindings, read by input bindings and by the outputs of a terminal state.

A payload is given by its text: the JSON decoder reads a byte that is no UTF-8 as U+FFFD, so
the text with these replacements is all it looks at.
-/

structure DataContextScope where
  runID : String
  nameSpace : String
  deriving DecidableEq, Repr

inductive RunError where
  /-- access from another run -/
  | scope (owner requester : DataContextScope) (op : String)
  /-- a reference that does not resolve, or a value that is no scalar -/
  | dataReference (inputKey reference : String) (reason : Formatted)
  /-- captured outputs over a limit; the key is empty for the total -/
  | outputSize (key : String) (size limit : Nat)
  /-- "state %q not found in IR" -/
  | stateNotFound (stateID : String)
  /-- "publish state.entered: %w" -/
  | publishEntered (err : String)
  /-- "action %q template error: %w" -/
  | template (capability err : String)
  /-- "action %q: %w" -/
  | action (capability err : String)
  /-- "no transition matched event %q" -/
  | noTransition (eventType : String)
  deriving DecidableEq, Repr

/-- The published outputs of one run. -/
structure WorkflowDataContext where
  scope : DataContextScope
  store : GoMap String

def newScopedWorkflowDataContext (scope : DataContextScope) : WorkflowDataContext := ⟨scope, ∅⟩

/-! ### Writing -/

def outputKey (stateID key : String) : String := "states." ++ stateID ++ ".output." ++ key

def scalarString (v : Json) : Except Formatted String :=
  if v.inRange then
    match v with
    | .str s => .ok s
    | .bool true => .ok "true"
    | .bool false => .ok "false"
    | .num l => .ok (trimSuffix (trimRight (formatFixed l) '0') ".")
    | .null => .error ⟨"type mismatch: expected scalar, got %T", [.str "<nil>"]⟩
    | .arr _ => .error ⟨"type mismatch: expected scalar, got %T", [.str "[]interface \x7b\x7d"]⟩
    | .obj _ =>
      .error ⟨"type mismatch: expected scalar, got %T", [.str "map[string]interface \x7b\x7d"]⟩
  else .error (.text "type mismatch: undecodable value")

def extractFrom (sourcePath : String) : GoMap Json → List String → Except Formatted String
  | _, [] => .error ⟨"source path %q not found in output payload", [.str sourcePath]⟩
  | cur, seg :: rest =>
    match cur.lookup seg with
    | none => .error ⟨"source path %q not found in output payload", [.str sourcePath]⟩
    | some raw =>
      if rest = [] then scalarString raw
      else
        match raw.toFields with
        | none =>
          .error ⟨"source path %q traverses a non-object at %q", [.str sourcePath, .str seg]⟩
        | some next => extractFrom sourcePath next rest

/-- The scalar at a dotted path of a result. -/
def extractScalar (doc : GoMap Json) (sourcePath : String) : Except Formatted String :=
  if sourcePath = "" then .error (.text "empty source path")
  else extractFrom sourcePath doc (split sourcePath '.')

def writeBindings (stateID : String) (doc : GoMap Json) :
    List (Σ _ : String, String) → GoMap String → GoMap String × Option RunError
  | [], store => (store, none)
  | b :: bs, store =>
    match extractScalar doc b.2 with
    | .error reason => (store, some (.dataReference b.1 b.2 reason))
    | .ok val => writeBindings stateID doc bs (AList.insert (outputKey stateID b.1) val store)

/-- `WriteOutputs`: publishes what the bindings name. -/
def WorkflowDataContext.writeOutputs (c : WorkflowDataContext) (requester : DataContextScope)
    (stateID : String) (bindings : GoMap String) (payload : String) :
    WorkflowDataContext × Option RunError :=
  if c.scope ≠ requester then (c, some (.scope c.scope requester "write"))
  -- without bindings the payload is not even read
  else if bindings.isEmpty then (c, none)
  else
    match (if payload = "" then some ∅ else Json.decodeObject payload) with
    | none =>
      (c, some (.dataReference stateID payload ⟨"output payload is not a JSON object: %v", []⟩))
    | some doc =>
      let r := writeBindings stateID doc bindings.entries c.store
      ({ c with store := r.1 }, r.2)

/-! ### Reading -/

def dataRefPrefix : String := "$."

/-- The engine's reading of a reference: four segments. -/
def canonicalRefKey (ref : String) : Except Formatted String :=
  let path := trimPrefix ref dataRefPrefix
  match split path '.' with
  | [p0, p1, p2, p3] =>
    if p0 ≠ "states" ∨ p2 ≠ "output" ∨ p1 = "" ∨ p3 = "" then
      .error ⟨"malformed reference; expected %sstates.<state>.output.<key>", [.str dataRefPrefix]⟩
    else .ok path
  | _ => .error ⟨"malformed reference; expected %sstates.<state>.output.<key>", [.str dataRefPrefix]⟩

/-- A reference is looked up, all else is taken as it is. -/
def resolveBindingValue (store : GoMap String) (inputKey ref : String) : Except RunError String :=
  if !hasPrefix ref dataRefPrefix then .ok ref
  else
    match canonicalRefKey ref with
    | .error reason => .error (.dataReference inputKey ref reason)
    | .ok key =>
      match store.lookup key with
      | none => .error (.dataReference inputKey ref (.text "not found in workflow data context"))
      | some val => .ok val

def errorOf {ε α : Type} : Except ε α → Option ε
  | .error e => some e
  | .ok _ => none

/-- `ResolveInputs`, for the owner only. -/
def WorkflowDataContext.resolveInputs (c : WorkflowDataContext) (requester : DataContextScope)
    (bindings : GoMap String) : Except RunError (GoMap String) :=
  if c.scope ≠ requester then .error (.scope c.scope requester "read")
  else
    match bindings.entries.findSome? (fun e => errorOf (resolveBindingValue c.store e.1 e.2)) with
    | some err => .error err
    | none => .ok (bindings.filterMapVal (fun k ref => (resolveBindingValue c.store k ref).toOption))

/-- Inputs go before the context. -/
def mergeInputs (base inputs : GoMap String) : GoMap String := inputs ∪ base

/-! ### Output limits -/

def maxOutputValueBytes : Nat := 64 * 1024

def maxOutputsTotalBytes : Nat := 256 * 1024

def outputsTotal : List (Σ _ : String, String) → Nat → Except RunError Nat
  | [], total => .ok total
  | o :: os, total =>
    if o.2.utf8ByteSize > maxOutputValueBytes then
      .error (.outputSize o.1 o.2.utf8ByteSize maxOutputValueBytes)
    else outputsTotal os (total + o.1.utf8ByteSize + o.2.utf8ByteSize)

/-- The limits on captured outputs. -/
def enforceOutputBounds (outputs : GoMap String) : Option RunError :=
  match outputsTotal outputs.entries 0 with
  | .error err => some err
  | .ok total =>
    if total > maxOutputsTotalBytes then some (.outputSize "" total maxOutputsTotalBytes) else none

/-! ### What the operations do -/

variable {c : WorkflowDataContext} {bindings : GoMap String}

@[simp] theorem writeOutputs_scope (c : WorkflowDataContext) (requester : DataContextScope)
    (stateID : String) (bindings : GoMap String) (payload : String) :
    (c.writeOutputs requester stateID bindings payload).1.scope = c.scope := by
  unfold WorkflowDataContext.writeOutputs
  repeat' split
  all_goals rfl

theorem mem_writeBindings {stateID : String} {doc : GoMap Json} {bs : List (Σ _ : String, String)}
    {store : GoMap String} {key : String} (h : key ∈ (writeBindings stateID doc bs store).1) :
    key ∈ store ∨ ∃ b ∈ bs, key = outputKey stateID b.1 := by
  induction bs generalizing store with
  | nil => exact Or.inl h
  | cons b bs ih =>
    rw [writeBindings] at h
    split at h
    · exact Or.inl h
    · rcases ih h with hmem | ⟨b', hb', hkey⟩
      · rcases (AList.mem_insert _).mp hmem with rfl | hmem
        · simp
        · exact Or.inl hmem
      · grind

/-- **Writing outputs adds keys of the writing state only**, those its bindings declare. -/
theorem mem_writeOutputs {requester : DataContextScope} {stateID : String}
    {payload key : String}
    (h : key ∈ (c.writeOutputs requester stateID bindings payload).1.store) :
    key ∈ c.store ∨ ∃ k ∈ bindings.keys, key = outputKey stateID k := by
  unfold WorkflowDataContext.writeOutputs at h
  split at h
  · exact Or.inl h
  split at h
  · exact Or.inl h
  split at h
  · exact Or.inl h
  · rcases mem_writeBindings h with hmem | ⟨b, hb, hkey⟩
    · exact Or.inl hmem
    · exact Or.inr ⟨b.1, List.mem_map.mpr ⟨b, hb, rfl⟩, hkey⟩

theorem errorOf_eq_none {ε α : Type} {r : Except ε α} : errorOf r = none ↔ ∃ a, r = .ok a := by
  cases r with
  | error e => simp [errorOf]
  | ok a => simp [errorOf]

/-- **Reading succeeds exactly when every binding resolves**, and then each input has the
    value of its binding. -/
theorem resolveInputs_eq_ok {inputs : GoMap String}
    (h : c.resolveInputs c.scope bindings = .ok inputs) :
    (∀ k ref, bindings.lookup k = some ref → ∃ val, resolveBindingValue c.store k ref = .ok val ∧
      inputs.lookup k = some val) ∧ ∀ k, bindings.lookup k = none → inputs.lookup k = none := by
  simp only [WorkflowDataContext.resolveInputs, ne_eq, not_true_eq_false, if_false] at h
  split at h
  · exact absurd h (by simp)
  · rename_i hnone
    obtain rfl := Except.ok.inj h
    refine ⟨?_, ?_⟩
    · intro k ref href
      have herr := List.findSome?_eq_none_iff.mp hnone ⟨k, ref⟩ (GoMap.mem_entries_iff.mpr href)
      obtain ⟨val, hval⟩ := errorOf_eq_none.mp herr
      exact ⟨val, hval, by simp [href, hval, Except.toOption]⟩
    · intro k hk
      simp [hk]

theorem exists_resolveInputs
    (h : ∀ k ref, bindings.lookup k = some ref → ∃ val, resolveBindingValue c.store k ref = .ok val) :
    ∃ inputs, c.resolveInputs c.scope bindings = .ok inputs := by
  have hnone : bindings.entries.findSome? (fun e => errorOf (resolveBindingValue c.store e.1 e.2)) =
      none := by
    rw [List.findSome?_eq_none_iff]
    intro e he
    exact errorOf_eq_none.mpr (h e.1 e.2 (GoMap.lookup_of_mem he))
  simp only [WorkflowDataContext.resolveInputs, hnone, ne_eq, not_true_eq_false, if_false]
  simp

theorem resolveInputs_eq_error {err : RunError}
    (h : c.resolveInputs c.scope bindings = .error err) :
    ∃ key ref reason, bindings.lookup key = some ref ∧ err = .dataReference key ref reason := by
  simp only [WorkflowDataContext.resolveInputs, ne_eq, not_true_eq_false, if_false] at h
  split at h
  · rename_i err' hsome
    obtain rfl := Except.error.inj h
    obtain ⟨⟨key, ref⟩, hmem, herr⟩ := List.exists_of_findSome?_eq_some hsome
    refine ⟨key, ref, ?_⟩
    have hlookup := GoMap.mem_entries_iff.mp hmem
    simp only [resolveBindingValue] at herr
    split at herr
    · exact absurd herr (by simp [errorOf])
    · split at herr
      · exact ⟨_, hlookup, (Option.some.inj herr).symm⟩
      · split at herr
        · exact ⟨_, hlookup, (Option.some.inj herr).symm⟩
        · exact absurd herr (by simp [errorOf])
  · exact absurd h (by simp)

end Zynax.Engine
