import Zynax.Engine.References

namespace Zynax.Engine

open Golang

/-!
# Histories of a data context

A run's data context sees a sequence of `WriteOutputs` and `ResolveInputs` calls, each of which
presents the scope of the run that makes it.

* `Output`, `outputLog`, `lastWrite` — what the context is for: a log of the outputs published by
  the owning run, read by state and key.
-/

/-! ### Calls -/

inductive ContextCall where
  | writeOutputs (requester : DataContextScope) (stateID : String) (bindings : GoMap String)
      (payload : String)
  | resolveInputs (requester : DataContextScope) (bindings : GoMap String)

inductive ContextAnswer where
  | written (err : Option RunError)
  | resolved (inputs : Except RunError (GoMap String))

namespace ContextCall

def requester : ContextCall → DataContextScope
  | .writeOutputs requester _ _ _ => requester
  | .resolveInputs requester _ => requester

end ContextCall

namespace ContextAnswer

def error : ContextAnswer → Option RunError
  | .written err => err
  | .resolved inputs => errorOf inputs

end ContextAnswer

def WorkflowDataContext.call (c : WorkflowDataContext) :
    ContextCall → WorkflowDataContext × ContextAnswer
  | .writeOutputs requester stateID bindings payload =>
    let r := c.writeOutputs requester stateID bindings payload
    (r.1, .written r.2)
  | .resolveInputs requester bindings => (c, .resolved (c.resolveInputs requester bindings))

def WorkflowDataContext.runCalls (c : WorkflowDataContext) (calls : List ContextCall) :
    WorkflowDataContext :=
  calls.foldl (fun c call => (c.call call).1) c

/-! ### The log of outputs -/

structure Output where
  stateID : String
  key : String
  value : String
  deriving DecidableEq, Repr

def captured (stateID : String) (doc : GoMap Json) : List (Σ _ : String, String) → List Output
  | [] => []
  | b :: bs =>
    match extractScalar doc b.2 with
    | .error _ => []
    | .ok value => ⟨stateID, b.1, value⟩ :: captured stateID doc bs

def ContextCall.outputs (owner : DataContextScope) : ContextCall → List Output
  | .writeOutputs requester stateID bindings payload =>
    if requester = owner then
      match (if payload = "" then some ∅ else Json.decodeObject payload) with
      | none => []
      | some doc => captured stateID doc bindings.entries
    else []
  | .resolveInputs _ _ => []

def outputLog (owner : DataContextScope) (calls : List ContextCall) : List Output :=
  calls.flatMap (ContextCall.outputs owner)

def lastValue (p : Output → Bool) (log : List Output) : Option String :=
  (log.reverse.find? p).map Output.value

def lastWrite (stateID key : String) (log : List Output) : Option String :=
  lastValue (fun o => decide (o.stateID = stateID ∧ o.key = key)) log

theorem lastValue_append (p : Output → Bool) (log log' : List Output) :
    lastValue p (log ++ log') = (lastValue p log').or (lastValue p log) := by
  unfold lastValue
  grind

/-! ### The store keeps the log -/

def Output.under (path : String) (o : Output) : Bool := decide (outputKey o.stateID o.key = path)

theorem lookup_writeBindings (stateID : String) (doc : GoMap Json)
    (bs : List (Σ _ : String, String)) (store : GoMap String) (path : String) :
    (writeBindings stateID doc bs store).1.lookup path =
      (lastValue (Output.under path) (captured stateID doc bs)).or (store.lookup path) := by
  induction bs generalizing store with
  | nil => rfl
  | cons b bs ih =>
    rw [writeBindings, captured]
    cases extractScalar doc b.2 with
    | error reason => rfl
    | ok value =>
      simp only [ih]
      -- the first output counts only if no later one has its key
      show _ = (lastValue _ ([⟨stateID, b.1, value⟩] ++ captured stateID doc bs)).or _
      rw [lastValue_append, Option.or_assoc]
      congr 1
      by_cases hpath : outputKey stateID b.1 = path
      · simp [lastValue, Output.under, hpath]
      · simp [lastValue, Output.under, hpath, AList.lookup_insert_ne (Ne.symm hpath)]

theorem lookup_call (c : WorkflowDataContext) (call : ContextCall) (path : String) :
    (c.call call).1.store.lookup path =
      (lastValue (Output.under path) (call.outputs c.scope)).or (c.store.lookup path) := by
  cases call with
  | resolveInputs requester bindings => rfl
  | writeOutputs requester stateID bindings payload =>
    unfold WorkflowDataContext.call WorkflowDataContext.writeOutputs ContextCall.outputs
    by_cases hscope : requester = c.scope
    · subst hscope
      by_cases hempty : bindings.isEmpty = true
      · -- no bindings, so nothing is captured either
        have hentries : bindings.entries = [] := List.isEmpty_iff.mp hempty
        simp only [ne_eq, not_true_eq_false, if_false, hempty, if_true, hentries, captured]
        split <;> rfl
      · simp only [ne_eq, not_true_eq_false, if_false, hempty, if_true, Bool.false_eq_true]
        cases (if payload = "" then some ∅ else Json.decodeObject payload) with
        | none => rfl
        | some doc => exact lookup_writeBindings stateID doc bindings.entries c.store path
    · simp only [ne_eq, Ne.symm hscope, not_false_eq_true, if_true, hscope, if_false]
      rfl

@[simp] theorem scope_call (c : WorkflowDataContext) (call : ContextCall) :
    (c.call call).1.scope = c.scope := by
  cases call with
  | writeOutputs requester stateID bindings payload => exact writeOutputs_scope _ _ _ _ _
  | resolveInputs requester bindings => rfl

@[simp] theorem scope_runCalls (c : WorkflowDataContext) (calls : List ContextCall) :
    (c.runCalls calls).scope = c.scope := by
  induction calls generalizing c with
  | nil => rfl
  | cons call calls ih =>
    show ((c.call call).1.runCalls calls).scope = c.scope
    rw [ih, scope_call]

/-- **The store is the log, read by store key.** -/
theorem lookup_runCalls (c : WorkflowDataContext) (calls : List ContextCall) (path : String) :
    (c.runCalls calls).store.lookup path =
      (lastValue (Output.under path) (outputLog c.scope calls)).or (c.store.lookup path) := by
  induction calls generalizing c with
  | nil => rfl
  | cons call calls ih =>
    show ((c.call call).1.runCalls calls).store.lookup path = _
    rw [ih, scope_call, lookup_call, outputLog, outputLog, List.flatMap_cons, lastValue_append,
      Option.or_assoc]

theorem lastValue_under_of_dotFree {s k : String} (hs : '.' ∉ s.toList) (hk : '.' ∉ k.toList)
    (log : List Output) : lastValue (Output.under (outputKey s k)) log = lastWrite s k log := by
  have hsel : Output.under (outputKey s k) = fun o => decide (o.stateID = s ∧ o.key = k) := by
    funext o
    unfold Output.under
    congr 1
    apply propext
    constructor
    · exact outputKey_inj_of_dotFree hs hk
    · grind
  rw [lastWrite, hsel]

/-! ### Reading and isolation -/

inductive ReadsAs (log : List Output) (ref value : String) : Prop where
  /-- no reference: the value itself -/
  | literal (hno : hasPrefix ref dataRefPrefix = false) (hval : value = ref)
  /-- the last output for the one pair of which `ref` is the text -/
  | output {s k : String} (href : ref = refText s k)
      (honly : ∀ s' k', ref = refText s' k' → s' = s ∧ k' = k) (hlast : lastWrite s k log = some value)

inductive Unreadable (log : List Output) (ref : String) : Prop where
  | malformed (href : hasPrefix ref dataRefPrefix = true) {reason : Formatted}
      (hbad : canonicalRefKey ref = .error reason)
  | unwritten {s k : String} (href : ref = refText s k)
      (honly : ∀ s' k', ref = refText s' k' → s' = s ∧ k' = k) (hlast : lastWrite s k log = none)

/-- **One binding reads the log.** -/
theorem resolveBindingValue_runCalls (owner : DataContextScope) (calls : List ContextCall)
    (key ref : String) :
    match resolveBindingValue ((newScopedWorkflowDataContext owner).runCalls calls).store key ref with
    | .ok value => ReadsAs (outputLog owner calls) ref value
    | .error _ => Unreadable (outputLog owner calls) ref := by
  unfold resolveBindingValue
  by_cases hp : hasPrefix ref dataRefPrefix = true
  swap
  · rw [Bool.not_eq_true] at hp
    simp only [hp, Bool.not_false, if_true]
    exact .literal hp rfl
  simp only [hp, Bool.not_true, Bool.false_eq_true, if_false]
  cases hkey : canonicalRefKey ref with
  | error reason => exact .malformed hp hkey
  | ok path =>
    -- an accepted reference names a pair without dots, which its text determines
    obtain ⟨s, k, rfl, rfl, hs, hk, -, -⟩ := (canonicalRefKey_eq_ok_iff hp).mp hkey
    have honly : ∀ s' k', refText s k = refText s' k' → s' = s ∧ k' = k :=
      fun s' k' h => refText_inj_of_dotFree hs hk h.symm
    have hstore : ((newScopedWorkflowDataContext owner).runCalls calls).store.lookup (outputKey s k) =
        lastWrite s k (outputLog owner calls) := by
      rw [lookup_runCalls, lastValue_under_of_dotFree hs hk]
      simp [newScopedWorkflowDataContext]
    cases hlast : lastWrite s k (outputLog owner calls) with
    | none =>
      simp only [hstore, hlast]
      exact .unwritten rfl honly hlast
    | some value =>
      simp only [hstore, hlast]
      exact .output rfl honly hlast

theorem call_of_scope_ne {c : WorkflowDataContext} {call : ContextCall}
    (h : call.requester ≠ c.scope) :
    (c.call call).1 = c ∧ ∃ op, (c.call call).2.error = some (.scope c.scope call.requester op) := by
  cases call with
  | writeOutputs requester stateID bindings payload =>
    have hne : c.scope ≠ requester := Ne.symm h
    refine ⟨?_, "write", ?_⟩
    · simp [WorkflowDataContext.call, WorkflowDataContext.writeOutputs, hne]
    · simp [WorkflowDataContext.call, WorkflowDataContext.writeOutputs, hne, ContextAnswer.error,
        ContextCall.requester]
  | resolveInputs requester bindings =>
    have hne : c.scope ≠ requester := Ne.symm h
    refine ⟨rfl, "read", ?_⟩
    simp [WorkflowDataContext.call, WorkflowDataContext.resolveInputs, hne, ContextAnswer.error,
      ContextCall.requester, errorOf]

/-- **Read after write, and isolation.**  After any calls on a run's data context, `ResolveInputs` by
    the owner gives for every binding the literal or the output last published under the owner's scope
    for exactly the pair it names, and fails only if a binding is malformed or nothing was published
    for it; a call with any other scope fails and leaves the context as it is. -/
theorem resolveInputs_reads_last_write (owner : DataContextScope) (calls : List ContextCall) :
    (∀ bindings,
      match ((newScopedWorkflowDataContext owner).runCalls calls).resolveInputs owner bindings with
      | .ok inputs => ∀ key ref, bindings.lookup key = some ref →
          ∃ value, inputs.lookup key = some value ∧ ReadsAs (outputLog owner calls) ref value
      | .error _ => ∃ key ref, bindings.lookup key = some ref ∧
          Unreadable (outputLog owner calls) ref) ∧
    ∀ call : ContextCall, call.requester ≠ owner →
      (((newScopedWorkflowDataContext owner).runCalls calls).call call).1 =
          (newScopedWorkflowDataContext owner).runCalls calls ∧
        ∃ op, (((newScopedWorkflowDataContext owner).runCalls calls).call call).2.error =
          some (.scope owner call.requester op) := by
  set c := (newScopedWorkflowDataContext owner).runCalls calls with hc
  have howner : c.scope = owner := scope_runCalls _ _
  refine ⟨?_, ?_⟩
  · intro bindings
    cases hres : c.resolveInputs owner bindings with
    | ok inputs =>
      intro key ref href
      rw [← howner] at hres
      obtain ⟨value, hvalue, hlookup⟩ := (resolveInputs_eq_ok hres).1 key ref href
      have hread := resolveBindingValue_runCalls owner calls key ref
      grind
    | error err =>
      by_contra hnone
      -- were every binding readable, the call would succeed
      have hall : ∀ key ref, bindings.lookup key = some ref →
          ∃ value, resolveBindingValue c.store key ref = .ok value := by
        intro key ref href
        have hread := resolveBindingValue_runCalls owner calls key ref
        grind
      obtain ⟨inputs, hok⟩ := exists_resolveInputs hall
      grind
  · intro call hcall
    rw [← howner] at hcall
    have hdenied := call_of_scope_ne hcall
    grind

end Zynax.Engine
