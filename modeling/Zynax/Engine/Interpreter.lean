import Zynax.Compiler.IR
import Zynax.Engine.DataContext

namespace Zynax.Engine

open Golang Compiler

/-!
# The IR interpreter

`IRInterpreter.Run`: the loop that drives the state machine of a compiled workflow, as a step
function on an explicit run state.
-/

/-! ### Activities, events and the history of a run -/

structure ActivityInput where
  capabilityName : String
  inputPayload : String
  workflowID : String
  timeoutSeconds : Int
  deriving DecidableEq, Repr

structure ActivityResult where
  eventType : String
  payload : String
  deriving DecidableEq, Repr

inductive Lifecycle where
  | stateEntered | stateExited | completed | failed
  deriving DecidableEq, Repr

def Lifecycle.eventType : Lifecycle → String
  | .stateEntered => "zynax.workflow.state.entered"
  | .stateExited => "zynax.workflow.state.exited"
  | .completed => "zynax.workflow.completed"
  | .failed => "zynax.workflow.failed"

structure Event where
  kind : Lifecycle
  workflowID : String
  stateID : String
  payload : Option String := none
  deriving DecidableEq, Repr

inductive Obs where
  | publish (e : Event)
  | dispatch (stateID : String) (input : ActivityInput)
  deriving DecidableEq, Repr

abbrev Log : Type := List Obs

/-- What a run is executed with: evaluator, templates, agents, bus. -/
structure Runtime where
  cel : String → GoMap String → Bool
  render : String → GoMap String → Except String String
  dispatchCapability : Log → ActivityInput → Except String ActivityResult
  publish : Log → Event → Option String

/-! ### Guards and transitions -/

/-- A blank condition is false. -/
def evalGuard (cel : String → GoMap String → Bool) (expr : String) (ctx : GoMap String) : Bool :=
  if trimSpace expr = "" then false else cel (trimSpace expr) ctx

def guardsMatch (cel : String → GoMap String → Bool) (conditions ctx : GoMap String) : Bool :=
  conditions.entries.all (fun e => evalGuard cel e.2 ctx)

def resolveFrom (cel : String → GoMap String → Bool) (eventType : String) (ctx : GoMap String) :
    Nat → List TransitionIR → Option (Nat × TransitionIR)
  | _, [] => none
  | i, t :: ts =>
    -- a state without synchronous actions has the empty event, which every transition matches
    if eventType ≠ "" ∧ t.eventType ≠ eventType then resolveFrom cel eventType ctx (i + 1) ts
    else if guardsMatch cel t.conditions ctx then some (i, t)
    else resolveFrom cel eventType ctx (i + 1) ts

/-- The first transition on the event whose conditions hold. -/
def resolveTransition (cel : String → GoMap String → Bool) (transitions : List TransitionIR)
    (eventType : String) (ctx : GoMap String) : Option (Nat × TransitionIR) :=
  resolveFrom cel eventType ctx 0 transitions

theorem mem_of_resolveFrom {cel : String → GoMap String → Bool} {eventType : String}
    {ctx : GoMap String} {i j : Nat} {ts : List TransitionIR} {t : TransitionIR}
    (h : resolveFrom cel eventType ctx i ts = some (j, t)) :
    t ∈ ts ∧ (eventType ≠ "" → t.eventType = eventType) := by
  induction ts generalizing i with
  | nil => exact absurd h (by simp [resolveFrom])
  | cons u ts ih =>
    rw [resolveFrom] at h
    grind

/-! ### Templates and payloads -/

def escapeContext (ctx : GoMap String) : GoMap String :=
  ctx.mapVal (fun _ v => String.ofList (Json.escapeBody v))

/-- Renders an input with the context escaped for JSON. -/
def resolveTemplate (render : String → GoMap String → Except String String) (tmpl : String)
    (ctx : GoMap String) : Except String String :=
  render tmpl (escapeContext ctx)

/-- The strings of a result join the context. -/
def mergePayload (ctx : GoMap String) (payload : String) : GoMap String :=
  match Json.unmarshal payload with
  | none => ctx
  | some doc =>
    if doc.inRange then
      match doc.toFields with
      | none => ctx
      | some m =>
        m.entries.foldl (fun ctx e =>
          match e.2 with
          | .str s => if e.1 = "_event" then ctx else AList.insert e.1 s ctx
          | _ => ctx) ctx
    else ctx

def marshalTerminalPayload (outputs : GoMap String) : String :=
  (Json.obj [("outputs", Json.ofMap (outputs.mapVal (fun _ v => Json.str v)))]).marshal

/-! ### Executing actions -/

structure Effects where
  data : WorkflowDataContext
  log : Log

def timeoutSeconds (timeout : Option Duration) : Int :=
  match timeout with
  | none => 0
  | some d => min d.seconds (2 ^ 31 - 1)

/-- The synchronous actions of a state, one after the other. -/
def executeActions (rt : Runtime) (ir : WorkflowIR) (stateID : String) (ctx : GoMap String)
    (scope : DataContextScope) :
    List ActionIR → Option ActivityResult → Effects → Except RunError ActivityResult × Effects
  | [], last, eff => (.ok (last.getD ⟨"", ""⟩), eff)
  | action :: rest, last, eff =>
    -- asynchronous actions are skipped: nothing dispatches them
    if action.async then executeActions rt ir stateID ctx scope rest last eff
    else
      match eff.data.resolveInputs scope action.inputBindings with
      | .error err => (.error err, eff)
      | .ok inputs =>
        match resolveTemplate rt.render action.inputTemplateJson (mergeInputs ctx inputs) with
        | .error err => (.error (.template action.capability err), eff)
        | .ok resolved =>
          let input : ActivityInput :=
            { capabilityName := action.capability
              inputPayload := resolved
              workflowID := ir.workflowId
              timeoutSeconds := timeoutSeconds action.timeout }
          let log := eff.log ++ [.dispatch stateID input]
          match rt.dispatchCapability eff.log input with
          | .error err => (.error (.action action.capability err), { eff with log := log })
          | .ok result =>
            -- what was stored before a failing binding stays stored
            let w := eff.data.writeOutputs scope stateID action.outputBindings result.payload
            match w.2 with
            | some err => (.error err, ⟨w.1, log⟩)
            | none => executeActions rt ir stateID ctx scope rest (some result) ⟨w.1, log⟩

/-! ### The loop -/

structure RunState where
  currentState : String
  ctx : GoMap String
  data : WorkflowDataContext
  log : Log

inductive StepResult where
  | next (st : RunState)
  | done (result : Except RunError (GoMap String)) (log : Log)

def runScope (ir : WorkflowIR) : DataContextScope := ⟨ir.workflowId, ir.nameSpace⟩

def initRun (ir : WorkflowIR) : RunState :=
  { currentState := ir.initialState
    ctx := ∅
    data := newScopedWorkflowDataContext (runScope ir)
    log := [] }

def eventFor (ir : WorkflowIR) (stateID : String) (kind : Lifecycle) (payload : Option String := none) :
    Obs :=
  .publish ⟨kind, ir.workflowId, stateID, payload⟩

def failRun (ir : WorkflowIR) (stateID : String) (err : RunError) (log : Log) : StepResult :=
  .done (.error err) (log ++ [eventFor ir stateID .failed])

/-- The end of a run, with its outputs. -/
def captureTerminalOutputs (ir : WorkflowIR) (state : StateIR) (st : RunState) : StepResult :=
  match st.data.resolveInputs (runScope ir) state.outputs with
  | .error err => failRun ir st.currentState err st.log
  | .ok outputs =>
    match enforceOutputBounds outputs with
    | some err => failRun ir st.currentState err st.log
    | none =>
      .done (.ok outputs)
        (st.log ++ [eventFor ir st.currentState .completed (some (marshalTerminalPayload outputs))])

def step (rt : Runtime) (ir : WorkflowIR) (st : RunState) : StepResult :=
  match findState ir st.currentState with
  | none => .done (.error (.stateNotFound st.currentState)) st.log
  | some state =>
    if state.type = .terminal then captureTerminalOutputs ir state st
    else
      let entered : Event := ⟨.stateEntered, ir.workflowId, st.currentState, none⟩
      let log := st.log ++ [.publish entered]
      match rt.publish st.log entered with
      -- unlike the failures below this ends the run without a failed event
      | some err => .done (.error (.publishEntered err)) log
      | none =>
        let r := executeActions rt ir state.id st.ctx (runScope ir) state.actions none ⟨st.data, log⟩
        match r.1 with
        | .error err => failRun ir st.currentState err r.2.log
        | .ok result =>
          match resolveTransition rt.cel state.transitions result.eventType st.ctx with
          | none => failRun ir st.currentState (.noTransition result.eventType) r.2.log
          | some (_, transition) =>
            .next
              { currentState := transition.targetState
                ctx := mergePayload st.ctx result.payload
                data := r.2.data
                log := r.2.log ++ [eventFor ir st.currentState .stateExited] }

def run (rt : Runtime) (ir : WorkflowIR) :
    Nat → RunState → Option (Except RunError (GoMap String) × Log)
  | 0, _ => none
  | fuel + 1, st =>
    match step rt ir st with
    | .next st' => run rt ir fuel st'
    | .done result log => some (result, log)

/-! ### What an iteration can do -/

variable {ir : WorkflowIR} {stateID id : String} {actions : List ActionIR}
  {scope : DataContextScope}

def DispatchOf (ir : WorkflowIR) (stateID : String) (actions : List ActionIR) (o : Obs) : Prop :=
  ∃ a ∈ actions, a.async = false ∧ ∃ input, o = .dispatch stateID input ∧
    input.capabilityName = a.capability ∧ input.workflowID = ir.workflowId

theorem DispatchOf.cons {a : ActionIR} {o : Obs} (h : DispatchOf ir stateID actions o) :
    DispatchOf ir stateID (a :: actions) o := by
  obtain ⟨b, hb, hrest⟩ := h
  exact ⟨b, List.mem_cons_of_mem a hb, hrest⟩

def PublishedBy (stateID : String) (actions : List ActionIR) (key : String) : Prop :=
  ∃ a ∈ actions, a.async = false ∧ ∃ k ∈ a.outputBindings.keys, key = outputKey stateID k

theorem PublishedBy.cons {a : ActionIR} {key : String}
    (h : PublishedBy stateID actions key) : PublishedBy stateID (a :: actions) key := by
  obtain ⟨b, hb, hrest⟩ := h
  exact ⟨b, List.mem_cons_of_mem a hb, hrest⟩

structure Executed (ir : WorkflowIR) (stateID : String) (actions : List ActionIR) (eff : Effects)
    (r : Except RunError ActivityResult × Effects) : Prop where
  log : ∃ ds, r.2.log = eff.log ++ ds ∧ ∀ o ∈ ds, DispatchOf ir stateID actions o
  scope : r.2.data.scope = eff.data.scope
  store : ∀ key ∈ r.2.data.store, key ∈ eff.data.store ∨ PublishedBy stateID actions key
  error : ∀ id, r.1 ≠ .error (.stateNotFound id)

theorem Executed.refl {eff : Effects}
    {r : Except RunError ActivityResult} (h : ∀ id, r ≠ .error (.stateNotFound id)) :
    Executed ir stateID actions eff (r, eff) :=
  ⟨⟨[], by simp, by simp⟩, rfl, fun _ hkey => Or.inl hkey, h⟩

theorem writeBindings_error {doc : GoMap Json}
    {bs : List (Σ _ : String, String)} {store : GoMap String} {err : RunError}
    (h : (writeBindings stateID doc bs store).2 = some err) :
    ∃ key ref reason, err = .dataReference key ref reason := by
  induction bs generalizing store with
  | nil => exact absurd h (by simp [writeBindings])
  | cons b bs ih =>
    rw [writeBindings] at h
    grind

theorem writeOutputs_ne_stateNotFound {c : WorkflowDataContext} {bindings : GoMap String}
    {payload : String} :
    (c.writeOutputs scope stateID bindings payload).2 ≠ some (.stateNotFound id) := by
  intro h
  unfold WorkflowDataContext.writeOutputs at h
  split at h
  · exact absurd h (by simp)
  split at h
  · exact absurd h (by simp)
  split at h
  · exact absurd h (by simp)
  · obtain ⟨_, _, _, herr⟩ := writeBindings_error h
    exact absurd herr (by simp)

theorem resolveInputs_ne_stateNotFound {c : WorkflowDataContext} {bindings : GoMap String} :
    c.resolveInputs scope bindings ≠ .error (.stateNotFound id) := by
  intro h
  by_cases hscope : c.scope = scope
  · subst hscope
    obtain ⟨_, _, _, _, herr⟩ := resolveInputs_eq_error h
    exact absurd herr (by simp)
  · simp only [WorkflowDataContext.resolveInputs, ne_eq, hscope, not_false_eq_true, if_true] at h
    exact absurd h (by simp)

/-- **Executing the actions of a state**, whatever the executor answers. -/
theorem executeActions_executed (rt : Runtime) (ir : WorkflowIR) (stateID : String)
    (ctx : GoMap String) (scope : DataContextScope) (actions : List ActionIR)
    (last : Option ActivityResult) (eff : Effects) :
    Executed ir stateID actions eff (executeActions rt ir stateID ctx scope actions last eff) := by
  induction actions generalizing last eff with
  | nil => exact Executed.refl (by simp)
  | cons action rest ih =>
    rw [executeActions]
    split
    · -- an asynchronous action is skipped
      obtain ⟨⟨ds, hds, hof⟩, hscope, hstore, herr⟩ := ih last eff
      exact ⟨⟨ds, hds, fun o ho => (hof o ho).cons⟩, hscope,
        fun key hkey => (hstore key hkey).imp_right PublishedBy.cons, herr⟩
    rename_i hsync
    split
    · rename_i err hres
      exact Executed.refl fun id h =>
        resolveInputs_ne_stateNotFound (hres.trans (congrArg Except.error (Except.error.inj h)))
    split
    · exact Executed.refl (by simp)
    rename_i resolved _
    -- from here on the action has been dispatched
    have hd : DispatchOf ir stateID (action :: rest)
        (.dispatch stateID ⟨action.capability, resolved, ir.workflowId, timeoutSeconds action.timeout⟩) :=
      ⟨action, by simp, by simpa using hsync, _, rfl, rfl, rfl⟩
    have hwritten : ∀ payload, ∀ key ∈
        (eff.data.writeOutputs scope stateID action.outputBindings payload).1.store,
        key ∈ eff.data.store ∨ PublishedBy stateID (action :: rest) key := by
      intro payload key hkey
      refine (mem_writeOutputs hkey).imp_right fun hk => ?_
      exact ⟨action, by simp, by simpa using hsync, hk⟩
    dsimp only
    split
    · exact ⟨⟨_, rfl, by simpa using hd⟩, rfl, fun _ hkey => Or.inl hkey, by simp⟩
    rename_i result _
    split
    · rename_i err hw
      refine ⟨⟨_, rfl, by simpa using hd⟩, writeOutputs_scope .., hwritten result.payload, ?_⟩
      intro id h
      exact writeOutputs_ne_stateNotFound (hw.trans (congrArg some (Except.error.inj h)))
    · obtain ⟨⟨ds, hds, hof⟩, hscope, hstore, herr⟩ := ih (some result)
        ⟨(eff.data.writeOutputs scope stateID action.outputBindings result.payload).1,
          eff.log ++ [.dispatch stateID
            ⟨action.capability, resolved, ir.workflowId, timeoutSeconds action.timeout⟩]⟩
      refine ⟨⟨_, hds.trans (List.append_assoc _ _ _), ?_⟩, hscope.trans (writeOutputs_scope ..), ?_, herr⟩
      · intro o ho
        rcases List.mem_append.mp ho with ho | ho
        · grind
        · exact (hof o ho).cons
      · intro key hkey
        rcases hstore key hkey with hkey | hkey
        · grind
        · exact Or.inr hkey.cons

theorem executeActions_dispatches (rt : Runtime) (ir : WorkflowIR) (stateID : String)
    (ctx : GoMap String) {action : ActionIR} (rest : List ActionIR)
    (last : Option ActivityResult) {eff : Effects} {inputs : GoMap String} {resolved : String}
    (hsync : action.async = false)
    (hinputs : eff.data.resolveInputs scope action.inputBindings = .ok inputs)
    (htmpl : resolveTemplate rt.render action.inputTemplateJson (mergeInputs ctx inputs) = .ok resolved) :
    ∃ more, (executeActions rt ir stateID ctx scope (action :: rest) last eff).2.log = eff.log ++
      .dispatch stateID ⟨action.capability, resolved, ir.workflowId, timeoutSeconds action.timeout⟩ ::
        more := by
  simp only [executeActions, hsync, Bool.false_eq_true, if_false, hinputs, htmpl]
  split
  · simp
  · rename_i result _
    split
    · simp
    · -- the actions after it only add to the history
      obtain ⟨ds, hds, -⟩ := (executeActions_executed rt ir stateID ctx scope rest (some result)
        ⟨(eff.data.writeOutputs scope stateID action.outputBindings result.payload).1,
          eff.log ++ [.dispatch stateID
            ⟨action.capability, resolved, ir.workflowId, timeoutSeconds action.timeout⟩]⟩).log
      grind

inductive StepCase (rt : Runtime) (ir : WorkflowIR) (st : RunState) : StepResult → Prop
  | unknown (hfind : findState ir st.currentState = none) :
      StepCase rt ir st (.done (.error (.stateNotFound st.currentState)) st.log)
  | completed {state : StateIR} {outputs : GoMap String}
      (hfind : findState ir st.currentState = some state) (hterm : state.type = .terminal) :
      StepCase rt ir st (.done (.ok outputs) (st.log ++
        [eventFor ir st.currentState .completed (some (marshalTerminalPayload outputs))]))
  | terminalFailed {state : StateIR} {err : RunError}
      (hfind : findState ir st.currentState = some state) (hterm : state.type = .terminal)
      (herr : ∀ id, err ≠ .stateNotFound id) :
      StepCase rt ir st (.done (.error err) (st.log ++ [eventFor ir st.currentState .failed]))
  | notEntered {state : StateIR} {err : String}
      (hfind : findState ir st.currentState = some state) (hterm : state.type ≠ .terminal)
      (hpub : rt.publish st.log ⟨.stateEntered, ir.workflowId, st.currentState, none⟩ = some err) :
      StepCase rt ir st (.done (.error (.publishEntered err))
        (st.log ++ [eventFor ir st.currentState .stateEntered]))
  | failed {state : StateIR} {ds : Log} {err : RunError}
      (hfind : findState ir st.currentState = some state) (hterm : state.type ≠ .terminal)
      (hds : ∀ o ∈ ds, DispatchOf ir st.currentState state.actions o)
      (herr : ∀ id, err ≠ .stateNotFound id) :
      StepCase rt ir st (.done (.error err) (st.log ++
        (eventFor ir st.currentState .stateEntered :: (ds ++ [eventFor ir st.currentState .failed]))))
  | exited {state : StateIR} {ds : Log} {t : TransitionIR} {st' : RunState}
      (hfind : findState ir st.currentState = some state) (hterm : state.type ≠ .terminal)
      (hds : ∀ o ∈ ds, DispatchOf ir st.currentState state.actions o)
      (ht : t ∈ state.transitions) (htarget : st'.currentState = t.targetState)
      (hscope : st'.data.scope = st.data.scope)
      (hstore : ∀ key ∈ st'.data.store, key ∈ st.data.store ∨
        PublishedBy st.currentState state.actions key)
      (hlog : st'.log = st.log ++
        (eventFor ir st.currentState .stateEntered ::
          (ds ++ [eventFor ir st.currentState .stateExited]))) :
      StepCase rt ir st (.next st')

theorem enforceOutputBounds_ne_stateNotFound {outputs : GoMap String} :
    enforceOutputBounds outputs ≠ some (.stateNotFound id) := by
  have hloop : ∀ (os : List (Σ _ : String, String)) (total : Nat) (err : RunError),
      outputsTotal os total = .error err → ∃ k s l, err = .outputSize k s l := by
    intro os
    induction os with
    | nil => intro total err h; exact absurd h (by simp [outputsTotal])
    | cons o os ih =>
      intro total err h
      rw [outputsTotal] at h
      grind
  intro h
  rw [enforceOutputBounds] at h
  grind

theorem findState_id {state : StateIR}
    (h : findState ir id = some state) : state.id = id := by
  simpa using List.find?_some h

/-- **One iteration does one of six things.** -/
theorem step_cases (rt : Runtime) (ir : WorkflowIR) (st : RunState) :
    StepCase rt ir st (step rt ir st) := by
  unfold step
  split
  · rename_i hfind
    exact .unknown hfind
  rename_i state hfind
  split
  · rename_i hterm
    unfold captureTerminalOutputs
    split
    · rename_i err herr
      exact .terminalFailed hfind hterm fun id h => resolveInputs_ne_stateNotFound (h ▸ herr)
    · split
      · rename_i err herr
        exact .terminalFailed hfind hterm fun id h => enforceOutputBounds_ne_stateNotFound (h ▸ herr)
      · exact .completed hfind hterm
  rename_i hterm
  dsimp only
  split
  · rename_i err hpub
    exact .notEntered hfind hterm hpub
  have hexec := executeActions_executed rt ir state.id st.ctx (runScope ir) state.actions none
    ⟨st.data, st.log ++ [.publish ⟨.stateEntered, ir.workflowId, st.currentState, none⟩]⟩
  -- the actions run under the id in the IR, which is the current one
  rw [findState_id hfind] at hexec ⊢
  obtain ⟨⟨ds, hlog, hds⟩, hscope, hstore, herr⟩ := hexec
  split
  · rename_i err hres
    rw [failRun, hlog, List.append_assoc, List.append_assoc]
    exact .failed hfind hterm hds fun id h => herr id (h ▸ hres)
  rename_i result hres
  split
  · rw [failRun, hlog, List.append_assoc, List.append_assoc]
    exact .failed hfind hterm hds (by simp)
  · rename_i i t hres'
    refine .exited hfind hterm hds (mem_of_resolveFrom hres').1 rfl hscope hstore ?_
    simp only [hlog, List.append_assoc]
    rfl

end Zynax.Engine
