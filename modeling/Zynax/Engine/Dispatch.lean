import Zynax.Broker.Experts
import Zynax.Engine.Interpreter
import Zynax.Golang.Grpc

namespace Zynax.Engine

open Golang Grpc Broker Registry

/-!
# A capability activity

The engine dispatches a capability to the broker, which asks the scheduler for an agent, and then
polls the task until it ends.  A failure that carries NOT_FOUND is marked as permanent; the scheduler,
its client and the broker's handler have turned several causes into that code by then.
-/

/-! ### The broker's handler -/

/-- The status code of a broker error. -/
def grpcErr (err : BrokerError) (context : Option ContextError := none) : Status :=
  match err.sentinel with
  | some .taskNotFound => ⟨.notFound, err.message⟩
  | some .noEligibleAgent => ⟨.notFound, err.message⟩
  | some .taskTerminal => ⟨.failedPrecondition, err.message⟩
  | some .invalidArgument => ⟨.invalidArgument, err.message⟩
  | none =>
    match context with
    | some .canceled => ⟨.canceled, err.message⟩
    | some .deadlineExceeded => ⟨.deadlineExceeded, err.message⟩
    | none => ⟨.internal, err.message⟩

structure RepoFailure where
  context : Option ContextError := none
  message : String

def RepoFailure.status (f : RepoFailure) (pre : String) : Status :=
  grpcErr ⟨none, ⟨pre ++ "%s", [.str f.message]⟩⟩ f.context

structure DispatchEnv where
  broker : Option CallFailure := none
  scheduler : Option String := none
  index : Index
  snapshot : Snapshot := fun _ => none
  rotation : UInt64 := 0
  save : Option RepoFailure := none
  newID : String

def selectRequest (req : DispatchRequest) : SelectAgentRequest where
  capabilityName := req.capabilityName
  expertTarget := (expertTarget req.inputPayload).getD ""

def selectFor (u : CaseTables) (env : DispatchEnv) (req : DispatchRequest) :
    Except BrokerError AgentInfo :=
  clientSelect req.capabilityName
    (match env.scheduler with
    | some err => .error ⟨.unavailable, .text err⟩
    | none => (selectAgent u env.index (selectRequest req) env.snapshot env.rotation).1)

/-- The broker's answer to a dispatch. -/
def dispatchTask (u : CaseTables) (env : DispatchEnv) (req : DispatchRequest) : Except Status String :=
  match env.broker with
  | some failure => .error failure.status
  | none =>
    match dispatchPrepare req (selectFor u env req) with
    | .error err => .error (grpcErr err)
    | .ok _ =>
      match env.save with
      | some failure => .error (failure.status "task-broker: save: ")
      | none => .ok env.newID

inductive RepoAnswer where
  | found (task : Task)
  | missing
  | failed (failure : RepoFailure)

def getTask (taskID : String) (answer : RepoAnswer) : Except Status Task :=
  if taskID = "" then .error (grpcErr (.of .invalidArgument "task_id is required"))
  else
    match answer with
    | .found task => .ok task
    | .missing =>
      .error (grpcErr ((BrokerError.of .taskNotFound "%q" [.str taskID]).wrap "task-broker: get task: "))
    | .failed failure => .error (failure.status "task-broker: get task: ")

/-! ### The domain layer -/

structure ActivityError where
  code : Option Code
  message : Formatted
  deriving DecidableEq

def ActivityError.ofStatus (pre : String) (args : List FmtArg) (st : Status) : ActivityError where
  code := some st.code
  message := ⟨pre ++ st.error.format, args ++ st.error.args⟩

/-- The event and payload of a completed task. -/
def extractResult (payload capabilityName : String) : Except Formatted ActivityResult :=
  let defaultEvent := capabilityName ++ ".completed"
  if payload = "" then .ok ⟨defaultEvent, payload⟩
  else
    match Json.decodeObject payload with
    | none => .error ⟨"engine-adapter: unmarshal result payload: %w", []⟩
    | some envelope =>
      match envelope.lookup "_event" with
      | some (.str s) => .ok ⟨if s = "" then defaultEvent else s, payload⟩
      | _ => .ok ⟨defaultEvent, payload⟩

def handleStatus (task : Task) (capabilityName : String) :
    Option (Except ActivityError ActivityResult) :=
  match task.status with
  | .completed => some ((extractResult task.resultPayload capabilityName).mapError (⟨none, ·⟩))
  | .failed =>
    let msg := (task.error.map TaskError.message).getD (.text "unknown error")
    some (.error ⟨none, ⟨"engine-adapter: capability %q failed: " ++ msg.format,
      .str capabilityName :: msg.args⟩⟩)
  | .cancelled =>
    some (.error ⟨none, ⟨"engine-adapter: capability %q task cancelled", [.str capabilityName]⟩⟩)
  | _ => none

inductive PollTurn where
  | contextDone (err : ContextError)
  | unanswered (failure : CallFailure)
  | answered (answer : RepoAnswer)

/-- `poll`: waits until the task has ended. -/
def poll (taskID capabilityName : String) : List PollTurn → Option (Except ActivityError ActivityResult)
  | [] => none
  | .contextDone err :: _ => some (.error ⟨none, ⟨"engine-adapter: %w", [.str err.text]⟩⟩)
  | .unanswered failure :: _ =>
    some (.error (.ofStatus "engine-adapter: get task %q: " [.str taskID] failure.status))
  | .answered answer :: turns =>
    match getTask taskID answer with
    | .error st => some (.error (.ofStatus "engine-adapter: get task %q: " [.str taskID] st))
    | .ok task =>
      match handleStatus task capabilityName with
      | some result => some result
      | none => poll taskID capabilityName turns

def taskOf (input : ActivityInput) : DispatchRequest where
  workflowID := input.workflowID
  capabilityName := input.capabilityName
  inputPayload := input.inputPayload
  timeoutSeconds := Int32.ofInt input.timeoutSeconds

/-- The dispatch of a capability and the polls for its result. -/
def dispatchCapabilityActivity (u : CaseTables) (env : DispatchEnv) (turns : List PollTurn)
    (input : ActivityInput) : Option (Except ActivityError ActivityResult) :=
  match dispatchTask u env (taskOf input) with
  | .error st =>
    some (.error (.ofStatus "engine-adapter: dispatch capability %q: " [.str input.capabilityName] st))
  | .ok taskID => poll taskID input.capabilityName turns

/-! ### The boundary to Temporal -/

inductive ActivityOutcome where
  | completed (result : ActivityResult)
  | nonRetryable (errorType : String) (message : Formatted)
  | retryable (message : Formatted)
  deriving DecidableEq

def isCapabilityNotFound (err : ActivityError) : Bool := err.code = some .notFound

/-- The activity, with `NotFound` marked as permanent. -/
def dispatchActivity (u : CaseTables) (env : DispatchEnv) (turns : List PollTurn)
    (input : ActivityInput) : Option ActivityOutcome :=
  (dispatchCapabilityActivity u env turns input).map fun
    | .ok result => .completed result
    | .error err =>
      if isCapabilityNotFound err then .nonRetryable "ErrCapabilityNotFound" err.message
      else .retryable
        ⟨"engine-adapter: dispatch capability: " ++ err.message.format, err.message.args⟩

def Marked (u : CaseTables) (env : DispatchEnv) (turns : List PollTurn) (input : ActivityInput) : Prop :=
  ∃ message, dispatchActivity u env turns input = some (.nonRetryable "ErrCapabilityNotFound" message)

/-! ### The causes -/

def Unprovided (index : Index) (capabilityName : String) : Prop :=
  ∀ key a, index.agents.lookup key = some a → ¬ a.Declares capabilityName

def requestOf (req : DispatchRequest) : Request where
  capability := req.capabilityName
  expertTarget := (expertTarget req.inputPayload).getD ""

structure Asked (env : DispatchEnv) (req : DispatchRequest) : Prop where
  broker : env.broker = none
  check : dispatchCheck req = none
  scheduler : env.scheduler = none

def FilteredOut (u : CaseTables) (env : DispatchEnv) (req : DispatchRequest) : Prop :=
  Asked env req ∧ eligible u env.index (requestOf req) = []

def TurnedDown (u : CaseTables) (env : DispatchEnv) (req : DispatchRequest) : Prop :=
  Asked env req ∧ ∃ res rr expert,
    select u env.index (requestOf req) env.snapshot env.rotation = (.ok res, rr) ∧
      expertTarget req.inputPayload = some expert ∧ res.chosen.name ≠ expert ∧ res.chosen.key ≠ expert

def Disappears (turns : List PollTurn) : Prop :=
  ∃ before after, turns = before ++ .answered .missing :: after ∧
    ∀ turn ∈ before, ∃ task, turn = .answered (.found task) ∧ task.status.isTerminal = false

def Lost (u : CaseTables) (env : DispatchEnv) (turns : List PollTurn) (input : ActivityInput) : Prop :=
  ∃ taskID, dispatchTask u env (taskOf input) = .ok taskID ∧ taskID ≠ "" ∧ Disappears turns

/-! ### Dispatching -/

variable {err : BrokerError} {req : DispatchRequest} {env : DispatchEnv}

def isNotFound (err : BrokerError) : Bool :=
  err.sentinel = some .taskNotFound || err.sentinel = some .noEligibleAgent

theorem grpcErr_code_iff (err : BrokerError) (context : Option ContextError) :
    (grpcErr err context).code = .notFound ↔ isNotFound err = true := by
  obtain ⟨sentinel, message⟩ := err
  unfold grpcErr isNotFound
  grind

theorem RepoFailure.status_code (f : RepoFailure) (pre : String) : (f.status pre).code ≠ .notFound := by
  intro h
  have hnf := (grpcErr_code_iff _ _).mp h
  exact absurd hnf (by simp [isNotFound])

theorem declaredSlice_error {inputSchema : String} (h : declaredSlice inputSchema = .error err) :
    err.sentinel = none := by
  unfold declaredSlice at h
  grind

theorem bindContextSlice_error {payload : String} {slice : Option ContextSlice}
    (h : bindContextSlice payload slice = .error err) : err.sentinel = none := by
  unfold bindContextSlice at h
  grind

theorem prepareExpertDispatch_error {payload expert : String} {agents : List AgentInfo} {agent : AgentInfo}
    (htarget : expertTarget payload = some expert) (hselect : selectExpert agents expert = some agent)
    (h : prepareExpertDispatch payload agents = .error err) : err.sentinel = none := by
  simp only [prepareExpertDispatch, htarget, hselect] at h
  split at h
  · rename_i e he
    rw [← Except.error.inj h]
    show e.sentinel = none
    exact declaredSlice_error he
  · split at h
    · rename_i e he
      rw [← Except.error.inj h]
      show e.sentinel = none
      exact bindContextSlice_error he
    · exact absurd h (by simp)

theorem prepareExpertDispatch_notFound_iff (payload : String) (agent : AgentInfo) :
    (∃ err, prepareExpertDispatch payload [agent] = .error err ∧ isNotFound err = true) ↔
      ∃ expert, expertTarget payload = some expert ∧ agent.name ≠ expert ∧ agent.agentID ≠ expert := by
  cases htarget : expertTarget payload with
  | none => simp [prepareExpertDispatch, htarget]
  | some expert =>
    by_cases hname : agent.name = expert ∨ agent.agentID = expert
    · have hselect : selectExpert [agent] expert = some agent := by simp [selectExpert, hname]
      refine iff_of_false ?_ ?_
      · rintro ⟨err, herr, hnf⟩
        exact absurd hnf (by simp [isNotFound, prepareExpertDispatch_error htarget hselect herr])
      · grind
    · have hselect : selectExpert [agent] expert = none := by simpa [selectExpert] using hname
      simp only [prepareExpertDispatch, htarget, hselect]
      exact iff_of_true ⟨_, rfl, rfl⟩ ⟨expert, rfl, not_or.mp hname⟩

theorem selectAgent_selectRequest (u : CaseTables) (env : DispatchEnv) (hname : req.capabilityName ≠ "") :
    selectAgent u env.index (selectRequest req) env.snapshot env.rotation =
      (((select u env.index (requestOf req) env.snapshot env.rotation).1.mapError schedulerErr).map
          fun res => ⟨some (candidateToProto res.chosen), res.rationale⟩,
        (select u env.index (requestOf req) env.snapshot env.rotation).2) := by
  unfold selectAgent
  rw [if_neg (show (selectRequest req).capabilityName ≠ "" from hname)]
  have hreq : requestOf req = ⟨(selectRequest req).capabilityName, (selectRequest req).constraints,
    (selectRequest req).policy = .roundRobin, (selectRequest req).expertTarget⟩ := rfl
  rw [hreq]
  rcases select u env.index _ env.snapshot env.rotation with ⟨err | res, rr⟩
  · rfl
  · rfl

theorem selectFor_cases (u : CaseTables) (env : DispatchEnv) (hname : req.capabilityName ≠ "") :
    (env.scheduler ≠ none ∧ ∃ err, selectFor u env req = .error err ∧ isNotFound err = false) ∨
      (env.scheduler = none ∧ eligible u env.index (requestOf req) = [] ∧
        ∃ err, selectFor u env req = .error err ∧ isNotFound err = true) ∨
      (env.scheduler = none ∧ eligible u env.index (requestOf req) ≠ [] ∧
        ∃ res rr, select u env.index (requestOf req) env.snapshot env.rotation = (.ok res, rr) ∧
          selectFor u env req = .ok (brokerView res.chosen req.capabilityName)) := by
  unfold selectFor
  cases hsched : env.scheduler with
  | some err => exact Or.inl ⟨by simp, _, rfl, rfl⟩
  | none =>
    refine Or.inr ?_
    rcases select_cases (u := u) env.index ⟨requestOf req, env.snapshot⟩ env.rotation with
      ⟨hnil, err, hsel⟩ | ⟨hrot, res, hsel, -⟩ | ⟨-, res, hsel, hmem⟩
    · refine Or.inl ⟨rfl, hnil, ?_⟩
      rw [selectAgent_selectRequest u env hname, hsel]
      cases err <;> exact ⟨_, rfl, rfl⟩
    · refine Or.inr ⟨rfl, fun hnil => ?_, res, _, hsel, ?_⟩
      · exact absurd hrot (by simp [Registry.Call.rotates, hnil])
      · rw [selectAgent_selectRequest u env hname, hsel]
        rfl
    · refine Or.inr ⟨rfl, List.ne_nil_of_mem hmem, res, _, hsel, ?_⟩
      rw [selectAgent_selectRequest u env hname, hsel]
      rfl

theorem capabilityName_of_check (h : dispatchCheck req = none) :
    req.capabilityName ≠ "" := by
  intro hempty
  simp only [dispatchCheck, hempty, if_true] at h
  grind

theorem dispatchCheck_isNotFound (h : dispatchCheck req = some err) : isNotFound err = false := by
  unfold dispatchCheck at h
  split at h
  · rw [← Option.some.inj h]
    rfl
  · split at h
    · rw [← Option.some.inj h]
      rfl
    · split at h
      · rw [← Option.some.inj h]
        rfl
      · exact absurd h (by simp)

theorem dispatchTask_notFound_iff_prepare (u : CaseTables) (hbroker : env.broker = none)
    (req : DispatchRequest) :
    (∃ st, dispatchTask u env req = .error st ∧ st.code = .notFound) ↔
      ∃ err, dispatchPrepare req (selectFor u env req) = .error err ∧ isNotFound err = true := by
  unfold dispatchTask
  simp only [hbroker]
  cases dispatchPrepare req (selectFor u env req) with
  | error err => simp [grpcErr_code_iff]
  | ok bound =>
    cases env.save with
    | none => simp
    | some failure => simp [failure.status_code]

theorem dispatchPrepare_notFound_iff (req : DispatchRequest) (selected : Except BrokerError AgentInfo) :
    (∃ err, dispatchPrepare req selected = .error err ∧ isNotFound err = true) ↔
      dispatchCheck req = none ∧ ((∃ err, selected = .error err ∧ isNotFound err = true) ∨
        ∃ agent, selected = .ok agent ∧ ∃ expert, expertTarget req.inputPayload = some expert ∧
          agent.name ≠ expert ∧ agent.agentID ≠ expert) := by
  unfold dispatchPrepare
  cases hcheck : dispatchCheck req with
  | some err => simp [dispatchCheck_isNotFound hcheck]
  | none =>
    cases selected with
    | error err =>
      have hwrap : isNotFound (err.wrap "task-broker: select agent: ") = isNotFound err := rfl
      simp [hwrap]
    | ok agent =>
      have hexpert := prepareExpertDispatch_notFound_iff req.inputPayload agent
      grind

theorem turnedDown_iff {u : CaseTables} (hask : Asked env req)
    {res : Result} {rr : UInt64}
    (hselect : select u env.index (requestOf req) env.snapshot env.rotation = (.ok res, rr)) :
    TurnedDown u env req ↔ ∃ expert, expertTarget req.inputPayload = some expert ∧
      res.chosen.name ≠ expert ∧ res.chosen.key ≠ expert := by
  constructor
  · rintro ⟨-, res', rr', expert, hselect', hexpert⟩
    grind
  · rintro ⟨expert, hexpert⟩
    exact ⟨hask, res, rr, expert, hselect, hexpert⟩

/-- **A dispatch is answered with NOT_FOUND when nobody is eligible or the chosen agent is turned
    down**, and not otherwise. -/
theorem dispatchTask_notFound_iff (u : CaseTables) (env : DispatchEnv) (req : DispatchRequest) :
    (∃ st, dispatchTask u env req = .error st ∧ st.code = .notFound) ↔
      FilteredOut u env req ∨ TurnedDown u env req := by
  -- both causes ask the scheduler
  have hasked : FilteredOut u env req ∨ TurnedDown u env req → Asked env req :=
    fun h => h.elim And.left And.left
  cases hbroker : env.broker with
  | some failure =>
    refine iff_of_false ?_ fun h => absurd (hbroker.symm.trans (hasked h).broker) (by simp)
    rintro ⟨st, hst, hcode⟩
    simp only [dispatchTask, hbroker] at hst
    rw [← Except.error.inj hst] at hcode
    exact failure.code_ne_notFound hcode
  | none =>
    rw [dispatchTask_notFound_iff_prepare u hbroker, dispatchPrepare_notFound_iff]
    by_cases hcheck : dispatchCheck req = none
    · rcases selectFor_cases u env (capabilityName_of_check hcheck) with
        ⟨hsched, err, hsel, hnf⟩ | ⟨hsched, hnil, err, hsel, hnf⟩ | ⟨hsched, hne, res, rr, hselect, hsel⟩
      · refine iff_of_false ?_ fun h => hsched (hasked h).scheduler
        simp [hsel, hnf]
      · refine iff_of_true ?_ (Or.inl ⟨⟨hbroker, hcheck, hsched⟩, hnil⟩)
        grind
      · have hfiltered : ¬ FilteredOut u env req := fun h => hne h.2
        rw [or_iff_right hfiltered, turnedDown_iff ⟨hbroker, hcheck, hsched⟩ hselect]
        simp only [hsel, hcheck, true_and, reduceCtorEq, false_and, exists_false, false_or,
          Except.ok.injEq, exists_eq_left']
        rfl
    · exact iff_of_false (fun h => hcheck h.1) fun h => hcheck (hasked h).check

/-! ### Polling -/

theorem handleStatus_eq_none_iff (task : Task) (capabilityName : String) :
    handleStatus task capabilityName = none ↔ task.status.isTerminal = false := by
  unfold handleStatus
  cases task.status <;> simp [TaskStatus.isTerminal]

theorem isTerminal_of_handleStatus {task : Task} {capabilityName : String}
    {result : Except ActivityError ActivityResult} (h : handleStatus task capabilityName = some result) :
    task.status.isTerminal = true := by
  by_contra hlive
  rw [(handleStatus_eq_none_iff _ _).mpr (by simpa using hlive)] at h
  exact absurd h (by simp)

theorem handleStatus_code {task : Task} {capabilityName : String} {err : ActivityError}
    (h : handleStatus task capabilityName = some (.error err)) : err.code = none := by
  unfold handleStatus at h
  split at h
  · cases hres : extractResult task.resultPayload capabilityName with
    | ok r => simp [hres, Except.mapError] at h
    | error e =>
      simp only [hres, Except.mapError, Option.some.injEq, Except.error.injEq] at h
      rw [← h]
  · grind
  · grind
  · exact absurd h (by simp)

theorem disappears_cons {turn : PollTurn} {turns : List PollTurn} :
    Disappears (turn :: turns) ↔ turn = .answered .missing ∨
      (∃ task, turn = .answered (.found task) ∧ task.status.isTerminal = false) ∧ Disappears turns := by
  constructor
  · rintro ⟨before, after, heq, hbefore⟩
    cases before with
    | nil => exact Or.inl (List.cons.inj heq).1
    | cons b before =>
      obtain ⟨rfl, rfl⟩ := List.cons.inj heq
      rw [List.forall_mem_cons] at hbefore
      exact Or.inr ⟨hbefore.1, before, after, rfl, hbefore.2⟩
  · rintro (rfl | ⟨hturn, before, after, rfl, hbefore⟩)
    · exact ⟨[], turns, rfl, by simp⟩
    · exact ⟨turn :: before, after, rfl, List.forall_mem_cons.mpr ⟨hturn, hbefore⟩⟩

/-- **Polling is answered with NOT_FOUND when the task disappears**, and not otherwise. -/
theorem poll_notFound_iff (taskID capabilityName : String) (turns : List PollTurn) :
    (∃ err, poll taskID capabilityName turns = some (.error err) ∧ isCapabilityNotFound err = true) ↔
      taskID ≠ "" ∧ Disappears turns := by
  induction turns with
  | nil => simp [poll, Disappears]
  | cons turn turns ih =>
    rw [disappears_cons]
    cases turn with
    | contextDone err => simp [poll, isCapabilityNotFound]
    | unanswered failure =>
      have hne := failure.code_ne_notFound
      simp [poll, isCapabilityNotFound, ActivityError.ofStatus, hne]
    | answered answer =>
      by_cases hid : taskID = ""
      · simp [poll, getTask, hid, isCapabilityNotFound, ActivityError.ofStatus, grpcErr, BrokerError.of]
      · cases answer with
        | missing =>
          simp [poll, getTask, hid, isCapabilityNotFound, ActivityError.ofStatus, grpcErr, BrokerError.of,
            BrokerError.wrap]
        | failed failure =>
          have hne := failure.status_code "task-broker: get task: "
          simp [poll, getTask, hid, isCapabilityNotFound, ActivityError.ofStatus, hne]
        | found task =>
          cases hstatus : handleStatus task capabilityName with
          | some result =>
            -- the task has ended, and no error of its end carries a code
            refine iff_of_false ?_ (by simp [isTerminal_of_handleStatus hstatus])
            rintro ⟨err, herr, hnf⟩
            simp only [poll, getTask, if_neg hid, hstatus, Option.some.injEq] at herr
            rw [isCapabilityNotFound, handleStatus_code (herr ▸ hstatus)] at hnf
            exact absurd hnf (by simp)
          | none =>
            have hlive := (handleStatus_eq_none_iff _ _).mp hstatus
            simp only [poll, getTask, if_neg hid, hstatus]
            simp [ih, hlive]

/-! ### What a mark means -/

/-- **The three causes of a mark.** -/
theorem activity_marked_iff (u : CaseTables) (env : DispatchEnv) (turns : List PollTurn)
    (input : ActivityInput) :
    Marked u env turns input ↔
      FilteredOut u env (taskOf input) ∨ TurnedDown u env (taskOf input) ∨ Lost u env turns input := by
  have hmark : Marked u env turns input ↔ ∃ err,
      dispatchCapabilityActivity u env turns input = some (.error err) ∧
        isCapabilityNotFound err = true := by
    unfold Marked dispatchActivity
    rcases dispatchCapabilityActivity u env turns input with - | (err | result)
    · simp
    · cases hnf : isCapabilityNotFound err <;> simp [hnf]
    · simp
  rw [hmark, ← or_assoc, ← dispatchTask_notFound_iff]
  unfold dispatchCapabilityActivity Lost
  cases hdispatch : dispatchTask u env (taskOf input) with
  | error st => simp [isCapabilityNotFound, ActivityError.ofStatus]
  | ok taskID =>
    dsimp only
    rw [poll_notFound_iff]
    simp

theorem candidates_eq_nil_iff (ops : List Op) (capabilityName : String) :
    (Index.after ops).candidates capabilityName = [] ↔ Unprovided (Index.after ops) capabilityName := by
  have hcons := consistent_after ops
  constructor
  · intro hnil key a ha hdecl
    have hkey : a.key = key := keyed_surviving ops key a ((represents_after ops).agents key ▸ ha)
    have hmem := (hcons.mem_candidates capabilityName a).mpr ⟨hkey.symm ▸ ha, hdecl⟩
    grind
  · intro hnone
    rw [List.eq_nil_iff_forall_not_mem]
    intro a ha
    obtain ⟨hstored, hdecl⟩ := (hcons.mem_candidates capabilityName a).mp ha
    exact hnone a.key a hstored hdecl

theorem eligible_of_unprovided (u : CaseTables) {ops : List Op} {req : Request}
    (h : Unprovided (Index.after ops) req.capability) : eligible u (Index.after ops) req = [] := by
  have hsub := eligible_sublist (u := u) (Index.after ops) req
  rw [(candidates_eq_nil_iff ops req.capability).mpr h] at hsub
  grind

theorem not_unprovided_of_dispatched {u : CaseTables} {ops : List Op}
    (hindex : env.index = Index.after ops) {taskID : String}
    (h : dispatchTask u env req = .ok taskID) : ¬ Unprovided env.index req.capabilityName := by
  intro hnone
  unfold dispatchTask at h
  cases hbroker : env.broker with
  | some failure => simp [hbroker] at h
  | none =>
    simp only [hbroker] at h
    cases hcheck : dispatchCheck req with
    | some err => simp [dispatchPrepare, hcheck] at h
    | none =>
      rcases selectFor_cases u env (capabilityName_of_check hcheck) with
        ⟨-, err, hsel, -⟩ | ⟨-, -, err, hsel, -⟩ | ⟨-, hne, -⟩
      · simp [dispatchPrepare, hcheck, hsel] at h
      · simp [dispatchPrepare, hcheck, hsel] at h
      · rw [hindex] at hne hnone
        exact hne (eligible_of_unprovided u hnone)

/-- **A mark means that nobody provides the capability, exactly when nobody was filtered out or turned
    down and the task was not lost**, whatever the metrics, the counter, the calls and the polling
    loop do. -/
theorem marks_unprovided_iff {u : CaseTables} {ops : List Op} {env : DispatchEnv}
    (hindex : env.index = Index.after ops) (turns : List PollTurn) (input : ActivityInput) :
    (Marked u env turns input → Unprovided env.index input.capabilityName) ↔
      (FilteredOut u env (taskOf input) → Unprovided env.index input.capabilityName) ∧
        ¬ TurnedDown u env (taskOf input) ∧ ¬ Lost u env turns input := by
  have hturned : TurnedDown u env (taskOf input) → ¬ Unprovided env.index input.capabilityName := by
    rintro ⟨-, res, rr, expert, hsel, -⟩ hnone
    have hmem := chosen_mem_eligible hsel
    rw [hindex] at hmem hnone
    rw [eligible_of_unprovided u hnone] at hmem
    exact absurd hmem (by simp)
  have hlost : Lost u env turns input → ¬ Unprovided env.index input.capabilityName := by
    rintro ⟨taskID, hdispatch, -⟩
    exact not_unprovided_of_dispatched hindex hdispatch
  rw [activity_marked_iff]
  tauto

/-! ### A reviewer that is starting -/

def reviewer (ready : Bool) : Candidate where
  key := "default/rev-1"
  name := "rev-1"
  endpoint := "rev-1.default.svc:50051"
  ready := ready
  capabilities := [{ id := "review" }]

def reviewerEnv (ready : Bool) : DispatchEnv where
  index := Index.after [.upsert (reviewer ready)]
  newID := "task-1"

def reviewInput : ActivityInput where
  capabilityName := "review"
  inputPayload := "\x7b\x7d"
  workflowID := "wf-1"
  timeoutSeconds := 60

theorem reviewer_provides (ready : Bool) : ¬ Unprovided (reviewerEnv ready).index "review" := by
  intro h
  refine h "default/rev-1" (reviewer ready) ?_ (by simp [Candidate.Declares, reviewer])
  rfl

theorem marks_unprovided_review :
    (Marked asciiTables (reviewerEnv true) [] reviewInput → Unprovided (reviewerEnv true).index "review") ↔
      (FilteredOut asciiTables (reviewerEnv true) (taskOf reviewInput) →
          Unprovided (reviewerEnv true).index "review") ∧
        ¬ TurnedDown asciiTables (reviewerEnv true) (taskOf reviewInput) ∧
        ¬ Lost asciiTables (reviewerEnv true) [] reviewInput :=
  marks_unprovided_iff (show (reviewerEnv true).index = Index.after [.upsert (reviewer true)] from rfl) []
    reviewInput

def restartTurns : List PollTurn :=
  [.answered (.found { workflowID := "wf-1", capabilityName := "review", inputPayload := "\x7b\x7d",
                       status := .dispatched }),
    .answered .missing]

/-- **A capability that is provided fails for good.**  The only reviewer is not ready yet, or it is
    and the broker forgets the task while the engine polls: both failures are marked as the permanent
    one. -/
theorem provided_capability_marked :
    Marked asciiTables (reviewerEnv false) [] reviewInput ∧
      ¬ Unprovided (reviewerEnv false).index "review" ∧
      Marked asciiTables (reviewerEnv true) restartTurns reviewInput ∧
      ¬ Unprovided (reviewerEnv true).index "review" := by
  refine ⟨⟨⟨"engine-adapter: dispatch capability %q: rpc error: code = %s desc = " ++
        "task-broker: select agent: %w: no candidate for %q survives filter: %s",
      [.str "review", .str "NotFound", .str "no eligible agent for capability", .str "review",
        .str "ready"]⟩, by decide +kernel⟩, reviewer_provides false,
    ⟨⟨"engine-adapter: get task %q: rpc error: code = %s desc = task-broker: get task: %w: %q",
      [.str "task-1", .str "NotFound", .str "task not found", .str "task-1"]⟩, by decide +kernel⟩,
    reviewer_provides true⟩

end Zynax.Engine
