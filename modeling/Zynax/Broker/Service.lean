import Zynax.Concurrency.Threads
import Zynax.Broker.ContextSlice

namespace Zynax.Broker

open Golang Concurrency

/-!
# The task service

`TaskService` as a program of threads over the repository: every call and every execution is a
thread, cut at its calls of the repository, so that one step makes one such call at most.

Lifecycle events are published best-effort and never affect a task; they are left out.
-/

/-! ### Executing a capability -/

inductive TaskEventType where
  | unspecified | progress | completed | failed
  | other (n : Int32)
  deriving DecidableEq, Repr

structure CapabilityError where
  code : String
  message : String
  details : GoMap String := ∅
  deriving DecidableEq

structure TaskEvent where
  eventType : TaskEventType
  payload : String := ""
  error : Option CapabilityError := none
  deriving DecidableEq

inductive OpenError where
  | dial (err : String)
  | requestID (err : String)
  | execute (err : String)
  deriving DecidableEq, Repr

structure AgentStream where
  openErr : Option OpenError := none
  events : List TaskEvent := []
  ending : Option String := none
  deriving DecidableEq

structure ExecResult where
  resultPayload : String := ""
  taskErr : Option TaskError := none
  execErr : Option Formatted := none
  deriving DecidableEq

def ExecResult.failed (r : ExecResult) : Bool := r.execErr.isSome || r.taskErr.isSome

def OpenError.message (agentID : String) : OpenError → Formatted
  | .dial err => ⟨"task-broker: dial agent %q: %w", [.str agentID, .str err]⟩
  | .requestID err => ⟨"task-broker: generate request ID: %w", [.str err]⟩
  | .execute err => ⟨"task-broker: agent %q execute: %w", [.str agentID, .str err]⟩

def TaskEvent.taskError (ev : TaskEvent) : TaskError :=
  match ev.error with
  | none => {}
  | some ce => { code := ce.code, message := .text ce.message, details := ce.details }

def readEvents (agentID : String) (ending : Option String) : List TaskEvent → ExecResult
  | [] =>
    match ending with
    -- the loop is left at EOF, and nothing says that the agent never finished
    | none => {}
    | some err => { execErr := some ⟨"task-broker: agent %q stream: %w", [.str agentID, .str err]⟩ }
  | ev :: evs =>
    match ev.eventType with
    | .completed => { resultPayload := ev.payload }
    | .failed => { taskErr := some ev.taskError }
    -- progress, and whatever the broker does not know
    | _ => readEvents agentID ending evs

def execute (agent : AgentInfo) (stream : AgentStream) : ExecResult :=
  match stream.openErr with
  | some err => { execErr := some (err.message agent.agentID) }
  | none => readEvents agent.agentID stream.ending stream.events

/-! ### Calls and threads -/

structure DispatchRequest where
  workflowID : String
  capabilityName : String
  inputPayload : String
  timeoutSeconds : Int32 := 0
  maxRetries : Int32 := 0
  deriving DecidableEq

structure AckRequest where
  taskID : String
  status : TaskStatus
  resultPayload : String := ""
  error : Option TaskError := none
  deriving DecidableEq

inductive Call where
  | dispatch (req : DispatchRequest)
  | acknowledge (req : AckRequest)
  | cancel (taskID : String)
  | relaunch (taskID : String) (agent : AgentInfo)
  deriving DecidableEq

inductive Outcome where
  /-- the call returned an error -/
  | refused (err : BrokerError)
  | dispatched (taskID : String) (createdAt : Int)
  | acknowledged (taskID : String) (resulting : TaskStatus)
  | cancelled (taskID : String) (completedAt : Option Int)
  /-- the goroutine stored the outcome of the execution -/
  | recorded (taskID : String) (status : TaskStatus)
  /-- the goroutine ended without storing anything -/
  | abandoned
  deriving DecidableEq

inductive Thread where
  | dispatch (req : DispatchRequest)
  | acknowledge (req : AckRequest)
  /-- `AcknowledgeTask` before `Update`, with the changed copy of the task -/
  | acknowledgeUpdate (task : Task) (resulting : TaskStatus)
  | cancel (taskID : String)
  | cancelUpdate (task : Task)
  /-- `executeAsync` before its first `GetByID` -/
  | execute (taskID : String) (agent : AgentInfo)
  | executeUpdate (task : Task) (agent : AgentInfo)
  /-- `executeAsync` while the agent works, before the second `GetByID` -/
  | executing (task : Task) (agent : AgentInfo)
  | record (task : Task)
  | finished (outcome : Outcome)
  deriving DecidableEq

def Call.start : Call → Thread
  | .dispatch req => .dispatch req
  | .acknowledge req => .acknowledge req
  | .cancel taskID => .cancel taskID
  | .relaunch taskID agent => .execute taskID agent

inductive Report where
  | acknowledged (req : AckRequest)
  | streamed (taskID : String) (stream : AgentStream)

structure Memory where
  repo : Repo
  heard : List Report

structure Input where
  now : Int := 0
  newID : String := ""
  selected : Except BrokerError AgentInfo := .error (.of .noEligibleAgent "")
  stream : AgentStream := {}

/-! ### The code between two calls of the repository -/

def dispatchCheck (req : DispatchRequest) : Option BrokerError :=
  if req.workflowID = "" then some (.of .invalidArgument "workflow_id is required")
  else if req.capabilityName = "" then some (.of .invalidArgument "capability_name is required")
  else if !Json.valid req.inputPayload then
    some (.of .invalidArgument "input_payload must be valid JSON")
  else none

/-- `DispatchTask` up to the storing of the task. -/
def dispatchPrepare (req : DispatchRequest) (selected : Except BrokerError AgentInfo) :
    Except BrokerError (AgentInfo × String) :=
  match dispatchCheck req with
  | some err => .error err
  | none =>
    match selected with
    | .error err => .error (err.wrap "task-broker: select agent: ")
    | .ok agent =>
      match prepareExpertDispatch req.inputPayload [agent] with
      | .error err => .error err
      | .ok (_, boundPayload) => .ok (agent, boundPayload)

def newTask (req : DispatchRequest) (boundPayload taskID : String) (now : Int) : Task where
  taskID := taskID
  workflowID := req.workflowID
  capabilityName := req.capabilityName
  inputPayload := boundPayload
  timeoutSeconds := req.timeoutSeconds
  maxRetries := req.maxRetries
  status := .pending
  createdAt := some now

def acknowledgeCheck (req : AckRequest) : Option BrokerError :=
  if req.taskID = "" then some (.of .invalidArgument "task_id is required")
  else
    match req.status with
    -- a number outside the enumeration passes, and is taken for CANCELLED later
    | .unspecified | .pending | .dispatched | .retrying =>
      some (.of .invalidArgument "status must be COMPLETED, FAILED, or CANCELLED")
    | _ =>
      if req.status = .completed ∧ req.resultPayload = "" then
        some (.of .invalidArgument "result_payload is required for COMPLETED status")
      else none

def readLive (repo : Repo) (taskID : String) : Except BrokerError Task :=
  match repo.getByID taskID with
  | .error err => .error (err.wrap "task-broker: get task: ")
  | .ok task =>
    if task.status.isTerminal then .error (.of .taskTerminal "%s" [.str task.status.name])
    else .ok task

def recordResult (task : Task) (r : ExecResult) (now : Int) : Task :=
  let taskErr :=
    match r.execErr with
    | some err => some { code := "INTERNAL", message := err }
    | none => r.taskErr
  match taskErr with
  | some err => (applyAcknowledgement task .failed "" (some err) now).1
  | none => (applyAcknowledgement task .completed r.resultPayload none now).1

def writeTask (m : Memory) (copy : Task) (failed : BrokerError → Thread) (written : Thread) :
    Memory × Thread × List Thread :=
  match m.repo.update copy with
  | .error err => (m, failed err, [])
  | .ok repo => ({ m with repo := repo }, written, [])

def step (input : Input) (m : Memory) : Thread → Memory × Thread × List Thread
  | .dispatch req =>
    match dispatchPrepare req input.selected with
    | .error err => (m, .finished (.refused err), [])
    | .ok (agent, boundPayload) =>
      -- `Save` overwrites a task that has the id already
      ({ m with repo := m.repo.save (newTask req boundPayload input.newID input.now) },
        .finished (.dispatched input.newID input.now), [.execute input.newID agent])
  | .acknowledge req =>
    -- what the caller says is part of the history even if the call is refused
    let m' := { m with heard := m.heard ++ [.acknowledged req] }
    match acknowledgeCheck req with
    | some err => (m', .finished (.refused err), [])
    | none =>
      match readLive m.repo req.taskID with
      | .error err => (m', .finished (.refused err), [])
      | .ok task =>
        let r := applyAcknowledgement task req.status req.resultPayload req.error input.now
        (m', .acknowledgeUpdate r.1 r.2, [])
  | .acknowledgeUpdate task resulting =>
    writeTask m task (fun err => .finished (.refused (err.wrap "task-broker: update: ")))
      (.finished (.acknowledged task.taskID resulting))
  | .cancel taskID =>
    if taskID = "" then (m, .finished (.refused (.of .invalidArgument "task_id is required")), [])
    else
      match readLive m.repo taskID with
      | .error err => (m, .finished (.refused err), [])
      | .ok task =>
        (m, .cancelUpdate { task with status := .cancelled, completedAt := some input.now }, [])
  | .cancelUpdate task =>
    writeTask m task (fun err => .finished (.refused (err.wrap "task-broker: update: ")))
      (.finished (.cancelled task.taskID task.completedAt))
  | .execute taskID agent =>
    match readLive m.repo taskID with
    | .error _ => (m, .finished .abandoned, [])
    | .ok task =>
      (m, .executeUpdate { task with status := .dispatched, dispatchedTo := agent.agentID,
                                     dispatchedAt := some input.now } agent, [])
  | .executeUpdate task agent =>
    writeTask m task (fun _ => .finished .abandoned) (.executing task agent)
  | .executing task agent =>
    -- the task is read again: it may have been ended while the agent was working
    let m' := { m with heard := m.heard ++ [.streamed task.taskID input.stream] }
    match readLive m.repo task.taskID with
    | .error _ => (m', .finished .abandoned, [])
    | .ok stored => (m', .record (recordResult stored (execute agent input.stream) input.now), [])
  | .record task =>
    writeTask m task (fun _ => .finished .abandoned) (.finished (.recorded task.taskID task.status))
  | .finished outcome => (m, .finished outcome, [])

def service : Program Memory Thread Call Input where
  start := Call.start
  step := step

def idle (repo : Repo) : Config Memory Thread := ⟨⟨repo, []⟩, []⟩

/-! ### What a step can do -/

variable {t : Thread} {copy : Task}

def Live (repo : Repo) (id : String) : Prop :=
  ∃ task, repo.lookup id = some task ∧ task.status.isTerminal = false

def Thread.pending : Thread → Option Task
  | .acknowledgeUpdate task _ | .cancelUpdate task | .executeUpdate task _ | .record task => some task
  | _ => none

def Thread.written : Thread → Thread
  | .acknowledgeUpdate task resulting => .finished (.acknowledged task.taskID resulting)
  | .cancelUpdate task => .finished (.cancelled task.taskID task.completedAt)
  | .executeUpdate task agent => .executing task agent
  | .record task => .finished (.recorded task.taskID task.status)
  | t => t

def Thread.executes (id : String) : Thread → Bool
  | .execute taskID _ => taskID == id
  | .executeUpdate task _ | .executing task _ | .record task => task.taskID == id
  | _ => false

def Thread.isFinished : Thread → Bool
  | .finished _ => true
  | _ => false

theorem Thread.written_pending (hp : t.pending = some copy) :
    t.written.pending = none := by
  cases t with
  | acknowledgeUpdate _ _ | cancelUpdate _ | executeUpdate _ _ | record _ => rfl
  | _ => exact absurd hp (by simp [Thread.pending])

theorem Thread.active_of_pending (hp : t.pending = some copy) :
    t.isFinished = false := by
  cases t with
  | finished o => exact absurd hp (by simp [Thread.pending])
  | _ => rfl

theorem recordResult_cases (task : Task) (r : ExecResult) (now : Int) :
    (r.failed = true ∧ ∃ err, Acknowledged task .failed "" (some err) now (recordResult task r now)) ∨
      r.failed = false ∧
        Acknowledged task .completed r.resultPayload none now (recordResult task r now) := by
  obtain ⟨payload, taskErr, execErr⟩ := r
  cases execErr with
  | some err => exact Or.inl ⟨rfl, _, applyAcknowledgement_acknowledged ..⟩
  | none =>
    cases taskErr with
    | some err => exact Or.inl ⟨rfl, _, applyAcknowledgement_acknowledged ..⟩
    | none => exact Or.inr ⟨rfl, applyAcknowledgement_acknowledged ..⟩

theorem recordResult_taskID (task : Task) (r : ExecResult) (now : Int) :
    (recordResult task r now).taskID = task.taskID := by
  rcases recordResult_cases task r now with ⟨-, err, h⟩ | ⟨-, h⟩
  · exact h.taskID_eq
  · exact h.taskID_eq

theorem readLive_eq_ok {repo : Repo} {taskID : String} {task : Task}
    (h : readLive repo taskID = .ok task) :
    repo.lookup taskID = some task ∧ task.status.isTerminal = false := by
  rw [readLive, Repo.getByID] at h
  grind

theorem readLive_eq_error {repo : Repo} {taskID : String} {err : BrokerError}
    (h : readLive repo taskID = .error err) {task : Task} (hl : repo.lookup taskID = some task) :
    task.status.isTerminal = true := by
  rw [readLive, Repo.getByID] at h
  grind

inductive StepCase (input : Input) (m : Memory) : Thread → Memory × Thread × List Thread → Prop
  /-- nothing is left to do -/
  | ended (o : Outcome) : StepCase input m (.finished o) (m, .finished o, [])
  /-- a call ends with an error -/
  | refused {t : Thread} {heard : List Report} (err : BrokerError) (hheard : m.heard ⊆ heard)
      (hactive : t.isFinished = false) (hexec : ∀ id, t.executes id = false) :
      StepCase input m t (⟨m.repo, heard⟩, .finished (.refused err), [])
  /-- a goroutine finds its task gone or ended -/
  | abandoned {t : Thread} {heard : List Report} (hheard : m.heard ⊆ heard)
      (hactive : t.isFinished = false)
      (hstored : ∀ id task, t.executes id = true → m.repo.lookup id = some task →
        task.status.isTerminal = true) :
      StepCase input m t (⟨m.repo, heard⟩, .finished .abandoned, [])
  /-- a task is saved and its execution launched -/
  | dispatched {req : DispatchRequest} {agent : AgentInfo} {boundPayload : String}
      (hprep : dispatchPrepare req input.selected = .ok (agent, boundPayload)) :
      StepCase input m (.dispatch req)
        (⟨m.repo.save (newTask req boundPayload input.newID input.now), m.heard⟩,
          .finished (.dispatched input.newID input.now), [.execute input.newID agent])
  /-- a task that has not ended is read, to be changed and stored later -/
  | acknowledgeRead {req : AckRequest} {task : Task} (hcheck : acknowledgeCheck req = none)
      (hstored : m.repo.lookup req.taskID = some task) (hlive : task.status.isTerminal = false) :
      StepCase input m (.acknowledge req)
        (⟨m.repo, m.heard ++ [.acknowledged req]⟩,
          .acknowledgeUpdate
            (applyAcknowledgement task req.status req.resultPayload req.error input.now).1
            (applyAcknowledgement task req.status req.resultPayload req.error input.now).2, [])
  | cancelRead {taskID : String} {task : Task} (hstored : m.repo.lookup taskID = some task)
      (hlive : task.status.isTerminal = false) :
      StepCase input m (.cancel taskID)
        (m, .cancelUpdate { task with status := .cancelled, completedAt := some input.now }, [])
  | executeRead {taskID : String} {agent : AgentInfo} {task : Task}
      (hstored : m.repo.lookup taskID = some task) (hlive : task.status.isTerminal = false) :
      StepCase input m (.execute taskID agent)
        (m, .executeUpdate { task with status := .dispatched, dispatchedTo := agent.agentID,
                                       dispatchedAt := some input.now } agent, [])
  | resultRead {task stored : Task} {agent : AgentInfo}
      (hstored : m.repo.lookup task.taskID = some stored)
      (hlive : stored.status.isTerminal = false) :
      StepCase input m (.executing task agent)
        (⟨m.repo, m.heard ++ [.streamed task.taskID input.stream]⟩,
          .record (recordResult stored (execute agent input.stream) input.now), [])
  /-- a changed copy is stored -/
  | wrote {t : Thread} {copy stored : Task} (hpending : t.pending = some copy)
      (hstored : m.repo.lookup copy.taskID = some stored) :
      StepCase input m t (⟨m.repo.save copy, m.heard⟩, t.written, [])

theorem StepCase.of_writeTask {input : Input} {m : Memory} {failed : BrokerError → Thread}
    (hp : t.pending = some copy)
    (hfailed : m.repo.lookup copy.taskID = none → ∀ err, StepCase input m t (m, failed err, [])) :
    StepCase input m t (writeTask m copy failed t.written) := by
  unfold writeTask Repo.update
  cases hl : m.repo.lookup copy.taskID with
  | none => exact hfailed hl _
  | some stored => exact .wrote hp hl

theorem StepCase.abandoned_of_none {input : Input} {m : Memory} (hp : t.pending = some copy)
    (hexec : ∀ id, t.executes id = true → copy.taskID = id)
    (hnone : m.repo.lookup copy.taskID = none) :
    StepCase input m t (m, .finished .abandoned, []) := by
  refine .abandoned (List.Subset.refl _) (Thread.active_of_pending hp) ?_
  grind

/-- **One step does one of nine things.** -/
theorem step_cases (input : Input) (m : Memory) (t : Thread) : StepCase input m t (step input m t) := by
  cases t with
  | finished o => exact .ended o
  | dispatch req =>
    rw [step]
    split
    · exact .refused _ (List.Subset.refl _) rfl (fun _ => rfl)
    · rename_i hprep
      exact .dispatched hprep
  | acknowledge req =>
    rw [step]
    dsimp only
    split
    · exact .refused _ (List.subset_append_left _ _) rfl (fun _ => rfl)
    · rename_i hcheck
      split
      · exact .refused _ (List.subset_append_left _ _) rfl (fun _ => rfl)
      · rename_i task htask
        obtain ⟨hstored, hlive⟩ := readLive_eq_ok htask
        exact .acknowledgeRead hcheck hstored hlive
  | cancel taskID =>
    rw [step]
    split
    · exact .refused _ (List.Subset.refl _) rfl (fun _ => rfl)
    · split
      · exact .refused _ (List.Subset.refl _) rfl (fun _ => rfl)
      · rename_i task htask
        obtain ⟨hstored, hlive⟩ := readLive_eq_ok htask
        exact .cancelRead hstored hlive
  | execute taskID agent =>
    rw [step]
    split
    · rename_i err herr
      refine .abandoned (List.Subset.refl _) rfl fun id task hid hl => readLive_eq_error herr ?_
      rwa [show taskID = id by simpa [Thread.executes] using hid]
    · rename_i task htask
      obtain ⟨hstored, hlive⟩ := readLive_eq_ok htask
      exact .executeRead hstored hlive
  | executing task agent =>
    rw [step]
    split
    · rename_i err herr
      refine .abandoned (List.subset_append_left _ _) rfl fun id stored hid hl => readLive_eq_error herr ?_
      rwa [show task.taskID = id by simpa [Thread.executes] using hid]
    · rename_i stored hread
      obtain ⟨hstored, hlive⟩ := readLive_eq_ok hread
      exact .resultRead hstored hlive
  | acknowledgeUpdate task resulting =>
    exact .of_writeTask rfl fun _ err => .refused _ (List.Subset.refl _) rfl (fun _ => rfl)
  | cancelUpdate task =>
    exact .of_writeTask rfl fun _ err => .refused _ (List.Subset.refl _) rfl (fun _ => rfl)
  | executeUpdate task agent =>
    exact .of_writeTask rfl fun hnone _ =>
      .abandoned_of_none rfl (fun id hid => by simpa [Thread.executes] using hid) hnone
  | record task =>
    exact .of_writeTask rfl fun hnone _ =>
      .abandoned_of_none rfl (fun id hid => by simpa [Thread.executes] using hid) hnone

end Zynax.Broker
