import Zynax.Golang.Map
import Zynax.Golang.Strings

namespace Zynax.Broker

open Golang

/-!
# Tasks and their repository

The task record of the broker, the in-memory repository, and the transition that an outcome
makes on a task.

Payloads are given by their text, and an absent payload by the empty text: no code of the broker
tells the two apart.
-/

/-! ### Statuses and errors -/

/-- The statuses of a task, other numbers included. -/
inductive TaskStatus where
  | unspecified | pending | dispatched | retrying | completed | failed | cancelled
  | other (n : Int32)
  deriving DecidableEq, Repr

namespace TaskStatus

def isTerminal : TaskStatus → Bool
  | .completed | .failed | .cancelled => true
  | _ => false

def name : TaskStatus → String
  | .pending => "PENDING"
  | .dispatched => "DISPATCHED"
  | .retrying => "RETRYING"
  | .completed => "COMPLETED"
  | .failed => "FAILED"
  | .cancelled => "CANCELLED"
  | .unspecified | .other _ => "UNSPECIFIED"

end TaskStatus

inductive Sentinel where
  | taskNotFound | noEligibleAgent | taskTerminal | invalidArgument
  deriving DecidableEq, Repr

def Sentinel.text : Sentinel → String
  | .taskNotFound => "task not found"
  | .noEligibleAgent => "no eligible agent for capability"
  | .taskTerminal => "task is in a terminal state"
  | .invalidArgument => "invalid argument"

structure BrokerError where
  sentinel : Option Sentinel
  message : Formatted
  deriving DecidableEq, Repr

namespace BrokerError

def of (s : Sentinel) (format : String) (args : List FmtArg := []) : BrokerError :=
  ⟨some s, ⟨"%w: " ++ format, .str s.text :: args⟩⟩

def wrap (pre : String) (err : BrokerError) : BrokerError :=
  { err with message := ⟨pre ++ err.message.format, err.message.args⟩ }

end BrokerError

/-! ### Tasks -/

structure TaskError where
  code : String := ""
  message : Formatted := .text ""
  details : GoMap String := ∅
  deriving DecidableEq

structure Task where
  taskID : String := ""
  workflowID : String
  capabilityName : String
  inputPayload : String
  timeoutSeconds : Int32 := 0
  maxRetries : Int32 := 0
  retryCount : Int32 := 0
  status : TaskStatus := .unspecified
  dispatchedTo : String := ""
  resultPayload : String := ""
  error : Option TaskError := none
  createdAt : Option Int := none
  dispatchedAt : Option Int := none
  completedAt : Option Int := none
  deriving DecidableEq

structure AgentInfo where
  agentID : String
  name : String := ""
  endpoint : String := ""
  inputSchema : String := ""
  deriving DecidableEq, Repr

/-! ### The repository -/

structure Repo where
  tasks : GoMap Task
  keyed : ∀ id t, tasks.lookup id = some t → t.taskID = id

namespace Repo

variable {id : String}

def empty : Repo where
  tasks := ∅
  keyed := by simp

def lookup (r : Repo) (taskID : String) : Option Task := r.tasks.lookup taskID

theorem taskID_of_lookup {r : Repo} {t : Task} (h : r.lookup id = some t) :
    t.taskID = id :=
  r.keyed id t h

theorem lookup_insert {tasks : GoMap Task} {task : Task} :
    (AList.insert task.taskID task tasks).lookup id =
      if id = task.taskID then some task else tasks.lookup id := by
  split
  · rename_i h
    rw [h, AList.lookup_insert]
  · rename_i h
    rw [AList.lookup_insert_ne h]

def save (r : Repo) (task : Task) : Repo where
  tasks := AList.insert task.taskID task r.tasks
  keyed := by
    intro id t h
    rw [lookup_insert] at h
    split at h
    · rename_i hid
      rw [hid, Option.some.inj h]
    · exact r.keyed id t h

def getByID (r : Repo) (taskID : String) : Except BrokerError Task :=
  match r.lookup taskID with
  | none => .error (.of .taskNotFound "%q" [.str taskID])
  | some t => .ok t

def update (r : Repo) (task : Task) : Except BrokerError Repo :=
  match r.lookup task.taskID with
  | none => .error (.of .taskNotFound "%q" [.str task.taskID])
  | some _ => .ok (r.save task)

@[simp] theorem lookup_empty (id : String) : empty.lookup id = none := rfl

theorem lookup_save {r : Repo} {task : Task} :
    (r.save task).lookup id = if id = task.taskID then some task else r.lookup id :=
  lookup_insert

end Repo

/-! ### Outcomes -/

/-- The task after an acknowledgement, with the retry decision. -/
def applyAcknowledgement (task : Task) (newStatus : TaskStatus) (resultPayload : String)
    (taskErr : Option TaskError) (now : Int) : Task × TaskStatus :=
  match newStatus with
  | .completed =>
    ({ task with status := .completed, resultPayload := resultPayload, completedAt := some now },
      .completed)
  | .failed =>
    let newCount := task.retryCount + 1
    if newCount ≤ task.maxRetries then
      ({ task with status := .retrying, retryCount := newCount }, .retrying)
    else
      ({ task with status := .failed, error := taskErr, completedAt := some now }, .failed)
  | _ => ({ task with status := .cancelled, completedAt := some now }, .cancelled)

def Task.retriesLeft (task : Task) : Bool := task.retryCount + 1 ≤ task.maxRetries

inductive Acknowledged (task : Task) (newStatus : TaskStatus) (resultPayload : String)
    (taskErr : Option TaskError) (now : Int) : Task → Prop
  | completed (h : newStatus = .completed) :
      Acknowledged task newStatus resultPayload taskErr now
        { task with status := .completed, resultPayload := resultPayload, completedAt := some now }
  | retrying (h : newStatus = .failed) (hleft : task.retriesLeft = true) :
      Acknowledged task newStatus resultPayload taskErr now
        { task with status := .retrying, retryCount := task.retryCount + 1 }
  | failed (h : newStatus = .failed) (hleft : task.retriesLeft = false) :
      Acknowledged task newStatus resultPayload taskErr now
        { task with status := .failed, error := taskErr, completedAt := some now }
  | cancelled (hc : newStatus ≠ .completed) (hf : newStatus ≠ .failed) :
      Acknowledged task newStatus resultPayload taskErr now
        { task with status := .cancelled, completedAt := some now }

theorem applyAcknowledgement_acknowledged (task : Task) (newStatus : TaskStatus)
    (resultPayload : String) (taskErr : Option TaskError) (now : Int) :
    Acknowledged task newStatus resultPayload taskErr now
      (applyAcknowledgement task newStatus resultPayload taskErr now).1 := by
  cases newStatus with
  | completed => exact .completed rfl
  | failed =>
    rw [applyAcknowledgement]
    split
    · rename_i hleft
      exact .retrying rfl (by simpa [Task.retriesLeft] using hleft)
    · rename_i hleft
      exact .failed rfl (by simpa [Task.retriesLeft] using hleft)
  | _ => exact .cancelled (by simp) (by simp)

theorem Acknowledged.taskID_eq {task t : Task} {newStatus : TaskStatus} {resultPayload : String}
    {taskErr : Option TaskError} {now : Int}
    (h : Acknowledged task newStatus resultPayload taskErr now t) : t.taskID = task.taskID := by
  cases h <;> rfl

theorem applyAcknowledgement_snd (task : Task) (newStatus : TaskStatus) (resultPayload : String)
    (taskErr : Option TaskError) (now : Int) :
    (applyAcknowledgement task newStatus resultPayload taskErr now).2 =
      (applyAcknowledgement task newStatus resultPayload taskErr now).1.status := by
  cases newStatus with
  | failed =>
    rw [applyAcknowledgement]
    split <;> rfl
  | _ => rfl

end Zynax.Broker
