import Zynax.Broker.Results

namespace Zynax.Broker

open Golang Concurrency

/-!
# Which failures are retried

The error code of a failure should decide whether it may be retried: a caller's mistake stays one.
A failure reaches a task as the FAILED event of its agent's stream or as an acknowledgement, and
both meet in `applyAcknowledgement`, which looks at the counters of the task alone.
-/

def invalidInput : String := "INVALID_INPUT"

def errorCode (err : Option TaskError) : String := (err.map TaskError.code).getD ""

inductive Arrives (input : Input) (id : String) (err : Option TaskError) : Thread → Prop
  | streamed {task : Task} {agent : AgentInfo} {ev : TaskEvent} (hid : task.taskID = id)
      (hopen : input.stream.openErr = none)
      (hfind : input.stream.events.find? TaskEvent.isTerminal = some ev)
      (hev : ev.eventType = .failed) (herr : err = some ev.taskError) :
      Arrives input id err (.executing task agent)
  | acknowledged {req : AckRequest} (hid : req.taskID = id) (hne : id ≠ "")
      (hstatus : req.status = .failed) (herr : req.error = err) :
      Arrives input id err (.acknowledge req)

structure FollowsCode (err : Option TaskError) (task : Task) : Prop where
  retrying : task.status = .retrying → errorCode err ≠ invalidInput
  failed : errorCode err = invalidInput → task.status = .failed ∧ task.error = err

/-! ### The two ways of a failure -/

variable {id : String} {task : Task} {t : Thread} {m : Memory}

theorem readEvents_of_failed {agentID : String} {ending : Option String} {evs : List TaskEvent}
    {ev : TaskEvent} (hfind : evs.find? TaskEvent.isTerminal = some ev)
    (hev : ev.eventType = .failed) :
    readEvents agentID ending evs = { taskErr := some ev.taskError } := by
  induction evs with
  | nil => exact absurd hfind (by simp)
  | cons e evs ih =>
    cases hterm : e.isTerminal with
    | true =>
      rw [List.find?_cons_of_pos hterm] at hfind
      obtain rfl := Option.some.inj hfind
      simp only [readEvents, hev]
    | false =>
      rw [List.find?_cons_of_neg (by simp [hterm])] at hfind
      -- what comes before the terminal event is skipped
      have hskip : e.eventType ≠ .completed ∧ e.eventType ≠ .failed := by
        simpa [TaskEvent.isTerminal] using hterm
      rw [readEvents]
      grind

theorem execute_of_failed {agent : AgentInfo} {stream : AgentStream} {ev : TaskEvent}
    (hopen : stream.openErr = none) (hfind : stream.events.find? TaskEvent.isTerminal = some ev)
    (hev : ev.eventType = .failed) : execute agent stream = { taskErr := some ev.taskError } := by
  simp only [execute, hopen]
  exact readEvents_of_failed hfind hev

theorem readLive_of_live {repo : Repo} (hstored : repo.lookup id = some task)
    (hlive : task.status.isTerminal = false) :
    readLive repo id = .ok task := by
  simp [readLive, Repo.getByID, hstored, hlive]

/-- **Both ways end in the same update.**  The thread is about to store the task as
    `applyAcknowledgement` leaves it. -/
theorem Arrives.step_pending {input : Input} {err : Option TaskError} (h : Arrives input id err t)
    (hstored : m.repo.lookup id = some task) (hlive : task.status.isTerminal = false) :
    ∃ payload, (step input m t).2.1.pending =
      some (applyAcknowledgement task .failed payload err input.now).1 := by
  cases h with
  | streamed hid hopen hfind hev herr =>
    subst hid herr
    refine ⟨"", ?_⟩
    simp [step, readLive_of_live hstored hlive, execute_of_failed hopen hfind hev, recordResult,
      Thread.pending]
  | @acknowledged req hid hne hstatus herr =>
    subst hid herr
    refine ⟨req.resultPayload, ?_⟩
    have hcheck : acknowledgeCheck req = none := by
      simp [acknowledgeCheck, hne, hstatus]
    simp [step, hcheck, readLive_of_live hstored hlive, hstatus, Thread.pending]

theorem lookup_step_of_pending {copy stored : Task}
    (hp : t.pending = some copy) (hstored : m.repo.lookup copy.taskID = some stored)
    (later : Input) :
    (step later m t).1.repo.lookup copy.taskID = some copy := by
  have hwrite : ∀ failed written,
      (writeTask m copy failed written).1.repo.lookup copy.taskID = some copy := by
    intro failed written
    simp [writeTask, Repo.update, hstored, Repo.lookup_save]
  cases t with
  | acknowledgeUpdate _ _ | cancelUpdate _ | executeUpdate _ _ | record _ =>
    obtain rfl := Option.some.inj hp
    exact hwrite _ _
  | _ => exact absurd hp (by simp [Thread.pending])

theorem Arrives.lookup_stored {input : Input} {err : Option TaskError} (h : Arrives input id err t)
    {m' : Memory} (hstored : m.repo.lookup id = some task) (hlive : task.status.isTerminal = false)
    (hknown : (m'.repo.lookup id).isSome = true) (later : Input) :
    ∃ payload, (step later m' (step input m t).2.1).1.repo.lookup id =
      some (applyAcknowledgement task .failed payload err input.now).1 := by
  obtain ⟨payload, hp⟩ := h.step_pending hstored hlive
  obtain ⟨known, hknown⟩ := Option.isSome_iff_exists.mp hknown
  have hid : (applyAcknowledgement task .failed payload err input.now).1.taskID = id := by
    rw [(applyAcknowledgement_acknowledged ..).taskID_eq, Repo.taskID_of_lookup hstored]
  refine ⟨payload, ?_⟩
  have hlookup := lookup_step_of_pending hp (hid.symm ▸ hknown) later
  rwa [hid] at hlookup

/-! ### What the code decides -/

theorem followsCode_applyAcknowledgement_iff (task : Task) (payload : String)
    (err : Option TaskError) (now : Int) :
    FollowsCode err (applyAcknowledgement task .failed payload err now).1 ↔
      (errorCode err = invalidInput → task.maxRetries < task.retryCount + 1) := by
  rw [applyAcknowledgement]
  split
  · rename_i hle
    refine ⟨fun h hcode => absurd hcode (h.retrying rfl), fun h => ?_⟩
    have hcode : errorCode err ≠ invalidInput := fun hcode => absurd (h hcode) (Int32.not_lt.mpr hle)
    exact ⟨fun _ => hcode, fun hc => absurd hc hcode⟩
  · rename_i hle
    exact ⟨fun _ _ => Int32.not_le.mp hle, fun _ => ⟨fun h => absurd h (by simp), fun _ => ⟨rfl, rfl⟩⟩⟩

/-- **A failure is treated by its code exactly when no retry is left for a caller's mistake.**
    Whatever other threads do, the thread that has read a failure stores the task next, and what it
    stores follows the code if and only if the failure is no caller's mistake or the task, with its
    counters in `int32`, has no retry left. -/
theorem code_followed_iff {input later : Input} {id : String} {err : Option TaskError} {t : Thread}
    {m m' : Memory} {task : Task} (h : Arrives input id err t)
    (hstored : m.repo.lookup id = some task) (hlive : task.status.isTerminal = false)
    (hknown : (m'.repo.lookup id).isSome = true) :
    (∃ after, (step later m' (step input m t).2.1).1.repo.lookup id = some after ∧
        FollowsCode err after) ↔
      (errorCode err = invalidInput → task.maxRetries < task.retryCount + 1) := by
  obtain ⟨payload, hafter⟩ := h.lookup_stored hstored hlive hknown later
  rw [← followsCode_applyAcknowledgement_iff task payload err input.now]
  grind

/-! ### A review that is asked for wrongly -/

def reviewTask (maxRetries : Int32) : Task where
  taskID := "task-1"
  workflowID := "wf-1"
  capabilityName := "review"
  inputPayload := "\x7b\x7d"
  maxRetries := maxRetries
  status := .dispatched
  dispatchedTo := "agent-1"

def reviewMemory (maxRetries : Int32) : Memory := ⟨Repo.empty.save (reviewTask maxRetries), []⟩

def refusal : TaskEvent where
  eventType := .failed
  error := some { code := "INVALID_INPUT", message := "prompt is required" }

def refusalInput : Input where
  stream := { events := [{ eventType := .progress }, refusal] }

def refusalAck : AckRequest where
  taskID := "task-1"
  status := .failed
  error := some refusal.taskError

theorem refusal_arrives (task : Task) (agent : AgentInfo) (hid : task.taskID = "task-1") :
    Arrives refusalInput "task-1" (some refusal.taskError) (.executing task agent) :=
  .streamed hid rfl (show refusalInput.stream.events.find? TaskEvent.isTerminal = some refusal from rfl)
    rfl rfl

theorem code_followed_review :
    ∃ after, (step {} (reviewMemory 0)
        (step refusalInput (reviewMemory 0) (.executing (reviewTask 0) ⟨"agent-1", "", "", ""⟩)).2.1).1.repo.lookup
          "task-1" = some after ∧ FollowsCode (some refusal.taskError) after :=
  (code_followed_iff (refusal_arrives _ _ rfl)
    (rfl : (reviewMemory 0).repo.lookup "task-1" = some (reviewTask 0)) rfl rfl).mpr (fun _ => by decide)

/-- **A caller's mistake is retried.**  The task may be retried three times.  The agent refuses its
    input, in the stream or by an acknowledgement, and the task is RETRYING with no error. -/
theorem invalid_input_retried :
    ((step {} (reviewMemory 3) (step refusalInput (reviewMemory 3)
          (.executing (reviewTask 3) ⟨"agent-1", "", "", ""⟩)).2.1).1.repo.lookup "task-1").map
        (fun t => (t.status, t.retryCount, t.error)) = some (.retrying, 1, none) ∧
      ((step {} (reviewMemory 3) (step {} (reviewMemory 3) (.acknowledge refusalAck)).2.1).1.repo.lookup
          "task-1").map (fun t => (t.status, t.retryCount, t.error)) = some (.retrying, 1, none) := by
  decide +kernel

end Zynax.Broker
