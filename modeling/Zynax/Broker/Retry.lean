import Zynax.Broker.Service

namespace Zynax.Broker

open Golang Concurrency

/-!
# Who takes care of a task

A task that has not ended should have a goroutine that executes it, or nobody will ever end it.
A failure with retries left makes the task RETRYING and ends the goroutine; nothing launches
another one before the broker restarts.
-/

def Thread.failing (input : Input) : Thread → Option String
  | .acknowledge req => if req.status = .failed then some req.taskID else none
  | .executing task agent =>
    if (Broker.execute agent input.stream).failed then some task.taskID else none
  | _ => none

def NoRetry (c : Config Memory Thread) : Act Call Input → Prop
  | .call _ => True
  | .step i input => ∀ t id task, c.threads[i]? = some t → t.failing input = some id →
      c.shared.repo.lookup id = some task → task.status.isTerminal = false → task.retriesLeft = false

def Thread.Ending : Thread → Prop
  | .acknowledgeUpdate task _ | .cancelUpdate task | .record task => task.status.isTerminal = true
  | _ => True

structure Attended (c : Config Memory Thread) : Prop where
  ending : ∀ t ∈ c.threads, t.Ending
  executed : ∀ id, Live c.shared.repo id → ∃ t ∈ c.threads, t.executes id = true

theorem Acknowledged.isTerminal {task t : Task} {newStatus : TaskStatus} {resultPayload : String}
    {taskErr : Option TaskError} {now : Int}
    (h : Acknowledged task newStatus resultPayload taskErr now t)
    (hleft : newStatus = .failed → task.retriesLeft = false) : t.status.isTerminal = true := by
  cases h with
  | retrying hf hl =>
    grind
  | _ => rfl

theorem recordResult_isTerminal {task : Task} {r : ExecResult} {now : Int}
    (hleft : r.failed = true → task.retriesLeft = false) :
    (recordResult task r now).status.isTerminal = true := by
  rcases recordResult_cases task r now with ⟨hf, err, h⟩ | ⟨-, h⟩
  · exact h.isTerminal fun _ => hleft hf
  · exact h.isTerminal (by simp)

section Steps

variable {c : Config Memory Thread} {i : Nat} {t t' : Thread} {more : List Thread} {copy : Task}

theorem Attended.executes_update (h : Attended c) (ht : c.threads[i]? = some t) {id : String}
    (hlive : Live c.shared.repo id) (hkeep : t.executes id = true → t'.executes id = true) :
    ∃ u ∈ update c.threads i t' more, u.executes id = true := by
  obtain ⟨u, hu, hexec⟩ := h.executed id hlive
  obtain ⟨j, hj⟩ := List.mem_iff_getElem?.mp hu
  by_cases hji : j = i
  · subst hji
    obtain rfl : t = u := Option.some.inj (ht.symm.trans hj)
    exact ⟨t', mem_update_self ht, hkeep hexec⟩
  · exact ⟨u, mem_update_of_ne hji hj, hexec⟩

theorem Attended.ending_update (h : Attended c) (ht' : t'.Ending) (hmore : ∀ u ∈ more, u.Ending) :
    ∀ u ∈ update c.threads i t' more, u.Ending :=
  forall_update (fun _ u _ hu => h.ending u (List.mem_of_getElem? hu)) ht' hmore

theorem Attended.quiet (h : Attended c) (ht : c.threads[i]? = some t) {heard : List Report}
    (ht' : t'.Ending)
    (hkeep : ∀ id, Live c.shared.repo id → t.executes id = true → t'.executes id = true) :
    Attended ⟨⟨c.shared.repo, heard⟩, update c.threads i t' []⟩ where
  ending := h.ending_update ht' (by simp)
  executed := fun id hlive => h.executes_update ht hlive (hkeep id hlive)

theorem Thread.taskID_of_executes (hp : t.pending = some copy) {id : String}
    (hexec : t.executes id = true) : copy.taskID = id := by
  cases t with
  | executeUpdate task agent | record task =>
    obtain rfl := Option.some.inj hp
    simpa [Thread.executes] using hexec
  | execute _ _ | executing _ _ => exact absurd hp (by simp [Thread.pending])
  | _ => exact absurd hexec (by simp [Thread.executes])

theorem Thread.executes_written (ht : t.Ending) (hp : t.pending = some copy)
    (hlive : copy.status.isTerminal = false) : t.written.executes copy.taskID = true := by
  cases t with
  | executeUpdate task agent =>
    obtain rfl := Option.some.inj hp
    simp [Thread.written, Thread.executes]
  | acknowledgeUpdate task _ | cancelUpdate task | record task =>
    obtain rfl := Option.some.inj hp
    have hterm : task.status.isTerminal = true := ht
    grind
  | _ => exact absurd hp (by simp [Thread.pending])

theorem Thread.ending_written (hp : t.pending = some copy) : t.written.Ending := by
  cases t with
  | acknowledgeUpdate _ _ | cancelUpdate _ | executeUpdate _ _ | record _ => exact True.intro
  | _ => exact absurd hp (by simp [Thread.pending])

theorem Attended.wrote (h : Attended c) (ht : c.threads[i]? = some t) (hp : t.pending = some copy)
    {heard : List Report} :
    Attended ⟨⟨c.shared.repo.save copy, heard⟩, update c.threads i t.written []⟩ where
  ending := h.ending_update (Thread.ending_written hp) (by simp)
  executed := by
    rintro id ⟨task, htask, hlive⟩
    have htask : (c.shared.repo.save copy).lookup id = some task := htask
    rw [Repo.lookup_save] at htask
    split at htask
    · -- the thread that stored the task goes on with it, since the copy does not end it
      rename_i hid
      obtain rfl := Option.some.inj htask
      rw [hid]
      exact ⟨t.written, mem_update_self ht,
        Thread.executes_written (h.ending t (List.mem_of_getElem? ht)) hp hlive⟩
    · rename_i hid
      refine h.executes_update ht ⟨task, htask, hlive⟩ fun hexec => ?_
      exact absurd (Thread.taskID_of_executes hp hexec).symm hid

/-- **One step without a retry keeps the invariant.** -/
theorem Attended.step (h : Attended c) (ht : c.threads[i]? = some t) {input : Input}
    (hretry : NoRetry c (.step i input)) {r : Memory × Thread × List Thread}
    (hr : StepCase input c.shared t r) : Attended ⟨r.1, update c.threads i r.2.1 r.2.2⟩ := by
  cases hr with
  | ended o => exact h.quiet ht True.intro (fun _ _ hexec => hexec)
  | refused err hheard hactive hexec =>
    refine h.quiet ht True.intro fun id _ hid => ?_
    grind
  | abandoned hheard hactive hstored =>
    refine h.quiet ht True.intro fun id hlive hid => ?_
    obtain ⟨task, htask, hl⟩ := hlive
    grind
  | @dispatched req agent boundPayload hprep =>
    refine ⟨h.ending_update True.intro (by simp [Thread.Ending]), ?_⟩
    rintro id ⟨task, htask, hlive⟩
    have htask : (Repo.save _ _).lookup id = some task := htask
    rw [Repo.lookup_save] at htask
    split at htask
    · -- the new task has the goroutine that is launched with it
      rename_i hid
      refine ⟨.execute input.newID agent, List.mem_append_right _ (by simp), ?_⟩
      simp [Thread.executes, hid, newTask]
    · exact h.executes_update ht ⟨task, htask, hlive⟩ (by simp [Thread.executes])
  | @acknowledgeRead req task hcheck hstored hlive =>
    refine h.quiet ht ?_ (by simp [Thread.executes])
    refine (applyAcknowledgement_acknowledged ..).isTerminal fun hf => ?_
    exact hretry _ req.taskID task ht (by simp [Thread.failing, hf]) hstored hlive
  | cancelRead hstored hlive => exact h.quiet ht rfl (by simp [Thread.executes])
  | @executeRead taskID agent task hstored hlive =>
    refine h.quiet ht True.intro fun id _ hid => ?_
    simpa [Thread.executes, Repo.taskID_of_lookup hstored] using hid
  | @resultRead task stored agent hstored hlive =>
    refine h.quiet ht ?_ fun id _ hid => ?_
    · refine recordResult_isTerminal fun hf => ?_
      exact hretry _ task.taskID stored ht (by simp [Thread.failing, hf]) hstored hlive
    · simpa [Thread.executes, recordResult_taskID, Repo.taskID_of_lookup hstored] using hid
  | wrote hpending hstored => exact h.wrote ht hpending

end Steps

/-! ### Runs -/

theorem Attended.call {c : Config Memory Thread} (h : Attended c) (k : Call) :
    Attended { c with threads := c.threads ++ [service.start k] } where
  ending := by
    intro t ht
    rcases List.mem_append.mp ht with ht | ht
    · exact h.ending t ht
    · rw [List.mem_singleton.mp ht]
      cases k <;> exact True.intro
  executed := by
    intro id hlive
    obtain ⟨t, ht, hexec⟩ := h.executed id hlive
    grind

/-- **A task that has not ended is being executed**, in every run from an empty repository in which no
    failure is recorded for a task with retries left: a goroutine for it has not ended. -/
theorem unfinished_attended {acts : List (Act Call Input)}
    (halong : service.Along NoRetry (idle .empty) acts) {id : String} {task : Task}
    (hstored : (service.run (idle .empty) acts).shared.repo.lookup id = some task)
    (hstatus : task.status = .pending ∨ task.status = .dispatched ∨ task.status = .retrying) :
    ∃ t ∈ (service.run (idle .empty) acts).threads, t.executes id = true := by
  have hinit : Attended (idle .empty) := by
    refine ⟨by simp [idle], ?_⟩
    rintro id ⟨task, htask, -⟩
    exact absurd htask (by simp [idle])
  have hrun := Program.run_invariant (fun _ k h => Attended.call h k)
    (fun _ _ input t h ht hC => Attended.step h ht hC (step_cases input _ t)) hinit halong
  apply hrun.executed id
  refine ⟨task, hstored, ?_⟩
  rcases hstatus with h | h | h <;> rw [h] <;> rfl

/-! ### A build that fails -/

def buildRequest : DispatchRequest where
  workflowID := "wf-1"
  capabilityName := "build"
  inputPayload := "1"
  maxRetries := 1

def buildActs : List (Act Call Input) :=
  [.call (.dispatch buildRequest), .step 0 { newID := "task-1", selected := .ok ⟨"agent-1", "", "", ""⟩ },
    .step 1 {}, .step 1 {}]

def failedStream : Input := { stream := { events := [{ eventType := .failed }] } }

/-- A second task, which must not be retried, fails while the first one is executed. -/
def mixedActs : List (Act Call Input) :=
  buildActs ++ [.call (.dispatch { buildRequest with maxRetries := 0 }),
    .step 2 { newID := "task-2", selected := .ok ⟨"agent-1", "", "", ""⟩ }, .step 3 {}, .step 3 {}, .step 3 failedStream,
    .step 3 {}]

theorem noRetry_of_check {c : Config Memory Thread} {i : Nat} {input : Input}
    (h : ((c.threads[i]?).bind (Thread.failing input)).all (fun id =>
      (c.shared.repo.lookup id).all (fun task => task.status.isTerminal || !task.retriesLeft)) = true) :
    NoRetry c (.step i input) := by
  intro t id task ht hf htask hlive
  simpa [ht, hf, htask, hlive] using h

theorem along_mixed : service.Along NoRetry (idle .empty) mixedActs :=
  ⟨True.intro, noRetry_of_check (by decide +kernel), noRetry_of_check (by decide +kernel),
    noRetry_of_check (by decide +kernel), True.intro, noRetry_of_check (by decide +kernel),
    noRetry_of_check (by decide +kernel), noRetry_of_check (by decide +kernel), noRetry_of_check (by decide +kernel),
    noRetry_of_check (by decide +kernel), True.intro⟩

theorem unfinished_attended_mixed :
    ((service.run (idle .empty) mixedActs).shared.repo.lookup "task-2").map Task.status = some .failed ∧
      ∃ t ∈ (service.run (idle .empty) mixedActs).threads, t.executes "task-1" = true := by
  have hstatus : ((service.run (idle .empty) mixedActs).shared.repo.lookup "task-1").map Task.status =
      some .dispatched := by decide +kernel
  obtain ⟨task, htask, hdispatched⟩ := Option.map_eq_some_iff.mp hstatus
  exact ⟨by decide +kernel, unfinished_attended along_mixed htask (by simp [hdispatched])⟩

def failedActs : List (Act Call Input) :=
  buildActs ++ [.step 1 failedStream, .step 1 {}]

/-- **A task waits forever.**  Its only execution fails; the task is RETRYING, and every thread
    of the broker has ended. -/
theorem retrying_forgotten :
    ((service.run (idle .empty) failedActs).shared.repo.lookup "task-1").map Task.status =
        some .retrying ∧
      (service.run (idle .empty) failedActs).threads =
        [.finished (.dispatched "task-1" 0), .finished (.recorded "task-1" .retrying)] := by
  refine ⟨?_, ?_⟩
  · decide +kernel
  · decide +kernel

end Zynax.Broker
