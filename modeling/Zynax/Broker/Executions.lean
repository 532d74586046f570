import Zynax.Broker.Finality

namespace Zynax.Broker

open Concurrency

/-!
# How often a task is executed

A dispatch launches one goroutine for its task, and a recovery may relaunch it.
-/

variable {input : Input} {m : Memory} {t : Thread} {r : Memory × Thread × List Thread}

def relaunches (id : String) : Act Call Input → Bool
  | .call (.relaunch taskID _) => taskID == id
  | _ => false

/-- The threads that execute the task, and the one its dispatch may still launch. -/
def executions (c : Config Memory Thread) (id : String) : Nat :=
  c.threads.countP (Thread.executes id) + if c.shared.repo.lookup id = none then 1 else 0

theorem executes_step (hr : StepCase input m t r) {id : String} (h : r.2.1.executes id = true) :
    t.executes id = true := by
  cases hr with
  | executeRead hstored _ => simpa [Thread.executes, Repo.taskID_of_lookup hstored] using h
  | resultRead hstored _ =>
    simpa [Thread.executes, recordResult_taskID, Repo.taskID_of_lookup hstored] using h
  | wrote _ _ =>
    cases t <;> first | exact h | exact absurd h (by simp [Thread.written, Thread.executes])
  | _ => exact absurd h (by simp [Thread.executes])

/-- Only a dispatch launches a thread, for a task that it stores at the same time. -/
theorem launched_step (hfresh : t.dispatches = true → m.repo.lookup input.newID = none)
    (hr : StepCase input m t r) (id : String) :
    r.2.2.countP (Thread.executes id) + (if r.1.repo.lookup id = none then 1 else 0) ≤
      if m.repo.lookup id = none then 1 else 0 := by
  cases hr with
  | dispatched _ =>
    rw [Repo.lookup_save, show (newTask _ _ input.newID input.now).taskID = input.newID from rfl]
    by_cases hid : id = input.newID
    · simp [hid, Thread.executes, hfresh rfl]
    · simp [hid, Ne.symm hid, Thread.executes]
  | wrote _ hstored =>
    rw [Repo.lookup_save]
    grind
  | _ => simp

theorem executions_act {c : Config Memory Thread} {a : Act Call Input} (hfresh : FreshID c a)
    (id : String) :
    executions (service.act c a) id ≤ executions c id + [a].countP (relaunches id) := by
  cases a with
  | call k =>
    have hstart : [service.start k].countP (Thread.executes id) =
        [(.call k : Act Call Input)].countP (relaunches id) := by
      cases k <;> rfl
    show (c.threads ++ [service.start k]).countP _ + _ ≤ _
    rw [List.countP_append, hstart, executions, Nat.add_right_comm]
    exact le_rfl
  | step i input =>
    cases ht : c.threads[i]? with
    | none =>
      rw [Program.act]
      simp [ht]
    | some t =>
      have hcase := step_cases input c.shared t
      rw [Program.act_step ht, show service.step = step from rfl]
      generalize step input c.shared t = r at hcase
      have hcount := countP_update (Thread.executes id) ht r.2.1 r.2.2
      have hexec := @executes_step _ _ _ _ hcase id
      have hmore := launched_step (hfresh t ht) hcase id
      rw [executions, executions]
      grind

/-- **A task is executed by one goroutine at a time, and one more for each relaunch.**  Under any
    interleaving, with new ids for new tasks, no others are launched for it. -/
theorem executed_as_launched {c : Config Memory Thread} {acts : List (Act Call Input)}
    (halong : service.Along FreshID c acts) (id : String) :
    executions (service.run c acts) id ≤ executions c id + acts.countP (relaunches id) := by
  induction acts generalizing c with
  | nil => simp
  | cons a acts ih =>
    have hact := executions_act halong.1 id
    have hrest := ih halong.2
    rw [Program.run_cons, ← List.singleton_append, List.countP_append]
    omega

/-- The task is dispatched, and relaunched while it is executed. -/
def relaunchActs : List (Act Call Input) :=
  [.call (.dispatch { workflowID := "wf-1", capabilityName := "build", inputPayload := "1" }),
    .step 0 { newID := "task-1", selected := .ok ⟨"agent-1", "", "", ""⟩ }, .step 1 {}, .step 1 {},
    .call (.relaunch "task-1" ⟨"agent-1", "", "", ""⟩), .step 2 {}]

theorem freshID_of_check {c : Config Memory Thread} {i : Nat}
    (h : (c.threads[i]?).all (fun t => !t.dispatches || (c.shared.repo.lookup input.newID).isNone) = true) :
    FreshID c (.step i input) := by
  intro t ht hd
  simpa [ht, hd] using h

theorem along_relaunch : service.Along FreshID (idle .empty) relaunchActs :=
  ⟨True.intro, freshID_of_check (by decide +kernel), freshID_of_check (by decide +kernel),
    freshID_of_check (by decide +kernel), True.intro, freshID_of_check (by decide +kernel), True.intro⟩

theorem executed_as_launched_relaunch :
    (service.run (idle .empty) relaunchActs).threads.countP (Thread.executes "task-1") = 2 ∧
      executions (service.run (idle .empty) relaunchActs) "task-1" ≤
        executions (idle .empty) "task-1" + relaunchActs.countP (relaunches "task-1") :=
  ⟨by decide +kernel, executed_as_launched along_relaunch "task-1"⟩

end Zynax.Broker
