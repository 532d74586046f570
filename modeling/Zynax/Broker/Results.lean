import Zynax.Broker.Service

namespace Zynax.Broker

open Golang Concurrency

/-!
# Where results come from

A completed task should hold the payload of an acknowledgement or of a COMPLETED event of its
stream, and a failed task an error.  A stream that ends by EOF without a terminal event counts
as a completion with an empty payload, and an acknowledged failure may carry no error.
-/

def TaskEvent.isTerminal (ev : TaskEvent) : Bool :=
  ev.eventType == .completed || ev.eventType == .failed

def Stated (heard : List Report) (id payload : String) : Prop :=
  (∃ req, Report.acknowledged req ∈ heard ∧ req.taskID = id ∧ req.status = .completed ∧
      req.resultPayload = payload ∧ payload ≠ "") ∨
    ∃ stream ev, Report.streamed id stream ∈ heard ∧ stream.openErr = none ∧
      stream.events.find? TaskEvent.isTerminal = some ev ∧ ev.eventType = .completed ∧
      ev.payload = payload

structure Sound (heard : List Report) (task : Task) : Prop where
  completed : task.status = .completed → Stated heard task.taskID task.resultPayload
  failed : task.status = .failed → task.error.isSome = true

def AgentStream.conclusive (stream : AgentStream) : Bool :=
  stream.openErr.isSome || stream.ending.isSome || stream.events.any TaskEvent.isTerminal

def Thread.conclusive (repo : Repo) (input : Input) : Thread → Bool
  | .executing _ _ => input.stream.conclusive
  | .acknowledge req =>
    req.status != .failed || req.error.isSome || (repo.lookup req.taskID).all Task.retriesLeft
  | _ => true

def Conclusive (c : Config Memory Thread) : Act Call Input → Prop
  | .call _ => True
  | .step i input => ∀ t, c.threads[i]? = some t → t.conclusive c.shared.repo input = true

/-! ### Reading a stream -/

theorem readEvents_cases (agentID : String) (ending : Option String) (evs : List TaskEvent) :
    (∃ ev, evs.find? TaskEvent.isTerminal = some ev ∧ ev.eventType = .completed ∧
        readEvents agentID ending evs = { resultPayload := ev.payload }) ∨
      (readEvents agentID ending evs).failed = true ∨
      evs.any TaskEvent.isTerminal = false ∧ ending = none := by
  induction evs with
  | nil =>
    cases ending with
    | none => exact Or.inr (Or.inr ⟨rfl, rfl⟩)
    | some err => exact Or.inr (Or.inl rfl)
  | cons ev evs ih =>
    rw [readEvents]
    split
    · rename_i hev
      refine Or.inl ⟨ev, ?_, hev, rfl⟩
      rw [List.find?_cons_of_pos (by simp [TaskEvent.isTerminal, hev])]
    · exact Or.inr (Or.inl rfl)
    · rename_i hc hf
      have hterm : ev.isTerminal = false := by
        simpa [TaskEvent.isTerminal] using ⟨hc, hf⟩
      grind

/-- **An execution that does not fail has read a COMPLETED event**, if its stream is
    conclusive. -/
theorem execute_cases {agent : AgentInfo} {stream : AgentStream} (hc : stream.conclusive = true)
    (hf : (execute agent stream).failed = false) :
    stream.openErr = none ∧ ∃ ev, stream.events.find? TaskEvent.isTerminal = some ev ∧
      ev.eventType = .completed ∧ (execute agent stream).resultPayload = ev.payload := by
  obtain ⟨openErr, events, ending⟩ := stream
  cases openErr with
  | some err => exact absurd hf (by simp [execute, ExecResult.failed])
  | none =>
    refine ⟨rfl, ?_⟩
    rw [execute] at hf ⊢
    rcases readEvents_cases agent.agentID ending events with ⟨ev, hfind, hev, heq⟩ | hfail | ⟨hany, rfl⟩
    · grind
    · grind
    · exact absurd hc (by simp [AgentStream.conclusive, hany])

/-! ### The invariant -/

variable {heard : List Report} {task : Task}

theorem Stated.mono {heard' : List Report} (hsub : heard ⊆ heard') {id payload : String}
    (h : Stated heard id payload) : Stated heard' id payload := by
  rcases h with ⟨req, hmem, hrest⟩ | ⟨stream, ev, hmem, hrest⟩
  · exact Or.inl ⟨req, hsub hmem, hrest⟩
  · exact Or.inr ⟨stream, ev, hsub hmem, hrest⟩

theorem Sound.mono {heard' : List Report} (hsub : heard ⊆ heard') (h : Sound heard task) :
    Sound heard' task :=
  ⟨fun hs => (h.completed hs).mono hsub, h.failed⟩

structure Results (c : Config Memory Thread) : Prop where
  stored : ∀ id task, c.shared.repo.lookup id = some task → Sound c.shared.heard task
  copies : ∀ t ∈ c.threads, ∀ copy, t.pending = some copy → Sound c.shared.heard copy

theorem Sound.of_status (hc : task.status ≠ .completed)
    (hf : task.status ≠ .failed) : Sound heard task :=
  ⟨fun h => absurd h hc, fun h => absurd h hf⟩

theorem Acknowledged.sound {t : Task} {newStatus : TaskStatus}
    {resultPayload : String} {taskErr : Option TaskError} {now : Int}
    (h : Acknowledged task newStatus resultPayload taskErr now t)
    (hc : newStatus = .completed → Stated heard task.taskID resultPayload)
    (hf : newStatus = .failed → task.retriesLeft = false → taskErr.isSome = true) :
    Sound heard t := by
  cases h with
  | completed hs => exact ⟨fun _ => hc hs, by simp⟩
  | failed hs hleft => exact ⟨by simp, fun _ => hf hs hleft⟩
  | retrying _ _ | cancelled _ _ => exact .of_status (by simp) (by simp)

section Steps

variable {c : Config Memory Thread} {i : Nat} {t t' : Thread} {more : List Thread}

theorem Results.quiet (h : Results c) (hsub : c.shared.heard ⊆ heard)
    (hcopy : ∀ copy, t'.pending = some copy → Sound heard copy) :
    Results ⟨⟨c.shared.repo, heard⟩, update c.threads i t' []⟩ where
  stored := fun id task htask => (h.stored id task htask).mono hsub
  copies := by
    apply forall_update
    · intro j u _ hu copy hp
      exact (h.copies u (List.mem_of_getElem? hu) copy hp).mono hsub
    · exact hcopy
    · simp

theorem Results.save (h : Results c) (hsound : Sound c.shared.heard task)
    (hnone : ∀ u ∈ t' :: more, u.pending = none) :
    Results ⟨⟨c.shared.repo.save task, c.shared.heard⟩, update c.threads i t' more⟩ where
  stored := by
    intro id stored hstored
    have hstored : (c.shared.repo.save task).lookup id = some stored := hstored
    rw [Repo.lookup_save] at hstored
    split at hstored
    · grind
    · exact h.stored id stored hstored
  copies := by
    have hidle : ∀ u ∈ t' :: more, ∀ copy, u.pending = some copy → Sound c.shared.heard copy := by
      grind
    apply forall_update
    · intro j u _ hu
      exact h.copies u (List.mem_of_getElem? hu)
    · exact hidle t' (by simp)
    · grind

theorem payload_of_acknowledgeCheck {req : AckRequest} (h : acknowledgeCheck req = none)
    (hs : req.status = .completed) : req.resultPayload ≠ "" := by
  intro hp
  rw [acknowledgeCheck] at h
  split at h
  · exact absurd h (by simp)
  · simp [hs, hp] at h

/-- **One conclusive step keeps the invariant.** -/
theorem Results.step (h : Results c) (ht : c.threads[i]? = some t) {input : Input}
    (hconc : Conclusive c (.step i input)) {r : Memory × Thread × List Thread}
    (hr : StepCase input c.shared t r) : Results ⟨r.1, update c.threads i r.2.1 r.2.2⟩ := by
  cases hr with
  | ended o => exact h.quiet (List.Subset.refl _) (by simp [Thread.pending])
  | refused err hheard hactive hexec => exact h.quiet hheard (by simp [Thread.pending])
  | abandoned hheard hactive hstored => exact h.quiet hheard (by simp [Thread.pending])
  | dispatched hprep =>
    exact h.save (.of_status (by simp [newTask]) (by simp [newTask])) (by simp [Thread.pending])
  | @acknowledgeRead req task hcheck hstored hlive =>
    refine h.quiet (List.subset_append_left _ _) ?_
    rintro copy ⟨⟩
    refine (applyAcknowledgement_acknowledged ..).sound ?_ ?_
    · intro hs
      refine Or.inl ⟨req, by simp, (Repo.taskID_of_lookup hstored).symm, hs, rfl, ?_⟩
      exact payload_of_acknowledgeCheck hcheck hs
    · intro hs hleft
      have hc := hconc _ ht
      simpa [Thread.conclusive, hs, hstored, hleft] using hc
  | cancelRead hstored hlive =>
    refine h.quiet (List.Subset.refl _) ?_
    rintro copy ⟨⟩
    exact .of_status (by simp) (by simp)
  | executeRead hstored hlive =>
    refine h.quiet (List.Subset.refl _) ?_
    rintro copy ⟨⟩
    exact .of_status (by simp) (by simp)
  | @resultRead task stored agent hstored hlive =>
    refine h.quiet (List.subset_append_left _ _) ?_
    rintro copy ⟨⟩
    rcases recordResult_cases stored (execute agent input.stream) input.now with
      ⟨-, err, hack⟩ | ⟨hf, hack⟩
    · -- a failed execution always comes with an error
      exact hack.sound (by simp) (fun _ _ => rfl)
    · refine hack.sound (fun _ => ?_) (by simp)
      -- the stream has delivered a COMPLETED event
      obtain ⟨hopen, ev, hfind, hev, hpayload⟩ := execute_cases (hconc _ ht) hf
      rw [Repo.taskID_of_lookup hstored, hpayload]
      exact Or.inr ⟨input.stream, ev, by simp, hopen, hfind, hev, rfl⟩
  | @wrote _ copy stored hpending hstored =>
    refine h.save (h.copies t (List.mem_of_getElem? ht) copy hpending) ?_
    simpa using Thread.written_pending hpending

end Steps

theorem Results.call {c : Config Memory Thread} (h : Results c) (k : Call) :
    Results { c with threads := c.threads ++ [service.start k] } where
  stored := h.stored
  copies := by
    intro t ht copy hp
    rcases List.mem_append.mp ht with ht | ht
    · exact h.copies t ht copy hp
    · rw [List.mem_singleton.mp ht] at hp
      cases k <;> exact absurd hp (by simp [service, Call.start, Thread.pending])

/-- **Results are stated ones.**  In every run from an empty repository whose streams are conclusive
    and whose unretried acknowledged failures have an error: a completed task holds exactly the
    payload that an acknowledgement or the COMPLETED event of its stream stated, and a failed task
    holds an error. -/
theorem results_stated {acts : List (Act Call Input)}
    (halong : service.Along Conclusive (idle .empty) acts) {id : String} {task : Task}
    (hstored : (service.run (idle .empty) acts).shared.repo.lookup id = some task) :
    (task.status = .completed →
        Stated (service.run (idle .empty) acts).shared.heard id task.resultPayload) ∧
      (task.status = .failed → task.error.isSome = true) := by
  have hinit : Results (idle .empty) := ⟨by simp [idle], by simp [idle]⟩
  have hrun := Program.run_invariant (fun _ k h => Results.call h k)
    (fun _ _ input t h ht hC => Results.step h ht hC (step_cases input _ t)) hinit halong
  have hsound := hrun.stored id task hstored
  have hid := Repo.taskID_of_lookup hstored
  exact ⟨fun hs => hid ▸ hsound.completed hs, hsound.failed⟩

/-! ### A deployment -/

def deployActs (stream : AgentStream) : List (Act Call Input) :=
  [.call (.dispatch { workflowID := "wf-1", capabilityName := "deploy", inputPayload := "1" }),
    .step 0 { newID := "task-1", selected := .ok ⟨"agent-1", "", "", ""⟩ }, .step 1 {}, .step 1 {},
    .step 1 { stream := stream }, .step 1 {}]

def deployTask (payload : String) : Task where
  taskID := "task-1"
  workflowID := "wf-1"
  capabilityName := "deploy"
  inputPayload := "1"
  status := .completed
  dispatchedTo := "agent-1"
  resultPayload := payload
  createdAt := some 0
  dispatchedAt := some 0
  completedAt := some 0

def goodStream : AgentStream where
  events := [{ eventType := .progress }, { eventType := .completed, payload := "deployed" }]

theorem conclusive_of_all {c : Config Memory Thread} {i : Nat} {input : Input}
    (h : (c.threads[i]?).all (Thread.conclusive c.shared.repo input) = true) :
    Conclusive c (.step i input) := by
  intro t ht
  simpa [ht] using h

theorem along_deploy : service.Along Conclusive (idle .empty) (deployActs goodStream) := by
  refine ⟨True.intro, ?_, ?_, ?_, ?_, ?_, True.intro⟩
  · exact conclusive_of_all (by decide +kernel)
  · exact conclusive_of_all (by decide +kernel)
  · exact conclusive_of_all (by decide +kernel)
  · exact conclusive_of_all (by decide +kernel)
  · exact conclusive_of_all (by decide +kernel)

theorem lookup_deploy :
    (service.run (idle .empty) (deployActs goodStream)).shared.repo.lookup "task-1" =
      some (deployTask "deployed") := by
  rfl

theorem results_stated_deploy :
    ((deployTask "deployed").status = .completed →
        Stated (service.run (idle .empty) (deployActs goodStream)).shared.heard "task-1" "deployed") ∧
      ((deployTask "deployed").status = .failed → (deployTask "deployed").error.isSome = true) :=
  results_stated along_deploy lookup_deploy

def rejectActs : List (Act Call Input) :=
  (deployActs {}).take 2 ++
    [.call (.acknowledge { taskID := "task-1", status := .failed }), .step 2 {}, .step 2 {}]

/-- **A silent agent completes a task.**  The stream ends at once, and the task is completed with an
    empty payload that nobody stated.  And a failure acknowledged without an error is stored without
    one. -/
theorem completed_from_nothing :
    (service.run (idle .empty) (deployActs {})).shared.repo.lookup "task-1" = some (deployTask "") ∧
      ¬ Stated (service.run (idle .empty) (deployActs {})).shared.heard "task-1" "" ∧
      ((service.run (idle .empty) rejectActs).shared.repo.lookup "task-1").map
        (fun t => (t.status, t.error)) = some (.failed, none) := by
  refine ⟨by decide +kernel, ?_, by decide +kernel⟩
  have hheard : (service.run (idle .empty) (deployActs {})).shared.heard =
      [.streamed "task-1" {}] := by
    rfl
  rw [hheard]
  rintro (⟨req, hmem, -⟩ | ⟨stream, ev, hmem, -, hfind, -⟩)
  · simp at hmem
  · simp only [List.mem_singleton, Report.streamed.injEq, true_and] at hmem
    rw [hmem] at hfind
    exact absurd hfind (by simp)

end Zynax.Broker
