import Zynax.Broker.Service

namespace Zynax.Broker

open Golang Concurrency

/-!
# Terminal statuses are final, if nobody is disturbed

`AcknowledgeTask`, `CancelTask` and `executeAsync` each read a task, check that it has not ended
and store a changed copy later.  Between the two another thread may end the task, and the copy
overwrites it.
-/

def Ended (repo : Repo) (id : String) : Prop :=
  ∃ task, repo.lookup id = some task ∧ task.status.isTerminal = true

theorem Live.not_ended {repo : Repo} {id : String} (hl : Live repo id) : ¬ Ended repo id := by
  rintro ⟨task, htask, hterm⟩
  obtain ⟨task', htask', hlive⟩ := hl
  grind

def Thread.reportsEnd (id : String) : Thread → Bool
  | .finished (.acknowledged taskID resulting) => taskID == id && resulting.isTerminal
  | .finished (.cancelled taskID _) => taskID == id
  | .finished (.recorded taskID status) => taskID == id && status.isTerminal
  | _ => false

def Thread.dispatches : Thread → Bool
  | .dispatch _ => true
  | _ => false

def FreshID (c : Config Memory Thread) : Act Call Input → Prop
  | .call _ => True
  | .step i input => ∀ t, c.threads[i]? = some t → t.dispatches = true →
      c.shared.repo.lookup input.newID = none

def Undisturbed (c : Config Memory Thread) : Act Call Input → Prop
  | .call _ => True
  | .step i _ => ∀ t copy, c.threads[i]? = some t → t.pending = some copy →
      copy.status.isTerminal = true → ∀ j u other, j ≠ i → c.threads[j]? = some u →
        u.pending = some other → other.taskID ≠ copy.taskID

/-! ### The invariant -/

variable {t : Thread}

def Thread.Coherent : Thread → Prop
  | .acknowledgeUpdate task resulting => resulting = task.status
  | .cancelUpdate task => task.status = .cancelled
  | .executeUpdate task _ => task.status = .dispatched
  | _ => True

theorem Thread.reportsEnd_written {copy : Task} (ht : t.Coherent)
    (hp : t.pending = some copy) (id : String) :
    t.written.reportsEnd id = (copy.taskID == id && copy.status.isTerminal) := by
  cases t with
  | acknowledgeUpdate task resulting =>
    obtain rfl := Option.some.inj hp
    obtain rfl : resulting = task.status := ht
    rfl
  | cancelUpdate task =>
    obtain rfl := Option.some.inj hp
    have hs : task.status = .cancelled := ht
    simp [Thread.written, Thread.reportsEnd, hs, TaskStatus.isTerminal]
  | executeUpdate task agent =>
    obtain rfl := Option.some.inj hp
    have hs : task.status = .dispatched := ht
    simp [Thread.written, Thread.reportsEnd, hs, TaskStatus.isTerminal]
  | record task =>
    obtain rfl := Option.some.inj hp
    rfl
  | _ => exact absurd hp (by simp [Thread.pending])

theorem Thread.reportsEnd_of_active (ht : t.isFinished = false) (id : String) :
    t.reportsEnd id = false := by
  cases t with
  | finished o => exact absurd ht (by simp [Thread.isFinished])
  | _ => rfl

theorem Thread.written_coherent {copy : Task} (hp : t.pending = some copy) :
    t.written.Coherent := by
  cases t with
  | acknowledgeUpdate _ _ | cancelUpdate _ | executeUpdate _ _ | record _ => exact True.intro
  | _ => exact absurd hp (by simp [Thread.pending])

def Thread.Sane (repo : Repo) (t : Thread) : Prop :=
  t.Coherent ∧ ∀ copy, t.pending = some copy → Live repo copy.taskID

theorem Thread.Sane.of_idle {repo : Repo} (hcoh : t.Coherent) (hnone : t.pending = none) :
    t.Sane repo :=
  ⟨hcoh, fun copy hp => absurd hp (by simp [hnone])⟩

structure Finality (c : Config Memory Thread) : Prop where
  sane : ∀ t ∈ c.threads, t.Sane c.shared.repo
  once : ∀ id, c.threads.countP (Thread.reportsEnd id) ≤ 1
  ended : ∀ id, 0 < c.threads.countP (Thread.reportsEnd id) → Ended c.shared.repo id

section Steps

variable {c : Config Memory Thread} {i : Nat} {t : Thread}

variable {heard : List Report}

theorem Finality.quiet (h : Finality c) (ht : c.threads[i]? = some t) {t' : Thread}
    (hsane : t'.Sane c.shared.repo)
    (hreport : ∀ id, t'.reportsEnd id = t.reportsEnd id) :
    Finality ⟨⟨c.shared.repo, heard⟩, update c.threads i t' []⟩ := by
  have hcount : ∀ id, (update c.threads i t' []).countP (Thread.reportsEnd id) =
      c.threads.countP (Thread.reportsEnd id) := by
    intro id
    have := countP_update (Thread.reportsEnd id) ht t' []
    grind
  refine ⟨?_, ?_, ?_⟩
  · apply forall_update
    · intro j u _ hu
      exact h.sane u (List.mem_of_getElem? hu)
    · exact hsane
    · simp
  · intro id
    rw [hcount]
    exact h.once id
  · intro id hpos
    rw [hcount] at hpos
    exact h.ended id hpos

theorem Finality.save_fresh (h : Finality c) (ht : c.threads[i]? = some t) {task : Task} {t' : Thread}
    {more : List Thread} (hfresh : c.shared.repo.lookup task.taskID = none)
    (hsane : ∀ u ∈ t' :: more, u.Coherent ∧ u.pending = none)
    (hreport : ∀ u ∈ t :: t' :: more, ∀ id, u.reportsEnd id = false) :
    Finality ⟨⟨c.shared.repo.save task, heard⟩, update c.threads i t' more⟩ := by
  have hcount : ∀ id, (update c.threads i t' more).countP (Thread.reportsEnd id) =
      c.threads.countP (Thread.reportsEnd id) := by
    intro id
    have := countP_update (Thread.reportsEnd id) ht t' more
    have hmore : more.countP (Thread.reportsEnd id) = 0 := by
      grind
    grind
  have hsaneOf : ∀ u ∈ t' :: more, u.Sane (c.shared.repo.save task) := by
    intro u hu
    exact .of_idle (hsane u hu).1 (hsane u hu).2
  -- a stored task has another id
  have hkeep : ∀ id s, c.shared.repo.lookup id = some s →
      (c.shared.repo.save task).lookup id = some s := by
    intro id s hs
    rw [Repo.lookup_save, if_neg]
    · exact hs
    · grind
  refine ⟨?_, ?_, ?_⟩
  · apply forall_update
    · intro j u _ hu
      obtain ⟨hcoh, hlive⟩ := h.sane u (List.mem_of_getElem? hu)
      refine ⟨hcoh, fun copy hp => ?_⟩
      obtain ⟨s, hs, hterm⟩ := hlive copy hp
      exact ⟨s, hkeep _ s hs, hterm⟩
    · exact hsaneOf t' (by simp)
    · grind
  · intro id
    rw [hcount]
    exact h.once id
  · intro id hpos
    rw [hcount] at hpos
    obtain ⟨s, hs, hterm⟩ := h.ended id hpos
    exact ⟨s, hkeep id s hs, hterm⟩

theorem Finality.wrote (h : Finality c) (ht : c.threads[i]? = some t) {copy : Task}
    (hp : t.pending = some copy) (hund : copy.status.isTerminal = true → ∀ j u other, j ≠ i → c.threads[j]? = some u →
      u.pending = some other → other.taskID ≠ copy.taskID) :
    Finality ⟨⟨c.shared.repo.save copy, heard⟩, update c.threads i t.written []⟩ := by
  obtain ⟨hc, hl⟩ := h.sane t (List.mem_of_getElem? ht)
  -- the task had not ended, so nobody has reported its end
  have hzero : c.threads.countP (Thread.reportsEnd copy.taskID) = 0 := by
    by_contra hne
    exact (hl copy hp).not_ended (h.ended _ (Nat.pos_of_ne_zero hne))
  have hcount : ∀ id, (update c.threads i t.written []).countP (Thread.reportsEnd id) =
      c.threads.countP (Thread.reportsEnd id) +
        if copy.taskID = id ∧ copy.status.isTerminal = true then 1 else 0 := by
    intro id
    have := countP_update (Thread.reportsEnd id) ht t.written []
    rw [Thread.reportsEnd_of_active (Thread.active_of_pending hp), Thread.reportsEnd_written hc hp, List.countP_nil] at this
    simpa using this
  refine ⟨?_, ?_, ?_⟩
  · apply forall_update
    · intro j u hj hu
      obtain ⟨huc, hul⟩ := h.sane u (List.mem_of_getElem? hu)
      refine ⟨huc, fun other hother => ?_⟩
      -- another copy of the same task may be held only if this one does not end it
      by_cases hid : other.taskID = copy.taskID
      · refine ⟨copy, by rw [Repo.lookup_save, if_pos hid], ?_⟩
        grind
      · obtain ⟨s, hs, hterm⟩ := hul other hother
        exact ⟨s, by rw [Repo.lookup_save, if_neg hid, hs], hterm⟩
    · exact .of_idle (Thread.written_coherent hp) (Thread.written_pending hp)
    · simp
  · intro id
    rw [hcount]
    by_cases hid : copy.taskID = id
    · grind
    · simp only [hid, false_and, if_false, Nat.add_zero]
      exact h.once id
  · intro id hpos
    rw [hcount] at hpos
    by_cases hid : copy.taskID = id
    · subst hid
      rw [hzero] at hpos
      split at hpos
      · rename_i hterm
        exact ⟨copy, by rw [Repo.lookup_save, if_pos rfl], hterm.2⟩
      · omega
    · simp only [hid, false_and, if_false, Nat.add_zero] at hpos
      obtain ⟨s, hs, hterm⟩ := h.ended id hpos
      exact ⟨s, by rw [Repo.lookup_save, if_neg (Ne.symm hid), hs], hterm⟩

/-- **One undisturbed step keeps the invariant.** -/
theorem Finality.step (h : Finality c) (ht : c.threads[i]? = some t) {input : Input}
    (hfresh : FreshID c (.step i input)) (hund : Undisturbed c (.step i input))
    {r : Memory × Thread × List Thread} (hr : StepCase input c.shared t r) :
    Finality ⟨r.1, update c.threads i r.2.1 r.2.2⟩ := by
  cases hr with
  | ended o => exact h.quiet ht (.of_idle True.intro rfl) (fun _ => rfl)
  | refused err hheard hactive hexec =>
    exact h.quiet ht (.of_idle True.intro rfl) (fun id => (Thread.reportsEnd_of_active hactive id).symm)
  | abandoned hheard hactive hstored =>
    exact h.quiet ht (.of_idle True.intro rfl) (fun id => (Thread.reportsEnd_of_active hactive id).symm)
  | dispatched hprep =>
    apply h.save_fresh ht (hfresh _ ht rfl)
    · simp [Thread.Coherent, Thread.pending]
    · simp [Thread.reportsEnd]
  | @acknowledgeRead req task hcheck hstored hlive =>
    refine h.quiet ht ⟨applyAcknowledgement_snd .., ?_⟩ (fun _ => rfl)
    rintro copy ⟨⟩
    rw [(applyAcknowledgement_acknowledged ..).taskID_eq, Repo.taskID_of_lookup hstored]
    exact ⟨task, hstored, hlive⟩
  | @cancelRead taskID task hstored hlive =>
    refine h.quiet ht ⟨rfl, ?_⟩ (fun _ => rfl)
    rintro copy ⟨⟩
    exact ⟨task, (Repo.taskID_of_lookup hstored).symm ▸ hstored, hlive⟩
  | @executeRead taskID agent task hstored hlive =>
    refine h.quiet ht ⟨rfl, ?_⟩ (fun _ => rfl)
    rintro copy ⟨⟩
    exact ⟨task, (Repo.taskID_of_lookup hstored).symm ▸ hstored, hlive⟩
  | @resultRead task stored agent hstored hlive =>
    refine h.quiet ht ⟨True.intro, ?_⟩ (fun _ => rfl)
    rintro copy ⟨⟩
    rw [recordResult_taskID, Repo.taskID_of_lookup hstored]
    exact ⟨stored, hstored, hlive⟩
  | @wrote _ copy stored hpending hstored =>
    exact h.wrote ht hpending fun hterm => hund t copy ht hpending hterm

end Steps

/-! ### Runs -/

variable {c : Config Memory Thread}

def FinalMove (c : Config Memory Thread) (a : Act Call Input) : Prop := FreshID c a ∧ Undisturbed c a

theorem Finality.call (h : Finality c) (k : Call) :
    Finality { c with threads := c.threads ++ [service.start k] } := by
  have hstart : (service.start k).Coherent ∧ (service.start k).pending = none ∧
      ∀ id, (service.start k).reportsEnd id = false := by
    cases k <;> exact ⟨True.intro, rfl, fun _ => rfl⟩
  obtain ⟨hcoh, hnone, hreport⟩ := hstart
  have hcount : ∀ id, (c.threads ++ [service.start k]).countP (Thread.reportsEnd id) =
      c.threads.countP (Thread.reportsEnd id) := by
    grind
  refine ⟨?_, ?_, ?_⟩
  · intro t ht
    rcases List.mem_append.mp ht with ht | ht
    · exact h.sane t ht
    · rw [List.mem_singleton.mp ht]
      exact .of_idle hcoh hnone
  · intro id
    rw [hcount]
    exact h.once id
  · intro id hpos
    rw [hcount] at hpos
    exact h.ended id hpos

theorem finality_run (h : Finality c) {acts : List (Act Call Input)}
    (halong : service.Along FinalMove c acts) : Finality (service.run c acts) :=
  Program.run_invariant (fun _ k h => h.call k)
    (fun _ _ input t h ht hC => h.step ht hC.1 hC.2 (step_cases input _ t)) h halong

theorem finality_idle (repo : Repo) : Finality (idle repo) where
  sane := by simp [idle]
  once := by simp [idle]
  ended := by simp [idle]

theorem lookup_ended_step (h : Finality c) {i : Nat}
    (ht : c.threads[i]? = some t) {input : Input} (hfresh : FreshID c (.step i input))
    {r : Memory × Thread × List Thread} (hr : StepCase input c.shared t r) {id : String} {task : Task}
    (htask : c.shared.repo.lookup id = some task) (hterm : task.status.isTerminal = true) :
    r.1.repo.lookup id = some task := by
  cases hr with
  | dispatched hprep =>
    show (Repo.save _ _).lookup id = _
    rw [Repo.lookup_save, if_neg]
    · exact htask
    · rintro rfl
      have hnone := hfresh _ ht rfl
      rw [show (newTask _ _ input.newID input.now).taskID = input.newID from rfl, hnone] at htask
      exact absurd htask (by simp)
  | @wrote _ copy stored hpending hstored =>
    show (Repo.save _ _).lookup id = _
    rw [Repo.lookup_save, if_neg]
    · exact htask
    · rintro rfl
      exact ((h.sane t (List.mem_of_getElem? ht)).2 copy hpending).not_ended ⟨task, htask, hterm⟩
  | _ => exact htask

/-- **Terminal statuses are final in undisturbed runs.**  Under any interleaving in which no thread
    ends a task while another is between its `GetByID` and its `Update` of it: a task that has ended
    keeps its record, and at most one thread reports that it ended a task. -/
theorem terminal_status_final {repo : Repo} {acts : List (Act Call Input)}
    (halong : service.Along FinalMove (idle repo) acts) (id : String) :
    (∀ before after task, acts = before ++ after →
        (service.run (idle repo) before).shared.repo.lookup id = some task →
        task.status.isTerminal = true →
        (service.run (idle repo) acts).shared.repo.lookup id = some task) ∧
      (service.run (idle repo) acts).threads.countP (Thread.reportsEnd id) ≤ 1 := by
  refine ⟨?_, (finality_run (finality_idle repo) halong).once id⟩
  rintro before after task rfl htask hterm
  obtain ⟨hbefore, hafter⟩ := Program.along_append.mp halong
  have hstart : Finality (service.run (idle repo) before) :=
    finality_run (finality_idle repo) hbefore
  rw [Program.run_append]
  -- carry the stored record along with the invariant
  have hrun := Program.run_invariant (P := service) (C := FinalMove)
    (I := fun c => Finality c ∧ c.shared.repo.lookup id = some task)
    (fun c k h => ⟨h.1.call k, h.2⟩)
    (fun c i input t h ht hC =>
      ⟨h.1.step ht hC.1 hC.2 (step_cases input _ t),
        lookup_ended_step h.1 ht hC.1 (step_cases input _ t) h.2 hterm⟩)
    ⟨hstart, htask⟩ hafter
  exact hrun.2

/-! ### A task that is acknowledged and cancelled -/

def buildRepo : Repo :=
  Repo.empty.save
    { taskID := "task-1", workflowID := "wf-1", capabilityName := "build", inputPayload := "1",
      status := .dispatched, dispatchedTo := "agent-1" }

theorem finalMove_of_quiet {i : Nat} {input : Input}
    (h : c.threads.zipIdx.all (fun p => !p.1.dispatches && (p.2 == i || p.1.pending.isNone)) = true) :
    FinalMove c (.step i input) := by
  have hthread : ∀ j u, c.threads[j]? = some u → u.dispatches = false ∧ (j = i ∨ u.pending = none) := by
    intro j u hj
    have := List.all_eq_true.mp h (u, j) (List.mem_zipIdx_iff_getElem?.mpr hj)
    simpa using this
  refine ⟨fun t ht hd => absurd hd (by simp [(hthread i t ht).1]), ?_⟩
  intro _ _ _ _ _ j u _ hj hu hpending
  rw [(hthread j u hu).2.resolve_left hj] at hpending
  cases hpending

/-- The task is completed while the call that cancels it has not read it yet. -/
def completedActs : List (Act Call Input) :=
  [.call (.acknowledge ⟨"task-1", .completed, "ok", none⟩), .call (.cancel "task-1"), .step 0 {}, .step 0 {}]

theorem along_completed : service.Along FinalMove (idle buildRepo) (completedActs ++ [.step 1 {}]) :=
  ⟨⟨True.intro, True.intro⟩, ⟨True.intro, True.intro⟩, finalMove_of_quiet (by decide +kernel),
    finalMove_of_quiet (by decide +kernel), finalMove_of_quiet (by decide +kernel), True.intro⟩

theorem terminal_status_final_completed : ∃ task, task.status = .completed ∧
    (service.run (idle buildRepo) completedActs).shared.repo.lookup "task-1" = some task ∧
    (service.run (idle buildRepo) (completedActs ++ [.step 1 {}])).shared.repo.lookup "task-1" = some task ∧
    (service.run (idle buildRepo) (completedActs ++ [.step 1 {}])).threads.countP (Thread.reportsEnd "task-1") ≤ 1 := by
  have hstatus : ((service.run (idle buildRepo) completedActs).shared.repo.lookup "task-1").map Task.status =
      some .completed := by decide +kernel
  obtain ⟨task, htask, hcompleted⟩ := Option.map_eq_some_iff.mp hstatus
  obtain ⟨hkept, honce⟩ := terminal_status_final along_completed "task-1"
  exact ⟨task, hcompleted, htask, hkept _ _ task rfl htask (by rw [hcompleted]; rfl), honce⟩

def raceActs : List (Act Call Input) :=
  [.call (.acknowledge ⟨"task-1", .completed, "ok", none⟩), .call (.cancel "task-1"), .step 0 {},
    .step 1 {}, .step 1 {}, .step 0 {}]

/-- **A task is ended twice.**  It is cancelled first and completed afterwards, and both callers
    are told that they succeeded. -/
theorem ended_twice :
    ((service.run (idle buildRepo) (raceActs.take 5)).shared.repo.lookup "task-1").map Task.status =
        some .cancelled ∧
      ((service.run (idle buildRepo) raceActs).shared.repo.lookup "task-1").map Task.status =
        some .completed ∧
      (service.run (idle buildRepo) raceActs).threads =
        [.finished (.acknowledged "task-1" .completed), .finished (.cancelled "task-1" (some 0))] := by
  refine ⟨?_, ?_, ?_⟩
  · decide +kernel
  · decide +kernel
  · decide +kernel

end Zynax.Broker
