import Zynax.Broker.Finality
import Zynax.Broker.Listing

namespace Zynax.Broker

open Golang Concurrency Paging

/-!
# Recovery at startup

`RecoverInFlight` lists the tasks that have not ended, status by status and page by page, and
launches an execution for each of them.  The executions it has launched change statuses while it
is still listing.
-/

/-! ### The recovery -/

structure RecoveryInput where
  input : Input := {}
  select : String → String → Except BrokerError AgentInfo :=
    fun _ _ => .error (.of .noEligibleAgent "")

inductive Recovery where
  | listing (status : TaskStatus) (later : List TaskStatus) (token : String) (recovered : Nat)
  | returned (recovered : Nat) (err : Option BrokerError)
  | panicked
  deriving DecidableEq

structure RecoveryMemory where
  memory : Memory
  launched : List String

def recoveryPageSize : Int32 := 100

def recoveryStatuses : List TaskStatus := [.pending, .dispatched, .retrying]

/-- Recovery selects an agent as a dispatch does. -/
def relaunch (select : String → String → Except BrokerError AgentInfo) (task : Task) :
    Option (String × AgentInfo) :=
  match select task.capabilityName ((expertTarget task.inputPayload).getD "") with
  | .error _ => none
  | .ok agent => some (task.taskID, agent)

def Recovery.step (select : String → String → Except BrokerError AgentInfo) (m : RecoveryMemory) :
    Recovery → RecoveryMemory × Recovery × List (String × AgentInfo)
  | .listing status later token recovered =>
    match m.memory.repo.list { status := status, pageToken := token,
                               pageSize := recoveryPageSize } with
    | .error .panicked => (m, .panicked, [])
    | .error (.failed err) =>
      (m, .returned recovered
        (some ⟨err.sentinel, ⟨"task-broker: recover list %s tasks: " ++ err.message.format,
          .str status.name :: err.message.args⟩⟩), [])
    | .ok page =>
      let launched := page.tasks.filterMap (relaunch select)
      let m' := { m with launched := m.launched ++ launched.map Prod.fst }
      let recovered := recovered + launched.length
      if page.nextPageToken = "" then
        match later with
        | [] => (m', .returned recovered none, launched)
        | next :: later => (m', .listing next later "" recovered, launched)
      else (m', .listing status later page.nextPageToken recovered, launched)
  | r => (m, r, [])

inductive Worker where
  | recovery (r : Recovery)
  | task (t : Thread)
  deriving DecidableEq

def recovering : Program RecoveryMemory Worker Call RecoveryInput where
  start := fun k => .task k.start
  step := fun input m w =>
    match w with
    | .recovery r =>
      let x := r.step input.select m
      (x.1, .recovery x.2.1, x.2.2.map (fun e => .task (.execute e.1 e.2)))
    | .task t =>
      let x := step input.input m.memory t
      ({ m with memory := x.1 }, .task x.2.1, x.2.2.map .task)

def startup (repo : Repo) : Config RecoveryMemory Worker :=
  ⟨⟨⟨repo, []⟩, []⟩, [.recovery (.listing .pending [.dispatched, .retrying] "" 0)]⟩

/-! ### The tasks of a status -/

variable {status : TaskStatus} {r : Repo} {id : String}

def Repo.idsOf (r : Repo) (status : TaskStatus) : List String :=
  (r.matched { status := status }).map Task.taskID

def Repo.Has (r : Repo) (status : TaskStatus) (k : RowKey) : Prop :=
  ∃ t, r.lookup k.id = some t ∧ t.status = status ∧ t.created = k.created

theorem selects_status (hstatus : status ≠ .unspecified) (t : Task) :
    ({ status := status } : ListFilter).selects t = true ↔ t.status = status := by
  simp [ListFilter.selects, hstatus]

theorem Repo.mem_rowKeys_iff (hstatus : status ≠ .unspecified)
    {k : RowKey} : k ∈ (r.matched { status := status }).map Task.rowKey ↔ r.Has status k := by
  rw [List.mem_map]
  constructor
  · rintro ⟨t, ht, rfl⟩
    obtain ⟨hstored, hsel⟩ := ((r.listed { status := status }).mem_iff t).mp ht
    exact ⟨t, hstored, (selects_status hstatus t).mp hsel, rfl⟩
  · rintro ⟨t, hlookup, hs, hcreated⟩
    have hid : t.taskID = k.id := Repo.taskID_of_lookup hlookup
    refine ⟨t, ((r.listed { status := status }).mem_iff t).mpr ⟨?_, ?_⟩, ?_⟩
    · grind
    · exact (selects_status hstatus t).mpr hs
    · exact RowKey.ext hcreated hid

theorem Repo.idsOf_congr {r' : Repo} (hstatus : status ≠ .unspecified)
    (h : ∀ k, r.Has status k ↔ r'.Has status k) : r.idsOf status = r'.idsOf status := by
  have hordered : ∀ r : Repo,
      ((r.matched { status := status }).map Task.rowKey).Pairwise (· < ·) := by
    intro r
    rw [List.pairwise_map]
    exact pairwise_sortTasks (r.nodup_rowKey _)
  have hkeys : (r.matched { status := status }).map Task.rowKey =
      (r'.matched { status := status }).map Task.rowKey := by
    refine List.Perm.eq_of_pairwise (fun a b _ _ hab hba => absurd hba (lt_asymm hab))
      (hordered r) (hordered r') ?_
    rw [List.perm_ext_iff_of_nodup ((hordered r).imp ne_of_lt) ((hordered r').imp ne_of_lt)]
    intro k
    rw [mem_rowKeys_iff hstatus, mem_rowKeys_iff hstatus, h k]
  have hids := congrArg (List.map RowKey.id) hkeys
  rw [List.map_map, List.map_map] at hids
  exact hids

theorem Repo.mem_idsOf_iff (hstatus : status ≠ .unspecified)
    : id ∈ r.idsOf status ↔ ∃ t, r.lookup id = some t ∧ t.status = status := by
  rw [idsOf, List.mem_map]
  constructor
  · rintro ⟨t, ht, rfl⟩
    obtain ⟨hstored, hsel⟩ := ((r.listed { status := status }).mem_iff t).mp ht
    exact ⟨t, hstored, (selects_status hstatus t).mp hsel⟩
  · rintro ⟨t, hlookup, hs⟩
    have hid : t.taskID = id := Repo.taskID_of_lookup hlookup
    subst hid
    exact ⟨t, ((r.listed { status := status }).mem_iff t).mpr
      ⟨hlookup, (selects_status hstatus t).mpr hs⟩, rfl⟩

theorem Repo.nodup_idsOf (r : Repo) (status : TaskStatus) : (r.idsOf status).Nodup :=
  ((List.perm_insertionSort _ _).map Task.taskID).nodup_iff.mpr (r.nodup_taskID _)

/-! ### The tasks in flight -/

def Repo.inFlight (r : Repo) : List String :=
  (r.tasks.entries.filter (fun e => !e.2.status.isTerminal)).map (fun e => e.1)

def Repo.recoverable (r : Repo) : List String := recoveryStatuses.flatMap r.idsOf

theorem Repo.mem_inFlight_iff :
    id ∈ r.inFlight ↔ ∃ t, r.lookup id = some t ∧ t.status.isTerminal = false := by
  rw [inFlight, List.mem_map]
  constructor
  · rintro ⟨e, he, rfl⟩
    obtain ⟨hmem, hlive⟩ := List.mem_filter.mp he
    exact ⟨e.2, GoMap.lookup_of_mem hmem, by simpa using hlive⟩
  · rintro ⟨t, hlookup, hlive⟩
    exact ⟨⟨id, t⟩, List.mem_filter.mpr ⟨GoMap.mem_entries_iff.mpr hlookup, by simp [hlive]⟩, rfl⟩

theorem ne_unspecified_of_mem : ∀ s ∈ recoveryStatuses, s ≠ .unspecified := by decide

theorem isTerminal_of_mem : ∀ s ∈ recoveryStatuses, s.isTerminal = false := by decide

theorem Repo.nodup_recoverable (r : Repo) : r.recoverable.Nodup := by
  rw [recoverable, List.nodup_flatMap]
  refine ⟨fun s _ => r.nodup_idsOf s, ?_⟩
  have hstatuses : recoveryStatuses.Pairwise (fun a b => a ≠ b) := by decide
  refine hstatuses.imp_of_mem ?_
  intro a b ha hb hne id hida hidb
  obtain ⟨t, ht, rfl⟩ := (mem_idsOf_iff (ne_unspecified_of_mem _ ha)).mp hida
  obtain ⟨t', ht', rfl⟩ := (mem_idsOf_iff (ne_unspecified_of_mem _ hb)).mp hidb
  grind

theorem Repo.recoverable_perm (hnamed : ∀ id t, r.lookup id = some t →
      t.status.isTerminal = true ∨ t.status ∈ recoveryStatuses) :
    r.recoverable.Perm r.inFlight := by
  have hnodup : r.inFlight.Nodup :=
    List.Nodup.sublist (List.filter_sublist.map _) r.tasks.nodupKeys
  rw [List.perm_ext_iff_of_nodup r.nodup_recoverable hnodup]
  intro id
  rw [mem_inFlight_iff, recoverable, List.mem_flatMap]
  constructor
  · rintro ⟨s, hs, hid⟩
    obtain ⟨t, ht, rfl⟩ := (mem_idsOf_iff (ne_unspecified_of_mem _ hs)).mp hid
    exact ⟨t, ht, isTerminal_of_mem _ hs⟩
  · rintro ⟨t, ht, hlive⟩
    rcases hnamed id t ht with hterm | hmem
    · grind
    · exact ⟨t.status, hmem, (mem_idsOf_iff (ne_unspecified_of_mem _ hmem)).mpr ⟨t, ht, rfl⟩⟩

/-! ### Moves that leave the listings alone -/

def Recovery.unlisted : Recovery → List TaskStatus
  | .listing status later _ _ => status :: later
  | _ => []

def recoveryOf (c : Config RecoveryMemory Worker) : Option Recovery :=
  match c.threads with
  | .recovery r :: _ => some r
  | _ => none

def unlisted (c : Config RecoveryMemory Worker) : List TaskStatus :=
  ((recoveryOf c).map Recovery.unlisted).getD []

def Settled (c : Config RecoveryMemory Worker) : Act Call RecoveryInput → Prop
  | .call _ => True
  | .step i input => ∀ t, c.threads[i]? = some (.task t) →
      (∀ copy stored, t.pending = some copy →
        c.shared.memory.repo.lookup copy.taskID = some stored → stored.status ≠ copy.status →
        stored.status ∉ unlisted c ∧ copy.status ∉ unlisted c) ∧
      (t.dispatches = true → TaskStatus.pending ∉ unlisted c ∧
        c.shared.memory.repo.lookup input.input.newID = none)

def Selects : Act Call RecoveryInput → Prop
  | .call _ => True
  | .step _ input => ∀ capability expert, ∃ agent, input.select capability expert = .ok agent

def RecoveryMove (c : Config RecoveryMemory Worker) (a : Act Call RecoveryInput) : Prop :=
  Settled c a ∧ Selects a

/-! ### One turn of the recovery -/

def PageAt (l : List String) (token : String) (offset : Nat) : Prop :=
  token = "" ∧ offset = 0 ∨ token = encodePageToken offset ∧ offset < l.length

inductive Recovery.Progress (start : Repo) (m : RecoveryMemory) : Recovery → Prop
  | listing {done : List TaskStatus} {status : TaskStatus} {later : List TaskStatus}
      {token : String} {offset : Nat} (hstatuses : done ++ status :: later = recoveryStatuses)
      (htoken : PageAt (start.idsOf status) token offset)
      (hlaunched : m.launched = done.flatMap start.idsOf ++ (start.idsOf status).take offset)
      (hkept : ∀ s ∈ status :: later, m.memory.repo.idsOf s = start.idsOf s) :
      Progress start m (.listing status later token m.launched.length)
  | returned (hlaunched : m.launched = start.recoverable) :
      Progress start m (.returned m.launched.length none)

theorem Recovery.Progress.launched_prefix {start : Repo} {m : RecoveryMemory} {r : Recovery}
    (h : r.Progress start m) : m.launched <+: start.recoverable := by
  cases h with
  | returned hlaunched => rw [hlaunched]
  | @listing done status later token offset hstatuses htoken hlaunched hkept =>
    refine ⟨(start.idsOf status).drop offset ++ later.flatMap start.idsOf, ?_⟩
    rw [hlaunched, Repo.recoverable, ← hstatuses, List.flatMap_append, List.flatMap_cons,
      List.append_assoc, ← List.append_assoc (List.take _ _), List.take_append_drop]

def Recovery.rank (total : Nat) : Recovery → Nat
  | .listing _ later _ recovered => total - recovered + later.length + 1
  | _ => 0

theorem map_fst_filterMap_relaunch {select : String → String → Except BrokerError AgentInfo}
    (hselect : ∀ capability expert, ∃ agent, select capability expert = .ok agent)
    (tasks : List Task) :
    (tasks.filterMap (relaunch select)).map Prod.fst = tasks.map Task.taskID := by
  induction tasks with
  | nil => rfl
  | cons task tasks ih =>
    obtain ⟨agent, hagent⟩ :=
      hselect task.capabilityName ((expertTarget task.inputPayload).getD "")
    have hone : relaunch select task = some (task.taskID, agent) := by
      rw [relaunch, hagent]
    grind

theorem decode_pageAt {l : List String} {token : String} {offset : Nat} (h : PageAt l token offset)
    (hl : l.length < 2 ^ 63) :
    (if token ≠ "" then decodePageToken token else .ok 0) = .ok (offset : Int) := by
  rcases h with ⟨rfl, rfl⟩ | ⟨rfl, hlt⟩
  · rfl
  · rw [if_pos (encodePageToken_ne_empty offset), decodePageToken_encode (by omega)]

theorem Repo.list_ids {token : String} {offset : Nat}
    (h : PageAt (r.idsOf status) token offset) (hl : (r.idsOf status).length < 2 ^ 63) :
    ∃ page, r.list { status := status, pageToken := token, pageSize := recoveryPageSize } =
        .ok page ∧
      page.tasks.map Task.taskID = ((r.idsOf status).drop offset).take 100 ∧
      page.nextPageToken =
        if offset + 100 < (r.idsOf status).length then encodePageToken (offset + 100) else "" := by
  have hsize : effectivePageSize recoveryPageSize = 100 := by decide
  have hlength : (r.matched { status := status }).length = (r.idsOf status).length :=
    (List.length_map _).symm
  have hlist : r.list { status := status, pageToken := token, pageSize := recoveryPageSize } = _ :=
    Repo.list_eq (decode_pageAt h hl)
  refine ⟨_, hlist, ?_, ?_⟩
  · dsimp only
    rw [hsize, List.map_take, List.map_drop]
    rfl
  · dsimp only
    rw [hsize, ← hlength]
    rfl

theorem MemoryRepo.length_idsOf_lt (r : MemoryRepo) (status : TaskStatus) :
    (r.idsOf status).length < 2 ^ 63 := by
  rw [Repo.idsOf, List.length_map]
  exact r.length_matched_lt _

/-- **One turn of the recovery.**  The tasks of the page are launched, and the next turn starts
    where the page ends, or with the next status. -/
theorem Recovery.Progress.step {start : MemoryRepo} {m : RecoveryMemory} {r : Recovery}
    (h : r.Progress start.toRepo m) {select : String → String → Except BrokerError AgentInfo}
    (hselect : ∀ capability expert, ∃ agent, select capability expert = .ok agent) :
    (r.step select m).1.memory = m.memory ∧
      (r.step select m).2.1.Progress start.toRepo (r.step select m).1 ∧
      (r.step select m).2.1.rank start.recoverable.length ≤
        r.rank start.recoverable.length - 1 := by
  cases h with
  | returned hlaunched => exact ⟨rfl, .returned hlaunched, Nat.zero_le _⟩
  | @listing done status later token offset hstatuses htoken hlaunched hkept =>
    have hids := hkept status List.mem_cons_self
    obtain ⟨page, hlist, htasks, hnext⟩ :=
      m.memory.repo.list_ids (hids ▸ htoken) (hids ▸ start.length_idsOf_lt status)
    rw [hids] at htasks hnext
    have hfst := map_fst_filterMap_relaunch hselect page.tasks
    -- what is launched now ends where the page ends
    have hall : m.launched ++ (page.tasks.filterMap (relaunch select)).map Prod.fst =
        done.flatMap start.idsOf ++ (start.idsOf status).take (offset + 100) := by
      grind
    have hcount : m.launched.length + (page.tasks.filterMap (relaunch select)).length =
        (m.launched ++ (page.tasks.filterMap (relaunch select)).map Prod.fst).length := by
      simp
    rw [Recovery.step, hlist]
    dsimp only
    rw [hcount]
    generalize hl : m.launched ++ (page.tasks.filterMap (relaunch select)).map Prod.fst = launched
      at hall hcount ⊢
    by_cases hmore : offset + 100 < (start.idsOf status).length
    · rw [if_pos hmore] at hnext
      rw [if_neg (by rw [hnext]; exact encodePageToken_ne_empty _), hnext]
      have hprogress : (Recovery.listing status later (encodePageToken (offset + 100))
          launched.length).Progress start.toRepo ⟨m.memory, launched⟩ :=
        .listing hstatuses (Or.inr ⟨rfl, hmore⟩) hall hkept
      refine ⟨rfl, hprogress, ?_⟩
      -- the page is full
      have hle := hprogress.launched_prefix.length_le
      have hlen := congrArg List.length hall
      have hlen' := congrArg List.length hlaunched
      simp only [List.length_append, List.length_take] at hlen hlen'
      simp only [Recovery.rank] at hle ⊢
      omega
    · rw [if_neg hmore] at hnext
      rw [if_pos hnext]
      -- the pass is done
      have hpass : launched = (done ++ [status]).flatMap start.idsOf := by
        rw [hall, List.take_of_length_le (by omega), List.flatMap_append, List.flatMap_singleton]
      cases later with
      | nil =>
        have hdone : launched = start.recoverable := by
          rw [hpass, hstatuses, Repo.recoverable]
        exact ⟨rfl, .returned (m := ⟨m.memory, launched⟩) hdone, Nat.zero_le _⟩
      | cons next later =>
        have hstatuses' : (done ++ [status]) ++ next :: later = recoveryStatuses := by
          rw [List.append_assoc]
          exact hstatuses
        have hall' : launched =
            (done ++ [status]).flatMap start.idsOf ++ (start.idsOf next).take 0 := by
          rw [hpass, List.take_zero, List.append_nil]
        refine ⟨rfl, .listing (m := ⟨m.memory, launched⟩) hstatuses' (Or.inl ⟨rfl, rfl⟩) hall'
          (fun s hs => hkept s (List.mem_cons_of_mem _ hs)), ?_⟩
        simp only [Recovery.rank, List.length_cons]
        omega

/-! ### The steps of the other threads -/

variable {task : Task}

theorem Repo.idsOf_save {copy stored : Task} (hstatus : status ≠ .unspecified)
    (hstored : r.lookup copy.taskID = some stored)
    (hcreated : stored.created = copy.created)
    (hkeep : stored.status = copy.status ∨ stored.status ≠ status ∧ copy.status ≠ status) :
    (r.save copy).idsOf status = r.idsOf status := by
  apply idsOf_congr hstatus
  intro k
  rw [Has, Has, lookup_save]
  grind

theorem Repo.idsOf_save_new (hstatus : status ≠ .unspecified) (hnew : r.lookup task.taskID = none)
    (hne : task.status ≠ status) : (r.save task).idsOf status = r.idsOf status := by
  apply idsOf_congr hstatus
  intro k
  rw [Has, Has, lookup_save]
  grind

def Thread.Copies (repo : Repo) (t : Thread) : Prop :=
  ∀ copy, t.pending = some copy →
    ∃ stored, repo.lookup copy.taskID = some stored ∧ stored.created = copy.created

theorem Thread.Copies.of_idle {repo : Repo} {t : Thread} (h : t.pending = none) : t.Copies repo :=
  fun copy hp => absurd hp (by simp [h])

theorem Thread.Copies.of_read {repo : Repo} {t : Thread} {copy : Task}
    (hp : t.pending = some copy) (hstored : repo.lookup id = some task)
    (hid : copy.taskID = task.taskID) (hcreated : copy.createdAt = task.createdAt) :
    t.Copies repo := by
  intro copy' hp'
  obtain rfl := Option.some.inj (hp.symm.trans hp')
  refine ⟨task, ?_, ?_⟩
  · rw [hid, Repo.taskID_of_lookup hstored]
    exact hstored
  · rw [Task.created, Task.created, hcreated]

theorem Acknowledged.createdAt_eq {t : Task} {newStatus : TaskStatus} {resultPayload : String}
    {taskErr : Option TaskError} {now : Int}
    (h : Acknowledged task newStatus resultPayload taskErr now t) :
    t.createdAt = task.createdAt := by
  cases h <;> rfl

theorem recordResult_createdAt (task : Task) (r : ExecResult) (now : Int) :
    (recordResult task r now).createdAt = task.createdAt := by
  rcases recordResult_cases task r now with ⟨-, err, h⟩ | ⟨-, h⟩
  · exact h.createdAt_eq
  · exact h.createdAt_eq

section Steps

variable {input : Input} {m : Memory} {ts : List Thread} {i : Nat} {t : Thread}
  {r : Memory × Thread × List Thread}

theorem copies_step (hcopies : ∀ t ∈ ts, t.Copies m.repo) (ht : ts[i]? = some t)
    (hfresh : t.dispatches = true → m.repo.lookup input.newID = none) (hr : StepCase input m t r) :
    ∀ u ∈ update ts i r.2.1 r.2.2, u.Copies r.1.repo := by
  -- unless something is stored, only the thread that moves is of interest
  have hquiet : ∀ (t' : Thread), t'.Copies m.repo →
      ∀ u ∈ update ts i t' [], u.Copies m.repo := by
    intro t' ht'
    apply forall_update
    · grind
    · exact ht'
    · simp
  cases hr with
  | ended o => exact hquiet _ (.of_idle rfl)
  | refused err hheard hactive hexec => exact hquiet _ (.of_idle rfl)
  | abandoned hheard hactive hstored => exact hquiet _ (.of_idle rfl)
  | acknowledgeRead hcheck hstored hlive =>
    have hack := applyAcknowledgement_acknowledged
    exact hquiet _ (.of_read rfl hstored (hack ..).taskID_eq (hack ..).createdAt_eq)
  | cancelRead hstored hlive => exact hquiet _ (.of_read rfl hstored rfl rfl)
  | executeRead hstored hlive => exact hquiet _ (.of_read rfl hstored rfl rfl)
  | resultRead hstored hlive =>
    exact hquiet _ (.of_read rfl hstored (recordResult_taskID ..) (recordResult_createdAt ..))
  | dispatched hprep =>
    apply forall_update
    · intro j u _ hu copy hp
      obtain ⟨stored, hstored, hcreated⟩ := hcopies u (List.mem_of_getElem? hu) copy hp
      refine ⟨stored, ?_, hcreated⟩
      show (Repo.save _ _).lookup copy.taskID = _
      rw [Repo.lookup_save, if_neg]
      · exact hstored
      · intro hid
        rw [hid] at hstored
        exact absurd ((hfresh rfl).symm.trans hstored) (by simp)
    · exact .of_idle rfl
    · simp only [List.mem_singleton, forall_eq]
      exact .of_idle rfl
  | @wrote _ copy stored hpending hstored =>
    obtain ⟨stored', hstored', hcreated⟩ := hcopies t (List.mem_of_getElem? ht) copy hpending
    apply forall_update
    · intro j u _ hu other hp
      obtain ⟨task, htask, htime⟩ := hcopies u (List.mem_of_getElem? hu) other hp
      show ∃ stored, (Repo.save _ _).lookup other.taskID = some stored ∧ _
      rw [Repo.lookup_save]
      grind
    · exact .of_idle (Thread.written_pending hpending)
    · simp

theorem idsOf_step (hcopies : t.Copies m.repo)
    (hstatus : status ≠ .unspecified)
    (hkeep : ∀ copy stored, t.pending = some copy → m.repo.lookup copy.taskID = some stored →
      stored.status ≠ copy.status → stored.status ≠ status ∧ copy.status ≠ status)
    (hnew : t.dispatches = true → .pending ≠ status ∧ m.repo.lookup input.newID = none)
    (hr : StepCase input m t r) : r.1.repo.idsOf status = m.repo.idsOf status := by
  cases hr with
  | dispatched hprep => exact Repo.idsOf_save_new hstatus (hnew rfl).2 (hnew rfl).1
  | @wrote _ copy stored hpending hstored =>
    obtain ⟨stored', hstored', hcreated⟩ := hcopies copy hpending
    obtain rfl := Option.some.inj (hstored.symm.trans hstored')
    refine Repo.idsOf_save hstatus hstored hcreated ?_
    grind
  | _ => rfl

end Steps

/-! ### Runs -/

def workers (r : Recovery) (ts : List Thread) : List Worker := .recovery r :: ts.map .task

theorem update_workers_zero (r r' : Recovery) (ts : List Thread) (more : List Thread) :
    update (workers r ts) 0 (.recovery r') (more.map .task) = workers r' (ts ++ more) := by
  rw [update, workers, workers, List.set_cons_zero, List.cons_append, List.map_append]

theorem update_workers_succ (r : Recovery) (ts : List Thread) (i : Nat) (t : Thread)
    (more : List Thread) :
    update (workers r ts) (i + 1) (.task t) (more.map .task) = workers r (update ts i t more) := by
  rw [update, update, workers, workers, List.set_cons_succ, List.cons_append, List.map_append,
    List.map_set]

inductive Recovering (start : MemoryRepo) : Config RecoveryMemory Worker → Prop
  | intro {m : RecoveryMemory} {r : Recovery} {ts : List Thread}
      (hprogress : r.Progress start.toRepo m) (hcopies : ∀ t ∈ ts, t.Copies m.memory.repo) :
      Recovering start ⟨m, workers r ts⟩

theorem Recovering.startup (start : MemoryRepo) : Recovering start (startup start.toRepo) := by
  have hstatuses : [] ++ .pending :: [.dispatched, .retrying] = recoveryStatuses := rfl
  have hcopies : ∀ t ∈ ([] : List Thread), t.Copies start.toRepo := by simp
  exact .intro (m := ⟨⟨start.toRepo, []⟩, []⟩)
    (.listing hstatuses (Or.inl ⟨rfl, rfl⟩) rfl (fun _ _ => rfl)) hcopies

theorem Recovery.Progress.kept {start : Repo} {m m' : RecoveryMemory} {r : Recovery}
    (h : r.Progress start m) (hlaunched : m'.launched = m.launched)
    (hkept : ∀ s ∈ r.unlisted, s ∈ recoveryStatuses →
      m'.memory.repo.idsOf s = m.memory.repo.idsOf s) : r.Progress start m' := by
  cases h with
  | returned hall =>
    rw [← hlaunched] at hall ⊢
    exact .returned hall
  | @listing done status later token offset hstatuses htoken hall hids =>
    rw [← hlaunched] at hall ⊢
    refine .listing hstatuses htoken hall (fun s hs => ?_)
    rw [hkept s hs (by rw [← hstatuses]; exact List.mem_append_right _ hs), hids s hs]

section Runs

variable {start : MemoryRepo} {c : Config RecoveryMemory Worker}

theorem Recovering.call (h : Recovering start c) (k : Call) :
    Recovering start { c with threads := c.threads ++ [recovering.start k] } := by
  cases h with
  | @intro m r ts hprogress hcopies =>
    have hidle : (Call.start k).pending = none := by cases k <;> rfl
    have hts : workers r ts ++ [recovering.start k] = workers r (ts ++ [k.start]) := by
      rw [workers, workers, List.map_append, List.cons_append]
      rfl
    dsimp only
    rw [hts]
    refine .intro hprogress ?_
    rw [List.forall_mem_append, List.forall_mem_singleton]
    exact ⟨hcopies, .of_idle hidle⟩

theorem Recovering.step (h : Recovering start c) {i : Nat} {input : RecoveryInput} {w : Worker}
    (hw : c.threads[i]? = some w) (hmove : RecoveryMove c (.step i input)) :
    Recovering start ⟨(recovering.step input c.shared w).1,
      update c.threads i (recovering.step input c.shared w).2.1
        (recovering.step input c.shared w).2.2⟩ := by
  obtain ⟨hsettled, hselects⟩ := hmove
  cases h with
  | @intro m r ts hprogress hcopies =>
    cases i with
    | zero =>
      -- a turn of the recovery writes nothing
      obtain rfl : Worker.recovery r = w := Option.some.inj hw
      obtain ⟨hmemory, hnext, -⟩ := hprogress.step hselects
      have hmore : (r.step input.select m).2.2.map (fun e => Worker.task (.execute e.1 e.2)) =
          ((r.step input.select m).2.2.map (fun e => Thread.execute e.1 e.2)).map .task := by
        simp
      show Recovering start ⟨(r.step input.select m).1,
        update (workers r ts) 0 (.recovery (r.step input.select m).2.1)
          ((r.step input.select m).2.2.map (fun e => Worker.task (.execute e.1 e.2)))⟩
      rw [hmore, update_workers_zero]
      refine .intro hnext ?_
      rw [hmemory, List.forall_mem_append]
      refine ⟨hcopies, ?_⟩
      intro t ht
      obtain ⟨e, -, rfl⟩ := List.mem_map.mp ht
      exact .of_idle rfl
    | succ i =>
      -- a turn of another thread leaves the lists of the passes that are not done
      obtain ⟨t, ht, rfl⟩ : ∃ t, ts[i]? = some t ∧ Worker.task t = w := by
        rw [workers, List.getElem?_cons_succ, List.getElem?_map] at hw
        grind
      obtain ⟨hkeep, hnew⟩ := hsettled t hw
      have hcase := step_cases input.input m.memory t
      show Recovering start ⟨⟨(Broker.step input.input m.memory t).1, m.launched⟩,
        update (workers r ts) (i + 1) (.task (Broker.step input.input m.memory t).2.1)
          ((Broker.step input.input m.memory t).2.2.map .task)⟩
      rw [update_workers_succ]
      refine .intro (hprogress.kept rfl ?_) (copies_step hcopies ht (fun hd => (hnew hd).2) hcase)
      intro s hs hmem
      refine idsOf_step (hcopies t (List.mem_of_getElem? ht)) (ne_unspecified_of_mem s hmem) ?_ ?_
        hcase
      · intro copy stored hp hstored hne
        obtain ⟨hold, hcopy⟩ := hkeep copy stored hp hstored hne
        exact ⟨fun he => hold (he ▸ hs), fun he => hcopy (he ▸ hs)⟩
      · intro hd
        exact ⟨fun he => (hnew hd).1 (he ▸ hs), (hnew hd).2⟩

theorem Recovering.run (h : Recovering start c) {acts : List (Act Call RecoveryInput)}
    (halong : recovering.Along RecoveryMove c acts) : Recovering start (recovering.run c acts) :=
  Program.run_invariant (fun _ k h => h.call k) (fun _ _ _ _ h ht hC => h.step ht hC) h halong

def isTurn : Act Call RecoveryInput → Bool
  | .step 0 _ => true
  | _ => false

def rankOf (start : Repo) (c : Config RecoveryMemory Worker) : Nat :=
  ((recoveryOf c).map (Recovery.rank start.recoverable.length)).getD 0

theorem Recovering.rank_act (h : Recovering start c) {a : Act Call RecoveryInput}
    (hmove : RecoveryMove c a) :
    rankOf start.toRepo (recovering.act c a) ≤
      rankOf start.toRepo c - if isTurn a then 1 else 0 := by
  cases h with
  | @intro m r ts hprogress hcopies =>
    cases a with
    | call k => exact le_refl _
    | step i input =>
      cases i with
      | zero => exact (hprogress.step hmove.2).2.2
      | succ i =>
        rw [Program.act]
        split <;> exact le_refl _

theorem Recovering.rank_run (h : Recovering start c) {acts : List (Act Call RecoveryInput)}
    (halong : recovering.Along RecoveryMove c acts) :
    rankOf start.toRepo (recovering.run c acts) ≤ rankOf start.toRepo c - acts.countP isTurn := by
  induction acts generalizing c with
  | nil => exact le_refl _
  | cons a acts ih =>
    have hone := h.rank_act halong.1
    have hnext : Recovering start (recovering.run c [a]) := h.run ⟨halong.1, trivial⟩
    rw [Program.run_cons, Program.run_nil] at hnext
    have hrest := ih hnext halong.2
    rw [Program.run_cons, List.countP_cons]
    omega

end Runs

/-- **Recovery launches every task in flight once.**  From named statuses, in every run in which no
    task gets or loses a status while the pass over that status is not done: each task in flight is
    launched once at most and no other at all; when the recovery has returned, each was launched
    exactly once and their number is returned; and it returns after so many turns, and three more. -/
theorem launched_once {start : MemoryRepo}
    (hnamed : ∀ id t, start.lookup id = some t →
      t.status.isTerminal = true ∨ t.status ∈ recoveryStatuses)
    {acts : List (Act Call RecoveryInput)}
    (halong : recovering.Along RecoveryMove (startup start.toRepo) acts) :
    (∀ id, (recovering.run (startup start.toRepo) acts).shared.launched.count id ≤
        start.inFlight.count id) ∧
      (∀ n err, recoveryOf (recovering.run (startup start.toRepo) acts) = some (.returned n err) →
        err = none ∧ n = start.inFlight.length ∧
          (recovering.run (startup start.toRepo) acts).shared.launched.Perm start.inFlight) ∧
      (start.inFlight.length + 3 ≤ acts.countP isTurn →
        ∃ n err, recoveryOf (recovering.run (startup start.toRepo) acts) =
          some (.returned n err)) := by
  have hperm := Repo.recoverable_perm hnamed
  have hstart := Recovering.startup start
  have hrank := hstart.rank_run halong
  have hinit : rankOf start.toRepo (startup start.toRepo) = start.recoverable.length + 3 := rfl
  rw [hinit, hperm.length_eq] at hrank
  have hend := hstart.run halong
  generalize recovering.run (startup start.toRepo) acts = c at hrank hend ⊢
  cases hend with
  | @intro m r ts hprogress hcopies =>
    refine ⟨?_, ?_, ?_⟩
    · intro id
      rw [← hperm.count_eq]
      exact hprogress.launched_prefix.sublist.count_le id
    · intro n err hreturned
      obtain rfl : r = .returned n err := Option.some.inj hreturned
      cases hprogress with
      | returned hlaunched =>
        refine ⟨rfl, ?_, ?_⟩
        · rw [hlaunched, hperm.length_eq]
        · grind
    · intro hturns
      cases hprogress with
      | returned hlaunched => exact ⟨_, _, rfl⟩
      | listing hstatuses htoken hlaunched hkept =>
        -- there is a turn left, but none is
        have hzero := Nat.le_zero.mp (hrank.trans (by omega))
        exact absurd hzero (Nat.succ_ne_zero _)

/-! ### A task that was pending -/

def pendingRepo : MemoryRepo where
  toRepo := Repo.empty.save
    { taskID := "task-1", workflowID := "wf-1", capabilityName := "build", inputPayload := "1",
      status := .pending, createdAt := some 0 }
  length_lt := by decide

def builder : RecoveryInput where
  select := fun _ _ => .ok { agentID := "agent-1" }

def busyRepo : MemoryRepo where
  toRepo := pendingRepo.toRepo.save
    { taskID := "task-2", workflowID := "wf-1", capabilityName := "test", inputPayload := "2",
      status := .retrying, createdAt := some 1 }
  length_lt := by decide

/-- The first task is read for its execution between the passes, and written when they are done. -/
def busyActs : List (Act Call RecoveryInput) :=
  [.step 0 builder, .step 1 builder, .step 0 builder, .step 0 builder, .step 1 builder, .step 2 builder]

def Worker.quiet (left : List TaskStatus) : Worker → Bool
  | .task t => !t.dispatches && (t.pending.isNone || left.isEmpty)
  | .recovery _ => true

theorem recoveryMove_of_quiet {c : Config RecoveryMemory Worker} {i : Nat}
    (h : (c.threads[i]?).all (Worker.quiet (unlisted c)) = true) : RecoveryMove c (.step i builder) := by
  refine ⟨fun t ht => ?_, fun _ _ => ⟨_, rfl⟩⟩
  simp only [ht, Option.all_some, Worker.quiet, Bool.and_eq_true, Bool.not_eq_true', Bool.or_eq_true,
    Option.isNone_iff_eq_none, List.isEmpty_iff] at h
  refine ⟨fun copy stored hcopy _ _ => ?_, fun hd => absurd hd (by simp [h.1])⟩
  simp [h.2.resolve_left (by simp [hcopy])]

theorem named_busyRepo : ∀ id t, busyRepo.lookup id = some t →
    t.status.isTerminal = true ∨ t.status ∈ recoveryStatuses := by
  intro id t ht
  have hlookup : busyRepo.lookup id = _ := Repo.lookup_save
  rw [hlookup] at ht
  split at ht
  · obtain rfl := Option.some.inj ht
    decide
  · have hlookup : pendingRepo.lookup id = _ := Repo.lookup_save
    have ht : pendingRepo.lookup id = some t := ht
    rw [hlookup] at ht
    split at ht
    · obtain rfl := Option.some.inj ht
      decide
    · exact absurd ht (by simp)

theorem launched_once_busy :
    recoveryOf (recovering.run (startup busyRepo.toRepo) busyActs) = some (.returned 2 none) ∧
      (recovering.run (startup busyRepo.toRepo) busyActs).shared.launched.Perm busyRepo.inFlight := by
  have hreturned : recoveryOf (recovering.run (startup busyRepo.toRepo) busyActs) = some (.returned 2 none) := by
    decide +kernel
  have halong : recovering.Along RecoveryMove (startup busyRepo.toRepo) busyActs :=
    ⟨recoveryMove_of_quiet (by decide +kernel), recoveryMove_of_quiet (by decide +kernel),
      recoveryMove_of_quiet (by decide +kernel), recoveryMove_of_quiet (by decide +kernel),
      recoveryMove_of_quiet (by decide +kernel), recoveryMove_of_quiet (by decide +kernel), trivial⟩
  exact ⟨hreturned, ((launched_once named_busyRepo halong).2.1 2 none hreturned).2.2⟩

def overtakingActs : List (Act Call RecoveryInput) :=
  [.step 0 builder, .step 1 builder, .step 1 builder, .step 0 builder, .step 0 builder]

/-- **A task is launched twice.**  It was pending at startup; it is launched in the first pass,
    and once more in the second. -/
theorem pending_launched_twice :
    pendingRepo.inFlight = ["task-1"] ∧
      (recovering.run (startup pendingRepo.toRepo) overtakingActs).shared.launched =
        ["task-1", "task-1"] ∧
      recoveryOf (recovering.run (startup pendingRepo.toRepo) overtakingActs) =
        some (.returned 2 none) := by
  refine ⟨?_, ?_, ?_⟩
  · decide +kernel
  · decide +kernel
  · decide +kernel

end Zynax.Broker
