import Zynax.Broker.Service

namespace Zynax.Broker

open Golang

/-!
# Retry accounting

Acknowledgements that are applied one after another to a new task, by the numbers of their
statuses on the wire.
-/

/-! ### Calls that nothing interrupts -/

def TaskStatus.ofNumber (n : Int32) : TaskStatus :=
  if n = 0 then .unspecified
  else if n = 1 then .pending
  else if n = 2 then .dispatched
  else if n = 3 then .retrying
  else if n = 4 then .completed
  else if n = 5 then .failed
  else if n = 6 then .cancelled
  else .other n

structure Ack where
  number : Int32
  resultPayload : String := ""
  error : Option TaskError := none
  now : Int := 0

def Ack.status (a : Ack) : TaskStatus := .ofNumber a.number

def Ack.request (a : Ack) (taskID : String) : AckRequest :=
  ⟨taskID, a.status, a.resultPayload, a.error⟩

/-- An acknowledgement that is not interrupted. -/
def acknowledgeTask (m : Memory) (taskID : String) (a : Ack) : Memory × Thread :=
  let read := step { now := a.now } m (.acknowledge (a.request taskID))
  let written := step { now := a.now } read.1 read.2.1
  (written.1, written.2.1)

def Thread.resulting : Thread → Option TaskStatus
  | .finished (.acknowledged _ resulting) => some resulting
  | _ => none

def acknowledgeAll (m : Memory) (taskID : String) (acks : List Ack) :
    Memory × List (Option TaskStatus) :=
  acks.foldl
    (fun s a =>
      let r := acknowledgeTask s.1 taskID a
      (r.1, s.2 ++ [r.2.resulting]))
    (m, [])

theorem acknowledgeAll_snoc (m : Memory) (taskID : String) (pre : List Ack) (a : Ack) :
    acknowledgeAll m taskID (pre ++ [a]) =
      let s := acknowledgeAll m taskID pre
      let r := acknowledgeTask s.1 taskID a
      (r.1, s.2 ++ [r.2.resulting]) := by
  rw [acknowledgeAll, List.foldl_append]
  rfl

/-! ### One acknowledgement -/

variable {taskID : String} {task : Task} {a : Ack}

inductive AckCase (taskID : String) (a : Ack) (task : Task) : Task → Option TaskStatus → Prop
  /-- the call is refused, for what it asks for or because the task has ended -/
  | refused (h : acknowledgeCheck (a.request taskID) ≠ none ∨ task.status.isTerminal = true) :
      AckCase taskID a task task none
  | applied {t : Task} (hcheck : acknowledgeCheck (a.request taskID) = none)
      (hlive : task.status.isTerminal = false)
      (h : Acknowledged task a.status a.resultPayload a.error a.now t) :
      AckCase taskID a task t (some t.status)

/-- **A call that nothing interrupts** is refused, or stores and reports what the acknowledgement
    makes of the task. -/
theorem acknowledgeTask_cases {m : Memory} (hstored : m.repo.lookup taskID = some task) (a : Ack) :
    ∃ t, (acknowledgeTask m taskID a).1.repo.lookup taskID = some t ∧
      AckCase taskID a task t (acknowledgeTask m taskID a).2.resulting := by
  unfold acknowledgeTask
  dsimp only
  cases hcheck : acknowledgeCheck (a.request taskID) with
  | some err =>
    simp only [step, hcheck]
    exact ⟨task, hstored, .refused (Or.inl (by simp [hcheck]))⟩
  | none =>
    cases hread : readLive m.repo (a.request taskID).taskID with
    | error err =>
      simp only [step, hcheck, hread]
      exact ⟨task, hstored, .refused (Or.inr (readLive_eq_error hread hstored))⟩
    | ok read =>
      obtain ⟨hread', hlive⟩ := readLive_eq_ok hread
      obtain rfl : read = task := Option.some.inj (hread'.symm.trans hstored)
      have hack := applyAcknowledgement_acknowledged read a.status a.resultPayload a.error a.now
      obtain ⟨t, ht⟩ : ∃ t, applyAcknowledgement read a.status a.resultPayload a.error a.now =
          (t, t.status) := ⟨_, Prod.ext rfl (applyAcknowledgement_snd ..)⟩
      rw [ht] at hack
      have hid : t.taskID = taskID := hack.taskID_eq.trans (Repo.taskID_of_lookup hstored)
      have hfirst : step { now := a.now } m (.acknowledge (a.request taskID)) =
          (⟨m.repo, m.heard ++ [.acknowledged (a.request taskID)]⟩,
            .acknowledgeUpdate t t.status, []) := by
        have happly : applyAcknowledgement read (a.request taskID).status
            (a.request taskID).resultPayload (a.request taskID).error a.now = (t, t.status) := ht
        simp only [step, hcheck, hread, happly]
      have hupdate : m.repo.update t = .ok (m.repo.save t) := by
        rw [Repo.update, hid, hstored]
      rw [hfirst]
      simp only [step, writeTask, hupdate]
      refine ⟨t, ?_, .applied hcheck hlive hack⟩
      rw [Repo.lookup_save, if_pos hid.symm]

theorem acknowledgeCheck_of_failed (hid : taskID ≠ "") (h : a.status = .failed) :
    acknowledgeCheck (a.request taskID) = none := by
  simp [acknowledgeCheck, Ack.request, hid, h]

theorem AckCase.of_failed {t : Task} {result : Option TaskStatus}
    (hcase : AckCase taskID a task t result) (hid : taskID ≠ "") (hf : a.status = .failed)
    (hlive : task.status.isTerminal = false) :
    result = some (if task.retriesLeft then .retrying else .failed) := by
  cases hcase with
  | refused hrefused =>
    rcases hrefused with hcheck | hterm
    · exact absurd (acknowledgeCheck_of_failed hid hf) hcheck
    · grind
  | applied hcheck hlive hack =>
    cases hack with
    | completed hs => exact absurd (hf.symm.trans hs) (by simp)
    | cancelled hc hne => exact absurd hf hne
    | retrying hs hleft => rw [hleft]; rfl
    | failed hs hleft => rw [hleft]; rfl

theorem status_of_acknowledgeCheck (h : acknowledgeCheck (a.request taskID) = none) :
    a.status = .completed ∨ a.status = .failed ∨ a.status = .cancelled ∨ ∃ n, a.status = .other n := by
  rw [acknowledgeCheck] at h
  split at h
  · exact absurd h (by simp)
  · have hstatus : (a.request taskID).status = a.status := rfl
    rw [hstatus] at h
    cases hs : a.status with
    | completed => simp
    | failed => simp
    | cancelled => simp
    | other n => simp
    | _ =>
      grind

/-! ### The count -/

theorem toInt_add_one {c : Int32} (h : c.toInt < 2 ^ 31 - 1) : (c + 1).toInt = c.toInt + 1 := by
  have hlow := c.le_toInt
  rw [Int32.toInt_add]
  grind

theorem retriesLeft_of_max (h : task.retryCount.toInt = 2 ^ 31 - 1) :
    task.retriesLeft = true := by
  have hmax : task.retryCount = 2147483647 := Int32.toInt_inj.mp h
  rw [Task.retriesLeft, hmax, decide_eq_true_eq, Int32.le_iff_toInt_le]
  exact Int32.le_toInt _

/-! ### Accounting -/

def allowed (maxRetries : Int32) : Int := max maxRetries.toInt 0

def retries (results : List (Option TaskStatus)) : Int := results.count (some .retrying)

def AnyTerminal (results : List (Option TaskStatus)) : Prop :=
  ∃ s, some s ∈ results ∧ s.isTerminal = true

structure Accounted (maxRetries : Int32) (results : List (Option TaskStatus)) (a : Ack)
    (before after : Task) (result : Option TaskStatus) : Prop where
  failed : a.status = .failed → ¬ AnyTerminal results →
    result = some (if retries results < allowed maxRetries then .retrying else .failed)
  count_eq : after.retryCount.toInt = retries (results ++ [result])
  count_nonneg : 0 ≤ after.retryCount.toInt
  count_le : after.retryCount.toInt ≤ allowed maxRetries
  ended : AnyTerminal results → result = none ∧ after = before
  unknown : a.status ≠ .completed → a.status ≠ .failed → a.status ≠ .cancelled →
    result = none ∧ after = before

def RetryAccounting (m : Memory) (taskID : String) (maxRetries : Int32) (acks : List Ack) : Prop :=
  ∀ pre a post, acks = pre ++ a :: post → ∃ before after,
    (acknowledgeAll m taskID pre).1.repo.lookup taskID = some before ∧
      (acknowledgeAll m taskID (pre ++ [a])).1.repo.lookup taskID = some after ∧
      Accounted maxRetries (acknowledgeAll m taskID pre).2 a before after
        (acknowledgeTask (acknowledgeAll m taskID pre).1 taskID a).2.resulting

def failures (acks : List Ack) : Int := acks.countP (fun a => a.status = .failed)

structure StillOpen (taskID : String) (maxRetries : Int32) (acks : List Ack) : Prop where
  harmless : ∀ a ∈ acks, acknowledgeCheck (a.request taskID) ≠ none ∨ a.status = .failed
  failures_le : failures acks ≤ allowed maxRetries

structure Orderly (taskID : String) (maxRetries : Int32) (pre : List Ack) (a : Ack) : Prop where
  named : StillOpen taskID maxRetries pre → ∀ n, a.status ≠ .other n
  counted : StillOpen taskID maxRetries pre → a.status = .failed → failures pre < 2 ^ 31 - 1

theorem allowed_nonneg (maxRetries : Int32) : 0 ≤ allowed maxRetries := le_max_right _ _

theorem allowed_le (maxRetries : Int32) : allowed maxRetries ≤ 2 ^ 31 - 1 := by
  have hhigh := maxRetries.toInt_lt
  exact max_le (by omega) (by omega)

theorem retries_nonneg (results : List (Option TaskStatus)) : 0 ≤ retries results :=
  Int.natCast_nonneg _

theorem retries_snoc (results : List (Option TaskStatus)) (r : Option TaskStatus) :
    retries (results ++ [r]) = retries results + if r = some .retrying then 1 else 0 := by
  rw [retries, retries, List.count_append, Nat.cast_add, List.count_singleton]
  simp

theorem failures_snoc (pre : List Ack) (a : Ack) :
    failures (pre ++ [a]) = failures pre + if a.status = .failed then 1 else 0 := by
  rw [failures, failures, List.countP_append, Nat.cast_add, List.countP_singleton]
  simp

theorem ended_snoc {results : List (Option TaskStatus)} {r : Option TaskStatus} :
    AnyTerminal (results ++ [r]) ↔ AnyTerminal results ∨ ∃ s, r = some s ∧ s.isTerminal = true := by
  constructor
  · rintro ⟨s, hs, hterm⟩
    rcases List.mem_append.mp hs with hs | hs
    · exact Or.inl ⟨s, hs, hterm⟩
    · grind
  · rintro (⟨s, hs, hterm⟩ | ⟨s, rfl, hterm⟩)
    · exact ⟨s, List.mem_append_left _ hs, hterm⟩
    · exact ⟨s, List.mem_append_right _ (by simp), hterm⟩

section

variable {taskID : String} {maxRetries : Int32} {pre : List Ack} {a : Ack}

theorem StillOpen.init (h : StillOpen taskID maxRetries (pre ++ [a])) :
    StillOpen taskID maxRetries pre := by
  refine ⟨fun b hb => h.harmless b (List.mem_append_left _ hb), ?_⟩
  have hle := h.failures_le
  rw [failures_snoc] at hle
  omega

theorem stillOpen_snoc_iff : StillOpen taskID maxRetries (pre ++ [a]) ↔
    StillOpen taskID maxRetries pre ∧
      (acknowledgeCheck (a.request taskID) ≠ none ∨ a.status = .failed) ∧
      failures (pre ++ [a]) ≤ allowed maxRetries := by
  constructor
  · intro h
    exact ⟨h.init, h.harmless a (by simp), h.failures_le⟩
  · rintro ⟨hpre, ha, hle⟩
    refine ⟨?_, hle⟩
    intro b hb
    rcases List.mem_append.mp hb with hb | hb
    · exact hpre.harmless b hb
    · grind

end

/-! ### The invariant of a sequence -/

structure Tally (taskID : String) (maxRetries : Int32) (acks : List Ack) (task : Task)
    (results : List (Option TaskStatus)) : Prop where
  limit : task.maxRetries = maxRetries
  count_eq : task.retryCount.toInt = retries results
  count_le : retries results ≤ allowed maxRetries
  ended_iff : task.status.isTerminal = true ↔ AnyTerminal results
  open_iff : task.status.isTerminal = false ↔ StillOpen taskID maxRetries acks
  failures_eq : StillOpen taskID maxRetries acks → retries results = failures acks

/-! ### Whole sequences -/

section

variable {taskID : String} {maxRetries : Int32} {pre : List Ack} {a : Ack} {task t : Task}
  {results : List (Option TaskStatus)} {result : Option TaskStatus}

theorem Tally.refused (h : Tally taskID maxRetries pre task results)
    (hopen : StillOpen taskID maxRetries pre ↔ StillOpen taskID maxRetries (pre ++ [a]))
    (hfailures : StillOpen taskID maxRetries pre → failures (pre ++ [a]) = failures pre) :
    Tally taskID maxRetries (pre ++ [a]) task (results ++ [none]) := by
  have hretries : retries (results ++ [none]) = retries results := by simp [retries_snoc]
  refine ⟨h.limit, ?_, ?_, ?_, h.open_iff.trans hopen, ?_⟩
  · rw [hretries, h.count_eq]
  · rw [hretries]
    exact h.count_le
  · rw [ended_snoc, h.ended_iff]
    simp
  · intro hstill
    rw [hretries, hfailures (hopen.mpr hstill), h.failures_eq (hopen.mpr hstill)]

theorem Tally.terminal (h : Tally taskID maxRetries pre task results)
    (hlimit : t.maxRetries = task.maxRetries) (hcount : t.retryCount = task.retryCount)
    (hterm : t.status.isTerminal = true) (hclosed : ¬ StillOpen taskID maxRetries (pre ++ [a])) :
    Tally taskID maxRetries (pre ++ [a]) t (results ++ [some t.status]) := by
  have hne : (some t.status : Option TaskStatus) ≠ some .retrying := by
    intro heq
    rw [Option.some.inj heq] at hterm
    exact absurd hterm (by decide)
  have hretries : retries (results ++ [some t.status]) = retries results := by
    rw [retries_snoc, if_neg hne, add_zero]
  refine ⟨hlimit.trans h.limit, ?_, ?_, ?_, ?_, fun hstill => absurd hstill hclosed⟩
  · rw [hretries, hcount, h.count_eq]
  · rw [hretries]
    exact h.count_le
  · rw [ended_snoc]
    grind
  · grind

theorem Tally.retriesLeft_iff (h : Tally taskID maxRetries pre task results)
    (hless : task.retryCount.toInt < 2 ^ 31 - 1) :
    task.retriesLeft = true ↔ retries results < allowed maxRetries := by
  have hnonneg := retries_nonneg results
  rw [Task.retriesLeft, decide_eq_true_eq, Int32.le_iff_toInt_le, toInt_add_one hless, h.count_eq,
    h.limit, allowed]
  omega

theorem Tally.count_lt (h : Tally taskID maxRetries pre task results)
    (horderly : Orderly taskID maxRetries pre a) (hopen : StillOpen taskID maxRetries pre)
    (hf : a.status = .failed) : task.retryCount.toInt < 2 ^ 31 - 1 := by
  rw [h.count_eq, h.failures_eq hopen]
  exact horderly.counted hopen hf

/-- **One acknowledgement keeps the tally.** -/
theorem Tally.step (hid : taskID ≠ "") (h : Tally taskID maxRetries pre task results)
    (horderly : Orderly taskID maxRetries pre a) (hcase : AckCase taskID a task t result) :
    Tally taskID maxRetries (pre ++ [a]) t (results ++ [result]) := by
  cases hcase with
  | refused hrefused =>
    by_cases hopen : StillOpen taskID maxRetries pre
    · -- the task is live, so it was the checks that refused
      have hlive := h.open_iff.mpr hopen
      have hcheck : acknowledgeCheck (a.request taskID) ≠ none := by
        grind
      have hnotFailed : a.status ≠ .failed := fun hf => hcheck (acknowledgeCheck_of_failed hid hf)
      have hfailures : failures (pre ++ [a]) = failures pre := by
        rw [failures_snoc, if_neg hnotFailed, add_zero]
      refine h.refused (iff_of_true hopen ?_) fun _ => hfailures
      exact stillOpen_snoc_iff.mpr ⟨hopen, Or.inl hcheck, hfailures ▸ hopen.failures_le⟩
    · exact h.refused (iff_of_false hopen fun h' => hopen h'.init) fun h' => absurd h' hopen
  | applied hcheck hlive hack =>
    have hopen := h.open_iff.mp hlive
    have hclosed : a.status ≠ .failed → ¬ StillOpen taskID maxRetries (pre ++ [a]) := by
      intro hne hstill
      rcases (stillOpen_snoc_iff.mp hstill).2.1 with hsome | hf
      · exact hsome hcheck
      · exact hne hf
    cases hack with
    | completed hs => exact h.terminal rfl rfl rfl (hclosed (by simp [hs]))
    | cancelled hc hf => exact h.terminal rfl rfl rfl (hclosed hf)
    | retrying hs hleft =>
      have hless := h.count_lt horderly hopen hs
      have hlimit := (h.retriesLeft_iff hless).mp hleft
      have hretries : retries (results ++ [some .retrying]) = retries results + 1 := by
        rw [retries_snoc, if_pos rfl]
      have hfailures : failures (pre ++ [a]) = failures pre + 1 := by
        rw [failures_snoc, if_pos hs]
      have hstill : StillOpen taskID maxRetries (pre ++ [a]) := by
        refine stillOpen_snoc_iff.mpr ⟨hopen, Or.inr hs, ?_⟩
        rw [hfailures, ← h.failures_eq hopen]
        omega
      have hnotEnded : ¬ AnyTerminal results := by
        rw [← h.ended_iff, hlive]
        simp
      refine ⟨h.limit, ?_, ?_, ?_, iff_of_true rfl hstill, ?_⟩
      · show (task.retryCount + 1).toInt = _
        rw [hretries, toInt_add_one hless, h.count_eq]
      · grind
      · rw [ended_snoc]
        grind
      · intro _
        rw [hretries, hfailures, h.failures_eq hopen]
    | failed hs hleft =>
      have hless := h.count_lt horderly hopen hs
      refine h.terminal rfl rfl rfl fun hstill => ?_
      -- one more failure than may be retried
      have hle := hstill.failures_le
      have hlimit : ¬ retries results < allowed maxRetries := by
        rw [← h.retriesLeft_iff hless, hleft]
        simp
      rw [failures_snoc, if_pos hs, ← h.failures_eq hopen] at hle
      omega

theorem Tally.accounted (hid : taskID ≠ "") (h : Tally taskID maxRetries pre task results)
    (horderly : Orderly taskID maxRetries pre a) (hcase : AckCase taskID a task t result) :
    Accounted maxRetries results a task t result := by
  have hnext := h.step hid horderly hcase
  refine ⟨?_, hnext.count_eq, ?_, ?_, ?_, ?_⟩
  · intro hf hnotEnded
    have hlive : task.status.isTerminal = false := by
      rw [← Bool.not_eq_true, h.ended_iff]
      exact hnotEnded
    have hopen := h.open_iff.mp hlive
    rw [hcase.of_failed hid hf hlive]
    simp only [h.retriesLeft_iff (h.count_lt horderly hopen hf)]
  · rw [hnext.count_eq]
    exact retries_nonneg _
  · rw [hnext.count_eq]
    exact hnext.count_le
  · intro hended
    cases hcase with
    | refused _ => exact ⟨rfl, rfl⟩
    | applied _ hlive _ =>
      rw [h.ended_iff.mpr hended] at hlive
      exact absurd hlive (by simp)
  · intro hc hf hcancel
    cases hcase with
    | refused _ => exact ⟨rfl, rfl⟩
    | applied hcheck hlive _ =>
      rcases status_of_acknowledgeCheck hcheck with hs | hs | hs | ⟨n, hs⟩
      · exact absurd hs hc
      · exact absurd hs hf
      · exact absurd hs hcancel
      · exact absurd hs (horderly.named (h.open_iff.mp hlive) n)

theorem Tally.orderly (hid : taskID ≠ "") (h : Tally taskID maxRetries pre task results)
    (hcase : AckCase taskID a task t result) (hacc : Accounted maxRetries results a task t result) :
    Orderly taskID maxRetries pre a where
  named := by
    intro hopen n hn
    have hnone := (hacc.unknown (by simp [hn]) (by simp [hn]) (by simp [hn])).1
    cases hcase with
    | refused hrefused =>
      rcases hrefused with hcheck | hterm
      · exact hcheck (by simp [acknowledgeCheck, Ack.request, hid, hn])
      · rw [h.open_iff.mpr hopen] at hterm
        exact absurd hterm (by simp)
    | applied => exact absurd hnone (by simp)
  counted := by
    intro hopen hf
    by_contra hmax
    have hlive := h.open_iff.mpr hopen
    have hle := allowed_le maxRetries
    have hcount := h.count_le
    have hfailures := h.failures_eq hopen
    have hnotEnded : ¬ AnyTerminal results := by
      rw [← h.ended_iff, hlive]
      simp
    -- the count wraps around, and the task is retried once more than it should be
    have hretrying := hcase.of_failed hid hf hlive
    rw [retriesLeft_of_max (by rw [h.count_eq]; omega), if_pos rfl] at hretrying
    have hfailed := hacc.failed hf hnotEnded
    grind

end

section

variable {m : Memory} {taskID : String} {maxRetries : Int32} {task : Task}

/-- **The tally after a sequence**, each of whose acknowledgements is counted rightly. -/
theorem tally_acknowledgeAll (hid : taskID ≠ "") (hstored : m.repo.lookup taskID = some task)
    (hstart : Tally taskID maxRetries [] task []) (acks : List Ack)
    (horderly : ∀ pre a post, acks = pre ++ a :: post → Orderly taskID maxRetries pre a) :
    ∃ t, (acknowledgeAll m taskID acks).1.repo.lookup taskID = some t ∧
      Tally taskID maxRetries acks t (acknowledgeAll m taskID acks).2 := by
  induction acks using List.reverseRecOn with
  | nil => exact ⟨task, hstored, hstart⟩
  | append_singleton pre a ih =>
    obtain ⟨t, ht, htally⟩ := ih fun pre' b post h =>
      horderly pre' b (post ++ [a]) (by rw [h, List.append_assoc, List.cons_append])
    obtain ⟨t', ht', hcase⟩ := acknowledgeTask_cases ht a
    rw [acknowledgeAll_snoc]
    exact ⟨t', ht', htally.step hid (horderly pre a [] rfl) hcase⟩

theorem StillOpen.orderly {pre post : List Ack}
    (h : StillOpen taskID maxRetries (pre ++ a :: post)) (hid : taskID ≠ "") :
    Orderly taskID maxRetries pre a where
  named := by
    intro _ n hn
    rcases h.harmless a (by simp) with hcheck | hf
    · exact hcheck (by simp [acknowledgeCheck, Ack.request, hid, hn])
    · grind
  counted := by
    intro _ hf
    have hle := h.failures_le
    have hmax := allowed_le maxRetries
    have hcount : failures (pre ++ a :: post) = failures pre + 1 + failures post := by
      rw [failures, List.countP_append, List.countP_cons_of_pos (by simpa using hf), failures,
        failures]
      push_cast
      omega
    have hpost : 0 ≤ failures post := Int.natCast_nonneg _
    omega

theorem tally_newTask (req : DispatchRequest) (boundPayload : String) (now : Int) :
    Tally taskID req.maxRetries [] (newTask req boundPayload taskID now) [] := by
  have hallowed := allowed_nonneg req.maxRetries
  refine ⟨rfl, rfl, hallowed, iff_of_false (by simp [newTask, TaskStatus.isTerminal]) ?_,
    iff_of_true rfl ⟨by simp, hallowed⟩, fun _ => rfl⟩
  rintro ⟨s, hs, -⟩
  exact absurd hs (by simp)

end

def afterDispatch (m : Memory) (req : DispatchRequest) (boundPayload taskID : String) (now : Int) :
    Memory :=
  { m with repo := m.repo.save (newTask req boundPayload taskID now) }

theorem lookup_afterDispatch (m : Memory) (req : DispatchRequest) (boundPayload taskID : String)
    (now : Int) :
    (afterDispatch m req boundPayload taskID now).repo.lookup taskID =
      some (newTask req boundPayload taskID now) := by
  rw [afterDispatch, Repo.lookup_save]
  exact if_pos rfl

/-- **When retries are counted rightly.**  Whatever the limit and the acknowledgements, each of them
    does what it should exactly as long as an open task is sent no status without a name, and no
    failure at the largest `int32` count.  The code of a failure does not matter. -/
theorem retryAccounting_iff (m : Memory) (req : DispatchRequest) (boundPayload : String) (now : Int)
    {taskID : String} (hid : taskID ≠ "") (acks : List Ack) :
    RetryAccounting (afterDispatch m req boundPayload taskID now) taskID req.maxRetries acks ↔
      ∀ pre a post, acks = pre ++ a :: post → Orderly taskID req.maxRetries pre a := by
  have hstored := lookup_afterDispatch m req boundPayload taskID now
  have hstart : Tally taskID req.maxRetries [] (newTask req boundPayload taskID now) [] :=
    tally_newTask req boundPayload now
  constructor
  · intro hacc pre a post hsplit
    by_cases hopen : StillOpen taskID req.maxRetries pre
    · obtain ⟨t, ht, htally⟩ := tally_acknowledgeAll hid hstored hstart pre fun pre' b post' h =>
        StillOpen.orderly (h ▸ hopen) hid
      obtain ⟨before, after, hbefore, hafter, haccounted⟩ := hacc pre a post hsplit
      obtain rfl : t = before := Option.some.inj (ht.symm.trans hbefore)
      obtain ⟨t', ht', hcase⟩ := acknowledgeTask_cases ht a
      rw [acknowledgeAll_snoc] at hafter
      obtain rfl : t' = after := Option.some.inj (ht'.symm.trans hafter)
      exact htally.orderly hid hcase haccounted
    · exact ⟨fun h => absurd h hopen, fun h => absurd h hopen⟩
  · intro horderly pre a post hsplit
    obtain ⟨before, hbefore, htally⟩ := tally_acknowledgeAll hid hstored hstart pre
      fun pre' b post' h => horderly pre' b (post' ++ a :: post) (by
        rw [hsplit, h, List.append_assoc, List.cons_append])
    obtain ⟨after, hafter, hcase⟩ := acknowledgeTask_cases hbefore a
    refine ⟨before, after, hbefore, ?_, htally.accounted hid (horderly pre a post hsplit) hcase⟩
    rw [acknowledgeAll_snoc]
    exact hafter

def limitedBuild (maxRetries : Int32) : DispatchRequest where
  workflowID := "wf-1"
  capabilityName := "build"
  inputPayload := "1"
  maxRetries := maxRetries

theorem retryAccounting_iff_threeFailures :
    RetryAccounting (afterDispatch ⟨.empty, []⟩ (limitedBuild 2) "1" "task-1" 0) "task-1" 2
      (List.replicate 3 { number := 5 }) := by
  refine (retryAccounting_iff ⟨.empty, []⟩ (limitedBuild 2) "1" 0 (by decide) _).mpr ?_
  intro pre a post hsplit
  have ha : a = { number := 5 } := by
    apply List.eq_of_mem_replicate (n := 3)
    rw [hsplit]
    simp
  have hlength : pre.length + (post.length + 1) = 3 := by
    rw [← List.length_cons (a := a), ← List.length_append, ← hsplit, List.length_replicate]
  refine ⟨?_, ?_⟩
  · intro _ n hn
    rw [ha] at hn
    exact absurd hn (by simp [show ({ number := 5 } : Ack).status = .failed from rfl])
  · intro _ _
    have hcount : failures pre ≤ pre.length := Int.ofNat_le.mpr List.countP_le_length
    omega

theorem count_wraps {m : Memory} (hid : taskID ≠ "") (hstored : m.repo.lookup taskID = some task)
    (hstart : Tally taskID 2147483647 [] task []) (hf : a.status = .failed) :
    ∃ t, (acknowledgeAll m taskID (List.replicate (2 ^ 31) a)).1.repo.lookup taskID = some t ∧
      t.status = .retrying ∧ t.retryCount = -2147483648 := by
  have hsplit : List.replicate (2 ^ 31) a = List.replicate 2147483647 a ++ [a] :=
    List.replicate_succ'
  have hfailures : failures (List.replicate 2147483647 a) = 2147483647 := by
    rw [failures, List.countP_replicate, if_pos (by simpa using hf)]
    rfl
  have hopen : StillOpen taskID 2147483647 (List.replicate 2147483647 a) := by
    refine ⟨fun b hb => Or.inr ?_, ?_⟩
    · rw [List.eq_of_mem_replicate hb]
      exact hf
    · rw [hfailures]
      decide
  obtain ⟨before, hbefore, htally⟩ := tally_acknowledgeAll hid hstored hstart
    (List.replicate 2147483647 a) fun pre b post h => StillOpen.orderly (h ▸ hopen) hid
  have hcount : before.retryCount.toInt = 2 ^ 31 - 1 := by
    rw [htally.count_eq, htally.failures_eq hopen, hfailures]
    norm_num
  obtain ⟨t, ht, hcase⟩ := acknowledgeTask_cases hbefore a
  have hresult := hcase.of_failed hid hf (htally.open_iff.mpr hopen)
  rw [retriesLeft_of_max hcount, if_pos rfl] at hresult
  rw [hsplit, acknowledgeAll_snoc]
  refine ⟨t, ht, ?_⟩
  rw [hresult] at hcase
  generalize hsome : some TaskStatus.retrying = result at hcase
  cases hcase with
  | refused => exact absurd hsome (by simp)
  | applied hcheck hlive hack =>
    cases hack with
    | retrying hs hleft =>
      refine ⟨rfl, ?_⟩
      show before.retryCount + 1 = _
      rw [Int32.toInt_inj.mp (show before.retryCount.toInt = (2147483647 : Int32).toInt from hcount)]
      rfl
    | _ => exact absurd hsome (by simp)

/-- **A status without a name cancels a task, and a count wraps around.**  The number 42 ends a new
    task; and where the largest number of retries is allowed, the failure after as many makes the
    count negative. -/
theorem unnamed_cancels_and_count_wraps :
    ¬ RetryAccounting (afterDispatch ⟨.empty, []⟩ (limitedBuild 0) "1" "task-1" 0) "task-1" 0
        [{ number := 42 }] ∧
      (acknowledgeAll (afterDispatch ⟨.empty, []⟩ (limitedBuild 0) "1" "task-1" 0) "task-1"
        [{ number := 42 }]).2 = [some .cancelled] ∧
      ∃ t, (acknowledgeAll (afterDispatch ⟨.empty, []⟩ (limitedBuild 2147483647) "1" "task-1" 0)
          "task-1" (List.replicate (2 ^ 31) { number := 5 })).1.repo.lookup "task-1" = some t ∧
        t.status = .retrying ∧ t.retryCount = -2147483648 := by
  refine ⟨?_, by decide +kernel, ?_⟩
  · intro hacc
    obtain ⟨before, after, -, -, haccounted⟩ := hacc [] { number := 42 } [] rfl
    have hnone := (haccounted.unknown (by decide) (by decide) (by decide)).1
    exact absurd hnone (by decide +kernel)
  · exact count_wraps (by decide) (lookup_afterDispatch ..)
      (tally_newTask (limitedBuild 2147483647) "1" 0) (by decide)

end Zynax.Broker
