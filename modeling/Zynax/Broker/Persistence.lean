import Zynax.Broker.Accounting
import Zynax.Broker.Listing
import Zynax.Postgres.Columns
import Zynax.Transition.Runs

namespace Zynax.Broker

open Golang Postgres

/-!
# Tasks in Postgres

The second repository keeps a task as a row of the table `tasks`.  It is to be used in place of the
one in memory.
-/

/-! ### Statuses -/

namespace TaskStatus

def code : TaskStatus → Int32
  | .unspecified => 0
  | .pending => 1
  | .dispatched => 2
  | .retrying => 3
  | .completed => 4
  | .failed => 5
  | .cancelled => 6
  | .other n => n

theorem code_ofNumber (n : Int32) : (ofNumber n).code = n := by
  unfold ofNumber
  repeat' split
  all_goals first | exact rfl | exact Eq.symm ‹_›

end TaskStatus

/-! ### Rows -/

structure Formatter where
  sprintf : Formatted → String
  text : ∀ s, sprintf (.text s) = s

structure TaskRow where
  taskID : String
  workflowID : String
  capabilityName : String
  inputPayload : String
  timeoutSeconds : Int32
  maxRetries : Int32
  retryCount : Int32
  status : Int32
  dispatchedTo : String
  resultPayload : String
  errorCode : String
  errorMessage : String
  errorDetails : Option (List (String × String))
  createdAt : Int
  dispatchedAt : Option Int
  completedAt : Option Int

def nullTime (t : Option Int) : Option Int := t.filter (fun t => t ≠ zeroTime)

def Task.errorCode (t : Task) : String :=
  match t.error with
  | some e => e.code
  | none => ""

def Task.errorMessage (fmt : Formatter) (t : Task) : String :=
  match t.error with
  | some e => fmt.sprintf e.message
  | none => ""

def Task.errorDetails (t : Task) : Option (List (String × String)) :=
  match t.error with
  | some e => if e.details.isEmpty then none else some e.details.sortedEntries
  | none => none

section

variable (fmt : Formatter) (jsonb : JsonbOrder)

def taskColumns (t : Task) : TaskRow where
  taskID := t.taskID
  workflowID := t.workflowID
  capabilityName := t.capabilityName
  inputPayload := t.inputPayload
  timeoutSeconds := t.timeoutSeconds
  maxRetries := t.maxRetries
  retryCount := t.retryCount
  status := t.status.code
  dispatchedTo := t.dispatchedTo
  resultPayload := t.resultPayload
  errorCode := t.errorCode
  errorMessage := t.errorMessage fmt
  errorDetails := t.errorDetails.map jsonb.arrange
  -- this time cannot be `NULL`, the zero time is written as it is
  createdAt := micros t.created
  dispatchedAt := (nullTime t.dispatchedAt).map micros
  completedAt := (nullTime t.completedAt).map micros

def TaskRow.accepted (row : TaskRow) : Bool :=
  -- the payloads are `BYTEA`, which takes every byte
  [row.taskID, row.workflowID, row.capabilityName, row.dispatchedTo, row.errorCode,
      row.errorMessage].all storableText &&
    row.errorDetails.all storableMembers && storableTime row.createdAt &&
    row.dispatchedAt.all storableTime && row.completedAt.all storableTime

def parseJSONBDetails (fields : List (String × String)) : GoMap String := GoMap.ofPairs fields

def scanTask (row : TaskRow) : Task where
  taskID := row.taskID
  workflowID := row.workflowID
  capabilityName := row.capabilityName
  inputPayload := row.inputPayload
  timeoutSeconds := row.timeoutSeconds
  maxRetries := row.maxRetries
  retryCount := row.retryCount
  status := .ofNumber row.status
  dispatchedTo := row.dispatchedTo
  resultPayload := row.resultPayload
  error :=
    if row.errorCode ≠ "" ∨ row.errorMessage ≠ "" then
      some
        { code := row.errorCode
          message := .text row.errorMessage
          details := parseJSONBDetails (row.errorDetails.getD []) }
    else none
  createdAt := some (row.createdAt * 1000)
  dispatchedAt := row.dispatchedAt.map (· * 1000)
  completedAt := row.completedAt.map (· * 1000)

/-! ### The calls -/

abbrev TaskTable : Type := GoMap TaskRow

def queryError (call taskID : String) : BrokerError :=
  ⟨none, ⟨"postgres task-broker: " ++ call ++ " %q: %w", [.str taskID]⟩⟩

/-- `Save`: inserts or replaces the row. -/
def saveTask (table : TaskTable) (t : Task) : Except BrokerError TaskTable :=
  let row := taskColumns fmt jsonb t
  if row.accepted then .ok (AList.insert row.taskID row table)
  else .error (queryError "save" t.taskID)

/-- `Update`: only of a row that is there. -/
def updateTask (table : TaskTable) (t : Task) : Except BrokerError TaskTable :=
  let row := taskColumns fmt jsonb t
  if row.accepted then
    match table.lookup t.taskID with
    -- no row is affected
    | none => .error (.of .taskNotFound "%q" [.str t.taskID])
    | some _ => .ok (AList.insert row.taskID row table)
  else .error (queryError "update" t.taskID)

/-- `GetByID` of the Postgres repository. -/
def getTask (table : TaskTable) (taskID : String) : Except BrokerError Task :=
  if storableText taskID then
    match table.lookup taskID with
    | none => .error (.of .taskNotFound "%q" [.str taskID])
    | some row => .ok (scanTask row)
  -- the id is an argument of the query, and refused as a value of a column would be
  else .error (queryError "get" taskID)

inductive RepoCall where
  | save (t : Task)
  | update (t : Task)

def RepoCall.task : RepoCall → Task
  | .save t => t
  | .update t => t

def Repo.call (r : Repo) : RepoCall → Repo
  | .save t => r.save t
  | .update t => (r.update t).toOption.getD r

def TaskTable.call (table : TaskTable) : RepoCall → TaskTable
  | .save t => (saveTask fmt jsonb table t).toOption.getD table
  | .update t => (updateTask fmt jsonb table t).toOption.getD table

def Repo.after (calls : List RepoCall) : Repo := Transition.run Repo.call Repo.empty calls

def TaskTable.after (calls : List RepoCall) : TaskTable :=
  Transition.run (TaskTable.call fmt jsonb) ∅ calls

end

/-! ### Tasks that are the same -/

structure SameError (fmt : Formatter) (e e' : TaskError) : Prop where
  code : e.code = e'.code
  message : fmt.sprintf e.message = fmt.sprintf e'.message
  details : ∀ k, e.details.lookup k = e'.details.lookup k

structure SameTask (fmt : Formatter) (t t' : Task) : Prop where
  taskID : t.taskID = t'.taskID
  workflowID : t.workflowID = t'.workflowID
  capabilityName : t.capabilityName = t'.capabilityName
  inputPayload : t.inputPayload = t'.inputPayload
  timeoutSeconds : t.timeoutSeconds = t'.timeoutSeconds
  maxRetries : t.maxRetries = t'.maxRetries
  retryCount : t.retryCount = t'.retryCount
  status : t.status.code = t'.status.code
  dispatchedTo : t.dispatchedTo = t'.dispatchedTo
  resultPayload : t.resultPayload = t'.resultPayload
  error : Option.Rel (SameError fmt) t.error t'.error
  createdAt : micros t.created = micros t'.created
  dispatchedAt : micros (t.dispatchedAt.getD zeroTime) = micros (t'.dispatchedAt.getD zeroTime)
  completedAt : micros (t.completedAt.getD zeroTime) = micros (t'.completedAt.getD zeroTime)

structure TaskError.Accepted (fmt : Formatter) (e : TaskError) : Prop where
  code : storableText e.code = true
  message : storableText (fmt.sprintf e.message) = true
  details : ∀ k v, e.details.lookup k = some v → storableText k = true ∧ storableText v = true

structure Task.Accepted (fmt : Formatter) (t : Task) : Prop where
  texts : ∀ s ∈ [t.taskID, t.workflowID, t.capabilityName, t.dispatchedTo], storableText s = true
  error : ∀ e, t.error = some e → e.Accepted fmt
  createdAt : storableTime (micros t.created) = true
  dispatchedAt : storableTime (micros (t.dispatchedAt.getD zeroTime)) = true
  completedAt : storableTime (micros (t.completedAt.getD zeroTime)) = true

structure Task.Storable (fmt : Formatter) (t : Task) : Prop extends Task.Accepted fmt t where
  recognised : ∀ e, t.error = some e → e.code ≠ "" ∨ fmt.sprintf e.message ≠ ""

def Interchangeable (fmt : Formatter) (jsonb : JsonbOrder) (calls : List RepoCall) : Prop :=
  ∀ done, done <+: calls → ∀ id,
    Option.Rel (SameTask fmt) (getTask (TaskTable.after fmt jsonb done) id).toOption
      ((Repo.after done).getByID id).toOption

def RepoCall.finds (stored : Bool) : RepoCall → Bool
  | .save _ => true
  | .update _ => stored

def RepoCall.TakesEffect (r : Repo) (c : RepoCall) : Prop :=
  c.finds (r.lookup c.task.taskID).isSome = true

/-! ### Rows hold storable tasks -/

variable {fmt : Formatter} {jsonb : JsonbOrder} {t t' : Task} {e e' : TaskError}

theorem storableTime_zeroTime : storableTime (micros zeroTime) = true := by decide

theorem all_nullTime_iff (t : Option Int) :
    ((nullTime t).map micros).all storableTime = true ↔
      storableTime (micros (t.getD zeroTime)) = true := by
  cases t with
  | none => exact iff_of_true rfl storableTime_zeroTime
  | some t =>
    by_cases h : t = zeroTime
    · subst h
      rfl
    · simp [nullTime, Option.filter_some, h]

theorem micros_nullTime (t : Option Int) :
    micros ((((nullTime t).map micros).map (· * 1000)).getD zeroTime) =
      micros (t.getD zeroTime) := by
  cases t with
  | none => rfl
  | some t =>
    by_cases h : t = zeroTime
    · subst h
      rfl
    · simp [nullTime, Option.filter_some, h, micros_mul]

theorem mem_arrange (jsonb : JsonbOrder) (m : GoMap String) {k v : String} :
    (k, v) ∈ jsonb.arrange m.sortedEntries ↔ m.lookup k = some v := by
  rw [(jsonb.perm _ m.nodup_sortedEntries).mem_iff, GoMap.mem_sortedEntries_iff]

theorem lookup_parse_arrange (jsonb : JsonbOrder) (m : GoMap String) (k : String) :
    (parseJSONBDetails (jsonb.arrange m.sortedEntries)).lookup k = m.lookup k := by
  have hnodup : ((jsonb.arrange m.sortedEntries).map Prod.fst).Nodup :=
    ((jsonb.perm _ m.nodup_sortedEntries).map _).nodup_iff.mpr m.nodup_sortedEntries
  ext v
  rw [parseJSONBDetails, GoMap.lookup_ofPairs hnodup, mem_arrange]

theorem lookup_scanned_details (jsonb : JsonbOrder) (h : t.error = some e)
    (k : String) :
    (parseJSONBDetails ((t.errorDetails.map jsonb.arrange).getD [])).lookup k = e.details.lookup k := by
  rw [Task.errorDetails, h]
  dsimp only
  split
  · rename_i hempty
    rw [GoMap.isEmpty_iff.mp hempty k]
    rfl
  · exact lookup_parse_arrange jsonb e.details k

theorem all_details_iff (jsonb : JsonbOrder) (h : t.error = some e) :
    (t.errorDetails.map jsonb.arrange).all storableMembers = true ↔
      ∀ k v, e.details.lookup k = some v → storableText k = true ∧ storableText v = true := by
  rw [Task.errorDetails, h]
  dsimp only
  split
  · rename_i hempty
    refine iff_of_true rfl fun k v hkv => ?_
    rw [GoMap.isEmpty_iff.mp hempty k] at hkv
    cases hkv
  · show storableMembers (jsonb.arrange e.details.sortedEntries) = true ↔ _
    rw [storableMembers_iff]
    constructor
    · exact fun hall k v hkv => hall (k, v) ((mem_arrange jsonb e.details).mpr hkv)
    · exact fun hall f hf => hall f.1 f.2 ((mem_arrange jsonb e.details).mp hf)

theorem error_columns_iff (fmt : Formatter) (jsonb : JsonbOrder) (t : Task) :
    (storableText t.errorCode = true ∧ storableText (t.errorMessage fmt) = true ∧
        (t.errorDetails.map jsonb.arrange).all storableMembers = true) ↔
      ∀ e, t.error = some e → e.Accepted fmt := by
  cases herr : t.error with
  | none => simp [Task.errorCode, Task.errorMessage, Task.errorDetails, herr, storableText]
  | some e =>
    rw [all_details_iff jsonb herr, Task.errorCode, Task.errorMessage, herr]
    constructor
    · rintro ⟨hcode, hmessage, hdetails⟩ e' he'
      obtain rfl := Option.some.inj he'
      exact ⟨hcode, hmessage, hdetails⟩
    · intro h
      obtain ⟨hcode, hmessage, hdetails⟩ := h e rfl
      grind

theorem accepted_iff : (taskColumns fmt jsonb t).accepted = true ↔ t.Accepted fmt := by
  have herror := error_columns_iff fmt jsonb t
  have hdispatched := all_nullTime_iff t.dispatchedAt
  have hcompleted := all_nullTime_iff t.completedAt
  simp only [TaskRow.accepted, taskColumns, List.all_cons, List.all_nil, Bool.and_true,
    Bool.and_eq_true, hdispatched, hcompleted]
  constructor
  · rintro ⟨⟨⟨⟨⟨hid, hwf, hcap, hto, hcode, hmsg⟩, hdetails⟩, hcreated⟩, hd⟩, hc⟩
    exact ⟨by simp [hid, hwf, hcap, hto], herror.mp ⟨hcode, hmsg, hdetails⟩, hcreated, hd, hc⟩
  · intro h
    obtain ⟨hcode, hmsg, hdetails⟩ := herror.mpr h.error
    have htexts := h.texts
    simp only [List.forall_mem_cons] at htexts
    exact ⟨⟨⟨⟨⟨htexts.1, htexts.2.1, htexts.2.2.1, htexts.2.2.2.1, hcode, hmsg⟩, hdetails⟩,
      h.createdAt⟩, h.dispatchedAt⟩, h.completedAt⟩

theorem error_scanTask (h : (scanTask (taskColumns fmt jsonb t)).error = some e') :
    ∃ e, t.error = some e ∧ SameError fmt e' e ∧ (e.code ≠ "" ∨ fmt.sprintf e.message ≠ "") := by
  simp only [scanTask] at h
  split at h
  · rename_i hsome
    obtain rfl := Option.some.inj h
    cases herr : t.error with
    -- without an error both of the texts are empty
    | none => simp [taskColumns, Task.errorCode, Task.errorMessage, herr] at hsome
    | some e =>
      refine ⟨e, rfl, ⟨?_, ?_, lookup_scanned_details jsonb herr⟩, ?_⟩
      · simp [taskColumns, Task.errorCode, herr]
      · simp [taskColumns, Task.errorMessage, herr, fmt.text]
      · simpa [taskColumns, Task.errorCode, Task.errorMessage, herr] using hsome
  · cases h

theorem TaskError.Accepted.of_same (hsame : SameError fmt e e')
    (h : e.Accepted fmt) : e'.Accepted fmt where
  code := hsame.code ▸ h.code
  message := hsame.message ▸ h.message
  details k v hkv := h.details k v ((hsame.details k).trans hkv)

theorem SameError.symm (h : SameError fmt e e') : SameError fmt e' e :=
  ⟨h.code.symm, h.message.symm, fun k => (h.details k).symm⟩

theorem storable_scanTask (h : t.Accepted fmt) :
    (scanTask (taskColumns fmt jsonb t)).Storable fmt where
  texts := h.texts
  error := by
    intro e' he'
    obtain ⟨e, he, hsame, -⟩ := error_scanTask he'
    exact (h.error e he).of_same hsame.symm
  createdAt := by
    show storableTime (micros (micros t.created * 1000)) = true
    rw [micros_mul]
    exact h.createdAt
  dispatchedAt := by
    show storableTime (micros ((((nullTime t.dispatchedAt).map micros).map (· * 1000)).getD zeroTime)) = _
    rw [micros_nullTime]
    exact h.dispatchedAt
  completedAt := by
    show storableTime (micros ((((nullTime t.completedAt).map micros).map (· * 1000)).getD zeroTime)) = _
    rw [micros_nullTime]
    exact h.completedAt
  recognised := by
    intro e' he'
    obtain ⟨e, he, hsame, hrec⟩ := error_scanTask he'
    rw [hsame.code, hsame.message]
    exact hrec

/-- **A storable task comes back.** -/
theorem sameTask_scanTask (h : t.Storable fmt) :
    SameTask fmt (scanTask (taskColumns fmt jsonb t)) t where
  taskID := rfl
  workflowID := rfl
  capabilityName := rfl
  inputPayload := rfl
  timeoutSeconds := rfl
  maxRetries := rfl
  retryCount := rfl
  status := TaskStatus.code_ofNumber _
  dispatchedTo := rfl
  resultPayload := rfl
  error := by
    cases herr : t.error with
    | none =>
      simp only [scanTask, taskColumns, Task.errorCode, Task.errorMessage, herr, ne_eq, not_true_eq_false,
        or_self, if_false]
      exact .none
    | some e =>
      -- the code or the message tells that there is an error
      have hsome : (taskColumns fmt jsonb t).errorCode ≠ "" ∨
          (taskColumns fmt jsonb t).errorMessage ≠ "" := by
        simpa [taskColumns, Task.errorCode, Task.errorMessage, herr] using h.recognised e herr
      obtain ⟨e', he'⟩ : ∃ e', (scanTask (taskColumns fmt jsonb t)).error = some e' := ⟨_, if_pos hsome⟩
      obtain ⟨e'', he'', hsame, -⟩ := error_scanTask he'
      obtain rfl := Option.some.inj (herr.symm.trans he'')
      rw [he']
      exact .some hsame
  createdAt := micros_mul _
  dispatchedAt := micros_nullTime _
  completedAt := micros_nullTime _

theorem SameTask.exists_error (h : SameTask fmt t t') (he' : t'.error = some e') :
    ∃ e, t.error = some e ∧ SameError fmt e e' := by
  have hrel := h.error
  rw [he'] at hrel
  cases herr : t.error with
  | none =>
    rw [herr] at hrel
    cases hrel
  | some e =>
    rw [herr] at hrel
    cases hrel with
    | some hsame => exact ⟨e, rfl, hsame⟩

theorem SameTask.isSome_error_eq (h : SameTask fmt t t') :
    t.error.isSome = t'.error.isSome := by
  have hrel := h.error
  generalize t.error = e, t'.error = e' at hrel
  cases hrel <;> rfl

theorem Task.Storable.of_same (h : t.Storable fmt) (hsame : SameTask fmt t t') :
    t'.Storable fmt where
  texts := by
    rw [← hsame.taskID, ← hsame.workflowID, ← hsame.capabilityName, ← hsame.dispatchedTo]
    exact h.texts
  error := by
    intro e' he'
    obtain ⟨e, he, herr⟩ := hsame.exists_error he'
    exact (h.error e he).of_same herr
  createdAt := hsame.createdAt ▸ h.createdAt
  dispatchedAt := hsame.dispatchedAt ▸ h.dispatchedAt
  completedAt := hsame.completedAt ▸ h.completedAt
  recognised := by
    intro e' he'
    obtain ⟨e, he, herr⟩ := hsame.exists_error he'
    rw [← herr.code, ← herr.message]
    exact h.recognised e he

/-! ### The two repositories side by side -/

variable {table : TaskTable}

def TaskTable.Kept (fmt : Formatter) (jsonb : JsonbOrder) (table : TaskTable) : Prop :=
  ∀ id row, table.lookup id = some row →
    ∃ t, t.taskID = id ∧ t.Accepted fmt ∧ row = taskColumns fmt jsonb t

def SameTasks (fmt : Formatter) (table : TaskTable) (r : Repo) : Prop :=
  ∀ id, Option.Rel (SameTask fmt) ((table.lookup id).map scanTask) (r.lookup id)

theorem SameTasks.isSome_eq {r : Repo} (h : SameTasks fmt table r) (id : String) :
    (table.lookup id).isSome = (r.lookup id).isSome := by
  have hrel := h id
  cases hrow : table.lookup id with
  | none =>
    rw [hrow] at hrel
    cases hmem : r.lookup id with
    | none => rfl
    | some t =>
      rw [hmem] at hrel
      cases hrel
  | some row =>
    rw [hrow] at hrel
    cases hmem : r.lookup id with
    | none =>
      rw [hmem] at hrel
      cases hrel
    | some t => rfl

theorem saveTask_of_accepted (h : t.Accepted fmt) (table : TaskTable) :
    saveTask fmt jsonb table t = .ok (AList.insert t.taskID (taskColumns fmt jsonb t) table) :=
  if_pos (accepted_iff.mpr h)

theorem saveTask_of_not_accepted (h : ¬t.Accepted fmt) (table : TaskTable) :
    saveTask fmt jsonb table t = .error (queryError "save" t.taskID) :=
  if_neg (mt accepted_iff.mp h)

theorem updateTask_of_accepted (h : t.Accepted fmt) (table : TaskTable) :
    updateTask fmt jsonb table t =
      if (table.lookup t.taskID).isSome then saveTask fmt jsonb table t
      else .error (.of .taskNotFound "%q" [.str t.taskID]) := by
  rw [saveTask_of_accepted h, updateTask, if_pos (accepted_iff.mpr h)]
  cases table.lookup t.taskID <;> rfl

theorem updateTask_of_not_accepted (h : ¬t.Accepted fmt) (table : TaskTable) :
    updateTask fmt jsonb table t = .error (queryError "update" t.taskID) :=
  if_neg (mt accepted_iff.mp h)

/-- **What a call does to the table**: it writes the row of its task, if the database takes it and
    there is something to write to. -/
theorem TaskTable.call_cases (fmt : Formatter) (jsonb : JsonbOrder) (table : TaskTable) (c : RepoCall) :
    (c.task.Accepted fmt ∧ c.finds (table.lookup c.task.taskID).isSome = true ∧
        table.call fmt jsonb c = AList.insert c.task.taskID (taskColumns fmt jsonb c.task) table) ∨
      (¬(c.task.Accepted fmt ∧ c.finds (table.lookup c.task.taskID).isSome = true) ∧
        table.call fmt jsonb c = table) := by
  cases c with
  | save t =>
    by_cases h : t.Accepted fmt
    · exact Or.inl ⟨h, rfl, by rw [TaskTable.call, saveTask_of_accepted h]; rfl⟩
    · exact Or.inr ⟨fun hand => h hand.1, by rw [TaskTable.call, saveTask_of_not_accepted h]; rfl⟩
  | update t =>
    by_cases h : t.Accepted fmt
    · have hcall : updateTask fmt jsonb table t = _ := updateTask_of_accepted h table
      by_cases hstored : (table.lookup t.taskID).isSome = true
      · rw [if_pos hstored, saveTask_of_accepted h] at hcall
        exact Or.inl ⟨h, hstored, by rw [TaskTable.call, hcall]; rfl⟩
      · rw [if_neg hstored] at hcall
        exact Or.inr ⟨fun hand => hstored hand.2, by rw [TaskTable.call, hcall]; rfl⟩
    · exact Or.inr ⟨fun hand => h hand.1, by rw [TaskTable.call, updateTask_of_not_accepted h]; rfl⟩

theorem Repo.call_cases (r : Repo) (c : RepoCall) :
    (c.TakesEffect r ∧ r.call c = r.save c.task) ∨ (¬c.TakesEffect r ∧ r.call c = r) := by
  cases c with
  | save t => exact Or.inl ⟨rfl, rfl⟩
  | update t =>
    cases hlookup : r.lookup t.taskID with
    | none =>
      refine Or.inr ⟨?_, by simp [Repo.call, Repo.update, hlookup, Except.toOption]⟩
      simp [RepoCall.TakesEffect, RepoCall.finds, RepoCall.task, hlookup]
    | some t' =>
      refine Or.inl ⟨?_, by simp [Repo.call, Repo.update, hlookup, RepoCall.task, Except.toOption]⟩
      simp [RepoCall.TakesEffect, RepoCall.finds, RepoCall.task, hlookup]

theorem kept_call (h : table.Kept fmt jsonb) (c : RepoCall) :
    (table.call fmt jsonb c).Kept fmt jsonb := by
  rcases TaskTable.call_cases fmt jsonb table c with ⟨hacc, -, heq⟩ | ⟨-, heq⟩
  · rw [heq]
    intro id row hrow
    by_cases hid : id = c.task.taskID
    · subst hid
      rw [AList.lookup_insert] at hrow
      grind
    · rw [AList.lookup_insert_ne hid] at hrow
      exact h id row hrow
  · grind

theorem kept_after (fmt : Formatter) (jsonb : JsonbOrder) (calls : List RepoCall) :
    (TaskTable.after fmt jsonb calls).Kept fmt jsonb := by
  have hempty : TaskTable.Kept fmt jsonb ∅ := by
    intro id row hrow
    cases hrow
  exact Transition.run_invariant (C := fun _ _ => True) (I := TaskTable.Kept fmt jsonb)
    (fun table c h _ => kept_call h c) hempty (Transition.along_of_forall (fun _ _ _ => trivial) _)

theorem SameTasks.call {r : Repo} (h : SameTasks fmt table r) {c : RepoCall}
    (hc : c.TakesEffect r → c.task.Storable fmt) :
    SameTasks fmt (table.call fmt jsonb c) (r.call c) := by
  -- an update finds its task in both of them or in neither
  have hfinds := h.isSome_eq c.task.taskID
  rcases Repo.call_cases r c with ⟨heffect, hmem⟩ | ⟨hnone, hmem⟩
  · have hstorable := hc heffect
    rcases TaskTable.call_cases fmt jsonb table c with ⟨-, -, htable⟩ | ⟨hnot, -⟩
    · rw [hmem, htable]
      intro id
      rw [Repo.lookup_save]
      by_cases hid : id = c.task.taskID
      · subst hid
        rw [AList.lookup_insert, if_pos rfl]
        exact .some (sameTask_scanTask hstorable)
      · rw [AList.lookup_insert_ne hid, if_neg hid]
        exact h id
    · have hwrites : c.finds (table.lookup c.task.taskID).isSome = true := by
        rw [hfinds]
        exact heffect
      exact absurd ⟨hstorable.toAccepted, hwrites⟩ hnot
  · rcases TaskTable.call_cases fmt jsonb table c with ⟨-, hwrites, -⟩ | ⟨-, htable⟩
    · rw [hfinds] at hwrites
      exact absurd hwrites hnone
    · grind

theorem getByID_toOption (r : Repo) (id : String) : (r.getByID id).toOption = r.lookup id := by
  unfold Repo.getByID
  cases r.lookup id <;> rfl

theorem getTask_toOption (h : table.Kept fmt jsonb) (id : String) :
    (getTask table id).toOption = (table.lookup id).map scanTask := by
  unfold getTask
  cases hrow : table.lookup id with
  | none => split <;> rfl
  | some row =>
    obtain ⟨t, rfl, hacc, -⟩ := h id row hrow
    have htext : storableText t.taskID = true := hacc.texts t.taskID List.mem_cons_self
    rw [if_pos htext]
    rfl

/-- **The repositories are interchangeable exactly for storable tasks.**  After any calls the one in
    Postgres returns the same tasks as the one in memory, if and only if every call that takes effect
    has a task that a row can hold: texts without the character zero, times within the bounds of a
    timestamp, and an error, if any, with a code or a message. -/
theorem interchangeable_iff (fmt : Formatter) (jsonb : JsonbOrder) (calls : List RepoCall) :
    Interchangeable fmt jsonb calls ↔
      ∀ done c, done ++ [c] <+: calls → c.TakesEffect (Repo.after done) → c.task.Storable fmt := by
  -- what is read is what is stored
  have hreads : Interchangeable fmt jsonb calls ↔ ∀ done, done <+: calls →
      SameTasks fmt (TaskTable.after fmt jsonb done) (Repo.after done) := by
    refine forall₂_congr fun done _ => forall_congr' fun id => ?_
    rw [getTask_toOption (kept_after fmt jsonb done), getByID_toOption]
  have htable : ∀ done c, TaskTable.after fmt jsonb (done ++ [c]) =
      (TaskTable.after fmt jsonb done).call fmt jsonb c := fun done c => Transition.run_append _ _ _
  have hmem : ∀ done c, Repo.after (done ++ [c]) = (Repo.after done).call c :=
    fun done c => Transition.run_append _ _ _
  rw [hreads]
  constructor
  · intro h done c hdone heffect
    -- what was stored in memory is the same as something that was read from a row
    have hrel := h _ hdone c.task.taskID
    rw [hmem, (Repo.call_cases (Repo.after done) c).elim And.right (fun hnot => absurd heffect hnot.1),
      Repo.lookup_save, if_pos rfl] at hrel
    cases hrow : (TaskTable.after fmt jsonb (done ++ [c])).lookup c.task.taskID with
    | none =>
      rw [hrow] at hrel
      cases hrel
    | some row =>
      rw [hrow] at hrel
      obtain ⟨t, -, hacc, rfl⟩ := kept_after fmt jsonb (done ++ [c]) _ _ hrow
      cases hrel with
      | some hsame => exact (storable_scanTask hacc).of_same hsame
  · -- the calls one by one, from the empty repositories on
    intro h done hdone
    induction done using List.reverseRecOn with
    | nil => exact fun id => .none
    | append_singleton done c ih =>
      rw [htable, hmem]
      exact (ih ((List.prefix_append _ _).trans hdone)).call (h done c hdone)

/-! ### An agent that gives no reason -/

def plainFormatter : Formatter where
  sprintf f := if f.format = "%s" then
      match f.args with
      | [.str s] => s
      | _ => f.format
    else f.format
  text _ := rfl

def keptOrder : JsonbOrder where
  arrange fields := fields
  perm fields _ := List.Perm.refl fields

def openReview : Task :=
  { newTask ⟨"wf-1", "review", "", 0, 0⟩ "" "t-1" 0 with
    status := .dispatched, dispatchedTo := "reviewer", dispatchedAt := some 1000 }

def failedReview (error : Option CapabilityError) : Task :=
  recordResult openReview (execute ⟨"reviewer", "", "", ""⟩ ⟨none, [⟨.failed, "", error⟩], none⟩) 2000

def failingRun (error : Option CapabilityError) : List RepoCall :=
  [.save openReview, .update (failedReview error)]

theorem not_interchangeable {calls : List RepoCall} {id : String}
    (hrow : getTask (TaskTable.after fmt jsonb calls) id = .ok t)
    (hmem : (Repo.after calls).getByID id = .ok t') (hne : t.error.isSome ≠ t'.error.isSome) :
    ¬Interchangeable fmt jsonb calls := by
  intro h
  have hrel := h calls List.prefix_rfl id
  rw [hrow, hmem] at hrel
  cases hrel with
  | some hsame => exact hne hsame.isSome_error_eq

/-- **An error without a code and a message is lost.**  The agent fails the task without an error, or
    with details only: in memory the task has an error, in Postgres it has none. -/
theorem error_lost :
    (((Repo.after (failingRun none)).getByID "t-1").toOption.map Task.error = some (some {}) ∧
      (getTask (TaskTable.after plainFormatter keptOrder (failingRun none)) "t-1").toOption.map
        Task.error = some none) ∧
    ¬Interchangeable plainFormatter keptOrder (failingRun none) ∧
    ¬Interchangeable plainFormatter keptOrder
      (failingRun (some ⟨"", "", AList.insert "stage" "lint" ∅⟩)) := by
  refine ⟨by decide, ?_, ?_⟩
  · exact not_interchangeable (show getTask _ "t-1" = _ from rfl) rfl (by decide)
  · exact not_interchangeable (show getTask _ "t-1" = _ from rfl) rfl (by decide)

end Zynax.Broker
