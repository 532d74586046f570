import Zynax.Gateway.CustomResource
import Zynax.Gateway.Idempotence

namespace Zynax.Gateway

open Golang Compiler Transition

/-!
# Reconciling a Workflow resource

The controller applies a resource whose generation it has not observed yet, and then writes the
observed generation into the status.  The two are separate calls, and the second may fail.

* `ClusterState`, `ClusterEvent`, `ClusterState.step` — a resource that is edited and reconciled
  while runs come and go;
* `dispatched_conflictEvents` — a status update that fails is enough for a second run.
-/

/-! ### One pass -/

structure ReconcileEnv where
  getErr : Option String := none
  compiled : Except GrpcError CompileResult
  /-- the engine cannot be asked for a status, or does not answer a submission -/
  statusErr : Option String := none
  submitErr : Option String := none
  /-- a submission that is not answered was taken all the same -/
  submitTaken : Bool := false
  /-- the status update fails, or the controller stops before it -/
  updateErr : Option String := none
  /-- an update that fails for the controller was stored all the same: its reply is lost -/
  updateStored : Bool := false
  unix : Int
  now : String := ""

inductive ReconcileError where
  /-- "crd: get workflow %s: %w" -/
  | get (err : String)
  /-- "crd: apply workflow %s: %w" -/
  | apply (err : ApplyError)
  /-- "crd: update workflow status: %w" -/
  | updateStatus (err : String)
  deriving DecidableEq, Repr

def ReconcileEnv.port (env : ReconcileEnv) (runs : Runs) : EnginePort where
  getWorkflowStatus := fun id =>
    match env.statusErr with
    | some err => .error (.other err)
    | none => runs.getWorkflowStatus id
  submitWorkflow := fun sub =>
    match env.submitErr with
    | some err => .error (.other err)
    | none => .ok sub.workflowID

structure ReconcileOutcome where
  result : Except ReconcileError Unit
  cr : WorkflowCR
  applied : Bool := false
  submitted : Option String := none

/-- The gate: the generation is not observed yet. -/
def needsReconcile (u : WorkflowCR) : Bool := decide (u.generation ≠ u.status.observedGeneration)

def compileErrorMessage (errs : List CompileError) : Formatted :=
  if errs = [] then .text "compilation failed"
  else
    let parts := (errs.take 3).map (fun e => (e.code ++ ": " ++ e.message.format, e.message.args)) ++
      (if errs.length > 3 then [("(+%d more)", [.int (errs.length - 3)])] else [])
    ⟨"; ".intercalate (parts.map Prod.fst), parts.flatMap Prod.snd⟩

structure ConditionSpec where
  type : String
  status : String
  reason : String
  message : Formatted

def mergeConditions (prev : List Condition) (specs : List ConditionSpec) (now : String) :
    List Condition :=
  specs.map fun s =>
    let transition := prev.foldl (fun t (p : Condition) =>
      if p.type = s.type ∧ p.status = s.status ∧ p.lastTransitionTime ≠ "" then p.lastTransitionTime
      else t) now
    ⟨s.type, s.status, s.reason, s.message, transition⟩

/-- The status update closes the gate. -/
def writeStatus (env : ReconcileEnv) (u : WorkflowCR) (extra : Option DispatchRef)
    (conds : List ConditionSpec) : Except ReconcileError Unit × WorkflowCR :=
  let updated := { u with status :=
    { observedGeneration := u.generation
      dispatch := extra
      conditions := mergeConditions u.status.conditions conds env.now } }
  match env.updateErr with
  | some err => (.error (.updateStatus err), if env.updateStored then updated else u)
  | none => (.ok (), updated)

def ReconcileOutcome.ofStatus (r : Except ReconcileError Unit × WorkflowCR) (applied : Bool)
    (submitted : Option String) : ReconcileOutcome :=
  ⟨r.1, r.2, applied, submitted⟩

/-- `Reconcile`: one pass of the controller. -/
def reconcile (y : YamlCodec Value) (env : ReconcileEnv) (runs : Runs) (u : WorkflowCR) :
    ReconcileOutcome :=
  match env.getErr with
  | some err => { result := .error (.get err), cr := u }
  | none =>
    if needsReconcile u = false then { result := .ok (), cr := u }
    else
      match buildManifest y u with
      | .error err =>
        .ofStatus (writeStatus env u none [⟨"Compiled", "False", "BuildFailed", err⟩]) false none
      | .ok (manifest, engineHint) =>
        let req : ApplyRequest :=
          { manifestYAML := manifest, nameSpace := u.nameSpace, engineHint := engineHint }
        match applyCompiled y (env.port runs) env.unix req env.compiled with
        | (_, .error (.compilationFailed errors _)) =>
          .ofStatus (writeStatus env u none
            [⟨"Compiled", "False", "CompilationFailed", compileErrorMessage errors⟩]) true none
        | (sub, .error err) =>
          { result := .error (.apply err), cr := u, applied := true
            submitted := if env.submitTaken then sub.map Submission.workflowID else none }
        | (sub, .ok result) =>
          let workflowID := y.manifestWorkflowID manifest
          .ofStatus (writeStatus env u (some ⟨workflowID, result.runID, engineHint⟩)
            [⟨"Compiled", "True", "Compiled", .text "manifest compiled to the engine-agnostic IR"⟩,
              ⟨"Dispatched", "True", "Dispatched", ⟨"submitted as run %q", [.str result.runID]⟩⟩])
            true (sub.map Submission.workflowID)

structure Pass (y : YamlCodec Value) (env : ReconcileEnv) (runs : Runs) (u : WorkflowCR)
    (o : ReconcileOutcome) : Prop where
  generation_eq : o.cr.generation = u.generation
  /-- a pass that succeeds leaves the gate closed -/
  observed : o.result = .ok () → o.cr.status.observedGeneration = u.generation
  /-- a closed gate stays closed -/
  closed : u.status.observedGeneration = u.generation →
    o.cr.status.observedGeneration = u.generation
  /-- the service is called through an open gate only -/
  gate : o.applied = true → needsReconcile u = true
  /-- a run is submitted only if the manifest's id has no active run -/
  inactive : ∀ id, o.submitted = some id → needsReconcile u = true ∧
    ∃ manifest hint, buildManifest y u = .ok (manifest, hint) ∧
      ¬ runs.Active (y.manifestWorkflowID manifest)

theorem writeStatus_cases (env : ReconcileEnv) (u : WorkflowCR) (extra : Option DispatchRef)
    (conds : List ConditionSpec) :
    (∃ err, writeStatus env u extra conds = (.error (.updateStatus err), u)) ∨
      (writeStatus env u extra conds).2.generation = u.generation ∧
        (writeStatus env u extra conds).2.status.observedGeneration = u.generation := by
  unfold writeStatus
  grind

variable {y : YamlCodec Value} {env : ReconcileEnv} {runs : Runs} {u : WorkflowCR}

theorem pass_ofStatus (extra : Option DispatchRef) (conds : List ConditionSpec) (applied : Bool)
    {submitted : Option String} (hopen : needsReconcile u = true)
    (hsub : ∀ id, submitted = some id → ∃ manifest hint, buildManifest y u = .ok (manifest, hint) ∧
      ¬ runs.Active (y.manifestWorkflowID manifest)) :
    Pass y env runs u (.ofStatus (writeStatus env u extra conds) applied submitted) := by
  unfold ReconcileOutcome.ofStatus
  have hkeep : ∀ id, submitted = some id → needsReconcile u = true ∧
      ∃ manifest hint, buildManifest y u = .ok (manifest, hint) ∧
        ¬ runs.Active (y.manifestWorkflowID manifest) := fun id hid => ⟨hopen, hsub id hid⟩
  rcases writeStatus_cases env u extra conds with ⟨err, herr⟩ | ⟨hgen, hobs⟩
  · rw [herr]
    exact ⟨rfl, by simp, fun h => h, fun _ => hopen, hkeep⟩
  · exact ⟨hgen, fun _ => hobs, fun _ => hobs, fun _ => hopen, hkeep⟩

theorem inactive_of_submission {req : ApplyRequest} {manifest : List UInt8} {sub : Submission}
    (hreq : req.manifestYAML = manifest)
    (h : (applyCompiled y (env.port runs) env.unix req env.compiled).1 = some sub) :
    ¬ runs.Active (y.manifestWorkflowID manifest) := by
  subst hreq
  intro hact
  obtain ⟨c, hc, herr, hdry, -, -⟩ := submission_of_applyCompiled h
  rw [hc] at h
  simp only [applyCompiled, herr, ne_eq, not_true_eq_false, if_false, hdry, Bool.false_eq_true,
    submit, ReconcileEnv.port] at h
  cases hst : env.statusErr with
  | some err =>
    simp only [hst, planSubmit] at h
    exact absurd h (by simp)
  | none =>
    simp only [hst, Runs.getWorkflowStatus, show runs.lookup _ = some WorkflowStatus.running from hact,
      planSubmit] at h
    exact absurd h (by simp)

/-- **One pass**, case by case. -/
theorem pass_reconcile (y : YamlCodec Value) (env : ReconcileEnv) (runs : Runs) (u : WorkflowCR) :
    Pass y env runs u (reconcile y env runs u) := by
  unfold reconcile
  cases env.getErr with
  | some err => exact ⟨rfl, by simp, fun h => h, by simp, by simp⟩
  | none =>
    dsimp only
    by_cases hgate : needsReconcile u = false
    · rw [if_pos hgate]
      have hobs : u.status.observedGeneration = u.generation := by
        simp only [needsReconcile, decide_eq_false_iff_not, not_not] at hgate
        exact hgate.symm
      exact ⟨rfl, fun _ => hobs, fun _ => hobs, by simp, by simp⟩
    rw [if_neg hgate]
    have hopen : needsReconcile u = true := by simpa using hgate
    cases hbuild : buildManifest y u with
    | error err => exact pass_ofStatus _ _ _ hopen (by simp)
    | ok built =>
      obtain ⟨manifest, hint⟩ := built
      dsimp only
      -- whatever the reply, what reaches the engine has no active run
      have hsub : ∀ id, (applyCompiled y (env.port runs) env.unix
          { manifestYAML := manifest, nameSpace := u.nameSpace, engineHint := hint } env.compiled).1.map
            Submission.workflowID = some id →
          ∃ manifest hint, buildManifest y u = .ok (manifest, hint) ∧
            ¬ runs.Active (y.manifestWorkflowID manifest) := by
        intro id hid
        obtain ⟨submission, happly, -⟩ := Option.map_eq_some_iff.mp hid
        exact ⟨manifest, hint, hbuild, inactive_of_submission rfl happly⟩
      split
      · exact pass_ofStatus _ _ _ hopen (by simp)
      · rename_i sub err _ happly
        refine ⟨rfl, by simp, fun h => h, fun _ => hopen, fun id hid => ⟨hopen, hsub id ?_⟩⟩
        rw [happly]
        split at hid
        · exact hid
        · exact absurd hid (by simp)
      · rename_i sub result happly
        refine pass_ofStatus _ _ _ hopen ?_
        rw [happly] at hsub
        exact hsub

/-! ### Histories of a resource -/

structure ClusterState where
  cr : Option WorkflowCR
  runs : Runs
  dispatched : List Int := []
  reconciled : List Int := []

inductive ClusterEvent where
  | edited (spec : Option (GoMap Value))
  | deleted
  | reconciled (env : ReconcileEnv)
  | started (workflowID : String)
  | finished (workflowID : String) (outcome : Outcome)

def Runs.startAll (runs : Runs) : Option String → Runs
  | none => runs
  | some id => runs.start id

def Runs.startsNew (runs : Runs) : Option String → Bool
  | none => false
  | some id => decide (¬ runs.Active id)

def ClusterState.step (y : YamlCodec Value) (s : ClusterState) : ClusterEvent → ClusterState
  | .edited spec =>
    { s with cr := s.cr.map (fun u => { u with spec := spec, generation := u.generation + 1 }) }
  | .deleted => { s with cr := none }
  | .reconciled env =>
    match s.cr with
    -- a deleted resource needs no action
    | none => s
    | some u =>
      let o := reconcile y env s.runs u
      { cr := some o.cr
        runs := s.runs.startAll o.submitted
        dispatched :=
          if s.runs.startsNew o.submitted then u.generation :: s.dispatched else s.dispatched
        reconciled := if o.result = .ok () then u.generation :: s.reconciled else s.reconciled }
  | .started id => { s with runs := s.runs.start id }
  | .finished id outcome => { s with runs := s.runs.finish id outcome }

def Recovering (y : YamlCodec Value) (s : ClusterState) : ClusterEvent → Prop
  | .reconciled _ => ∀ u manifest hint, s.cr = some u → needsReconcile u = true →
      u.generation ∈ s.dispatched → buildManifest y u = .ok (manifest, hint) →
        s.runs.Active (y.manifestWorkflowID manifest)
  | _ => True

instance (y : YamlCodec Value) (s : ClusterState) : ∀ e, Decidable (Recovering y s e)
  | .reconciled _ => decidable_of_iff
      (∀ u ∈ s.cr, needsReconcile u = true → u.generation ∈ s.dispatched →
        ∀ built ∈ (buildManifest y u).toOption, s.runs.Active (y.manifestWorkflowID built.1)) (by
      constructor
      · intro h u manifest hint hu hopen hdisp hbuild
        exact h u hu hopen hdisp (manifest, hint) (by rw [hbuild]; rfl)
      · intro h u hu hopen hdisp built hbuilt
        cases hbuild : buildManifest y u with
        | error err => simp [hbuild, Except.toOption] at hbuilt
        | ok b =>
          obtain rfl : b = built := by simpa [hbuild, Except.toOption] using hbuilt
          exact h u _ _ hu hopen hdisp hbuild)
  | .edited _ | .deleted | .started _ | .finished _ _ => isTrue trivial

def NotAppliedAgain (y : YamlCodec Value) (s : ClusterState) : ClusterEvent → Prop
  | .reconciled env => ∀ u, s.cr = some u → u.generation ∈ s.reconciled →
      (reconcile y env s.runs u).applied = false
  | _ => True

variable {s : ClusterState}

theorem step_reconciled (hcr : s.cr = some u) (env : ReconcileEnv) :
    (s.step y (.reconciled env)).cr = some (reconcile y env s.runs u).cr ∧
      (s.step y (.reconciled env)).runs = s.runs.startAll (reconcile y env s.runs u).submitted ∧
      (s.step y (.reconciled env)).dispatched =
        if s.runs.startsNew (reconcile y env s.runs u).submitted then u.generation :: s.dispatched
        else s.dispatched := by
  unfold ClusterState.step
  grind

structure Ledger (s : ClusterState) : Prop where
  dispatched_le : ∀ u, s.cr = some u → ∀ g ∈ s.dispatched, g ≤ u.generation
  observed : ∀ u, s.cr = some u → ∀ g ∈ s.reconciled,
    g < u.generation ∨ g = u.generation ∧ u.status.observedGeneration = u.generation

theorem ledger_edited (h : Ledger s)
    (spec : Option (GoMap Value)) : Ledger (s.step y (.edited spec)) := by
  refine ⟨?_, ?_⟩
  · intro u' hu' g hg
    obtain ⟨u, hu, rfl⟩ := Option.map_eq_some_iff.mp hu'
    have hle := h.dispatched_le u hu g hg
    grind
  · intro u' hu' g hg
    obtain ⟨u, hu, rfl⟩ := Option.map_eq_some_iff.mp hu'
    left
    dsimp only
    rcases h.observed u hu g hg with hlt | ⟨heq, -⟩
    · omega
    · omega

theorem ledger_reconciled (h : Ledger s)
    (env : ReconcileEnv) : Ledger (s.step y (.reconciled env)) := by
  unfold ClusterState.step
  dsimp only
  cases hcr : s.cr with
  | none => exact h
  | some u =>
    dsimp only
    have hpass := pass_reconcile y env s.runs u
    set o := reconcile y env s.runs u with ho
    refine ⟨?_, ?_⟩
    · -- a pass dispatches the present generation only
      rintro u' ⟨rfl⟩ g hg
      rw [hpass.generation_eq]
      dsimp only at hg
      split at hg
      · rcases List.mem_cons.mp hg with rfl | hg
        · rfl
        · exact h.dispatched_le u hcr g hg
      · exact h.dispatched_le u hcr g hg
    · -- and if it succeeds it leaves the gate of that generation closed
      rintro u' ⟨rfl⟩ g hg
      rw [hpass.generation_eq]
      have hold : g ∈ s.reconciled → g < u.generation ∨
          g = u.generation ∧ o.cr.status.observedGeneration = u.generation := by
        intro hg
        rcases h.observed u hcr g hg with hlt | ⟨heq, hobs⟩
        · omega
        · exact Or.inr ⟨heq, hpass.closed hobs⟩
      dsimp only at hg
      split at hg
      · rename_i hok
        rcases List.mem_cons.mp hg with rfl | hg
        · exact Or.inr ⟨rfl, hpass.observed hok⟩
        · exact hold hg
      · exact hold hg

theorem ledger_step (y : YamlCodec Value) (s : ClusterState) (e : ClusterEvent) (h : Ledger s) :
    Ledger (s.step y e) := by
  cases e with
  | edited spec => exact ledger_edited h spec
  | deleted => exact ⟨by rintro u ⟨⟩, by rintro u ⟨⟩⟩
  | reconciled env => exact ledger_reconciled h env
  | started id => exact ⟨h.dispatched_le, h.observed⟩
  | finished id outcome => exact ⟨h.dispatched_le, h.observed⟩

theorem notAppliedAgain_of_ledger (h : Ledger s)
    (e : ClusterEvent) : NotAppliedAgain y s e := by
  cases e with
  | reconciled env =>
    intro u hu hg
    by_contra happlied
    have hopen := (pass_reconcile y env s.runs u).gate (by simpa using happlied)
    rcases h.observed u hu _ hg with hlt | ⟨-, hobs⟩
    · omega
    · simp [needsReconcile, hobs] at hopen
  | _ => trivial

theorem nodup_dispatched_step {e : ClusterEvent}
    (h : s.dispatched.Nodup) (hrec : Recovering y s e) : (s.step y e).dispatched.Nodup := by
  cases e with
  | reconciled env =>
    unfold ClusterState.step
    dsimp only
    cases hcr : s.cr with
    | none => exact h
    | some u =>
      dsimp only
      split
      swap
      · exact h
      rename_i hnew
      -- a second run of the generation needs an id without an active run
      refine List.nodup_cons.mpr ⟨?_, h⟩
      intro hbefore
      cases hsub : (reconcile y env s.runs u).submitted with
      | none => simp [hsub, Runs.startsNew] at hnew
      | some id =>
        obtain ⟨hopen, manifest, hint, hbuild, hinactive⟩ :=
          (pass_reconcile y env s.runs u).inactive id hsub
        exact hinactive (hrec u manifest hint hcr hopen hbefore hbuild)
  | _ => exact h

/-- **A generation is dispatched at most once, with care.**  For every resource, engine and history
    of edits, passes with arbitrary failures, restarts and ends of runs: if a generation that was
    dispatched and whose gate is still open is reconciled only while the run under the id of its
    manifest is active, then the controller starts at most one run per generation.  And in every
    history, a generation of which a pass has succeeded is not applied again. -/
theorem dispatched_at_most_once (y : YamlCodec Value) (u : WorkflowCR) (runs : Runs)
    (events : List ClusterEvent) :
    (Along (ClusterState.step y) (Recovering y) { cr := some u, runs := runs } events →
      (run (ClusterState.step y) { cr := some u, runs := runs } events).dispatched.Nodup) ∧
    Along (ClusterState.step y) (NotAppliedAgain y) { cr := some u, runs := runs } events := by
  refine ⟨?_, ?_⟩
  · exact run_invariant (I := fun s : ClusterState => s.dispatched.Nodup)
      (fun _ _ h hrec => nodup_dispatched_step h hrec) List.nodup_nil
  · have hledger : Ledger { cr := some u, runs := runs } := ⟨by simp, by simp⟩
    have htrue : Along (ClusterState.step y) (fun _ _ => True) { cr := some u, runs := runs } events :=
      along_of_forall (fun _ _ _ => trivial) _
    exact along_of_invariant
      (fun s e h _ => ⟨notAppliedAgain_of_ledger h e, ledger_step y s e h⟩) hledger htrue

/-! ### A status update that fails -/

theorem cr_of_updateErr {err : String} (h : env.updateErr = some err)
    (hlost : env.updateStored = false) : (reconcile y env runs u).cr = u := by
  have hwrite : ∀ extra conds, (writeStatus env u extra conds).2 = u := by
    intro extra conds
    rw [writeStatus, h, hlost]
    rfl
  unfold reconcile
  split
  · rfl
  split
  · rfl
  split
  · exact hwrite _ _
  dsimp only
  split
  · exact hwrite _ _
  · rfl
  · exact hwrite _ _

section

variable {y : YamlCodec Value} {u : WorkflowCR} {manifest : List UInt8} {hint : String}
  {c : CompileResult}

theorem submitted_reconcile (hopen : needsReconcile u = true)
    (hbuild : buildManifest y u = .ok (manifest, hint)) (hc : c.errors = []) (unix : Int)
    (updateErr : Option String) (runs : Runs) :
    (reconcile y { compiled := .ok c, unix := unix, updateErr := updateErr } runs u).submitted =
      match runs.lookup (y.manifestWorkflowID manifest) with
      | some .running => none
      | some .completed => some (rerunWorkflowID (y.manifestWorkflowID manifest) unix)
      | _ => some (y.manifestWorkflowID manifest) := by
  simp only [reconcile, hopen, Bool.true_eq_false, if_false, hbuild, applyCompiled, hc, ne_eq,
    not_true_eq_false, Bool.false_eq_true, submit, ReconcileEnv.port, Runs.getWorkflowStatus]
  cases runs.lookup (y.manifestWorkflowID manifest) with
  | none => rfl
  | some status => cases status <;> rfl

def conflictEvents (y : YamlCodec Value) (manifest : List UInt8) (c : CompileResult) :
    List ClusterEvent :=
  [.reconciled { compiled := .ok c, unix := 0, updateErr := some "conflict" },
    .finished (y.manifestWorkflowID manifest) .completed,
    .reconciled { compiled := .ok c, unix := 60 }]

theorem dispatched_conflictEvents (hopen : needsReconcile u = true)
    (hbuild : buildManifest y u = .ok (manifest, hint)) (hc : c.errors = []) :
    (run (ClusterState.step y) { cr := some u, runs := ∅ } (conflictEvents y manifest c)).dispatched =
      [u.generation, u.generation] := by
  set base := y.manifestWorkflowID manifest with hbase
  have hsub : ∀ unix updateErr runs, (reconcile y
      { compiled := .ok c, unix := unix, updateErr := updateErr } runs u).submitted = _ :=
    submitted_reconcile hopen hbuild hc
  rw [← hbase] at hsub
  -- the first pass starts a run and leaves the gate open
  obtain ⟨hcr, hruns, hdisp⟩ := step_reconciled (y := y) (s := { cr := some u, runs := ∅ }) rfl
    { compiled := .ok c, unix := 0, updateErr := some "conflict" }
  rw [cr_of_updateErr rfl rfl] at hcr
  rw [hsub, AList.lookup_empty] at hruns hdisp
  rw [conflictEvents, run_cons]
  generalize ClusterState.step y { cr := some u, runs := ∅ } _ = s at hcr hruns hdisp ⊢
  -- the run completes
  have hlookup : ∀ id, (s.runs.finish base .completed).lookup id =
      if id = base then some .completed else none := by
    intro id
    rw [hruns, Runs.lookup_finish, Runs.startAll, Runs.lookup_start, AList.lookup_empty]
    by_cases hid : id = base
    · rw [if_pos ⟨hid, Runs.active_start_iff.mpr (Or.inl rfl)⟩, if_pos hid, Outcome.status]
    · grind
  -- the second pass starts a re-run
  rw [run_cons, run_cons, run_nil]
  obtain ⟨-, -, hdisp'⟩ := step_reconciled (y := y) (s := s.step y (.finished base .completed)) hcr
    { compiled := .ok c, unix := 60 }
  have hbefore : (s.step y (.finished base .completed)).runs = s.runs.finish base .completed := rfl
  have hnew : ¬ (s.runs.finish base .completed).Active (rerunWorkflowID base 60) := by
    rw [Runs.Active, hlookup, if_neg (rerunWorkflowID_ne base 60)]
    simp
  rw [hbefore, hsub, hlookup, if_pos rfl] at hdisp'
  rw [hdisp']
  show (if s.runs.finish base .completed |>.startsNew (some (rerunWorkflowID base 60))
    then u.generation :: s.dispatched else s.dispatched) = _
  rw [Runs.startsNew, decide_eq_true hnew, if_pos rfl, hdisp]
  rfl

end

def reportCR : WorkflowCR where
  name := "report"
  nameSpace := "team-a"
  spec := some (GoMap.ofPairs [("initial_state", .str "done"),
    ("states", .map [("done", .map [("type", .str "terminal")])])])
  generation := 1

def reportText : List UInt8 := stringBytes
  ("apiVersion: zynax.io/v1\nkind: Workflow\nmetadata:\n    name: report\n    namespace: team-a\n" ++
    "spec:\n    initial_state: done\n    states:\n        done:\n            type: terminal\n")

def reportYaml : YamlManifest where
  kind := "Workflow"
  apiVersion := "zynax.io/v1"
  metadata := { name := "report", nameSpace := "team-a" }
  spec :=
    { initialState := "done"
      states := GoMap.ofPairs [("done", { type := "terminal" })] }

def reportCodec : YamlCodec Value where
  unmarshal := fun _ =>
    .ok (manifestDocument (manifestMetadata "report" "team-a" "") (reportCR.spec.getD ∅))
  marshal := fun _ => .ok reportText

theorem compile_report :
    ∃ c, compileWorkflowClient ⟨fixedYaml reportYaml, none⟩ ⟨none, "wf-report", 0, 0⟩ reportText
      "team-a" = .ok c ∧ c.errors = [] :=
  ⟨_, rfl, rfl⟩

def reportEnv : ReconcileEnv where
  compiled := compileWorkflowClient ⟨fixedYaml reportYaml, none⟩ ⟨none, "wf-report", 0, 0⟩ reportText "team-a"
  unix := 0

/-- A conflict, a second pass whose update is stored without a reply, the end of the run and a third
    pass. -/
def recoveredEvents : List ClusterEvent :=
  [.reconciled { reportEnv with updateErr := some "conflict" },
    .reconciled { reportEnv with updateErr := some "timeout", updateStored := true },
    .finished (reportCodec.manifestWorkflowID reportText) .completed, .reconciled reportEnv]

theorem dispatched_at_most_once_recovered :
    (run (ClusterState.step reportCodec) { cr := some reportCR, runs := ∅ } recoveredEvents).dispatched =
        [1] ∧
      (run (ClusterState.step reportCodec) { cr := some reportCR, runs := ∅ }
        recoveredEvents).dispatched.Nodup :=
  ⟨by decide +kernel, (dispatched_at_most_once _ _ _ _).1 (by decide +kernel)⟩

/-- **One generation, two runs.**  The manifest compiles, and its run is started again after the
    conflict. -/
theorem conflict_dispatched_twice :
    ∃ c, compileWorkflowClient ⟨fixedYaml reportYaml, none⟩ ⟨none, "wf-report", 0, 0⟩ reportText
        "team-a" = .ok c ∧ c.errors = [] ∧
      (run (ClusterState.step reportCodec) { cr := some reportCR, runs := ∅ }
        (conflictEvents reportCodec reportText c)).dispatched = [1, 1] ∧
      ¬ (run (ClusterState.step reportCodec) { cr := some reportCR, runs := ∅ }
        (conflictEvents reportCodec reportText c)).dispatched.Nodup := by
  obtain ⟨c, hcompile, herrors⟩ := compile_report
  have hbuild : buildManifest reportCodec reportCR = .ok (reportText, "") := rfl
  have htwice := dispatched_conflictEvents (by decide) hbuild herrors
  refine ⟨c, hcompile, herrors, htwice, ?_⟩
  rw [htwice]
  decide

end Zynax.Gateway
