import Zynax.Transition.Runs
import Zynax.Gateway.Apply

namespace Zynax.Gateway

open Golang Transition

/-!
# Applying the same manifest again

A sequence of `ApplyWorkflow` calls with manifests that read as the same document, on an engine
that keeps one run per workflow id.

* `Runs` — the engine's runs by workflow id; a submission starts a run as running;
* `ApplyState`, `ApplyEvent`, `ApplyState.step` — a call looks up the status of the derived id and
  may submit a run later; runs finish at any time.
-/

variable {α : Type}

/-! ### The engine -/

abbrev Runs : Type := GoMap WorkflowStatus

inductive Outcome where
  | completed | failed | cancelled
  deriving DecidableEq, Repr

def Outcome.status : Outcome → WorkflowStatus
  | .completed => .completed
  | .failed => .failed
  | .cancelled => .cancelled

namespace Runs

def getWorkflowStatus (runs : Runs) (id : String) : Except EngineError WorkflowRunSummary :=
  match runs.lookup id with
  | none => .error .notFound
  | some status => .ok ⟨id, id, status⟩

def start (runs : Runs) (id : String) : Runs :=
  if runs.lookup id = some .running then runs else AList.insert id .running runs

def port (runs : Runs) : EnginePort where
  getWorkflowStatus := runs.getWorkflowStatus
  submitWorkflow := fun sub => .ok sub.workflowID

def finish (runs : Runs) (id : String) (outcome : Outcome) : Runs :=
  if runs.lookup id = some .running then AList.insert id outcome.status runs else runs

def Active (runs : Runs) (id : String) : Prop := runs.lookup id = some .running

instance (runs : Runs) (id : String) : Decidable (runs.Active id) :=
  inferInstanceAs (Decidable (_ = _))

def AtMostOneActive (runs : Runs) : Prop := ∀ id id', runs.Active id → runs.Active id' → id = id'

theorem lookup_start (runs : Runs) (id id' : String) :
    (runs.start id).lookup id' = if id' = id then some .running else runs.lookup id' := by
  unfold start
  by_cases hid : id' = id
  · subst hid
    rw [if_pos rfl]
    split
    · assumption
    · simp
  · rw [if_neg hid]
    split
    · rfl
    · rw [AList.lookup_insert_ne hid]

theorem lookup_finish (runs : Runs) (id id' : String) (outcome : Outcome) :
    (runs.finish id outcome).lookup id' =
      if id' = id ∧ runs.Active id then some outcome.status else runs.lookup id' := by
  unfold finish Active
  by_cases hrun : runs.lookup id = some .running
  · rw [if_pos hrun]
    by_cases hid : id' = id
    · rw [if_pos ⟨hid, hrun⟩, hid, AList.lookup_insert]
    · rw [if_neg (fun h => hid h.1), AList.lookup_insert_ne hid]
  · grind

theorem active_start_iff {runs : Runs} {id id' : String} :
    (runs.start id).Active id' ↔ id' = id ∨ runs.Active id' := by
  unfold Active
  rw [lookup_start]
  grind

theorem active_of_active_finish {runs : Runs} {id id' : String} {outcome : Outcome}
    (h : (runs.finish id outcome).Active id') : runs.Active id' := by
  unfold Active at h
  rw [lookup_finish] at h
  split at h
  · grind
  · exact h

end Runs

/-! ### Histories of calls -/

structure ApplyState where
  runs : Runs
  pending : Option String

def ApplyState.initial : ApplyState := ⟨∅, none⟩

inductive ApplyEvent where
  | apply (manifestYAML : List UInt8) (unix : Int)
  | submitted
  | finished (workflowID : String) (outcome : Outcome)

def ApplyState.plan (y : YamlCodec α) (s : ApplyState) (manifestYAML : List UInt8) (unix : Int) :
    SubmitPlan :=
  let workflowID := y.manifestWorkflowID manifestYAML
  planSubmit workflowID unix (s.runs.getWorkflowStatus workflowID)

def ApplyState.step (y : YamlCodec α) (s : ApplyState) : ApplyEvent → ApplyState
  | .apply manifestYAML unix =>
    match s.plan y manifestYAML unix with
    | .start id => { s with pending := some id }
    | _ => s
  | .submitted =>
    match s.pending with
    | none => s
    | some id => ⟨s.runs.start id, none⟩
  | .finished id outcome => { s with runs := s.runs.finish id outcome }

def SameDocument (y : YamlCodec α) (m m' : List UInt8) : Prop :=
  ∃ v, y.unmarshal m = .ok v ∧ y.unmarshal m' = .ok v

def Sequential (y : YamlCodec α) (m : List UInt8) (s : ApplyState) : ApplyEvent → Prop
  | .apply m' _ => s.pending = none ∧ SameDocument y m m'
  | _ => True

def AnswersActive (y : YamlCodec α) (s : ApplyState) : ApplyEvent → Prop
  | .apply m unix => ∀ id, s.runs.Active id → ∀ (req : ApplyRequest) (compiled : CompileResult),
      req.manifestYAML = m → req.dryRun = false → compiled.errors = [] →
        applyCompiled y s.runs.port unix req (.ok compiled) =
          (none, .ok { runID := id, warnings := compiled.warnings, status := .existing })
  | _ => True

def NoRerunActive (base : String) (s : ApplyState) : ApplyEvent → Prop
  | .apply _ _ => ∀ unix, ¬ s.runs.Active (rerunWorkflowID base unix)
  | _ => True

/-! ### How the runs of a manifest come about -/

variable {y : YamlCodec α} {s : ApplyState} {m : List UInt8} {base id : String} {outcome : Outcome}

structure Issued (base : String) (s : ApplyState) : Prop where
  ids : ∀ id status, s.runs.lookup id = some status → id = base ∨ ∃ t, id = rerunWorkflowID base t
  reruns : ∀ t status, s.runs.lookup (rerunWorkflowID base t) = some status →
    s.runs.lookup base = some .completed
  pending : ∀ id, s.pending = some id →
    id = base ∧ s.runs.lookup base ≠ some .running ∧ s.runs.lookup base ≠ some .completed ∨
      (∃ t, id = rerunWorkflowID base t) ∧ s.runs.lookup base = some .completed

theorem plan_eq (y : YamlCodec α) (s : ApplyState) (m : List UInt8) (unix : Int) :
    s.plan y m unix =
      match s.runs.lookup (y.manifestWorkflowID m) with
      | some .running => .existing (y.manifestWorkflowID m)
      | some .completed => .start (rerunWorkflowID (y.manifestWorkflowID m) unix)
      | _ => .start (y.manifestWorkflowID m) := by
  unfold ApplyState.plan Runs.getWorkflowStatus planSubmit
  grind

theorem issued_initial (base : String) : Issued base .initial := by
  refine ⟨?_, ?_, ?_⟩
  · intro id status h
    exact absurd h (by simp [ApplyState.initial])
  · intro t status h
    exact absurd h (by simp [ApplyState.initial])
  · intro id h
    exact absurd h (by simp [ApplyState.initial])

theorem issued_apply (unix : Int)
    (h : Issued (y.manifestWorkflowID m) s) :
    Issued (y.manifestWorkflowID m) (s.step y (.apply m unix)) := by
  unfold ApplyState.step
  dsimp only
  rw [plan_eq]
  cases hbase : s.runs.lookup (y.manifestWorkflowID m) with
  | none =>
    refine ⟨h.ids, h.reruns, ?_⟩
    grind
  | some status =>
    cases status with
    | running => exact h
    | completed =>
      refine ⟨h.ids, h.reruns, ?_⟩
      grind
    | _ =>
      refine ⟨h.ids, h.reruns, ?_⟩
      grind

theorem issued_submitted (h : Issued base s) :
    Issued base (s.step y .submitted) := by
  unfold ApplyState.step
  dsimp only
  cases hp : s.pending with
  | none => exact h
  | some id =>
    rcases h.pending id hp with ⟨rfl, -, hcomp⟩ | ⟨⟨t, rfl⟩, hcomp⟩
    · refine ⟨?_, ?_, by simp⟩
      · intro id' status hid'
        rw [Runs.lookup_start] at hid'
        split at hid'
        · exact Or.inl (by assumption)
        · exact h.ids id' status hid'
      · -- the first run was not completed, so there are no re-runs
        intro t status ht
        rw [Runs.lookup_start, if_neg (rerunWorkflowID_ne _ t)] at ht
        exact absurd (h.reruns t status ht) hcomp
    · refine ⟨?_, ?_, by simp⟩
      · intro id' status hid'
        rw [Runs.lookup_start] at hid'
        split at hid'
        · grind
        · exact h.ids id' status hid'
      · intro t' status _
        rw [Runs.lookup_start, if_neg (Ne.symm (rerunWorkflowID_ne _ t))]
        exact hcomp

theorem lookup_finish_of_ne_running {runs : Runs} (h : ¬ runs.Active base) :
    (runs.finish id outcome).lookup base = runs.lookup base := by
  rw [Runs.lookup_finish, if_neg]
  grind

theorem issued_finished (h : Issued base s) : Issued base (s.step y (.finished id outcome)) := by
  -- a finished run was there before
  have hold : ∀ id' status, (s.runs.finish id outcome).lookup id' = some status →
      ∃ status', s.runs.lookup id' = some status' := by
    intro id' status hid'
    rw [Runs.lookup_finish] at hid'
    split at hid'
    · rename_i hcase
      exact ⟨_, hcase.1 ▸ hcase.2⟩
    · exact ⟨_, hid'⟩
  have hkeep : ∀ st, st ≠ .running → s.runs.lookup base = some st →
      (s.runs.finish id outcome).lookup base = some st := by
    intro st hst hbase
    rw [lookup_finish_of_ne_running, hbase]
    intro hact
    exact hst (Option.some.inj (hbase.symm.trans hact))
  refine ⟨?_, ?_, ?_⟩
  · intro id' status hid'
    obtain ⟨status', hstatus'⟩ := hold id' status hid'
    exact h.ids id' status' hstatus'
  · intro t status ht
    obtain ⟨status', hstatus'⟩ := hold _ status ht
    exact hkeep .completed (by simp) (h.reruns t status' hstatus')
  · intro id' hid'
    rcases h.pending id' hid' with ⟨rfl, hrun, hcomp⟩ | ⟨ht, hcomp⟩
    · refine Or.inl ⟨rfl, ?_, ?_⟩
      · rw [show (s.step y (.finished id outcome)).runs = s.runs.finish id outcome from rfl,
          lookup_finish_of_ne_running hrun]
        exact hrun
      · rw [show (s.step y (.finished id outcome)).runs = s.runs.finish id outcome from rfl,
          lookup_finish_of_ne_running hrun]
        exact hcomp
    · exact Or.inr ⟨ht, hkeep .completed (by simp) hcomp⟩

/-! ### Idempotence -/

variable {unix : Int}

theorem answersActive_iff_plan :
    AnswersActive y s (.apply m unix) ↔ ∀ id, s.runs.Active id → s.plan y m unix = .existing id := by
  constructor
  · intro h id hact
    have hcall := h id hact { manifestYAML := m } {} rfl rfl rfl
    unfold applyCompiled submit at hcall
    unfold ApplyState.plan
    dsimp only [Runs.port] at hcall ⊢
    grind
  · rintro h id hact req compiled rfl hdry herr
    have hplan := h id hact
    unfold ApplyState.plan at hplan
    unfold applyCompiled submit
    dsimp only [Runs.port] at hplan ⊢
    simp [herr, hdry, hplan]

theorem answersActive_iff (h : Issued (y.manifestWorkflowID m) s) :
    AnswersActive y s (.apply m unix) ↔
      NoRerunActive (y.manifestWorkflowID m) s (.apply m unix) := by
  rw [answersActive_iff_plan, plan_eq]
  unfold NoRerunActive
  dsimp only
  constructor
  · intro hans t hact
    have hplan := hans _ hact
    rw [h.reruns t _ hact] at hplan
    exact absurd hplan (by simp)
  · intro hno id hact
    rcases h.ids id _ hact with rfl | ⟨t, rfl⟩
    · rw [show s.runs.lookup (y.manifestWorkflowID m) = some .running from hact]
    · exact absurd hact (hno t)

structure Exclusive (s : ApplyState) : Prop where
  one : s.runs.AtMostOneActive
  idle : s.pending ≠ none → ∀ id, ¬ s.runs.Active id

theorem exclusive_apply (hissued : Issued (y.manifestWorkflowID m) s) (h : Exclusive s)
    (hno : NoRerunActive (y.manifestWorkflowID m) s (.apply m unix)) :
    Exclusive (s.step y (.apply m unix)) := by
  have hans := answersActive_iff_plan.mp ((answersActive_iff hissued).mpr hno)
  unfold ApplyState.step
  dsimp only
  cases hplan : s.plan y m unix with
  | start id =>
    refine ⟨h.one, ?_⟩
    grind
  | _ => exact h

theorem exclusive_submitted (h : Exclusive s) :
    Exclusive (s.step y .submitted) := by
  unfold ApplyState.step
  dsimp only
  cases hp : s.pending with
  | none => exact h
  | some id =>
    have hidle := h.idle (by simp [hp])
    refine ⟨?_, by simp⟩
    intro a b ha hb
    rcases Runs.active_start_iff.mp ha with rfl | ha
    · rcases Runs.active_start_iff.mp hb with rfl | hb
      · rfl
      · exact absurd hb (hidle b)
    · exact absurd ha (hidle a)

theorem exclusive_finished (h : Exclusive s) : Exclusive (s.step y (.finished id outcome)) := by
  refine ⟨?_, ?_⟩
  · intro a b ha hb
    exact h.one a b (Runs.active_of_active_finish ha) (Runs.active_of_active_finish hb)
  · intro hp id' hact
    exact h.idle hp id' (Runs.active_of_active_finish hact)

theorem manifestWorkflowID_of_sameDocument
    (hmarshal : ∀ raw v, y.unmarshal raw = .ok v → ∃ out, y.marshal v = .ok out)
    {m' : List UInt8} (h : SameDocument y m m') :
    y.manifestWorkflowID m' = y.manifestWorkflowID m := by
  obtain ⟨v, hm, hm'⟩ := h
  obtain ⟨out, hout⟩ := hmarshal m v hm
  exact manifestWorkflowID_congr hm' hm hout

section

variable {y : YamlCodec α} {m : List UInt8}

theorem issued_step (hmarshal : ∀ raw v, y.unmarshal raw = .ok v → ∃ out, y.marshal v = .ok out)
    (s : ApplyState) (e : ApplyEvent) (h : Issued (y.manifestWorkflowID m) s)
    (hseq : Sequential y m s e) : Issued (y.manifestWorkflowID m) (s.step y e) := by
  cases e with
  | apply m' unix =>
    rw [← manifestWorkflowID_of_sameDocument hmarshal hseq.2] at h ⊢
    exact issued_apply unix h
  | submitted => exact issued_submitted h
  | finished id outcome => exact issued_finished h

theorem answersActive_iff_event
    (hmarshal : ∀ raw v, y.unmarshal raw = .ok v → ∃ out, y.marshal v = .ok out)
    {e : ApplyEvent} (h : Issued (y.manifestWorkflowID m) s) (hseq : Sequential y m s e) :
    AnswersActive y s e ↔ NoRerunActive (y.manifestWorkflowID m) s e := by
  cases e with
  | apply m' unix =>
    rw [← manifestWorkflowID_of_sameDocument hmarshal hseq.2] at h ⊢
    exact answersActive_iff h
  | submitted => exact Iff.rfl
  | finished id outcome => exact Iff.rfl

theorem exclusive_step (hmarshal : ∀ raw v, y.unmarshal raw = .ok v → ∃ out, y.marshal v = .ok out)
    {e : ApplyEvent} (hissued : Issued (y.manifestWorkflowID m) s) (h : Exclusive s)
    (hseq : Sequential y m s e) (hno : NoRerunActive (y.manifestWorkflowID m) s e) :
    Exclusive (s.step y e) := by
  cases e with
  | apply m' unix =>
    rw [← manifestWorkflowID_of_sameDocument hmarshal hseq.2] at hissued hno
    exact exclusive_apply hissued h hno
  | submitted => exact exclusive_submitted h
  | finished id outcome => exact exclusive_finished h

end

/-- **When applying is idempotent.**  In every history of successive calls with manifests that read as
    the same document, and of runs that end at any time: at most one run is active and every call made
    while one is active returns it as existing and starts nothing, if and only if no call is made
    while a re-run is active. -/
theorem idempotent_iff (y : YamlCodec α)
    (hmarshal : ∀ raw v, y.unmarshal raw = .ok v → ∃ out, y.marshal v = .ok out)
    (m : List UInt8) (events : List ApplyEvent)
    (hseq : Along (ApplyState.step y) (Sequential y m) .initial events) :
    (Along (ApplyState.step y) (fun s e => s.runs.AtMostOneActive ∧ AnswersActive y s e) .initial events ∧
      (run (ApplyState.step y) .initial events).runs.AtMostOneActive) ↔
    Along (ApplyState.step y) (NoRerunActive (y.manifestWorkflowID m)) .initial events := by
  have hissued := issued_initial (y.manifestWorkflowID m)
  constructor
  · -- an apply during a re-run would be answered by another one
    rintro ⟨hall, -⟩
    refine along_of_invariant ?_ hissued (hseq.and hall)
    rintro s e hs ⟨hsq, -, hans⟩
    exact ⟨(answersActive_iff_event hmarshal hs hsq).mp hans, issued_step hmarshal s e hs hsq⟩
  · intro hno
    have hinit : Issued (y.manifestWorkflowID m) .initial ∧ Exclusive .initial :=
      ⟨hissued, ⟨by intro a b ha; exact absurd ha (by simp [Runs.Active, ApplyState.initial]),
        by intro hp; exact absurd rfl hp⟩⟩
    have hkeep : ∀ s e, Issued (y.manifestWorkflowID m) s ∧ Exclusive s →
        Sequential y m s e ∧ NoRerunActive (y.manifestWorkflowID m) s e →
        (s.runs.AtMostOneActive ∧ AnswersActive y s e) ∧
          (Issued (y.manifestWorkflowID m) (s.step y e) ∧ Exclusive (s.step y e)) := by
      rintro s e ⟨hs, hex⟩ ⟨hsq, hn⟩
      exact ⟨⟨hex.one, (answersActive_iff_event hmarshal hs hsq).mpr hn⟩,
        issued_step hmarshal s e hs hsq, exclusive_step hmarshal hs hex hsq hn⟩
    refine ⟨along_of_invariant hkeep hinit (hseq.and hno), ?_⟩
    exact (run_invariant (fun s e hs hc => (hkeep s e hs hc).2) hinit (hseq.and hno)).2.one

/-! ### A nightly job -/

theorem run_rerun (unix : Int)
    (hbase : s.runs.lookup (y.manifestWorkflowID m) = some .completed) :
    run (ApplyState.step y) s [.apply m unix, .submitted] =
      ⟨s.runs.start (rerunWorkflowID (y.manifestWorkflowID m) unix), none⟩ := by
  rw [run_cons, ApplyState.step, plan_eq, hbase]
  rfl

def completedOnce (y : YamlCodec α) (m : List UInt8) : List ApplyEvent :=
  [.apply m 0, .submitted, .finished (y.manifestWorkflowID m) .completed]

theorem run_completedOnce (y : YamlCodec α) (m : List UInt8) :
    run (ApplyState.step y) .initial (completedOnce y m) =
      ⟨(Runs.start ∅ (y.manifestWorkflowID m)).finish (y.manifestWorkflowID m) .completed, none⟩ := by
  rfl

theorem lookup_completedOnce (y : YamlCodec α) (m : List UInt8) :
    (run (ApplyState.step y) .initial (completedOnce y m)).runs.lookup (y.manifestWorkflowID m) =
      some .completed := by
  rw [run_completedOnce]
  dsimp only
  rw [Runs.lookup_finish, if_pos ⟨rfl, Runs.active_start_iff.mpr (Or.inl rfl)⟩, Outcome.status]

def appliedAgain (y : YamlCodec α) (m : List UInt8) : List ApplyEvent :=
  completedOnce y m ++ ([.apply m 100, .submitted] ++ [.apply m 101, .submitted])

section

variable (y : YamlCodec α) (m : List UInt8)

theorem run_appliedAgain :
    run (ApplyState.step y) .initial (appliedAgain y m) =
      ⟨((run (ApplyState.step y) .initial (completedOnce y m)).runs.start
        (rerunWorkflowID (y.manifestWorkflowID m) 100)).start
          (rerunWorkflowID (y.manifestWorkflowID m) 101), none⟩ := by
  have hbase := lookup_completedOnce y m
  rw [appliedAgain, run_append, run_append, run_rerun 100 hbase, run_rerun 101]
  dsimp only
  rw [Runs.lookup_start, if_neg (Ne.symm (rerunWorkflowID_ne _ 100)), hbase]

theorem active_appliedAgain :
    (run (ApplyState.step y) .initial (appliedAgain y m)).runs.Active
        (rerunWorkflowID (y.manifestWorkflowID m) 100) ∧
      (run (ApplyState.step y) .initial (appliedAgain y m)).runs.Active
        (rerunWorkflowID (y.manifestWorkflowID m) 101) := by
  rw [run_appliedAgain, Runs.active_start_iff, Runs.active_start_iff, Runs.active_start_iff]
  exact ⟨Or.inr (Or.inl rfl), Or.inl rfl⟩

theorem sequential_appliedAgain (hm : SameDocument y m m) :
    Along (ApplyState.step y) (Sequential y m) .initial (appliedAgain y m) := by
  rw [appliedAgain, along_append, along_append]
  refine ⟨⟨⟨rfl, hm⟩, trivial, trivial, trivial⟩, ⟨⟨?_, hm⟩, trivial, trivial⟩,
    ⟨⟨?_, hm⟩, trivial, trivial⟩⟩
  · rfl
  · rw [run_rerun 100 (lookup_completedOnce y m)]

end

def nightlyManifest : List UInt8 := stringBytes
  ("apiVersion: zynax.io/v1\nkind: Workflow\nmetadata:\n    name: nightly\nspec:\n" ++
    "    initial_state: done\n    states:\n        done:\n            type: terminal\n")

def nightlyID : String := canonicalCodec.manifestWorkflowID nightlyManifest

def nightlyTwice : List ApplyEvent := appliedAgain canonicalCodec nightlyManifest

theorem sequential_nightlyTwice :
    Along (ApplyState.step canonicalCodec) (Sequential canonicalCodec nightlyManifest) .initial
      nightlyTwice :=
  sequential_appliedAgain _ _ ⟨_, rfl, rfl⟩

theorem idempotent_iff_nightly :
    Along (ApplyState.step canonicalCodec) (Sequential canonicalCodec nightlyManifest) .initial
        nightlyTwice ∧
      ((Along (ApplyState.step canonicalCodec)
          (fun s e => s.runs.AtMostOneActive ∧ AnswersActive canonicalCodec s e) .initial nightlyTwice ∧
        (run (ApplyState.step canonicalCodec) .initial nightlyTwice).runs.AtMostOneActive) ↔
      Along (ApplyState.step canonicalCodec) (NoRerunActive nightlyID) .initial nightlyTwice) :=
  ⟨sequential_nightlyTwice,
    idempotent_iff canonicalCodec (fun _ v _ => ⟨v, rfl⟩) nightlyManifest nightlyTwice
      sequential_nightlyTwice⟩

/-- **Two re-runs at a time.**  The second apply finds the first run completed and does not see the
    re-run that is active. -/
theorem nightly_two_active :
    Along (ApplyState.step canonicalCodec) (Sequential canonicalCodec nightlyManifest) .initial
        nightlyTwice ∧
      (run (ApplyState.step canonicalCodec) .initial nightlyTwice).runs.Active
        (rerunWorkflowID nightlyID 100) ∧
      (run (ApplyState.step canonicalCodec) .initial nightlyTwice).runs.Active
        (rerunWorkflowID nightlyID 101) ∧
      ¬ (run (ApplyState.step canonicalCodec) .initial nightlyTwice).runs.AtMostOneActive := by
  obtain ⟨h100, h101⟩ := active_appliedAgain canonicalCodec nightlyManifest
  refine ⟨sequential_nightlyTwice, h100, h101, ?_⟩
  intro h
  have heq := h _ _ h100 h101
  rw [rerunWorkflowID, rerunWorkflowID, String.append_right_inj] at heq
  exact absurd heq (by decide +kernel)

end Zynax.Gateway
