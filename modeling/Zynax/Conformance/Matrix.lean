import Zynax.Golang.Map
import Zynax.Golang.Strings

namespace Zynax.Conformance

open Golang

/-!
# The conformance matrix

The matrix has a row for every engine and a cell for every scenario of the suite.  Observations are
recorded outcomes, or come from a live run of one row, whose runners leave their exit statuses under the
keys of the scenarios.
-/

/-! ### The manifest -/

structure ZecsLeg where
  status : String
  runner : String := ""
  reason : String := ""
  gap : String := ""
  ciStep : String := ""
  asserts : List String := []

structure ZecsScenario where
  id : String
  legs : GoMap ZecsLeg

structure ZecsManifest where
  enforcement : GoMap String := ∅
  scenarios : List ZecsScenario

def legStatusRun : String := "run"

def legStatusNotRun : String := "not_run"

inductive Result where
  | pass | fail | skipped | incomplete | notRun | none
  deriving DecidableEq, Repr

inductive SkipKind where
  | notInLeg | notExecuted
  deriving DecidableEq, Repr

structure ScenarioMatrix where
  id : String
  result : Result := .skipped
  planned : Bool := false
  skipKind : Option SkipKind := none
  reason : Formatted := .text ""
  gap : String := ""
  runner : String := ""
  ciStep : String := ""
  observed : String := ""
  asserts : List String := []

structure LegMatrix where
  engine : String
  enforcement : String
  executed : Bool
  complete : Bool
  result : Result
  scenarios : List ScenarioMatrix

structure MatrixDoc where
  result : Result
  enforcedResult : Result
  complete : Bool
  legs : List LegMatrix

/-! ### Observations -/

def outcomeSuccess : String := "success"

def outcomeFailure : String := "failure"

def observationKey (sc : ZecsScenario) (entry : ZecsLeg) : String :=
  if entry.ciStep ≠ "" then entry.ciStep else sc.id

def outcomeOf (ok : Bool) : String := if ok then outcomeSuccess else outcomeFailure

def runScenario (exit : String → Bool) (leg : String) (acc : GoMap String × GoMap String) (sc : ZecsScenario) :
    GoMap String × GoMap String :=
  match sc.legs.lookup leg with
  | none => acc
  | some entry =>
    if entry.status ≠ legStatusRun ∨ entry.runner = "" then acc
    else
      match acc.2.lookup entry.runner with
      | some prior => (acc.1.insert (observationKey sc entry) prior, acc.2)
      | none =>
        (acc.1.insert (observationKey sc entry) (outcomeOf (exit entry.runner)),
          acc.2.insert entry.runner (outcomeOf (exit entry.runner)))

/-- The outcomes of a live run of a leg. -/
def runLegRunners (exit : String → Bool) (leg : String) (man : ZecsManifest) : GoMap String :=
  (man.scenarios.foldl (runScenario exit leg) (∅, ∅)).1

inductive Observations where
  | recorded (outcomes : GoMap (GoMap String))
  | live (leg : String) (exit : String → Bool)

def Observations.observed (man : ZecsManifest) : Observations → GoMap (GoMap String)
  | .recorded outcomes => outcomes
  | .live leg exit => AList.insert leg (runLegRunners exit leg man) ∅

/-! ### The document -/

def collapse (s : String) : String := " ".intercalate ((s.splitToList Char.isWhitespace).filter (· ≠ ""))

def skip (cell : ScenarioMatrix) (kind : SkipKind) (reason : Formatted) : ScenarioMatrix :=
  { cell with result := .skipped, skipKind := some kind, reason := reason }

def noEntry : Formatted :=
  ⟨"no 'run'/'not_run' entry for this leg in %s — run `make check-conformance`",
    [.str "docs/conformance/scenarios.yaml"]⟩

/-- The outcome of a scenario on an engine. -/
def buildScenarioCell (sc : ZecsScenario) (engine : String) (steps : Option (GoMap String)) : ScenarioMatrix :=
  let cell : ScenarioMatrix := { id := sc.id }
  match sc.legs.lookup engine with
  | none => skip cell .notExecuted noEntry
  | some entry =>
    if entry.status = legStatusNotRun then
      skip { cell with gap := entry.gap } .notInLeg (.text (collapse entry.reason))
    else if entry.status ≠ legStatusRun then
      skip cell .notExecuted noEntry
    else
      let cell : ScenarioMatrix := { cell with
        planned := true, runner := entry.runner, ciStep := entry.ciStep, asserts := entry.asserts }
      match steps with
      | none => skip cell .notExecuted (.text "the engine leg did not execute in this run")
      | some steps =>
        let key := observationKey sc entry
        match steps.lookup key with
        | none => skip cell .notExecuted ⟨"the leg recorded no outcome for %q", [.str key]⟩
        | some outcome =>
          let cell : ScenarioMatrix := { cell with observed := outcome }
          if outcome = outcomeSuccess then { cell with result := .pass }
          else if outcome = outcomeFailure then { cell with result := .fail }
          else if outcome = "" then
            skip cell .notExecuted ⟨"the leg recorded no outcome for %q", [.str key]⟩
          else
            skip cell .notExecuted ⟨"recorded outcome %q for %q is neither %q nor %q",
              [.str outcome, .str key, .str outcomeSuccess, .str outcomeFailure]⟩

def enforcementOf (man : ZecsManifest) (engine : String) : String :=
  let e := trimSpace ((man.enforcement.lookup engine).getD "")
  if e ≠ "" then e else "unknown"

def buildLegMatrix (man : ZecsManifest) (observed : GoMap (GoMap String)) (engine : String) : LegMatrix :=
  let steps := observed.lookup engine
  let cells := man.scenarios.map fun sc => buildScenarioCell sc engine steps
  let failed := cells.any fun cell => cell.result = .fail
  let notExecuted := cells.any fun cell => cell.skipKind = some .notExecuted
  { engine := engine
    enforcement := enforcementOf man engine
    executed := steps.isSome
    complete := steps.isSome && !notExecuted
    result := if steps.isNone then .notRun else if failed then .fail
      else if notExecuted then .incomplete else .pass
    scenarios := cells }

def verdict (anyFail anyNotPass : Bool) : Result :=
  if anyFail then .fail else if anyNotPass then .incomplete else .pass

def verdictOf (legs : List LegMatrix) : Result :=
  verdict (legs.any fun leg => leg.result = .fail) (legs.any fun leg => leg.result ≠ .pass)

/-- The document with the results. -/
def buildMatrixDoc (man : ZecsManifest) (engines : List String) (observed : GoMap (GoMap String)) :
    MatrixDoc :=
  let legs := engines.map (buildLegMatrix man observed)
  let required := legs.filter fun leg => leg.enforcement = "required"
  { result := verdictOf legs
    enforcedResult := if required = [] then .none else verdictOf required
    complete := legs.all fun leg => leg.executed && leg.complete
    legs := legs }

/-! ### What was observed -/

def Marked (sc : ZecsScenario) (leg : String) (entry : ZecsLeg) : Prop :=
  sc.legs.lookup leg = some entry ∧ entry.status = legStatusRun

def readOutcome : Option String → Option Bool
  | some outcome => if outcome = outcomeSuccess then some true else if outcome = outcomeFailure then some false
    else none
  | none => none

def Observations.seen (engine : String) (sc : ZecsScenario) (entry : ZecsLeg) : Observations → Option Bool
  | .recorded outcomes => readOutcome ((outcomes.lookup engine).bind (·.lookup (observationKey sc entry)))
  | .live leg exit => if engine = leg ∧ entry.runner ≠ "" then some (exit entry.runner) else none

/-- The leg has observations: recorded ones, or the live run is its own. -/
def Observations.executed (engine : String) : Observations → Bool
  | .recorded outcomes => (outcomes.lookup engine).isSome
  | .live leg _ => engine = leg

/-- The runner that a scenario leaves an outcome of under a key. -/
def runnerUnder (leg key : String) (sc : ZecsScenario) : Option String :=
  (sc.legs.lookup leg).bind fun entry =>
    if entry.status = legStatusRun ∧ entry.runner ≠ "" ∧ observationKey sc entry = key then some entry.runner else none

/-- The runner of the last scenario with the key. -/
def lastRunner (scenarios : List ZecsScenario) (leg key : String) : Option String :=
  (scenarios.filterMap (runnerUnder leg key)).getLast?

/-- The scenario is not part of the leg, or the last runner under its key succeeded. -/
def Passes (man : ZecsManifest) (leg : String) (exit : String → Bool) (sc : ZecsScenario) : Prop :=
  (∃ entry runner, Marked sc leg entry ∧ lastRunner man.scenarios leg (observationKey sc entry) = some runner ∧
    exit runner = true) ∨ (sc.legs.lookup leg).map ZecsLeg.status = some legStatusNotRun

/-- No evidence of a live run is lost by runners that share a key: a failed runner is the last one under some
    key or another failed one is, and with a scenario that has no runner not every scenario passes. -/
def Observations.Kept (man : ZecsManifest) : Observations → Prop
  | .recorded _ => True
  | .live leg exit => ∀ sc ∈ man.scenarios, ∀ entry, Marked sc leg entry →
    (entry.runner ≠ "" → exit entry.runner = false →
      ∃ key runner, lastRunner man.scenarios leg key = some runner ∧ exit runner = false) ∧
    (entry.runner = "" → ∃ sc' ∈ man.scenarios, ¬ Passes man leg exit sc')

structure Evidenced (man : ZecsManifest) (obs : Observations) (leg : LegMatrix) : Prop where
  pass : leg.result = .pass → leg.executed = true ∧
    (∃ sc ∈ man.scenarios, ∃ entry, Marked sc leg.engine entry ∧ obs.seen leg.engine sc entry = some true) ∧
    ∀ sc ∈ man.scenarios, ∀ entry, Marked sc leg.engine entry → obs.seen leg.engine sc entry = some true
  fail : leg.result = .fail ↔ leg.executed = true ∧
    ∃ sc ∈ man.scenarios, ∃ entry, Marked sc leg.engine entry ∧ obs.seen leg.engine sc entry = some false

/-! ### One row -/

variable {sc : ZecsScenario} {engine leg : String} {entry : ZecsLeg} {steps : Option (GoMap String)}
  {man : ZecsManifest} {observed : GoMap (GoMap String)} {exit : String → Bool} {done : List ZecsScenario}
  {acc : GoMap String × GoMap String}

def cellOutcome (steps : Option (GoMap String)) (sc : ZecsScenario) (entry : ZecsLeg) : Option Bool :=
  readOutcome (steps.bind (·.lookup (observationKey sc entry)))

theorem cell_of_marked (h : Marked sc engine entry) :
    ((buildScenarioCell sc engine steps).result = .fail ↔ cellOutcome steps sc entry = some false) ∧
      ((buildScenarioCell sc engine steps).skipKind = some .notExecuted ↔ cellOutcome steps sc entry = none) := by
  obtain ⟨hentry, hstatus⟩ := h
  have hrun : legStatusRun ≠ legStatusNotRun := by decide
  have hne : outcomeFailure ≠ outcomeSuccess := by decide
  simp only [buildScenarioCell, cellOutcome, hentry, hstatus, hrun, if_false, not_true_eq_false, ne_eq]
  cases steps with
  | none => simp [skip, readOutcome]
  | some steps =>
    cases hkey : steps.lookup (observationKey sc entry) with
    | none => simp [skip, readOutcome, hkey]
    | some outcome =>
      by_cases hs : outcome = outcomeSuccess
      · simp [readOutcome, hkey, hs]
      · by_cases hf : outcome = outcomeFailure
        · simp [readOutcome, hkey, hf, hne]
        · by_cases he : outcome = ""
          · subst he
            simp [skip, readOutcome, hkey, outcomeSuccess, outcomeFailure]
          · simp [skip, readOutcome, hkey, hs, hf, he]

theorem cell_of_not_marked (h : ∀ entry, ¬ Marked sc engine entry) :
    (buildScenarioCell sc engine steps).result ≠ .fail ∧
      ((buildScenarioCell sc engine steps).skipKind ≠ some .notExecuted ↔
        (sc.legs.lookup engine).map ZecsLeg.status = some legStatusNotRun) := by
  unfold buildScenarioCell
  cases hentry : sc.legs.lookup engine with
  | none => simp [skip]
  | some entry =>
    have hstatus : entry.status ≠ legStatusRun := fun hstatus => h entry ⟨hentry, hstatus⟩
    by_cases hnot : entry.status = legStatusNotRun
    · simp [skip, hnot]
    · simp [skip, hnot, hstatus]

theorem Marked.status_ne (h : Marked sc engine entry) :
    (sc.legs.lookup engine).map ZecsLeg.status ≠ some legStatusNotRun := by
  rw [h.1, Option.map_some, h.2]
  decide

theorem exists_marked_iff (h : Marked sc engine entry) {b : Bool} :
    (∃ entry', Marked sc engine entry' ∧ cellOutcome steps sc entry' = some b) ↔
      cellOutcome steps sc entry = some b := by
  refine ⟨?_, fun hout => ⟨entry, h, hout⟩⟩
  rintro ⟨entry', h', hout⟩
  rwa [Option.some.inj (h.1.symm.trans h'.1)]

theorem cell_fail_iff : (buildScenarioCell sc engine steps).result = .fail ↔
    ∃ entry, Marked sc engine entry ∧ cellOutcome steps sc entry = some false := by
  by_cases h : ∃ entry, Marked sc engine entry
  · obtain ⟨entry, h⟩ := h
    rw [(cell_of_marked h).1, exists_marked_iff h]
  · rw [not_exists] at h
    exact iff_of_false (cell_of_not_marked h).1 fun ⟨entry, hm, _⟩ => h entry hm

theorem cell_fine_iff : (buildScenarioCell sc engine steps).result ≠ .fail ∧
    (buildScenarioCell sc engine steps).skipKind ≠ some .notExecuted ↔
      (∃ entry, Marked sc engine entry ∧ cellOutcome steps sc entry = some true) ∨
        (sc.legs.lookup engine).map ZecsLeg.status = some legStatusNotRun := by
  by_cases h : ∃ entry, Marked sc engine entry
  · obtain ⟨entry, h⟩ := h
    rw [Ne, (cell_of_marked h).1, Ne, (cell_of_marked h).2, exists_marked_iff h, or_iff_left h.status_ne]
    rcases cellOutcome steps sc entry with _ | _ | _ <;> simp
  · rw [not_exists] at h
    have hnone : ¬ ∃ entry, Marked sc engine entry ∧ cellOutcome steps sc entry = some true :=
      fun ⟨entry, hm, _⟩ => h entry hm
    rw [or_iff_right hnone, ← (cell_of_not_marked h).2]
    exact and_iff_right (cell_of_not_marked h).1

theorem result_eq_fail_iff : (buildLegMatrix man observed engine).result = .fail ↔
    (observed.lookup engine).isSome = true ∧ ∃ sc ∈ man.scenarios, ∃ entry, Marked sc engine entry ∧
      cellOutcome (observed.lookup engine) sc entry = some false := by
  simp only [← cell_fail_iff]
  unfold buildLegMatrix
  cases observed.lookup engine with
  | none => simp
  | some steps =>
    grind

theorem result_eq_pass_iff : (buildLegMatrix man observed engine).result = .pass ↔
    (observed.lookup engine).isSome = true ∧ ∀ sc ∈ man.scenarios,
      (∃ entry, Marked sc engine entry ∧ cellOutcome (observed.lookup engine) sc entry = some true) ∨
        (sc.legs.lookup engine).map ZecsLeg.status = some legStatusNotRun := by
  simp only [← cell_fine_iff]
  unfold buildLegMatrix
  cases observed.lookup engine with
  | none => simp
  | some steps =>
    grind

/-! ### Live runs -/

structure Ran (exit : String → Bool) (leg : String) (done : List ZecsScenario)
    (acc : GoMap String × GoMap String) : Prop where
  prior : ∀ runner outcome, acc.2.lookup runner = some outcome → outcome = outcomeOf (exit runner)
  outcomes : ∀ key, acc.1.lookup key = (lastRunner done leg key).map fun runner => outcomeOf (exit runner)

theorem lastRunner_append (done : List ZecsScenario) (sc : ZecsScenario) (leg key : String) :
    lastRunner (done ++ [sc]) leg key = (runnerUnder leg key sc).or (lastRunner done leg key) := by
  unfold lastRunner
  cases h : runnerUnder leg key sc with
  | none => simp [h]
  | some runner => simp [h]

theorem Marked.runnerUnder_eq (h : Marked sc leg entry) (hne : entry.runner ≠ "") (key : String) :
    runnerUnder leg key sc = if observationKey sc entry = key then some entry.runner else none := by
  simp [runnerUnder, h.1, h.2, hne]

theorem Ran.record (h : Ran exit leg done acc) (hm : Marked sc leg entry) (hne : entry.runner ≠ "")
    {byRunner : GoMap String}
    (hprior : ∀ runner outcome, byRunner.lookup runner = some outcome → outcome = outcomeOf (exit runner)) :
    Ran exit leg (done ++ [sc])
      (acc.1.insert (observationKey sc entry) (outcomeOf (exit entry.runner)), byRunner) where
  prior := hprior
  outcomes key := by
    rw [lastRunner_append, hm.runnerUnder_eq hne]
    by_cases heq : observationKey sc entry = key
    · rw [heq, AList.lookup_insert, if_pos rfl]
      rfl
    · rw [AList.lookup_insert_ne (Ne.symm heq), if_neg heq]
      exact h.outcomes key

theorem Ran.step (h : Ran exit leg done acc) (sc : ZecsScenario) :
    Ran exit leg (done ++ [sc]) (runScenario exit leg acc sc) := by
  have hpass : (∀ key, runnerUnder leg key sc = none) → Ran exit leg (done ++ [sc]) acc := fun hnone =>
    ⟨h.prior, fun key => by rw [lastRunner_append, hnone, Option.none_or, h.outcomes]⟩
  unfold runScenario
  cases hentry : sc.legs.lookup leg with
  | none => exact hpass fun key => by rw [runnerUnder, hentry, Option.bind_none]
  | some entry =>
    by_cases hskip : entry.status ≠ legStatusRun ∨ entry.runner = ""
    · simp only [hskip, if_true]
      refine hpass fun key => ?_
      rw [runnerUnder, hentry, Option.bind_some, if_neg]
      rintro ⟨hstatus, hne, -⟩
      exact hskip.elim (fun hs => hs hstatus) hne
    · simp only [hskip, if_false]
      obtain ⟨hstatus, hne⟩ := not_or.mp hskip
      have hm : Marked sc leg entry := ⟨hentry, not_not.mp hstatus⟩
      cases hrunner : acc.2.lookup entry.runner with
      | some outcome =>
        obtain rfl := h.prior _ _ hrunner
        exact h.record hm hne h.prior
      | none =>
        apply h.record hm hne
        intro runner outcome hlook
        by_cases heq : runner = entry.runner
        · rw [heq, AList.lookup_insert] at hlook
          grind
        · rw [AList.lookup_insert_ne heq] at hlook
          exact h.prior _ _ hlook

theorem ran_runLegRunners (exit : String → Bool) (leg : String) (scenarios : List ZecsScenario) :
    Ran exit leg scenarios (scenarios.foldl (runScenario exit leg) (∅, ∅)) := by
  induction scenarios using List.reverseRecOn with
  | nil => exact ⟨fun _ _ h => (nomatch h), fun _ => rfl⟩
  | append_singleton scenarios sc ih =>
    rw [List.foldl_append]
    exact ih.step sc

theorem readOutcome_outcomeOf (ok : Bool) : readOutcome (some (outcomeOf ok)) = some ok := by
  cases ok <;> decide

theorem cellOutcome_live (man : ZecsManifest) (exit : String → Bool) (sc : ZecsScenario) (entry : ZecsLeg) :
    cellOutcome (((Observations.live leg exit).observed man).lookup leg) sc entry =
      (lastRunner man.scenarios leg (observationKey sc entry)).map exit := by
  rw [Observations.observed, AList.lookup_insert, cellOutcome, Option.bind_some, runLegRunners,
    (ran_runLegRunners exit leg man.scenarios).outcomes]
  cases lastRunner man.scenarios leg (observationKey sc entry) with
  | none => rfl
  | some runner => exact readOutcome_outcomeOf _

theorem exists_of_lastRunner {scenarios : List ZecsScenario} {key runner : String}
    (h : lastRunner scenarios leg key = some runner) :
    ∃ sc ∈ scenarios, ∃ entry, Marked sc leg entry ∧ entry.runner ≠ "" ∧ observationKey sc entry = key ∧
      entry.runner = runner := by
  obtain ⟨sc, hsc, hrunner⟩ := List.mem_filterMap.mp (List.mem_of_getLast? h)
  obtain ⟨entry, hentry, hif⟩ := Option.bind_eq_some_iff.mp hrunner
  split_ifs at hif with hcond
  exact ⟨sc, hsc, entry, ⟨hentry, hcond.1⟩, hcond.2.1, hcond.2.2, Option.some.inj hif⟩

theorem executed_eq (obs : Observations) (man : ZecsManifest) (engine : String) :
    ((obs.observed man).lookup engine).isSome = obs.executed engine := by
  cases obs with
  | recorded outcomes => rfl
  | live leg exit =>
    by_cases hleg : engine = leg
    · rw [Observations.observed, hleg, AList.lookup_insert, Observations.executed, decide_eq_true rfl]
      rfl
    · rw [Observations.observed, AList.lookup_insert_ne hleg, Observations.executed, decide_eq_false hleg]
      rfl

/-! ### The verdicts -/

theorem verdictOf_eq_fail_iff (legs : List LegMatrix) :
    verdictOf legs = .fail ↔ ∃ leg ∈ legs, leg.result = .fail := by
  have hany : (legs.any fun leg => leg.result = .fail) = true ↔ ∃ leg ∈ legs, leg.result = .fail := by simp
  rw [← hany]
  unfold verdictOf verdict
  grind

theorem pass_of_verdictOf {legs : List LegMatrix} (h : verdictOf legs = .pass) :
    ∀ leg ∈ legs, leg.result = .pass := by
  have hall : ¬ (legs.any fun leg => leg.result ≠ .pass) = true := by
    intro hany
    rw [verdictOf, hany] at h
    unfold verdict at h
    split at h <;> simp at h
  simpa using hall

/-- What the cells have to tell: failures of the scenarios are failures of cells, and where all cells pass all
    scenarios did. -/
theorem evidenced_of_cells {obs : Observations}
    (hfail : obs.executed engine = true →
      ((∃ sc ∈ man.scenarios, ∃ entry, Marked sc engine entry ∧
          cellOutcome ((obs.observed man).lookup engine) sc entry = some false) ↔
        ∃ sc ∈ man.scenarios, ∃ entry, Marked sc engine entry ∧ obs.seen engine sc entry = some false))
    (hpass : (buildLegMatrix man (obs.observed man) engine).result = .pass →
      ∀ sc ∈ man.scenarios, ∀ entry, Marked sc engine entry → obs.seen engine sc entry = some true)
    (hplanned : obs.executed engine = true →
      ∃ sc ∈ man.scenarios, (sc.legs.lookup engine).map ZecsLeg.status ≠ some legStatusNotRun) :
    Evidenced man obs (buildLegMatrix man (obs.observed man) engine) := by
  refine ⟨fun hresult => ?_, ?_⟩
  · obtain ⟨hexec, hall⟩ := result_eq_pass_iff.mp hresult
    obtain ⟨sc, hsc, hne⟩ := hplanned (executed_eq obs man engine ▸ hexec)
    obtain ⟨entry, hm, -⟩ := (hall sc hsc).resolve_right hne
    exact ⟨hexec, ⟨sc, hsc, entry, hm, hpass hresult sc hsc entry hm⟩, hpass hresult⟩
  · rw [result_eq_fail_iff]
    exact and_congr_right fun hexec => hfail (executed_eq obs man engine ▸ hexec)

theorem planned_of_evidenced {obs : Observations}
    (hev : Evidenced man obs (buildLegMatrix man (obs.observed man) engine)) (hexec : obs.executed engine = true) :
    ∃ sc ∈ man.scenarios, (sc.legs.lookup engine).map ZecsLeg.status ≠ some legStatusNotRun := by
  by_contra hnone
  have hall : ∀ sc ∈ man.scenarios, (sc.legs.lookup engine).map ZecsLeg.status = some legStatusNotRun := by
    simpa using hnone
  have hpass : (buildLegMatrix man (obs.observed man) engine).result = .pass :=
    result_eq_pass_iff.mpr ⟨(executed_eq obs man engine).trans hexec, fun sc hsc => .inr (hall sc hsc)⟩
  obtain ⟨-, ⟨sc, hsc, entry, hm, -⟩, -⟩ := hev.pass hpass
  exact hm.status_ne (hall sc hsc)

theorem seen_of_pass_recorded {outcomes : GoMap (GoMap String)}
    (h : (buildLegMatrix man outcomes engine).result = .pass) :
    ∀ sc ∈ man.scenarios, ∀ entry, Marked sc engine entry →
      (Observations.recorded outcomes).seen engine sc entry = some true := by
  intro sc hsc entry hm
  obtain ⟨-, hall⟩ := result_eq_pass_iff.mp h
  exact (exists_marked_iff hm).mp ((hall sc hsc).resolve_right hm.status_ne)

theorem executed_live (leg : String) (exit : String → Bool) :
    (Observations.live leg exit).executed leg = true :=
  decide_eq_true rfl

theorem live_pass_iff :
    (buildLegMatrix man ((Observations.live leg exit).observed man) leg).result = .pass ↔
    ∀ sc ∈ man.scenarios, Passes man leg exit sc := by
  rw [result_eq_pass_iff, executed_eq, and_iff_right (executed_live leg exit)]
  refine forall₂_congr fun sc _ => or_congr_left (exists_congr fun entry => ?_)
  rw [cellOutcome_live]
  simp

theorem live_failed_iff :
    (∃ sc ∈ man.scenarios, ∃ entry, Marked sc leg entry ∧
        cellOutcome (((Observations.live leg exit).observed man).lookup leg) sc entry = some false) ↔
      ∃ key runner, lastRunner man.scenarios leg key = some runner ∧ exit runner = false := by
  simp only [cellOutcome_live, Option.map_eq_some_iff]
  constructor
  · rintro ⟨sc, -, entry, -, runner, hlast, hexit⟩
    exact ⟨_, runner, hlast, hexit⟩
  · rintro ⟨key, runner, hlast, hexit⟩
    obtain ⟨sc, hsc, entry, hm, -, rfl, -⟩ := exists_of_lastRunner hlast
    exact ⟨sc, hsc, entry, hm, runner, hlast, hexit⟩

theorem live_seen_iff {b : Bool} :
    (Observations.live leg exit).seen leg sc entry = some b ↔ entry.runner ≠ "" ∧ exit entry.runner = b := by
  simp [Observations.seen]

theorem evidenced_live_iff :
    Evidenced man (.live leg exit) (buildLegMatrix man ((Observations.live leg exit).observed man) leg) ↔
      (∃ sc ∈ man.scenarios, (sc.legs.lookup leg).map ZecsLeg.status ≠ some legStatusNotRun) ∧
        (Observations.live leg exit).Kept man := by
  have hexec := executed_live leg exit
  constructor
  · intro hev
    refine ⟨planned_of_evidenced hev hexec, fun sc hsc entry hm => ⟨fun hne hexit => ?_, fun hrunner => ?_⟩⟩
    · have hfail := hev.fail.mpr ⟨(executed_eq _ man leg).trans hexec, sc, hsc, entry, hm,
        live_seen_iff.mpr ⟨hne, hexit⟩⟩
      exact live_failed_iff.mp (result_eq_fail_iff.mp hfail).2
    · by_contra hall
      obtain ⟨-, -, hseen⟩ := hev.pass (live_pass_iff.mpr (by simpa using hall))
      exact (live_seen_iff.mp (hseen sc hsc entry hm)).1 hrunner
  · rintro ⟨hplanned, hkept⟩
    refine evidenced_of_cells (fun _ => ?_) (fun hpass sc hsc entry hm => ?_) fun _ => hplanned
    · rw [live_failed_iff]
      constructor
      · rintro ⟨key, runner, hlast, hexit⟩
        obtain ⟨sc, hsc, entry, hm, hne, -, rfl⟩ := exists_of_lastRunner hlast
        exact ⟨sc, hsc, entry, hm, live_seen_iff.mpr ⟨hne, hexit⟩⟩
      · rintro ⟨sc, hsc, entry, hm, hseen⟩
        obtain ⟨hne, hexit⟩ := live_seen_iff.mp hseen
        exact (hkept sc hsc entry hm).1 hne hexit
    · -- a scenario without a runner or with a failed one would show in some cell
      have hne : entry.runner ≠ "" := by
        intro hrunner
        obtain ⟨sc', hsc', hnot⟩ := (hkept sc hsc entry hm).2 hrunner
        exact hnot (live_pass_iff.mp hpass sc' hsc')
      refine live_seen_iff.mpr ⟨hne, ?_⟩
      by_contra hexit
      have hfailed := live_failed_iff.mpr ((hkept sc hsc entry hm).1 hne (Bool.eq_false_iff.mpr hexit))
      have hfail := result_eq_fail_iff.mpr ⟨(executed_eq _ man leg).trans hexec, hfailed⟩
      rw [hpass] at hfail
      cases hfail

theorem evidenced_iff (man : ZecsManifest) (obs : Observations) (engine : String) :
    Evidenced man obs (buildLegMatrix man (obs.observed man) engine) ↔
      (obs.executed engine = true →
        (∃ sc ∈ man.scenarios, (sc.legs.lookup engine).map ZecsLeg.status ≠ some legStatusNotRun) ∧
          obs.Kept man) := by
  by_cases hexec : obs.executed engine = true
  · rw [imp_iff_right hexec]
    cases obs with
    | recorded outcomes =>
      refine ⟨fun hev => ⟨planned_of_evidenced hev hexec, trivial⟩, fun h => ?_⟩
      exact evidenced_of_cells (fun _ => Iff.rfl) seen_of_pass_recorded fun _ => h.1
    | live leg exit =>
      obtain rfl : engine = leg := of_decide_eq_true hexec
      exact evidenced_live_iff
  · have hnone : ((obs.observed man).lookup engine).isSome = false := by
      rw [executed_eq]
      exact Bool.eq_false_iff.mpr hexec
    refine iff_of_true (evidenced_of_cells (fun h => absurd h hexec) (fun h => ?_) fun h => absurd h hexec)
      fun h => absurd h hexec
    rw [result_eq_pass_iff, hnone] at h
    exact absurd h.1 (by simp)

/-- **When a PASS is evidence.**  For every manifest, engines and observations: every row is PASS on evidence only
    and FAIL exactly if a scenario of it was observed to fail, if and only if something is planned for every row
    that executed and runners that share a key lose no evidence.  The document's result follows from the rows. -/
theorem matrix_evidence_iff (man : ZecsManifest) (engines : List String) (obs : Observations) :
    ((∀ leg ∈ (buildMatrixDoc man engines (obs.observed man)).legs, Evidenced man obs leg) ↔
      ∀ engine ∈ engines, obs.executed engine = true →
        (∃ sc ∈ man.scenarios, (sc.legs.lookup engine).map ZecsLeg.status ≠ some legStatusNotRun) ∧
          obs.Kept man) ∧
    ((buildMatrixDoc man engines (obs.observed man)).result = .pass →
      ∀ leg ∈ (buildMatrixDoc man engines (obs.observed man)).legs, leg.result = .pass) ∧
    ((buildMatrixDoc man engines (obs.observed man)).result = .fail ↔
      ∃ leg ∈ (buildMatrixDoc man engines (obs.observed man)).legs, leg.result = .fail) := by
  refine ⟨?_, pass_of_verdictOf, verdictOf_eq_fail_iff _⟩
  show (∀ leg ∈ engines.map (buildLegMatrix man (obs.observed man)), Evidenced man obs leg) ↔ _
  simp only [List.forall_mem_map, evidenced_iff]

def unplanned : ZecsManifest where
  scenarios := [{ id := "s1", legs := AList.insert "argo" { status := "not_run" } ∅ }]

theorem empty_leg_passes :
    ∃ leg ∈ (buildMatrixDoc unplanned ["argo"]
        ((Observations.recorded (AList.insert "argo" ∅ ∅)).observed unplanned)).legs,
      leg.result = .pass ∧ ¬ Evidenced unplanned (.recorded (AList.insert "argo" ∅ ∅)) leg := by
  refine ⟨_, List.mem_cons_self, by decide, fun hev => ?_⟩
  obtain ⟨-, ⟨sc, hsc, entry, hm, -⟩, -⟩ := hev.pass (by decide)
  obtain rfl := List.mem_singleton.mp hsc
  exact hm.status_ne rfl

def sharedStep : ZecsManifest where
  scenarios :=
    [{ id := "s1", legs := AList.insert "argo" { status := "run", runner := "a.sh", ciStep := "e2e" } ∅ },
      { id := "s2", legs := AList.insert "argo" { status := "run", runner := "b.sh", ciStep := "e2e" } ∅ }]

theorem failed_runner_passes :
    ∃ leg ∈ (buildMatrixDoc sharedStep ["argo"]
        ((Observations.live "argo" (· == "b.sh")).observed sharedStep)).legs,
      leg.result = .pass ∧ ¬ Evidenced sharedStep (.live "argo" (· == "b.sh")) leg := by
  refine ⟨_, List.mem_cons_self, by decide, fun hev => ?_⟩
  obtain ⟨-, -, hall⟩ := hev.pass (by decide)
  have hseen := hall _ List.mem_cons_self _ ⟨rfl, rfl⟩
  exact absurd hseen (by decide)

end Zynax.Conformance
