import Zynax.Compiler.Validation
import Zynax.Gateway.Apply

namespace Zynax.Gateway

open Golang Compiler

/-!
# The engine allow-list on the REST path

The compiler checks the engine that the manifest's annotation asks for; the gateway submits with
the engine that the request's `engine` parameter asks for.
-/

variable {α : Type}

def restRequest (body : List UInt8) (query : String → String) : ApplyRequest where
  manifestYAML := body
  nameSpace := query "namespace"
  dryRun := decide (query "dry_run" = "true")
  engineHint := query "engine"

def Permitted (gate : PolicyGate) (sub : Submission) : Prop :=
  sub.engineHint ≠ "" → ∀ policy, gate.routingPolicies.lookup sub.nameSpace = some policy →
    policy.allowedEngines ≠ [] → sub.engineHint ∈ policy.allowedEngines

def annotatedEngine (m : Manifest) : String := m.annotations.getD annotationEngineHint ""

/-- The engine has an active run under the id, or does not say whether it has one. -/
def Occupied (existing : Except EngineError WorkflowRunSummary) : Prop :=
  (∃ run, existing = .ok run ∧ run.status = .running) ∨ ∃ err, existing = .error err ∧ err ≠ .notFound

/-- Nothing is submitted for the request, whatever the engine hint: the manifest does not compile, it is
    a dry run, or the id of the manifest is occupied. -/
def Unsubmitted (y : YamlCodec α) (yaml : Yaml) (env : CallEnv) (engine : EnginePort)
    (body : List UInt8) (query : String → String) : Prop :=
  (∀ c, compileWorkflowClient ⟨yaml, none⟩ env body (query "namespace") = .ok c → c.errors ≠ []) ∨
    query "dry_run" = "true" ∨ Occupied (engine.getWorkflowStatus (y.manifestWorkflowID body))

/-! ### What a submitted manifest has passed -/

variable {yaml : Yaml} {data : List UInt8} {ns : String} {m : Manifest}

theorem unsubmitted_iff {y : YamlCodec α} {env : CallEnv} {engine : EnginePort}
    {unix : Int} {body : List UInt8} {query : String → String} :
    Unsubmitted y yaml env engine body query ↔
      (applyWorkflow y ⟨yaml, none⟩ env engine unix (restRequest body query)).1 = none := by
  have hplan : ∀ id existing, (∀ new, planSubmit id unix existing ≠ .start new) ↔ Occupied existing := by
    intro id existing
    unfold planSubmit Occupied
    rcases existing with err | run
    · cases err <;> simp
    · cases hst : run.status <;> simp [hst]
  unfold Unsubmitted applyWorkflow
  rw [show (restRequest body query).manifestYAML = body from rfl,
    show (restRequest body query).nameSpace = query "namespace" from rfl]
  cases compileWorkflowClient ⟨yaml, none⟩ env body (query "namespace") with
  | error err => simp [applyCompiled]
  | ok c =>
    by_cases herr : c.errors = []
    · by_cases hdry : query "dry_run" = "true"
      · simp [applyCompiled, herr, restRequest, hdry]
      · rw [← hplan (y.manifestWorkflowID body)]
        simp only [applyCompiled, herr, restRequest, hdry, submit]
        cases planSubmit (y.manifestWorkflowID body) unix _ <;> simp [herr]
    · simp [applyCompiled, herr]

theorem parseManifest_ne_error_nil :
    parseManifest yaml data ≠ .error [] := by
  unfold parseManifest
  split
  · simp
  · simp
  · split
    · simp
    · split
      · exact checked_ne_error_nil
      · grind

theorem compileWorkflow_gate {pg : PolicyGate} {env : CallEnv} (hparse : parseManifest yaml data = .ok m)
    (hpass : pg.checkRoutingPolicy m.nameSpace m.annotations = none) :
    (Server.mk yaml (some pg)).compileWorkflow env ⟨data, ns⟩ =
      (Server.mk yaml none).compileWorkflow env ⟨data, ns⟩ := by
  simp only [Server.compileWorkflow, hparse, withRequestNamespace_of_parse hparse,
    Option.bind_some, hpass, Option.bind_none]

theorem applyWorkflow_gate {y : YamlCodec α} {pg : PolicyGate} {env : CallEnv} {engine : EnginePort}
    {unix : Int} (req : ApplyRequest) (hparse : parseManifest yaml req.manifestYAML = .ok m)
    (hpass : pg.checkRoutingPolicy m.nameSpace m.annotations = none) :
    applyWorkflow y ⟨yaml, some pg⟩ env engine unix req =
      applyWorkflow y ⟨yaml, none⟩ env engine unix req := by
  unfold applyWorkflow compileWorkflowClient
  rw [compileWorkflow_gate hparse hpass]

theorem submission_passed {s : Server} {env : CallEnv} {c : CompileResult}
    (h : compileWorkflowClient s env data ns = .ok c) (herr : c.errors = []) :
    ∃ m, parseManifest s.yaml data = .ok m ∧ c.nameSpace = m.nameSpace ∧
      s.policyGate.bind (fun pg => pg.checkRoutingPolicy m.nameSpace m.annotations) = none := by
  simp only [compileWorkflowClient] at h
  split at h
  swap
  · grind
  rename_i resp hresp
  obtain rfl := Except.ok.inj h
  have hnone : resp.errors = [] := by simpa [compileResultFromProto] using herr
  simp only [Server.compileWorkflow] at hresp
  split at hresp
  · exact absurd hresp (by simp)
  split at hresp
  · rename_i errs herrs
    obtain rfl := Except.ok.inj hresp
    -- the parser never fails without saying why
    have hnil : errs = [] := by simpa [toProtoErrors] using hnone
    exact absurd (hnil ▸ herrs) parseManifest_ne_error_nil
  rename_i m hparse
  rw [withRequestNamespace_of_parse hparse] at hresp
  split at hresp
  · exact absurd hresp (by simp)
  rename_i hgate
  split at hresp
  · rename_i errs herrs
    obtain rfl := Except.ok.inj hresp
    have hnil : errs = [] := by simpa [toProtoErrors] using hnone
    exact absurd (hnil ▸ herrs) checked_ne_error_nil
  rename_i g hbuild
  split at hresp
  · rename_i hvalid
    obtain rfl := Except.ok.inj hresp
    exact absurd (by simpa [toProtoErrors] using hnone) hvalid
  split at hresp
  · exact absurd hresp (by simp)
  rename_i ir hir
  obtain rfl := Except.ok.inj hresp
  refine ⟨m, hparse, ?_, hgate⟩
  obtain ⟨-, rfl⟩ := build_eq_ok.mp hbuild
  exact (toIR_eq_ok hir).2.1

theorem checkRoutingPolicy_eq_none {pg : PolicyGate} :
    pg.checkRoutingPolicy m.nameSpace m.annotations = none ↔
      ∀ policy, pg.routingPolicies.lookup m.nameSpace = some policy →
        policy.allowedEngines = [] ∨ annotatedEngine m = "" ∨
          annotatedEngine m ∈ policy.allowedEngines := by
  unfold PolicyGate.checkRoutingPolicy
  cases pg.routingPolicies.lookup m.nameSpace with
  | none => simp
  | some policy =>
    simp only [annotatedEngine, Option.some.injEq, forall_eq', ite_eq_left_iff, reduceCtorEq,
      imp_false, not_not]

/-! ### Which submissions are permitted -/

theorem lookup_newPolicyGate_one {e : String} (hns : ns ≠ "") :
    (newPolicyGate [⟨ns, [e]⟩]).routingPolicies.lookup ns = some ⟨ns, [e]⟩ := by
  have hpairs : (newPolicyGate [⟨ns, [e]⟩]).routingPolicies = GoMap.ofPairs [(ns, ⟨ns, [e]⟩)] := by
    simp [newPolicyGate, hns]
  rw [hpairs, GoMap.lookup_ofPairs (by simp)]
  simp

theorem exists_engine_ne {annotated hint : String} (h : annotated ≠ hint) :
    ∃ e, e ≠ hint ∧ (annotated = "" ∨ annotated = e) := by
  by_cases hempty : annotated = ""
  · refine ⟨hint ++ "x", ?_, Or.inl hempty⟩
    simp
  · exact ⟨annotated, h, Or.inr rfl⟩

theorem nameSpace_ne_empty (h : parseManifest yaml data = .ok m) : m.nameSpace ≠ "" := by
  intro hempty
  have hfill := withRequestNamespace_of_parse h "default"
  rw [withRequestNamespace, if_pos ⟨hempty, by decide⟩] at hfill
  grind

/-- **Which requests are held to the allow-list.**  For every manifest, query, engine and state of
    the compiler's surroundings: whatever the routing policies are, the run that `ApplyWorkflow`
    submits is permitted by the allow-list of its namespace, if and only if it submits none anyway,
    or the request's engine hint is empty, or it is the engine the manifest's annotation names. -/
theorem permitted_iff (y : YamlCodec α) (yaml : Yaml) (env : CallEnv) (engine : EnginePort)
    (unix : Int) (body : List UInt8) (query : String → String) :
    (∀ policies sub, (applyWorkflow y ⟨yaml, some (newPolicyGate policies)⟩ env engine unix
        (restRequest body query)).1 = some sub → Permitted (newPolicyGate policies) sub) ↔
      Unsubmitted y yaml env engine body query ∨ query "engine" = "" ∨
        ∃ m, parseManifest yaml body = .ok m ∧ annotatedEngine m = query "engine" := by
  rw [@unsubmitted_iff α yaml y env engine unix]
  constructor
  · intro hall
    by_contra hnot
    rw [not_or, not_or, not_exists] at hnot
    obtain ⟨hsub, hhint, hann⟩ := hnot
    obtain ⟨sub, hsub⟩ := Option.ne_none_iff_exists'.mp hsub
    obtain ⟨c, hc, herr, -, hsubhint, hsubns⟩ := submission_of_applyCompiled hsub
    obtain ⟨m, hparse, hns, -⟩ := submission_passed hc herr
    -- a policy that lets the annotation pass and forbids the hint of the request
    obtain ⟨e, hne, hpass⟩ := exists_engine_ne (fun h => hann m ⟨hparse, h⟩)
    have hlookup := lookup_newPolicyGate_one (e := e) (nameSpace_ne_empty hparse)
    have hgate : (newPolicyGate [⟨m.nameSpace, [e]⟩]).checkRoutingPolicy m.nameSpace m.annotations =
        none := by
      rw [checkRoutingPolicy_eq_none]
      grind
    have hperm := hall [⟨m.nameSpace, [e]⟩] sub (by rw [applyWorkflow_gate _ hparse hgate, hsub])
    have hmem := hperm (by rw [hsubhint]; exact hhint) ⟨m.nameSpace, [e]⟩
      (by rw [hsubns, hns]; exact hlookup) (by simp)
    rw [hsubhint, List.mem_singleton] at hmem
    exact hne hmem.symm
  · rintro hcond policies sub hsub hhint policy hpolicy hlist
    obtain ⟨c, hc, herr, -, hsubhint, hsubns⟩ := submission_of_applyCompiled hsub
    obtain ⟨m, hparse, hns, hgate⟩ := submission_passed hc herr
    rw [hsubns, hns] at hpolicy
    rcases hcond with hnone | hempty | ⟨m', hparse', hann⟩
    · rw [applyWorkflow_gate _ hparse hgate, hnone] at hsub
      exact absurd hsub (by simp)
    · exact absurd (hsubhint.trans hempty) hhint
    · obtain rfl : m = m' := Except.ok.inj (hparse.symm.trans hparse')
      have hann' : annotatedEngine m = sub.engineHint := hann.trans hsubhint.symm
      rcases checkRoutingPolicy_eq_none.mp hgate policy hpolicy with h | h | h
      · exact absurd h hlist
      · grind
      · exact hann' ▸ h

/-! ### A team restricted to one engine -/

def teamYaml : YamlManifest where
  kind := "Workflow"
  apiVersion := "zynax.io/v1"
  metadata := { name := "report", nameSpace := "team-a" }
  spec :=
    { initialState := "write"
      states := GoMap.ofPairs
        [("write", { actions := [{ capability := "write" }]
                     on := [{ event := "write.completed", goto := "done" }] }),
          ("done", { type := "terminal" })] }

def teamText : List UInt8 := manifestText "report\n  namespace: team-a" "write"
  ("    write: \x7bactions: [\x7bcapability: write\x7d], on: [\x7bevent: write.completed, goto: done\x7d]\x7d\n" ++
    "    done: \x7btype: terminal\x7d\n")

def freshEngine : EnginePort where
  getWorkflowStatus := fun _ => .error .notFound
  submitWorkflow := fun sub => .ok sub.workflowID

def teamPolicies : List RoutingPolicyConfig := [⟨"team-a", ["temporal"]⟩]

def argoQuery (key : String) : String := if key = "engine" then "argo" else ""

/-- **The allow-list is passed by with a query parameter.**  The gate has nothing to check in the
    manifest, and the run is submitted to an engine that is not on the list. -/
theorem argo_submitted_not_permitted :
    ∃ sub, (applyWorkflow canonicalCodec ⟨fixedYaml teamYaml, some (newPolicyGate teamPolicies)⟩
        ⟨none, generateWorkflowID [1], 0, 0⟩ freshEngine 0 (restRequest teamText argoQuery)).1 = some sub ∧
      sub.engineHint = "argo" ∧ sub.nameSpace = "team-a" ∧
      (newPolicyGate teamPolicies).routingPolicies.lookup "team-a" = some ⟨"team-a", ["temporal"]⟩ ∧
      ¬ Permitted (newPolicyGate teamPolicies) sub := by
  refine ⟨_, rfl, by decide, rfl, rfl, ?_⟩
  intro h
  have hmem := h (by decide) ⟨"team-a", ["temporal"]⟩ rfl (by simp)
  exact absurd hmem (by decide)

end Zynax.Gateway
