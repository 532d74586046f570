import Zynax.Compiler.Validation

namespace Zynax.Compiler

open Golang

/-!
# The namespace of a workflow

A manifest may name its namespace, and so may the request that carries it.  The parser puts
`default` where the manifest names none, before the server looks at the request.
-/

def requestedNamespace (raw : YamlManifest) (req : CompileWorkflowRequest) : String :=
  if raw.metadata.nameSpace ≠ "" then raw.metadata.nameSpace
  else if req.nameSpace ≠ "" then req.nameSpace
  else defaultNamespace

def Server.manifestOf (s : Server) (req : CompileWorkflowRequest) :
    Except (List ParseError) Manifest :=
  (parseManifest s.yaml req.manifestYaml).map (fun m => withRequestNamespace m req.nameSpace)

def Server.compileManifest (s : Server) (env : CallEnv) (manifest : Manifest) :
    Except GrpcError CompileWorkflowResponse :=
  match s.policyGate.bind
      (fun pg => pg.checkRoutingPolicy manifest.nameSpace manifest.annotations) with
  | some violation =>
    .error ⟨.permissionDenied, ⟨"routing policy violation: " ++ violation.format, violation.args⟩⟩
  | none =>
    match build manifest with
    | .error errs => .ok { errors := toProtoErrors errs }
    | .ok g =>
      let validationErrs := runAll g
      if validationErrs ≠ [] then .ok { errors := toProtoErrors validationErrs }
      else
        match toIR g env.workflowID manifest.apiVersion (some env.now) env.now with
        | .error err => .error ⟨.internal, ⟨"IR generation: " ++ err.format, err.args⟩⟩
        | .ok ir =>
          .ok
            { workflowIr := some ir
              compilationDurationMs := if env.elapsedMs = 0 then minDurationMs else env.elapsedMs }

theorem Server.manifestOf_eq_ok {s : Server} {req : CompileWorkflowRequest} {m : Manifest}
    (h : s.manifestOf req = .ok m) :
    ∃ parsed, parseManifest s.yaml req.manifestYaml = .ok parsed ∧
      m = withRequestNamespace parsed req.nameSpace := by
  rw [manifestOf] at h
  cases hparse : parseManifest s.yaml req.manifestYaml with
  | error errs =>
    rw [hparse] at h
    exact absurd h (by simp [Except.map])
  | ok parsed =>
    rw [hparse] at h
    exact ⟨parsed, rfl, (Except.ok.inj h).symm⟩

theorem Server.compileWorkflow_of_manifestOf {s : Server} {env : CallEnv}
    {req : CompileWorkflowRequest} {m : Manifest} (henv : requestError env req.manifestYaml = none)
    (hm : s.manifestOf req = .ok m) : s.compileWorkflow env req = s.compileManifest env m := by
  obtain ⟨parsed, hparse, rfl⟩ := manifestOf_eq_ok hm
  simp only [compileWorkflow, henv, hparse]
  rfl

structure WorksIn (s : Server) (env : CallEnv) (req : CompileWorkflowRequest) (m : Manifest)
    (ns : String) : Prop where
  gate : m.nameSpace = ns
  validators : ∀ g, build m = .ok g → g.nameSpace = ns
  ir : ∀ ir, s.Accepts env req ir → ir.nameSpace = ns

section

variable {s : Server} {env : CallEnv} {req : CompileWorkflowRequest} {m : Manifest}

theorem Server.compileManifest_nameSpace {ir : WorkflowIR} {resp : CompileWorkflowResponse}
    (h : s.compileManifest env m = .ok resp) (hir : resp.workflowIr = some ir) :
    ir.nameSpace = m.nameSpace := by
  rw [compileManifest] at h
  split at h
  · exact absurd h (by simp)
  split at h
  · grind
  rename_i g hg
  dsimp only at h
  split at h
  · grind
  split at h
  · exact absurd h (by simp)
  rename_i ir' hir'
  obtain rfl := Except.ok.inj h
  obtain rfl := Option.some.inj hir
  rw [(toIR_eq_ok hir').2.1, (build_eq_ok.mp hg).2]

theorem worksIn_nameSpace (henv : requestError env req.manifestYaml = none)
    (hm : s.manifestOf req = .ok m) : WorksIn s env req m m.nameSpace where
  gate := rfl
  validators := by
    intro g hg
    rw [(build_eq_ok.mp hg).2]
  ir := by
    intro ir hacc
    rw [Server.Accepts, Server.compiledIR, Server.compileWorkflow_of_manifestOf henv hm] at hacc
    split at hacc
    · exact absurd hacc (by simp)
    · rename_i resp hresp
      exact Server.compileManifest_nameSpace hresp hacc

theorem manifestOf_nameSpace {root : YamlNode} {raw : YamlManifest}
    (hroot : s.yaml.unmarshal req.manifestYaml = .ok (some root)) (hraw : s.yaml.decode root = .ok raw)
    (hm : s.manifestOf req = .ok m) :
    m.nameSpace =
      if raw.metadata.nameSpace = "" then defaultNamespace else raw.metadata.nameSpace := by
  obtain ⟨parsed, hparse, rfl⟩ := Server.manifestOf_eq_ok hm
  obtain ⟨root', raw', hroot', hraw', -, hconv⟩ := parseManifest_eq_ok hparse
  obtain rfl : root = root' := Option.some.inj (Except.ok.inj (hroot.symm.trans hroot'))
  obtain rfl : raw = raw' := Except.ok.inj (hraw.symm.trans hraw')
  rw [withRequestNamespace_of_parse hparse]
  exact (convertManifest_eq_ok hconv).2.2.2.1

end

/-- **When the namespace of the request is honoured.**  Gate, validators and compiled workflow work
    with the namespace that was asked for exactly when the manifest names one itself, or the request
    names none or the default. -/
theorem worksIn_requested_iff {s : Server} {env : CallEnv} {req : CompileWorkflowRequest}
    {root : YamlNode} {raw : YamlManifest} {m : Manifest}
    (henv : requestError env req.manifestYaml = none)
    (hroot : s.yaml.unmarshal req.manifestYaml = .ok (some root)) (hraw : s.yaml.decode root = .ok raw)
    (hm : s.manifestOf req = .ok m) :
    WorksIn s env req m (requestedNamespace raw req) ↔
      raw.metadata.nameSpace ≠ "" ∨ req.nameSpace = "" ∨ req.nameSpace = defaultNamespace := by
  have hns := manifestOf_nameSpace hroot hraw hm
  have hiff : WorksIn s env req m (requestedNamespace raw req) ↔
      m.nameSpace = requestedNamespace raw req := by
    constructor
    · exact WorksIn.gate
    · intro heq
      rw [← heq]
      exact worksIn_nameSpace henv hm
  rw [hiff, hns, requestedNamespace]
  grind

/-! ### A workflow of a team -/

def teamYaml (cap : String) : YamlManifest where
  kind := "Workflow"
  apiVersion := "zynax.io/v1"
  metadata := { name := "rating", annotations := GoMap.ofPairs [(annotationEngineHint, "argo")] }
  spec :=
    { initialState := "rate"
      states := GoMap.ofPairs
        [("rate",
            { actions := [{ capability := cap }]
              on := [{ event := "rate.completed", goto := "done" }] }),
          ("done", { type := "terminal" })] }

def teamServer (cap : String) : Server where
  yaml := fixedYaml (teamYaml cap)
  policyGate := some (newPolicyGate [⟨"team-a", ["temporal"]⟩])

def teamEnv : CallEnv := ⟨none, "wf-1", 0, 0⟩

def ratingStates (cap : String) : String :=
  "    rate: \x7bactions: [\x7bcapability: " ++ cap ++
    "\x7d], on: [\x7bevent: rate.completed, goto: done\x7d]\x7d\n    done: \x7btype: terminal\x7d\n"

def teamText (cap : String) : List UInt8 :=
  manifestText "rating\n  annotations: \x7bzynax.io/engine-hint: argo\x7d" "rate" (ratingStates cap)

def ownedYaml : YamlManifest :=
  { teamYaml "team-b/rate" with metadata := { name := "rating", nameSpace := "team-b" } }

def ownedServer : Server := { teamServer "team-b/rate" with yaml := fixedYaml ownedYaml }

def ownedRequest : CompileWorkflowRequest where
  manifestYaml := manifestText "rating\n  namespace: team-b" "rate" (ratingStates "team-b/rate")
  nameSpace := "team-a"

theorem worksIn_requested_iff_owned :
    requestedNamespace ownedYaml ownedRequest = "team-b" ∧
      ∃ m, ownedServer.manifestOf ownedRequest = .ok m ∧
        WorksIn ownedServer teamEnv ownedRequest m (requestedNamespace ownedYaml ownedRequest) := by
  have henv : requestError teamEnv ownedRequest.manifestYaml = none := by decide +kernel
  refine ⟨by decide, _, rfl, ?_⟩
  exact (worksIn_requested_iff henv
    (show ownedServer.yaml.unmarshal _ = .ok (some (.mk .document "" 1 [])) from rfl) rfl rfl).mpr
      (Or.inl (by decide))

/-- **The request's namespace is ignored.**  For the namespace `team-a`, the workflow is compiled into
    `default`, with an engine that the team may not use; and a capability of the team is refused. -/
theorem team_namespace_ignored :
    requestedNamespace (teamYaml "rate") ⟨teamText "rate", "team-a"⟩ = "team-a" ∧
      ((teamServer "rate").compiledIR teamEnv ⟨teamText "rate", "team-a"⟩).map WorkflowIR.nameSpace =
        some "default" ∧
      ((newPolicyGate [⟨"team-a", ["temporal"]⟩]).checkRoutingPolicy "team-a"
        (teamYaml "rate").metadata.annotations).isSome = true ∧
      ∃ resp, (teamServer "team-a/rate").compileWorkflow teamEnv
          ⟨teamText "team-a/rate", "team-a"⟩ = .ok resp ∧
        resp.workflowIr = none ∧
        resp.errors.map (fun e => e.message.args) =
          [[.str "rate", .int 0, .str "team-a/rate", .str "team-a", .str "default"]] := by
  refine ⟨by decide, by decide +kernel, by decide +kernel, ?_⟩
  refine ⟨_, rfl, ?_, ?_⟩
  · decide +kernel
  · decide +kernel

end Zynax.Compiler
