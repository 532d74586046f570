import Zynax.Golang.Encoding
import Zynax.Compiler.Server

namespace Zynax.Compiler

open Golang

/-!
# Validation against compilation

`ValidateManifest` stops after the validators; `CompileWorkflow` goes on to generate the IR, which
writes the literal inputs of every action as JSON.
-/

def generateWorkflowID (randBytes : List UInt8) : String := "wf-" ++ hexEncodeToString randBytes

theorem generateWorkflowID_ne_empty (randBytes : List UInt8) : generateWorkflowID randBytes ≠ "" := by
  intro h
  have hlist := congrArg String.toList h
  rw [generateWorkflowID, String.toList_append] at hlist
  exact absurd hlist (by simp)

def Server.Validates (s : Server) (env : CallEnv) (data : List UInt8) : Prop :=
  ∃ resp, s.validateManifest env data = .ok resp ∧ resp.valid = true

def Server.Compiles (s : Server) (env : CallEnv) (req : CompileWorkflowRequest) : Prop :=
  ∃ resp, s.compileWorkflow env req = .ok resp ∧ resp.workflowIr.isSome = true ∧ resp.errors = []

def YamlManifest.InputsEncodable (raw : YamlManifest) : Prop :=
  ∀ id ys, raw.spec.states.lookup id = some ys → ∀ ya ∈ ys.actions, ∀ key v,
    ya.input.lookup key = some v → v.encodable = true

def Yaml.InputsEncodable (yaml : Yaml) (data : List UInt8) : Prop :=
  ∀ root raw, yaml.unmarshal data = .ok (some root) → yaml.decode root = .ok raw → raw.InputsEncodable

/-! ### The stages -/

variable {env : CallEnv} {data : List UInt8} {yaml : Yaml}

def Checked (yaml : Yaml) (data : List UInt8) (m : Manifest) (g : WorkflowGraph) : Prop :=
  parseManifest yaml data = .ok m ∧ build m = .ok g ∧ runAll g = []

theorem validates_iff {s : Server} :
    s.Validates env data ↔ requestError env data = none ∧ ∃ m g, Checked s.yaml data m g := by
  unfold Server.Validates Server.validateManifest Checked
  cases requestError env data with
  | some err => simp
  | none =>
    cases hm : parseManifest s.yaml data with
    | error errs => simp
    | ok m =>
      cases hg : build m with
      | error errs =>
        -- the builder never fails without saying why
        have hne : errs ≠ [] := by
          rintro rfl
          exact checked_ne_error_nil hg
        simp [hne, hg]
      | ok g => simp [hg, List.isEmpty_iff]

theorem withRequestNamespace_of_parse {m : Manifest}
    (h : parseManifest yaml data = .ok m) (requestNamespace : String) :
    withRequestNamespace m requestNamespace = m := by
  obtain ⟨root, raw, -, -, -, hconv⟩ := parseManifest_eq_ok h
  have hns := (convertManifest_eq_ok hconv).2.2.2.1
  have hne : m.nameSpace ≠ "" := by
    rw [hns]
    split
    · decide
    · assumption
  rw [withRequestNamespace, if_neg (fun h => hne h.1)]

theorem compiles_iff {req : CompileWorkflowRequest} :
    (Server.mk yaml none).Compiles env req ↔ requestError env req.manifestYaml = none ∧
      ∃ m g, Checked yaml req.manifestYaml m g ∧
        ∃ ir, toIR g env.workflowID m.apiVersion (some env.now) env.now = .ok ir := by
  unfold Server.Compiles Server.compileWorkflow Checked
  cases requestError env req.manifestYaml with
  | some err => simp
  | none =>
    cases hm : parseManifest yaml req.manifestYaml with
    | error errs => simp
    | ok m =>
      have hsame := withRequestNamespace_of_parse hm req.nameSpace
      cases hg : build m with
      | error errs => simp [hsame, hg]
      | ok g =>
        by_cases hrun : runAll g = []
        · cases hir : toIR g env.workflowID m.apiVersion (some env.now) env.now with
          | error err => simp [hsame, hg, hrun, hir]
          | ok ir => simp [hsame, hg, hrun, hir]
        · simp [hsame, hg, hrun]

/-! ### Agreement -/

theorem encodable_toAction_iff {ya : YamlAction} :
    ya.toAction.Encodable ↔ ∀ key v, ya.input.lookup key = some v → v.encodable = true := by
  unfold Action.Encodable YamlAction.toAction
  constructor
  · intro h key v hv
    by_cases href : isReference v = true
    · obtain ⟨ref, rfl, -⟩ := isReference_iff.mp href
      rfl
    · exact h key v (lookup_literals.mpr ⟨hv, by simpa using href⟩)
  · intro h key v hv
    exact h key v (lookup_literals.mp hv).1

theorem inputsEncodable_iff {m : Manifest} {g : WorkflowGraph}
    (h : Checked yaml data m g) : yaml.InputsEncodable data ↔
      ∀ id st, g.states.lookup id = some st → ∀ a ∈ st.actions, a.Encodable := by
  obtain ⟨hparse, hbuild, -⟩ := h
  obtain ⟨root, raw, hroot, hraw, -, hconv⟩ := parseManifest_eq_ok hparse
  obtain ⟨-, -, -, -, hforth, hback⟩ := convertManifest_eq_ok hconv
  obtain ⟨-, rfl⟩ := build_eq_ok.mp hbuild
  have hdoc : yaml.InputsEncodable data ↔ raw.InputsEncodable := by
    constructor
    · intro h
      exact h root raw hroot hraw
    · intro h root' raw' hroot' hraw'
      grind
  rw [hdoc]
  constructor
  · intro h id st hst a ha
    obtain ⟨ys, hys, hc⟩ := hback id st hst
    rw [(convertState_eq_ok hc).2.2.1] at ha
    obtain ⟨ya, hya, rfl⟩ := List.mem_map.mp ha
    exact encodable_toAction_iff.mpr (h id ys hys ya hya)
  · intro h id ys hys ya hya
    obtain ⟨st, hst, hc⟩ := hforth id ys hys
    apply encodable_toAction_iff.mp
    apply h id st hst
    rw [(convertState_eq_ok hc).2.2.1]
    grind

/-- **What compiles is what validates and can be written**, for a compiler without a policy gate
    that draws its workflow ids. -/
theorem compiles_iff_validates {ns : String}
    (hid : env.workflowID ≠ "") :
    (Server.mk yaml none).Compiles env ⟨data, ns⟩ ↔
      (Server.mk yaml none).Validates env data ∧ yaml.InputsEncodable data := by
  rw [compiles_iff, validates_iff]
  constructor
  · rintro ⟨hreq, m, g, hchecked, hir⟩
    exact ⟨⟨hreq, m, g, hchecked⟩, (inputsEncodable_iff hchecked).mpr ((exists_toIR_iff hid).mp hir)⟩
  · rintro ⟨⟨hreq, m, g, hchecked⟩, henc⟩
    exact ⟨hreq, m, g, hchecked, (exists_toIR_iff hid).mpr ((inputsEncodable_iff hchecked).mp henc)⟩

/-- **When the two verdicts agree.**  On a compiler without a policy gate, `ValidateManifest` answers
    valid exactly when `CompileWorkflow` answers with an IR and without errors, if and only if the
    manifest is not valid or every input of its actions can be written as JSON. -/
theorem validates_iff_compiles_iff (yaml : Yaml) (data : List UInt8) (ns : String)
    (ctxErr : Option GrpcError) (randBytes : List UInt8) (now elapsedMs : Int) :
    ((Server.mk yaml none).Validates ⟨ctxErr, generateWorkflowID randBytes, now, elapsedMs⟩ data ↔
      (Server.mk yaml none).Compiles ⟨ctxErr, generateWorkflowID randBytes, now, elapsedMs⟩ ⟨data, ns⟩) ↔
    ((Server.mk yaml none).Validates ⟨ctxErr, generateWorkflowID randBytes, now, elapsedMs⟩ data →
      yaml.InputsEncodable data) := by
  rw [compiles_iff_validates (generateWorkflowID_ne_empty randBytes)]
  simp

/-! ### Ratings by number -/

def ratingAction : YamlAction where
  capability := "rate"
  input := GoMap.ofPairs [("labels", .anyMap), ("text", .str "hello")]

def ratingYaml : YamlManifest := workflowYaml "rating" "rate"
  [("rate", { actions := [ratingAction], on := [{ event := "rate.completed", goto := "done" }] }),
    ("done", { type := "terminal" })]

def ratingManifest : Manifest := plainManifest "rating" "rate"
  [("rate", ⟨"rate", .normal, [ratingAction.toAction], [⟨"rate.completed", "done", "", ∅, ∅⟩], ∅, 0⟩),
    ("done", ⟨"done", .terminal, [], [], ∅, 0⟩)]

def ratingText : List UInt8 := manifestText "rating" "rate"
  ("    rate: \x7bactions: [\x7bcapability: rate, input: \x7blabels: \x7b1: low\x7d, text: hello\x7d\x7d],\n" ++
    "      on: [\x7bevent: rate.completed, goto: done\x7d]\x7d\n" ++
    "    done: \x7btype: terminal\x7d\n")

theorem checked_rating : Checked (fixedYaml ratingYaml) ratingText ratingManifest
    ⟨"rating", "default", "rate", ratingManifest.states⟩ := by
  refine ⟨rfl, ?_, ?_⟩
  · rfl
  · rfl

/-- **A manifest that validates and does not compile.**  Nothing is wrong with it until the IR is
    generated, and that fails with an internal error. -/
theorem rating_validates_not_compiles :
    (Server.mk (fixedYaml ratingYaml) none).Validates ⟨none, generateWorkflowID [1], 0, 0⟩ ratingText ∧
      (Server.mk (fixedYaml ratingYaml) none).compileWorkflow ⟨none, generateWorkflowID [1], 0, 0⟩
        ⟨ratingText, ""⟩ =
        .error ⟨.internal, ⟨"IR generation: state %q action[%d]: cannot marshal input: %w",
          [.str "rate", .int 0, .str ("marshaling input template: " ++
            "json: unsupported type: map[interface \x7b\x7d]interface \x7b\x7d")]⟩⟩ ∧
      ¬ (Server.mk (fixedYaml ratingYaml) none).Compiles ⟨none, generateWorkflowID [1], 0, 0⟩
        ⟨ratingText, ""⟩ := by
  refine ⟨validates_iff.mpr ⟨rfl, _, _, checked_rating⟩, ?_, ?_⟩
  · rfl
  · rw [compiles_iff_validates (generateWorkflowID_ne_empty _)]
    rintro ⟨-, henc⟩
    have hlabels := henc _ ratingYaml rfl rfl "rate" _ rfl ratingAction (by simp) "labels" .anyMap rfl
    exact absurd hlabels (by simp [Value.encodable])

end Zynax.Compiler
