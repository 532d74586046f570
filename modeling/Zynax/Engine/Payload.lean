import Zynax.Compiler.Server
import Zynax.Engine.Interpreter

namespace Zynax.Engine

open Golang Compiler

/-!
# From the inputs of an action to the payload of its task

The compiler keeps the literal inputs of an action in a template and its references in a map of
bindings; the engine renders the template and dispatches the result, and the broker wants valid
JSON.  The resolved references are only offered to the template, they are not members of it.

* `TextVerbatim` — the one thing the template engine is relied on for.
-/

def PlainInputs (input : GoMap Value) : Prop :=
  ∀ key v, input.lookup key = some v → contains key "\x7b\x7b" = false ∧
    v.AllStrings (fun s => contains s "\x7b\x7b" = false)

def ReferencesResolve (store : GoMap String) (input : GoMap Value) : Prop :=
  ∀ key ref, input.lookup key = some (.str ref) → hasPrefix ref inputBindingPrefix = true →
    ∃ val, resolveBindingValue store key ref = .ok val

structure HoldsInputs (input : GoMap Value) (store : GoMap String) (fields : GoMap Json) : Prop where
  absent : ∀ key, input.lookup key = none → fields.lookup key = none
  references : ∀ key ref, input.lookup key = some (.str ref) →
    hasPrefix ref inputBindingPrefix = true →
      ∃ val, resolveBindingValue store key ref = .ok val ∧ fields.lookup key = some (.str val)
  literals : ∀ key v, input.lookup key = some v → isReference v = false →
    ∃ j, v.toJson = .ok j ∧ fields.lookup key = some j

def Delivered (input : GoMap Value) (store : GoMap String) (payload : String) : Prop :=
  Json.valid payload = true ∧
    ∃ fields, Json.decodeObject payload = some fields ∧ HoldsInputs input store fields

structure LiteralInputs (input : GoMap Value) : Prop where
  nonempty : input.isEmpty = false
  literal : ∀ key v, input.lookup key = some v → isReference v = false
  depth : ∀ key v, input.lookup key = some v → v.depth + 1 ≤ Json.maxNestingDepth

def TextVerbatim (render : String → GoMap String → Except String String) : Prop :=
  ∀ tmpl ctx, contains tmpl "\x7b\x7b" = false → render tmpl ctx = .ok tmpl

/-! ### The template of the literals -/

variable {input : GoMap Value} {text : String} {js : List (String × Json)}

def membersOf (input : GoMap Value) : List (String × Value) := input.entries.map (fun e => (e.1, e.2))

theorem mem_membersOf {key : String} {v : Value} :
    (key, v) ∈ membersOf input ↔ input.lookup key = some v := by
  rw [membersOf, List.mem_map, ← GoMap.mem_entries_iff]
  simp

structure Template (input : GoMap Value) (js : List (String × Json)) : Prop where
  numbers : (Json.obj js).NumbersOk
  depth : (Json.obj js).depth = Value.depthFields (membersOf input) + 1
  nodup : (js.map Prod.fst).Nodup
  members : ∀ key j, (key, j) ∈ js ↔ ∃ v, input.lookup key = some v ∧ v.toJson = .ok j
  encoded : ∀ key v, input.lookup key = some v → ∃ j, v.toJson = .ok j
  plain : PlainInputs input → contains (Json.obj js).marshal "\x7b\x7b" = false

theorem noDelim_toJson_iff {j : Json}
    (hj : (Value.map (membersOf input)).toJson = .ok j) :
    contains j.marshal "\x7b\x7b" = false ↔ PlainInputs input := by
  have hdelim := Json.noDelim_encode j [] (Value.numbersOk_of_toJson _ _ hj)
  rw [List.append_nil, and_iff_left (show Json.NoDelim [] from .nil), Value.allStrings_toJson _ _ hj] at hdelim
  rw [← Json.noDelim_iff, Json.marshal, String.toList_ofList, hdelim]
  simp only [Json.noDelim_iff]
  refine Value.allStringsFields_iff.trans ⟨fun h key v hv => ?_, fun h f hf => ?_⟩
  · exact h (key, v) (mem_membersOf.mpr hv)
  · exact h f.1 f.2 (mem_membersOf.mp hf)

/-- **What the compiler writes for the literals**: nothing, or an object with just these
    members. -/
theorem marshalInputTemplate_eq_ok (h : marshalInputTemplate input = .ok text) :
    (input.isEmpty = true ∧ text = "") ∨
      input.isEmpty = false ∧ ∃ js, text = (Json.obj js).marshal ∧ Template input js := by
  rw [marshalInputTemplate] at h
  split at h
  · grind
  rename_i hne
  split at h
  · exact absurd h (by simp)
  rename_i j hj
  obtain ⟨js, rfl, hperm⟩ := Value.toJson_map_eq_ok hj
  have hnum := Value.numbersOk_of_toJson _ _ hj
  refine Or.inr ⟨by simpa using hne, js, (Except.ok.inj h).symm, hnum, ?_, ?_, ?_, ?_, ?_⟩
  · exact Value.depth_of_toJson _ _ hj
  · -- the keys are those of the map, in another order
    have hkeys := hperm.map Prod.fst
    simp only [List.map_map, Function.comp_def] at hkeys
    exact hkeys.nodup_iff.mpr input.keys_nodup
  · intro key j
    rw [Value.mem_of_toJson_map hperm]
    constructor
    · rintro ⟨⟨k, v⟩, hf, rfl, hv⟩
      exact ⟨v, mem_membersOf.mp hf, hv⟩
    · rintro ⟨v, hlookup, hv⟩
      exact ⟨(key, v), mem_membersOf.mpr hlookup, rfl, hv⟩
  · intro key v hv
    have hmem : (key, v.toJson) ∈ js.map (fun p => (p.1, Except.ok p.2)) :=
      hperm.mem_iff.mpr (List.mem_map.mpr ⟨(key, v), mem_membersOf.mpr hv, rfl⟩)
    grind
  · exact fun hplain => (noDelim_toJson_iff hj).mpr hplain

theorem contains_template_iff (h : marshalInputTemplate input = .ok text) :
    contains text "\x7b\x7b" = false ↔ PlainInputs input := by
  rw [marshalInputTemplate] at h
  split at h
  · rename_i hempty
    rw [← Except.ok.inj h]
    refine iff_of_true (by decide) fun key v hv => ?_
    rw [GoMap.isEmpty_iff.mp hempty key] at hv
    exact absurd hv (by simp)
  split at h
  · exact absurd h (by simp)
  rename_i j hj
  rw [← Except.ok.inj h]
  exact noDelim_toJson_iff hj

theorem Template.depth_le_iff (h : Template input js) : (Json.obj js).depth ≤ Json.maxNestingDepth ↔
      ∀ key v, input.lookup key = some v → v.depth + 1 ≤ Json.maxNestingDepth := by
  have hpos : 1 ≤ Json.maxNestingDepth := by decide
  have hsub : ∀ d, d + 1 ≤ Json.maxNestingDepth ↔ d ≤ Json.maxNestingDepth - 1 := by omega
  rw [h.depth, hsub, Value.depthFields_le_iff]
  constructor
  · intro hd key v hv
    exact (hsub _).mpr (hd (key, v) (mem_membersOf.mpr hv))
  · intro hd f hf
    exact (hsub _).mp (hd f.1 f.2 (mem_membersOf.mp hf))

/-! ### The payload -/

variable {store : GoMap String}

theorem delivered_marshal_iff (hnum : (Json.obj js).NumbersOk) :
    Delivered input store (Json.obj js).marshal ↔
      (Json.obj js).depth ≤ Json.maxNestingDepth ∧ HoldsInputs input store (GoMap.ofPairs js) := by
  rw [Delivered, Json.decodeObject_obj hnum, Json.valid, Json.unmarshal_marshal hnum]
  simp

theorem holdsInputs_iff (htmpl : Template (splitInputBindings input).1 js) :
    HoldsInputs input store (GoMap.ofPairs js) ↔
      ∀ key v, input.lookup key = some v → isReference v = false := by
  have hlookup : ∀ key j, (GoMap.ofPairs js).lookup key = some j ↔
      ∃ v, (input.lookup key = some v ∧ isReference v = false) ∧ v.toJson = .ok j := by
    intro key j
    rw [GoMap.lookup_ofPairs htmpl.nodup, htmpl.members]
    simp only [lookup_literals]
  constructor
  · intro hholds key v hv
    by_contra href
    rw [Bool.not_eq_false] at href
    obtain ⟨ref, rfl, hp⟩ := isReference_iff.mp href
    -- the reference would have to be a member, and only literals are
    obtain ⟨val, -, hmem⟩ := hholds.references key ref hv hp
    grind
  · intro hliteral
    refine ⟨?_, ?_, ?_⟩
    · intro key hkey
      rw [Option.eq_none_iff_forall_ne_some]
      grind
    · intro key ref href hp
      have hno := hliteral key _ href
      rw [isReference_iff.mpr ⟨ref, rfl, hp⟩] at hno
      exact absurd hno (by simp)
    · intro key v hv hlit
      obtain ⟨j, hj⟩ := htmpl.encoded key v (lookup_literals.mpr ⟨hv, hlit⟩)
      grind

theorem literals_isEmpty_iff :
    (splitInputBindings input).1.isEmpty = true ↔
      ∀ key v, input.lookup key = some v → isReference v = true := by
  rw [GoMap.isEmpty_iff]
  constructor
  · intro hnone key v hv
    by_contra href
    have hlit := lookup_literals.mpr ⟨hv, by simpa using href⟩
    grind
  · intro hall key
    rw [Option.eq_none_iff_forall_ne_some]
    intro v hlit
    obtain ⟨hv, hno⟩ := lookup_literals.mp hlit
    grind

/-- **A template holds the inputs exactly when they are literals**, and there are some. -/
theorem delivered_iff (htext : marshalInputTemplate (splitInputBindings input).1 = .ok text) :
    Delivered input store text ↔ LiteralInputs input := by
  rcases marshalInputTemplate_eq_ok htext with ⟨hempty, rfl⟩ | ⟨hne, js, rfl, htmpl⟩
  · -- the empty text is no JSON
    rw [literals_isEmpty_iff] at hempty
    refine iff_of_false (fun h => absurd h.1 (by decide)) ?_
    rintro ⟨hne, hliteral, -⟩
    have hall : ∀ key, input.lookup key = none := by
      intro key
      rw [Option.eq_none_iff_forall_ne_some]
      grind
    rw [GoMap.isEmpty_iff.mpr hall] at hne
    exact absurd hne (by simp)
  · rw [delivered_marshal_iff htmpl.numbers, htmpl.depth_le_iff, holdsInputs_iff htmpl]
    constructor
    · rintro ⟨hdepth, hliteral⟩
      refine ⟨?_, hliteral, fun key v hv =>
        hdepth key v (lookup_literals.mpr ⟨hv, hliteral key v hv⟩)⟩
      rw [Bool.eq_false_iff, ne_eq, GoMap.isEmpty_iff] at hne ⊢
      intro hall
      refine hne fun key => ?_
      rw [Option.eq_none_iff_forall_ne_some]
      intro v hlit
      exact absurd (lookup_literals.mp hlit).1 (by simp [hall key])
    · rintro ⟨-, hliteral, hdepth⟩
      exact ⟨fun key v hv => hdepth key v (lookup_literals.mp hv).1, hliteral⟩

theorem plain_template (hplain : PlainInputs input)
    (htext : marshalInputTemplate (splitInputBindings input).1 = .ok text) :
    contains text "\x7b\x7b" = false :=
  (contains_template_iff htext).mpr fun key v hv => hplain key v (lookup_literals.mp hv).1

/-- **The payload of an action holds its inputs exactly when they are literals.**  For a synchronous
    action of an accepted manifest, whose inputs are references that resolve and literals without
    template actions: the engine dispatches it, and the payload passes the broker's JSON check and
    decodes to the inputs if and only if there are inputs, none is a reference and none is nested
    beyond the limit of the JSON decoder. -/
theorem payload_delivered_iff {s : Server} {env : CallEnv} {req : CompileWorkflowRequest}
    {ir : WorkflowIR} {root : YamlNode} {raw : YamlManifest} (hacc : s.Accepts env req ir)
    (hroot : s.yaml.unmarshal req.manifestYaml = .ok (some root)) (hraw : s.yaml.decode root = .ok raw)
    {id : String} {ys : YamlState} (hys : raw.spec.states.lookup id = some ys) {i : Nat}
    {ya : YamlAction} (hya : ys.actions[i]? = some ya) (hsync : ya.async = false)
    (hplain : PlainInputs ya.input) {rt : Runtime} (hrender : TextVerbatim rt.render)
    (ctx : GoMap String) {data : WorkflowDataContext} (hscope : data.scope = runScope ir)
    (hres : ReferencesResolve data.store ya.input) (last : Option ActivityResult) (log : Log) :
    ∃ state input more, findState ir id = some state ∧
      (executeActions rt ir id ctx (runScope ir) (state.actions.drop i) last ⟨data, log⟩).2.log =
        log ++ .dispatch id input :: more ∧
      input.capabilityName = ya.capability ∧
      (Delivered ya.input data.store input.inputPayload ↔ LiteralInputs ya.input) := by
  obtain ⟨state, a, hfind, hdrop, hconvert⟩ := hacc.action hroot hraw hys hya
  obtain ⟨hcap, hasync, -, hbindings, htext⟩ := convertActionIR_eq_ok hconvert
  -- its inputs resolve and its template is rendered verbatim
  obtain ⟨inputs, hinputs⟩ : ∃ inputs, data.resolveInputs (runScope ir) a.inputBindings = .ok inputs := by
    rw [← hscope]
    refine exists_resolveInputs fun key ref href => ?_
    rw [hbindings] at href
    obtain ⟨hv, hp⟩ := lookup_references.mp href
    exact hres key ref hv hp
  have htmpl : resolveTemplate rt.render a.inputTemplateJson (mergeInputs ctx inputs) =
      .ok a.inputTemplateJson :=
    hrender _ _ (plain_template hplain htext)
  have hinputs' : (Effects.mk data log).data.resolveInputs (runScope ir) a.inputBindings = .ok inputs :=
    hinputs
  obtain ⟨more, hmore⟩ := executeActions_dispatches rt ir id ctx (state.actions.drop (i + 1)) last
    (hasync.trans hsync) hinputs' htmpl
  -- the actions before it have been executed, those after it only add to the history
  refine ⟨state, ⟨a.capability, a.inputTemplateJson, ir.workflowId, timeoutSeconds a.timeout⟩, more,
    hfind, ?_, hcap, delivered_iff htext⟩
  grind

/-! ### A summary -/

def fetchAction : YamlAction where
  capability := "fetch"
  input := GoMap.ofPairs [("path", .str "README.md"), ("pages", .int 2)]
  output := GoMap.ofPairs [("doc", .str "doc")]

def summarizeAction : YamlAction where
  capability := "summarize"
  input := GoMap.ofPairs [("doc", .str "$.states.fetch.output.doc")]

def fetchState : YamlState where
  actions := [fetchAction]
  on := [{ event := "fetch.completed", goto := "sum" }]

def summaryYaml : YamlManifest := workflowYaml "summary" "fetch"
  [("fetch", fetchState),
    ("sum",
      { actions := [summarizeAction], on := [{ event := "summarize.completed", goto := "done" }] }),
    ("done", { type := "terminal" })]

def summaryServer : Server := { yaml := fixedYaml summaryYaml }

def summaryEnv : CallEnv := { workflowID := "wf-1", now := 0, elapsedMs := 1 }

def summaryText : List UInt8 := manifestText "summary" "fetch"
  ("    fetch: \x7bactions: [\x7bcapability: fetch, input: \x7bpath: README.md, pages: 2\x7d, output: \x7bdoc: doc\x7d\x7d],\n" ++
    "      on: [\x7bevent: fetch.completed, goto: sum\x7d]\x7d\n" ++
    "    sum: \x7bactions: [\x7bcapability: summarize, input: \x7bdoc: $.states.fetch.output.doc\x7d\x7d],\n" ++
    "      on: [\x7bevent: summarize.completed, goto: done\x7d]\x7d\n" ++
    "    done: \x7btype: terminal\x7d\n")

def summaryRequest : CompileWorkflowRequest := { manifestYaml := summaryText }

def summaryIR : WorkflowIR := plainIR "summary" "fetch"
  [⟨"done", .terminal, [], [], ∅⟩,
    ⟨"fetch", .normal,
      [⟨"fetch", none, "\x7b\"pages\":2,\"path\":\"README.md\"\x7d", false,
        GoMap.ofPairs [("doc", "doc")], ∅⟩],
      [⟨"fetch.completed", "sum", ∅⟩], ∅⟩,
    ⟨"sum", .normal,
      [⟨"summarize", none, "", false, ∅, GoMap.ofPairs [("doc", "$.states.fetch.output.doc")]⟩],
      [⟨"summarize.completed", "done", ∅⟩], ∅⟩]

def fetchedData : WorkflowDataContext where
  scope := runScope summaryIR
  store := GoMap.ofPairs [("states.fetch.output.doc", "Zynax")]

def verbatimRuntime : Runtime where
  cel := fun _ _ => false
  render := fun tmpl _ => .ok tmpl
  dispatchCapability := fun _ _ => .error "no agent"
  publish := fun _ _ => none

theorem accepts_summary : summaryServer.Accepts summaryEnv summaryRequest summaryIR := by
  rfl

theorem lookup_fetchAction {key : String} {v : Value} (hv : fetchAction.input.lookup key = some v) :
    key = "path" ∧ v = .str "README.md" ∨ key = "pages" ∧ v = .int 2 := by
  have hmem : (key, v) ∈ [("path", Value.str "README.md"), ("pages", .int 2)] :=
    (GoMap.lookup_ofPairs (by decide)).mp hv
  simpa using hmem

theorem plain_fetchAction : PlainInputs fetchAction.input := by
  intro key v hv
  rcases lookup_fetchAction hv with ⟨rfl, rfl⟩ | ⟨rfl, rfl⟩
  · exact ⟨by decide +kernel, show contains "README.md" _ = false by decide +kernel⟩
  · exact ⟨by decide +kernel, True.intro⟩

theorem resolve_fetchAction : ReferencesResolve fetchedData.store fetchAction.input := by
  intro key ref hv hp
  rcases lookup_fetchAction hv with ⟨-, heq⟩ | ⟨-, heq⟩
  · rw [Value.str.inj heq] at hp
    exact absurd hp (by decide +kernel)
  · exact absurd heq (by simp)

theorem payload_delivered_fetch :
    ∃ state input more, findState summaryIR "fetch" = some state ∧
      (executeActions verbatimRuntime summaryIR "fetch" ∅ (runScope summaryIR) (state.actions.drop 0)
        none ⟨fetchedData, []⟩).2.log = [] ++ .dispatch "fetch" input :: more ∧
      input.capabilityName = "fetch" ∧
      (Delivered fetchAction.input fetchedData.store input.inputPayload ↔
        LiteralInputs fetchAction.input) :=
  payload_delivered_iff accepts_summary rfl rfl
    (show summaryYaml.spec.states.lookup "fetch" = some fetchState from rfl)
    (show fetchState.actions[0]? = some fetchAction from rfl) rfl plain_fetchAction
    (show TextVerbatim verbatimRuntime.render from fun _ _ _ => rfl) ∅ rfl resolve_fetchAction none []

/-- **A reference never reaches the payload.**  The summarizing action is dispatched with its
    reference resolved and an empty payload, which the broker refuses. -/
theorem reference_payload_empty :
    summaryServer.Accepts summaryEnv summaryRequest summaryIR ∧
      summaryServer.yaml.decode (.mk .document "" 1 []) = .ok summaryYaml ∧
      (∃ ys, summaryYaml.spec.states.lookup "sum" = some ys ∧ ys.actions = [summarizeAction]) ∧
      resolveBindingValue fetchedData.store "doc" "$.states.fetch.output.doc" = .ok "Zynax" ∧
      ∃ state, findState summaryIR "sum" = some state ∧
        (executeActions verbatimRuntime summaryIR "sum" ∅ (runScope summaryIR) state.actions none
          ⟨fetchedData, []⟩).2.log = [.dispatch "sum" ⟨"summarize", "", "wf-1", 0⟩] ∧
        Json.valid "" = false := by
  refine ⟨accepts_summary, rfl, ⟨_, rfl, rfl⟩, by decide +kernel, _, rfl, ?_, by decide⟩
  decide +kernel

end Zynax.Engine
