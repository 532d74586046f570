import Zynax.Engine.Templates

namespace Zynax.Cli

open Golang Compiler Engine

/-!
# Binding a scenario context into a workflow

The command line renders the templates of a workflow manifest with the values of a scenario, scalar
by scalar, and submits the result.  The compiler writes the inputs of an action into a template of
its own, and the engine renders that one: what the command line has bound is rendered once more.
-/

/-! ### YAML trees -/

inductive ScalarStyle where
  | plain | literal | other
  deriving DecidableEq

inductive CollectionKind where
  | zero | document | sequence | mapping
  deriving DecidableEq

inductive Node where
  | scalar (tag : String) (style : ScalarStyle) (value : String)
  | collection (kind : CollectionKind) (content : List Node)
  | aliasOf (name : String)

namespace Node

mutual

def decEq : (a b : Node) → Decidable (a = b)
  | .scalar t s v, .scalar t' s' v' => decidable_of_iff (t = t' ∧ s = s' ∧ v = v') (by simp)
  | .aliasOf n, .aliasOf n' => decidable_of_iff (n = n') (by simp)
  | .collection k c, .collection k' c' =>
    if hk : k = k' then
      match decEqContent c c' with
      | isTrue h => isTrue (hk ▸ h ▸ rfl)
      | isFalse h => isFalse (fun hc => h (Node.collection.inj hc).2)
    else isFalse (fun hc => hk (Node.collection.inj hc).1)
  | .scalar .., .collection .. | .scalar .., .aliasOf _ | .collection .., .scalar ..
  | .collection .., .aliasOf _ | .aliasOf _, .scalar .. | .aliasOf _, .collection .. =>
    isFalse (fun h => by cases h)

def decEqContent : (a b : List Node) → Decidable (a = b)
  | [], [] => isTrue rfl
  | [], _ :: _ => isFalse (fun h => by cases h)
  | _ :: _, [] => isFalse (fun h => by cases h)
  | x :: xs, y :: ys =>
    match decEq x y, decEqContent xs ys with
    | isTrue h, isTrue hs => isTrue (h ▸ hs ▸ rfl)
    | isFalse h, _ => isFalse (fun hc => h (List.cons.inj hc).1)
    | _, isFalse hs => isFalse (fun hc => hs (List.cons.inj hc).2)

end

instance : DecidableEq Node := decEq

def nodeAt : List Nat → Node → Option Node
  | [], n => some n
  | i :: path, .collection _ content => (content[i]?).bind (nodeAt path)
  | _ :: _, _ => none

inductive Step where
  | field (key : String)
  | item (i : Nat)

def fieldIndex (key : String) : List Node → Option Nat
  | .scalar _ _ k :: _ :: rest => if k = key then some 1 else (fieldIndex key rest).map (· + 2)
  | _ :: _ :: rest => (fieldIndex key rest).map (· + 2)
  | _ => none

def position : List Step → Node → Option (List Nat)
  | [], _ => some []
  | .field key :: steps, .collection .mapping content =>
    (fieldIndex key content).bind fun i =>
      (content[i]?).bind fun n => (position steps n).map (i :: ·)
  | .item i :: steps, .collection _ content =>
    (content[i]?).bind fun n => (position steps n).map (i :: ·)
  | _, _ => none

def inputPosition (id : String) (i : Nat) (key : String) (root : Node) : Option (List Nat) :=
  root.position [.item 0, .field "spec", .field "states", .field id, .field "actions", .item i,
    .field "input", .field key]

end Node

/-! ### Binding -/

structure ContextError where
  key : String := ""
  reason : Formatted
  deriving DecidableEq

inductive TemplateError where
  | parse (err : String)
  | execute (err : String)
  deriving DecidableEq

abbrev TemplateEngine : Type := String → GoMap String → Except TemplateError String

/-- One scalar, rendered as a template. -/
def renderScalar (engine : TemplateEngine) (values : GoMap String) (s : String) :
    Except ContextError String :=
  match engine s values with
  | .ok text => .ok text
  | .error (.parse err) => .error { reason := ⟨"parse template %q: %v", [.str s, .str err]⟩ }
  | .error (.execute err) => .error { reason := ⟨"bind context into workflow: %v", [.str err]⟩ }

def boundScalar (rendered : String) : Node :=
  .scalar "!!str" (if contains rendered "\n" then .literal else .plain) rendered

mutual

/-- Every scalar with a delimiter is rendered, nothing else. -/
def renderScalars (engine : TemplateEngine) (values : GoMap String) : Node → Except ContextError Node
  | .scalar tag style value =>
    if contains value "\x7b\x7b" then (renderScalar engine values value).map boundScalar
    else .ok (.scalar tag style value)
  | .collection kind content => (renderContent engine values content).map (.collection kind)
  | .aliasOf name => .ok (.aliasOf name)

def renderContent (engine : TemplateEngine) (values : GoMap String) :
    List Node → Except ContextError (List Node)
  | [] => .ok []
  | n :: rest =>
    match renderScalars engine values n with
    | .error err => .error err
    | .ok n' => (renderContent engine values rest).map (n' :: ·)

end

structure Codec where
  unmarshal : List UInt8 → Except String Node
  marshal : Node → Except String (List UInt8)

/-- `BindContextIntoWorkflow`: read, render, write. -/
def bindContextIntoWorkflow (codec : Codec) (engine : TemplateEngine) (manifest : List UInt8)
    (values : GoMap String) : Except ContextError (List UInt8) :=
  match codec.unmarshal manifest with
  | .error err => .error { reason := ⟨"parse workflow YAML: %v", [.str err]⟩ }
  | .ok root =>
    match renderScalars engine values root with
    | .error err => .error err
    | .ok root' =>
      match codec.marshal root' with
      | .error err => .error { reason := ⟨"re-encode workflow YAML: %v", [.str err]⟩ }
      | .ok out => .ok out

def ReadsInputs (codec : Codec) (yaml : Yaml) : Prop :=
  ∀ tree out root raw, codec.marshal tree = .ok out → yaml.unmarshal out = .ok (some root) →
    yaml.decode root = .ok raw → ∀ id i key path style text,
      tree.inputPosition id i key = some path → tree.nodeAt path = some (.scalar "!!str" style text) →
        ∃ ys ya, raw.spec.states.lookup id = some ys ∧ ys.actions[i]? = some ya ∧
          ya.input.lookup key = some (.str text)

/-! ### What binding does to a scalar -/

variable {engine : TemplateEngine} {values : GoMap String} {text : String}

theorem renderContent_getElem? {content : List Node} :
    ∀ {content' : List Node}, renderContent engine values content = .ok content' → ∀ {i : Nat} {n : Node},
      content[i]? = some n → ∃ n', content'[i]? = some n' ∧ renderScalars engine values n = .ok n' := by
  induction content with
  | nil =>
    simp
  | cons m rest ih =>
    intro content' h i n hn
    rw [renderContent] at h
    split at h
    · exact absurd h (by simp)
    rename_i m' hm
    obtain ⟨rest', hrest, rfl⟩ := map_eq_ok.mp h
    grind

/-- **A template is replaced by what it renders to, where it stands.** -/
theorem nodeAt_renderScalars {tag : String}
    {style : ScalarStyle} (htext : contains text "\x7b\x7b" = true) {path : List Nat} :
    ∀ {root root' : Node}, renderScalars engine values root = .ok root' →
      root.nodeAt path = some (.scalar tag style text) →
      ∃ bound, renderScalar engine values text = .ok bound ∧
        root'.nodeAt path = some (boundScalar bound) := by
  induction path with
  | nil =>
    intro root root' h hnode
    obtain rfl := Option.some.inj hnode
    rw [renderScalars, if_pos htext] at h
    obtain ⟨bound, hbound, rfl⟩ := map_eq_ok.mp h
    exact ⟨bound, hbound, rfl⟩
  | cons i path ih =>
    intro root root' h hnode
    cases root with
    | scalar tag' style' value => exact absurd hnode (by simp [Node.nodeAt])
    | aliasOf name => exact absurd hnode (by simp [Node.nodeAt])
    | collection kind content =>
      obtain ⟨n, hn, hnode⟩ := Option.bind_eq_some_iff.mp hnode
      rw [renderScalars] at h
      obtain ⟨content', hc, rfl⟩ := map_eq_ok.mp h
      obtain ⟨n', hn', hrender⟩ := renderContent_getElem? hc hn
      obtain ⟨bound, hbound, hat⟩ := ih hrender hnode
      exact ⟨bound, hbound, by rw [Node.nodeAt, hn']; exact hat⟩

/-! ### What reaches the action -/

variable {key : String}

def DeliveredAt (payload key text : String) : Prop :=
  Json.valid payload = true ∧
    ∃ fields, Json.decodeObject payload = some fields ∧ fields.lookup key = some (.str text)

structure DataOnly (input : GoMap Value) (bound : String) : Prop where
  notReference : hasPrefix bound inputBindingPrefix = false
  plain : PlainInputs (splitInputBindings input).1
  depth : ∀ key v, (splitInputBindings input).1.lookup key = some v →
    v.depth + 1 ≤ Json.maxNestingDepth

theorem deliveredAt_template_iff {input : GoMap Value} {bound : String}
    (hkey : input.lookup key = some (.str bound))
    (htext : marshalInputTemplate (splitInputBindings input).1 = .ok text) :
    DeliveredAt text key bound ↔ hasPrefix bound inputBindingPrefix = false ∧
      ∀ key v, (splitInputBindings input).1.lookup key = some v →
        v.depth + 1 ≤ Json.maxNestingDepth := by
  have hliteral : (splitInputBindings input).1.lookup key = some (.str bound) ↔
      hasPrefix bound inputBindingPrefix = false := by
    rw [lookup_literals, and_iff_right hkey]
    rfl
  rcases marshalInputTemplate_eq_ok htext with ⟨hempty, rfl⟩ | ⟨-, js, rfl, htmpl⟩
  · -- the empty text is no JSON, and there is no literal
    refine iff_of_false (fun h => absurd h.1 (by decide)) (fun h => ?_)
    rw [← hliteral, GoMap.isEmpty_iff.mp hempty key] at h
    exact absurd h.1 (by simp)
  · have hlookup : (GoMap.ofPairs js).lookup key = some (.str bound) ↔
        hasPrefix bound inputBindingPrefix = false := by
      rw [GoMap.lookup_ofPairs htmpl.nodup, htmpl.members, ← hliteral]
      constructor
      · rintro ⟨v, hv, -⟩
        have hin := (lookup_literals.mp hv).1
        grind
      · intro hv
        exact ⟨.str bound, hv, rfl⟩
    rw [← htmpl.depth_le_iff, DeliveredAt, Json.valid, Json.unmarshal_marshal htmpl.numbers,
      Json.decodeObject_obj htmpl.numbers]
    grind

theorem marshal_of_bind {codec : Codec} {manifest out : List UInt8} {tree tree' : Node}
    (hbind : bindContextIntoWorkflow codec engine manifest values = .ok out)
    (htree : codec.unmarshal manifest = .ok tree)
    (hrender : renderScalars engine values tree = .ok tree') : codec.marshal tree' = .ok out := by
  unfold bindContextIntoWorkflow at hbind
  grind

def refusingRuntime : Runtime :=
  { verbatimRuntime with
    render := fun tmpl _ => if contains tmpl "\x7b\x7b" then .error "action" else .ok tmpl }

theorem textVerbatim_refusingRuntime : TextVerbatim refusingRuntime.render := by
  intro tmpl ctx hplain
  show (if contains tmpl "\x7b\x7b" = true then _ else Except.ok tmpl) = _
  rw [hplain]
  rfl

def Delivers (rt : Runtime) (ir : WorkflowIR) (id : String) (ctx : GoMap String)
    (actions : List ActionIR) (last : Option ActivityResult) (eff : Effects) (key text : String) : Prop :=
  ∃ input more, (executeActions rt ir id ctx (runScope ir) actions last eff).2.log =
    eff.log ++ .dispatch id input :: more ∧ DeliveredAt input.inputPayload key text

theorem delivers_iff {rt : Runtime} {ir : WorkflowIR} {id : String} {ctx : GoMap String}
    {a : ActionIR} {rest : List ActionIR} {last : Option ActivityResult} {eff : Effects}
    {inputs : GoMap String} (hsync : a.async = false)
    (hinputs : eff.data.resolveInputs (runScope ir) a.inputBindings = .ok inputs) :
    Delivers rt ir id ctx (a :: rest) last eff key text ↔
      ∃ resolved, resolveTemplate rt.render a.inputTemplateJson (mergeInputs ctx inputs) = .ok resolved ∧
        DeliveredAt resolved key text := by
  cases htmpl : resolveTemplate rt.render a.inputTemplateJson (mergeInputs ctx inputs) with
  | error err =>
    refine iff_of_false ?_ (by simp)
    rintro ⟨input, more, hlog, -⟩
    simp [executeActions, hsync, hinputs, htmpl] at hlog
  | ok resolved =>
    obtain ⟨more, hmore⟩ := executeActions_dispatches rt ir id ctx rest last hsync hinputs htmpl
    constructor
    · rintro ⟨input, more', hlog, hdel⟩
      rw [hmore, List.append_cancel_left_eq, List.cons.injEq] at hlog
      grind
    · rintro ⟨resolved', heq, hdel⟩
      obtain rfl := Except.ok.inj heq
      exact ⟨_, more, hmore, hdel⟩

/-- **A bound value is data exactly when it looks like data.**  At an input of a synchronous action of
    a bound and accepted workflow, whose references resolve, a template was rendered to the text
    `bound`: whatever the template engine makes of actions, the action is dispatched with that text,
    if and only if it is no reference, no literal input of the action holds a template delimiter, and
    none is nested too deeply. -/
theorem bound_delivered_iff {codec : Codec} {engine : TemplateEngine} {values : GoMap String}
    {manifest out : List UInt8} {tree tree' : Node} {s : Server} {env : CallEnv}
    {req : CompileWorkflowRequest} {ir : WorkflowIR} {root : YamlNode} {raw : YamlManifest}
    (hbind : bindContextIntoWorkflow codec engine manifest values = .ok out)
    (htree : codec.unmarshal manifest = .ok tree)
    (hrender : renderScalars engine values tree = .ok tree')
    (hreads : ReadsInputs codec s.yaml) (hreq : req.manifestYaml = out) (hacc : s.Accepts env req ir)
    (hroot : s.yaml.unmarshal req.manifestYaml = .ok (some root)) (hraw : s.yaml.decode root = .ok raw)
    {id : String} {ys : YamlState} (hys : raw.spec.states.lookup id = some ys) {i : Nat}
    {ya : YamlAction} (hya : ys.actions[i]? = some ya) (hsync : ya.async = false)
    {key : String} {path : List Nat} (hpath : tree'.inputPosition id i key = some path)
    {tag text bound : String} {style : ScalarStyle}
    (hnode : tree.nodeAt path = some (.scalar tag style text))
    (htext : contains text "\x7b\x7b" = true)
    (hbound : renderScalar engine values text = .ok bound)
    {data : WorkflowDataContext} {inputs : GoMap String}
    (hinputs : data.resolveInputs (runScope ir) (splitInputBindings ya.input).2 = .ok inputs)
    (last : Option ActivityResult) (log : Log) :
    ∃ state, findState ir id = some state ∧
      ((∀ rt : Runtime, TextVerbatim rt.render → ∀ ctx,
          Delivers rt ir id ctx (state.actions.drop i) last ⟨data, log⟩ key bound) ↔
        DataOnly ya.input bound) := by
  obtain ⟨state, a, hfind, hdrop, hconvert⟩ := hacc.action hroot hraw hys hya
  obtain ⟨-, hasync, -, hbindings, htmpl⟩ := convertActionIR_eq_ok hconvert
  -- the input of the action is the bound text
  have hmarshal := marshal_of_bind hbind htree hrender
  have hkey : ya.input.lookup key = some (.str bound) := by
    obtain ⟨bound', hbound', hat⟩ := nodeAt_renderScalars htext hrender hnode
    obtain rfl := Except.ok.inj (hbound.symm.trans hbound')
    obtain ⟨ys', ya', hys', hya', hlookup⟩ := hreads tree' out root raw hmarshal (hreq ▸ hroot) hraw
      id i key path _ bound hpath hat
    grind
  -- the template of the action decides what is delivered
  have hinputs' : (Effects.mk data log).data.resolveInputs (runScope ir) a.inputBindings =
      .ok inputs := by
    rw [hbindings]
    exact hinputs
  have hdelivers : ∀ rt ctx, Delivers rt ir id ctx (state.actions.drop i) last ⟨data, log⟩ key bound ↔
      ∃ resolved, resolveTemplate rt.render a.inputTemplateJson (mergeInputs ctx inputs) = .ok resolved ∧
        DeliveredAt resolved key bound := by
    intro rt ctx
    rw [hdrop]
    exact delivers_iff (hasync.trans hsync) hinputs'
  have htemplate := deliveredAt_template_iff hkey htmpl
  refine ⟨state, hfind, fun h => ?_, fun h rt hverbatim ctx => ?_⟩
  · -- an engine that leaves every template alone shows the first and the last condition, one that
    -- refuses actions the second
    obtain ⟨resolved, hresolved, hdel⟩ := (hdelivers verbatimRuntime ∅).mp
      (h verbatimRuntime (fun _ _ _ => rfl) ∅)
    obtain rfl : a.inputTemplateJson = resolved := Except.ok.inj hresolved
    obtain ⟨hnoref, hdepth⟩ := htemplate.mp hdel
    obtain ⟨resolved, hresolved, -⟩ := (hdelivers refusingRuntime ∅).mp
      (h refusingRuntime textVerbatim_refusingRuntime ∅)
    have hplain : contains a.inputTemplateJson "\x7b\x7b" = false := by
      by_contra hdelim
      rw [Bool.not_eq_false] at hdelim
      simp [resolveTemplate, refusingRuntime, hdelim] at hresolved
    exact ⟨hnoref, (contains_template_iff htmpl).mp hplain, hdepth⟩
  · refine (hdelivers rt ctx).mpr ⟨a.inputTemplateJson, ?_, htemplate.mpr ⟨h.notReference, h.depth⟩⟩
    exact hverbatim _ _ ((contains_template_iff htmpl).mpr h.plain)

/-! ### A review -/

/-- The command line has no functions; its `missingkey=error` makes no difference to a key that is there. -/
def cliEngine : TemplateEngine := fun tmpl values =>
  (TextTemplate.render TextTemplate.asciiLetters (fun _ => none) refuseOther tmpl
    (templateData values)).mapError .execute

/-- The engine at work. -/
def fieldRuntime : Runtime :=
  { verbatimRuntime with render := goTemplate TextTemplate.asciiLetters refuseOther }

def textNode (s : String) : Node := .scalar "!!str" .plain s

def mappingNode (entries : List (String × Node)) : Node :=
  .collection .mapping (entries.flatMap fun e => [textNode e.1, e.2])

def reviewTree (diff : Node) : Node :=
  .collection .document
    [mappingNode
      [("kind", textNode "Workflow"), ("apiVersion", textNode "zynax.io/v1"),
        ("metadata", mappingNode [("name", textNode "review")]),
        ("spec", mappingNode
          [("initial_state", textNode "review"),
            ("states", mappingNode
              [("review", mappingNode
                [("actions", .collection .sequence
                  [mappingNode [("capability", textNode "review"), ("input", mappingNode [("diff", diff)])]]),
                  ("on", .collection .sequence
                    [mappingNode [("event", textNode "review.completed"), ("goto", textNode "done")]])]),
                ("done", mappingNode [("type", textNode "terminal")])])])]]

def reviewAction (diff : String) : YamlAction where
  capability := "review"
  input := GoMap.ofPairs [("diff", .str diff)]

def reviewState (diff : String) : YamlState where
  actions := [reviewAction diff]
  on := [{ event := "review.completed", goto := "done" }]

def reviewYaml (diff : String) : YamlManifest := workflowYaml "review" "review"
  [("review", reviewState diff), ("done", { type := "terminal" })]

/-- The text of the manifest with the diff as it is written there. -/
def diffText (written : String) : List UInt8 := manifestText "review" "review"
  ("    review: \x7bactions: [\x7bcapability: review, input: \x7bdiff: " ++ written ++
    "\x7d\x7d], on: [\x7bevent: review.completed, goto: done\x7d]\x7d\n    done: \x7btype: terminal\x7d\n")

def singleQuoted (s : String) : String := "'" ++ s ++ "'"

def diffNode : Node := .scalar "!!str" .other "\x7b\x7b .ctx.diff \x7d\x7d"

def reviewCodec (diff : String) : Codec where
  unmarshal := fun _ => .ok (reviewTree diffNode)
  marshal := fun tree =>
    if tree = reviewTree (boundScalar diff) then .ok (diffText (singleQuoted diff))
    else .error "another document"

def reviewServer (diff : String) : Server := { yaml := fixedYaml (reviewYaml diff) }

def boundRequest (diff : String) : CompileWorkflowRequest :=
  { manifestYaml := diffText (singleQuoted diff) }

theorem inputPosition_review {diff id : String} {i : Nat} {path : List Nat}
    (h : (reviewTree (boundScalar diff)).inputPosition id i key = some path) :
    id = "review" ∧ i = 0 ∧ key = "diff" ∧ path = [0, 7, 3, 1, 1, 0, 3, 1] := by
  by_cases hid : id = "review"
  · subst hid
    simp [Node.inputPosition, Node.position, reviewTree, mappingNode, textNode, Node.fieldIndex] at h
    cases i with
    | zero =>
      by_cases hkey : key = "diff"
      · subst hkey
        simp [Node.position, Node.fieldIndex] at h
        grind
      · simp [Node.position, Node.fieldIndex, Ne.symm hkey] at h
    | succ i => simp at h
  · by_cases hdone : id = "done"
    · subst hdone
      simp [Node.inputPosition, Node.position, reviewTree, mappingNode, textNode, Node.fieldIndex] at h
    · simp [Node.inputPosition, Node.position, reviewTree, mappingNode, textNode, Node.fieldIndex,
        Ne.symm hid, Ne.symm hdone] at h

theorem readsInputs_review (diff : String) :
    ReadsInputs (reviewCodec diff) (reviewServer diff).yaml := by
  intro tree out root raw hmarshal _ hraw id i key path style text hpos hat
  obtain rfl : reviewYaml diff = raw := Except.ok.inj hraw
  have htree : tree = reviewTree (boundScalar diff) := by
    by_contra hne
    simp [reviewCodec, hne] at hmarshal
  subst htree
  obtain ⟨rfl, rfl, rfl, rfl⟩ := inputPosition_review hpos
  have htext : diff = text := by
    simp [Node.nodeAt, reviewTree, mappingNode, textNode, boundScalar] at hat
    exact hat.2
  exact ⟨reviewState diff, reviewAction diff, rfl, rfl, by rw [htext]; rfl⟩

def reviewIR (template : String) : WorkflowIR := plainIR "review" "review"
  [⟨"done", .terminal, [], [], ∅⟩,
    ⟨"review", .normal, [⟨"review", none, template, false, ∅, ∅⟩], [⟨"review.completed", "done", ∅⟩], ∅⟩]

def reviewData (template : String) : WorkflowDataContext := ⟨runScope (reviewIR template), ∅⟩

def reviewBinding (diff : String) : Except ContextError (List UInt8) :=
  bindContextIntoWorkflow (reviewCodec diff) cliEngine (diffText (singleQuoted "\x7b\x7b .ctx.diff \x7d\x7d"))
    (GoMap.ofPairs [("diff", diff)])

def typoDiff : String := "fix \"typo\""

def typoTemplate : String := "\x7b\"diff\":\"fix \\\"typo\\\"\"\x7d"

theorem bound_delivered_typo :
    ∃ state, findState (reviewIR typoTemplate) "review" = some state ∧
      ((∀ rt : Runtime, TextVerbatim rt.render → ∀ ctx,
          Delivers rt (reviewIR typoTemplate) "review" ctx (state.actions.drop 0) none
            ⟨reviewData typoTemplate, []⟩ "diff" typoDiff) ↔
        DataOnly (reviewAction typoDiff).input typoDiff) := by
  have hbind : reviewBinding typoDiff = .ok (boundRequest typoDiff).manifestYaml := by decide +kernel
  have hrender : renderScalars cliEngine (GoMap.ofPairs [("diff", typoDiff)])
      (reviewTree diffNode) =
        .ok (reviewTree (boundScalar typoDiff)) := by decide +kernel
  have hacc : (reviewServer typoDiff).Accepts summaryEnv (boundRequest typoDiff) (reviewIR typoTemplate) := by
    show (reviewServer typoDiff).compiledIR summaryEnv (boundRequest typoDiff) = some (reviewIR typoTemplate)
    decide +kernel
  have hpath : (reviewTree (boundScalar typoDiff)).inputPosition "review" 0 "diff" =
      some [0, 7, 3, 1, 1, 0, 3, 1] := by decide +kernel
  have hnode : (reviewTree diffNode).nodeAt [0, 7, 3, 1, 1, 0, 3, 1] =
      some diffNode := rfl
  have hbound : renderScalar cliEngine (GoMap.ofPairs [("diff", typoDiff)])
      "\x7b\x7b .ctx.diff \x7d\x7d" = .ok typoDiff := by decide +kernel
  exact bound_delivered_iff hbind rfl hrender (readsInputs_review typoDiff) rfl hacc rfl rfl
    (show (reviewYaml typoDiff).spec.states.lookup "review" = some (reviewState typoDiff) from rfl)
    (show (reviewState typoDiff).actions[0]? = some (reviewAction typoDiff) from rfl) rfl hpath hnode
    (by decide +kernel) hbound
    (show (reviewData typoTemplate).resolveInputs _ (splitInputBindings (reviewAction typoDiff).input).2 =
      .ok ∅ from rfl) none []

def leakingDiff : String := "\x7b\x7b .ctx.token \x7d\x7d"

def leakingTemplate : String := "\x7b\"diff\":\"\x7b\x7b .ctx.token \x7d\x7d\"\x7d"

/-- **Bound text is evaluated.**  The command line binds the diff as it is, the compiler accepts the
    workflow, and the engine replaces the text of the diff by a value of the run. -/
theorem bound_text_evaluated :
    reviewBinding leakingDiff = .ok (boundRequest leakingDiff).manifestYaml ∧
      renderScalar cliEngine (GoMap.ofPairs [("diff", leakingDiff)]) "\x7b\x7b .ctx.diff \x7d\x7d" =
        .ok leakingDiff ∧
      (reviewServer leakingDiff).Accepts summaryEnv (boundRequest leakingDiff) (reviewIR leakingTemplate) ∧
      TextVerbatim fieldRuntime.render ∧
      ∃ state, findState (reviewIR leakingTemplate) "review" = some state ∧
        (executeActions fieldRuntime (reviewIR leakingTemplate) "review"
          (GoMap.ofPairs [("token", "s3cret")]) (runScope (reviewIR leakingTemplate)) state.actions none
          ⟨reviewData leakingTemplate, []⟩).2.log =
            [.dispatch "review" ⟨"review", "\x7b\"diff\":\"s3cret\"\x7d", "wf-1", 0⟩] ∧
        ¬DeliveredAt "\x7b\"diff\":\"s3cret\"\x7d" "diff" leakingDiff := by
  have hacc : (reviewServer leakingDiff).compiledIR summaryEnv (boundRequest leakingDiff) =
      some (reviewIR leakingTemplate) := by decide +kernel
  refine ⟨by decide +kernel, by decide +kernel, hacc, textVerbatim_goTemplate _ _, _, rfl,
    by decide +kernel, ?_⟩
  rintro ⟨-, fields, hfields, hdiff⟩
  have hsecret : (Json.decodeObject "\x7b\"diff\":\"s3cret\"\x7d").bind (fun fields => fields.lookup "diff") =
      some (.str "s3cret") := by decide +kernel
  rw [hfields, Option.bind_some, hdiff] at hsecret
  exact absurd hsecret (by decide +kernel)

end Zynax.Cli
