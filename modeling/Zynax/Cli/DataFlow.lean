import Zynax.Compiler.Graph

namespace Zynax.Cli.DataFlow

open Golang Compiler

/-!
# The data-flow check of the command line

`DataFlowBytes` checks the state references of a manifest before it is sent to the compiler.  It reads
the bytes into a type of its own, and walks the states in the order of their names.
-/

/-! ### The types of the check -/

structure DocTransition where
  goto : String

structure DocState where
  on : List DocTransition

structure DocSpec where
  initialState : String
  states : GoMap DocState

structure Doc where
  kind : String
  spec : DocSpec

/-- What `DataFlowBytes` uses of `yaml.v3`: decoding the bytes into its own type. -/
abbrev DocReader : Type := List UInt8 → Except String Doc

/-! ### The check -/

structure ValidationError where
  file : String
  path : Formatted
  message : Formatted
  deriving DecidableEq, Repr

def kindWorkflow : String := "Workflow"

def initialErrors (filePath : String) (spec : DocSpec) : List ValidationError :=
  if spec.initialState ≠ "" ∧ spec.states.lookup spec.initialState = none then
    [{ file := filePath
       path := .text "/spec/initial_state"
       message := ⟨"initial_state %q is not a defined state", [.str spec.initialState]⟩ }]
  else []

def gotoError (filePath : String) (states : GoMap DocState) (name : String) (i : Nat)
    (tr : DocTransition) : Option ValidationError :=
  if tr.goto = "" then none
  else if (states.lookup tr.goto).isSome then none
  else some
    { file := filePath
      path := ⟨"/spec/states/%s/on/%d/goto", [.str name, .int i]⟩
      message := ⟨"transition target %q is not a defined state", [.str tr.goto]⟩ }

def gotoErrors (filePath : String) (states : GoMap DocState) : List ValidationError :=
  states.sortedEntries.flatMap fun p =>
    (p.2.on.mapIdx (gotoError filePath states p.1)).filterMap id

/-- `DataFlowBytes`: the check of the command line. -/
def dataFlowBytes (read : DocReader) (filePath : String) (raw : List UInt8) : List ValidationError :=
  match read raw with
  | .error _ => []
  | .ok d =>
    if d.kind ≠ kindWorkflow then []
    else initialErrors filePath d.spec ++ gotoErrors filePath d.spec.states

/-! ### What the check reads -/

def docOfTransition (yt : YamlTransition) : DocTransition := ⟨yt.goto⟩

def docOfState (ys : YamlState) : DocState := ⟨ys.on.map docOfTransition⟩

def docOfSpec (spec : YamlSpec) : DocSpec :=
  ⟨spec.initialState, spec.states.mapVal fun _ => docOfState⟩

def docOf (raw : YamlManifest) : Doc := ⟨raw.kind, docOfSpec raw.spec⟩

/-- Where the same text decodes into the types of both programs, the fields that both have hold the same. -/
def SharedFields (yaml : Yaml) (read : DocReader) : Prop :=
  ∀ data root raw d, yaml.unmarshal data = .ok (some root) → yaml.decode root = .ok raw → read data = .ok d →
    d = docOf raw

/-! ### Unknown references -/

def unknownNames (initial : String) (targets : GoMap (List String)) : List String :=
  (initial :: targets.sortedEntries.flatMap Prod.snd).filter fun name =>
    (targets.lookup name).isNone

theorem unknownNames_congr {initial : String} {targets targets' : GoMap (List String)}
    (h : ∀ name, targets.lookup name = targets'.lookup name) :
    unknownNames initial targets = unknownNames initial targets' := by
  simp only [unknownNames, GoMap.sortedEntries_congr h, h]

theorem length_filterMap_mapIdx {α β : Type} {f : Nat → α → Option β} {p : α → Bool} {l : List α}
    (h : ∀ i, ∀ a ∈ l, (f i a).isSome = p a) :
    ((l.mapIdx f).filterMap id).length = (l.filter p).length := by
  induction l generalizing f with
  | nil => rfl
  | cons a l ih =>
    grind

def gotosOf (states : GoMap DocState) : GoMap (List String) :=
  states.mapVal fun _ st => st.on.map DocTransition.goto

theorem length_docErrors {filePath : String} {spec : DocSpec} (hinitial : spec.initialState ≠ "")
    (hgoto : ∀ name st, spec.states.lookup name = some st → ∀ tr ∈ st.on, tr.goto ≠ "") :
    (initialErrors filePath spec ++ gotoErrors filePath spec.states).length =
      (unknownNames spec.initialState (gotosOf spec.states)).length := by
  have hunknown : ∀ name, ((gotosOf spec.states).lookup name).isNone = (spec.states.lookup name).isNone := by
    intro name
    rw [gotosOf, GoMap.lookup_mapVal, Option.isNone_map]
  have hloop : ∀ p ∈ spec.states.sortedEntries,
      ((p.2.on.mapIdx (gotoError filePath spec.states p.1)).filterMap id).length =
        ((p.2.on.map DocTransition.goto).filter fun name => (spec.states.lookup name).isNone).length := by
    intro p hp
    rw [List.filter_map, List.length_map]
    apply length_filterMap_mapIdx
    intro i tr htr
    have hne := hgoto p.1 p.2 (GoMap.mem_sortedEntries_iff.mp hp) tr htr
    rw [gotoError, if_neg hne, Function.comp_apply]
    cases spec.states.lookup tr.goto <;> rfl
  have hgotos : (gotoErrors filePath spec.states).length =
      (((gotosOf spec.states).sortedEntries.flatMap Prod.snd).filter fun name =>
        (spec.states.lookup name).isNone).length := by
    rw [gotosOf, GoMap.sortedEntries_mapVal, List.flatMap_map, List.filter_flatMap, gotoErrors,
      List.length_flatMap, List.length_flatMap, List.map_congr_left hloop]
  simp only [unknownNames, hunknown]
  rw [List.length_append, hgotos, List.filter_cons, initialErrors]
  cases hfound : spec.states.lookup spec.initialState with
  | none =>
    grind
  | some st => simp

/-! ### The compiler's errors -/

variable {e : ParseError} {m : Manifest}

def buildErrors (m : Manifest) : List ParseError :=
  match build m with
  | .ok _ => []
  | .error errs => errs

def unknownReferences (m : Manifest) : List ParseError :=
  (buildErrors m).filter fun e => e.code = .unknownStateReference

theorem resolveRef_code {declared : GoMap (List String)} {msgs : RefMessages} {state ref : String}
    {line : Int} (h : resolveRef declared msgs state line ref = some e) :
    e.code = .invalidFieldValue := by
  unfold resolveRef at h
  split at h
  · rw [← Option.some.inj h]
    rfl
  · split at h
    · rw [← Option.some.inj h]
      rfl
    · split_ifs at h
      rw [← Option.some.inj h]
      rfl

theorem validateInputBindings_code {states : GoMap State} (h : e ∈ validateInputBindings states) :
    e.code = .invalidFieldValue := by
  obtain ⟨entry, -, he⟩ := List.mem_flatMap.mp h
  obtain ⟨errs, herrs, he⟩ := List.mem_flatten.mp he
  obtain ⟨i, a, -, rfl⟩ := List.mem_mapIdx.mp herrs
  obtain ⟨b, -, hb⟩ := List.mem_filterMap.mp he
  exact resolveRef_code hb

theorem validateWorkflowOutputs_code {states : GoMap State}
    (h : e ∈ validateWorkflowOutputs states) : e.code = .invalidFieldValue := by
  obtain ⟨entry, -, he⟩ := List.mem_flatMap.mp h
  split_ifs at he
  · cases he
  · rw [List.mem_singleton.mp he]
    rfl
  · obtain ⟨o, -, ho⟩ := List.mem_filterMap.mp he
    split_ifs at ho
    exact resolveRef_code ho

theorem initialStateErrors_code (he : e ∈ initialStateErrors m) :
    e.code = .unknownStateReference := by
  unfold initialStateErrors at he
  grind

theorem unknownTargetErrors_code (he : e ∈ unknownTargetErrors m) :
    e.code = .unknownStateReference := by
  obtain ⟨entry, -, he⟩ := List.mem_flatMap.mp he
  obtain ⟨t, -, ht⟩ := List.mem_filterMap.mp he
  split_ifs at ht
  rw [← Option.some.inj ht]
  rfl

theorem noTerminalErrors_code (he : e ∈ noTerminalErrors m) :
    e.code = .noTerminalState := by
  unfold noTerminalErrors at he
  grind

theorem orphanErrors_code (he : e ∈ orphanErrors m) :
    e.code = .orphanState := by
  obtain ⟨entry, -, he⟩ := List.mem_filterMap.mp he
  split_ifs at he
  rw [← Option.some.inj he]
  rfl

theorem filter_code {errs : List ParseError} {code : CompilationErrorCode}
    (h : ∀ e ∈ errs, e.code = code) (wanted : CompilationErrorCode) :
    errs.filter (fun e => e.code = wanted) = if code = wanted then errs else [] := by
  split_ifs with heq
  · exact List.filter_eq_self.mpr fun e he => decide_eq_true ((h e he).trans heq)
  · exact List.filter_eq_nil_iff.mpr fun e he hw => heq ((h e he).symm.trans (of_decide_eq_true hw))

theorem buildErrors_eq (m : Manifest) :
    buildErrors m = initialStateErrors m ++ unknownTargetErrors m ++ noTerminalErrors m ++
      orphanErrors m ++ validateInputBindings m.states ++ validateWorkflowOutputs m.states := by
  unfold buildErrors build checked
  grind

theorem unknownReferences_eq (m : Manifest) :
    unknownReferences m = initialStateErrors m ++ unknownTargetErrors m := by
  rw [unknownReferences, buildErrors_eq]
  simp only [List.filter_append]
  rw [filter_code fun _ => initialStateErrors_code, filter_code fun _ => unknownTargetErrors_code,
    filter_code fun _ => noTerminalErrors_code, filter_code fun _ => orphanErrors_code,
    filter_code fun _ => validateInputBindings_code, filter_code fun _ => validateWorkflowOutputs_code]
  simp

def targetsOf (states : GoMap State) : GoMap (List String) :=
  states.mapVal fun _ st => st.transitions.map Transition.targetState

theorem length_unknownReferences (m : Manifest) :
    (unknownReferences m).length = (unknownNames m.initialState (targetsOf m.states)).length := by
  have hunknown : ∀ name, ((targetsOf m.states).lookup name).isNone = (m.states.lookup name).isNone := by
    intro name
    rw [targetsOf, GoMap.lookup_mapVal, Option.isNone_map]
  have hloop : ∀ st : State, (st.transitions.filterMap fun t =>
        if (m.states.lookup t.targetState).isSome then none else some t.targetState) =
      (st.transitions.map Transition.targetState).filter fun name => (m.states.lookup name).isNone := by
    intro st
    induction st.transitions with
    | nil => rfl
    | cons t ts ih =>
      rw [List.map_cons, List.filter_cons, ← ih, List.filterMap_cons]
      cases m.states.lookup t.targetState <;> rfl
  have htargets : (unknownTargetErrors m).map ParseError.stateName =
      m.states.pairs.flatMap fun p =>
        (p.2.transitions.map Transition.targetState).filter fun name => (m.states.lookup name).isNone := by
    rw [unknownTargetErrors, List.map_flatMap, GoMap.pairs, List.flatMap_map]
    congr 1
    funext e
    rw [← hloop, List.map_filterMap]
    congr 1
    funext t
    cases m.states.lookup t.targetState <;> rfl
  have hlength : (unknownTargetErrors m).length =
      (((targetsOf m.states).sortedEntries.flatMap Prod.snd).filter fun name =>
        (m.states.lookup name).isNone).length := by
    have hperm : m.states.sortedEntries.Perm m.states.pairs := List.perm_insertionSort _ _
    rw [targetsOf, GoMap.sortedEntries_mapVal, List.flatMap_map, List.filter_flatMap,
      (hperm.flatMap_right _).length_eq, ← List.length_map ParseError.stateName, htargets]
  simp only [unknownNames, hunknown]
  rw [unknownReferences_eq, List.length_append, hlength, List.filter_cons, initialStateErrors]
  cases m.states.lookup m.initialState with
  | none =>
    simp
    omega
  | some st => simp

/-! ### The two checks agree -/

variable {raw : YamlManifest}

theorem lookup_targetsOf {lines : GoMap Int} (h : convertManifest raw lines = .ok m) (name : String) :
    (targetsOf m.states).lookup name = (gotosOf (docOf raw).spec.states).lookup name := by
  obtain ⟨-, -, -, -, hto, hfrom⟩ := convertManifest_eq_ok h
  have hgotos : (gotosOf (docOf raw).spec.states).lookup name =
      (raw.spec.states.lookup name).map fun ys => ys.on.map YamlTransition.goto := by
    show ((raw.spec.states.mapVal fun _ => docOfState).mapVal fun _ st =>
      st.on.map DocTransition.goto).lookup name = _
    rw [GoMap.lookup_mapVal, GoMap.lookup_mapVal, Option.map_map]
    congr 1
    funext ys
    show (ys.on.map docOfTransition).map DocTransition.goto = _
    rw [List.map_map]
    rfl
  rw [hgotos, targetsOf, GoMap.lookup_mapVal]
  cases hys : raw.spec.states.lookup name with
  | some ys =>
    obtain ⟨st, hst, hconv⟩ := hto name ys hys
    obtain ⟨-, -, -, htransitions, -⟩ := convertState_eq_ok hconv
    rw [hst, Option.map_some, Option.map_some, htransitions, List.map_map]
    rfl
  | none =>
    cases hst : m.states.lookup name with
    | none => rfl
    | some st =>
      grind

theorem goto_ne_empty {lines : GoMap Int} (h : convertManifest raw lines = .ok m) {name : String}
    {st : DocState} (hst : (docOf raw).spec.states.lookup name = some st) :
    ∀ tr ∈ st.on, tr.goto ≠ "" := by
  obtain ⟨-, -, -, -, hto, -⟩ := convertManifest_eq_ok h
  have hlookup : (raw.spec.states.lookup name).map docOfState = some st := by
    rw [← hst]
    exact (GoMap.lookup_mapVal (fun _ => docOfState) raw.spec.states name).symm
  obtain ⟨ys, hys, rfl⟩ := Option.map_eq_some_iff.mp hlookup
  obtain ⟨_, -, hstate⟩ := hto name ys hys
  obtain ⟨-, -, -, -, -, -, hon⟩ := convertState_eq_ok hstate
  intro tr htr
  obtain ⟨yt, hyt, rfl⟩ := List.mem_map.mp htr
  exact (hon yt hyt).2

theorem topLevel_fields (h : topLevelErrors raw = []) :
    raw.kind = kindWorkflow ∧ raw.spec.initialState ≠ "" := by
  simp only [topLevelErrors, List.append_eq_nil_iff] at h
  obtain ⟨⟨⟨hkind, -⟩, hinitial⟩, -⟩ := h
  refine ⟨?_, ?_⟩
  · show raw.kind = "Workflow"
    grind
  · grind

/-- **The check of the command line agrees with the compiler.**  For every text that the compiler parses and
    the check decodes as well, the check reports nothing exactly when building the graph meets no unknown
    state, and it reports as many violations as there are unknown references. -/
theorem dataFlowBytes_agrees {yaml : Yaml} {read : DocReader} (hshared : SharedFields yaml read)
    (filePath : String) {data : List UInt8} {m : Manifest} {d : Doc} (h : parseManifest yaml data = .ok m)
    (hread : read data = .ok d) :
    (dataFlowBytes read filePath data = [] ↔ ∀ e ∈ buildErrors m, e.code ≠ .unknownStateReference) ∧
      (dataFlowBytes read filePath data).length = (unknownReferences m).length := by
  obtain ⟨root, raw, hroot, hraw, htop, hconv⟩ := parseManifest_eq_ok h
  obtain ⟨hkind, hinitial⟩ := topLevel_fields htop
  obtain rfl := hshared data root raw d hroot hraw hread
  have hinit : m.initialState = raw.spec.initialState := (convertManifest_eq_ok hconv).1
  have hlength : (dataFlowBytes read filePath data).length = (unknownReferences m).length := by
    have hcheck : dataFlowBytes read filePath data =
        initialErrors filePath (docOf raw).spec ++ gotoErrors filePath (docOf raw).spec.states := by
      rw [dataFlowBytes, hread]
      exact if_neg (not_not.mpr hkind)
    rw [hcheck, length_docErrors hinitial fun name st => goto_ne_empty hconv,
      length_unknownReferences, hinit, unknownNames_congr (lookup_targetsOf hconv)]
    rfl
  refine ⟨?_, hlength⟩
  rw [← List.length_eq_zero_iff, hlength, List.length_eq_zero_iff, unknownReferences,
    List.filter_eq_nil_iff]
  simp

def danglingYaml (on : List YamlTransition) (annotations : GoMap String) : YamlManifest where
  kind := "Workflow"
  apiVersion := "zynax.io/v1"
  metadata := { name := "review", annotations := annotations }
  spec :=
    { initialState := "draft"
      states := GoMap.ofPairs [("draft", { on := on }), ("archived", { type := "terminal" })] }

theorem parse_danglingYaml {on : List YamlTransition} (hon : ∀ yt ∈ on, yt.event ≠ "" ∧ yt.goto ≠ "")
    (annotations : GoMap String) (data : List UInt8) :
    ∃ m lines, parseManifest (fixedYaml (danglingYaml on annotations)) data = .ok m ∧
      convertManifest (danglingYaml on annotations) lines = .ok m := by
  have hparse : parseManifest (fixedYaml (danglingYaml on annotations)) data =
      convertManifest (danglingYaml on annotations) ∅ := by
    have htop : (topLevelErrors (danglingYaml on annotations)).isEmpty = true := rfl
    simp only [parseManifest, fixedYaml, htop, if_true]
    rfl
  suffices h : ∃ m, convertManifest (danglingYaml on annotations) ∅ = .ok m from
    h.elim fun m hm => ⟨m, ∅, hparse.trans hm, hm⟩
  refine ⟨_, checked_eq_ok.mpr ⟨?_, rfl⟩⟩
  rw [List.flatMap_eq_nil_iff, GoMap.forall_mem_entries_iff]
  intro name r hr
  rw [GoMap.lookup_mapVal] at hr
  obtain ⟨ys, hys, rfl⟩ := Option.map_eq_some_iff.mp hr
  obtain ⟨st, hst⟩ : ∃ st, convertState name ys ((∅ : GoMap Int).getD name 0) = .ok st := by
    refine ⟨_, checked_eq_ok.mpr ⟨?_, rfl⟩⟩
    rcases List.mem_pair.mp ((GoMap.lookup_ofPairs (by simp)).mp hys) with hpair | hpair
    · obtain ⟨rfl, rfl⟩ := Prod.mk.inj hpair
      refine List.append_eq_nil_iff.mpr ⟨List.append_eq_nil_iff.mpr ⟨rfl, ?_⟩, rfl⟩
      refine List.flatMap_eq_nil_iff.mpr fun r hr => ?_
      obtain ⟨i, hi, rfl⟩ := List.mem_mapIdx.mp hr
      obtain ⟨hevent, hgoto⟩ := hon _ (List.getElem_mem hi)
      simp [convertTransition, hevent, hgoto]
    · obtain ⟨rfl, rfl⟩ := Prod.mk.inj hpair
      rfl
  simp only [hst]

def dangling : YamlManifest := danglingYaml [{ event := "done", goto := "published" }] ∅

def danglingText : List UInt8 := manifestText "review" "draft"
  ("    draft:\n      on:\n      - event: done\n        goto: published\n" ++
    "    archived:\n      type: terminal\n")

theorem dataFlowBytes_agrees_dangling :
    ∃ m, parseManifest (fixedYaml dangling) danglingText = .ok m ∧
      (dataFlowBytes (fun _ => .ok (docOf dangling)) "review.yaml" danglingText).length = 1 ∧
      (unknownReferences m).length = 1 := by
  have hshared : SharedFields (fixedYaml dangling) fun _ => .ok (docOf dangling) := by
    intro data root raw d _ hraw hd
    rw [← Except.ok.inj hd, ← Except.ok.inj hraw]
  have hone : (dataFlowBytes (fun _ => .ok (docOf dangling)) "review.yaml" danglingText).length = 1 := by
    decide +kernel
  obtain ⟨m, hparse⟩ : ∃ m, parseManifest (fixedYaml dangling) danglingText = .ok m := ⟨_, rfl⟩
  have hagree := (dataFlowBytes_agrees hshared "review.yaml" hparse rfl).2
  exact ⟨m, hparse, hone, hagree ▸ hone⟩

/-! ### A document that only one of the two decodes -/

def aliasedOn : List YamlTransition := List.replicate 600 { event := "e", goto := "nowhere" }

def aliased : YamlManifest :=
  danglingYaml aliasedOn (GoMap.ofPairs ((List.range 50).map fun i => ("a" ++ toString i, "x")))

/-- Six hundred transitions behind an alias: `yaml.v3` refuses a decoding of which more than 99 in 100 steps
    go through aliases.  The annotations, which the check does not read, keep the compiler's below that. -/
def aliasedText : List UInt8 := stringBytes
  ("apiVersion: zynax.io/v1\nkind: Workflow\nmetadata:\n  name: review\n  annotations:\n" ++
    String.join ((List.range 50).map fun i => "    a" ++ toString i ++ ": x\n") ++ "x-on: &on\n" ++
    String.join (List.replicate 600 "- event: e\n  goto: nowhere\n") ++
    "spec:\n  initial_state: draft\n  states:\n    draft:\n      on: *on\n" ++
    "    archived:\n      type: terminal\n")

theorem aliased_unreported :
    ∃ m, parseManifest (fixedYaml aliased) aliasedText = .ok m ∧ (unknownReferences m).length = 600 ∧
      dataFlowBytes (fun _ => .error "yaml: document contains excessive aliasing") "review.yaml" aliasedText =
        [] := by
  have hon : ∀ yt ∈ aliasedOn, yt.event ≠ "" ∧ yt.goto ≠ "" := by
    intro yt hyt
    rw [List.eq_of_mem_replicate hyt]
    decide
  obtain ⟨m, lines, hparse, hconv⟩ : ∃ m lines, parseManifest (fixedYaml aliased) aliasedText = .ok m ∧
    convertManifest aliased lines = .ok m := parse_danglingYaml hon _ aliasedText
  refine ⟨m, hparse, ?_, rfl⟩
  rw [length_unknownReferences, (convertManifest_eq_ok hconv).1, unknownNames_congr (lookup_targetsOf hconv)]
  decide +kernel

end Zynax.Cli.DataFlow
