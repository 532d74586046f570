import Zynax.Compiler.Completion
import Zynax.Engine.Contexts

namespace Zynax.Engine

open Golang Compiler

/-!
# Set mutations

A transition of a manifest may have a `set` map, which is to be written into the context when the
transition is taken.  The compiler checks that its values are strings, and leaves it out of the
compiled transition.

* `expectedContext` — the context that the manifest asks for after some transitions.
-/

def manifestTransition (raw : YamlManifest) (f : Firing) : Option YamlTransition :=
  (raw.spec.states.lookup f.stateID).bind (fun ys => ys.on[f.index]?)

def mutations (yt : YamlTransition) : GoMap String := yt.set.filterMapVal (fun _ v => v.asString)

def expectedNext (raw : YamlManifest) (ctx : GoMap String) (f : Firing) : GoMap String :=
  match manifestTransition raw f with
  | none => mergePayload ctx f.result.payload
  | some yt => mutations yt ∪ mergePayload ctx f.result.payload

def expectedContext (raw : YamlManifest) (fs : List Firing) : GoMap String :=
  fs.foldl (expectedNext raw) ∅

def SetsApply (raw : YamlManifest) (rt : Runtime) (ir : WorkflowIR) (fs : List Firing) : Prop :=
  ∀ st₁ fs₁, History rt ir st₁ fs₁ → fs₁ <+: fs →
    ∀ k, st₁.ctx.lookup k = (expectedContext raw fs₁).lookup k

/-! ### The transitions of a manifest -/

theorem getElem?_of_resolveFrom {cel : String → GoMap String → Bool} {eventType : String}
    {ctx : GoMap String} {i j : Nat} {ts : List TransitionIR} {t : TransitionIR}
    (h : resolveFrom cel eventType ctx i ts = some (j, t)) : ∃ n, j = i + n ∧ ts[n]? = some t := by
  induction ts generalizing i with
  | nil => exact absurd h (by simp [resolveFrom])
  | cons u ts ih =>
    have hlater : resolveFrom cel eventType ctx (i + 1) ts = some (j, t) →
        ∃ n, j = i + n ∧ (u :: ts)[n]? = some t := by
      intro h
      obtain ⟨n, rfl, hn⟩ := ih h
      grind
    rw [resolveFrom] at h
    split at h
    · exact hlater h
    · split at h
      · obtain ⟨rfl, rfl⟩ := Prod.mk.inj (Option.some.inj h)
        simp
      · exact hlater h

theorem findState_of_choice {rt : Runtime} {ir : WorkflowIR} {st : RunState} {state : StateIR}
    {result : ActivityResult} {eff : Effects} (h : choice rt ir st = some (state, result, eff)) :
    findState ir st.currentState = some state := by
  rw [choice] at h
  grind

theorem set_strings_of_runAll {g : WorkflowGraph} (h : runAll g = []) {id : String} {st : State}
    (hst : g.states.lookup id = some st) {t : Transition} (ht : t ∈ st.transitions) {k : String}
    {v : Value} (hv : t.set.lookup k = some v) : ∃ s, v = .str s := by
  rw [runAll, List.flatMap_eq_nil_iff] at h
  have hset := h transitionSetValidator (by simp)
  rw [transitionSetValidator, flatMap_entries_eq_nil] at hset
  have hstate := List.flatMap_eq_nil_iff.mp (hset id st hst) t ht
  have hnone := filterMap_entries_eq_nil.mp hstate k v hv
  cases v with
  | str s => exact ⟨s, rfl⟩
  | _ => exact absurd hnone (by simp [Value.asString])

section

variable {s : Server} {env : CallEnv} {req : CompileWorkflowRequest} {ir : WorkflowIR}
  {root : YamlNode} {raw : YamlManifest} {rt : Runtime}

/-- **A transition that a run takes is one of the manifest**, with strings in its `set` map. -/
theorem Fires.manifestTransition {st st' : RunState} {f : Firing} (hf : Fires rt ir st f st')
    (hacc : s.Accepts env req ir) (hroot : s.yaml.unmarshal req.manifestYaml = .ok (some root))
    (hraw : s.yaml.decode root = .ok raw) :
    ∃ yt, manifestTransition raw f = some yt ∧ yt.goto = f.target ∧
      ∀ k v, yt.set.lookup k = some v → ∃ s, v = .str s := by
  obtain ⟨state, eff, t, hchoice, ht, htarget⟩ := hf.takes
  obtain ⟨raw', m, g, hcomp⟩ := compileWorkflow_accepts hacc
  obtain ⟨root', hroot', hraw', -, hconv⟩ := hcomp.decoded
  obtain rfl : root = root' := Option.some.inj (Except.ok.inj (hroot.symm.trans hroot'))
  obtain rfl : raw = raw' := Except.ok.inj (hraw.symm.trans hraw')
  obtain ⟨wid, api, at', now, hir⟩ := hcomp.converted
  -- back from the state of the IR to that of the manifest
  obtain ⟨gst, hgst, hstate⟩ := lookup_of_findState hir (findState_of_choice hchoice)
  obtain ⟨ys, hys, hys'⟩ := (convertManifest_eq_ok hconv).2.2.2.2.2 _ gst (hcomp.states_eq ▸ hgst)
  obtain ⟨n, hn, hget⟩ := getElem?_of_resolveFrom ht
  rw [Nat.zero_add] at hn
  rw [transitions_of_convertState hys' hstate, ← hn, List.getElem?_map] at hget
  obtain ⟨yt, hyt, hytt⟩ := Option.map_eq_some_iff.mp hget
  refine ⟨yt, ?_, ?_, ?_⟩
  · rw [Engine.manifestTransition, hf.leaves, hys]
    exact hyt
  · rw [htarget, ← hytt]
  · intro k v hv
    obtain ⟨-, -, -, htrans, -⟩ := convertState_eq_ok hys'
    refine set_strings_of_runAll hcomp.valid hgst (t := yt.toTransition) ?_ hv
    grind

end

/-! ### Expected and actual contexts -/

theorem lookup_union_or (a b : GoMap String) (k : String) :
    (a ∪ b).lookup k = (a.lookup k).or (b.lookup k) := by
  cases ha : a.lookup k with
  | none => rw [AList.lookup_union_right (AList.lookup_eq_none.mp ha), Option.none_or]
  | some v =>
    rw [AList.lookup_union_left (AList.lookup_isSome.mp (by rw [ha]; rfl)), ha, Option.some_or]

section

variable {rt : Runtime} {ir : WorkflowIR} {raw : YamlManifest}

theorem History.initial {st : RunState} {fs : List Firing} (h : History rt ir st fs)
    {fs₁ : List Firing} (hpre : fs₁ <+: fs) : ∃ st₁, History rt ir st₁ fs₁ := by
  induction h with
  | start =>
    rw [List.prefix_nil.mp hpre]
    exact ⟨_, .start⟩
  | fired h hf ih =>
    rcases List.prefix_concat_iff.mp hpre with rfl | hpre
    · exact ⟨_, h.fired hf⟩
    · exact ih hpre

theorem mergedContext_snoc (fs : List Firing) (f : Firing) :
    mergedContext (fs ++ [f]) = mergePayload (mergedContext fs) f.result.payload := by
  rw [mergedContext, List.foldl_append]
  rfl

theorem lookup_expectedContext_snoc (fs : List Firing) (f : Firing) (k : String) :
    (expectedContext raw (fs ++ [f])).lookup k =
      (((manifestTransition raw f).bind (fun yt => (mutations yt).lookup k)).or
        ((payloadStrings f.result.payload).lookup k)).or ((expectedContext raw fs).lookup k) := by
  rw [expectedContext, List.foldl_append, List.foldl_cons, List.foldl_nil, ← expectedContext,
    expectedNext]
  cases manifestTransition raw f with
  | none => rw [lookup_mergePayload]; rfl
  | some yt => rw [lookup_union_or, lookup_mergePayload, Option.or_assoc]; rfl

def Idle (raw : YamlManifest) (fs : List Firing) (f : Firing) : Prop :=
  ∀ yt, manifestTransition raw f = some yt → ∀ k v, (mutations yt).lookup k = some v →
    (mergedContext (fs ++ [f])).lookup k = some v

theorem expected_snoc_iff {fs : List Firing} {f : Firing}
    (h : ∀ k, (mergedContext fs).lookup k = (expectedContext raw fs).lookup k) :
    (∀ k, (mergedContext (fs ++ [f])).lookup k = (expectedContext raw (fs ++ [f])).lookup k) ↔
      Idle raw fs f := by
  have hexpected : ∀ k, (expectedContext raw (fs ++ [f])).lookup k =
      ((manifestTransition raw f).bind (fun yt => (mutations yt).lookup k)).or
        ((mergedContext (fs ++ [f])).lookup k) := by
    intro k
    rw [lookup_expectedContext_snoc, mergedContext_snoc, lookup_mergePayload, h k, Option.or_assoc]
  constructor
  · intro hall yt hyt k v hv
    grind
  · intro hidle k
    rw [hexpected k]
    cases hyt : manifestTransition raw f with
    | none => rfl
    | some yt =>
      rw [Option.bind_some]
      cases hv : (mutations yt).lookup k with
      | none => rfl
      | some v => rw [hidle yt hyt k v hv, Option.some_or]

end

/-- **When set mutations take effect.**  Each transition that a run takes is one of the manifest, with
    strings in its `set` map; and the run has the context that the manifest asks for at every
    iteration exactly when each of these maps only repeats what the results have put there. -/
theorem setsApply_iff {s : Server} {env : CallEnv} {req : CompileWorkflowRequest} {ir : WorkflowIR}
    {root : YamlNode} {raw : YamlManifest} (hacc : s.Accepts env req ir)
    (hroot : s.yaml.unmarshal req.manifestYaml = .ok (some root)) (hraw : s.yaml.decode root = .ok raw)
    {rt : Runtime} {st : RunState} {fs : List Firing} (hist : History rt ir st fs) :
    (∀ f ∈ fs, ∃ yt, manifestTransition raw f = some yt ∧ yt.goto = f.target ∧
        ∀ k v, yt.set.lookup k = some v → ∃ s, v = .str s) ∧
      (SetsApply raw rt ir fs ↔ ∀ fs₁ f, fs₁ ++ [f] <+: fs → Idle raw fs₁ f) := by
  refine ⟨?_, ?_, ?_⟩
  · induction hist with
    | start => simp
    | fired _ hf ih =>
      rw [List.forall_mem_append, List.forall_mem_singleton]
      exact ⟨ih, hf.manifestTransition hacc hroot hraw⟩
  · intro happly fs₁ f hpre
    -- the run has been at both ends of the transition
    have hctx : ∀ fs₂, fs₂ <+: fs →
        ∀ k, (mergedContext fs₂).lookup k = (expectedContext raw fs₂).lookup k := by
      intro fs₂ hpre₂ k
      obtain ⟨st₂, hist₂⟩ := hist.initial hpre₂
      rw [← hist₂.ctx_eq]
      exact happly st₂ fs₂ hist₂ hpre₂ k
    exact (expected_snoc_iff (hctx fs₁ ((List.prefix_append _ _).trans hpre))).mp (hctx _ hpre)
  · intro hidle st₁ fs₁ hist₁ hpre
    rw [hist₁.ctx_eq]
    clear hist₁
    induction fs₁ using List.reverseRecOn with
    | nil => exact fun _ => rfl
    | append_singleton fs₂ f ih =>
      exact (expected_snoc_iff (ih ((List.prefix_append _ _).trans hpre))).mpr (hidle fs₂ f hpre)

/-! ### An approval that is lost -/

def approveYaml : YamlManifest := workflowYaml "approve" "review"
  [("review",
      { actions := [{ capability := "review" }]
        on := [{ event := "review.completed", goto := "done"
                 set := GoMap.ofPairs [("approved", .str "yes")] }] }),
    ("done", { type := "terminal" })]

def approveText : List UInt8 := manifestText "approve" "review"
  ("    review: \x7bactions: [\x7bcapability: review\x7d],\n" ++
    "      on: [\x7bevent: review.completed, goto: done, set: \x7bapproved: \"yes\"\x7d\x7d]\x7d\n" ++
    "    done: \x7btype: terminal\x7d\n")

def approveRequest : CompileWorkflowRequest := { manifestYaml := approveText }

def approveServer : Server := { yaml := fixedYaml approveYaml }

def approveIR : WorkflowIR := plainIR "approve" "review"
  [⟨"done", .terminal, [], [], ∅⟩,
    ⟨"review", .normal, [⟨"review", none, "", false, ∅, ∅⟩], [⟨"review.completed", "done", ∅⟩], ∅⟩]

theorem accepts_approve : approveServer.Accepts reviewEnv approveRequest approveIR := by
  rfl

def approveFiring (payload : String) : Firing :=
  ⟨"review", ⟨"review.completed", payload⟩, 0, "done"⟩

theorem history_approve (payload : String) :
    ∃ st, History (scoreRuntime payload) approveIR st [approveFiring payload] ∧
      st.ctx = mergePayload ∅ payload := by
  obtain ⟨st, hstep⟩ : ∃ st, step (scoreRuntime payload) approveIR (initRun approveIR) = .next st :=
    ⟨_, rfl⟩
  have hfires : Fires (scoreRuntime payload) approveIR (initRun approveIR) (approveFiring payload)
      st := by
    cases hstep
    exact ⟨rfl, rfl, ⟨_, _, _, rfl, rfl, rfl⟩, rfl, rfl⟩
  exact ⟨st, History.start.fired hfires, hfires.ctx_eq⟩

theorem setsApply_iff_approved :
    SetsApply approveYaml (scoreRuntime "\x7b\"approved\":\"yes\"\x7d") approveIR
      [approveFiring "\x7b\"approved\":\"yes\"\x7d"] := by
  obtain ⟨st, hist, -⟩ := history_approve "\x7b\"approved\":\"yes\"\x7d"
  refine (setsApply_iff accepts_approve
    (show _ = Except.ok (some (YamlNode.mk .document "" 1 [])) from rfl) rfl hist).2.mpr ?_
  intro fs₁ f hpre yt hyt k v hv
  obtain ⟨rfl, rfl⟩ : fs₁ = [] ∧ f = approveFiring "\x7b\"approved\":\"yes\"\x7d" := by
    cases fs₁ with
    | nil => exact ⟨rfl, by simpa using hpre⟩
    | cons g gs =>
      have hle := hpre.length_le
      simp at hle
  obtain rfl := Option.some.inj hyt
  have hentry := GoMap.mem_entries_iff.mpr hv
  cases List.mem_singleton.mp hentry
  decide +kernel

/-- **A mutation is lost.**  The review is accepted and its transition taken; the manifest asks
    for the approval in the context, and the context of the run is empty. -/
theorem approval_lost :
    approveServer.Accepts reviewEnv approveRequest approveIR ∧
      (expectedContext approveYaml [approveFiring ""]).lookup "approved" = some "yes" ∧
      (∃ st, History (scoreRuntime "") approveIR st [approveFiring ""] ∧
        st.ctx.lookup "approved" = none) ∧
      ¬ SetsApply approveYaml (scoreRuntime "") approveIR [approveFiring ""] := by
  have hexpected : (expectedContext approveYaml [approveFiring ""]).lookup "approved" = some "yes" := by
    decide +kernel
  have hmerged : (mergePayload ∅ "").lookup "approved" = none := by decide +kernel
  obtain ⟨st, hist, hctx⟩ := history_approve ""
  refine ⟨accepts_approve, hexpected, ⟨st, hist, by rw [hctx, hmerged]⟩, ?_⟩
  intro happly
  have heq := happly st _ hist (List.prefix_refl _) "approved"
  rw [hctx, hmerged, hexpected] at heq
  exact absurd heq (by simp)

end Zynax.Engine
