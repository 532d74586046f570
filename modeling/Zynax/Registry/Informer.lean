import Zynax.Golang.Numbers
import Zynax.Kubernetes.Unstructured
import Zynax.Registry.Index

namespace Zynax.Registry

open Golang Kubernetes

/-!
# From Agent resources to the index

The reconciler of the scheduler index reads the Agent resource that an event is about and brings the
index up to date.

* `observed` — what the reads of a sequence have told about a key.
-/

/-! ### Resources -/

structure FloatConversions where
  parseFloat : String → Float
  toInt : Float → Int

def expertScopeLabel : String := "zynax.io/expert-scope"

def toStrings (v : Option Unstructured) : List String :=
  ((v.bind Unstructured.asSlice).getD []).filterMap Unstructured.asString

def asString (v : Option Unstructured) : String := (v.bind Unstructured.asString).getD ""

def parseCapability (fl : FloatConversions) (item : Unstructured) : Option Capability :=
  match item with
  | .map _ =>
    let nested (name inner : String) : Option Unstructured := (item.member name).bind (·.member inner)
    some
      { id := asString (item.member "id")
        description := asString (item.member "description")
        inputSchema := asString (item.member "inputSchema")
        outputSchema := asString (item.member "outputSchema")
        selectors :=
          { language := toStrings (nested "selectors" "language")
            tags := toStrings (nested "selectors" "tags") }
        cost :=
          match item.member "cost" with
          | some (.map _) =>
            { tokenPrice := fl.parseFloat (asString (nested "cost" "tokenPrice"))
              latencyClass := asString (nested "cost" "latencyClass") }
          | _ => {}
        resources :=
          match item.member "resources" with
          -- the quantity is a text, and one that is no number counts as zero
          | some (.map _) => { gpu := fl.toInt (fl.parseFloat (asString (nested "resources" "gpu"))) }
          | _ => {}
        models := toStrings (item.member "models")
        protocols := toStrings (item.member "protocols") }
  | _ => none

def parseCapabilities (fl : FloatConversions) (u : Unstructured) : List Capability :=
  (u.nestedSlice ["spec", "capabilities"]).filterMap (parseCapability fl)

/-- An agent resource as the index stores it. -/
def toCandidate (fl : FloatConversions) (key : String) (u : Unstructured) : Candidate :=
  let svc := u.nestedString ["spec", "endpointRef", "serviceName"]
  let port := u.nestedInt64 ["spec", "endpointRef", "port"]
  { key := key
    name := u.getName
    endpoint := svc ++ "." ++ u.getNamespace ++ ".svc:" ++ String.ofList (decimalInt port)
    ready := u.nestedBool ["status", "ready"]
    replicas := u.nestedInt64 ["status", "replicas"]
    expertScope := u.label expertScopeLabel
    capabilities := parseCapabilities fl u }

/-! ### Reconciling -/

structure Read where
  name : NamespacedName
  answer : Answer

def Read.key (r : Read) : String := r.name.text

/-- `Reconcile`: the index follows one read. -/
def reconcile (fl : FloatConversions) (idx : Index) (r : Read) : Index × Option Formatted :=
  match r.answer with
  | .found u => (idx.upsert (toCandidate fl r.key u), none)
  | .notFound => (idx.delete r.key, none)
  -- the key is dropped before the error is looked at
  | .failed err => (idx.delete r.key, some ⟨"crd: get agent %s: %w", [.str r.key, .str err]⟩)

def indexAfter (fl : FloatConversions) (reads : List Read) : Index :=
  Transition.run (fun idx r => (reconcile fl idx r).1) {} reads

/-! ### What was observed -/

variable {r : Read}

def Read.conclusive (r : Read) : Bool :=
  match r.answer with
  | .found _ | .notFound => true
  | .failed _ => false

def Read.candidate (fl : FloatConversions) (r : Read) : Option Candidate :=
  match r.answer with
  | .found u => some (toCandidate fl r.key u)
  | .notFound | .failed _ => none

def observed (fl : FloatConversions) (reads : List Read) (key : String) : Option Candidate :=
  (reads.reverse.find? (fun r => r.key == key && r.conclusive)).bind (Read.candidate fl)

structure FollowsReads (fl : FloatConversions) (reads : List Read) : Prop where
  contents : ∀ done, done <+: reads → Represents (indexAfter fl done) (observed fl done)
  unchanged : ∀ done r, done ++ [r] <+: reads → r.conclusive = false →
    (indexAfter fl (done ++ [r])).Same (indexAfter fl done)

def Read.op (fl : FloatConversions) (r : Read) : Op :=
  match r.answer with
  | .found u => .upsert (toCandidate fl r.key u)
  | .notFound | .failed _ => .delete r.key

theorem reconcile_fst (fl : FloatConversions) (idx : Index) (r : Read) :
    (reconcile fl idx r).1 = idx.apply (r.op fl) := by
  unfold reconcile Read.op
  cases r.answer <;> rfl

theorem indexAfter_eq (fl : FloatConversions) (reads : List Read) :
    indexAfter fl reads = Index.after (reads.map (Read.op fl)) := by
  rw [indexAfter, Index.after, Transition.run, Transition.run, List.foldl_map]
  simp only [reconcile_fst]

theorem key_op (fl : FloatConversions) (r : Read) : (r.op fl).key = r.key := by
  unfold Read.op
  cases r.answer <;> rfl

theorem stores_op (fl : FloatConversions) (r : Read) : (r.op fl).stores = r.candidate fl := by
  unfold Read.op Read.candidate
  cases r.answer <;> rfl

theorem candidate_of_inconclusive (fl : FloatConversions) (h : r.conclusive = false) :
    r.candidate fl = none := by
  unfold Read.conclusive at h
  unfold Read.candidate
  grind

theorem represents_indexAfter (fl : FloatConversions) (reads : List Read) :
    Represents (indexAfter fl reads) (surviving (reads.map (Read.op fl))) := by
  rw [indexAfter_eq]
  exact represents_after _

theorem surviving_concat (fl : FloatConversions) (reads : List Read) (r : Read) :
    surviving ((reads ++ [r]).map (Read.op fl)) =
      Function.update (surviving (reads.map (Read.op fl))) r.key (r.candidate fl) := by
  rw [List.map_append, List.map_singleton, surviving_append, key_op, stores_op]

theorem observed_concat_conclusive (fl : FloatConversions) (reads : List Read) (h : r.conclusive = true) :
    observed fl (reads ++ [r]) = Function.update (observed fl reads) r.key (r.candidate fl) := by
  ext key : 1
  rw [observed, List.reverse_append, List.reverse_singleton, List.singleton_append, List.find?_cons, h]
  by_cases hkey : key = r.key
  · grind
  · rw [Function.update_of_ne hkey, show (r.key == key) = false by simpa using Ne.symm hkey]
    rfl

theorem observed_concat_inconclusive (fl : FloatConversions) (reads : List Read)
    (h : r.conclusive = false) : observed fl (reads ++ [r]) = observed fl reads := by
  ext key : 1
  rw [observed, List.reverse_append, List.reverse_singleton, List.singleton_append, List.find?_cons, h,
    Bool.and_false]
  rfl

theorem surviving_eq_observed (fl : FloatConversions) {reads : List Read}
    (h : ∀ done r, done ++ [r] <+: reads → r.conclusive = false → observed fl done r.key = none) :
    surviving (reads.map (Read.op fl)) = observed fl reads := by
  induction reads using List.reverseRecOn with
  | nil => rfl
  | append_singleton reads r ih =>
    have hreads := ih fun done r' hd => h done r' (hd.trans (List.prefix_append _ _))
    rw [surviving_concat, hreads]
    cases hr : r.conclusive with
    | true => rw [observed_concat_conclusive fl reads hr]
    | false =>
      -- the key is dropped, which changes nothing if it was not there
      rw [observed_concat_inconclusive fl reads hr, candidate_of_inconclusive fl hr,
        Function.update_eq_self_iff]
      grind

/-- **The index follows the reads exactly as long as none fails for a stored agent.**  At each step it
    holds what was last observed of every key and failed reads leave it alone, if and only if no read
    fails, other than by `NotFound`, for a key whose last conclusive read found the resource. -/
theorem followsReads_iff (fl : FloatConversions) (reads : List Read) :
    FollowsReads fl reads ↔
      ∀ done r, done ++ [r] <+: reads → r.conclusive = false → observed fl done r.key = none := by
  constructor
  · intro h done r hdone hr
    -- the key is dropped, and the index is as before: the key was not there
    have hbefore := (h.contents done ((List.prefix_append _ _).trans hdone)).agents r.key
    have hafter := (represents_indexAfter fl (done ++ [r])).agents r.key
    rw [surviving_concat, Function.update_self, candidate_of_inconclusive fl hr] at hafter
    rw [← hbefore, ← (h.unchanged done r hdone hr).agents, hafter]
  · intro h
    have hdone : ∀ done, done <+: reads →
        surviving (done.map (Read.op fl)) = observed fl done := fun done hd =>
      surviving_eq_observed fl fun done' r hr => h done' r (hr.trans hd)
    refine ⟨fun done hd => ?_, fun done r hd hr => ?_⟩
    · rw [← hdone done hd]
      exact represents_indexAfter fl done
    · have hsame : surviving ((done ++ [r]).map (Read.op fl)) = surviving (done.map (Read.op fl)) := by
        rw [hdone _ hd, hdone done ((List.prefix_append _ _).trans hd),
          observed_concat_inconclusive fl done hr]
      exact Represents.same (hsame ▸ represents_indexAfter fl (done ++ [r]))
        (represents_indexAfter fl done)

/-! ### An agent during an outage -/

def reviewerName : NamespacedName := ⟨"default", "reviewer"⟩

def reviewerObject : Unstructured :=
  .map [("metadata", .map [("name", .string "reviewer"), ("namespace", .string "default")]),
    ("spec", .map [("endpointRef", .map [("serviceName", .string "reviewer"), ("port", .int64 50051)]),
      ("capabilities", .slice [.map [("id", .string "review")]])]),
    ("status", .map [("ready", .bool true), ("replicas", .int64 1)])]

def noFloats : FloatConversions := ⟨fun _ => 0, fun _ => 0⟩

/-- **A failed read drops the agent.**  The resource was read once and still exists; after a read
    that times out, nobody declares its capability any more. -/
theorem failed_read_drops_agent :
    ((indexAfter noFloats [⟨reviewerName, .found reviewerObject⟩]).candidates "review").map
        Candidate.key = ["default/reviewer"] ∧
      ((indexAfter noFloats [⟨reviewerName, .found reviewerObject⟩,
        ⟨reviewerName, .failed "timed out"⟩]).candidates "review").map Candidate.key = [] ∧
      ¬FollowsReads noFloats [⟨reviewerName, .found reviewerObject⟩,
        ⟨reviewerName, .failed "timed out"⟩] := by
  refine ⟨by decide +kernel, by decide +kernel, fun h => ?_⟩
  have hnone := (h.contents _ List.prefix_rfl).agents "default/reviewer"
  revert hnone
  show ¬(none = some (toCandidate noFloats "default/reviewer" reviewerObject))
  simp

end Zynax.Registry
