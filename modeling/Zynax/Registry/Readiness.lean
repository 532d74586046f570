import Zynax.Golang.Time
import Zynax.Kubernetes.Unstructured
import Zynax.Transition.Runs

namespace Zynax.Registry

open Golang Kubernetes

/-!
# The readiness of an Agent resource

A second reconciler derives the status of an Agent from the endpoints of its Service.
-/

/-! ### Endpoints -/

structure Endpoint where
  ready : Option Bool
  deriving DecidableEq

structure EndpointSlice where
  nameSpace : String
  labels : GoMap String
  endpoints : List Endpoint

def serviceNameLabel : String := "kubernetes.io/service-name"

def slicesOf (slices : List EndpointSlice) (ns svc : String) : List EndpointSlice :=
  slices.filter (fun s => s.nameSpace = ns ∧ s.labels.lookup serviceNameLabel = some svc)

def countServing (slices : List EndpointSlice) : Nat :=
  slices.foldl (fun serving slice =>
    slice.endpoints.foldl (fun serving ep =>
      -- a condition that is unset counts as not ready
      if ep.ready = some true then serving + 1 else serving) serving) 0

/-- The endpoints of the service that serve. -/
def countServingEndpoints (listErr : Option String) (slices : List EndpointSlice) (ns svc : String) :
    Except Formatted Nat :=
  if svc = "" then .ok 0
  else
    match listErr with
    | some err =>
      .error ⟨"crd: list endpointslices for %s/%s: %w", [.str ns, .str svc, .str err]⟩
    | none => .ok (countServing (slicesOf slices ns svc))

def serviceEndpoints (slices : List EndpointSlice) (ns svc : String) : List Endpoint :=
  if svc = "" then [] else (slicesOf slices ns svc).flatMap EndpointSlice.endpoints

def readyCount (slices : List EndpointSlice) (ns svc : String) : Nat :=
  (serviceEndpoints slices ns svc).countP (fun ep => ep.ready = some true)

theorem foldl_count (eps : List Endpoint) (n : Nat) :
    eps.foldl (fun serving ep => if ep.ready = some true then serving + 1 else serving) n =
      n + eps.countP (fun ep => ep.ready = some true) := by
  induction eps generalizing n with
  | nil => rfl
  | cons ep eps ih =>
    grind

theorem countServing_eq (slices : List EndpointSlice) :
    countServing slices =
      (slices.flatMap EndpointSlice.endpoints).countP (fun ep => ep.ready = some true) := by
  suffices hfrom : ∀ n, slices.foldl (fun serving slice =>
      slice.endpoints.foldl (fun serving ep =>
        if ep.ready = some true then serving + 1 else serving) serving) n =
      n + (slices.flatMap EndpointSlice.endpoints).countP (fun ep => ep.ready = some true) by
    rw [countServing, hfrom, Nat.zero_add]
  induction slices with
  | nil => exact fun n => rfl
  | cons slice slices ih =>
    intro n
    rw [List.foldl_cons, foldl_count, ih, List.flatMap_cons, List.countP_append, Nat.add_assoc]

theorem countServingEndpoints_ok {listErr : Option String} {slices : List EndpointSlice}
    {ns svc : String} (h : listErr = none ∨ svc = "") :
    countServingEndpoints listErr slices ns svc = .ok (readyCount slices ns svc) := by
  unfold countServingEndpoints readyCount serviceEndpoints
  by_cases hsvc : svc = ""
  · simp [hsvc]
  · obtain rfl := h.resolve_right hsvc
    rw [if_neg hsvc, if_neg hsvc, countServing_eq]

theorem countServingEndpoints_error (err : String) (slices : List EndpointSlice) (ns : String)
    {svc : String} (hsvc : svc ≠ "") :
    countServingEndpoints (some err) slices ns svc =
      .error ⟨"crd: list endpointslices for %s/%s: %w", [.str ns, .str svc, .str err]⟩ :=
  if_neg hsvc

/-! ### The status -/

def conditionStatus (ready : Bool) : String := if ready then "True" else "False"

def conditionReason (ready : Bool) : String :=
  if ready then "EndpointsServing" else "NoServingEndpoints"

def conditionMessage (quote : String → String) (ready : Bool) (serving : Nat) (svc : String) : String :=
  if ready then String.ofList (decimal serving) ++ " serving endpoint(s) behind Service " ++ quote svc
  else "no serving endpoints behind Service " ++ quote svc

def statusValue (quote : String → String) (svc : String) (ready : Bool) (serving : Nat)
    (generation : Int) (transition : String) : Unstructured :=
  .map
    [("ready", .bool ready),
      ("replicas", .int64 serving),
      ("observedGeneration", .int64 generation),
      ("conditions", .slice [.map
        [("type", .string "Ready"),
          ("status", .string (conditionStatus ready)),
          ("reason", .string (conditionReason ready)),
          ("message", .string (conditionMessage quote ready serving svc)),
          ("lastTransitionTime", .string transition)]])]

def conditionField (status : Unstructured) (name : String) : Option String :=
  ((status.nestedSlice ["conditions"]).head?.bind (·.member name)).bind Unstructured.asString

def transitionTime (u : Unstructured) (condStatus : String) (now : Int) : String :=
  let fresh := String.ofList (formatRFC3339 now)
  match u.nestedSlice ["status", "conditions"] with
  | [] => fresh
  | prev :: _ =>
    let prevStatus := ((prev.member "status").bind Unstructured.asString).getD ""
    let prevTime := ((prev.member "lastTransitionTime").bind Unstructured.asString).getD ""
    -- the time moves only when the condition changes
    if prevStatus = condStatus ∧ prevTime ≠ "" then prevTime else fresh

/-! ### The resource and the cluster -/

abbrev Generation : Type := { n : Int // 1 ≤ n }

structure Agent where
  generation : Generation
  spec : Unstructured
  status : Option Unstructured := none

def Agent.object (name : NamespacedName) (a : Agent) : Unstructured :=
  .map ([("metadata", .map [("name", .string name.name), ("namespace", .string name.nameSpace),
      ("generation", .int64 a.generation)]),
    ("spec", a.spec)] ++ a.status.toList.map (fun status => ("status", status)))

def Agent.serviceName (name : NamespacedName) (a : Agent) : String :=
  (a.object name).nestedString ["spec", "endpointRef", "serviceName"]

structure Cluster where
  agent : Option Agent := none
  slices : List EndpointSlice := []
  writes : List (Int × Unstructured) := []

inductive UpdateOutcome where
  | stored
  | refused (err : String)
  | unconfirmed (err : String)
  deriving DecidableEq

structure Circumstances where
  now : Int
  getErr : Option String := none
  listErr : Option String := none
  update : UpdateOutcome := .stored

section

variable (quote : String → String) (name : NamespacedName)

def Cluster.store (c : Cluster) (a : Agent) (status : Unstructured) (now : Int) : Cluster :=
  { c with agent := some { a with status := some status }, writes := (now, status) :: c.writes }

def writeStatus (w : Circumstances) (c : Cluster) (a : Agent) (svc : String) (ready : Bool) (serving : Nat) :
    Cluster × Option Formatted :=
  let u := a.object name
  let status := statusValue quote svc ready serving u.getGeneration
    (transitionTime u (conditionStatus ready) w.now)
  match w.update with
  | .stored => (c.store a status w.now, none)
  | .refused err => (c, some ⟨"crd: update agent status: %w", [.str err]⟩)
  -- the status is stored, and the reconcile is repeated for the lost answer
  | .unconfirmed err => (c.store a status w.now, some ⟨"crd: update agent status: %w", [.str err]⟩)

/-- `Reconcile`: counts endpoints and writes the status. -/
def readinessReconcile (w : Circumstances) (c : Cluster) : Cluster × Option Formatted :=
  match w.getErr with
  | some err => (c, some ⟨"crd: get agent %s: %w", [.str name.text, .str err]⟩)
  | none =>
    match c.agent with
    -- `NotFound` is ignored
    | none => (c, none)
    | some a =>
      let u := a.object name
      let svc := u.nestedString ["spec", "endpointRef", "serviceName"]
      match countServingEndpoints w.listErr c.slices name.nameSpace svc with
      | .error err => (c, some err)
      | .ok serving =>
        let ready := decide (0 < serving)
        -- no write for a status that would stay the same
        if u.nestedBool ["status", "ready"] = ready ∧ u.nestedInt64 ["status", "replicas"] = serving ∧
            u.nestedInt64 ["status", "observedGeneration"] = u.getGeneration then (c, none)
        else writeStatus quote name w c a svc ready serving

inductive ClusterEvent where
  /-- the resource is created or its spec is changed -/
  | apply (generation : Generation) (spec : Unstructured)
  | remove
  | endpoints (slices : List EndpointSlice)
  | reconcile (w : Circumstances)

def Cluster.step (c : Cluster) : ClusterEvent → Cluster
  | .apply generation spec =>
    match c.agent with
    | none => { c with agent := some { generation, spec }, writes := [] }
    | some a => { c with agent := some { a with generation, spec } }
  | .remove => { c with agent := none, writes := [] }
  | .endpoints slices => { c with slices }
  | .reconcile w => (readinessReconcile quote name w c).1

def Cluster.after (events : List ClusterEvent) : Cluster :=
  Transition.run (Cluster.step quote name) {} events

end

/-! ### What is to hold -/

def lastChange {α : Type} [DecidableEq α] : List (Int × α) → Option Int
  | [] => none
  | [w] => some w.1
  | w :: w' :: rest => if w.2 = w'.2 then lastChange (w' :: rest) else some w.1

def conditionHistory (writes : List (Int × Unstructured)) : List (Int × Option String) :=
  writes.map (fun w => (w.1, conditionField w.2 "status"))

structure Agent.Reports (name : NamespacedName) (a : Agent) (slices : List EndpointSlice) : Prop where
  ready : ∃ b, (a.object name).field ["status", "ready"] = some (.bool b) ∧
    (b = true ↔ ∃ ep ∈ serviceEndpoints slices name.nameSpace (a.serviceName name),
      ep.ready = some true)
  replicas : (a.object name).field ["status", "replicas"] =
    some (.int64 (readyCount slices name.nameSpace (a.serviceName name)))
  generation : (a.object name).field ["status", "observedGeneration"] =
    some (.int64 a.generation)

def Agent.lastTransitionTime (a : Agent) : Option String :=
  a.status.bind (fun status => conditionField status "lastTransitionTime")

/-! ### Reading a status back -/

variable {quote : String → String} {name : NamespacedName} {svc : String} {a : Agent}

theorem field_status (a : Agent) (path : List String) :
    (a.object name).field ("status" :: path) = a.status.bind (fun status => status.field path) := by
  obtain ⟨generation, spec, status⟩ := a
  cases status <;> rfl

theorem getGeneration_object (a : Agent) : (a.object name).getGeneration = a.generation := rfl

theorem conditionField_statusValue (quote : String → String) (svc : String) (ready : Bool)
    (serving : Nat) (generation : Int) (transition : String) :
    conditionField (statusValue quote svc ready serving generation transition) "status" =
        some (conditionStatus ready) ∧
      conditionField (statusValue quote svc ready serving generation transition) "lastTransitionTime" =
        some transition := by
  constructor <;> rfl

theorem conditionStatus_inj {b b' : Bool} : conditionStatus b = conditionStatus b' ↔ b = b' := by
  cases b <;> cases b' <;> decide

theorem readyCount_pos_iff {slices : List EndpointSlice} {ns : String} :
    0 < readyCount slices ns svc ↔ ∃ ep ∈ serviceEndpoints slices ns svc, ep.ready = some true := by
  rw [readyCount, List.countP_pos_iff]
  simp

theorem transitionTime_of_status {b : Bool} {serving : Nat}
    {generation t : Int}
    (h : a.status = some (statusValue quote svc b serving generation (String.ofList (formatRFC3339 t))))
    (ready : Bool) (now : Int) :
    transitionTime (a.object name) (conditionStatus ready) now =
      String.ofList (formatRFC3339 (if ready = b then t else now)) := by
  -- a time that was written is not empty, so it is taken for one
  have hne : String.ofList (formatRFC3339 t) ≠ "" := by
    intro hempty
    exact formatRFC3339_ne_nil t (by simpa using congrArg String.toList hempty)
  have hconds : (a.object name).nestedSlice ["status", "conditions"] =
      (statusValue quote svc b serving generation (String.ofList (formatRFC3339 t))).nestedSlice
        ["conditions"] := by
    rw [Unstructured.nestedSlice, field_status, h]
    rfl
  rw [transitionTime, hconds]
  show (if conditionStatus b = conditionStatus ready ∧ String.ofList (formatRFC3339 t) ≠ "" then
    String.ofList (formatRFC3339 t) else String.ofList (formatRFC3339 now)) = _
  by_cases hready : ready = b
  · grind
  · rw [if_neg (fun hc => hready (conditionStatus_inj.mp hc.1).symm), if_neg hready]

theorem transitionTime_of_none (h : a.status = none) (condStatus : String) (now : Int) :
    transitionTime (a.object name) condStatus now = String.ofList (formatRFC3339 now) := by
  rw [transitionTime, Unstructured.nestedSlice, field_status, h]
  rfl

/-! ### The history of a status -/

variable {c : Cluster} {w : Circumstances}

inductive Recorded (quote : String → String) (a : Agent) (writes : List (Int × Unstructured)) : Prop where
  | never (status : a.status = none) (nil : writes = [])
  | written (svc : String) (ready : Bool) (serving : Nat) (generation t now : Int)
      (older : List (Int × Unstructured))
      (status : a.status = some (statusValue quote svc ready serving generation
        (String.ofList (formatRFC3339 t))))
      (last : writes = (now, statusValue quote svc ready serving generation
        (String.ofList (formatRFC3339 t))) :: older)
      (change : lastChange (conditionHistory writes) = some t)

theorem Recorded.store (h : Recorded quote a c.writes) (svc : String)
    (ready : Bool) (serving : Nat) (generation now : Int) :
    Recorded quote
      { a with
        status := some (statusValue quote svc ready serving generation
          (transitionTime (a.object name) (conditionStatus ready) now)) }
      ((now, statusValue quote svc ready serving generation
        (transitionTime (a.object name) (conditionStatus ready) now)) :: c.writes) := by
  cases h with
  | never hstatus hnil =>
    rw [transitionTime_of_none hstatus]
    exact .written svc ready serving generation now now c.writes rfl rfl (by rw [hnil]; rfl)
  | written svc' b serving' generation' t now' older hstatus hlast hchange =>
    -- the last change is the old one, or this write, as the two conditions agree or not
    rw [transitionTime_of_status hstatus]
    refine .written svc ready serving generation (if ready = b then t else now) now c.writes rfl rfl ?_
    rw [hlast] at hchange ⊢
    simp only [conditionHistory, List.map_cons, lastChange,
      (conditionField_statusValue _ _ _ _ _ _).1, Option.some.injEq, conditionStatus_inj] at hchange ⊢
    grind

def Cluster.Recorded (quote : String → String) (c : Cluster) : Prop :=
  ∀ a, c.agent = some a → Registry.Recorded quote a c.writes

def Agent.UpToDate (name : NamespacedName) (a : Agent) (serving : Nat) : Prop :=
  (a.object name).nestedBool ["status", "ready"] = decide (0 < serving) ∧
    (a.object name).nestedInt64 ["status", "replicas"] = serving ∧
    (a.object name).nestedInt64 ["status", "observedGeneration"] = a.generation

def Cluster.serving (c : Cluster) (name : NamespacedName) (a : Agent) : Nat :=
  readyCount c.slices name.nameSpace (a.serviceName name)

def Cluster.freshStatus (quote : String → String) (c : Cluster) (name : NamespacedName) (a : Agent)
    (now : Int) : Unstructured :=
  statusValue quote (a.serviceName name) (decide (0 < c.serving name a)) (c.serving name a) a.generation
    (transitionTime (a.object name) (conditionStatus (decide (0 < c.serving name a))) now)

inductive Reconciled (quote : String → String) (name : NamespacedName) (w : Circumstances) (c : Cluster) :
    Cluster × Option Formatted → Prop where
  | failed (err : Formatted) : Reconciled quote name w c (c, some err)
  | absent (agent : c.agent = none) : Reconciled quote name w c (c, none)
  | steady (a : Agent) (agent : c.agent = some a) (current : a.UpToDate name (c.serving name a)) :
      Reconciled quote name w c (c, none)
  | written (a : Agent) (err : Option Formatted) (agent : c.agent = some a) :
      Reconciled quote name w c (c.store a (c.freshStatus quote name a w.now) w.now, err)

theorem reconciled (quote : String → String) (name : NamespacedName) (w : Circumstances) (c : Cluster) :
    Reconciled quote name w c (readinessReconcile quote name w c) := by
  unfold readinessReconcile
  cases w.getErr with
  | some err => exact .failed _
  | none =>
    cases hagent : c.agent with
    | none => exact .absent hagent
    | some a =>
      dsimp only
      rw [show (a.object name).nestedString ["spec", "endpointRef", "serviceName"] =
        a.serviceName name from rfl]
      by_cases hlist : w.listErr = none ∨ a.serviceName name = ""
      · rw [countServingEndpoints_ok hlist]
        dsimp only
        rw [show readyCount c.slices name.nameSpace (a.serviceName name) = c.serving name a from rfl,
          getGeneration_object]
        split
        · rename_i hcurrent
          exact .steady a hagent hcurrent
        · unfold writeStatus
          dsimp only
          rw [getGeneration_object]
          cases w.update with
          | refused err => exact .failed _
          | stored => exact .written a none hagent
          | unconfirmed err => exact .written a (some _) hagent
      · -- the list of the endpoints fails
        obtain ⟨hlist, hsvc⟩ := not_or.mp hlist
        obtain ⟨err, herr⟩ := Option.ne_none_iff_exists'.mp hlist
        rw [herr, countServingEndpoints_error err _ _ hsvc]
        exact .failed _

theorem readinessReconcile_steady (quote : String → String) (hget : w.getErr = none)
    (hlist : w.listErr = none) (hagent : c.agent = some a)
    (hcurrent : a.UpToDate name (c.serving name a)) :
    readinessReconcile quote name w c = (c, none) := by
  unfold readinessReconcile
  rw [hget, hagent]
  dsimp only
  rw [show (a.object name).nestedString ["spec", "endpointRef", "serviceName"] =
    a.serviceName name from rfl, countServingEndpoints_ok (Or.inl hlist)]
  exact if_pos hcurrent

theorem readinessReconcile_failed_read (quote : String → String) (hagent : c.agent = some a)
    (hread : w.getErr ≠ none ∨ w.listErr ≠ none ∧ a.serviceName name ≠ "") :
    ∃ err, readinessReconcile quote name w c = (c, some err) := by
  unfold readinessReconcile
  cases hget : w.getErr with
  | some err => exact ⟨_, rfl⟩
  | none =>
    obtain ⟨hlist, hsvc⟩ := hread.resolve_left (fun h => h hget)
    obtain ⟨err, herr⟩ := Option.ne_none_iff_exists'.mp hlist
    rw [hagent]
    dsimp only
    rw [show (a.object name).nestedString ["spec", "endpointRef", "serviceName"] =
      a.serviceName name from rfl, herr, countServingEndpoints_error err _ _ hsvc]
    simp

theorem recorded_step (c : Cluster) (e : ClusterEvent) (h : c.Recorded quote) :
    (c.step quote name e).Recorded quote := by
  cases e with
  | apply generation spec =>
    intro a ha
    cases hagent : c.agent with
    | none =>
      simp only [Cluster.step, hagent, Option.some.injEq] at ha ⊢
      exact .never (by rw [← ha]) rfl
    | some b =>
      -- a change of the spec keeps the status and its history
      have hb := h b hagent
      simp only [Cluster.step, hagent, Option.some.injEq] at ha ⊢
      subst ha
      cases hb with
      | never hstatus hnil => exact .never hstatus hnil
      | written svc ready serving gen t now older hstatus hlast hchange =>
        exact .written svc ready serving gen t now older hstatus hlast hchange
  | remove =>
    intro a ha
    cases ha
  | endpoints slices => exact h
  | reconcile w =>
    show (readinessReconcile quote name w c).1.Recorded quote
    have hcases := reconciled quote name w c
    generalize readinessReconcile quote name w c = result at hcases ⊢
    cases hcases with
    | failed err => exact h
    | absent hagent => exact h
    | steady a hagent hcurrent => exact h
    | written a err hagent =>
      intro a' ha'
      obtain rfl := Option.some.inj ha'
      exact (h a hagent).store _ _ _ _ _

theorem recorded_after (quote : String → String) (name : NamespacedName) (events : List ClusterEvent) :
    (Cluster.after quote name events).Recorded quote := by
  refine Transition.run_invariant (C := fun _ _ => True) (fun c e h _ => recorded_step c e h) ?_
    (Transition.along_of_forall (fun _ _ _ => trivial) _)
  intro a ha
  cases ha

theorem Recorded.lastTransitionTime {writes : List (Int × Unstructured)}
    (h : Recorded quote a writes) :
    a.lastTransitionTime =
      (lastChange (conditionHistory writes)).map (fun t => String.ofList (formatRFC3339 t)) := by
  cases h with
  | never hstatus hnil =>
    rw [Agent.lastTransitionTime, hstatus, hnil]
    rfl
  | written svc ready serving generation t now older hstatus hlast hchange =>
    rw [hchange, Agent.lastTransitionTime, hstatus]
    rfl

/-! ### What a reconcile leaves -/

theorem reports_of_status {slices : List EndpointSlice} {transition : String}
    (h : a.status = some (statusValue quote svc
      (decide (0 < readyCount slices name.nameSpace (a.serviceName name)))
      (readyCount slices name.nameSpace (a.serviceName name)) a.generation transition)) :
    a.Reports name slices where
  ready := by
    refine ⟨decide (0 < readyCount slices name.nameSpace (a.serviceName name)), ?_, ?_⟩
    · rw [field_status, h]
      rfl
    · rw [decide_eq_true_eq, readyCount_pos_iff]
  replicas := by
    rw [field_status, h]
    rfl
  generation := by
    rw [field_status, h]
    rfl

theorem Recorded.reports (hrec : Recorded quote a c.writes)
    (h : a.UpToDate name (c.serving name a)) : a.Reports name c.slices := by
  obtain ⟨hready, hreplicas, hgen⟩ := h
  rw [Unstructured.nestedBool, field_status] at hready
  rw [Unstructured.nestedInt64, field_status] at hreplicas hgen
  cases hrec with
  | never hstatus hnil =>
    rw [hstatus] at hgen
    -- the observed generation of a status that is missing reads as zero
    have hpos := a.generation.2
    have hzero : (0 : Int) = a.generation := hgen
    omega
  | written svc ready serving generation t now older hstatus hlast hchange =>
    rw [hstatus] at hready hreplicas hgen
    have hready' : ready = decide (0 < c.serving name a) := hready
    have hserving : (serving : Int) = c.serving name a := hreplicas
    have hgen' : generation = a.generation := hgen
    rw [hready', Int.ofNat_inj.mp hserving, hgen'] at hstatus
    exact reports_of_status hstatus

theorem Agent.Reports.upToDate (h : a.Reports name c.slices) :
    a.UpToDate name (c.serving name a) := by
  obtain ⟨b, hb, hiff⟩ := h.ready
  refine ⟨?_, ?_, ?_⟩
  · rw [Unstructured.nestedBool, hb, Bool.eq_iff_iff, decide_eq_true_eq, Cluster.serving,
      readyCount_pos_iff]
    exact hiff
  · rw [Unstructured.nestedInt64, h.replicas]
    rfl
  · rw [Unstructured.nestedInt64, h.generation]
    rfl

theorem reports_of_reconciled (hrec : c.Recorded quote)
    (hok : (readinessReconcile quote name w c).2 = none) (ha : (readinessReconcile quote name w c).1.agent = some a) :
    a.Reports name (readinessReconcile quote name w c).1.slices := by
  have hcases := reconciled quote name w c
  generalize readinessReconcile quote name w c = result at hcases hok ha ⊢
  cases hcases with
  | failed err => cases hok
  | absent hagent => exact absurd (hagent.symm.trans ha) (by simp)
  | steady a' hagent hcurrent =>
    obtain rfl := Option.some.inj (hagent.symm.trans ha)
    exact (hrec a' hagent).reports hcurrent
  | written a' err hagent =>
    obtain rfl := Option.some.inj ha
    exact reports_of_status rfl

end Zynax.Registry
