import Zynax.Broker.Binding
import Zynax.Broker.Service
import Zynax.Registry.Scorer

namespace Zynax.Broker

open Golang Registry

/-!
# Expert targeting across the scheduler and the broker

A dispatch whose payload names an expert asks the scheduler for an agent of that expert scope, and
checks the agent it gets against the same name once more.  The scheduler compares the scope label
of the Agent resource, the broker the agent's name and id.
-/

/-! ### The scheduler on the wire -/

structure CapabilityDef where
  name : String
  inputSchema : String

structure AgentDef where
  agentId : String
  name : String
  endpoint : String
  capabilities : List CapabilityDef

def candidateToProto (c : Candidate) : AgentDef where
  agentId := c.key
  name := c.name
  endpoint := c.endpoint
  capabilities := c.capabilities.map fun capability => ⟨capability.id, capability.inputSchema⟩

inductive SelectionPolicy where
  | unspecified | metricsWeighted | roundRobin
  deriving DecidableEq

structure SelectAgentRequest where
  capabilityName : String
  policy : SelectionPolicy := .unspecified
  constraints : Constraints := {}
  expertTarget : String := ""

inductive SchedulerCode where
  | invalidArgument | notFound | failedPrecondition | unavailable
  deriving DecidableEq

structure SchedulerError where
  code : SchedulerCode
  message : Formatted

structure SelectAgentResponse where
  agent : Option AgentDef
  rationale : Rationale

def schedulerErr (err : SelectError) : SchedulerError :=
  match err with
  | .noCapability _ => ⟨.notFound, err.message⟩
  | .filtered _ _ => ⟨.failedPrecondition, err.message⟩

/-- `SelectAgent` of the scheduler. -/
def selectAgent (u : CaseTables) (idx : Index) (req : SelectAgentRequest) (snapshot : Snapshot)
    (rr : UInt64) : Except SchedulerError SelectAgentResponse × UInt64 :=
  if req.capabilityName = "" then
    (.error ⟨.invalidArgument, .text "capability_name must not be empty"⟩, rr)
  else
    let r := select u idx
      { capability := req.capabilityName
        constraints := req.constraints
        roundRobin := req.policy = .roundRobin
        expertTarget := req.expertTarget } snapshot rr
    match r.1 with
    | .error err => (.error (schedulerErr err), r.2)
    | .ok res => (.ok ⟨some (candidateToProto res.chosen), res.rationale⟩, r.2)

/-! ### The broker's client -/

def agentInfoOf (a : AgentDef) (capabilityName : String) : AgentInfo where
  agentID := a.agentId
  name := a.name
  endpoint := a.endpoint
  inputSchema := ((a.capabilities.find? (fun c => c.name == capabilityName)).map
    CapabilityDef.inputSchema).getD ""

/-- The scheduler's answer as the broker takes it. -/
def clientSelect (capabilityName : String) (resp : Except SchedulerError SelectAgentResponse) :
    Except BrokerError AgentInfo :=
  match resp with
  | .error err =>
    match err.code with
    | .notFound | .failedPrecondition =>
      .error (.of .noEligibleAgent err.message.format err.message.args)
    | .invalidArgument | .unavailable =>
      .error ⟨none, ⟨"task-broker: select agent for %q: " ++ err.message.format,
        .str capabilityName :: err.message.args⟩⟩
  | .ok resp =>
    match resp.agent with
    | none => .error ⟨none, .text "task-broker: scheduler returned no agent (contract violation)"⟩
    | some a => .ok (agentInfoOf a capabilityName)

def brokerView (c : Candidate) (capabilityName : String) : AgentInfo :=
  agentInfoOf (candidateToProto c) capabilityName

/-! ### Agreement -/

structure TargetingAgrees (u : CaseTables) (idx : Index) (req : Request) : Prop where
  accepted : ∀ snapshot rr res rr', select u idx req snapshot rr = (.ok res, rr') →
    ∀ d : DispatchRequest, dispatchCheck d = none →
      expertTarget d.inputPayload = some req.expertTarget →
      (∃ slice, declaredSlice (brokerView res.chosen req.capability).inputSchema = .ok slice) →
        ∃ r, dispatchPrepare d (.ok (brokerView res.chosen req.capability)) = .ok r
  inScope : ∀ snapshot rr res rr', select u idx req snapshot rr = (.ok res, rr') →
    ∀ d : DispatchRequest, expertTarget d.inputPayload = some req.expertTarget →
      (∃ r, dispatchPrepare d (.ok (brokerView res.chosen req.capability)) = .ok r) →
        res.chosen.expertScope = req.expertTarget

theorem exists_dispatchPrepare_iff {d : DispatchRequest} (hcheck : dispatchCheck d = none)
    {expert : String} (htarget : expertTarget d.inputPayload = some expert) {agent : AgentInfo}
    {slice : Option ContextSlice} (hslice : declaredSlice agent.inputSchema = .ok slice) :
    (∃ r, dispatchPrepare d (.ok agent) = .ok r) ↔ agent.name = expert ∨ agent.agentID = expert := by
  obtain ⟨fields, hfields⟩ := exists_decodeObject_of_target htarget
  obtain ⟨raws, hraws, -⟩ := Json.exists_decodeRaw hfields
  unfold dispatchPrepare prepareExpertDispatch
  rw [hcheck, htarget]
  by_cases hname : agent.name = expert ∨ agent.agentID = expert
  · have hselect : selectExpert [agent] expert = some agent := by simp [selectExpert, hname]
    refine iff_of_true ?_ hname
    simp [hselect, hslice, bindContextSlice, hraws]
  · have hselect : selectExpert [agent] expert = none := by simpa [selectExpert] using hname
    grind

def targeting (expert : String) : DispatchRequest where
  workflowID := "wf"
  capabilityName := "capability"
  inputPayload := (Json.obj [("expert", .str expert)]).marshal

theorem targeting_spec {expert : String} (hexpert : expert ≠ "") :
    dispatchCheck (targeting expert) = none ∧
      expertTarget (targeting expert).inputPayload = some expert := by
  have hnum : (Json.obj [("expert", .str expert)]).NumbersOk := ⟨True.intro, True.intro⟩
  have hdepth : (Json.obj [("expert", .str expert)]).depth ≤ Json.maxNestingDepth := by
    simp only [Json.depth, Json.depthFields]
    decide
  constructor
  · have hvalid : Json.valid (Json.obj [("expert", .str expert)]).marshal = true := by
      rw [Json.valid, Json.unmarshal_marshal hnum, if_pos hdepth]
      rfl
    simp [dispatchCheck, targeting, hvalid]
  · have hlookup : (GoMap.ofPairs [("expert", Json.str expert)]).lookup "expert" = some (.str expert) :=
      (GoMap.lookup_ofPairs (by simp)).mpr (by simp)
    rw [targeting, expertTarget, Json.decodeObject_obj hnum, if_pos hdepth]
    simp [hlookup, hexpert]

theorem exists_select {u : CaseTables} {idx : Index} {req : Request}
    (hlen : (eligible u idx req).length ≤ 2 ^ 64) {a : Candidate} (ha : a ∈ eligible u idx req) :
    ∃ rr res rr', select u idx req (fun _ => none) rr = (.ok res, rr') ∧ res.chosen = a := by
  obtain ⟨i, hi, rfl⟩ := List.getElem_of_mem ha
  have hrot : Call.rotates u idx ⟨req, fun _ => none⟩ = true := by
    have hne : eligible u idx req ≠ [] := List.ne_nil_of_mem ha
    simp [Call.rotates, hne]
  refine ⟨UInt64.ofNat i, ?_⟩
  rcases select_cases (u := u) idx ⟨req, fun _ => none⟩ (UInt64.ofNat i) with
    ⟨hnil, -⟩ | ⟨-, res, hsel, hchosen⟩ | ⟨hno, -⟩
  · grind
  · refine ⟨res, _, hsel, ?_⟩
    have htoNat : (UInt64.ofNat i).toNat = i := by
      rw [UInt64.toNat_ofNat']
      omega
    rw [hchosen, htoNat, Nat.mod_eq_of_lt hi, List.getD_eq_getElem _ _ hi]
  · grind

/-- **Scheduler and broker agree on an expert exactly when the eligible agents bear its name.**
    Whatever the counter and the metrics: if and only if each eligible agent with a readable schema
    has the target for its name or its key.  A Go slice has fewer elements than the counter has
    values. -/
theorem targeting_agrees_iff {u : CaseTables} {idx : Index} {req : Request}
    (htarget : req.expertTarget ≠ "") (hlen : (eligible u idx req).length ≤ 2 ^ 64) :
    TargetingAgrees u idx req ↔
      ∀ a ∈ eligible u idx req,
        (∃ slice, declaredSlice (brokerView a req.capability).inputSchema = .ok slice) →
          a.name = req.expertTarget ∨ a.key = req.expertTarget := by
  constructor
  · intro h a ha hslice
    obtain ⟨rr, res, rr', hsel, rfl⟩ := exists_select hlen ha
    obtain ⟨hcheck, hpayload⟩ := targeting_spec htarget
    obtain ⟨slice, hslice⟩ := hslice
    have hacc := h.accepted _ _ _ _ hsel (targeting req.expertTarget) hcheck hpayload ⟨slice, hslice⟩
    exact (exists_dispatchPrepare_iff hcheck hpayload hslice).mp hacc
  · intro hnames
    refine ⟨?_, ?_⟩
    · intro snapshot rr res rr' hsel d hcheck hpayload hslice
      obtain ⟨slice, hslice⟩ := hslice
      rw [exists_dispatchPrepare_iff hcheck hpayload hslice]
      exact hnames _ (chosen_mem_eligible hsel) ⟨slice, hslice⟩
    · -- the scheduler has already filtered by the scope
      intro snapshot rr res rr' hsel d hpayload hacc
      exact (mem_eligible.mp (chosen_mem_eligible hsel)).2.2.2 htarget

/-! ### A security reviewer -/

def secAgent : Candidate :=
  { key := "default/sec-1"
    name := "sec-1"
    endpoint := "sec-1.default.svc:50051"
    ready := true
    expertScope := "security-reviewer"
    capabilities := [{ id := "review" }] }

def namedAgent : Candidate :=
  { secAgent with key := "default/security-reviewer", name := "security-reviewer" }

def securityReview : DispatchRequest where
  workflowID := "wf-1"
  capabilityName := "review"
  inputPayload := "\x7b\"expert\":\"security-reviewer\"\x7d"

def securityRequest : Request :=
  { capability := "review", expertTarget := "security-reviewer" }

theorem targeting_agrees_named :
    (eligible asciiTables (Index.after [.upsert namedAgent]) securityRequest).map Candidate.key =
        ["default/security-reviewer"] ∧
      TargetingAgrees asciiTables (Index.after [.upsert namedAgent]) securityRequest := by
  have hnames : ∀ a ∈ eligible asciiTables (Index.after [.upsert namedAgent]) securityRequest,
      a.name = securityRequest.expertTarget := by decide +kernel
  refine ⟨by decide +kernel, (targeting_agrees_iff (by decide) (by decide +kernel)).mpr ?_⟩
  exact fun a ha _ => Or.inl (hnames a ha)

/-- **The broker turns down the expert the scheduler found.**  The agent labelled with the scope is
    selected, its schema is fine, and the dispatch fails because it has another name. -/
theorem expert_turned_down :
    let selected := clientSelect "review"
      (selectAgent asciiTables (Index.after [.upsert secAgent])
        { capabilityName := "review", expertTarget := "security-reviewer" } (fun _ => none) 0).1
    selected = .ok ⟨"default/sec-1", "sec-1", "sec-1.default.svc:50051", ""⟩ ∧
      expertTarget securityReview.inputPayload = some "security-reviewer" ∧
      declaredSlice "" = .ok none ∧
      dispatchPrepare securityReview selected =
        .error (.of .noEligibleAgent "no agent %q provides the requested capability"
          [.str "security-reviewer"]) := by
  decide +kernel

end Zynax.Broker
