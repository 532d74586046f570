import Zynax.Adapter.Ci

namespace Zynax.Adapter.Ci

open Golang Grpc Transition

/-!
# The run that a dispatch has started

`trigger_workflow` dispatches a workflow and then polls the list of runs until one was created at or after
the dispatch.  The list shows the runs of all workflows of the repository, and their creation times to the
second.
-/

variable {env : Linked} {url : String}

structure Listed where
  run : WorkflowRun
  workflow : String
  ref : String
  created : Int
  year : FourDigitYear created
  createdAt_eq : run.createdAt.toList = formatRFC3339 created

def Listed.visible (triggerTime : Int) (r : Listed) : Bool :=
  decide (triggerTime ≤ truncateSecond r.created)

structure Poll (env : Linked) (url : String) where
  exchanged : Exchanged
  runs : List Listed
  data : List UInt8
  answered : doRequest env "GET" url exchanged.exchange = .ok data
  decoded : (Utf8.unmarshal data).bind decodeRuns = some (runs.map Listed.run)

def shown (polls : List (Poll env url)) : List Listed := polls.flatMap Poll.runs

theorem findNewRun_poll (p : Poll env url) (triggerTime : Int) :
    findNewRun env url triggerTime p.exchanged.exchange =
      .ok ((p.runs.find? (Listed.visible triggerTime)).map Listed.run) := by
  have htest : (fun run : WorkflowRun => (parseRFC3339Nano run.createdAt.toList).any fun t =>
      decide (triggerTime ≤ t)) ∘ Listed.run = Listed.visible triggerTime := by
    funext r
    rw [Function.comp_apply, r.createdAt_eq, parseRFC3339Nano_formatRFC3339 r.year]
    rfl
  simp only [findNewRun, p.answered, p.decoded]
  rw [List.find?_map, htest]

/-! ### The call -/

def answer (pause : Pause) (x : Exchanged) : Answer Input
  | .dispatching _ _ _ => x
  | .waiting _ _ => pause
  | .listing _ _ => x
  | .sleeping _ _ _ => pause
  | .reading _ _ _ => x

def pollAnswers (last : Exchanged) : List (Poll env url) → List (Answer Input)
  | [] => [answer .done last]
  | p :: polls => answer .elapsed p.exchanged :: answer .elapsed p.exchanged :: pollAnswers last polls

def triggered (cfg : CIConfig) (now : Int) (ccap : CICapabilityConfig) (taskID : String)
    (payload : List UInt8) (dispatch : Exchanged) (polls : List (Poll env url)) :
    List (Action Call) × Next State (Option Status) :=
  exec (turn env cfg taskID) (triggerWorkflow env now ccap taskID payload)
    (answer .elapsed dispatch :: pollAnswers dispatch polls)

def triggeredEvent (taskID : String) : Option Listed → TaskEvent
  | some r => completedEvent taskID (triggeredPayload r.run)
  | none => failedEvent taskID "TIMEOUT"
      (bytes "trigger_workflow: run ID did not appear within trigger_poll_timeout_seconds")

@[simp] theorem sent_request (env : Linked) (method url : String) (c : Call) (s : State) :
    sent (request env method url c s).out = [] := by
  show sent (if (env.newRequest method url).isNone then [Action.call c] else []) = []
  split_ifs <;> rfl

/-- **The polls end with the first shown run that is not before the trigger**, or time out. -/
theorem sent_polls (cfg : CIConfig) (taskID : String) (triggerTime : Int) (last : Exchanged)
    (polls : List (Poll env url)) :
    sent (exec (turn env cfg taskID) (.wait [] (.waiting url triggerTime)) (pollAnswers last polls)).1 =
      [triggeredEvent taskID ((shown polls).find? (Listed.visible triggerTime))] := by
  induction polls with
  | nil => rfl
  | cons p polls ih =>
    -- the interval passes, and the list is read
    rw [pollAnswers, exec_cons_of_waits rfl, exec_cons_of_waits rfl]
    show sent ([] ++ ((request env "GET" url (.read url) (.listing url triggerTime)).out ++
      (exec (turn env cfg taskID) (turn env cfg taskID (.listing url triggerTime) p.exchanged)
        (pollAnswers last polls)).1)) = _
    rw [List.nil_append, sent_append, sent_request, List.nil_append, shown, List.flatMap_cons,
      List.find?_append]
    simp only [turn, findNewRun_poll]
    cases p.runs.find? (Listed.visible triggerTime) with
    | none => exact ih
    | some r =>
      dsimp only [Option.map_some]
      rw [exec_of_returns rfl]
      rfl

theorem sent_triggered (cfg : CIConfig) {now : Int} {ccap : CICapabilityConfig} {taskID : String}
    {payload : List UInt8} {inp : TriggerWorkflowInput} {dispatch : Exchanged} {data : List UInt8}
    (polls : List (Poll env (runsURL ccap inp.ref)))
    (hinput : parsePayload env "triggerWorkflowInput" decodeTriggerWorkflow payload = .ok inp)
    (href : inp.ref ≠ "") (hdispatch : doRequest env "POST" (dispatchURL ccap) dispatch.exchange = .ok data) :
    sent (triggered cfg now ccap taskID payload dispatch polls).1 =
      [triggeredEvent taskID ((shown polls).find? (Listed.visible now))] := by
  have hfirst : triggerWorkflow env now ccap taskID payload =
      request env "POST" (dispatchURL ccap) (.dispatch (dispatchURL ccap) inp) (.dispatching ccap inp now) := by
    rw [triggerWorkflow, hinput]
    exact if_neg href
  have hturn : turn env cfg taskID (.dispatching ccap inp now) dispatch =
      .wait [] (.waiting (runsURL ccap inp.ref) now) := by
    simp only [turn, hdispatch]
  rw [triggered, hfirst, exec_cons_of_waits rfl, sent_append, sent_request, List.nil_append]
  show sent (exec (turn env cfg taskID) (turn env cfg taskID (.dispatching ccap inp now) dispatch) _).1 = _
  rw [hturn]
  exact sent_polls cfg taskID now dispatch polls

/-! ### The run that is found -/

theorem id_of_triggeredPayload {r r' : WorkflowRun} (h : triggeredPayload r = triggeredPayload r') :
    r.id = r'.id := by
  have hnumbers : ∀ r : WorkflowRun,
      (Json.obj [("run_id", .num (decimalInt r.id)), ("run_url", .str r.htmlURL)]).NumbersOk :=
    fun r => ⟨isNumber_decimalInt r.id, True.intro, True.intro⟩
  have hobj := Json.marshal_inj (hnumbers r) (hnumbers r') (stringBytes_inj h)
  simp only [Json.obj.injEq, List.cons.injEq, Prod.mk.injEq, Json.num.injEq] at hobj
  exact decimalInt_inj hobj.1.2

def CompletesWith (taskID : String) (out : List (Action Call)) (id : Int) : Prop :=
  ∃ run : WorkflowRun, run.id = id ∧ sent out = [completedEvent taskID (triggeredPayload run)]

theorem completesWith_iff {taskID : String} {out : List (Action Call)} {found : Option Listed}
    (h : sent out = [triggeredEvent taskID found]) (id : Int) :
    CompletesWith taskID out id ↔ ∃ r, found = some r ∧ r.run.id = id := by
  rw [CompletesWith, h]
  cases found with
  | none =>
    refine iff_of_false ?_ (by simp)
    rintro ⟨run, -, hevent⟩
    simp [triggeredEvent, failedEvent, completedEvent] at hevent
  | some r =>
    constructor
    · rintro ⟨run, rfl, hevent⟩
      have hpayload : triggeredPayload r.run = triggeredPayload run :=
        congrArg TaskEvent.payload (List.cons.inj hevent).1
      exact ⟨r, rfl, id_of_triggeredPayload hpayload⟩
    · rintro ⟨r', hr', hid⟩
      obtain rfl := Option.some.inj hr'
      exact ⟨r.run, hid, rfl⟩

def Listed.Ours (ccap : CICapabilityConfig) (ref : String) (r : Listed) : Prop :=
  r.workflow = ccap.workflowID ∧ r.ref = ref

structure Dispatched (ccap : CICapabilityConfig) (ref : String) (now : Int) (runs : List Listed)
    (d : Listed) : Prop where
  listed : d ∈ runs
  ours : d.Ours ccap ref
  created : now ≤ d.created
  only : ∀ r ∈ runs, r.Ours ccap ref → now ≤ r.created → r = d

structure FindsDispatched (ccap : CICapabilityConfig) (ref : String) (now : Int) (runs : List Listed)
    (taskID : String) (out : List (Action Call)) : Prop where
  completes : ∀ d, Dispatched ccap ref now runs d → CompletesWith taskID out d.run.id
  no_other : ∀ r ∈ runs, CompletesWith taskID out r.run.id → r.Ours ccap ref ∧ now ≤ r.created

theorem created_of_visible {now : Int} {r : Listed} (h : r.visible now = true) : now ≤ r.created :=
  (of_decide_eq_true h).trans (truncateSecond_le r.created)

/-- **When the dispatched run is the one that is found.**  An id names one run.  The dispatched run is
    found, and no other, if and only if it was created in a second that began at or after the
    dispatch, and the first run shown with such a second is one of the workflow on the ref: the runs
    of other workflows are not told apart. -/
theorem findsDispatched_iff (env : Linked) (cfg : CIConfig) (now : Int) (ccap : CICapabilityConfig)
    (taskID : String) (payload : List UInt8) (inp : TriggerWorkflowInput) (dispatch : Exchanged)
    (data : List UInt8) (polls : List (Poll env (runsURL ccap inp.ref)))
    (hinput : parsePayload env "triggerWorkflowInput" decodeTriggerWorkflow payload = .ok inp)
    (href : inp.ref ≠ "") (hdispatch : doRequest env "POST" (dispatchURL ccap) dispatch.exchange = .ok data)
    (hids : ∀ r ∈ shown polls, ∀ r' ∈ shown polls, r.run.id = r'.run.id → r = r') :
    FindsDispatched ccap inp.ref now (shown polls) taskID
        (triggered cfg now ccap taskID payload dispatch polls).1 ↔
      (∀ d, Dispatched ccap inp.ref now (shown polls) d → now ≤ truncateSecond d.created) ∧
        ∀ r, (shown polls).find? (Listed.visible now) = some r → r.Ours ccap inp.ref := by
  have hsent : sent (triggered cfg now ccap taskID payload dispatch polls).1 =
      [triggeredEvent taskID ((shown polls).find? (Listed.visible now))] :=
    sent_triggered cfg polls hinput href hdispatch
  have hcomplete := completesWith_iff hsent
  constructor
  · intro h
    refine ⟨fun d hd => ?_, fun r hr => ?_⟩
    · obtain ⟨r, hr, hid⟩ := (hcomplete _).mp (h.completes d hd)
      obtain rfl := hids r (List.mem_of_find?_eq_some hr) d hd.listed hid
      have hvisible : r.visible now = true := List.find?_some hr
      exact of_decide_eq_true hvisible
    · exact (h.no_other r (List.mem_of_find?_eq_some hr) ((hcomplete _).mpr ⟨r, hr, rfl⟩)).1
  · rintro ⟨hsecond, hfirst⟩
    refine ⟨fun d hd => ?_, fun r hr hcompletes => ?_⟩
    · -- the dispatched run is visible, so some run is found, and it is the only one of the workflow
      cases hfind : (shown polls).find? (Listed.visible now) with
      | none =>
        have hinvisible := List.find?_eq_none.mp hfind d hd.listed
        exact absurd (decide_eq_true (hsecond d hd)) hinvisible
      | some r =>
        have hvisible := List.find?_some hfind
        have hr := hd.only r (List.mem_of_find?_eq_some hfind) (hfirst r hfind) (created_of_visible hvisible)
        grind
    · obtain ⟨r', hr', hid⟩ := (hcomplete _).mp hcompletes
      obtain rfl := hids r' (List.mem_of_find?_eq_some hr') r hr hid
      exact ⟨hfirst r' hr', created_of_visible (List.find?_some hr')⟩

deriving instance DecidableEq for WorkflowRun, TriggerWorkflowInput

def siteCapability : CICapabilityConfig := ⟨"trigger_workflow", "acme", "site", "ci.yml"⟩

def siteRun : Listed where
  run := ⟨7, "", "2026-01-01T00:00:01Z"⟩
  workflow := "ci.yml"
  ref := "main"
  created := 1767225601250000000
  year := by decide +kernel
  createdAt_eq := by decide +kernel

def docsRun : Listed := { siteRun with workflow := "docs.yml" }

theorem doRequest_answered {method : String} {statusCode : Int}
    (hnew : env.newRequest method url = none) (hstatus : statusCode < 400) (body : List UInt8) :
    doRequest env method url (.answered statusCode body) = .ok (body.take maxBodyBytes) := by
  simp only [doRequest, hnew]
  exact if_neg (by omega)

def siteBody : List UInt8 :=
  bytes "\x7b\"workflow_runs\":[\x7b\"id\":7,\"created_at\":\"2026-01-01T00:00:01Z\"\x7d]\x7d"

theorem decode_siteBody :
    (Utf8.unmarshal (siteBody.take maxBodyBytes)).bind decodeRuns = some [siteRun.run] := by
  decide +kernel

def siteInput : TriggerWorkflowInput := ⟨"main", none⟩

def sitePoll (r : Listed) (hr : r.run = siteRun.run) : Poll {} (runsURL siteCapability siteInput.ref) where
  exchanged := ⟨.answered 200 siteBody, .steady none⟩
  runs := [r]
  data := siteBody.take maxBodyBytes
  answered := doRequest_answered rfl (by decide) siteBody
  decoded := by rw [decode_siteBody, List.map_singleton, hr]

def sitePayload : List UInt8 := bytes "\x7b\"ref\":\"main\"\x7d"

theorem parse_sitePayload :
    parsePayload {} "triggerWorkflowInput" decodeTriggerWorkflow sitePayload = .ok siteInput :=
  parsePayload_eq_ok (by decide +kernel) (by decide +kernel)

def siteTriggered (now : Int) (r : Listed) (hr : r.run = siteRun.run) :
    List (Action Call) × Next State (Option Status) :=
  triggered ⟨"github", 5, 60⟩ now siteCapability "t1" sitePayload
    ⟨.answered 204 [], .steady none⟩ [sitePoll r hr]

theorem findsDispatched_site :
    FindsDispatched siteCapability siteInput.ref 1767225600500000000 (shown [sitePoll siteRun rfl]) "t1"
      (siteTriggered 1767225600500000000 siteRun rfl).1 := by
  unfold siteTriggered
  have hvisible : siteRun.visible 1767225600500000000 = true := by decide +kernel
  have hiff := findsDispatched_iff {} ⟨"github", 5, 60⟩ 1767225600500000000 siteCapability "t1" sitePayload
    siteInput ⟨.answered 204 [], .steady none⟩ _ [sitePoll siteRun rfl] parse_sitePayload (by decide)
    (doRequest_answered rfl (by decide) [])
  have hshown : ∀ r ∈ shown [sitePoll siteRun rfl], r = siteRun := fun r hr => List.mem_singleton.mp hr
  refine (hiff fun r hr r' hr' _ => ?_).mpr ⟨fun d hd => ?_, fun r hr => ?_⟩
  · rw [hshown r hr, hshown r' hr']
  · rw [hshown d hd.listed]
    exact of_decide_eq_true hvisible
  · rw [hshown r (List.mem_of_find?_eq_some hr)]
    exact ⟨rfl, rfl⟩

theorem sent_siteTriggered (now : Int) (r : Listed) (hr : r.run = siteRun.run) :
    sent (siteTriggered now r hr).1 =
      [triggeredEvent "t1" ((shown [sitePoll r hr]).find? (Listed.visible now))] :=
  sent_triggered ⟨"github", 5, 60⟩ [sitePoll r hr] parse_sitePayload (by decide)
    (doRequest_answered rfl (by decide) [])

/-- **The dispatched run can be missed, and another one taken for it.**  A run created fifty
    milliseconds after the dispatch, in the same second, is never found; a run of another workflow is.
    -/
theorem findsDispatched_fails :
    (Dispatched siteCapability siteInput.ref 1767225601200000000 (shown [sitePoll siteRun rfl]) siteRun ∧
      sent (siteTriggered 1767225601200000000 siteRun rfl).1 = [triggeredEvent "t1" none]) ∧
    (docsRun.workflow ≠ siteCapability.workflowID ∧
      CompletesWith "t1" (siteTriggered 1767225600500000000 docsRun rfl).1 docsRun.run.id) := by
  have hmissed : siteRun.visible 1767225601200000000 = false := by decide +kernel
  have htaken : docsRun.visible 1767225600500000000 = true := by decide +kernel
  refine ⟨⟨⟨List.mem_singleton_self _, ⟨rfl, rfl⟩, by decide, fun r hr _ _ => ?_⟩, ?_⟩, by decide, ?_⟩
  · exact List.mem_singleton.mp hr
  · have hnone : (shown [sitePoll siteRun rfl]).find? (Listed.visible 1767225601200000000) = none :=
      List.find?_cons_of_neg (by rw [hmissed]; decide)
    rw [sent_siteTriggered, hnone]
  · have hsome : (shown [sitePoll docsRun rfl]).find? (Listed.visible 1767225600500000000) = some docsRun :=
      List.find?_cons_of_pos htaken
    exact (completesWith_iff (sent_siteTriggered _ docsRun rfl) _).mpr ⟨docsRun, hsome, rfl⟩

end Zynax.Adapter.Ci
