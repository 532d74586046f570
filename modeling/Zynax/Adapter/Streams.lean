import Zynax.Adapter.Ci
import Zynax.Adapter.Git
import Zynax.Adapter.Http

namespace Zynax.Adapter

open Golang Grpc Transition

/-!
# The streams of the http, git and ci adapters

* `timeouts_reported_iff` — an operation that fails after the deadline is reported as a timeout by the
  ci adapter, and by the http adapter if there was no response; the git adapter never does.
-/

/-! ### The grammar of the streams -/

/-- **Every execution that ends has sent progress, then exactly one terminal event.** -/
theorem streams_grammatical (env : Linked) (req : ExecuteRequest) (htask : req.taskId ≠ "")
    (hcap : req.capabilityName ≠ "") :
    (∀ capabilities answers r, (Http.serve env capabilities req answers).2 = .returns r →
      Grammatical req.taskId (sent (Http.serve env capabilities req answers).1)) ∧
    (∀ red capabilities answers r, (Git.serve env red capabilities req answers).2 = .returns r →
      Grammatical req.taskId (sent (Git.serve env red capabilities req answers).1)) ∧
    (∀ cfg capabilities now answers r, (Ci.serve env cfg capabilities now req answers).2 = .returns r →
      Grammatical req.taskId (sent (Ci.serve env cfg capabilities now req answers).1)) := by
  refine ⟨fun capabilities answers r hr => ?_, fun red capabilities answers r hr => ?_,
    fun cfg capabilities now answers r hr => ?_⟩
  · exact grammatical_exec (Http.keeps_turn req.taskId)
      (Http.keeps_executeCapability env capabilities htask hcap) hr
  · exact grammatical_exec Git.keeps_turn
      (Git.keeps_executeCapability env red capabilities htask hcap) hr
  · exact grammatical_exec (Ci.keeps_turn env cfg req.taskId)
      (Ci.keeps_executeCapability env cfg capabilities now htask hcap) hr

def fetchRoute : Http.RouteConfig where
  name := "fetch"
  method := "get"
  url := "http://upstream/items"

def fetchRequest : ExecuteRequest where
  taskId := "t1"
  capabilityName := "fetch"

def fetchAnswers : List (Answer fun _ : Unit => Select Http.HttpResult) :=
  [fun _ => .tick, fun _ => .result ⟨.answered 200 (bytes "ok"), .steady none⟩]

theorem streams_grammatical_fetch :
    (Http.serve {} [fetchRoute] fetchRequest fetchAnswers).2 = .returns none ∧
    Grammatical "t1" (sent (Http.serve {} [fetchRoute] fetchRequest fetchAnswers).1) :=
  have hreturns : (Http.serve {} [fetchRoute] fetchRequest fetchAnswers).2 = .returns none := by rfl
  ⟨hreturns,
    (streams_grammatical {} fetchRequest (by decide) (by decide)).1 [fetchRoute] fetchAnswers none hreturns⟩

/-! ### Timeouts -/

section

variable {κ σ : Type} {ι : σ → Type}

def TimesOut (taskID : String) (evs : List TaskEvent) : Prop :=
  ∃ msg, evs.getLast? = some (failedEvent taskID "TIMEOUT" msg)

def ReportsTimeouts (taskID : String) (turn : (s : σ) → ι s → Serving κ σ) (Late : Sigma ι → Prop)
    (t : Serving κ σ) (answers : List (Answer ι)) : Prop :=
  ∀ p ∈ steps turn t answers, Late p → TimesOut taskID (sent (exec turn t answers).1)

theorem timesOut_iff_of_step {turn : (s : σ) → ι s → Serving κ σ} {t : Serving κ σ}
    {answers : List (Answer ι)} {p : Sigma ι} {taskID code : String} {msg : List UInt8}
    (hp : p ∈ steps turn t answers) (hfail : turn p.1 p.2 = Serving.fail taskID code msg) :
    TimesOut taskID (sent (exec turn t answers).1) ↔ code = "TIMEOUT" := by
  have hstep := exec_step hp
  rw [hfail] at hstep
  obtain ⟨s, hs⟩ | ⟨before, r, -, hexec⟩ := hstep
  · exact absurd hs (by simp [Serving.fail, Turn.finish])
  · -- nothing is put out after the step, so its event is the last one
    have hlast : (sent (exec turn t answers).1).getLast? = some (failedEvent taskID code msg) := by
      rw [hexec]
      show (sent (before ++ [.send (failedEvent taskID code msg)])).getLast? = _
      rw [sent_append, sent_send, sent_nil, List.getLast?_concat]
    unfold TimesOut
    rw [hlast]
    constructor
    · rintro ⟨msg', h⟩
      exact congrArg (fun err => err.code) (Option.some.inj (congrArg TaskEvent.error (Option.some.inj h)))
    · grind

theorem reportsTimeouts_iff {taskID : String} {turn : (s : σ) → ι s → Serving κ σ}
    {Late Seen : Sigma ι → Prop}
    (hlate : ∀ p, Late p → ∃ code msg, turn p.1 p.2 = Serving.fail taskID code msg ∧
      (code = "TIMEOUT" ↔ Seen p)) (t : Serving κ σ) (answers : List (Answer ι)) :
    ReportsTimeouts taskID turn Late t answers ↔ ∀ p ∈ steps turn t answers, Late p → Seen p := by
  refine forall₃_congr fun p hp hp' => ?_
  obtain ⟨code, msg, hfail, hcode⟩ := hlate p hp'
  rw [timesOut_iff_of_step hp hfail, hcode]

end

namespace Http

def HttpResult.Fails (res : HttpResult) : Prop :=
  ∀ statusCode body, res.exchange = .answered statusCode body → ¬ (200 ≤ statusCode ∧ statusCode < 300)

def Late : (Σ _ : Unit, Select HttpResult) → Prop
  | ⟨_, .result res⟩ => res.Fails ∧ res.ctx.atFailure = some .deadlineExceeded
  | _ => False

def NoResponse : (Σ _ : Unit, Select HttpResult) → Prop
  | ⟨_, .result res⟩ => ∃ err, res.exchange = .failed err
  | _ => False

theorem handleResult_late (taskID : String) {res : HttpResult} (hfails : res.Fails)
    (hctx : res.ctx.atFailure = some .deadlineExceeded) :
    ∃ code msg, handleResult taskID res = .fail taskID code msg ∧
      (code = "TIMEOUT" ↔ ∃ err, res.exchange = .failed err) := by
  have hcheck := res.ctx.mono _ hctx
  unfold handleResult
  cases hx : res.exchange with
  | failed err =>
    refine ⟨"TIMEOUT", bytes "request exceeded timeout_seconds", ?_, by simp⟩
    simp [hcheck, timeout]
  | broken statusCode err => exact ⟨_, _, rfl, by simp⟩
  | answered statusCode body =>
    -- too long, or an error status: the context is not asked in either case
    dsimp only
    rw [if_neg (hfails statusCode body hx)]
    split_ifs
    · grind
    · grind

theorem turn_late (taskID : String) (p : Σ _ : Unit, Select HttpResult) (hp : Late p) :
    ∃ code msg, turn taskID p.1 p.2 = .fail taskID code msg ∧ (code = "TIMEOUT" ↔ NoResponse p) := by
  obtain ⟨s, i⟩ := p
  cases i with
  | tick => exact hp.elim
  | result res => exact handleResult_late taskID hp.1 hp.2
  | done => exact hp.elim

end Http

namespace Git

def apiError : (s : State) → Input s → Option ApiError
  | .opening, .result (.error err) => some err
  | .requesting _ _, .error err => some err
  | .polling _ _ _, .error err => some err
  | .diffing, .result (.error err) => some err
  | _, _ => none

def Late (p : Sigma Input) : Prop :=
  ∃ err, apiError p.1 p.2 = some err ∧ err.ctx = some .deadlineExceeded

theorem turn_of_apiError (red : Redactor) (taskID : String) {s : State} {i : Input s} {err : ApiError}
    (h : apiError s i = some err) : turn red taskID s i = apiFailed red taskID err := by
  unfold apiError at h
  split at h <;> cases h <;> rfl

theorem githubErrCode_ne_timeout (err : ApiError) : githubErrCode err ≠ "TIMEOUT" := by
  unfold githubErrCode
  split <;> decide

theorem turn_late (red : Redactor) (taskID : String) (p : Sigma Input) (hp : Late p) :
    ∃ code msg, turn red taskID p.1 p.2 = .fail taskID code msg ∧ (code = "TIMEOUT" ↔ False) := by
  obtain ⟨err, herr, -⟩ := hp
  exact ⟨_, _, turn_of_apiError red taskID herr, iff_false_intro (githubErrCode_ne_timeout err)⟩

end Git

namespace Ci

def operation : (s : State) → Input s → Option (String × String × Exchanged)
  | .dispatching ccap _ _, x => some ("POST", dispatchURL ccap, x)
  | .listing url _, x => some ("GET", url, x)
  | .reading _ apiURL _, x => some ("GET", apiURL, x)
  | .waiting _ _, _ => none
  | .sleeping _ _ _, _ => none

def Late (env : Linked) (p : Sigma Input) : Prop :=
  ∃ method url x err, operation p.1 p.2 = some (method, url, x) ∧
    doRequest env method url x.exchange = .error err ∧ x.ctx.atFailure = some .deadlineExceeded

theorem requestFailed_late (taskID timeoutMsg : String) {ctx : Observed} (err : RequestError)
    (hctx : ctx.atFailure = some .deadlineExceeded) :
    requestFailed taskID timeoutMsg ctx err = .fail taskID "TIMEOUT" (bytes timeoutMsg) := by
  unfold requestFailed requestFailure
  rw [if_pos (ctx.mono _ hctx)]

def timeoutMsg : State → String
  | .sleeping _ _ _ | .reading _ _ _ => timeoutMsgRunStatus
  | _ => timeoutMsgTrigger

theorem turn_of_failed (env : Linked) (cfg : CIConfig) (taskID : String) {s : State} {i : Input s}
    {method url : String} {x : Exchanged} {err : RequestError}
    (hop : operation s i = some (method, url, x))
    (herr : doRequest env method url x.exchange = .error err) :
    turn env cfg taskID s i = requestFailed taskID (timeoutMsg s) x.ctx err := by
  cases s with
  | dispatching ccap inp triggerTime =>
    cases hop
    simp only [turn]
    rw [herr]
    rfl
  | waiting url triggerTime => cases hop
  | listing url triggerTime =>
    cases hop
    simp only [turn, findNewRun]
    rw [herr]
    rfl
  | sleeping runURL apiURL interval => cases hop
  | reading runURL apiURL interval =>
    cases hop
    simp only [turn]
    rw [herr]
    rfl

theorem turn_late (env : Linked) (cfg : CIConfig) (taskID : String) (p : Sigma Input)
    (hp : Late env p) :
    ∃ code msg, turn env cfg taskID p.1 p.2 = .fail taskID code msg ∧ (code = "TIMEOUT" ↔ True) := by
  obtain ⟨method, url, x, err, hop, herr, hctx⟩ := hp
  refine ⟨"TIMEOUT", bytes (timeoutMsg p.1), ?_, iff_true_intro rfl⟩
  rw [turn_of_failed env cfg taskID hop herr]
  exact requestFailed_late taskID (timeoutMsg p.1) err hctx

end Ci

/-- **A failure after the deadline is reported as a timeout** by the http adapter exactly where there
    was no response at all, by the git adapter never, and by the ci adapter always. -/
theorem timeouts_reported_iff (env : Linked) (req : ExecuteRequest) :
    (∀ capabilities answers,
      ReportsTimeouts req.taskId (Http.turn req.taskId) Http.Late
          (Http.executeCapability env capabilities req) answers ↔
        ∀ p ∈ steps (Http.turn req.taskId) (Http.executeCapability env capabilities req) answers,
          Http.Late p → Http.NoResponse p) ∧
    (∀ red capabilities answers,
      ReportsTimeouts req.taskId (Git.turn red req.taskId) Git.Late
          (Git.executeCapability env red capabilities req) answers ↔
        ∀ p ∈ steps (Git.turn red req.taskId) (Git.executeCapability env red capabilities req) answers,
          ¬ Git.Late p) ∧
    (∀ cfg capabilities now answers,
      ReportsTimeouts req.taskId (Ci.turn env cfg req.taskId) (Ci.Late env)
        (Ci.executeCapability env cfg capabilities now req) answers) := by
  refine ⟨fun capabilities answers => ?_, fun red capabilities answers => ?_,
    fun cfg capabilities now answers => ?_⟩
  · exact reportsTimeouts_iff (Http.turn_late req.taskId) _ answers
  · exact reportsTimeouts_iff (Git.turn_late red req.taskId) _ answers
  · exact (reportsTimeouts_iff (Ci.turn_late env cfg req.taskId) _ answers).mpr fun _ _ _ => trivial

def lateBody : List (Answer fun _ : Unit => Select Http.HttpResult) :=
  [fun _ => .result ⟨.broken 200 (bytes "context deadline exceeded"), .steady (some .deadlineExceeded)⟩]

def diffCapability : Git.GitCapabilityConfig where
  name := "get_diff"
  owner := "acme"
  repo := "widgets"

def diffRequest : ExecuteRequest where
  taskId := "t1"
  capabilityName := "get_diff"
  inputPayload := bytes "\x7b\"pr_number\":7\x7d"

def lateDiff : Answer Git.Input
  | .diffing => .result (.error ⟨none, bytes "context deadline exceeded", some .deadlineExceeded⟩)
  | .opening => .done
  | .requesting _ _ => .ok ()
  | .pausing _ _ _ => .done
  | .polling _ _ _ => .ok []

theorem late_failure_reported_upstream :
    sent (Http.serve {} [fetchRoute] fetchRequest lateBody).1 =
      [failedEvent "t1" "UPSTREAM_ERROR" (bytes "failed to read response body")] ∧
    ¬ ReportsTimeouts "t1" (Http.turn "t1") Http.Late
      (Http.executeCapability {} [fetchRoute] fetchRequest) lateBody ∧
    sent (Git.serve {} {} [diffCapability] diffRequest [lateDiff]).1 =
      [failedEvent "t1" "UPSTREAM_ERROR" (bytes "context deadline exceeded")] ∧
    ¬ ReportsTimeouts "t1" (Git.turn {} "t1") Git.Late
      (Git.executeCapability {} {} [diffCapability] diffRequest) [lateDiff] := by
  have hfetch : sent (Http.serve {} [fetchRoute] fetchRequest lateBody).1 =
      [failedEvent "t1" "UPSTREAM_ERROR" (bytes "failed to read response body")] := by decide +kernel
  have hdiff : sent (Git.serve {} {} [diffCapability] diffRequest [lateDiff]).1 =
      [failedEvent "t1" "UPSTREAM_ERROR" (bytes "context deadline exceeded")] := by decide +kernel
  refine ⟨hfetch, fun h => ?_, hdiff, fun h => ?_⟩
  · have hstep : ⟨(), lateBody.head (by simp [lateBody]) ()⟩ ∈
        steps (Http.turn "t1") (Http.executeCapability {} [fetchRoute] fetchRequest) lateBody :=
      List.mem_singleton.mpr rfl
    obtain ⟨msg, hmsg⟩ : TimesOut "t1" (sent (Http.serve {} [fetchRoute] fetchRequest lateBody).1) :=
      h _ hstep ⟨(fun _ _ hx => nomatch hx), rfl⟩
    rw [hfetch] at hmsg
    exact absurd hmsg (by simp [failedEvent])
  · have hparse : parsePayload {} "getDiffInput" Git.decodePRNumber diffRequest.inputPayload = .ok 7 :=
      parsePayload_eq_ok (by decide +kernel) (by decide +kernel)
    have hresolve : Git.resolve [diffCapability] diffRequest = some diffCapability := rfl
    have hstart : Git.executeCapability {} {} [diffCapability] diffRequest =
        .wait [.call (.diff diffCapability.owner diffCapability.repo 7)] .diffing :=
      Git.executeCapability_getDiff (by decide) (by decide) hresolve rfl hparse (by decide)
    have hstep : ⟨.diffing, lateDiff .diffing⟩ ∈
        steps (Git.turn {} "t1") (Git.executeCapability {} {} [diffCapability] diffRequest) [lateDiff] := by
      rw [hstart, steps_cons_of_waits rfl]
      exact List.mem_cons_self
    obtain ⟨msg, hmsg⟩ : TimesOut "t1" (sent (Git.serve {} {} [diffCapability] diffRequest [lateDiff]).1) :=
      h _ hstep ⟨_, rfl, rfl⟩
    rw [hdiff] at hmsg
    exact absurd hmsg (by simp [failedEvent])

end Zynax.Adapter
