import Zynax.Engine.Payload

namespace Zynax.Engine

open Golang Compiler

/-!
# The timeout of an action

A timeout goes from the text of the manifest to the activity of the engine through a duration, a
protobuf duration, whole seconds in an `int32` and a duration again.  On the way it is cut to whole
seconds, and zero seconds stand for the default.
-/

variable {d : Int}

def second : Int := 1000000000

def maxInt32 : Int := 2 ^ 31 - 1

def defaultActivityTimeout : Int := 300 * second

/-- The timeout of the activity, or the default. -/
def startToCloseTimeout (timeoutSeconds : Int) : Int :=
  -- the product of two durations wraps around in 64 bits
  let timeout := Int.bmod (timeoutSeconds * second) (2 ^ 64)
  if timeout ≤ 0 then defaultActivityTimeout else timeout

structure DerivedTimeout (d : Int) (proto : Option Duration) (seconds timeout : Int) : Prop where
  lower : min d (maxInt32 * second) / second * second ≤ timeout
  upper : timeout ≤ (d + second - 1) / second * second
  notDefault : timeout = defaultActivityTimeout →
    defaultActivityTimeout - second ≤ d ∧ d ≤ defaultActivityTimeout + second
  duration : 0 < d ∧ d < 2 ^ 63
  proto : ∃ p, proto = some p ∧ (0 ≤ p.seconds ∧ p.seconds < 2 ^ 63) ∧ 0 ≤ p.nanos ∧ p.nanos < second
  int32 : 0 ≤ seconds ∧ seconds ≤ maxInt32
  product : seconds * second < 2 ^ 63

theorem lt_of_parseDuration {text : String} (h : parseDuration text = some d) :
    d < 2 ^ 63 := by
  unfold parseDuration at h
  grind

theorem timeoutSeconds_newDuration (hd : 0 < d) :
    timeoutSeconds (some (newDuration d)) = min (d / second) maxInt32 := by
  rw [timeoutSeconds, newDuration, Int.tdiv_eq_ediv_of_nonneg hd.le]
  rfl

theorem startToCloseTimeout_of_pos {seconds : Int} (hpos : 0 < seconds) (hle : seconds ≤ maxInt32) :
    startToCloseTimeout seconds = seconds * second := by
  have hmod : Int.bmod (seconds * second) (2 ^ 64) = seconds * second := by
    unfold maxInt32 at hle
    unfold second
    grind
  rw [startToCloseTimeout, hmod, if_neg]
  unfold second
  omega

/-- **The arithmetic of the chain**: everything stays in range, and the timeout is the expected one
    exactly when it lasts a second. -/
theorem derivedTimeout_iff (hpos : 0 < d) (hlt : d < 2 ^ 63) :
    DerivedTimeout d (some (newDuration d)) (timeoutSeconds (some (newDuration d)))
      (startToCloseTimeout (timeoutSeconds (some (newDuration d)))) ↔ second ≤ d := by
  have hsecs := timeoutSeconds_newDuration hpos
  have hproto : (0 ≤ (newDuration d).seconds ∧ (newDuration d).seconds < 2 ^ 63) ∧
      0 ≤ (newDuration d).nanos ∧ (newDuration d).nanos < second := by
    rw [newDuration, Int.tdiv_eq_ediv_of_nonneg hpos.le, Int.tmod_eq_emod_of_nonneg hpos.le]
    unfold second
    grind
  constructor
  · -- below a second the seconds are zero, and zero seconds mean the default
    intro h
    by_contra hshort
    have hzero : timeoutSeconds (some (newDuration d)) = 0 := by
      rw [hsecs]
      unfold second maxInt32 at *
      omega
    have hupper := h.upper
    rw [hzero, show startToCloseTimeout 0 = defaultActivityTimeout by decide] at hupper
    unfold defaultActivityTimeout second at *
    omega
  · intro hlong
    have hrange : 0 < timeoutSeconds (some (newDuration d)) ∧
        timeoutSeconds (some (newDuration d)) ≤ maxInt32 := by
      rw [hsecs]
      unfold second maxInt32 at *
      omega
    have htimeout := startToCloseTimeout_of_pos hrange.1 hrange.2
    rw [htimeout]
    rw [hsecs] at hrange ⊢
    refine ⟨?_, ?_, ?_, ⟨hpos, hlt⟩, ⟨_, rfl, hproto⟩, ⟨hrange.1.le, hrange.2⟩, ?_⟩
    all_goals
      unfold defaultActivityTimeout second maxInt32 at *
      omega

theorem convertActionIR_timeout {a : Action} {b : ActionIR} (h : convertActionIR a = .ok b) :
    b.timeout = if a.timeout > 0 then some (newDuration a.timeout) else none := by
  rw [convertActionIR] at h
  grind

theorem toAction_timeout {ya : YamlAction} (hd : parseDuration ya.timeout = some d) :
    ya.toAction.timeout = d := by
  have hne : ya.timeout ≠ "" := by
    intro hempty
    rw [hempty, show parseDuration "" = none by decide] at hd
    exact absurd hd (by simp)
  rw [YamlAction.toAction, if_neg hne, hd]
  rfl

/-- **The timeout of an action reaches its activity exactly when it lasts a second.**  A synchronous
    action with a positive timeout, whose references resolve and whose template renders, is
    dispatched, and the timeout of the activity is derived from its own if and only if that is a
    second or more. -/
theorem timeout_derived_iff {s : Server} {env : CallEnv} {req : CompileWorkflowRequest}
    {ir : WorkflowIR} {root : YamlNode} {raw : YamlManifest} (hacc : s.Accepts env req ir)
    (hroot : s.yaml.unmarshal req.manifestYaml = .ok (some root)) (hraw : s.yaml.decode root = .ok raw)
    {id : String} {ys : YamlState} (hys : raw.spec.states.lookup id = some ys) {i : Nat}
    {ya : YamlAction} (hya : ys.actions[i]? = some ya) (hsync : ya.async = false) {d : Int}
    (hd : parseDuration ya.timeout = some d) (hpos : 0 < d) (rt : Runtime) (ctx : GoMap String)
    {data : WorkflowDataContext} {inputs : GoMap String}
    (hinputs : data.resolveInputs (runScope ir) (splitInputBindings ya.input).2 = .ok inputs)
    {text resolved : String} (htext : marshalInputTemplate (splitInputBindings ya.input).1 = .ok text)
    (htmpl : resolveTemplate rt.render text (mergeInputs ctx inputs) = .ok resolved)
    (last : Option ActivityResult) (log : Log) :
    ∃ state a input more, findState ir id = some state ∧
      state.actions.drop i = a :: state.actions.drop (i + 1) ∧
      (executeActions rt ir id ctx (runScope ir) (state.actions.drop i) last ⟨data, log⟩).2.log =
        log ++ .dispatch id input :: more ∧
      input.capabilityName = ya.capability ∧
      (DerivedTimeout d a.timeout input.timeoutSeconds (startToCloseTimeout input.timeoutSeconds) ↔
        second ≤ d) := by
  obtain ⟨state, a, hfind, hdrop, hconvert⟩ := hacc.action hroot hraw hys hya
  obtain ⟨hcap, hasync, -, hbindings, htext'⟩ := convertActionIR_eq_ok hconvert
  have htimeout : a.timeout = some (newDuration d) := by
    rw [convertActionIR_timeout hconvert, toAction_timeout hd, if_pos hpos]
  have htextEq : a.inputTemplateJson = text := Except.ok.inj (htext'.symm.trans htext)
  have hinputs' : (Effects.mk data log).data.resolveInputs (runScope ir) a.inputBindings =
      .ok inputs := by
    rw [hbindings]
    exact hinputs
  obtain ⟨more, hmore⟩ := executeActions_dispatches rt ir id ctx (state.actions.drop (i + 1)) last
    (hasync.trans hsync) hinputs' (htextEq ▸ htmpl)
  refine ⟨state, a, ⟨a.capability, resolved, ir.workflowId, timeoutSeconds a.timeout⟩, more, hfind,
    hdrop, ?_, hcap, ?_⟩
  · grind
  · rw [htimeout]
    exact derivedTimeout_iff hpos (lt_of_parseDuration hd)

/-! ### A probe -/

def pingAction : YamlAction where
  capability := "ping"
  timeout := "500ms"

def reportAction : YamlAction where
  capability := "report"
  timeout := "1m30s"

def probeState : YamlState where
  actions := [pingAction, reportAction]
  on := [{ event := "report.completed", goto := "done" }]

def probeYaml : YamlManifest := workflowYaml "probe" "probe"
  [("probe", probeState), ("done", { type := "terminal" })]

def probeText : List UInt8 := manifestText "probe" "probe"
  ("    probe: \x7bactions: [\x7bcapability: ping, timeout: 500ms\x7d, \x7bcapability: report, timeout: 1m30s\x7d],\n" ++
    "      on: [\x7bevent: report.completed, goto: done\x7d]\x7d\n" ++
    "    done: \x7btype: terminal\x7d\n")

def probeRequest : CompileWorkflowRequest := { manifestYaml := probeText }

def probeServer : Server := { yaml := fixedYaml probeYaml }

def probeIR : WorkflowIR := plainIR "probe" "probe"
  [⟨"done", .terminal, [], [], ∅⟩,
    ⟨"probe", .normal,
      [⟨"ping", some ⟨0, 500000000⟩, "", false, ∅, ∅⟩, ⟨"report", some ⟨90, 0⟩, "", false, ∅, ∅⟩],
      [⟨"report.completed", "done", ∅⟩], ∅⟩]

theorem accepts_probe : probeServer.Accepts summaryEnv probeRequest probeIR := by
  rfl

theorem timeout_derived_report :
    ∃ state a input more, findState probeIR "probe" = some state ∧
      state.actions.drop 1 = a :: state.actions.drop 2 ∧
      (executeActions verbatimRuntime probeIR "probe" ∅ (runScope probeIR) (state.actions.drop 1) none
        ⟨⟨runScope probeIR, ∅⟩, []⟩).2.log = [] ++ .dispatch "probe" input :: more ∧
      input.capabilityName = "report" ∧
      (DerivedTimeout 90000000000 a.timeout input.timeoutSeconds
        (startToCloseTimeout input.timeoutSeconds) ↔ second ≤ 90000000000) :=
  timeout_derived_iff accepts_probe rfl rfl
    (show probeYaml.spec.states.lookup "probe" = some probeState from rfl)
    (show probeState.actions[1]? = some reportAction from rfl) rfl
    (show parseDuration "1m30s" = some 90000000000 by decide +kernel) (by decide) verbatimRuntime ∅
    rfl rfl (show resolveTemplate verbatimRuntime.render "" _ = .ok "" from rfl) none []

/-- **A timeout below a second is replaced by the default.**  The action that may take half a second
    is given five minutes. -/
theorem short_timeout_lost :
    probeServer.Accepts summaryEnv probeRequest probeIR ∧
      probeServer.yaml.decode (.mk .document "" 1 []) = .ok probeYaml ∧
      probeYaml.spec.states.lookup "probe" = some probeState ∧
      parseDuration pingAction.timeout = some 500000000 ∧
      ∃ state rest, findState probeIR "probe" = some state ∧
        (executeActions verbatimRuntime probeIR "probe" ∅ (runScope probeIR) state.actions none
          ⟨⟨runScope probeIR, ∅⟩, []⟩).2.log = .dispatch "probe" ⟨"ping", "", "wf-1", 0⟩ :: rest ∧
        startToCloseTimeout 0 = defaultActivityTimeout ∧
        ¬DerivedTimeout 500000000 (some ⟨0, 500000000⟩) 0 (startToCloseTimeout 0) := by
  refine ⟨accepts_probe, rfl, rfl, by decide +kernel, _, [], rfl, by decide +kernel, by decide, ?_⟩
  intro h
  exact absurd h.upper (by decide)

end Zynax.Engine
