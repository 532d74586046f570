import Zynax.Broker.ContextSlice

namespace Zynax.Cli

open Golang Broker

/-!
# The result of a run

`zynax result` tails the events of a run up to a terminal status, reads the declared outputs, and
prints one of the outputs, the last completion text and a note.  Its exit status should say whether
the run completed; it looks at the outputs and the text before it looks at the status.
-/

/-! ### Decoding -/

structure LogEvent where
  runID : String := ""
  eventType : String := ""
  fromState : String := ""
  toState : String := ""
  status : String := ""
  timestamp : String := ""
  payload : String := ""
  deriving DecidableEq, Repr

def decodeLogEvent (data : String) : Option LogEvent := do
  let v ← Json.unmarshal data
  let runID ← stringField "run_id" v
  let eventType ← stringField "event_type" v
  let fromState ← stringField "from_state" v
  let toState ← stringField "to_state" v
  let status ← stringField "status" v
  let timestamp ← stringField "timestamp" v
  let payload ← stringField "payload" v
  return { runID, eventType, fromState, toState, status, timestamp, payload }

def decodeString (v : Json) : Option String := storeString "" [v]

def completionField (s : String) : String :=
  ((Json.unmarshal s).bind (stringField "completion")).getD ""

def bareCompletion (outer : GoMap Json) : String :=
  ((outer.lookup "completion").bind decodeString).getD ""

/-- The completion text of a payload, or of the result in it. -/
def completionText (payload : String) : String :=
  if payload = "" then ""
  else
    match Json.decodeObject payload with
    | none => ""
    | some outer =>
      match (outer.lookup "result_payload").bind decodeString with
      | some inner => completionField inner
      -- absent, or not a string
      | none => bareCompletion outer

def stringMembers : List (String × Json) → Option (List (String × String))
  | [] => some []
  | (k, v) :: fs =>
    match decodeString v, stringMembers fs with
    | some s, some rest => some ((k, s) :: rest)
    | _, _ => none

def decodeOutputs (raw : String) : Option (GoMap String) :=
  match Json.unmarshal raw with
  | some .null => some ∅
  | some (.obj fs) => (stringMembers fs).map fun l => l.foldl (fun m p => AList.insert p.1 p.2 m) ∅
  | _ => none

/-! ### The gateway -/

variable {σ : Type}

def errNotFound : Formatted := .text "zynax: not found"

inductive OutputsAnswer where
  | failed (err : String)
  | answered (code : Nat) (body : String)
  deriving DecidableEq, Repr

def getWorkflowOutputs : OutputsAnswer → Except Formatted (GoMap String)
  | .failed err => .error ⟨"zynax: get workflow outputs: %w", [.str err]⟩
  | .answered code body =>
    if code = 200 then
      match decodeOutputs body with
      | none => .error ⟨"zynax: decode workflow outputs: %w", []⟩
      | some outputs => .ok outputs
    else if code = 404 then .error errNotFound
    else .error ⟨"zynax: get workflow outputs: HTTP %d: %s", [.int code, .str (trimSpace body)]⟩

inductive LogsAnswer where
  | failed (err : String)
  | refused (code : Nat) (body : String)
  | streaming (lines : List String) (err : Option String)
  deriving DecidableEq, Repr

inductive Left where
  | ended
  | stopped
  | failed (err : Formatted)
  deriving DecidableEq

def sseData (line : String) : Option String :=
  if hasPrefix line "data: " then some (trimPrefix line "data: ") else none

/-- `readSSEStream`: events go to a callback that may stop. -/
def readSSEStream (send : σ → LogEvent → σ × Bool) (err : Option String) :
    σ → List String → σ × Left
  | s, [] =>
    match err with
    | none => (s, .ended)
    | some e => (s, .failed (.text e))
  | s, line :: lines =>
    match sseData line with
    | none => readSSEStream send err s lines
    | some data =>
      match decodeLogEvent data with
      | none => (s, .failed ⟨"zynax: decode SSE event: %w", []⟩)
      | some ev =>
        match send s ev with
        | (s', true) => (s', .stopped)
        | (s', false) => readSSEStream send err s' lines

def watchWorkflowLogs (send : σ → LogEvent → σ × Bool) (s : σ) : LogsAnswer → σ × Left
  | .failed err => (s, .failed ⟨"zynax: watch workflow: %w", [.str err]⟩)
  | .refused code body =>
    if code = 404 then (s, .failed errNotFound)
    else (s, .failed ⟨"zynax: watch workflow: HTTP %d: %s", [.int code, .str (trimSpace body)]⟩)
  | .streaming lines err => readSSEStream send err s lines

/-! ### Printing -/

def escapeLength (r : List Char) : Option Nat :=
  let short := r.head?.any fun c => '@' ≤ c && c ≤ 'Z' || '\\' ≤ c && c ≤ '_'
  match r with
  | '[' :: t =>
    let params := t.takeWhile fun c => c.isDigit || c = ';' || c = '?'
    let inter := (t.drop params.length).takeWhile fun c => ' ' ≤ c && c ≤ '/'
    match t.drop (params.length + inter.length) with
    | c :: _ => if '@' ≤ c && c ≤ '~' then some (params.length + inter.length + 2) else none
    | [] => none
  | ']' :: t =>
    let body := t.takeWhile fun c => c ≠ '\x07' && c ≠ '\x1b'
    match t.drop body.length with
    | '\x07' :: _ => some (body.length + 2)
    | '\x1b' :: '\\' :: _ => some (body.length + 3)
    -- no terminator: the bracket itself is one of the short sequences
    | _ => some 1
  | _ => if short then some 1 else none

def stripEscapes : Nat → List Char → List Char
  | _, [] => []
  | n + 1, _ :: r => stripEscapes n r
  | 0, c :: r =>
    if c = '\x1b' then
      match escapeLength r with
      | some n => stripEscapes n r
      | none => c :: stripEscapes 0 r
    else c :: stripEscapes 0 r

def printable (c : Char) : Bool :=
  c = '\t' || c = '\n' || c = '\r' || !(c.toNat < 0x20 || 0x7f ≤ c.toNat && c.toNat ≤ 0x9f)

/-- Escape sequences and control characters are removed. -/
def sanitizeForTTY (s : String) : String :=
  String.ofList ((stripEscapes 0 s.toList).filter printable)

def printOutputs (outputs : GoMap String) : List String :=
  outputs.sortedEntries.map fun p => sanitizeForTTY p.1 ++ "=" ++ sanitizeForTTY p.2

/-! ### The command -/

def terminalStatuses : List String :=
  ["WORKFLOW_STATUS_COMPLETED", "WORKFLOW_STATUS_FAILED", "WORKFLOW_STATUS_CANCELLED"]

structure Seen where
  completion : String := ""
  terminalStatus : String := ""
  deriving DecidableEq, Repr

def onEvent (seen : Seen) (ev : LogEvent) : Seen × Bool :=
  let text := completionText ev.payload
  let seen := if text ≠ "" then { seen with completion := text } else seen
  if ev.status ∈ terminalStatuses then ({ seen with terminalStatus := ev.status }, true)
  else (seen, false)

structure Printed where
  stdout : List String := []
  stderr : List String := []
  deriving DecidableEq, Repr

/-- `zynax result`: what is printed, or the error. -/
def resultCmd (runID : Except Formatted String) (logs : LogsAnswer) (outputs : OutputsAnswer) :
    Except Formatted Printed :=
  match runID with
  | .error err => .error err
  | .ok runID =>
    match watchWorkflowLogs onEvent {} logs with
    | (_, .failed err) => .error err
    | (seen, _) =>
      -- a read error of the outputs is not fatal
      let declared := (getWorkflowOutputs outputs).toOption.getD ∅
      if !declared.isEmpty then .ok { stdout := printOutputs declared }
      else if seen.completion ≠ "" then .ok { stdout := [sanitizeForTTY seen.completion] }
      else if seen.terminalStatus = "WORKFLOW_STATUS_COMPLETED" then
        .ok { stderr :=
          ["run completed with no declared output — see docs/runbooks/see-workflow-result.md"] }
      else if seen.terminalStatus = "" then
        .error ⟨"no result payload for run %s", [.str runID]⟩
      else
        .error ⟨"run %s did not produce a result: status %s", [.str runID, .str seen.terminalStatus]⟩

def exitStatus (r : Except Formatted Printed) : Nat :=
  match r with
  | .ok _ => 0
  | .error _ => 1

/-! ### What the stream reported -/

def LogEvent.isTerminal (ev : LogEvent) : Bool := ev.status ∈ terminalStatuses

def eventsOf : List String → List LogEvent
  | [] => []
  | line :: lines =>
    match sseData line with
    | none => eventsOf lines
    | some data =>
      match decodeLogEvent data with
      | none => []
      | some ev => ev :: eventsOf lines

def allDecode (lines : List String) : Bool :=
  lines.all fun line => (sseData line).all fun data => (decodeLogEvent data).isSome

def upToTerminal : List LogEvent → List LogEvent
  | [] => []
  | ev :: evs => if ev.isTerminal then [ev] else ev :: upToTerminal evs

def watched : LogsAnswer → List LogEvent
  | .streaming lines _ => upToTerminal (eventsOf lines)
  | _ => []

def reported : LogsAnswer → Option String
  | .streaming lines _ => ((eventsOf lines).find? LogEvent.isTerminal).map LogEvent.status
  | _ => none

def Unreadable : LogsAnswer → Prop
  | .streaming lines err =>
    (eventsOf lines).any LogEvent.isTerminal = false ∧ (allDecode lines = false ∨ err.isSome = true)
  | _ => True

/-! ### The loop -/

def feed (send : σ → LogEvent → σ × Bool) : σ → List LogEvent → σ × Bool
  | s, [] => (s, false)
  | s, ev :: evs =>
    match send s ev with
    | (s', true) => (s', true)
    | (s', false) => feed send s' evs

def endOf (err : Option String) (lines : List String) : Left :=
  if allDecode lines then
    match err with
    | none => .ended
    | some e => .failed (.text e)
  else .failed ⟨"zynax: decode SSE event: %w", []⟩

theorem readSSEStream_eq (send : σ → LogEvent → σ × Bool) (err : Option String) (s : σ)
    (lines : List String) :
    readSSEStream send err s lines =
      ((feed send s (eventsOf lines)).1,
        if (feed send s (eventsOf lines)).2 then .stopped else endOf err lines) := by
  induction lines generalizing s with
  | nil => cases err <;> rfl
  | cons line lines ih =>
    rw [readSSEStream, eventsOf]
    cases hdata : sseData line with
    | none =>
      have hend : endOf err (line :: lines) = endOf err lines := by
        simp [endOf, allDecode, hdata]
      simp [ih, hend]
    | some data =>
      cases hdec : decodeLogEvent data with
      | none => simp [feed, endOf, allDecode, hdata, hdec]
      | some ev =>
        have hend : endOf err (line :: lines) = endOf err lines := by
          simp [endOf, allDecode, hdata, hdec]
        simp only [hdec, feed, hend]
        -- the callback either stops at this event or goes on with the rest
        grind

theorem onEvent_snd (seen : Seen) (ev : LogEvent) : (onEvent seen ev).2 = ev.isTerminal := by
  unfold onEvent LogEvent.isTerminal
  grind

theorem onEvent_terminalStatus (seen : Seen) (ev : LogEvent) :
    (onEvent seen ev).1.terminalStatus = if ev.isTerminal then ev.status else seen.terminalStatus := by
  unfold onEvent LogEvent.isTerminal
  grind

theorem onEvent_completion (seen : Seen) (ev : LogEvent) :
    (onEvent seen ev).1.completion = "" ↔
      seen.completion = "" ∧ completionText ev.payload = "" := by
  unfold onEvent
  grind

theorem feed_onEvent_cons (seen : Seen) (ev : LogEvent) (evs : List LogEvent) :
    feed onEvent seen (ev :: evs) =
      if ev.isTerminal then ((onEvent seen ev).1, true) else feed onEvent (onEvent seen ev).1 evs := by
  rw [feed, ← onEvent_snd seen ev]
  grind

theorem feed_onEvent_snd (seen : Seen) (evs : List LogEvent) :
    (feed onEvent seen evs).2 = evs.any LogEvent.isTerminal := by
  induction evs generalizing seen with
  | nil => rfl
  | cons ev evs ih =>
    rw [feed_onEvent_cons, List.any_cons]
    grind

theorem feed_onEvent_terminalStatus (seen : Seen) (evs : List LogEvent) :
    (feed onEvent seen evs).1.terminalStatus =
      ((evs.find? LogEvent.isTerminal).map LogEvent.status).getD seen.terminalStatus := by
  induction evs generalizing seen with
  | nil => rfl
  | cons ev evs ih =>
    rw [feed_onEvent_cons]
    cases hterm : ev.isTerminal with
    | true => simp [onEvent_terminalStatus, hterm]
    | false => simp [ih, onEvent_terminalStatus, hterm]

theorem feed_onEvent_completion (seen : Seen) (evs : List LogEvent) :
    (feed onEvent seen evs).1.completion = "" ↔
      seen.completion = "" ∧ ∀ ev ∈ upToTerminal evs, completionText ev.payload = "" := by
  induction evs generalizing seen with
  | nil => simp [feed, upToTerminal]
  | cons ev evs ih =>
    rw [feed_onEvent_cons, upToTerminal]
    cases ev.isTerminal with
    | true => simp [onEvent_completion]
    | false => simp [ih, onEvent_completion, and_assoc]

/-! ### The exit status -/

theorem watchWorkflowLogs_spec (logs : LogsAnswer) :
    ((∃ err, (watchWorkflowLogs onEvent {} logs).2 = .failed err) ↔ Unreadable logs) ∧
      ((watchWorkflowLogs onEvent {} logs).1.completion = "" ↔
        ∀ ev ∈ watched logs, completionText ev.payload = "") ∧
      (watchWorkflowLogs onEvent {} logs).1.terminalStatus = (reported logs).getD "" := by
  cases logs with
  | failed err => simp [watchWorkflowLogs, Unreadable, watched, reported]
  | refused code body =>
    rw [watchWorkflowLogs]
    split <;> simp [Unreadable, watched, reported]
  | streaming lines err =>
    rw [watchWorkflowLogs, readSSEStream_eq]
    refine ⟨?_, ?_, feed_onEvent_terminalStatus _ _⟩
    · rw [feed_onEvent_snd]
      show _ ↔ _ ∧ _
      cases (eventsOf lines).any LogEvent.isTerminal with
      | true => simp
      | false =>
        unfold endOf
        cases allDecode lines <;> cases err <;> simp
    · rw [feed_onEvent_completion]
      simp [watched]

def NoOutputs (outputs : OutputsAnswer) : Prop :=
  ∀ declared, getWorkflowOutputs outputs = .ok declared → declared.isEmpty = true

theorem noOutputs_iff (outputs : OutputsAnswer) :
    NoOutputs outputs ↔ ((getWorkflowOutputs outputs).toOption.getD ∅).isEmpty = true := by
  unfold NoOutputs
  cases getWorkflowOutputs outputs with
  | error err => simp [Except.toOption, GoMap.isEmpty]
  | ok declared => simp [Except.toOption]

/-- **When the command exits with zero.** -/
theorem exitStatus_eq_zero_iff (runID : Except Formatted String) (logs : LogsAnswer)
    (outputs : OutputsAnswer) :
    exitStatus (resultCmd runID logs outputs) = 0 ↔
      runID.isOk = true ∧ ¬ Unreadable logs ∧
        (¬ NoOutputs outputs ∨ (¬ ∀ ev ∈ watched logs, completionText ev.payload = "") ∨
          reported logs = some "WORKFLOW_STATUS_COMPLETED") := by
  obtain ⟨hread, htext, hstatus⟩ := watchWorkflowLogs_spec logs
  have hreported : reported logs = some "WORKFLOW_STATUS_COMPLETED" ↔
      (watchWorkflowLogs onEvent {} logs).1.terminalStatus = "WORKFLOW_STATUS_COMPLETED" := by
    rw [hstatus]
    cases reported logs <;> simp
  rw [← hread, ← htext, noOutputs_iff, hreported]
  unfold resultCmd
  cases runID with
  | error err => simp [exitStatus, Except.isOk, Except.toBool]
  | ok runID =>
    rcases watchWorkflowLogs onEvent {} logs with ⟨seen, left⟩
    cases left with
    | failed err => simp [exitStatus]
    | ended | stopped =>
      -- the outputs, the text and the status, in the order in which the command looks at them
      by_cases hout : ((getWorkflowOutputs outputs).toOption.getD ∅).isEmpty = true
      · by_cases htxt : seen.completion = ""
        · by_cases hdone : seen.terminalStatus = "WORKFLOW_STATUS_COMPLETED"
          · simp [exitStatus, Except.isOk, Except.toBool, hout, htxt, hdone]
          · by_cases hnone : seen.terminalStatus = ""
            · simp [exitStatus, hout, htxt, hnone]
            · simp [exitStatus, hout, htxt, hdone, hnone]
        · simp [exitStatus, Except.isOk, Except.toBool, hout, htxt]
      · simp [exitStatus, Except.isOk, Except.toBool, hout]

/-- **The command exits with zero for completed runs only, exactly when the others leave nothing to
    print.**  If and only if the stream did report WORKFLOW_STATUS_COMPLETED, or no run id was
    resolved, or the stream could not be read, or the run has declared no outputs and no event up to
    the terminal one has a completion text. -/
theorem exit_honest_iff (runID : Except Formatted String) (logs : LogsAnswer)
    (outputs : OutputsAnswer) :
    (exitStatus (resultCmd runID logs outputs) = 0 →
        reported logs = some "WORKFLOW_STATUS_COMPLETED") ↔
      reported logs = some "WORKFLOW_STATUS_COMPLETED" ∨ runID.isOk = false ∨ Unreadable logs ∨
        NoOutputs outputs ∧ ∀ ev ∈ watched logs, completionText ev.payload = "" := by
  rw [exitStatus_eq_zero_iff]
  grind

def failedRun : LogsAnswer :=
  .streaming
    ["data: \x7b\"status\":\"WORKFLOW_STATUS_RUNNING\",\"payload\":\"\x7b\\\"completion\\\":\\\"looks good\\\"\x7d\"\x7d",
      "", "data: \x7b\"status\":\"WORKFLOW_STATUS_FAILED\"\x7d"] none

def cancelledRun : LogsAnswer :=
  .streaming ["data: \x7b\"status\":\"WORKFLOW_STATUS_CANCELLED\"\x7d"] none

/-- **A failed run reads as a success.**  The outputs endpoint knows no such run; the command prints
    the text of the capability that did complete and exits with zero.  So does a cancelled run with
    declared outputs. -/
theorem failed_run_exits_zero :
    reported failedRun = some "WORKFLOW_STATUS_FAILED" ∧
      resultCmd (.ok "run-1") failedRun (.answered 404 "") = .ok { stdout := ["looks good"] } ∧
      reported cancelledRun = some "WORKFLOW_STATUS_CANCELLED" ∧
      resultCmd (.ok "run-2") cancelledRun (.answered 200 "\x7b\"verdict\":\"ok\"\x7d") =
        .ok { stdout := ["verdict=ok"] } := by
  refine ⟨by decide +kernel, by decide +kernel, by decide +kernel, by decide +kernel⟩

end Zynax.Cli
