import Zynax.Cli.Result

namespace Zynax.Cli

open Golang Broker

/-!
# Output on a terminal

What `zynax logs` and `zynax result` write to the standard output comes from the workflow: names of
states and events, outputs, completion texts.  A terminal obeys control characters in it.

* `TtySafe` — no C0 or C1 control character but tab, newline and carriage return.
-/

/-! ### The command -/

def padRight (width : Nat) (s : String) : String :=
  s ++ String.ofList (List.replicate (width - s.length) ' ')

def outputLine (text : String) : String :=
  if text ≠ "" then "    output: " ++ text ++ "\n" else ""

/-- An event as `zynax logs` prints it. -/
def printLogEvent (ev : LogEvent) : String :=
  let ts := if ev.timestamp = "" then "-" else ev.timestamp
  if ev.fromState ≠ "" ∨ ev.toState ≠ "" then
    "[" ++ ts ++ "] " ++ padRight 30 ev.eventType ++ " " ++ ev.fromState ++ " → " ++ ev.toState ++
      " (" ++ ev.status ++ ")\n"
  else
    "[" ++ ts ++ "] " ++ padRight 30 ev.eventType ++ " (" ++ ev.status ++ ")\n" ++
      outputLine (completionText ev.payload)

def omitEmpty (key value : String) : List (String × Json) :=
  if value = "" then [] else [(key, .str value)]

def LogEvent.marshal (ev : LogEvent) : String :=
  (Json.obj ([("run_id", .str ev.runID), ("event_type", .str ev.eventType)] ++
    omitEmpty "from_state" ev.fromState ++ omitEmpty "to_state" ev.toState ++
    [("status", .str ev.status)] ++ omitEmpty "timestamp" ev.timestamp ++
    omitEmpty "payload" ev.payload)).marshal

structure LogsFlags where
  format : String := "text"
  follow : Bool := false

def LogsFlags.render (flags : LogsFlags) (ev : LogEvent) : String :=
  if flags.format = "json" then ev.marshal ++ "\n" else printLogEvent ev

def LogsFlags.onEvent (flags : LogsFlags) (out : String) (ev : LogEvent) : String × Bool :=
  (out ++ flags.render ev, flags.follow && ev.isTerminal)

/-- `zynax logs`: what is printed, and the error. -/
def logsCmd (flags : LogsFlags) (runID : Except Formatted String) (logs : LogsAnswer) :
    String × Option Formatted :=
  match runID with
  | .error err => ("", some err)
  | .ok _ =>
    match watchWorkflowLogs flags.onEvent "" logs with
    | (out, .failed err) => (out, some err)
    -- the end of the stream, or the sentinel of the callback
    | (out, _) => (out, none)

def LogsFlags.shown (flags : LogsFlags) : LogsAnswer → List LogEvent
  | .streaming lines _ => if flags.follow then upToTerminal (eventsOf lines) else eventsOf lines
  | _ => []

theorem feed_logs (flags : LogsFlags) (out : String) (evs : List LogEvent) :
    (feed flags.onEvent out evs).1.toList = out.toList ++
      (if flags.follow then upToTerminal evs else evs).flatMap fun ev => (flags.render ev).toList := by
  induction evs generalizing out with
  | nil => cases flags.follow <;> simp [feed, upToTerminal]
  | cons ev evs ih =>
    rw [feed, LogsFlags.onEvent]
    by_cases hstop : (flags.follow && ev.isTerminal) = true
    · obtain ⟨hfollow, hterm⟩ := Bool.and_eq_true_iff.mp hstop
      simp [hfollow, hterm, upToTerminal]
    · simp only [Bool.not_eq_true] at hstop
      rw [hstop]
      dsimp only
      rw [ih, String.toList_append, List.append_assoc]
      cases hfollow : flags.follow with
      | false => simp
      | true =>
        have hterm : ev.isTerminal = false := by simpa [hfollow] using hstop
        simp [upToTerminal, hterm]

/-- **The text of the command** is that of the events it has seen, in their order. -/
theorem logsCmd_stdout (flags : LogsFlags) (runID : String) (logs : LogsAnswer) :
    (logsCmd flags (.ok runID) logs).1.toList =
      (flags.shown logs).flatMap fun ev => (flags.render ev).toList := by
  have hout : (logsCmd flags (.ok runID) logs).1 = (watchWorkflowLogs flags.onEvent "" logs).1 := by
    rw [logsCmd]
    grind
  rw [hout]
  cases logs with
  | failed err => rfl
  | refused code body =>
    rw [watchWorkflowLogs]
    split <;> rfl
  | streaming lines err =>
    rw [watchWorkflowLogs, readSSEStream_eq, feed_logs, LogsFlags.shown]
    simp

/-! ### Control characters -/

def isC0C1 (c : Char) : Bool := c.toNat < 0x20 || 0x80 ≤ c.toNat && c.toNat ≤ 0x9f

def isControl (c : Char) : Bool := isC0C1 c || c = '\x7f'

def TtySafe (text : List Char) : Prop :=
  ∀ c ∈ text, isC0C1 c = true → c = '\t' ∨ c = '\n' ∨ c = '\r'

instance : DecidablePred TtySafe := fun text =>
  decidable_of_iff ((text.all fun c => !isC0C1 c || (c = '\t' || c = '\n' || c = '\r')) = true) <| by
    simp [TtySafe, or_iff_not_imp_left]

@[simp] theorem ttySafe_append {s t : List Char} : TtySafe (s ++ t) ↔ TtySafe s ∧ TtySafe t := by
  simp only [TtySafe, List.forall_mem_append]

theorem ttySafe_flatMap {ι : Type} {f : ι → List Char} {l : List ι} :
    TtySafe (l.flatMap f) ↔ ∀ x ∈ l, TtySafe (f x) := by
  simp only [TtySafe, List.mem_flatMap]
  grind

theorem ttySafe_replicate_space (n : Nat) : TtySafe (List.replicate n ' ') := by
  intro c hc hcontrol
  rw [List.eq_of_mem_replicate hc] at hcontrol
  exact absurd hcontrol (by decide)

theorem printable_iff (c : Char) :
    printable c = true ↔ (isControl c = true → c = '\t' ∨ c = '\n' ∨ c = '\r') := by
  have hdel : c = '\x7f' ↔ c.toNat = 0x7f :=
    ⟨fun h => h ▸ rfl, fun h => Char.toNat_inj.mp h⟩
  by_cases hspace : c = '\t' ∨ c = '\n' ∨ c = '\r'
  · rcases hspace with rfl | rfl | rfl <;> decide
  · rw [iff_false_intro hspace, imp_false]
    simp only [not_or] at hspace
    simp only [printable, isControl, isC0C1, hspace, hdel, decide_false, Bool.false_or,
      Bool.not_eq_true', Bool.not_eq_true, Bool.or_eq_false_iff, Bool.and_eq_false_iff,
      decide_eq_false_iff_not]
    omega

theorem ttySafe_of_printable {text : List Char} (h : ∀ c ∈ text, printable c = true) :
    TtySafe text := by
  intro c hc hcontrol
  exact (printable_iff c).mp (h c hc) (by rw [isControl, hcontrol, Bool.true_or])

/-! ### The sanitiser -/

theorem printable_sanitizeForTTY (s : String) :
    ∀ c ∈ (sanitizeForTTY s).toList, printable c = true := by
  intro c hc
  rw [sanitizeForTTY, String.toList_ofList] at hc
  grind

theorem stripEscapes_of_printable {s : List Char} (h : ∀ c ∈ s, printable c = true) :
    stripEscapes 0 s = s := by
  induction s with
  | nil => rfl
  | cons c s ih =>
    rw [List.forall_mem_cons] at h
    have hesc : c ≠ '\x1b' := by
      rintro rfl
      exact absurd h.1 (by decide)
    rw [stripEscapes, if_neg hesc, ih h.2]

theorem sanitizeForTTY_of_printable {s : String} (h : ∀ c ∈ s.toList, printable c = true) :
    sanitizeForTTY s = s := by
  rw [sanitizeForTTY, stripEscapes_of_printable h, List.filter_eq_self.mpr h, String.ofList_toList]

theorem sanitizeForTTY_idem (s : String) : sanitizeForTTY (sanitizeForTTY s) = sanitizeForTTY s :=
  sanitizeForTTY_of_printable (printable_sanitizeForTTY s)

theorem ttySafe_sanitizeForTTY (s : String) : TtySafe (sanitizeForTTY s).toList :=
  ttySafe_of_printable (printable_sanitizeForTTY s)

/-! ### The two commands -/

theorem ttySafe_printOutputs (outputs : GoMap String) :
    ∀ line ∈ printOutputs outputs, TtySafe line.toList := by
  intro line hline
  obtain ⟨p, -, rfl⟩ := List.mem_map.mp hline
  rw [String.toList_append, String.toList_append, ttySafe_append, ttySafe_append]
  exact ⟨⟨ttySafe_sanitizeForTTY p.1, by decide +kernel⟩, ttySafe_sanitizeForTTY p.2⟩

/-- **`zynax result` is safe** for every stream of events and every outputs. -/
theorem ttySafe_resultCmd {runID : Except Formatted String} {logs : LogsAnswer}
    {outputs : OutputsAnswer} {printed : Printed} (h : resultCmd runID logs outputs = .ok printed) :
    ∀ line ∈ printed.stdout, TtySafe line.toList := by
  unfold resultCmd at h
  split at h
  · cases h
  split at h
  · cases h
  dsimp only at h
  split at h
  · cases h
    exact ttySafe_printOutputs _
  split at h
  · cases h
    exact List.forall_mem_singleton.mpr (ttySafe_sanitizeForTTY _)
  grind

def PlainEvent (ev : LogEvent) : Prop :=
  TtySafe ev.timestamp.toList ∧ TtySafe ev.eventType.toList ∧ TtySafe ev.status.toList ∧
    if ev.fromState ≠ "" ∨ ev.toState ≠ "" then
      TtySafe ev.fromState.toList ∧ TtySafe ev.toState.toList
    else TtySafe (completionText ev.payload).toList

theorem ttySafe_padRight (width : Nat) (s : String) :
    TtySafe (padRight width s).toList ↔ TtySafe s.toList := by
  rw [padRight, String.toList_append, String.toList_ofList, ttySafe_append]
  exact and_iff_left (ttySafe_replicate_space _)

theorem ttySafe_outputLine (text : String) :
    TtySafe (outputLine text).toList ↔ TtySafe text.toList := by
  have hframe : TtySafe "    output: ".toList ∧ TtySafe "\n".toList := by decide +kernel
  unfold outputLine
  split
  · rw [String.toList_append, String.toList_append, ttySafe_append, ttySafe_append]
    grind
  · next h => rw [not_not.mp h]

theorem ttySafe_timestamp (ts : String) :
    TtySafe (if ts = "" then "-" else ts).toList ↔ TtySafe ts.toList := by
  split
  · next h => simp only [h]; decide +kernel
  · rfl

theorem ttySafe_printLogEvent (ev : LogEvent) :
    TtySafe (printLogEvent ev).toList ↔ PlainEvent ev := by
  have hframe : (TtySafe "[".toList ∧ TtySafe "] ".toList ∧ TtySafe " ".toList ∧
      TtySafe " → ".toList ∧ TtySafe " (".toList ∧ TtySafe ")\n".toList) := by decide +kernel
  obtain ⟨h₁, h₂, h₃, h₄, h₅, h₆⟩ := hframe
  unfold printLogEvent PlainEvent
  dsimp only
  split
  · simp only [String.toList_append, ttySafe_append, ttySafe_padRight, ttySafe_timestamp, h₁, h₂, h₃,
      h₄, h₅, h₆]
    tauto
  · simp only [String.toList_append, ttySafe_append, ttySafe_padRight, ttySafe_timestamp,
      ttySafe_outputLine, h₁, h₂, h₅, h₆]
    tauto

/-- **`zynax logs` in text format is safe** exactly when every event that it shows is plain. -/
theorem ttySafe_logsCmd {flags : LogsFlags} (htext : flags.format ≠ "json") (runID : String)
    (logs : LogsAnswer) :
    TtySafe (logsCmd flags (.ok runID) logs).1.toList ↔
      ∀ ev ∈ flags.shown logs, PlainEvent ev := by
  rw [logsCmd_stdout, ttySafe_flatMap]
  simp only [LogsFlags.render, if_neg htext, ttySafe_printLogEvent]

def TerminalSafe (flags : LogsFlags) (runID : Except Formatted String) (logs : LogsAnswer)
    (outputs : OutputsAnswer) : Prop :=
  TtySafe (logsCmd flags runID logs).1.toList ∧
    ∀ printed, resultCmd runID logs outputs = .ok printed →
      ∀ line ∈ printed.stdout, TtySafe line.toList

/-- **The terminal is safe** exactly when every event that `zynax logs` shows is plain: its lines are
    not sanitised, the output of `zynax result` is.  The sanitiser is idempotent and leaves a text
    without control characters as it is. -/
theorem terminalSafe_iff {flags : LogsFlags} (htext : flags.format ≠ "json") :
    (∀ runID logs outputs, TerminalSafe flags (.ok runID) logs outputs ↔
        ∀ ev ∈ flags.shown logs, PlainEvent ev) ∧
      (∀ err logs outputs, TerminalSafe flags (.error err) logs outputs) ∧
      (∀ s, sanitizeForTTY (sanitizeForTTY s) = sanitizeForTTY s) ∧
      ∀ s, (∀ c ∈ s.toList, isControl c = false) → sanitizeForTTY s = s := by
  refine ⟨fun runID logs outputs => ?_, fun err logs outputs => ⟨?_, ?_⟩, sanitizeForTTY_idem,
    fun s hs => sanitizeForTTY_of_printable fun c hc => ?_⟩
  · rw [TerminalSafe, ttySafe_logsCmd htext]
    exact and_iff_left fun printed h => ttySafe_resultCmd h
  · exact List.forall_mem_nil _
  · exact fun printed h => ttySafe_resultCmd h
  · rw [printable_iff, hs c hc]
    simp

def reviewedLine : String :=
  "data: \x7b\"event_type\":\"review.done\",\"from_state\":\"review\",\"to_state\":\"done\"\x7d"

theorem terminalSafe_iff_reviewed :
    ({} : LogsFlags).format ≠ "json" ∧
      TerminalSafe {} (.ok "run-1") (.streaming [reviewedLine] none) (.failed "timeout") := by
  have hformat : ({} : LogsFlags).format ≠ "json" := by decide
  have hshown : ({} : LogsFlags).shown (.streaming [reviewedLine] none) =
      [{ eventType := "review.done", fromState := "review", toState := "done" }] := by
    decide +kernel
  refine ⟨hformat, ((terminalSafe_iff hformat).1 "run-1" _ _).mpr ?_⟩
  rw [hshown, List.forall_mem_singleton, PlainEvent]
  decide +kernel

def clearScreenLine : String :=
  "data: \x7b\"event_type\":\"capability\",\"payload\":" ++
    "\"\x7b\\\"completion\\\":\\\"\\\\u001b[2J\\\"\x7d\"\x7d"

theorem clear_screen_printed :
    (logsCmd {} (.ok "run-1") (.streaming [clearScreenLine] none)).1 =
        "[-] capability                     ()\n    output: \x1b[2J\n" ∧
      ¬ TerminalSafe {} (.ok "run-1") (.streaming [clearScreenLine] none) (.failed "timeout") ∧
      sanitizeForTTY "\x1b[2J" = "" := by
  have hout : (logsCmd {} (.ok "run-1") (.streaming [clearScreenLine] none)).1 =
      "[-] capability                     ()\n    output: \x1b[2J\n" := by
    decide +kernel
  refine ⟨hout, fun h => ?_, by decide +kernel⟩
  have hsafe := h.1
  rw [hout] at hsafe
  exact absurd hsafe (by decide +kernel)

end Zynax.Cli
