import Zynax.Adapter.LlmProviders
import Zynax.Engine.DataContext
import Zynax.Events.Delivery
import Zynax.Cli.Logs

/-!
# The event stream between gateway and command line

The gateway writes the events of a run as server-sent events, with the outputs of a completed run in its
event, and the command line reads them line by line.  Its scanner gives up at a line of 64 KiB, while the
outputs alone may have four times as much.
-/

namespace Zynax.Gateway

open Golang Cli
open Adapter (bytes)

/-! ### The gateway -/

structure WatchEvent where
  runID : String := ""
  eventType : String := ""
  fromState : String := ""
  toState : String := ""
  status : String := ""
  timestamp : String := ""
  payload : String := ""

def enrich (ev : WatchEvent) (run : Option (GoMap String)) : WatchEvent :=
  if ev.status = "WORKFLOW_STATUS_COMPLETED" ∧ ev.payload = "" then
    match run with
    | none => ev
    | some outputs =>
      if outputs.entries = [] then ev
      else { ev with payload := (Json.obj [("outputs", Json.ofMap (outputs.mapVal fun _ => .str))]).marshal }
  else ev

def sseWatchEvent (ev : WatchEvent) : LogEvent :=
  ⟨ev.runID, ev.eventType, ev.fromState, ev.toState, ev.status, ev.timestamp, ev.payload⟩

/-- The stream of server-sent events. -/
def handleWorkflowLogs (evs : List (WatchEvent × Option (GoMap String))) : List UInt8 :=
  evs.flatMap fun p => bytes ("data: " ++ (sseWatchEvent (enrich p.1 p.2)).marshal ++ "\n\n")

end Zynax.Gateway

namespace Zynax.Cli

open Golang Gateway
open Adapter (bytes)
open Adapter.Llm (dropCR lineTokens)
open Events (optionalText stringField_members text_of_members)

/-! ### The command line -/

def maxScanTokenSize : Nat := 64 * 1024

def streamLines (data : List UInt8) : List String :=
  ((lineTokens data).takeWhile fun l => l.length < maxScanTokenSize).map fun l => Utf8.text (dropCR l)

def streamErr (data : List UInt8) : Option String :=
  if (lineTokens data).any fun l => maxScanTokenSize ≤ l.length then some "bufio.Scanner: token too long"
  else none

def keepEvent (seen : List LogEvent) (ev : LogEvent) : List LogEvent × Bool := (seen ++ [ev], false)

def readLogs (data : List UInt8) : List LogEvent × Left :=
  readSSEStream keepEvent (streamErr data) [] (streamLines data)

/-! ### One event -/

def logMembers (ev : LogEvent) : List (String × Option Json) :=
  [("run_id", some (.str ev.runID)), ("event_type", some (.str ev.eventType)),
    ("from_state", optionalText ev.fromState), ("to_state", optionalText ev.toState),
    ("status", some (.str ev.status)), ("timestamp", optionalText ev.timestamp),
    ("payload", optionalText ev.payload)]

def logFields (ev : LogEvent) : List (String × Json) :=
  (logMembers ev).filterMap fun p => p.2.map fun w => (p.1, w)

theorem marshal_eq (ev : LogEvent) : ev.marshal = (Json.obj (logFields ev)).marshal := by
  have homit : ∀ key value, omitEmpty key value = ((optionalText value).map fun w => (key, w)).toList :=
    Events.omitEmpty_eq
  rw [LogEvent.marshal, logFields, List.filterMap_eq_flatMap_toList, logMembers]
  simp only [homit, List.flatMap_cons, List.flatMap_nil, List.append_nil, List.append_assoc,
    Option.map_some, Option.toList_some, List.cons_append, List.nil_append]

theorem text_logFields (ev : LogEvent) : ∀ p ∈ logFields ev, ∃ s, p.2 = Json.str s := by
  refine text_of_members ?_
  simp only [logMembers, List.forall_mem_cons]
  grind

/-- **An event that is written is read again.** -/
theorem decodeLogEvent_marshal (ev : LogEvent) : decodeLogEvent ev.marshal = some ev := by
  have hnodup : ((logMembers ev).map fun p => Broker.foldName p.1).Nodup := by
    have hnames : (["run_id", "event_type", "from_state", "to_state", "status", "timestamp",
        "payload"].map Broker.foldName).Nodup := by decide +kernel
    exact hnames
  have hfield : ∀ {name value : String}, (name, some (.str value)) ∈ logMembers ev ∨
      (name, optionalText value) ∈ logMembers ev →
        Broker.stringField name (.obj (logFields ev)) = some value := stringField_members hnodup
  have hrun : Broker.stringField "run_id" (.obj (logFields ev)) = some ev.runID :=
    hfield (by simp [logMembers])
  have htype : Broker.stringField "event_type" (.obj (logFields ev)) = some ev.eventType :=
    hfield (by simp [logMembers])
  have hfrom : Broker.stringField "from_state" (.obj (logFields ev)) = some ev.fromState :=
    hfield (by simp [logMembers])
  have hto : Broker.stringField "to_state" (.obj (logFields ev)) = some ev.toState :=
    hfield (by simp [logMembers])
  have hstatus : Broker.stringField "status" (.obj (logFields ev)) = some ev.status :=
    hfield (by simp [logMembers])
  have htime : Broker.stringField "timestamp" (.obj (logFields ev)) = some ev.timestamp :=
    hfield (by simp [logMembers])
  have hpayload : Broker.stringField "payload" (.obj (logFields ev)) = some ev.payload :=
    hfield (by simp [logMembers])
  rw [marshal_eq, decodeLogEvent, Json.unmarshal_texts (text_logFields ev)]
  simp only [Option.bind_eq_bind, Option.bind_some, hrun, htype, hfrom, hto, hstatus, htime, hpayload]
  rfl

/-! ### Its line -/

def dataLine (ev : LogEvent) : List UInt8 := bytes ("data: " ++ ev.marshal)

theorem control_notMem_dataLine (ev : LogEvent) {c : Char} (hc : c < ' ') :
    UInt8.ofNat c.toNat ∉ dataLine ev := by
  have htext : c ∉ ("data: " ++ ev.marshal).toList := by
    rw [String.toList_append, List.mem_append, not_or]
    constructor
    · intro hmem
      have hno : ∀ d ∈ "data: ".toList, ¬ d < ' ' := by simp
      exact hno c hmem hc
    · rw [marshal_eq, Json.marshal, String.toList_ofList]
      exact fun hmem => Json.not_lt_of_mem_texts (text_logFields ev) c hmem hc
  rw [dataLine, Adapter.bytes_eq, Utf8.mem_encode_ascii (Nat.lt_trans hc (by decide))]
  exact htext

theorem lineTokens_append {line : List UInt8} (hline : 10 ∉ line) (rest : List UInt8) :
    lineTokens (line ++ 10 :: rest) = line :: lineTokens rest := by
  obtain ⟨p, ps, hps⟩ := List.exists_cons_of_ne_nil (List.splitOn_ne_nil 10 rest)
  simp only [lineTokens, List.splitOn_append_cons_self_of_not_mem hline, hps, List.dropLast_cons_cons,
    List.getLast?_cons_cons, List.cons_append]

theorem lineTokens_handleWorkflowLogs (evs : List (WatchEvent × Option (GoMap String))) :
    lineTokens (handleWorkflowLogs evs) =
      (evs.map fun p => sseWatchEvent (enrich p.1 p.2)).flatMap fun ev => [dataLine ev, []] := by
  induction evs with
  | nil => rfl
  | cons p evs ih =>
    have hframe : bytes ("data: " ++ (sseWatchEvent (enrich p.1 p.2)).marshal ++ "\n\n") =
        dataLine (sseWatchEvent (enrich p.1 p.2)) ++ 10 :: ([] ++ [10]) := by
      rw [dataLine, Adapter.bytes_eq, Adapter.bytes_eq, String.toList_append, Utf8.encode_append]
      rfl
    rw [handleWorkflowLogs, List.flatMap_cons, hframe, List.append_assoc, List.cons_append,
      List.append_assoc, List.singleton_append, lineTokens_append (control_notMem_dataLine _ (c := '\n') (by decide)),
      lineTokens_append List.not_mem_nil, ← handleWorkflowLogs, ih, List.map_cons, List.flatMap_cons]
    rfl

theorem text_dropCR_dataLine (ev : LogEvent) :
    Utf8.text (dropCR (dataLine ev)) = "data: " ++ ev.marshal := by
  have hlast : (dataLine ev).getLast? ≠ some 13 := fun h =>
    control_notMem_dataLine ev (c := '\r') (by decide) (List.mem_of_getLast? h)
  rw [dropCR, if_neg hlast, dataLine, Adapter.bytes_eq, Utf8.text_encode, String.ofList_toList]

theorem eventsOf_dataLines (evs : List LogEvent) :
    eventsOf (evs.flatMap fun ev => ["data: " ++ ev.marshal, ""]) = evs ∧
      allDecode (evs.flatMap fun ev => ["data: " ++ ev.marshal, ""]) = true := by
  have hdata : ∀ ev : LogEvent, sseData ("data: " ++ ev.marshal) = some ev.marshal := by
    intro ev
    rw [sseData, if_pos (hasPrefix_append _ _), trimPrefix_append]
  have hempty : sseData "" = none := by decide
  induction evs with
  | nil => exact ⟨rfl, rfl⟩
  | cons ev evs ih =>
    rw [List.flatMap_cons]
    constructor
    · simp [eventsOf, hdata, hempty, decodeLogEvent_marshal, ih.1]
    · simp only [allDecode] at ih
      simp [allDecode, hdata, hempty, decodeLogEvent_marshal, ih.2]

theorem feed_keepEvent (seen evs : List LogEvent) : feed keepEvent seen evs = (seen ++ evs, false) := by
  induction evs generalizing seen with
  | nil => rw [feed, List.append_nil]
  | cons ev evs ih =>
    rw [feed, keepEvent]
    grind

theorem readLogs_eq (data : List UInt8) :
    readLogs data = (eventsOf (streamLines data), endOf (streamErr data) (streamLines data)) := by
  rw [readLogs, readSSEStream_eq, feed_keepEvent]
  rfl

theorem streamErr_eq_none_iff (evs : List (WatchEvent × Option (GoMap String))) :
    streamErr (handleWorkflowLogs evs) = none ↔
      ∀ p ∈ evs, (dataLine (sseWatchEvent (enrich p.1 p.2))).length < maxScanTokenSize := by
  rw [streamErr, lineTokens_handleWorkflowLogs, ite_eq_right_iff]
  grind

theorem streamLines_handleWorkflowLogs {evs : List (WatchEvent × Option (GoMap String))}
    (h : ∀ p ∈ evs, (dataLine (sseWatchEvent (enrich p.1 p.2))).length < maxScanTokenSize) :
    streamLines (handleWorkflowLogs evs) =
      (evs.map fun p => sseWatchEvent (enrich p.1 p.2)).flatMap fun ev => ["data: " ++ ev.marshal, ""] := by
  rw [streamLines, lineTokens_handleWorkflowLogs, List.takeWhile_eq_self_iff.mpr, List.map_flatMap]
  · have hempty : Utf8.text (dropCR []) = "" := by decide
    simp only [List.map_cons, List.map_nil, text_dropCR_dataLine, hempty]
  · grind

theorem failed_of_streamErr {data : List UInt8} (h : streamErr data ≠ none) :
    (readLogs data).2 ≠ .ended := by
  obtain ⟨e, he⟩ := Option.ne_none_iff_exists'.mp h
  rw [readLogs_eq, he, endOf]
  grind

/-- **The events arrive exactly when every line fits** into the buffer of the scanner. -/
theorem logs_roundtrip_iff (evs : List (WatchEvent × Option (GoMap String))) :
    readLogs (handleWorkflowLogs evs) = (evs.map fun p => sseWatchEvent (enrich p.1 p.2), .ended) ↔
      ∀ p ∈ evs, (dataLine (sseWatchEvent (enrich p.1 p.2))).length < maxScanTokenSize := by
  constructor
  · intro h
    rw [← streamErr_eq_none_iff]
    by_contra herr
    exact failed_of_streamErr herr (congrArg Prod.snd h)
  · intro h
    obtain ⟨hevents, hdecode⟩ := eventsOf_dataLines (evs.map fun p => sseWatchEvent (enrich p.1 p.2))
    rw [readLogs_eq, (streamErr_eq_none_iff evs).mpr h, streamLines_handleWorkflowLogs h, hevents, endOf,
      if_pos hdecode]

/-! ### Outputs that do not fit -/

theorem length_le_quote (s : String) : s.toList.length ≤ (Json.quote s).length := by
  have hbody : s.toList.length ≤ (Json.escapeBody s).length := by
    rw [Json.escapeBody]
    induction s.toList with
    | nil => exact Nat.le_refl _
    | cons c l ih =>
      have hpos := List.length_pos_of_ne_nil (Json.escapeChar_ne_nil c)
      grind
  simp only [Json.quote, List.length_cons, List.length_append]
  omega

theorem length_le_encodeFields {fs : List (String × Json)} {k s : String} (h : (k, Json.str s) ∈ fs) :
    s.toList.length ≤ (Json.encodeFields fs).length := by
  have hs := length_le_quote s
  induction fs with
  | nil => cases h
  | cons p fs ih =>
    obtain ⟨k', v⟩ := p
    rw [Json.encodeFields, List.length_cons, List.length_append, List.length_cons, List.length_append]
    rcases List.mem_cons.mp h with heq | h
    · obtain ⟨-, rfl⟩ := Prod.mk.inj heq
      rw [Json.encode]
      omega
    · grind

theorem length_le_encode {fs : List (String × Json)} {k s : String} (h : (k, Json.str s) ∈ fs) :
    s.toList.length ≤ (Json.obj fs).encode.length := by
  have hfields := length_le_encodeFields h
  cases fs with
  | nil => cases h
  | cons p fs =>
    obtain ⟨k', v⟩ := p
    rw [Json.encodeFields, List.length_cons] at hfields
    rw [Json.encode, List.length_cons]
    exact hfields

def reportOutputs (report : String) : GoMap String := AList.insert "report" report ∅

def completedEvent : WatchEvent := { status := "WORKFLOW_STATUS_COMPLETED" }

theorem enrich_reportOutputs (report : String) :
    sseWatchEvent (enrich completedEvent (some (reportOutputs report))) =
      { status := "WORKFLOW_STATUS_COMPLETED"
        payload := (Json.obj [("outputs", .obj [("report", .str report)])]).marshal } := rfl

theorem length_le_dataLine (ev : LogEvent) (h : ev.payload ≠ "") :
    ev.payload.toList.length ≤ (dataLine ev).length := by
  have hmem : ("payload", Json.str ev.payload) ∈ logFields ev :=
    List.mem_filterMap.mpr ⟨("payload", optionalText ev.payload), by simp [logMembers],
      by rw [optionalText, if_neg h]; rfl⟩
  calc ev.payload.toList.length
      ≤ (Json.obj (logFields ev)).encode.length := length_le_encode hmem
    _ ≤ ("data: " ++ ev.marshal).toList.length := by
      rw [marshal_eq, Json.marshal, String.toList_append, List.length_append]
      exact Nat.le_trans (by rw [String.toList_ofList]) (Nat.le_add_left _ _)
    _ ≤ (dataLine ev).length := by
      rw [dataLine, Adapter.bytes_eq]
      exact Utf8.length_le_length_encode _

theorem length_le_outputs (report : String) : report.toList.length <
    (Json.obj [("outputs", .obj [("report", .str report)])]).marshal.toList.length := by
  have hreport := length_le_encode (List.mem_singleton_self ("report", Json.str report))
  rw [Json.marshal, String.toList_ofList, Json.encode, List.length_cons, List.length_append,
    List.length_cons, List.length_append]
  omega

theorem length_le_reportLine (report : String) : report.toList.length ≤
    (dataLine (sseWatchEvent (enrich completedEvent (some (reportOutputs report))))).length := by
  have hlen := length_le_outputs report
  rw [enrich_reportOutputs]
  generalize (Json.obj [("outputs", .obj [("report", .str report)])]).marshal = payload at hlen ⊢
  refine Nat.le_trans (Nat.le_of_lt hlen) (length_le_dataLine ⟨"", "", "", "", _, "", payload⟩ ?_)
  rintro rfl
  grind

theorem enforceOutputBounds_report {report : String}
    (h : report.utf8ByteSize ≤ Engine.maxOutputValueBytes) :
    Engine.enforceOutputBounds (reportOutputs report) = none := by
  have hentries : (reportOutputs report).entries = [⟨"report", report⟩] := rfl
  have hname : "report".utf8ByteSize = 6 := by decide
  have htotal : ¬ 0 + 6 + report.utf8ByteSize > Engine.maxOutputsTotalBytes := by
    simp only [Engine.maxOutputValueBytes, Engine.maxOutputsTotalBytes] at h ⊢
    omega
  simp only [Engine.enforceOutputBounds, hentries, Engine.outputsTotal, hname, if_neg (Nat.not_lt.mpr h),
    if_neg htotal]

def largeReport : String := String.ofList (List.replicate maxScanTokenSize 'a')

theorem utf8ByteSize_largeReport : largeReport.utf8ByteSize = maxScanTokenSize := by
  rw [largeReport, String.utf8ByteSize_ofList]
  induction maxScanTokenSize with
  | zero => rfl
  | succ n ih => rw [List.replicate_succ, String.utf8Len_cons, ih]; rfl

theorem large_outputs_lost :
    Engine.enforceOutputBounds (reportOutputs largeReport) = none ∧
      readLogs (handleWorkflowLogs [(completedEvent, some (reportOutputs largeReport))]) ≠
        ([sseWatchEvent (enrich completedEvent (some (reportOutputs largeReport)))], .ended) := by
  constructor
  · exact enforceOutputBounds_report (Nat.le_of_eq utf8ByteSize_largeReport)
  · intro h
    have hfits : ∀ p ∈ [(completedEvent, some (reportOutputs largeReport))], _ :=
      (streamErr_eq_none_iff _).mp (by
        by_contra herr
        exact failed_of_streamErr herr (congrArg Prod.snd h))
    have hshort := hfits _ (List.mem_singleton_self _)
    have hlong := length_le_reportLine largeReport
    rw [largeReport, String.toList_ofList, List.length_replicate, ← largeReport] at hlong
    exact absurd hshort (Nat.not_lt.mpr hlong)

end Zynax.Cli
