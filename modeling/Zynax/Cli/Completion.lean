import Zynax.Adapter.Llm
import Zynax.Events.Client
import Zynax.Cli.Result

/-!
# The way of a completion text

The llm adapter sends its text as a JSON object, the broker stores that as the result of the task and
publishes it as a string inside another object, and the command line unwraps both.
-/

namespace Zynax.Broker

open Golang
open Events (CloudEvent)
open Adapter (bytes)

def taskTopicPrefix : String := "zynax.v1.task-broker.task."

def taskEventFields (task : Task) : GoMap String :=
  let fields : GoMap String := GoMap.ofPairs
    [("task_id", task.taskID), ("workflow_id", task.workflowID), ("capability_name", task.capabilityName),
      ("status", task.status.name), ("dispatched_to", task.dispatchedTo)]
  if task.resultPayload = "" then fields else AList.insert "result_payload" task.resultPayload fields

def publishTaskEvent (id : String) (task : Task) : CloudEvent where
  id := id
  source := "/zynax/task-broker/" ++ task.workflowID
  specVersion := "1.0"
  type := taskTopicPrefix ++ toLower task.status.name
  dataContentType := "application/json"
  data := bytes (Json.ofMap ((taskEventFields task).mapVal fun _ => .str)).marshal
  workflowID := task.workflowID
  capabilityName := task.capabilityName

end Zynax.Broker

namespace Zynax.Cli

open Golang Broker
open Adapter (bytes)
open Adapter.Llm (completionPayload)

theorem text_completionPayload (s : String) :
    Utf8.text (completionPayload (bytes s)) = (Json.obj [("completion", .str s)]).marshal := by
  have hquote : Utf8.quote (bytes s) = Utf8.encode (Json.quote s) := by
    rw [Utf8.quote, Adapter.bytes_eq, Utf8.escapeFrom_encode, Json.quote, Json.escapeBody]
  rw [completionPayload, hquote, Adapter.bytes_eq, Adapter.bytes_eq, ← Utf8.encode_append, ← Utf8.encode_append,
    Utf8.text_encode, Json.marshal, Json.encode]
  rfl

theorem completionField_completion (s : String) :
    completionField (Json.obj [("completion", .str s)]).marshal = s := by
  have htext : ∀ p ∈ [("completion", Json.str s)], ∃ t, p.2 = Json.str t := by simp
  rw [completionField, Json.unmarshal_texts htext]
  simp [stringField, fieldValues, storeString]

theorem decodeObject_strings (m : GoMap String) : ∃ outer,
    Json.decodeObject (Json.ofMap (m.mapVal fun _ => .str)).marshal = some outer ∧
      ∀ key, outer.lookup key = (m.lookup key).map .str := by
  let members : GoMap Json := m.mapVal fun _ => .str
  have htext : ∀ p ∈ members.sortedEntries, ∃ t, p.2 = Json.str t := by
    rintro ⟨k, v⟩ hp
    rw [GoMap.mem_sortedEntries_iff, GoMap.lookup_mapVal, Option.map_eq_some_iff] at hp
    grind
  refine ⟨GoMap.ofPairs members.sortedEntries, ?_, fun key => ?_⟩
  · show Json.decodeObject (Json.obj members.sortedEntries).marshal = _
    rw [Json.decodeObject, Json.unmarshal_texts htext]
    rfl
  · apply Option.ext
    intro v
    rw [GoMap.lookup_ofPairs (GoMap.nodup_sortedEntries _), GoMap.mem_sortedEntries_iff, GoMap.lookup_mapVal]

theorem completionText_taskEvent (id : String) {task : Task} (h : task.resultPayload ≠ "") :
    completionText (Utf8.text (publishTaskEvent id task).data) = completionField task.resultPayload := by
  obtain ⟨outer, hdecode, hlookup⟩ := decodeObject_strings (taskEventFields task)
  have hresult : outer.lookup "result_payload" = some (.str task.resultPayload) := by
    rw [hlookup, taskEventFields, if_neg h, AList.lookup_insert]
    rfl
  rw [publishTaskEvent, Adapter.bytes_eq, Utf8.text_encode, String.ofList_toList]
  generalize (Json.ofMap _).marshal = data at hdecode ⊢
  have hdata : data ≠ "" := by
    rintro rfl
    have hnone : Json.decodeObject "" = none := rfl
    rw [hnone] at hdecode
    cases hdecode
  rw [completionText, if_neg hdata, hdecode]
  simp [hresult, decodeString, storeString]

/-- **A completion text arrives unchanged**, whatever it holds: encoded by the llm adapter, stored as the
    result of any task, published, and extracted from the data of the event. -/
theorem completion_unchanged (s : String) (task : Task) (id : String) (now : Int) :
    completionText (Utf8.text (publishTaskEvent id (applyAcknowledgement task .completed
      (Utf8.text (completionPayload (bytes s))) none now).1).data) = s := by
  have hne : completionPayload (bytes s) ≠ [] := fun h =>
    absurd (List.append_eq_nil_iff.mp (List.append_eq_nil_iff.mp h).1).1 (by decide)
  have hfield : completionField (Utf8.text (completionPayload (bytes s))) = s := by
    rw [text_completionPayload, completionField_completion]
  rw [Ne, ← Utf8.text_eq_empty_iff] at hne
  generalize Utf8.text (completionPayload (bytes s)) = payload at hne hfield ⊢
  exact (completionText_taskEvent id hne).trans hfield

end Zynax.Cli
