import Zynax.Broker.Service
import Zynax.Golang.Grpc
import Zynax.Golang.Utf8
import Zynax.Transition.Handlers

namespace Zynax.Adapter

open Golang Grpc Transition
open Broker (TaskEventType)

/-!
# What adapters send

An adapter serves `ExecuteCapability`: it streams the events of one task and calls an upstream on the
way.  The adapters share their requests, events and the texts they cut.
-/

abbrev bytes (s : String) : List UInt8 := stringBytes s

theorem bytes_eq (s : String) : bytes s = Utf8.encode s.toList := Utf8.stringBytes_eq s

/-! ### Requests and events -/

structure ExecuteRequest where
  taskId : String
  capabilityName : String
  inputPayload : List UInt8 := []
  timeoutSeconds : Int32 := 0
  workflowId : String := ""
  deriving DecidableEq

structure CapabilityError where
  code : String
  message : List UInt8
  deriving DecidableEq

structure TaskEvent where
  taskId : String
  eventType : TaskEventType
  payload : List UInt8 := []
  error : Option CapabilityError := none
  deriving DecidableEq

def progressEvent (taskID : String) (payload : List UInt8 := []) : TaskEvent where
  taskId := taskID
  eventType := .progress
  payload := payload

def completedEvent (taskID : String) (payload : List UInt8) : TaskEvent where
  taskId := taskID
  eventType := .completed
  payload := payload

def failedEvent (taskID code : String) (msg : List UInt8) : TaskEvent where
  taskId := taskID
  eventType := .failed
  error := some ⟨code, msg⟩

def cutBytes (max : Nat) (s : List UInt8) : List UInt8 := if max < s.length then s.take max else s

theorem cutBytes_eq_take (max : Nat) (s : List UInt8) : cutBytes max s = s.take max := by
  unfold cutBytes
  simp

def maxErrMsgLen : Nat := 512

/-! ### JSON -/

def unmarshalAny (data : List UInt8) : Option Json := (Utf8.unmarshal data).filter Json.inRange

abbrev Schema : Type := Json → Option (List UInt8)

structure Linked where
  tables : CaseTables := asciiTables
  compile : String → Except (List UInt8) Schema := fun _ => .ok fun _ => none
  unmarshalErr : String → List UInt8 → List UInt8 := fun _ _ => []
  newRequest : String → String → Option (List UInt8) := fun _ _ => none

def parsePayload {α : Type} (env : Linked) (target : String) (decode : Json → Option α)
    (payload : List UInt8) : Except (List UInt8) α :=
  if payload = [] then .error (bytes "input payload is required")
  else
    match (Utf8.unmarshal payload).bind decode with
    | none => .error (bytes "invalid JSON payload: " ++ env.unmarshalErr target payload)
    | some v => .ok v

theorem parsePayload_eq_ok {α : Type} {env : Linked} {target : String} {decode : Json → Option α}
    {payload : List UInt8} {v : α} (hpayload : payload ≠ [])
    (h : (Utf8.unmarshal payload).bind decode = some v) : parsePayload env target decode payload = .ok v := by
  unfold parsePayload
  rw [if_neg hpayload, h]

/-! ### Serving -/

variable {κ σ : Type} {ι : σ → Type}

inductive Action (κ : Type) where
  | call (c : κ)
  | send (ev : TaskEvent)
  deriving DecidableEq

def Action.event? : Action κ → Option TaskEvent
  | .call _ => none
  | .send ev => some ev

def sent (acts : List (Action κ)) : List TaskEvent := acts.filterMap Action.event?

@[simp] theorem sent_nil : sent ([] : List (Action κ)) = [] := rfl

@[simp] theorem sent_send (ev : TaskEvent) (acts : List (Action κ)) :
    sent (.send ev :: acts) = ev :: sent acts := rfl

@[simp] theorem sent_call (c : κ) (acts : List (Action κ)) : sent (.call c :: acts) = sent acts := rfl

theorem mem_sent_iff {ev : TaskEvent} {acts : List (Action κ)} : ev ∈ sent acts ↔ .send ev ∈ acts := by
  rw [sent, List.mem_filterMap]
  constructor
  · rintro ⟨act, hact, hev⟩
    cases act with
    | call c => exact nomatch hev
    | send ev' => exact Option.some.inj hev ▸ hact
  · exact fun hev => ⟨_, hev, rfl⟩

theorem sent_append (a b : List (Action κ)) : sent (a ++ b) = sent a ++ sent b := List.filterMap_append

abbrev Serving (κ σ : Type) : Type := Turn σ (Action κ) (Option Status)

def Serving.fail (taskID code : String) (msg : List UInt8) : Serving κ σ :=
  .finish [.send (failedEvent taskID code msg)] none

def Serving.complete (taskID : String) (payload : List UInt8) : Serving κ σ :=
  .finish [.send (completedEvent taskID payload)] none

def unknownMessage (name : String) : List UInt8 := bytes ("unknown capability: " ++ name)

def Serving.unknownCapability (taskID name : String) : Serving κ σ :=
  .fail taskID "INVALID_INPUT" (unknownMessage name)

def Serving.refuse (code : Code) (msg : String) : Serving κ σ := .finish [] (some ⟨code, .text msg⟩)

def checkRequest (req : ExecuteRequest) : Option (Serving κ σ) :=
  if req.taskId = "" then some (.refuse .invalidArgument "task_id is required")
  else if req.capabilityName = "" then some (.refuse .invalidArgument "capability_name is required")
  else none

theorem checkRequest_eq_none {req : ExecuteRequest} (htask : req.taskId ≠ "")
    (hcap : req.capabilityName ≠ "") : (checkRequest req : Option (Serving κ σ)) = none := by
  unfold checkRequest
  grind

theorem getD_checkRequest (req : ExecuteRequest) (t : Serving κ σ) :
    (∃ code msg, (checkRequest req).getD t = .refuse code msg) ∨ (checkRequest req).getD t = t := by
  unfold checkRequest
  grind

def router {α : Type} (name : α → String) (capabilities : List α) : GoMap α :=
  capabilities.foldl (fun m c => AList.insert (name c) c m) ∅

theorem name_of_lookup_router {α : Type} {name : α → String} {capabilities : List α} {k : String} {c : α}
    (h : (router name capabilities).lookup k = some c) : name c = k := by
  suffices hfold : ∀ m : GoMap α, (∀ k c, m.lookup k = some c → name c = k) → ∀ k c,
      (capabilities.foldl (fun m c => AList.insert (name c) c m) m).lookup k = some c → name c = k from
    hfold ∅ (by simp) k c h
  clear h
  intro m hm
  induction capabilities generalizing m with
  | nil => exact hm
  | cons d capabilities ih =>
    refine ih (AList.insert (name d) d m) fun k c hk => ?_
    by_cases hkey : k = name d
    · subst hkey
      rw [AList.lookup_insert] at hk
      rw [Option.some.inj hk]
    · rw [AList.lookup_insert_ne hkey] at hk
      exact hm k c hk

inductive Select (α : Type) where
  | tick
  | result (res : α)
  | done

inductive Pause where
  | elapsed
  | done

inductive Exchange where
  | failed (err : List UInt8)
  | broken (statusCode : Int) (err : List UInt8)
  | answered (statusCode : Int) (body : List UInt8)

structure Observed where
  atFailure : Option ContextError
  atCheck : Option ContextError
  mono : ∀ e, atFailure = some e → atCheck = some e

def Observed.steady (ctx : Option ContextError) : Observed := ⟨ctx, ctx, fun _ h => h⟩

/-! ### The grammar of a stream -/

variable {taskID : String}

structure EventOk (taskID : String) (ev : TaskEvent) : Prop where
  echo : ev.taskId = taskID
  failed : ev.eventType = .failed → (∃ err, ev.error = some err ∧ err.code ≠ "") ∧ ev.payload = []

structure Grammatical (taskID : String) (evs : List TaskEvent) : Prop where
  order : ∃ progress last, evs = progress ++ [last] ∧ (∀ ev ∈ progress, ev.eventType = .progress) ∧
    (last.eventType = .completed ∨ last.eventType = .failed)
  events : ∀ ev ∈ evs, EventOk taskID ev

def ProgressOnly (taskID : String) (evs : List TaskEvent) : Prop :=
  ∀ ev ∈ evs, ev.eventType = .progress ∧ EventOk taskID ev

theorem eventOk_progress (taskID : String) (payload : List UInt8) :
    EventOk taskID (progressEvent taskID payload) := ⟨rfl, fun h => absurd h (by simp [progressEvent])⟩

theorem Grammatical.append {l m : List TaskEvent} (hl : ProgressOnly taskID l)
    (hm : Grammatical taskID m) : Grammatical taskID (l ++ m) where
  order := by
    obtain ⟨progress, last, rfl, hprogress, hlast⟩ := hm.order
    refine ⟨l ++ progress, last, by simp, fun ev hev => ?_, hlast⟩
    exact (List.mem_append.mp hev).elim (fun h => (hl ev h).1) (hprogress ev)
  events := fun ev hev => (List.mem_append.mp hev).elim (fun h => (hl ev h).2) (hm.events ev)

theorem Grammatical.single {ev : TaskEvent} (hok : EventOk taskID ev)
    (hlast : ev.eventType = .completed ∨ ev.eventType = .failed) : Grammatical taskID [ev] where
  order := ⟨[], ev, rfl, by simp, hlast⟩
  events := by simpa using hok

def Keeps (taskID : String) (t : Serving κ σ) : Prop :=
  t.Within (fun acts => ProgressOnly taskID (sent acts)) (fun acts => Grammatical taskID (sent acts))

theorem keeps_fail (taskID : String) {code : String} (hcode : code ≠ "") (msg : List UInt8) :
    Keeps taskID (Serving.fail taskID code msg : Serving κ σ) :=
  Grammatical.single ⟨rfl, fun _ => ⟨⟨_, rfl, hcode⟩, rfl⟩⟩ (Or.inr rfl)

theorem keeps_complete (taskID : String) (payload : List UInt8) :
    Keeps taskID (Serving.complete taskID payload : Serving κ σ) :=
  Grammatical.single ⟨rfl, fun h => absurd h (by simp [completedEvent])⟩ (Or.inl rfl)

theorem keeps_unknownCapability (taskID name : String) :
    Keeps taskID (Serving.unknownCapability taskID name : Serving κ σ) := keeps_fail taskID (by decide) _

theorem keeps_call (taskID : String) (c : κ) (s : σ) :
    Keeps taskID (Turn.wait [.call c] s) := by
  show ProgressOnly taskID (sent [.call c])
  simp [ProgressOnly]

theorem keeps_wait (taskID : String) (s : σ) : Keeps taskID (Turn.wait [] s : Serving κ σ) := by
  show ProgressOnly taskID (sent ([] : List (Action κ)))
  simp [ProgressOnly]

theorem keeps_progress (taskID : String) (payload : List UInt8) (s : σ) :
    Keeps taskID (Turn.wait [.send (progressEvent taskID payload)] s : Serving κ σ) := by
  show ProgressOnly taskID (sent ([.send (progressEvent taskID payload)] : List (Action κ)))
  intro ev hev
  obtain rfl : ev = progressEvent taskID payload := by simpa using hev
  exact ⟨rfl, eventOk_progress taskID payload⟩

/-- **A server whose turns keep to the grammar sends a grammatical stream**, once it has returned. -/
theorem grammatical_exec {turn : (s : σ) → ι s → Serving κ σ}
    (hturn : ∀ s i, Keeps taskID (turn s i)) {t : Serving κ σ} (ht : Keeps taskID t)
    {answers : List (Answer ι)} {r : Option Status} (hr : (exec turn t answers).2 = .returns r) :
    Grammatical taskID (sent (exec turn t answers).1) := by
  refine exec_returned (fun l m hl hm => ?_) hturn ht hr
  rw [sent_append]
  exact Grammatical.append hl hm

end Zynax.Adapter
