import Zynax.Broker.ContextSlice
import Zynax.Events.Client
import Zynax.Golang.Utf8

namespace Zynax.Events

open Golang Nats

/-!
# Delivery to a subscriber

The loop behind a subscription: every message is decoded, filtered by the pattern and the workflow of
the subscriber, handed on and acknowledged.
-/

/-! ### Decoding -/

section Decode

abbrev ArrayReader : Type := List UInt8 → List Json → Option (List UInt8)

variable (readArray : ArrayReader)

def storeBytes : List UInt8 → List Json → Option (List UInt8)
  | b, [] => some b
  | b, v :: vs =>
    match v with
    -- `null` makes the slice nil
    | .null => storeBytes [] vs
    | .str s => (base64Decode s).bind fun b' => storeBytes b' vs
    | .arr xs => (readArray b xs).bind fun b' => storeBytes b' vs
    | _ => none

def bytesField (name : String) (v : Json) : Option (List UInt8) :=
  (Broker.fieldValues name v).bind (storeBytes readArray [])

def decodeEnvelope (data : List UInt8) : Option CloudEvent := do
  let env ← Utf8.unmarshal data
  let id ← Broker.stringField "id" env
  let source ← Broker.stringField "source" env
  let specVersion ← Broker.stringField "specversion" env
  let type ← Broker.stringField "type" env
  let dataContentType ← Broker.stringField "datacontenttype" env
  let workflowID ← Broker.stringField "workflowid" env
  let runID ← Broker.stringField "runid" env
  let nameSpace ← Broker.stringField "namespace" env
  let capabilityName ← Broker.stringField "capabilityname" env
  let data ← bytesField readArray "data" env
  pure { id, source, specVersion, type, dataContentType, data, workflowID, runID, nameSpace, capabilityName }

end Decode

/-! ### The loop -/

def terminalWorkflowVerbs : List String :=
  ["workflow.completed", "workflow.failed", "workflow.terminated", "workflow.canceled",
    "workflow.timed_out"]

def hasSuffix (s suffix : String) : Bool := suffix.toList.isSuffixOf s.toList

def isTerminalEventType (eventType : String) : Bool :=
  terminalWorkflowVerbs.any fun verb => eventType == verb || hasSuffix eventType ("." ++ verb)

structure Subscription extends SubscribeRequest where
  workflowID : String := ""

inductive Ack where
  | ack | nak
  deriving DecidableEq

structure Dispatch where
  ack : Ack
  sent : Option CloudEvent := none
  stop : Bool := false

variable (readArray : ArrayReader) (sub : Subscription)

/-- One message: acknowledged, delivered or returned. -/
def dispatchMsg (m : Msg) : Dispatch :=
  match decodeEnvelope readArray m.data with
  | none => { ack := .nak }
  | some event =>
    -- what the subscriber did not ask for is acknowledged, too, or it would come again
    if !matchesGlob sub.typePattern event.type then { ack := .ack }
    else if sub.workflowID ≠ "" ∧ event.workflowID ≠ sub.workflowID then { ack := .ack }
    else
      { ack := .ack, sent := some event,
        stop := sub.workflowID ≠ "" && isTerminalEventType event.type }

inductive Next where
  | msg (m : Msg)
  | retry
  | closed

structure Delivered where
  sent : List CloudEvent := []
  acks : List (Msg × Ack) := []
  closed : Bool := false

def deliver : List Next → Delivered
  -- the loop waits for more
  | [] => {}
  | .closed :: _ => { closed := true }
  | .retry :: rest => deliver rest
  | .msg m :: rest =>
    let d := dispatchMsg readArray sub m
    if d.stop then { sent := d.sent.toList, acks := [(m, d.ack)], closed := true }
    else
      let r := deliver rest
      { sent := d.sent.toList ++ r.sent, acks := (m, d.ack) :: r.acks, closed := r.closed }

/-! ### What is to be delivered -/

def handed : List Next → List Msg
  | [] => []
  | .closed :: _ => []
  | .retry :: rest => handed rest
  | .msg m :: rest => m :: handed rest

def accepted (m : Msg) : Option CloudEvent :=
  (decodeEnvelope readArray m.data).filter fun event =>
    matchesGlob sub.typePattern event.type &&
      (sub.workflowID == "" || event.workflowID == sub.workflowID)

def closes (m : Msg) : Bool :=
  sub.workflowID != "" && (accepted readArray sub m).any fun event => isTerminalEventType event.type

def upTo {α : Type} (p : α → Bool) : List α → List α
  | [] => []
  | a :: l => if p a then [a] else a :: upTo p l

/-! ### Reading what was published -/

variable {readArray sub}

theorem fieldValues_members {entries : List (String × Option Json)}
    (hnodup : (entries.map (fun p => Broker.foldName p.1)).Nodup) {name : String} {v : Option Json}
    (h : (name, v) ∈ entries) :
    Broker.fieldValues name (.obj (entries.filterMap fun p => p.2.map fun w => (p.1, w))) =
      some v.toList := by
  have hother : ∀ entries : List (String × Option Json),
      Broker.foldName name ∉ entries.map (fun p => Broker.foldName p.1) →
      (entries.filterMap fun p => p.2.map fun w => (p.1, w)).filter
        (fun p => Broker.foldName p.1 = Broker.foldName name) = [] := by
    intro entries hnot
    rw [List.filter_eq_nil_iff]
    intro p hp
    obtain ⟨q, hq, hpq⟩ := List.mem_filterMap.mp hp
    obtain ⟨w, -, rfl⟩ := Option.map_eq_some_iff.mp hpq
    grind
  rw [Broker.fieldValues]
  congr 1
  induction entries with
  | nil => cases h
  | cons p entries ih =>
    rw [List.map_cons, List.nodup_cons] at hnodup
    rw [List.filterMap_cons]
    rcases List.mem_cons.mp h with rfl | h
    · -- none of the other names is confused with this one
      cases v with
      | none => simp [hother entries hnodup.1]
      | some w => simp [hother entries hnodup.1]
    · have hne : Broker.foldName p.1 ≠ Broker.foldName name := by
        grind
      cases hv : p.2 with
      | none => simpa using ih hnodup.2 h
      | some w => simpa [hne] using ih hnodup.2 h

def optionalText (value : String) : Option Json := if value = "" then none else some (.str value)

theorem eq_str_of_optionalText {value : String} {w : Json} (h : optionalText value = some w) :
    w = .str value := by
  unfold optionalText at h
  grind

theorem stringField_members {entries : List (String × Option Json)}
    (hnodup : (entries.map (fun p => Broker.foldName p.1)).Nodup) {name value : String}
    (h : (name, some (.str value)) ∈ entries ∨ (name, optionalText value) ∈ entries) :
    Broker.stringField name (.obj (entries.filterMap fun p => p.2.map fun w => (p.1, w))) = some value := by
  rw [Broker.stringField]
  rcases h with h | h
  · rw [fieldValues_members hnodup h]
    rfl
  · rw [fieldValues_members hnodup h]
    unfold optionalText
    split
    · rename_i hempty
      rw [hempty]
      rfl
    · rfl

theorem text_of_members {entries : List (String × Option Json)}
    (h : ∀ p ∈ entries, ∃ s, p.2 = some (.str s) ∨ p.2 = optionalText s) :
    ∀ p ∈ entries.filterMap (fun p => p.2.map fun w => (p.1, w)), ∃ s, p.2 = Json.str s := by
  intro p hp
  obtain ⟨q, hq, hpq⟩ := List.mem_filterMap.mp hp
  obtain ⟨w, hw, rfl⟩ := Option.map_eq_some_iff.mp hpq
  obtain ⟨s, hs | hs⟩ := h q hq
  · grind
  · rw [hs] at hw
    exact ⟨s, eq_str_of_optionalText hw⟩

def envelopeMembers (e : CloudEvent) : List (String × Option Json) :=
  [("specversion", some (.str e.specVersion)), ("id", some (.str e.id)),
    ("source", some (.str e.source)), ("type", some (.str e.type)),
    ("datacontenttype", optionalText e.dataContentType), ("workflowid", optionalText e.workflowID),
    ("runid", optionalText e.runID), ("namespace", optionalText e.nameSpace),
    ("capabilityname", optionalText e.capabilityName), ("data", optionalText (base64Encode e.data))]

theorem omitEmpty_eq (key value : String) :
    omitEmpty key value = ((optionalText value).map fun w => (key, w)).toList := by
  unfold omitEmpty optionalText
  split <;> rfl

theorem cloudEventEnvelope_eq (e : CloudEvent) :
    cloudEventEnvelope e = .obj ((envelopeMembers e).filterMap fun p => p.2.map fun w => (p.1, w)) := by
  rw [cloudEventEnvelope, List.filterMap_eq_flatMap_toList, envelopeMembers]
  simp only [omitEmpty_eq, List.flatMap_cons, List.flatMap_nil, List.append_nil, List.append_assoc,
    Option.map_some, Option.toList_some, List.cons_append, List.nil_append]

theorem nodup_envelopeNames (e : CloudEvent) :
    ((envelopeMembers e).map (fun p => Broker.foldName p.1)).Nodup := by
  have hnames : ((["specversion", "id", "source", "type", "datacontenttype", "workflowid", "runid",
      "namespace", "capabilityname", "data"] : List String).map Broker.foldName).Nodup := by
    decide +kernel
  exact hnames

theorem stringField_envelope (e : CloudEvent) {name value : String}
    (h : (name, some (.str value)) ∈ envelopeMembers e ∨ (name, optionalText value) ∈ envelopeMembers e) :
    Broker.stringField name (cloudEventEnvelope e) = some value := by
  rw [cloudEventEnvelope_eq]
  exact stringField_members (nodup_envelopeNames e) h

theorem base64Encode_eq_empty {data : List UInt8} (h : base64Encode data = "") : data = [] := by
  have hdec := base64Decode_encode data
  rw [h] at hdec
  exact (Option.some.inj hdec).symm

theorem bytesField_envelope (readArray : ArrayReader) (e : CloudEvent) :
    bytesField readArray "data" (cloudEventEnvelope e) = some e.data := by
  have hmem : ("data", optionalText (base64Encode e.data)) ∈ envelopeMembers e := by
    simp [envelopeMembers]
  rw [bytesField, cloudEventEnvelope_eq, fieldValues_members (nodup_envelopeNames e) hmem, optionalText]
  split
  · rename_i hempty
    rw [base64Encode_eq_empty hempty]
    rfl
  · show (base64Decode (base64Encode e.data)).bind (fun b => storeBytes readArray b []) = _
    rw [base64Decode_encode]
    rfl

theorem unmarshal_cloudEventEnvelope (e : CloudEvent) :
    Json.unmarshal (cloudEventEnvelope e).marshal = some (cloudEventEnvelope e) := by
  -- four members are always written, the others unless they are empty
  have hmembers : ∀ p ∈ envelopeMembers e, ∃ s, p.2 = some (.str s) ∨ p.2 = optionalText s := by
    simp only [envelopeMembers, List.forall_mem_cons]
    exact ⟨⟨_, Or.inl rfl⟩, ⟨_, Or.inl rfl⟩, ⟨_, Or.inl rfl⟩, ⟨_, Or.inl rfl⟩, ⟨_, Or.inr rfl⟩,
      ⟨_, Or.inr rfl⟩, ⟨_, Or.inr rfl⟩, ⟨_, Or.inr rfl⟩, ⟨_, Or.inr rfl⟩, ⟨_, Or.inr rfl⟩, by simp⟩
  rw [cloudEventEnvelope_eq]
  exact Json.unmarshal_texts (text_of_members hmembers)

/-- **A published event is read again.** -/
theorem decodeEnvelope_eventMsg (readArray : ArrayReader) (e : CloudEvent) :
    decodeEnvelope readArray (eventMsg e).data = some e := by
  have hread : Utf8.unmarshal (eventMsg e).data = some (cloudEventEnvelope e) := by
    rw [Utf8.unmarshal, eventMsg, Utf8.text_stringBytes, unmarshal_cloudEventEnvelope]
  have hfield : ∀ {name value : String}, (name, some (.str value)) ∈ envelopeMembers e ∨
      (name, optionalText value) ∈ envelopeMembers e →
        Broker.stringField name (cloudEventEnvelope e) = some value := stringField_envelope e
  have hid : Broker.stringField "id" (cloudEventEnvelope e) = some e.id :=
    hfield (by simp [envelopeMembers])
  have hsource : Broker.stringField "source" (cloudEventEnvelope e) = some e.source :=
    hfield (by simp [envelopeMembers])
  have hspec : Broker.stringField "specversion" (cloudEventEnvelope e) = some e.specVersion :=
    hfield (by simp [envelopeMembers])
  have htype : Broker.stringField "type" (cloudEventEnvelope e) = some e.type :=
    hfield (by simp [envelopeMembers])
  have hcontent : Broker.stringField "datacontenttype" (cloudEventEnvelope e) = some e.dataContentType :=
    hfield (by simp [envelopeMembers])
  have hworkflow : Broker.stringField "workflowid" (cloudEventEnvelope e) = some e.workflowID :=
    hfield (by simp [envelopeMembers])
  have hrun : Broker.stringField "runid" (cloudEventEnvelope e) = some e.runID :=
    hfield (by simp [envelopeMembers])
  have hns : Broker.stringField "namespace" (cloudEventEnvelope e) = some e.nameSpace :=
    hfield (by simp [envelopeMembers])
  have hcap : Broker.stringField "capabilityname" (cloudEventEnvelope e) = some e.capabilityName :=
    hfield (by simp [envelopeMembers])
  unfold decodeEnvelope
  rw [hread]
  simp only [Option.bind_eq_bind, Option.bind_some, hid, hsource, hspec, htype, hcontent, hworkflow,
    hrun, hns, hcap, bytesField_envelope]
  rfl

/-! ### What a subscriber receives -/

theorem dispatchMsg_eq (readArray : ArrayReader) (sub : Subscription) (m : Msg) :
    dispatchMsg readArray sub m =
      { ack := if (decodeEnvelope readArray m.data).isSome then .ack else .nak
        sent := accepted readArray sub m
        stop := closes readArray sub m } := by
  unfold dispatchMsg closes accepted
  grind

theorem deliver_msg (readArray : ArrayReader) (sub : Subscription) (m : Msg) (rest : List Next) :
    deliver readArray sub (.msg m :: rest) =
      if closes readArray sub m then
        { sent := (accepted readArray sub m).toList
          acks := [(m, if (decodeEnvelope readArray m.data).isSome then .ack else .nak)]
          closed := true }
      else
        { sent := (accepted readArray sub m).toList ++ (deliver readArray sub rest).sent
          acks := (m, if (decodeEnvelope readArray m.data).isSome then .ack else .nak) ::
            (deliver readArray sub rest).acks
          closed := (deliver readArray sub rest).closed } := by
  rw [deliver, dispatchMsg_eq]

theorem deliver_sent_acks (readArray : ArrayReader) (sub : Subscription) (nexts : List Next) :
    (deliver readArray sub nexts).sent =
        (upTo (closes readArray sub) (handed nexts)).filterMap (accepted readArray sub) ∧
      (deliver readArray sub nexts).acks =
        (upTo (closes readArray sub) (handed nexts)).map (fun m =>
          (m, if (decodeEnvelope readArray m.data).isSome then .ack else .nak)) := by
  induction nexts with
  | nil => exact ⟨rfl, rfl⟩
  | cons next rest ih =>
    cases next with
    | closed => exact ⟨rfl, rfl⟩
    | retry => exact ih
    | msg m =>
      -- the messages after the one that closes the stream are not handled
      rw [deliver_msg, handed, upTo]
      grind

theorem deliver_closed_iff (readArray : ArrayReader) (sub : Subscription) (nexts : List Next) :
    (deliver readArray sub nexts).closed = true ↔
      (∃ m ∈ handed nexts, closes readArray sub m = true) ∨ Next.closed ∈ nexts := by
  induction nexts with
  | nil => simp [deliver, handed]
  | cons next rest ih =>
    cases next with
    | closed => simp [deliver]
    | retry => simpa [deliver, handed] using ih
    | msg m =>
      rw [deliver_msg, handed]
      grind

/-- **What a subscriber receives.**  Whatever `NextMsg` returns: the channel receives the events of
    the messages that match the pattern and the scope, in order, up to the first terminal event in
    scope; each message up to there is acknowledged once if it can be decoded, and negatively
    otherwise; the stream ends with such an event or with the connection, without a scope only with
    the connection; and what was published is received as it was. -/
theorem deliver_spec (readArray : ArrayReader) (sub : Subscription) (nexts : List Next) :
    (deliver readArray sub nexts).sent =
        (upTo (closes readArray sub) (handed nexts)).filterMap (accepted readArray sub) ∧
      (deliver readArray sub nexts).acks =
        (upTo (closes readArray sub) (handed nexts)).map (fun m =>
          (m, if (decodeEnvelope readArray m.data).isSome then .ack else .nak)) ∧
      ((deliver readArray sub nexts).closed = true ↔
        (∃ m ∈ handed nexts, closes readArray sub m = true) ∨ Next.closed ∈ nexts) ∧
      (sub.workflowID = "" → ∀ m, closes readArray sub m = false) ∧
      ∀ e : CloudEvent, decodeEnvelope readArray (eventMsg e).data = some e := by
  have hscope : sub.workflowID = "" → ∀ m, closes readArray sub m = false := by
    intro h m
    rw [closes, h]
    rfl
  obtain ⟨hsent, hacks⟩ := deliver_sent_acks readArray sub nexts
  exact ⟨hsent, hacks, deliver_closed_iff readArray sub nexts, hscope, decodeEnvelope_eventMsg readArray⟩

end Zynax.Events
