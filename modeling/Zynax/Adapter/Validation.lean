import Zynax.Adapter.Adk
import Zynax.Adapter.Http
import Zynax.Adapter.Llm

namespace Zynax.Adapter

open Golang Grpc Transition

/-!
# Input schemas

The http, llm and adk adapters check the input payload of a capability against its declared schema.
-/

section

variable {κ σ : Type} {ι : σ → Type}

def Satisfies (schema : Schema) (payload : List UInt8) : Prop :=
  ∃ v, unmarshalAny payload = some v ∧ schema v = none

structure Validated (schema : Schema) (taskID : String) (payload : List UInt8)
    (acts : List (Action κ)) : Prop where
  called : ∀ c, Action.call c ∈ acts → Satisfies schema payload
  refused : ¬ Satisfies schema payload → ∃ msg, sent acts = [failedEvent taskID "INVALID_INPUT" msg]

theorem Validated.of_satisfies {schema : Schema} {payload : List UInt8} (h : Satisfies schema payload)
    (taskID : String) (acts : List (Action κ)) : Validated schema taskID payload acts :=
  ⟨fun _ _ => h, fun hnot => absurd h hnot⟩

theorem Validated.of_fail {turn : (s : σ) → ι s → Serving κ σ} {t : Serving κ σ} {taskID : String}
    {msg : List UInt8} (ht : t = .fail taskID "INVALID_INPUT" msg) (schema : Schema)
    (payload : List UInt8) (answers : List (Answer ι)) :
    Validated schema taskID payload (exec turn t answers).1 := by
  have hexec : (exec turn t answers).1 = [.send (failedEvent taskID "INVALID_INPUT" msg)] := by
    rw [ht, exec_of_returns rfl]
    rfl
  rw [hexec]
  exact ⟨fun c hc => absurd hc (by simp), fun _ => ⟨msg, rfl⟩⟩

theorem not_satisfies_nil (schema : Schema) : ¬ Satisfies schema [] := by
  rintro ⟨v, hv, -⟩
  exact absurd hv (by simp [unmarshalAny, show Utf8.unmarshal [] = none from by decide +kernel])

end

/-! ### The http adapter -/

variable {env : Linked} {schema : Schema} {capabilities : List RouteConfig} {req : ExecuteRequest}
  {route : RouteConfig}

theorem Http.validatePayload_eq_none_iff {schemaJSON : String}
    (hcompile : env.compile schemaJSON = .ok schema) (payload : List UInt8) :
    validatePayload env schemaJSON payload = none ↔ Satisfies schema payload := by
  unfold validatePayload Satisfies
  rw [hcompile]
  cases unmarshalAny payload with
  | none => simp
  | some v => simp

theorem Http.executeCapability_nil (env : Linked) (htask : req.taskId ≠ "")
    (hcap : req.capabilityName ≠ "")
    (hroute : (router RouteConfig.name capabilities).lookup req.capabilityName = some route)
    (hpayload : req.inputPayload = []) :
    executeCapability env capabilities req = execute env route req.taskId [] := by
  unfold executeCapability schemaError
  rw [checkRequest_eq_none htask hcap, Option.getD_none, hroute, hpayload]
  simp

theorem Http.not_validated_nil (htask : req.taskId ≠ "") (hcap : req.capabilityName ≠ "")
    (hroute : (router RouteConfig.name capabilities).lookup req.capabilityName = some route)
    (schema : Schema) (answers : List (Answer fun _ : Unit => Select HttpResult))
    (hpayload : req.inputPayload = []) :
    ¬ Validated schema req.taskId req.inputPayload (serve env capabilities req answers).1 := by
  intro hvalid
  have hstart := executeCapability_nil env htask hcap hroute hpayload
  have hnot : ¬ Satisfies schema req.inputPayload := hpayload ▸ not_satisfies_nil schema
  obtain ⟨msg, hmsg⟩ := hvalid.refused hnot
  rw [serve, hstart] at hmsg
  unfold execute at hstart hmsg
  dsimp only at hstart hmsg
  cases hnew : env.newRequest (env.tables.toUpper route.method) route.url with
  | some err =>
    rw [hnew, exec_of_returns rfl] at hmsg
    exact absurd hmsg (by simp [Serving.fail, Turn.finish, failedEvent])
  | none =>
    -- the first thing that is put out is the request
    rw [hnew] at hstart
    have hcall : (executeCapability env capabilities req).out <+:
        (serve env capabilities req answers).1 := prefix_exec _ answers
    rw [hstart] at hcall
    exact hnot (hvalid.called _ (hcall.subset (List.mem_singleton.mpr rfl)))

theorem Http.validated_iff (htask : req.taskId ≠ "") (hcap : req.capabilityName ≠ "")
    (hroute : (router RouteConfig.name capabilities).lookup req.capabilityName = some route)
    (hdeclared : route.inputSchemaJSON ≠ "") (hcompile : env.compile route.inputSchemaJSON = .ok schema)
    (answers : List (Answer fun _ : Unit => Select HttpResult)) :
    Validated schema req.taskId req.inputPayload (serve env capabilities req answers).1 ↔
      req.inputPayload ≠ [] := by
  constructor
  · exact fun hvalid hpayload => not_validated_nil htask hcap hroute schema answers hpayload hvalid
  · intro hpayload
    by_cases hsat : Satisfies schema req.inputPayload
    · exact .of_satisfies hsat req.taskId _
    · have herr := mt (validatePayload_eq_none_iff hcompile req.inputPayload).mp hsat
      obtain ⟨err, herr⟩ := Option.ne_none_iff_exists'.mp herr
      have hstart : executeCapability env capabilities req =
          .fail req.taskId "INVALID_INPUT" (sanitise err) := by
        unfold executeCapability schemaError
        rw [checkRequest_eq_none htask hcap, Option.getD_none, hroute]
        grind
      exact .of_fail hstart schema req.inputPayload answers

/-! ### The llm and the adk adapter -/

theorem Llm.satisfies_of_parseInput {payload : List UInt8}
    {prompt : String} (h : parseInput env (some schema) payload = .ok prompt) :
    Satisfies schema payload := by
  unfold parseInput at h
  cases hv : unmarshalAny payload with
  | none => simp [hv] at h
  | some v =>
    cases hs : schema v with
    | none => exact ⟨v, hv, hs⟩
    | some err => simp [hv, hs] at h

theorem Adk.satisfies_of_parseInput {payload : List UInt8}
    {prompt : String} (h : parseInput env payload (some schema) = .ok prompt) :
    Satisfies schema payload := by
  unfold parseInput at h
  cases hv : unmarshalAny payload with
  | none => simp [hv] at h
  | some v =>
    cases hs : schema v with
    | none => exact ⟨v, hv, hs⟩
    | some err => simp [hv, hs] at h

theorem Llm.validated {handlers : GoMap (Option Schema)} (htask : req.taskId ≠ "")
    (hcap : req.capabilityName ≠ "")
    (hhandler : handlers.lookup req.capabilityName = some (some schema))
    (answers : List (Answer Input)) :
    Validated schema req.taskId req.inputPayload (serve env handlers req answers).1 := by
  cases hparse : parseInput env (some schema) req.inputPayload with
  | ok prompt => exact .of_satisfies (satisfies_of_parseInput hparse) req.taskId _
  | error err =>
    have hstart : executeCapability env handlers req =
        .fail req.taskId "INVALID_INPUT" (sanitise err) := by
      unfold executeCapability execute
      rw [checkRequest_eq_none htask hcap, Option.getD_none, hhandler]
      simp only [hparse]
      rfl
    exact .of_fail hstart schema req.inputPayload answers

theorem Adk.validated {caps : GoMap CapRuntime} (htask : req.taskId ≠ "")
    (hcap : req.capabilityName ≠ "") {rt : CapRuntime}
    (hrt : caps.lookup req.capabilityName = some rt) (hschema : rt.inSchema = some schema)
    (answers : List (Answer fun _ : State => Yield)) :
    Validated schema req.taskId req.inputPayload (serve env caps req answers).1 := by
  cases hparse : parseInput env req.inputPayload (some schema) with
  | ok prompt => exact .of_satisfies (satisfies_of_parseInput hparse) req.taskId _
  | error err =>
    have hstart : executeCapability env caps req =
        .fail req.taskId "INVALID_INPUT" (boundMessage err) := by
      unfold executeCapability
      rw [checkRequest_eq_none htask hcap, Option.getD_none, hrt]
      simp only [hschema, hparse]
      rfl
    exact .of_fail hstart schema req.inputPayload answers

/-- **Nothing happens before the input is validated**: always in the llm and the adk adapter, and
    exactly for payloads that are not empty in the http adapter. -/
theorem input_validated_iff (env : Linked) (req : ExecuteRequest) (schema : Schema)
    (htask : req.taskId ≠ "") (hcap : req.capabilityName ≠ "") :
    (∀ capabilities route answers,
      (router Http.RouteConfig.name capabilities).lookup req.capabilityName = some route →
      route.inputSchemaJSON ≠ "" → env.compile route.inputSchemaJSON = .ok schema →
      (Validated schema req.taskId req.inputPayload (Http.serve env capabilities req answers).1 ↔
        req.inputPayload ≠ [])) ∧
    (∀ handlers answers, handlers.lookup req.capabilityName = some (some schema) →
      Validated schema req.taskId req.inputPayload (Llm.serve env handlers req answers).1) ∧
    (∀ caps rt answers, caps.lookup req.capabilityName = some rt → rt.inSchema = some schema →
      Validated schema req.taskId req.inputPayload (Adk.serve env caps req answers).1) := by
  refine ⟨fun capabilities route answers hroute hdeclared hcompile => ?_,
    fun handlers answers hhandler => ?_, fun caps rt answers hrt hschema => ?_⟩
  · exact Http.validated_iff htask hcap hroute hdeclared hcompile answers
  · exact Llm.validated htask hcap hhandler answers
  · exact Adk.validated htask hcap hrt hschema answers

def objectSchema : Schema
  | .obj _ => none
  | _ => some (bytes "expected object")

def objectEnv : Linked where
  compile := fun _ => .ok objectSchema

def createRoute : Http.RouteConfig where
  name := "create"
  method := "POST"
  url := "http://upstream/items"
  inputSchemaJSON := "\x7b\"type\":\"object\"\x7d"

def createRequest (payload : String) : ExecuteRequest where
  taskId := "t1"
  capabilityName := "create"
  inputPayload := bytes payload

def createCaps : GoMap Adk.CapRuntime := AList.singleton "create" ⟨some objectSchema, none, ""⟩

theorem input_validated_array :
    Validated objectSchema "t1" (bytes "[]")
      (Http.serve objectEnv [createRoute] (createRequest "[]") []).1 ∧
    Validated objectSchema "t1" (bytes "[]")
      (Llm.serve objectEnv (AList.singleton "create" (some objectSchema)) (createRequest "[]") []).1 ∧
    Validated objectSchema "t1" (bytes "[]")
      (Adk.serve objectEnv createCaps (createRequest "[]") []).1 :=
  have h := input_validated_iff objectEnv (createRequest "[]") objectSchema (by decide) (by decide)
  ⟨(h.1 [createRoute] createRoute [] rfl (by decide) rfl).mpr (by decide +kernel),
    h.2.1 _ [] rfl, h.2.2 createCaps _ [] rfl rfl⟩

theorem empty_payload_sent_upstream :
    (Http.serve objectEnv [createRoute] (createRequest "") []).1 =
      [.call ⟨"POST", "http://upstream/items", ∅, none⟩] ∧
    ¬ Validated objectSchema "t1" [] (Http.serve objectEnv [createRoute] (createRequest "") []).1 :=
  have hcall : (Http.serve objectEnv [createRoute] (createRequest "") []).1 =
      [.call ⟨"POST", "http://upstream/items", ∅, none⟩] := by rfl
  ⟨hcall, fun h => not_satisfies_nil objectSchema (h.called _ (hcall ▸ List.mem_singleton.mpr rfl))⟩

end Zynax.Adapter
