import Zynax.Engine.Dispatch
import Zynax.Adapter.Adk
import Zynax.Adapter.Http

namespace Zynax.Adapter

open Golang Grpc Transition
open Engine (extractResult)

/-!
# Results that the engine can read

The payload of a completion travels through the broker to the engine, which reads it as an envelope.

* `Usable` — the engine can read the payload; `Envelope` — it is a JSON object, or `null`.
-/

def Usable (cap : String) (payload : List UInt8) : Prop :=
  payload ≠ [] ∧ ∃ result, extractResult (Utf8.text payload) cap = .ok result

def Envelope (payload : List UInt8) : Prop :=
  ∃ v, Utf8.unmarshal payload = some v ∧ (v = .null ∨ ∃ fs, v = .obj fs)

theorem not_envelope_of_none {payload : List UInt8} (h : Utf8.unmarshal payload = none) :
    ¬ Envelope payload := by
  rintro ⟨v, hv, -⟩
  grind

theorem usable_iff (cap : String) (payload : List UInt8) : Usable cap payload ↔ Envelope payload := by
  by_cases hpayload : payload = []
  · subst hpayload
    exact iff_of_false (fun h => h.1 rfl) (not_envelope_of_none (by decide +kernel))
  · unfold Usable extractResult Envelope Utf8.unmarshal Json.decodeObject
    rw [if_neg (mt Utf8.text_eq_empty_iff.mp hpayload), and_iff_right hpayload]
    cases Json.unmarshal (Utf8.text payload) with
    | none => simp
    | some v =>
      cases v with
      | null => simp [Json.toFields]
      | obj fs =>
        simp only [Option.bind_some, Json.toFields]
        refine iff_of_true ?_ ⟨_, rfl, Or.inr ⟨fs, rfl⟩⟩
        split
        · simp
        · simp
      | _ => simp [Json.toFields]

/-! ### The completions of a run -/

section

variable {κ σ : Type} {ι : σ → Type}

def UsableResults (cap : String) (acts : List (Action κ)) : Prop :=
  ∀ ev, .send ev ∈ acts → ev.eventType = .completed → Usable cap ev.payload

theorem usableResults_exec_iff {cap : String} {turn : (s : σ) → ι s → Serving κ σ} {t : Serving κ σ}
    (ht : UsableResults cap t.out) (answers : List (Answer ι)) :
    UsableResults cap (exec turn t answers).1 ↔
      ∀ p ∈ steps turn t answers, UsableResults cap (turn p.1 p.2).out := by
  constructor
  · intro h p hp ev hev
    exact h ev (mem_exec_iff.mpr (Or.inr ⟨p, hp, hev⟩))
  · intro h ev hev hcompleted
    obtain hev | ⟨p, hp, hev⟩ := mem_exec_iff.mp hev
    · exact ht ev hev hcompleted
    · exact h p hp ev hev hcompleted

theorem usableResults_send_iff (cap : String) (ev : TaskEvent) (acts : List (Action κ)) :
    UsableResults cap (.send ev :: acts) ↔
      (ev.eventType = .completed → Usable cap ev.payload) ∧ UsableResults cap acts := by
  simp [UsableResults, or_imp, forall_and]

theorem usableResults_append_iff (cap : String) (a b : List (Action κ)) :
    UsableResults cap (a ++ b) ↔ UsableResults cap a ∧ UsableResults cap b := by
  simp [UsableResults, or_imp, forall_and]

theorem usableResults_nil (cap : String) : UsableResults cap ([] : List (Action κ)) :=
  fun _ hev => absurd hev (by simp)

theorem usableResults_call (cap : String) (c : κ) : UsableResults cap [.call c] :=
  fun _ hev => absurd hev (by simp)

theorem usableResults_failed (cap taskID code : String) (msg : List UInt8) :
    UsableResults cap ([.send (failedEvent taskID code msg)] : List (Action κ)) :=
  (usableResults_send_iff cap _ []).mpr ⟨(fun h => nomatch h), usableResults_nil cap⟩

theorem usableResults_fail (cap taskID code : String) (msg : List UInt8) :
    UsableResults cap (Serving.fail taskID code msg : Serving κ σ).out :=
  usableResults_failed cap taskID code msg

theorem usableResults_progress (cap taskID : String) (payload : List UInt8) :
    UsableResults cap ([.send (progressEvent taskID payload)] : List (Action κ)) :=
  (usableResults_send_iff cap _ []).mpr ⟨(fun h => nomatch h), usableResults_nil cap⟩

theorem usableResults_complete_iff (cap taskID : String) (payload : List UInt8) :
    UsableResults cap ([.send (completedEvent taskID payload)] : List (Action κ)) ↔ Envelope payload := by
  rw [usableResults_send_iff, and_iff_left (usableResults_nil cap), ← usable_iff cap]
  exact forall_prop_of_true rfl

theorem usableResults_checkRequest {cap : String} {req : ExecuteRequest} {t : Serving κ σ}
    (ht : UsableResults cap t.out) : UsableResults cap ((checkRequest req).getD t).out := by
  unfold checkRequest
  split_ifs
  · exact usableResults_nil cap
  · exact usableResults_nil cap
  · exact ht

end

/-! ### The http adapter -/

namespace Http

def HttpResult.Succeeds (res : HttpResult) (body : List UInt8) : Prop :=
  ∃ statusCode, res.exchange = .answered statusCode body ∧ (200 ≤ statusCode ∧ statusCode < 300) ∧
    body.length ≤ maxResponseBytes

def Succeeds : Select HttpResult → List UInt8 → Prop
  | .result res, body => res.Succeeds body
  | _, _ => False

theorem usableResults_executeCapability (cap : String) (env : Linked) (capabilities : List RouteConfig)
    (req : ExecuteRequest) : UsableResults cap (executeCapability env capabilities req).out := by
  refine usableResults_checkRequest ?_
  split
  · exact usableResults_fail cap _ _ _
  · split
    · exact usableResults_fail cap _ _ _
    · unfold execute
      dsimp only
      split
      · exact usableResults_fail cap _ _ _
      · exact usableResults_call cap _

theorem HttpResult.forall_succeeds_iff {res : HttpResult} {statusCode : Int} {body : List UInt8}
    (hx : res.exchange = .answered statusCode body) {p : List UInt8 → Prop} :
    (∀ b, res.Succeeds b → p b) ↔
      ((200 ≤ statusCode ∧ statusCode < 300) ∧ body.length ≤ maxResponseBytes → p body) := by
  constructor
  · exact fun h hok => h body ⟨statusCode, hx, hok⟩
  · rintro h b ⟨c, hc, hok⟩
    grind

theorem usableResults_handleResult_iff (cap taskID : String) (res : HttpResult) :
    UsableResults cap (handleResult taskID res).out ↔ ∀ body, res.Succeeds body → Envelope body := by
  unfold handleResult
  cases hx : res.exchange with
  | failed err =>
    refine iff_of_true ?_ ?_
    · dsimp only
      split_ifs
      · exact usableResults_fail cap _ _ _
      · exact usableResults_fail cap _ _ _
    · rintro body ⟨c, hc, -⟩
      grind
  | broken statusCode err =>
    refine iff_of_true (usableResults_fail cap _ _ _) ?_
    rintro body ⟨c, hc, -⟩
    grind
  | answered statusCode body =>
    have hlen : maxResponseBytes < (body.take (maxResponseBytes + 1)).length ↔
        ¬ body.length ≤ maxResponseBytes := by
      simp
    rw [HttpResult.forall_succeeds_iff hx]
    dsimp only
    split_ifs with hlong hstatus
    · exact iff_of_true (usableResults_fail cap _ _ _) fun h => absurd h.2 (hlen.mp hlong)
    · have hshort : body.length ≤ maxResponseBytes := by rwa [hlen, not_not] at hlong
      rw [List.take_of_length_le (by omega)]
      refine (usableResults_complete_iff cap taskID body).trans ?_
      grind
    · exact iff_of_true (usableResults_fail cap _ _ _) fun h => absurd h.1 hstatus

theorem usableResults_turn_iff (cap taskID : String) (s : Unit) (i : Select HttpResult) :
    UsableResults cap (turn taskID s i).out ↔ ∀ body, Succeeds i body → Envelope body := by
  cases i with
  | tick => exact iff_of_true (usableResults_progress cap taskID []) fun _ h => h.elim
  | result res => exact usableResults_handleResult_iff cap taskID res
  | done => exact iff_of_true (usableResults_fail cap _ _ _) fun _ h => h.elim

end Http

/-! ### The adk adapter -/

namespace Adk

theorem exists_of_validates {schema : Schema} {payload : String} (h : validates schema payload = true) :
    ∃ v, Json.unmarshal payload = some v := by
  unfold validates unmarshalAny Utf8.unmarshal at h
  rw [Utf8.text_stringBytes] at h
  cases hv : Json.unmarshal payload with
  | none => simp [hv] at h
  | some v => exact ⟨v, rfl⟩

theorem envelope_coerceOutput {rt : CapRuntime} {schema : Schema} (hschema : rt.outSchema = some schema)
    {text payload : String} (h : coerceOutput text rt = some payload) : Envelope (bytes payload) := by
  have henvelope : ∀ {v}, Json.unmarshal payload = some v → (∃ fs, v = .obj fs) →
      Envelope (bytes payload) := by
    intro v hv hobj
    exact ⟨v, by rw [Utf8.unmarshal, Utf8.text_stringBytes, hv], Or.inr hobj⟩
  unfold coerceOutput at h
  rw [hschema] at h
  dsimp only at h
  split_ifs at h with hobject hwrapped
  · -- the text itself is an object
    obtain rfl := Option.some.inj h
    obtain ⟨v, hv⟩ := exists_of_validates hobject.2
    obtain ⟨r, hr⟩ := List.isPrefixOf_iff_prefix.mp hobject.1
    exact henvelope hv (Json.unmarshal_brace hr.symm hv)
  · -- the text is the value of the target key
    obtain rfl := Option.some.inj h
    obtain ⟨v, hv⟩ := exists_of_validates hwrapped.2
    refine henvelope hv ?_
    rw [Json.unmarshal_marshal (by simp [Json.NumbersOk, Json.NumbersOkFields])] at hv
    grind

theorem usableResults_executeCapability (cap : String) (env : Linked) (caps : GoMap CapRuntime)
    (req : ExecuteRequest) : UsableResults cap (executeCapability env caps req).out := by
  refine usableResults_checkRequest ?_
  split
  · exact usableResults_fail cap _ _ _
  · split
    · exact usableResults_fail cap _ _ _
    · exact usableResults_call cap _

theorem usableResults_finished_iff (cap taskID : String) (s : State) :
    UsableResults cap (finished taskID s).out ↔
      (s.rt.outSchema = none → Envelope (bytes s.finalText)) := by
  have hprogress : UsableResults cap (if s.emittedProgress then []
      else [.send (progressEvent taskID (bytes s.finalText))] : List (Action Call)) := by
    split_ifs
    · exact usableResults_nil cap
    · exact usableResults_progress cap taskID _
  unfold finished
  cases hpayload : coerceOutput s.finalText s.rt with
  | none =>
    refine iff_of_true ((usableResults_append_iff cap _ _).mpr ⟨hprogress, ?_⟩) fun hschema => ?_
    · exact usableResults_failed cap taskID _ _
    · exact absurd hpayload (by simp [coerceOutput, hschema])
  | some payload =>
    refine (usableResults_append_iff cap _ _).trans ((and_iff_right hprogress).trans ?_)
    rw [usableResults_complete_iff]
    cases hschema : s.rt.outSchema with
    | none =>
      obtain rfl : s.finalText = payload := by simpa [coerceOutput, hschema] using hpayload
      simp
    | some schema => exact iff_of_true (envelope_coerceOutput hschema hpayload) fun h => nomatch h

theorem usableResults_turn_iff (cap taskID : String) (s : State) (y : Yield) :
    UsableResults cap (turn taskID s y).out ↔
      (y = .ended none → s.rt.outSchema = none → Envelope (bytes s.finalText)) := by
  cases y with
  | event ev =>
    refine iff_of_true ?_ fun h => nomatch h
    simp only [turn]
    split_ifs
    · exact usableResults_nil cap
    · exact usableResults_progress cap taskID _
    · exact usableResults_nil cap
  | failed err isDeadline ctx =>
    exact iff_of_true (usableResults_fail cap taskID _ _) fun h => nomatch h
  | ended ctx =>
    cases ctx with
    | some e => exact iff_of_true (usableResults_fail cap taskID _ _) fun h => nomatch h
    | none => exact (usableResults_finished_iff cap taskID s).trans ⟨fun h _ => h, fun h => h rfl⟩

end Adk

/-- **A completion is usable by the engine** exactly if the upstream's body is an object or `null`, and
    exactly if the agent's final text is or its capability declares an output schema. -/
theorem results_usable_iff (env : Linked) (req : ExecuteRequest) (cap : String) :
    (∀ capabilities answers,
      UsableResults cap (Http.serve env capabilities req answers).1 ↔
        ∀ p ∈ steps (Http.turn req.taskId) (Http.executeCapability env capabilities req) answers,
          ∀ body, Http.Succeeds p.2 body → Envelope body) ∧
    (∀ caps answers,
      UsableResults cap (Adk.serve env caps req answers).1 ↔
        ∀ p ∈ steps (Adk.turn req.taskId) (Adk.executeCapability env caps req) answers,
          p.2 = .ended none → p.1.rt.outSchema = none → Envelope (bytes p.1.finalText)) := by
  constructor
  · intro capabilities answers
    rw [usableResults_exec_iff (Http.usableResults_executeCapability cap env capabilities req) answers]
    exact forall₂_congr fun p _ => Http.usableResults_turn_iff cap req.taskId p.1 p.2
  · intro caps answers
    rw [usableResults_exec_iff (Adk.usableResults_executeCapability cap env caps req) answers]
    exact forall₂_congr fun p _ => Adk.usableResults_turn_iff cap req.taskId p.1 p.2

def pingRoute : Http.RouteConfig where
  name := "ping"
  method := "GET"
  url := "http://upstream/ping"

def pingRequest : ExecuteRequest where
  taskId := "t1"
  capabilityName := "ping"

def pong : List (Answer fun _ : Unit => Select Http.HttpResult) :=
  [fun _ => .result ⟨.answered 200 (bytes "pong"), .steady none⟩]

def askRequest : ExecuteRequest where
  taskId := "t2"
  capabilityName := "ask"
  inputPayload := bytes "\x7b\"prompt\":\"hi\"\x7d"

def askCaps : GoMap Adk.CapRuntime := AList.singleton "ask" ⟨none, none, ""⟩

def hello : List (Answer fun _ : Adk.State => Adk.Yield) :=
  [fun _ => .event ⟨false, ["hello"]⟩, fun _ => .ended none]

theorem completed_results_unusable :
    sent (Http.serve {} [pingRoute] pingRequest pong).1 = [completedEvent "t1" (bytes "pong")] ∧
    ¬ UsableResults "ping" (Http.serve {} [pingRoute] pingRequest pong).1 ∧
    sent (Adk.serve {} askCaps askRequest hello).1 =
      [progressEvent "t2" (bytes "hello"), completedEvent "t2" (bytes "hello")] ∧
    ¬ UsableResults "ask" (Adk.serve {} askCaps askRequest hello).1 := by
  have hping : sent (Http.serve {} [pingRoute] pingRequest pong).1 =
      [completedEvent "t1" (bytes "pong")] := by decide +kernel
  have hask : sent (Adk.serve {} askCaps askRequest hello).1 =
      [progressEvent "t2" (bytes "hello"), completedEvent "t2" (bytes "hello")] := by decide +kernel
  refine ⟨hping, fun h => ?_, hask, fun h => ?_⟩
  · have hev : completedEvent "t1" (bytes "pong") ∈ sent (Http.serve {} [pingRoute] pingRequest pong).1 :=
      hping ▸ List.mem_singleton.mpr rfl
    refine not_envelope_of_none ?_ ((usable_iff "ping" _).mp (h _ (mem_sent_iff.mp hev) rfl))
    decide +kernel
  · have hev : completedEvent "t2" (bytes "hello") ∈ sent (Adk.serve {} askCaps askRequest hello).1 :=
      hask ▸ List.mem_cons_of_mem _ (List.mem_singleton.mpr rfl)
    refine not_envelope_of_none ?_ ((usable_iff "ask" _).mp (h _ (mem_sent_iff.mp hev) rfl))
    decide +kernel

end Zynax.Adapter
