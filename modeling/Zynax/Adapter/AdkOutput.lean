import Zynax.Adapter.Adk
import Zynax.Adapter.LlmProviders

namespace Zynax.Adapter.Adk

open Golang Grpc Transition
open Broker (TaskEventType fieldValues fieldValuesOf stringField storeString storeStrings)
open Llm (Body chunksOf storeBool)

/-!
# What the adk adapter returns

The model streams its text as JSON lines.  The deltas become progress, and the whole text is returned: as
the JSON object it is, or under a key of the output schema.
-/

/-! ### The key -/

variable {it it' : Iteration} {schemaJSON : String} {types : GoMap String} {required : List String}

def readSchema (schemaJSON : String) : Option (GoMap String × List String) :=
  if trimSpace schemaJSON = "" then none
  else do
    let v ← Json.unmarshal schemaJSON
    let types ← (fieldValues "properties" v).bind (storeTypes ∅)
    let required ← (fieldValues "required" v).bind (storeStrings none)
    return (types, required.getD [])

def isString (types : GoMap String) (k : String) : Bool := types.lookup k = some "string"

def namesOf (vs : List Json) : List String :=
  vs.flatMap fun v => match v with
    | .obj fs => fs.map Prod.fst
    | _ => []

def declaredNames (schemaJSON : String) : List String :=
  (((Json.unmarshal schemaJSON).bind (fieldValues "properties")).map namesOf).getD []

def declaredKey (schemaJSON : String) : Option String :=
  (readSchema schemaJSON).bind fun p =>
    (p.2.find? (isString p.1)).or ((declaredNames schemaJSON).find? (isString p.1))

def wrapKey (outKey : String) : Option String := if outKey = "" then none else some outKey

structure Unambiguous (schemaJSON : String) : Prop where
  named : declaredKey schemaJSON ≠ some ""
  single : ∀ types required, readSchema schemaJSON = some (types, required) →
    (required.find? (isString types)).isSome = true ∨ (types.keys.filter (isString types)).length ≤ 1

theorem wrapKey_inj {a b : String} (h : wrapKey a = wrapKey b) : a = b := by
  unfold wrapKey at h
  grind

theorem outputTargetKey_of_none (h : readSchema schemaJSON = none) :
    outputTargetKey it schemaJSON = "" := by
  unfold readSchema at h
  unfold outputTargetKey
  split_ifs at h ⊢
  · rfl
  · simp only [h]

theorem outputTargetKey_of_some (h : readSchema schemaJSON = some (types, required)) :
    outputTargetKey it schemaJSON = (required.find? (isString types)).getD
      (if types.keys.filter (isString types) = [] then "" else it.first (types.keys.filter (isString types))) := by
  unfold readSchema at h
  split_ifs at h with hblank
  unfold outputTargetKey
  simp only [hblank, if_false, h]
  cases hfind : required.find? (isString types) with
  | some k =>
    unfold isString at hfind
    rw [hfind]
    rfl
  | none =>
    unfold isString at hfind
    rw [hfind]
    rfl

theorem mem_of_foldlM {fs : List (String × Json)} {m : GoMap String}
    (h : fs.foldlM (fun m p => (stringField "type" p.2).map fun t => AList.insert p.1 t m) m = some types)
    {k : String} (hk : k ∈ types.keys) : k ∈ m.keys ∨ k ∈ fs.map Prod.fst := by
  induction fs generalizing m with
  | nil =>
    grind
  | cons p fs ih =>
    rw [List.foldlM_cons] at h
    obtain ⟨m', hm', hrest⟩ := Option.bind_eq_some_iff.mp h
    obtain ⟨t, -, rfl⟩ := Option.map_eq_some_iff.mp hm'
    rcases ih hrest with hin | hin
    · rw [← AList.mem_keys, AList.mem_insert] at hin
      rcases hin with rfl | hin
      · simp
      · exact .inl hin
    · grind

theorem mem_namesOf {vs : List Json} {m : GoMap String} (h : storeTypes m vs = some types) {k : String}
    (hk : k ∈ types.keys) : k ∈ m.keys ∨ k ∈ namesOf vs := by
  induction vs generalizing m with
  | nil =>
    obtain rfl := Option.some.inj h
    exact .inl hk
  | cons v vs ih =>
    have hnames : namesOf (v :: vs) = namesOf [v] ++ namesOf vs := by simp [namesOf]
    rw [hnames, List.mem_append]
    cases v with
    | null => exact (ih h).elim (fun hin => absurd hin (by simp)) fun hin => .inr (.inr hin)
    | obj fs =>
      obtain ⟨m', hm', hrest⟩ := Option.bind_eq_some_iff.mp h
      rcases ih hrest with hin | hin
      · refine (mem_of_foldlM hm' hin).imp_right fun hin => .inl ?_
        simpa [namesOf] using hin
      · exact .inr (.inr hin)
    | _ => exact nomatch h

theorem mem_declaredNames (h : readSchema schemaJSON = some (types, required)) {k : String}
    (hk : k ∈ types.keys) : k ∈ declaredNames schemaJSON := by
  unfold readSchema at h
  split_ifs at h
  obtain ⟨v, hv, h⟩ := Option.bind_eq_some_iff.mp h
  obtain ⟨types', htypes, h⟩ := Option.bind_eq_some_iff.mp h
  obtain ⟨required', -, h⟩ := Option.bind_eq_some_iff.mp h
  obtain rfl : types' = types := congrArg Prod.fst (Option.some.inj h)
  obtain ⟨vs, hvs, hstore⟩ := Option.bind_eq_some_iff.mp htypes
  rw [declaredNames, hv, Option.bind_some, hvs]
  exact (mem_namesOf hstore hk).resolve_left (by simp)

theorem mem_keys_of_isString {k : String} (h : isString types k = true) : k ∈ types.keys := by
  rw [← AList.mem_keys, ← AList.lookup_isSome, of_decide_eq_true h]
  rfl

theorem find_declaredNames (h : readSchema schemaJSON = some (types, required))
    (hone : (types.keys.filter (isString types)).length ≤ 1) :
    (declaredNames schemaJSON).find? (isString types) = (types.keys.filter (isString types)).head? := by
  have hmem : ∀ k, isString types k = true → k ∈ types.keys.filter (isString types) := fun k hk =>
    List.mem_filter.mpr ⟨mem_keys_of_isString hk, hk⟩
  cases hkeys : types.keys.filter (isString types) with
  | nil =>
    grind
  | cons k ks =>
    obtain rfl : ks = [] := by
      rw [hkeys, List.length_cons] at hone
      grind
    have hk : k ∈ types.keys.filter (isString types) := by rw [hkeys]; exact List.mem_singleton_self k
    obtain ⟨hin, hstr⟩ := List.mem_filter.mp hk
    cases hfind : (declaredNames schemaJSON).find? (isString types) with
    | none => exact absurd hstr (List.find?_eq_none.mp hfind k (mem_declaredNames h hin))
    | some k' =>
      grind

theorem wrapKey_eq_declaredKey (h : Unambiguous schemaJSON) (it : Iteration) :
    wrapKey (outputTargetKey it schemaJSON) = declaredKey schemaJSON := by
  have hnamed := h.named
  unfold declaredKey at hnamed ⊢
  cases hread : readSchema schemaJSON with
  | none =>
    rw [outputTargetKey_of_none hread]
    rfl
  | some p =>
    obtain ⟨types, required⟩ := p
    rw [hread, Option.bind_some] at hnamed
    rw [outputTargetKey_of_some hread, Option.bind_some]
    have hwrap : ∀ k, some k ≠ some "" → wrapKey k = some k := fun k hk => if_neg fun heq => hk (congrArg some heq)
    dsimp only at hnamed ⊢
    cases hfind : required.find? (isString types) with
    | some k =>
      rw [hfind, Option.some_or] at hnamed
      exact hwrap k hnamed
    | none =>
      have hone : (types.keys.filter (isString types)).length ≤ 1 := by
        refine (h.single types required hread).resolve_left ?_
        rw [hfind]
        exact Bool.false_ne_true
      rw [hfind, Option.none_or, find_declaredNames hread hone] at hnamed
      rw [Option.none_or, find_declaredNames hread hone, Option.getD_none]
      cases hkeys : types.keys.filter (isString types) with
      | nil => rfl
      | cons k ks =>
        rw [hkeys] at hnamed hone
        obtain rfl : ks = [] := List.length_eq_zero_iff.mp (by rw [List.length_cons] at hone; omega)
        have hfirst : it.first [k] = k := List.mem_singleton.mp (it.mem [k] (List.cons_ne_nil _ _))
        rw [if_neg (List.cons_ne_nil _ _), hfirst]
        exact hwrap k hnamed

def Iteration.from (k : String) : Iteration where
  first keys := if k ∈ keys then k else keys.headD ""
  mem keys hne := by
    split
    · assumption
    · obtain ⟨x, xs, rfl⟩ := List.exists_cons_of_ne_nil hne
      exact List.mem_cons_self

theorem unambiguous_of_wrapKey
    (h : ∀ it, wrapKey (outputTargetKey it schemaJSON) = declaredKey schemaJSON) :
    Unambiguous schemaJSON where
  named hempty := by
    have hkey := h (.from "")
    rw [hempty, wrapKey] at hkey
    grind
  single types required hread := by
    cases hfind : required.find? (isString types) with
    | some k => exact .inl rfl
    | none =>
      refine .inr (Nat.le_of_not_lt fun htwo => ?_)
      -- an iteration for each of two keys
      obtain ⟨a, b, ks, hkeys⟩ : ∃ a b ks, types.keys.filter (isString types) = a :: b :: ks := by
        cases hkeys : types.keys.filter (isString types) with
        | nil => simp [hkeys] at htwo
        | cons a ks =>
          cases ks with
          | nil => simp [hkeys] at htwo
          | cons b ks => exact ⟨a, b, ks, rfl⟩
      have hfrom : ∀ k ∈ types.keys.filter (isString types), outputTargetKey (.from k) schemaJSON = k := by
        intro k hk
        rw [outputTargetKey_of_some hread, hfind, Option.getD_none, if_neg (List.ne_nil_of_mem hk)]
        exact if_pos hk
      have heq : outputTargetKey (.from a) schemaJSON = outputTargetKey (.from b) schemaJSON :=
        wrapKey_inj ((h _).trans (h _).symm)
      rw [hfrom a (by simp [hkeys]), hfrom b (by simp [hkeys])] at heq
      have hnodup : (a :: b :: ks).Nodup := hkeys ▸ types.keys_nodup.filter _
      grind

/-- **The key is reproducible if the schema has a required string property or at most one of its
    properties is a string.**  Servers that are started with such schemas are the same. -/
theorem output_key_iff (schemaJSON : String) :
    ((∀ it, wrapKey (outputTargetKey it schemaJSON) = declaredKey schemaJSON) ↔ Unambiguous schemaJSON) ∧
    ∀ env capabilities, (∀ c ∈ capabilities, Unambiguous c.outputSchemaJSON) →
      ∀ it it', newAgentServer env it capabilities = newAgentServer env it' capabilities := by
  refine ⟨⟨unambiguous_of_wrapKey, wrapKey_eq_declaredKey⟩, fun env capabilities h it it' => ?_⟩
  unfold newAgentServer
  generalize (∅ : GoMap CapRuntime) = caps
  induction capabilities generalizing caps with
  | nil => rw [List.foldlM_nil, List.foldlM_nil]
  | cons c capabilities ih =>
    have hkey : outputTargetKey it c.outputSchemaJSON = outputTargetKey it' c.outputSchemaJSON :=
      wrapKey_inj ((wrapKey_eq_declaredKey (h c List.mem_cons_self) it).trans
        (wrapKey_eq_declaredKey (h c List.mem_cons_self) it').symm)
    rw [List.foldlM_cons, List.foldlM_cons, hkey]
    exact bind_congr fun caps => ih (fun c hc => h c (List.mem_cons_of_mem _ hc)) caps

def twoTexts : CapabilityConfig where
  name := "summarize"
  outputSchemaJSON := "\x7b\"properties\":\x7b\"a\":\x7b\"type\":\"string\"\x7d,\"b\":\x7b\"type\":\"string\",\"maxLength\":0\x7d\x7d\x7d"

def twoTextsLinked : Linked where
  compile _ := .ok fun v => if v = .obj [("b", .str "x")] then some (bytes "maxLength: got 1, want 0") else none

def lastEvent (it : Iteration) : Option (List TaskEventType) :=
  ((newAgentServer twoTextsLinked it [twoTexts]).bind (·.lookup "summarize")).map fun rt =>
    (sent (finished "t" ⟨rt, "x", true⟩).out).map TaskEvent.eventType

theorem output_key_depends :
    lastEvent (.from "a") = some [.completed] ∧ lastEvent (.from "b") = some [.failed] := by
  decide +kernel

/-! ### The stream of the model -/

structure ChatResponse where
  role : String
  content : String
  done : Bool
  error : String

def decodeChat (v : Json) : Option ChatResponse := do
  let messages ← fieldValues "message" v
  let role ← (fieldValuesOf "role" messages).bind (storeString "")
  let content ← (fieldValuesOf "content" messages).bind (storeString "")
  let done ← (fieldValues "done" v).bind (storeBool false)
  let error ← stringField "error" v
  return ⟨role, content, done, error⟩

inductive ChatLine where
  | skipped
  | failed (err : List UInt8)
  | frame (content : String) (done : Bool)

def chatLine (env : Linked) (line : List UInt8) : ChatLine :=
  let line := trimSpace (Utf8.text line)
  if line = "" then .skipped
  else
    match (Json.unmarshal line).bind decodeChat with
    | none => .failed (bytes "ollama: decode stream chunk: " ++ env.unmarshalErr "chatResponse" (bytes line))
    | some cr =>
      if cr.error ≠ "" then .failed (bytes ("ollama: " ++ cr.error)) else .frame cr.content cr.done

inductive Response where
  | content (text : String) (isPartial : Bool)
  | failed (err : List UInt8)

/-- Partial responses, then the whole text. -/
def streamChat (env : Linked) (err : Option (List UInt8)) : String → List (List UInt8) → List Response
  | full, [] =>
    match err with
    | some err => [.failed (bytes "ollama: read stream: " ++ err)]
    | none => [.content full false]
  | full, line :: lines =>
    match chatLine env line with
    | .skipped => streamChat env err full lines
    | .failed err => [.failed err]
    | .frame content done =>
      -- the last frame may hold the tail of the text
      if done then
        (if content = "" then [] else [.content content true]) ++ [.content (full ++ content) false]
      else if content = "" then streamChat env err full lines
      else .content content true :: streamChat env err (full ++ content) lines

def Response.yield : Response → Yield
  | .content text isPartial => .event ⟨isPartial, [text]⟩
  | .failed err => .failed err false none

def told (responses : List Response) : List (Answer fun _ : State => Yield) :=
  (responses.map Response.yield ++ [Yield.ended none]).map fun y _ => y

def generated (env : Linked) (err : Option (List UInt8)) :
    List (List UInt8) → List String × Option (List UInt8)
  | [] => ([], err.map (bytes "ollama: read stream: " ++ ·))
  | line :: lines =>
    match chatLine env line with
    | .skipped => generated env err lines
    | .failed err => ([], some err)
    | .frame content done =>
      if done then ([content], none)
      else (content :: (generated env err lines).1, (generated env err lines).2)

def Returned (rt : CapRuntime) (text payload : String) : Prop :=
  match rt.outSchema with
  | none => payload = text
  | some schema => ∃ fs, unmarshalAny (bytes payload) = some (.obj fs) ∧ schema (.obj fs) = none ∧
    (payload = trimSpace text ∨ rt.outKey ≠ "" ∧ fs = [(rt.outKey, .str text)])

/-! ### What is returned -/

variable {rt : CapRuntime} {text payload : String} {schema : Schema}

theorem validates_iff : validates schema payload = true ↔
    ∃ v, unmarshalAny (bytes payload) = some v ∧ schema v = none := by
  unfold validates
  rw [Option.any_eq_true]
  simp

theorem unmarshalAny_bytes_eq_some_iff {v : Json} :
    unmarshalAny (bytes payload) = some v ↔ Json.unmarshal payload = some v ∧ v.inRange = true := by
  rw [unmarshalAny, Utf8.unmarshal, bytes_eq, Utf8.text_encode, String.ofList_toList, Option.filter_eq_some_iff]

theorem hasPrefix_brace_iff : hasPrefix payload "\x7b" = true ↔ payload.toList.head? = some '\x7b' := by
  have hbrace : ("\x7b" : String).toList = ['\x7b'] := rfl
  rw [hasPrefix, hbrace]
  cases payload.toList with
  | nil => simp
  | cons c l =>
    grind

theorem passed_iff (schema : Schema) (text : String) :
    (hasPrefix (trimSpace text) "\x7b" = true ∧ validates schema (trimSpace text) = true) ↔
      ∃ fs, unmarshalAny (bytes (trimSpace text)) = some (.obj fs) ∧ schema (.obj fs) = none := by
  rw [hasPrefix_brace_iff, validates_iff]
  constructor
  · rintro ⟨hhead, v, hv, hnone⟩
    obtain ⟨l, hl⟩ := List.head?_eq_some_iff.mp hhead
    obtain ⟨fs, rfl⟩ := Json.unmarshal_brace hl (unmarshalAny_bytes_eq_some_iff.mp hv).1
    exact ⟨fs, hv, hnone⟩
  · rintro ⟨fs, hv, hnone⟩
    refine ⟨Json.head_of_unmarshal_obj (unmarshalAny_bytes_eq_some_iff.mp hv).1 fun c hc => ?_, _, hv, hnone⟩
    have hspace := isSpace_head_trimSpace text c hc
    by_contra hws
    have hws : isSpace c = true := by
      simp only [Json.isWs, Bool.or_eq_true, decide_eq_true_eq, Bool.not_eq_false] at hws
      rcases hws with ((rfl | rfl) | rfl) | rfl <;> decide
    grind

theorem unmarshalAny_wrapped (key text : String) :
    unmarshalAny (bytes (Json.obj [(key, .str text)]).marshal) = some (.obj [(key, .str text)]) := by
  rw [unmarshalAny_bytes_eq_some_iff]
  exact ⟨Json.unmarshal_texts (by simp), rfl⟩

theorem wrapped_iff (schema : Schema) (key text : String) :
    validates schema (Json.obj [(key, .str text)]).marshal = true ↔ schema (.obj [(key, .str text)]) = none := by
  rw [validates_iff, unmarshalAny_wrapped]
  simp

theorem coerceOutput_spec (text : String) (rt : CapRuntime) :
    (∀ payload, coerceOutput text rt = some payload → Returned rt text payload) ∧
      (coerceOutput text rt = none → ∀ payload, ¬ Returned rt text payload) := by
  unfold coerceOutput Returned
  cases rt.outSchema with
  | none => simp
  | some schema =>
    dsimp only
    by_cases hpass : hasPrefix (trimSpace text) "\x7b" = true ∧ validates schema (trimSpace text) = true
    · rw [if_pos hpass]
      refine ⟨fun payload h => ?_, fun h => nomatch h⟩
      obtain rfl := Option.some.inj h
      obtain ⟨fs, hv, hnone⟩ := (passed_iff schema text).mp hpass
      grind
    · rw [if_neg hpass]
      by_cases hwrap : rt.outKey ≠ "" ∧ validates schema (Json.obj [(rt.outKey, .str text)]).marshal = true
      · rw [if_pos hwrap]
        refine ⟨fun payload h => ?_, fun h => nomatch h⟩
        obtain rfl := Option.some.inj h
        exact ⟨_, unmarshalAny_wrapped _ _, (wrapped_iff _ _ _).mp hwrap.2, .inr ⟨hwrap.1, rfl⟩⟩
      · rw [if_neg hwrap]
        refine ⟨fun payload h => (nomatch h), fun _ payload h => ?_⟩
        obtain ⟨fs, hv, hnone, rfl | ⟨hkey, rfl⟩⟩ := h
        · exact hpass ((passed_iff schema text).mpr ⟨fs, hv, hnone⟩)
        · exact hwrap ⟨hkey, (wrapped_iff _ _ _).mpr hnone⟩

/-! ### Whole runs -/

variable {taskID : String} {env : Linked}

def closing (taskID : String) (rt : CapRuntime) (text : String) (emitted : Bool) :
    Option (List UInt8) → List (Action Call)
  | some err => [.send (failedEvent taskID "UPSTREAM_ERROR" (boundMessage err))]
  | none => (finished taskID ⟨rt, text, emitted⟩).out

theorem exec_wait (acts : List (Action Call)) (s : State) (answers : List (Answer fun _ : State => Yield)) :
    exec (turn taskID) (.wait acts s) answers =
      (acts ++ (exec (turn taskID) (.wait [] s) answers).1, (exec (turn taskID) (.wait [] s) answers).2) := by
  cases answers with
  | nil => simp [exec, Turn.wait]
  | cons a answers =>
    rfl

theorem exec_told_cons (s : State) (r : Response) (rs : List Response) :
    exec (turn taskID) (.wait [] s) (told (r :: rs)) = exec (turn taskID) (turn taskID s r.yield) (told rs) :=
  exec_cons_of_waits rfl _ _

theorem exec_told_nil (s : State) :
    exec (turn taskID) (.wait [] s) (told []) = ((finished taskID s).out, .returns none) := by
  have hnext : (finished taskID s).next = .returns none := by
    unfold finished
    cases coerceOutput s.finalText s.rt <;> rfl
  have hcons : exec (turn taskID) (.wait [] s) (told []) = exec (turn taskID) (finished taskID s) [] :=
    exec_cons_of_waits rfl _ _
  rw [hcons, exec_of_returns hnext]

theorem exec_failed (s : State) (err : List UInt8) :
    exec (turn taskID) (.wait [] s) (told [.failed err]) =
      ([.send (failedEvent taskID "UPSTREAM_ERROR" (boundMessage err))], .returns none) := by
  rfl

theorem exec_final (emitted : Bool) (text : String) :
    exec (turn taskID) (.wait [] ⟨rt, "", emitted⟩) (told [.content text false]) =
      ((finished taskID ⟨rt, text, emitted⟩).out, .returns none) := by
  have hturn : turn taskID ⟨rt, "", emitted⟩ (Response.content text false).yield = .wait [] ⟨rt, text, emitted⟩ := by
    have htext : eventText ⟨false, [text]⟩ = text := by simp [eventText]
    simp only [Response.yield, turn, htext]
    grind
  rw [exec_told_cons, hturn, exec_told_nil]

theorem exec_delta {d : String} (hd : d ≠ "") (s : State) (rs : List Response) :
    exec (turn taskID) (.wait [] s) (told (.content d true :: rs)) =
      (.send (progressEvent taskID (bytes d)) ::
          (exec (turn taskID) (.wait [] { s with emittedProgress := true }) (told rs)).1,
        (exec (turn taskID) (.wait [] { s with emittedProgress := true }) (told rs)).2) := by
  have hturn : turn taskID s (Response.content d true).yield =
      .wait [.send (progressEvent taskID (bytes d))] { s with emittedProgress := true } := by
    have htext : eventText ⟨true, [d]⟩ = d := by simp [eventText]
    simp only [Response.yield, turn, htext, hd, if_false, if_true]
  rw [exec_told_cons, hturn, exec_wait]
  rfl

theorem exec_streamChat (env : Linked) (err : Option (List UInt8)) (lines : List (List UInt8))
    (full : String)
    (emitted : Bool) :
    exec (turn taskID) (.wait [] ⟨rt, "", emitted⟩) (told (streamChat env err full lines)) =
      ((chunksOf (generated env err lines).1).map (fun d => .send (progressEvent taskID d)) ++
        closing taskID rt (full ++ String.join (generated env err lines).1)
          (emitted || !(chunksOf (generated env err lines).1).isEmpty) (generated env err lines).2,
        .returns none) := by
  induction lines generalizing full emitted with
  | nil =>
    unfold streamChat generated
    cases err with
    | some err =>
      rfl
    | none =>
      rw [exec_final]
      simp [chunksOf, closing]
  | cons line lines ih =>
    unfold streamChat generated
    cases chatLine env line with
    | skipped => exact ih full emitted
    | failed e =>
      rw [exec_failed]
      rfl
    | frame content done =>
      dsimp only
      cases done with
      | true =>
        rw [if_pos rfl, if_pos rfl]
        by_cases hempty : content = ""
        · rw [if_pos hempty, List.nil_append, exec_final]
          simp [chunksOf, closing, hempty]
        · rw [if_neg hempty, List.singleton_append, exec_delta hempty, exec_final]
          simp [chunksOf, closing, hempty]
      | false =>
        rw [if_neg Bool.false_ne_true, if_neg Bool.false_ne_true]
        by_cases hempty : content = ""
        · rw [if_pos hempty, ih]
          simp [chunksOf, hempty]
        · rw [if_neg hempty, exec_delta hempty, ih]
          simp [chunksOf, hempty, String.append_assoc]

def outcome (taskID : String) (rt : CapRuntime) (text : String) : TaskEvent :=
  ((coerceOutput text rt).map fun payload => completedEvent taskID (bytes payload)).getD
    (failedEvent taskID "UPSTREAM_ERROR" (bytes "model output did not satisfy the declared output_schema"))

theorem sent_finished (s : State) :
    sent (finished taskID s).out = (if s.emittedProgress then [] else [progressEvent taskID (bytes s.finalText)]) ++
      [outcome taskID s.rt s.finalText] := by
  have hbound : boundMessage (bytes "model output did not satisfy the declared output_schema") =
      bytes "model output did not satisfy the declared output_schema" := if_pos (by decide)
  unfold finished outcome
  rw [hbound]
  cases coerceOutput s.finalText s.rt with
  | some payload => cases s.emittedProgress <;> rfl
  | none => cases s.emittedProgress <;> rfl

theorem outcome_completed (h : (outcome taskID rt text).eventType = .completed) :
    ∃ payload, (outcome taskID rt text).payload = bytes payload ∧ coerceOutput text rt = some payload := by
  unfold outcome at h ⊢
  cases hcoerce : coerceOutput text rt with
  | some payload => exact ⟨payload, rfl, rfl⟩
  | none =>
    rw [hcoerce] at h
    exact nomatch h

theorem outcome_spec (taskID : String) (rt : CapRuntime) (text : String) :
    (∃ payload, Returned rt text payload ∧ outcome taskID rt text = completedEvent taskID (bytes payload)) ∨
      (∀ payload, ¬ Returned rt text payload) ∧ outcome taskID rt text = failedEvent taskID "UPSTREAM_ERROR"
        (bytes "model output did not satisfy the declared output_schema") := by
  obtain ⟨hsome, hnone⟩ := coerceOutput_spec text rt
  unfold outcome
  cases hcoerce : coerceOutput text rt with
  | some payload => exact .inl ⟨payload, hsome payload hcoerce, rfl⟩
  | none => exact .inr ⟨hnone hcoerce, rfl⟩

theorem turn_completed (s : State) (y : Yield) :
    (∀ s', (turn taskID s y).next = .waits s' → s'.rt = s.rt) ∧
      ∀ ev ∈ sent (turn taskID s y).out, ev.eventType = .completed →
        ∃ text payload, ev.payload = bytes payload ∧ coerceOutput text s.rt = some payload := by
  have hfail : ∀ code msg, ∀ ev ∈ sent (sendFailed taskID code msg).out, ev.eventType ≠ .completed := by
    intro code msg ev hev
    obtain rfl := List.mem_singleton.mp hev
    exact fun h => nomatch h
  cases y with
  | failed err isDeadline ctx => exact ⟨fun s' h => (nomatch h), fun ev hev h => absurd h (hfail _ _ ev hev)⟩
  | event ev =>
    unfold turn
    dsimp only
    split_ifs
    · exact ⟨fun s' h => Next.waits.inj h ▸ rfl, fun ev hev => nomatch hev⟩
    · refine ⟨fun s' h => Next.waits.inj h ▸ rfl, fun ev hev h => ?_⟩
      obtain rfl := List.mem_singleton.mp hev
      exact nomatch h
    · exact ⟨fun s' h => Next.waits.inj h ▸ rfl, fun ev hev => nomatch hev⟩
  | ended ctx =>
    cases ctx with
    | some e => exact ⟨fun s' h => (nomatch h), fun ev hev h => absurd h (hfail _ _ ev hev)⟩
    | none =>
      have hnext : (finished taskID s).next = .returns none := by
        unfold finished
        cases coerceOutput s.finalText s.rt <;> rfl
      refine ⟨fun s' h => (nomatch hnext.symm.trans h), fun ev hev h => ?_⟩
      change ev ∈ sent (finished taskID s).out at hev
      rw [sent_finished, List.mem_append] at hev
      rcases hev with hev | hev
      · split at hev
        · exact nomatch hev
        · obtain rfl := List.mem_singleton.mp hev
          exact nomatch h
      · obtain rfl := List.mem_singleton.mp hev
        exact ⟨s.finalText, outcome_completed h⟩

theorem exec_completed (s : State) (answers : List (Answer fun _ : State => Yield)) :
    ∀ ev ∈ sent (exec (turn taskID) (.wait [] s) answers).1, ev.eventType = .completed →
      ∃ text payload, ev.payload = bytes payload ∧ coerceOutput text s.rt = some payload := by
  induction answers generalizing s with
  | nil => exact fun ev hev => nomatch hev
  | cons a answers ih =>
    intro ev hev hcompleted
    rw [exec_cons_of_waits rfl] at hev
    change ev ∈ sent (exec (turn taskID) (turn taskID s (a s)) answers).1 at hev
    obtain ⟨hrt, hout⟩ := @turn_completed taskID s (a s)
    generalize turn taskID s (a s) = t at hev hrt hout
    obtain ⟨out, next⟩ := t
    cases next with
    | returns r =>
      rw [exec_of_returns rfl] at hev
      exact hout ev hev hcompleted
    | waits s' =>
      have hwait : exec (turn taskID) ⟨out, .waits s'⟩ answers = _ := exec_wait out s' answers
      rw [hwait, sent_append, List.mem_append] at hev
      grind

theorem bytes_join (deltas : List String) : (deltas.map bytes).flatten = bytes (String.join deltas) := by
  induction deltas with
  | nil => rfl
  | cons d ds ih =>
    rw [String.join_cons, List.map_cons, List.flatten_cons, ih, bytes_eq, bytes_eq, bytes_eq, String.toList_append,
      Utf8.encode_append]

theorem sent_closing (taskID : String) (rt : CapRuntime) (deltas : List String) :
    sent (closing taskID rt (String.join deltas) (!(chunksOf deltas).isEmpty) none) =
      (if chunksOf deltas = [] then [progressEvent taskID] else []) ++ [outcome taskID rt (String.join deltas)] := by
  rw [closing, sent_finished]
  cases hchunks : chunksOf deltas with
  | cons d ds => rfl
  | nil =>
    have hempty : bytes (String.join deltas) = [] := by rw [← bytes_join, ← Llm.flatten_chunksOf, hchunks]; rfl
    grind

/-- **The adk adapter streams exactly what it returns.**  Progress is the text so far; the last event
    returns the whole text in the shape of the output schema, or is a failure.  A completed event
    satisfies the schema in every run. -/
theorem stream_returned (env : Linked) (caps : GoMap CapRuntime) (req : ExecuteRequest) (rt : CapRuntime)
    (prompt : String) (body : Body) (htask : req.taskId ≠ "") (hname : req.capabilityName ≠ "")
    (hcap : caps.lookup req.capabilityName = some rt)
    (hinput : parseInput env req.inputPayload rt.inSchema = .ok prompt) :
    (∃ progress last,
      sent (serve env caps req (told (streamChat env body.scanErr "" body.lines))).1 = progress ++ [last] ∧
      (∀ ev ∈ progress, ev.eventType = .progress) ∧
      (∀ n, ((progress.map TaskEvent.payload).take n).flatten =
        ((chunksOf (generated env body.scanErr body.lines).1).take n).flatten) ∧
      (progress.map TaskEvent.payload).flatten = bytes (String.join (generated env body.scanErr body.lines).1) ∧
      (∀ err, (generated env body.scanErr body.lines).2 = some err →
        last = failedEvent req.taskId "UPSTREAM_ERROR" (boundMessage err)) ∧
      ((generated env body.scanErr body.lines).2 = none →
        (∃ payload, Returned rt (String.join (generated env body.scanErr body.lines).1) payload ∧
          last = completedEvent req.taskId (bytes payload)) ∨
        (∀ payload, ¬ Returned rt (String.join (generated env body.scanErr body.lines).1) payload) ∧
          last = failedEvent req.taskId "UPSTREAM_ERROR"
            (bytes "model output did not satisfy the declared output_schema"))) ∧
    ∀ schema, rt.outSchema = some schema → ∀ answers, ∀ ev ∈ sent (serve env caps req answers).1,
      ev.eventType = .completed → ∃ v, unmarshalAny ev.payload = some v ∧ schema v = none := by
  have hstart : ∀ answers, sent (serve env caps req answers).1 =
      sent (exec (turn req.taskId) (.wait [] ⟨rt, "", false⟩) answers).1 := by
    intro answers
    have hexec : executeCapability env caps req = .wait [.call
        ⟨if req.workflowId = "" then req.taskId else req.workflowId, prompt⟩] ⟨rt, "", false⟩ := by
      simp only [executeCapability, checkRequest_eq_none htask hname, Option.getD_none, hcap, hinput]
    rw [serve, hexec, exec_wait]
    rfl
  constructor
  · rw [hstart, exec_streamChat, sent_append]
    generalize generated env body.scanErr body.lines = g
    obtain ⟨deltas, err⟩ := g
    have hdeltas : sent ((chunksOf deltas).map fun d => (.send (progressEvent req.taskId d) : Action Call)) =
        (chunksOf deltas).map fun d => progressEvent req.taskId d := by
      rw [sent, List.filterMap_map]
      exact congrFun List.filterMap_eq_map' _
    have hpayloads : ((chunksOf deltas).map fun d => progressEvent req.taskId d).map TaskEvent.payload =
        chunksOf deltas := by
      rw [List.map_map]
      exact List.map_id' _
    have hprogress : ∀ ev ∈ (chunksOf deltas).map fun d => progressEvent req.taskId d, ev.eventType = .progress := by
      intro ev hev
      obtain ⟨d, -, rfl⟩ := List.mem_map.mp hev
      rfl
    have htext : (chunksOf deltas).flatten = bytes (String.join deltas) := by
      rw [Llm.flatten_chunksOf, bytes_join]
    rw [hdeltas]
    cases err with
    | some err =>
      refine ⟨_, _, rfl, hprogress, fun n => by rw [hpayloads], by rw [hpayloads, htext], ?_, fun h => by cases h⟩
      simp
    | none =>
      have hclosing := sent_closing req.taskId rt deltas
      have houtcome := outcome_spec req.taskId rt (String.join deltas)
      rw [Bool.false_or, String.empty_append, hclosing]
      by_cases hchunks : chunksOf deltas = []
      -- without a delta, one empty event keeps the promise of progress
      · rw [hchunks] at htext ⊢
        refine ⟨[progressEvent req.taskId], _, rfl, by simp [progressEvent], fun n => ?_, htext, ?_,
          fun _ => houtcome⟩
        · cases n <;> simp [progressEvent]
        · simp
      · rw [if_neg hchunks, List.nil_append]
        exact ⟨_, _, rfl, hprogress, fun n => by rw [hpayloads], by rw [hpayloads, htext],
          fun err h => (by cases h), fun _ => houtcome⟩
  · intro schema hschema answers ev hev hcompleted
    rw [hstart] at hev
    obtain ⟨text, payload, hpayload, hcoerce⟩ := exec_completed _ answers ev hev hcompleted
    have hreturned := (coerceOutput_spec text rt).1 payload hcoerce
    unfold Returned at hreturned
    rw [hschema] at hreturned
    obtain ⟨fs, hv, hnone, -⟩ := hreturned
    exact ⟨.obj fs, hpayload ▸ hv, hnone⟩

def greeting : Body where
  received := bytes "\x7b\"message\":\x7b\"content\":\"Hel\"\x7d\x7d\n\x7b\"message\":\x7b\"content\":\"lo\"\x7d,\"done\":true\x7d\n"

def greeter : CapRuntime := ⟨none, some fun _ => none, "text"⟩

def greetRequest : ExecuteRequest where
  taskId := "t"
  capabilityName := "greet"
  inputPayload := bytes "\x7b\"prompt\":\"p\"\x7d"

theorem stream_returned_greeting :
    generated {} greeting.scanErr greeting.lines = (["Hel", "lo"], none) ∧
      ∃ progress last, sent (serve {} (AList.insert "greet" greeter ∅) greetRequest
          (told (streamChat {} greeting.scanErr "" greeting.lines))).1 = progress ++ [last] ∧
        (progress.map TaskEvent.payload).flatten = bytes (String.join ["Hel", "lo"]) := by
  have hgen : generated {} greeting.scanErr greeting.lines = (["Hel", "lo"], none) := by decide +kernel
  obtain ⟨⟨progress, last, hsent, -, -, htext, -⟩, -⟩ := stream_returned {} (AList.insert "greet" greeter ∅)
    greetRequest greeter "p" greeting (by decide) (by decide) (AList.lookup_insert _) (by decide +kernel)
  rw [hgen] at htext
  exact ⟨hgen, progress, last, hsent, htext⟩

end Zynax.Adapter.Adk
