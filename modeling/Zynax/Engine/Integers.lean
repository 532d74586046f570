import Zynax.Golang.FloatText
import Zynax.Engine.Isolation

namespace Zynax.Engine

open Golang

/-!
# Integers in the data context

An output of a capability is a JSON value, and the data context stores its text.  A number is decoded
into a `float64` on the way.
-/

/-! ### The value a binding names -/

variable {path : String}

def valueAt : GoMap Json → List String → Option Json
  | _, [] => none
  | cur, seg :: rest =>
    (cur.lookup seg).bind fun raw =>
      if rest = [] then some raw else raw.toFields.bind fun next => valueAt next rest

def Selects (payload path : String) (v : Json) : Prop :=
  path ≠ "" ∧ ∃ doc, Json.decodeObject payload = some doc ∧ valueAt doc (split path '.') = some v

theorem extractFrom_of_select {cur : GoMap Json} {segs : List String} {v : Json}
    (h : valueAt cur segs = some v) : extractFrom path cur segs = scalarString v := by
  induction segs generalizing cur with
  | nil => cases h
  | cons seg rest ih =>
    obtain ⟨raw, hraw, hrest⟩ := Option.bind_eq_some_iff.mp h
    rw [extractFrom, hraw]
    grind

/-! ### What a write stores -/

variable {stateID key : String} {doc : GoMap Json}

theorem outputKey_right_inj {k k' : String} (h : outputKey stateID k = outputKey stateID k') :
    k = k' := by
  rw [← String.toList_inj] at h ⊢
  simpa [outputKey] using h

theorem mem_captured_of_ok {bs : List (Σ _ : String, String)}
    {store : GoMap String} (h : (writeBindings stateID doc bs store).2 = none) :
    ∀ b ∈ bs, ∃ value, extractScalar doc b.2 = .ok value ∧
      (⟨stateID, b.1, value⟩ : Output) ∈ captured stateID doc bs := by
  induction bs generalizing store with
  | nil => simp
  | cons b bs ih =>
    rw [writeBindings] at h
    cases hb : extractScalar doc b.2 with
    | error reason =>
      grind
    | ok value =>
      rw [hb] at h
      rw [captured, hb, List.forall_mem_cons]
      grind

theorem of_mem_captured {bs : List (Σ _ : String, String)}
    {o : Output} (h : o ∈ captured stateID doc bs) :
    o.stateID = stateID ∧ ∃ b ∈ bs, b.1 = o.key ∧ extractScalar doc b.2 = .ok o.value := by
  induction bs with
  | nil => cases h
  | cons b bs ih =>
    rw [captured] at h
    grind

theorem lastValue_eq_some {p : Output → Bool} {log : List Output} {value : String}
    (hsome : ∃ o ∈ log, p o = true) (hall : ∀ o ∈ log, p o = true → o.value = value) :
    lastValue p log = some value := by
  rw [lastValue]
  cases hfind : log.reverse.find? p with
  | none =>
    grind
  | some o =>
    grind

theorem lookup_writeBindings_of_ok {bindings store : GoMap String}
    (h : (writeBindings stateID doc bindings.entries store).2 = none)
    (hkey : bindings.lookup key = some path) :
    ∃ value, extractScalar doc path = .ok value ∧
      (writeBindings stateID doc bindings.entries store).1.lookup (outputKey stateID key) =
        some value := by
  obtain ⟨value, hvalue, hmem⟩ := mem_captured_of_ok h ⟨key, path⟩ (GoMap.mem_entries_iff.mpr hkey)
  refine ⟨value, hvalue, ?_⟩
  have hlast : lastValue (Output.under (outputKey stateID key))
      (captured stateID doc bindings.entries) = some value := by
    apply lastValue_eq_some
    · exact ⟨_, hmem, decide_eq_true rfl⟩
    · -- the key determines the binding, and the binding its value
      intro o ho hunder
      obtain ⟨hstate, b, hb, hbkey, hbvalue⟩ := of_mem_captured ho
      have hpath : outputKey o.stateID o.key = outputKey stateID key := of_decide_eq_true hunder
      rw [hstate] at hpath
      have hbpath := GoMap.lookup_of_mem hb
      rw [hbkey, outputKey_right_inj hpath, hkey] at hbpath
      grind
  rw [lookup_writeBindings, hlast]
  rfl

/-- **A write that succeeds stores what its bindings name.** -/
theorem stored_of_writeOutputs {c c' : WorkflowDataContext} {requester : DataContextScope}
    {payload : String} {bindings : GoMap String} {v : Json}
    (hwrite : c.writeOutputs requester stateID bindings payload = (c', none))
    (hkey : bindings.lookup key = some path) (hselect : Selects payload path v) :
    ∃ text, scalarString v = .ok text ∧ c'.store.lookup (outputKey stateID key) = some text := by
  obtain ⟨hpath, doc, hdoc, hsel⟩ := hselect
  have hpayload : payload ≠ "" := by
    rintro rfl
    cases hdoc
  have hbindings : bindings.isEmpty = false := by
    rw [GoMap.isEmpty_eq_false_iff]
    exact ⟨key, AList.lookup_isSome.mp (by rw [hkey]; rfl)⟩
  rw [WorkflowDataContext.writeOutputs] at hwrite
  split_ifs at hwrite with hscope hempty
  · cases hwrite
  · grind
  · rw [hdoc] at hwrite
    have hresult := Prod.mk.inj hwrite
    obtain ⟨text, htext, hstored⟩ := lookup_writeBindings_of_ok hresult.2 hkey
    rw [extractScalar, if_neg hpath, extractFrom_of_select hsel] at htext
    grind

/-! ### What references deliver -/

structure Nameable (stateID key : String) : Prop where
  state_ne : stateID ≠ ""
  key_ne : key ≠ ""
  state_dotFree : '.' ∉ stateID.toList
  key_dotFree : '.' ∉ key.toList

structure KeepsText (c : WorkflowDataContext) (stateID key text : String) : Prop where
  stored : c.store.lookup (outputKey stateID key) = some text
  delivered : Nameable stateID key → ∀ later : List ContextCall,
    lastWrite stateID key (outputLog c.scope later) = none → ∀ inputKey,
      resolveBindingValue (c.runCalls later).store inputKey (refText stateID key) = .ok text ∧
        ∀ bindings inputs, bindings.lookup inputKey = some (refText stateID key) →
          (c.runCalls later).resolveInputs c.scope bindings = .ok inputs →
            inputs.lookup inputKey = some text

theorem keepsText_iff {c : WorkflowDataContext} {text : String} :
    KeepsText c stateID key text ↔ c.store.lookup (outputKey stateID key) = some text := by
  refine ⟨KeepsText.stored, fun hstored => ⟨hstored, ?_⟩⟩
  intro hname later hlast inputKey
  have hlookup : (c.runCalls later).store.lookup (outputKey stateID key) = some text := by
    rw [lookup_runCalls, lastValue_under_of_dotFree hname.state_dotFree hname.key_dotFree, hlast,
      hstored]
    rfl
  have hpre := hasPrefix_dataRef_of_refText stateID key
  have hcanonical : canonicalRefKey (refText stateID key) = .ok (outputKey stateID key) :=
    (canonicalRefKey_eq_ok_iff hpre).mpr ⟨stateID, key, rfl, rfl, hname.state_dotFree,
      hname.key_dotFree, hname.state_ne, hname.key_ne⟩
  have hread : resolveBindingValue (c.runCalls later).store inputKey (refText stateID key) = .ok text := by
    rw [resolveBindingValue, hpre, hcanonical]
    simp [hlookup]
  refine ⟨hread, fun bindings inputs hbinding hresolve => ?_⟩
  rw [← scope_runCalls c later] at hresolve
  obtain ⟨value, hvalue, hinput⟩ := (resolveInputs_eq_ok hresolve).1 inputKey _ hbinding
  grind

/-! ### Integers -/

/-- **An integer output keeps its digits if and only if a `float64` keeps the integer.**  An integral
    literal that fits in 64 bits is stored as it is written, and delivered so to later references,
    exactly when its value has 53 significant bits at most. -/
theorem integer_output_kept_iff {c c' : WorkflowDataContext} {requester : DataContextScope}
    {stateID key path payload : String} {bindings : GoMap String} {l : List Char} {n : Int}
    (hwrite : c.writeOutputs requester stateID bindings payload = (c', none))
    (hkey : bindings.lookup key = some path) (hselect : Selects payload path (.num l))
    (hnumber : Json.isNumber l = true) (hinteger : parseInteger l = some n) :
    KeepsText c' stateID key (String.ofList l) ↔ Exact n.natAbs := by
  obtain ⟨hintegral, hatoi⟩ := parseInteger_eq_some hnumber hinteger
  obtain ⟨habs, hrange⟩ := natAbs_of_atoi hintegral hatoi
  obtain ⟨text, htext, hstored⟩ := stored_of_writeOutputs hwrite hkey hselect
  have hinRange : (Json.num l).inRange = true := by
    rw [Json.inRange]
    exact inFloatRange_integral hintegral hrange
  rw [scalarString, if_pos hinRange] at htext
  rw [keepsText_iff, hstored, Option.some.injEq, ← Except.ok.inj htext,
    trim_formatFixed_eq_iff hintegral, habs]

def countBindings : GoMap String := AList.insert "total" "data.count" ∅

def countPayload (literal : String) : String := "\x7b\"data\":\x7b\"count\":" ++ literal ++ "\x7d\x7d"

def countWritten (literal : String) : WorkflowDataContext × Option RunError :=
  (newScopedWorkflowDataContext ⟨"run-1", "default"⟩).writeOutputs ⟨"run-1", "default"⟩ "tally"
    countBindings (countPayload literal)

theorem countWritten_eq (literal : String) (h : (countWritten literal).2 = none) :
    (newScopedWorkflowDataContext ⟨"run-1", "default"⟩).writeOutputs ⟨"run-1", "default"⟩ "tally"
      countBindings (countPayload literal) = ((countWritten literal).1, none) :=
  Prod.ext rfl h

theorem integer_output_kept_count :
    (countWritten "-4200").2 = none ∧ parseInteger "-4200".toList = some (-4200) ∧
      KeepsText (countWritten "-4200").1 "tally" "total" "-4200" := by
  have hnone : (countWritten "-4200").2 = none := by decide +kernel
  have hinteger : parseInteger "-4200".toList = some (-4200) := by decide +kernel
  have hvalue : (Json.decodeObject (countPayload "-4200")).bind
      (fun doc => valueAt doc (split "data.count" '.')) = some (.num "-4200".toList) := by
    decide +kernel
  have hselect : Selects (countPayload "-4200") "data.count" (.num "-4200".toList) :=
    ⟨by decide, Option.bind_eq_some_iff.mp hvalue⟩
  have hwrite := countWritten_eq "-4200" hnone
  have hkey : countBindings.lookup "total" = some "data.count" := rfl
  have hnumber : Json.isNumber "-4200".toList = true := by decide +kernel
  have hexact : Exact (-4200 : Int).natAbs := ⟨4200, 0, by decide, by decide⟩
  have hkept := (integer_output_kept_iff hwrite hkey hselect hnumber hinteger).mpr hexact
  rw [String.ofList_toList] at hkept
  exact ⟨hnone, hinteger, hkept⟩

/-- **A large integer loses its last digit.**  The count `2 ^ 53 + 1` is stored as `2 ^ 53`. -/
theorem integer_output_rounded :
    (countWritten "9007199254740993").2 = none ∧
      (Json.decodeObject (countPayload "9007199254740993")).bind
        (fun doc => valueAt doc (split "data.count" '.')) = some (.num "9007199254740993".toList) ∧
      parseInteger "9007199254740993".toList = some 9007199254740993 ∧
      (countWritten "9007199254740993").1.store.lookup (outputKey "tally" "total") =
        some "9007199254740992" ∧
      ¬KeepsText (countWritten "9007199254740993").1 "tally" "total" "9007199254740993" := by
  have hstored : (countWritten "9007199254740993").1.store.lookup (outputKey "tally" "total") =
      some "9007199254740992" := by
    decide +kernel
  refine ⟨by decide +kernel, by decide +kernel, by decide +kernel, hstored, fun hkept => ?_⟩
  have htext := hkept.stored
  rw [hstored] at htext
  exact absurd htext (by decide)

end Zynax.Engine
