import Zynax.Engine.Routing

namespace Zynax.Engine

open Golang Compiler

/-!
# The context along a run

The context of a run is what guards are evaluated on and what input templates are filled with.
An iteration chooses its transition on the context it began with, and merges the payload of its
result afterwards.
-/

/-! ### Payloads -/

def stringField (key : String) (v : Json) : Option String :=
  match v with
  | .str s => if key = "_event" then none else some s
  | _ => none

def payloadStrings (payload : String) : GoMap String :=
  match Json.unmarshal payload with
  | none => ∅
  | some doc =>
    if doc.inRange then
      match doc.toFields with
      | none => ∅
      | some m => m.filterMapVal stringField
    else ∅

def writeField (ctx : GoMap String) (e : Σ _ : String, Json) : GoMap String :=
  match stringField e.1 e.2 with
  | some s => AList.insert e.1 s ctx
  | none => ctx

theorem lookup_writeField (ctx : GoMap String) (e : Σ _ : String, Json) (k : String) :
    (writeField ctx e).lookup k =
      if k = e.1 then (stringField k e.2).or (ctx.lookup k) else ctx.lookup k := by
  rw [writeField]
  by_cases hk : k = e.1
  · rw [if_pos hk, ← hk]
    cases stringField k e.2 with
    | none => rfl
    | some s => exact AList.lookup_insert ctx
  · rw [if_neg hk]
    split
    · exact AList.lookup_insert_ne hk
    · rfl

theorem lookup_foldl_writeField {l : List (Σ _ : String, Json)} (hl : l.NodupKeys)
    (ctx : GoMap String) (k : String) :
    (l.foldl writeField ctx).lookup k =
      ((l.dlookup k).bind (stringField k)).or (ctx.lookup k) := by
  induction l generalizing ctx with
  | nil => rfl
  | cons e l ih =>
    obtain ⟨hnotMem, hl⟩ := List.nodupKeys_cons.mp hl
    rw [List.foldl_cons, ih hl, lookup_writeField]
    by_cases hk : k = e.1
    · -- no later member has the key
      subst hk
      rw [if_pos rfl, List.dlookup_eq_none.mpr hnotMem, List.dlookup_cons_eq]
      rfl
    · grind

/-- **Merging a payload** writes its strings and keeps the rest. -/
theorem lookup_mergePayload (ctx : GoMap String) (payload k : String) :
    (mergePayload ctx payload).lookup k = ((payloadStrings payload).lookup k).or (ctx.lookup k) := by
  rw [mergePayload, payloadStrings]
  cases Json.unmarshal payload with
  | none => rfl
  | some doc =>
    dsimp only
    split
    · cases doc.toFields with
      | none => rfl
      | some m =>
        dsimp only
        rw [GoMap.lookup_filterMapVal]
        refine Eq.trans ?_ (lookup_foldl_writeField m.nodupKeys ctx k)
        apply congrArg (AList.lookup k)
        apply List.foldl_ext
        rintro ctx ⟨key, v⟩ -
        cases v with
        | str s => by_cases hkey : key = "_event" <;> simp [writeField, stringField, hkey]
        | _ => rfl
    · rfl

/-! ### Iterations -/

def choice (rt : Runtime) (ir : WorkflowIR) (st : RunState) :
    Option (StateIR × ActivityResult × Effects) :=
  match findState ir st.currentState with
  | none => none
  | some state =>
    if state.type = .terminal then none
    else
      let entered : Event := ⟨.stateEntered, ir.workflowId, st.currentState, none⟩
      match rt.publish st.log entered with
      | some _ => none
      | none =>
        let r := executeActions rt ir state.id st.ctx (runScope ir) state.actions none
          ⟨st.data, st.log ++ [.publish entered]⟩
        match r.1 with
        | .error _ => none
        | .ok result => some (state, result, r.2)

structure Firing where
  stateID : String
  result : ActivityResult
  index : Nat
  target : String

structure Fires (rt : Runtime) (ir : WorkflowIR) (st : RunState) (f : Firing) (st' : RunState) :
    Prop where
  next : step rt ir st = .next st'
  leaves : f.stateID = st.currentState
  takes : ∃ state eff t, choice rt ir st = some (state, f.result, eff) ∧
    resolveTransition rt.cel state.transitions f.result.eventType st.ctx = some (f.index, t) ∧
    f.target = t.targetState
  ctx_eq : st'.ctx = mergePayload st.ctx f.result.payload
  enters : st'.currentState = f.target

inductive History (rt : Runtime) (ir : WorkflowIR) : RunState → List Firing → Prop
  | start : History rt ir (initRun ir) []
  | fired {st st' : RunState} {fs : List Firing} {f : Firing} (h : History rt ir st fs)
      (hf : Fires rt ir st f st') : History rt ir st' (fs ++ [f])

def mergedContext (fs : List Firing) : GoMap String :=
  fs.foldl (fun ctx f => mergePayload ctx f.result.payload) ∅

/-- **The context of a run** is made of the payloads of the results so far, and of nothing else. -/
theorem History.ctx_eq {rt : Runtime} {ir : WorkflowIR} {st : RunState} {fs : List Firing}
    (h : History rt ir st fs) : st.ctx = mergedContext fs := by
  induction h with
  | start => rfl
  | fired _ hf ih =>
    rw [hf.ctx_eq, ih, mergedContext, mergedContext, List.foldl_append]
    rfl

/-! ### The calls of the evaluator -/

def guardCalls (cel : String → GoMap String → Bool) (ctx : GoMap String) :
    List (Σ _ : String, String) → List (String × GoMap String)
  | [] => []
  | e :: es =>
    if trimSpace e.2 = "" then []
    else
      (trimSpace e.2, ctx) :: if cel (trimSpace e.2) ctx then guardCalls cel ctx es else []

def resolveCalls (cel : String → GoMap String → Bool) (eventType : String) (ctx : GoMap String) :
    List TransitionIR → List (String × GoMap String)
  | [] => []
  | t :: ts =>
    if eventType ≠ "" ∧ t.eventType ≠ eventType then resolveCalls cel eventType ctx ts
    else
      guardCalls cel ctx t.conditions.entries ++
        if guardsMatch cel t.conditions ctx then [] else resolveCalls cel eventType ctx ts

def evaluations (rt : Runtime) (ir : WorkflowIR) (st : RunState) : List (String × GoMap String) :=
  match choice rt ir st with
  | none => []
  | some (state, result, _) => resolveCalls rt.cel result.eventType st.ctx state.transitions

section

variable {cel cel' : String → GoMap String → Bool} {ctx : GoMap String} {eventType : String}
  {ts : List TransitionIR}

theorem guardCalls_ctx {es : List (Σ _ : String, String)} {call : String × GoMap String}
    (h : call ∈ guardCalls cel ctx es) : call.2 = ctx := by
  induction es with
  | nil => exact absurd h (by simp [guardCalls])
  | cons e es ih =>
    rw [guardCalls] at h
    grind

theorem resolveCalls_ctx {call : String × GoMap String} (h : call ∈ resolveCalls cel eventType ctx ts) :
    call.2 = ctx := by
  induction ts with
  | nil => exact absurd h (by simp [resolveCalls])
  | cons t ts ih =>
    rw [resolveCalls] at h
    split at h
    · exact ih h
    · rcases List.mem_append.mp h with h | h
      · exact guardCalls_ctx h
      · grind

theorem all_evalGuard_of_calls {es : List (Σ _ : String, String)}
    (h : ∀ call ∈ guardCalls cel ctx es, cel call.1 call.2 = cel' call.1 call.2) :
    es.all (fun e => evalGuard cel e.2 ctx) = es.all fun e => evalGuard cel' e.2 ctx := by
  induction es with
  | nil => rfl
  | cons e es ih =>
    rw [guardCalls] at h
    rw [List.all_cons, List.all_cons, evalGuard, evalGuard]
    by_cases hblank : trimSpace e.2 = ""
    · simp [hblank]
    · rw [if_neg hblank] at h
      rw [if_neg hblank, if_neg hblank, ← h _ List.mem_cons_self]
      cases hcel : cel (trimSpace e.2) ctx with
      | false => rfl
      | true => rw [ih fun call hc => h call (by simp [hcel, hc])]

/-- **The calls decide**: an evaluator with the same answers to them takes the same transition. -/
theorem resolveFrom_of_calls {i : Nat}
    (h : ∀ call ∈ resolveCalls cel eventType ctx ts, cel call.1 call.2 = cel' call.1 call.2) :
    resolveFrom cel eventType ctx i ts = resolveFrom cel' eventType ctx i ts := by
  induction ts generalizing i with
  | nil => rfl
  | cons t ts ih =>
    rw [resolveCalls] at h
    rw [resolveFrom, resolveFrom]
    by_cases hskip : eventType ≠ "" ∧ t.eventType ≠ eventType
    · rw [if_pos hskip] at h ⊢
      rw [if_pos hskip, ih h]
    · rw [if_neg hskip] at h
      rw [if_neg hskip, if_neg hskip, show guardsMatch cel' t.conditions ctx = guardsMatch cel t.conditions ctx from
        (all_evalGuard_of_calls fun call hc => h call (List.mem_append_left _ hc)).symm]
      cases hmatch : guardsMatch cel t.conditions ctx with
      | true => rfl
      | false => exact ih fun call hc => h call (by simp [hmatch, hc])

end

theorem evaluations_ctx {rt : Runtime} {ir : WorkflowIR} {st : RunState}
    {call : String × GoMap String} (h : call ∈ evaluations rt ir st) : call.2 = st.ctx := by
  rw [evaluations] at h
  split at h
  · exact absurd h (by simp)
  · exact resolveCalls_ctx h

/-! ### Conditions and results -/

/-- The context has the strings of the payload. -/
def Sees (ctx : GoMap String) (payload : String) : Prop :=
  ∀ k s, (payloadStrings payload).lookup k = some s → ctx.lookup k = some s

/-- No condition is evaluated for the event: the first transition on it whose first condition is not blank, or that
    has no condition, has none.  A blank condition is false without being evaluated. -/
def AsksNothing (eventType : String) (transitions : List TransitionIR) : Prop :=
  ∀ t, transitions.find? (fun t => (eventType = "" ∨ t.eventType = eventType) ∧
    ∀ e ∈ t.conditions.entries.head?, trimSpace e.2 ≠ "") = some t → t.conditions.entries = []

theorem resolveCalls_eq_nil_iff {cel : String → GoMap String → Bool} {eventType : String}
    {ctx : GoMap String} {ts : List TransitionIR} :
    resolveCalls cel eventType ctx ts = [] ↔ AsksNothing eventType ts := by
  induction ts with
  | nil => simp [resolveCalls, AsksNothing]
  | cons t ts ih =>
    rw [resolveCalls, AsksNothing, List.find?_cons]
    by_cases hev : eventType = "" ∨ t.eventType = eventType
    · rw [if_neg (by tauto)]
      cases hconds : t.conditions.entries with
      | nil => simp [hev, hconds, guardCalls, guardsMatch]
      | cons e es =>
        by_cases hblank : trimSpace e.2 = ""
        · simp [hev, hconds, hblank, guardCalls, guardsMatch, evalGuard, ih, AsksNothing]
        · simp [hev, hconds, hblank, guardCalls]
    · rw [if_pos (by tauto), ih, AsksNothing]
      simp [hev]

/-- **When conditions see the result they are evaluated for.**  In every run and in every
    iteration whose actions have given a result: the evaluator is called with contexts that hold
    the strings of its payload exactly when the transitions ask for no evaluation, or when the
    results before have put all of these strings there already. -/
theorem guards_see_result_iff {rt : Runtime} {ir : WorkflowIR} {st : RunState} {fs : List Firing}
    (hist : History rt ir st fs) {state : StateIR} {result : ActivityResult} {eff : Effects}
    (hchoice : choice rt ir st = some (state, result, eff)) :
    (∀ call ∈ evaluations rt ir st, Sees call.2 result.payload) ↔
      AsksNothing result.eventType state.transitions ∨ Sees (mergedContext fs) result.payload := by
  have hcalls : evaluations rt ir st = resolveCalls rt.cel result.eventType st.ctx state.transitions := by
    rw [evaluations, hchoice]
  rw [← hist.ctx_eq, ← resolveCalls_eq_nil_iff, ← hcalls]
  constructor
  · intro h
    cases hall : evaluations rt ir st with
    | nil => exact Or.inl rfl
    | cons call calls =>
      have hmem : call ∈ evaluations rt ir st := by rw [hall]; simp
      have hsees := h call hmem
      rw [evaluations_ctx hmem] at hsees
      exact Or.inr hsees
  · rintro (hnil | hsees) call hcall
    · rw [hnil] at hcall
      cases hcall
    · rw [evaluations_ctx hcall]
      exact hsees

def scoreIR : WorkflowIR := plainIR "review" "review"
  [⟨"review", .normal, [⟨"review", none, "", false, ∅, ∅⟩],
      [⟨"review.completed", "done", GoMap.ofPairs [("high", "ctx.score == 'high'")]⟩], ∅⟩,
    ⟨"done", .terminal, [], [], ∅⟩]

def scoreRuntime (payload : String) : Runtime where
  cel := fun _ ctx => ctx.lookup "score" == some "high"
  render := fun tmpl _ => .ok tmpl
  dispatchCapability := fun _ _ => .ok ⟨"review.completed", payload⟩
  publish := fun _ _ => none

def confirmState : StateIR where
  id := "confirm"
  type := .normal
  actions := [⟨"review", none, "", false, ∅, ∅⟩]
  transitions := [⟨"review.completed", "done", GoMap.ofPairs [("high", "ctx.score == 'high'")]⟩]
  outputs := ∅

/-- The review is confirmed by a second one, whose condition asks for the score of the first. -/
def confirmIR : WorkflowIR :=
  { scoreIR with
    states :=
      [⟨"review", .normal, [⟨"review", none, "", false, ∅, ∅⟩], [⟨"review.completed", "confirm", ∅⟩], ∅⟩,
        confirmState, ⟨"done", .terminal, [], [], ∅⟩] }

def reviewedFiring (payload : String) : Firing := ⟨"review", ⟨"review.completed", payload⟩, 0, "confirm"⟩

theorem history_confirm (payload : String) : ∃ st eff,
    History (scoreRuntime payload) confirmIR st [reviewedFiring payload] ∧
      choice (scoreRuntime payload) confirmIR st = some (confirmState, ⟨"review.completed", payload⟩, eff) := by
  obtain ⟨st, hstep⟩ : ∃ st, step (scoreRuntime payload) confirmIR (initRun confirmIR) = .next st := ⟨_, rfl⟩
  have hfires : Fires (scoreRuntime payload) confirmIR (initRun confirmIR) (reviewedFiring payload) st := by
    cases hstep
    exact ⟨rfl, rfl, ⟨_, _, _, rfl, rfl, rfl⟩, rfl, rfl⟩
  obtain ⟨eff, hchoice⟩ : ∃ eff, choice (scoreRuntime payload) confirmIR st =
      some (confirmState, ⟨"review.completed", payload⟩, eff) := by
    cases hstep
    exact ⟨_, rfl⟩
  exact ⟨st, eff, History.start.fired hfires, hchoice⟩

theorem sees_confirm (payload : String) : Sees (mergedContext [reviewedFiring payload]) payload := by
  intro k s hs
  rw [mergedContext, List.foldl_cons, List.foldl_nil, lookup_mergePayload, reviewedFiring, hs]
  rfl

theorem guards_see_result_iff_scored : ∃ st,
    ("ctx.score == 'high'", st.ctx) ∈ evaluations (scoreRuntime "\x7b\"score\":\"high\"\x7d") confirmIR st ∧
      (payloadStrings "\x7b\"score\":\"high\"\x7d").lookup "score" = some "high" ∧
      ∀ call ∈ evaluations (scoreRuntime "\x7b\"score\":\"high\"\x7d") confirmIR st,
        Sees call.2 "\x7b\"score\":\"high\"\x7d" := by
  obtain ⟨st, eff, hist, hchoice⟩ := history_confirm "\x7b\"score\":\"high\"\x7d"
  refine ⟨st, ?_, by decide +kernel, (guards_see_result_iff hist hchoice).mpr (Or.inr (sees_confirm _))⟩
  rw [evaluations, hchoice]
  have htrim : trimSpace "ctx.score == 'high'" = "ctx.score == 'high'" := by decide +kernel
  simp [resolveCalls, confirmState, guardCalls, GoMap.ofPairs, htrim]

/-- **A guard does not see the result it waits for.**  The agent answers with the score that the
    condition asks for; the condition is evaluated without it, and the run fails. -/
theorem score_not_seen :
    evaluations (scoreRuntime "\x7b\"score\":\"high\"\x7d") scoreIR (initRun scoreIR) =
        [("ctx.score == 'high'", ∅)] ∧
      (mergePayload ∅ "\x7b\"score\":\"high\"\x7d").lookup "score" = some "high" ∧
      (run (scoreRuntime "\x7b\"score\":\"high\"\x7d") scoreIR 2 (initRun scoreIR)).map Prod.fst =
        some (.error (.noTransition "review.completed")) := by
  refine ⟨?_, ?_, ?_⟩
  · decide +kernel
  · decide +kernel
  · decide +kernel

end Zynax.Engine
