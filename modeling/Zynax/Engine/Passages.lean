import Mathlib.Data.Set.Insert
import Mathlib.Logic.Relation
import Zynax.Engine.Interpreter

namespace Zynax.Engine

open Golang Compiler

/-!
# Which states a run can pass

Whether a run can leave a state depends on the executor, and on the outputs that were published before.  `Passable`
says which states can be got to with which outputs, for some executor.  The runs of a workflow without conditions,
as the compiled ones are, are related to it in both directions.

* `passable_of_reached` — what a run gets to is passable.
* `exists_run` — for what is passable there is a run.
-/

/-! ### Actions and transitions -/

/-- Some payload has all the outputs that are asked for. -/
def Answerable (bindings : GoMap String) : Prop :=
  ∃ payload doc, (if payload = "" then some ∅ else Json.decodeObject payload) = some doc ∧
    ∀ b ∈ bindings.entries, ∃ val, extractScalar doc b.2 = .ok val

/-- A literal, or a reference to one of the keys. -/
def Known (keys : Set String) (ref : String) : Prop :=
  hasPrefix ref dataRefPrefix = true → ∃ key ∈ keys, canonicalRefKey ref = .ok key

/-- The keys that an action publishes in a state. -/
def outputKeys (id : String) (bindings : GoMap String) : Set String :=
  { key | ∃ k ∈ bindings.keys, key = outputKey id k }

/-- Executed one after the other, each action knows its inputs and can be answered. -/
def CanExecute (id : String) : Set String → List ActionIR → Prop
  | _, [] => True
  | keys, a :: rest =>
    if a.async then CanExecute id keys rest
    else (∀ key ref, a.inputBindings.lookup key = some ref → Known keys ref) ∧ Answerable a.outputBindings ∧
      CanExecute id (keys ∪ outputKeys id a.outputBindings) rest

/-- The transition is the first on some event; without synchronous actions there is only the empty event, which every
    transition matches. -/
def CanTake (state : StateIR) (t : TransitionIR) : Prop :=
  ∃ eventType, (state.actions.all ActionIR.async = true → eventType = "") ∧
    state.transitions.find? (fun t => eventType = "" ∨ t.eventType = eventType) = some t

/-- The states that can be got to, with the outputs published on the way. -/
inductive Passable (ir : WorkflowIR) : String → Set String → Prop
  | start : Passable ir ir.initialState ∅
  | next {id : String} {keys : Set String} {state : StateIR} {t : TransitionIR} (h : Passable ir id keys)
      (hfind : findState ir id = some state) (hterm : state.type ≠ .terminal)
      (hexec : CanExecute id keys state.actions) (ht : CanTake state t) :
      Passable ir t.targetState (keys ∪ { key | PublishedBy id state.actions key })

/-- No transition has conditions; those of compiled workflows have none. -/
def Unconditional (ir : WorkflowIR) : Prop :=
  ∀ id state, findState ir id = some state → ∀ t ∈ state.transitions, t.conditions = ∅

/-- The states that a run with one runtime gets to. -/
def Reached (rt : Runtime) (ir : WorkflowIR) (st : RunState) : Prop :=
  Relation.ReflTransGen (fun st st' => step rt ir st = .next st') (initRun ir) st

/-- The keys of a store. -/
def keysOf (store : GoMap String) : Set String := { key | key ∈ store }

/-! ### The data context -/

variable {id : String} {doc : GoMap Json} {bs : List (Σ _ : String, String)} {store bindings : GoMap String}
  {c : WorkflowDataContext} {payload : String} {keys : Set String}

theorem resolves_iff {key ref : String} :
    (∃ val, resolveBindingValue store key ref = .ok val) ↔ Known (keysOf store) ref := by
  unfold resolveBindingValue Known
  by_cases hp : hasPrefix ref dataRefPrefix = true
  · simp only [hp, Bool.not_true, Bool.false_eq_true, if_false, forall_const]
    cases canonicalRefKey ref with
    | error reason => simp
    | ok k =>
      have hmem : k ∈ keysOf store ↔ (store.lookup k).isSome = true := AList.lookup_isSome.symm
      cases hlook : store.lookup k with
      | none => simp [hmem, hlook]
      | some val => simp [hmem, hlook]
  · simp [hp]

theorem resolveInputs_iff :
    (∃ inputs, c.resolveInputs c.scope bindings = .ok inputs) ↔
      ∀ key ref, bindings.lookup key = some ref → Known (keysOf c.store) ref := by
  constructor
  · rintro ⟨inputs, h⟩ key ref href
    obtain ⟨val, hval, -⟩ := (resolveInputs_eq_ok h).1 key ref href
    exact resolves_iff.mp ⟨val, hval⟩
  · intro h
    cases hres : c.resolveInputs c.scope bindings with
    | ok inputs => exact ⟨inputs, rfl⟩
    | error err =>
      simp only [WorkflowDataContext.resolveInputs, ne_eq, not_true_eq_false, if_false] at hres
      split at hres
      · rename_i err' hsome
        obtain ⟨⟨key, ref⟩, hmem, herr⟩ := List.exists_of_findSome?_eq_some hsome
        obtain ⟨val, hval⟩ : ∃ val, resolveBindingValue c.store key ref = .ok val :=
          resolves_iff.mpr (h key ref (GoMap.mem_entries_iff.mp hmem))
        rw [hval] at herr
        cases herr
      · cases hres

theorem writeBindings_eq_none_iff :
    (writeBindings id doc bs store).2 = none ↔ ∀ b ∈ bs, ∃ val, extractScalar doc b.2 = .ok val := by
  induction bs generalizing store with
  | nil => simp [writeBindings]
  | cons b bs ih =>
    rw [writeBindings, List.forall_mem_cons]
    cases extractScalar doc b.2 with
    | error reason => simp
    | ok val => simp [ih]

theorem mem_writeBindings_iff (h : (writeBindings id doc bs store).2 = none) {key : String} :
    key ∈ (writeBindings id doc bs store).1 ↔ key ∈ store ∨ ∃ b ∈ bs, key = outputKey id b.1 := by
  induction bs generalizing store with
  | nil => simp [writeBindings]
  | cons b bs ih =>
    rw [writeBindings] at h ⊢
    cases hval : extractScalar doc b.2 with
    | error reason => simp [hval] at h
    | ok val =>
      simp only [hval] at h ⊢
      rw [ih h, AList.mem_insert]
      grind

theorem writeOutputs_eq_none_iff :
    (c.writeOutputs c.scope id bindings payload).2 = none ↔ bindings.isEmpty = true ∨
      ∃ doc, (if payload = "" then some ∅ else Json.decodeObject payload) = some doc ∧
        ∀ b ∈ bindings.entries, ∃ val, extractScalar doc b.2 = .ok val := by
  rw [WorkflowDataContext.writeOutputs, if_neg (not_not.mpr rfl)]
  by_cases he : bindings.isEmpty = true
  · simp [he]
  · rw [if_neg he]
    cases (if payload = "" then some ∅ else Json.decodeObject payload) with
    | none => simp [he]
    | some doc => simp [he, writeBindings_eq_none_iff]

theorem entries_eq_nil (h : bindings.isEmpty = true) : bindings.entries = [] := by
  simpa [GoMap.isEmpty] using h

theorem answerable_of_writeOutputs (h : (c.writeOutputs c.scope id bindings payload).2 = none) :
    Answerable bindings := by
  rcases writeOutputs_eq_none_iff.mp h with he | ⟨doc, hdoc⟩
  · exact ⟨"", ∅, rfl, by simp [entries_eq_nil he]⟩
  · exact ⟨payload, doc, hdoc⟩

theorem keysOf_writeOutputs (h : (c.writeOutputs c.scope id bindings payload).2 = none) :
    keysOf (c.writeOutputs c.scope id bindings payload).1.store = keysOf c.store ∪ outputKeys id bindings := by
  ext key
  have hkeys : key ∈ outputKeys id bindings ↔ ∃ b ∈ bindings.entries, key = outputKey id b.1 := by
    simp [outputKeys, AList.keys, List.keys]
  rw [Set.mem_union, hkeys]
  rw [WorkflowDataContext.writeOutputs, if_neg (not_not.mpr rfl)] at h ⊢
  by_cases he : bindings.isEmpty = true
  · simp [he, entries_eq_nil he]
  · rw [if_neg he] at h ⊢
    cases hdoc : (if payload = "" then some ∅ else Json.decodeObject payload) with
    | none => simp [hdoc] at h
    | some doc =>
      simp only [hdoc] at h ⊢
      exact mem_writeBindings_iff h

/-! ### From runs to passages -/

variable {rt : Runtime} {ir : WorkflowIR} {ctx : GoMap String} {actions : List ActionIR}
  {last : Option ActivityResult} {eff eff' : Effects} {result : ActivityResult}

theorem publishedBy_cons {a : ActionIR} {rest : List ActionIR} :
    { key | PublishedBy id (a :: rest) key } =
      (if a.async then ∅ else outputKeys id a.outputBindings) ∪ { key | PublishedBy id rest key } := by
  ext key
  by_cases ha : a.async = true
  · simp [PublishedBy, ha]
  · simp [PublishedBy, outputKeys, ha]

/-- What has been executed could be: the outputs of the synchronous actions are there. -/
structure Executes (id : String) (actions : List ActionIR) (last : Option ActivityResult) (eff : Effects)
    (result : ActivityResult) (eff' : Effects) : Prop where
  can : CanExecute id (keysOf eff.data.store) actions
  scope : eff'.data.scope = eff.data.scope
  keys : keysOf eff'.data.store = keysOf eff.data.store ∪ { key | PublishedBy id actions key }
  idle : actions.all ActionIR.async = true → result = last.getD ⟨"", ""⟩

theorem executes_of_ok {scope : DataContextScope} (hscope : eff.data.scope = scope)
    (h : executeActions rt ir id ctx scope actions last eff = (.ok result, eff')) :
    Executes id actions last eff result eff' := by
  subst hscope
  induction actions generalizing last eff with
  | nil =>
    obtain ⟨hr, rfl⟩ := Prod.mk.inj h
    exact ⟨trivial, rfl, by simp [PublishedBy], fun _ => (Except.ok.inj hr).symm⟩
  | cons a rest ih =>
    rw [executeActions] at h
    by_cases ha : a.async = true
    · rw [if_pos ha] at h
      obtain ⟨hcan, hscope, hkeys, hidle⟩ := ih h
      refine ⟨by simpa [CanExecute, ha] using hcan, hscope, by simpa [publishedBy_cons, ha] using hkeys, ?_⟩
      simpa [ha] using hidle
    · rw [if_neg ha] at h
      split at h
      · simp at h
      rename_i inputs hinputs
      split at h
      · simp at h
      dsimp only at h
      split at h
      · simp at h
      rename_i answer _
      split at h
      · simp at h
      rename_i hwrite
      -- the rest runs on what the action has written
      have hscope := writeOutputs_scope eff.data eff.data.scope id a.outputBindings answer.payload
      generalize hw : eff.data.writeOutputs eff.data.scope id a.outputBindings answer.payload = w at h hscope hwrite
      rw [← hscope] at h
      obtain ⟨hcan, hscope', hkeys, -⟩ := @ih (some answer) ⟨w.1, _⟩ h
      rw [← hw] at hwrite hcan hkeys
      rw [keysOf_writeOutputs hwrite] at hcan hkeys
      refine ⟨?_, hscope'.trans hscope, ?_, fun hall => absurd hall (by simp [ha])⟩
      · simp only [CanExecute, ha]
        exact ⟨resolveInputs_iff.mp ⟨inputs, hinputs⟩, answerable_of_writeOutputs hwrite, hcan⟩
      · rw [hkeys, publishedBy_cons, if_neg ha, Set.union_assoc]

/-- An iteration that goes on has executed the actions and found a transition. -/
theorem step_eq_next_iff {st st' : RunState} :
    step rt ir st = .next st' ↔ ∃ state result eff i t, findState ir st.currentState = some state ∧
      state.type ≠ .terminal ∧ rt.publish st.log ⟨.stateEntered, ir.workflowId, st.currentState, none⟩ = none ∧
      executeActions rt ir st.currentState st.ctx (runScope ir) state.actions none
        ⟨st.data, st.log ++ [eventFor ir st.currentState .stateEntered]⟩ = (.ok result, eff) ∧
      resolveTransition rt.cel state.transitions result.eventType st.ctx = some (i, t) ∧
      st' = ⟨t.targetState, mergePayload st.ctx result.payload, eff.data,
        eff.log ++ [eventFor ir st.currentState .stateExited]⟩ := by
  constructor
  · intro h
    unfold step at h
    split at h
    · cases h
    rename_i state hfind
    split at h
    · unfold captureTerminalOutputs failRun at h
      split at h
      · cases h
      · split at h <;> cases h
    rename_i hterm
    dsimp only at h
    split at h
    · cases h
    rename_i hpub
    rw [findState_id hfind] at h
    split at h
    · simp [failRun] at h
    rename_i result hres
    split at h
    · simp [failRun] at h
    rename_i i t htake
    exact ⟨state, result, _, i, t, hfind, hterm, hpub, Prod.ext hres rfl, htake, (StepResult.next.inj h).symm⟩
  · rintro ⟨state, result, eff, i, t, hfind, hterm, hpub, hexec, htake, rfl⟩
    rw [eventFor] at hexec
    simp only [step, hfind, hterm, if_false, hpub, findState_id hfind, hexec, htake]

theorem resolveFrom_unconditional (cel : String → GoMap String → Bool) (eventType : String)
    (ctx : GoMap String)
    {ts : List TransitionIR} (h : ∀ t ∈ ts, t.conditions = ∅) (i : Nat) :
    (resolveFrom cel eventType ctx i ts).map Prod.snd =
      ts.find? (fun t => eventType = "" ∨ t.eventType = eventType) := by
  induction ts generalizing i with
  | nil => rfl
  | cons t ts ih =>
    rw [List.forall_mem_cons] at h
    rw [resolveFrom, List.find?_cons]
    have hguards : guardsMatch cel t.conditions ctx = true := by rw [h.1]; rfl
    by_cases hev : eventType = "" ∨ t.eventType = eventType
    · rw [if_neg (by tauto), if_pos hguards]
      simp [hev]
    · rw [if_pos (by tauto), ih h.2]
      simp [hev]

/-- **What a run gets to is passable**, with the outputs that it has stored. -/
theorem passable_of_reached (hplain : Unconditional ir) {st : RunState} (h : Reached rt ir st) :
    Passable ir st.currentState (keysOf st.data.store) ∧ st.data.scope = runScope ir := by
  induction h with
  | refl =>
    have hempty : keysOf (initRun ir).data.store = ∅ := by
      ext key
      simp [keysOf, initRun, newScopedWorkflowDataContext]
    exact ⟨hempty ▸ .start, rfl⟩
  | @tail st₁ _ _ hstep ih =>
    obtain ⟨hpass, hscope⟩ := ih
    obtain ⟨state, result, eff, i, t, hfind, hterm, -, hexec, htake, rfl⟩ := step_eq_next_iff.mp hstep
    obtain ⟨hcan, hscope', hkeys, hidle⟩ := executes_of_ok hscope hexec
    refine ⟨?_, hscope'.trans hscope⟩
    show Passable ir t.targetState (keysOf eff.data.store)
    rw [hkeys]
    have hfirst := resolveFrom_unconditional rt.cel result.eventType st₁.ctx (hplain _ _ hfind) 0
    rw [← resolveTransition, htake] at hfirst
    exact hpass.next hfind hterm hcan ⟨result.eventType, fun hall => by rw [hidle hall]; rfl, hfirst.symm⟩

/-! ### From passages to runs -/

variable {answers answers' : Nat → ActivityResult} {scope : DataContextScope}

/-- An executor that answers by the length of the history. -/
def scripted (answers : Nat → ActivityResult) : Runtime where
  cel := fun _ _ => true
  render := fun tmpl _ => .ok tmpl
  dispatchCapability := fun log _ => .ok (answers log.length)
  publish := fun _ _ => none

theorem le_length_executeActions (rt : Runtime) (ir : WorkflowIR) (id : String) (ctx : GoMap String)
    (scope : DataContextScope) (actions : List ActionIR) (last : Option ActivityResult) (eff : Effects) :
    eff.log.length ≤ (executeActions rt ir id ctx scope actions last eff).2.log.length := by
  obtain ⟨ds, hds, -⟩ := (executeActions_executed rt ir id ctx scope actions last eff).log
  rw [hds, List.length_append]
  exact Nat.le_add_right _ _

theorem executeActions_congr
    (h : ∀ n, eff.log.length ≤ n →
      n < (executeActions (scripted answers) ir id ctx scope actions last eff).2.log.length →
      answers n = answers' n) :
    executeActions (scripted answers) ir id ctx scope actions last eff =
      executeActions (scripted answers') ir id ctx scope actions last eff := by
  induction actions generalizing last eff with
  | nil => rfl
  | cons a rest ih =>
    rw [executeActions] at h ⊢
    rw [executeActions]
    by_cases ha : a.async = true
    · rw [if_pos ha] at h
      rw [if_pos ha, if_pos ha]
      exact ih h
    · rw [if_neg ha] at h
      rw [if_neg ha, if_neg ha]
      cases hinputs : eff.data.resolveInputs scope a.inputBindings with
      | error err => rfl
      | ok inputs =>
        simp only [hinputs, resolveTemplate, scripted] at h ⊢
        -- the action itself is dispatched with the history so far
        have hhere : answers eff.log.length = answers' eff.log.length := by
          refine h _ le_rfl ?_
          split
          · simp
          · refine lt_of_lt_of_le ?_ (le_length_executeActions ..)
            simp
        rw [← hhere]
        split
        · rfl
        · rename_i hw
          simp only [hw] at h
          refine ih fun n hn => h n (le_trans ?_ hn)
          simp

theorem reached_congr {st : RunState} (h : Reached (scripted answers) ir st)
    (hagree : ∀ n < st.log.length, answers n = answers' n) : Reached (scripted answers') ir st := by
  induction h with
  | refl => exact .refl
  | @tail st₁ _ _ hstep ih =>
    obtain ⟨state, result, eff, i, t, hfind, hterm, hpub, hexec, htake, rfl⟩ := step_eq_next_iff.mp hstep
    have hle := le_length_executeActions (scripted answers) ir st₁.currentState st₁.ctx (runScope ir) state.actions
      none ⟨st₁.data, st₁.log ++ [eventFor ir st₁.currentState .stateEntered]⟩
    rw [hexec] at hle
    simp only [List.length_append, List.length_cons, List.length_nil] at hle hagree
    refine (ih fun n hn => hagree n (by omega)).tail
      (step_eq_next_iff.mpr ⟨state, result, eff, i, t, hfind, hterm, hpub, ?_, htake, rfl⟩)
    rw [← hexec]
    refine (executeActions_congr fun n _ hn => hagree n ?_).symm
    rw [hexec] at hn
    exact Nat.lt_succ_of_lt hn

theorem executeActions_scripted_cons {a : ActionIR} {rest : List ActionIR} {inputs : GoMap String}
    (ha : a.async = false) (hinputs : eff.data.resolveInputs scope a.inputBindings = .ok inputs)
    (hwrite : (eff.data.writeOutputs scope id a.outputBindings (answers eff.log.length).payload).2 = none) :
    executeActions (scripted answers) ir id ctx scope (a :: rest) last eff =
      executeActions (scripted answers) ir id ctx scope rest (some (answers eff.log.length))
        ⟨(eff.data.writeOutputs scope id a.outputBindings (answers eff.log.length).payload).1,
          eff.log ++ [.dispatch id ⟨a.capability, a.inputTemplateJson, ir.workflowId, timeoutSeconds a.timeout⟩]⟩ := by
  rw [executeActions]
  simp only [ha, Bool.false_eq_true, if_false, hinputs, resolveTemplate, scripted, hwrite]

/-- Actions that can be executed are, by answers that differ only from here on, and with any event. -/
theorem executeActions_realize (h : CanExecute id (keysOf eff.data.store) actions)
    (hscope : eff.data.scope = scope)
    (answers : Nat → ActivityResult) (ir : WorkflowIR) (ctx : GoMap String) {eventType : String}
    (hlast : actions.all ActionIR.async = true → (last.getD ⟨"", ""⟩).eventType = eventType) :
    ∃ answers' result eff', (∀ n < eff.log.length, answers n = answers' n) ∧
      executeActions (scripted answers') ir id ctx scope actions last eff = (.ok result, eff') ∧
      result.eventType = eventType := by
  subst hscope
  induction actions generalizing last eff answers with
  | nil => exact ⟨answers, _, eff, fun _ _ => rfl, rfl, hlast rfl⟩
  | cons a rest ih =>
    rw [CanExecute] at h
    cases ha : a.async with
    | true =>
      rw [if_pos ha] at h
      obtain ⟨answers', result, eff', hagree, hexec, hev⟩ := ih h answers (by simpa [ha] using hlast)
      exact ⟨answers', result, eff', hagree, by rw [executeActions, if_pos ha, hexec], hev⟩
    | false =>
      rw [if_neg (by simp [ha])] at h
      obtain ⟨hknown, ⟨payload, doc, hdoc, hall⟩, hrest⟩ := h
      obtain ⟨inputs, hinputs⟩ := resolveInputs_iff.mpr hknown
      have hwrite : (eff.data.writeOutputs eff.data.scope id a.outputBindings payload).2 = none :=
        writeOutputs_eq_none_iff.mpr (Or.inr ⟨doc, hdoc, hall⟩)
      have hscope := writeOutputs_scope eff.data eff.data.scope id a.outputBindings payload
      rw [← keysOf_writeOutputs hwrite] at hrest
      -- this action is answered here, the others by the induction hypothesis
      obtain ⟨answers', result, eff', hagree, hexec, hev⟩ := @ih (some ⟨eventType, payload⟩)
        ⟨(eff.data.writeOutputs eff.data.scope id a.outputBindings payload).1,
          eff.log ++ [.dispatch id ⟨a.capability, a.inputTemplateJson, ir.workflowId, timeoutSeconds a.timeout⟩]⟩
        hrest (Function.update answers eff.log.length ⟨eventType, payload⟩) (fun _ => rfl)
      have hhere : answers' eff.log.length = ⟨eventType, payload⟩ := by
        rw [← hagree _ (by simp), Function.update_self]
      refine ⟨answers', result, eff', fun n hn => ?_, ?_, hev⟩
      · rw [← hagree n (by simp; omega), Function.update_of_ne hn.ne]
      · rw [executeActions_scripted_cons ha hinputs (hhere ▸ hwrite), hhere, ← hexec, hscope]

/-- A run that can leave its state does, by answers that differ only from here on. -/
theorem exists_step (hplain : Unconditional ir) {st : RunState} (hreach : Reached (scripted answers) ir st)
    {state : StateIR} {t : TransitionIR} (hfind : findState ir st.currentState = some state)
    (hterm : state.type ≠ .terminal) (hcan : CanExecute st.currentState (keysOf st.data.store) state.actions)
    (ht : CanTake state t) :
    ∃ answers' ctx, ∃ eff : Effects, Reached (scripted answers') ir st ∧
      step (scripted answers') ir st =
        .next ⟨t.targetState, ctx, eff.data, eff.log ++ [eventFor ir st.currentState .stateExited]⟩ ∧
      keysOf eff.data.store = keysOf st.data.store ∪ { key | PublishedBy st.currentState state.actions key } := by
  obtain ⟨eventType, hidle, hfirst⟩ := ht
  have hscope := (passable_of_reached hplain hreach).2
  obtain ⟨answers', result, eff, hagree, hexec, rfl⟩ := @executeActions_realize st.currentState state.actions none
    ⟨st.data, st.log ++ [eventFor ir st.currentState .stateEntered]⟩ (runScope ir) hcan hscope answers ir st.ctx
    eventType (fun hall => (hidle hall).symm)
  have hres := resolveFrom_unconditional (scripted answers').cel result.eventType st.ctx (hplain _ _ hfind) 0
  rw [hfirst, ← resolveTransition] at hres
  obtain ⟨⟨i, t'⟩, htake, rfl⟩ := Option.map_eq_some_iff.mp hres
  refine ⟨answers', mergePayload st.ctx result.payload, eff, ?_, ?_, (executes_of_ok hscope hexec).keys⟩
  · exact reached_congr hreach fun n hn => hagree n (by simp; omega)
  · exact step_eq_next_iff.mpr ⟨state, result, eff, i, t', hfind, hterm, rfl, hexec, htake, rfl⟩

/-- **For what is passable there is a run**, by some answers, that has stored just these outputs. -/
theorem exists_run (hplain : Unconditional ir) (h : Passable ir id keys) :
    ∃ answers st, Reached (scripted answers) ir st ∧ st.currentState = id ∧ keysOf st.data.store = keys := by
  induction h with
  | start =>
    refine ⟨fun _ => ⟨"", ""⟩, initRun ir, .refl, rfl, ?_⟩
    ext key
    simp [keysOf, initRun, newScopedWorkflowDataContext]
  | next _ hfind hterm hcan ht ih =>
    obtain ⟨answers, st, hreach, rfl, rfl⟩ := ih
    obtain ⟨answers', ctx, eff, hreach', hstep, hkeys⟩ := exists_step hplain hreach hfind hterm hcan ht
    exact ⟨answers', _, hreach'.tail hstep, rfl, hkeys⟩

/-! ### Compiled workflows -/

theorem unconditional_of_converted {raw : YamlManifest} {lines : GoMap Int} {m : Manifest}
    {g : WorkflowGraph}
    {wid api : String} {at' : Option Int} {now : Int} (hconv : convertManifest raw lines = .ok m)
    (hstates : g.states = m.states) (hir : toIR g wid api at' now = .ok ir) : Unconditional ir := by
  intro id state hfind t ht
  obtain ⟨s, hs, hstate⟩ := lookup_of_findState hir hfind
  obtain ⟨ys, -, hys⟩ := (convertManifest_eq_ok hconv).2.2.2.2.2 id s (hstates ▸ hs)
  rw [hstate.transitions_eq, (convertState_eq_ok hys).2.2.2.1, convertTransitions, List.map_map] at ht
  obtain ⟨yt, -, rfl⟩ := List.mem_map.mp ht
  rfl

end Zynax.Engine
