import Zynax.Compiler.Validators
import Zynax.Engine.Dispatch

namespace Zynax.Engine

open Golang Compiler

/-!
# Events of results that name none

The result of a task may name its event in the field `_event`.  Where it does not, the engine
raises `<capability>.completed`, and the author of the workflow has to write a transition for
that.
-/

/-! ### Names -/

theorem isSnakeCase_char {s : List Char} (h : isSnakeCase s = true) {c : Char} (hc : c ∈ s) :
    isLowerAlnum c = true ∨ c = '_' := by
  by_cases hne : c = '_'
  · exact Or.inr hne
  · obtain ⟨p, hp, hcp⟩ := exists_mem_splitOn hc hne
    rw [isSnakeCase] at h
    split at h
    · exact absurd h (by simp)
    · rename_i w ws hsplit
      rw [hsplit, List.mem_cons] at hp
      rw [Bool.and_eq_true, List.all_eq_true] at h
      rcases hp with rfl | hp
      · -- the first word is led by a letter
        cases p with
        | nil => exact absurd hcp (by simp)
        | cons x xs =>
          have hword := h.1
          rw [Bool.and_eq_true, List.all_eq_true] at hword
          rcases List.mem_cons.mp hcp with rfl | hcp
          · exact Or.inl (by rw [isLowerAlnum, hword.1, Bool.true_or])
          · exact Or.inl (hword.2 c hcp)
      · grind

theorem isSnakeCase_notMem {s : List Char} (h : isSnakeCase s = true) {c : Char}
    (hc : isLowerAlnum c = false) (hne : c ≠ '_') : c ∉ s := by
  intro hmem
  rcases isSnakeCase_char h hmem with halnum | heq
  · grind
  · exact hne heq

/-- **The event of a capability has a proper name exactly when the capability is not qualified.** -/
theorem eventNameRe_completed {cap : String} (hcap : capabilityNameRe cap = true) :
    eventNameRe (cap ++ ".completed") = true ↔ '/' ∉ cap.toList := by
  have htext : (cap ++ ".completed").toList = cap.toList ++ '.' :: "completed".toList := by
    simp
  rw [eventNameRe, htext, List.all_eq_true]
  constructor
  · intro hall hslash
    obtain ⟨p, hp, hmem⟩ := exists_mem_splitOn (c := '.')
      (List.mem_append_left ('.' :: "completed".toList) hslash) (by decide)
    exact isSnakeCase_notMem (hall p hp) (by decide) (by decide) hmem
  · intro hslash
    have hname : isSnakeCase cap.toList = true := by
      have hsplit : cap.toList.splitOn '/' = [cap.toList] :=
        (splitOn_eq_iff (by simp)).mpr ⟨by simp, by simpa using hslash⟩
      rwa [capabilityNameRe, hsplit] at hcap
    have hsplit : (cap.toList ++ '.' :: "completed".toList).splitOn '.' =
        [cap.toList, "completed".toList] := by
      refine (splitOn_eq_iff (by simp)).mpr ⟨by simp, ?_⟩
      rw [List.forall_mem_cons]
      exact ⟨isSnakeCase_notMem hname (by decide) (by decide), by decide⟩
    rw [hsplit, List.forall_mem_cons]
    exact ⟨hname, by decide⟩

/-! ### Validators -/

def EventAccepted (event : String) : Prop :=
  ∀ g : WorkflowGraph,
    (∀ id st, g.states.lookup id = some st → ∀ t ∈ st.transitions, t.eventType = event) →
      eventNameValidator g = []

theorem eventNameValidator_eq_nil {g : WorkflowGraph} :
    eventNameValidator g = [] ↔ ∀ id st, g.states.lookup id = some st → ∀ t ∈ st.transitions,
      eventNameRe t.eventType = true := by
  simp only [eventNameValidator, flatMap_entries_eq_nil, List.filterMap_eq_nil_iff, ite_eq_left_iff,
    reduceCtorEq, imp_false, Bool.not_eq_true, Bool.not_eq_false]

def loopOn (event : String) : WorkflowGraph where
  name := "loop"
  nameSpace := "default"
  initialState := "loop"
  states := GoMap.ofPairs [("loop", ⟨"loop", .normal, [], [⟨event, "loop", "", ∅, ∅⟩], ∅, 0⟩)]

theorem eventAccepted_iff {event : String} : EventAccepted event ↔ eventNameRe event = true := by
  constructor
  · intro h
    have hloop : eventNameValidator (loopOn event) = [] := by
      refine h _ fun id st hst t ht => ?_
      have hentry : (⟨id, st⟩ : Σ _ : String, State) ∈ (loopOn event).states.entries :=
        GoMap.mem_entries_iff.mpr hst
      cases List.mem_singleton.mp hentry
      rw [List.mem_singleton.mp ht]
    exact eventNameValidator_eq_nil.mp hloop "loop" _ rfl ⟨event, "loop", "", ∅, ∅⟩ (by simp)
  · intro h g hall
    refine eventNameValidator_eq_nil.mpr fun id st hst t ht => ?_
    grind

theorem capabilityNameRe_of_valid {g : WorkflowGraph} (h : capabilityRefValidator g = [])
    {id : String} {st : State} (hst : g.states.lookup id = some st) {a : Action}
    (ha : a ∈ st.actions) : capabilityNameRe a.capability = true := by
  rw [capabilityRefValidator, flatMap_entries_eq_nil] at h
  have hstate := h id st hst
  obtain ⟨i, hi, rfl⟩ := List.getElem_of_mem ha
  rw [List.flatten_eq_nil_iff] at hstate
  have hnil := hstate _ (List.mem_mapIdx.mpr ⟨i, hi, rfl⟩)
  grind

/-! ### Results -/

def NoEvent (payload : String) : Prop :=
  payload = "" ∨ ∃ envelope, Json.decodeObject payload = some envelope ∧ envelope.lookup "_event" = none

theorem extractResult_of_noEvent {payload : String} (h : NoEvent payload) (cap : String) :
    extractResult payload cap = .ok ⟨cap ++ ".completed", payload⟩ := by
  rw [extractResult]
  rcases h with rfl | ⟨envelope, hdecode, hnone⟩
  · rfl
  · grind

/-- **When a default result can be routed.**  For every action of a workflow that passes the checks of
    capabilities and every result without an event: a transition may name the event that the engine
    raises exactly when the capability is not qualified by a namespace. -/
theorem defaultEvent_accepted_iff {g : WorkflowGraph} (href : capabilityRefValidator g = [])
    (_hcross : crossNamespaceCapabilityValidator g = []) {id : String} {st : State}
    (hst : g.states.lookup id = some st) {a : Action} (ha : a ∈ st.actions) {payload : String}
    (hpayload : NoEvent payload) :
    (∃ r, extractResult payload a.capability = .ok r ∧ EventAccepted r.eventType) ↔
      '/' ∉ a.capability.toList := by
  rw [← eventNameRe_completed (capabilityNameRe_of_valid href hst ha), ← eventAccepted_iff,
    extractResult_of_noEvent hpayload]
  simp

def teamGraph (cap : String) : WorkflowGraph where
  name := "mail"
  nameSpace := "team-a"
  initialState := "send"
  states := GoMap.ofPairs
    [("send", ⟨"send", .normal, [⟨cap, 0, ∅, ∅, ∅, false⟩],
        [⟨cap ++ ".completed", "done", "", ∅, ∅⟩], ∅, 0⟩),
      ("done", ⟨"done", .terminal, [], [], ∅, 0⟩)]

theorem defaultEvent_accepted_iff_sendEmail :
    ∃ r, extractResult "\x7b\x7d" "send_email" = .ok r ∧ EventAccepted r.eventType := by
  obtain ⟨st, hst, ha⟩ : ∃ st, (teamGraph "send_email").states.lookup "send" = some st ∧
      (⟨"send_email", 0, ∅, ∅, ∅, false⟩ : Action) ∈ st.actions := ⟨_, rfl, by simp⟩
  refine (defaultEvent_accepted_iff (by decide +kernel) (by decide +kernel) hst ha
    (Or.inr ⟨∅, by decide +kernel, rfl⟩)).mpr ?_
  decide

/-- **A qualified capability cannot be routed by its default event.**  The name passes the checks in
    its own namespace; the only error of the workflow is the transition for the event that the engine
    raises. -/
theorem qualified_event_rejected :
    capabilityRefValidator (teamGraph "team-a/send_email") = [] ∧
      crossNamespaceCapabilityValidator (teamGraph "team-a/send_email") = [] ∧
      extractResult "" "team-a/send_email" = .ok ⟨"team-a/send_email.completed", ""⟩ ∧
      (runAll (teamGraph "team-a/send_email")).map (fun e => e.message.args) =
        [[.str "send", .str "team-a/send_email.completed"]] ∧
      (runAll (teamGraph "send_email")) = [] := by
  refine ⟨by decide +kernel, by decide +kernel, rfl, by decide +kernel, by decide +kernel⟩

end Zynax.Engine
