import Zynax.Compiler.Server
import Zynax.Engine.Interpreter

namespace Zynax.Engine

open Golang Compiler

/-!
# Routing in the manifest and routing in the IR

A manifest routes an event by the first transition on it whose guard is open; the engine routes
by the conditions of the compiled transitions, which are empty because the compiler has dropped
the guards.
-/

def guardOpen (cel : String → GoMap String → Bool) (guard : String) (ctx : GoMap String) : Bool :=
  guard == "" || evalGuard cel guard ctx

def manifestRoute (cel : String → GoMap String → Bool) (on : List YamlTransition)
    (eventType : String) (ctx : GoMap String) : Option Nat :=
  on.findIdx? (fun yt => yt.event == eventType && guardOpen cel yt.guard ctx)

def engineRoute (cel : String → GoMap String → Bool) (transitions : List TransitionIR)
    (eventType : String) (ctx : GoMap String) : Option Nat :=
  (resolveTransition cel transitions eventType ctx).map Prod.fst

theorem transitions_of_convertState {id : String} {ys : YamlState} {line : Int} {s : State}
    {st : StateIR} (hconv : convertState id ys line = .ok s) (hst : ConvertedState s st) :
    st.transitions = ys.on.map (fun yt => ⟨yt.event, yt.goto, ∅⟩) := by
  obtain ⟨-, -, -, htrans, -⟩ := convertState_eq_ok hconv
  rw [hst.transitions_eq, htrans, convertTransitions, List.map_map]
  rfl

theorem resolveFrom_compiled (cel : String → GoMap String → Bool) (ctx : GoMap String)
    {eventType : String} (hev : eventType ≠ "") (on : List YamlTransition) (i : Nat) :
    (resolveFrom cel eventType ctx i (on.map (fun yt => ⟨yt.event, yt.goto, ∅⟩))).map Prod.fst =
      (on.findIdx? (fun yt => yt.event == eventType)).map (· + i) := by
  induction on generalizing i with
  | nil => rfl
  | cons yt on ih =>
    rw [List.map_cons, resolveFrom, List.findIdx?_cons]
    by_cases hyt : yt.event = eventType
    · have hguards : guardsMatch cel (∅ : GoMap String) ctx = true := rfl
      simp [hyt, hguards]
    · have hbeq : (yt.event == eventType) = false := by simpa using hyt
      rw [if_pos ⟨hev, hyt⟩, ih, hbeq]
      simp only [Bool.false_eq_true, if_false, Option.map_map]
      congr 1
      grind

/-- **On compiled transitions the engine ignores the guards.** -/
theorem resolveTransition_compiled (cel : String → GoMap String → Bool) (ctx : GoMap String)
    {eventType : String} (hev : eventType ≠ "") (on : List YamlTransition) :
    engineRoute cel (on.map (fun yt => ⟨yt.event, yt.goto, ∅⟩)) eventType ctx =
      on.findIdx? (fun yt => yt.event == eventType) := by
  rw [engineRoute, resolveTransition, resolveFrom_compiled cel ctx hev]
  simp

theorem findIdx?_eq_findIdx?_and_iff {α : Type} (p q : α → Bool) (l : List α) :
    l.findIdx? p = l.findIdx? (fun a => p a && q a) ↔ ∀ a, l.find? p = some a → q a = true := by
  induction l with
  | nil => simp
  | cons a l ih =>
    rw [List.findIdx?_cons, List.findIdx?_cons, List.find?_cons]
    cases hp : p a with
    | false =>
      simp only [Bool.false_and, Bool.false_eq_true, if_false]
      rw [← ih]
      exact (Option.map_injective (add_left_injective 1)).eq_iff
    | true =>
      cases hq : q a with
      | true => simp [hq]
      | false =>
        -- `p` stops here and `p && q` goes on
        refine iff_of_false ?_ ?_
        · intro h
          simp only [Bool.and_false, Bool.false_eq_true, if_false, if_true] at h
          obtain ⟨n, -, hn⟩ := Option.map_eq_some_iff.mp h.symm
          exact absurd hn (by omega)
        · intro h
          have hqa := h a rfl
          rw [hq] at hqa
          exact absurd hqa (by simp)

/-- **Routing survives compilation exactly when the guard that comes first is open.**  In a state that
    is not terminal, for a non-empty event and any context and CEL evaluator: the engine selects on
    the IR the transition the manifest selects, or fails with it, if and only if the state's first
    transition on the event, if any, has no guard or one that evaluates to true. -/
theorem route_agrees_iff {s : Server} {env : CallEnv} {req : CompileWorkflowRequest}
    {ir : WorkflowIR} {root : YamlNode} {raw : YamlManifest} (hacc : s.Accepts env req ir)
    (hroot : s.yaml.unmarshal req.manifestYaml = .ok (some root)) (hraw : s.yaml.decode root = .ok raw)
    {id : String} {ys : YamlState} (hys : raw.spec.states.lookup id = some ys)
    (hterm : stateTypeOf ys.type ≠ some .terminal) {eventType : String} (hev : eventType ≠ "")
    (cel : String → GoMap String → Bool) (ctx : GoMap String) :
    ∃ state, findState ir id = some state ∧ state.type ≠ .terminal ∧
      (engineRoute cel state.transitions eventType ctx = manifestRoute cel ys.on eventType ctx ↔
        ∀ yt, ys.on.find? (fun yt => yt.event == eventType) = some yt →
          guardOpen cel yt.guard ctx = true) := by
  obtain ⟨st, line, state, hconv, hfind, hstate⟩ := hacc.state hroot hraw hys
  refine ⟨state, hfind, ?_, ?_⟩
  · rw [hstate.type_eq]
    obtain ⟨-, htype, -⟩ := convertState_eq_ok hconv
    rw [htype] at hterm
    cases hty : st.type with
    | terminal => exact absurd (congrArg some hty) hterm
    | normal => decide
    | humanInTheLoop => decide
  · rw [transitions_of_convertState hconv hstate, resolveTransition_compiled cel ctx hev,
      manifestRoute]
    exact findIdx?_eq_findIdx?_and_iff _ _ _

/-! ### A review workflow -/

def reviewState : YamlState where
  actions := [{ capability := "review" }]
  on := [{ event := "review.completed", goto := "escalate", guard := "ctx.risk == 'high'" },
    { event := "review.completed", goto := "merge" }]

def reviewYaml : YamlManifest := workflowYaml "review" "review"
  [("review", reviewState), ("escalate", { type := "terminal" }),
    ("merge", { type := "terminal" })]

def reviewServer : Server := { yaml := fixedYaml reviewYaml }

def reviewEnv : CallEnv := { workflowID := "wf-1", now := 0, elapsedMs := 1 }

def reviewText : List UInt8 := manifestText "review" "review"
  ("    review: \x7bactions: [\x7bcapability: review\x7d], on: [\x7bevent: review.completed, goto: escalate,\n" ++
    "      guard: \"ctx.risk == 'high'\"\x7d, \x7bevent: review.completed, goto: merge\x7d]\x7d\n" ++
    "    escalate: \x7btype: terminal\x7d\n" ++
    "    merge: \x7btype: terminal\x7d\n")

def reviewRequest : CompileWorkflowRequest := { manifestYaml := reviewText }

def reviewIR : WorkflowIR := plainIR "review" "review"
  [⟨"escalate", .terminal, [], [], ∅⟩, ⟨"merge", .terminal, [], [], ∅⟩,
    ⟨"review", .normal, [⟨"review", none, "", false, ∅, ∅⟩],
      [⟨"review.completed", "escalate", ∅⟩, ⟨"review.completed", "merge", ∅⟩], ∅⟩]

theorem accepts_review : reviewServer.Accepts reviewEnv reviewRequest reviewIR := by
  rfl

theorem route_agrees_review :
    ∃ state, findState reviewIR "review" = some state ∧ state.type ≠ .terminal ∧
      (engineRoute (fun _ _ => true) state.transitions "review.completed" ∅ =
          manifestRoute (fun _ _ => true) reviewState.on "review.completed" ∅ ↔
        ∀ yt, reviewState.on.find? (fun yt => yt.event == "review.completed") = some yt →
          guardOpen (fun _ _ => true) yt.guard ∅ = true) :=
  route_agrees_iff accepts_review rfl rfl
    (show reviewYaml.spec.states.lookup "review" = some reviewState from rfl) (by decide +kernel)
    (by decide) (fun _ _ => true) ∅

/-- **A guard is dropped.**  The review workflow is accepted; with a guard that evaluates to
    false the manifest selects the second transition and the engine the first. -/
theorem guard_dropped_review :
    reviewServer.Accepts reviewEnv reviewRequest reviewIR ∧
      reviewServer.yaml.decode (.mk .document "" 1 []) = .ok reviewYaml ∧
      reviewYaml.spec.states.lookup "review" = some reviewState ∧
      ∃ state, findState reviewIR "review" = some state ∧ state.type = .normal ∧
        manifestRoute (fun _ _ => false) reviewState.on "review.completed" ∅ = some 1 ∧
        engineRoute (fun _ _ => false) state.transitions "review.completed" ∅ = some 0 := by
  refine ⟨accepts_review, rfl, rfl, _, rfl, rfl, ?_, ?_⟩
  · decide +kernel
  · decide +kernel

end Zynax.Engine
