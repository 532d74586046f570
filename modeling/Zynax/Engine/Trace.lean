import Zynax.Compiler.Server
import Zynax.Engine.Passages

namespace Zynax.Engine

open Golang Compiler

/-!
# The history of a run

What a whole run publishes and dispatches, from the cases of a single iteration.

* `run_history` — the events of a run that ends, in order.
* `no_human_exit_iff` — the workflows whose human-in-the-loop states no run leaves by itself.
-/

/-! ### Runs that end -/

variable {ir : WorkflowIR} {rt : Runtime} {st : RunState}

inductive RunTrace (ir : WorkflowIR) : String → Log → Except RunError (GoMap String) → Prop
  | completed {s : String} {state : StateIR} {outputs : GoMap String}
      (hfind : findState ir s = some state) (hterm : state.type = .terminal) :
      RunTrace ir s [eventFor ir s .completed (some (marshalTerminalPayload outputs))] (.ok outputs)
  | terminalFailed {s : String} {state : StateIR} {err : RunError}
      (hfind : findState ir s = some state) (hterm : state.type = .terminal)
      (herr : ∀ id, err ≠ .stateNotFound id) :
      RunTrace ir s [eventFor ir s .failed] (.error err)
  | failed {s : String} {state : StateIR} {ds : Log} {err : RunError}
      (hfind : findState ir s = some state) (hterm : state.type ≠ .terminal)
      (hds : ∀ o ∈ ds, DispatchOf ir s state.actions o) (herr : ∀ id, err ≠ .stateNotFound id) :
      RunTrace ir s (eventFor ir s .stateEntered :: (ds ++ [eventFor ir s .failed])) (.error err)
  | exited {s : String} {state : StateIR} {ds log : Log} {t : TransitionIR}
      {r : Except RunError (GoMap String)}
      (hfind : findState ir s = some state) (hterm : state.type ≠ .terminal)
      (hds : ∀ o ∈ ds, DispatchOf ir s state.actions o) (ht : t ∈ state.transitions)
      (hrest : RunTrace ir t.targetState log r) :
      RunTrace ir s
        (eventFor ir s .stateEntered :: (ds ++ eventFor ir s .stateExited :: log)) r

def TargetsKnown (ir : WorkflowIR) : Prop :=
  ∀ id state, findState ir id = some state → ∀ t ∈ state.transitions,
    ∃ state', findState ir t.targetState = some state'

theorem targetsKnown_of_build {m : Manifest} {g : WorkflowGraph} {wid api : String}
    {at' : Option Int} {now : Int} (hbuild : build m = .ok g)
    (hir : toIR g wid api at' now = .ok ir) :
    TargetsKnown ir ∧ ∃ state, findState ir ir.initialState = some state := by
  obtain ⟨hwell, rfl⟩ := build_eq_ok.mp hbuild
  refine ⟨?_, ?_⟩
  · intro id state hfind t ht
    obtain ⟨s, hs, hconv⟩ := lookup_of_findState hir hfind
    rw [hconv.transitions_eq, convertTransitions] at ht
    obtain ⟨t', ht', rfl⟩ := List.mem_map.mp ht
    obtain ⟨st', hst'⟩ := hwell.targets_known id s hs t' ht'
    obtain ⟨state', hfind', -⟩ := findState_of_lookup hir hst'
    exact ⟨state', hfind'⟩
  · obtain ⟨st, hst⟩ := hwell.initial_known
    obtain ⟨state, hfind, -⟩ := findState_of_lookup hir hst
    exact ⟨state, (toIR_eq_ok hir).2.2.1 ▸ hfind⟩

theorem runTrace_of_run (hpub : ∀ log e, rt.publish log e = none)
    (htargets : TargetsKnown ir) {fuel : Nat} (hst : ∃ state, findState ir st.currentState = some state)
    {r : Except RunError (GoMap String)} {log : Log} (hrun : run rt ir fuel st = some (r, log)) :
    ∃ tail, log = st.log ++ tail ∧ RunTrace ir st.currentState tail r := by
  induction fuel generalizing st with
  | zero => exact absurd hrun (by simp [run])
  | succ fuel ih =>
    rw [run] at hrun
    have hcase := step_cases rt ir st
    cases hstep : step rt ir st with
    | done r' log' =>
      rw [hstep] at hrun hcase
      obtain ⟨rfl, rfl⟩ := Prod.mk.inj (Option.some.inj hrun)
      cases hcase with
      | unknown hfind =>
        grind
      | completed hfind hterm => exact ⟨_, rfl, .completed hfind hterm⟩
      | terminalFailed hfind hterm herr => exact ⟨_, rfl, .terminalFailed hfind hterm herr⟩
      -- publications do not fail, so no run ends before its state is entered
      | notEntered hfind hterm hp => exact absurd ((hpub _ _).symm.trans hp) (by simp)
      | failed hfind hterm hds herr => exact ⟨_, rfl, .failed hfind hterm hds herr⟩
    | next st' =>
      rw [hstep] at hrun hcase
      cases hcase with
      | exited hfind hterm hds ht htarget hscope hstore hlog =>
        have hst' : ∃ state, findState ir st'.currentState = some state := by
          rw [htarget]
          exact htargets _ _ hfind _ ht
        obtain ⟨tail, htail, htrace⟩ := ih hst' hrun
        rw [htarget] at htrace
        refine ⟨_, ?_, .exited hfind hterm hds ht htrace⟩
        grind

/-- **Every run that ends tells its story in order.**  With any executor and a publisher that never
    fails, the history is a path of entered and exited states from the initial state along
    transitions, with the dispatches of a state between its events, closed by one completed event
    carrying the returned outputs or one failed event; a missing state is never reported. -/
theorem run_history {m : Manifest} {g : WorkflowGraph} {wid api : String} {at' : Option Int}
    {now : Int} {ir : WorkflowIR} (hbuild : build m = .ok g) (hir : toIR g wid api at' now = .ok ir)
    {rt : Runtime} (hpub : ∀ log e, rt.publish log e = none) {fuel : Nat}
    {r : Except RunError (GoMap String)} {log : Log} (hrun : run rt ir fuel (initRun ir) = some (r, log)) :
    RunTrace ir ir.initialState log r := by
  obtain ⟨htargets, hinit⟩ := targetsKnown_of_build hbuild hir
  have hstart : ∃ state, findState ir (initRun ir).currentState = some state := hinit
  obtain ⟨tail, rfl, htrace⟩ := runTrace_of_run hpub htargets hstart hrun
  exact htrace

/-! ### An approval workflow -/

def approvalManifest : Manifest := plainManifest "approval" "wait"
  [("wait", ⟨"wait", .humanInTheLoop, [], [⟨"approved", "done", "", ∅, ∅⟩], ∅, 0⟩),
    ("done", ⟨"done", .terminal, [], [], GoMap.ofPairs [("result", "ok")], 0⟩)]

def approvalGraph : WorkflowGraph :=
  ⟨"approval", "default", "wait", approvalManifest.states⟩

def approvalIR : WorkflowIR := plainIR "approval" "wait"
  [⟨"done", .terminal, [], [], GoMap.ofPairs [("result", "ok")]⟩,
    ⟨"wait", .humanInTheLoop, [], [⟨"approved", "done", ∅⟩], ∅⟩]

def quietRuntime : Runtime where
  cel := fun _ _ => false
  render := fun tmpl _ => .ok tmpl
  dispatchCapability := fun _ _ => .error "no agent"
  publish := fun _ _ => none

theorem build_approval : build approvalManifest = .ok approvalGraph := by
  rfl

theorem toIR_approval : toIR approvalGraph "wf-1" "zynax.io/v1" none 0 = .ok approvalIR := by
  rfl

theorem run_approval : run quietRuntime approvalIR 2 (initRun approvalIR) =
    some (.ok (GoMap.ofPairs [("result", "ok")]),
      [eventFor approvalIR "wait" .stateEntered, eventFor approvalIR "wait" .stateExited,
        eventFor approvalIR "done" .completed (some "\x7b\"outputs\":\x7b\"result\":\"ok\"\x7d\x7d")]) := by
  rfl

theorem run_history_approval :
    RunTrace approvalIR "wait"
      [eventFor approvalIR "wait" .stateEntered, eventFor approvalIR "wait" .stateExited,
        eventFor approvalIR "done" .completed (some "\x7b\"outputs\":\x7b\"result\":\"ok\"\x7d\x7d")]
      (.ok (GoMap.ofPairs [("result", "ok")])) :=
  run_history build_approval toIR_approval
    (show ∀ log e, quietRuntime.publish log e = none from fun _ _ => rfl) run_approval

/-! ### Human-in-the-loop states -/

variable {id : String}

def IsHuman (ir : WorkflowIR) (id : String) : Prop :=
  ∃ state, findState ir id = some state ∧ state.type = .humanInTheLoop

def NoHumanExit (ir : WorkflowIR) (log : Log) : Prop :=
  ∀ e, Obs.publish e ∈ log → e.kind = .stateExited → ¬ IsHuman ir e.stateID

theorem NoHumanExit.append {l l' : Log} (h : NoHumanExit ir l)
    (h' : NoHumanExit ir l') : NoHumanExit ir (l ++ l') := by
  intro e he
  rcases List.mem_append.mp he with he | he
  · exact h e he
  · exact h' e he

theorem noHumanExit_event {kind : Lifecycle}
    {payload : Option String} (hkind : kind ≠ .stateExited) :
    NoHumanExit ir [eventFor ir id kind payload] := by
  intro e he hexit
  have heq : e = ⟨kind, ir.workflowId, id, payload⟩ := by
    simpa [eventFor] using he
  grind

theorem noHumanExit_exit (hid : ¬ IsHuman ir id) :
    NoHumanExit ir [eventFor ir id .stateExited] := by
  intro e he _
  have heq : e = ⟨.stateExited, ir.workflowId, id, none⟩ := by
    simpa [eventFor] using he
  grind

theorem noHumanExit_dispatches {actions : List ActionIR} {ds : Log}
    (hds : ∀ o ∈ ds, DispatchOf ir id actions o) : NoHumanExit ir ds := by
  intro e he
  obtain ⟨_, _, _, _, heq, _⟩ := hds _ he
  exact absurd heq (by simp)

theorem noHumanExit_done {r : Except RunError (GoMap String)} {log : Log} (hlog : NoHumanExit ir st.log)
    (hstep : step rt ir st = .done r log) : NoHumanExit ir log := by
  have hcase := step_cases rt ir st
  rw [hstep] at hcase
  cases hcase with
  | unknown hfind => exact hlog
  | completed hfind hterm => exact hlog.append (noHumanExit_event (by decide))
  | terminalFailed hfind hterm herr => exact hlog.append (noHumanExit_event (by decide))
  | notEntered hfind hterm hp => exact hlog.append (noHumanExit_event (by decide))
  | failed hfind hterm hds herr =>
    have hentered : NoHumanExit ir [eventFor ir st.currentState .stateEntered] :=
      noHumanExit_event (by decide)
    have hfailed : NoHumanExit ir [eventFor ir st.currentState .failed] :=
      noHumanExit_event (by decide)
    exact hlog.append (hentered.append ((noHumanExit_dispatches hds).append hfailed))

theorem noHumanExit_next {st' : RunState} (hlog : NoHumanExit ir st.log)
    (hid : ¬ IsHuman ir st.currentState) (hstep : step rt ir st = .next st') :
    NoHumanExit ir st'.log := by
  have hcase := step_cases rt ir st
  rw [hstep] at hcase
  cases hcase with
  | exited hfind hterm hds ht htarget hscope hstore hlog' =>
    have hentered : NoHumanExit ir [eventFor ir st.currentState .stateEntered] :=
      noHumanExit_event (by decide)
    rw [hlog']
    exact hlog.append
      (hentered.append ((noHumanExit_dispatches hds).append (noHumanExit_exit hid)))

/-- A way out of the state: it can be got to, its actions can be executed there, and it has a transition. -/
def WayOut (ir : WorkflowIR) (id : String) (state : StateIR) : Prop :=
  ∃ keys, Passable ir id keys ∧ CanExecute id keys state.actions ∧ state.transitions ≠ []

theorem wayOut_of_next (hplain : Unconditional ir) (hreach : Reached rt ir st) {st' : RunState}
    {state : StateIR}
    (hfind : findState ir st.currentState = some state) (hstep : step rt ir st = .next st') :
    WayOut ir st.currentState state := by
  obtain ⟨hpass, hscope⟩ := passable_of_reached hplain hreach
  obtain ⟨state', result, eff, i, t, hfind', -, -, hexec, htake, -⟩ := step_eq_next_iff.mp hstep
  obtain rfl : state = state' := Option.some.inj (hfind.symm.trans hfind')
  exact ⟨_, hpass, (executes_of_ok hscope hexec).can, List.ne_nil_of_mem (mem_of_resolveFrom htake).1⟩

theorem exists_exit (hplain : Unconditional ir) {state : StateIR} (hfind : findState ir id = some state)
    (hterm : state.type ≠ .terminal) (h : WayOut ir id state) :
    ∃ rt st, Reached rt ir st ∧ eventFor ir id .stateExited ∈ st.log := by
  obtain ⟨keys, hpass, hcan, hne⟩ := h
  obtain ⟨answers, st, hreach, rfl, rfl⟩ := exists_run hplain hpass
  obtain ⟨t, ts, hts⟩ := List.exists_cons_of_ne_nil hne
  -- the empty event lets the first transition be taken
  have htake : CanTake state t := ⟨"", fun _ => rfl, by simp [hts]⟩
  obtain ⟨answers', ctx, eff, hreach', hstep, -⟩ := exists_step hplain hreach hfind hterm hcan htake
  exact ⟨scripted answers', _, hreach'.tail hstep, by simp⟩

/-- **Without signals, no run of an accepted workflow leaves a human-in-the-loop state if and only if none of them has
    a way out.**  The runs are those with any executor, publisher and evaluator, while they go on and with their last
    events. -/
theorem no_human_exit_iff {s : Server} {env : CallEnv} {req : CompileWorkflowRequest} {ir : WorkflowIR}
    (hacc : s.Accepts env req ir) :
    (∀ rt st, Reached rt ir st →
        NoHumanExit ir st.log ∧ ∀ r log, step rt ir st = .done r log → NoHumanExit ir log) ↔
      ∀ id state, findState ir id = some state → state.type = .humanInTheLoop → ¬ WayOut ir id state := by
  obtain ⟨raw, m, g, hcompiled⟩ := compileWorkflow_accepts hacc
  obtain ⟨root, -, -, -, hconv⟩ := hcompiled.decoded
  obtain ⟨wid, api, at', now, hir⟩ := hcompiled.converted
  have hplain := unconditional_of_converted hconv hcompiled.states_eq hir
  constructor
  · intro h id state hfind hhuman hout
    obtain ⟨rt, st, hreach, hmem⟩ := exists_exit hplain hfind (by rw [hhuman]; decide) hout
    exact (h rt st hreach).1 _ hmem rfl ⟨state, hfind, hhuman⟩
  · intro h rt st hreach
    have hlog : NoHumanExit ir st.log := by
      induction hreach with
      | refl =>
        intro e he
        exact absurd he (by simp [initRun])
      | tail hreach hstep ih =>
        refine noHumanExit_next ih ?_ hstep
        rintro ⟨state, hfind, hhuman⟩
        exact h _ state hfind hhuman (wayOut_of_next hplain hreach hfind hstep)
    exact ⟨hlog, fun r log hstep => noHumanExit_done hlog hstep⟩

def consultYaml : YamlManifest := workflowYaml "consult" "start"
  [("start", { on := [{ event := "unclear", goto := "ask" }, { event := "clear", goto := "done" }] }),
    ("ask", { type := "human_in_the_loop" }), ("done", { type := "terminal" })]

def consultText : List UInt8 := manifestText "consult" "start"
  ("    start: \x7bon: [\x7bevent: unclear, goto: ask\x7d, \x7bevent: clear, goto: done\x7d]\x7d\n" ++
    "    ask: \x7btype: human_in_the_loop\x7d\n    done: \x7btype: terminal\x7d\n")

def consultIR : WorkflowIR := plainIR "consult" "start"
  [⟨"ask", .humanInTheLoop, [], [], ∅⟩, ⟨"done", .terminal, [], [], ∅⟩,
    ⟨"start", .normal, [], [⟨"unclear", "ask", ∅⟩, ⟨"clear", "done", ∅⟩], ∅⟩]

theorem consult_accepted : ({ yaml := fixedYaml consultYaml } : Server).Accepts
    { workflowID := "wf-1", now := 0, elapsedMs := 1 } { manifestYaml := consultText } consultIR := by
  show _ = _
  decide +kernel

/-- A run that comes to a human-in-the-loop state without transitions ends there. -/
theorem no_human_exit_consult : IsHuman consultIR "ask" ∧ ∃ st r log, Reached quietRuntime consultIR st ∧
    st.currentState = "ask" ∧ step quietRuntime consultIR st = .done r log ∧ NoHumanExit consultIR log := by
  refine ⟨⟨⟨"ask", .humanInTheLoop, [], [], ∅⟩, by decide +kernel, rfl⟩, _, _, _,
    .tail .refl (rfl : step quietRuntime consultIR (initRun consultIR) = .next _), rfl, rfl, ?_⟩
  refine ((no_human_exit_iff consult_accepted).mpr ?_ quietRuntime _ (.tail .refl rfl)).2 _ _ rfl
  rintro id state hfind hhuman ⟨-, -, -, hne⟩
  have hnone : ∀ state ∈ consultIR.states, state.type = .humanInTheLoop → state.transitions = [] := by decide
  exact hne (hnone state (List.mem_of_find?_eq_some hfind) hhuman)

def approvalYaml : YamlManifest := workflowYaml "approval" "wait"
  [("wait", { type := "human_in_the_loop", on := [{ event := "approved", goto := "done" }] }),
    ("done", { type := "terminal", outputs := GoMap.ofPairs [("result", .str "ok")] })]

def approvalText : List UInt8 := manifestText "approval" "wait"
  ("    wait: \x7btype: human_in_the_loop, on: [\x7bevent: approved, goto: done\x7d]\x7d\n" ++
    "    done: \x7btype: terminal, outputs: \x7bresult: ok\x7d\x7d\n")

theorem human_state_left_without_signal :
    ({ yaml := fixedYaml approvalYaml } : Server).Accepts
        { workflowID := "wf-1", now := 0, elapsedMs := 1 } { manifestYaml := approvalText } approvalIR ∧
      IsHuman approvalIR "wait" ∧
      ∃ log, run quietRuntime approvalIR 2 (initRun approvalIR) =
          some (.ok (GoMap.ofPairs [("result", "ok")]), log) ∧
        eventFor approvalIR "wait" .stateExited ∈ log := by
  refine ⟨?_, ⟨⟨"wait", .humanInTheLoop, [], [⟨"approved", "done", ∅⟩], ∅⟩, ?_, rfl⟩, _, run_approval, ?_⟩
  · show _ = _
    decide +kernel
  · decide +kernel
  · decide +kernel

end Zynax.Engine
