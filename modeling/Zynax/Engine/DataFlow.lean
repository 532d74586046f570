import Zynax.Compiler.Upstream
import Zynax.Engine.Passages
import Zynax.Engine.Payload
import Zynax.Engine.References

namespace Zynax.Engine

open Golang Compiler

/-!
# The flow of data along a run

Where the values come from that a run has in its data context.  Which outputs are upstream of a
state is told by the paths of the graph; the runs of the interpreter take these paths.

* `stored_upstream` — what a run has stored is upstream of the state it is in.
* `references_resolve_iff` — which of the references of an accepted manifest some run resolves.
-/

variable {g : WorkflowGraph} {wid api : String} {at' : Option Int} {now : Int} {ir : WorkflowIR}
  {rt : Runtime} {st st' : RunState}

/-- The path a run has taken, with everything it has stored published on the way. -/
structure Flow (g : WorkflowGraph) (st : RunState) (path : List String) : Prop where
  isPath : Graph.IsPath g.liveSuccs g.initialState st.currentState path
  store : ∀ key ∈ st.data.store, ∃ s ∈ path.dropLast, ∃ k,
    g.publishesIn s k = true ∧ key = outputKey s k

theorem publishes_of_publishedBy {stateID key : String} {as : List Action} {bs : List ActionIR}
    (hconv : List.Forall₂ (fun a b => convertActionIR a = .ok b) as bs)
    (h : PublishedBy stateID bs key) : ∃ k, publishes as k = true ∧ key = outputKey stateID k := by
  obtain ⟨b, hb, hsync, k, hk, hkey⟩ := h
  obtain ⟨a, ha, hab⟩ := exists_of_forall₂ hconv.flip hb
  obtain ⟨-, hasync, houtputs, -, -⟩ := convertActionIR_eq_ok hab
  refine ⟨k, ?_, hkey⟩
  rw [publishes, List.any_eq_true]
  exact ⟨a, ha, by simp [← hasync, hsync, ← houtputs, hk]⟩

theorem Flow.next (hir : toIR g wid api at' now = .ok ir) {path : List String}
    (hflow : Flow g st path) (hstep : step rt ir st = .next st') :
    Flow g st' (path ++ [st'.currentState]) := by
  have hcase := step_cases rt ir st
  rw [hstep] at hcase
  cases hcase with
  | exited hfind hterm _ ht htarget _ hstore _ =>
    obtain ⟨s, hs, hconv⟩ := lookup_of_findState hir hfind
    have hlive : s.type ≠ .terminal := by
      intro h
      exact hterm (by rw [hconv.type_eq, h]; rfl)
    have hsucc : st'.currentState ∈ g.liveSuccs st.currentState := by
      rw [hconv.transitions_eq, convertTransitions] at ht
      obtain ⟨t, hmem, rfl⟩ := List.mem_map.mp ht
      rw [WorkflowGraph.liveSuccs, WorkflowGraph.isTerminal, hs, if_neg (by simpa using hlive),
        WorkflowGraph.mem_succs, htarget]
      exact ⟨s, hs, t, hmem, rfl⟩
    refine ⟨hflow.isPath.concat hsucc, fun key hkey => ?_⟩
    rw [List.dropLast_concat]
    rcases hstore key hkey with hold | hnew
    · obtain ⟨s', hs', hpub⟩ := hflow.store key hold
      exact ⟨s', List.mem_of_mem_dropLast hs', hpub⟩
    · obtain ⟨k, hpub, hk⟩ := publishes_of_publishedBy hconv.actions hnew
      exact ⟨_, List.mem_of_getLast? hflow.isPath.last, k,
        by simp [WorkflowGraph.publishesIn, hs, hlive, hpub], hk⟩

theorem flow_of_reached (hir : toIR g wid api at' now = .ok ir) (hreach : Reached rt ir st) :
    ∃ path, Flow g st path := by
  induction hreach with
  | refl =>
    refine ⟨[g.initialState], ⟨by simp, rfl, ?_⟩, fun key hkey => ?_⟩
    · rw [← (toIR_eq_ok hir).2.2.1]
      rfl
    · exact absurd hkey (by simp [initRun, newScopedWorkflowDataContext])
  | tail _ hstep ih =>
    obtain ⟨path, hpath⟩ := ih
    exact ⟨_, hpath.next hir hstep⟩

/-- **What a run has stored is upstream of the state it is in.**  For every compiled graph, every
    runtime and every state a run gets to: each key of its data context is that of an output which
    a state before it on a path of the graph declares. -/
theorem stored_upstream (hir : toIR g wid api at' now = .ok ir) (hreach : Reached rt ir st) :
    ∀ key ∈ st.data.store, ∃ s k, key = outputKey s k ∧ Upstream g s k st.currentState [] := by
  obtain ⟨path, hpath⟩ := flow_of_reached hir hreach
  intro key hkey
  obtain ⟨s, hs, k, hpub, hk⟩ := hpath.store key hkey
  exact ⟨s, k, hk, path, hpath.isPath, Or.inl ⟨hs, hpub⟩⟩

def StepResult.stores (key : String) : StepResult → Bool
  | .next st => key ∈ st.data.store
  | _ => false

def fetchRuntime : Runtime :=
  { verbatimRuntime with
    dispatchCapability := fun _ _ => .ok ⟨"fetch.completed", "\x7b\"doc\":\"Zynax\"\x7d"⟩ }

theorem stored_upstream_summary : ∃ (g : WorkflowGraph) (st : RunState),
    outputKey "fetch" "doc" ∈ st.data.store ∧
    ∀ key ∈ st.data.store, ∃ s k, key = outputKey s k ∧ Upstream g s k st.currentState [] := by
  obtain ⟨_, _, g, hcompiled⟩ := compileWorkflow_accepts accepts_summary
  obtain ⟨_, _, _, _, hir⟩ := hcompiled.converted
  have hstep : (step fetchRuntime summaryIR (initRun summaryIR)).stores
      (outputKey "fetch" "doc") = true := by decide +kernel
  cases hnext : step fetchRuntime summaryIR (initRun summaryIR) with
  | next st =>
    rw [hnext] at hstep
    exact ⟨g, st, of_decide_eq_true hstep, stored_upstream hir (.tail .refl hnext)⟩
  | _ => simp [hnext, StepResult.stores] at hstep

/-! ### What runs can resolve -/

variable {c s k : String} {point : Option Nat} {data : WorkflowDataContext} {keys : Set String}

/-- A run comes to where a state consumes references: to its outputs, or to one of its synchronous actions when those
    before it have been executed. -/
inductive ComesTo (rt : Runtime) (ir : WorkflowIR) (c : String) : Option Nat → WorkflowDataContext → Prop
  | outputs {st : RunState} {state : StateIR} (hreach : Reached rt ir st) (hid : st.currentState = c)
      (hfind : findState ir c = some state) (hterm : state.type = .terminal) : ComesTo rt ir c none st.data
  | action {st : RunState} {state : StateIR} {i : Nat} {a : ActionIR} {result : ActivityResult} {eff : Effects}
      (hreach : Reached rt ir st) (hid : st.currentState = c) (hfind : findState ir c = some state)
      (hterm : state.type ≠ .terminal) (ha : state.actions[i]? = some a) (hsync : a.async = false)
      (hpub : rt.publish st.log ⟨.stateEntered, ir.workflowId, c, none⟩ = none)
      (hexec : executeActions rt ir c st.ctx (runScope ir) (state.actions.take i) none
        ⟨st.data, st.log ++ [eventFor ir c .stateEntered]⟩ = (.ok result, eff)) :
      ComesTo rt ir c (some i) eff.data

/-- Some run has the value of the reference where it is consumed. -/
def Resolves (ir : WorkflowIR) (c : String) (point : Option Nat) (ref : String) : Prop :=
  ∃ rt data key val, ComesTo rt ir c point data ∧ resolveBindingValue data.store key ref = .ok val

/-- The keys of the outputs that can be there where a state consumes references. -/
inductive Available (ir : WorkflowIR) (c : String) : Option Nat → Set String → Prop
  | outputs {state : StateIR} {keys : Set String} (hpass : Passable ir c keys) (hfind : findState ir c = some state)
      (hterm : state.type = .terminal) : Available ir c none keys
  | action {state : StateIR} {i : Nat} {a : ActionIR} {keys : Set String} (hpass : Passable ir c keys)
      (hfind : findState ir c = some state) (hterm : state.type ≠ .terminal) (ha : state.actions[i]? = some a)
      (hsync : a.async = false) (hexec : CanExecute c keys (state.actions.take i)) :
      Available ir c (some i) (keys ∪ { key | PublishedBy c (state.actions.take i) key })

/-- The actions of a state before the point. -/
def before {α : Type} (actions : List α) (point : Option Nat) : List α := point.elim [] actions.take

theorem available_of_comesTo (hplain : Unconditional ir) (h : ComesTo rt ir c point data) :
    Available ir c point (keysOf data.store) := by
  cases h with
  | outputs hreach hid hfind hterm =>
    subst hid
    exact .outputs (passable_of_reached hplain hreach).1 hfind hterm
  | action hreach hid hfind hterm ha hsync _ hexec =>
    subst hid
    obtain ⟨hpass, hscope⟩ := passable_of_reached hplain hreach
    obtain ⟨hcan, -, hkeys, -⟩ := executes_of_ok hscope hexec
    exact hkeys ▸ .action hpass hfind hterm ha hsync hcan

theorem exists_comesTo (hplain : Unconditional ir) (h : Available ir c point keys) :
    ∃ rt data, ComesTo rt ir c point data ∧ keysOf data.store = keys := by
  cases h with
  | outputs hpass hfind hterm =>
    obtain ⟨answers, st, hreach, hid, hkeys⟩ := exists_run hplain hpass
    exact ⟨_, _, .outputs hreach hid hfind hterm, hkeys⟩
  | @action state i _ _ hpass hfind hterm ha hsync hcan =>
    obtain ⟨answers, st, hreach, rfl, rfl⟩ := exists_run hplain hpass
    have hscope := (passable_of_reached hplain hreach).2
    obtain ⟨answers', result, eff, hagree, hexec, -⟩ := @executeActions_realize st.currentState
      (state.actions.take i) none ⟨st.data, st.log ++ [eventFor ir st.currentState .stateEntered]⟩ (runScope ir) hcan
      hscope answers ir st.ctx "" (fun _ => rfl)
    have hreach' := reached_congr hreach fun n hn => hagree n (by simp; omega)
    exact ⟨_, _, .action hreach' rfl hfind hterm ha hsync rfl hexec, (executes_of_ok hscope hexec).keys⟩

/-- What is stored where a state consumes references is upstream of that point. -/
theorem upstream_of_comesTo (hir : toIR g wid api at' now = .ok ir) {cst : State}
    (hcst : g.states.lookup c = some cst) (h : ComesTo rt ir c point data) {key : String} (hkey : key ∈ data.store) :
    ∃ s k, key = outputKey s k ∧ Upstream g s k c (before cst.actions point) := by
  cases h with
  | outputs hreach hid _ _ =>
    subst hid
    obtain ⟨path, hpath⟩ := flow_of_reached hir hreach
    obtain ⟨s, hs, k, hpub, hk⟩ := hpath.store key hkey
    exact ⟨s, k, hk, path, hpath.isPath, Or.inl ⟨hs, hpub⟩⟩
  | @action st state i _ _ _ hreach hid hfind hterm _ _ _ hexec =>
    subst hid
    obtain ⟨path, hpath⟩ := flow_of_reached hir hreach
    obtain ⟨cst', hcst', hconv⟩ := lookup_of_findState hir hfind
    obtain rfl : cst = cst' := Option.some.inj (hcst.symm.trans hcst')
    have hstored := executeActions_executed rt ir st.currentState st.ctx (runScope ir) (state.actions.take i) none
      ⟨st.data, st.log ++ [eventFor ir st.currentState .stateEntered]⟩
    rw [hexec] at hstored
    -- the key was there when the state was entered, or an action of it has added it
    rcases hstored.store key hkey with hold | hnew
    · obtain ⟨s, hs, k, hpub, hk⟩ := hpath.store key hold
      exact ⟨s, k, hk, path, hpath.isPath, Or.inl ⟨hs, hpub⟩⟩
    · obtain ⟨k, hpub, hk⟩ := publishes_of_publishedBy (List.forall₂_take i hconv.actions) hnew
      have hlive : g.isTerminal st.currentState = false := by
        have : cst.type ≠ .terminal := fun h => hterm (by rw [hconv.type_eq, h]; rfl)
        simp [WorkflowGraph.isTerminal, hcst, this]
      exact ⟨_, k, hk, path, hpath.isPath, Or.inr ⟨rfl, hlive, hpub⟩⟩

theorem mem_of_resolve {store : GoMap String} {key ref val : String}
    (hparse : parseBindingRef ref = some (s, k))
    (h : resolveBindingValue store key ref = .ok val) :
    outputKey s k ∈ store ∧ ∀ s' k', outputKey s' k' = outputKey s k → s' = s ∧ k' = k := by
  obtain ⟨rfl, -, -⟩ := parseBindingRef_eq_some hparse
  obtain ⟨hlook, hinj⟩ :=
    (looksUp_iff hparse).mpr (dotFree_of_resolve (hasPrefix_dataRef_of_refText s k) h)
  refine ⟨?_, hinj⟩
  rw [hlook] at h
  rw [← AList.lookup_isSome]
  cases hval : store.lookup (outputKey s k) with
  | none => simp [hval] at h
  | some val => rfl

theorem upstream_and_resolves_iff (hplain : Unconditional ir)
    (hir : toIR g wid api at' now = .ok ir) {cst : State}
    (hcst : g.states.lookup c = some cst) {ref : String} (hparse : parseBindingRef ref = some (s, k))
    (point : Option Nat) :
    Upstream g s k c (before cst.actions point) ∧ Resolves ir c point ref ↔
      ∃ keys, Available ir c point keys ∧ Known keys ref := by
  constructor
  · rintro ⟨-, rt, data, key, val, hcomes, hval⟩
    exact ⟨_, available_of_comesTo hplain hcomes, resolves_iff.mp ⟨val, hval⟩⟩
  · rintro ⟨keys, havail, hknown⟩
    obtain ⟨rt, data, hcomes, rfl⟩ := exists_comesTo hplain havail
    obtain ⟨val, hval⟩ := (@resolves_iff data.store "" ref).mpr hknown
    obtain ⟨hmem, hinj⟩ := mem_of_resolve hparse hval
    obtain ⟨s', k', hkey, hup⟩ := upstream_of_comesTo hir hcst hcomes hmem
    obtain ⟨rfl, rfl⟩ := hinj s' k' hkey.symm
    exact ⟨hup, rt, data, _, val, hcomes, hval⟩

def invoiceOutputs : GoMap String := GoMap.ofPairs [("user.name", "user.name"), ("total", "total")]

def fetchStateIR : StateIR :=
  ⟨"fetch", .normal, [⟨"fetch", none, "", false, invoiceOutputs, ∅⟩], [⟨"fetch.completed", "invoice", ∅⟩], ∅⟩

def invoiceStateIR : StateIR where
  id := "invoice"
  type := .terminal
  actions := []
  transitions := []
  outputs := GoMap.ofPairs [("customer", "$.states.fetch.output.user.name"), ("discount", "$.50 off"),
    ("total", "$.states.fetch.output.total")]

def invoiceIR : WorkflowIR := plainIR "invoice" "fetch"
  [fetchStateIR, invoiceStateIR]

theorem toIR_invoice :
    toIR ⟨"invoice", "default", "fetch", invoiceManifest.states⟩ "wf-1" "zynax.io/v1" none 0 =
    .ok invoiceIR := by
  rfl

theorem answerable_invoice : Answerable invoiceOutputs := by
  have hcheck : (Json.decodeObject "\x7b\"user\":\x7b\"name\":\"k17\"\x7d,\"total\":12\x7d").any (fun doc =>
      invoiceOutputs.entries.all (fun b => (extractScalar doc b.2).isOk)) = true := by decide +kernel
  obtain ⟨doc, hdoc, hall⟩ := (Option.any_eq_true _ _).mp hcheck
  refine ⟨_, doc, (if_neg (by decide)).trans hdoc, fun b hb => ?_⟩
  have hb := List.all_eq_true.mp hall b hb
  cases hval : extractScalar doc b.2 with
  | ok val => exact ⟨val, rfl⟩
  | error reason => simp [hval, Except.isOk, Except.toBool] at hb

theorem available_invoice :
    ∃ keys, Available invoiceIR "invoice" none keys ∧ outputKey "fetch" "total" ∈ keys := by
  have hfetch : CanExecute "fetch" ∅ fetchStateIR.actions := by
    simp only [fetchStateIR, CanExecute, Bool.false_eq_true, if_false, and_true]
    exact ⟨fun key ref href => absurd href (by simp), answerable_invoice⟩
  have htake : CanTake fetchStateIR ⟨"fetch.completed", "invoice", ∅⟩ := ⟨"", fun _ => rfl, rfl⟩
  have hfind : findState invoiceIR "fetch" = some fetchStateIR := rfl
  have hpass : Passable invoiceIR "invoice" _ := .next .start hfind (by decide) hfetch htake
  have hfind' : findState invoiceIR "invoice" = some invoiceStateIR := rfl
  refine ⟨_, .outputs hpass hfind' rfl, Or.inr ?_⟩
  exact ⟨_, List.mem_singleton_self _, rfl, "total", by decide +kernel, rfl⟩

end Zynax.Engine
