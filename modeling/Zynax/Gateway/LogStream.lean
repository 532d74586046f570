import Zynax.Transition.Runs

namespace Zynax.Gateway

open Transition

/-!
# The merged log stream

`WatchWorkflowLogs` runs two upstreams at once, the history of the engine and the subscription to the
events of a run.  Both hand their events to one callback, which calls `send` under a mutex.  When the
engine's call returns, the subscription is cancelled and waited for.

* `LogStream.step` — what the upstreams, the callback and the call itself do, in any order.
-/

variable {ε η : Type}

inductive Side where
  | engine
  | bus
  deriving DecidableEq

def Side.other : Side → Side
  | .engine => .bus
  | .bus => .engine

inductive Upstream (ε η : Type) where
  | running
  | waiting (ev : ε)
  | sending (ev : ε)
  | returned (err : Option η)

structure LogStream (ε η : Type) where
  upstream : Side → Upstream ε η
  locked : Bool := false
  cancelled : Bool := false
  result : Option (Option (String × η)) := none
  handed : Side → List ε := fun _ => []
  sent : List (Side × ε) := []

inductive LogMove (ε η : Type) where
  /-- an upstream calls its callback -/
  | hand (side : Side) (ev : ε)
  /-- the callback gets the mutex and calls `send` -/
  | lock (side : Side)
  /-- `send` returns, with an error or not, and the callback with it -/
  | unlock (side : Side)
  /-- the call of an upstream returns -/
  | finish (side : Side) (err : Option η)
  /-- `cancelSub`, once the engine's call has returned -/
  | cancel
  /-- `wg.Wait` and the return -/
  | join

namespace LogStream

def start (hasBus : Bool) : LogStream ε η where
  upstream
    | .engine => .running
    | .bus => if hasBus then .running else .returned none

def setUpstream (s : LogStream ε η) (side : Side) (u : Upstream ε η) : LogStream ε η :=
  { s with upstream := Function.update s.upstream side u }

def step (s : LogStream ε η) : LogMove ε η → LogStream ε η
  | .hand side ev =>
    match s.upstream side with
    | .running =>
      { s.setUpstream side (.waiting ev) with
        handed := Function.update s.handed side (s.handed side ++ [ev]) }
    | _ => s
  | .lock side =>
    match s.upstream side with
    | .waiting ev =>
      if s.locked then s
      else { s.setUpstream side (.sending ev) with locked := true, sent := s.sent ++ [(side, ev)] }
    | _ => s
  | .unlock side =>
    match s.upstream side with
    | .sending _ => { s.setUpstream side .running with locked := false }
    | _ => s
  | .finish side err =>
    match s.upstream side with
    | .running => s.setUpstream side (.returned err)
    | _ => s
  | .cancel =>
    match s.upstream .engine with
    | .returned _ => { s with cancelled := true }
    | _ => s
  | .join =>
    match s.upstream .engine, s.upstream .bus with
    | .returned err, .returned _ =>
      if s.cancelled then { s with result := some (err.map fun e => ("api-gateway: ", e)) } else s
    | _, _ => s

/-- The log stream under any order of its goroutines. -/
def watchWorkflowLogs (hasBus : Bool) (moves : List (LogMove ε η)) : LogStream ε η :=
  run step (start hasBus) moves

def sentBy (s : LogStream ε η) (side : Side) : List ε :=
  (s.sent.filter fun p => p.1 = side).map Prod.snd

end LogStream

def Upstream.pending : Upstream ε η → List ε
  | .waiting ev => [ev]
  | _ => []

def Upstream.isSending : Upstream ε η → Bool
  | .sending _ => true
  | _ => false

/-! ### The invariant -/

variable {s : LogStream ε η} {side : Side} {ev : ε}

structure Merged (s : LogStream ε η) : Prop where
  locked_iff : s.locked = true ↔ ∃ side, (s.upstream side).isSending = true
  exclusive : ∀ side, (s.upstream side).isSending = true → (s.upstream side.other).isSending = false
  order : ∀ side, s.handed side = s.sentBy side ++ (s.upstream side).pending
  ended : ∀ r, s.result = some r → s.cancelled = true ∧
    (∃ err, s.upstream .engine = .returned err ∧ r = err.map fun e => ("api-gateway: ", e)) ∧
    ∃ err, s.upstream .bus = .returned err

theorem Side.eq_other_of_ne {a b : Side} (h : a ≠ b) : a = b.other := by
  cases a <;> cases b <;> first | rfl | exact absurd rfl h

theorem Merged.result_eq_none (h : Merged s) (side : Side)
    (hside : ∀ err, s.upstream side ≠ .returned err) :
    s.result = none := by
  rw [Option.eq_none_iff_forall_ne_some]
  intro r hr
  obtain ⟨-, ⟨err, hengine, -⟩, ⟨err', hbus⟩⟩ := h.ended r hr
  cases side with
  | engine => exact hside err hengine
  | bus => exact hside err' hbus

theorem Merged.setUpstream (h : Merged s) {u : Upstream ε η}
    (hside : ∀ err, s.upstream side ≠ .returned err) (hold : (s.upstream side).isSending = false)
    (hnew : u.isSending = false) {handed : Side → List ε}
    (hhanded : ∀ side', handed side' = s.sentBy side' ++ (Function.update s.upstream side u side').pending) :
    Merged { s.setUpstream side u with handed := handed } := by
  have hsending : ∀ side', (Function.update s.upstream side u side').isSending =
      (s.upstream side').isSending := by
    grind
  refine ⟨?_, ?_, hhanded, ?_⟩
  · show s.locked = true ↔ ∃ side', (Function.update s.upstream side u side').isSending = true
    simp only [hsending]
    exact h.locked_iff
  · show ∀ side', (Function.update s.upstream side u side').isSending = true →
      (Function.update s.upstream side u side'.other).isSending = false
    simp only [hsending]
    exact h.exclusive
  · show ∀ r, s.result = some r → _
    rw [h.result_eq_none side hside]
    simp

theorem merged_hand (h : Merged s) (hu : s.upstream side = .running) :
    Merged (s.step (.hand side ev)) := by
  simp only [LogStream.step, hu]
  refine h.setUpstream (by simp [hu]) (by rw [hu]; rfl) rfl fun side' => ?_
  by_cases heq : side' = side
  · have hempty : s.handed side = s.sentBy side := by
      rw [h.order, hu]
      exact List.append_nil _
    rw [heq, Function.update_self, Function.update_self, hempty]
    rfl
  · rw [Function.update_of_ne heq, Function.update_of_ne heq]
    exact h.order side'

theorem merged_finish (h : Merged s) (hu : s.upstream side = .running) (err : Option η) :
    Merged (s.step (.finish side err)) := by
  simp only [LogStream.step, hu]
  refine h.setUpstream (by simp [hu]) (by rw [hu]; rfl) rfl fun side' => ?_
  by_cases heq : side' = side
  · rw [heq, Function.update_self, h.order, hu]
    rfl
  · rw [Function.update_of_ne heq]
    exact h.order side'

theorem merged_lock (h : Merged s) (hu : s.upstream side = .waiting ev) (hfree : s.locked = false) :
    Merged (s.step (.lock side)) := by
  have hnone : ∀ side', (s.upstream side').isSending = false := by
    intro side'
    rw [Bool.eq_false_iff]
    intro hsending
    rw [h.locked_iff.mpr ⟨side', hsending⟩] at hfree
    cases hfree
  simp only [LogStream.step, hu, hfree, Bool.false_eq_true, if_false]
  refine ⟨?_, ?_, ?_, ?_⟩
  · refine iff_of_true rfl ⟨side, ?_⟩
    show (Function.update s.upstream side (.sending ev) side).isSending = true
    rw [Function.update_self]
    rfl
  · intro side' hsending
    show (Function.update s.upstream side (.sending ev) side'.other).isSending = false
    by_cases heq : side' = side
    · rw [heq, Function.update_of_ne (by cases side <;> decide)]
      exact hnone _
    · have hsending : (Function.update s.upstream side (.sending ev) side').isSending = true := hsending
      grind
  · intro side'
    show s.handed side' = ((s.sent ++ [(side, ev)]).filter fun p => p.1 = side').map Prod.snd ++
      (Function.update s.upstream side (.sending ev) side').pending
    rw [h.order, LogStream.sentBy, List.filter_append, List.map_append]
    by_cases heq : side' = side
    · rw [heq, Function.update_self, hu]
      simp [Upstream.pending]
    · grind
  · show ∀ r, s.result = some r → _
    rw [h.result_eq_none side (by simp [hu])]
    simp

theorem merged_unlock (h : Merged s) (hu : s.upstream side = .sending ev) :
    Merged (s.step (.unlock side)) := by
  have hnone : ∀ side', (Function.update s.upstream side .running side').isSending = false := by
    intro side'
    by_cases heq : side' = side
    · rw [heq, Function.update_self]
      rfl
    · rw [Function.update_of_ne heq, Side.eq_other_of_ne heq]
      exact h.exclusive side (by rw [hu]; rfl)
  simp only [LogStream.step, hu]
  refine ⟨?_, ?_, ?_, ?_⟩
  · refine iff_of_false (by simp) ?_
    rintro ⟨side', hsending⟩
    exact Bool.false_ne_true ((hnone side').symm.trans hsending)
  · exact fun side' _ => hnone side'.other
  · intro side'
    show s.handed side' = s.sentBy side' ++ (Function.update s.upstream side .running side').pending
    rw [h.order]
    by_cases heq : side' = side
    · rw [heq, Function.update_self, hu]
      rfl
    · grind
  · show ∀ r, s.result = some r → _
    rw [h.result_eq_none side (by simp [hu])]
    simp

theorem merged_step (h : Merged s) (m : LogMove ε η) : Merged (s.step m) := by
  cases m with
  | hand side ev =>
    cases hu : s.upstream side with
    | running => exact merged_hand h hu
    | _ => simpa only [LogStream.step, hu] using h
  | finish side err =>
    cases hu : s.upstream side with
    | running => exact merged_finish h hu err
    | _ => simpa only [LogStream.step, hu] using h
  | lock side =>
    cases hu : s.upstream side with
    | waiting ev =>
      cases hl : s.locked with
      | false => exact merged_lock h hu hl
      | true => simpa only [LogStream.step, hu, hl, if_true] using h
    | _ => simpa only [LogStream.step, hu] using h
  | unlock side =>
    cases hu : s.upstream side with
    | sending ev => exact merged_unlock h hu
    | _ => simpa only [LogStream.step, hu] using h
  | cancel =>
    cases hu : s.upstream .engine with
    | returned err =>
      simp only [LogStream.step, hu]
      exact ⟨h.locked_iff, h.exclusive, h.order, fun r hr => ⟨rfl, (h.ended r hr).2⟩⟩
    | _ => simpa only [LogStream.step, hu] using h
  | join =>
    cases he : s.upstream .engine with
    | returned err =>
      cases hb : s.upstream .bus with
      | returned err' =>
        cases hc : s.cancelled with
        | true =>
          simp only [LogStream.step, he, hb, hc, if_true]
          refine ⟨h.locked_iff, h.exclusive, h.order, ?_⟩
          grind
        | false => simpa [LogStream.step, he, hb, hc] using h
      | _ => simpa only [LogStream.step, he, hb] using h
    | _ => simpa only [LogStream.step, he] using h

theorem merged_start (hasBus : Bool) : Merged (LogStream.start hasBus : LogStream ε η) := by
  have hnone : ∀ side, ((LogStream.start hasBus : LogStream ε η).upstream side).isSending = false ∧
      ((LogStream.start hasBus : LogStream ε η).upstream side).pending = [] := by
    intro side
    cases side <;> cases hasBus <;> exact ⟨rfl, rfl⟩
  refine ⟨iff_of_false Bool.false_ne_true ?_, fun side _ => (hnone side.other).1, ?_, fun r hr => (nomatch hr)⟩
  · grind
  · intro side
    rw [(hnone side).2]
    rfl

theorem merged_run (hasBus : Bool) (moves : List (LogMove ε η)) :
    Merged (LogStream.watchWorkflowLogs hasBus moves) :=
  run_invariant (C := fun _ _ => True) (fun _ m h _ => merged_step h m) (merged_start hasBus)
    (along_of_forall (fun _ _ _ => trivial) _)

/-! ### After the return, and before it -/

theorem Merged.step_of_result (h : Merged s) {r : Option (String × η)} (hr : s.result = some r)
    (m : LogMove ε η) : s.step m = s := by
  obtain ⟨hc, ⟨err, he, rfl⟩, err', hb⟩ := h.ended r hr
  have hreturned : ∀ side, ∃ err, s.upstream side = .returned err := by
    intro side
    cases side with
    | engine => exact ⟨err, he⟩
    | bus => exact ⟨err', hb⟩
  cases m with
  | hand side ev =>
    obtain ⟨e, hu⟩ := hreturned side
    simp only [LogStream.step, hu]
  | lock side =>
    obtain ⟨e, hu⟩ := hreturned side
    simp only [LogStream.step, hu]
  | unlock side =>
    obtain ⟨e, hu⟩ := hreturned side
    simp only [LogStream.step, hu]
  | finish side e' =>
    obtain ⟨e, hu⟩ := hreturned side
    simp only [LogStream.step, hu]
  | cancel => simp only [LogStream.step, he, ← hc]
  | join =>
    rw [LogStream.step, he, hb]
    dsimp only
    rw [if_pos hc, ← hr]

theorem Merged.run_of_result (h : Merged s) {r : Option (String × η)} (hr : s.result = some r)
    (moves : List (LogMove ε η)) : run LogStream.step s moves = s := by
  induction moves with
  | nil => rfl
  | cons m moves ih => rw [run_cons, h.step_of_result hr, ih]

theorem Merged.sent_of_waiting (h : Merged s) (hu : s.upstream side = .waiting ev) :
    (run LogStream.step s [.unlock side.other, .lock side]).sent = s.sent ++ [(side, ev)] := by
  have hne : side ≠ side.other := by cases side <;> decide
  cases ho : s.upstream side.other with
  | sending ev' =>
    have hwaiting : Function.update s.upstream side.other .running side = .waiting ev := by
      grind
    simp [LogStream.step, LogStream.setUpstream, ho, hwaiting]
  | _ =>
    -- nobody is in `send`, so the mutex is free
    have hfree : s.locked = false := by
      rw [Bool.eq_false_iff, Ne, h.locked_iff]
      rintro ⟨side', hsending⟩
      by_cases heq : side' = side
      · rw [heq, hu] at hsending
        cases hsending
      · rw [Side.eq_other_of_ne heq, ho] at hsending
        cases hsending
    simp [LogStream.step, ho, hu, hfree]

open LogStream

/-- **The log stream is merged.**  In every interleaving: no two calls of `send` are in progress at
    once; what an upstream has handed over was sent once and in its order, but for an event that waits
    for the mutex, and gets it when the other upstream leaves `send`; after the return all was sent
    and nothing more is; and the call returns what the engine's call has returned, as soon as that and
    the subscription have returned. -/
theorem logs_merged (hasBus : Bool) (moves : List (LogMove ε η)) :
    (∀ ev ev', ¬ ((watchWorkflowLogs hasBus moves).upstream .engine = .sending ev ∧
        (watchWorkflowLogs hasBus moves).upstream .bus = .sending ev')) ∧
      (∀ side, (watchWorkflowLogs hasBus moves).handed side =
        (watchWorkflowLogs hasBus moves).sentBy side ++ ((watchWorkflowLogs hasBus moves).upstream side).pending) ∧
      (∀ side ev, (watchWorkflowLogs hasBus moves).upstream side = .waiting ev →
        (watchWorkflowLogs hasBus (moves ++ [.unlock side.other, .lock side])).sent =
          (watchWorkflowLogs hasBus moves).sent ++ [(side, ev)]) ∧
      (∀ r, (watchWorkflowLogs hasBus moves).result = some r →
        (∀ more, watchWorkflowLogs hasBus (moves ++ more) = watchWorkflowLogs hasBus moves) ∧
        (∀ side, (watchWorkflowLogs hasBus moves).handed side = (watchWorkflowLogs hasBus moves).sentBy side) ∧
        ∃ err, (watchWorkflowLogs hasBus moves).upstream .engine = .returned err ∧ (r = none ↔ err = none)) ∧
      ∀ err err', (watchWorkflowLogs hasBus moves).upstream .engine = .returned err →
        (watchWorkflowLogs hasBus moves).upstream .bus = .returned err' →
        (watchWorkflowLogs hasBus (moves ++ [.cancel, .join])).result =
          some (err.map fun e => ("api-gateway: ", e)) := by
  have h := merged_run hasBus moves
  have hmore : ∀ more, watchWorkflowLogs hasBus (moves ++ more) =
      run LogStream.step (watchWorkflowLogs hasBus moves) more := run_append _ moves
  simp only [hmore]
  generalize watchWorkflowLogs hasBus moves = s at h ⊢
  refine ⟨?_, h.order, fun side ev => h.sent_of_waiting, ?_, ?_⟩
  · rintro ev ev' ⟨he, hb⟩
    have hbus := h.exclusive .engine (by rw [he]; rfl)
    rw [Side.other, hb] at hbus
    cases hbus
  · intro r hr
    obtain ⟨-, ⟨err, he, rfl⟩, err', hb⟩ := h.ended r hr
    refine ⟨h.run_of_result hr, ?_, err, he, Option.map_eq_none_iff⟩
    intro side
    rw [h.order]
    cases side with
    | engine => simp only [he, Upstream.pending, List.append_nil]
    | bus => simp only [hb, Upstream.pending, List.append_nil]
  · intro err err' he hb
    simp [LogStream.step, he, hb]

end Zynax.Gateway
