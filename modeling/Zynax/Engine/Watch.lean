import Mathlib.Data.List.Induction
import Zynax.Transition.Runs

namespace Zynax.Engine

/-!
# Watching a run

`Watch` of the two engines: Argo is asked for the phase of the workflow again and again, Temporal
hands out the history of the execution event by event.  Each sends what it sees to the caller and
returns once the run is over.

* `argoStep`, `temporalStep` — one turn of the loop of each engine;
* `isTerminal_historyEventStatus` — the status of a history event is terminal exactly when the loop
  stops at it.
-/

/-! ### Statuses and events -/

inductive WorkflowStatus where
  | unspecified | pending | running | completed | failed | cancelled
  deriving DecidableEq

def WorkflowStatus.isTerminal : WorkflowStatus → Bool
  | .completed => true
  | .failed => true
  | .cancelled => true
  | _ => false

structure WorkflowEvent where
  runID : String
  eventID : Int := 0
  eventType : String
  fromState : String := ""
  toState : String := ""
  status : WorkflowStatus
  timestamp : Int
  deriving DecidableEq

inductive WatchError where
  | emptyRunID
  | executionNotFound
  | context (err : String)
  | backend (err : String)
  | send (err : String)
  deriving DecidableEq

structure WatchState where
  sent : List WorkflowEvent := []
  refused : Option WorkflowEvent := none
  returned : Option (Except WatchError Unit) := none

def WatchState.handed (st : WatchState) : List WorkflowEvent := st.sent ++ st.refused.toList

theorem WatchState.handed_of_refused {st : WatchState} (h : st.refused = none) :
    st.handed = st.sent := by
  rw [WatchState.handed, h, Option.toList_none, List.append_nil]

/-! ### Argo -/

def mapArgoPhase (phase : String) : WorkflowStatus :=
  if phase = "Pending" ∨ phase = "" then .pending
  else if phase = "Running" then .running
  else if phase = "Succeeded" then .completed
  else if phase = "Failed" ∨ phase = "Error" then .failed
  else if phase = "Skipped" then .cancelled
  else .pending

inductive BackendError where
  | notFound
  | other (err : String)
  deriving DecidableEq

structure ArgoPoll where
  phase : Except BackendError String
  now : Int := 0
  sendErr : Option String := none
  ctxErr : Option String := none

structure ArgoWatch extends WatchState where
  lastPhase : String := ""

def argoTurn (runID : String) (st : ArgoWatch) (poll : ArgoPoll) : ArgoWatch :=
  match poll.phase with
  | .error .notFound => { st with returned := some (.error .executionNotFound) }
  | .error (.other err) => { st with returned := some (.error (.backend err)) }
  | .ok currentPhase =>
    let status := mapArgoPhase currentPhase
    let event : WorkflowEvent :=
      { runID := runID
        eventType := "status.changed"
        fromState := st.lastPhase
        toState := currentPhase
        status := status
        timestamp := poll.now }
    let goOn (st : ArgoWatch) : ArgoWatch :=
      if status.isTerminal then { st with returned := some (.ok ()) }
      else
        match poll.ctxErr with
        | some err => { st with returned := some (.error (.context err)) }
        | none => st
    if currentPhase ≠ st.lastPhase then
      match poll.sendErr with
      | some err => { st with refused := some event, returned := some (.error (.send err)) }
      | none => goOn { st with sent := st.sent ++ [event], lastPhase := currentPhase }
    else goOn st

def argoStep (runID : String) (st : ArgoWatch) (poll : ArgoPoll) : ArgoWatch :=
  if st.returned.isSome then st else argoTurn runID st poll

/-- `Watch` of the Argo engine, poll by poll. -/
def argoWatch (runID : String) (polls : List ArgoPoll) : ArgoWatch :=
  if runID = "" then { returned := some (.error .emptyRunID) }
  else Transition.run (argoStep runID) {} polls

/-! ### Temporal -/

def historyEventStatus (t : Int32) : WorkflowStatus :=
  if t = 1 then .running
  else if t = 2 then .completed
  else if t = 3 ∨ t = 4 then .failed
  else if t = 21 ∨ t = 27 then .cancelled
  else if t = 28 then .completed
  else .running

def isTerminalHistoryEvent (t : Int32) : Bool :=
  t = 2 || t = 3 || t = 4 || t = 21 || t = 27 || t = 28

structure HistoryEvent where
  eventId : Int
  eventType : Int32
  eventTime : Option Int := none
  deriving DecidableEq

structure HistoryPoll where
  next : Option (Except BackendError HistoryEvent)
  sendErr : Option String := none
  ctxErr : Option String := none

def historyEventToWorkflowEvent (typeName : Int32 → String) (zeroTime : Int) (hev : HistoryEvent)
    (runID : String) : WorkflowEvent where
  runID := runID
  eventID := hev.eventId
  eventType := typeName hev.eventType
  status := historyEventStatus hev.eventType
  timestamp := hev.eventTime.getD zeroTime

def temporalTurn (typeName : Int32 → String) (zeroTime : Int) (runID : String) (st : WatchState)
    (poll : HistoryPoll) : WatchState :=
  match poll.next with
  | none => { st with returned := some (.ok ()) }
  | some (.error .notFound) => { st with returned := some (.error .executionNotFound) }
  | some (.error (.other err)) =>
    match poll.ctxErr with
    | some ctxErr => { st with returned := some (.error (.context ctxErr)) }
    | none => { st with returned := some (.error (.backend err)) }
  | some (.ok hev) =>
    let ev := historyEventToWorkflowEvent typeName zeroTime hev runID
    match poll.sendErr with
    | some err => { st with refused := some ev, returned := some (.error (.send err)) }
    | none =>
      { st with
        sent := st.sent ++ [ev]
        returned := if isTerminalHistoryEvent hev.eventType then some (.ok ()) else none }

def temporalStep (typeName : Int32 → String) (zeroTime : Int) (runID : String) (st : WatchState)
    (poll : HistoryPoll) : WatchState :=
  if st.returned.isSome then st else temporalTurn typeName zeroTime runID st poll

/-- `Watch` of the Temporal engine, along the history. -/
def temporalWatch (typeName : Int32 → String) (zeroTime : Int) (runID : String)
    (polls : List HistoryPoll) : WatchState :=
  Transition.run (temporalStep typeName zeroTime runID) {} polls

def closingEvents : List Int32 := [2, 3, 4, 21, 27, 28]

def EndsAfterClosing (polls : List HistoryPoll) : Prop :=
  ∀ l poll r, polls = l ++ poll :: r → poll.next = none →
    ∃ l' last hev, l = l' ++ [last] ∧ last.next = some (.ok hev) ∧ hev.eventType ∈ closingEvents

/-! ### The contract -/

structure Contract (st : WatchState) : Prop where
  onNil : st.returned = some (.ok ()) → ∃ init last, st.sent = init ++ [last] ∧
    last.status.isTerminal = true ∧ ∀ e ∈ init, e.status.isTerminal = false
  onError : ∀ err, st.returned = some (.error err) → ∀ e ∈ st.sent, e.status.isTerminal = false
  watching : st.returned = none → ∀ e ∈ st.sent, e.status.isTerminal = false

theorem contract_init : Contract {} :=
  ⟨fun h => absurd h (by simp), fun err h => absurd h (by simp), by simp⟩

theorem Contract.error {st st' : WatchState} (h : Contract st) (hw : st.returned = none)
    (hsent : st'.sent = st.sent) {err : WatchError} (hret : st'.returned = some (.error err)) :
    Contract st' := by
  have hnone := h.watching hw
  rw [← hsent] at hnone
  exact ⟨fun hok => absurd (hret.symm.trans hok) (by simp), fun _ _ => hnone, fun _ => hnone⟩

theorem Contract.send {st st' : WatchState} (h : Contract st) (hw : st.returned = none)
    {e : WorkflowEvent} (hsent : st'.sent = st.sent ++ [e])
    (hret : st'.returned = if e.status.isTerminal then some (.ok ()) else none) : Contract st' := by
  have hnone := h.watching hw
  by_cases he : e.status.isTerminal = true
  · rw [if_pos he] at hret
    exact ⟨fun _ => ⟨st.sent, e, hsent, he, hnone⟩, fun err herr => absurd (hret.symm.trans herr) (by simp),
      fun hn => absurd (hret.symm.trans hn) (by simp)⟩
  · rw [if_neg he] at hret
    rw [Bool.not_eq_true] at he
    refine ⟨fun hok => absurd (hret.symm.trans hok) (by simp), fun err herr =>
      absurd (hret.symm.trans herr) (by simp), fun _ e' he' => ?_⟩
    grind

/-! ### Phases -/

variable {st : ArgoWatch}

def Linked : String → List WorkflowEvent → Prop
  | _, [] => True
  | phase, e :: events => e.fromState = phase ∧ e.toState ≠ phase ∧ Linked e.toState events

def phaseAfter (phase : String) (events : List WorkflowEvent) : String :=
  events.foldl (fun _ e => e.toState) phase

theorem linked_append {phase : String} {events : List WorkflowEvent} {e : WorkflowEvent} :
    Linked phase (events ++ [e]) ↔ Linked phase events ∧ e.fromState = phaseAfter phase events ∧
      e.toState ≠ phaseAfter phase events := by
  induction events generalizing phase with
  | nil => simp [Linked, phaseAfter]
  | cons e' events ih => simp [Linked, ih, phaseAfter, and_assoc]

structure ArgoWatched (st : ArgoWatch) : Prop where
  contract : Contract st.toWatchState
  linked : Linked "" st.handed
  sent : st.returned = none → st.refused = none ∧ phaseAfter "" st.sent = st.lastPhase
  pending : st.returned = none → (mapArgoPhase st.lastPhase).isTerminal = false

theorem argoWatched_init : ArgoWatched {} :=
  ⟨contract_init, trivial, fun _ => ⟨rfl, rfl⟩, fun _ => rfl⟩

theorem ArgoWatched.of_returned (hcontract : Contract st.toWatchState)
    (hlinked : Linked "" st.handed) (hret : st.returned ≠ none) : ArgoWatched st :=
  ⟨hcontract, hlinked, fun hn => absurd hn hret, fun hn => absurd hn hret⟩

theorem ArgoWatched.error (h : ArgoWatched st) (hw : st.returned = none)
    (err : WatchError) : ArgoWatched { st with returned := some (.error err) } :=
  .of_returned (h.contract.error hw rfl rfl) h.linked (by simp)

theorem ArgoWatched.wait (h : ArgoWatched st) (hw : st.returned = none)
    (ctxErr : Option String) :
    ArgoWatched (match ctxErr with
      | some err => { st with returned := some (.error (.context err)) }
      | none => st) := by
  cases ctxErr with
  | none => exact h
  | some err => exact h.error hw (.context err)

theorem ArgoWatched.linked_event (h : ArgoWatched st) (hw : st.returned = none)
    {event : WorkflowEvent} (hfrom : event.fromState = st.lastPhase)
    (hnew : event.toState ≠ st.lastPhase) : Linked "" (st.sent ++ [event]) := by
  obtain ⟨hrefused, hphase⟩ := h.sent hw
  have hlinked := h.linked
  rw [WatchState.handed_of_refused hrefused] at hlinked
  rw [linked_append, hphase]
  grind

theorem ArgoWatched.send (h : ArgoWatched st) (hw : st.returned = none)
    {event : WorkflowEvent} (hfrom : event.fromState = st.lastPhase)
    (hnew : event.toState ≠ st.lastPhase) (hstatus : event.status = mapArgoPhase event.toState)
    (hterm : event.status.isTerminal = false) :
    ArgoWatched { st with sent := st.sent ++ [event], lastPhase := event.toState } where
  contract := h.contract.send hw rfl (by rw [hterm]; exact hw)
  linked := by
    rw [WatchState.handed_of_refused]
    · exact h.linked_event hw hfrom hnew
    · exact (h.sent hw).1
  sent := fun _ => ⟨(h.sent hw).1, by simp [phaseAfter]⟩
  pending := fun _ => hstatus ▸ hterm

theorem ArgoWatched.turn {runID : String} (h : ArgoWatched st)
    (hw : st.returned = none) (poll : ArgoPoll) : ArgoWatched (argoTurn runID st poll) := by
  unfold argoTurn
  split
  · exact h.error hw .executionNotFound
  · exact h.error hw (.backend _)
  rename_i currentPhase _
  dsimp only
  split
  · rename_i hnew
    have hrefused := (h.sent hw).1
    split
    · exact .of_returned (h.contract.error hw rfl rfl) (h.linked_event hw rfl hnew) (by simp)
    · by_cases hterm : (mapArgoPhase currentPhase).isTerminal = true
      · rw [if_pos hterm]
        refine .of_returned (h.contract.send hw rfl (by rw [if_pos hterm])) ?_ (by simp)
        rw [WatchState.handed_of_refused]
        · exact h.linked_event hw rfl hnew
        · omega
      · rw [if_neg hterm]
        exact (h.send hw rfl hnew rfl (by simpa using hterm)).wait hw poll.ctxErr
  · -- the phase seen last, which is not terminal
    rename_i hsame
    rw [not_ne_iff.mp hsame, if_neg (by simp [h.pending hw])]
    exact h.wait hw poll.ctxErr

theorem argoWatched_run (runID : String) (polls : List ArgoPoll) :
    ArgoWatched (argoWatch runID polls) := by
  unfold argoWatch
  split
  · exact argoWatched_init.error rfl .emptyRunID
  · refine Transition.run_invariant (C := fun _ _ => True) (fun st poll h _ => ?_) argoWatched_init
      (Transition.along_of_forall (fun _ _ _ => trivial) _)
    unfold argoStep
    split
    · exact h
    · rename_i hw
      exact h.turn (by simpa using hw) poll

/-! ### History events -/

variable {typeName : Int32 → String} {zeroTime : Int} {runID : String}

theorem isTerminal_historyEventStatus (t : Int32) :
    (historyEventStatus t).isTerminal = isTerminalHistoryEvent t := by
  unfold historyEventStatus isTerminalHistoryEvent
  split_ifs <;> simp_all [WorkflowStatus.isTerminal]

theorem isTerminalHistoryEvent_of_mem {t : Int32} (h : t ∈ closingEvents) :
    isTerminalHistoryEvent t = true := by
  simp only [closingEvents, List.mem_cons, List.not_mem_nil, or_false] at h
  simp only [isTerminalHistoryEvent, Bool.or_eq_true, decide_eq_true_eq]
  tauto

theorem Contract.turn {st : WatchState} (h : Contract st) (hw : st.returned = none)
    {poll : HistoryPoll} (hnext : poll.next ≠ none) :
    Contract (temporalTurn typeName zeroTime runID st poll) := by
  unfold temporalTurn
  split
  · grind
  · exact h.error hw rfl rfl
  · split
    · exact h.error hw rfl rfl
    · exact h.error hw rfl rfl
  · rename_i hev _
    dsimp only
    split
    · exact h.error hw rfl rfl
    · refine h.send hw rfl ?_
      rw [← isTerminal_historyEventStatus]
      rfl

theorem returned_of_closing {st : WatchState} {poll : HistoryPoll} {hev : HistoryEvent}
    (hnext : poll.next = some (.ok hev)) (hclose : hev.eventType ∈ closingEvents) :
    (temporalStep typeName zeroTime runID st poll).returned.isSome = true := by
  unfold temporalStep
  split
  · assumption
  · simp only [temporalTurn, hnext, isTerminalHistoryEvent_of_mem hclose, if_true]
    split <;> rfl

theorem EndsAfterClosing.of_append {l r : List HistoryPoll} (h : EndsAfterClosing (l ++ r)) :
    EndsAfterClosing l := by
  intro l₁ poll r₁ hsplit hend
  exact h l₁ poll (r₁ ++ r) (by rw [hsplit, List.append_assoc, List.cons_append]) hend

theorem contract_temporalWatch {polls : List HistoryPoll} (hends : EndsAfterClosing polls) :
    Contract (temporalWatch typeName zeroTime runID polls) := by
  induction polls using List.reverseRecOn with
  | nil => exact contract_init
  | append_singleton polls poll ih =>
    have hwatch := ih hends.of_append
    rw [temporalWatch, Transition.run_append]
    show Contract (temporalStep typeName zeroTime runID (temporalWatch typeName zeroTime runID polls) poll)
    by_cases hret : (temporalWatch typeName zeroTime runID polls).returned.isSome = true
    · rw [temporalStep, if_pos hret]
      exact hwatch
    · rw [temporalStep, if_neg hret]
      refine hwatch.turn (by simpa using hret) ?_
      intro hend
      -- the event before the end has made the loop return
      obtain ⟨l', last, hev, rfl, hlast, hclose⟩ := hends polls poll [] rfl hend
      rw [temporalWatch, Transition.run_append] at hret
      exact hret (returned_of_closing hlast hclose)

/-- **The contract of `Watch`**, for both engines, whatever the polls of Argo bring, and whatever
    history Temporal has that ends only with the execution.  The events of Argo lead from the empty
    phase on, from one phase to another. -/
theorem watch_contract (typeName : Int32 → String) (zeroTime : Int) (runID : String)
    (polls : List ArgoPoll) (history : List HistoryPoll) (hends : EndsAfterClosing history) :
    Contract (argoWatch runID polls).toWatchState ∧ Linked "" (argoWatch runID polls).handed ∧
      Contract (temporalWatch typeName zeroTime runID history) :=
  ⟨(argoWatched_run runID polls).contract, (argoWatched_run runID polls).linked,
    contract_temporalWatch hends⟩

def succeededPolls : List ArgoPoll :=
  [{ phase := .ok "" }, { phase := .ok "Running" }, { phase := .ok "Running" },
    { phase := .ok "Succeeded" }]

def completedHistory : List HistoryPoll :=
  [{ next := some (.ok ⟨1, 1, none⟩) }, { next := some (.ok ⟨2, 2, none⟩) }, { next := none }]

theorem endsAfterClosing_completedHistory : EndsAfterClosing completedHistory := by
  intro l poll r hsplit hend
  rcases l with _ | ⟨a, _ | ⟨b, _ | ⟨c, l⟩⟩⟩
  · obtain ⟨rfl, -⟩ := List.cons.inj hsplit
    exact absurd hend (by simp)
  · obtain ⟨-, htail⟩ := List.cons.inj hsplit
    obtain ⟨rfl, -⟩ := List.cons.inj htail
    exact absurd hend (by simp)
  · obtain ⟨rfl, htail⟩ := List.cons.inj hsplit
    obtain ⟨rfl, -⟩ := List.cons.inj htail
    exact ⟨[_], _, ⟨2, 2, none⟩, rfl, rfl, by decide⟩
  · simp [completedHistory] at hsplit

theorem watch_contract_completed :
    (argoWatch "wf-1" succeededPolls).returned = some (.ok ()) ∧
      (argoWatch "wf-1" succeededPolls).sent.map WorkflowEvent.toState = ["Running", "Succeeded"] ∧
      (temporalWatch (fun _ => "") 0 "wf-1" completedHistory).returned = some (.ok ()) ∧
      Contract (argoWatch "wf-1" succeededPolls).toWatchState ∧
      Linked "" (argoWatch "wf-1" succeededPolls).handed ∧
      Contract (temporalWatch (fun _ => "") 0 "wf-1" completedHistory) :=
  ⟨by decide +kernel, by decide +kernel, by decide +kernel, watch_contract (fun _ => "") 0 "wf-1"
    succeededPolls completedHistory endsAfterClosing_completedHistory⟩

end Zynax.Engine
