import Zynax.Adapter.LlmProviders

namespace Zynax.Adapter.Llm

open Golang Grpc
open Transition (run run_nil run_cons run_append run_fair)
open Concurrency.Rendezvous

/-!
# The relay and its provider

`relay` receives the chunks of a provider and sends an event for each; the provider runs in a goroutine of
its own.  Both can be at any point when the request context ends, and a `Send` can fail.
-/

/-! ### The relay -/

inductive Phase where
  | receiving
  | forwarding (text : List UInt8)
  | judging (err : Option (List UInt8))
  | returned
  deriving DecidableEq

structure Relay where
  phase : Phase := .receiving
  full : List UInt8 := []
  emitted : Bool := false
  events : List TaskEvent := []
  looked : Option ContextError := none

def deliver (sink : Nat → Bool) (events : List TaskEvent) : List TaskEvent → List TaskEvent × Bool
  | [] => (events, true)
  | ev :: evs => if sink events.length then deliver sink (events ++ [ev]) evs else (events, false)

def Relay.after (r : Relay) : List TaskEvent × Bool → Transition.Next State (Option Status) → Relay
  | (events, true), .waits (.relaying full emitted) =>
    { r with phase := .receiving, full := full, emitted := emitted, events := events }
  | (events, _), _ => { r with phase := .returned, events := events }

def Relay.serve (taskID : String) (sink : Nat → Bool) (r : Relay) (c : Chunk) : Relay :=
  let t := turn taskID (.relaying r.full r.emitted) c
  r.after (deliver sink r.events (sent t.out)) t.next

def Relay.act (taskID : String) (sink : Nat → Bool) (ctx : Option ContextError) (r : Relay) : Relay :=
  match r.phase with
  | .receiving => r
  | .forwarding text => r.serve taskID sink (.text text)
  | .judging (some err) => { r with looked := ctx }.serve taskID sink (.failed err ctx)
  | .judging none => { r with looked := ctx }.serve taskID sink (.closed ctx)
  | .returned => r

def phaseOf : Message (List UInt8) (List UInt8) → Phase
  | .item text => .forwarding text
  | .error err => .judging (some err)
  | .closed => .judging none

/-- The handler relays chunks to the stream. -/
def relay (taskID : String) (sink : Nat → Bool) : Consumer Relay (List UInt8) (List UInt8) ContextError where
  receiving r := r.phase = .receiving
  receive r m := { r with phase := phaseOf m }
  act := Relay.act taskID sink

def relayRun (env : Linked) (taskID : String) (sink : Nat → Bool) (loop : Loop)
    (schedule : List (Event ContextError)) : Config Loop (List UInt8) (List UInt8) ContextError Relay :=
  run (step (Loop.next env) (relay taskID sink)) (start loop {} none) schedule

/-! ### A turn of the relay -/

variable {taskID : String} {sink : Nat → Bool} {r : Relay} {text : List UInt8}

theorem deliver_true (events evs : List TaskEvent) :
    deliver (fun _ => true) events evs = (events ++ evs, true) := by
  induction evs generalizing events with
  | nil => rw [List.append_nil]; rfl
  | cons ev evs ih =>
    show deliver (fun _ => true) (events ++ [ev]) evs = _
    grind

theorem act_forwarding (hphase : r.phase = .forwarding text)
    (ctx : Option ContextError) :
    r.act taskID sink ctx =
      r.after (deliver sink r.events [progressEvent taskID text]) (.waits (.relaying (r.full ++ text) true)) := by
  unfold Relay.act
  rw [hphase]
  rfl

theorem act_sent (hphase : r.phase = .forwarding text)
    (hsink : sink r.events.length = true) (ctx : Option ContextError) :
    r.act taskID sink ctx =
      { r with
        phase := .receiving
        full := r.full ++ text
        emitted := true
        events := r.events ++ [progressEvent taskID text] } := by
  have hdeliver : deliver sink r.events [progressEvent taskID text] =
      (r.events ++ [progressEvent taskID text], true) := if_pos hsink
  rw [act_forwarding hphase, hdeliver]
  rfl

theorem act_failed (hphase : r.phase = .forwarding text)
    (hsink : sink r.events.length = false) (ctx : Option ContextError) :
    r.act taskID sink ctx = { r with phase := .returned } := by
  have hdeliver : deliver sink r.events [progressEvent taskID text] = (r.events, false) := by
    unfold deliver
    rw [hsink]
    rfl
  rw [act_forwarding hphase, hdeliver]
  rfl

def terminal (taskID : String) (full : List UInt8) (err : Option (List UInt8)) (ctx : Option ContextError) :
    TaskEvent :=
  if ctx.isSome then failedEvent taskID "TIMEOUT" (sanitise (bytes "request exceeded timeout"))
  else
    match err with
    | some err => failedEvent taskID "UPSTREAM_ERROR" (sanitise err)
    | none => completedEvent taskID (completionPayload full)

def endEvents (taskID : String) (emitted : Bool) (full : List UInt8) (err : Option (List UInt8))
    (ctx : Option ContextError) : List TaskEvent :=
  (if emitted then [] else [progressEvent taskID]) ++ [terminal taskID full err ctx]

theorem serve_finish {c : Chunk} {ev : TaskEvent}
    (h : turn taskID (.relaying r.full r.emitted) c =
      .finish (ensureProgress taskID r.emitted ++ [.send ev]) none) :
    r.serve taskID sink c =
      { r with
        phase := .returned
        events :=
          (deliver sink r.events ((if r.emitted then [] else [progressEvent taskID]) ++ [ev])).1 } := by
  have hsent : sent (ensureProgress taskID r.emitted ++ [.send ev]) =
      (if r.emitted then [] else [progressEvent taskID]) ++ [ev] := by
    cases r.emitted with
    | true => rfl
    | false => rfl
  unfold Relay.serve
  rw [h]
  show r.after (deliver sink r.events (sent (ensureProgress taskID r.emitted ++ [.send ev]))) (.returns none) = _
  rw [hsent]
  rcases deliver sink r.events _ with ⟨events, ok⟩
  cases ok with
  | true => rfl
  | false => rfl

theorem act_judging {err : Option (List UInt8)} (hphase : r.phase = .judging err)
    (ctx : Option ContextError) :
    r.act taskID sink ctx =
      { r with
        phase := .returned
        events := (deliver sink r.events (endEvents taskID r.emitted r.full err ctx)).1
        looked := ctx } := by
  unfold Relay.act
  rw [hphase]
  cases err with
  | none =>
    cases ctx with
    | none => exact serve_finish rfl
    | some g => exact serve_finish rfl
  | some e =>
    cases ctx with
    | none => exact serve_finish rfl
    | some g => exact serve_finish rfl

theorem act_receiving (hphase : r.phase = .receiving) (ctx : Option ContextError) :
    r.act taskID sink ctx = r := by
  unfold Relay.act
  rw [hphase]

theorem act_returned (hphase : r.phase = .returned) (ctx : Option ContextError) :
    r.act taskID sink ctx = r := by
  unfold Relay.act
  rw [hphase]

/-! ### What has been sent -/

variable {env : Linked} {all : List (List UInt8)} {last : Option (List UInt8)}
  {c c' : Config Loop (List UInt8) (List UInt8) ContextError Relay} {loop : Loop}

def textEvents (taskID : String) (texts : List (List UInt8)) : List TaskEvent :=
  texts.map fun text => progressEvent taskID text

structure Passed (taskID : String) (sink : Nat → Bool) (items : List (List UInt8)) (r : Relay) : Prop where
  events : r.events = textEvents taskID items
  full : r.full = items.flatten
  emitted : r.emitted = !items.isEmpty
  sent : ∀ k < items.length, sink k = true

theorem Passed.length {items : List (List UInt8)} (h : Passed taskID sink items r) :
    r.events.length = items.length := by
  rw [h.events, textEvents, List.length_map]

theorem Passed.append {items : List (List UInt8)} (h : Passed taskID sink items r)
    (text : List UInt8) (hsink : sink r.events.length = true) :
    Passed taskID sink (items ++ [text])
      { r with
        phase := .receiving
        full := r.full ++ text
        emitted := true
        events := r.events ++ [progressEvent taskID text] } where
  events := by
    show r.events ++ [progressEvent taskID text] = textEvents taskID (items ++ [text])
    rw [textEvents, List.map_append, h.events]
    rfl
  full := by
    show r.full ++ text = (items ++ [text]).flatten
    rw [List.flatten_append, h.full, List.flatten_singleton]
  emitted := by
    simp
  sent := by
    intro k hk
    rw [List.length_append, List.length_singleton] at hk
    rcases Nat.lt_succ_iff_lt_or_eq.mp hk with hlt | rfl
    · exact h.sent k hlt
    · exact h.length ▸ hsink

structure Ended (taskID : String) (sink : Nat → Bool) (all : List (List UInt8)) (last : Option (List UInt8))
    (items : List (List UInt8)) (r : Relay) (err : Option (List UInt8)) : Prop where
  complete : r.looked = none → items = all ∧ err = last
  events : r.events =
    (deliver sink (textEvents taskID items)
      (endEvents taskID (!items.isEmpty) items.flatten err r.looked)).1

def GaveUp (sink : Nat → Bool) (items : List (List UInt8)) : Prop :=
  ∃ n, items.length = n + 1 ∧ (∀ k < n, sink k = true) ∧ sink n = false

def Traced (taskID : String) (sink : Nat → Bool) (all : List (List UInt8)) (last : Option (List UInt8))
    (c : Config Loop (List UInt8) (List UInt8) ContextError Relay) : Prop :=
  match c.consumer.phase with
  | .receiving => c.ended = none ∧ Passed taskID sink c.items c.consumer
  | .forwarding text =>
    c.ended = none ∧ ∃ items, c.items = items ++ [text] ∧ Passed taskID sink items c.consumer
  | .judging err => c.ended = some err ∧ Passed taskID sink c.items c.consumer
  | .returned => GaveUp sink c.items ∨
      c.ended ≠ none ∧ ∃ err, Ended taskID sink all last c.items c.consumer err

theorem traced_act (hahead : Ahead (Loop.next env) all last c) (h : Traced taskID sink all last c) :
    Traced taskID sink all last { c with consumer := c.consumer.act taskID sink c.ctx } := by
  cases hphase : c.consumer.phase with
  | receiving =>
    rw [act_receiving hphase]
    exact h
  | forwarding text =>
    simp only [Traced, hphase] at h
    obtain ⟨hopen, items, hitems, hpassed⟩ := h
    cases hsink : sink c.consumer.events.length with
    | true =>
      rw [act_sent hphase hsink]
      refine ⟨hopen, ?_⟩
      show Passed taskID sink c.items _
      rw [hitems]
      exact hpassed.append text hsink
    | false =>
      rw [act_failed hphase hsink]
      refine Or.inl ⟨items.length, ?_, hpassed.sent, hpassed.length ▸ hsink⟩
      grind
  | judging err =>
    simp only [Traced, hphase] at h
    obtain ⟨hended, hpassed⟩ := h
    rw [act_judging hphase]
    refine Or.inr ⟨by rw [hended]; exact Option.some_ne_none err, err, ?_, ?_⟩
    · exact fun hlooked => hahead.of_ended hended hlooked
    · show (deliver sink c.consumer.events
          (endEvents taskID c.consumer.emitted c.consumer.full err c.ctx)).1 = _
      rw [hpassed.events, hpassed.emitted, hpassed.full]
  | returned =>
    rw [act_returned hphase]
    exact h

theorem traced_move (hahead : Ahead (Loop.next env) all last c) (h : Traced taskID sink all last c)
    (hm : Move (Loop.next env) (relay taskID sink) c c') : Traced taskID sink all last c' := by
  have hreceived : ∀ p, (relay taskID sink).receiving c.consumer = true →
      Passed taskID sink c.items { c.consumer with phase := p } := by
    intro p hrecv
    have hphase : c.consumer.phase = .receiving := of_decide_eq_true hrecv
    simp only [Traced, hphase] at h
    exact ⟨h.2.events, h.2.full, h.2.emitted, h.2.sent⟩
  cases hm with
  | read _ => exact h
  | withdraw _ _ => exact h
  | item _ hrecv hopen => exact ⟨hopen, c.items, rfl, hreceived _ hrecv⟩
  | error _ hrecv _ => exact ⟨rfl, hreceived _ hrecv⟩
  | closed _ hrecv _ => exact ⟨rfl, hreceived _ hrecv⟩
  | act => exact traced_act hahead h
  | cancel g => exact h

theorem ahead_traced_move
    (h : Ahead (Loop.next env) all last c ∧ Traced taskID sink all last c)
    (hm : Move (Loop.next env) (relay taskID sink) c c') :
    Ahead (Loop.next env) all last c' ∧ Traced taskID sink all last c' :=
  ⟨ahead_move h.1 hm, traced_move h.1 h.2 hm⟩

theorem ahead_traced_start (h : Yields (Loop.next env) loop all last) :
    Ahead (Loop.next env) all last (start loop ({} : Relay) (none : Option ContextError)) ∧
      Traced taskID sink all last (start loop {} none) := by
  refine ⟨ahead_start h, rfl, rfl, rfl, rfl, fun k hk => ?_⟩
  exact absurd hk (Nat.not_lt_zero k)

/-- **What has been sent**, after any schedule. -/
theorem run_traced (taskID : String) (sink : Nat → Bool) (h : Yields (Loop.next env) loop all last)
    (schedule : List (Event ContextError)) :
    Ahead (Loop.next env) all last (relayRun env taskID sink loop schedule) ∧
      Traced taskID sink all last (relayRun env taskID sink loop schedule) :=
  run_of_move (fun _ _ => ahead_traced_move) (ahead_traced_start h) schedule

/-! ### The relay returns -/

def Relay.weight (r : Relay) : Nat :=
  match r.phase with
  | .receiving => 0
  | .forwarding _ => 1
  | .judging _ => 1
  | .returned => 0

theorem weight_act_lt (hreceiving : r.phase ≠ .receiving) (hreturned : r.phase ≠ .returned)
    (ctx : Option ContextError) : (r.act taskID sink ctx).weight < r.weight := by
  cases hphase : r.phase with
  | receiving => exact absurd hphase hreceiving
  | forwarding text =>
    have hweight : r.weight = 1 := by simp only [Relay.weight, hphase]
    rw [hweight]
    cases hsink : sink r.events.length with
    | true =>
      rw [act_sent hphase hsink]
      exact Nat.one_pos
    | false =>
      rw [act_failed hphase hsink]
      exact Nat.one_pos
  | judging err =>
    have hweight : r.weight = 1 := by simp only [Relay.weight, hphase]
    rw [hweight, act_judging hphase]
    exact Nat.one_pos
  | returned => exact absurd hphase hreturned

theorem works_relay (taskID : String) (sink : Nat → Bool) : Works (relay taskID sink) Relay.weight := by
  refine ⟨fun r m => ?_, fun ctx r => ?_⟩
  · apply Nat.le_add_left_of_le
    cases m with
    | item text => exact Nat.le_refl 1
    | error e => exact Nat.le_refl 1
    | closed => exact Nat.le_refl 1
  · by_cases hreceiving : r.phase = .receiving
    · exact Or.inr (act_receiving hreceiving ctx)
    by_cases hreturned : r.phase = .returned
    · exact Or.inr (act_returned hreturned ctx)
    · exact Or.inl (weight_act_lt hreceiving hreturned ctx)

theorem returned_move (h : c.consumer.phase = .returned)
    (hm : Move (Loop.next env) (relay taskID sink) c c') : c'.consumer.phase = .returned := by
  have hrecv : (relay taskID sink).receiving c.consumer ≠ true := by
    intro hrecv
    have hphase : c.consumer.phase = .receiving := of_decide_eq_true hrecv
    grind
  cases hm with
  | read _ => exact h
  | withdraw _ _ => exact h
  | item _ hr _ => exact absurd hr hrecv
  | error _ hr _ => exact absurd hr hrecv
  | closed _ hr _ => exact absurd hr hrecv
  | act =>
    show (c.consumer.act taskID sink c.ctx).phase = .returned
    rw [act_returned h]
    exact h
  | cancel g => exact h

def needed : List (Event ContextError) := [.read, .pass, .act]

/-- **The relay returns**, whatever the schedule, if both sides get their turns. -/
theorem returns_of_fair (h : Yields (Loop.next env) loop all last)
    {rounds : List (List (Event ContextError))} (hrounds : ∀ r ∈ rounds, ∀ ev ∈ needed, ev ∈ r)
    (hlen : 6 * loop.size + 6 ≤ rounds.length) :
    (relayRun env taskID sink loop rounds.flatten).consumer.phase = .returned := by
  have hworks := works_relay taskID sink
  have hsize := shrinks_next env
  refine @run_fair _ _ (step (Loop.next env) (relay taskID sink))
    (fun c => Ahead (Loop.next env) all last c ∧ Traced taskID sink all last c) _ Config.core
    (weight Loop.size Relay.weight) (fun core => core.2.1.phase = .returned) needed
    (step_weight hsize hworks) (step_of_move fun _ _ => ahead_traced_move) ?_ ?_ rounds hrounds
    (start loop {} none) (ahead_traced_start h) ?_
  · exact fun c ev => step_of_move (fun _ _ => returned_move) c ev
  · rintro c ⟨-, htraced⟩ hreturned
    by_cases hphase : c.consumer.phase = .receiving
    · -- one of the two sides brings the message on
      simp only [Traced, hphase] at htraced
      have hwaits : c.ended.isNone = true := Option.isNone_iff_eq_none.mpr htraced.1
      obtain ⟨ev, hev, hlt⟩ := exists_lt_weight hsize hworks c.core (decide_eq_true hphase) hwaits
      rcases hev with rfl | rfl
      · exact ⟨.read, by simp [needed], hlt⟩
      · exact ⟨.pass, by simp [needed], hlt⟩
    · refine ⟨.act, by simp [needed], fun c' hc' => ?_⟩
      have hconsumer : c'.consumer = c.consumer := congrArg (fun core => core.2.1) hc'
      have hlt : (c.consumer.act taskID sink c'.ctx).weight < c.consumer.weight :=
        weight_act_lt hphase hreturned c'.ctx
      rw [← hconsumer] at hlt
      exact Nat.add_lt_add_left hlt _
  · show 2 * (3 * loop.size + 3) + 0 ≤ rounds.length
    omega

/-! ### The events of a stream of server-sent events -/

variable {ending : Ending}

def Ending.regular : Ending → Bool
  | .done => true
  | .eof => true
  | .undecodable _ => false
  | .readError _ => false

theorem error_of_regular (h : ending.regular = true) : ending.error = none := by
  cases ending with
  | done => rfl
  | eof => rfl
  | undecodable err => cases h
  | readError err => cases h

theorem exists_error_of_not_regular (h : ending.regular = false) :
    ∃ err, ending.error = some err := by
  cases ending with
  | done => cases h
  | eof => cases h
  | undecodable err => exact ⟨_, rfl⟩
  | readError err => exact ⟨_, rfl⟩

def progressEvents (taskID : String) (texts : List (List UInt8)) : List TaskEvent :=
  if texts = [] then [progressEvent taskID] else textEvents taskID texts

theorem textEvents_append_endEvents (taskID : String) (items : List (List UInt8)) (full : List UInt8)
    (err : Option (List UInt8)) (ctx : Option ContextError) :
    textEvents taskID items ++ endEvents taskID (!items.isEmpty) full err ctx =
      progressEvents taskID items ++ [terminal taskID full err ctx] := by
  cases items with
  | nil => rfl
  | cons text items => rfl

structure Told (taskID : String) (deltas : List String) (ending : Ending) (r : Relay)
    (relayed : List (List UInt8)) (last : TaskEvent) : Prop where
  events : r.events = progressEvents taskID relayed ++ [last]
  inOrder : relayed <+: chunksOf deltas
  complete : r.looked = none → relayed = chunksOf deltas
  completed : r.looked = none → ending.regular = true →
    last = completedEvent taskID (completionPayload (deltas.map bytes).flatten)
  upstream : r.looked = none → ending.regular = false →
    ∃ err, last = failedEvent taskID "UPSTREAM_ERROR" err
  timeout : r.looked ≠ none → ∃ err, last = failedEvent taskID "TIMEOUT" err

theorem told_of_returned {deltas : List String}
    (h : Yields (Loop.next env) loop (chunksOf deltas) ending.error)
    (schedule : List (Event ContextError))
    (hreturned : (relayRun env taskID (fun _ => true) loop schedule).consumer.phase = .returned) :
    ∃ relayed last,
      Told taskID deltas ending (relayRun env taskID (fun _ => true) loop schedule).consumer relayed last := by
  obtain ⟨hahead, htraced⟩ := run_traced taskID (fun _ => true) h schedule
  have hrelayed := hahead.items_prefix
  generalize relayRun env taskID (fun _ => true) loop schedule = c at hreturned htraced hrelayed ⊢
  simp only [Traced, hreturned] at htraced
  rcases htraced with ⟨n, -, -, hfails⟩ | ⟨-, err, hcomplete, hevents⟩
  · cases hfails
  rw [deliver_true, textEvents_append_endEvents] at hevents
  refine ⟨c.items, terminal taskID c.items.flatten err c.consumer.looked, hevents, hrelayed,
    fun hlooked => (hcomplete hlooked).1, fun hlooked hregular => ?_, fun hlooked hregular => ?_,
    fun hlooked => ?_⟩
  · obtain ⟨hitems, herr⟩ := hcomplete hlooked
    rw [hlooked, herr, error_of_regular hregular, hitems, flatten_chunksOf]
    rfl
  · obtain ⟨-, herr⟩ := hcomplete hlooked
    obtain ⟨e, he⟩ := exists_error_of_not_regular hregular
    rw [hlooked, herr, he]
    exact ⟨_, rfl⟩
  · obtain ⟨g, hg⟩ := Option.ne_none_iff_exists'.mp hlooked
    rw [hg]
    exact ⟨_, rfl⟩

def deltaLine (text : String) : List UInt8 :=
  bytes ("data: \x7b\"choices\":[\x7b\"delta\":\x7b\"content\":\"" ++ text ++ "\"\x7d\x7d]\x7d\n")

def greetingBody : Body where
  received := deltaLine "Hel" ++ bytes "\n" ++ deltaLine "lo" ++ bytes "\ndata: [DONE]\n"

variable {e : List UInt8}

structure Stuck (c : Config Loop (List UInt8) (List UInt8) ContextError Relay) : Prop where
  returned : c.consumer.phase = .returned
  ctx_over : c.ctx ≠ none
  insisting : ∃ e, c.producer = .insisting e

theorem stuck_move (h : Stuck c) (hm : Move (Loop.next env) (relay taskID sink) c c') : Stuck c' := by
  obtain ⟨hreturned, hover, e, hp⟩ := h
  refine ⟨returned_move hreturned hm, ?_, e, ?_⟩
  · cases hm with
    | cancel g =>
      show c.ctx.or (some g) ≠ none
      cases c.ctx with
      | none => exact Option.some_ne_none g
      | some g' => exact Option.some_ne_none g'
    | _ => exact hover
  · cases hm with
    | read hr =>
      rw [hp] at hr
      cases hr
    | withdraw ho _ =>
      rw [hp] at ho
      cases ho
    | item ho _ _ =>
      rw [hp] at ho
      cases ho
    | error _ hrecv _ =>
      have hphase : c.consumer.phase = .receiving := of_decide_eq_true hrecv
      rw [hreturned] at hphase
      cases hphase
    | closed hc _ _ => exact hp
    | act => exact hp
    | cancel g => exact hp

theorem stuck_append {schedule : List (Event ContextError)}
    (h : Stuck (relayRun env taskID sink loop schedule)) (more : List (Event ContextError)) :
    Stuck (relayRun env taskID sink loop (schedule ++ more)) := by
  unfold relayRun at h ⊢
  rw [run_append]
  exact run_of_move (fun _ _ => stuck_move) h more

theorem stuck_cancel (hreturned : c.consumer.phase = .returned)
    (hp : c.producer = .insisting e) (g : ContextError) :
    Stuck (step (Loop.next env) (relay taskID sink) c (.cancel g)) := by
  refine ⟨hreturned, ?_, e, hp⟩
  show c.ctx.or (some g) ≠ none
  cases c.ctx with
  | none => exact Option.some_ne_none g
  | some g' => exact Option.some_ne_none g'

theorem gaveUp_of_stuck (h : Yields (Loop.next env) loop all last) {schedule : List (Event ContextError)}
    (hstuck : Stuck (relayRun env taskID sink loop schedule)) : last ≠ none ∧ GaveUp sink all := by
  obtain ⟨hahead, htraced⟩ := run_traced taskID sink h schedule
  generalize relayRun env taskID sink loop schedule = c at hahead htraced hstuck
  obtain ⟨hreturned, -, e, hp⟩ := hstuck
  simp only [Ahead, hp] at hahead
  simp only [Traced, hreturned] at htraced
  obtain ⟨hopen, hitems, hlast⟩ := hahead
  refine ⟨by rw [hlast]; exact Option.some_ne_none e, ?_⟩
  rcases htraced with hgave | ⟨hended, -⟩
  · exact hitems ▸ hgave
  · exact absurd hopen hended

theorem run_text (taskID : String) (sink : Nat → Bool) {s s' : Loop}
    (hs : s.next env = .offer text s') (hp : c.producer = .reading s)
    (hphase : c.consumer.phase = .receiving)
    (hopen : c.ended = none) :
    ∃ r : Relay, r.phase = .forwarding text ∧ r.events = c.consumer.events ∧
      run (step (Loop.next env) (relay taskID sink)) c [.read, .pass, .act] =
        { c with
          producer := .reading s'
          consumer := r.act taskID sink c.ctx
          items := c.items ++ [text] } := by
  have hread : step (Loop.next env) (relay taskID sink) c .read = { c with producer := .offering text s' } := by
    rw [step_read hp, hs]
    rfl
  have hoffering : ({ c with producer := .offering text s' } :
      Config Loop (List UInt8) (List UInt8) ContextError Relay).producer = .offering text s' := rfl
  refine ⟨{ c.consumer with phase := .forwarding text }, rfl, rfl, ?_⟩
  rw [run_cons, hread, run_cons, step_pass hoffering (decide_eq_true hphase) hopen]
  rfl

theorem exists_waiting (taskID : String) {s : Loop} {texts : List (List UInt8)}
    (h : Yields (Loop.next env) s texts (some e)) {n : Nat} (hlen : texts.length = n + 1)
    (hp : c.producer = .reading s) (hphase : c.consumer.phase = .receiving) (hopen : c.ended = none)
    (hsent : ∀ k < n, sink (c.consumer.events.length + k) = true)
    (hfails : sink (c.consumer.events.length + n) = false) :
    ∃ schedule, (run (step (Loop.next env) (relay taskID sink)) c schedule).consumer.phase = .returned ∧
      (run (step (Loop.next env) (relay taskID sink)) c schedule).producer = .insisting e := by
  generalize hlast : some e = last at h
  induction h generalizing c n with
  | @skip _ s' _ _ hs _ ih =>
    have hread : step (Loop.next env) (relay taskID sink) c .read = { c with producer := .reading s' } := by
      rw [step_read hp, hs]
      rfl
    obtain ⟨schedule, hend⟩ := ih hlen (c := { c with producer := .reading s' }) rfl hphase hopen hsent hfails hlast
    refine ⟨.read :: schedule, ?_⟩
    rw [run_cons, hread]
    exact hend
  | @offer _ s' text texts _ hs hrest ih =>
    obtain ⟨r, hr, hevents, hrun⟩ := run_text taskID sink hs hp hphase hopen
    rw [← hevents] at hsent hfails
    cases n with
    | zero =>
      -- the relay returns, and the provider reads on
      obtain rfl := List.eq_nil_of_length_eq_zero (Nat.succ.inj hlen)
      subst hlast
      rw [act_failed hr hfails] at hrun
      obtain ⟨schedule, hend⟩ := exists_insisting (C := relay taskID sink) hrest (c := { c with
        producer := .reading s'
        consumer := { r with phase := .returned }
        items := c.items ++ [text] }) rfl
      refine ⟨[.read, .pass, .act] ++ schedule, ?_⟩
      rw [run_append, hrun, hend]
      exact ⟨rfl, rfl⟩
    | succ n =>
      rw [act_sent hr (hsent 0 (Nat.succ_pos n))] at hrun
      have hindex : ∀ k, (r.events ++ [progressEvent taskID text]).length + k = r.events.length + (k + 1) := by
        intro k
        rw [List.length_append, List.length_singleton, Nat.add_assoc, Nat.add_comm 1 k]
      have hsent' : ∀ k < n, sink ((r.events ++ [progressEvent taskID text]).length + k) = true := by
        intro k hk
        rw [hindex]
        exact hsent (k + 1) (Nat.succ_lt_succ hk)
      have hfails' : sink ((r.events ++ [progressEvent taskID text]).length + n) = false := by
        rw [hindex]
        exact hfails
      obtain ⟨schedule, hend⟩ := ih (Nat.succ.inj hlen) (c := { c with
        producer := .reading s'
        consumer := { r with
          phase := .receiving
          full := r.full ++ text
          emitted := true
          events := r.events ++ [progressEvent taskID text] }
        items := c.items ++ [text] }) rfl rfl hopen hsent' hfails' hlast
      refine ⟨[.read, .pass, .act] ++ schedule, ?_⟩
      rw [run_append, hrun]
      exact hend
  | fail _ => cases hlen
  | stop _ => cases hlast

/-- **When the provider is never stuck**: unless its stream ends with an error and the `Send` of the last
    text before is the first one that fails. -/
theorem never_stuck_iff (env : Linked) (taskID : String) (sink : Nat → Bool) (loop : Loop) :
    ∃ texts last, Yields (Loop.next env) loop texts last ∧
      ((∀ schedule, ¬Stuck (relayRun env taskID sink loop schedule)) ↔
        (last ≠ none → ∀ n, texts.length = n + 1 → (∀ k < n, sink k = true) → sink n = true)) := by
  obtain ⟨texts, last, hyields⟩ := exists_yields (shrinks_next env) loop
  refine ⟨texts, last, hyields, fun h hlast n hlen hsent => ?_, fun h schedule hstuck => ?_⟩
  · by_contra hfails
    obtain ⟨e, rfl⟩ := Option.ne_none_iff_exists'.mp hlast
    have hsent' : ∀ k < n, sink (0 + k) = true := fun k hk => by rw [Nat.zero_add]; exact hsent k hk
    have hfails' : sink (0 + n) = false := by rw [Nat.zero_add]; exact eq_false_of_ne_true hfails
    obtain ⟨schedule, hreturned, hinsisting⟩ :=
      exists_waiting taskID (c := start loop {} none) hyields hlen rfl rfl rfl hsent' hfails'
    apply h (schedule ++ [.cancel .canceled])
    unfold relayRun
    rw [run_append]
    show Stuck (step (Loop.next env) (relay taskID sink) _ (.cancel .canceled))
    exact stuck_cancel hreturned hinsisting .canceled
  · obtain ⟨hlast, n, hlen, hsent, hfails⟩ := gaveUp_of_stuck hyields hstuck
    rw [h hlast n hlen hsent] at hfails
    cases hfails

theorem stuck_of_next {l₀ l₁ l₂ : Loop} (h₀ : l₀.next env = .skip l₁)
    (h₁ : l₁.next env = .offer text l₂) (h₂ : l₂.next env = .fail e) :
    Stuck (relayRun env taskID (fun _ => false) l₀
      [.read, .read, .pass, .act, .cancel .canceled, .read]) := by
  have hread : step (Loop.next env) (relay taskID fun _ => false) (start l₀ {} none) .read =
      start l₁ {} none := by
    rw [step_read rfl, h₀]
    rfl
  obtain ⟨r, hr, -, hrun⟩ := run_text taskID (fun _ => false) (c := start l₁ {} none) h₁ rfl rfl rfl
  rw [act_failed hr rfl] at hrun
  have hschedule : relayRun env taskID (fun _ => false) l₀
      [.read, .read, .pass, .act, .cancel .canceled, .read] =
      run (step (Loop.next env) (relay taskID fun _ => false))
        (run (step (Loop.next env) (relay taskID fun _ => false)) (start l₁ {} none) [.read, .pass, .act])
        [.cancel .canceled, .read] := by
    rw [← hread]
    rfl
  rw [hschedule, hrun, run_cons, run_cons, run_nil, step_read rfl, h₂]
  exact ⟨rfl, Option.some_ne_none _, e, rfl⟩

theorem stuck_of_body {body : Body} {line err : List UInt8} {text : String} (hlines : body.lines = [line])
    (herr : body.scanErr = some err) (hline : openAILine env line = .delta text) (htext : text ≠ "") :
    Stuck (relayRun env taskID (fun _ => false) (.openAI (.answered 200 body))
      [.read, .read, .pass, .act, .cancel .canceled, .read]) := by
  have h₀ := next_openAI env (by decide : (200 : Int) ≤ 200 ∧ (200 : Int) < 300) body
  rw [hlines, herr] at h₀
  have h₁ : Loop.next env (.openAILines [line] (some err)) = .offer (bytes text) (.openAILines [] (some err)) := by
    rw [next_openAILines]
    unfold openAINext
    rw [hline]
    exact if_neg htext
  exact stuck_of_next h₀ h₁ rfl

def cutBody : Body where
  received := deltaLine "Hel"
  err := some (bytes "context canceled")

theorem provider_left_waiting :
    Stuck (relayRun {} "task-1" (fun _ => false) (.openAI (.answered 200 cutBody))
      [.read, .read, .pass, .act, .cancel .canceled, .read]) ∧
    ∀ more, Stuck (relayRun {} "task-1" (fun _ => false) (.openAI (.answered 200 cutBody))
      ([.read, .read, .pass, .act, .cancel .canceled, .read] ++ more)) := by
  have hlines : cutBody.lines = [(deltaLine "Hel").dropLast] := by decide +kernel
  have herr : cutBody.scanErr = some (bytes "context canceled") := by decide +kernel
  have hline : openAILine {} (deltaLine "Hel").dropLast = .delta "Hel" := by decide +kernel
  have hstuck : Stuck (relayRun {} "task-1" (fun _ => false) (.openAI (.answered 200 cutBody)) _) :=
    stuck_of_body hlines herr hline (by decide)
  exact ⟨hstuck, fun more => stuck_append hstuck more⟩

end Zynax.Adapter.Llm
