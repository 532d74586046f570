import Mathlib.Algebra.Order.BigOperators.Group.List
import Zynax.Adapter.Events
import Zynax.Python.Runtime

namespace Zynax.Adapter.LangGraph

open Golang Grpc Python

/-!
# The LangGraph adapter

The adapter runs a compiled graph: it reads the updates of the nodes from an async generator, with a
timer of two seconds around each step, and reports the merged updates at the end.

A wait that the timer cuts short is cancelled, and with it the generator: its next step is the
`StopAsyncIteration` of a finished one, which the loop takes for the end of the graph.
-/

variable {β : Type}

def tickerSecs : ℚ := 2

/-! ### Graphs -/

inductive Update (β : Type) where
  | dict (fields : Dict β)
  | other (v : β)
  deriving DecidableEq

inductive GraphError where
  | timeout
  | value (msg : String)
  | other (msg : String)
  deriving DecidableEq

abbrev Chunk (β : Type) : Type := Dict (Update β)

structure GraphRun (β : Type) where
  chunks : List (Await (Chunk β))
  last : Await (Option GraphError)

namespace GraphRun

def lastStep : Option GraphError → Next (Chunk β) GraphError
  | none => .stopped .exhausted
  | some e => .raised e

def waits (g : GraphRun β) : List (Await (Next (Chunk β) GraphError)) :=
  g.chunks.map (Await.map .yielded) ++ [g.last.map lastStep]

def updates (g : GraphRun β) : List (String × Update β) := g.chunks.flatMap fun a => a.value.entries

end GraphRun

def elapsed {α : Type} (waits : List (Await α)) : ℚ := (waits.map Await.duration).sum

def GraphRun.total (g : GraphRun β) : ℚ := elapsed g.waits

variable {α : Type}

@[simp] theorem elapsed_nil : elapsed ([] : List (Await α)) = 0 := rfl

@[simp] theorem elapsed_cons (a : Await α) (waits : List (Await α)) :
    elapsed (a :: waits) = a.duration + elapsed waits := List.sum_cons

theorem elapsed_nonneg (waits : List (Await α)) : 0 ≤ elapsed waits :=
  List.sum_nonneg fun _ h => by
    obtain ⟨a, -, rfl⟩ := List.mem_map.mp h
    exact a.nonneg

theorem GraphRun.total_nil (last : Await (Option GraphError)) :
    GraphRun.total (⟨[], last⟩ : GraphRun β) = last.duration := add_zero last.duration

theorem GraphRun.total_cons (a : Await (Chunk β)) (chunks : List (Await (Chunk β)))
    (last : Await (Option GraphError)) :
    GraphRun.total ⟨a :: chunks, last⟩ = a.duration + GraphRun.total ⟨chunks, last⟩ := rfl

theorem GraphRun.updates_cons (a : Await (Chunk β)) (chunks : List (Await (Chunk β)))
    (last : Await (Option GraphError)) :
    GraphRun.updates ⟨a :: chunks, last⟩ = a.value.entries ++ GraphRun.updates ⟨chunks, last⟩ :=
  List.flatMap_cons

/-! ### The loop -/

inductive Ending where
  | returned (why : Stop)
  | raised (e : GraphError)
  deriving DecidableEq

structure Iteration (β : Type) where
  items : List (Option (String × Update β))
  ending : Ending

def Iteration.after (it : Iteration β) (items : List (Option (String × Update β))) : Iteration β :=
  ⟨items ++ it.items, it.ending⟩

def resume (deadline now : ℚ) : Iteration β :=
  if deadline - now ≤ 0 then ⟨[], .raised .timeout⟩ else ⟨[], .returned .aborted⟩

def lapse (deadline now : ℚ) : Iteration β :=
  if deadline ≤ now then ⟨[], .raised .timeout⟩ else (resume deadline now).after [none]

/-- The nodes of a graph run, under the deadline. -/
def iterNodes (deadline : ℚ) : List (Await (Next (Chunk β) GraphError)) → ℚ → Iteration β
  | [], now => resume deadline now
  | a :: rest, now =>
    if deadline - now ≤ 0 then ⟨[], .raised .timeout⟩
    else
      match waitFor (min tickerSecs (deadline - now)) a with
      -- `chunk.items()`
      | (some (.yielded chunk), t) => (iterNodes deadline rest (now + t)).after (chunk.entries.map some)
      -- `_DONE`
      | (some (.stopped why), _) => ⟨[], .returned why⟩
      -- a `TimeoutError` of the graph is caught like one of the timer
      | (some (.raised .timeout), t) => lapse deadline (now + t)
      | (some (.raised e), _) => ⟨[], .raised e⟩
      | (none, t) => lapse deadline (now + t)

/-! ### Events -/

inductive GraphEvent (β : Type) where
  | ticker
  | progress (node : String) (upd : Update β)
  | completed (state : Dict β)
  | failed (code msg : String)
  deriving DecidableEq

def cutChars (s : String) : String := String.ofList (s.toList.take 512)

def failed (code msg : String) : GraphEvent β := .failed code (cutChars msg)

def itemEvent : Option (String × Update β) → GraphEvent β
  | none => .ticker
  | some (node, upd) => .progress node upd

def itemFields : Option (String × Update β) → List (String × β)
  | some (_, .dict fields) => fields.entries
  | _ => []

def finalState (items : List (Option (String × Update β))) : Dict β :=
  items.foldl (fun state item => state.update (itemFields item)) Dict.empty

def endEvent (it : Iteration β) : GraphEvent β :=
  match it.ending with
  | .returned _ => .completed (finalState it.items)
  | .raised .timeout => failed "TIMEOUT" "request exceeded timeout"
  | .raised (.value msg) => failed "INVALID_INPUT" (cutChars msg)
  | .raised (.other msg) => failed "INTERNAL" (cutChars msg)

def graphEvents (it : Iteration β) : List (GraphEvent β) := it.items.map itemEvent ++ [endEvent it]

/-- `stream`: the events of a graph run. -/
def stream {ι : Type} (loads : List UInt8 → Except String ι) (graph : ι → GraphRun β)
    (inputPayload : List UInt8) (timeoutSeconds now : ℚ) : List (GraphEvent β) :=
  match loads inputPayload with
  | .error msg => [failed "INVALID_INPUT" (cutChars msg)]
  | .ok inputState => graphEvents (iterNodes (now + timeoutSeconds) (graph inputState).waits now)

/-! ### Requests -/

structure Dumps (β : Type) where
  node : String → Update β → List UInt8
  state : Dict β → List UInt8

def GraphEvent.toTaskEvent (dumps : Dumps β) (taskID : String) : GraphEvent β → TaskEvent
  | .ticker => progressEvent taskID (bytes "\x7b\"ticker\": true\x7d")
  | .progress node upd => progressEvent taskID (dumps.node node upd)
  | .completed state => completedEvent taskID (dumps.state state)
  | .failed code msg => failedEvent taskID code (bytes msg)

def requestTimeout (req : ExecuteRequest) : ℚ :=
  if req.timeoutSeconds = 0 then 60 else (req.timeoutSeconds.toInt : ℚ)

def executeCapability {ι : Type} (dumps : Dumps β) (loads : List UInt8 → Except String ι)
    (graphs : Dict (ι → GraphRun β)) (req : ExecuteRequest) (now : ℚ) : Except Status (List TaskEvent) :=
  if req.capabilityName = "" then .error ⟨.invalidArgument, .text "capability_name is required"⟩
  else
    match graphs.get req.capabilityName with
    | none => .error ⟨.notFound, .text ("unknown capability: " ++ req.capabilityName)⟩
    | some graph =>
      .ok ((stream loads graph req.inputPayload (requestTimeout req) now).map
        (GraphEvent.toTaskEvent dumps req.taskId))

/-! ### Honest streams -/

def GraphEvent.isTicker : GraphEvent β → Bool
  | .ticker => true
  | _ => false

def lastValue (updates : List (String × Update β)) (k : String) : Option β :=
  (updates.flatMap fun u => itemFields (some u)).reverse.lookup k

def Reported (g : GraphRun β) (events : List (GraphEvent β)) : Prop :=
  ∃ state, events.filter (fun ev => !ev.isTicker) =
      g.updates.map (fun u => .progress u.1 u.2) ++ [.completed state] ∧
    events.getLast? = some (.completed state) ∧ ∀ k, state.get k = lastValue g.updates k

def RanToEnd (g : GraphRun β) (timeoutSeconds now : ℚ) : Prop :=
  (iterNodes (now + timeoutSeconds) g.waits now).ending = .returned .exhausted

structure Honest (g : GraphRun β) (timeoutSeconds now : ℚ) (events : List (GraphEvent β)) : Prop where
  completes : g.total < timeoutSeconds → g.last.value = none → Reported g events
  timesOut : timeoutSeconds < g.total →
    events.getLast? = some (failed "TIMEOUT" "request exceeded timeout")
  whole : ∀ state, .completed state ∈ events → RanToEnd g timeoutSeconds now ∧ Reported g events

structure SoundFrom (deadline now : ℚ) (g : GraphRun β) : Prop where
  inTime : ∀ l w r, g.waits = l ++ w :: r → now + elapsed l + tickerSecs < deadline → w.InTime tickerSecs
  raises : g.last.value = some .timeout → deadline ≤ now + g.total

/-! ### What the loop does -/

variable {deadline now : ℚ} {last : Await (Option GraphError)}

theorem forall_split_cons {a : α} {l : List α} {p : List α → α → Prop} :
    (∀ pre w post, a :: l = pre ++ w :: post → p pre w) ↔
      p [] a ∧ ∀ pre w post, l = pre ++ w :: post → p (a :: pre) w := by
  constructor
  · exact fun h => ⟨h [] a l rfl, fun pre w post hl => h (a :: pre) w post (hl ▸ rfl)⟩
  · rintro ⟨hhead, htail⟩ pre w post hl
    cases pre with
    | nil =>
      grind
    | cons b pre =>
      grind

theorem soundFrom_nil :
    SoundFrom deadline now (⟨[], last⟩ : GraphRun β) ↔
      (now + tickerSecs < deadline → last.InTime tickerSecs) ∧
        (last.value = some .timeout → deadline ≤ now + last.duration) := by
  have hwaits : GraphRun.waits (⟨[], last⟩ : GraphRun β) = [last.map GraphRun.lastStep] := rfl
  constructor
  · intro h
    refine ⟨fun hnow => ?_, fun hraise => ?_⟩
    · exact h.inTime [] _ [] hwaits (by simpa using hnow)
    · simpa only [GraphRun.total_nil] using h.raises hraise
  · intro h
    refine ⟨?_, fun hraise => ?_⟩
    · rw [hwaits, forall_split_cons]
      refine ⟨fun hnow => h.1 (by simpa using hnow), fun pre w post hl => ?_⟩
      exact absurd hl (by simp)
    · simpa only [GraphRun.total_nil] using h.2 hraise

theorem soundFrom_cons {a : Await (Chunk β)} {chunks : List (Await (Chunk β))} :
    SoundFrom deadline now ⟨a :: chunks, last⟩ ↔
      (now + tickerSecs < deadline → a.InTime tickerSecs) ∧
        SoundFrom deadline (now + a.duration) ⟨chunks, last⟩ := by
  have hwaits : GraphRun.waits ⟨a :: chunks, last⟩ =
      a.map .yielded :: GraphRun.waits ⟨chunks, last⟩ := rfl
  have helapsed : ∀ pre : List (Await (Next (Chunk β) GraphError)),
      now + elapsed (a.map Next.yielded :: pre) = now + a.duration + elapsed pre := by
    intro pre
    rw [elapsed_cons, ← add_assoc]
    rfl
  constructor
  · rintro ⟨hin, hraises⟩
    -- the first wait, and those of the rest, which start later by its duration
    rw [hwaits, forall_split_cons] at hin
    refine ⟨fun hnow => hin.1 (by simpa using hnow), ⟨fun pre w post hl hnow => ?_, fun hraise => ?_⟩⟩
    · grind
    · have := hraises hraise
      rw [GraphRun.total_cons] at this
      linarith
  · rintro ⟨hhead, ⟨hin, hraises⟩⟩
    refine ⟨?_, fun hraise => ?_⟩
    · rw [hwaits, forall_split_cons]
      refine ⟨fun hnow => hhead (by simpa using hnow), fun pre w post hl hnow => ?_⟩
      grind
    · have := hraises hraise
      rw [GraphRun.total_cons]
      linarith

theorem soundFrom_of_le {g : GraphRun β} (hnow : deadline ≤ now + tickerSecs)
    (htotal : deadline ≤ now + g.total) : SoundFrom deadline now g where
  inTime := by
    intro l w r _ hlt
    have hl := elapsed_nonneg l
    linarith
  raises := fun _ => htotal

inductive Follows (deadline now : ℚ) (g : GraphRun β) (it : Iteration β) : Prop where
  | whole (hit : it = ⟨g.updates.map some, .returned .exhausted⟩) (herror : g.last.value = none)
      (htotal : now + g.total ≤ deadline)
  | late (hit : it.ending = .raised .timeout) (htotal : deadline ≤ now + g.total)
  | raised (e : GraphError) (hit : it.ending = .raised e) (herror : g.last.value = some e)
      (htotal : now + g.total ≤ deadline)

theorem Follows.cons {a : Await (Chunk β)} {chunks : List (Await (Chunk β))}
    {it : Iteration β}
    (h : Follows deadline (now + a.duration) ⟨chunks, last⟩ it) :
    Follows deadline now ⟨a :: chunks, last⟩ (it.after (a.value.entries.map some)) := by
  have htotal := GraphRun.total_cons a chunks last
  cases h with
  | whole hit herror hle =>
    refine .whole ?_ herror (by linarith)
    rw [hit, GraphRun.updates_cons, List.map_append]
    rfl
  | late hit hle => exact .late hit (by linarith)
  | raised e hit herror hle => exact .raised e hit herror (by linarith)

section

variable {deadline now : ℚ} {a : Await (Next (Chunk β) GraphError)}
  {rest : List (Await (Next (Chunk β) GraphError))}

theorem lapse_of_le (h : deadline ≤ now) : (lapse deadline now : Iteration β) = ⟨[], .raised .timeout⟩ :=
  if_pos h

theorem lapse_of_lt (h : now < deadline) :
    (lapse deadline now : Iteration β) = ⟨[none], .returned .aborted⟩ := by
  have hremaining : ¬ deadline - now ≤ 0 := by linarith
  rw [lapse, if_neg (not_le.mpr h), resume, if_neg hremaining]
  rfl

theorem iterNodes_of_le (h : deadline ≤ now) :
    iterNodes deadline (a :: rest) now = ⟨[], .raised .timeout⟩ := by
  rw [iterNodes, if_pos (by linarith)]

theorem iterNodes_of_not_inTime (h : now < deadline)
    (hin : ¬ a.InTime (min tickerSecs (deadline - now))) :
    iterNodes deadline (a :: rest) now = lapse deadline (now + min tickerSecs (deadline - now)) := by
  have hremaining : ¬ deadline - now ≤ 0 := by linarith
  rw [iterNodes, if_neg hremaining, waitFor, if_neg hin]

theorem iterNodes_of_inTime (h : now < deadline) (hin : a.InTime (min tickerSecs (deadline - now))) :
    iterNodes deadline (a :: rest) now =
      match a.value with
      | .yielded chunk => (iterNodes deadline rest (now + a.duration)).after (chunk.entries.map some)
      | .stopped why => ⟨[], .returned why⟩
      | .raised .timeout => lapse deadline (now + a.duration)
      | .raised e => ⟨[], .raised e⟩ := by
  have hremaining : ¬ deadline - now ≤ 0 := by linarith
  rw [iterNodes, if_neg hremaining, waitFor, if_pos hin]
  grind

end

theorem iterNodes_first (deadline now : ℚ) (a : Await (Next (Chunk β) GraphError))
    (rest : List (Await (Next (Chunk β) GraphError))) :
    (deadline ≤ now + tickerSecs ∧ deadline ≤ now + a.duration ∧
      iterNodes deadline (a :: rest) now = ⟨[], .raised .timeout⟩) ∨
    (now + tickerSecs < deadline ∧ ¬ a.InTime tickerSecs ∧
      iterNodes deadline (a :: rest) now = ⟨[none], .returned .aborted⟩) ∨
    (now < deadline ∧ a.InTime (min tickerSecs (deadline - now))) := by
  have hticker : 0 ≤ tickerSecs := by decide
  have hduration := a.nonneg
  rcases le_or_gt deadline now with hlate | hnow
  · exact Or.inl ⟨by linarith, by linarith, iterNodes_of_le hlate⟩
  · by_cases hin : a.InTime (min tickerSecs (deadline - now))
    · grind
    · have hcut : iterNodes deadline (a :: rest) now = _ := iterNodes_of_not_inTime hnow hin
      rcases le_or_gt (deadline - now) tickerSecs with hremaining | hremaining
      · -- the timer is due at the deadline
        rw [min_eq_right hremaining] at hcut hin
        have hle := Await.le_of_not_inTime hin
        rw [lapse_of_le (by linarith)] at hcut
        grind
      · rw [min_eq_left hremaining.le] at hcut hin
        rw [lapse_of_lt (by linarith)] at hcut
        grind

def Told (deadline now : ℚ) (g : GraphRun β) : Prop :=
  SoundFrom deadline now g ∧ Follows deadline now g (iterNodes deadline g.waits now) ∨
    ¬ SoundFrom deadline now g ∧ (iterNodes deadline g.waits now).ending = .returned .aborted

variable {g : GraphRun β}

theorem told_or_inTime (deadline now : ℚ) {a : Await (Next (Chunk β) GraphError)}
    {rest : List (Await (Next (Chunk β) GraphError))} (hwaits : g.waits = a :: rest) :
    Told deadline now g ∨ (now < deadline ∧ a.InTime (min tickerSecs (deadline - now))) := by
  have htotal : g.total = a.duration + elapsed rest := by
    rw [GraphRun.total, hwaits, elapsed_cons]
  have hrest := elapsed_nonneg rest
  rw [Told, hwaits]
  rcases iterNodes_first deadline now a rest with ⟨hnow, hduration, hit⟩ | ⟨hnow, hin, hit⟩ | hin
  · have hle : deadline ≤ now + g.total := by linarith
    exact Or.inl (Or.inl ⟨soundFrom_of_le hnow hle, .late (congrArg Iteration.ending hit) hle⟩)
  · refine Or.inl (Or.inr ⟨fun h => hin ?_, congrArg Iteration.ending hit⟩)
    exact h.inTime [] a rest hwaits (by simpa using hnow)
  · exact Or.inr hin

variable {now : ℚ}

theorem told_last (hnow : now < deadline)
    (hin : last.InTime (min tickerSecs (deadline - now))) :
    Told deadline now (⟨[], last⟩ : GraphRun β) := by
  have hfirst : last.InTime tickerSecs := hin.mono (min_le_left _ _)
  have hle : now + last.duration ≤ deadline := by
    have hd := (hin.mono (min_le_right _ _)).le
    linarith
  have htotal : GraphRun.total (⟨[], last⟩ : GraphRun β) = last.duration := GraphRun.total_nil last
  have hit : iterNodes deadline (GraphRun.waits (⟨[], last⟩ : GraphRun β)) now = _ :=
    iterNodes_of_inTime hnow hin
  rw [Told, soundFrom_nil, hit]
  obtain ⟨duration, nonneg, first, value⟩ := last
  cases value with
  | none =>
    -- nothing is left: the graph has no updates from here on
    refine Or.inl ⟨⟨fun _ => hfirst, fun h => nomatch h⟩, .whole rfl rfl ?_⟩
    linarith
  | some e =>
    cases e with
    | timeout =>
      show _ ∧ Follows deadline now _ (lapse deadline (now + duration)) ∨
        _ ∧ (lapse deadline (now + duration) : Iteration β).ending = _
      rcases le_or_gt deadline (now + duration) with hlate | hearly
      · rw [lapse_of_le hlate]
        exact Or.inl ⟨⟨fun _ => hfirst, fun _ => hlate⟩, .late rfl (by linarith)⟩
      · rw [lapse_of_lt hearly]
        grind
    | value msg =>
      exact Or.inl ⟨⟨fun _ => hfirst, fun h => nomatch h⟩, .raised _ rfl rfl (by linarith)⟩
    | other msg =>
      exact Or.inl ⟨⟨fun _ => hfirst, fun h => nomatch h⟩, .raised _ rfl rfl (by linarith)⟩

theorem Told.cons {a : Await (Chunk β)} {chunks : List (Await (Chunk β))} (hnow : now < deadline)
    (hin : a.InTime (min tickerSecs (deadline - now)))
    (h : Told deadline (now + a.duration) ⟨chunks, last⟩) : Told deadline now ⟨a :: chunks, last⟩ := by
  have hit : iterNodes deadline (GraphRun.waits ⟨a :: chunks, last⟩) now = (iterNodes deadline
      (GraphRun.waits ⟨chunks, last⟩) (now + a.duration)).after (a.value.entries.map some) :=
    iterNodes_of_inTime hnow hin
  have hfirst : a.InTime tickerSecs := hin.mono (min_le_left _ _)
  rw [Told, hit, soundFrom_cons]
  rcases h with ⟨hsound, hfollows⟩ | ⟨hnot, hending⟩
  · exact Or.inl ⟨⟨fun _ => hfirst, hsound⟩, hfollows.cons⟩
  · exact Or.inr ⟨fun h => hnot h.2, hending⟩

/-- **What the loop does**, for every graph, deadline and time. -/
theorem told (deadline now : ℚ) (g : GraphRun β) : Told deadline now g := by
  obtain ⟨chunks, last⟩ := g
  -- the run is the same from each of its chunks on
  induction chunks generalizing now with
  | nil =>
    rcases told_or_inTime deadline now (show GraphRun.waits (⟨[], last⟩ : GraphRun β) = _ from rfl) with
      h | ⟨hnow, hin⟩
    · exact h
    · exact told_last hnow hin
  | cons a chunks ih =>
    rcases told_or_inTime deadline now (show GraphRun.waits ⟨a :: chunks, last⟩ = _ from rfl) with
      h | ⟨hnow, hin⟩
    · exact h
    · exact Told.cons hnow hin (ih (now + a.duration))

/-! ### Which graphs are reported as they are -/

theorem finalState_eq (items : List (Option (String × Update β))) :
    finalState items = Dict.empty.update (items.flatMap itemFields) := by
  suffices hfold : ∀ d : Dict β, items.foldl (fun state item => state.update (itemFields item)) d =
      d.update (items.flatMap itemFields) from hfold Dict.empty
  induction items with
  | nil => exact fun d => rfl
  | cons item items ih =>
    intro d
    rw [List.foldl_cons, ih, List.flatMap_cons, Dict.update_append]

theorem get_finalState (updates : List (String × Update β)) (k : String) :
    (finalState (updates.map some)).get k = lastValue updates k := by
  rw [finalState_eq, Dict.get_update, Dict.get_empty, Option.or_none, List.flatMap_map]
  rfl

theorem reported_of_whole {it : Iteration β}
    (hit : it = ⟨g.updates.map some, .returned .exhausted⟩) : Reported g (graphEvents it) := by
  subst hit
  have hitems : (g.updates.map some).map itemEvent = g.updates.map fun u => .progress u.1 u.2 := by
    rw [List.map_map]
    rfl
  refine ⟨finalState (g.updates.map some), ?_, ?_, get_finalState g.updates⟩
  · -- none of the events is a tick
    rw [List.filter_eq_self.mpr]
    · rw [graphEvents, hitems]
      rfl
    · intro ev hev
      rw [graphEvents, hitems] at hev
      rcases List.mem_append.mp hev with hev | hev
      · obtain ⟨u, -, rfl⟩ := List.mem_map.mp hev
        rfl
      · rw [List.mem_singleton.mp hev]
        rfl
  · exact List.getLast?_concat

theorem getLast?_graphEvents (it : Iteration β) : (graphEvents it).getLast? = some (endEvent it) :=
  List.getLast?_concat

theorem not_completed_of_raised {it : Iteration β} {e : GraphError} (hit : it.ending = .raised e)
    (state : Dict β) : .completed state ∉ graphEvents it := by
  intro hmem
  rcases List.mem_append.mp hmem with hmem | hmem
  · obtain ⟨item, -, hitem⟩ := List.mem_map.mp hmem
    cases item <;> exact nomatch hitem
  · have hend := List.mem_singleton.mp hmem
    rw [endEvent, hit] at hend
    cases e <;> exact nomatch hend

theorem Follows.honest {timeoutSeconds : ℚ}
    (h : Follows (now + timeoutSeconds) now g (iterNodes (now + timeoutSeconds) g.waits now)) :
    Honest g timeoutSeconds now (graphEvents (iterNodes (now + timeoutSeconds) g.waits now)) := by
  cases h with
  | whole hit herror htotal =>
    refine ⟨fun _ _ => reported_of_whole hit, fun hlate => ?_, fun state _ => ⟨?_, reported_of_whole hit⟩⟩
    · grind
    · exact congrArg Iteration.ending hit
  | late hit htotal =>
    refine ⟨fun hearly _ => ?_, fun _ => ?_, fun state hmem => ?_⟩
    · grind
    · rw [getLast?_graphEvents, endEvent, hit]
    · exact absurd hmem (not_completed_of_raised hit state)
  | raised e hit herror htotal =>
    refine ⟨fun _ hnone => ?_, fun hlate => ?_, fun state hmem => ?_⟩
    · grind
    · grind
    · exact absurd hmem (not_completed_of_raised hit state)

theorem completed_honest_iff {ι : Type} (loads : List UInt8 → Except String ι) {inputPayload : List UInt8}
    {inputState : ι} (hloads : loads inputPayload = .ok inputState) (graph : ι → GraphRun β)
    (timeoutSeconds now : ℚ) :
    Honest (graph inputState) timeoutSeconds now (stream loads graph inputPayload timeoutSeconds now) ↔
      SoundFrom (now + timeoutSeconds) now (graph inputState) := by
  rw [stream, hloads]
  show Honest _ _ _ (graphEvents _) ↔ _
  rcases told (now + timeoutSeconds) now (graph inputState) with
    ⟨hsound, hfollows⟩ | ⟨hnot, hending⟩
  · exact ⟨fun _ => hsound, fun _ => hfollows.honest⟩
  · refine ⟨fun h => ?_, fun h => absurd h hnot⟩
    -- the stream is completed although the graph was not run to its end
    have hmem : .completed (finalState (iterNodes (now + timeoutSeconds)
        (graph inputState).waits now).items) ∈
          graphEvents (iterNodes (now + timeoutSeconds) (graph inputState).waits now) := by
      rw [graphEvents, endEvent, hending]
      simp
    have hran := (h.whole _ hmem).1
    rw [RanToEnd, hending] at hran
    exact nomatch hran

def draftAndReview (duration : ℚ) (h : 0 ≤ duration) : GraphRun String where
  chunks := [
    ⟨1, by decide, true, .ofItems [("draft", .dict (.ofItems [("text", "v1")]))]⟩,
    ⟨duration, h, true, .ofItems [("review", .dict (.ofItems [("approved", "no")]))]⟩]
  last := ⟨0, by decide, true, none⟩

theorem completed_honest_review :
    Honest (draftAndReview 1 (by decide)) 60 0
      (stream (fun _ => .ok ()) (fun _ => draftAndReview 1 (by decide)) [] 60 0) :=
  (completed_honest_iff (fun _ => .ok ()) rfl (fun _ => draftAndReview 1 (by decide)) 60 0).mpr
    (soundFrom_cons.mpr ⟨fun _ => by decide +kernel, soundFrom_cons.mpr ⟨fun _ => by decide +kernel,
      soundFrom_nil.mpr ⟨fun _ => by decide +kernel, fun h => nomatch h⟩⟩⟩)

theorem slow_node_dropped :
    stream (fun _ => .ok ()) (fun _ => draftAndReview 3 (by decide)) [] 60 0 =
        [.progress "draft" (.dict (.ofItems [("text", "v1")])), .ticker,
          .completed (.ofItems [("text", "v1")])] ∧
      (draftAndReview 3 (by decide)).total = 4 ∧
      ¬ Honest (draftAndReview 3 (by decide)) 60 0
        (stream (fun _ => .ok ()) (fun _ => draftAndReview 3 (by decide)) [] 60 0) := by
  have hstream : stream (fun _ => .ok ()) (fun _ => draftAndReview 3 (by decide)) [] 60 0 =
      [.progress "draft" (.dict (.ofItems [("text", "v1")])), .ticker,
        .completed (.ofItems [("text", "v1")])] := by decide +kernel
  refine ⟨hstream, by decide +kernel, fun h => ?_⟩
  obtain ⟨state, hevents, -⟩ := h.completes (by decide +kernel) rfl
  rw [hstream] at hevents
  -- without the tick there are two events, for two updates and the end
  have hlength := congrArg List.length hevents
  rw [List.length_append, List.length_map, List.length_singleton] at hlength
  exact absurd hlength (by decide +kernel)

end Zynax.Adapter.LangGraph
