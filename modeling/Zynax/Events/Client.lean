import Zynax.Events.Glob
import Zynax.Golang.Encoding
import Zynax.Golang.Json
import Zynax.Nats.JetStream
import Zynax.Transition.Runs

namespace Zynax.Events

open Golang Nats

/-!
# Publishing and subscribing

The events client: `Publish` and `Subscribe` make sure that the stream of an event type exists, and
take a stream of that name for the right one.

* `creator` — the type a stream was created for, read off the calls made so far.
-/

/-! ### The calls -/

structure CloudEvent where
  id : String := ""
  source : String := ""
  specVersion : String := "1.0"
  type : String
  dataContentType : String := ""
  data : List UInt8 := []
  workflowID : String := ""
  runID : String := ""
  nameSpace : String := ""
  capabilityName : String := ""

def omitEmpty (key value : String) : List (String × Json) :=
  if value = "" then [] else [(key, .str value)]

/-- The JSON of a published event. -/
def cloudEventEnvelope (e : CloudEvent) : Json :=
  .obj ([("specversion", .str e.specVersion), ("id", .str e.id), ("source", .str e.source),
      ("type", .str e.type)] ++
    omitEmpty "datacontenttype" e.dataContentType ++ omitEmpty "workflowid" e.workflowID ++
    omitEmpty "runid" e.runID ++ omitEmpty "namespace" e.nameSpace ++
    omitEmpty "capabilityname" e.capabilityName ++
    omitEmpty "data" (base64Encode e.data))

def eventMsg (e : CloudEvent) : Msg where
  subject := e.type
  header := GoMap.ofPairs [("Content-Type", ["application/cloudevents+json"]), ("ce-id", [e.id]),
    ("ce-type", [e.type]), ("ce-source", [e.source])]
  data := stringBytes (cloudEventEnvelope e).marshal

inductive EnsureError where
  | overlap | unavailable
  deriving DecidableEq

def ensure (cfg : StreamConfig) (d : Delivery) (s : Server) : Except EnsureError Unit × Server :=
  let r := request d (fun s => (addStream cfg s).map fun s' => ((), s')) s
  (match r.1 with
    | .ok () => .ok ()
    | .error (some .nameInUse) => .ok ()
    | .error (some .overlap) => .error .overlap
    | .error none => .error .unavailable, r.2)

def sourceStream (u : CaseTables) (eventType : String) : StreamConfig :=
  ⟨streamName u eventType, streamSubjects eventType⟩

def dlqStream (sourceStreamName eventType : String) : StreamConfig :=
  ⟨dlqStreamName sourceStreamName, [dlqDeliverSubject eventType]⟩

def ensureStream (u : CaseTables) (eventType : String) (d : Delivery) (s : Server) :
    Except EnsureError Unit × Server :=
  ensure (sourceStream u eventType) d s

def ensureDLQStream (sourceStreamName eventType : String) (d : Delivery) (s : Server) :
    Except EnsureError Unit × Server :=
  ensure (dlqStream sourceStreamName eventType) d s

inductive ClientError where
  | context
  | reservedPrefix (eventType : String)
  | ensureStream (err : EnsureError)
  | ensureDLQStream (err : EnsureError)
  | publishMsg
  deriving DecidableEq

structure CallEnv where
  cancelled : Bool := false
  first : Delivery := .replied
  second : Delivery := .replied
  deriving DecidableEq

/-- `Publish`: ensures the stream, then publishes. -/
def publishEvent (u : CaseTables) (env : CallEnv) (e : CloudEvent) (s : Server) :
    Except ClientError (String × Nat) × Server :=
  if env.cancelled then (.error .context, s)
  else if hasPrefix e.type reservedDLQPrefix then (.error (.reservedPrefix e.type), s)
  else
    let r := ensureStream u e.type env.first s
    match r.1 with
    | .error err => (.error (.ensureStream err), r.2)
    | .ok () =>
      let p := request env.second (publishMsg (eventMsg e)) r.2
      match p.1 with
      | .error _ => (.error .publishMsg, p.2)
      | .ok ack => (.ok (ack.stream, ack.sequence), p.2)

def durableConsumerName (subscriberID : String) : String :=
  let name := subscriberID.toList.map fun c => if c.isAlphanum || c = '-' then c else '_'
  String.ofList (name.take 200)

structure SubscribeRequest where
  subscriberID : String := ""
  typePattern : String

structure Binding where
  stream : String
  filter : String
  durable : String
  deriving DecidableEq

/-- `Subscribe` up to the binding of its consumer. -/
def subscribe (u : CaseTables) (env : CallEnv) (req : SubscribeRequest) (s : Server) :
    Except ClientError Binding × Server :=
  if env.cancelled then (.error .context, s)
  else
    let streamSubject := streamSubjectFromPattern req.typePattern
    let r := ensureStream u streamSubject env.first s
    match r.1 with
    | .error err => (.error (.ensureStream err), r.2)
    | .ok () =>
      let d := ensureDLQStream (streamName u streamSubject) streamSubject env.second r.2
      match d.1 with
      | .error err => (.error (.ensureDLQStream err), d.2)
      | .ok () =>
        (.ok ⟨streamName u streamSubject, subjectFilter streamSubject,
          durableConsumerName req.subscriberID⟩, d.2)

inductive Call where
  | publish (env : CallEnv) (e : CloudEvent)
  | subscribe (env : CallEnv) (req : SubscribeRequest)

def Call.env : Call → CallEnv
  | .publish env _ => env
  | .subscribe env _ => env

def Call.target : Call → Option String
  | .publish env e =>
    if env.cancelled || hasPrefix e.type reservedDLQPrefix then none else some e.type
  | .subscribe env req => if env.cancelled then none else some (streamSubjectFromPattern req.typePattern)

def serve (u : CaseTables) (s : Server) : Call → Server
  | .publish env e => (publishEvent u env e s).2
  | .subscribe env req => (subscribe u env req s).2

/-! ### Ensuring a stream -/

variable {u : CaseTables}

theorem ensure_cases (cfg : StreamConfig) (d : Delivery) (s : Server) :
    ((d = .requestLost ∨ (s.find cfg.name).isSome = true) ∧
        ensure cfg d s = (if d = .replied then .ok () else .error .unavailable, s)) ∨
      (d ≠ .requestLost ∧ (s.find cfg.name).isSome = false ∧
        ((s.any fun st => overlapping cfg.subjects st.config.subjects) = true ∧
            ensure cfg d s = (.error (if d = .replied then .overlap else .unavailable), s) ∨
          ensure cfg d s =
            (if d = .replied then .ok () else .error .unavailable, s ++ [{ config := cfg }]))) := by
  by_cases hd : d = .requestLost
  · subst hd
    exact Or.inl ⟨Or.inl rfl, rfl⟩
  have hreply : d = .replied ∨ d = .replyLost := by
    cases d with
    | replied => exact Or.inl rfl
    | requestLost => exact absurd rfl hd
    | replyLost => exact Or.inr rfl
  cases hname : (s.find cfg.name).isSome with
  | true =>
    refine Or.inl ⟨Or.inr rfl, ?_⟩
    have hadd : addStream cfg s = .error .nameInUse := by simp [addStream, hname]
    rcases hreply with rfl | rfl <;> simp [ensure, request, hadd, Except.map]
  | false =>
    refine Or.inr ⟨hd, rfl, ?_⟩
    cases hover : s.any fun st => overlapping cfg.subjects st.config.subjects with
    | true =>
      have hadd : addStream cfg s = .error .overlap := by simp only [addStream, hname, hover]; simp
      refine Or.inl ⟨rfl, ?_⟩
      rcases hreply with rfl | rfl <;> simp [ensure, request, hadd, Except.map]
    | false =>
      have hadd : addStream cfg s = .ok (s ++ [{ config := cfg }]) := by
        simp only [addStream, hname, hover]; simp
      refine Or.inr ?_
      rcases hreply with rfl | rfl <;> simp [ensure, request, hadd, Except.map]

theorem ensure_snd (cfg : StreamConfig) (d : Delivery) (s : Server) :
    (ensure cfg d s).2 = s ∨ addStream cfg s = .ok (ensure cfg d s).2 := by
  refine request_rule (P := fun s' => s' = s ∨ addStream cfg s = .ok s') (Or.inl rfl) fun a s' hop => ?_
  obtain ⟨s₁, hadd, heq⟩ := map_eq_ok.mp hop
  grind

def configs (s : Server) : List StreamConfig := s.map Stream.config

theorem find_configs (s : Server) (name : String) :
    (s.find name).map Stream.config = (configs s).find? (fun cfg => cfg.name == name) := by
  rw [configs, List.find?_map]
  rfl

theorem configs_publishMsg (m : Msg) (d : Delivery) (s : Server) :
    configs (request d (publishMsg m) s).2 = configs s :=
  request_rule (P := fun s' => configs s' = configs s) rfl fun _ _ hop =>
    map_config_publish (publishMsg_eq_ok hop)

theorem configs_ensureDLQStream (name subject : String) (d : Delivery) (s : Server) :
    configs (ensureDLQStream name subject d s).2 = configs s ∨
      configs (ensureDLQStream name subject d s).2 = configs s ++ [dlqStream name subject] := by
  rw [ensureDLQStream]
  rcases ensure_snd (dlqStream name subject) d s with h | h
  · exact Or.inl (by rw [h])
  · exact Or.inr (by rw [(mem_addStream h).1, configs, List.map_append]; rfl)

theorem configs_serve (s : Server) (c : Call) :
    (c.target = none ∧ serve u s c = s) ∨
      ∃ t, c.target = some t ∧
        (configs (serve u s c) = configs (ensureStream u t c.env.first s).2 ∨
          configs (serve u s c) =
            configs (ensureStream u t c.env.first s).2 ++ [dlqStream (streamName u t) t]) := by
  cases c with
  | publish env e =>
    rw [Call.target, serve, publishEvent]
    by_cases hcan : env.cancelled = true
    · exact Or.inl (by simp [hcan])
    by_cases hres : hasPrefix e.type reservedDLQPrefix = true
    · grind
    refine Or.inr ⟨e.type, by simp [hcan, hres], Or.inl ?_⟩
    rw [if_neg hcan, if_neg hres]
    dsimp only [Call.env]
    split
    · rfl
    · split <;> exact configs_publishMsg _ _ _
  | subscribe env req =>
    rw [Call.target, serve, subscribe]
    by_cases hcan : env.cancelled = true
    · exact Or.inl (by simp [hcan])
    refine Or.inr ⟨_, by rw [if_neg hcan], ?_⟩
    rw [if_neg hcan]
    dsimp only [Call.env]
    split
    · simp
    · split <;> exact configs_ensureDLQStream _ _ _ _

/-! ### The streams of a run -/

variable {c : Call} {t : String} {types : List String} {cfgs : List StreamConfig} {s : Server}
  {calls : List Call}

def Call.WellFormed : Call → Prop
  | .publish _ e => Concrete e.type
  | .subscribe _ req => ∀ seg ∈ tokens req.typePattern, seg ≠ ">"

theorem Call.WellFormed.concrete (hc : c.WellFormed) (ht : c.target = some t) :
    Concrete t := by
  cases c with
  | publish env e =>
    rw [Call.target] at ht
    split at ht
    · exact absurd ht (by simp)
    · rw [← Option.some.inj ht]
      exact hc
  | subscribe env req =>
    rw [Call.target] at ht
    split at ht
    · exact absurd ht (by simp)
    · rw [← Option.some.inj ht]
      intro q hq
      rw [tokens_streamSubjectFromPattern, concreteSegments_eq, List.mem_append] at hq
      rcases hq with hq | hq
      · have hlit := List.mem_takeWhile_imp hq
        have hmem : q ∈ tokens req.typePattern := (List.takeWhile_prefix _).mem hq
        refine ⟨?_, hc q hmem⟩
        rintro rfl
        exact absurd hlit (by decide)
      · split at hq
        · rw [List.mem_singleton.mp hq]
          decide
        · exact absurd hq (by simp)

structure Call.Unreserved (u : CaseTables) (c : Call) : Prop where
  subject : ∀ t, c.target = some t → ¬Reserved t
  name : ∀ t, c.target = some t → hasPrefix (streamName u t) dlqStreamPrefix = false

def asked (calls : List Call) : List String :=
  calls.filterMap fun c => if c.env.first = .requestLost then none else c.target

def creator (u : CaseTables) (types : List String) (name : String) : Option String :=
  types.find? (fun t => streamName u t == name)

theorem creator_append (types types' : List String) (name : String) :
    creator u (types ++ types') name = (creator u types name).or (creator u types' name) :=
  List.find?_append

theorem creator_singleton (t name : String) :
    creator u [t] name = if streamName u t = name then some t else none := by
  by_cases h : streamName u t = name <;> simp [creator, h]

structure Tracks (u : CaseTables) (types : List String) (cfgs : List StreamConfig) : Prop where
  streams : ∀ cfg ∈ cfgs, ∃ t, Concrete t ∧
    (cfg = sourceStream u t ∨ cfg = dlqStream (streamName u t) t)
  source : ∀ name, hasPrefix name dlqStreamPrefix = false →
    (cfgs.find? (fun cfg => cfg.name == name)).map StreamConfig.subjects =
      (creator u types name).map streamSubjects

theorem tracks_nil : Tracks u [] [] := ⟨by simp, fun _ _ => rfl⟩

theorem Tracks.add_dlq (h : Tracks u types cfgs)
    (ht : Concrete t) : Tracks u types (cfgs ++ [dlqStream (streamName u t) t]) := by
  refine ⟨fun cfg hcfg => ?_, fun name hname => ?_⟩
  · rcases List.mem_append.mp hcfg with hcfg | hcfg
    · exact h.streams cfg hcfg
    · grind
  · have hne : ((dlqStream (streamName u t) t).name == name) = false := by
      rw [beq_eq_false_iff_ne]
      rintro rfl
      rw [show (dlqStream (streamName u t) t).name = dlqStreamPrefix ++ streamName u t from rfl,
        hasPrefix_append] at hname
      exact absurd hname (by simp)
    rw [List.find?_append, List.find?_cons, hne, List.find?_nil, Option.or_none]
    exact h.source name hname

theorem Tracks.again (h : Tracks u types cfgs)
    (hname : hasPrefix (streamName u t) dlqStreamPrefix = false)
    (hthere : (cfgs.find? (fun cfg => cfg.name == streamName u t)).isSome = true) :
    Tracks u (types ++ [t]) cfgs := by
  refine ⟨h.streams, fun name hn => ?_⟩
  rw [h.source name hn, creator_append, creator_singleton]
  by_cases heq : streamName u t = name
  · subst heq
    have hsome := congrArg Option.isSome (h.source _ hname)
    rw [Option.isSome_map, Option.isSome_map, hthere] at hsome
    obtain ⟨f, hf⟩ := Option.isSome_iff_exists.mp hsome.symm
    rw [hf, Option.some_or]
  · grind

theorem Tracks.add_source (h : Tracks u types cfgs)
    (ht : Concrete t)
    (hnew : cfgs.find? (fun cfg => cfg.name == streamName u t) = none) :
    Tracks u (types ++ [t]) (cfgs ++ [sourceStream u t]) := by
  refine ⟨fun cfg hcfg => ?_, fun name hn => ?_⟩
  · rcases List.mem_append.mp hcfg with hcfg | hcfg
    · exact h.streams cfg hcfg
    · grind
  · have hold := h.source name hn
    rw [creator_append, creator_singleton, List.find?_append, List.find?_cons]
    by_cases heq : streamName u t = name
    · subst heq
      rw [hnew, Option.map_none, eq_comm, Option.map_eq_none_iff] at hold
      rw [hnew, hold, Option.none_or, Option.none_or, if_pos rfl,
        show ((sourceStream u t).name == streamName u t) = true from beq_self_eq_true _]
      rfl
    · rw [show ((sourceStream u t).name == name) = false from beq_eq_false_iff_ne.mpr heq,
        List.find?_nil, if_neg heq, Option.or_none, Option.or_none]
      exact hold

theorem Tracks.not_overlapping (h : Tracks u types (configs s))
    (ht : Concrete t) (hres : ¬Reserved t)
    (hnew : s.find (streamName u t) = none) :
    (s.any fun st => overlapping (streamSubjects t) st.config.subjects) = false := by
  rw [List.any_eq_false]
  intro st hst hover
  obtain ⟨f, hf, f', hf', ts, hts, hts'⟩ := overlapping_iff.mp hover
  have htake := take_of_matchTokens ht hf hts
  obtain ⟨t', ht', hcfg | hcfg⟩ := h.streams st.config (List.mem_map.mpr ⟨st, hst, rfl⟩)
  · -- the stream of another type would have the same prefix, hence the same name
    rw [hcfg] at hf'
    have hname : streamName u t = streamName u t' :=
      streamName_congr (streamPrefix_eq_iff.mpr (htake.symm.trans (take_of_matchTokens ht' hf' hts')))
    have hfind := Server.find_eq_none.mp hnew st hst
    rw [Stream.name, hcfg] at hfind
    exact hfind hname.symm
  · -- the subject of a dead-letter stream would be captured
    rw [hcfg] at hf'
    obtain rfl := List.mem_singleton.mp hf'
    rw [matchTokens_literal (literal_dlqDeliverSubject ht')] at hts'
    have hcap : matchesAny (streamSubjects t) (dlqDeliverSubject t') = false :=
      not_captured_dlqDeliverSubject ht hres
    rw [matchesAny, List.any_eq_false] at hcap
    exact hcap f hf (by rw [matchesSubject, ← hts']; exact hts)

theorem Tracks.ensureStream (h : Tracks u types (configs s))
    (ht : Concrete t) (hres : ¬Reserved t)
    (hname : hasPrefix (streamName u t) dlqStreamPrefix = false) (d : Delivery) :
    (Events.ensureStream u t d s).1 = (if d = .replied then .ok () else .error .unavailable) ∧
      Tracks u (types ++ if d = .requestLost then [] else [t])
        (configs (Events.ensureStream u t d s).2) := by
  have hfind := find_configs s (streamName u t)
  rw [Events.ensureStream]
  rcases ensure_cases (sourceStream u t) d s with ⟨hd, hens⟩ | ⟨hd, hnew, ⟨hover, -⟩ | hens⟩
  · rw [hens]
    refine ⟨rfl, ?_⟩
    by_cases hlost : d = .requestLost
    · grind
    · rw [if_neg hlost]
      have hthere := hd.resolve_left hlost
      refine h.again hname ?_
      rw [← hfind, Option.isSome_map]
      exact hthere
  · have hnone := Option.isNone_iff_eq_none.mp (Option.isSome_eq_false_iff.mp hnew)
    exact absurd hover (by
      rw [show (sourceStream u t).subjects = streamSubjects t from rfl,
        h.not_overlapping ht hres hnone]
      simp)
  · have hnone := Option.isNone_iff_eq_none.mp (Option.isSome_eq_false_iff.mp hnew)
    rw [hens, if_neg hd, configs, List.map_append]
    refine ⟨rfl, h.add_source ht ?_⟩
    rw [← hfind, show s.find (streamName u t) = none from hnone, Option.map_none]

/-- **A call keeps track of the streams.** -/
theorem Tracks.serve (h : Tracks u (asked calls) (configs s))
    (hc : c.WellFormed) (hun : c.Unreserved u) :
    Tracks u (asked (calls ++ [c])) (configs (Events.serve u s c)) := by
  rw [asked, List.filterMap_append, ← asked]
  rcases configs_serve (u := u) s c with ⟨hnone, hs⟩ | ⟨t, ht, hcfg⟩
  · grind
  · obtain ⟨-, hnext⟩ := h.ensureStream (hc.concrete ht) (hun.subject t ht) (hun.name t ht) c.env.first
    have hasked : List.filterMap (fun c => if c.env.first = .requestLost then none else c.target) [c] =
        if c.env.first = .requestLost then [] else [t] := by
      grind
    rw [hasked]
    rcases hcfg with hcfg | hcfg
    · grind
    · rw [hcfg]
      exact hnext.add_dlq (hc.concrete ht)

/-- **A run keeps track of the streams.** -/
theorem tracks_run (hwf : ∀ c ∈ calls, c.WellFormed)
    (hun : ∀ c ∈ calls, c.Unreserved u) :
    Tracks u (asked calls) (configs (Transition.run (serve u) [] calls)) := by
  induction calls using List.reverseRecOn with
  | nil => exact tracks_nil
  | append_singleton calls c ih =>
    simp only [List.mem_append, List.mem_singleton, or_imp, forall_and, forall_eq] at hwf hun
    rw [Transition.run_append]
    exact (ih hwf.1 hun.1).serve hwf.2 hun.2

/-! ### Captured types -/

def Captured (u : CaseTables) (s : Server) (t : String) : Prop :=
  ∃ st, s.find (streamName u t) = some st ∧ st.captures t = true

def Covers (f t : String) : Prop :=
  t = f ∨ (streamSubjectDepth < (tokens f).length ∧ streamPrefix t = streamPrefix f)

theorem Tracks.captured_iff (h : Tracks u types (configs s))
    (htypes : ∀ f ∈ types, Concrete f) (hname : hasPrefix (streamName u t) dlqStreamPrefix = false) :
    Captured u s t ↔ ∃ f, creator u types (streamName u t) = some f ∧ Covers f t := by
  have hsrc := h.source _ hname
  rw [← find_configs, Option.map_map] at hsrc
  unfold Captured Covers
  cases hc : creator u types (streamName u t) with
  | none =>
    grind
  | some f =>
    rw [hc, Option.map_some, Option.map_eq_some_iff] at hsrc
    obtain ⟨st, hst, hsub⟩ := hsrc
    have hf : Concrete f := htypes f (List.mem_of_find?_eq_some hc)
    have hcap : st.captures t = matchesAny (streamSubjects f) t := by
      rw [Stream.captures, ← hsub]
      rfl
    simp only [hst, Option.some.injEq, exists_eq_left', hcap, matchesAny_streamSubjects hf]

theorem concrete_of_mem_asked (hwf : ∀ c ∈ calls, c.WellFormed) :
    ∀ f ∈ asked calls, Concrete f := by
  intro f hf
  obtain ⟨c, hc, hcf⟩ := List.mem_filterMap.mp hf
  split at hcf
  · exact absurd hcf (by simp)
  · exact (hwf c hc).concrete hcf

def AlwaysCaptured (u : CaseTables) (calls : List Call) : Prop :=
  ∀ l c r t, calls = l ++ c :: r → c.target = some t →
    (ensureStream u t c.env.first (Transition.run (serve u) [] l)).1 ≠ .error .overlap ∧
      ((ensureStream u t c.env.first (Transition.run (serve u) [] l)).1 = .ok () →
        ∀ r' r'', r = r' ++ r'' → Captured u (Transition.run (serve u) [] (l ++ c :: r')) t)

def FirstCovers (u : CaseTables) (calls : List Call) : Prop :=
  ∀ l c r t, calls = l ++ c :: r → c.target = some t → c.env.first = .replied →
    ∀ f, creator u (asked l ++ [t]) (streamName u t) = some f → Covers f t

theorem exists_creator (types more : List String) (t : String) :
    ∃ f, creator u (types ++ [t]) (streamName u t) = some f ∧
      creator u (types ++ t :: more) (streamName u t) = some f := by
  have hsplit : types ++ t :: more = (types ++ [t]) ++ more := by simp
  have hself : creator u [t] (streamName u t) = some t := by rw [creator_singleton, if_pos rfl]
  rw [hsplit, creator_append (types ++ [t]), creator_append types, hself]
  simp

theorem captured_run_iff {l r : List Call} (hwf : ∀ d ∈ l ++ c :: r, d.WellFormed)
    (hun : ∀ d ∈ l ++ c :: r, d.Unreserved u) (ht : c.target = some t)
    (hreply : c.env.first = .replied) :
    Captured u (Transition.run (serve u) [] (l ++ c :: r)) t ↔
      ∃ f, creator u (asked l ++ [t]) (streamName u t) = some f ∧ Covers f t := by
  rw [(tracks_run hwf hun).captured_iff (concrete_of_mem_asked hwf) ((hun c (by simp)).name t ht)]
  have hasked : asked (l ++ c :: r) = asked l ++ t :: asked r := by
    simp [asked, ht, hreply]
  obtain ⟨f, hf, hf'⟩ := exists_creator (u := u) (asked l) (asked r) t
  rw [hasked, hf, hf']

/-- **Published events are captured** in every run that stays out of the reserved namespace, and of
    the names of dead-letter streams, exactly when the first type of each stream name covers the
    later ones. -/
theorem events_captured_iff (u : CaseTables) (calls : List Call) (hwf : ∀ c ∈ calls, c.WellFormed)
    (hun : ∀ c ∈ calls, c.Unreserved u) : AlwaysCaptured u calls ↔ FirstCovers u calls := by
  -- what ensuring answers
  have hanswer : ∀ l c r t, calls = l ++ c :: r → c.target = some t →
      (ensureStream u t c.env.first (Transition.run (serve u) [] l)).1 =
        if c.env.first = .replied then .ok () else .error .unavailable := by
    intro l c r t hsplit ht
    have hmem : c ∈ calls := by simp [hsplit]
    have hl : ∀ d ∈ l, d ∈ calls := fun d hd => by simp [hsplit, hd]
    exact ((tracks_run (fun d hd => hwf d (hl d hd)) fun d hd => hun d (hl d hd)).ensureStream
      ((hwf c hmem).concrete ht) ((hun c hmem).subject t ht) ((hun c hmem).name t ht) _).1
  refine ⟨fun h l c r t hsplit ht hreply f hf => ?_, fun h l c r t hsplit ht => ?_⟩
  · -- the type is captured at the end of the run, so its creator covers it
    have hcap := (h l c r t hsplit ht).2 (by rw [hanswer l c r t hsplit ht, if_pos hreply]) r [] (by simp)
    rw [hsplit] at hwf hun
    obtain ⟨f', hf', hcov⟩ := (captured_run_iff hwf hun ht hreply).mp hcap
    grind
  · rw [hanswer l c r t hsplit ht]
    by_cases hreply : c.env.first = .replied
    · rw [if_pos hreply]
      refine ⟨by simp, fun _ r' r'' hr => ?_⟩
      have hsub : ∀ d ∈ l ++ c :: r', d ∈ calls := by
        grind
      obtain ⟨f, hf, -⟩ := exists_creator (u := u) (asked l) [] t
      exact (captured_run_iff (fun d hd => hwf d (hsub d hd)) (fun d hd => hun d (hsub d hd)) ht
        hreply).mpr ⟨f, hf, h l c r t hsplit ht hreply f hf⟩
    · grind

theorem firstCovers_of_forall
    (h : ∀ f ∈ asked calls, ∀ t ∈ asked calls, streamName u f = streamName u t → Covers f t) :
    FirstCovers u calls := by
  intro l c r t hsplit ht hreply f hf
  have hasked : asked calls = asked l ++ t :: asked r := by simp [asked, hsplit, ht, hreply]
  have hmem : f ∈ asked l ++ [t] := List.mem_of_find?_eq_some hf
  have hname : streamName u f = streamName u t := by
    have := List.find?_some hf
    exact beq_iff_eq.mp this
  grind

instance (f t : String) : Decidable (Covers f t) := inferInstanceAs (Decidable (_ ∨ _))

instance : (c : Call) → Decidable c.WellFormed
  | .publish _ e => inferInstanceAs (Decidable (Concrete e.type))
  | .subscribe _ req => inferInstanceAs (Decidable (∀ seg ∈ tokens req.typePattern, seg ≠ ">"))

def registryCalls : List Call :=
  [.publish {} { type := "zynax.v1.agent-registry.agent.registered" },
    .subscribe {} { typePattern := "zynax.v1.agent-registry.agent.*" }]

theorem events_captured_registry : AlwaysCaptured asciiTables registryCalls := by
  have hwf : ∀ c ∈ registryCalls, c.WellFormed := by decide +kernel
  have hasked : asked registryCalls = ["zynax.v1.agent-registry.agent.registered",
      "zynax.v1.agent-registry.agent.x"] := by decide +kernel
  have htarget : ∀ t ∈ asked registryCalls,
      ¬Reserved t ∧ hasPrefix (streamName asciiTables t) dlqStreamPrefix = false := by
    rw [hasked]
    decide +kernel
  have hmem : ∀ c ∈ registryCalls, ∀ t, c.target = some t → t ∈ asked registryCalls := by
    intro c hc t ht
    have hreached : ∀ c ∈ registryCalls, c.env.first ≠ .requestLost := by decide
    exact List.mem_filterMap.mpr ⟨c, hc, by rw [if_neg (hreached c hc), ht]⟩
  have hun : ∀ c ∈ registryCalls, c.Unreserved asciiTables := fun c hc =>
    ⟨fun t ht => (htarget t (hmem c hc t ht)).1, fun t ht => (htarget t (hmem c hc t ht)).2⟩
  have hpairs : ∀ f ∈ asked registryCalls, ∀ t ∈ asked registryCalls, Covers f t := by
    rw [hasked]
    decide +kernel
  exact (events_captured_iff asciiTables registryCalls hwf hun).mpr
    (firstCovers_of_forall fun f hf t ht _ => hpairs f hf t ht)

theorem registered_not_captured :
    ¬AlwaysCaptured asciiTables
        [.publish {} { type := "zynax.v1.agent-registry.agent" },
          .publish {} { type := "zynax.v1.agent-registry.agent.registered" }] ∧
      ¬AlwaysCaptured asciiTables
        [.subscribe {} { typePattern := "zynax.v1.agent-registry.agent.*" },
          .subscribe {} { typePattern := "zynax.dlq.zynax.v1.agent-registry.agent.dead" }] := by
  refine ⟨fun h => ?_, fun h => ?_⟩
  · obtain ⟨st, hst, hcap⟩ := (h [_] _ [] "zynax.v1.agent-registry.agent.registered" rfl
      (by decide +kernel)).2 (by decide +kernel) [] [] rfl
    have hnot : ((Transition.run (serve asciiTables) []
        [.publish {} { type := "zynax.v1.agent-registry.agent" },
          .publish {} { type := "zynax.v1.agent-registry.agent.registered" }]).find
        (streamName asciiTables "zynax.v1.agent-registry.agent.registered")).all
        (fun st => st.captures "zynax.v1.agent-registry.agent.registered" = false) = true := by
      decide +kernel
    rw [show ([_] : List Call) ++ [_] = [_, _] from rfl] at hst
    rw [hst] at hnot
    simp [hcap] at hnot
  · exact (h [_] _ [] "zynax.dlq.zynax.v1.agent-registry.agent.dead" rfl (by decide +kernel)).1
      (by decide +kernel)

end Zynax.Events
