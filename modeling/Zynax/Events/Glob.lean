import Mathlib.Data.List.Forall2
import Mathlib.Data.List.TakeWhile
import Zynax.Events.Naming

namespace Zynax.Events

open Golang Nats

/-!
# Glob subscriptions

A subscription is made with a glob pattern, but binds to the one stream of a concrete subject made
from the pattern.

* `matchGlobSegments`, `matchesGlob` — the patterns: `*` is one segment, `**` any number.
-/

def matchGlobSegments : List String → List String → Bool
  | [], seg => seg.isEmpty
  | p :: rest, seg =>
    if p = "**" then
      -- the rest of the pattern against every suffix, the empty one included
      if rest = [] then true else seg.tails.any (fun suffix => matchGlobSegments rest suffix)
    else
      match seg with
      | [] => false
      | s :: seg => (p = "*" || p = s) && matchGlobSegments rest seg

/-- `*` is one segment, `**` any number. -/
def matchesGlob (pattern eventType : String) : Bool :=
  matchGlobSegments (split pattern '.') (split eventType '.')

def isGlob (p : String) : Bool := p = "*" || p = "**"

def concreteSegments : List String → List String
  | [] => []
  | p :: ps => if isGlob p then ["x"] else p :: concreteSegments ps

/-- A concrete subject for a pattern. -/
def streamSubjectFromPattern (pattern : String) : String :=
  join (concreteSegments (split pattern '.')) '.'

def literalSegments (ps : List String) : List String := ps.takeWhile (fun p => !isGlob p)

/-! ### Splitting a type among the segments of a pattern -/

variable {ts ps : List String}

def Takes (p : String) (part : List String) : Prop :=
  if p = "**" then True else if p = "*" then ∃ s, part = [s] else part = [p]

def SplitsAmong (ps ts : List String) : Prop :=
  ∃ parts : List (List String), parts.flatten = ts ∧ List.Forall₂ Takes ps parts

theorem splitsAmong_nil : SplitsAmong [] ts ↔ ts = [] := by
  constructor
  · rintro ⟨parts, rfl, hparts⟩
    rw [List.forall₂_nil_left_iff.mp hparts]
    rfl
  · rintro rfl
    exact ⟨[], rfl, .nil⟩

theorem splitsAmong_cons {p : String} :
    SplitsAmong (p :: ps) ts ↔ ∃ part rest, ts = part ++ rest ∧ Takes p part ∧ SplitsAmong ps rest := by
  constructor
  · rintro ⟨parts, rfl, hparts⟩
    obtain ⟨part, parts, hp, hrest, rfl⟩ := List.forall₂_cons_left_iff.mp hparts
    exact ⟨part, parts.flatten, List.flatten_cons, hp, parts, rfl, hrest⟩
  · rintro ⟨part, rest, rfl, hp, parts, rfl, hrest⟩
    exact ⟨part :: parts, List.flatten_cons, .cons hp hrest⟩

/-- A last `**` takes whatever is left. -/
theorem splitsAmong_doubleStar (ts : List String) : SplitsAmong ["**"] ts :=
  ⟨[ts], by simp, .cons (by simp [Takes]) .nil⟩

theorem matchGlobSegments_iff :
    matchGlobSegments ps ts = true ↔ SplitsAmong ps ts := by
  induction ps generalizing ts with
  | nil => rw [matchGlobSegments, List.isEmpty_iff, splitsAmong_nil]
  | cons p ps ih =>
    by_cases hp : p = "**"
    · subst hp
      rw [matchGlobSegments.eq_def]
      dsimp only
      rw [if_pos rfl]
      split
      · rename_i hlast
        subst hlast
        exact iff_of_true rfl (splitsAmong_doubleStar ts)
      · -- the wildcard takes what comes before the suffix that the rest matches
        rw [splitsAmong_cons, List.any_eq_true]
        constructor
        · rintro ⟨rest, hrest, hmatch⟩
          obtain ⟨part, hpart⟩ := (List.mem_tails rest ts).mp hrest
          exact ⟨part, rest, hpart.symm, by simp [Takes], ih.mp hmatch⟩
        · rintro ⟨part, rest, rfl, -, hsplit⟩
          exact ⟨rest, (List.mem_tails _ _).mpr (List.suffix_append part rest), ih.mpr hsplit⟩
    · rw [matchGlobSegments.eq_def, splitsAmong_cons]
      dsimp only
      rw [if_neg hp]
      -- any other segment takes exactly one segment of the type
      have htakes : ∀ part, Takes p part ↔ ∃ s, part = [s] ∧ (p = "*" ∨ p = s) := by
        intro part
        rw [Takes, if_neg hp]
        grind
      simp only [htakes]
      grind

/-- **Glob matching is exact.**  `MatchesGlob` returns true if and only if the segments of the type
    can be split in order among those of the pattern, so that each `*` takes exactly one of them, each
    `**` any number, and every other segment of the pattern the one it is equal to. -/
theorem matchesGlob_iff (pattern eventType : String) :
    matchesGlob pattern eventType = true ↔
      SplitsAmong (split pattern '.') (split eventType '.') :=
  matchGlobSegments_iff

/-! ### Literal segments -/

theorem concreteSegments_eq (ps : List String) :
    concreteSegments ps = literalSegments ps ++ (if ps.any isGlob then ["x"] else []) := by
  induction ps with
  | nil => rfl
  | cons p ps ih =>
    rw [concreteSegments, literalSegments, List.takeWhile_cons]
    by_cases hp : isGlob p = true
    · simp [hp]
    · rw [Bool.not_eq_true] at hp
      simp only [hp, ih, literalSegments, List.any_cons, Bool.not_false, Bool.false_or, if_true,
        List.cons_append]
      rfl

/-- **A type that a pattern matches starts with its literal segments**, and there is nothing else
    to it when the pattern has no wildcard. -/
theorem matchGlob_literals (h : matchGlobSegments ps ts = true) :
    literalSegments ps <+: ts ∧ (ps.any isGlob = false → ts = ps) := by
  induction ps generalizing ts with
  | nil =>
    rw [matchGlobSegments, List.isEmpty_iff] at h
    simp [h, literalSegments]
  | cons p ps ih =>
    by_cases hp : isGlob p = true
    · simp [literalSegments, hp]
    · have hne : p ≠ "**" ∧ p ≠ "*" := by
        simpa [isGlob, not_or, and_comm] using hp
      cases ts with
      | nil => simp [matchGlobSegments, hne] at h
      | cons t ts =>
        rw [matchGlobSegments, if_neg hne.1] at h
        simp only [hne.2, decide_false, Bool.false_or, Bool.and_eq_true, decide_eq_true_eq] at h
        obtain ⟨rfl, hrest⟩ := h
        obtain ⟨hpre, hall⟩ := ih hrest
        rw [Bool.not_eq_true] at hp
        constructor
        · simpa [literalSegments, hp, List.cons_prefix_cons] using hpre
        · grind

theorem concreteSegments_ne_nil (h : ps ≠ []) : concreteSegments ps ≠ [] := by
  obtain ⟨p, ps, rfl⟩ := List.exists_cons_of_ne_nil h
  rw [concreteSegments]
  split <;> simp

theorem tokens_streamSubjectFromPattern (p : String) :
    tokens (streamSubjectFromPattern p) = concreteSegments (tokens p) := by
  apply split_join (concreteSegments_ne_nil (split_ne_nil p '.'))
  intro q hq
  rw [concreteSegments_eq, List.mem_append] at hq
  rcases hq with hq | hq
  · exact notMem_of_mem_split ((List.takeWhile_prefix _).mem hq)
  · split at hq
    · rw [List.mem_singleton.mp hq]
      decide
    · exact absurd hq (by simp)

theorem take_literal_iff {n : Nat} (hany : ps.any isGlob = true) :
    (∀ seg ∈ ps.take n, isGlob seg = false) ↔ n ≤ (literalSegments ps).length := by
  induction ps generalizing n with
  | nil => exact absurd hany (by simp)
  | cons p ps ih =>
    cases n with
    | zero => simp
    | succ n =>
      by_cases hp : isGlob p = true
      · simp [literalSegments, hp]
      · rw [Bool.not_eq_true] at hp
        rw [List.any_cons, hp, Bool.false_or] at hany
        have hlits : literalSegments (p :: ps) = p :: literalSegments ps := by
          simp [literalSegments, hp]
        rw [hlits, List.length_cons, Nat.succ_le_succ_iff, ← ih hany, List.take_succ_cons]
        simp [hp]

/-! ### What a subscription sees -/

/-- **A subscription sees what its pattern matches exactly when the pattern names the stream.**  It is
    bound to the stream of a type it matches and its filter lets the type through if and only if the
    pattern has no wildcard, or its first four segments are literal and the type has more than four,
    or the type is the very subject that stands in for the pattern. -/
theorem subscription_sees_iff {u : CaseTables} {p t : String} (ht : Concrete t)
    (hmatch : matchesGlob p t = true) :
    (streamName u (streamSubjectFromPattern p) = streamName u t ∧
        matchesSubject (subjectFilter (streamSubjectFromPattern p)) t = true) ↔
      (∀ seg ∈ tokens p, isGlob seg = false) ∨
        (streamSubjectDepth < (tokens t).length ∧
          ∀ seg ∈ (tokens p).take streamSubjectDepth, isGlob seg = false) ∨
        tokens t = literalSegments (tokens p) ++ ["x"] := by
  obtain ⟨hpre, hall⟩ := matchGlob_literals (show matchGlobSegments (tokens p) (tokens t) = true from hmatch)
  have hsegs := (tokens_streamSubjectFromPattern p).trans (concreteSegments_eq (tokens p))
  -- the concrete subject has no wildcard: its segments come from the type, or are an `x`
  have hconcrete : Concrete (streamSubjectFromPattern p) := by
    intro q hq
    rw [hsegs, List.mem_append] at hq
    rcases hq with hq | hq
    · exact ht q (hpre.mem hq)
    · split at hq
      · rw [List.mem_singleton.mp hq]
        decide
      · exact absurd hq (by simp)
  rw [matchesSubject_subjectFilter hconcrete]
  by_cases hany : (tokens p).any isGlob = true
  · rw [hany, if_pos rfl] at hsegs
    have hglob : ¬∀ seg ∈ tokens p, isGlob seg = false := by simpa using hany
    have hlen : (tokens (streamSubjectFromPattern p)).length = (literalSegments (tokens p)).length + 1 := by
      rw [hsegs, List.length_append, List.length_singleton]
    rw [take_literal_iff hany, hlen]
    constructor
    · grind
    · rintro (hno | ⟨hdeep, hlong⟩ | heq)
      · exact absurd hno hglob
      · -- the literal segments cover the prefix of the stream, and the type shares them
        have hprefix : streamPrefix t = streamPrefix (streamSubjectFromPattern p) := by
          obtain ⟨rest, hrest⟩ := hpre
          rw [streamPrefix_eq_iff, hsegs, ← hrest, List.take_append_of_le_length hlong,
            List.take_append_of_le_length hlong]
        exact ⟨streamName_congr hprefix.symm, Or.inl ⟨by omega, hdeep, hprefix⟩⟩
      · obtain rfl : t = streamSubjectFromPattern p := tokens_inj (heq.trans hsegs.symm)
        grind
  · -- without a wildcard the pattern is the type itself
    rw [Bool.not_eq_true] at hany
    rw [hany, if_neg (by simp), List.append_nil] at hsegs
    obtain rfl : t = p := tokens_inj (hall hany)
    have hself : streamSubjectFromPattern t = t := by
      apply tokens_inj
      rw [hsegs, literalSegments, List.takeWhile_eq_self_iff]
      simpa using hany
    grind

theorem subscription_sees_workflow :
    streamName asciiTables (streamSubjectFromPattern "zynax.v1.engine-adapter.workflow.**") =
        streamName asciiTables "zynax.v1.engine-adapter.workflow.state.entered" ∧
      matchesSubject (subjectFilter (streamSubjectFromPattern "zynax.v1.engine-adapter.workflow.**"))
        "zynax.v1.engine-adapter.workflow.state.entered" = true :=
  (subscription_sees_iff (by decide +kernel) (by decide +kernel)).mpr (Or.inr (Or.inl (by decide +kernel)))

/-- **A wildcard among the first four segments binds to a stream of its own.**  The pattern matches
    the completion of a workflow, but its subscription is bound to `ZYNAX_V1_X`, to which no workflow
    event is published. -/
theorem subscription_misses_workflow :
    matchesGlob "zynax.v1.**" "zynax.v1.engine-adapter.workflow.completed" = true ∧
      streamName asciiTables (streamSubjectFromPattern "zynax.v1.**") = "ZYNAX_V1_X" ∧
      streamName asciiTables "zynax.v1.engine-adapter.workflow.completed" =
        "ZYNAX_V1_ENGINE_ADAPTER_WORKFLOW" ∧
      matchesSubject (subjectFilter (streamSubjectFromPattern "zynax.v1.**"))
        "zynax.v1.engine-adapter.workflow.completed" = false := by
  decide +kernel

end Zynax.Events
