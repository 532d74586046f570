import Zynax.Nats.Subjects

namespace Zynax.Events

open Golang Nats

/-!
# Stream and subject names

How the events library derives JetStream streams from event types: the first four segments of a
type name the stream that owns it.
-/

def streamSubjectDepth : Nat := 4

def streamPrefix (eventType : String) : String :=
  let parts := split eventType '.'
  if parts.length > streamSubjectDepth then join (parts.take streamSubjectDepth) '.' else eventType

/-- The stream of an event type. -/
def streamName (u : CaseTables) (eventType : String) : String :=
  u.toUpper (replaceAll (replaceAll (streamPrefix eventType) '.' '_') '-' '_')

def subjectFilter (eventType : String) : String :=
  let pre := streamPrefix eventType
  if pre ≠ eventType then pre ++ ".>" else eventType

/-- The subjects of that stream. -/
def streamSubjects (eventType : String) : List String :=
  let pre := streamPrefix eventType
  if pre ≠ eventType then [pre, pre ++ ".>"] else [eventType]

def dlqStreamPrefix : String := "DLQ_"

def reservedDLQPrefix : String := "zynax.dlq."

def dlqStreamName (sourceStreamName : String) : String := dlqStreamPrefix ++ sourceStreamName

def dlqDeliverSubject (eventType : String) : String :=
  "zynax.dlq." ++ streamPrefix eventType ++ ".dead"

def Concrete (eventType : String) : Prop := ∀ t ∈ tokens eventType, Literal t

instance (eventType : String) : Decidable (Concrete eventType) :=
  inferInstanceAs (Decidable (∀ t ∈ tokens eventType, Literal t))

def Reserved (eventType : String) : Prop := hasPrefix eventType reservedDLQPrefix = true

instance (eventType : String) : Decidable (Reserved eventType) :=
  inferInstanceAs (Decidable (_ = true))

/-! ### Segments -/

variable {s t : String}

theorem tokens_inj (h : tokens s = tokens t) : s = t := split_inj h

theorem tokens_dot (s t : String) : tokens (s ++ "." ++ t) = tokens s ++ tokens t := split_append s t '.'

theorem tokens_streamPrefix (t : String) :
    tokens (streamPrefix t) = (tokens t).take streamSubjectDepth := by
  unfold streamPrefix
  dsimp only
  split
  · apply split_join
    · simpa [streamSubjectDepth] using split_ne_nil t '.'
    · intro p hp
      exact notMem_of_mem_split (List.mem_of_mem_take hp)
  · rename_i hlen
    exact (List.take_of_length_le (not_lt.mp hlen)).symm

theorem streamPrefix_eq_iff : streamPrefix s = streamPrefix t ↔
    (tokens s).take streamSubjectDepth = (tokens t).take streamSubjectDepth := by
  rw [← tokens_streamPrefix, ← tokens_streamPrefix]
  exact ⟨fun h => by rw [h], tokens_inj⟩

theorem streamPrefix_ne_iff :
    streamPrefix t ≠ t ↔ streamSubjectDepth < (tokens t).length := by
  constructor
  · intro hne
    by_contra hle
    exact hne (by rw [streamPrefix]; exact if_neg hle)
  · intro hlt heq
    have hlen := congrArg List.length (tokens_streamPrefix t)
    grind

theorem tokens_full (t : String) :
    tokens (streamPrefix t ++ ".>") = (tokens t).take streamSubjectDepth ++ [">"] := by
  rw [show streamPrefix t ++ ".>" = streamPrefix t ++ "." ++ ">" by rw [String.append_assoc]; rfl,
    tokens_dot, tokens_streamPrefix, show tokens ">" = [">"] by decide +kernel]

theorem literal_take (ht : Concrete t) (n : Nat) : ∀ p ∈ (tokens t).take n, Literal p :=
  fun p hp => ht p (List.mem_of_mem_take hp)

theorem streamName_congr {u : CaseTables} (h : streamPrefix s = streamPrefix t) :
    streamName u s = streamName u t := by
  rw [streamName, h, streamName]

/-! ### What a stream captures -/

variable {t' : String}

theorem matchesSubject_subjectFilter (ht : Concrete t) :
    matchesSubject (subjectFilter t) s = true ↔
      (streamSubjectDepth < (tokens t).length ∧ streamSubjectDepth < (tokens s).length ∧
        streamPrefix s = streamPrefix t) ∨
      ((tokens t).length ≤ streamSubjectDepth ∧ s = t) := by
  unfold subjectFilter
  dsimp only
  split
  · rename_i hne
    have hlt := streamPrefix_ne_iff.mp hne
    have hlen : ((tokens t).take streamSubjectDepth).length = streamSubjectDepth := by
      grind
    rw [matchesSubject, tokens_full, matchTokens_tail (literal_take ht _), List.prefix_iff_eq_take, hlen,
      streamPrefix_eq_iff]
    grind
  · rename_i heq
    have hle : (tokens t).length ≤ streamSubjectDepth := by
      by_contra hgt
      exact heq (streamPrefix_ne_iff.mpr (by omega))
    rw [matchesSubject, matchTokens_literal ht]
    constructor
    · intro h
      exact Or.inr ⟨hle, tokens_inj h⟩
    · grind

/-- **What the stream of a type captures**: every subject with its prefix, or just the type when
    that has no more than four segments. -/
theorem matchesAny_streamSubjects (ht : Concrete t) :
    matchesAny (streamSubjects t) s = true ↔
      s = t ∨ (streamSubjectDepth < (tokens t).length ∧ streamPrefix s = streamPrefix t) := by
  have hfilter := matchesSubject_subjectFilter (s := s) ht
  unfold subjectFilter at hfilter
  unfold matchesAny streamSubjects
  dsimp only at hfilter ⊢
  by_cases hne : streamPrefix t ≠ t
  · have hlt := streamPrefix_ne_iff.mp hne
    rw [if_pos hne] at hfilter ⊢
    have hpre : matchesSubject (streamPrefix t) s = true ↔ s = streamPrefix t := by
      rw [matchesSubject, tokens_streamPrefix, matchTokens_literal (literal_take ht _),
        ← tokens_streamPrefix]
      exact ⟨tokens_inj, fun h => by rw [h]⟩
    rw [List.any_cons, List.any_cons, List.any_nil, Bool.or_false, Bool.or_eq_true, hpre, hfilter]
    have hself : streamPrefix (streamPrefix t) = streamPrefix t := by
      rw [streamPrefix_eq_iff, tokens_streamPrefix, List.take_take, min_self]
    constructor
    · grind
    · rintro (rfl | ⟨-, hs⟩)
      · grind
      · -- a subject with this prefix is the prefix, or longer
        by_cases hdeep : streamSubjectDepth < (tokens s).length
        · grind
        · left
          rw [← hs]
          by_contra hself
          exact hdeep (streamPrefix_ne_iff.mp (Ne.symm hself))
  · have hle : ¬streamSubjectDepth < (tokens t).length := fun h => hne (streamPrefix_ne_iff.mpr h)
    grind

theorem take_of_matchTokens {f : String} {ts : List String} (ht : Concrete t)
    (hf : f ∈ streamSubjects t) (h : matchTokens (tokens f) ts = true) :
    ts.take streamSubjectDepth = (tokens t).take streamSubjectDepth := by
  have hpre : matchTokens (tokens (streamPrefix t)) ts = true →
      ts.take streamSubjectDepth = (tokens t).take streamSubjectDepth := by
    rw [tokens_streamPrefix, matchTokens_literal (literal_take ht _)]
    grind
  unfold streamSubjects at hf
  dsimp only at hf
  split at hf
  · rename_i hne
    have hlt := streamPrefix_ne_iff.mp hne
    rw [List.mem_cons, List.mem_singleton] at hf
    rcases hf with rfl | rfl
    · exact hpre h
    · rw [tokens_full, matchTokens_tail (literal_take ht _), List.prefix_iff_eq_take, List.length_take,
        min_eq_left hlt.le] at h
      exact h.1.symm
  · grind

theorem streamPrefix_of_captured (ht : Concrete t)
    (h : matchesAny (streamSubjects t) s = true) : streamPrefix s = streamPrefix t := by
  obtain ⟨f, hf, hmatch⟩ := List.any_eq_true.mp h
  exact streamPrefix_eq_iff.mpr (take_of_matchTokens ht hf hmatch)

/-- **Streams of different names have no subject in common.** -/
theorem disjoint_streamSubjects {u : CaseTables} (ht : Concrete t) (ht' : Concrete t')
    (hname : streamName u t ≠ streamName u t') : Disjoint (streamSubjects t) (streamSubjects t') := by
  rintro s ⟨h, h'⟩
  exact hname (streamName_congr ((streamPrefix_of_captured ht h).symm.trans
    (streamPrefix_of_captured ht' h')))

/-! ### Dead-letter subjects -/

theorem tokens_dlqDeliverSubject (t : String) :
    tokens (dlqDeliverSubject t) = "zynax" :: "dlq" :: ((tokens t).take streamSubjectDepth ++ ["dead"]) := by
  have hsplit : dlqDeliverSubject t = "zynax.dlq" ++ "." ++ (streamPrefix t ++ "." ++ "dead") := by
    rw [← String.toList_inj]
    simp [dlqDeliverSubject]
  rw [hsplit, tokens_dot, tokens_dot, tokens_streamPrefix, show tokens "zynax.dlq" = ["zynax", "dlq"] by
    decide +kernel, show tokens "dead" = ["dead"] by decide +kernel]
  rfl

theorem dlqDeliverSubject_inj (h : dlqDeliverSubject t = dlqDeliverSubject t') :
    streamPrefix t = streamPrefix t' := by
  have htokens := congrArg tokens h
  rw [tokens_dlqDeliverSubject, tokens_dlqDeliverSubject] at htokens
  rw [streamPrefix_eq_iff]
  simpa using htokens

theorem literal_dlqDeliverSubject (ht : Concrete t) :
    ∀ p ∈ tokens (dlqDeliverSubject t), Literal p := by
  intro p hp
  rw [tokens_dlqDeliverSubject] at hp
  simp only [List.mem_cons, List.mem_append, List.not_mem_nil, or_false] at hp
  rcases hp with rfl | rfl | hp | rfl
  · decide
  · decide
  · exact literal_take ht _ p hp
  · decide

theorem matchesSubject_dlqDeliverSubject (ht : Concrete t) :
    matchesSubject (dlqDeliverSubject t) s = true ↔ s = dlqDeliverSubject t := by
  rw [matchesSubject, matchTokens_literal (literal_dlqDeliverSubject ht)]
  exact ⟨tokens_inj, fun h => by rw [h]⟩

theorem reserved_of_tokens {p : String} {ps : List String} (h : tokens s = "zynax" :: "dlq" :: p :: ps) :
    Reserved s := by
  have hs : s = "zynax.dlq" ++ "." ++ join (p :: ps) '.' := by
    apply tokens_inj
    rw [tokens_dot, h, show tokens "zynax.dlq" = ["zynax", "dlq"] by decide +kernel]
    have hparts : ∀ q ∈ p :: ps, '.' ∉ q.toList := by
      intro q hq
      apply notMem_of_mem_split (s := s)
      show q ∈ tokens s
      grind
    rw [tokens, split_join (by simp) hparts]
    rfl
  rw [hs, show "zynax.dlq" ++ "." = reservedDLQPrefix by decide]
  exact hasPrefix_append _ _

theorem reserved_dlqDeliverSubject (t : String) : Reserved (dlqDeliverSubject t) := by
  rw [dlqDeliverSubject, String.append_assoc]
  exact hasPrefix_append _ _

theorem not_captured_dlqDeliverSubject (ht : Concrete t) (hres : ¬Reserved t) :
    matchesAny (streamSubjects t) (dlqDeliverSubject t') = false := by
  rw [Bool.eq_false_iff]
  intro h
  -- the type would start like the subject, and so be reserved
  rcases (matchesAny_streamSubjects ht).mp h with heq | ⟨hlt, hpre⟩
  · exact hres (heq ▸ reserved_dlqDeliverSubject t')
  · rw [streamPrefix_eq_iff, tokens_dlqDeliverSubject] at hpre
    obtain ⟨a, b, c, d, e, rest, htokens⟩ : ∃ a b c d e rest, tokens t = a :: b :: c :: d :: e :: rest := by
      match h : tokens t, hlt with
      | a :: b :: c :: d :: e :: rest, _ => exact ⟨a, b, c, d, e, rest, rfl⟩
    rw [htokens] at hpre
    simp only [streamSubjectDepth, List.take_succ_cons, List.cons.injEq] at hpre
    obtain ⟨rfl, rfl, -⟩ := hpre
    exact hres (reserved_of_tokens htokens)

/-- **Derived streams never overlap.**  The streams of two types that `Publish` accepts have the same
    name or no subject in common, nor have the dead-letter streams of differently named streams, and
    no stream captures a dead-letter subject. -/
theorem derived_streams_disjoint {u : CaseTables} {t t' : String} (ht : Concrete t) (ht' : Concrete t')
    (hres : ¬Reserved t) (hres' : ¬Reserved t') :
    (streamName u t = streamName u t' ∨ Disjoint (streamSubjects t) (streamSubjects t')) ∧
      (streamName u t ≠ streamName u t' →
        Disjoint [dlqDeliverSubject t] [dlqDeliverSubject t']) ∧
      matchesAny (streamSubjects t) (dlqDeliverSubject t') = false ∧
      matchesAny (streamSubjects t') (dlqDeliverSubject t) = false := by
  refine ⟨?_, fun hname => ?_, not_captured_dlqDeliverSubject ht hres,
    not_captured_dlqDeliverSubject ht' hres'⟩
  · by_cases hname : streamName u t = streamName u t'
    · exact Or.inl hname
    · exact Or.inr (disjoint_streamSubjects ht ht' hname)
  · rintro s ⟨h, h'⟩
    rw [matchesAny, List.any_cons, List.any_nil, Bool.or_false,
      matchesSubject_dlqDeliverSubject ht] at h
    rw [matchesAny, List.any_cons, List.any_nil, Bool.or_false,
      matchesSubject_dlqDeliverSubject ht'] at h'
    exact hname (streamName_congr (dlqDeliverSubject_inj (h.symm.trans h')))

theorem derived_streams_disjoint_workflow :
    (streamName asciiTables "zynax.v1.engine-adapter.workflow.completed" =
        streamName asciiTables "zynax.v1.task-broker.task" ∨
      Disjoint (streamSubjects "zynax.v1.engine-adapter.workflow.completed")
        (streamSubjects "zynax.v1.task-broker.task")) ∧
      (streamName asciiTables "zynax.v1.engine-adapter.workflow.completed" ≠
          streamName asciiTables "zynax.v1.task-broker.task" →
        Disjoint [dlqDeliverSubject "zynax.v1.engine-adapter.workflow.completed"]
          [dlqDeliverSubject "zynax.v1.task-broker.task"]) ∧
      matchesAny (streamSubjects "zynax.v1.engine-adapter.workflow.completed")
        (dlqDeliverSubject "zynax.v1.task-broker.task") = false ∧
      matchesAny (streamSubjects "zynax.v1.task-broker.task")
        (dlqDeliverSubject "zynax.v1.engine-adapter.workflow.completed") = false :=
  derived_streams_disjoint (by decide +kernel) (by decide +kernel) (by decide +kernel)
    (by decide +kernel)

end Zynax.Events
