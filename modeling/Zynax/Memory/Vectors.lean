import Mathlib.Data.Nat.Dist
import Zynax.Memory.Handler
import Zynax.Postgres.Rows

namespace Zynax.Memory

open Golang Grpc Postgres

/-!
# Similarity search

The vector plane keeps embeddings with their metadata in a Postgres table and answers a query with
the nearest ones.
-/

/-! ### The table -/

structure VectorRow (V : Type) where
  embedding : V
  metadata : GoMap String

abbrev VectorTable (V : Type) : Type := AList (fun _ : Bytes × Bytes => VectorRow V)

structure StoredVector (V : Type) where
  id : Bytes
  embedding : V
  metadata : GoMap String

section Table

variable {V : Type}

def storeVector (table : VectorTable V) (ns id : Bytes) (vector : V) (metadata : GoMap String) :
    VectorTable V :=
  AList.insert (ns, id) ⟨vector, metadata⟩ table

def deleteVector (table : VectorTable V) (ns id : Bytes) : VectorTable V :=
  AList.erase (ns, id) table

def VectorTable.own (table : VectorTable V) (ns : Bytes) : List (StoredVector V) :=
  (table.entries.filter (fun row => row.1.1 = ns)).map
    (fun row => ⟨row.1.2, row.2.embedding, row.2.metadata⟩)

theorem VectorTable.nodup_own (table : VectorTable V) (ns : Bytes) :
    ((table.own ns).map StoredVector.id).Nodup := by
  have hkeys : (table.entries.map Sigma.fst).Nodup := table.nodupKeys
  have hfilter : ((table.entries.filter (fun row => row.1.1 = ns)).map Sigma.fst).Nodup :=
    hkeys.sublist (List.filter_sublist.map _)
  rw [own, List.map_map]
  grind

end Table

/-! ### The query -/

def sanitizeIdentifier (s : String) : String :=
  String.ofList (s.toList.filter fun r =>
    ('a' ≤ r ∧ r ≤ 'z') ∨ ('A' ≤ r ∧ r ≤ 'Z') ∨ ('0' ≤ r ∧ r ≤ '9') ∨ r = '_')

def splitFilter (filter : String) : Option (String × String) :=
  let rest := filter.toList.dropWhile (· ≠ '=')
  if rest = [] then none
  else some (String.ofList (filter.toList.takeWhile (· ≠ '=')), String.ofList rest.tail)

structure VectorQuery (V : Type) where
  vector : V
  ns : Bytes
  /-- `metadata->>'key' = value` -/
  metadata : Option (String × String)
  limit : Nat

/-- The query with its metadata filters. -/
def buildFilterClause {V : Type} (filter : String) (ns : Bytes) (vec : V) (k : Nat) : VectorQuery V :=
  { vector := vec, ns, limit := k,
    metadata := (splitFilter filter).map fun kv => (sanitizeIdentifier kv.1, kv.2) }

def VectorQuery.accepts {V : Type} (q : VectorQuery V) (r : StoredVector V) : Bool :=
  match q.metadata with
  | none => true
  | some (key, value) => r.metadata.lookup key = some value

section Query

variable {V D S : Type} [LinearOrder D]

def VectorQuery.rows (order : RowOrder) (dist : V → V → D) (table : VectorTable V)
    (q : VectorQuery V) : List (StoredVector V) :=
  order.limit (fun r => dist r.embedding q.vector) q.limit ((table.own q.ns).filter q.accepts)

structure VectorResult (S : Type) where
  id : Bytes
  score : S
  metadata : GoMap String

def StoredVector.result (dist : V → V → D) (toFloat32 : D → S) (vector : V) (r : StoredVector V) :
    VectorResult S :=
  ⟨r.id, toFloat32 (dist r.embedding vector), r.metadata⟩

/-- `QueryVector`: the nearest rows, best first. -/
def queryVector (order : RowOrder) (dist : V → V → D) (toFloat32 : D → S) (table : VectorTable V)
    (ns : Bytes) (vector : V) (k : Int) (filter : String) : Except Formatted (List (VectorResult S)) :=
  if k ≤ 0 then .error (.text "memory-service pgvector: k must be > 0")
  else .ok (((buildFilterClause filter ns vector k.toNat).rows order dist table).map
    (StoredVector.result dist toFloat32 vector))

structure QueryVectorRequest (V : Type) where
  workflowID : Bytes
  embedding : V
  topK : Int32

def Handler.queryVector (ctx : Option ContextError) (order : RowOrder) (dist : V → V → D)
    (toFloat32 : D → S) (table : VectorTable V) (req : QueryVectorRequest V) :
    Except Status (List (VectorResult S)) :=
  match guardCall ctx req.workflowID with
  | some st => .error st
  | none =>
    match Memory.queryVector order dist toFloat32 table req.workflowID req.embedding req.topK.toInt "" with
    | .error err => .error ⟨.internal, ⟨"query_vector: " ++ err.format, err.args⟩⟩
    | .ok results => .ok results

structure Ranked [LinearOrder S] (dist : V → V → D) (toFloat32 : D → S) (vector : V)
    (found : List (StoredVector V)) : Prop where
  descending : (found.map (StoredVector.result dist toFloat32 vector)).Pairwise
    (fun a b => b.score ≤ a.score)
  closer_higher : ∀ r ∈ found, ∀ r' ∈ found, dist r.embedding vector < dist r'.embedding vector →
    (r'.result dist toFloat32 vector).score < (r.result dist toFloat32 vector).score

theorem ranked_iff [LinearOrder S] {dist : V → V → D} {toFloat32 : D → S}
    (hmono : Monotone toFloat32) {vector : V} {found : List (StoredVector V)} :
    Ranked dist toFloat32 vector found ↔
      ∀ r ∈ found, ∀ r' ∈ found, dist r.embedding vector = dist r'.embedding vector := by
  constructor
  · intro h r hr r' hr'
    rcases lt_trichotomy (dist r.embedding vector) (dist r'.embedding vector) with hlt | heq | hlt
    · -- the score grows with the distance, a ranking would have it fall
      exact absurd (hmono hlt.le) (not_le.mpr (h.closer_higher r hr r' hr' hlt))
    · exact heq
    · exact absurd (hmono hlt.le) (not_le.mpr (h.closer_higher r' hr' r hr hlt))
  · intro h
    refine ⟨?_, fun r hr r' hr' hlt => absurd (h r hr r' hr') hlt.ne⟩
    rw [List.pairwise_map]
    refine List.pairwise_of_forall_mem_list fun r hr r' hr' => ?_
    show toFloat32 _ ≤ toFloat32 _
    rw [h r hr r' hr']

theorem Handler.queryVector_ok (order : RowOrder) (dist : V → V → D) (toFloat32 : D → S)
    (table : VectorTable V) {req : QueryVectorRequest V} (hid : req.workflowID ≠ [])
    (hk : 1 ≤ req.topK.toInt) :
    Handler.queryVector none order dist toFloat32 table req =
      .ok ((order.limit (fun r => dist r.embedding req.embedding) req.topK.toInt.toNat
        (table.own req.workflowID)).map (StoredVector.result dist toFloat32 req.embedding)) := by
  have hall : (table.own req.workflowID).filter
      (buildFilterClause "" req.workflowID req.embedding req.topK.toInt.toNat).accepts =
        table.own req.workflowID :=
    List.filter_eq_self.mpr fun _ _ => rfl
  have hpos : ¬req.topK.toInt ≤ 0 := by omega
  rw [Handler.queryVector, guardCall, requireNamespace_eq_none.mpr hid]
  simp only [Memory.queryVector, if_neg hpos, VectorQuery.rows]
  rw [show (buildFilterClause "" req.workflowID req.embedding req.topK.toInt.toNat).ns =
    req.workflowID from rfl, hall]
  rfl

/-- **What a query returns.**  For every table, distance, way to order equal rows and query with a
    positive `top_k`: unless it names no workflow and is refused, the answer has `min top_k n` results
    for vectors of the workflow itself, which are distinct and none of which is farther than one that is
    left out; but these are ranked by their scores if and only if as many of the workflow's vectors lie at the
    smallest distance. -/
theorem queryVector_spec [LinearOrder S] (order : RowOrder) (dist : V → V → D) (toFloat32 : D → S)
    (hmono : Monotone toFloat32) (table : VectorTable V) (req : QueryVectorRequest V)
    (hk : 1 ≤ req.topK.toInt) :
    (req.workflowID = [] ∧ Handler.queryVector none order dist toFloat32 table req =
        .error ⟨.invalidArgument, ⟨"workflow_id must not be empty", []⟩⟩) ∨
    ∃ found omitted : List (StoredVector V),
      Handler.queryVector none order dist toFloat32 table req =
        .ok (found.map (StoredVector.result dist toFloat32 req.embedding)) ∧
      (found ++ omitted).Perm (table.own req.workflowID) ∧
      (found.map StoredVector.id).Nodup ∧
      found.length = min req.topK.toInt.toNat (table.own req.workflowID).length ∧
      (∀ r ∈ found, ∀ r' ∈ omitted,
        ¬dist r'.embedding req.embedding < dist r.embedding req.embedding) ∧
      (Ranked dist toFloat32 req.embedding found ↔
        min req.topK.toInt.toNat (table.own req.workflowID).length ≤ (table.own req.workflowID).countP fun r =>
          RowOrder.Least (fun r => dist r.embedding req.embedding) (table.own req.workflowID) r) := by
  -- the check of the workflow id comes before the query
  by_cases hid : req.workflowID = []
  · refine Or.inl ⟨hid, ?_⟩
    rw [Handler.queryVector, guardCall, hid]
    rfl
  set key := fun r : StoredVector V => dist r.embedding req.embedding with hkey
  set k := req.topK.toInt.toNat
  set own := table.own req.workflowID with hown
  have hperm := order.limit_append_rest key k own
  refine Or.inr ⟨order.limit key k own, order.rest key k own,
    Handler.queryVector_ok order dist toFloat32 table hid hk, hperm, ?_,
    order.length_limit key k own, ?_, (ranked_iff hmono).trans (order.limit_same_iff key k own)⟩
  · have hids := (hperm.map StoredVector.id).nodup_iff.mpr (table.nodup_own req.workflowID)
    grind
  · intro r hr r' hr'
    exact not_lt.mpr (order.limit_le_rest key k own hr hr')

end Query

def twoVectors : VectorTable Nat :=
  storeVector (storeVector ∅ (ascii "w") (ascii "far") 1 ∅) (ascii "w") (ascii "near") 0 ∅

theorem queryVector_spec_ties :
    ∃ found omitted : List (StoredVector Nat),
      Handler.queryVector none .stable Nat.dist id (storeVector twoVectors (ascii "w") (ascii "twin") 0 ∅)
          ⟨ascii "w", 0, 2⟩ = .ok (found.map (StoredVector.result Nat.dist id 0)) ∧
      found.length = 2 ∧ omitted.length = 1 ∧ Ranked Nat.dist id 0 found := by
  have hspec := (queryVector_spec .stable Nat.dist id monotone_id
    (storeVector twoVectors (ascii "w") (ascii "twin") 0 ∅) ⟨ascii "w", 0, 2⟩ (by decide +kernel)).resolve_left
      fun h => absurd h.1 (by decide)
  obtain ⟨found, omitted, hfound, hperm, -, hlen, -, hranked⟩ := hspec
  have htwo : found.length = 2 := hlen.trans (by decide +kernel)
  have hthree : (found ++ omitted).length = 3 := hperm.length_eq.trans (by decide +kernel)
  rw [List.length_append] at hthree
  exact ⟨found, omitted, hfound, htwo, by omega, hranked.mpr (by decide +kernel)⟩

/-- **The nearest vector has the lowest score**, and it comes first. -/
theorem nearest_scored_lowest :
    Handler.queryVector none .stable Nat.dist id twoVectors ⟨ascii "w", 0, 2⟩ =
        .ok [⟨ascii "near", 0, ∅⟩, ⟨ascii "far", 1, ∅⟩] ∧
      ¬Ranked Nat.dist id 0 [⟨ascii "near", 0, ∅⟩, ⟨ascii "far", 1, ∅⟩] := by
  refine ⟨rfl, fun h => ?_⟩
  have hscore := h.closer_higher ⟨ascii "near", 0, ∅⟩ (by simp) ⟨ascii "far", 1, ∅⟩ (by simp) (by decide)
  revert hscore
  decide

end Zynax.Memory
