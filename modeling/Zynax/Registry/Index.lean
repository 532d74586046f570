import Zynax.Golang.Map
import Zynax.Transition.Runs

namespace Zynax.Registry

open Golang

/-!
# The capability index of the scheduler

The scheduler's view of the Agent resources: the agents by key, and for each capability the set of
the keys that declare it.  Watch events reach the index as `Upsert` and `Delete`.

* `Represents.upsert`, `Represents.delete` — each operation updates the map from keys to agents at one key.
-/

/-! ### Candidates -/

structure Selectors where
  language : List String := []
  tags : List String := []

structure Cost where
  tokenPrice : Float := 0
  latencyClass : String := ""

structure Resources where
  gpu : Int := 0

structure Capability where
  id : String := ""
  description : String := ""
  inputSchema : String := ""
  outputSchema : String := ""
  selectors : Selectors := {}
  cost : Cost := {}
  resources : Resources := {}
  models : List String := []
  protocols : List String := []

structure Candidate where
  key : String := ""
  name : String := ""
  endpoint : String := ""
  ready : Bool := false
  replicas : Int := 0
  expertScope : String := ""
  capabilities : List Capability := []

def Candidate.capabilityByID (c : Candidate) (id : String) : Option Capability :=
  c.capabilities.find? (fun capability => capability.id == id)

def Candidate.Declares (c : Candidate) (capID : String) : Prop :=
  capID ∈ c.capabilities.map Capability.id

theorem Candidate.declares_iff {c : Candidate} {capID : String} :
    c.Declares capID ↔ ∃ capability, c.capabilityByID capID = some capability := by
  rw [Declares, capabilityByID, ← Option.isSome_iff_exists, List.find?_isSome, List.mem_map]
  simp

/-! ### The index -/

/-- The agents, and the keys for each capability. -/
structure Index where
  agents : GoMap Candidate := ∅
  capIndex : GoMap GoSet := ∅

namespace Index

def removeLinks (i : Index) (key : String) : Index :=
  match i.agents.lookup key with
  | none => i
  | some old =>
    { i with
      capIndex := (old.capabilities.map Capability.id).foldl (fun m c => GoMap.unlink key c m)
        i.capIndex }

/-- Old links go before the new ones come. -/
def upsert (i : Index) (c : Candidate) : Index :=
  let i := i.removeLinks c.key
  { agents := AList.insert c.key c i.agents
    capIndex := (c.capabilities.map Capability.id).foldl (fun m cap => GoMap.link c.key cap m)
      i.capIndex }

def delete (i : Index) (key : String) : Index :=
  let i := i.removeLinks key
  { i with agents := i.agents.erase key }

def inKeyOrder (i : Index) (keys : List String) : List Candidate :=
  (keys.insertionSort (· ≤ ·)).map (fun k => i.agents.getD k {})

/-- The agents with a capability, in key order. -/
def candidates (i : Index) (capID : String) : List Candidate :=
  let set := i.capIndex.getD capID ∅
  if set.isEmpty then [] else i.inKeyOrder set.keys

def snapshot (i : Index) : List Candidate := i.inKeyOrder i.agents.keys

end Index

/-! ### What an index stands for -/

variable {i j : Index} {m : String → Option Candidate}

structure Represents (i : Index) (m : String → Option Candidate) : Prop where
  agents : ∀ k, i.agents.lookup k = m k
  links : ∀ capID k, k ∈ i.capIndex.getD capID ∅ ↔ ∃ a, m k = some a ∧ a.Declares capID
  noEmptySet : GoMap.NoEmptySet i.capIndex

theorem represents_empty : Represents {} (fun _ => none) := by
  refine ⟨fun _ => rfl, fun capID k => ?_, fun a set h => absurd h (by simp)⟩
  refine iff_of_false (AList.notMem_empty k) ?_
  simp

theorem Represents.removeLinks (h : Represents i m) (key : String) :
    (i.removeLinks key).agents = i.agents ∧
      (∀ capID k, k ∈ (i.removeLinks key).capIndex.getD capID ∅ ↔
        k ≠ key ∧ ∃ a, m k = some a ∧ a.Declares capID) ∧
      GoMap.NoEmptySet (i.removeLinks key).capIndex := by
  unfold Index.removeLinks
  split
  · rename_i hnone
    refine ⟨rfl, fun capID k => ?_, h.noEmptySet⟩
    rw [h.links]
    refine ⟨?_, And.right⟩
    rintro ⟨a, ha, hcap⟩
    refine ⟨?_, a, ha, hcap⟩
    rintro rfl
    rw [h.agents, ha] at hnone
    exact absurd hnone (by simp)
  · rename_i old hold
    refine ⟨rfl, fun capID k => ?_, GoMap.noEmptySet_foldl (fun m a hm =>
      GoMap.noEmptySet_unlink hm key a) h.noEmptySet⟩
    rw [GoMap.mem_foldl_unlink, h.links]
    constructor
    · rintro ⟨⟨a, ha, hcap⟩, hnot⟩
      refine ⟨fun hk => hnot ⟨hk, ?_⟩, a, ha, hcap⟩
      -- the links of `key` are those of its stored version
      rw [hk, ← h.agents, hold] at ha
      rw [Option.some.inj ha]
      exact hcap
    · grind

theorem Represents.upsert (h : Represents i m) (c : Candidate) :
    Represents (i.upsert c) (Function.update m c.key (some c)) := by
  obtain ⟨hagents, hlinks, hne⟩ := h.removeLinks c.key
  refine ⟨fun k => ?_, fun capID k => ?_, GoMap.noEmptySet_foldl (fun m a hm =>
    GoMap.noEmptySet_link hm c.key a) hne⟩
  · show (AList.insert c.key c (i.removeLinks c.key).agents).lookup k = _
    by_cases hk : k = c.key
    · rw [hk, AList.lookup_insert, Function.update_self]
    · rw [AList.lookup_insert_ne hk, hagents, h.agents, Function.update_of_ne hk]
  · show k ∈ GoMap.getD (List.foldl _ (i.removeLinks c.key).capIndex _) capID ∅ ↔ _
    rw [GoMap.mem_foldl_link, hlinks]
    by_cases hk : k = c.key
    · simp [hk, Candidate.Declares]
    · simp [hk]

theorem Represents.delete (h : Represents i m) (key : String) :
    Represents (i.delete key) (Function.update m key none) := by
  obtain ⟨hagents, hlinks, hne⟩ := h.removeLinks key
  refine ⟨fun k => ?_, fun capID k => ?_, hne⟩
  · show ((i.removeLinks key).agents.erase key).lookup k = _
    by_cases hk : k = key
    · rw [hk, AList.lookup_erase, Function.update_self]
    · rw [AList.lookup_erase_ne hk, hagents, h.agents, Function.update_of_ne hk]
  · show k ∈ (i.removeLinks key).capIndex.getD capID ∅ ↔ _
    grind

structure Index.Same (i j : Index) : Prop where
  agents : ∀ k, i.agents.lookup k = j.agents.lookup k
  capabilities : ∀ capID, capID ∈ i.capIndex ↔ capID ∈ j.capIndex
  links : ∀ capID k, k ∈ i.capIndex.getD capID ∅ ↔ k ∈ j.capIndex.getD capID ∅

theorem Represents.mem_capIndex (h : Represents i m) {capID : String} :
    capID ∈ i.capIndex ↔ ∃ k a, m k = some a ∧ a.Declares capID := by
  constructor
  · intro hmem
    obtain ⟨set, hset⟩ := Option.isSome_iff_exists.mp (AList.lookup_isSome.mpr hmem)
    obtain ⟨k, hk⟩ := GoMap.isEmpty_eq_false_iff.mp (h.noEmptySet capID set hset)
    have hget : i.capIndex.getD capID ∅ = set := by rw [GoMap.getD, hset]; rfl
    exact ⟨k, (h.links capID k).mp (hget ▸ hk)⟩
  · rintro ⟨k, hk⟩
    have hlink := (h.links capID k).mpr hk
    by_contra hmem
    rw [GoMap.getD, AList.lookup_eq_none.mpr hmem] at hlink
    exact AList.notMem_empty k hlink

theorem Represents.same (hi : Represents i m) (hj : Represents j m) : i.Same j where
  agents k := (hi.agents k).trans (hj.agents k).symm
  capabilities _ := hi.mem_capIndex.trans hj.mem_capIndex.symm
  links capID k := (hi.links capID k).trans (hj.links capID k).symm

/-! ### Listing agents -/

def Keyed (m : String → Option Candidate) : Prop := ∀ k a, m k = some a → a.key = k

theorem Represents.inKeyOrder (h : Represents i m) (hkeyed : Keyed m) {keys : List String}
    (hnodup : keys.Nodup) {P : Candidate → Prop} (hkeys : ∀ k, k ∈ keys ↔ ∃ a, m k = some a ∧ P a) :
    (∀ a, a ∈ i.inKeyOrder keys ↔ i.agents.lookup a.key = some a ∧ P a) ∧
      (i.inKeyOrder keys).Pairwise (fun a b => a.key < b.key) := by
  have hsorted : ∀ k ∈ keys.insertionSort (· ≤ ·), ∃ a, m k = some a ∧ P a ∧
      i.agents.getD k {} = a ∧ a.key = k := by
    intro k hk
    obtain ⟨a, ha, hP⟩ := (hkeys k).mp ((List.mem_insertionSort _).mp hk)
    refine ⟨a, ha, hP, ?_, hkeyed k a ha⟩
    rw [GoMap.getD, h.agents, ha]
    rfl
  constructor
  · intro a
    rw [Index.inKeyOrder, List.mem_map]
    constructor
    · rintro ⟨k, hk, rfl⟩
      obtain ⟨a, ha, hP, hget, hkey⟩ := hsorted k hk
      rw [hget, hkey, h.agents]
      exact ⟨ha, hP⟩
    · rintro ⟨ha, hP⟩
      rw [h.agents] at ha
      refine ⟨a.key, (List.mem_insertionSort _).mpr ((hkeys _).mpr ⟨a, ha, hP⟩), ?_⟩
      rw [GoMap.getD, h.agents, ha]
      rfl
  · rw [Index.inKeyOrder, List.pairwise_map]
    -- sorted and without repetition, so strictly sorted
    have hle : (keys.insertionSort (· ≤ ·)).Pairwise (· ≤ ·) := List.pairwise_insertionSort _ _
    have hne : (keys.insertionSort (· ≤ ·)).Nodup :=
      (List.perm_insertionSort (· ≤ ·) keys).nodup_iff.mpr hnodup
    refine (hle.and hne).imp_of_mem ?_
    grind

theorem Represents.candidates (h : Represents i m) (hkeyed : Keyed m) (capID : String) :
    (∀ a, a ∈ i.candidates capID ↔ i.agents.lookup a.key = some a ∧ a.Declares capID) ∧
      (i.candidates capID).Pairwise (fun a b => a.key < b.key) := by
  have hlist := h.inKeyOrder hkeyed (i.capIndex.getD capID ∅).keys_nodup (h.links capID)
  unfold Index.candidates
  dsimp only
  split
  · rename_i hempty
    -- the early return agrees with the loop over no keys
    have hnil : i.inKeyOrder (i.capIndex.getD capID ∅).keys = [] := by
      rw [GoMap.isEmpty, List.isEmpty_iff] at hempty
      rw [AList.keys, hempty]
      rfl
    grind
  · exact hlist

theorem Represents.snapshot (h : Represents i m) (hkeyed : Keyed m) :
    (∀ a, a ∈ i.snapshot ↔ i.agents.lookup a.key = some a) ∧
      i.snapshot.Pairwise (fun a b => a.key < b.key) := by
  have hkeys : ∀ k, k ∈ i.agents.keys ↔ ∃ a, m k = some a ∧ True := by
    intro k
    rw [← AList.mem_keys, ← AList.lookup_isSome, h.agents, Option.isSome_iff_exists]
    simp
  obtain ⟨hmem, hsorted⟩ := h.inKeyOrder hkeyed i.agents.keys_nodup hkeys
  exact ⟨fun a => (hmem a).trans (and_iff_left trivial), hsorted⟩

/-! ### Runs -/

inductive Op where
  | upsert (c : Candidate)
  | delete (key : String)

def Op.key : Op → String
  | .upsert c => c.key
  | .delete key => key

def Op.stores : Op → Option Candidate
  | .upsert c => some c
  | .delete _ => none

def Index.apply (i : Index) : Op → Index
  | .upsert c => i.upsert c
  | .delete key => i.delete key

def Index.after (ops : List Op) : Index := Transition.run Index.apply {} ops

def lastOp (ops : List Op) (key : String) : Option Op := ops.reverse.find? (fun o => o.key == key)

def surviving (ops : List Op) (key : String) : Option Candidate := (lastOp ops key).bind Op.stores

theorem surviving_append (ops : List Op) (o : Op) :
    surviving (ops ++ [o]) = Function.update (surviving ops) o.key o.stores := by
  ext key : 1
  rw [surviving, lastOp, List.reverse_append, List.reverse_singleton, List.singleton_append,
    List.find?_cons]
  by_cases hkey : key = o.key
  · grind
  · rw [Function.update_of_ne hkey, show (o.key == key) = false from by simpa using Ne.symm hkey]
    rfl

theorem keyed_surviving (ops : List Op) : Keyed (surviving ops) := by
  intro k a hk
  obtain ⟨o, ho, hstores⟩ := Option.bind_eq_some_iff.mp hk
  have hkey : o.key = k := by simpa using List.find?_some ho
  cases o with
  | upsert c =>
    rw [← Option.some.inj hstores]
    exact hkey
  | delete key => exact absurd hstores (by simp [Op.stores])

/-- **The index after a run stands for what the last operation on each key left.** -/
theorem represents_after (ops : List Op) : Represents (Index.after ops) (surviving ops) := by
  induction ops using List.reverseRecOn with
  | nil => exact represents_empty
  | append_singleton ops o ih =>
    rw [surviving_append, Index.after, Transition.run_append]
    show Represents ((Index.after ops).apply o) _
    cases o with
    | upsert c => exact ih.upsert c
    | delete key => exact ih.delete key

theorem surviving_replay {l : List Candidate} (hl : (l.map Candidate.key).Nodup) {key : String}
    {a : Candidate} :
    surviving (l.map .upsert) key = some a ↔ a ∈ l ∧ a.key = key := by
  have hrev : (l.reverse.map Candidate.key).Nodup := by rwa [List.map_reverse, List.nodup_reverse]
  rw [surviving, lastOp, ← List.map_reverse, List.find?_map, Option.bind_map]
  show (l.reverse.find? (fun c => c.key == key)).bind some = some a ↔ _
  rw [Option.bind_fun_some, ← List.mem_reverse]
  constructor
  · grind
  · rintro ⟨hmem, hkey⟩
    -- the first agent found has the same key, so it is `a`
    have hsome : (l.reverse.find? (fun c => c.key == key)).isSome := by
      grind
    obtain ⟨b, hb⟩ := Option.isSome_iff_exists.mp hsome
    have hbkey : b.key = key := by simpa using List.find?_some hb
    rw [hb, List.inj_on_of_nodup_map hrev (List.mem_of_find?_eq_some hb) hmem (hbkey.trans hkey.symm)]

structure Index.Consistent (i : Index) : Prop where
  links : ∀ capID k, k ∈ i.capIndex.getD capID ∅ ↔
    ∃ a, i.agents.lookup k = some a ∧ a.Declares capID
  noEmptySet : ∀ capID set, i.capIndex.lookup capID = some set → set.isEmpty = false
  mem_candidates : ∀ capID a, a ∈ i.candidates capID ↔
    i.agents.lookup a.key = some a ∧ a.Declares capID
  candidates_sorted : ∀ capID, (i.candidates capID).Pairwise (fun a b => a.key < b.key)

theorem consistent_after (ops : List Op) : (Index.after ops).Consistent := by
  have hrep := represents_after ops
  have hkeyed := keyed_surviving ops
  refine ⟨fun capID k => ?_, hrep.noEmptySet, fun capID => (hrep.candidates hkeyed capID).1,
    fun capID => (hrep.candidates hkeyed capID).2⟩
  rw [hrep.links, hrep.agents]

/-- **The index after any sequence of operations.**  It is consistent; it stores what the last
    operation on each key left, so that two sequences with the same last operations give the same
    index; and replaying its agents, in any order, on an empty index gives it again. -/
theorem index_after_run (ops : List Op) :
    (Index.after ops).Consistent ∧
      (∀ key, (Index.after ops).agents.lookup key = (lastOp ops key).bind Op.stores) ∧
      (∀ ops', (∀ key, lastOp ops' key = lastOp ops key) →
        (Index.after ops').Same (Index.after ops)) ∧
      ∀ agents : List Candidate, agents.Perm (Index.after ops).snapshot →
        (Index.after (agents.map .upsert)).Same (Index.after ops) := by
  have hrep := represents_after ops
  refine ⟨consistent_after ops, hrep.agents, fun ops' hlast => ?_, fun agents hperm => ?_⟩
  · have hsame : surviving ops' = surviving ops := by
      ext key : 1
      rw [surviving, surviving, hlast]
    exact Represents.same (hsame ▸ represents_after ops') hrep
  · obtain ⟨hmem, hsorted⟩ := hrep.snapshot (keyed_surviving ops)
    -- the keys of the snapshot are distinct, so the replay stores exactly its agents
    have hnodup : (agents.map Candidate.key).Nodup := by
      grind
    have hsame : surviving (agents.map .upsert) = surviving ops := by
      ext key a
      rw [surviving_replay hnodup, hperm.mem_iff, hmem, hrep.agents]
      constructor
      · grind
      · intro ha
        have hkey := keyed_surviving ops key a ha
        grind
    exact Represents.same (hsame ▸ represents_after _) hrep

end Zynax.Registry
