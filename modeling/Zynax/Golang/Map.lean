import Mathlib.Data.List.AList
import Mathlib.Data.List.Induction
import Mathlib.Data.List.Sort
import Mathlib.Data.String.Basic

namespace Zynax.Golang

/-!
# Go maps with string keys

A Go `map[string]T` is modelled by Mathlib's `AList`: a list of entries whose keys are
distinct.  The order of the entries stands for the iteration order of a `range` loop, which
Go leaves unspecified, so a statement about every `GoMap` covers every iteration order.
-/

abbrev GoMap (α : Type) : Type := AList (fun _ : String => α)

abbrev GoSet : Type := GoMap Unit

namespace GoMap

variable {α β : Type} {m : GoMap α} {k k' : String} {v : α}

instance [DecidableEq α] : DecidableEq (GoMap α) := fun m n =>
  decidable_of_iff (m.entries = n.entries) AList.ext_iff.symm

def isEmpty (m : GoMap α) : Bool := m.entries.isEmpty

def getD (m : GoMap α) (k : String) (d : α) : α := (m.lookup k).getD d

theorem getD_insert {d : α} :
    getD (AList.insert k v m) k' d = if k' = k then v else getD m k' d := by
  rw [getD, getD]
  split
  · rename_i h
    rw [h, AList.lookup_insert]
    rfl
  · rename_i h
    rw [AList.lookup_insert_ne h]

def Fresh (m : GoMap α) (keys : List String) : Prop := keys.Nodup ∧ ∀ k ∈ keys, m.lookup k = none

theorem fresh_nil (m : GoMap α) : Fresh m [] := ⟨List.nodup_nil, by simp⟩

theorem fresh_empty_iff {keys : List String} : Fresh (∅ : GoMap α) keys ↔ keys.Nodup :=
  and_iff_left fun _ _ => rfl

theorem fresh_cons {keys : List String} (v : α) :
    Fresh m (k :: keys) ↔ m.lookup k = none ∧ Fresh (AList.insert k v m) keys := by
  have hnext : ∀ k', (AList.insert k v m).lookup k' = none ↔ k' ≠ k ∧ m.lookup k' = none := by
    simp
  unfold Fresh
  grind

theorem mem_entries_iff :
    (⟨k, v⟩ : Σ _ : String, α) ∈ m.entries ↔ m.lookup k = some v := by
  rw [← AList.mem_lookup_iff, Option.mem_def]

theorem lookup_of_mem {e : Σ _ : String, α} (he : e ∈ m.entries) :
    m.lookup e.1 = some e.2 :=
  mem_entries_iff.mp he

theorem forall_mem_entries_iff {P : (Σ _ : String, α) → Prop} :
    (∀ e ∈ m.entries, P e) ↔ ∀ k v, m.lookup k = some v → P ⟨k, v⟩ := by
  constructor
  · intro h k v hk
    exact h ⟨k, v⟩ (mem_entries_iff.mpr hk)
  · intro h e he
    exact h e.1 e.2 (lookup_of_mem he)

theorem isEmpty_iff : m.isEmpty = true ↔ ∀ k, m.lookup k = none := by
  rw [isEmpty, List.isEmpty_iff]
  constructor
  · intro h k
    rw [AList.lookup_eq_none, AList.mem_keys, AList.keys, h]
    simp
  · intro h
    rw [List.eq_nil_iff_forall_not_mem]
    intro e he
    have hsome := lookup_of_mem he
    grind

/-! ### Building a map from another one -/

variable {l : List (String × α)}

def mapVal (f : String → α → β) (m : GoMap α) : GoMap β :=
  ⟨m.entries.map (Sigma.map id f), List.NodupKeys.map₂ f m.entries m.nodupKeys⟩

@[simp] theorem lookup_mapVal (f : String → α → β) (m : GoMap α) (k : String) :
    (m.mapVal f).lookup k = (m.lookup k).map (f k) :=
  List.dlookup_map₂ k

@[simp] theorem entries_mapVal (f : String → α → β) (m : GoMap α) :
    (m.mapVal f).entries = m.entries.map (Sigma.map id f) := rfl

def filterMapEntries (f : String → α → Option β) (l : List (Σ _ : String, α)) :
    List (Σ _ : String, β) :=
  l.filterMap (fun e => (f e.1 e.2).map (Sigma.mk e.1))

theorem keys_filterMapEntries_sublist (f : String → α → Option β)
    (l : List (Σ _ : String, α)) : (filterMapEntries f l).keys.Sublist l.keys := by
  induction l with
  | nil => exact List.Sublist.refl _
  | cons e l ih =>
    rw [filterMapEntries, List.filterMap_cons]
    cases hf : f e.1 e.2 with
    | none => exact List.Sublist.cons _ ih
    | some b => exact List.Sublist.cons_cons _ ih

def filterMapVal (f : String → α → Option β) (m : GoMap α) : GoMap β :=
  ⟨filterMapEntries f m.entries,
    (keys_filterMapEntries_sublist f m.entries).nodup m.nodupKeys⟩

theorem mem_filterMapEntries {f : String → α → Option β} {l : List (Σ _ : String, α)}
    {b : β} :
    (⟨k, b⟩ : Σ _ : String, β) ∈ filterMapEntries f l ↔
      ∃ a, (⟨k, a⟩ : Σ _ : String, α) ∈ l ∧ f k a = some b := by
  simp only [filterMapEntries, List.mem_filterMap, Option.map_eq_some_iff]
  simp

@[simp] theorem lookup_filterMapVal (f : String → α → Option β) (m : GoMap α) (k : String) :
    (m.filterMapVal f).lookup k = (m.lookup k).bind (f k) := by
  apply Option.ext
  intro b
  rw [← mem_entries_iff, filterMapVal, mem_filterMapEntries, Option.bind_eq_some_iff]
  simp only [mem_entries_iff]

def ofPairs (l : List (String × α)) : GoMap α :=
  l.foldl (fun m p => AList.insert p.1 p.2 m) ∅

theorem lookup_foldl_insert (hl : (l.map Prod.fst).Nodup) (m : GoMap α) :
    (l.foldl (fun m p => AList.insert p.1 p.2 m) m).lookup k = some v ↔
      (k, v) ∈ l ∨ k ∉ l.map Prod.fst ∧ m.lookup k = some v := by
  induction l generalizing m with
  | nil => simp
  | cons p l ih =>
    obtain ⟨hp, hl⟩ := List.nodup_cons.mp hl
    rw [List.foldl_cons, ih hl]
    by_cases hk : k = p.1
    · subst hk
      have hnot : ∀ v, (p.1, v) ∉ l := fun v hv => hp (List.mem_map.mpr ⟨_, hv, rfl⟩)
      have hpair : (p.1, v) = p ↔ p.2 = v := by
        grind
      simp [AList.lookup_insert, hp, hnot v, hpair]
    · have hne : (k, v) ≠ p := fun h => hk (by rw [← h])
      simp [AList.lookup_insert_ne hk, hk, hne]

theorem lookup_ofPairs (hl : (l.map Prod.fst).Nodup) :
    (ofPairs l).lookup k = some v ↔ (k, v) ∈ l := by
  rw [ofPairs, lookup_foldl_insert hl]
  simp

theorem lookup_ofPairs_map {ι : Type} (key : ι → String) (f : ι → α) (l : List ι) (k : String) :
    (ofPairs (l.map fun i => (key i, f i))).lookup k =
      (l.reverse.find? (fun i => key i = k)).map f := by
  induction l using List.reverseRecOn with
  | nil => rfl
  | append_singleton l i ih =>
    rw [List.map_append, ofPairs, List.foldl_append, List.reverse_append]
    show (AList.insert (key i) (f i) (ofPairs (l.map fun i => (key i, f i)))).lookup k = _
    by_cases hk : k = key i
    · rw [hk, AList.lookup_insert]
      simp
    · have hne : key i ≠ k := fun h => hk h.symm
      rw [AList.lookup_insert_ne hk, ih]
      simp [hne]

/-! ### Entries in the order of the keys -/

theorem insertionSort_eq_of_perm {m : List (String × α)} (hl : (l.map Prod.fst).Nodup)
    (h : l.Perm m) : l.insertionSort (fun a b => a.1 ≤ b.1) = m.insertionSort (fun a b => a.1 ≤ b.1) := by
  apply List.Perm.eq_of_pairwise _ (List.pairwise_insertionSort _ _) (List.pairwise_insertionSort _ _)
    (((List.perm_insertionSort _ _).trans h).trans (List.perm_insertionSort _ _).symm)
  intro a b ha hb hab hba
  apply List.inj_on_of_nodup_map hl
  · exact (List.mem_insertionSort _).mp ha
  · exact h.mem_iff.mpr ((List.mem_insertionSort _).mp hb)
  · exact le_antisymm hab hba

theorem insertionSort_map_snd (g : α → β) (l : List (String × α)) :
    (l.map (fun p => (p.1, g p.2))).insertionSort (fun a b => a.1 ≤ b.1) =
      (l.insertionSort (fun a b => a.1 ≤ b.1)).map (fun p => (p.1, g p.2)) := by
  symm
  apply List.map_insertionSort
  simp

def pairs (m : GoMap α) : List (String × α) := m.entries.map (fun e => (e.1, e.2))

theorem nodup_pairs (m : GoMap α) : (m.pairs.map Prod.fst).Nodup := by
  rw [pairs, List.map_map]
  exact m.nodupKeys

theorem mem_pairs_iff :
    (k, v) ∈ m.pairs ↔ m.lookup k = some v := by
  rw [pairs, List.mem_map, ← mem_entries_iff]
  simp

def sortedEntries (m : GoMap α) : List (String × α) :=
  m.pairs.insertionSort (fun a b => a.1 ≤ b.1)

theorem mem_sortedEntries_iff :
    (k, v) ∈ m.sortedEntries ↔ m.lookup k = some v := by
  rw [sortedEntries, List.mem_insertionSort, mem_pairs_iff]

theorem nodup_sortedEntries (m : GoMap α) : (m.sortedEntries.map Prod.fst).Nodup := by
  have hperm : (m.sortedEntries.map Prod.fst).Perm (m.pairs.map Prod.fst) :=
    (List.perm_insertionSort _ _).map _
  exact hperm.nodup_iff.mpr m.nodup_pairs

theorem sortedEntries_mapVal (g : α → β) (m : GoMap α) :
    (mapVal (fun _ => g) m).sortedEntries = m.sortedEntries.map (fun p => (p.1, g p.2)) := by
  have hpairs : (mapVal (fun _ => g) m).pairs = m.pairs.map (fun p => (p.1, g p.2)) := by
    rw [pairs, pairs, entries_mapVal, List.map_map, List.map_map]
    rfl
  rw [sortedEntries, hpairs, insertionSort_map_snd, sortedEntries]

theorem sortedEntries_congr {n : GoMap α} (h : ∀ k, m.lookup k = n.lookup k) :
    m.sortedEntries = n.sortedEntries := by
  apply insertionSort_eq_of_perm m.nodup_pairs
  rw [List.perm_ext_iff_of_nodup m.nodup_pairs.of_map n.nodup_pairs.of_map]
  rintro ⟨k, v⟩
  rw [mem_pairs_iff, mem_pairs_iff, h]

theorem getD_erase {d : α} :
    getD (m.erase k) k' d = if k' = k then d else getD m k' d := by
  rw [getD, getD]
  split
  · rename_i h
    rw [h, AList.lookup_erase]
    rfl
  · rename_i h
    rw [AList.lookup_erase_ne h]

theorem isEmpty_eq_false_iff : m.isEmpty = false ↔ ∃ k, k ∈ m := by
  rw [Bool.eq_false_iff, ne_eq, isEmpty_iff, not_forall]
  simp only [AList.lookup_eq_none, not_not]

/-! ### Maps of sets -/

variable {m : GoMap GoSet} {a a' : String} {as : List String}

def link (k a : String) (m : GoMap GoSet) : GoMap GoSet :=
  AList.insert a (AList.insert k () (m.getD a ∅)) m

def unlink (k a : String) (m : GoMap GoSet) : GoMap GoSet :=
  match m.lookup a with
  | none => m
  | some set =>
    let rest := set.erase k
    if isEmpty rest then m.erase a else AList.insert a rest m

def NoEmptySet (m : GoMap GoSet) : Prop := ∀ a set, m.lookup a = some set → set.isEmpty = false

theorem mem_link :
    k ∈ (link k' a' m).getD a ∅ ↔ (k = k' ∧ a = a') ∨ k ∈ m.getD a ∅ := by
  rw [link, getD_insert]
  by_cases ha : a = a'
  · rw [if_pos ha, AList.mem_insert]
    simp [ha]
  · grind

theorem noEmptySet_link (hm : NoEmptySet m) (k a : String) :
    NoEmptySet (link k a m) := by
  intro b set hset
  by_cases hb : b = a
  · subst hb
    rw [link, AList.lookup_insert] at hset
    rw [← Option.some.inj hset, isEmpty_eq_false_iff]
    simp
  · rw [link, AList.lookup_insert_ne hb] at hset
    exact hm b set hset

theorem mem_unlink :
    k ∈ (unlink k' a' m).getD a ∅ ↔ k ∈ m.getD a ∅ ∧ ¬(k = k' ∧ a = a') := by
  unfold unlink
  split
  · -- there is nothing under `a'`
    rename_i hnone
    refine ⟨fun hk => ⟨hk, ?_⟩, And.left⟩
    rintro ⟨-, rfl⟩
    rw [getD, hnone] at hk
    exact absurd hk (AList.notMem_empty k)
  rename_i set hset
  have hget : m.getD a' ∅ = set := by rw [getD, hset]; rfl
  dsimp only
  by_cases ha : a = a'
  · subst ha
    rw [hget]
    split
    · -- the set is dropped, and there was nothing else in it
      rename_i hempty
      rw [getD_erase, if_pos rfl]
      refine iff_of_false (AList.notMem_empty k) fun hk => ?_
      have hmem : k ∈ set.erase k' := AList.mem_erase.mpr ⟨fun h => hk.2 ⟨h, rfl⟩, hk.1⟩
      rw [isEmpty_eq_false_iff.mpr ⟨k, hmem⟩] at hempty
      exact absurd hempty (by simp)
    · rw [getD_insert, if_pos rfl, AList.mem_erase]
      simp [and_comm]
  · have hiff : k ∈ m.getD a ∅ ∧ ¬(k = k' ∧ a = a') ↔ k ∈ m.getD a ∅ := by simp [ha]
    rw [hiff]
    split
    · rw [getD_erase, if_neg ha]
    · rw [getD_insert, if_neg ha]

theorem noEmptySet_unlink (hm : NoEmptySet m) (k a : String) :
    NoEmptySet (unlink k a m) := by
  intro b set hset
  unfold unlink at hset
  split at hset
  · exact hm b set hset
  rename_i old _
  dsimp only at hset
  split at hset
  · by_cases hb : b = a
    · rw [hb, AList.lookup_erase] at hset
      exact absurd hset (by simp)
    · rw [AList.lookup_erase_ne hb] at hset
      exact hm b set hset
  · rename_i hne
    by_cases hb : b = a
    · rw [hb, AList.lookup_insert] at hset
      grind
    · rw [AList.lookup_insert_ne hb] at hset
      exact hm b set hset

theorem mem_foldl_link :
    k ∈ (as.foldl (fun m a => link k' a m) m).getD a ∅ ↔ (k = k' ∧ a ∈ as) ∨ k ∈ m.getD a ∅ := by
  induction as generalizing m with
  | nil => simp
  | cons b as ih =>
    rw [List.foldl_cons, ih, mem_link, List.mem_cons]
    tauto

theorem mem_foldl_unlink :
    k ∈ (as.foldl (fun m a => unlink k' a m) m).getD a ∅ ↔ k ∈ m.getD a ∅ ∧ ¬(k = k' ∧ a ∈ as) := by
  induction as generalizing m with
  | nil => simp
  | cons b as ih =>
    rw [List.foldl_cons, ih, mem_unlink, List.mem_cons]
    tauto

theorem noEmptySet_foldl {f : GoMap GoSet → String → GoMap GoSet}
    (hf : ∀ m a, NoEmptySet m → NoEmptySet (f m a)) (hm : NoEmptySet m) :
    NoEmptySet (as.foldl f m) := by
  induction as generalizing m with
  | nil => exact hm
  | cons a as ih => exact ih (hf m a hm)

end GoMap

theorem map_eq_ok {ε α β : Type} {f : α → β} {r : Except ε α} {b : β} :
    r.map f = .ok b ↔ ∃ a, r = .ok a ∧ f a = b := by
  cases r <;> simp [Except.map]

end Zynax.Golang
