import Zynax.Transition.Runs
import Zynax.Memory.Redis

namespace Zynax.Memory

open Transition

/-!
# Namespaces of the memory service

The key-value plane keeps the entries of all workflows in one Redis database, under the workflow
id, a colon and the key.
-/

/-! ### Keys -/

def kvKey (ns key : Bytes) : Bytes := ns ++ 58 :: key

def kvKeyPrefix (ns : Bytes) : Bytes := ns ++ [58]

def trimPrefix (s p : Bytes) : Bytes := if p.isPrefixOf s then s.drop p.length else s

theorem kvKey_eq (ns key : Bytes) : kvKey ns key = kvKeyPrefix ns ++ key := by
  simp [kvKey, kvKeyPrefix]

theorem prefix_kvKey (ns key : Bytes) : kvKeyPrefix ns <+: kvKey ns key := by
  rw [kvKey_eq]
  simp

theorem trimPrefix_kvKey (ns key : Bytes) : trimPrefix (kvKey ns key) (kvKeyPrefix ns) = key := by
  rw [kvKey_eq, trimPrefix, if_pos (by simp), List.drop_left]

theorem prefix_kvKey_cases {u w key : Bytes} (h : kvKeyPrefix u <+: kvKey w key) :
    u = w ∨ kvKeyPrefix u <+: w ∨ kvKeyPrefix w <+: u := by
  rcases List.prefix_or_prefix_of_prefix h (prefix_kvKey w key) with hp | hp
  · rcases List.prefix_concat_iff.mp hp with heq | hp
    · exact Or.inl (List.append_cancel_right_eq _ _ _ ▸ heq)
    · exact Or.inr (Or.inl hp)
  · rcases List.prefix_concat_iff.mp hp with heq | hp
    · exact Or.inl (List.append_cancel_right_eq _ _ _ ▸ heq.symm)
    · exact Or.inr (Or.inr hp)

/-! ### Operations -/

inductive KVError where
  /-- `ErrKeyNotFound: %q` -/
  | keyNotFound (key : Bytes)
  deriving DecidableEq, Repr

abbrev Values : Type := AList (fun _ : Bytes => Option Bytes)

def set (store : Store) (ns key value : Bytes) : Store := store.insert (kvKey ns key) value

def get (store : Store) (ns key : Bytes) : Except KVError Bytes :=
  match store.lookup (kvKey ns key) with
  | none => .error (.keyNotFound key)
  | some value => .ok value

def delete (store : Store) (ns key : Bytes) : Store := store.erase (kvKey ns key)

/-- `ListKeys`: the prefix is part of a pattern. -/
def listKeys (r : Scanner) (store : Store) (ns pattern : Bytes) : List Bytes :=
  (r.batches store (kvKeyPrefix ns ++ pattern)).flatMap
    (fun batch => batch.map (fun k => trimPrefix k (kvKeyPrefix ns)))

def mget (store : Store) (ns : Bytes) (keys : List Bytes) : Values :=
  keys.foldl (fun result k => result.insert k (store.lookup (kvKey ns k))) ∅

def mset (store : Store) (ns : Bytes) (pairs : Store) : Store :=
  pairs.entries.foldl (fun s p => s.insert (kvKey ns p.1) p.2) store

/-- `DeleteNamespace`: scans and deletes in batches. -/
def deleteNamespace (r : Scanner) (store : Store) (ns : Bytes) : Store :=
  (r.batches store (kvKeyPrefix ns ++ [42])).foldl
    (fun s batch => if batch = [] then s else Store.del s batch) store

/-! ### Sequences of operations -/

inductive KVOp where
  | set (ns key value : Bytes)
  | get (ns key : Bytes)
  | delete (ns key : Bytes)
  | listKeys (ns pattern : Bytes)
  | mget (ns : Bytes) (keys : List Bytes)
  | mset (ns : Bytes) (pairs : Store)
  | deleteNamespace (ns : Bytes)

namespace KVOp

def ns : KVOp → Bytes
  | .set ns _ _ | .get ns _ | .delete ns _ | .listKeys ns _ | .mget ns _ | .mset ns _
  | .deleteNamespace ns => ns

def scans : KVOp → Bool
  | .listKeys _ _ | .deleteNamespace _ => true
  | _ => false

end KVOp

inductive KVAnswer where
  | done
  | value (result : Except KVError Bytes)
  | keys (keys : List Bytes)
  | values (result : Values)

def perform (r : Scanner) (store : Store) : KVOp → Store × KVAnswer
  | .set ns key value => (set store ns key value, .done)
  | .get ns key => (store, .value (get store ns key))
  | .delete ns key => (delete store ns key, .done)
  | .listKeys ns pattern => (store, .keys (listKeys r store ns pattern))
  | .mget ns keys => (store, .values (mget store ns keys))
  | .mset ns pairs => (mset store ns pairs, .done)
  | .deleteNamespace ns => (deleteNamespace r store ns, .done)

def after (r : Scanner) (store : Store) (op : KVOp) : Store := (perform r store op).1

def answers (r : Scanner) : Store → List KVOp → List (KVOp × KVAnswer)
  | _, [] => []
  | store, op :: ops => (op, (perform r store op).2) :: answers r (after r store op) ops

def SameAnswer : KVAnswer → KVAnswer → Prop
  | .keys l, .keys l' => ∀ k, k ∈ l ↔ k ∈ l'
  | a, a' => a = a'

/-! ### Looking up after an operation -/

variable {ns : Bytes} {r : Scanner} {store : Store}

theorem lookup_mset (store : Store) (ns : Bytes) (pairs : Store) (k : Bytes) :
    (mset store ns pairs).lookup k =
      match pairs.entries.reverse.find? (fun p => decide (kvKey ns p.1 = k)) with
      | some p => some p.2
      | none => store.lookup k := by
  unfold mset
  induction pairs.entries generalizing store with
  | nil => rfl
  | cons p ps ih =>
    rw [List.foldl_cons, ih, List.reverse_cons, List.find?_append]
    cases ps.reverse.find? (fun p => decide (kvKey ns p.1 = k)) with
    | some q => rfl
    | none =>
      by_cases hk : kvKey ns p.1 = k
      · subst hk
        simp
      · simp [hk, AList.lookup_insert_ne (Ne.symm hk)]

theorem lookup_delBatches (store : Store) (batches : List (List Bytes)) (k : Bytes) :
    (batches.foldl (fun s batch => if batch = [] then s else Store.del s batch) store).lookup k =
      if ∃ b ∈ batches, k ∈ b then none else store.lookup k := by
  induction batches generalizing store with
  | nil => simp
  | cons b bs ih =>
    have hhead : (if b = [] then store else Store.del store b).lookup k =
        if k ∈ b then none else store.lookup k := by
      by_cases hb : b = []
      · simp [hb]
      · rw [if_neg hb, Store.lookup_del]
    rw [List.foldl_cons, ih, hhead]
    by_cases hbs : ∃ b ∈ bs, k ∈ b
    · have hall : ∃ b' ∈ b :: bs, k ∈ b' := by
        grind
      rw [if_pos hbs, if_pos hall]
    · rw [if_neg hbs]
      by_cases hk : k ∈ b
      · rw [if_pos hk, if_pos ⟨b, by simp, hk⟩]
      · grind

theorem plain_kvKeyPrefix (h : Plain ns) : Plain (kvKeyPrefix ns) := by
  intro b hb
  rcases List.mem_append.mp hb with hb | hb
  · exact h b hb
  · obtain rfl := List.mem_singleton.mp hb
    decide

theorem lookup_deleteNamespace (hns : Plain ns)
    (k : Bytes) : (deleteNamespace r store ns).lookup k =
      if kvKeyPrefix ns <+: k then none else store.lookup k := by
  have hscan : (∃ b ∈ r.batches store (kvKeyPrefix ns ++ [42]), k ∈ b) ↔
      k ∈ store ∧ kvKeyPrefix ns <+: k := by
    rw [r.mem_batches, globMatch_plain_append (plain_kvKeyPrefix hns)]
    constructor
    · grind
    · rintro ⟨hmem, rest, rfl⟩
      exact ⟨hmem, rest, rfl, globMatch_star rest⟩
  rw [deleteNamespace, lookup_delBatches]
  by_cases hp : kvKeyPrefix ns <+: k
  · rw [if_pos hp]
    by_cases hmem : k ∈ store
    · grind
    · rw [if_neg (fun h => hmem (hscan.mp h).1), AList.lookup_eq_none]
      exact hmem
  · grind

theorem mem_listKeys {pattern : Bytes} (hns : Plain ns)
    {k : Bytes} : k ∈ listKeys r store ns pattern ↔
      kvKey ns k ∈ store ∧ globMatch pattern k = true := by
  have hmatch : ∀ key, (∃ b ∈ r.batches store (kvKeyPrefix ns ++ pattern), key ∈ b) ↔
      key ∈ store ∧ ∃ rest, key = kvKeyPrefix ns ++ rest ∧ globMatch pattern rest = true := by
    intro key
    rw [r.mem_batches, globMatch_plain_append (plain_kvKeyPrefix hns)]
  simp only [listKeys, List.mem_flatMap, List.mem_map]
  constructor
  · rintro ⟨b, hb, key, hkey, rfl⟩
    obtain ⟨hmem, rest, rfl, hrest⟩ := (hmatch key).mp ⟨b, hb, hkey⟩
    rw [← kvKey_eq, trimPrefix_kvKey]
    rw [← kvKey_eq] at hmem
    exact ⟨hmem, hrest⟩
  · rintro ⟨hmem, hk⟩
    obtain ⟨b, hb, hkey⟩ := (hmatch (kvKey ns k)).mpr ⟨hmem, k, kvKey_eq ns k, hk⟩
    exact ⟨b, hb, kvKey ns k, hkey, trimPrefix_kvKey ns k⟩

/-! ### Own entries and those of others -/

variable {w : Bytes} {store' : Store}

def Agree (w : Bytes) (store store' : Store) : Prop :=
  ∀ k, store.lookup (kvKey w k) = store'.lookup (kvKey w k)

theorem Agree.mem_iff (h : Agree w store store') (k : Bytes) :
    kvKey w k ∈ store ↔ kvKey w k ∈ store' := by
  rw [← AList.lookup_isSome, ← AList.lookup_isSome, h k]

theorem Agree.insert (h : Agree w store store') (key value : Bytes) :
    Agree w (AList.insert key value store) (AList.insert key value store') := by
  intro k
  by_cases hk : kvKey w k = key
  · rw [hk, AList.lookup_insert, AList.lookup_insert]
  · rw [AList.lookup_insert_ne hk, AList.lookup_insert_ne hk]
    exact h k

theorem Agree.erase (h : Agree w store store') (key : Bytes) :
    Agree w (AList.erase key store) (AList.erase key store') := by
  intro k
  by_cases hk : kvKey w k = key
  · rw [hk, AList.lookup_erase, AList.lookup_erase]
  · rw [AList.lookup_erase_ne hk, AList.lookup_erase_ne hk]
    exact h k

/-- **An operation depends on its own workflow's entries only**, in what it answers and in what it
    leaves there. -/
theorem agree_perform_own {op : KVOp}
    (hplain : op.scans = true → Plain op.ns) (h : Agree op.ns store store') :
    Agree op.ns (after r store op) (after r store' op) ∧
      SameAnswer (perform r store op).2 (perform r store' op).2 := by
  cases op with
  | set ns key value => exact ⟨h.insert (kvKey ns key) value, rfl⟩
  | get ns key =>
    refine ⟨h, ?_⟩
    have hkey : store.lookup (kvKey ns key) = store'.lookup (kvKey ns key) := h key
    simp only [perform, get, hkey, SameAnswer]
  | delete ns key => exact ⟨h.erase (kvKey ns key), rfl⟩
  | listKeys ns pattern =>
    -- the batches of a scan may come in another order, but hold the same keys
    refine ⟨h, ?_⟩
    intro k
    have hns : Plain ns := hplain rfl
    have hmem : kvKey ns k ∈ store ↔ kvKey ns k ∈ store' := h.mem_iff k
    rw [mem_listKeys hns, mem_listKeys hns, hmem]
  | mget ns keys =>
    refine ⟨h, ?_⟩
    have hkeys : ∀ k, store.lookup (kvKey ns k) = store'.lookup (kvKey ns k) := h
    simp only [perform, mget, hkeys, SameAnswer]
  | mset ns pairs =>
    refine ⟨?_, rfl⟩
    intro k
    simp only [after, perform, KVOp.ns, lookup_mset]
    split
    · rfl
    · exact h k
  | deleteNamespace ns =>
    -- nothing is left on either side
    refine ⟨?_, rfl⟩
    intro k
    have hns : Plain ns := hplain rfl
    have hp := prefix_kvKey ns k
    show (deleteNamespace r store ns).lookup (kvKey ns k) = _
    rw [lookup_deleteNamespace hns, if_pos hp]
    show none = (deleteNamespace r store' ns).lookup (kvKey ns k)
    rw [lookup_deleteNamespace hns, if_pos hp]

/-- **An operation leaves the entries of a separate id alone.** -/
theorem lookup_perform_other {op : KVOp} (hplain : op.scans = true → Plain op.ns) (hne : op.ns ≠ w)
    (hsep : ¬ kvKeyPrefix op.ns <+: w)
    (hsep' : ¬ kvKeyPrefix w <+: op.ns) (k : Bytes) :
    (after r store op).lookup (kvKey w k) = store.lookup (kvKey w k) := by
  have hnot : ¬ kvKeyPrefix op.ns <+: kvKey w k := by
    intro hp
    rcases prefix_kvKey_cases hp with heq | hp | hp
    · exact hne heq
    · exact hsep hp
    · exact hsep' hp
  have hkey : ∀ key, kvKey w k ≠ kvKey op.ns key := by
    intro key heq
    rw [heq] at hnot
    exact hnot (prefix_kvKey op.ns key)
  cases op with
  | set ns key value => exact AList.lookup_insert_ne (hkey key)
  | delete ns key => exact AList.lookup_erase_ne (hkey key)
  | mset ns pairs =>
    have hnone : pairs.entries.reverse.find? (fun p => decide (kvKey ns p.1 = kvKey w k)) = none := by
      rw [List.find?_eq_none]
      intro p _
      have hp : kvKey w k ≠ kvKey ns p.1 := hkey p.1
      simpa using Ne.symm hp
    simp only [after, perform, lookup_mset, hnone]
  | deleteNamespace ns =>
    have hns : Plain ns := hplain rfl
    show (deleteNamespace r store ns).lookup (kvKey w k) = _
    have hout : ¬ kvKeyPrefix ns <+: kvKey w k := hnot
    rw [lookup_deleteNamespace hns, if_neg hout]
  | _ => rfl

/-! ### Isolation -/

def Separated (ops : List KVOp) : Prop := ∀ a ∈ ops, ∀ b ∈ ops, ¬ kvKeyPrefix a.ns <+: b.ns

def PlainScans (ops : List KVOp) : Prop := ∀ a ∈ ops, a.scans = true → Plain a.ns

theorem same_answers_of_agree {ops : List KVOp}
    (hsep : ∀ a ∈ ops, a.ns ≠ w → ¬ kvKeyPrefix a.ns <+: w ∧ ¬ kvKeyPrefix w <+: a.ns)
    (hplain : PlainScans ops) (h : Agree w store store') :
    List.Forall₂ (fun a b => a.1 = b.1 ∧ SameAnswer a.2 b.2)
        ((answers r store ops).filter (fun a => decide (a.1.ns = w)))
        (answers r store' (ops.filter (fun a => decide (a.ns = w)))) ∧
      Agree w (run (after r) store ops)
        (run (after r) store' (ops.filter (fun a => decide (a.ns = w)))) := by
  induction ops generalizing store store' with
  | nil => exact ⟨.nil, h⟩
  | cons op ops ih =>
    have hsep' : ∀ a ∈ ops, a.ns ≠ w → ¬ kvKeyPrefix a.ns <+: w ∧ ¬ kvKeyPrefix w <+: a.ns :=
      fun a ha => hsep a (by simp [ha])
    have hplain' : PlainScans ops := fun a ha => hplain a (by simp [ha])
    have hop := hplain op (by simp)
    rw [answers]
    by_cases hw : op.ns = w
    · -- the operation is done in both databases
      subst hw
      obtain ⟨hagree, hsame⟩ := agree_perform_own (r := r) hop h
      obtain ⟨hans, hfinal⟩ := ih hsep' hplain' hagree
      rw [List.filter_cons_of_pos (by simp), List.filter_cons_of_pos (by simp), answers]
      exact ⟨.cons ⟨rfl, hsame⟩ hans, hfinal⟩
    · -- it is done in the shared one only, and there it leaves the entries of `w`
      obtain ⟨hout, hin⟩ := hsep op (by simp) hw
      have hagree : Agree w (after r store op) store' := by
        intro k
        rw [lookup_perform_other hop hw hout hin]
        exact h k
      rw [List.filter_cons_of_neg (by simpa using hw), List.filter_cons_of_neg (by simpa using hw)]
      exact ih hsep' hplain' hagree

/-- **Workflows with separate ids are isolated.**  For every sequence of operations in which no id is
    another one followed by a colon and more, and in which listings and deletions of a namespace come
    under plain ids: each workflow gets the answers, and sees the entries, that a private database
    would give it; and no operation changes an entry of another workflow. -/
theorem isolated_of_separated (r : Scanner) (ops : List KVOp) (hsep : Separated ops)
    (hplain : PlainScans ops) :
    (∀ w ∈ ops.map KVOp.ns,
      List.Forall₂ (fun a b => a.1 = b.1 ∧ SameAnswer a.2 b.2)
          ((answers r ∅ ops).filter (fun a => decide (a.1.ns = w)))
          (answers r ∅ (ops.filter (fun a => decide (a.ns = w)))) ∧
        Agree w (run (after r) ∅ ops) (run (after r) ∅ (ops.filter (fun a => decide (a.ns = w))))) ∧
    Along (after r) (fun store op => ∀ w ∈ ops.map KVOp.ns, w ≠ op.ns →
      ∀ k, (after r store op).lookup (kvKey w k) = store.lookup (kvKey w k)) ∅ ops := by
  refine ⟨?_, ?_⟩
  · intro w hw
    obtain ⟨b, hb, rfl⟩ := List.mem_map.mp hw
    exact same_answers_of_agree (fun a ha _ => ⟨hsep a ha b hb, hsep b hb a ha⟩) hplain
      (fun _ => rfl)
  · apply along_of_forall
    intro op hop store w hw hne k
    obtain ⟨b, hb, rfl⟩ := List.mem_map.mp hw
    exact lookup_perform_other (hplain op hop) hne.symm (hsep op hop b hb) (hsep b hb op hop) k

/-! ### Three workflows -/

def ascii (s : String) : Bytes := s.toList.map (fun c => c.toNat.toUInt8)

def abOps : List KVOp :=
  [.set (ascii "a") (ascii "k") [1], .set (ascii "b") (ascii "k") [2], .deleteNamespace (ascii "b"),
    .get (ascii "a") (ascii "k")]

theorem separated_abOps : Separated abOps := by
  intro x hx y hy
  simp only [abOps, List.mem_cons, List.not_mem_nil, or_false] at hx hy
  rcases hx with rfl | rfl | rfl | rfl <;> rcases hy with rfl | rfl | rfl | rfl <;> decide

theorem plainScans_abOps : PlainScans abOps := by
  intro x hx hscan
  simp only [abOps, List.mem_cons, List.not_mem_nil, or_false] at hx
  rcases hx with rfl | rfl | rfl | rfl
  · exact absurd hscan (by decide)
  · exact absurd hscan (by decide)
  · intro b hb
    have hb' : b ∈ ascii "b" := hb
    rw [show ascii "b" = [98] by decide, List.mem_singleton] at hb'
    rw [hb']
    decide
  · exact absurd hscan (by decide)

theorem isolated_abOps :
    Separated abOps ∧ PlainScans abOps ∧
      (∀ w ∈ abOps.map KVOp.ns,
        List.Forall₂ (fun a b => a.1 = b.1 ∧ SameAnswer a.2 b.2)
            ((answers oneBatch ∅ abOps).filter (fun a => decide (a.1.ns = w)))
            (answers oneBatch ∅ (abOps.filter (fun a => decide (a.ns = w)))) ∧
          Agree w (run (after oneBatch) ∅ abOps)
            (run (after oneBatch) ∅ (abOps.filter (fun a => decide (a.ns = w))))) ∧
      Along (after oneBatch) (fun store op => ∀ w ∈ abOps.map KVOp.ns, w ≠ op.ns →
        ∀ k, (after oneBatch store op).lookup (kvKey w k) = store.lookup (kvKey w k)) ∅ abOps :=
  ⟨separated_abOps, plainScans_abOps,
    isolated_of_separated oneBatch abOps separated_abOps plainScans_abOps⟩

/-- **Another workflow's entry is returned, and deleted.**  The key `b:c` of workflow `a` is the key
    `c` of workflow `a:b`; and deleting the namespace of the workflow `?` empties that of `a`. -/
theorem entries_shared_and_deleted :
    get (run (after oneBatch) ∅ [.set (ascii "a") (ascii "b:c") [7]]) (ascii "a:b") (ascii "c") =
        .ok [7] ∧
      get (∅ : Store) (ascii "a:b") (ascii "c") = .error (.keyNotFound (ascii "c")) ∧
      get (run (after oneBatch) ∅ [.set (ascii "a") (ascii "k") [7], .deleteNamespace (ascii "?")])
        (ascii "a") (ascii "k") = .error (.keyNotFound (ascii "k")) ∧
      get (run (after oneBatch) ∅ [.set (ascii "a") (ascii "k") [7]]) (ascii "a") (ascii "k") =
        .ok [7] := by
  refine ⟨by decide +kernel, by decide +kernel, by decide +kernel, by decide +kernel⟩

end Zynax.Memory
