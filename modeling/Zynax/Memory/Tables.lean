import Zynax.Memory.Handler

namespace Zynax.Memory

open Transition

/-!
# A table for each workflow

What the key-value plane is for, and that the one database behind it does that.
-/

abbrev Tables : Type := Bytes → Bytes → Option Bytes

def KVOp.onTables (tables : Tables) : KVOp → Tables
  | .set ns key value => Function.update tables ns (Function.update (tables ns) key (some value))
  | .delete ns key => Function.update tables ns (Function.update (tables ns) key none)
  | .mset ns pairs => Function.update tables ns fun k => (pairs.lookup k).or (tables ns k)
  | .deleteNamespace ns => Function.update tables ns fun _ => none
  | _ => tables

theorem onTables_of_ne {op : KVOp} {w : Bytes} (h : op.ns ≠ w) (tables : Tables) :
    op.onTables tables w = tables w := by
  cases op <;> first | rfl | exact Function.update_of_ne (Ne.symm h) _ _

theorem lookup_eq_find? (pairs : Store) (k : Bytes) :
    pairs.lookup k = (pairs.entries.reverse.find? fun p => decide (p.1 = k)).map (·.2) := by
  cases hl : pairs.entries.reverse.find? fun p => decide (p.1 = k) with
  | none =>
    rw [Option.map_none, AList.lookup_eq_none]
    intro hmem
    obtain ⟨p, hp, rfl⟩ := List.mem_map.mp (AList.mem_keys.mp hmem)
    exact List.find?_eq_none.mp hl p (List.mem_reverse.mpr hp) (by simp)
  | some p =>
    obtain rfl : p.1 = k := by simpa using List.find?_some hl
    exact AList.mem_lookup_iff.mpr (List.mem_reverse.mp (List.mem_of_find?_eq_some hl))

variable {r : Scanner} {store : Store} {tables : Tables}

theorem lookup_after {op : KVOp} (hplain : op.scans = true → Plain op.ns)
    (h : ∀ k, store.lookup (kvKey op.ns k) = tables op.ns k) (k : Bytes) :
    (after r store op).lookup (kvKey op.ns k) = op.onTables tables op.ns k := by
  have hown : ∀ ns, ns = op.ns → store.lookup (kvKey ns k) = tables ns k := fun _ hns => hns ▸ h k
  cases op with
  | set ns key value =>
    rw [KVOp.onTables, KVOp.ns, Function.update_self, Function.update_apply, ← hown ns rfl]
    split
    · rename_i hk
      rw [hk]
      exact AList.lookup_insert _
    · rename_i hk
      exact AList.lookup_insert_ne (mt kvKey_inj.mp hk)
  | delete ns key =>
    rw [KVOp.onTables, KVOp.ns, Function.update_self, Function.update_apply, ← hown ns rfl]
    split
    · rename_i hk
      rw [hk]
      exact AList.lookup_erase _ _
    · rename_i hk
      exact AList.lookup_erase_ne (mt kvKey_inj.mp hk)
  | mset ns pairs =>
    rw [KVOp.onTables, KVOp.ns, Function.update_self, lookup_eq_find? pairs, ← hown ns rfl]
    show (mset store ns pairs).lookup _ = _
    simp only [lookup_mset, kvKey_inj]
    cases pairs.entries.reverse.find? fun p => decide (p.1 = k) <;> rfl
  | deleteNamespace ns =>
    rw [KVOp.onTables, KVOp.ns, Function.update_self]
    exact (lookup_deleteNamespace (hplain rfl) _).trans (if_pos (prefix_kvKey ns k))
  | _ => exact h k

/-- **The database refines the tables.**  After any operations under ids that are separate, and
    plain where they are scanned for, each workflow gets what its own table holds. -/
theorem get_refines (r : Scanner) {ops : List KVOp} (hsep : Separated ops) (hplain : PlainScans ops)
    {w : Bytes} (hw : w ∈ ops.map KVOp.ns) (key : Bytes) :
    get (run (after r) ∅ ops) w key =
      (run KVOp.onTables (fun _ _ => none) ops w key).elim (.error (.keyNotFound key)) .ok := by
  obtain ⟨b, hb, rfl⟩ := List.mem_map.mp hw
  have hrun : ∀ done ⊆ ops, ∀ k, (run (after r) ∅ done).lookup (kvKey b.ns k) =
      run KVOp.onTables (fun _ _ => none) done b.ns k := by
    intro done
    induction done using List.reverseRecOn with
    | nil => exact fun _ _ => rfl
    | append_singleton done op ih =>
      intro hsub k
      obtain ⟨hdone, hop⟩ := List.append_subset.mp hsub
      have hmem : op ∈ ops := hop (by simp)
      rw [run_append, run_append]
      by_cases hns : op.ns = b.ns
      · rw [← hns] at ih ⊢
        exact lookup_after (hplain op hmem) (ih hdone) k
      · refine .trans ?_ ((ih hdone k).trans (congrFun (onTables_of_ne hns _) k).symm)
        exact lookup_perform_other (hplain op hmem) hns (hsep op hmem b hb) (hsep b hb op hmem) k
  rw [get, hrun ops (List.Subset.refl _)]
  cases run KVOp.onTables (fun _ _ => none) ops b.ns key <;> rfl

theorem get_refines_abOps : get (run (after oneBatch) ∅ abOps) (ascii "a") (ascii "k") =
    (run KVOp.onTables (fun _ _ => none) abOps (ascii "a") (ascii "k")).elim
      (.error (.keyNotFound (ascii "k"))) .ok :=
  get_refines oneBatch separated_abOps plainScans_abOps (by decide) _

end Zynax.Memory
