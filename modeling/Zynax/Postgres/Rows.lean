import Mathlib.Data.List.Sort

namespace Zynax.Postgres

/-!
# Rows in an order

`ORDER BY` and `LIMIT`: rows of the same key may come in any order.
-/

structure RowOrder where
  sort : ∀ {ρ D : Type} [LinearOrder D], (ρ → D) → List ρ → List ρ
  perm : ∀ {ρ D : Type} [LinearOrder D] (key : ρ → D) (rows : List ρ), (sort key rows).Perm rows
  sorted : ∀ {ρ D : Type} [LinearOrder D] (key : ρ → D) (rows : List ρ),
    (sort key rows).Pairwise (fun r r' => key r ≤ key r')

namespace RowOrder

def stable : RowOrder where
  sort key rows := rows.insertionSort (fun r r' => key r ≤ key r')
  perm key rows := List.perm_insertionSort _ rows
  sorted {ρ D} _ key rows := by
    have : Std.Total (fun r r' : ρ => key r ≤ key r') := ⟨fun r r' => le_total (key r) (key r')⟩
    have : IsTrans ρ (fun r r' => key r ≤ key r') := ⟨fun _ _ _ => le_trans⟩
    exact List.pairwise_insertionSort _ rows

variable (order : RowOrder) {ρ D : Type} [LinearOrder D] (key : ρ → D) (n : Nat) (rows : List ρ)

def limit : List ρ := (order.sort key rows).take n

def rest : List ρ := (order.sort key rows).drop n

theorem limit_append_rest : (order.limit key n rows ++ order.rest key n rows).Perm rows := by
  rw [limit, rest, List.take_append_drop]
  exact order.perm key rows

theorem length_limit : (order.limit key n rows).length = min n rows.length := by
  rw [limit, List.length_take, (order.perm key rows).length_eq]

theorem limit_le_rest {r r' : ρ} (hr : r ∈ order.limit key n rows) (hr' : r' ∈ order.rest key n rows) :
    key r ≤ key r' := by
  have hsorted := order.sorted key rows
  rw [← List.take_append_drop n (order.sort key rows), List.pairwise_append] at hsorted
  exact hsorted.2.2 r hr r' hr'

/-- No row has a smaller key. -/
def Least (r : ρ) : Prop := ∀ r' ∈ rows, key r ≤ key r'

instance (r : ρ) : Decidable (Least key rows r) := inferInstanceAs (Decidable (∀ r' ∈ rows, key r ≤ key r'))

/-- With as many rows of the least key as the limit takes, it takes no other: those all come first. -/
theorem least_of_mem_limit {r : ρ}
    (h : (order.limit key n rows).length ≤ (order.sort key rows).countP fun r => Least key rows r)
    (hr : r ∈ order.limit key n rows) : Least key rows r := by
  by_contra hnot
  have hsorted := order.sorted key rows
  obtain ⟨before, after, hsplit⟩ := List.append_of_mem hr
  have hsort : order.sort key rows = before ++ r :: (after ++ order.rest key n rows) := by
    rw [← List.take_append_drop n (order.sort key rows)]
    show order.limit key n rows ++ order.rest key n rows = _
    rw [hsplit, List.append_assoc, List.cons_append]
  rw [hsort, List.pairwise_append, List.pairwise_cons] at hsorted
  have hnone : (r :: (after ++ order.rest key n rows)).countP (fun r => Least key rows r) = 0 := by
    rw [List.countP_eq_zero]
    intro y hy hleast
    have hle : key r ≤ key y := (List.mem_cons.mp hy).elim (fun h => h ▸ le_refl _) (hsorted.2.1.1 y)
    exact hnot fun r' hr' => hle.trans (of_decide_eq_true hleast r' hr')
  rw [hsort, List.countP_append, hnone, hsplit, List.length_append, List.length_cons] at h
  have hbefore := List.countP_le_length (p := fun r => decide (Least key rows r)) (l := before)
  omega

/-- **When the limited rows have one key**: there are at least as many rows with the least key. -/
theorem limit_same_iff :
    (∀ r ∈ order.limit key n rows, ∀ r' ∈ order.limit key n rows, key r = key r') ↔
      min n rows.length ≤ rows.countP fun r => Least key rows r := by
  have hperm := order.perm key rows
  rw [← order.length_limit key n rows, ← hperm.countP_eq]
  constructor
  · intro hsame
    have hleast : ∀ r ∈ order.limit key n rows, Least key rows r := by
      intro r hr r' hr'
      have hmem := hperm.mem_iff.mpr hr'
      rw [← List.take_append_drop n (order.sort key rows)] at hmem
      rcases List.mem_append.mp hmem with hmem | hmem
      · exact (hsame r hr r' hmem).le
      · exact order.limit_le_rest key n rows hr hmem
    calc (order.limit key n rows).length = (order.limit key n rows).countP fun r => Least key rows r :=
          (List.countP_eq_length.mpr fun r hr => decide_eq_true (hleast r hr)).symm
      _ ≤ _ := (List.take_sublist n _).countP_le
  · intro hcount r hr r' hr'
    have hrow : ∀ r ∈ order.limit key n rows, r ∈ rows := fun r hr => hperm.mem_iff.mp (List.mem_of_mem_take hr)
    exact le_antisymm (order.least_of_mem_limit key n rows hcount hr r' (hrow r' hr'))
      (order.least_of_mem_limit key n rows hcount hr' r (hrow r hr))

end RowOrder

end Zynax.Postgres
