import Mathlib.Data.List.Nodup
import Mathlib.Tactic.Linarith

namespace Zynax.Python

/-!
# Dictionaries and timed waits

What a coroutine that reads an async generator under a timer depends on.

* `get_update` — after an update a key has the value that the update gave it last.

Time is exact: a timer fires when it is due.  If the wait is over at that very moment, `Await.first`
says which of the two the event loop sees first.
-/

/-! ### Dictionaries -/

structure Dict (β : Type) where
  entries : List (String × β)
  nodup : (entries.map Prod.fst).Nodup
  deriving DecidableEq

namespace Dict

variable {β : Type}

def empty : Dict β := ⟨[], List.nodup_nil⟩

def setEntries (k : String) (v : β) : List (String × β) → List (String × β)
  | [] => [(k, v)]
  | e :: es => if e.1 = k then (k, v) :: es else e :: setEntries k v es

theorem mem_keys_setEntries {k k' : String} {v : β} {es : List (String × β)} :
    k' ∈ (setEntries k v es).map Prod.fst ↔ k' = k ∨ k' ∈ es.map Prod.fst := by
  induction es with
  | nil => simp [setEntries]
  | cons e es ih =>
    unfold setEntries
    grind

theorem nodup_setEntries (k : String) (v : β) {es : List (String × β)} (h : (es.map Prod.fst).Nodup) :
    ((setEntries k v es).map Prod.fst).Nodup := by
  induction es with
  | nil => simp [setEntries]
  | cons e es ih =>
    rw [List.map_cons, List.nodup_cons] at h
    unfold setEntries
    split
    · grind
    · rename_i hkey
      rw [List.map_cons, List.nodup_cons, mem_keys_setEntries]
      grind

def set (d : Dict β) (k : String) (v : β) : Dict β :=
  ⟨setEntries k v d.entries, nodup_setEntries k v d.nodup⟩

def update (d : Dict β) (items : List (String × β)) : Dict β :=
  items.foldl (fun d item => d.set item.1 item.2) d

def ofItems (items : List (String × β)) : Dict β := empty.update items

def get (d : Dict β) (k : String) : Option β := d.entries.lookup k

@[simp] theorem get_empty (k : String) : (empty : Dict β).get k = none := rfl

theorem lookup_cons_eq_ite (k : String) (e : String × β) (es : List (String × β)) :
    (e :: es).lookup k = if k = e.1 then some e.2 else es.lookup k := by
  grind

theorem get_set (d : Dict β) (k : String) (v : β) (k' : String) :
    (d.set k v).get k' = if k' = k then some v else d.get k' := by
  show (setEntries k v d.entries).lookup k' = if k' = k then some v else d.entries.lookup k'
  induction d.entries with
  | nil => exact lookup_cons_eq_ite k' (k, v) []
  | cons e es ih =>
    unfold setEntries
    by_cases hkey : e.1 = k
    · -- the entry is replaced, and no later one is looked at under its key
      rw [if_pos hkey, lookup_cons_eq_ite, lookup_cons_eq_ite, hkey]
      by_cases h : k' = k
      · rw [if_pos h, if_pos h]
      · rw [if_neg h, if_neg h, if_neg h]
    · rw [if_neg hkey, lookup_cons_eq_ite, lookup_cons_eq_ite, ih]
      by_cases h : k' = e.1
      · rw [if_pos h, if_pos h, if_neg (h ▸ hkey)]
      · rw [if_neg h, if_neg h]

theorem get_update (d : Dict β) (items : List (String × β)) (k : String) :
    (d.update items).get k = (items.reverse.lookup k).or (d.get k) := by
  induction items generalizing d with
  | nil => rfl
  | cons item items ih =>
    -- the first item is the last one that the reversed list is asked for
    show ((d.set item.1 item.2).update items).get k = _
    rw [ih, get_set, List.reverse_cons, List.lookup_append, Option.or_assoc, lookup_cons_eq_ite]
    grind

theorem update_append (d : Dict β) (l m : List (String × β)) : d.update (l ++ m) = (d.update l).update m :=
  List.foldl_append

end Dict

/-! ### Timed waits -/

structure Await (α : Type) where
  duration : ℚ
  nonneg : 0 ≤ duration
  first : Bool
  value : α

namespace Await

variable {α β : Type} {a : Await α}

def map (f : α → β) (a : Await α) : Await β := { a with value := f a.value }

def InTime (a : Await α) (timeout : ℚ) : Prop :=
  a.duration < timeout ∨ a.duration = timeout ∧ a.first = true

instance (a : Await α) (timeout : ℚ) : Decidable (a.InTime timeout) :=
  inferInstanceAs (Decidable (_ ∨ _))

theorem InTime.le {timeout : ℚ} (h : a.InTime timeout) : a.duration ≤ timeout :=
  h.elim le_of_lt fun h => le_of_eq h.1

theorem le_of_not_inTime {timeout : ℚ} (h : ¬ a.InTime timeout) : timeout ≤ a.duration :=
  not_lt.mp fun hlt => h (Or.inl hlt)

theorem InTime.mono {t t' : ℚ} (h : a.InTime t) (hle : t ≤ t') : a.InTime t' := by
  rcases hle.lt_or_eq with hlt | rfl
  · exact Or.inl (lt_of_le_of_lt h.le hlt)
  · exact h

end Await

def waitFor {α : Type} (timeout : ℚ) (a : Await α) : Option α × ℚ :=
  if a.InTime timeout then (some a.value, a.duration) else (none, timeout)

inductive Stop where
  | exhausted
  | aborted
  deriving DecidableEq

inductive Next (α ε : Type) where
  | yielded (a : α)
  | stopped (why : Stop)
  | raised (e : ε)

end Zynax.Python
