import Mathlib.Data.List.Perm.Basic

namespace Zynax.Postgres

/-!
# Columns

What the types of Postgres columns take, and how it comes back.

* `storableText` — a `TEXT` cannot hold the character zero;
* `micros`, `storableTime` — a `TIMESTAMPTZ` counts microseconds, within bounds.
-/

def storableText (s : String) : Bool := !s.toList.contains '\x00'

def micros (t : Int) : Int := t / 1000

def y2kMicros : Int := 946684800000000

def storableTime (t : Int) : Bool :=
  -211813488000000000 ≤ t - y2kMicros && t - y2kMicros < 9223371331200000000

theorem micros_mul (t : Int) : micros (t * 1000) = t := by
  unfold micros
  omega

structure JsonbOrder where
  arrange : List (String × String) → List (String × String)
  perm : ∀ fields, (fields.map Prod.fst).Nodup → (arrange fields).Perm fields

def storableMembers (fields : List (String × String)) : Bool :=
  fields.all fun f => storableText f.1 && storableText f.2

theorem storableMembers_iff {fields : List (String × String)} :
    storableMembers fields = true ↔
      ∀ f ∈ fields, storableText f.1 = true ∧ storableText f.2 = true := by
  simp [storableMembers]

end Zynax.Postgres
