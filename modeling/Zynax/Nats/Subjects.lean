import Mathlib.Data.List.Infix
import Zynax.Golang.Strings

namespace Zynax.Nats

open Golang

/-!
# NATS subjects

A subject is a sequence of tokens separated by dots.  A filter is written the same way: the token
`*` stands for any one token, and a final `>` for one or more.
-/

def tokens (s : String) : List String := split s '.'

def matchTokens : List String → List String → Bool
  | [], ts => ts.isEmpty
  | p :: ps, ts =>
    -- the full wildcard stands for one or more tokens
    if p = ">" ∧ ps = [] then !ts.isEmpty
    else
      match ts with
      | [] => false
      | t :: ts => (p = "*" || p = t) && matchTokens ps ts

@[simp] theorem matchTokens_cons_nil (p : String) (ps : List String) :
    matchTokens (p :: ps) [] = false := by
  unfold matchTokens
  simp

theorem matchTokens_cons_cons {p : String} {ps : List String} (hp : ¬(p = ">" ∧ ps = [])) (t : String)
    (ts : List String) :
    matchTokens (p :: ps) (t :: ts) = true ↔ (p = "*" ∨ p = t) ∧ matchTokens ps ts = true := by
  rw [matchTokens, if_neg hp]
  simp

def matchesSubject (filter subject : String) : Bool := matchTokens (tokens filter) (tokens subject)

def collide : List String → List String → Bool
  | [], qs => qs.isEmpty
  | p :: ps, qs =>
    match qs with
    | [] => false
    | q :: qs =>
      if (p = ">" ∧ ps = []) ∨ (q = ">" ∧ qs = []) then true
      else (p = "*" || q = "*" || p = q) && collide ps qs

theorem exists_matchTokens (p : String) (ps : List String) :
    ∃ t ts, matchTokens (p :: ps) (t :: ts) = true := by
  induction ps generalizing p with
  | nil => exact ⟨p, [], by simp [matchTokens]⟩
  | cons q ps ih =>
    obtain ⟨t, ts, h⟩ := ih q
    exact ⟨p, t :: ts, by rw [matchTokens]; simp [h]⟩

/-- **Filters collide when they have a subject in common.** -/
theorem collide_iff {ps qs : List String} :
    collide ps qs = true ↔ ∃ ts, matchTokens ps ts = true ∧ matchTokens qs ts = true := by
  induction ps generalizing qs with
  | nil =>
    cases qs with
    | nil => simp [collide, matchTokens]
    | cons q qs =>
      refine iff_of_false (by simp [collide]) ?_
      rintro ⟨ts, hts, hq⟩
      rw [matchTokens, List.isEmpty_iff] at hts
      subst hts
      simp [matchTokens] at hq
  | cons p ps ih =>
    cases qs with
    | nil =>
      refine iff_of_false (by simp [collide]) ?_
      rintro ⟨ts, hp, hts⟩
      rw [matchTokens, List.isEmpty_iff] at hts
      subst hts
      simp [matchTokens] at hp
    | cons q qs =>
      by_cases hp : p = ">" ∧ ps = []
      · -- the full wildcard on one side: any subject of the other side will do
        refine iff_of_true (by simp [collide, hp]) ?_
        obtain ⟨t, ts, h⟩ := exists_matchTokens q qs
        exact ⟨t :: ts, by simp [matchTokens, hp], h⟩
      by_cases hq : q = ">" ∧ qs = []
      · refine iff_of_true (by simp [collide, hq]) ?_
        obtain ⟨t, ts, h⟩ := exists_matchTokens p ps
        exact ⟨t :: ts, h, by simp [matchTokens, hq]⟩
      · rw [collide]
        simp only [hp, hq, or_self, if_false, Bool.and_eq_true, Bool.or_eq_true, decide_eq_true_eq, ih]
        constructor
        · rintro ⟨hpq, ts, hps, hqs⟩
          -- a token for the first place that suits both sides
          obtain ⟨t, hpt, hqt⟩ : ∃ t, (p = "*" ∨ p = t) ∧ (q = "*" ∨ q = t) := by
            rcases hpq with (h | h) | h
            · exact ⟨q, Or.inl h, Or.inr rfl⟩
            · exact ⟨p, Or.inr rfl, Or.inl h⟩
            · exact ⟨p, Or.inr rfl, Or.inr h.symm⟩
          exact ⟨t :: ts, (matchTokens_cons_cons hp t ts).mpr ⟨hpt, hps⟩,
            (matchTokens_cons_cons hq t ts).mpr ⟨hqt, hqs⟩⟩
        · rintro ⟨ts, hps, hqs⟩
          cases ts with
          | nil => simp at hps
          | cons t ts =>
            obtain ⟨hpt, hps⟩ := (matchTokens_cons_cons hp t ts).mp hps
            obtain ⟨hqt, hqs⟩ := (matchTokens_cons_cons hq t ts).mp hqs
            grind

/-! ### Filters with few wildcards -/

def Literal (t : String) : Prop := t ≠ "*" ∧ t ≠ ">"

instance (t : String) : Decidable (Literal t) := inferInstanceAs (Decidable (_ ∧ _))

theorem matchTokens_literal {ps ts : List String} (hps : ∀ p ∈ ps, Literal p) :
    matchTokens ps ts = true ↔ ts = ps := by
  induction ps generalizing ts with
  | nil => simp [matchTokens, List.isEmpty_iff]
  | cons p ps ih =>
    obtain ⟨hstar, hfull⟩ := hps p (by simp)
    cases ts with
    | nil => simp
    | cons t ts =>
      rw [matchTokens_cons_cons fun h => hfull h.1, ih fun q hq => hps q (List.mem_cons_of_mem p hq)]
      simp [hstar, eq_comm]

theorem matchTokens_tail {ps ts : List String} (hps : ∀ p ∈ ps, Literal p) :
    matchTokens (ps ++ [">"]) ts = true ↔ ps <+: ts ∧ ps.length < ts.length := by
  induction ps generalizing ts with
  | nil =>
    cases ts with
    | nil => simp
    | cons t ts => simp [matchTokens]
  | cons p ps ih =>
    obtain ⟨hstar, hfull⟩ := hps p (by simp)
    rw [List.cons_append]
    cases ts with
    | nil => simp
    | cons t ts =>
      rw [matchTokens_cons_cons fun h => hfull h.1, ih fun q hq => hps q (List.mem_cons_of_mem p hq)]
      grind

def matchesAny (filters : List String) (subject : String) : Bool :=
  filters.any (fun f => matchesSubject f subject)

def Disjoint (filters filters' : List String) : Prop :=
  ∀ subject, ¬(matchesAny filters subject = true ∧ matchesAny filters' subject = true)

end Zynax.Nats
