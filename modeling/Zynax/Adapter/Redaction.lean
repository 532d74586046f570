import Zynax.Adapter.Git

namespace Zynax.Adapter

open Golang

/-!
# Redaction

A redactor replaces its secrets one after the other.  Secrets may overlap, so that replacing one cuts
through another; what is put in their place is between brackets, which no secret holds.
-/

structure Registrable (tok : String) : Prop where
  long : minSecretLen ≤ tok.length
  unbracketed : '[' ∉ tok.toList ∧ ']' ∉ tok.toList
  apart : ¬ bytes tok <:+: placeholder

theorem Registrable.long_bytes {tok : String} (h : Registrable tok) :
    minSecretLen ≤ (bytes tok).length := by
  rw [bytes_eq]
  exact h.long.trans (Utf8.length_le_length_encode tok.toList)

theorem notMem_bytes {tok : String} {c : Char} (hc : c.toNat < 128) (h : c ∉ tok.toList) :
    UInt8.ofNat c.toNat ∉ bytes tok := by
  rwa [bytes_eq, Utf8.mem_encode_ascii hc]

/-! ### One secret after the other -/

def redacted (secrets : List String) (s : List UInt8) : List UInt8 :=
  secrets.foldl (fun s secret => replaceSub (bytes secret) placeholder s) s

theorem redacted_nil (secrets : List String) : redacted secrets [] = [] := by
  induction secrets with
  | nil => rfl
  | cons t secrets ih => exact ih

theorem Redactor.string_eq (red : Redactor) (s : List UInt8) : red.string s = redacted red.secrets s := by
  rw [Redactor.string]
  split
  · rename_i h
    rcases h with rfl | h
    · exact (redacted_nil red.secrets).symm
    · rw [h]
      rfl
  · rfl

theorem not_infix_redacted {tok : String} (htok : Registrable tok) {secrets : List String} {s : List UInt8}
    (h : tok ∈ secrets ∨ ¬ bytes tok <:+: s) : ¬ bytes tok <:+: redacted secrets s := by
  have hhead := notMem_bytes (by decide) htok.unbracketed.1
  have hlast := notMem_bytes (by decide) htok.unbracketed.2
  induction secrets generalizing s with
  | nil => exact h.resolve_left List.not_mem_nil
  | cons t secrets ih =>
    apply ih
    rcases h with hmem | hnot
    · rcases List.mem_cons.mp hmem with rfl | hmem
      · exact Or.inr (not_infix_replaceSub (by decide) hhead hlast htok.apart s)
      · exact Or.inl hmem
    · -- the text around a placeholder is not joined: the brackets are in between
      exact Or.inr fun hin =>
        hnot (infix_of_infix_replaceFrom (by decide) hhead hlast htok.apart hin)

theorem redacted_eq_self {secrets : List String} {s : List UInt8}
    (h : ∀ t ∈ secrets, ¬ bytes t <:+: s) : redacted secrets s = s := by
  induction secrets with
  | nil => rfl
  | cons t secrets ih =>
    show redacted secrets (replaceSub (bytes t) placeholder s) = s
    rw [replaceSub_eq_self (h t List.mem_cons_self)]
    grind

/-! ### Secrets that make no difference -/

inductive Padded : List String → List String → List String → Prop where
  | nil (seen : List String) : Padded seen [] []
  | keep (t : String) {seen l l' : List String} (h : Padded (t :: seen) l l') :
    Padded seen (t :: l) (t :: l')
  | short {t : String} (ht : (bytes t).length < minSecretLen) {seen l l' : List String}
    (h : Padded seen l l') : Padded seen l (t :: l')
  | repeated {t : String} {seen l l' : List String} (ht : t ∈ seen) (h : Padded seen l l') :
    Padded seen l (t :: l')

def keptAfter (seen secrets : List String) : List String :=
  (secrets.filter fun t => minSecretLen ≤ (bytes t).length ∧ t ∉ seen).eraseDups

theorem keptAfter_congr {seen seen' : List String}
    (h : ∀ u, minSecretLen ≤ (bytes u).length → (u ∉ seen ↔ u ∉ seen')) (secrets : List String) :
    keptAfter seen secrets = keptAfter seen' secrets := by
  have hsame : ∀ u, decide (minSecretLen ≤ (bytes u).length ∧ u ∉ seen) =
      decide (minSecretLen ≤ (bytes u).length ∧ u ∉ seen') :=
    fun u => decide_eq_decide.mpr (and_congr_right (h u))
  simp only [keptAfter, hsame]

theorem keptAfter_of_not {seen : List String} {t : String}
    (h : ¬ (minSecretLen ≤ (bytes t).length ∧ t ∉ seen)) (secrets : List String) :
    keptAfter seen (t :: secrets) = keptAfter seen secrets := by
  rw [keptAfter, List.filter_cons_of_neg (by simpa using h), keptAfter]

theorem keptAfter_cons {seen : List String} {t : String} (h : minSecretLen ≤ (bytes t).length ∧ t ∉ seen)
    (secrets : List String) : keptAfter seen (t :: secrets) = t :: keptAfter (t :: seen) secrets := by
  have hsame : ∀ u, (!u == t && decide (minSecretLen ≤ (bytes u).length ∧ u ∉ seen)) =
      decide (minSecretLen ≤ (bytes u).length ∧ u ∉ t :: seen) := by
    intro u
    rw [Bool.eq_iff_iff]
    simp only [Bool.and_eq_true, Bool.not_eq_true', beq_eq_false_iff_ne, decide_eq_true_eq, List.mem_cons, not_or]
    exact and_left_comm
  rw [keptAfter, List.filter_cons_of_pos (by simpa using h), List.eraseDups_cons, List.filter_filter]
  simp only [hsame, keptAfter]

theorem Padded.keptAfter_eq {seen l l' : List String} (h : Padded seen l l') :
    keptAfter seen l' = keptAfter seen l := by
  induction h with
  | nil seen => rfl
  | @keep t seen l l' _ ih =>
    by_cases ht : minSecretLen ≤ (bytes t).length ∧ t ∉ seen
    · rw [keptAfter_cons ht, keptAfter_cons ht, ih]
    · -- neither list keeps it, and nothing after it is taken for a repetition of it
      have hseen : ∀ u, minSecretLen ≤ (bytes u).length → (u ∉ t :: seen ↔ u ∉ seen) := by
        grind
      rw [keptAfter_of_not ht, keptAfter_of_not ht, ← keptAfter_congr hseen, ih, keptAfter_congr hseen]
  | short ht _ ih => rw [keptAfter_of_not fun h => absurd h.1 (Nat.not_le.mpr ht), ih]
  | repeated ht _ ih => rw [keptAfter_of_not fun h => h.2 ht, ih]

theorem secrets_new (secrets : List String) : (Redactor.new secrets).secrets = keptAfter [] secrets := by
  simp [Redactor.new, keptAfter]

/-- **Redaction is complete.**  For any secrets, however they overlap, and any text: no secret is left,
    redacting again changes nothing, a text without secrets is not changed, and short strings and
    repetitions make no difference. -/
theorem redaction_complete {secrets : List String} (h : ∀ t ∈ secrets, Registrable t) (s : List UInt8) :
    (∀ t ∈ secrets, ¬ bytes t <:+: (Redactor.new secrets).string s) ∧
      (Redactor.new secrets).string ((Redactor.new secrets).string s) = (Redactor.new secrets).string s ∧
      ((∀ t ∈ secrets, ¬ bytes t <:+: s) → (Redactor.new secrets).string s = s) ∧
      ∀ padded, Padded [] secrets padded → (Redactor.new padded).string s = (Redactor.new secrets).string s := by
  have hkept : ∀ t, t ∈ (Redactor.new secrets).secrets ↔ t ∈ secrets := by
    intro t
    rw [Redactor.new, List.mem_eraseDups, List.mem_filter]
    exact ⟨And.left, fun ht => ⟨ht, decide_eq_true (h t ht).long_bytes⟩⟩
  have hself : ∀ s, (∀ t ∈ secrets, ¬ bytes t <:+: s) → (Redactor.new secrets).string s = s := by
    intro s hs
    rw [Redactor.string_eq]
    exact redacted_eq_self fun t ht => hs t ((hkept t).mp ht)
  have hnone : ∀ t ∈ secrets, ¬ bytes t <:+: (Redactor.new secrets).string s := by
    intro t ht
    rw [Redactor.string_eq]
    exact not_infix_redacted (h t ht) (Or.inl ((hkept t).mpr ht))
  refine ⟨hnone, hself _ hnone, hself s, fun padded hpadded => ?_⟩
  rw [Redactor.string_eq, Redactor.string_eq, secrets_new, secrets_new, hpadded.keptAfter_eq]

theorem redaction_complete_overlapping :
    (Redactor.new ["ghp_abcd1234", "1234efgh_xyz"]).string (bytes "at ghp_abcd1234efgh_xyz") =
        bytes "at [REDACTED]efgh_xyz" ∧
      ∀ t ∈ ["ghp_abcd1234", "1234efgh_xyz"], ¬ bytes t <:+: (Redactor.new ["ghp_abcd1234", "1234efgh_xyz"]).string
        (bytes "at ghp_abcd1234efgh_xyz") := by
  have hsecrets : ∀ t ∈ ["ghp_abcd1234", "1234efgh_xyz"], Registrable t := by
    intro t ht
    simp only [List.mem_cons, List.not_mem_nil, or_false] at ht
    rcases ht with rfl | rfl
    · exact ⟨by decide, by decide, by decide +kernel⟩
    · exact ⟨by decide, by decide, by decide +kernel⟩
  exact ⟨by decide +kernel, (redaction_complete hsecrets _).1⟩

end Zynax.Adapter
