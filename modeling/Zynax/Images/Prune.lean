import Mathlib.Data.List.Sort
import Mathlib.Data.String.Basic
import Zynax.Golang.Strings

namespace Zynax.Images

open Golang

/-!
# Pruning of old images

`SelectPrunable` picks the versions of a package that may be deleted: builds of single commits that carry no
other tag of importance, without the newest ones.

The decoding of the JSON list of versions is left out.
-/

/-! ### The selection -/

structure Version where
  id : Int
  tags : List String
  updatedAt : String
  deriving DecidableEq

def isHexDigit (c : Char) : Bool := c.isDigit || 'a' ≤ c && c ≤ 'f'

/-- `^main-[a-f0-9]`. -/
def mainShaRe (tag : String) : Bool :=
  hasPrefix tag "main-" && (tag.toList.drop 5).head?.any isHexDigit

/-- `^v[0-9]`. -/
def versionTagRe (tag : String) : Bool := hasPrefix tag "v" && (tag.toList.drop 1).head?.any Char.isDigit

def isPerCommitBuild (v : Version) : Bool := v.tags.any mainShaRe

def hasProtectedTag (v : Version) : Bool :=
  v.tags.any fun t => t = "latest" || t = "main" || versionTagRe t

/-- Builds of single commits without a protected tag. -/
def filterPrunable (vs : List Version) : List Version :=
  vs.filter fun v => isPerCommitBuild v && !hasProtectedTag v

/-- The inner loop of `sortNewestFirst`: a version and those before it, the nearest first. -/
def sink (v : Version) : List Version → List Version
  | [] => [v]
  | u :: before => if v.updatedAt > u.updatedAt then u :: sink v before else v :: u :: before

def sortNewestFirst (vs : List Version) : List Version := (vs.foldl (fun before v => sink v before) []).reverse

/-- `SelectPrunable`, for what `decodeVersions` returns. -/
def selectPrunable (versions : Except Formatted (List Version)) (keep : Int) : Except Formatted (List Int) := do
  let vs ← versions
  let candidates := sortNewestFirst (filterPrunable vs)
  let keep := if keep < 0 then 0 else keep
  if keep ≥ candidates.length then return []
  return (candidates.drop keep.toNat).map Version.id

/-! ### What should be selected -/

/-- `main-<hex>`. -/
def CommitTag (tag : String) : Prop := ∃ d rest, tag.toList = "main-".toList ++ d :: rest ∧ isHexDigit d = true

/-- `latest`, `main` or `v<digit>...`. -/
def ProtectedTag (tag : String) : Prop :=
  tag = "latest" ∨ tag = "main" ∨ ∃ d rest, tag.toList = "v".toList ++ d :: rest ∧ d.isDigit = true

theorem head_after_iff {tag p : String} {n : Nat} (hn : p.toList.length = n) {P : Char → Bool} :
    (hasPrefix tag p && (tag.toList.drop n).head?.any P) = true ↔
      ∃ d rest, tag.toList = p.toList ++ d :: rest ∧ P d = true := by
  rw [Bool.and_eq_true, hasPrefix, List.isPrefixOf_iff_prefix]
  constructor
  · rintro ⟨⟨t, ht⟩, hhead⟩
    rw [← ht, ← hn, List.drop_left] at hhead
    cases t with
    | nil => simp at hhead
    | cons d rest => exact ⟨d, rest, ht.symm, by simpa using hhead⟩
  · grind

theorem mainShaRe_iff {tag : String} : mainShaRe tag = true ↔ CommitTag tag := head_after_iff rfl

instance (tag : String) : Decidable (CommitTag tag) := decidable_of_iff _ mainShaRe_iff

instance (tag : String) : Decidable (ProtectedTag tag) :=
  decidable_of_iff (tag = "latest" ∨ tag = "main" ∨ versionTagRe tag = true)
    (or_congr_right (or_congr_right (head_after_iff rfl)))

/-- The builds of single commits that are not protected, with their positions in the list. -/
def builds (vs : List Version) : List (Version × Nat) :=
  vs.zipIdx.filter fun p => (∃ t ∈ p.1.tags, CommitTag t) ∧ ¬ ∃ t ∈ p.1.tags, ProtectedTag t

/-- Newer, or as new and earlier in the list. -/
def Precedes (p q : Version × Nat) : Prop :=
  q.1.updatedAt < p.1.updatedAt ∨ p.1.updatedAt = q.1.updatedAt ∧ p.2 < q.2

instance : DecidableRel Precedes := fun p q =>
  inferInstanceAs (Decidable (q.1.updatedAt < p.1.updatedAt ∨ p.1.updatedAt = q.1.updatedAt ∧ p.2 < q.2))

theorem map_fst_builds (vs : List Version) : (builds vs).map Prod.fst = filterPrunable vs := by
  have hfilter : builds vs = vs.zipIdx.filter ((fun v => isPerCommitBuild v && !hasProtectedTag v) ∘ Prod.fst) := by
    apply List.filter_congr
    intro p _
    have hbuild : isPerCommitBuild p.1 = decide (∃ t ∈ p.1.tags, CommitTag t) := by
      rw [Bool.eq_iff_iff, decide_eq_true_eq, isPerCommitBuild, List.any_eq_true]
      simp only [mainShaRe_iff]
    have hprotected : hasProtectedTag p.1 = decide (∃ t ∈ p.1.tags, ProtectedTag t) := by
      rw [Bool.eq_iff_iff, decide_eq_true_eq, hasProtectedTag, List.any_eq_true]
      simp only [Bool.or_eq_true, decide_eq_true_eq, ProtectedTag, versionTagRe, or_assoc,
        head_after_iff (p := "v") (n := 1) rfl]
    grind
  rw [hfilter, ← List.filter_map, List.zipIdx_map_fst]
  rfl

/-! ### The order -/

theorem sink_eq (v : Version) (before : List Version) :
    sink v before = before.orderedInsert (fun u w => u.updatedAt ≤ w.updatedAt) v := by
  induction before with
  | nil => rfl
  | cons u before ih =>
    rw [sink, List.orderedInsert_cons, ih]
    grind

theorem sortNewestFirst_eq (vs : List Version) :
    sortNewestFirst vs = (vs.reverse.insertionSort fun u w => u.updatedAt ≤ w.updatedAt).reverse := by
  have hloop : vs.foldl (fun before v => sink v before) [] =
      vs.reverse.foldr (fun v before => before.orderedInsert (fun u w => u.updatedAt ≤ w.updatedAt) v) [] := by
    rw [List.foldr_reverse]
    simp only [sink_eq]
  rw [sortNewestFirst, hloop]
  rfl

/-- A later version goes in front of the ones that are as new. -/
theorem pairwise_orderedInsert {p : Version × Nat} {l : List (Version × Nat)}
    (hl : l.Pairwise fun a b => Precedes b a) (hp : ∀ q ∈ l, q.2 < p.2) :
    (l.orderedInsert (fun a b => a.1.updatedAt ≤ b.1.updatedAt) p).Pairwise fun a b => Precedes b a := by
  induction l with
  | nil => simp
  | cons q l ih =>
    rw [List.pairwise_cons] at hl
    rw [List.forall_mem_cons] at hp
    rw [List.orderedInsert_cons]
    split_ifs with h
    · rw [List.pairwise_cons, List.pairwise_cons, List.forall_mem_cons]
      have hprecedes : ∀ x : Version × Nat, q.1.updatedAt ≤ x.1.updatedAt → x.2 < p.2 → Precedes x p := by
        intro x hx hlt
        rcases (h.trans hx).lt_or_eq with hnew | hsame
        · exact .inl hnew
        · exact .inr ⟨hsame.symm, hlt⟩
      refine ⟨⟨hprecedes q le_rfl hp.1, fun x hx => hprecedes x ?_ (hp.2 x hx)⟩, hl⟩
      rcases hl.1 x hx with hnew | ⟨hsame, -⟩
      · exact hnew.le
      · exact hsame.ge
    · rw [List.pairwise_cons]
      refine ⟨fun x hx => ?_, ih hl.2 hp.2⟩
      rcases (List.mem_orderedInsert _).mp hx with rfl | hx
      · exact .inl (not_le.mp h)
      · exact hl.1 x hx

theorem pairwise_insertionSort {l : List (Version × Nat)} (hl : l.Pairwise fun p q => q.2 < p.2) :
    (l.insertionSort fun a b => a.1.updatedAt ≤ b.1.updatedAt).Pairwise fun a b => Precedes b a := by
  induction l with
  | nil => simp
  | cons p l ih =>
    rw [List.pairwise_cons] at hl
    exact pairwise_orderedInsert (ih hl.2) fun q hq => hl.1 q ((List.mem_insertionSort _).mp hq)

theorem exists_sorted (vs : List Version) :
    ∃ l : List (Version × Nat), l.map Prod.fst = sortNewestFirst (filterPrunable vs) ∧ l.Perm (builds vs) ∧
      l.Pairwise Precedes := by
  have hpositions : (builds vs).Pairwise fun p q => p.2 < q.2 := by
    refine List.Pairwise.filter _ ?_
    have hrange : (vs.zipIdx.map Prod.snd).Pairwise (· < ·) := by
      rw [List.zipIdx_map_snd]
      exact List.pairwise_lt_range'
    grind
  refine ⟨((builds vs).reverse.insertionSort fun a b => a.1.updatedAt ≤ b.1.updatedAt).reverse, ?_, ?_, ?_⟩
  · rw [List.map_reverse, List.map_insertionSort _ (fun u w : Version => u.updatedAt ≤ w.updatedAt) Prod.fst _
      (fun _ _ _ _ => Iff.rfl), List.map_reverse, map_fst_builds, sortNewestFirst_eq]
  · exact (List.reverse_perm _).trans ((List.perm_insertionSort _ _).trans (List.reverse_perm _))
  · exact List.pairwise_reverse.mpr (pairwise_insertionSort (List.pairwise_reverse.mpr hpositions))

/-- In a list that is sorted strictly, an element stands behind those that precede it. -/
theorem mem_drop_iff {α : Type} {R : α → α → Prop} [DecidableRel R] (hasymm : ∀ a b, R a b → ¬ R b a)
    {l : List α} (hl : l.Pairwise R) {k : Nat} {x : α} :
    x ∈ l.drop k ↔ x ∈ l ∧ k ≤ l.countP (R · x) := by
  induction l generalizing k with
  | nil => simp
  | cons a l ih =>
    rw [List.pairwise_cons] at hl
    cases k with
    | zero => simp
    | succ k =>
      have hirrefl : ¬ R a a := fun h => hasymm a a h h
      rw [List.drop_succ_cons, ih hl.2, List.mem_cons]
      constructor
      · grind
      · rintro ⟨rfl | hx, hk⟩
        · have hnone : l.countP (R · x) = 0 :=
            List.countP_eq_zero.mpr fun y hy => by simpa using hasymm x y (hl.1 y hy)
          grind
        · grind

theorem Precedes.asymm {p q : Version × Nat} (h : Precedes p q) : ¬ Precedes q p := by
  rintro (hnew | ⟨hsame, hlt⟩)
  · rcases h with h | ⟨h, -⟩
    · exact lt_asymm h hnew
    · exact absurd h hnew.ne
  · rcases h with h | ⟨-, h⟩
    · exact absurd hsame h.ne
    · omega

/-- **Only stale builds of commits are pruned**: exactly the builds that are preceded by `keep` others, each
    once. -/
theorem prunable_exact (vs : List Version) (keep : Int) :
    ∃ pruned : List (Version × Nat),
      selectPrunable (.ok vs) keep = .ok (pruned.map fun p => p.1.id) ∧ pruned.Nodup ∧
      ∀ p, p ∈ pruned ↔ p ∈ builds vs ∧ (max keep 0).toNat ≤ (builds vs).countP (Precedes · p) := by
  obtain ⟨l, hfst, hperm, hsorted⟩ := exists_sorted vs
  refine ⟨l.drop (max keep 0).toNat, ?_, ?_, fun p => ?_⟩
  · have hkeep : (if keep < 0 then 0 else keep) = max keep 0 := by
      omega
    have hids : ∀ k, (l.drop k).map (fun p => p.1.id) =
        ((sortNewestFirst (filterPrunable vs)).drop k).map Version.id := by
      intro k
      rw [← hfst, ← List.map_drop, List.map_map]
      rfl
    show (if (if keep < 0 then 0 else keep) ≥ ((sortNewestFirst (filterPrunable vs)).length : Int) then
      (Except.ok [] : Except Formatted (List Int)) else _) = _
    rw [hkeep, hids]
    split_ifs with hall
    · rw [List.drop_of_length_le (by omega)]
      rfl
    · rfl
  · have hnodup : l.Nodup := by
      refine hsorted.imp fun {p q} h => ?_
      rintro rfl
      exact Precedes.asymm h h
    grind
  · rw [mem_drop_iff (fun _ _ => Precedes.asymm) hsorted, hperm.mem_iff, hperm.countP_eq]

end Zynax.Images
