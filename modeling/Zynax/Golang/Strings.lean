import Mathlib.Data.List.Basic

namespace Zynax.Golang

/-!
# Go's `strings` package

The functions of `strings` that the services call, on Lean strings read as lists of code
points.  A Go string that holds valid UTF-8 is such a list, and every separator used below is
ASCII, so searching by code point and searching by byte agree.
-/

def hasPrefix (s p : String) : Bool := p.toList.isPrefixOf s.toList

def trimPrefix (s p : String) : String :=
  if hasPrefix s p then String.ofList (s.toList.drop p.toList.length) else s

def trimSuffix (s p : String) : String :=
  if p.toList.isSuffixOf s.toList then
    String.ofList (s.toList.take (s.toList.length - p.toList.length))
  else s

def trimRight (s : String) (c : Char) : String :=
  String.ofList ((s.toList.reverse.dropWhile (· == c)).reverse)

def isSpace (c : Char) : Bool :=
  c ∈ ['\t', '\n', '\x0b', '\x0c', '\r', ' ', '\u0085', '\u00a0', '\u1680', '\u2028', '\u2029',
    '\u202f', '\u205f', '\u3000'] || ('\u2000' ≤ c && c ≤ '\u200a')

def trimSpace (s : String) : String :=
  String.ofList (((s.toList.dropWhile isSpace).reverse.dropWhile isSpace).reverse)

def toLowerChar (c : Char) : Char :=
  if 'A' ≤ c && c ≤ 'Z' then Char.ofNat (c.toNat + 32)
  else if c = '\u0130' then 'i'
  else if c = '\u212a' then 'k'
  else c

def toLower (s : String) : String := String.ofList (s.toList.map toLowerChar)

def split (s : String) (sep : Char) : List String := (s.toList.splitOn sep).map String.ofList

def join (parts : List String) (sep : Char) : String :=
  String.ofList ([sep].intercalate (parts.map String.toList))

def replaceAll (s : String) (old new : Char) : String :=
  String.ofList (s.toList.map fun c => if c = old then new else c)

def indexOf (sep : List Char) : List Char → Option Nat
  | []     => if sep.isPrefixOf [] then some 0 else none
  | c :: s => if sep.isPrefixOf (c :: s) then some 0 else (indexOf sep s).map (· + 1)

def contains (s sub : String) : Bool := (indexOf sub.toList s.toList).isSome

structure CaseTables where
  upper : Char → Char
  fold : Char → Char
  upper_ascii : ∀ c : Char, c.toNat < 128 → upper c = c.toUpper
  fold_ascii : ∀ c d : Char, c.toNat < 128 → d.toNat < 128 → (fold c = fold d ↔ c.toUpper = d.toUpper)

def asciiTables : CaseTables where
  upper := Char.toUpper
  fold := Char.toUpper
  upper_ascii _ _ := rfl
  fold_ascii _ _ _ _ := Iff.rfl

def CaseTables.toUpper (u : CaseTables) (s : String) : String := String.ofList (s.toList.map u.upper)

def CaseTables.equalFold (u : CaseTables) (s t : String) : Bool :=
  s.toList.map u.fold == t.toList.map u.fold

inductive FmtArg where
  | str (s : String)
  | int (n : Int)
  | strs (l : List String)
  deriving DecidableEq, Repr

structure Formatted where
  format : String
  args : List FmtArg := []
  deriving DecidableEq, Repr

def Formatted.text (s : String) : Formatted := ⟨"%s", [.str s]⟩

/-! ### Prefixes -/

theorem hasPrefix_iff {s p : String} : hasPrefix s p = true ↔ ∃ t, s = p ++ t := by
  rw [hasPrefix, List.isPrefixOf_iff_prefix]
  constructor
  · rintro ⟨t, ht⟩
    refine ⟨String.ofList t, ?_⟩
    rw [← String.toList_inj, String.toList_append, String.toList_ofList, ht]
  · rintro ⟨t, rfl⟩
    simp

theorem isSpace_head_trimSpace (s : String) : ∀ c ∈ (trimSpace s).toList.head?, isSpace c = false := by
  intro c hc
  have hpre : ((s.toList.dropWhile isSpace).reverse.dropWhile isSpace).reverse <+: s.toList.dropWhile isSpace := by
    have h := List.reverse_prefix.mpr (List.dropWhile_suffix isSpace (l := (s.toList.dropWhile isSpace).reverse))
    grind
  rw [trimSpace, String.toList_ofList] at hc
  obtain ⟨t, ht⟩ := hpre
  obtain ⟨l, hl⟩ := List.head?_eq_some_iff.mp hc
  rw [hl] at ht
  have hdrop := List.head?_dropWhile_not isSpace s.toList
  rw [← ht] at hdrop
  simpa using hdrop

theorem hasPrefix_append (p t : String) : hasPrefix (p ++ t) p = true :=
  hasPrefix_iff.mpr ⟨t, rfl⟩

theorem trimPrefix_append (p t : String) : trimPrefix (p ++ t) p = t := by
  rw [trimPrefix, if_pos (hasPrefix_append p t), String.toList_append, List.drop_left,
    String.ofList_toList]

/-! ### Searching for a separator -/

variable {s : List Char}

theorem indexOf_eq_some {sep : List Char} {i : Nat} (h : indexOf sep s = some i) :
    s = s.take i ++ (sep ++ s.drop (i + sep.length)) := by
  induction s generalizing i with
  | nil =>
    rw [indexOf] at h
    grind
  | cons c s ih =>
    rw [indexOf] at h
    split at h
    · rename_i hp
      obtain rfl : 0 = i := by simpa using h
      obtain ⟨t, ht⟩ := List.isPrefixOf_iff_prefix.mp hp
      grind
    · obtain ⟨j, hj, rfl⟩ := Option.map_eq_some_iff.mp h
      grind

theorem indexOf_pair_eq_none {a b : Char} :
    indexOf [a, b] s = none ↔ s.IsChain (fun x y => ¬ (x = a ∧ y = b)) := by
  induction s with
  | nil => simp [indexOf]
  | cons x s ih =>
    rw [indexOf]
    cases s with
    | nil => simp [indexOf]
    | cons y s =>
      rw [List.isChain_cons_cons, ← ih]
      by_cases hxy : x = a ∧ y = b
      · simp [hxy.1, hxy.2]
      · have hp : ([a, b].isPrefixOf (x :: y :: s)) = false := by
          grind
        simp [hp, hxy]

/-! ### Splitting -/

variable {sep : Char}

theorem notMem_of_mem_splitOn {α : Type} [BEq α] [LawfulBEq α] {c : α} {s p : List α}
    (hp : p ∈ s.splitOn c) : c ∉ p := by
  induction s generalizing p with
  | nil =>
    rw [List.splitOn_nil, List.mem_singleton] at hp
    simp [hp]
  | cons x s ih =>
    rw [List.splitOn_cons_eq_if_modifyHead] at hp
    by_cases hx : x = c
    · grind
    · rw [if_neg (by simpa using hx)] at hp
      cases hs : s.splitOn c with
      | nil =>
        rw [hs] at hp
        exact absurd hp (by simp)
      | cons q qs =>
        rw [hs, List.modifyHead_cons, List.mem_cons] at hp
        grind

theorem exists_mem_splitOn {c x : Char} (hx : x ∈ s) (hne : x ≠ c) :
    ∃ p ∈ s.splitOn c, x ∈ p := by
  induction s with
  | nil => exact absurd hx (by simp)
  | cons y s ih =>
    rw [List.splitOn_cons_eq_if_modifyHead]
    by_cases hy : y = c
    · grind
    · rw [if_neg (by simpa using hy)]
      obtain ⟨q, qs, hs⟩ := List.exists_cons_of_ne_nil (List.splitOn_ne_nil c s)
      rw [hs, List.modifyHead_cons]
      rcases List.mem_cons.mp hx with rfl | hx
      · simp
      · grind

theorem splitOn_eq_iff {c : Char} {ps : List (List Char)} (hps : ps ≠ []) :
    s.splitOn c = ps ↔ [c].intercalate ps = s ∧ ∀ p ∈ ps, c ∉ p := by
  constructor
  · rintro rfl
    exact ⟨List.intercalate_splitOn c, fun p hp => notMem_of_mem_splitOn hp⟩
  · rintro ⟨rfl, h⟩
    exact List.splitOn_intercalate c h hps

theorem map_toList_split (s : String) (sep : Char) :
    (split s sep).map String.toList = s.toList.splitOn sep := by
  rw [split, List.map_map]
  simp

theorem split_ne_nil (s : String) (sep : Char) : split s sep ≠ [] := by
  rw [split, ne_eq, List.map_eq_nil_iff]
  simp

theorem notMem_of_mem_split {s p : String} (hp : p ∈ split s sep) : sep ∉ p.toList := by
  obtain ⟨q, hq, rfl⟩ := List.mem_map.mp hp
  rw [String.toList_ofList]
  exact notMem_of_mem_splitOn hq

theorem join_split (s : String) (sep : Char) : join (split s sep) sep = s := by
  rw [join, map_toList_split, List.intercalate_splitOn, String.ofList_toList]

theorem split_join {parts : List String} (hne : parts ≠ [])
    (hparts : ∀ p ∈ parts, sep ∉ p.toList) : split (join parts sep) sep = parts := by
  have hsplit : (join parts sep).toList.splitOn sep = parts.map String.toList := by
    rw [splitOn_eq_iff (by simpa using hne), join, String.toList_ofList]
    grind
  rw [split, hsplit, List.map_map]
  simp

theorem split_inj {s t : String} (h : split s sep = split t sep) : s = t := by
  rw [← join_split s sep, h, join_split]

theorem split_append (s t : String) (sep : Char) :
    split (s ++ String.singleton sep ++ t) sep = split s sep ++ split t sep := by
  have hsplit : (s.toList ++ sep :: t.toList).splitOn sep =
      s.toList.splitOn sep ++ t.toList.splitOn sep :=
    List.splitOnP_append_cons s.toList t.toList (beq_self_eq_true sep)
  rw [split, split, split, ← List.map_append, ← hsplit]
  simp

end Zynax.Golang
