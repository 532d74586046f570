import Zynax.Compiler.Server
import Zynax.Engine.DataContext

namespace Zynax.Engine

open Golang Compiler

/-!
# Data references, read twice

The compiler splits a reference at the first `.output.` and lets state and key hold dots; the
engine wants exactly four dotted segments, and takes every value that starts with `$.` for a
reference.
-/

def refText (s k : String) : String := "$.states." ++ s ++ ".output." ++ k

def DotFreeRef (ref : String) : Prop :=
  ∃ s k, ref = refText s k ∧ '.' ∉ s.toList ∧ '.' ∉ k.toList

/-! ### The compiler's reading -/

variable {ref s k : String}

theorem hasPrefix_refText (s k : String) : hasPrefix (refText s k) "$.states." = true := by
  rw [refText, String.append_assoc, String.append_assoc]
  exact hasPrefix_append _ _

theorem parseBindingRef_eq_some (h : parseBindingRef ref = some (s, k)) :
    ref = refText s k ∧ s ≠ "" ∧ k ≠ "" := by
  rw [parseBindingRef] at h
  split at h
  swap
  · exact absurd h (by simp)
  rename_i hp
  obtain ⟨rest, rfl⟩ := hasPrefix_iff.mp hp
  have hdrop : ("$.states." ++ rest).toList.drop "$.states.".toList.length = rest.toList := by
    rw [String.toList_append, List.drop_left]
  simp only [hdrop] at h
  split at h
  · exact absurd h (by simp)
  rename_i idx hidx
  split at h
  · exact absurd h (by simp)
  rename_i hne
  rw [not_or, not_or] at hne
  obtain ⟨rfl, rfl⟩ := Prod.mk.inj (Option.some.inj h)
  refine ⟨?_, ?_, ?_⟩
  · have hcut := indexOf_eq_some hidx
    rw [← String.toList_inj, refText]
    simp only [String.toList_append, String.toList_ofList, List.append_assoc]
    rw [← hcut]
  · intro hs
    exact hne.2.1 (by simpa using congrArg String.toList hs)
  · intro hk
    exact hne.2.2 (by simpa using congrArg String.toList hk)

/-! ### The engine's reading -/

theorem outputKey_toList (s k : String) :
    (outputKey s k).toList = ['.'].intercalate ["states".toList, s.toList, "output".toList, k.toList] := by
  rw [outputKey]
  simp

theorem refText_eq (s k : String) : refText s k = dataRefPrefix ++ outputKey s k := by
  rfl

theorem trimPrefix_refText (s k : String) : trimPrefix (refText s k) dataRefPrefix = outputKey s k := by
  rw [refText_eq, trimPrefix_append]

theorem split_outputKey (hs : '.' ∉ s.toList) (hk : '.' ∉ k.toList) :
    (outputKey s k).toList.splitOn '.' = ["states".toList, s.toList, "output".toList, k.toList] := by
  rw [splitOn_eq_iff (by simp), outputKey_toList]
  grind

/-- **A store key of a dot-free output names that output only.** -/
theorem outputKey_inj_of_dotFree {s' k' : String} (hs : '.' ∉ s.toList) (hk : '.' ∉ k.toList)
    (h : outputKey s' k' = outputKey s k) : s' = s ∧ k' = k := by
  have hcount : ∀ a b : String, (outputKey a b).toList.count '.' =
      3 + a.toList.count '.' + b.toList.count '.' := by
    intro a b
    rw [outputKey]
    simp only [String.toList_append, List.count_append]
    have h1 : "states.".toList.count '.' = 1 := by decide
    have h2 : ".output.".toList.count '.' = 2 := by decide
    omega
  -- the other pair can hold no dot either, or its key would have more segments
  have hzero : s'.toList.count '.' = 0 ∧ k'.toList.count '.' = 0 := by
    grind
  have hsplit := split_outputKey (List.count_eq_zero.mp hzero.1) (List.count_eq_zero.mp hzero.2)
  rw [h, split_outputKey hs hk] at hsplit
  simp only [List.cons.injEq, and_true, true_and] at hsplit
  exact ⟨String.toList_inj.mp hsplit.1.symm, String.toList_inj.mp hsplit.2.symm⟩

/-- **The engine accepts exactly the dot-free references**, with non-empty state and key. -/
theorem canonicalRefKey_eq_ok_iff {path : String} (hp : hasPrefix ref dataRefPrefix = true) :
    canonicalRefKey ref = .ok path ↔ ∃ s k, ref = refText s k ∧ path = outputKey s k ∧
      '.' ∉ s.toList ∧ '.' ∉ k.toList ∧ s ≠ "" ∧ k ≠ "" := by
  constructor
  · intro h
    rw [canonicalRefKey] at h
    split at h
    swap
    · exact absurd h (by simp)
    rename_i p0 p1 p2 p3 hsplit
    split at h
    · exact absurd h (by simp)
    rename_i hshape
    simp only [not_or, ne_eq, not_not] at hshape
    obtain ⟨rfl, rfl, h1, h3⟩ := hshape
    obtain ⟨t, rfl⟩ := hasPrefix_iff.mp hp
    rw [trimPrefix_append] at h hsplit
    obtain rfl := Except.ok.inj h
    -- the pieces of the split are the segments of the path
    have hpieces : t.toList.splitOn '.' =
        ["states".toList, p1.toList, "output".toList, p3.toList] := by
      have hmap := congrArg (List.map String.toList) hsplit
      rw [split, List.map_map] at hmap
      simpa [Function.comp_def, String.toList_ofList] using hmap
    obtain ⟨htext, hdots⟩ := (splitOn_eq_iff (by simp)).mp hpieces
    have ht : t = outputKey p1 p3 := by
      rw [← String.toList_inj, outputKey_toList, htext]
    refine ⟨p1, p3, ?_, ht, hdots _ (by simp), hdots _ (by simp), h1, h3⟩
    rw [ht, refText_eq]
  · rintro ⟨s, k, rfl, rfl, hs, hk, hsne, hkne⟩
    have hsplit : split (outputKey s k) '.' = ["states", s, "output", k] := by
      rw [split, split_outputKey hs hk]
      simp
    rw [canonicalRefKey, trimPrefix_refText]
    simp only [hsplit]
    rw [if_neg (by simp [hsne, hkne])]

/-! ### Agreement -/

def LooksUp (ref s k : String) : Prop :=
  (∀ store key, resolveBindingValue store key ref =
    match store.lookup (outputKey s k) with
    | none => .error (.dataReference key ref (.text "not found in workflow data context"))
    | some val => .ok val) ∧
  ∀ s' k', outputKey s' k' = outputKey s k → s' = s ∧ k' = k

def Verbatim (ref : String) : Prop := ∀ store key, resolveBindingValue store key ref = .ok ref

def OutputAgrees (ref : String) : Prop :=
  (∃ s k, parseBindingRef ref = some (s, k) ∧ LooksUp ref s k) ∨
    hasPrefix ref inputBindingPrefix = false ∧ Verbatim ref

/-- Both sides look the value up, or both take it for a literal: the compiler writes it into the
    template of the payload, and the engine, whatever it resolves, puts nothing in its place. -/
def InputAgrees (a : Action) (key : String) (v : Value) : Prop :=
  (∃ ref s k, v = .str ref ∧ a.inputBindings.lookup key = some ref ∧
    parseBindingRef ref = some (s, k) ∧ LooksUp ref s k) ∨
  isReference v = false ∧ a.input.lookup key = some v ∧ a.inputBindings.lookup key = none ∧
    ∀ (c : WorkflowDataContext) inputs, c.resolveInputs c.scope a.inputBindings = .ok inputs →
      inputs.lookup key = none

theorem hasPrefix_dataRef_of_refText (s k : String) :
    hasPrefix (refText s k) dataRefPrefix = true := by
  rw [refText_eq]
  exact hasPrefix_append _ _

theorem refText_inj_of_dotFree {s' k' : String} (hs : '.' ∉ s.toList) (hk : '.' ∉ k.toList)
    (h : refText s' k' = refText s k) : s' = s ∧ k' = k := by
  apply outputKey_inj_of_dotFree hs hk
  rw [← trimPrefix_refText, h, trimPrefix_refText]

theorem DotFreeRef.hasPrefix (h : DotFreeRef ref) :
    Golang.hasPrefix ref inputBindingPrefix = true := by
  obtain ⟨s, k, rfl, -, -⟩ := h
  exact hasPrefix_refText s k

theorem dotFree_of_resolve {store : GoMap String} {key val : String}
    (hp : hasPrefix ref dataRefPrefix = true) (h : resolveBindingValue store key ref = .ok val) :
    DotFreeRef ref := by
  simp only [resolveBindingValue, hp, Bool.not_true, Bool.false_eq_true, if_false] at h
  cases hc : canonicalRefKey ref with
  | error reason =>
    grind
  | ok path =>
    obtain ⟨s, k, rfl, -, hs, hk, -, -⟩ := (canonicalRefKey_eq_ok_iff hp).mp hc
    exact ⟨s, k, rfl, hs, hk⟩

theorem looksUp_iff (hparse : parseBindingRef ref = some (s, k)) :
    LooksUp ref s k ↔ DotFreeRef ref := by
  obtain ⟨rfl, hsne, hkne⟩ := parseBindingRef_eq_some hparse
  have hp := hasPrefix_dataRef_of_refText s k
  constructor
  · rintro ⟨hlook, -⟩
    -- in a store that holds the output the engine must succeed
    have hval := hlook (AList.insert (outputKey s k) "" ∅) ""
    rw [AList.lookup_insert] at hval
    exact dotFree_of_resolve hp hval
  · rintro ⟨s', k', heq, hs', hk'⟩
    obtain ⟨rfl, rfl⟩ := refText_inj_of_dotFree hs' hk' heq
    have hkey : canonicalRefKey (refText s k) = .ok (outputKey s k) :=
      (canonicalRefKey_eq_ok_iff hp).mpr ⟨s, k, rfl, rfl, hs', hk', hsne, hkne⟩
    refine ⟨?_, fun s' k' h => outputKey_inj_of_dotFree hs' hk' h⟩
    intro store key
    cases hl : store.lookup (outputKey s k) with
    | none => simp [resolveBindingValue, hp, hkey, hl]
    | some val => simp [resolveBindingValue, hp, hkey, hl]

theorem verbatim_iff : Verbatim ref ↔ hasPrefix ref dataRefPrefix = false := by
  constructor
  · intro h
    by_contra hp
    rw [Bool.not_eq_false] at hp
    -- nothing is found in the empty store
    have hval := h ∅ ""
    simp only [resolveBindingValue, hp, Bool.not_true, Bool.false_eq_true, if_false,
      AList.lookup_empty] at hval
    grind
  · intro hp store key
    simp [resolveBindingValue, hp]

theorem outputAgrees_iff
    (hparse : hasPrefix ref inputBindingPrefix = true → ∃ s k, parseBindingRef ref = some (s, k)) :
    OutputAgrees ref ↔ (hasPrefix ref dataRefPrefix = true → DotFreeRef ref) := by
  constructor
  · rintro (⟨s, k, hs, hlook⟩ | ⟨-, hverb⟩) hp
    · exact (looksUp_iff hs).mp hlook
    · rw [verbatim_iff.mp hverb] at hp
      exact absurd hp (by simp)
  · intro h
    by_cases hp : hasPrefix ref dataRefPrefix = true
    · obtain ⟨s, k, hs⟩ := hparse (h hp).hasPrefix
      exact Or.inl ⟨s, k, hs, (looksUp_iff hs).mpr (h hp)⟩
    · rw [Bool.not_eq_true] at hp
      refine Or.inr ⟨?_, verbatim_iff.mpr hp⟩
      -- a value with the longer prefix has the shorter one
      by_contra hq
      rw [Bool.not_eq_false] at hq
      obtain ⟨s, k, hs⟩ := hparse hq
      rw [(parseBindingRef_eq_some hs).1, hasPrefix_dataRef_of_refText] at hp
      exact absurd hp (by simp)

theorem inputAgrees_iff {ya : YamlAction} {key : String} {v : Value}
    (hv : ya.input.lookup key = some v)
    (hparse : ∀ ref, ya.toAction.inputBindings.lookup key = some ref →
      ∃ s k, parseBindingRef ref = some (s, k)) :
    InputAgrees ya.toAction key v ↔
      ∀ ref, v = .str ref → hasPrefix ref inputBindingPrefix = true → DotFreeRef ref := by
  obtain ⟨hlit, hbind⟩ := lookup_splitInputBindings hv
  by_cases href : isReference v = true
  · obtain ⟨ref, rfl, hp⟩ := isReference_iff.mp href
    rw [if_pos href] at hlit hbind
    obtain ⟨s, k, hs⟩ := hparse ref hbind
    constructor
    · rintro (⟨ref', s', k', heq, hb, hs', hlook⟩ | ⟨hno, -⟩) ref'' heq'' -
      · obtain rfl := Value.str.inj heq
        obtain rfl := Value.str.inj heq''
        exact (looksUp_iff hs').mp hlook
      · grind
    · intro h
      exact Or.inl ⟨ref, s, k, rfl, hbind, hs, (looksUp_iff hs).mpr (h ref rfl hp)⟩
  · rw [if_neg href] at hlit hbind
    refine iff_of_true (Or.inr ⟨by simpa using href, hlit, hbind, fun c inputs h => ?_⟩) ?_
    · exact (resolveInputs_eq_ok h).2 key hbind
    rintro ref rfl hp
    exact absurd (isReference_iff.mpr ⟨ref, rfl, hp⟩) href

def invoiceState : YamlState where
  type := "terminal"
  outputs := GoMap.ofPairs
    [("customer", .str "$.states.fetch.output.user.name"), ("discount", .str "$.50 off"),
      ("total", .str "$.states.fetch.output.total")]

def invoiceYaml : YamlManifest := workflowYaml "invoice" "fetch"
  [("fetch",
      { actions := [{ capability := "fetch"
                      output := GoMap.ofPairs
                        [("user.name", .str "user.name"), ("total", .str "total")] }]
        on := [{ event := "fetch.completed", goto := "invoice" }] }),
    ("invoice", invoiceState)]

def invoiceManifest : Manifest := plainManifest "invoice" "fetch"
  [("fetch",
      ⟨"fetch", .normal,
        [⟨"fetch", 0, ∅, GoMap.ofPairs [("user.name", "user.name"), ("total", "total")], ∅, false⟩],
        [⟨"fetch.completed", "invoice", "", ∅, ∅⟩], ∅, 0⟩),
    ("invoice",
      ⟨"invoice", .terminal, [], [],
        GoMap.ofPairs [("customer", "$.states.fetch.output.user.name"), ("discount", "$.50 off"),
          ("total", "$.states.fetch.output.total")], 0⟩)]

def invoiceText : List UInt8 := manifestText "invoice" "fetch"
  ("    fetch: \x7bactions: [\x7bcapability: fetch, output: \x7buser.name: user.name, total: total\x7d\x7d],\n" ++
    "      on: [\x7bevent: fetch.completed, goto: invoice\x7d]\x7d\n" ++
    "    invoice: \x7btype: terminal, outputs: \x7bcustomer: $.states.fetch.output.user.name,\n" ++
    "      discount: $.50 off, total: $.states.fetch.output.total\x7d\x7d\n")

theorem parse_invoice : parseManifest (fixedYaml invoiceYaml) invoiceText = .ok invoiceManifest := rfl

theorem build_invoice : build invoiceManifest =
    .ok ⟨"invoice", "default", "fetch", invoiceManifest.states⟩ := by
  rfl

end Zynax.Engine
