import Zynax.Cli.Context
import Zynax.Cli.Scenario

namespace Zynax.Cli

open Golang Filepath

/-!
# The context block of a scenario

The values of a scenario context are read from files and cut to a budget of bytes, the first declared
ones first.

* `resolveContext_eq_ok_iff` — the outcome as a whole, for sources that can be read.
-/

/-! ### Reading the sources -/

structure ContextSource where
  key : String
  files : List (List UInt8)

structure ContextBlock where
  sources : List ContextSource
  maxTokens : Int
  overflow : String

def tokenCharsPerToken : Int := 4

abbrev ReadFile : Type := List UInt8 → Except String (List UInt8)

def readSource (readFile : ReadFile) (dir : List UInt8) (key : String) :
    List (List UInt8) → List UInt8 → Except ContextError (List UInt8)
  | [], b => .ok b
  | file :: rest, b =>
    match confinePath dir file with
    | .error err => .error { key, reason := err }
    | .ok abs =>
      match readFile abs with
      | .error err =>
        .error { key, reason := ⟨"read source file %q: %v", [.str (Utf8.text file), .str err]⟩ }
      | .ok content => readSource readFile dir key rest (b ++ content)

def readSources (readFile : ReadFile) (dir : List UInt8) :
    List ContextSource → GoSet → GoMap (List UInt8) → Except ContextError (GoMap (List UInt8))
  | [], _, values => .ok values
  | src :: rest, seen, values =>
    if (seen.lookup src.key).isSome then
      .error { key := src.key, reason := ⟨"duplicate context key", []⟩ }
    else
      match readSource readFile dir src.key src.files [] with
      | .error err => .error err
      | .ok value =>
        readSources readFile dir rest (seen.insert src.key ()) (values.insert src.key value)

/-! ### The budget -/

def truncate : List ContextSource → Int → GoMap (List UInt8) → GoMap (List UInt8)
  | [], _, values => values
  | src :: rest, overage, values =>
    if overage ≤ 0 then values
    else
      let v := values.getD src.key []
      if v.length ≤ overage then truncate rest (overage - v.length) (values.insert src.key [])
      else truncate rest 0 (values.insert src.key (v.drop overage.toNat))

def totalLength (values : GoMap (List UInt8)) : Int :=
  ((values.pairs.map fun e => e.2.length).sum : Nat)

/-- The values within the budget, by the policy for overflow. -/
def enforceBudget (block : ContextBlock) (values : GoMap (List UInt8)) (budget : Int) :
    Except ContextError (GoMap (List UInt8)) :=
  let total := totalLength values
  if total ≤ budget then .ok values
  else if block.overflow = "error" then
    .error { reason := ⟨"combined context ~%d tokens exceeds max_tokens %d",
      [.int (total.tdiv tokenCharsPerToken), .int block.maxTokens]⟩ }
  else .ok (truncate block.sources (total - budget) values)

namespace ContextBlock

def budget (block : ContextBlock) : Int := Int.bmod (block.maxTokens * tokenCharsPerToken) (2 ^ 64)

end ContextBlock

/-- `ResolveContext`: read the sources, then cut them. -/
def resolveContext (readFile : ReadFile) (block : Option ContextBlock) (dir : List UInt8) :
    Except ContextError (GoMap (List UInt8)) :=
  match block with
  | none => .ok ∅
  | some block =>
    match readSources readFile dir block.sources ∅ ∅ with
    | .error err => .error err
    | .ok values => enforceBudget block values block.budget

/-! ### What is read -/

section

variable (readFile : ReadFile) (dir : List UInt8)

def contentOf (file : List UInt8) : List UInt8 := (readFile (placeOf dir file)).toOption.getD []

def Readable (file : List UInt8) : Prop :=
  Confined dir file ∧ ∃ content, readFile (placeOf dir file) = .ok content

def ContextSource.original (src : ContextSource) : List UInt8 :=
  src.files.flatMap (contentOf readFile dir)

namespace ContextBlock

def keys (block : ContextBlock) : List String := block.sources.map (·.key)

structure Resolvable (block : ContextBlock) : Prop where
  distinct : block.keys.Nodup
  readable : ∀ src ∈ block.sources, ∀ file ∈ src.files, Readable readFile dir file

def combined (block : ContextBlock) : List UInt8 := block.sources.flatMap (·.original readFile dir)

def originals (block : ContextBlock) : GoMap (List UInt8) :=
  GoMap.ofPairs (block.sources.map fun src => (src.key, src.original readFile dir))

end ContextBlock

end

variable {readFile : ReadFile} {dir : List UInt8}

theorem readSource_eq_ok_iff {key : String} {files : List (List UInt8)} {b out : List UInt8} :
    readSource readFile dir key files b = .ok out ↔
      (∀ file ∈ files, Readable readFile dir file) ∧ out = b ++ files.flatMap (contentOf readFile dir) := by
  induction files generalizing b with
  | nil =>
    rw [readSource, Except.ok.injEq]
    simp [eq_comm]
  | cons file rest ih =>
    rw [readSource, List.forall_mem_cons, List.flatMap_cons]
    cases hpath : confinePath dir file with
    | error err => simp [Readable, not_confined hpath]
    | ok abs =>
      obtain ⟨hconf, rfl⟩ := (confine_eq_ok_iff _ dir file abs).mp hpath
      dsimp only
      cases hread : readFile (placeOf dir file) with
      | error err => simp [Readable, hread]
      | ok content =>
        have hcontent : contentOf readFile dir file = content := by
          rw [contentOf, hread]
          rfl
        have hreadable : Readable readFile dir file := ⟨hconf, content, hread⟩
        grind

theorem readSources_eq_ok_iff {sources : List ContextSource} {seen : GoSet}
    {values out : GoMap (List UInt8)} :
    readSources readFile dir sources seen values = .ok out ↔
      (∀ src ∈ sources, ∀ file ∈ src.files, Readable readFile dir file) ∧
      GoMap.Fresh seen (sources.map (·.key)) ∧
      out = sources.foldl (fun values src => values.insert src.key (src.original readFile dir)) values := by
  induction sources generalizing seen values with
  | nil =>
    rw [readSources, Except.ok.injEq]
    exact ⟨fun h => ⟨by simp, GoMap.fresh_nil seen, h.symm⟩, fun h => h.2.2.symm⟩
  | cons src rest ih =>
    rw [readSources, List.forall_mem_cons, List.map_cons, GoMap.fresh_cons (), List.foldl_cons]
    by_cases hdup : (seen.lookup src.key).isSome = true
    · grind
    have hfree : seen.lookup src.key = none := by simpa using hdup
    rw [if_neg hdup]
    cases hvalue : readSource readFile dir src.key src.files [] with
    | error err =>
      have hunread : ¬ ∀ file ∈ src.files, Readable readFile dir file := by
        intro h
        have hok : readSource readFile dir src.key src.files [] = .ok _ :=
          readSource_eq_ok_iff.mpr ⟨h, rfl⟩
        grind
      simp [hunread]
    | ok value =>
      obtain ⟨hread, rfl⟩ := readSource_eq_ok_iff.mp hvalue
      dsimp only
      rw [List.nil_append, ih, and_iff_right hread, and_iff_right hfree]
      rfl

/-- **The sources are read** exactly when the keys are distinct and every file can be. -/
theorem readSources_block {block : ContextBlock} {values : GoMap (List UInt8)} :
    readSources readFile dir block.sources ∅ ∅ = .ok values ↔
      block.Resolvable readFile dir ∧ values = block.originals readFile dir := by
  have hfold : block.originals readFile dir =
      block.sources.foldl (fun values src => values.insert src.key (src.original readFile dir)) ∅ := by
    rw [ContextBlock.originals, GoMap.ofPairs, List.foldl_map]
  rw [readSources_eq_ok_iff, GoMap.fresh_empty_iff, hfold]
  constructor
  · rintro ⟨hread, hnodup, hout⟩
    exact ⟨⟨hnodup, hread⟩, hout⟩
  · rintro ⟨hres, hout⟩
    exact ⟨hres.readable, hres.distinct, hout⟩

namespace ContextBlock

variable {block : ContextBlock}

theorem lookup_originals (h : block.keys.Nodup) {src : ContextSource} (hsrc : src ∈ block.sources) :
    (block.originals readFile dir).lookup src.key = some (src.original readFile dir) := by
  have hkeys : ((block.sources.map fun src => (src.key, src.original readFile dir)).map
      Prod.fst).Nodup := by
    rw [List.map_map]
    exact h
  exact (GoMap.lookup_ofPairs hkeys).mpr (List.mem_map.mpr ⟨src, hsrc, rfl⟩)

theorem totalLength_originals (h : block.keys.Nodup) :
    totalLength (block.originals readFile dir) = (block.combined readFile dir).length := by
  have hkeys : ((block.sources.map fun src => (src.key, src.original readFile dir)).map
      Prod.fst).Nodup := by
    rw [List.map_map]
    exact h
  have hperm : (block.originals readFile dir).pairs.Perm
      (block.sources.map fun src => (src.key, src.original readFile dir)) := by
    rw [List.perm_ext_iff_of_nodup (List.Nodup.of_map _ (GoMap.nodup_pairs _))
      (List.Nodup.of_map _ hkeys)]
    intro e
    rw [GoMap.mem_pairs_iff]
    exact GoMap.lookup_ofPairs hkeys
  rw [totalLength, (hperm.map fun e => e.2.length).sum_eq, List.map_map, combined,
    List.length_flatMap]
  rfl

end ContextBlock

/-! ### Trimming -/

variable {sources : List ContextSource}

def trim {α : Type} : Nat → List (List α) → List (List α)
  | _, [] => []
  | n, v :: vs => v.drop n :: trim (n - v.length) vs

@[simp] theorem trim_zero {α : Type} (vs : List (List α)) : trim 0 vs = vs := by
  induction vs with
  | nil => rfl
  | cons v vs ih => rw [trim, List.drop_zero, Nat.zero_sub, ih]

theorem flatten_trim {α : Type} (n : Nat) (vs : List (List α)) :
    (trim n vs).flatten = vs.flatten.drop n := by
  induction vs generalizing n with
  | nil => simp [trim]
  | cons v vs ih => rw [trim, List.flatten_cons, ih, List.flatten_cons, List.drop_append]

def valuesOf (values : GoMap (List UInt8)) (sources : List ContextSource) : List (List UInt8) :=
  sources.map fun src => values.getD src.key []

theorem valuesOf_insert {values : GoMap (List UInt8)} {key : String} (h : key ∉ sources.map (·.key))
    (v : List UInt8) :
    valuesOf (values.insert key v) sources = valuesOf values sources := by
  refine List.map_congr_left fun src hsrc => ?_
  have hne : src.key ≠ key := fun heq => h (heq ▸ List.mem_map_of_mem hsrc)
  rw [GoMap.getD_insert, if_neg hne]

theorem lookup_truncate {key : String}
    (h : key ∉ sources.map (·.key)) (overage : Int) (values : GoMap (List UInt8)) :
    (truncate sources overage values).lookup key = values.lookup key := by
  induction sources generalizing overage values with
  | nil => rfl
  | cons src rest ih =>
    rw [List.map_cons, List.mem_cons, not_or] at h
    rw [truncate]
    dsimp only
    split_ifs
    · rfl
    · rw [ih h.2, AList.lookup_insert_ne h.1]
    · rw [ih h.2, AList.lookup_insert_ne h.1]

theorem truncate_of_le {overage : Int} (h : overage ≤ 0) (sources : List ContextSource)
    (values : GoMap (List UInt8)) : truncate sources overage values = values := by
  cases sources with
  | nil => rfl
  | cons src rest => rw [truncate, if_pos h]

/-- **The loop trims the values in declared order.** -/
theorem truncate_values (h : (sources.map (·.key)).Nodup)
    (overage : Int) (values : GoMap (List UInt8)) :
    valuesOf (truncate sources overage values) sources =
      trim overage.toNat (valuesOf values sources) := by
  induction sources generalizing overage values with
  | nil => rfl
  | cons src rest ih =>
    rw [List.map_cons, List.nodup_cons] at h
    by_cases hdone : overage ≤ 0
    · rw [truncate_of_le hdone, Int.toNat_of_nonpos hdone, trim_zero]
    -- the rest of the loop leaves the value of this source alone
    have hstep : ∀ (o : Int) (v : List UInt8),
        valuesOf (truncate rest o (values.insert src.key v)) (src :: rest) =
          v :: trim o.toNat (valuesOf values rest) := by
      intro o v
      rw [valuesOf, List.map_cons, GoMap.getD, lookup_truncate h.1, AList.lookup_insert]
      show v :: valuesOf _ rest = _
      rw [ih h.2, valuesOf_insert h.1]
    have htrim : trim overage.toNat (valuesOf values (src :: rest)) =
        (values.getD src.key []).drop overage.toNat ::
          trim (overage.toNat - (values.getD src.key []).length) (valuesOf values rest) := rfl
    rw [truncate, if_neg hdone, htrim]
    dsimp only
    split_ifs with hall
    · rw [hstep, List.drop_of_length_le (by omega),
        show (overage - (values.getD src.key []).length).toNat =
          overage.toNat - (values.getD src.key []).length by omega]
    · rw [hstep, show overage.toNat - (values.getD src.key []).length = (0 : Int).toNat by omega]

/-! ### The outcome -/

section

variable {block : ContextBlock} {values : GoMap (List UInt8)}

theorem resolveContext_eq_ok_iff :
    resolveContext readFile (some block) dir = .ok values ↔
      block.Resolvable readFile dir ∧
        (if ((block.combined readFile dir).length : Int) ≤ block.budget then
          values = block.originals readFile dir
        else block.overflow ≠ "error" ∧
          values = truncate block.sources ((block.combined readFile dir).length - block.budget)
            (block.originals readFile dir)) := by
  rw [resolveContext]
  constructor
  · intro h
    split at h
    · cases h
    · next orig hread =>
      obtain ⟨hres, rfl⟩ := readSources_block.mp hread
      rw [enforceBudget, ContextBlock.totalLength_originals hres.distinct] at h
      grind
  · rintro ⟨hres, h⟩
    rw [readSources_block.mpr ⟨hres, rfl⟩]
    dsimp only
    rw [enforceBudget, ContextBlock.totalLength_originals hres.distinct]
    grind

theorem valuesOf_originals (h : block.keys.Nodup) :
    valuesOf (block.originals readFile dir) block.sources =
      block.sources.map (·.original readFile dir) := by
  refine List.map_congr_left fun src hsrc => ?_
  rw [GoMap.getD, ContextBlock.lookup_originals h hsrc]
  rfl

/-- **What comes out is what was read, trimmed to the budget.** -/
theorem valuesOf_resolveContext (h : resolveContext readFile (some block) dir = .ok values) :
    valuesOf values block.sources =
      trim (((block.combined readFile dir).length : Int) - block.budget).toNat
        (block.sources.map (·.original readFile dir)) := by
  obtain ⟨hres, hvalues⟩ := resolveContext_eq_ok_iff.mp h
  split_ifs at hvalues with hfits
  · rw [hvalues, valuesOf_originals hres.distinct, Int.toNat_of_nonpos (by omega), trim_zero]
  · rw [hvalues.2, truncate_values hres.distinct, valuesOf_originals hres.distinct]

theorem budget_eq (hmax : 1 ≤ block.maxTokens ∧ block.maxTokens ≤ 1000000) :
    block.budget = 4 * block.maxTokens := by
  rw [ContextBlock.budget, tokenCharsPerToken, Int.bmod_eq_of_le] <;> omega

/-- **The values of a context are the last bytes of what was read, as many as fit.**  The keys are
    distinct, `max_tokens` is admissible, and the files can be read: under `truncate-oldest` the
    values in declared order are the last bytes read, four for a token, and all of them where they
    fit; under `error` the context is refused exactly when they do not. -/
theorem resolveContext_budget (hkeys : block.keys.Nodup)
    (hmax : 1 ≤ block.maxTokens ∧ block.maxTokens ≤ 1000000)
    (hfiles : ∀ src ∈ block.sources, ∀ file ∈ src.files, Readable readFile dir file) :
    (block.overflow = "truncate-oldest" →
      ∃ values, resolveContext readFile (some block) dir = .ok values ∧
        (block.sources.flatMap fun src => values.getD src.key []) =
          (block.combined readFile dir).drop ((block.combined readFile dir).length -
            min (block.combined readFile dir).length (4 * block.maxTokens).toNat) ∧
        (((block.combined readFile dir).length : Int) ≤ 4 * block.maxTokens →
          ∀ src ∈ block.sources, values.lookup src.key = some (src.original readFile dir))) ∧
    (block.overflow = "error" →
      ((∃ err, resolveContext readFile (some block) dir = .error err) ↔
        4 * block.maxTokens < (block.combined readFile dir).length)) := by
  have hres : block.Resolvable readFile dir := ⟨hkeys, hfiles⟩
  have hbudget := budget_eq hmax
  constructor
  · intro hpolicy
    have hnotError : block.overflow ≠ "error" := by rw [hpolicy]; decide
    obtain ⟨values, hok⟩ : ∃ values, resolveContext readFile (some block) dir = .ok values := by
      by_cases hfits : ((block.combined readFile dir).length : Int) ≤ block.budget
      · exact ⟨_, resolveContext_eq_ok_iff.mpr ⟨hres, by rw [if_pos hfits]⟩⟩
      · exact ⟨_, resolveContext_eq_ok_iff.mpr ⟨hres, by rw [if_neg hfits]; exact ⟨hnotError, rfl⟩⟩⟩
    refine ⟨values, hok, ?_, fun hfits src hsrc => ?_⟩
    · have hvalues := congrArg List.flatten (valuesOf_resolveContext hok)
      rw [flatten_trim, hbudget] at hvalues
      rw [List.flatMap_def]
      refine hvalues.trans ?_
      rw [← List.flatMap_def]
      show (block.combined readFile dir).drop _ = _
      congr 1
      omega
    · have hvalues := (resolveContext_eq_ok_iff.mp hok).2
      rw [if_pos (by omega)] at hvalues
      rw [hvalues, ContextBlock.lookup_originals hkeys hsrc]
  · intro hpolicy
    cases hresult : resolveContext readFile (some block) dir with
    | error err =>
      refine iff_of_true ⟨err, rfl⟩ ?_
      by_contra hfits
      have hok : resolveContext readFile (some block) dir = .ok (block.originals readFile dir) :=
        resolveContext_eq_ok_iff.mpr ⟨hres, by rw [if_pos (by omega)]⟩
      grind
    | ok values =>
      refine iff_of_false (by simp) ?_
      have hvalues := (resolveContext_eq_ok_iff.mp hresult).2
      grind

end

def greetingBlock : ContextBlock where
  sources := [⟨"greeting", [stringBytes "greeting.txt"]⟩]
  maxTokens := 1
  overflow := "truncate-oldest"

def greetingDir : List UInt8 := stringBytes "demo"

def greetingFile (content : String) : ReadFile := fun path =>
  if path = stringBytes "demo/greeting.txt" then .ok (stringBytes content) else .error "no such file"

theorem forall_greeting_file {P : List UInt8 → Prop} (h : P (stringBytes "greeting.txt")) :
    ∀ src ∈ greetingBlock.sources, ∀ file ∈ src.files, P file := by
  intro src hsrc file hfile
  rw [show greetingBlock.sources = [⟨"greeting", [stringBytes "greeting.txt"]⟩] from rfl,
    List.mem_singleton] at hsrc
  grind

theorem readable_greeting (content : String) :
    ∀ src ∈ greetingBlock.sources, ∀ file ∈ src.files,
      Readable (greetingFile content) greetingDir file := by
  have hconf : Confined greetingDir (stringBytes "greeting.txt") ∧
      placeOf greetingDir (stringBytes "greeting.txt") = stringBytes "demo/greeting.txt" := by
    decide +kernel
  apply forall_greeting_file
  exact ⟨hconf.1, stringBytes content, by rw [hconf.2, greetingFile, if_pos rfl]⟩

def lettersBlock : ContextBlock :=
  { greetingBlock with
    sources := [⟨"old", [stringBytes "old.txt"]⟩, ⟨"new", [stringBytes "greeting.txt"]⟩] }

def lettersFile : ReadFile := fun path =>
  if path = stringBytes "demo/old.txt" then .ok (stringBytes "dear")
  else greetingFile "hi" path

theorem readable_letters :
    ∀ src ∈ lettersBlock.sources, ∀ file ∈ src.files, Readable lettersFile greetingDir file := by
  have hconf : ∀ src ∈ lettersBlock.sources, ∀ file ∈ src.files, Confined greetingDir file := by
    decide +kernel
  have hread : ∀ src ∈ lettersBlock.sources, ∀ file ∈ src.files,
      (lettersFile (placeOf greetingDir file)).toOption.isSome := by decide +kernel
  intro src hsrc file hfile
  obtain ⟨content, hcontent⟩ := Option.isSome_iff_exists.mp (hread src hsrc file hfile)
  refine ⟨hconf src hsrc file hfile, content, ?_⟩
  cases hplace : lettersFile (placeOf greetingDir file) <;> simp_all [Except.toOption]

/-- Six bytes of two sources for a budget of four: the older one keeps its last two. -/
theorem resolveContext_budget_letters :
    lettersBlock.combined lettersFile greetingDir = stringBytes "dearhi" ∧
      ∃ values, resolveContext lettersFile (some lettersBlock) greetingDir = .ok values ∧
        (lettersBlock.sources.flatMap fun src => values.getD src.key []) = stringBytes "arhi" := by
  have hall : lettersBlock.combined lettersFile greetingDir = stringBytes "dearhi" := by decide +kernel
  obtain ⟨values, hok, hcut, -⟩ :=
    (resolveContext_budget (by decide) (by decide) readable_letters).1 (show lettersBlock.overflow = _ from rfl)
  refine ⟨hall, values, hok, hcut.trans ?_⟩
  rw [hall]
  decide +kernel

/-! ### Text -/

def SurvivesJson (v : List UInt8) : Prop :=
  ∃ s, Utf8.unmarshal (Utf8.quote v) = some (.str s) ∧ stringBytes s = v

theorem survivesJson_iff {v : List UInt8} : SurvivesJson v ↔ Utf8.Valid v := by
  constructor
  · rintro ⟨s, -, hs⟩
    exact ⟨s.toList, by rw [← Utf8.stringBytes_eq, hs]⟩
  · rintro ⟨l, rfl⟩
    have hquote : Utf8.quote (Utf8.encode l) =
        Utf8.encode (Json.str (String.ofList l)).marshal.toList := by
      rw [Utf8.quote, Utf8.escapeFrom_encode, Json.marshal, String.toList_ofList, Json.encode, Json.quote,
        Json.escapeBody, String.toList_ofList]
    refine ⟨String.ofList l, ?_, (Utf8.encode_eq_stringBytes l).symm⟩
    rw [Utf8.unmarshal, hquote, Utf8.text_encode, String.ofList_toList,
      Json.unmarshal_marshal (by trivial), if_pos (show Json.depth (.str _) ≤ _ from Nat.zero_le _)]

theorem valid_trim_iff {vs : List (List UInt8)} (h : ∀ v ∈ vs, Utf8.Valid v) (n : Nat) :
    (∀ v ∈ trim n vs, Utf8.Valid v) ↔ ∀ b, vs.flatten[n]? = some b → b.IsUTF8FirstByte := by
  induction vs generalizing n with
  | nil => simp [trim]
  | cons v vs ih =>
    rw [List.forall_mem_cons] at h
    obtain ⟨⟨l, rfl⟩, hvs⟩ := h
    rw [trim, List.forall_mem_cons, ih hvs, List.flatten_cons, Utf8.valid_drop_iff]
    rcases Nat.lt_or_ge n (Utf8.encode l).length with hn | hn
    · -- the cut is in this value, and the others are left as they are
      have hrest : ∀ b, vs.flatten[n - (Utf8.encode l).length]? = some b → b.IsUTF8FirstByte := by
        rw [Nat.sub_eq_zero_of_le (Nat.le_of_lt hn)]
        refine (ih hvs 0).mp ?_
        rw [trim_zero]
        exact hvs
      grind
    · grind

section

variable {block : ContextBlock} {values : GoMap (List UInt8)}

theorem mem_keys_of_lookup (h : resolveContext readFile (some block) dir = .ok values) {key : String}
    {v : List UInt8} (hv : values.lookup key = some v) : key ∈ block.keys := by
  by_contra hkey
  have hnone : (block.originals readFile dir).lookup key = none := by
    rw [ContextBlock.originals, GoMap.lookup_ofPairs_map, Option.map_eq_none_iff, List.find?_eq_none]
    intro src hsrc hsame
    rw [List.mem_reverse] at hsrc
    exact hkey (of_decide_eq_true hsame ▸ List.mem_map_of_mem hsrc)
  obtain ⟨-, hvalues⟩ := resolveContext_eq_ok_iff.mp h
  split_ifs at hvalues
  · grind
  · rw [hvalues.2, lookup_truncate hkey, hnone] at hv
    cases hv

theorem forall_values_iff (h : resolveContext readFile (some block) dir = .ok values)
    {P : List UInt8 → Prop} (hP : P []) :
    (∀ key v, values.lookup key = some v → P v) ↔ ∀ v ∈ valuesOf values block.sources, P v := by
  simp only [valuesOf, List.forall_mem_map]
  constructor
  · intro hall src _
    rw [GoMap.getD]
    cases hv : values.lookup src.key with
    | none => exact hP
    | some v => exact hall src.key v hv
  · intro hall key v hv
    obtain ⟨src, hsrc, rfl⟩ := List.mem_map.mp (mem_keys_of_lookup h hv)
    have hsome := hall src hsrc
    rw [GoMap.getD, hv] at hsome
    exact hsome

def ContextBlock.CutBetweenCharacters (readFile : ReadFile) (dir : List UInt8) (block : ContextBlock) :
    Prop :=
  ∀ b, (block.combined readFile dir)[
    (((block.combined readFile dir).length : Int) - block.budget).toNat]? = some b → b.IsUTF8FirstByte

/-- **The values of a context are text exactly when the cut is made between two characters.**  The
    files are text: all values are, and survive being written as JSON, if and only if the first byte
    that the budget leaves begins a character. -/
theorem resolveContext_valid_iff
    (hvalid : ∀ src ∈ block.sources, ∀ file ∈ src.files, Utf8.Valid (contentOf readFile dir file))
    (hok : resolveContext readFile (some block) dir = .ok values) :
    ((∀ key v, values.lookup key = some v → Utf8.Valid v) ↔ block.CutBetweenCharacters readFile dir) ∧
      ((∀ key v, values.lookup key = some v → SurvivesJson v) ↔
        block.CutBetweenCharacters readFile dir) := by
  have horiginal : ∀ v ∈ block.sources.map (·.original readFile dir), Utf8.Valid v := by
    intro v hv
    obtain ⟨src, hsrc, rfl⟩ := List.mem_map.mp hv
    exact Utf8.valid_flatMap (hvalid src hsrc)
  have htext : (∀ key v, values.lookup key = some v → Utf8.Valid v) ↔
      block.CutBetweenCharacters readFile dir := by
    rw [forall_values_iff hok ⟨[], rfl⟩, valuesOf_resolveContext hok, valid_trim_iff horiginal,
      ← List.flatMap_def]
    rfl
  refine ⟨htext, ?_⟩
  simp only [survivesJson_iff]
  exact htext

end

theorem resolveContext_valid_greeting :
    ∃ values, resolveContext (greetingFile "grüß") (some greetingBlock) greetingDir = .ok values ∧
      ((∀ key v, values.lookup key = some v → Utf8.Valid v) ↔
        greetingBlock.CutBetweenCharacters (greetingFile "grüß") greetingDir) ∧
      ((∀ key v, values.lookup key = some v → SurvivesJson v) ↔
        greetingBlock.CutBetweenCharacters (greetingFile "grüß") greetingDir) := by
  have hcontent : contentOf (greetingFile "grüß") greetingDir (stringBytes "greeting.txt") =
      stringBytes "grüß" := by decide +kernel
  obtain ⟨values, hok⟩ : ∃ values,
      resolveContext (greetingFile "grüß") (some greetingBlock) greetingDir = .ok values :=
    ⟨_, resolveContext_eq_ok_iff.mpr ⟨⟨by decide, readable_greeting "grüß"⟩, by
      rw [if_neg (by decide +kernel)]
      exact ⟨by decide, rfl⟩⟩⟩
  refine ⟨values, hok, resolveContext_valid_iff (forall_greeting_file ?_) hok⟩
  exact ⟨"grüß".toList, by rw [hcontent, Utf8.stringBytes_eq]⟩

/-- **A character is cut in two**: of the five bytes of the file the first one is dropped. -/
theorem resolveContext_cuts_character :
    contentOf (greetingFile "élan") greetingDir (stringBytes "greeting.txt") = stringBytes "élan" ∧
      (resolveContext (greetingFile "élan") (some greetingBlock) greetingDir).map
        (·.lookup "greeting") = .ok (some [0xa9, 0x6c, 0x61, 0x6e]) ∧
      ¬ Utf8.Valid [0xa9, 0x6c, 0x61, 0x6e] := by
  refine ⟨by decide +kernel, by decide +kernel, fun h => ?_⟩
  exact absurd h.isFirstByte (by decide)

end Zynax.Cli
