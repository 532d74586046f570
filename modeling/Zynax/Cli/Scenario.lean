import Zynax.Golang.Filepath
import Zynax.Golang.Utf8

namespace Zynax.Cli

open Golang Filepath

/-!
# Scenarios

A scenario index declares members, each with a file beside the index, and an order in which they are
applied.  Files may not lead out of the directory of the index.
-/

/-! ### Confined files -/

structure PathErrors where
  empty : Formatted
  absolute : String → Formatted
  escapes : String → Formatted

def confine (errs : PathErrors) (dir file : List UInt8) : Except Formatted (List UInt8) :=
  if file = [] then .error errs.empty
  else if isAbs file then .error (errs.absolute (Utf8.text file))
  else
    let cleanDir := clean dir
    let abs := clean (join [cleanDir, file])
    -- an error of `Rel` is treated like a path that leads upwards
    if (rel cleanDir abs).all escapes then .error (errs.escapes (Utf8.text file)) else .ok abs

def confinePath : List UInt8 → List UInt8 → Except Formatted (List UInt8) :=
  confine
    { empty := ⟨"source file is empty", []⟩
      absolute := fun file =>
        ⟨"source file %q must be relative to the scenario directory", [.str file]⟩
      escapes := fun file => ⟨"source file %q escapes the scenario directory", [.str file]⟩ }

def resolveMemberPath : List UInt8 → List UInt8 → Except Formatted (List UInt8) :=
  confine
    { empty := ⟨"member file is empty", []⟩
      absolute := fun file => ⟨"member file %q must be relative to the index directory", [.str file]⟩
      escapes := fun file => ⟨"member file %q escapes the scenario directory", [.str file]⟩ }

def Confined (dir file : List UInt8) : Prop :=
  file ≠ [] ∧ isAbs file = false ∧ ((Path.ofBytes dir).walk file).Inside (Path.ofBytes dir)

instance (dir file : List UInt8) : Decidable (Confined dir file) :=
  inferInstanceAs (Decidable (file ≠ [] ∧ isAbs file = false ∧
    ((Path.ofBytes dir).walk file).Inside (Path.ofBytes dir)))

def placeOf (dir file : List UInt8) : List UInt8 := ((Path.ofBytes dir).walk file).render

/-- **The confined files are accepted**, and no others. -/
theorem confine_eq_ok_iff (errs : PathErrors) (dir file out : List UInt8) :
    confine errs dir file = .ok out ↔ Confined dir file ∧ out = placeOf dir file := by
  unfold confine Confined placeOf
  by_cases hempty : file = []
  · simp [hempty]
  by_cases habs : isAbs file = true
  · simp [hempty, habs]
  rw [Bool.not_eq_true] at habs
  have hplace : clean (join [clean dir, file]) = ((Path.ofBytes dir).walk file).render := by
    rw [clean_eq dir, Path.join_render, Path.clean_render]
  have hrel := Path.rel_escapes_iff (Path.ofBytes dir) ((Path.ofBytes dir).walk file)
  rw [← hplace, ← clean_eq] at hrel
  have hstays : ¬ (rel (clean dir) (clean (Filepath.join [clean dir, file]))).all escapes = true ↔
      ((Path.ofBytes dir).walk file).Inside (Path.ofBytes dir) := by
    rw [← hrel]
    cases rel (clean dir) (clean (Filepath.join [clean dir, file])) <;> simp
  grind

theorem not_confined {errs : PathErrors} {dir file : List UInt8} {err : Formatted}
    (h : confine errs dir file = .error err) : ¬ Confined dir file := by
  intro hconf
  have hok := (confine_eq_ok_iff errs dir file _).mpr ⟨hconf, rfl⟩
  grind

/-- **Confinement is exact.**  A file is accepted if and only if it is not empty and relative and its
    segments, walked from the directory, end in it; what is returned is the directory extended by the
    names that are left. -/
theorem confinePath_eq_ok_iff (dir file out : List UInt8) :
    confinePath dir file = .ok out ↔
      file ≠ [] ∧ isAbs file = false ∧ ∃ rest : List Name,
        (Path.ofBytes dir).walk file =
          ⟨(Path.ofBytes dir).anchor, (Path.ofBytes dir).names ++ rest⟩ ∧
        out = Path.render ⟨(Path.ofBytes dir).anchor, (Path.ofBytes dir).names ++ rest⟩ := by
  rw [confinePath, confine_eq_ok_iff, Confined, placeOf]
  constructor
  · rintro ⟨⟨hempty, habs, hanchor, rest, hnames⟩, rfl⟩
    have hwalk : (Path.ofBytes dir).walk file =
        ⟨(Path.ofBytes dir).anchor, (Path.ofBytes dir).names ++ rest⟩ := by
      ext1
      · exact hanchor
      · exact hnames.symm
    grind
  · rintro ⟨hempty, habs, rest, hwalk, rfl⟩
    rw [hwalk]
    exact ⟨⟨hempty, habs, rfl, List.prefix_append _ _⟩, rfl⟩

/-! ### Expansion -/

structure IndexMember where
  id : String
  kind : String
  file : List UInt8

structure ScenarioIndex where
  members : List IndexMember
  applyOrder : List String

structure ScenarioMember where
  id : String
  kind : String
  path : List UInt8
  deriving DecidableEq

structure IndexReader where
  readFile : List UInt8 → Except String (List UInt8)
  unmarshal : List UInt8 → Except String ScenarioIndex

def collectMembers (indexPath dir : List UInt8) :
    List IndexMember → GoMap ScenarioMember → Except Formatted (GoMap ScenarioMember)
  | [], byID => .ok byID
  | m :: rest, byID =>
    if m.id = "" then
      .error ⟨"scenario %q: member with empty id", [.str (Utf8.text indexPath)]⟩
    else if (byID.lookup m.id).isSome then
      .error ⟨"scenario %q: duplicate member id %q", [.str (Utf8.text indexPath), .str m.id]⟩
    else
      match resolveMemberPath dir m.file with
      | .error err =>
        .error ⟨"scenario %q: member %q: " ++ err.format,
          [.str (Utf8.text indexPath), .str m.id] ++ err.args⟩
      | .ok abs => collectMembers indexPath dir rest (byID.insert m.id ⟨m.id, m.kind, abs⟩)

def orderMembers (indexPath : List UInt8) (byID : GoMap ScenarioMember) :
    List String → GoSet → Except Formatted (List ScenarioMember)
  | [], _ => .ok []
  | id :: rest, seen =>
    match byID.lookup id with
    | none =>
      .error ⟨"scenario %q: apply_order references unknown member id %q",
        [.str (Utf8.text indexPath), .str id]⟩
    | some m =>
      if (seen.lookup id).isSome then
        .error ⟨"scenario %q: apply_order lists member id %q more than once",
          [.str (Utf8.text indexPath), .str id]⟩
      else (orderMembers indexPath byID rest (seen.insert id ())).map (m :: ·)

/-- `ExpandScenario`: the members in the order to apply them. -/
def expandScenario (r : IndexReader) (indexPath : List UInt8) :
    Except Formatted (List ScenarioMember) :=
  match r.readFile indexPath with
  | .error err => .error ⟨"scenario: read %q: %w", [.str (Utf8.text indexPath), .str err]⟩
  | .ok raw =>
    match r.unmarshal raw with
    | .error err => .error ⟨"scenario: parse %q: %w", [.str (Utf8.text indexPath), .str err]⟩
    | .ok idx =>
      match collectMembers indexPath (dir indexPath) idx.members ∅ with
      | .error err => .error err
      | .ok byID =>
        if idx.applyOrder = [] then
          .error ⟨"scenario %q: apply_order is empty", [.str (Utf8.text indexPath)]⟩
        else orderMembers indexPath byID idx.applyOrder ∅

/-! ### Which indices are expanded -/

def IndexMember.resolved (dir : List UInt8) (m : IndexMember) : ScenarioMember :=
  ⟨m.id, m.kind, placeOf dir m.file⟩

namespace ScenarioIndex

def ids (idx : ScenarioIndex) : List String := idx.members.map (·.id)

structure Accepted (dir : List UInt8) (idx : ScenarioIndex) : Prop where
  named : ∀ m ∈ idx.members, m.id ≠ ""
  distinct : idx.ids.Nodup
  confined : ∀ m ∈ idx.members, Confined dir m.file
  ordered : idx.applyOrder ≠ []
  known : ∀ id ∈ idx.applyOrder, id ∈ idx.ids
  once : idx.applyOrder.Nodup

def byID (dir : List UInt8) (members : List IndexMember) : GoMap ScenarioMember :=
  GoMap.ofPairs (members.map fun m => (m.id, m.resolved dir))

end ScenarioIndex

theorem collectMembers_eq_ok_iff {indexPath dir : List UInt8} {members : List IndexMember}
    {byID out : GoMap ScenarioMember} :
    collectMembers indexPath dir members byID = .ok out ↔
      (∀ m ∈ members, m.id ≠ "" ∧ Confined dir m.file) ∧
      GoMap.Fresh byID (members.map (·.id)) ∧
      out = members.foldl (fun byID m => byID.insert m.id (m.resolved dir)) byID := by
  induction members generalizing byID with
  | nil =>
    rw [collectMembers, Except.ok.injEq]
    exact ⟨fun h => ⟨by simp, GoMap.fresh_nil byID, h.symm⟩, fun h => h.2.2.symm⟩
  | cons m rest ih =>
    rw [collectMembers, List.forall_mem_cons, List.map_cons, GoMap.fresh_cons (m.resolved dir),
      List.foldl_cons]
    by_cases hid : m.id = ""
    · simp [hid]
    by_cases hdup : (byID.lookup m.id).isSome = true
    · grind
    have hfree : byID.lookup m.id = none := by simpa using hdup
    rw [if_neg hid, if_neg hdup]
    cases hpath : resolveMemberPath dir m.file with
    | error err => simp [not_confined hpath]
    | ok abs =>
      obtain ⟨hconf, rfl⟩ := (confine_eq_ok_iff _ dir m.file abs).mp hpath
      dsimp only
      rw [show (⟨m.id, m.kind, placeOf dir m.file⟩ : ScenarioMember) = m.resolved dir from rfl, ih]
      grind

theorem orderMembers_eq_ok_iff {indexPath : List UInt8} {byID : GoMap ScenarioMember}
    {order : List String} {seen : GoSet} {out : List ScenarioMember} :
    orderMembers indexPath byID order seen = .ok out ↔
      order.map byID.lookup = out.map some ∧ GoMap.Fresh seen order := by
  induction order generalizing seen out with
  | nil =>
    rw [orderMembers, Except.ok.injEq]
    cases out <;> simp [GoMap.fresh_nil]
  | cons id rest ih =>
    rw [orderMembers, List.map_cons, GoMap.fresh_cons ()]
    cases hid : byID.lookup id with
    | none => cases out <;> simp
    | some m =>
      by_cases hseen : (seen.lookup id).isSome = true
      · grind
      have hfree : seen.lookup id = none := by simpa using hseen
      dsimp only
      rw [if_neg hseen, map_eq_ok]
      simp only [ih, hfree, true_and]
      constructor
      · grind
      · rintro ⟨hmap, hfresh⟩
        cases out with
        | nil => cases hmap
        | cons m' out =>
          grind

namespace ScenarioIndex

variable {dir : List UInt8} {idx : ScenarioIndex} {out : List ScenarioMember}

theorem lookup_byID (h : idx.ids.Nodup) {id : String}
    {m : ScenarioMember} :
    (byID dir idx.members).lookup id = some m ↔ ∃ x ∈ idx.members, x.id = id ∧ m = x.resolved dir := by
  have hkeys : ((idx.members.map fun m => (m.id, m.resolved dir)).map Prod.fst).Nodup := by
    rw [List.map_map]
    exact h
  rw [byID, GoMap.lookup_ofPairs hkeys, List.mem_map]
  grind

structure Expands (dir : List UInt8) (idx : ScenarioIndex) (out : List ScenarioMember) : Prop where
  order : out.map (·.id) = idx.applyOrder
  declared : ∀ m ∈ out, m ∈ idx.members.map (·.resolved dir)

theorem expands_iff (h : idx.ids.Nodup) :
    idx.applyOrder.map (byID dir idx.members).lookup = out.map some ↔ idx.Expands dir out := by
  have hmember : ∀ (order : List String) (out : List ScenarioMember),
      order.map (byID dir idx.members).lookup = out.map some ↔
        out.map (·.id) = order ∧ ∀ m ∈ out, m ∈ idx.members.map (·.resolved dir) := by
    intro order
    induction order with
    | nil => intro out; cases out <;> simp
    | cons id order ih =>
      intro out
      cases out with
      | nil => simp
      | cons m out =>
        rw [List.map_cons, List.map_cons, List.cons.injEq, List.map_cons, List.cons.injEq,
          List.forall_mem_cons, ih, lookup_byID h]
        have hhead : (∃ x ∈ idx.members, x.id = id ∧ m = x.resolved dir) ↔
            m.id = id ∧ m ∈ idx.members.map (·.resolved dir) := by
          rw [List.mem_map]
          constructor
          · rintro ⟨x, hx, rfl, rfl⟩
            exact ⟨rfl, x, hx, rfl⟩
          · rintro ⟨rfl, x, hx, rfl⟩
            exact ⟨x, hx, rfl, rfl⟩
        grind
  rw [hmember]
  exact ⟨fun h => ⟨h.1, h.2⟩, fun h => ⟨h.1, h.2⟩⟩

theorem Expands.perm_iff (hacc : idx.Accepted dir) (h : idx.Expands dir out) :
    out.Perm (idx.members.map (·.resolved dir)) ↔ ∀ m ∈ idx.members, m.id ∈ idx.applyOrder := by
  have hdecl : (idx.members.map (·.resolved dir)).Nodup :=
    List.Nodup.of_map (·.id) (by rw [List.map_map]; exact hacc.distinct)
  have hout : out.Nodup := List.Nodup.of_map (·.id) (by rw [h.order]; exact hacc.once)
  constructor
  · intro hperm m hm
    have hin : m.resolved dir ∈ out := hperm.mem_iff.mpr (List.mem_map_of_mem hm)
    rw [← h.order]
    exact List.mem_map_of_mem (f := (·.id)) hin
  · intro hall
    rw [List.perm_ext_iff_of_nodup hout hdecl]
    refine fun a => ⟨h.declared a, fun ha => ?_⟩
    obtain ⟨m, hm, rfl⟩ := List.mem_map.mp ha
    -- the member that the order names by this id is this one
    have hid := hall m hm
    rw [← h.order] at hid
    obtain ⟨b, hb, hbid⟩ := List.mem_map.mp hid
    obtain ⟨m', hm', rfl⟩ := List.mem_map.mp (h.declared b hb)
    obtain rfl : m' = m := List.inj_on_of_nodup_map hacc.distinct hm' hm hbid
    exact hb

theorem Accepted.exists_expands (h : idx.Accepted dir) :
    ∃ out, idx.Expands dir out := by
  have hfound : ∀ order : List String, (∀ id ∈ order, id ∈ idx.ids) →
      ∃ out : List ScenarioMember, order.map (byID dir idx.members).lookup = out.map some := by
    intro order
    induction order with
    | nil => exact fun _ => ⟨[], rfl⟩
    | cons id order ih =>
      intro hknown
      rw [List.forall_mem_cons] at hknown
      obtain ⟨out, hout⟩ := ih hknown.2
      obtain ⟨m, hm, hid⟩ := List.mem_map.mp hknown.1
      have hlookup : (byID dir idx.members).lookup id = some (m.resolved dir) :=
        (lookup_byID h.distinct).mpr ⟨m, hm, hid, rfl⟩
      exact ⟨m.resolved dir :: out, by rw [List.map_cons, List.map_cons, hout, hlookup]⟩
  obtain ⟨out, hout⟩ := hfound idx.applyOrder h.known
  exact ⟨out, (expands_iff h.distinct).mp hout⟩

theorem Expands.inside (hacc : idx.Accepted dir) (h : idx.Expands dir out) :
    ∀ m ∈ out, (Path.ofBytes m.path).Inside (Path.ofBytes dir) := by
  intro m hm
  obtain ⟨x, hx, rfl⟩ := List.mem_map.mp (h.declared m hm)
  show (Path.ofBytes (placeOf dir x.file)).Inside _
  rw [placeOf, Path.ofBytes_render]
  exact (hacc.confined x hx).2.2

end ScenarioIndex

/-- **An index is expanded exactly when it is accepted**, to the members that the order names. -/
theorem expandScenario_eq_ok_iff {r : IndexReader} {indexPath raw : List UInt8} {idx : ScenarioIndex}
    (hread : r.readFile indexPath = .ok raw) (hidx : r.unmarshal raw = .ok idx)
    (out : List ScenarioMember) :
    expandScenario r indexPath = .ok out ↔
      idx.Accepted (dir indexPath) ∧ idx.Expands (dir indexPath) out := by
  have hfold : idx.members.foldl (fun byID m => byID.insert m.id (m.resolved (dir indexPath))) ∅ =
      ScenarioIndex.byID (dir indexPath) idx.members := by
    rw [ScenarioIndex.byID, GoMap.ofPairs, List.foldl_map]
  unfold expandScenario
  simp only [hread, hidx]
  constructor
  · intro h
    split at h
    · cases h
    · next byID hcollect =>
      split_ifs at h with horder
      obtain ⟨hmembers, hnodup, rfl⟩ := collectMembers_eq_ok_iff.mp hcollect
      obtain ⟨hmap, honce⟩ := orderMembers_eq_ok_iff.mp h
      rw [GoMap.fresh_empty_iff] at hnodup honce
      rw [hfold, ScenarioIndex.expands_iff hnodup] at hmap
      refine ⟨⟨fun m hm => (hmembers m hm).1, hnodup, fun m hm => (hmembers m hm).2, horder,
        fun id hid => ?_, honce⟩, hmap⟩
      rw [← hmap.order] at hid
      obtain ⟨m, hm, rfl⟩ := List.mem_map.mp hid
      obtain ⟨x, hx, rfl⟩ := List.mem_map.mp (hmap.declared m hm)
      exact List.mem_map_of_mem hx
  · rintro ⟨hacc, hexp⟩
    have hcollect : collectMembers indexPath (dir indexPath) idx.members ∅ =
        .ok (ScenarioIndex.byID (dir indexPath) idx.members) :=
      collectMembers_eq_ok_iff.mpr
        ⟨fun m hm => ⟨hacc.named m hm, hacc.confined m hm⟩, GoMap.fresh_empty_iff.mpr hacc.distinct,
          hfold.symm⟩
    rw [hcollect]
    dsimp only
    rw [if_neg hacc.ordered]
    exact orderMembers_eq_ok_iff.mpr
      ⟨(ScenarioIndex.expands_iff hacc.distinct).mpr hexp, GoMap.fresh_empty_iff.mpr hacc.once⟩

/-- **The expansion of a scenario is a permutation of its members exactly when the order names them
    all.**  An index is expanded if and only if every id is there, once, every file is confined, and
    the order is not empty and names declared ids, none twice.  The members come in that order, from
    the directory of the index; a member that the order does not name is left out. -/
theorem expandScenario_perm_iff {r : IndexReader} {indexPath raw : List UInt8} {idx : ScenarioIndex}
    (hread : r.readFile indexPath = .ok raw) (hidx : r.unmarshal raw = .ok idx) :
    ((∃ out, expandScenario r indexPath = .ok out) ↔ idx.Accepted (dir indexPath)) ∧
      ∀ out, expandScenario r indexPath = .ok out →
        out.map (·.id) = idx.applyOrder ∧
        (∀ m ∈ out, (Path.ofBytes m.path).Inside (Path.ofBytes (dir indexPath))) ∧
        (out.Perm (idx.members.map (·.resolved (dir indexPath))) ↔
          ∀ m ∈ idx.members, m.id ∈ idx.applyOrder) := by
  have hok := expandScenario_eq_ok_iff hread hidx
  refine ⟨⟨?_, fun hacc => ?_⟩, fun out h => ?_⟩
  · grind
  · obtain ⟨out, hout⟩ := hacc.exists_expands
    grind
  · obtain ⟨hacc, hexp⟩ := (hok out).mp h
    exact ⟨hexp.order, hexp.inside hacc, hexp.perm_iff hacc⟩

def reviewIndex (order : List String) : ScenarioIndex where
  members := [⟨"reviewer", "AgentDef", stringBytes "agents/reviewer.yaml"⟩,
    ⟨"review", "Workflow", stringBytes "review.yaml"⟩]
  applyOrder := order

def reviewIndexText (order : List String) : List UInt8 := stringBytes
  ("kind: Scenario\nspec:\n  members:\n    - \x7bid: reviewer, kind: AgentDef, file: agents/reviewer.yaml\x7d\n" ++
    "    - \x7bid: review, kind: Workflow, file: review.yaml\x7d\n" ++
    "  apply_order: [" ++ String.intercalate ", " order ++ "]\n")

def reviewReader (order : List String) : IndexReader where
  readFile := fun _ => .ok (reviewIndexText order)
  unmarshal := fun _ => .ok (reviewIndex order)

def reviewIndexPath : List UInt8 := stringBytes "scenarios/scenario.yaml"

def reviewerMember : ScenarioMember :=
  ⟨"reviewer", "AgentDef", stringBytes "scenarios/agents/reviewer.yaml"⟩

def reviewMember : ScenarioMember := ⟨"review", "Workflow", stringBytes "scenarios/review.yaml"⟩

theorem expandScenario_perm_review :
    ((∃ out, expandScenario (reviewReader ["review", "reviewer"]) reviewIndexPath = .ok out) ↔
        (reviewIndex ["review", "reviewer"]).Accepted (dir reviewIndexPath)) ∧
      ∀ out, expandScenario (reviewReader ["review", "reviewer"]) reviewIndexPath = .ok out →
        out.map (·.id) = ["review", "reviewer"] ∧
        (∀ m ∈ out, (Path.ofBytes m.path).Inside (Path.ofBytes (dir reviewIndexPath))) ∧
        (out.Perm ((reviewIndex ["review", "reviewer"]).members.map
            (·.resolved (dir reviewIndexPath))) ↔
          ∀ m ∈ (reviewIndex ["review", "reviewer"]).members, m.id ∈ ["review", "reviewer"]) :=
  expandScenario_perm_iff
    (show (reviewReader ["review", "reviewer"]).readFile reviewIndexPath = .ok (reviewIndexText _) from rfl) rfl

/-- **A declared member is dropped without an error**: the order names the workflow only. -/
theorem expandScenario_drops_member :
    expandScenario (reviewReader ["review"]) reviewIndexPath = .ok [reviewMember] ∧
      reviewerMember ∈ (reviewIndex ["review"]).members.map (·.resolved (dir reviewIndexPath)) ∧
      reviewerMember ∉ [reviewMember] := by
  refine ⟨by decide +kernel, by decide +kernel, by decide +kernel⟩

end Zynax.Cli
