import Zynax.Registry.Scorer

namespace Zynax.Registry

open Golang

/-!
# What a selection is, and why it fails

`Select` against the agents that the index holds.

* `firstEliminating` — the first constraint that no candidate reaches beyond.
-/

/-! ### Constraints one by one -/

def filters : List Stage := [.tags, .language, .model, .gpu, .protocols]

section Filters

variable (u : CaseTables) (k : Constraints)

def met (capability : Capability) : Stage → Bool
  | .tags => k.requiredTags.all (containsFold u capability.selectors.tags)
  | .language =>
    k.requiredLanguage == "" || containsFold u capability.selectors.language k.requiredLanguage
  | .model => k.requiredModel == "" || containsFold u capability.models k.requiredModel
  | .gpu => !k.requireGPU || decide (0 < capability.resources.gpu)
  | .protocols => k.requiredProtocols.all (containsFold u capability.protocols)
  | .none | .ready | .expert _ => true

theorem failedConstraint_eq (capability : Capability) :
    failedConstraint u capability k = filters.find? (fun f => !met u k capability f) := by
  have htags : (k.requiredTags.any fun t => !containsFold u capability.selectors.tags t) =
      !met u k capability .tags := by
    rw [met, List.all_eq_not_any_not, Bool.not_not]
  have hprotocols : (k.requiredProtocols.any fun p => !containsFold u capability.protocols p) =
      !met u k capability .protocols := by
    rw [met, List.all_eq_not_any_not, Bool.not_not]
  have hlanguage : (k.requiredLanguage ≠ "" ∧
      (!containsFold u capability.selectors.language k.requiredLanguage) = true) ↔
        (!met u k capability .language) = true := by
    simp [met]
  have hmodel : (k.requiredModel ≠ "" ∧ (!containsFold u capability.models k.requiredModel) = true) ↔
      (!met u k capability .model) = true := by
    simp [met]
  have hgpu : (k.requireGPU = true ∧ capability.resources.gpu ≤ 0) ↔
      (!met u k capability .gpu) = true := by
    simp [met]
  rw [failedConstraint, htags, hprotocols]
  simp only [hlanguage, hmodel, hgpu, filters, List.find?_cons, List.find?_nil]
  grind

theorem failedConstraint_eq_none_iff (capability : Capability) :
    failedConstraint u capability k = none ↔ ∀ f ∈ filters, met u k capability f = true := by
  rw [failedConstraint_eq, List.find?_eq_none]
  simp

end Filters

/-! ### Agents for a request -/

structure Qualifies (u : CaseTables) (idx : Index) (req : Request) (c : Candidate)
    (capability : Capability) : Prop where
  stored : c ∈ idx.snapshot
  declared : c.capabilityByID req.capability = some capability
  constraints : ∀ f ∈ filters, met u req.constraints capability f = true
  ready : c.ready = true
  expert : req.expertTarget ≠ "" → c.expertScope = req.expertTarget

section Stages

open Classical

variable (u : CaseTables) (idx : Index) (req : Request)

noncomputable def declaring : List Candidate :=
  idx.snapshot.filter (fun c => c.Declares req.capability)

noncomputable def meeting : List Candidate :=
  (declaring idx req).filter fun c => ∃ capability, c.capabilityByID req.capability = some capability ∧
    ∀ f ∈ filters, met u req.constraints capability f = true

noncomputable def serving : List Candidate := (meeting u idx req).filter (fun c => c.ready)

noncomputable def targeted : List Candidate :=
  (serving u idx req).filter (fun c => req.expertTarget ≠ "" → c.expertScope = req.expertTarget)

end Stages

variable {u : CaseTables}

variable {req : Request} {c : Candidate}

theorem satisfies_iff :
    Satisfies u req c = true ↔ ∃ capability, c.capabilityByID req.capability = some capability ∧
      ∀ f ∈ filters, met u req.constraints capability f = true := by
  unfold Satisfies
  cases hcap : c.capabilityByID req.capability with
  | none => simp
  | some capability =>
    simp only [Option.isNone_iff_eq_none, failedConstraint_eq_none_iff, Option.some.injEq,
      exists_eq_left']

theorem mem_declaring {idx : Index} :
    c ∈ declaring idx req ↔ c ∈ idx.snapshot ∧ c.Declares req.capability := by
  simp only [declaring, List.mem_filter, decide_eq_true_eq]

theorem candidates_eq_declaring (ops : List Op) (req : Request) :
    (Index.after ops).candidates req.capability = declaring (Index.after ops) req := by
  have hrep := represents_after ops
  obtain ⟨hmem, hsorted⟩ := hrep.candidates (keyed_surviving ops) req.capability
  obtain ⟨hsnap, hsnapsorted⟩ := hrep.snapshot (keyed_surviving ops)
  have hdecl : (declaring (Index.after ops) req).Pairwise (fun a b => a.key < b.key) :=
    hsnapsorted.sublist List.filter_sublist
  have hnodup : ∀ l : List Candidate, l.Pairwise (fun a b => a.key < b.key) → l.Nodup :=
    fun l hl => hl.imp fun h heq => h.ne (congrArg Candidate.key heq)
  have hperm : ((Index.after ops).candidates req.capability).Perm (declaring (Index.after ops) req) := by
    rw [List.perm_ext_iff_of_nodup (hnodup _ hsorted) (hnodup _ hdecl)]
    intro a
    rw [hmem, mem_declaring, hsnap]
  exact hperm.eq_of_pairwise (fun a b _ _ hab hba => absurd hab hba.asymm) hsorted hdecl

theorem constrained_eq_meeting (ops : List Op) (req : Request) :
    constrained u (Index.after ops) req = meeting u (Index.after ops) req := by
  rw [constrained_eq, candidates_eq_declaring, meeting]
  apply List.filter_congr
  intro c _
  rw [Bool.eq_iff_iff]
  simp only [satisfies_iff, decide_eq_true_eq]

theorem readyOnes_eq_serving (ops : List Op) (req : Request) :
    readyOnes u (Index.after ops) req = serving u (Index.after ops) req := by
  rw [readyOnes, constrained_eq_meeting, serving]

theorem eligible_eq_targeted (ops : List Op) (req : Request) :
    eligible u (Index.after ops) req = targeted u (Index.after ops) req := by
  rw [eligible, readyOnes_eq_serving, targeted]
  split
  · grind
  · rename_i htarget
    symm
    rw [List.filter_eq_self]
    grind

theorem mem_eligible_iff_qualifies (ops : List Op) :
    c ∈ eligible u (Index.after ops) req ↔
      ∃ capability, Qualifies u (Index.after ops) req c capability := by
  rw [mem_eligible, candidates_eq_declaring, satisfies_iff, mem_declaring]
  constructor
  · rintro ⟨⟨hstored, -⟩, ⟨capability, hcap, hmet⟩, hready, hexpert⟩
    exact ⟨capability, hstored, hcap, hmet, hready, hexpert⟩
  · rintro ⟨capability, h⟩
    exact ⟨⟨h.stored, Candidate.declares_iff.mpr ⟨capability, h.declared⟩⟩,
      ⟨capability, h.declared, h.constraints⟩, h.ready, h.expert⟩

/-! ### Scores of any kind -/

section Scores

variable {S : Type} [LT S] [DecidableLT S]

def scoreIn (scoreOf : Capability → Metrics → S) (capID : String) (snap : GoMap Metrics)
    (c : Candidate) : S :=
  scoreOf (matching c capID) (snap.getD c.key {})

def bestBy (scoreOf : Capability → Metrics → S) (capID : String) (snap : GoMap Metrics)
    (best : Candidate) (rest : List Candidate) : Candidate :=
  rest.foldl (fun best c =>
    if scoreIn scoreOf capID snap c < scoreIn scoreOf capID snap best then c else best) best

def stageCounts (u : CaseTables) (idx : Index) (req : Request) : Nat × Nat × Nat × Nat :=
  ((idx.candidates req.capability).length, (constrained u idx req).length,
    (readyOnes u idx req).length, (eligible u idx req).length)

def scoredResult (u : CaseTables) (idx : Index) (req : Request) (snap : GoMap Metrics)
    (best : Candidate) : Result :=
  let counts := stageCounts u idx req
  let m := snap.getD best.key {}
  { chosen := best
    capability := matching best req.capability
    rationale :=
      { candidatesMatched := counts.1
        candidatesAfterConstraints := counts.2.1
        candidatesReady := counts.2.2.1
        candidatesAfterExpertFilter := counts.2.2.2
        mode := .metricsWeighted
        winningFactors := ["load", "latency", "cost"]
        summary := .scored best.key req.capability m.load m.latencyP50Ms
          (matching best req.capability).cost.latencyClass } }

def selectBy (scoreOf : Capability → Metrics → S) (u : CaseTables) (idx : Index) (req : Request)
    (snapshot : Snapshot) (rr : UInt64) : Except SelectError Result × UInt64 :=
  let matched := idx.candidates req.capability
  if matched = [] then (.error (.noCapability req.capability), rr)
  else
    let filtered := filterConstraints u req.capability req.constraints matched [] .none
    if filtered.1 = [] then (.error (.filtered req.capability filtered.2), rr)
    else if readyOnes u idx req = [] then (.error (.filtered req.capability .ready), rr)
    else
      let afterExpert := eligible u idx req
      if afterExpert = [] then (.error (.filtered req.capability (.expert req.expertTarget)), rr)
      else
        let counts := stageCounts u idx req
        if req.roundRobin then
          (.ok (rotate afterExpert req.capability counts .roundRobin ["rotation"] rr), rr + 1)
        else
          match snapshot (afterExpert.map Candidate.key) with
          | none =>
            (.ok (rotate afterExpert req.capability counts .degradedRoundRobin
              ["readiness", "rotation"] rr), rr + 1)
          | some snap =>
            (.ok (scoredResult u idx req snap
              (bestBy scoreOf req.capability snap (afterExpert.headD {}) afterExpert.tail)), rr)

theorem select_eq_selectBy (idx : Index) (req : Request) (snapshot : Snapshot) (rr : UInt64) :
    select u idx req snapshot rr = selectBy score u idx req snapshot rr :=
  rfl

theorem selectBy_error (scoreOf : Capability → Metrics → S) {idx : Index}
    (hnil : eligible u idx req = []) (snapshot : Snapshot) (rr : UInt64) :
    ∃ err, (selectBy scoreOf u idx req snapshot rr).1 = .error err := by
  unfold selectBy
  dsimp only
  rw [if_pos hnil]
  split
  · simp
  split
  · simp
  split
  · simp
  · simp

theorem selectBy_ok (scoreOf : Capability → Metrics → S) {idx : Index}
    (hne : eligible u idx req ≠ []) (snapshot : Snapshot) (rr : UInt64) :
    (∃ mode factors, mode ≠ .metricsWeighted ∧
        (req.roundRobin = true ∨ snapshot ((eligible u idx req).map Candidate.key) = none) ∧
        (selectBy scoreOf u idx req snapshot rr).1 =
          .ok (rotate (eligible u idx req) req.capability (stageCounts u idx req) mode factors rr)) ∨
      ∃ snap, req.roundRobin = false ∧
        snapshot ((eligible u idx req).map Candidate.key) = some snap ∧
        (selectBy scoreOf u idx req snapshot rr).1 = .ok (scoredResult u idx req snap
          (bestBy scoreOf req.capability snap ((eligible u idx req).headD {})
            (eligible u idx req).tail)) := by
  have hready : readyOnes u idx req ≠ [] := by
    intro hnil
    simp [eligible, hnil] at hne
  have hfiltered : (filterConstraints u req.capability req.constraints
      (idx.candidates req.capability) [] .none).1 ≠ [] := by
    intro hnil
    exact hready (by rw [readyOnes, constrained, hnil, List.filter_nil])
  have hmatched : idx.candidates req.capability ≠ [] := by
    intro hnil
    rw [hnil] at hfiltered
    exact hfiltered rfl
  unfold selectBy
  dsimp only
  rw [if_neg hmatched, if_neg hfiltered, if_neg hready, if_neg hne]
  cases hrr : req.roundRobin with
  | true => exact Or.inl ⟨_, _, by simp, Or.inl rfl, rfl⟩
  | false =>
    cases hsnap : snapshot ((eligible u idx req).map Candidate.key) with
    | none => exact Or.inl ⟨_, _, by simp, Or.inr rfl, rfl⟩
    | some snap => exact Or.inr ⟨snap, rfl, rfl, rfl⟩

end Scores

variable {S : Type}

theorem bestBy_split [LinearOrder S] (scoreOf : Capability → Metrics → S) (capID : String)
    (snap : GoMap Metrics) (first : Candidate) (rest : List Candidate) :
    ∃ before after, first :: rest = before ++ bestBy scoreOf capID snap first rest :: after ∧
      (∀ c ∈ before, scoreIn scoreOf capID snap (bestBy scoreOf capID snap first rest) <
        scoreIn scoreOf capID snap c) ∧
      ∀ c ∈ after, scoreIn scoreOf capID snap (bestBy scoreOf capID snap first rest) ≤
        scoreIn scoreOf capID snap c := by
  induction rest using List.reverseRecOn with
  | nil => exact ⟨[], [], rfl, by simp, by simp⟩
  | append_singleton rest c ih =>
    obtain ⟨before, after, hsplit, hbefore, hafter⟩ := ih
    set best := bestBy scoreOf capID snap first rest with hbest
    have hstep : bestBy scoreOf capID snap first (rest ++ [c]) =
        if scoreIn scoreOf capID snap c < scoreIn scoreOf capID snap best then c else best := by
      rw [bestBy, List.foldl_append]
      rfl
    rw [hstep, ← List.cons_append, hsplit]
    split
    · rename_i hlt
      -- the new candidate beats all of the others
      refine ⟨before ++ best :: after, [], rfl, fun x hx => ?_, by simp⟩
      rcases List.mem_append.mp hx with hx | hx
      · exact hlt.trans (hbefore x hx)
      · rcases List.mem_cons.mp hx with rfl | hx
        · exact hlt
        · exact hlt.trans_le (hafter x hx)
    · rename_i hle
      refine ⟨before, after ++ [c], by simp, hbefore, fun x hx => ?_⟩
      rcases List.mem_append.mp hx with hx | hx
      · exact hafter x hx
      · obtain rfl := List.mem_singleton.mp hx
        exact not_lt.mp hle

variable {cands : List Candidate}

theorem bestBy_mem [LinearOrder S] (scoreOf : Capability → Metrics → S) (capID : String)
    (snap : GoMap Metrics) (hne : cands ≠ []) :
    bestBy scoreOf capID snap (cands.headD {}) cands.tail ∈ cands := by
  obtain ⟨first, rest, rfl⟩ := List.exists_cons_of_ne_nil hne
  obtain ⟨before, after, hsplit, -⟩ := bestBy_split scoreOf capID snap first rest
  grind

variable {c : Candidate}

theorem bestBy_le [LinearOrder S] (scoreOf : Capability → Metrics → S) (capID : String)
    (snap : GoMap Metrics) {best : Candidate}
    (hbest : bestBy scoreOf capID snap (cands.headD {}) cands.tail = best)
    (hsorted : cands.Pairwise (fun a b => a.key < b.key)) (hc : c ∈ cands) :
    scoreIn scoreOf capID snap best ≤ scoreIn scoreOf capID snap c ∧
      (scoreIn scoreOf capID snap best = scoreIn scoreOf capID snap c → best.key ≤ c.key) := by
  obtain ⟨first, rest, rfl⟩ := List.exists_cons_of_ne_nil (List.ne_nil_of_mem hc)
  rw [List.headD_cons, List.tail_cons] at hbest
  obtain ⟨before, after, hsplit, hbefore, hafter⟩ := bestBy_split scoreOf capID snap first rest
  rw [hbest] at hsplit hbefore hafter
  rw [hsplit] at hsorted hc
  rcases List.mem_append.mp hc with hc | hc
  · grind
  · rcases List.mem_cons.mp hc with rfl | hc
    · simp
    · have hcons := (List.pairwise_append.mp hsorted).2.1
      exact ⟨hafter c hc, fun _ => ((List.pairwise_cons.mp hcons).1 c hc).le⟩

theorem rotate_mem (hne : cands ≠ []) (capID : String)
    (counts : Nat × Nat × Nat × Nat) (mode : Mode) (factors : List String) (rr : UInt64) :
    (rotate cands capID counts mode factors rr).chosen ∈ cands := by
  have hlt : rr.toNat % cands.length < cands.length := Nat.mod_lt _ (List.length_pos_iff.mpr hne)
  show cands.getD _ {} ∈ cands
  grind

structure Accounted (u : CaseTables) (idx : Index) (req : Request) (r : Rationale) : Prop where
  matched : r.candidatesMatched = (declaring idx req).length
  constrained : r.candidatesAfterConstraints = (meeting u idx req).length
  ready : r.candidatesReady = (serving u idx req).length
  expert : r.candidatesAfterExpertFilter = (targeted u idx req).length
  descending : r.candidatesAfterExpertFilter ≤ r.candidatesReady ∧
    r.candidatesReady ≤ r.candidatesAfterConstraints ∧
      r.candidatesAfterConstraints ≤ r.candidatesMatched
  positive : 1 ≤ r.candidatesAfterExpertFilter

variable {ops : List Op} {req : Request}

theorem accounted_of_counts {r : Rationale}
    (hne : eligible u (Index.after ops) req ≠ [])
    (h : (r.candidatesMatched, r.candidatesAfterConstraints, r.candidatesReady,
      r.candidatesAfterExpertFilter) = stageCounts u (Index.after ops) req) :
    Accounted u (Index.after ops) req r := by
  rw [stageCounts, candidates_eq_declaring, constrained_eq_meeting, readyOnes_eq_serving,
    eligible_eq_targeted] at h
  rw [eligible_eq_targeted] at hne
  obtain ⟨h₁, h₂, h₃, h₄⟩ : _ ∧ _ ∧ _ ∧ _ := by simpa only [Prod.mk.injEq] using h
  refine ⟨h₁, h₂, h₃, h₄, ⟨?_, ?_, ?_⟩, ?_⟩
  · rw [h₃, h₄]
    exact List.length_filter_le _ _
  · rw [h₂, h₃]
    exact List.length_filter_le _ _
  · rw [h₁, h₂]
    exact List.length_filter_le _ _
  · grind

theorem Qualifies.matching_eq {idx : Index} {capability : Capability}
    (h : Qualifies u idx req c capability) : matching c req.capability = capability := by
  rw [matching, h.declared, Option.getD_some]

theorem qualifies_matching (hc : c ∈ eligible u (Index.after ops) req) :
    Qualifies u (Index.after ops) req c (matching c req.capability) := by
  obtain ⟨capability, h⟩ := (mem_eligible_iff_qualifies ops).mp hc
  rwa [h.matching_eq]

theorem eligible_eq_nil_iff :
    eligible u (Index.after ops) req = [] ↔
      ∀ c capability, ¬Qualifies u (Index.after ops) req c capability := by
  constructor
  · intro hnil c capability h
    have hc := (mem_eligible_iff_qualifies ops).mpr ⟨capability, h⟩
    grind
  · intro hnone
    exact List.eq_nil_iff_forall_not_mem.mpr fun c hc => hnone c _ (qualifies_matching hc)

theorem eligible_sorted (ops : List Op) (req : Request) :
    (eligible u (Index.after ops) req).Pairwise (fun a b => a.key < b.key) :=
  ((consistent_after ops).candidates_sorted req.capability).sublist (eligible_sublist _ _)

/-- **Selection is correct.**  For every index, request, source of metrics and total order of scores:
    a call fails exactly when no stored agent qualifies; what it returns is an agent that qualifies,
    with the capability asked for; the counts are the sizes of the sets that the filters leave; and a
    choice by score is one that no qualified agent beats, of those with the same score the one with
    the smallest key. -/
theorem selectBy_correct {S : Type} [LinearOrder S] (u : CaseTables)
    (scoreOf : Capability → Metrics → S) (ops : List Op) (req : Request) (snapshot : Snapshot)
    (rr : UInt64) :
    ((∃ err, (selectBy scoreOf u (Index.after ops) req snapshot rr).1 = .error err) ↔
        ∀ c capability, ¬Qualifies u (Index.after ops) req c capability) ∧
      ∀ res, (selectBy scoreOf u (Index.after ops) req snapshot rr).1 = .ok res →
        Qualifies u (Index.after ops) req res.chosen res.capability ∧
        Accounted u (Index.after ops) req res.rationale ∧
        (res.rationale.mode = .metricsWeighted ↔ req.roundRobin = false ∧
          (snapshot ((targeted u (Index.after ops) req).map Candidate.key)).isSome = true) ∧
        ∀ snap, req.roundRobin = false →
          snapshot ((targeted u (Index.after ops) req).map Candidate.key) = some snap →
          ∀ c capability, Qualifies u (Index.after ops) req c capability →
            scoreOf res.capability (snap.getD res.chosen.key {}) ≤
                scoreOf capability (snap.getD c.key {}) ∧
              (scoreOf res.capability (snap.getD res.chosen.key {}) =
                scoreOf capability (snap.getD c.key {}) → res.chosen.key ≤ c.key) := by
  rw [← eligible_eq_targeted ops req, ← eligible_eq_nil_iff]
  by_cases hnil : eligible u (Index.after ops) req = []
  · obtain ⟨err, herr⟩ := selectBy_error scoreOf hnil snapshot rr
    grind
  · rcases selectBy_ok scoreOf hnil snapshot rr with
      ⟨mode, factors, hmode, hwhy, hok⟩ | ⟨snap, hrr, hsnap, hok⟩
    · -- by rotation
      -- the rotation is taken on request, or for want of metrics
      have hunscored : ∀ snap, req.roundRobin = false →
          snapshot ((eligible u (Index.after ops) req).map Candidate.key) ≠ some snap := by
        grind
      refine ⟨iff_of_false (by simp [hok]) hnil, fun res hres => ?_⟩
      rw [hok] at hres
      cases hres
      refine ⟨qualifies_matching (rotate_mem hnil _ _ _ _ _), accounted_of_counts hnil rfl,
        iff_of_false hmode ?_, fun snap hfalse hsnap => absurd hsnap (hunscored snap hfalse)⟩
      grind
    · -- by score
      refine ⟨iff_of_false (by simp [hok]) hnil, fun res hres => ?_⟩
      rw [hok] at hres
      cases hres
      refine ⟨qualifies_matching (bestBy_mem scoreOf _ snap hnil), accounted_of_counts hnil rfl,
        iff_of_true rfl ⟨hrr, by rw [hsnap]; rfl⟩, ?_⟩
      intro snap' _ hsnap' c capability h
      obtain rfl : snap = snap' := Option.some.inj (hsnap.symm.trans hsnap')
      rw [← h.matching_eq]
      exact bestBy_le scoreOf req.capability snap rfl (eligible_sorted ops req)
        ((mem_eligible_iff_qualifies ops).mpr ⟨capability, h⟩)

/-! ### The stage that a failure names -/

theorem all_upTo_iff {α : Type} [DecidableEq α] {l : List α} {p : α → Bool} {f g : α} (hf : f ∈ l)
    (hg : l.find? (fun a => !p a) = some g) :
    (l.takeWhile (· ≠ f) ++ [f]).all p = true ↔ l.idxOf f < l.idxOf g := by
  induction l with
  | nil => cases hf
  | cons a l ih =>
    rw [List.find?_cons] at hg
    cases hpa : p a with
    | false =>
      -- the first element fails, so nothing comes before it
      obtain rfl : a = g := by simpa [hpa] using hg
      by_cases haf : a = f
      · grind
      · simp [haf, hpa]
    | true =>
      rw [hpa] at hg
      have hpg : p g = false := by simpa using List.find?_some hg
      have hag : a ≠ g := by
        grind
      by_cases haf : a = f
      · subst haf
        simp [hpa, List.idxOf_cons_ne l hag]
      · have hmem : f ∈ l := (List.mem_cons.mp hf).resolve_left (Ne.symm haf)
        rw [List.idxOf_cons_ne l haf, List.idxOf_cons_ne l hag, Nat.succ_lt_succ_iff, ← ih hmem hg]
        simp [haf, hpa]

theorem idxOf_find?_le {α : Type} [DecidableEq α] {l : List α} {p : α → Bool} {g h : α}
    (hfind : l.find? p = some h) (hg : p g = true) : l.idxOf h ≤ l.idxOf g := by
  induction l with
  | nil => cases hfind
  | cons a l ih =>
    grind

section Reported

variable (u : CaseTables) (capID : String) (k : Constraints)

def failure (c : Candidate) : Option Stage :=
  (c.capabilityByID capID).bind (fun capability => failedConstraint u capability k)

def reaches (c : Candidate) (f : Stage) : Bool :=
  match c.capabilityByID capID with
  | none => false
  | some capability => (filters.takeWhile (· ≠ f) ++ [f]).all (met u k capability)

def firstEliminating (cands : List Candidate) : Option Stage :=
  filters.find? (fun f => cands.all (fun c => !reaches u capID k c f))

def reportedStage (cands : List Candidate) : Stage := (filterConstraints u capID k cands [] .none).2

def Stage.rank (f : Stage) : Nat := filters.idxOf f

/-- The last of the candidates that declare the capability. -/
def IsLast (cands : List Candidate) (c : Candidate) : Prop :=
  c.Declares capID ∧ ∃ before after, cands = before ++ c :: after ∧ ∀ d ∈ after, ¬ d.Declares capID

variable {u capID k} {f : Stage} {c : Candidate} {cands : List Candidate}

theorem rank_inj {g : Stage} (hf : f ∈ filters) (h : f.rank = g.rank) : f = g :=
  List.idxOf_inj hf |>.mp h

theorem failure_mem_filters (h : failure u capID k c = some f) :
    f ∈ filters := by
  obtain ⟨capability, -, hf⟩ := Option.bind_eq_some_iff.mp h
  rw [failedConstraint_eq] at hf
  grind

theorem reaches_iff {g : Stage} (hg : failure u capID k c = some g)
    (hf : f ∈ filters) : reaches u capID k c f = true ↔ f.rank < g.rank := by
  obtain ⟨capability, hcap, hfailed⟩ := Option.bind_eq_some_iff.mp hg
  rw [failedConstraint_eq] at hfailed
  rw [reaches, hcap]
  exact all_upTo_iff hf hfailed

theorem filterConstraints_snd (l out : List Candidate) (stage : Stage) :
    (filterConstraints u capID k l out stage).2 =
      (l.filterMap (failure u capID k)).getLastD stage := by
  induction l generalizing out stage with
  | nil => rfl
  | cons c l ih =>
    rw [filterConstraints, List.filterMap_cons, failure]
    cases hcap : c.capabilityByID capID with
    -- who does not declare the capability leaves no trace
    | none => exact ih out stage
    | some capability =>
      cases hf : failedConstraint u capability k with
      | none => simpa [hf] using ih (out ++ [c]) stage
      | some f =>
        simp only [Option.bind_some, hf, List.getLastD_cons]
        exact ih out f

theorem exists_failure (hnone : (filterConstraints u capID k cands [] .none).1 = []) (hc : c ∈ cands)
    (hdecl : c.Declares capID) : ∃ f, failure u capID k c = some f := by
  obtain ⟨capability, hcap⟩ := Candidate.declares_iff.mp hdecl
  have hfst := filterConstraints_fst (u := u) { capability := capID, constraints := k } cands [] .none
  rw [hnone, List.nil_append, eq_comm, List.filter_eq_nil_iff] at hfst
  have hfails := hfst c hc
  rw [Satisfies, hcap] at hfails
  rw [failure, hcap]
  refine Option.ne_none_iff_exists'.mp fun h => hfails ?_
  grind

theorem eliminating_iff (hnone : (filterConstraints u capID k cands [] .none).1 = []) (hf : f ∈ filters) :
    cands.all (fun c => !reaches u capID k c f) = true ↔
      ∀ c ∈ cands, ∀ g, failure u capID k c = some g → g.rank ≤ f.rank := by
  rw [List.all_eq_true]
  refine forall₂_congr fun c hc => ?_
  rw [Bool.not_eq_true', Bool.eq_false_iff]
  by_cases hdecl : c.Declares capID
  · obtain ⟨g, hg⟩ := exists_failure hnone hc hdecl
    rw [ne_eq, reaches_iff hg hf, not_lt, hg]
    simp
  · have hcap : c.capabilityByID capID = none := by
      by_contra hsome
      exact hdecl (Candidate.declares_iff.mpr (Option.ne_none_iff_exists'.mp hsome))
    simp [reaches, failure, hcap]

theorem firstEliminating_eq_iff (hnone : (filterConstraints u capID k cands [] .none).1 = [])
    (hc : c ∈ cands)
    (hf : failure u capID k c = some f) :
    firstEliminating u capID k cands = some f ↔
      ∀ c ∈ cands, ∀ g, failure u capID k c = some g → g.rank ≤ f.rank := by
  have hmem := failure_mem_filters hf
  rw [← eliminating_iff hnone hmem]
  constructor
  · intro h
    exact List.find?_some (p := fun f => cands.all (fun c => !reaches u capID k c f)) h
  · intro h
    obtain ⟨g, hg⟩ : ∃ g, firstEliminating u capID k cands = some g :=
      Option.isSome_iff_exists.mp (List.find?_isSome.mpr ⟨f, hmem, h⟩)
    have hgmem : g ∈ filters := List.mem_of_find?_eq_some hg
    -- nothing before `f` eliminates the candidate that gets there
    have helim := List.find?_some (p := fun f => cands.all (fun c => !reaches u capID k c f)) hg
    have hle : f.rank ≤ g.rank := (eliminating_iff hnone hgmem).mp helim c hc f hf
    have hge : g.rank ≤ f.rank := idxOf_find?_le hg h
    rw [hg, rank_inj hgmem (le_antisymm hge hle)]

theorem declares_of_failure (h : failure u capID k c = some f) :
    c.Declares capID := by
  obtain ⟨capability, hcap, -⟩ := Option.bind_eq_some_iff.mp h
  exact Candidate.declares_iff.mpr ⟨capability, hcap⟩

theorem exists_isLast (h : ∃ c ∈ cands, c.Declares capID) : ∃ c, IsLast capID cands c := by
  have hiff : ∀ c : Candidate, c.Declares capID ↔ (c.capabilityByID capID).isSome = true := fun c =>
    Candidate.declares_iff.trans Option.isSome_iff_exists.symm
  obtain ⟨c, hc, hdecl⟩ := h
  obtain ⟨d, hd⟩ : ∃ d, cands.reverse.find? (fun c => (c.capabilityByID capID).isSome) = some d :=
    Option.isSome_iff_exists.mp (List.find?_isSome.mpr ⟨c, List.mem_reverse.mpr hc, (hiff c).mp hdecl⟩)
  obtain ⟨hd, after, before, hsplit, hafter⟩ := List.find?_eq_some_iff_append.mp hd
  refine ⟨d, (hiff d).mpr hd, before.reverse, after.reverse, ?_, fun d hd => ?_⟩
  · rw [← List.reverse_reverse cands, hsplit]
    simp
  · rw [hiff]
    simpa using hafter d (List.mem_reverse.mp hd)

theorem IsLast.mem (h : IsLast capID cands c) : c ∈ cands := by
  obtain ⟨-, before, after, rfl, -⟩ := h
  simp

theorem IsLast.reportedStage_eq (h : IsLast capID cands c) (hf : failure u capID k c = some f) :
    reportedStage u capID k cands = f := by
  obtain ⟨-, before, after, rfl, hafter⟩ := h
  have hnone : after.filterMap (failure u capID k) = [] := by
    refine List.filterMap_eq_nil_iff.mpr fun d hd => Option.eq_none_iff_forall_ne_some.mpr fun g hg => ?_
    exact hafter d hd (declares_of_failure hg)
  rw [reportedStage, filterConstraints_snd, List.filterMap_append, List.filterMap_cons_some hf, hnone]
  simp

theorem declares_of_reported (h : firstEliminating u capID k cands = some (reportedStage u capID k cands)) :
    ∃ c ∈ cands, c.Declares capID := by
  by_contra hno
  have hfailures : cands.filterMap (failure u capID k) = [] := by
    refine List.filterMap_eq_nil_iff.mpr fun c hc => Option.eq_none_iff_forall_ne_some.mpr fun f hf => ?_
    exact hno ⟨c, hc, declares_of_failure hf⟩
  rw [reportedStage, filterConstraints_snd, hfailures] at h
  exact absurd (List.mem_of_find?_eq_some h) (by decide)

theorem filterConstraints_nil_perm {cands' : List Candidate} (hperm : cands'.Perm cands)
    (hnone : (filterConstraints u capID k cands [] .none).1 = []) :
    (filterConstraints u capID k cands' [] .none).1 = [] := by
  have hfst := fun l => filterConstraints_fst (u := u) { capability := capID, constraints := k } l [] .none
  rw [hfst] at hnone
  rw [hfst]
  exact ((hperm.filter _).trans (List.Perm.of_eq hnone)).eq_nil

theorem firstEliminating_perm {cands' : List Candidate} (hperm : cands'.Perm cands) :
    firstEliminating u capID k cands' = firstEliminating u capID k cands := by
  have hall : ∀ f, cands'.all (fun c => !reaches u capID k c f) =
      cands.all (fun c => !reaches u capID k c f) := fun f => hperm.all_eq
  rw [firstEliminating, firstEliminating, funext hall]

/-- **The stage that is reported is that of the last candidate.**  For every list of candidates none of
    which survives, it is the first eliminating constraint if and only if some candidate declares the
    capability and none gets further than the last one that does; and it is that for every order of the
    candidates if and only if some declare it and all of these fail at the same constraint. -/
theorem reported_stage_iff (u : CaseTables) (capID : String) (k : Constraints) (cands : List Candidate)
    (hnone : (filterConstraints u capID k cands [] .none).1 = []) :
    (firstEliminating u capID k cands = some (reportedStage u capID k cands) ↔
        ∃ c f, IsLast capID cands c ∧ failure u capID k c = some f ∧
          ∀ d ∈ cands, ∀ g, failure u capID k d = some g → g.rank ≤ f.rank) ∧
      ((∀ cands', cands'.Perm cands →
          firstEliminating u capID k cands' = some (reportedStage u capID k cands')) ↔
        (∃ c ∈ cands, c.Declares capID) ∧
          ∀ c ∈ cands, ∀ c' ∈ cands, ∀ f f', failure u capID k c = some f →
            failure u capID k c' = some f' → f = f') := by
  constructor
  · constructor
    · intro h
      obtain ⟨c, hlast⟩ := exists_isLast (declares_of_reported h)
      obtain ⟨f, hf⟩ := exists_failure hnone hlast.mem hlast.1
      rw [hlast.reportedStage_eq hf] at h
      exact ⟨c, f, hlast, hf, (firstEliminating_eq_iff hnone hlast.mem hf).mp h⟩
    · rintro ⟨c, f, hlast, hf, hle⟩
      rw [hlast.reportedStage_eq hf]
      exact (firstEliminating_eq_iff hnone hlast.mem hf).mpr hle
  constructor
  · intro h
    refine ⟨declares_of_reported (h cands (List.Perm.refl _)), ?_⟩
    -- with a failing candidate at the end, its failure is the first eliminating constraint
    have hfirst : ∀ c ∈ cands, ∀ f, failure u capID k c = some f →
        firstEliminating u capID k cands = some f := by
      intro c hc f hf
      obtain ⟨before, after, rfl⟩ := List.append_of_mem hc
      have hperm : (before ++ after ++ [c]).Perm (before ++ c :: after) :=
        List.perm_append_singleton c (before ++ after) |>.trans List.perm_middle.symm
      have hlast : reportedStage u capID k (before ++ after ++ [c]) = f := by
        rw [reportedStage, filterConstraints_snd, List.filterMap_append]
        simp [hf]
      rw [← firstEliminating_perm hperm, h _ hperm, hlast]
    grind
  · -- whichever comes last fails where all the others do
    rintro ⟨⟨c₀, hc₀, hdecl₀⟩, h⟩ cands' hperm
    have hnone' := filterConstraints_nil_perm hperm hnone
    obtain ⟨c, hlast⟩ := exists_isLast ⟨c₀, hperm.mem_iff.mpr hc₀, hdecl₀⟩
    obtain ⟨f, hf⟩ := exists_failure hnone' hlast.mem hlast.1
    rw [hlast.reportedStage_eq hf, firstEliminating_eq_iff hnone' hlast.mem hf]
    intro d hd g hg
    rw [h d (hperm.mem_iff.mp hd) c (hperm.mem_iff.mp hlast.mem) g f hg hf]

end Reported

def taggedAgent (key : String) (tags : List String) : Candidate :=
  { key := key, name := key, ready := true,
    capabilities := [{ id := "review", selectors := { tags := tags } }] }

def largeModel : Constraints := { requiredTags := ["go"], requiredModel := "large" }

theorem reported_stage_furthest :
    firstEliminating asciiTables "review" largeModel [taggedAgent "default/b" [], taggedAgent "default/c" ["go"]] =
      some (reportedStage asciiTables "review" largeModel
        [taggedAgent "default/b" [], taggedAgent "default/c" ["go"]]) := by
  refine (reported_stage_iff asciiTables "review" largeModel
    [taggedAgent "default/b" [], taggedAgent "default/c" ["go"]] (by rfl)).1.mpr ?_
  refine ⟨taggedAgent "default/c" ["go"], .model, ⟨List.mem_singleton_self _, [_], [], rfl, by simp⟩,
    by decide +kernel, fun d hd g hg => ?_⟩
  rcases List.mem_pair.mp hd with rfl | rfl
  · obtain rfl : Stage.tags = g := Option.some.inj (show some Stage.tags = some g from hg)
    decide
  · obtain rfl : Stage.model = g := Option.some.inj (show some Stage.model = some g from hg)
    decide

/-- **A later agent hides how far an earlier one got.**  One agent lacks the model and one the tag;
    the stage is `tags` or `model` by the order of their keys, though only the model excludes both. -/
theorem reported_stage_by_order :
    (select asciiTables (Index.after [.upsert (taggedAgent "default/a" ["go"]),
        .upsert (taggedAgent "default/b" [])]) { capability := "review", constraints := largeModel }
        (fun _ => none) 0).1 = .error (.filtered "review" .tags) ∧
      (select asciiTables (Index.after [.upsert (taggedAgent "default/c" ["go"]),
        .upsert (taggedAgent "default/b" [])]) { capability := "review", constraints := largeModel }
        (fun _ => none) 0).1 = .error (.filtered "review" .model) ∧
      firstEliminating asciiTables "review" largeModel
        [taggedAgent "default/a" ["go"], taggedAgent "default/b" []] = some .model := by
  refine ⟨rfl, rfl, by decide +kernel⟩

end Zynax.Registry
