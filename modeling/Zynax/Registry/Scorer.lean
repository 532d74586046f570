import Mathlib.Data.List.GetD
import Mathlib.Data.List.Perm.Subperm
import Zynax.Golang.Strings
import Zynax.Registry.Index

namespace Zynax.Registry

open Golang

/-!
# Selecting an agent

`Scorer.Select`: the candidates of a capability pass the hard constraints, readiness and the expert
filter, and one of those left is chosen, by score or by rotation.  All rotations share one counter.
-/

/-! ### Requests and results -/

structure Constraints where
  requiredTags : List String := []
  requiredLanguage : String := ""
  requiredModel : String := ""
  requireGPU : Bool := false
  requiredProtocols : List String := []
  deriving DecidableEq

structure Request where
  capability : String
  constraints : Constraints := {}
  roundRobin : Bool := false
  expertTarget : String := ""
  deriving DecidableEq

inductive Stage where
  | none | tags | language | model | gpu | protocols | ready
  | expert (target : String)
  deriving DecidableEq

def Stage.text : Stage → String
  | .none => ""
  | .tags => "tags"
  | .language => "language"
  | .model => "model"
  | .gpu => "gpu"
  | .protocols => "protocols"
  | .ready => "ready"
  | .expert target => "expert:" ++ target

inductive SelectError where
  | noCapability (capability : String)
  | filtered (capability : String) (stage : Stage)
  deriving DecidableEq

def SelectError.message : SelectError → Formatted
  | .noCapability capability => ⟨"no agent declares capability: %q", [.str capability]⟩
  | .filtered capability stage =>
    ⟨"no candidate for %q survives filter: %s", [.str capability, .str stage.text]⟩

structure Metrics where
  load : Float := 0
  latencyP50Ms : Float := 0
  queueDepth : Float := 0

inductive Mode where
  | metricsWeighted | roundRobin | degradedRoundRobin
  deriving DecidableEq

inductive Summary where
  | rotated (key capability verb : String)
  | scored (key capability : String) (load latencyP50Ms : Float) (latencyClass : String)

structure Rationale where
  candidatesMatched : Nat
  candidatesAfterConstraints : Nat
  candidatesReady : Nat
  candidatesAfterExpertFilter : Nat
  mode : Mode
  winningFactors : List String
  summary : Summary

structure Result where
  chosen : Candidate
  capability : Capability
  rationale : Rationale

/-! ### Filters and scores -/

section

variable (u : CaseTables)

def containsFold (haystack : List String) (needle : String) : Bool :=
  haystack.any (fun h => u.equalFold h needle)

/-- The first constraint that a capability does not meet. -/
def failedConstraint (capability : Capability) (k : Constraints) : Option Stage :=
  if k.requiredTags.any (fun t => !containsFold u capability.selectors.tags t) then some .tags
  else if k.requiredLanguage ≠ "" ∧ !containsFold u capability.selectors.language k.requiredLanguage
    then some .language
  else if k.requiredModel ≠ "" ∧ !containsFold u capability.models k.requiredModel then some .model
  else if k.requireGPU ∧ capability.resources.gpu ≤ 0 then some .gpu
  else if k.requiredProtocols.any (fun p => !containsFold u capability.protocols p)
    then some .protocols
  else none

/-- The candidates that meet all constraints, and the stage of the last one dropped. -/
def filterConstraints (capID : String) (k : Constraints) :
    List Candidate → List Candidate → Stage → List Candidate × Stage
  | [], out, stage => (out, stage)
  | c :: rest, out, stage =>
    match c.capabilityByID capID with
    | none => filterConstraints capID k rest out stage
    | some capability =>
      match failedConstraint u capability k with
      | some f => filterConstraints capID k rest out f
      | none => filterConstraints capID k rest (out ++ [c]) stage

end

def costScore (c : Cost) : Float :=
  if c.latencyClass = "low" then 0.1
  else if c.latencyClass = "medium" then 0.5
  else if c.latencyClass = "high" then 1.0
  else c.tokenPrice

/-- Load, latency and cost; less is better. -/
def score (capability : Capability) (m : Metrics) : Float :=
  0.4 * m.load + 0.4 * (m.latencyP50Ms / 1000.0) + 0.2 * costScore capability.cost

def matching (c : Candidate) (capID : String) : Capability := (c.capabilityByID capID).getD {}

def bestOf (capID : String) (snap : GoMap Metrics) (best : Candidate) (rest : List Candidate) :
    Candidate :=
  rest.foldl (fun best c =>
    if score (matching c capID) (snap.getD c.key {}) < score (matching best capID) (snap.getD best.key {})
    then c else best) best

/-! ### The pipeline -/

abbrev Snapshot : Type := List String → Option (GoMap Metrics)

def rotate (cands : List Candidate) (capID : String) (counts : Nat × Nat × Nat × Nat) (mode : Mode)
    (factors : List String) (rr : UInt64) : Result :=
  let chosen := cands.getD (rr.toNat % cands.length) {}
  let verb :=
    if mode = .degradedRoundRobin then "degraded: metrics unavailable; readiness-filtered rotation"
    else "rotation"
  { chosen := chosen
    capability := matching chosen capID
    rationale :=
      { candidatesMatched := counts.1
        candidatesAfterConstraints := counts.2.1
        candidatesReady := counts.2.2.1
        candidatesAfterExpertFilter := counts.2.2.2
        mode := mode
        winningFactors := factors
        summary := .rotated chosen.key capID verb } }

section

variable (u : CaseTables)

def constrained (idx : Index) (req : Request) : List Candidate :=
  (filterConstraints u req.capability req.constraints (idx.candidates req.capability) [] .none).1

def readyOnes (idx : Index) (req : Request) : List Candidate :=
  (constrained u idx req).filter (fun c => c.ready)

def eligible (idx : Index) (req : Request) : List Candidate :=
  if req.expertTarget ≠ "" then (readyOnes u idx req).filter (fun c => c.expertScope == req.expertTarget)
  else readyOnes u idx req

/-- `Select`: filters, then the best score or the rotation. -/
def select (idx : Index) (req : Request) (snapshot : Snapshot) (rr : UInt64) :
    Except SelectError Result × UInt64 :=
  let matched := idx.candidates req.capability
  if matched = [] then (.error (.noCapability req.capability), rr)
  else
    let filtered := filterConstraints u req.capability req.constraints matched [] .none
    if filtered.1 = [] then (.error (.filtered req.capability filtered.2), rr)
    else
      let ready := readyOnes u idx req
      if ready = [] then (.error (.filtered req.capability .ready), rr)
      else
        let afterExpert := eligible u idx req
        if afterExpert = [] then (.error (.filtered req.capability (.expert req.expertTarget)), rr)
        else
          let counts := (matched.length, filtered.1.length, ready.length, afterExpert.length)
          if req.roundRobin then
            (.ok (rotate afterExpert req.capability counts .roundRobin ["rotation"] rr), rr + 1)
          else
            match snapshot (afterExpert.map Candidate.key) with
            -- telemetry is down: degrade to rotation, never fail
            | none =>
              (.ok (rotate afterExpert req.capability counts .degradedRoundRobin
                ["readiness", "rotation"] rr), rr + 1)
            | some snap =>
              let best := bestOf req.capability snap (afterExpert.headD {}) afterExpert.tail
              let m := snap.getD best.key {}
              (.ok
                { chosen := best
                  capability := matching best req.capability
                  rationale :=
                    { candidatesMatched := matched.length
                      candidatesAfterConstraints := filtered.1.length
                      candidatesReady := ready.length
                      candidatesAfterExpertFilter := afterExpert.length
                      mode := .metricsWeighted
                      winningFactors := ["load", "latency", "cost"]
                      summary := .scored best.key req.capability m.load m.latencyP50Ms
                        (matching best req.capability).cost.latencyClass } }, rr)

end

/-! ### What the filters leave -/

variable {u : CaseTables} {idx : Index}

def Satisfies (u : CaseTables) (req : Request) (c : Candidate) : Bool :=
  match c.capabilityByID req.capability with
  | none => false
  | some capability => (failedConstraint u capability req.constraints).isNone

theorem filterConstraints_fst (req : Request) (l out : List Candidate) (stage : Stage) :
    (filterConstraints u req.capability req.constraints l out stage).1 =
      out ++ l.filter (Satisfies u req) := by
  induction l generalizing out stage with
  | nil => simp [filterConstraints]
  | cons c l ih =>
    rw [filterConstraints, List.filter_cons, Satisfies]
    grind

theorem constrained_eq (idx : Index) (req : Request) :
    constrained u idx req = (idx.candidates req.capability).filter (Satisfies u req) :=
  filterConstraints_fst req _ [] .none

theorem eligible_sublist (idx : Index) (req : Request) :
    (eligible u idx req).Sublist (idx.candidates req.capability) := by
  have hready : (readyOnes u idx req).Sublist (idx.candidates req.capability) := by
    rw [readyOnes, constrained_eq]
    simp
  unfold eligible
  split
  · exact List.filter_sublist.trans hready
  · exact hready

theorem mem_eligible {req : Request} {c : Candidate} :
    c ∈ eligible u idx req ↔ c ∈ idx.candidates req.capability ∧ Satisfies u req c = true ∧
      c.ready = true ∧ (req.expertTarget ≠ "" → c.expertScope = req.expertTarget) := by
  have hready : c ∈ readyOnes u idx req ↔
      c ∈ idx.candidates req.capability ∧ Satisfies u req c = true ∧ c.ready = true := by
    rw [readyOnes, constrained_eq, List.mem_filter, List.mem_filter, and_assoc]
  unfold eligible
  grind

theorem nodup_eligible (ops : List Op) (req : Request) : (eligible u (Index.after ops) req).Nodup := by
  apply (eligible_sublist _ _).nodup
  exact ((consistent_after ops).candidates_sorted req.capability).imp fun h heq =>
    h.ne (congrArg Candidate.key heq)

/-! ### What a call can do -/

theorem bestOf_mem (capID : String) (snap : GoMap Metrics) (best : Candidate) (rest : List Candidate) :
    bestOf capID snap best rest ∈ best :: rest := by
  unfold bestOf
  induction rest generalizing best with
  | nil => simp
  | cons c rest ih =>
    grind

structure Call where
  req : Request
  snapshot : Snapshot

def Call.rotates (u : CaseTables) (idx : Index) (c : Call) : Bool :=
  !(eligible u idx c.req).isEmpty &&
    (c.req.roundRobin || (c.snapshot ((eligible u idx c.req).map Candidate.key)).isNone)

/-- **Everything a call can do**: fail because nobody is eligible, choose the agent at the
    counter's position and advance the counter, or choose some eligible agent by its score. -/
theorem select_cases (idx : Index) (c : Call) (rr : UInt64) :
    (eligible u idx c.req = [] ∧ ∃ err, select u idx c.req c.snapshot rr = (.error err, rr)) ∨
      (c.rotates u idx = true ∧ ∃ res, select u idx c.req c.snapshot rr = (.ok res, rr + 1) ∧
        res.chosen = (eligible u idx c.req).getD (rr.toNat % (eligible u idx c.req).length) {}) ∨
      (c.rotates u idx = false ∧ ∃ res, select u idx c.req c.snapshot rr = (.ok res, rr) ∧
        res.chosen ∈ eligible u idx c.req) := by
  have hsub := eligible_sublist (u := u) idx c.req
  have hready : eligible u idx c.req ≠ [] → readyOnes u idx c.req ≠ [] := by
    intro hne hnil
    simp [eligible, hnil] at hne
  have hcon : readyOnes u idx c.req ≠ [] → constrained u idx c.req ≠ [] := by
    intro hne hnil
    simp [readyOnes, hnil] at hne
  by_cases hnil : eligible u idx c.req = []
  · -- one of the four checks fails
    refine Or.inl ⟨hnil, ?_⟩
    unfold select
    dsimp only
    rw [if_pos hnil]
    split
    · simp
    split
    · simp
    split
    · simp
    · simp
  · have hmatched : idx.candidates c.req.capability ≠ [] := by
      grind
    have hfiltered : (filterConstraints u c.req.capability c.req.constraints
        (idx.candidates c.req.capability) [] .none).1 ≠ [] := hcon (hready hnil)
    have hempty : (eligible u idx c.req).isEmpty = false := by simpa using hnil
    refine Or.inr ?_
    unfold select
    dsimp only
    rw [if_neg hmatched, if_neg hfiltered, if_neg (hready hnil), if_neg hnil]
    by_cases hrr : c.req.roundRobin = true
    · rw [if_pos hrr]
      exact Or.inl ⟨by simp [Call.rotates, hempty, hrr], _, rfl, rfl⟩
    · rw [if_neg hrr]
      cases hsnap : c.snapshot ((eligible u idx c.req).map Candidate.key) with
      | none => exact Or.inl ⟨by simp [Call.rotates, hempty, hsnap], _, rfl, rfl⟩
      | some snap =>
        refine Or.inr ⟨by simp [Call.rotates, hrr, hsnap], _, rfl, ?_⟩
        obtain ⟨first, rest, hcons⟩ := List.exists_cons_of_ne_nil hnil
        show bestOf c.req.capability snap ((eligible u idx c.req).headD {}) _ ∈ _
        rw [hcons]
        exact bestOf_mem _ _ first rest

theorem chosen_mem_eligible {req : Request} {snapshot : Snapshot} {rr rr' : UInt64}
    {res : Result} (h : select u idx req snapshot rr = (.ok res, rr')) :
    res.chosen ∈ eligible u idx req := by
  have hsame : ∀ res' rr'', select u idx req snapshot rr = (.ok res', rr'') → res' = res := by
    grind
  rcases select_cases (u := u) idx ⟨req, snapshot⟩ rr with
    ⟨-, err, herr⟩ | ⟨hrot, res', hres, hchosen⟩ | ⟨-, res', hres, hmem⟩
  · grind
  · obtain rfl := hsame res' _ hres
    have hne : eligible u idx req ≠ [] := by
      intro hnil
      simp [Call.rotates, hnil] at hrot
    have hlt : rr.toNat % (eligible u idx req).length < (eligible u idx req).length :=
      Nat.mod_lt _ (List.length_pos_iff.mpr hne)
    grind
  · grind

/-! ### Runs of calls -/

def picks (u : CaseTables) (idx : Index) (R : Request) : UInt64 → List Call → List Candidate
  | _, [] => []
  | rr, c :: calls =>
    let r := select u idx c.req c.snapshot rr
    let picked :=
      match r.1 with
      | .ok res => if c.req = R then [res.chosen] else []
      | .error _ => []
    picked ++ picks u idx R r.2 calls

def turns (u : CaseTables) (idx : Index) (R : Request) : Nat → List Call → List Nat
  | _, [] => []
  | k, c :: calls =>
    (if c.req = R then [k] else []) ++
      turns u idx R (if c.rotates u idx then k + 1 else k) calls

theorem length_turns (idx : Index) (R : Request) (k : Nat) (calls : List Call) :
    (turns u idx R k calls).length = (calls.filter (fun c => c.req = R)).length := by
  induction calls generalizing k with
  | nil => rfl
  | cons c calls ih =>
    rw [turns, List.length_append, ih, List.filter_cons]
    grind

def position (n : Nat) (rr : UInt64) (k : Nat) : Nat := (rr.toNat + k) % 2 ^ 64 % n

theorem picks_eq {R : Request} (rr : UInt64) (k : Nat) {calls : List Call}
    (hrot : ∀ c ∈ calls, c.req = R → c.rotates u idx = true) :
    picks u idx R (rr + UInt64.ofNat k) calls =
      (turns u idx R k calls).map (fun k =>
        (eligible u idx R).getD (position (eligible u idx R).length rr k) {}) := by
  induction calls generalizing k with
  | nil => rfl
  | cons c calls ih =>
    have hrest := fun k => ih k fun c' hc' => hrot c' (List.mem_cons_of_mem c hc')
    have hnext : rr + UInt64.ofNat k + 1 = rr + UInt64.ofNat (k + 1) := by
      rw [UInt64.ofNat_add, UInt64.add_assoc]
      rfl
    have hother : c.rotates u idx = false → c.req ≠ R := by
      grind
    rw [picks, turns, List.map_append]
    rcases select_cases (u := u) idx c (rr + UInt64.ofNat k) with
      ⟨hnil, err, hsel⟩ | ⟨hc, res, hsel, hchosen⟩ | ⟨hc, res, hsel, -⟩
    · -- nobody is eligible, so this is not a call for `R`
      have hc : c.rotates u idx = false := by simp [Call.rotates, hnil]
      grind
    · rw [hsel, hc, hnext, hrest]
      by_cases hR : c.req = R
      · have hpos : (rr + UInt64.ofNat k).toNat = (rr.toNat + k) % 2 ^ 64 := by
          simp
        simp [hR, hchosen, hpos, position]
      · simp [hR]
    · grind

theorem perm_map_getD_iff {α : Type} {l : List α} (hl : l.Nodup) (d : α) (ps : List Nat)
    (hlen : ps.length = l.length) (hlt : ∀ p ∈ ps, p < l.length) :
    (ps.map (fun p => l.getD p d)).Perm l ↔ ps.Nodup := by
  constructor
  · intro hperm
    exact (hperm.nodup_iff.mpr hl).of_map
  · intro hnodup
    have hrange : ps.Perm (List.range l.length) := by
      have hsub : ps.Subperm (List.range l.length) :=
        hnodup.subperm fun p hp => List.mem_range.mpr (hlt p hp)
      exact hsub.perm_of_length_le (by rw [List.length_range, hlen])
    have hself : (List.range l.length).map (fun p => l.getD p d) = l := by
      apply List.ext_getElem
      · simp
      · grind
    grind

/-- **Rotation is complete exactly when its selections fall on different positions.**  On a fixed
    index, as many selections for `R` as there are eligible agents, each served by rotation, choose
    every one exactly once if and only if the positions of the shared counter at these selections are
    pairwise different. -/
theorem rotation_complete_iff {ops : List Op} {R : Request} {calls : List Call}
    (hlen : (calls.filter (fun c => c.req = R)).length = (eligible u (Index.after ops) R).length)
    (hrot : ∀ c ∈ calls, c.req = R → c.rotates u (Index.after ops) = true) (rr : UInt64) :
    (picks u (Index.after ops) R rr calls).Perm (eligible u (Index.after ops) R) ↔
      ((turns u (Index.after ops) R 0 calls).map
        (position (eligible u (Index.after ops) R).length rr)).Nodup := by
  have hpicks := picks_eq rr 0 hrot
  rw [show rr + UInt64.ofNat 0 = rr from UInt64.add_zero rr] at hpicks
  have hturns := length_turns (u := u) (Index.after ops) R 0 calls
  -- the agents are taken from the list of the eligible ones by their positions
  have hiff := perm_map_getD_iff (nodup_eligible (u := u) ops R) {}
    ((turns u (Index.after ops) R 0 calls).map (position (eligible u (Index.after ops) R).length rr))
    (by rw [List.length_map, hturns, hlen])
    (by
      intro p hp
      obtain ⟨k, hk, rfl⟩ := List.mem_map.mp hp
      apply Nat.mod_lt
      rw [← hlen, ← hturns]
      exact List.length_pos_of_mem hk)
  rw [List.map_map] at hiff
  rw [hpicks]
  exact hiff

/-! ### Two reviewers and a tester -/

def readyAgent (key capID : String) : Candidate :=
  { key := key, name := key, ready := true, capabilities := [{ id := capID }] }

def fleetOps : List Op :=
  [.upsert (readyAgent "default/a" "review"), .upsert (readyAgent "default/b" "review"),
    .upsert (readyAgent "default/t" "test")]

def reviewRequest : Request := { capability := "review", roundRobin := true }

def testRequest : Request := { capability := "test", roundRobin := true }

def callOf (req : Request) : Call := ⟨req, fun _ => none⟩

theorem rotation_complete_reviews :
    (picks asciiTables (Index.after fleetOps) reviewRequest 0
        [callOf reviewRequest, callOf reviewRequest]).Perm
      (eligible asciiTables (Index.after fleetOps) reviewRequest) := by
  refine (rotation_complete_iff (by decide +kernel) ?_ 0).mpr (by decide +kernel)
  intro c hc _
  rw [show c = callOf reviewRequest by simpa using hc]
  decide +kernel

/-- **A selection for another capability skips a turn.**  With one selection of a tester between
    two selections of a reviewer, the same reviewer is chosen twice and the other one never. -/
theorem rotation_skips_reviewer :
    (eligible asciiTables (Index.after fleetOps) reviewRequest).map Candidate.key =
        ["default/a", "default/b"] ∧
      (picks asciiTables (Index.after fleetOps) reviewRequest 0
        [callOf reviewRequest, callOf testRequest, callOf reviewRequest]).map Candidate.key =
          ["default/a", "default/a"] ∧
      ¬(picks asciiTables (Index.after fleetOps) reviewRequest 0
        [callOf reviewRequest, callOf testRequest, callOf reviewRequest]).Perm
          (eligible asciiTables (Index.after fleetOps) reviewRequest) := by
  have hall : (eligible asciiTables (Index.after fleetOps) reviewRequest).map Candidate.key =
      ["default/a", "default/b"] := by decide +kernel
  have hpicked : (picks asciiTables (Index.after fleetOps) reviewRequest 0
      [callOf reviewRequest, callOf testRequest, callOf reviewRequest]).map Candidate.key =
        ["default/a", "default/a"] := by decide +kernel
  refine ⟨hall, hpicked, fun hperm => ?_⟩
  have hkeys := hperm.map Candidate.key
  rw [hall, hpicked] at hkeys
  exact absurd hkeys (by decide)

end Zynax.Registry
