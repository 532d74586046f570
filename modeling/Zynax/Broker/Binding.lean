import Zynax.Broker.ContextSlice

namespace Zynax.Broker

open Golang

/-!
# Binding a context slice

What an expert receives does not depend on the slice a caller puts into the payload.
-/

def SameExceptSlice (payload payload' : String) : Prop :=
  ∃ fields fields', Json.decodeRaw payload = some fields ∧ Json.decodeRaw payload' = some fields' ∧
    ∀ k, k ≠ "context_slice" → fields'.lookup k = fields.lookup k

structure BoundTo (payload : String) (agents : List AgentInfo) (expert : String) (agent : AgentInfo)
    (bound : String) : Prop where
  mem : agent ∈ agents
  isExpert : agent.name = expert ∨ agent.agentID = expert
  fields : ∃ slice fields fields', declaredSlice agent.inputSchema = .ok slice ∧
    Json.decodeObject payload = some fields ∧ Json.decodeObject bound = some fields' ∧
    (∀ k, k ≠ "context_slice" → fields'.lookup k = fields.lookup k) ∧
    fields'.lookup "context_slice" = slice.map ContextSlice.toJson
  target : expertTarget bound = some expert
  again : prepareExpertDispatch bound agents = .ok ([agent], bound)

/-! ### The slice as a raw message -/

theorem ContextSlice.isRaw (slice : ContextSlice) :
    Json.IsRaw slice.toJson.encode ∧ Json.rawValue slice.toJson.encode = slice.toJson ∧
      slice.toJson.depth < Json.maxNestingDepth := by
  have hfiles : ∀ x ∈ slice.files.map Json.str, x.NumbersOk ∧ x.depth ≤ 0 := by
    intro x hx
    obtain ⟨s, -, rfl⟩ := List.mem_map.mp hx
    exact ⟨True.intro, le_refl _⟩
  have hnum : slice.toJson.NumbersOk :=
    ⟨Json.numbersOkElems_iff.mpr fun x hx => (hfiles x hx).1, isNumber_decimalInt _, True.intro⟩
  have hreads := Json.reads_encode _ hnum
  refine ⟨hreads.isRaw, hreads.rawValue_eq, ?_⟩
  have hdepth : Json.depthElems (slice.files.map .str) ≤ 0 :=
    Json.depthElems_le_iff.mpr fun x hx => (hfiles x hx).2
  simp only [toJson, Json.depth, Json.depthFields, Json.maxNestingDepth]
  omega

theorem lookup_replaceSlice (fields : GoMap (List Char)) (slice : Option ContextSlice) (k : String) :
    (replaceSlice fields slice).lookup k =
      if k = "context_slice" then slice.map (fun s => s.toJson.encode) else fields.lookup k := by
  by_cases hk : k = "context_slice"
  · subst hk
    cases slice with
    | none => exact AList.lookup_erase _ _
    | some s => exact AList.lookup_insert _
  · rw [if_neg hk]
    cases slice with
    | none => exact AList.lookup_erase_ne hk
    | some s => exact (AList.lookup_insert_ne hk).trans (AList.lookup_erase_ne hk)

/-! ### One dispatch -/

variable {payload expert bound : String} {agents : List AgentInfo} {slice : Option ContextSlice}

theorem expertTarget_eq {fields : GoMap Json}
    (h : Json.decodeObject payload = some fields) :
    expertTarget payload = (fields.lookup "expert").bind fun v =>
      match v with
      | .str expert => if expert = "" then none else some expert
      | _ => none := by
  rw [expertTarget, h]
  dsimp only
  cases fields.lookup "expert" with
  | none => rfl
  | some v => cases v <;> rfl

theorem exists_decodeObject_of_target (h : expertTarget payload = some expert) :
    ∃ fields, Json.decodeObject payload = some fields := by
  rw [expertTarget] at h
  grind

theorem prepareExpertDispatch_eq_ok {out : List AgentInfo}
    (ht : expertTarget payload = some expert) :
    prepareExpertDispatch payload agents = .ok (out, bound) ↔
      ∃ agent slice, selectExpert agents expert = some agent ∧
        declaredSlice agent.inputSchema = .ok slice ∧ bindContextSlice payload slice = .ok bound ∧
        out = [agent] := by
  rw [prepareExpertDispatch, ht]
  grind

theorem selectExpert_eq_some {agent : AgentInfo}
    (h : selectExpert agents expert = some agent) :
    agent ∈ agents ∧ (agent.name = expert ∨ agent.agentID = expert) := by
  refine ⟨List.mem_of_find?_eq_some h, ?_⟩
  simpa using List.find?_some h

theorem decodeRaw_bound {fields : GoMap (List Char)}
    (hfields : Json.decodeRaw payload = some fields)
    (hbind : bindContextSlice payload slice = .ok bound) :
    ∃ fields', Json.decodeRaw bound = some fields' ∧
      ∀ k, fields'.lookup k = ((replaceSlice fields slice).lookup k).map Json.compact := by
  rw [bindContextSlice, hfields] at hbind
  obtain rfl := Except.ok.inj hbind
  obtain ⟨values, hvalues⟩ := Json.exists_decodeObject hfields
  obtain ⟨fields₀, hfields₀, -, hraw⟩ := Json.exists_decodeRaw hvalues
  obtain rfl := Option.some.inj (hfields₀.symm.trans hfields)
  apply Json.decodeRaw_marshalRaw
  intro k raw hk
  rw [lookup_replaceSlice] at hk
  split at hk
  · obtain ⟨s, -, rfl⟩ := Option.map_eq_some_iff.mp hk
    obtain ⟨hisRaw, hvalue, hdepth⟩ := s.isRaw
    grind
  · exact hraw k raw hk

theorem decodeObject_bound {fields : GoMap Json}
    (hfields : Json.decodeObject payload = some fields)
    (hbind : bindContextSlice payload slice = .ok bound) :
    ∃ fields', Json.decodeObject bound = some fields' ∧
      ∀ k, fields'.lookup k =
        if k = "context_slice" then slice.map ContextSlice.toJson else fields.lookup k := by
  obtain ⟨raws, hraws, hvalue, hraw⟩ := Json.exists_decodeRaw hfields
  obtain ⟨raws', hraws', hlookup⟩ := decodeRaw_bound hraws hbind
  obtain ⟨fields', hfields'⟩ := Json.exists_decodeObject hraws'
  obtain ⟨raws₁, hraws₁, hvalue', -⟩ := Json.exists_decodeRaw hfields'
  obtain rfl := Option.some.inj (hraws₁.symm.trans hraws')
  refine ⟨fields', hfields', fun k => ?_⟩
  rw [hvalue', hlookup, lookup_replaceSlice, Option.map_map]
  split
  · cases slice with
    | none => rfl
    | some s =>
      obtain ⟨hisRaw, hs, -⟩ := s.isRaw
      simp only [Option.map_some, Function.comp_apply, hisRaw.compact.2, hs]
  · rw [hvalue]
    cases hk : raws.lookup k with
    | none => rfl
    | some raw => simp only [Option.map_some, Function.comp_apply, (hraw k raw hk).1.compact.2]

theorem bindContextSlice_bound {fields : GoMap (List Char)}
    (hfields : Json.decodeRaw payload = some fields)
    (hbind : bindContextSlice payload slice = .ok bound) :
    bindContextSlice bound slice = .ok bound := by
  obtain ⟨fields', hfields', hlookup⟩ := decodeRaw_bound hfields hbind
  rw [bindContextSlice, hfields] at hbind
  rw [bindContextSlice, hfields', ← hbind]
  dsimp only
  congr 1
  apply Json.marshalRaw_congr
  intro k
  rw [lookup_replaceSlice, hlookup, lookup_replaceSlice]
  split
  · rfl
  · rw [Option.map_map]
    exact congrFun (congrArg Option.map (funext Json.compact_compact)) _

theorem boundTo_of_prepare {out : List AgentInfo}
    (ht : expertTarget payload = some expert)
    (h : prepareExpertDispatch payload agents = .ok (out, bound)) :
    ∃ agent, out = [agent] ∧ BoundTo payload agents expert agent bound := by
  obtain ⟨agent, slice, hselect, hslice, hbind, rfl⟩ := (prepareExpertDispatch_eq_ok ht).mp h
  obtain ⟨fields, hfields⟩ := exists_decodeObject_of_target ht
  obtain ⟨raws, hraws, -⟩ := Json.exists_decodeRaw hfields
  obtain ⟨fields', hfields', hlookup⟩ := decodeObject_bound hfields hbind
  obtain ⟨hmem, hexpert⟩ := selectExpert_eq_some hselect
  have htarget : expertTarget bound = some expert := by
    rw [expertTarget_eq hfields', hlookup, if_neg (by decide), ← expertTarget_eq hfields, ht]
  refine ⟨agent, rfl, hmem, hexpert, ⟨slice, fields, fields', hslice, hfields, hfields', ?_, ?_⟩,
    htarget, ?_⟩
  · grind
  · rw [hlookup, if_pos rfl]
  · rw [prepareExpertDispatch_eq_ok htarget]
    exact ⟨agent, slice, hselect, hslice, bindContextSlice_bound hraws hbind, rfl⟩

/-! ### Two dispatches -/

theorem SameExceptSlice.bindContextSlice_eq {payload' : String}
    (h : SameExceptSlice payload payload') (slice : Option ContextSlice) :
    bindContextSlice payload' slice = bindContextSlice payload slice := by
  obtain ⟨fields, fields', hfields, hfields', hsame⟩ := h
  rw [bindContextSlice, bindContextSlice, hfields, hfields']
  dsimp only
  congr 1
  apply Json.marshalRaw_congr
  intro k
  rw [lookup_replaceSlice, lookup_replaceSlice]
  grind

theorem SameExceptSlice.expertTarget_eq {payload' : String}
    (h : SameExceptSlice payload payload') : expertTarget payload' = expertTarget payload := by
  obtain ⟨raws, raws', hraws, hraws', hsame⟩ := h
  obtain ⟨fields, hfields⟩ := Json.exists_decodeObject hraws
  obtain ⟨fields', hfields'⟩ := Json.exists_decodeObject hraws'
  obtain ⟨raws₁, hraws₁, hvalue, -⟩ := Json.exists_decodeRaw hfields
  obtain ⟨raws₂, hraws₂, hvalue', -⟩ := Json.exists_decodeRaw hfields'
  obtain rfl := Option.some.inj (hraws₁.symm.trans hraws)
  obtain rfl := Option.some.inj (hraws₂.symm.trans hraws')
  rw [Broker.expertTarget_eq hfields', Broker.expertTarget_eq hfields, hvalue', hvalue,
    hsame _ (by decide)]

/-- **An expert gets its own slice.**  A payload without a target is left as it is; every successful
    dispatch to an expert binds the slice it declares; and payloads that differ in their context slice
    only are dispatched alike. -/
theorem expert_slice_bound (payload : String) (agents : List AgentInfo) :
    (expertTarget payload = none → prepareExpertDispatch payload agents = .ok (agents, payload)) ∧
      ∀ expert, expertTarget payload = some expert →
        (∀ out bound, prepareExpertDispatch payload agents = .ok (out, bound) →
          ∃ agent, out = [agent] ∧ BoundTo payload agents expert agent bound) ∧
        ∀ payload', SameExceptSlice payload payload' →
          prepareExpertDispatch payload' agents = prepareExpertDispatch payload agents := by
  refine ⟨fun ht => ?_, fun expert ht => ⟨fun out bound => boundTo_of_prepare ht, ?_⟩⟩
  · rw [prepareExpertDispatch, ht]
  · intro payload' h
    have ht' : expertTarget payload' = some expert := by rw [h.expertTarget_eq, ht]
    rw [prepareExpertDispatch, prepareExpertDispatch, ht, ht']
    simp only [h.bindContextSlice_eq]

/-! ### A smuggled slice -/

def archExpert : AgentInfo where
  agentID := "agent-arch"
  name := "arch-adr"
  inputSchema := "\x7b\"properties\":\x7b\"context_slice\":\x7b\"properties\":\x7b" ++
    "\"files\":\x7b\"default\":[\"docs/adr\"]\x7d,\"max_tokens\":\x7b\"default\":4000\x7d\x7d\x7d\x7d\x7d"

def smuggled : String :=
  "\x7b\"expert\":\"arch-adr\",\"note\":\"a <b>\",\"context_slice\":\x7b\"files\":[\"qa\"]\x7d\x7d"

def boundSmuggled : String :=
  "\x7b\"context_slice\":\x7b\"files\":[\"docs/adr\"],\"max_tokens\":4000\x7d," ++
    "\"expert\":\"arch-adr\",\"note\":\"a \\u003cb\\u003e\"\x7d"

theorem expertTarget_smuggled : expertTarget smuggled = some "arch-adr" := by decide +kernel

theorem prepare_smuggled :
    prepareExpertDispatch smuggled [archExpert] = .ok ([archExpert], boundSmuggled) := by
  decide +kernel

theorem expert_slice_bound_smuggled :
    expertTarget smuggled = some "arch-adr" ∧
      prepareExpertDispatch smuggled [archExpert] = .ok ([archExpert], boundSmuggled) ∧
      ∃ agent, [archExpert] = [agent] ∧
        BoundTo smuggled [archExpert] "arch-adr" agent boundSmuggled :=
  ⟨expertTarget_smuggled, prepare_smuggled,
    ((expert_slice_bound smuggled [archExpert]).2 _ expertTarget_smuggled).1 _ _ prepare_smuggled⟩

end Zynax.Broker
