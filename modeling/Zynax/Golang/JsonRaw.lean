import Zynax.Golang.JsonRoundTrip
import Mathlib.Data.Bool.AllAny

namespace Zynax.Golang.Json

/-!
# Raw messages

A `json.RawMessage` keeps the text of a value.  `json.Unmarshal` into a
`map[string]json.RawMessage` cuts the members out of the text of an object, and `json.Marshal`
writes them again: the whitespace between the tokens is dropped and the characters that matter in
HTML are escaped, but nothing else is spelled differently.
-/

/-! ### Compacting -/

def needsHtmlEscape (c : Char) : Bool := c ∈ ['<', '>', '&', '\u2028', '\u2029']

def htmlEscape (c : Char) : List Char := if needsHtmlEscape c then unicodeEscape c.toNat else [c]

inductive CompactState where
  | outside
  | inside
  | escaped
  deriving DecidableEq

def CompactState.after : CompactState → Char → CompactState
  | .outside, c => if c = '"' then .inside else .outside
  | .inside, c => if c = '\\' then .escaped else if c = '"' then .outside else .inside
  | .escaped, _ => .inside

def compactFrom : CompactState → List Char → List Char
  | _, [] => []
  | q, c :: r =>
    if q = .outside ∧ isWs c then compactFrom q r
    else htmlEscape c ++ compactFrom (q.after c) r

def compact (t : List Char) : List Char := compactFrom .outside t

example : String.ofList (compact "\x7b\"a\" : [1, \"<\\u0041 b>\" ] \x7d".toList) =
    "\x7b\"a\":[1,\"\\u003c\\u0041 b\\u003e\"]\x7d" := by decide +kernel

variable {c : Char} {t t' u u' w body : List Char} {s : String} {q : CompactState} {v : Json} {i : Item}

theorem htmlEscape_of_not (h : needsHtmlEscape c = false) : htmlEscape c = [c] := by
  rw [htmlEscape, if_neg (by simp [h])]

theorem toNat_lt_of_needsHtmlEscape (h : needsHtmlEscape c = true) :
    c.toNat < 0xd800 := by
  apply toNat_lt_of_needsUnicodeEscape
  rw [needsHtmlEscape, decide_eq_true_eq] at h
  simp [needsUnicodeEscape, h]

theorem compactFrom_cons (hws : ¬(q = .outside ∧ isWs c = true))
    (hc : needsHtmlEscape c = false) (r : List Char) :
    compactFrom q (c :: r) = c :: compactFrom (q.after c) r := by
  rw [compactFrom, if_neg hws, htmlEscape_of_not hc, List.singleton_append]

/-! ### Compacting twice -/

theorem hexDigit_plain : ∀ n < 16, isWs (hexDigit n) = false ∧ needsHtmlEscape (hexDigit n) = false ∧
    CompactState.after .outside (hexDigit n) = .outside ∧
    CompactState.after .inside (hexDigit n) = .inside := by
  decide

theorem compactFrom_unicodeEscape (q : CompactState) (n : Nat) (r : List Char) :
    compactFrom q (unicodeEscape n ++ r) =
      unicodeEscape n ++ compactFrom (if q = .outside then .outside else .inside) r := by
  have hdigit : ∀ m q', q' = .outside ∨ q' = .inside → ∀ r,
      compactFrom q' (hexDigit (m % 16) :: r) = hexDigit (m % 16) :: compactFrom q' r := by
    intro m q' hq' r
    obtain ⟨hws, hc, hout, hin⟩ := hexDigit_plain (m % 16) (Nat.mod_lt _ (by decide))
    rw [compactFrom_cons (by simp [hws]) hc]
    grind
  have hslash : ∀ r, compactFrom q ('\\' :: r) = '\\' :: compactFrom (q.after '\\') r :=
    compactFrom_cons (by simp [isWs]) (by decide)
  have hu : ∀ q' r, compactFrom q' ('u' :: r) = 'u' :: compactFrom (q'.after 'u') r := fun q' =>
    compactFrom_cons (by simp [isWs]) (by decide)
  have hafter : (q.after '\\').after 'u' = if q = .outside then .outside else .inside := by
    cases q <;> decide
  have hstate : (if q = .outside then CompactState.outside else .inside) = .outside ∨
      (if q = .outside then CompactState.outside else .inside) = .inside := by
    cases q <;> decide
  simp only [unicodeEscape, List.cons_append, List.nil_append]
  grind

theorem compactFrom_htmlEscape (hws : ¬(q = .outside ∧ isWs c = true))
    (r : List Char) : compactFrom q (htmlEscape c ++ r) = htmlEscape c ++ compactFrom (q.after c) r := by
  by_cases hc : needsHtmlEscape c = true
  · have hafter : q.after c = if q = .outside then .outside else .inside := by
      have hne : c ≠ '"' ∧ c ≠ '\\' := by
        constructor
        · rintro rfl
          exact absurd hc (by decide)
        · rintro rfl
          exact absurd hc (by decide)
      cases q <;> simp [CompactState.after, hne.1, hne.2]
    rw [htmlEscape, if_pos hc, compactFrom_unicodeEscape, hafter]
  · rw [htmlEscape_of_not (by simpa using hc)]
    exact compactFrom_cons hws (by simpa using hc) r

theorem compactFrom_idem (q : CompactState) (s : List Char) :
    compactFrom q (compactFrom q s) = compactFrom q s := by
  induction s generalizing q with
  | nil => rfl
  | cons c s ih =>
    rw [compactFrom]
    split
    · exact ih q
    · rename_i hws
      rw [compactFrom_htmlEscape hws, ih]

theorem compact_compact (t : List Char) : compact (compact t) = compact t := compactFrom_idem _ t

/-! ### Compacting keeps the strings -/

theorem joinUnits_cons_congr {a b : List StrUnit} (h : ∀ p, joinUnits p a = joinUnits p b)
    (u : StrUnit) (p : Option Nat) : joinUnits p (u :: a) = joinUnits p (u :: b) := by
  cases p <;> cases u <;> simp only [joinUnits, h]

theorem joinUnits_append_congr {a b : List StrUnit} (h : ∀ p, joinUnits p a = joinUnits p b)
    (us : List StrUnit) (p : Option Nat) : joinUnits p (us ++ a) = joinUnits p (us ++ b) := by
  induction us generalizing p with
  | nil => exact h p
  | cons u us ih => exact joinUnits_cons_congr ih u p

theorem joinUnits_code_eq_lit (hc : c.toNat < 0xd800) (us : List StrUnit)
    (p : Option Nat) : joinUnits p (.code c.toNat :: us) = joinUnits p (.lit c :: us) := by
  cases p with
  | none => rw [joinUnits, joinUnits, joinUnits_some hc, Char.ofNat_toNat]
  | some hi =>
    have hd : decodeSurrogates hi c.toNat = none := by
      rw [decodeSurrogates, if_neg (by omega)]
    simp only [joinUnits, hd, joinUnits_some hc, Char.ofNat_toNat]

def compactState : StrState → CompactState
  | .text | .hex _ _ => .inside
  | .escape => .escaped

theorem hexVal_plain {d : Nat} (h : hexVal c = some d) :
    c ≠ '"' ∧ c ≠ '\\' ∧ needsHtmlEscape c = false := by
  have hnone : ∀ x ∈ ['"', '\\', '<', '>', '&', '\u2028', '\u2029'], hexVal x = none :=
    List.all_iff_forall_prop.mp (by decide)
  have hc : c ∉ ['"', '\\', '<', '>', '&', '\u2028', '\u2029'] := by
    grind
  rw [List.mem_cons, List.mem_cons, not_or, not_or] at hc
  exact ⟨hc.1, hc.2.1, decide_eq_false hc.2.2⟩

theorem compactState_scanStep {q q' : StrState} {us : List StrUnit}
    (hquote : ¬(q = .text ∧ c = '"')) (h : scanStep q c = some (q', us)) :
    (compactState q).after c = compactState q' ∧
      (needsHtmlEscape c = true → q = .text ∧ q' = .text ∧ us = [.lit c]) := by
  cases q with
  | text =>
    have hc : c ≠ '"' := fun hc => hquote ⟨rfl, hc⟩
    simp only [scanStep] at h
    split at h
    · rename_i hslash
      subst hslash
      obtain ⟨rfl, rfl⟩ := Prod.mk.inj (Option.some.inj h)
      exact ⟨rfl, fun hhtml => absurd hhtml (by decide)⟩
    · rename_i hslash
      split at h
      · exact absurd h (by simp)
      · obtain ⟨rfl, rfl⟩ := Prod.mk.inj (Option.some.inj h)
        exact ⟨by simp [compactState, CompactState.after, hslash, hc], fun _ => ⟨rfl, rfl, rfl⟩⟩
  | escape =>
    have hstate : compactState q' = .inside := by
      simp only [scanStep] at h
      split at h
      · obtain ⟨rfl, -⟩ := Prod.mk.inj (Option.some.inj h)
        rfl
      · obtain ⟨ch, -, heq⟩ := Option.map_eq_some_iff.mp h
        obtain ⟨rfl, -⟩ := Prod.mk.inj heq
        rfl
    refine ⟨hstate.symm, fun hhtml => ?_⟩
    -- none of these characters may follow a backslash
    simp only [needsHtmlEscape, decide_eq_true_eq, List.mem_cons, List.not_mem_nil, or_false] at hhtml
    rcases hhtml with rfl | rfl | rfl | rfl | rfl <;> exact absurd h (by simp [scanStep, simpleEscape])
  | hex left acc =>
    obtain ⟨d, hd, hq'⟩ : ∃ d, hexVal c = some d ∧ compactState q' = .inside := by
      cases left with
      | zero =>
        obtain ⟨d, hd, heq⟩ := Option.map_eq_some_iff.mp h
        obtain ⟨rfl, -⟩ := Prod.mk.inj heq
        exact ⟨d, hd, rfl⟩
      | succ left =>
        obtain ⟨d, hd, heq⟩ := Option.map_eq_some_iff.mp h
        obtain ⟨rfl, -⟩ := Prod.mk.inj heq
        exact ⟨d, hd, rfl⟩
    obtain ⟨hc, hslash, hhtml⟩ := hexVal_plain hd
    refine ⟨?_, fun h' => absurd h' (by simp [hhtml])⟩
    rw [hq']
    simp [compactState, CompactState.after, hc, hslash]

theorem exists_compact_body {q : StrState} {units : List StrUnit}
    (h : ∀ r, scanStr q (body ++ '"' :: r) = some (units, r)) :
    ∃ body' units',
      (∀ x, compactFrom (compactState q) (body ++ '"' :: x) = body' ++ '"' :: compactFrom .outside x) ∧
      (∀ r, scanStr q (body' ++ '"' :: r) = some (units', r)) ∧
      ∀ p, joinUnits p units' = joinUnits p units := by
  induction body generalizing q units with
  | nil =>
    have hend := h []
    cases q with
    | text =>
      have hquote : ∀ x, compactFrom .inside ('"' :: x) = '"' :: compactFrom .outside x :=
        compactFrom_cons (by simp) (by decide)
      exact ⟨[], units, hquote, h, fun _ => rfl⟩
    | escape => exact absurd hend (by simp [scanStr, simpleEscape])
    | hex left acc =>
      have hnone : hexVal '"' = none := by decide
      exact absurd hend (by simp [scanStr, hnone])
  | cons c body ih =>
    have hquote : ¬(q = .text ∧ c = '"') := by
      rintro ⟨rfl, rfl⟩
      have hend := h []
      simp [scanStr] at hend
    -- the character leads to one state, whatever follows the string
    obtain ⟨⟨q', us⟩, hstep⟩ : ∃ st, scanStep q c = some st := by
      have hend := h []
      rw [List.cons_append, scanStr_cons hquote] at hend
      obtain ⟨st, hst, -⟩ := Option.bind_eq_some_iff.mp hend
      exact ⟨st, hst⟩
    have hscan : ∀ x, scanStr q (c :: x) = (scanStr q' x).map (fun p => (us ++ p.1, p.2)) := by
      intro x
      rw [scanStr_cons hquote, hstep, Option.bind_some]
    obtain ⟨units₀, rfl, hrest⟩ : ∃ units₀, us ++ units₀ = units ∧
        ∀ r, scanStr q' (body ++ '"' :: r) = some (units₀, r) := by
      have hr : ∀ r, ∃ a, scanStr q' (body ++ '"' :: r) = some (a, r) ∧ us ++ a = units := fun r =>
        map_eq_some_pair ((hscan _).symm.trans (h r))
      obtain ⟨units₀, -, heq⟩ := hr []
      refine ⟨units₀, heq, fun r => ?_⟩
      obtain ⟨units₁, hscan₁, heq₁⟩ := hr r
      rw [hscan₁, List.append_cancel_left (heq₁.trans heq.symm)]
    obtain ⟨body', units', hcompact, hbody', hjoin⟩ := ih hrest
    obtain ⟨hafter, hhtml⟩ := compactState_scanStep hquote hstep
    have hinside : compactState q ≠ .outside := by cases q <;> simp [compactState]
    have htext : ∀ x, compactFrom (compactState q) (c :: body ++ '"' :: x) =
        htmlEscape c ++ (body' ++ '"' :: compactFrom .outside x) := by
      intro x
      rw [List.cons_append, compactFrom, if_neg (fun h => hinside h.1), hafter, hcompact]
    by_cases hc : needsHtmlEscape c = true
    · obtain ⟨rfl, rfl, rfl⟩ := hhtml hc
      have hlt := toNat_lt_of_needsHtmlEscape hc
      refine ⟨unicodeEscape c.toNat ++ body', .code c.toNat :: units', fun x => ?_, fun r => ?_,
        fun p => ?_⟩
      · rw [htext, htmlEscape, if_pos hc, List.append_assoc]
      · rw [List.append_assoc, scanStr_unicodeEscape _ (by omega), hbody', Option.map_some]
      · rw [joinUnits_code_eq_lit hlt]
        exact joinUnits_cons_congr hjoin _ p
    · refine ⟨c :: body', us ++ units', fun x => ?_, fun r => ?_, joinUnits_append_congr hjoin us⟩
      · rw [htext, htmlEscape_of_not (by simpa using hc)]
        rfl
      · grind

theorem Spells.compact (h : Spells body s) :
    ∃ body', Spells body' s ∧ ∀ x, compactFrom .outside ('"' :: (body ++ '"' :: x)) =
      '"' :: (body' ++ '"' :: compactFrom .outside x) := by
  obtain ⟨units, hscan, rfl⟩ := h
  obtain ⟨body', units', hcompact, hscan', hjoin⟩ := exists_compact_body hscan
  refine ⟨body', ⟨units', hscan', by rw [hjoin]⟩, fun x => ?_⟩
  rw [compactFrom_cons (by decide) (by decide)]
  exact congrArg _ (hcompact x)

/-! ### Compacting keeps the values -/

theorem compactFrom_blank (hw : Blank w) (x : List Char) :
    compactFrom .outside (w ++ x) = compactFrom .outside x := by
  induction w with
  | nil => rfl
  | cons c w ih =>
    rw [List.cons_append, compactFrom, if_pos ⟨rfl, hw c (by simp)⟩]
    exact ih (fun d hd => hw d (by simp [hd]))

theorem compactFrom_outside (hws : isWs c = false) (hhtml : needsHtmlEscape c = false)
    (hc : c ≠ '"') (x : List Char) :
    compactFrom .outside (c :: x) = c :: compactFrom .outside x := by
  rw [compactFrom_cons (by simp [hws]) hhtml, CompactState.after, if_neg hc]

theorem isNumChar_plain (h : isNumChar c = true) :
    isWs c = false ∧ needsHtmlEscape c = false ∧ c ≠ '"' := by
  have hno : ∀ x ∈ [' ', '\t', '\r', '\n', '<', '>', '&', '\u2028', '\u2029', '"'],
      isNumChar x = false := List.all_iff_forall_prop.mp (by decide)
  have hc : c ∉ [' ', '\t', '\r', '\n', '<', '>', '&', '\u2028', '\u2029', '"'] := by
    grind
  simp only [List.mem_cons, List.not_mem_nil, or_false, not_or] at hc
  refine ⟨?_, ?_, hc.2.2.2.2.2.2.2.2.2⟩
  · simp [isWs, hc]
  · simp [needsHtmlEscape, hc]

def CompactsTo (t t' : List Char) : Prop :=
  ∀ x, compactFrom .outside (t ++ x) = t' ++ compactFrom .outside x

namespace CompactsTo

theorem nil : CompactsTo [] [] := fun _ => rfl

theorem append (ht : CompactsTo t t') (hu : CompactsTo u u') :
    CompactsTo (t ++ u) (t' ++ u') := by
  intro x
  rw [List.append_assoc, ht, hu, List.append_assoc]

theorem blank_append (hw : Blank w) (hu : CompactsTo u u') :
    CompactsTo (w ++ u) u' := by
  intro x
  rw [List.append_assoc, compactFrom_blank hw, hu]

theorem cons (hc : isWs c = false ∧ needsHtmlEscape c = false ∧ c ≠ '"') (hu : CompactsTo u u') :
    CompactsTo (c :: u) (c :: u') := by
  intro x
  rw [List.cons_append, compactFrom_outside hc.1 hc.2.1 hc.2.2, hu, List.cons_append]

theorem word (hw : ∀ c ∈ w, isWs c = false ∧ needsHtmlEscape c = false ∧ c ≠ '"') :
    CompactsTo w w := by
  induction w with
  | nil => exact nil
  | cons c w ih => exact cons (hw c (by simp)) (ih (fun d hd => hw d (by simp [hd])))

theorem punct (hc : c ∈ ['[', ']', '{', '}', ',', ':']) (hu : CompactsTo u u') :
    CompactsTo (c :: u) (c :: u') := by
  have hplain : ∀ c ∈ ['[', ']', '{', '}', ',', ':'],
      isWs c = false ∧ needsHtmlEscape c = false ∧ c ≠ '"' :=
    List.all_iff_forall_prop.mp (by decide)
  exact cons (hplain c hc) hu

theorem compact_eq (h : CompactsTo t t') : compact t = t' := by
  have hnil := h []
  rwa [List.append_nil, compactFrom, List.append_nil] at hnil

end CompactsTo

theorem Spells.compactsTo (h : Spells body s) :
    ∃ body', Spells body' s ∧ ∀ u u', CompactsTo u u' →
      CompactsTo ('"' :: (body ++ '"' :: u)) ('"' :: (body' ++ '"' :: u')) := by
  obtain ⟨body', hs', hcompact⟩ := h.compact
  refine ⟨body', hs', fun u u' hu x => ?_⟩
  rw [List.cons_append, List.append_assoc, List.cons_append, hcompact, hu]
  simp

def Member.compact (m : Member) : Member := { m with text := Json.compact m.text }

def Item.compact : Item → Item
  | .value v => .value v
  | .member m => .member m.compact
  | .elems xs => .elems xs
  | .fields ms => .fields (ms.map Member.compact)

theorem Reads.exists_compact (h : Reads t i) :
    ∃ t', Reads t' i.compact ∧ CompactsTo t t' := by
  induction h with
  | null => exact ⟨_, .null, .word (List.all_iff_forall_prop.mp (by decide))⟩
  | yes => exact ⟨_, .yes, .word (List.all_iff_forall_prop.mp (by decide))⟩
  | no => exact ⟨_, .no, .word (List.all_iff_forall_prop.mp (by decide))⟩
  | @num l hl =>
    exact ⟨l, .num hl, .word fun c hc => isNumChar_plain (isNumChar_of_isNumberFrom hl c hc)⟩
  | @str body s hs =>
    obtain ⟨body', hs', hbody⟩ := hs.compactsTo
    exact ⟨_, .str hs', hbody _ _ .nil⟩
  | @emptyArr w hw =>
    exact ⟨_, .emptyArr blank_nil, .punct (by simp) (.blank_append hw (.punct (by simp) .nil))⟩
  | @emptyObj w hw =>
    exact ⟨_, .emptyObj blank_nil, .punct (by simp) (.blank_append hw (.punct (by simp) .nil))⟩
  | @arr w t xs hw ht ih =>
    obtain ⟨t', ht', hcompact⟩ := ih
    have harr := Reads.arr blank_nil ht'
    exact ⟨_, harr, .punct (by simp) (.blank_append hw hcompact)⟩
  | @obj w t ms hw ht ih =>
    obtain ⟨t', ht', hcompact⟩ := ih
    have hobj := Reads.obj blank_nil ht'
    rw [List.map_map, show Member.pair ∘ Member.compact = Member.pair from rfl] at hobj
    exact ⟨_, hobj, .punct (by simp) (.blank_append hw hcompact)⟩
  | @lastElem t w v ht hw ih =>
    obtain ⟨t', ht', hcompact⟩ := ih
    exact ⟨_, Reads.lastElem ht' blank_nil,
      hcompact.append (.blank_append hw (.punct (by simp) .nil))⟩
  | @consElem t w w' ts v vs ht hw hw' hts ih ihs =>
    obtain ⟨t', ht', hcompact⟩ := ih
    obtain ⟨ts', hts', hcompacts⟩ := ihs
    exact ⟨_, Reads.consElem ht' blank_nil blank_nil hts',
      hcompact.append (.blank_append hw (.punct (by simp) (.blank_append hw' hcompacts)))⟩
  | @member key w w' m hkey hw hw' hv ih =>
    obtain ⟨key', hkey', hbody⟩ := hkey.compactsTo
    obtain ⟨t', ht', hcompact⟩ := ih
    -- the member keeps the text of its value, so that has to be the compacted one
    obtain rfl := hcompact.compact_eq
    exact ⟨_, Reads.member (m := m.compact) hkey' blank_nil blank_nil ht',
      hbody _ _ (.blank_append hw (.punct (by simp) (.blank_append hw' hcompact)))⟩
  | @lastField t w m ht hw ih =>
    obtain ⟨t', ht', hcompact⟩ := ih
    exact ⟨_, Reads.lastField ht' blank_nil,
      hcompact.append (.blank_append hw (.punct (by simp) .nil))⟩
  | @consField t w w' ts m ms ht hw hw' hts ih ihs =>
    obtain ⟨t', ht', hcompact⟩ := ih
    obtain ⟨ts', hts', hcompacts⟩ := ihs
    exact ⟨_, Reads.consField ht' blank_nil blank_nil hts',
      hcompact.append (.blank_append hw (.punct (by simp) (.blank_append hw' hcompacts)))⟩

/-- **A compacted text stands for the same value.** -/
theorem Reads.compact (h : Reads t (.value v)) :
    Reads (Json.compact t) (.value v) := by
  obtain ⟨t', ht', hcompact⟩ := h.exists_compact
  rw [hcompact.compact_eq]
  exact ht'

/-! ### Maps of raw messages -/

def rawFields : Nat → List Char → Option (List (String × List Char))
  | 0, _ => none
  | fuel + 1, s =>
    match parseKey s with
    | none => none
    | some (k, r) =>
      let text := skipWs r
      match parseValue fuel text with
      | none => none
      | some (_, r') =>
        let raw := text.take (text.length - r'.length)
        match skipWs r' with
        | [] => none
        | c :: t =>
          if c = ',' then (rawFields fuel (skipWs t)).map (fun fs => (k, raw) :: fs)
          else if c = '}' then some [(k, raw)]
          else none

def decodeRaw (s : String) : Option (GoMap (List Char)) :=
  match unmarshal s with
  | some .null => some ∅
  | some (.obj []) => some ∅
  | some (.obj (_ :: _)) =>
    (rawFields (2 * s.toList.length + 1) (skipWs (skipWs s.toList).tail)).map GoMap.ofPairs
  | _ => none

def encodeRawFields : List (String × List Char) → List Char
  | [] => ['}']
  | (k, raw) :: fs => ',' :: (quote k ++ ':' :: (compact raw ++ encodeRawFields fs))

def encodeRaw : List (String × List Char) → List Char
  | [] => ['{', '}']
  | (k, raw) :: fs => '{' :: (quote k ++ ':' :: (compact raw ++ encodeRawFields fs))

def marshalRaw (m : GoMap (List Char)) : String := String.ofList (encodeRaw m.sortedEntries)

def rawValue (raw : List Char) : Json := (parseText raw).getD .null

def IsRaw (raw : List Char) : Prop := Reads raw (.value (rawValue raw))

theorem Reads.rawValue_eq {raw : List Char} (h : Reads raw (.value v)) :
    rawValue raw = v := by
  have hparse := h.parseText blank_nil blank_nil
  rw [List.nil_append, List.append_nil] at hparse
  rw [rawValue, hparse, Option.getD_some]

theorem Reads.isRaw {raw : List Char} (h : Reads raw (.value v)) : IsRaw raw := by
  rw [IsRaw, h.rawValue_eq]
  exact h

theorem IsRaw.compact {raw : List Char} (h : IsRaw raw) :
    IsRaw (Json.compact raw) ∧ rawValue (Json.compact raw) = rawValue raw :=
  ⟨(Reads.compact h).isRaw, (Reads.compact h).rawValue_eq⟩

def Member.raw (m : Member) : String × List Char := (m.key, m.text)

def Item.MembersRead : Item → Prop
  | .value _ | .elems _ => True
  | .member m => Reads m.text (.value m.value)
  | .fields ms => ∀ m ∈ ms, Reads m.text (.value m.value)

theorem Reads.membersRead (h : Reads t i) : i.MembersRead := by
  induction h with
  | member _ _ _ hv _ => exact hv
  | lastField _ _ ih =>
    intro m hm
    obtain rfl := List.mem_singleton.mp hm
    exact ih
  | consField _ _ _ _ ih ihs => exact List.forall_mem_cons.mpr ⟨ih, ihs⟩
  | _ => exact True.intro

def Item.RawParsed (fuel : Nat) (s : List Char) : Item → Prop
  | .value _ | .elems _ | .member _ => True
  | .fields ms => rawFields fuel s = some (ms.map Member.raw)

theorem Reads.rawParsed (h : Reads t i) :
    ∀ (fuel : Nat) (r : List Char), 2 * t.length ≤ fuel → EndsNumber r →
      i.RawParsed fuel (t ++ r) := by
  induction h with
  | @lastField t w m ht hw ih =>
    intro fuel r hfuel hr
    obtain ⟨n, rfl⟩ : ∃ n, fuel = n + 1 := ⟨fuel - 1, by simp at hfuel; omega⟩
    obtain ⟨u, hkey, hu, hvalue⟩ := ht.parsed n (w ++ '}' :: r) (by simp at hfuel; omega)
      (endsNumber_blank_cons hw (by decide) r)
    have hskip := skipWs_blank_cons hw (show isWs '}' = false by decide) r
    simp [Item.RawParsed, Json.rawFields, hkey, hu, hvalue, hskip, Member.raw]
  | @consField t w w' ts m ms ht hw hw' hts ih ihs =>
    intro fuel r hfuel hr
    obtain ⟨n, rfl⟩ : ∃ n, fuel = n + 1 := ⟨fuel - 1, by simp at hfuel; omega⟩
    obtain ⟨u, hkey, hu, hvalue⟩ := ht.parsed n (w ++ ',' :: (w' ++ (ts ++ r)))
      (by simp at hfuel; omega) (endsNumber_blank_cons hw (by decide) _)
    have hrest : Json.rawFields n (ts ++ r) = some (ms.map Member.raw) :=
      ihs n r (by simp at hfuel; omega) hr
    have hskip := skipWs_blank_cons hw (show isWs ',' = false by decide) (w' ++ (ts ++ r))
    have hskip' : skipWs (w' ++ (ts ++ r)) = ts ++ r := by
      rw [skipWs_blank hw', hts.skipWs_append]
    simp [Item.RawParsed, Json.rawFields, hkey, hu, hvalue, hskip, hskip', hrest, Member.raw]
  | _ =>
    intro _ _ _ _
    exact True.intro

/-! ### Reading raw messages -/

theorem fields_ne_nil (h : Reads t i) : i ≠ .fields [] := by
  cases h <;> simp

theorem decodeRaw_of_reads {w₀ w' : List Char} {ms : List Member} (hw : Blank w)
    (hw₀ : Blank w₀) (ht : Reads t (.fields ms)) (hw' : Blank w')
    (hdepth : (Json.obj (ms.map Member.pair)).depth ≤ maxNestingDepth) :
    decodeRaw (String.ofList (w ++ ('{' :: (w₀ ++ t) ++ w'))) =
      some (GoMap.ofPairs (ms.map Member.raw)) := by
  have hobj := Reads.obj hw₀ ht
  have hunmarshal : unmarshal (String.ofList (w ++ ('{' :: (w₀ ++ t) ++ w'))) =
      some (.obj (ms.map Member.pair)) := by
    rw [unmarshal_eq_some_iff, String.toList_ofList, hobj.parseText hw hw']
    exact ⟨rfl, hdepth⟩
  have htail : skipWs (skipWs (w ++ ('{' :: (w₀ ++ t) ++ w'))).tail = t ++ w' := by
    rw [skipWs_blank hw, hobj.skipWs_append, List.cons_append, List.tail_cons, List.append_assoc,
      skipWs_blank hw₀, ht.skipWs_append]
  have hfields : rawFields (2 * (w ++ ('{' :: (w₀ ++ t) ++ w')).length + 1) (t ++ w') =
      some (ms.map Member.raw) :=
    ht.rawParsed _ _ (by simp; omega) hw'.endsNumber
  cases ms with
  | nil => exact absurd rfl (fields_ne_nil ht)
  | cons m ms =>
    rw [decodeRaw, hunmarshal]
    simp only [List.map_cons, String.toList_ofList, htail] at hfields ⊢
    rw [hfields, Option.map_some]

theorem exists_decodeRaw {fields : GoMap Json} (h : decodeObject s = some fields) :
    ∃ raws, decodeRaw s = some raws ∧ (∀ k, fields.lookup k = (raws.lookup k).map rawValue) ∧
      ∀ k raw, raws.lookup k = some raw → IsRaw raw ∧ (rawValue raw).depth < maxNestingDepth := by
  obtain ⟨v, hv, hfields⟩ := Option.bind_eq_some_iff.mp h
  have hempty : (∀ k, (∅ : GoMap Json).lookup k = ((∅ : GoMap (List Char)).lookup k).map rawValue) ∧
      ∀ k raw, (∅ : GoMap (List Char)).lookup k = some raw →
        IsRaw raw ∧ (rawValue raw).depth < maxNestingDepth := by
    simp
  have hparse := unmarshal_eq_some_iff.mp hv
  obtain ⟨w, t, w', hs, hw, hw', hreads⟩ := reads_of_parseText hparse.1
  cases v with
  | null =>
    obtain rfl := Option.some.inj hfields
    exact ⟨∅, by rw [decodeRaw, hv], hempty⟩
  | obj fs =>
    obtain rfl := Option.some.inj hfields
    cases hreads with
    | emptyObj _ => exact ⟨∅, by rw [decodeRaw, hv], hempty⟩
    | @obj w₀ t ms hw₀ ht =>
      have hmembers : ∀ m ∈ ms, Reads m.text (.value m.value) := ht.membersRead
      -- both maps are filled from the members, and the last one of a key counts
      have hvalue := GoMap.lookup_ofPairs_map Member.key Member.value ms
      have hraws := GoMap.lookup_ofPairs_map Member.key Member.text ms
      have hfind : ∀ {k m}, ms.reverse.find? (fun m => m.key = k) = some m → m ∈ ms := fun h =>
        List.mem_reverse.mp (List.mem_of_find?_eq_some h)
      refine ⟨GoMap.ofPairs (ms.map Member.raw), ?_, fun k => ?_, fun k raw hraw => ?_⟩
      · rw [← decodeRaw_of_reads hw hw₀ ht hw' hparse.2, ← hs, String.ofList_toList]
      · refine (hvalue k).trans (Eq.trans ?_ (congrArg (Option.map rawValue) (hraws k)).symm)
        cases hk : ms.reverse.find? (fun m => m.key = k) with
        | none => rfl
        | some m =>
          simp only [Option.map_some, (hmembers m (hfind hk)).rawValue_eq]
      · obtain ⟨m, hk, rfl⟩ := Option.map_eq_some_iff.mp ((hraws k).symm.trans hraw)
        have hm := hfind hk
        refine ⟨(hmembers m hm).isRaw, ?_⟩
        rw [(hmembers m hm).rawValue_eq]
        exact depth_obj_le_iff.mp hparse.2 m.pair (List.mem_map_of_mem hm)
  | _ => exact absurd hfields (by simp [toFields])

theorem exists_decodeObject {raws : GoMap (List Char)} (h : decodeRaw s = some raws) :
    ∃ fields, decodeObject s = some fields := by
  rw [decodeRaw] at h
  split at h
  · rename_i hv
    exact ⟨_, by rw [decodeObject, hv]; rfl⟩
  · rename_i hv
    exact ⟨_, by rw [decodeObject, hv]; rfl⟩
  · rename_i hv
    exact ⟨_, by rw [decodeObject, hv]; rfl⟩
  · exact absurd h (by simp)

/-! ### Writing raw messages -/

def rawMember (p : String × List Char) : Member := ⟨p.1, compact p.2, rawValue p.2⟩

theorem reads_rawMember {p : String × List Char} (h : IsRaw p.2) :
    Reads (quote p.1 ++ ':' :: compact p.2) (.member (rawMember p)) := by
  have hmember := Reads.member (m := rawMember p) (spells_escapeBody p.1) blank_nil blank_nil
    (Reads.compact h)
  simpa [quote, rawMember] using hmember

theorem reads_encodeRawFields {p : String × List Char} {ps : List (String × List Char)}
    (h : ∀ q ∈ p :: ps, IsRaw q.2) :
    Reads (quote p.1 ++ ':' :: (compact p.2 ++ encodeRawFields ps)) (.fields ((p :: ps).map rawMember)) := by
  obtain ⟨hp, hps⟩ := List.forall_mem_cons.mp h
  have hassoc : ∀ (p : String × List Char) r,
      quote p.1 ++ ':' :: (compact p.2 ++ r) = (quote p.1 ++ ':' :: compact p.2) ++ r := by
    simp
  induction ps generalizing p with
  | nil =>
    rw [hassoc]
    exact .lastField (reads_rawMember hp) blank_nil
  | cons q qs ih =>
    obtain ⟨hq, hqs⟩ := List.forall_mem_cons.mp hps
    have hcons := Reads.consField (reads_rawMember hp) blank_nil blank_nil (ih hps hq hqs)
    rw [hassoc]
    exact hcons

/-- **What was written is read again**, each message as it was written. -/
theorem decodeRaw_marshalRaw {m : GoMap (List Char)}
    (h : ∀ k raw, m.lookup k = some raw → IsRaw raw ∧ (rawValue raw).depth < maxNestingDepth) :
    ∃ raws, decodeRaw (marshalRaw m) = some raws ∧
      ∀ k, raws.lookup k = (m.lookup k).map compact := by
  have hraw : ∀ p ∈ m.sortedEntries, IsRaw p.2 ∧ (rawValue p.2).depth < maxNestingDepth :=
    fun p hp => h p.1 p.2 (GoMap.mem_sortedEntries_iff.mp hp)
  -- the members that are written, by their keys
  have hlookup : ∀ k, (GoMap.ofPairs ((m.sortedEntries.map rawMember).map Member.raw)).lookup k =
      (m.lookup k).map compact := by
    have hkeys : (((m.sortedEntries.map rawMember).map Member.raw).map Prod.fst).Nodup := by
      rw [List.map_map, List.map_map]
      exact m.nodup_sortedEntries
    intro k
    apply Option.ext
    intro t
    rw [GoMap.lookup_ofPairs hkeys, List.map_map, List.mem_map, Option.map_eq_some_iff]
    constructor
    · rintro ⟨⟨k', raw⟩, hmem, heq⟩
      obtain ⟨rfl, rfl⟩ := Prod.mk.inj heq
      exact ⟨raw, GoMap.mem_sortedEntries_iff.mp hmem, rfl⟩
    · rintro ⟨raw, hk, rfl⟩
      exact ⟨(k, raw), GoMap.mem_sortedEntries_iff.mpr hk, rfl⟩
  cases hsorted : m.sortedEntries with
  | nil =>
    refine ⟨∅, ?_, fun k => ?_⟩
    · rw [marshalRaw, hsorted]
      rfl
    · rw [← hlookup, hsorted]
      rfl
  | cons p ps =>
    rw [hsorted] at hraw hlookup
    refine ⟨_, ?_, hlookup⟩
    have hreads := reads_encodeRawFields (fun q hq => (hraw q hq).1)
    have hdepth : (Json.obj (((p :: ps).map rawMember).map Member.pair)).depth ≤ maxNestingDepth := by
      rw [depth_obj_le_iff, List.map_map]
      intro q hq
      obtain ⟨p', hp', rfl⟩ := List.mem_map.mp hq
      exact (hraw p' hp').2
    have hdecode := decodeRaw_of_reads blank_nil blank_nil hreads blank_nil hdepth
    rw [List.nil_append, List.nil_append, List.append_nil] at hdecode
    rw [marshalRaw, hsorted]
    exact hdecode

theorem encodeRaw_compact (ps : List (String × List Char)) :
    encodeRaw (ps.map (fun p => (p.1, compact p.2))) = encodeRaw ps := by
  have hfields : ∀ ps : List (String × List Char),
      encodeRawFields (ps.map (fun p => (p.1, compact p.2))) = encodeRawFields ps := by
    intro ps
    induction ps with
    | nil => rfl
    | cons p ps ih => rw [List.map_cons, encodeRawFields, encodeRawFields, ih, compact_compact]
  cases ps with
  | nil => rfl
  | cons p ps => rw [List.map_cons, encodeRaw, encodeRaw, hfields, compact_compact]

theorem marshalRaw_congr {m n : GoMap (List Char)}
    (h : ∀ k, (m.lookup k).map compact = (n.lookup k).map compact) : marshalRaw m = marshalRaw n := by
  have hsorted : (GoMap.mapVal (fun _ => compact) m).sortedEntries =
      (GoMap.mapVal (fun _ => compact) n).sortedEntries := by
    apply GoMap.sortedEntries_congr
    intro k
    rw [GoMap.lookup_mapVal, GoMap.lookup_mapVal, h]
  rw [marshalRaw, marshalRaw, ← encodeRaw_compact, ← encodeRaw_compact n.sortedEntries,
    ← GoMap.sortedEntries_mapVal, ← GoMap.sortedEntries_mapVal, hsorted]

end Zynax.Golang.Json
