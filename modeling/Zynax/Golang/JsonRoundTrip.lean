import Zynax.Golang.JsonGrammar
import Zynax.Golang.Strings

namespace Zynax.Golang.Json

/-!
# Reading back what `json.Marshal` writes
-/

/-! ### Strings -/

theorem hexVal_hexDigit : ∀ n < 16, hexVal (hexDigit n) = some n := by decide

theorem scanStr_unicodeEscape (n : Nat) (hn : n < 65536) (r : List Char) :
    scanStr .text (unicodeEscape n ++ r)
      = (scanStr .text r).map (fun p => (.code n :: p.1, p.2)) := by
  have h1 := hexVal_hexDigit (n / 4096 % 16) (Nat.mod_lt _ (by decide))
  have h2 := hexVal_hexDigit (n / 256 % 16) (Nat.mod_lt _ (by decide))
  have h3 := hexVal_hexDigit (n / 16 % 16) (Nat.mod_lt _ (by decide))
  have h4 := hexVal_hexDigit (n % 16) (Nat.mod_lt _ (by decide))
  have hval : (((0 * 16 + n / 4096 % 16) * 16 + n / 256 % 16) * 16 + n / 16 % 16) * 16 + n % 16
      = n := by omega
  simp only [unicodeEscape, List.cons_append, List.nil_append, scanStr, h1, h2, h3, h4, hval]
  simp

def unitOf (c : Char) : StrUnit :=
  if escapeChar c = unicodeEscape c.toNat then .code c.toNat else .lit c

theorem toNat_lt_of_needsUnicodeEscape {c : Char} (h : needsUnicodeEscape c = true) :
    c.toNat < 0xd800 := by
  simp only [needsUnicodeEscape, Bool.or_eq_true, decide_eq_true_eq, List.mem_cons,
    List.not_mem_nil, or_false] at h
  rcases h with h | rfl | rfl | rfl | rfl | rfl
  · have : c.toNat < 32 := h
    omega
  all_goals decide

inductive Written (c : Char) : List Char → Prop where
  | simple {e : Char} (he : simpleEscape e = some c) : Written c ['\\', e]
  | unicode (hn : needsUnicodeEscape c = true) : Written c (unicodeEscape c.toNat)
  | plain (hquote : c ≠ '"') (hslash : c ≠ '\\') (hlow : ¬ c < ' ') : Written c [c]

theorem written_escapeChar (c : Char) : Written c (escapeChar c) := by
  unfold escapeChar
  -- seven characters have an escape of their own
  split_ifs with hquote hslash hb hf hn hr ht hu
  · exact .simple (by rw [hquote]; rfl)
  · exact .simple (by rw [hslash]; rfl)
  · exact .simple (by rw [hb]; rfl)
  · exact .simple (by rw [hf]; rfl)
  · exact .simple (by rw [hn]; rfl)
  · exact .simple (by rw [hr]; rfl)
  · exact .simple (by rw [ht]; rfl)
  · exact .unicode hu
  · refine .plain hquote hslash ?_
    intro hlow
    exact hu (by simp [needsUnicodeEscape, hlow])

theorem scanStr_simpleEscape {e c : Char} (he : simpleEscape e = some c) (r : List Char) :
    scanStr .text ('\\' :: e :: r) = (scanStr .text r).map (fun p => (.lit c :: p.1, p.2)) := by
  have hu : e ≠ 'u' := by
    rintro rfl
    simp [simpleEscape] at he
  simp [scanStr, hu, he]

theorem escapeChar_cases (c : Char) :
    (needsUnicodeEscape c = true ∧ escapeChar c = unicodeEscape c.toNat) ∨
      (escapeChar c ≠ unicodeEscape c.toNat ∧ ∀ r, scanStr .text (escapeChar c ++ r)
        = (scanStr .text r).map (fun p => (.lit c :: p.1, p.2))) := by
  have hw := written_escapeChar c
  generalize escapeChar c = w at hw ⊢
  cases hw with
  | simple he => exact Or.inr ⟨by simp [unicodeEscape], fun r => scanStr_simpleEscape he r⟩
  | unicode hn => exact Or.inl ⟨hn, rfl⟩
  | plain hquote hslash hlow =>
    exact Or.inr ⟨by simp [unicodeEscape], fun r => by simp [scanStr, hquote, hslash, hlow]⟩

theorem scanStr_escapeChar (c : Char) (r : List Char) :
    scanStr .text (escapeChar c ++ r)
      = (scanStr .text r).map (fun p => (unitOf c :: p.1, p.2)) := by
  rcases escapeChar_cases c with ⟨hn, he⟩ | ⟨he, hscan⟩
  · have hlt := toNat_lt_of_needsUnicodeEscape hn
    rw [unitOf, if_pos he, he, scanStr_unicodeEscape _ (by omega)]
  · rw [unitOf, if_neg he, hscan]

theorem scanStr_flatMap_escapeChar (l r : List Char) :
    scanStr .text (l.flatMap escapeChar ++ '"' :: r) = some (l.map unitOf, r) := by
  induction l with
  | nil => simp [scanStr]
  | cons c l ih =>
    rw [List.flatMap_cons, List.append_assoc, scanStr_escapeChar, ih]
    rfl

theorem joinUnits_some {n : Nat} (hn : n < 0xd800) (us : List StrUnit) :
    joinUnits (some n) us = Char.ofNat n :: joinUnits none us := by
  have hc : charOfCode n = Char.ofNat n := by
    rw [charOfCode, if_neg (by omega)]
  have hd : ∀ lo, decodeSurrogates n lo = none := by
    intro lo
    rw [decodeSurrogates, if_neg (by omega)]
  cases us with
  | nil => simp [joinUnits, hc]
  | cons u us =>
    cases u with
    | lit c => simp [joinUnits, hc]
    | code lo => simp [joinUnits, hc, hd]

theorem joinUnits_map_unitOf (l : List Char) : joinUnits none (l.map unitOf) = l := by
  induction l with
  | nil => rfl
  | cons c l ih =>
    rw [List.map_cons]
    rcases escapeChar_cases c with ⟨hn, he⟩ | ⟨he, _⟩
    · rw [unitOf, if_pos he, joinUnits, joinUnits_some (toNat_lt_of_needsUnicodeEscape hn), ih,
        Char.ofNat_toNat]
    · rw [unitOf, if_neg he, joinUnits, ih]

theorem spells_escapeBody (s : String) : Spells (escapeBody s) s := by
  refine ⟨s.toList.map unitOf, fun r => scanStr_flatMap_escapeChar s.toList r, ?_⟩
  rw [joinUnits_map_unitOf, String.ofList_toList]

/-! ### Documents -/

mutual

def NumbersOk : Json → Prop
  | .num l => isNumber l = true
  | .arr xs => NumbersOkElems xs
  | .obj fs => NumbersOkFields fs
  | _ => True

def NumbersOkElems : List Json → Prop
  | [] => True
  | x :: xs => NumbersOk x ∧ NumbersOkElems xs

def NumbersOkFields : List (String × Json) → Prop
  | [] => True
  | (_, v) :: fs => NumbersOk v ∧ NumbersOkFields fs

end

theorem nestedInduction {motive : Json → Prop} (null : motive .null) (bool : ∀ b, motive (.bool b))
    (num : ∀ l, motive (.num l)) (str : ∀ s, motive (.str s))
    (arr : ∀ xs, (∀ x ∈ xs, motive x) → motive (.arr xs))
    (obj : ∀ fs, (∀ f ∈ fs, motive f.2) → motive (.obj fs)) (v : Json) : motive v := by
  refine @Json.rec motive (fun xs => ∀ x ∈ xs, motive x) (fun fs => ∀ f ∈ fs, motive f.2)
    (fun f => motive f.2) null bool num str arr obj ?_ ?_ ?_ ?_ ?_ v
  · simp
  · grind
  · simp
  · grind
  · simp

variable {xs : List Json}

theorem numbersOkElems_iff : NumbersOkElems xs ↔ ∀ x ∈ xs, NumbersOk x := by
  induction xs with
  | nil => simp [NumbersOkElems]
  | cons x xs ih => simp [NumbersOkElems, ih]

variable {fs : List (String × Json)}

theorem numbersOkFields_iff :
    NumbersOkFields fs ↔ ∀ p ∈ fs, NumbersOk p.2 := by
  induction fs with
  | nil => simp [NumbersOkFields]
  | cons p fs ih => simp [NumbersOkFields, ih]

theorem reads_encodeElems {x : Json} (h : ∀ y ∈ x :: xs, Reads y.encode (.value y)) :
    Reads (x.encode ++ encodeElems xs) (.elems (x :: xs)) := by
  obtain ⟨hx, hxs⟩ := List.forall_mem_cons.mp h
  induction xs generalizing x with
  | nil => exact .lastElem hx blank_nil
  | cons y ys ih =>
    obtain ⟨hy, hys⟩ := List.forall_mem_cons.mp hxs
    have hcons := Reads.consElem hx blank_nil blank_nil (ih hxs hy hys)
    exact hcons

def memberOf (f : String × Json) : Member := ⟨f.1, f.2.encode, f.2⟩

theorem reads_memberOf {f : String × Json} (h : Reads f.2.encode (.value f.2)) :
    Reads (quote f.1 ++ ':' :: f.2.encode) (.member (memberOf f)) := by
  have hmember := Reads.member (m := memberOf f) (spells_escapeBody f.1) blank_nil blank_nil h
  simpa [quote, memberOf] using hmember

theorem reads_encodeFields {f : String × Json} (h : ∀ g ∈ f :: fs, Reads g.2.encode (.value g.2)) :
    Reads (quote f.1 ++ ':' :: (f.2.encode ++ encodeFields fs)) (.fields ((f :: fs).map memberOf)) := by
  obtain ⟨hf, hfs⟩ := List.forall_mem_cons.mp h
  have hassoc : ∀ r, quote f.1 ++ ':' :: (f.2.encode ++ r) = (quote f.1 ++ ':' :: f.2.encode) ++ r := by
    simp
  rw [hassoc]
  induction fs generalizing f with
  | nil => exact .lastField (reads_memberOf hf) blank_nil
  | cons g gs ih =>
    obtain ⟨hg, hgs⟩ := List.forall_mem_cons.mp hfs
    have hrest := ih hfs hg hgs (by simp)
    rw [encodeFields, show quote g.1 ++ ':' :: (g.2.encode ++ encodeFields gs) =
      (quote g.1 ++ ':' :: g.2.encode) ++ encodeFields gs by simp]
    have hcons := Reads.consField (reads_memberOf hf) blank_nil blank_nil hrest
    exact hcons

theorem reads_encode (v : Json) : NumbersOk v → Reads v.encode (.value v) := by
  induction v using nestedInduction with
  | null => exact fun _ => .null
  | bool b => cases b <;> intro _ <;> constructor
  | num l => exact fun hv => .num hv
  | str s => exact fun _ => .str (spells_escapeBody s)
  | arr xs ih =>
    intro hv
    have hreads : ∀ x ∈ xs, Reads x.encode (.value x) := fun x hx =>
      ih x hx (numbersOkElems_iff.mp hv x hx)
    cases xs with
    | nil => exact .emptyArr blank_nil
    | cons x xs =>
      have harr := Reads.arr blank_nil (reads_encodeElems hreads)
      exact harr
  | obj fs ih =>
    intro hv
    have hreads : ∀ f ∈ fs, Reads f.2.encode (.value f.2) := fun f hf =>
      ih f hf (numbersOkFields_iff.mp hv f hf)
    rcases fs with _ | ⟨⟨k, w⟩, fs⟩
    · exact .emptyObj blank_nil
    · have hobj := Reads.obj blank_nil (reads_encodeFields hreads)
      rw [List.map_map, show Member.pair ∘ memberOf = id from rfl, List.map_id] at hobj
      exact hobj

variable {v : Json}

/-- **The reader inverts the writer.** -/
theorem parseText_encode (hv : NumbersOk v) : parseText v.encode = some v := by
  have h := (reads_encode v hv).parseText blank_nil blank_nil
  grind

theorem unmarshal_marshal (hv : NumbersOk v) :
    unmarshal v.marshal = if v.depth ≤ maxNestingDepth then some v else none := by
  rw [unmarshal, marshal, String.toList_ofList, parseText_encode hv]

theorem marshal_inj {w : Json} (hv : NumbersOk v) (hw : NumbersOk w) (h : v.marshal = w.marshal) :
    v = w := by
  have henc : v.encode = w.encode := by
    simpa only [marshal, String.toList_ofList] using congrArg String.toList h
  have hread := parseText_encode hv
  rw [henc, parseText_encode hw] at hread
  grind

/-! ### Marshalled Go maps -/

variable {n : Nat} {s : String} {r : List Char}

theorem depthElems_le_iff :
    depthElems xs ≤ n ↔ ∀ x ∈ xs, x.depth ≤ n := by
  induction xs with
  | nil => simp [depthElems]
  | cons x xs ih => simp [depthElems, ih]

theorem depthFields_le_iff :
    depthFields fs ≤ n ↔ ∀ p ∈ fs, p.2.depth ≤ n := by
  induction fs with
  | nil => simp [depthFields]
  | cons p fs ih => simp [depthFields, ih]

theorem depth_obj_le_iff :
    (Json.obj fs).depth ≤ maxNestingDepth ↔ ∀ p ∈ fs, p.2.depth < maxNestingDepth := by
  have hlt : ∀ n, n < maxNestingDepth ↔ n ≤ maxNestingDepth - 1 := fun n => by
    rw [maxNestingDepth]
    omega
  simp only [depth, Nat.add_one_le_iff, hlt, depthFields_le_iff]

theorem unmarshal_eq_some_iff :
    unmarshal s = some v ↔ parseText s.toList = some v ∧ v.depth ≤ maxNestingDepth := by
  rw [unmarshal]
  grind

theorem parseValue_brace {r' : List Char}
    (h : parseValue n ('{' :: r) = some (v, r')) : ∃ fs, v = .obj fs := by
  cases n with
  | zero => exact absurd h (by simp [parseValue])
  | succ n =>
    rw [parseValue, if_neg (by decide), if_neg (by decide), if_pos rfl] at h
    split at h
    · exact absurd h (by simp)
    · split at h
      · grind
      · obtain ⟨p, -, hp⟩ := Option.map_eq_some_iff.mp h
        grind

theorem unmarshal_brace (hs : s.toList = '{' :: r)
    (h : unmarshal s = some v) : ∃ fs, v = .obj fs := by
  have htext := (unmarshal_eq_some_iff.mp h).1
  rw [hs, parseText, show skipWs ('{' :: r) = '{' :: r from rfl] at htext
  split at htext
  · rename_i w r' hw
    split at htext
    · exact Option.some.inj htext ▸ parseValue_brace hw
    · exact absurd htext (by simp)
  · exact absurd htext (by simp)

theorem head_of_unmarshal_obj (h : unmarshal s = some (.obj fs))
    (hhead : ∀ c ∈ s.toList.head?, isWs c = false) : s.toList.head? = some '{' := by
  obtain ⟨w, t, w', hs, hw, -, hreads⟩ := reads_of_parseText (unmarshal_eq_some_iff.mp h).1
  obtain rfl : w = [] := by
    cases w with
    | nil => rfl
    | cons c w =>
      have hblank : isWs c = true := hw c List.mem_cons_self
      grind
  rw [hs]
  cases hreads with
  | emptyObj _ => rfl
  | obj _ _ => rfl

theorem decodeObject_obj (hnum : NumbersOk (.obj fs)) :
    decodeObject (Json.obj fs).marshal =
      if (Json.obj fs).depth ≤ maxNestingDepth then some (GoMap.ofPairs fs) else none := by
  rw [decodeObject, unmarshal_marshal hnum]
  split <;> rfl

/-! ### Objects of strings -/

theorem unmarshal_texts (h : ∀ p ∈ fs, ∃ s, p.2 = Json.str s) :
    unmarshal (Json.obj fs).marshal = some (.obj fs) := by
  rw [unmarshal_marshal, if_pos]
  · rw [depth_obj_le_iff]
    intro p hp
    obtain ⟨s, hs⟩ := h p hp
    rw [hs]
    exact Nat.zero_lt_succ _
  · refine numbersOkFields_iff.mpr fun p hp => ?_
    obtain ⟨s, hs⟩ := h p hp
    rw [hs]
    trivial

theorem escapeChar_not_lt (c : Char) : ∀ d ∈ escapeChar c, ¬ d < ' ' := by
  intro d hd
  have hw := written_escapeChar c
  generalize escapeChar c = w at hw hd
  cases hw with
  | @simple e he =>
    rcases List.mem_cons.mp hd with rfl | hd
    · decide
    · obtain rfl := List.mem_singleton.mp hd
      unfold simpleEscape at he
      split_ifs at he with hsame hb hf hn hr ht
      · rcases hsame with rfl | rfl | rfl <;> decide
      all_goals (subst d; decide)
  | unicode hn =>
    have hhex : ∀ n < 16, ¬ hexDigit n < ' ' := by decide
    simp only [unicodeEscape, List.mem_cons, List.not_mem_nil, or_false] at hd
    rcases hd with rfl | rfl | rfl | rfl | rfl | rfl
    · decide
    · decide
    all_goals exact hhex _ (Nat.mod_lt _ (by decide))
  | plain hquote hslash hlow =>
    grind

theorem not_lt_of_mem_quote (s : String) : ∀ c ∈ quote s, ¬ c < ' ' := by
  have hbody : ∀ c ∈ escapeBody s, ¬ c < ' ' := by
    intro c hc
    obtain ⟨d, -, hc⟩ := List.mem_flatMap.mp hc
    exact escapeChar_not_lt d c hc
  simpa [quote, or_imp, forall_and] using hbody

theorem not_lt_of_mem_encodeFields (h : ∀ p ∈ fs, ∃ s, p.2 = Json.str s) :
    ∀ c ∈ encodeFields fs, ¬ c < ' ' := by
  induction fs with
  | nil => simp [encodeFields]
  | cons p fs ih =>
    rw [List.forall_mem_cons] at h
    obtain ⟨⟨s, hs⟩, h⟩ := h
    obtain ⟨k, v⟩ := p
    obtain rfl : v = .str s := hs
    simp only [encodeFields, encode, List.forall_mem_cons, List.forall_mem_append]
    exact ⟨by decide, not_lt_of_mem_quote k, by decide, not_lt_of_mem_quote s, ih h⟩

theorem not_lt_of_mem_texts (h : ∀ p ∈ fs, ∃ s, p.2 = Json.str s) :
    ∀ c ∈ (Json.obj fs).encode, ¬ c < ' ' := by
  cases fs with
  | nil => simp [Json.encode]
  | cons p fs =>
    rw [List.forall_mem_cons] at h
    obtain ⟨⟨s, hs⟩, h⟩ := h
    obtain ⟨k, v⟩ := p
    obtain rfl : v = .str s := hs
    simp only [encode, List.forall_mem_cons, List.forall_mem_append]
    exact ⟨by decide, not_lt_of_mem_quote k, by decide, not_lt_of_mem_quote s, not_lt_of_mem_encodeFields h⟩

/-! ### Text without a template delimiter -/

variable {l : List Char}

def NoDelim (l : List Char) : Prop := l.IsChain (fun a b => ¬ (a = '{' ∧ b = '{'))

theorem noDelim_iff :
    NoDelim s.toList ↔ contains s "\x7b\x7b" = false := by
  rw [NoDelim, contains, ← indexOf_pair_eq_none, Option.isSome_eq_false_iff, Option.isNone_iff_eq_none]
  rfl

theorem noDelim_cons {c : Char} (hc : c ≠ '{') : NoDelim (c :: l) ↔ NoDelim l := by
  cases l with
  | nil => simp [NoDelim]
  | cons d l => simp [NoDelim, hc]

theorem noDelim_append (hl : ∀ c ∈ l, c ≠ '{') :
    NoDelim (l ++ r) ↔ NoDelim r := by
  induction l with
  | nil => rfl
  | cons c l ih =>
    rw [List.cons_append, noDelim_cons (hl c (by simp)), ih (fun d hd => hl d (by simp [hd]))]

theorem hexDigit_ne_brace : ∀ n < 16, hexDigit n ≠ '{' := by decide

theorem escapeChar_ne_brace {c : Char} (hc : c ≠ '{') : ∀ d ∈ escapeChar c, d ≠ '{' := by
  intro d hd
  have hw := written_escapeChar c
  generalize escapeChar c = w at hw hd
  cases hw with
  | @simple e he =>
    rintro rfl
    have hbrace : '{' = e := by simpa using hd
    rw [← hbrace] at he
    simp [simpleEscape] at he
  | unicode hn =>
    simp only [unicodeEscape, List.mem_cons, List.not_mem_nil, or_false] at hd
    rcases hd with rfl | rfl | rfl | rfl | rfl | rfl
    · decide
    · decide
    all_goals exact hexDigit_ne_brace _ (Nat.mod_lt _ (by decide))
  | plain =>
    grind

theorem escapeChar_ne_nil (c : Char) : escapeChar c ≠ [] := by
  have hw := written_escapeChar c
  generalize escapeChar c = w at hw ⊢
  cases hw with
  | simple he => exact List.cons_ne_nil _ _
  | unicode hn => exact List.cons_ne_nil _ _
  | plain => exact List.cons_ne_nil _ _

theorem noDelim_escape :
    NoDelim (l.flatMap escapeChar ++ '"' :: r) ↔ NoDelim l ∧ NoDelim r := by
  induction l with
  | nil =>
    rw [List.flatMap_nil, List.nil_append, noDelim_cons (by decide)]
    exact (and_iff_right List.IsChain.nil).symm
  | cons c l ih =>
    rw [List.flatMap_cons, List.append_assoc]
    by_cases hc : c = '{'
    · subst hc
      -- the brace stands for itself, so the character after it decides
      show NoDelim ('{' :: (l.flatMap escapeChar ++ '"' :: r)) ↔ _
      cases l with
      | nil => simpa [NoDelim] using ih
      | cons d l =>
        by_cases hd : d = '{'
        · subst hd
          refine iff_of_false (fun h => ?_) (fun h => ?_)
          · exact (List.isChain_cons_cons.mp h).1 ⟨rfl, rfl⟩
          · exact (List.isChain_cons_cons.mp h.1).1 ⟨rfl, rfl⟩
        · obtain ⟨e, t, het⟩ : ∃ e t, escapeChar d = e :: t :=
            List.exists_cons_of_ne_nil (escapeChar_ne_nil d)
          have he : e ≠ '{' := escapeChar_ne_brace hd e (by rw [het]; simp)
          have hleft : NoDelim ('{' :: ((d :: l).flatMap escapeChar ++ '"' :: r)) ↔
              NoDelim ((d :: l).flatMap escapeChar ++ '"' :: r) := by
            rw [List.flatMap_cons, het, List.cons_append, List.cons_append]
            exact List.isChain_cons_cons.trans (and_iff_right fun h => he h.2)
          have hright : NoDelim ('{' :: d :: l) ↔ NoDelim (d :: l) :=
            List.isChain_cons_cons.trans (and_iff_right fun h => hd h.2)
          rw [hleft, hright, ih]
    · rw [noDelim_append (escapeChar_ne_brace hc), ih, noDelim_cons hc]

theorem noDelim_quote :
    NoDelim (quote s ++ r) ↔ NoDelim s.toList ∧ NoDelim r := by
  rw [quote, List.cons_append, noDelim_cons (by decide), List.append_assoc]
  exact noDelim_escape

mutual

def AllStrings (P : String → Prop) : Json → Prop
  | .str s => P s
  | .arr xs => AllStringsElems P xs
  | .obj fs => AllStringsFields P fs
  | _ => True

def AllStringsElems (P : String → Prop) : List Json → Prop
  | [] => True
  | x :: xs => AllStrings P x ∧ AllStringsElems P xs

def AllStringsFields (P : String → Prop) : List (String × Json) → Prop
  | [] => True
  | (k, v) :: fs => P k ∧ AllStrings P v ∧ AllStringsFields P fs

end

theorem allStringsElems_iff {P : String → Prop} :
    AllStringsElems P xs ↔ ∀ x ∈ xs, x.AllStrings P := by
  induction xs with
  | nil => simp [AllStringsElems]
  | cons x xs ih => simp [AllStringsElems, ih]

theorem allStringsFields_iff {P : String → Prop} :
    AllStringsFields P fs ↔ ∀ p ∈ fs, P p.1 ∧ p.2.AllStrings P := by
  induction fs with
  | nil => simp [AllStringsFields]
  | cons p fs ih => simp [AllStringsFields, ih, and_assoc]

theorem isNumber_ne_brace (h : isNumber l = true) : ∀ c ∈ l, c ≠ '{' := by
  rintro c hc rfl
  exact absurd (isNumChar_of_isNumberFrom h _ hc) (by decide)

theorem noDelim_member {k : String} :
    NoDelim (quote k ++ ':' :: (l ++ r)) ↔ NoDelim k.toList ∧ NoDelim (l ++ r) := by
  rw [noDelim_quote, noDelim_cons (by decide)]

theorem noDelim_brace_quote {k : String} :
    NoDelim ('{' :: (quote k ++ r)) ↔ NoDelim (quote k ++ r) :=
  List.isChain_cons_cons.trans (and_iff_right (by decide))

mutual

/-- **Writing a document introduces no delimiter**, and drops none: there is one exactly when a
    string of the document holds one, or what stands after it. -/
theorem noDelim_encode : ∀ (v : Json) (r : List Char), NumbersOk v →
    (NoDelim (v.encode ++ r) ↔ AllStrings (fun s => NoDelim s.toList) v ∧ NoDelim r)
  | .null, r, _ => (noDelim_append (by simp [encode])).trans (and_iff_right trivial).symm
  | .bool true, r, _ => (noDelim_append (by simp [encode])).trans (and_iff_right trivial).symm
  | .bool false, r, _ => (noDelim_append (by simp [encode])).trans (and_iff_right trivial).symm
  | .num l, r, hn => (noDelim_append (isNumber_ne_brace hn)).trans (and_iff_right trivial).symm
  | .str s, r, _ => noDelim_quote
  | .arr [], r, _ => (noDelim_append (by simp [encode])).trans (and_iff_right trivial).symm
  | .arr (x :: xs), r, hn => by
    rw [encode, List.cons_append, noDelim_cons (by decide), List.append_assoc,
      noDelim_encode x _ hn.1, noDelim_encodeElems xs r hn.2]
    exact and_assoc.symm
  | .obj [], r, _ => by
    rw [encode, List.cons_append, List.cons_append, List.nil_append]
    have hbrace : NoDelim ('{' :: '}' :: r) ↔ NoDelim ('}' :: r) :=
      List.isChain_cons_cons.trans (and_iff_right (by decide))
    rw [hbrace, noDelim_cons (by decide)]
    exact (and_iff_right trivial).symm
  | .obj ((k, v) :: fs), r, hn => by
    rw [encode, List.cons_append, List.append_assoc, List.cons_append, List.append_assoc,
      noDelim_brace_quote, noDelim_member, noDelim_encode v _ hn.1, noDelim_encodeFields fs r hn.2,
      ← and_assoc, ← and_assoc]
    simp only [AllStrings, AllStringsFields, and_assoc]

theorem noDelim_encodeElems : ∀ (xs : List Json) (r : List Char), NumbersOkElems xs →
    (NoDelim (encodeElems xs ++ r) ↔ AllStringsElems (fun s => NoDelim s.toList) xs ∧ NoDelim r)
  | [], r, _ => (noDelim_append (by simp [encodeElems])).trans (and_iff_right trivial).symm
  | x :: xs, r, hn => by
    rw [encodeElems, List.cons_append, noDelim_cons (by decide), List.append_assoc,
      noDelim_encode x _ hn.1, noDelim_encodeElems xs r hn.2]
    exact and_assoc.symm

theorem noDelim_encodeFields : ∀ (fs : List (String × Json)) (r : List Char), NumbersOkFields fs →
    (NoDelim (encodeFields fs ++ r) ↔ AllStringsFields (fun s => NoDelim s.toList) fs ∧ NoDelim r)
  | [], r, _ => (noDelim_append (by simp [encodeFields])).trans (and_iff_right trivial).symm
  | (k, v) :: fs, r, hn => by
    rw [encodeFields, List.cons_append, noDelim_cons (by decide), List.append_assoc,
      List.cons_append, List.append_assoc, noDelim_member, noDelim_encode v _ hn.1,
      noDelim_encodeFields fs r hn.2]
    simp only [AllStringsFields, and_assoc]

end

end Zynax.Golang.Json
