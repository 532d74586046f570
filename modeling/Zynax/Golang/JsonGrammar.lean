import Zynax.Golang.Json
import Mathlib.Data.List.TakeWhile

namespace Zynax.Golang.Json

/-!
# The grammar of JSON texts

The texts a reader of `encoding/json` accepts, whatever their spelling: with whitespace between
the tokens and with any escapes in the strings.
-/

/-! ### Numbers -/

variable {c : Char} {l t r : List Char}

theorem isNumChar_of_step {q q' : NumState} (h : q.step c = some q') :
    isNumChar c = true := by
  have hd : isDigit19 c = true → c.isDigit = true := by
    simp only [isDigit19, Char.isDigit, Bool.and_eq_true, decide_eq_true_eq, ge_iff_le]
    rintro ⟨h1, h2⟩
    exact ⟨le_trans (by decide) h1, h2⟩
  cases q <;> simp only [NumState.step] at h <;> (repeat' split at h) <;>
    simp_all [isNumChar]
  all_goals (rename_i hc; rcases hc with rfl | rfl <;> simp)

theorem isNumChar_of_isNumberFrom {q : NumState} (h : isNumberFrom q l = true) :
    ∀ c ∈ l, isNumChar c = true := by
  induction l generalizing q with
  | nil => intro c hc; exact absurd hc (by simp)
  | cons a l ih =>
    rw [isNumberFrom] at h
    split at h
    · rename_i q' hq
      intro c hc
      rcases List.mem_cons.mp hc with rfl | hc
      · exact isNumChar_of_step hq
      · exact ih h c hc
    · exact absurd h (by simp)

def EndsNumber (r : List Char) : Prop := ∀ c ∈ r.head?, isNumChar c = false

theorem endsNumber_cons (h : isNumChar c = false) :
    EndsNumber (c :: t) := by
  intro c' hc'
  grind

theorem parseNumber_append (hl : isNumber l = true) (hr : EndsNumber r) :
    parseNumber (l ++ r) = some (.num l, r) := by
  have hall := isNumChar_of_isNumberFrom hl
  have htake : (l ++ r).takeWhile isNumChar = l := by
    rw [List.takeWhile_append_of_pos hall]
    cases r with
    | nil => simp
    | cons c r => simp [hr c (by simp)]
  have hdrop : (l ++ r).dropWhile isNumChar = r := by
    rw [List.dropWhile_append_of_pos hall]
    cases r with
    | nil => simp
    | cons c r => simp [hr c (by simp)]
  simp only [parseNumber, htake, hdrop, hl, if_true]

theorem isNumber_head (h : isNumber l = true) :
    ∃ c t, l = c :: t ∧ (c = '-' ∨ c = '0' ∨ isDigit19 c = true) := by
  cases l with
  | nil => exact absurd h (by decide)
  | cons c t =>
    refine ⟨c, t, rfl, ?_⟩
    by_contra hc
    rw [not_or, not_or] at hc
    simp [isNumber, isNumberFrom, NumState.step, hc.1, hc.2.1, hc.2.2] at h

theorem isNumber_head_ne (h : isNumber (c :: t) = true) :
    c ∉ ['"', '[', '{', ']', '}', 'n', 't', 'f', ' ', '\t', '\r', '\n'] := by
  obtain ⟨c', t', heq, hc⟩ := isNumber_head h
  obtain ⟨rfl, rfl⟩ := List.cons.inj heq
  rcases hc with rfl | rfl | hc
  · decide
  · decide
  · have hdigit : '1' ≤ c ∧ c ≤ '9' := by simpa [isDigit19] using hc
    intro hmem
    simp only [List.mem_cons, List.not_mem_nil, or_false] at hmem
    rcases hmem with rfl | rfl | rfl | rfl | rfl | rfl | rfl | rfl | rfl | rfl | rfl | rfl <;>
      grind

/-! ### Whitespace -/

variable {w s : List Char}

def Blank (w : List Char) : Prop := ∀ c ∈ w, isWs c = true

theorem blank_nil : Blank [] := by simp [Blank]

theorem skipWs_cons (h : isWs c = false) : skipWs (c :: t) = c :: t := by
  rw [skipWs, List.dropWhile_cons, if_neg (by simp [h])]

theorem skipWs_blank (hw : Blank w) (r : List Char) :
    skipWs (w ++ r) = skipWs r := by
  rw [skipWs, skipWs, List.dropWhile_append_of_pos hw]

theorem skipWs_blank_cons (hw : Blank w) (hc : isWs c = false)
    (r : List Char) : skipWs (w ++ c :: r) = c :: r := by
  rw [skipWs_blank hw, skipWs_cons hc]

theorem exists_blank_append (s : List Char) : ∃ w, Blank w ∧ s = w ++ skipWs s :=
  ⟨s.takeWhile isWs, List.all_eq_true.mp List.all_takeWhile, List.takeWhile_append_dropWhile.symm⟩

theorem exists_blank_cons {s' : List Char} (h : skipWs s = c :: s') :
    ∃ w, Blank w ∧ s = w ++ c :: s' :=
  h ▸ exists_blank_append s

theorem isNumChar_of_isWs (h : isWs c = true) : isNumChar c = false := by
  simp only [isWs, Bool.or_eq_true, decide_eq_true_eq] at h
  rcases h with ((rfl | rfl) | rfl) | rfl <;> decide

theorem Blank.endsNumber (hw : Blank w) : EndsNumber w := fun c hc =>
  isNumChar_of_isWs (hw c (List.mem_of_mem_head? hc))

theorem endsNumber_blank_cons (hw : Blank w) (hc : isNumChar c = false)
    (r : List Char) : EndsNumber (w ++ c :: r) := by
  cases w with
  | nil => exact endsNumber_cons hc
  | cons d w => exact endsNumber_cons (isNumChar_of_isWs (hw d (by simp)))

/-! ### The grammar -/

def Spells (body : List Char) (s : String) : Prop :=
  ∃ units, (∀ r, scanStr .text (body ++ '"' :: r) = some (units, r)) ∧
    String.ofList (joinUnits none units) = s

structure Member where
  key : String
  text : List Char
  value : Json

def Member.pair (m : Member) : String × Json := (m.key, m.value)

inductive Item where
  | value (v : Json)
  | member (m : Member)
  | elems (xs : List Json)
  | fields (ms : List Member)

inductive Reads : List Char → Item → Prop where
  | null : Reads ['n', 'u', 'l', 'l'] (.value .null)
  | yes : Reads ['t', 'r', 'u', 'e'] (.value (.bool true))
  | no : Reads ['f', 'a', 'l', 's', 'e'] (.value (.bool false))
  | num {l : List Char} : isNumber l = true → Reads l (.value (.num l))
  | str {body : List Char} {s : String} : Spells body s →
      Reads ('"' :: (body ++ ['"'])) (.value (.str s))
  | emptyArr {w : List Char} : Blank w → Reads ('[' :: (w ++ [']'])) (.value (.arr []))
  | arr {w t : List Char} {xs : List Json} : Blank w → Reads t (.elems xs) →
      Reads ('[' :: (w ++ t)) (.value (.arr xs))
  | emptyObj {w : List Char} : Blank w → Reads ('{' :: (w ++ ['}'])) (.value (.obj []))
  | obj {w t : List Char} {ms : List Member} : Blank w → Reads t (.fields ms) →
      Reads ('{' :: (w ++ t)) (.value (.obj (ms.map Member.pair)))
  | lastElem {t w : List Char} {v : Json} : Reads t (.value v) → Blank w →
      Reads (t ++ (w ++ [']'])) (.elems [v])
  | consElem {t w w' ts : List Char} {v : Json} {vs : List Json} : Reads t (.value v) → Blank w →
      Blank w' → Reads ts (.elems vs) → Reads (t ++ (w ++ ',' :: (w' ++ ts))) (.elems (v :: vs))
  | member {key w w' : List Char} {m : Member} : Spells key m.key → Blank w → Blank w' →
      Reads m.text (.value m.value) →
      Reads ('"' :: (key ++ '"' :: (w ++ ':' :: (w' ++ m.text)))) (.member m)
  | lastField {t w : List Char} {m : Member} : Reads t (.member m) → Blank w →
      Reads (t ++ (w ++ ['}'])) (.fields [m])
  | consField {t w w' ts : List Char} {m : Member} {ms : List Member} : Reads t (.member m) →
      Blank w → Blank w' → Reads ts (.fields ms) →
      Reads (t ++ (w ++ ',' :: (w' ++ ts))) (.fields (m :: ms))

variable {i : Item}

theorem Reads.head (h : Reads t i) :
    ∃ c u, t = c :: u ∧ isWs c = false ∧ c ≠ ']' ∧ c ≠ '}' := by
  induction h with
  | null | yes | no | str _ | emptyArr _ | arr _ _ _ | emptyObj _ | obj _ _ _ | member _ _ _ _ _ =>
    exact ⟨_, _, rfl, by decide, by decide, by decide⟩
  | @num l hl =>
    obtain ⟨c, u, rfl, -⟩ := isNumber_head hl
    have hne := isNumber_head_ne hl
    simp only [List.mem_cons, List.not_mem_nil, or_false, not_or] at hne
    refine ⟨c, u, rfl, ?_, hne.2.2.2.1, hne.2.2.2.2.1⟩
    simp [isWs, hne]
  | lastElem _ _ ih | consElem _ _ _ _ ih _ | lastField _ _ ih | consField _ _ _ _ ih _ =>
    grind

theorem Reads.skipWs_append (h : Reads t i) (r : List Char) :
    skipWs (t ++ r) = t ++ r := by
  obtain ⟨c, u, rfl, hc, -⟩ := h.head
  rw [List.cons_append, skipWs_cons hc]

/-! ### A text of the grammar is read -/

variable {k : String} {v : Json}

def Item.Parsed (fuel : Nat) (s r : List Char) : Item → Prop
  | .value v => parseValue fuel s = some (v, r)
  | .member m => ∃ u, parseKey s = some (m.key, u) ∧ skipWs u = m.text ++ r ∧
      parseValue fuel (m.text ++ r) = some (m.value, r)
  | .elems xs => parseElems fuel s = some (xs, r)
  | .fields ms => parseFields fuel s = some (ms.map Member.pair, r)

theorem Spells.parseStr {body : List Char} {s : String} (h : Spells body s) (r : List Char) :
    parseStr (body ++ '"' :: r) = some (s, r) := by
  obtain ⟨units, hscan, rfl⟩ := h
  rw [Json.parseStr, hscan, Option.map_some]

theorem Spells.parseKey {key : List Char} (h : Spells key k) (hw : Blank w)
    (r : List Char) : parseKey ('"' :: (key ++ '"' :: (w ++ ':' :: r))) = some (k, r) := by
  rw [Json.parseKey, if_pos rfl, h.parseStr]
  dsimp only
  rw [skipWs_blank_cons hw (by decide)]
  rfl

theorem Reads.parsed (h : Reads t i) :
    ∀ (fuel : Nat) (r : List Char), 2 * t.length ≤ fuel → EndsNumber r →
      i.Parsed fuel (t ++ r) r := by
  -- by induction on the grammar; every piece but a member opens one level of the reader
  induction h with
  | null | yes | no =>
    intro fuel r hfuel _
    obtain ⟨n, rfl⟩ : ∃ n, fuel = n + 1 := ⟨fuel - 1, by simp at hfuel; omega⟩
    rfl
  | @num l hl =>
    intro fuel r hfuel hr
    obtain ⟨c, u, rfl, -⟩ := isNumber_head hl
    obtain ⟨n, rfl⟩ : ∃ n, fuel = n + 1 := ⟨fuel - 1, by simp at hfuel; omega⟩
    have hne := isNumber_head_ne hl
    simp only [List.mem_cons, List.not_mem_nil, or_false, not_or] at hne
    obtain ⟨h1, h2, h3, -, -, h4, h5, h6, -⟩ := hne
    simp only [Item.Parsed, List.cons_append, parseValue, if_neg h1, if_neg h2, if_neg h3, if_neg h4,
      if_neg h5, if_neg h6]
    exact parseNumber_append hl hr
  | @str body s hs =>
    intro fuel r hfuel _
    obtain ⟨n, rfl⟩ : ∃ n, fuel = n + 1 := ⟨fuel - 1, by simp at hfuel; omega⟩
    show parseValue (n + 1) ('"' :: (body ++ ['"']) ++ r) = some (.str s, r)
    rw [List.cons_append, List.append_assoc, List.singleton_append, parseValue, if_pos rfl,
      hs.parseStr, Option.map_some]
  | @emptyArr w hw =>
    intro fuel r hfuel _
    obtain ⟨n, rfl⟩ : ∃ n, fuel = n + 1 := ⟨fuel - 1, by simp at hfuel; omega⟩
    have hskip := skipWs_blank_cons hw (show isWs ']' = false by decide) r
    simp [Item.Parsed, parseValue, hskip]
  | @emptyObj w hw =>
    intro fuel r hfuel _
    obtain ⟨n, rfl⟩ : ∃ n, fuel = n + 1 := ⟨fuel - 1, by simp at hfuel; omega⟩
    have hskip := skipWs_blank_cons hw (show isWs '}' = false by decide) r
    simp [Item.Parsed, parseValue, hskip]
  | @arr w t xs hw ht ih =>
    intro fuel r hfuel hr
    obtain ⟨n, rfl⟩ : ∃ n, fuel = n + 1 := ⟨fuel - 1, by simp at hfuel; omega⟩
    have helems : parseElems n (t ++ r) = some (xs, r) :=
      ih n r (by simp at hfuel; omega) hr
    obtain ⟨c, u, rfl, hc, hclose, -⟩ := ht.head
    have hskip := skipWs_blank_cons hw hc (u ++ r)
    rw [List.cons_append] at helems
    simp [Item.Parsed, parseValue, hskip, hclose, helems]
  | @obj w t ms hw ht ih =>
    intro fuel r hfuel hr
    obtain ⟨n, rfl⟩ : ∃ n, fuel = n + 1 := ⟨fuel - 1, by simp at hfuel; omega⟩
    have hfields : parseFields n (t ++ r) = some (ms.map Member.pair, r) :=
      ih n r (by simp at hfuel; omega) hr
    obtain ⟨c, u, rfl, hc, -, hclose⟩ := ht.head
    have hskip := skipWs_blank_cons hw hc (u ++ r)
    rw [List.cons_append] at hfields
    simp [Item.Parsed, parseValue, hskip, hclose, hfields]
  | @member key w w' m hkey hw hw' hv ih =>
    intro fuel r hfuel hr
    refine ⟨w' ++ m.text ++ r, ?_, ?_, ih fuel r (by simp at hfuel; omega) hr⟩
    · have hassoc : '"' :: (key ++ '"' :: (w ++ ':' :: (w' ++ m.text))) ++ r =
          '"' :: (key ++ '"' :: (w ++ ':' :: (w' ++ m.text ++ r))) := by
        simp
      rw [hassoc, hkey.parseKey hw]
    · rw [List.append_assoc, skipWs_blank hw', hv.skipWs_append]
  | @lastElem t w v ht hw ih =>
    intro fuel r hfuel hr
    obtain ⟨n, rfl⟩ : ∃ n, fuel = n + 1 := ⟨fuel - 1, by simp at hfuel; omega⟩
    have hvalue : parseValue n (t ++ (w ++ ']' :: r)) = some (v, w ++ ']' :: r) :=
      ih n _ (by simp at hfuel; omega) (endsNumber_blank_cons hw (by decide) r)
    have hskip := skipWs_blank_cons hw (show isWs ']' = false by decide) r
    simp [Item.Parsed, parseElems, hvalue, hskip]
  | @consElem t w w' ts v vs ht hw hw' hts ih ihs =>
    intro fuel r hfuel hr
    obtain ⟨n, rfl⟩ : ∃ n, fuel = n + 1 := ⟨fuel - 1, by simp at hfuel; omega⟩
    have hvalue : parseValue n (t ++ (w ++ ',' :: (w' ++ (ts ++ r)))) =
        some (v, w ++ ',' :: (w' ++ (ts ++ r))) :=
      ih n _ (by simp at hfuel; omega) (endsNumber_blank_cons hw (by decide) _)
    have hrest : parseElems n (ts ++ r) = some (vs, r) := ihs n r (by simp at hfuel; omega) hr
    have hskip := skipWs_blank_cons hw (show isWs ',' = false by decide) (w' ++ (ts ++ r))
    have hskip' : skipWs (w' ++ (ts ++ r)) = ts ++ r := by
      rw [skipWs_blank hw', hts.skipWs_append]
    simp [Item.Parsed, parseElems, hvalue, hskip, hskip', hrest]
  | @lastField t w m ht hw ih =>
    intro fuel r hfuel hr
    obtain ⟨n, rfl⟩ : ∃ n, fuel = n + 1 := ⟨fuel - 1, by simp at hfuel; omega⟩
    obtain ⟨u, hkey, hu, hvalue⟩ := ih n (w ++ '}' :: r) (by simp at hfuel; omega)
      (endsNumber_blank_cons hw (by decide) r)
    have hskip := skipWs_blank_cons hw (show isWs '}' = false by decide) r
    simp [Item.Parsed, parseFields, hkey, hu, hvalue, hskip, Member.pair]
  | @consField t w w' ts m ms ht hw hw' hts ih ihs =>
    intro fuel r hfuel hr
    obtain ⟨n, rfl⟩ : ∃ n, fuel = n + 1 := ⟨fuel - 1, by simp at hfuel; omega⟩
    obtain ⟨u, hkey, hu, hvalue⟩ := ih n (w ++ ',' :: (w' ++ (ts ++ r))) (by simp at hfuel; omega)
      (endsNumber_blank_cons hw (by decide) _)
    have hrest : parseFields n (ts ++ r) = some (ms.map Member.pair, r) :=
      ihs n r (by simp at hfuel; omega) hr
    have hskip := skipWs_blank_cons hw (show isWs ',' = false by decide) (w' ++ (ts ++ r))
    have hskip' : skipWs (w' ++ (ts ++ r)) = ts ++ r := by
      rw [skipWs_blank hw', hts.skipWs_append]
    simp [Item.Parsed, parseFields, hkey, hu, hvalue, hskip, hskip', hrest, Member.pair]

theorem Reads.parseText {w' : List Char} (h : Reads t (.value v)) (hw : Blank w)
    (hw' : Blank w') : parseText (w ++ (t ++ w')) = some v := by
  have hparse := h.parsed (2 * (w ++ (t ++ w')).length + 2) w' (by simp; omega) hw'.endsNumber
  have hend : skipWs w' = [] := by
    rw [skipWs, List.dropWhile_eq_nil_iff]
    exact hw'
  rw [Json.parseText, skipWs_blank hw, h.skipWs_append]
  rw [Item.Parsed] at hparse
  grind

/-! ### What is read is a text of the grammar -/

variable {fuel : Nat}

theorem map_eq_some_pair {α β : Type} {o : Option (α × List Char)} {f : α → β} {b : β}
    (h : o.map (fun p => (f p.1, p.2)) = some (b, r)) :
    ∃ a, o = some (a, r) ∧ f a = b := by
  obtain ⟨⟨a, r'⟩, ho, heq⟩ := Option.map_eq_some_iff.mp h
  grind

def scanStep : StrState → Char → Option (StrState × List StrUnit)
  | .text, c =>
    if c = '\\' then some (.escape, [])
    else if c < ' ' then none
    else some (.text, [.lit c])
  | .escape, c =>
    if c = 'u' then some (.hex 3 0, []) else (simpleEscape c).map (fun ch => (.text, [.lit ch]))
  | .hex 0 acc, c => (hexVal c).map (fun d => (.text, [.code (acc * 16 + d)]))
  | .hex (left + 1) acc, c => (hexVal c).map (fun d => (.hex left (acc * 16 + d), []))

theorem scanStr_cons {q : StrState} (h : ¬(q = .text ∧ c = '"')) (s : List Char) :
    scanStr q (c :: s) = (scanStep q c).bind (fun st =>
      (scanStr st.1 s).map (fun p => (st.2 ++ p.1, p.2))) := by
  cases q with
  | text =>
    have hc : c ≠ '"' := fun hc => h ⟨rfl, hc⟩
    simp only [scanStr, scanStep, if_neg hc]
    split
    · simp
    · split <;> simp
  | escape =>
    simp only [scanStr, scanStep]
    split
    · simp
    · cases simpleEscape c <;> simp
  | hex left acc =>
    cases left <;> cases hd : hexVal c <;> simp [scanStr, scanStep, hd]

theorem exists_body_of_scanStr {q : StrState} {units : List StrUnit}
    (h : scanStr q s = some (units, r)) : ∃ body, s = body ++ '"' :: r ∧
      ∀ r', scanStr q (body ++ '"' :: r') = some (units, r') := by
  induction s generalizing q units with
  | nil => cases q <;> exact absurd h (by simp [scanStr])
  | cons c s ih =>
    by_cases hquote : q = .text ∧ c = '"'
    · obtain ⟨rfl, rfl⟩ := hquote
      simp only [scanStr, if_true, Option.some.injEq, Prod.mk.injEq] at h
      obtain ⟨rfl, rfl⟩ := h
      exact ⟨[], rfl, fun r' => rfl⟩
    · rw [scanStr_cons hquote] at h
      obtain ⟨⟨q', us⟩, hstep, hrest⟩ := Option.bind_eq_some_iff.mp h
      obtain ⟨units', hscan, rfl⟩ := map_eq_some_pair hrest
      obtain ⟨body, rfl, hbody⟩ := ih hscan
      refine ⟨c :: body, rfl, fun r' => ?_⟩
      rw [List.cons_append, scanStr_cons hquote, hstep, Option.bind_some, hbody, Option.map_some]

theorem spells_of_parseStr (h : parseStr s = some (k, r)) :
    ∃ body, s = body ++ '"' :: r ∧ Spells body k := by
  rw [parseStr] at h
  obtain ⟨units, hscan, rfl⟩ := map_eq_some_pair (f := fun us => String.ofList (joinUnits none us)) h
  obtain ⟨body, hs, hbody⟩ := exists_body_of_scanStr hscan
  exact ⟨body, hs, units, hbody, rfl⟩

theorem exists_key_of_parseKey (h : parseKey s = some (k, r)) :
    ∃ key w, s = '"' :: (key ++ '"' :: (w ++ ':' :: r)) ∧ Spells key k ∧ Blank w := by
  cases s with
  | nil => exact absurd h (by simp [parseKey])
  | cons c s =>
    rw [parseKey] at h
    split at h
    · rename_i hc
      cases hstr : parseStr s with
      | none => simp [hstr] at h
      | some p =>
        obtain ⟨k', r'⟩ := p
        obtain ⟨key, rfl, hkey⟩ := spells_of_parseStr hstr
        rw [hstr] at h
        dsimp only at h
        cases hr : skipWs r' with
        | nil => simp [hr] at h
        | cons c' r'' =>
          obtain ⟨w, hw, hskip⟩ := exists_blank_cons hr
          grind
    · exact absurd h (by simp)

theorem eq_append_of_parseWord {u : Json} (h : parseWord w u s = some (v, r)) :
    s = w ++ r ∧ v = u := by
  rw [parseWord] at h
  split at h
  · rename_i hprefix
    obtain ⟨t, rfl⟩ := List.isPrefixOf_iff_prefix.mp hprefix
    grind
  · exact absurd h (by simp)

theorem reads_of_parseNumber (h : parseNumber s = some (v, r)) :
    ∃ t, s = t ++ r ∧ Reads t (.value v) := by
  rw [parseNumber] at h
  split at h
  · rename_i hnum
    obtain ⟨rfl, rfl⟩ := Prod.mk.inj (Option.some.inj h)
    exact ⟨_, List.takeWhile_append_dropWhile.symm, .num hnum⟩
  · exact absurd h (by simp)

def ReadsOnly (fuel : Nat) : Prop :=
  (∀ s v r, parseValue fuel s = some (v, r) → ∃ t, s = t ++ r ∧ Reads t (.value v)) ∧
  (∀ s xs r, parseElems fuel s = some (xs, r) → ∃ t, s = t ++ r ∧ Reads t (.elems xs)) ∧
  (∀ s fs r, parseFields fuel s = some (fs, r) →
    ∃ t ms, s = t ++ r ∧ fs = ms.map Member.pair ∧ Reads t (.fields ms))

theorem reads_of_parseValue_succ (ih : ReadsOnly fuel) (h : parseValue (fuel + 1) s = some (v, r)) :
    ∃ t, s = t ++ r ∧ Reads t (.value v) := by
  obtain ⟨-, helems, hfields⟩ := ih
  cases s with
  | nil => exact absurd h (by simp [parseValue])
  | cons c s =>
    rw [parseValue] at h
    split at h
    · -- a string
      rename_i hc
      subst hc
      obtain ⟨k, hstr, rfl⟩ := map_eq_some_pair h
      obtain ⟨body, rfl, hbody⟩ := spells_of_parseStr hstr
      exact ⟨'"' :: (body ++ ['"']), by simp, .str hbody⟩
    split at h
    · -- an array
      rename_i hc
      subst hc
      cases hs : skipWs s with
      | nil => simp [hs] at h
      | cons c' s' =>
        obtain ⟨w, hw, hskip⟩ := exists_blank_cons hs
        rw [hs] at h
        dsimp only at h
        split at h
        · rename_i hc'
          subst hc'
          obtain ⟨rfl, rfl⟩ := Prod.mk.inj (Option.some.inj h)
          exact ⟨'[' :: (w ++ [']']), by simp [hskip], .emptyArr hw⟩
        · obtain ⟨xs, hxs, rfl⟩ := map_eq_some_pair h
          obtain ⟨t, ht, hreads⟩ := helems _ _ _ hxs
          exact ⟨'[' :: (w ++ t), by simp [hskip, ht], .arr hw hreads⟩
    split at h
    · -- an object
      rename_i hc
      subst hc
      cases hs : skipWs s with
      | nil => simp [hs] at h
      | cons c' s' =>
        obtain ⟨w, hw, hskip⟩ := exists_blank_cons hs
        rw [hs] at h
        dsimp only at h
        split at h
        · rename_i hc'
          subst hc'
          obtain ⟨rfl, rfl⟩ := Prod.mk.inj (Option.some.inj h)
          exact ⟨'{' :: (w ++ ['}']), by simp [hskip], .emptyObj hw⟩
        · obtain ⟨fs, hfs, rfl⟩ := map_eq_some_pair h
          obtain ⟨t, ms, ht, rfl, hreads⟩ := hfields _ _ _ hfs
          exact ⟨'{' :: (w ++ t), by simp [hskip, ht], .obj hw hreads⟩
    split at h
    · obtain ⟨hs, rfl⟩ := eq_append_of_parseWord h
      exact ⟨_, hs, .null⟩
    split at h
    · obtain ⟨hs, rfl⟩ := eq_append_of_parseWord h
      exact ⟨_, hs, .yes⟩
    split at h
    · obtain ⟨hs, rfl⟩ := eq_append_of_parseWord h
      exact ⟨_, hs, .no⟩
    · exact reads_of_parseNumber h

theorem reads_of_parseElems_succ (ih : ReadsOnly fuel) {xs : List Json}
    (h : parseElems (fuel + 1) s = some (xs, r)) :
    ∃ t, s = t ++ r ∧ Reads t (.elems xs) := by
  obtain ⟨hvalue, helems, -⟩ := ih
  rw [parseElems] at h
  cases hv : parseValue fuel s with
  | none => simp [hv] at h
  | some p =>
    obtain ⟨v, r₁⟩ := p
    obtain ⟨t, rfl, ht⟩ := hvalue _ _ _ hv
    rw [hv] at h
    dsimp only at h
    cases hr : skipWs r₁ with
    | nil => simp [hr] at h
    | cons c r₂ =>
      -- a comma and more elements, or the closing bracket
      obtain ⟨w, hw, hskip⟩ := exists_blank_cons hr
      rw [hr] at h
      dsimp only at h
      split at h
      · rename_i hc
        subst hc
        obtain ⟨vs, hvs, rfl⟩ := map_eq_some_pair h
        obtain ⟨w', hw', hskip'⟩ := exists_blank_append r₂
        obtain ⟨ts, hts, hreads⟩ := helems _ _ _ hvs
        refine ⟨t ++ (w ++ ',' :: (w' ++ ts)), ?_, .consElem ht hw hw' hreads⟩
        grind
      · split at h
        · rename_i hc
          subst hc
          obtain ⟨rfl, rfl⟩ := Prod.mk.inj (Option.some.inj h)
          exact ⟨t ++ (w ++ [']']), by simp [hskip], .lastElem ht hw⟩
        · exact absurd h (by simp)

theorem reads_of_parseFields_succ (ih : ReadsOnly fuel) {fs : List (String × Json)}
    (h : parseFields (fuel + 1) s = some (fs, r)) :
    ∃ t ms, s = t ++ r ∧ fs = ms.map Member.pair ∧ Reads t (.fields ms) := by
  obtain ⟨hvalue, -, hfields⟩ := ih
  rw [parseFields] at h
  cases hk : parseKey s with
  | none => simp [hk] at h
  | some p =>
    obtain ⟨k, r₀⟩ := p
    -- the name with its colon
    obtain ⟨key, w₀, rfl, hkey, hw₀⟩ := exists_key_of_parseKey hk
    obtain ⟨w₁, hw₁, hskip₁⟩ := exists_blank_append r₀
    rw [hk] at h
    dsimp only at h
    cases hv : parseValue fuel (skipWs r₀) with
    | none => simp [hv] at h
    | some p =>
      -- the value
      obtain ⟨v, r₁⟩ := p
      obtain ⟨t, htext, ht⟩ := hvalue _ _ _ hv
      have hmember : Reads ('"' :: (key ++ '"' :: (w₀ ++ ':' :: (w₁ ++ t)))) (.member ⟨k, t, v⟩) :=
        Reads.member (m := ⟨k, t, v⟩) hkey hw₀ hw₁ ht
      rw [hv] at h
      dsimp only at h
      cases hr : skipWs r₁ with
      | nil => simp [hr] at h
      | cons c r₂ =>
        -- a comma and more members, or the closing brace
        obtain ⟨w, hw, hskip⟩ := exists_blank_cons hr
        rw [hr] at h
        dsimp only at h
        split at h
        · rename_i hc
          subst hc
          obtain ⟨fs', hfs', rfl⟩ := map_eq_some_pair h
          obtain ⟨w', hw', hskip'⟩ := exists_blank_append r₂
          obtain ⟨ts, ms, hts, rfl, hreads⟩ := hfields _ _ _ hfs'
          refine ⟨_, ⟨k, t, v⟩ :: ms, ?_, rfl, .consField hmember hw hw' hreads⟩
          grind
        · split at h
          · rename_i hc
            subst hc
            obtain ⟨rfl, rfl⟩ := Prod.mk.inj (Option.some.inj h)
            refine ⟨_, [⟨k, t, v⟩], ?_, rfl, .lastField hmember hw⟩
            grind
          · exact absurd h (by simp)

/-- **What the reader accepts is a text of the grammar.** -/
theorem reads_of_parse (fuel : Nat) : ReadsOnly fuel := by
  induction fuel with
  | zero =>
    refine ⟨fun s v r h => ?_, fun s xs r h => ?_, fun s fs r h => ?_⟩
    · exact absurd h (by simp [parseValue])
    · exact absurd h (by simp [parseElems])
    · exact absurd h (by simp [parseFields])
  | succ fuel ih =>
    exact ⟨fun _ _ _ => reads_of_parseValue_succ ih, fun _ _ _ => reads_of_parseElems_succ ih,
      fun _ _ _ => reads_of_parseFields_succ ih⟩

theorem reads_of_parseText (h : parseText s = some v) :
    ∃ w t w', s = w ++ (t ++ w') ∧ Blank w ∧ Blank w' ∧ Reads t (.value v) := by
  rw [parseText] at h
  obtain ⟨w, hw, hskip⟩ := exists_blank_append s
  cases hv : parseValue (2 * s.length + 2) (skipWs s) with
  | none => simp [hv] at h
  | some p =>
    obtain ⟨v', r⟩ := p
    obtain ⟨t, ht, hreads⟩ := (reads_of_parse _).1 _ _ _ hv
    rw [hv] at h
    dsimp only at h
    split at h
    · rename_i hr
      obtain rfl := Option.some.inj h
      refine ⟨w, t, r, ?_, hw, ?_, hreads⟩
      · rw [← ht, ← hskip]
      · rw [skipWs, List.dropWhile_eq_nil_iff] at hr
        exact hr
    · exact absurd h (by simp)

end Zynax.Golang.Json
