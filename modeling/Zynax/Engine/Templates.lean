import Zynax.Golang.TextTemplate
import Zynax.Engine.Payload

namespace Zynax.Engine

open Golang Compiler TextTemplate

/-!
# Templates in the strings of an input

An input string may hold actions of the template language.  The compiler writes the whole input as
JSON, which escapes the characters of the actions, too; the engine parses what it finds and fills in
values that it has escaped in the same way.
-/

/-! ### The template engine -/

/-- The function `default`. -/
def defaultFuncs : Funcs := fun name =>
  if name = "default" then some fun fallback val => if val = "" then fallback else val else none

def templateData (esc : GoMap String) : Data := AList.singleton "ctx" esc

/-- The template of `resolveTemplate`. -/
def goTemplate (u : LetterTables) (other : String → Data → Except String String) :
    String → GoMap String → Except String String :=
  fun tmpl esc => TextTemplate.render u defaultFuncs other tmpl (templateData esc)

/-- Refuses what is outside the part of the language that is modelled. -/
def refuseOther (_ : String) (_ : Data) : Except String String := .error "unknown action"

theorem textVerbatim_goTemplate (u : LetterTables) (other : String → Data → Except String String) :
    TextVerbatim (goTemplate u other) :=
  fun _ _ hplain => render_of_noDelim (Json.noDelim_iff.mpr hplain) other

def valueOf (ctx : GoMap String) (key : String) : String := (ctx.lookup key).getD ""

theorem eval_ctx (ctx : GoMap String) (key : String) :
    (Expr.member "ctx" key).eval defaultFuncs (templateData (escapeContext ctx)) =
      some (String.ofList (Json.escapeBody (valueOf ctx key))) := by
  have hroot : (templateData (escapeContext ctx)).lookup "ctx" = some (escapeContext ctx) := rfl
  rw [Expr.eval, hroot, Option.map_some, escapeContext, GoMap.lookup_mapVal, valueOf]
  cases ctx.lookup key <;> rfl

/-! ### Strings with the documented forms -/

variable {u : LetterTables}

instance : DecidablePred Json.NoDelim := fun cs =>
  inferInstanceAs (Decidable (cs.IsChain fun a b => ¬ (a = '{' ∧ b = '{')))

abbrev PlainText : Type := { s : String // Json.NoDelim s.toList }

abbrev LeadText : Type := { s : String // Json.NoDelim (s.toList ++ ['{']) }

abbrev Name (u : LetterTables) : Type := { s : String // u.isIdentifier s.toList = true }

def defaultAction (key fallback : String) : List Char :=
  '{' :: '{' :: ' ' :: (['i', 'n', 'd', 'e', 'x'] ++ ' ' :: (pathText ["ctx"] ++ ' ' :: '"' ::
    (key.toList ++ '"' :: ' ' :: '|' :: ' ' :: (['d', 'e', 'f', 'a', 'u', 'l', 't'] ++ ' ' :: '"' ::
      (fallback.toList ++ ['"', ' ', '}', '}'])))))

inductive Forms (u : LetterTables) : Type where
  | nil
  /-- `{{ .ctx.key }}` -/
  | ctx (before : LeadText) (key : Name u) (rest : Forms u)
  /-- `{{ .trigger.field }}` -/
  | trigger (before : LeadText) (field : Name u) (rest : Forms u)
  /-- `{{ if .ctx.key }}...{{ end }}` -/
  | ifCtx (before : LeadText) (key : Name u) (body : Forms u) (tail : LeadText) (rest : Forms u)
  /-- `{{ index .ctx "key" | default "fallback" }}` -/
  | orDefault (before : LeadText) (key fallback : String) (rest : Forms u)

namespace Forms

def source : Forms u → List Char
  | .nil => []
  | .ctx before key rest => before.1.toList ++ memberAction "ctx" key.1 ++ rest.source
  | .trigger before field rest => before.1.toList ++ memberAction "trigger" field.1 ++ rest.source
  | .ifCtx before key body tail rest =>
    before.1.toList ++ (ifAction "ctx" key.1 ++
      ((body.source ++ tail.1.toList) ++ wordAction ['e', 'n', 'd'])) ++ rest.source
  | .orDefault before key fallback rest =>
    before.1.toList ++ defaultAction key fallback ++ rest.source

def value (ctx : GoMap String) (trigger : String → String) : Forms u → List Char
  | .nil => []
  | .ctx before key rest =>
    before.1.toList ++ (valueOf ctx key.1).toList ++ rest.value ctx trigger
  | .trigger before field rest =>
    before.1.toList ++ (trigger field.1).toList ++ rest.value ctx trigger
  | .ifCtx before key body tail rest =>
    before.1.toList ++
      (if valueOf ctx key.1 = "" then [] else body.value ctx trigger ++ tail.1.toList) ++
      rest.value ctx trigger
  | .orDefault before key fallback rest =>
    before.1.toList ++ (if valueOf ctx key = "" then fallback else valueOf ctx key).toList ++
      rest.value ctx trigger

def hasDefault : Forms u → Bool
  | .nil => false
  | .ctx _ _ rest | .trigger _ _ rest => rest.hasDefault
  | .ifCtx _ _ body _ rest => body.hasDefault || rest.hasDefault
  | .orDefault .. => true

def readsTrigger (ctx : GoMap String) : Forms u → Bool
  | .nil => false
  | .ctx _ _ rest | .orDefault _ _ _ rest => rest.readsTrigger ctx
  | .trigger .. => true
  | .ifCtx _ key body _ rest =>
    (valueOf ctx key.1 ≠ "" && body.readsTrigger ctx) || rest.readsTrigger ctx

def onlyCtx : Forms u → Bool
  | .nil => true
  | .ctx _ _ rest => rest.onlyCtx
  | .trigger .. | .ifCtx .. | .orDefault .. => false

theorem not_hasDefault_of_onlyCtx (f : Forms u) (h : f.onlyCtx = true) : f.hasDefault = false := by
  induction f with
  | nil => rfl
  | ctx before key rest ih => exact ih h
  | _ => cases h

theorem not_readsTrigger_of_onlyCtx (ctx : GoMap String) (f : Forms u) (h : f.onlyCtx = true) :
    f.readsTrigger ctx = false := by
  induction f with
  | nil => rfl
  | ctx before key rest ih => exact ih h
  | _ => cases h

end Forms

structure Phrase (u : LetterTables) where
  forms : Forms u
  tail : PlainText

def Phrase.source (p : Phrase u) : String := String.ofList (p.forms.source ++ p.tail.1.toList)

def Phrase.value (ctx : GoMap String) (trigger : String → String) (p : Phrase u) : String :=
  String.ofList (p.forms.value ctx trigger ++ p.tail.1.toList)

/-! ### Escaped text -/

def escape (cs : List Char) : List Char := cs.flatMap Json.escapeChar

theorem escape_append (cs ds : List Char) : escape (cs ++ ds) = escape cs ++ escape ds :=
  List.flatMap_append

theorem escape_eq_self {cs : List Char} (h : ∀ c ∈ cs, Json.escapeChar c = [c]) : escape cs = cs := by
  rw [escape, List.flatMap_congr h, List.flatMap_singleton']

theorem escape_eq_nil_iff {cs : List Char} : escape cs = [] ↔ cs = [] := by
  cases cs with
  | nil => exact iff_of_true rfl rfl
  | cons c cs => simp [escape, Json.escapeChar_ne_nil]

theorem le_toNat_of_isAlphaNumeric {c : Char} (h : u.isAlphaNumeric c = true) : 48 ≤ c.toNat := by
  by_contra hlt
  rw [LetterTables.isAlphaNumeric_ascii (by omega), Bool.or_eq_true_iff, Bool.or_eq_true_iff,
    decide_eq_true_eq] at h
  rcases h with (rfl | h) | h
  · exact hlt (by decide)
  · simp only [isAsciiLetter, Bool.or_eq_true, Bool.and_eq_true, decide_eq_true_eq] at h
    omega
  · simp only [isAsciiDigit, Bool.and_eq_true, decide_eq_true_eq] at h
    omega

theorem escapeChar_of_isAlphaNumeric {c : Char} (h : u.isAlphaNumeric c = true) :
    Json.escapeChar c = [c] := by
  have hlow := le_toNat_of_isAlphaNumeric h
  have hcontrol : ∀ d : Char, d.toNat < 48 → c ≠ d := by
    grind
  have hspace : ¬ c < ' ' := fun hlt => by
    have hnat : c.toNat < 32 := UInt32.lt_iff_toNat_lt.mp hlt
    omega
  have hseparator : c ≠ '\u2028' ∧ c ≠ '\u2029' := by
    constructor
    all_goals
      rintro rfl
      rw [LetterTables.isAlphaNumeric, (u.separators _ (by simp)).1, (u.separators _ (by simp)).2] at h
      exact absurd h (by decide)
  have hhtml : c ≠ '<' ∧ c ≠ '>' := ⟨LetterTables.ne_of_isAlphaNumeric h '<' (by decide),
    LetterTables.ne_of_isAlphaNumeric h '>' (by decide)⟩
  have hunicode : Json.needsUnicodeEscape c = false := by
    simp [Json.needsUnicodeEscape, hspace, hseparator, hhtml, hcontrol '&' (by decide)]
  rw [Json.escapeChar, if_neg (hcontrol _ (by decide)),
    if_neg (LetterTables.ne_of_isAlphaNumeric h '\\' (by decide)), if_neg (hcontrol _ (by decide)),
    if_neg (hcontrol _ (by decide)), if_neg (hcontrol _ (by decide)), if_neg (hcontrol _ (by decide)),
    if_neg (hcontrol _ (by decide)), if_neg (by rw [hunicode]; decide)]

theorem escape_name (name : Name u) : escape name.1.toList = name.1.toList := by
  refine escape_eq_self fun c hc => escapeChar_of_isAlphaNumeric (u := u) ?_
  have hname := name.2
  cases hchars : name.1.toList with
  | nil => rw [hchars] at hc; cases hc
  | cons d r =>
    rw [hchars] at hc hname
    obtain ⟨hd, -, hr⟩ := LetterTables.isIdentifier_cons hname
    grind

section

variable (root : String) (hroot : escape root.toList = root.toList) (key : Name u)
include hroot

theorem escape_pathText : escape (pathText [root, key.1]) = pathText [root, key.1] := by
  show escape ('.' :: root.toList ++ ('.' :: key.1.toList ++ [])) = _
  rw [escape_append, escape_append]
  show '.' :: escape root.toList ++ ('.' :: escape key.1.toList ++ []) = _
  rw [hroot, escape_name]
  rfl

theorem escape_memberAction : escape (memberAction root key.1) = memberAction root key.1 := by
  show '{' :: '{' :: ' ' :: escape (pathText [root, key.1] ++ ' ' :: ['}', '}']) = _
  rw [escape_append, escape_pathText root hroot key]
  rfl

theorem escape_ifAction : escape (ifAction root key.1) = ifAction root key.1 := by
  show '{' :: '{' :: ' ' :: 'i' :: 'f' :: ' ' ::
    escape (pathText [root, key.1] ++ ' ' :: ['}', '}']) = _
  rw [escape_append, escape_pathText root hroot key]
  rfl

end

theorem escape_defaultAction (key fallback : String) :
    ∃ more, escape (defaultAction key fallback) =
      '{' :: '{' :: ' ' ::
        (['i', 'n', 'd', 'e', 'x'] ++ ' ' :: (pathText ["ctx"] ++ ' ' :: '\\' :: more)) := by
  have hpath : escape (pathText ["ctx"]) = pathText ["ctx"] := by decide +kernel
  rw [defaultAction]
  generalize (key.toList ++ '"' :: ' ' :: '|' :: ' ' :: (['d', 'e', 'f', 'a', 'u', 'l', 't'] ++
    ' ' :: '"' :: (fallback.toList ++ ['"', ' ', '}', '}']))) = more
  refine ⟨'"' :: escape more, ?_⟩
  rfl

section

variable (before : LeadText) (rest : Forms u)

theorem escape_ctx (key : Name u) :
    escape (Forms.ctx before key rest).source =
      escape before.1.toList ++ memberAction "ctx" key.1 ++ escape rest.source := by
  rw [Forms.source, escape_append, escape_append, escape_memberAction "ctx" (by decide +kernel)]

theorem escape_trigger (field : Name u) :
    escape (Forms.trigger before field rest).source =
      escape before.1.toList ++ memberAction "trigger" field.1 ++ escape rest.source := by
  rw [Forms.source, escape_append, escape_append, escape_memberAction "trigger" (by decide +kernel)]

theorem escape_ifCtx (key : Name u) (body : Forms u) (tail : LeadText) :
    escape (Forms.ifCtx before key body tail rest).source =
      escape before.1.toList ++ (ifAction "ctx" key.1 ++
        ((escape body.source ++ escape tail.1.toList) ++ wordAction ['e', 'n', 'd'])) ++
        escape rest.source := by
  have hend : escape (wordAction ['e', 'n', 'd']) = wordAction ['e', 'n', 'd'] := rfl
  rw [Forms.source, escape_append, escape_append, escape_append, escape_append, escape_append,
    escape_ifAction "ctx" (by decide +kernel), hend]

end

/-! ### What the engine makes of a string -/

theorem noDelim_lead (before : LeadText) : Json.NoDelim (escape before.1.toList ++ ['{']) := by
  have hescaped : Json.NoDelim (escape (before.1.toList ++ ['{']) ++ '"' :: []) :=
    Json.noDelim_escape.mpr ⟨before.2, .nil⟩
  rw [escape_append, show escape ['{'] = ['{'] from rfl] at hescaped
  exact hescaped.left_of_append

theorem outputs_lead {funcs : Funcs} {data : Data} (before : LeadText) :
    Outputs u funcs data (escape before.1.toList) (some (escape before.1.toList)) :=
  outputs_literal (noDelim_lead before)

theorem outputs_tail {funcs : Funcs} {data : Data} (tail : PlainText) :
    Outputs u funcs data (escape tail.1.toList ++ ['"']) (some (escape tail.1.toList ++ ['"'])) := by
  refine outputs_literal ?_
  rw [List.append_assoc]
  exact Json.noDelim_escape.mpr ⟨tail.2, .singleton _⟩

theorem isIdentifier_ctx : u.isIdentifier "ctx".toList = true :=
  LetterTables.isIdentifier_of_ascii (by decide)

theorem isIdentifier_trigger : u.isIdentifier "trigger".toList = true :=
  LetterTables.isIdentifier_of_ascii (by decide)

def Forms.rendered (ctx : GoMap String) : Forms u → Option (List Char)
  | .nil => some []
  | .ctx before key rest =>
    andThen (andThen (some (escape before.1.toList)) (some (escape (valueOf ctx key.1).toList)))
      (rest.rendered ctx)
  -- there is no trigger data
  | .trigger .. | .orDefault .. => none
  | .ifCtx before key body tail rest =>
    andThen (andThen (some (escape before.1.toList))
      (if valueOf ctx key.1 = "" then some []
      else andThen (body.rendered ctx) (some (escape tail.1.toList)))) (rest.rendered ctx)

section

variable (ctx : GoMap String)

theorem outputs_ctx (key : Name u) :
    Outputs u defaultFuncs (templateData (escapeContext ctx)) (memberAction "ctx" key.1)
      (some (escape (valueOf ctx key.1).toList)) := by
  have hout : Outputs u defaultFuncs (templateData (escapeContext ctx)) (memberAction "ctx" key.1)
    (((Expr.member "ctx" key.1).eval defaultFuncs (templateData (escapeContext ctx))).map
      String.toList) := outputs_memberAction isIdentifier_ctx key.2
  rw [eval_ctx, Option.map_some, String.toList_ofList] at hout
  exact hout

theorem outputs_trigger (field : Name u) :
    Outputs u defaultFuncs (templateData (escapeContext ctx)) (memberAction "trigger" field.1) none :=
  outputs_memberAction isIdentifier_trigger field.2

theorem whenTrue_ctx (key : String) (out : Option (List Char)) :
    whenTrue ((Expr.member "ctx" key).eval defaultFuncs (templateData (escapeContext ctx))) out =
      if valueOf ctx key = "" then some [] else out := by
  have hempty : String.ofList (Json.escapeBody (valueOf ctx key)) = "" ↔ valueOf ctx key = "" := by
    rw [← String.toList_inj, String.toList_ofList, ← String.toList_inj]
    exact escape_eq_nil_iff
  rw [eval_ctx, whenTrue, Option.bind_some]
  simp only [hempty]

/-- **Forms without a default** are rendered one by one. -/
theorem outputs_forms (f : Forms u) (h : f.hasDefault = false) :
    Outputs u defaultFuncs (templateData (escapeContext ctx)) (escape f.source) (f.rendered ctx) := by
  induction f with
  | nil => exact outputs_nil
  | ctx before key rest ih =>
    rw [escape_ctx]
    exact ((outputs_lead before).append (outputs_ctx ctx key)).append (ih h)
  | trigger before field rest ih =>
    have hout := ((outputs_lead before).append (outputs_trigger ctx field)).append (ih h)
    rw [andThen_none, none_andThen] at hout
    rw [escape_trigger]
    exact hout
  | ifCtx before key body tail rest ihBody ih =>
    rw [Forms.hasDefault, Bool.or_eq_false_iff] at h
    have hif := outputs_if isIdentifier_ctx key.2 ((ihBody h.1).append (outputs_lead tail))
    rw [whenTrue_ctx] at hif
    rw [escape_ifCtx]
    exact ((outputs_lead before).append hif).append (ih h.2)
  | orDefault before key fallback rest ih => cases h

theorem Forms.rendered_eq (trigger : String → String) (f : Forms u) (h : f.hasDefault = false) :
    f.rendered ctx = if f.readsTrigger ctx then none else some (escape (f.value ctx trigger)) := by
  induction f with
  | nil => rfl
  | ctx before key rest ih =>
    rw [rendered, readsTrigger, ih h, value, escape_append, escape_append]
    split
    · rfl
    · rfl
  | trigger before field rest ih => rfl
  | ifCtx before key body tail rest ihBody ih =>
    rw [hasDefault, Bool.or_eq_false_iff] at h
    rw [rendered, readsTrigger, ihBody h.1, ih h.2, value, escape_append, escape_append]
    by_cases hempty : valueOf ctx key.1 = ""
    · -- the body is not looked at
      simp only [hempty, ne_eq, not_true, decide_false, Bool.false_and, Bool.false_or, if_true]
      split
      · rfl
      · rfl
    · simp only [hempty, ne_eq, not_false_iff, decide_true, Bool.true_and, if_false]
      cases body.readsTrigger ctx with
      | true => rfl
      | false =>
        rw [Bool.false_or, if_neg Bool.false_ne_true, escape_append]
        split
        · rfl
        · rfl
  | orDefault before key fallback rest ih => cases h

/-- **A default is not understood**: the quotes of its strings were escaped with the rest of the
    input. -/
theorem rejected_forms (f : Forms u) (h : f.hasDefault = true) : Rejected u (escape f.source) := by
  induction f with
  | nil => cases h
  | ctx before key rest ih =>
    obtain ⟨items, hreads⟩ := ((outputs_lead before).append (outputs_ctx (u := u) ∅ key)).reads
    rw [escape_ctx]
    exact hreads.rejected (ih h)
  | trigger before field rest ih =>
    obtain ⟨items, hreads⟩ := ((outputs_lead before).append (outputs_trigger (u := u) ∅ field)).reads
    rw [escape_trigger]
    exact hreads.rejected (ih h)
  | ifCtx before key body tail rest ihBody ih =>
    rw [escape_ifCtx]
    cases hbody : body.hasDefault with
    | true =>
      have hif := rejected_if isIdentifier_ctx key.2
        ((ihBody hbody).append (escape tail.1.toList)) (wordAction ['e', 'n', 'd'])
      exact ((reads_literal (noDelim_lead before)).rejected hif).append (escape rest.source)
    | false =>
      have hif := outputs_if isIdentifier_ctx key.2
        ((outputs_forms ∅ body hbody).append (outputs_lead tail))
      obtain ⟨items, hreads⟩ := ((outputs_lead before).append hif).reads
      rw [Forms.hasDefault, hbody, Bool.false_or] at h
      exact hreads.rejected (ih h)
  | orDefault before key fallback rest ih =>
    obtain ⟨more, hmore⟩ := escape_defaultAction key fallback
    have hindex : u.isIdentifier ['i', 'n', 'd', 'e', 'x'] = true :=
      LetterTables.isIdentifier_of_ascii (by decide)
    rw [Forms.source, escape_append, escape_append, hmore]
    exact ((reads_literal (noDelim_lead before)).rejected
      (rejected_backslash hindex isIdentifier_ctx more)).append (escape rest.source)

theorem outputs_phrase (trigger : String → String) (p : Phrase u) (h : p.forms.hasDefault = false) :
    Outputs u defaultFuncs (templateData (escapeContext ctx)) (escape p.source.toList ++ ['"'])
      (if p.forms.readsTrigger ctx then none
      else some (escape (p.value ctx trigger).toList ++ ['"'])) := by
  have hout := (outputs_forms ctx p.forms h).append (outputs_tail p.tail)
  rw [Phrase.source, Phrase.value, String.toList_ofList, String.toList_ofList, escape_append,
    escape_append, List.append_assoc, List.append_assoc]
  rw [Forms.rendered_eq ctx trigger p.forms h] at hout
  split at hout
  · next htrigger =>
    rw [if_pos htrigger]
    exact hout
  · next htrigger =>
    rw [if_neg htrigger]
    exact hout

theorem rejected_phrase (p : Phrase u) (h : p.forms.hasDefault = true) :
    Rejected u (escape p.source.toList ++ ['"']) := by
  rw [Phrase.source, String.toList_ofList, escape_append, List.append_assoc]
  exact (rejected_forms p.forms h).append _

end

end Zynax.Engine
