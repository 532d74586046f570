import Zynax.Engine.Templates

namespace Zynax.Engine

open Golang Compiler TextTemplate

/-!
# Rendering an input

The input of an action is a tree whose leaves may be strings with template forms.  Written as JSON it
is fixed text with those strings in between, and rendering it should give the JSON of the same tree
with every form replaced.
-/

variable {u : LetterTables}

inductive Input (u : LetterTables) where
  | null
  | bool (b : Bool)
  | int (n : Int)
  | str (p : Phrase u)
  | list (elems : List (Input u))
  | map (fields : List (PlainText × Input u))

namespace Input

mutual

def toValue (read : Phrase u → String) : Input u → Value
  | .null => .null
  | .bool b => .bool b
  | .int n => .int n
  | .str p => .str (read p)
  | .list xs => .list (toValueElems read xs)
  | .map fs => .map (toValueFields read fs)

def toValueElems (read : Phrase u → String) : List (Input u) → List Value
  | [] => []
  | x :: xs => toValue read x :: toValueElems read xs

def toValueFields (read : Phrase u → String) : List (PlainText × Input u) → List (String × Value)
  | [] => []
  | (k, v) :: fs => (k.1, toValue read v) :: toValueFields read fs

end

theorem toValueElems_eq_map (read : Phrase u → String) (xs : List (Input u)) :
    toValueElems read xs = xs.map (toValue read) := by
  induction xs with
  | nil => rfl
  | cons x xs ih => rw [toValueElems, ih, List.map_cons]

theorem toValueFields_eq_map (read : Phrase u → String) (fs : List (PlainText × Input u)) :
    toValueFields read fs = fs.map fun f => (f.1.1, f.2.toValue read) := by
  induction fs with
  | nil => rfl
  | cons f fs ih => rw [toValueFields, ih, List.map_cons]

theorem nestedInduction {motive : Input u → Prop} (null : motive .null)
    (bool : ∀ b, motive (.bool b)) (int : ∀ n, motive (.int n)) (str : ∀ p, motive (.str p))
    (list : ∀ xs, (∀ x ∈ xs, motive x) → motive (.list xs))
    (map : ∀ fs, (∀ f ∈ fs, motive f.2) → motive (.map fs)) (i : Input u) : motive i := by
  refine @Input.rec u motive (fun xs => ∀ x ∈ xs, motive x) (fun fs => ∀ f ∈ fs, motive f.2)
    (fun f => motive f.2) null bool int str list map ?_ ?_ ?_ ?_ ?_ i
  · simp
  · grind
  · simp
  · grind
  · simp

end Input

/-! ### What is written -/

inductive Chunk (u : LetterTables) where
  | text (cs : List Char) (h : Json.NoDelim (cs ++ ['{']))
  | phrase (p : Phrase u)

def Chunk.written (read : Phrase u → String) : Chunk u → List Char
  | .text cs _ => cs
  | .phrase p => escape (read p).toList ++ ['"']

def written (read : Phrase u → String) (chunks : List (Chunk u)) : List Char :=
  chunks.flatMap (Chunk.written read)

def phrasesOf (chunks : List (Chunk u)) : List (Phrase u) :=
  chunks.filterMap fun
    | .text .. => none
    | .phrase p => some p

@[simp] theorem phrasesOf_text (t : List Char) (h : Json.NoDelim (t ++ ['{'])) (cs : List (Chunk u)) :
    phrasesOf (.text t h :: cs) = phrasesOf cs := rfl

@[simp] theorem phrasesOf_phrase (p : Phrase u) (cs : List (Chunk u)) :
    phrasesOf (.phrase p :: cs) = p :: phrasesOf cs := rfl

theorem noDelim_int (n : Int) : Json.NoDelim (decimalInt n ++ ['{']) :=
  (Json.noDelim_append (Json.isNumber_ne_brace (isNumber_decimalInt n))).mpr (.singleton _)

theorem noDelim_memberStart (c : Char) (k : PlainText) :
    Json.NoDelim ((c :: (Json.quote k.1 ++ [':'])) ++ ['{']) := by
  have hquote : Json.NoDelim (Json.quote k.1 ++ [':', '{']) :=
    Json.noDelim_quote.mpr ⟨k.2, by decide⟩
  rw [List.cons_append, List.append_assoc]
  exact List.isChain_cons_cons.mpr ⟨by simp, hquote⟩

def memberStart (c : Char) (k : PlainText) : Chunk u :=
  .text (c :: (Json.quote k.1 ++ [':'])) (noDelim_memberStart c k)

def elemsChunks : List (List (Chunk u)) → List (Chunk u)
  | [] => [.text [']'] (by decide)]
  | x :: xs => .text [','] (by decide) :: (x ++ elemsChunks xs)

def listChunks : List (List (Chunk u)) → List (Chunk u)
  | [] => [.text ['[', ']'] (by decide)]
  | x :: xs => .text ['['] (by decide) :: (x ++ elemsChunks xs)

def fieldsChunks : List (PlainText × List (Chunk u)) → List (Chunk u)
  | [] => [.text ['}'] (by decide)]
  | (k, v) :: fs => memberStart ',' k :: (v ++ fieldsChunks fs)

def mapChunks : List (PlainText × List (Chunk u)) → List (Chunk u)
  | [] => [.text ['{', '}'] (by decide)]
  | (k, v) :: fs => memberStart '{' k :: (v ++ fieldsChunks fs)

namespace Input

mutual

def chunks : Input u → List (Chunk u)
  | .null => [.text ['n', 'u', 'l', 'l'] (by decide)]
  | .bool true => [.text ['t', 'r', 'u', 'e'] (by decide)]
  | .bool false => [.text ['f', 'a', 'l', 's', 'e'] (by decide)]
  | .int n => [.text (decimalInt n) (noDelim_int n)]
  | .str p => [.text ['"'] (by decide), .phrase p]
  | .list xs => listChunks (chunksElems xs)
  | .map fs => mapChunks ((chunksFields fs).insertionSort fun a b => a.1.1 ≤ b.1.1)

def chunksElems : List (Input u) → List (List (Chunk u))
  | [] => []
  | x :: xs => chunks x :: chunksElems xs

def chunksFields : List (PlainText × Input u) → List (PlainText × List (Chunk u))
  | [] => []
  | (k, v) :: fs => (k, chunks v) :: chunksFields fs

end

theorem chunksElems_eq_map (xs : List (Input u)) : chunksElems xs = xs.map chunks := by
  induction xs with
  | nil => rfl
  | cons x xs ih => rw [chunksElems, ih, List.map_cons]

theorem chunksFields_eq_map (fs : List (PlainText × Input u)) :
    chunksFields fs = fs.map fun f => (f.1, f.2.chunks) := by
  induction fs with
  | nil => rfl
  | cons f fs ih => rw [chunksFields, ih, List.map_cons]

def phrases (i : Input u) : List (Phrase u) := phrasesOf i.chunks

end Input

/-! ### The JSON of an input -/

theorem exists_forall₂ {α β : Type} {P : α → β → Prop} {l : List α} (h : ∀ a ∈ l, ∃ b, P a b) :
    ∃ l', List.Forall₂ P l l' := by
  induction l with
  | nil => exact ⟨[], .nil⟩
  | cons a l ih =>
    rw [List.forall_mem_cons] at h
    obtain ⟨b, hb⟩ := h.1
    obtain ⟨l', hl'⟩ := ih h.2
    exact ⟨b :: l', .cons hb hl'⟩

theorem map_eq_map_of_forall₂ {α β γ : Type} {f : α → γ} {g : β → γ} {l : List α} {l' : List β}
    (h : List.Forall₂ (fun a b => f a = g b) l l') : l.map f = l'.map g := by
  induction h with
  | nil => rfl
  | cons hab _ ih => rw [List.map_cons, List.map_cons, hab, ih]

/-! ### What the engine makes of an input -/

section

variable (read : Phrase u → String)

@[simp] theorem written_cons (c : Chunk u) (cs : List (Chunk u)) :
    written read (c :: cs) = c.written read ++ written read cs := List.flatMap_cons

@[simp] theorem written_append (cs ds : List (Chunk u)) :
    written read (cs ++ ds) = written read cs ++ written read ds := List.flatMap_append

def WrittenAs (i : Input u) (j : Json) : Prop :=
  (i.toValue read).toJson = .ok j ∧ j.encode = written read i.chunks

variable {read}

theorem encodeElems_eq {xs : List (Input u)} {js : List Json}
    (h : List.Forall₂ (WrittenAs read) xs js) :
    Json.encodeElems js = written read (elemsChunks (xs.map Input.chunks)) := by
  induction h with
  | nil => rfl
  | cons hj _ ih =>
    rw [Json.encodeElems, hj.2, ih]
    simp [elemsChunks, Chunk.written]

theorem encode_list_eq {xs : List (Input u)} {js : List Json}
    (h : List.Forall₂ (WrittenAs read) xs js) :
    (Json.arr js).encode = written read (Input.list xs).chunks := by
  rw [Input.chunks, Input.chunksElems_eq_map]
  cases h with
  | nil => rfl
  | cons hj hjs =>
    rw [Json.encode, hj.2, encodeElems_eq hjs]
    simp [listChunks, Chunk.written]

def MemberWrittenAs (read : Phrase u → String) (f : PlainText × Input u) (p : String × Json) : Prop :=
  p.1 = f.1.1 ∧ WrittenAs read f.2 p.2

theorem encodeFields_eq {fs : List (PlainText × Input u)} {ps : List (String × Json)}
    (h : List.Forall₂ (MemberWrittenAs read) fs ps) :
    Json.encodeFields ps = written read (fieldsChunks (fs.map fun f => (f.1, f.2.chunks))) := by
  induction h with
  | nil => rfl
  | @cons f p fs ps hp _ ih =>
    obtain ⟨k, j⟩ := p
    obtain ⟨hkey, hj⟩ := hp
    rw [Json.encodeFields, ih, hj.2, show k = f.1.1 from hkey]
    simp [fieldsChunks, memberStart, Chunk.written]

theorem encode_map_eq {fs : List (PlainText × Input u)} {ps : List (String × Json)}
    (h : List.Forall₂ (MemberWrittenAs read) fs ps) :
    (Json.obj ps).encode = written read (mapChunks (fs.map fun f => (f.1, f.2.chunks))) := by
  cases h with
  | nil => rfl
  | @cons f p fs ps hp hps =>
    obtain ⟨k, j⟩ := p
    obtain ⟨hkey, hj⟩ := hp
    rw [Json.encode, encodeFields_eq hps, hj.2, show k = f.1.1 from hkey]
    simp [mapChunks, memberStart, Chunk.written]

/-- **An input is written as its chunks**, whichever way its strings are read. -/
theorem exists_writtenAs (read : Phrase u → String) (i : Input u) : ∃ j, WrittenAs read i j := by
  induction i using Input.nestedInduction with
  | null => exact ⟨.null, rfl, rfl⟩
  | bool b => cases b <;> exact ⟨_, rfl, rfl⟩
  | int n => exact ⟨.num (decimalInt n), rfl, (List.append_nil _).symm⟩
  | str p =>
    refine ⟨.str (read p), rfl, ?_⟩
    simp [Json.encode, Json.quote, Json.escapeBody, Input.chunks, Chunk.written, escape, written]
  | list xs ih =>
    obtain ⟨js, hjs⟩ := exists_forall₂ ih
    refine ⟨.arr js, Value.toJson_list_eq_ok_iff.mpr ⟨js, rfl, ?_⟩, encode_list_eq hjs⟩
    rw [Input.toValueElems_eq_map, List.map_map]
    exact map_eq_map_of_forall₂ (hjs.imp fun _ _ hj => hj.1)
  | map fs ih =>
    -- the members are written in the order of their names
    have hperm := List.perm_insertionSort (fun a b : PlainText × Input u => a.1.1 ≤ b.1.1) fs
    obtain ⟨ps, hps⟩ : ∃ ps, List.Forall₂ (MemberWrittenAs read)
        (fs.insertionSort fun a b => a.1.1 ≤ b.1.1) ps := by
      refine exists_forall₂ fun f hf => ?_
      obtain ⟨j, hj⟩ := ih f (hperm.mem_iff.mp hf)
      exact ⟨(f.1.1, j), rfl, hj⟩
    refine ⟨.obj ps, Value.toJson_map_eq_ok_iff.mpr ⟨ps, rfl, ?_⟩, ?_⟩
    · rw [Input.toValueFields_eq_map, List.map_map,
        ← List.map_insertionSort (r := fun a b => a.1.1 ≤ b.1.1) _ _ _ fun _ _ _ _ => Iff.rfl]
      exact map_eq_map_of_forall₂ (hps.imp fun f p hp => Prod.ext hp.1.symm hp.2.1)
    · rw [Input.chunks, Input.chunksFields_eq_map,
        ← List.map_insertionSort (r := fun a b => a.1.1 ≤ b.1.1) _ _ _ fun _ _ _ _ => Iff.rfl]
      exact encode_map_eq hps

end

section

variable (ctx : GoMap String) (trigger : String → String)
  (other : String → Data → Except String String) {tmpl : String} {cs : List (Chunk u)}
  (htmpl : tmpl.toList = written Phrase.source cs)

theorem outputs_chunks (h : ∀ p ∈ phrasesOf cs, p.forms.hasDefault = false) :
    Outputs u defaultFuncs (templateData (escapeContext ctx)) (written Phrase.source cs)
      (if (phrasesOf cs).any fun p => p.forms.readsTrigger ctx then none
      else some (written (Phrase.value ctx trigger) cs)) := by
  induction cs with
  | nil => exact outputs_nil
  | cons c cs ih =>
    rw [written_cons, written_cons]
    cases c with
    | text t ht =>
      have hout := (outputs_literal ht).append (ih h)
      have hlead : (some t : Option (List Char)) = if false then none else some t := rfl
      rw [hlead, andThen_ite, Bool.false_or] at hout
      rw [phrasesOf_text, Chunk.written, Chunk.written]
      exact hout
    | phrase p =>
      rw [phrasesOf_phrase, List.forall_mem_cons] at h
      have hout := (outputs_phrase ctx trigger p h.1).append (ih h.2)
      rw [andThen_ite] at hout
      rw [phrasesOf_phrase, List.any_cons, Chunk.written, Chunk.written]
      exact hout

theorem rejected_chunks (h : ∃ p ∈ phrasesOf cs, p.forms.hasDefault = true) :
    Rejected u (written Phrase.source cs) := by
  induction cs with
  | nil => exact absurd h (by simp [phrasesOf])
  | cons c cs ih =>
    cases c with
    | text t ht => exact (reads_literal ht).rejected (ih h)
    | phrase p =>
      simp only [phrasesOf_phrase, List.mem_cons, exists_eq_or_imp] at h
      rw [written_cons]
      cases hp : p.forms.hasDefault with
      | true => exact (rejected_phrase p hp).append _
      | false =>
        obtain ⟨items, hreads⟩ := (outputs_phrase ∅ (fun _ => "") p hp).reads
        rw [hp] at h
        exact hreads.rejected (ih (h.resolve_left (by simp)))

structure Renderable (cs : List (Chunk u)) : Prop where
  noDefault : ∀ p ∈ phrasesOf cs, p.forms.hasDefault = false
  noTrigger : ∀ p ∈ phrasesOf cs, p.forms.readsTrigger ctx = false

include htmpl

/-- **A renderable input** is rendered to what its strings stand for ... -/
theorem resolveTemplate_of_renderable (h : Renderable ctx cs) :
    resolveTemplate (goTemplate u other) tmpl ctx =
      .ok (String.ofList (written (Phrase.value ctx trigger) cs)) := by
  have hany : ((phrasesOf cs).any fun p => p.forms.readsTrigger ctx) = false := by
    simpa using h.noTrigger
  have hout := outputs_chunks ctx trigger h.noDefault
  rw [hany, ← htmpl] at hout
  exact hout.render other

theorem renderable_of_resolveTemplate {rendered : String}
    (h : resolveTemplate (goTemplate u other) tmpl ctx = .ok rendered) : Renderable ctx cs := by
  have hdefault : ∀ p ∈ phrasesOf cs, p.forms.hasDefault = false := by
    by_contra hno
    have hrejected : Rejected u tmpl.toList := by
      rw [htmpl]
      exact rejected_chunks (by simpa using hno)
    have herror := hrejected.render defaultFuncs (templateData (escapeContext ctx)) other
    exact absurd (h.symm.trans herror) (by simp)
  refine ⟨hdefault, ?_⟩
  by_contra hno
  have hany : ((phrasesOf cs).any fun p => p.forms.readsTrigger ctx) = true := by
    simpa using hno
  have hout := outputs_chunks ctx (fun _ => "") hdefault
  rw [hany, ← htmpl] at hout
  exact absurd (h.symm.trans (hout.render other)) (by simp [executed])

end

/-! ### The compiled input -/

variable {input : GoMap Value}

theorem isEmpty_iff_membersOf :
    input.isEmpty = true ↔ membersOf input = [] := by
  rw [GoMap.isEmpty, List.isEmpty_iff, membersOf, List.map_eq_nil_iff]

theorem exists_template {fields : List (PlainText × Input u)}
    (hinput : membersOf input = Input.toValueFields Phrase.source fields)
    (hne : input.isEmpty = false) :
    ∃ tmpl, marshalInputTemplate input = .ok tmpl ∧
      tmpl.toList = written Phrase.source (Input.map fields).chunks := by
  obtain ⟨j, hvalue, hencode⟩ := exists_writtenAs Phrase.source (Input.map fields)
  refine ⟨j.marshal, ?_, by rw [Json.marshal, String.toList_ofList, hencode]⟩
  rw [Input.toValue, ← hinput, membersOf] at hvalue
  rw [marshalInputTemplate, hne, if_neg (by decide), hvalue]

theorem parseText_written (read : Phrase u → String) (i : Input u) :
    ∃ doc, (i.toValue read).toJson = .ok doc ∧ Json.parseText (written read i.chunks) = some doc := by
  obtain ⟨doc, hvalue, hencode⟩ := exists_writtenAs read i
  refine ⟨doc, hvalue, ?_⟩
  rw [← hencode, Json.parseText_encode (Value.numbersOk_of_toJson _ _ hvalue)]

/-- **Rendering commutes with encoding.**  An input whose strings are literal text and values of the
    context, and whose names hold no delimiter, is compiled and rendered, in every context, to JSON
    that reads back as the input with the values in their places, verbatim. -/
theorem rendering_commutes (u : LetterTables) (other : String → Data → Except String String)
    {input : GoMap Value} {fields : List (PlainText × Input u)}
    (hinput : membersOf input = Input.toValueFields Phrase.source fields)
    (hne : input.isEmpty = false)
    (hctx : ∀ p ∈ (Input.map fields).phrases, p.forms.onlyCtx = true) (ctx : GoMap String)
    (trigger : String → String) :
    ∃ tmpl rendered doc, marshalInputTemplate input = .ok tmpl ∧
      resolveTemplate (goTemplate u other) tmpl ctx = .ok rendered ∧
      ((Input.map fields).toValue (Phrase.value ctx trigger)).toJson = .ok doc ∧
      Json.parseText rendered.toList = some doc ∧
      (doc.depth ≤ Json.maxNestingDepth → Json.unmarshal rendered = some doc) := by
  obtain ⟨tmpl, hmarshal, htmpl⟩ := exists_template hinput hne
  have hrenderable : Renderable ctx (Input.map fields).chunks :=
    ⟨fun p hp => p.forms.not_hasDefault_of_onlyCtx (hctx p hp),
      fun p hp => p.forms.not_readsTrigger_of_onlyCtx ctx (hctx p hp)⟩
  obtain ⟨doc, hvalue, hparse⟩ := parseText_written (Phrase.value ctx trigger) (Input.map fields)
  refine ⟨tmpl, _, doc, hmarshal, resolveTemplate_of_renderable ctx trigger other htmpl hrenderable,
    hvalue, ?_, fun hdepth => Json.unmarshal_eq_some_iff.mpr ⟨?_, hdepth⟩⟩
  all_goals
    rw [String.toList_ofList]
    exact hparse

theorem noDelim_brace : Json.NoDelim ("".toList ++ ['{']) := by decide +kernel

def noLead : LeadText := ⟨"", noDelim_brace⟩

theorem noDelim_empty : Json.NoDelim "".toList := by decide +kernel

def noTail : PlainText := ⟨"", noDelim_empty⟩

def rankPhrase : Phrase asciiLetters where
  forms := .ctx ⟨"Rank:\n", by decide +kernel⟩ ⟨"review", by decide +kernel⟩ .nil
  tail := noTail

def rankFields : List (PlainText × Input asciiLetters) :=
  [(⟨"prompt", by decide +kernel⟩, .str rankPhrase)]

def rankInput : GoMap Value :=
  AList.singleton "prompt" (.str "Rank:\n\x7b\x7b .ctx.review \x7d\x7d")

theorem membersOf_rankInput : membersOf rankInput = Input.toValueFields Phrase.source rankFields := by
  rfl

def rankContext : GoMap String :=
  AList.singleton "review" "\"good\"\n\x7b\x7b .ctx.secret \x7d\x7d"

theorem rendering_commutes_rank :
    ∃ tmpl rendered doc, marshalInputTemplate rankInput = .ok tmpl ∧
      resolveTemplate (goTemplate asciiLetters refuseOther) tmpl rankContext = .ok rendered ∧
      ((Input.map rankFields).toValue (Phrase.value rankContext fun _ => "")).toJson = .ok doc ∧
      Json.parseText rendered.toList = some doc ∧
      (doc.depth ≤ Json.maxNestingDepth → Json.unmarshal rendered = some doc) :=
  rendering_commutes asciiLetters refuseOther membersOf_rankInput rfl
    (List.forall_mem_singleton.mpr rfl) rankContext fun _ => ""

def braceInput : GoMap Value := AList.singleton "\x7b\x7b" (.int 1)

/-- **Names are part of the template.**  A delimiter in the name of a member makes the template
    invalid, whatever the context. -/
theorem brace_name_rejected :
    ∃ tmpl, marshalInputTemplate braceInput = .ok tmpl ∧
      ∀ u other ctx, resolveTemplate (goTemplate u other) tmpl ctx = .error "invalid template" := by
  have htmpl : marshalInputTemplate braceInput = .ok "\x7b\"\x7b\x7b\":1\x7d" := by decide +kernel
  have htext : "\x7b\"\x7b\x7b\":1\x7d".toList = ['{', '"', '{', '{', '"', ':', '1', '}'] := by
    decide +kernel
  refine ⟨_, htmpl, fun u other ctx => ?_⟩
  rw [resolveTemplate, goTemplate]
  -- the action begins with the quote at the end of the name, and never ends
  apply render_of_scan
  rw [htext]
  rfl

/-! ### The documented forms -/

theorem membersOf_literals (input : GoMap Value) :
    membersOf (splitInputBindings input).1 = (membersOf input).filter fun p => !isReference p.2 := by
  simp only [membersOf, splitInputBindings, GoMap.filterMapVal, GoMap.filterMapEntries]
  induction input.entries with
  | nil => rfl
  | cons e es ih =>
    grind

def literalFields (fields : List (PlainText × Input u)) : List (PlainText × Input u) :=
  fields.filter fun f => !isReference (f.2.toValue Phrase.source)

theorem membersOf_literalFields {fields : List (PlainText × Input u)}
    (hinput : membersOf input = Input.toValueFields Phrase.source fields) :
    membersOf (splitInputBindings input).1 =
      Input.toValueFields Phrase.source (literalFields fields) := by
  rw [membersOf_literals, hinput, Input.toValueFields_eq_map, Input.toValueFields_eq_map,
    List.filter_map]
  rfl

def Survives (u : LetterTables) (other : String → Data → Except String String) (ya : YamlAction)
    (ctx : GoMap String) (filled : Value) : Prop :=
  ∃ a rendered doc, convertActionIR ya.toAction = .ok a ∧
    resolveTemplate (goTemplate u other) a.inputTemplateJson ctx = .ok rendered ∧
    filled.toJson = .ok doc ∧ Json.unmarshal rendered = some doc

structure Supported (fields : List (PlainText × Input u)) (ctx : GoMap String) (filled : Value) :
    Prop where
  literal : ∀ f ∈ fields, isReference (f.2.toValue Phrase.source) = false
  renderable : Renderable ctx (Input.map fields).chunks
  depth : filled.depth ≤ Json.maxNestingDepth

section

variable {other : String → Data → Except String String} {ya : YamlAction}
  {fields : List (PlainText × Input u)}
  (hinput : membersOf ya.input = Input.toValueFields Phrase.source fields) {ctx : GoMap String}
include hinput

theorem renderable_of_survives {filled : Value} (h : Survives u other ya ctx filled)
    (trigger : String → String) :
    Renderable ctx (Input.map (literalFields fields)).chunks ∧ ∃ doc, filled.toJson = .ok doc ∧
      ((Input.map (literalFields fields)).toValue (Phrase.value ctx trigger)).toJson = .ok doc ∧
      doc.depth ≤ Json.maxNestingDepth := by
  obtain ⟨a, rendered, doc, hconvert, hresolve, hfilled, hread⟩ := h
  obtain ⟨-, -, -, -, hmarshal⟩ := convertActionIR_eq_ok hconvert
  have hliterals := membersOf_literalFields hinput
  cases hempty : ya.toAction.input.isEmpty with
  | true =>
    -- an empty template is rendered to an empty text
    rw [marshalInputTemplate, hempty, if_pos rfl] at hmarshal
    rw [← Except.ok.inj hmarshal] at hresolve
    obtain rfl : "" = rendered := Except.ok.inj hresolve
    cases hread
  | false =>
    obtain ⟨tmpl, htmpl, hwritten⟩ := exists_template hliterals hempty
    obtain rfl : a.inputTemplateJson = tmpl := Except.ok.inj (hmarshal.symm.trans htmpl)
    have hrenderable := renderable_of_resolveTemplate ctx other hwritten hresolve
    refine ⟨hrenderable, doc, hfilled, ?_, (Json.unmarshal_eq_some_iff.mp hread).2⟩
    have hok := resolveTemplate_of_renderable ctx trigger other hwritten hrenderable
    obtain rfl := Except.ok.inj (hresolve.symm.trans hok)
    obtain ⟨doc', hvalue, hparse⟩ :=
      parseText_written (Phrase.value ctx trigger) (Input.map (literalFields fields))
    have hsame := (Json.unmarshal_eq_some_iff.mp hread).1
    rw [String.toList_ofList, hparse] at hsame
    grind

end

theorem length_of_toJson_map {fs gs : List (String × Value)} {doc : Json}
    (hfs : (Value.map fs).toJson = .ok doc) (hgs : (Value.map gs).toJson = .ok doc) :
    fs.length = gs.length := by
  obtain ⟨js, rfl, hjs⟩ := Value.toJson_map_eq_ok hfs
  obtain ⟨ks, heq, hks⟩ := Value.toJson_map_eq_ok hgs
  obtain rfl := Json.obj.inj heq
  have hfirst := hjs.length_eq
  have hsecond := hks.length_eq
  grind

/-- **Which forms survive.**  The input of an action is compiled and rendered to what its strings
    stand for exactly when it holds no default, asks for no trigger data in this context, has no
    string that begins like a reference, and is not nested too deeply. -/
theorem forms_survive_iff (u : LetterTables) (other : String → Data → Except String String)
    {ya : YamlAction} {fields : List (PlainText × Input u)}
    (hinput : membersOf ya.input = Input.toValueFields Phrase.source fields)
    (hne : ya.input.isEmpty = false) (ctx : GoMap String) (trigger : String → String) :
    Survives u other ya ctx ((Input.map fields).toValue (Phrase.value ctx trigger)) ↔
      Supported fields ctx ((Input.map fields).toValue (Phrase.value ctx trigger)) := by
  have hliterals := membersOf_literalFields hinput
  constructor
  · intro h
    obtain ⟨hrenderable, doc, hfilled, hvalue, hdepth⟩ := renderable_of_survives hinput h trigger
    -- a reference is missing in what is read back
    have hlength := length_of_toJson_map hfilled hvalue
    rw [Input.toValueFields_eq_map, Input.toValueFields_eq_map, List.length_map, List.length_map]
      at hlength
    have hall := List.length_filter_eq_length_iff.mp hlength.symm
    have hsame : literalFields fields = fields := List.filter_eq_self.mpr hall
    rw [hsame] at hrenderable
    refine ⟨fun f hf => by simpa using hall f hf, hrenderable, ?_⟩
    rw [← Value.depth_of_toJson _ _ hfilled]
    exact hdepth
  · intro h
    have hsame : literalFields fields = fields :=
      List.filter_eq_self.mpr fun f hf => by rw [h.literal f hf, Bool.not_false]
    rw [hsame] at hliterals
    have hempty : ya.toAction.input.isEmpty = false := by
      rw [Bool.eq_false_iff, ne_eq, isEmpty_iff_membersOf] at hne ⊢
      rw [hinput] at hne
      show ¬ membersOf (splitInputBindings ya.input).1 = []
      grind
    obtain ⟨tmpl, hmarshal, htmpl⟩ := exists_template hliterals hempty
    obtain ⟨doc, hvalue, hparse⟩ := parseText_written (Phrase.value ctx trigger) (Input.map fields)
    have hconvert : ∃ a, convertActionIR ya.toAction = .ok a ∧ a.inputTemplateJson = tmpl := by
      rw [convertActionIR, show marshalInputTemplate ya.toAction.input = .ok tmpl from hmarshal]
      simp
    obtain ⟨a, hconvert, rfl⟩ := hconvert
    refine ⟨a, _, doc, hconvert,
      resolveTemplate_of_renderable ctx trigger other htmpl h.renderable, hvalue,
      Json.unmarshal_eq_some_iff.mpr ⟨?_, ?_⟩⟩
    · rw [String.toList_ofList]
      exact hparse
    · rw [Value.depth_of_toJson _ _ hvalue]
      exact h.depth

def notePhrase : Phrase asciiLetters where
  forms := .ifCtx noLead ⟨"review", by decide +kernel⟩
    (.ctx ⟨"Review: ", by decide +kernel⟩ ⟨"review", by decide +kernel⟩ .nil) noLead .nil
  tail := noTail

def noteFields : List (PlainText × Input asciiLetters) :=
  [(⟨"note", by decide +kernel⟩, .str notePhrase)]

def noteAction : YamlAction where
  capability := "comment"
  input := AList.singleton "note"
    (.str "\x7b\x7b if .ctx.review \x7d\x7dReview: \x7b\x7b .ctx.review \x7d\x7d\x7b\x7b end \x7d\x7d")

theorem membersOf_noteAction :
    membersOf noteAction.input = Input.toValueFields Phrase.source noteFields := by
  rfl

theorem forms_survive_note :
    noteAction.input.isEmpty = false ∧
      Survives asciiLetters refuseOther noteAction rankContext
        ((Input.map noteFields).toValue (Phrase.value rankContext fun _ => "")) := by
  refine ⟨rfl, (forms_survive_iff asciiLetters refuseOther membersOf_noteAction rfl rankContext
    fun _ => "").mpr ⟨?_, ⟨?_, ?_⟩, ?_⟩⟩
  · exact List.forall_mem_singleton.mpr (by decide +kernel)
  · exact List.forall_mem_singleton.mpr rfl
  · exact List.forall_mem_singleton.mpr (by decide +kernel)
  · decide +kernel

def pullRequestAction : YamlAction where
  capability := "request_review"
  input := AList.singleton "pr_url" (.str "\x7b\x7b .trigger.pr_url \x7d\x7d")

def branchAction : YamlAction where
  capability := "checkout"
  input := AList.singleton "branch"
    (.str "\x7b\x7b index .ctx \"branch\" | default \"main\" \x7d\x7d")

theorem string_of_survives {other : String → Data → Except String String} {ya : YamlAction}
    (key : PlainText) {text : String} {p : Phrase u} {ctx : GoMap String} {filled : Value}
    (hinput : ya.input = AList.singleton key.1 (.str text)) (hsource : p.source = text)
    (hliteral : isReference (.str text) = false) (h : Survives u other ya ctx filled) :
    p.forms.hasDefault = false ∧ p.forms.readsTrigger ctx = false := by
  subst hsource
  have hmembers : membersOf ya.input = Input.toValueFields Phrase.source [(key, .str p)] := by
    rw [hinput]
    rfl
  have hsame : literalFields [(key, Input.str p)] = [(key, .str p)] := by
    rw [literalFields, List.filter_eq_self, List.forall_mem_singleton]
    show (!isReference (.str p.source)) = true
    rw [hliteral, Bool.not_false]
  have hrenderable := (renderable_of_survives hmembers h fun _ => "").1
  rw [hsame] at hrenderable
  exact ⟨hrenderable.noDefault p (List.mem_singleton_self p),
    hrenderable.noTrigger p (List.mem_singleton_self p)⟩

theorem isIdentifier_prURL (u : LetterTables) : u.isIdentifier "pr_url".toList = true :=
  LetterTables.isIdentifier_of_ascii (by decide +kernel)

def pullRequestPhrase (u : LetterTables) : Phrase u :=
  ⟨.trigger noLead ⟨"pr_url", isIdentifier_prURL u⟩ .nil, noTail⟩

theorem source_pullRequestPhrase (u : LetterTables) :
    (pullRequestPhrase u).source = "\x7b\x7b .trigger.pr_url \x7d\x7d" := by
  show String.ofList ("".toList ++ memberAction "trigger" "pr_url" ++ [] ++ "".toList) = _
  decide +kernel

def branchPhrase (u : LetterTables) : Phrase u := ⟨.orDefault noLead "branch" "main" .nil, noTail⟩

theorem source_branchPhrase (u : LetterTables) :
    (branchPhrase u).source = "\x7b\x7b index .ctx \"branch\" | default \"main\" \x7d\x7d" := by
  rfl

/-- **Two of the documented forms never survive**, in any context and whatever they should stand for;
    the default is understood where it did not go through the compiler. -/
theorem trigger_and_default_lost :
    (∀ u other ctx filled, ¬ Survives u other pullRequestAction ctx filled) ∧
      (∀ u other ctx filled, ¬ Survives u other branchAction ctx filled) ∧
      ∀ other, resolveTemplate (goTemplate asciiLetters other)
        "\x7b\x7b index .ctx \"branch\" | default \"main\" \x7d\x7d" ∅ = .ok "main" := by
  refine ⟨fun u other ctx filled h => ?_, fun u other ctx filled h => ?_, fun other => ?_⟩
  · have hlost := string_of_survives ⟨"pr_url", by decide +kernel⟩ rfl (source_pullRequestPhrase u)
      (by decide +kernel) h
    cases hlost.2
  · have hlost := string_of_survives ⟨"branch", by decide +kernel⟩ rfl (source_branchPhrase u)
      (by decide +kernel) h
    cases hlost.1
  · have hparse : parse asciiLetters defaultFuncs
        "\x7b\x7b index .ctx \"branch\" | default \"main\" \x7d\x7d".toList =
          .ok (.action (.call "default" "main" (.member "ctx" "branch")) .nil) := by decide +kernel
    rw [resolveTemplate, goTemplate, TextTemplate.render, hparse]
    rfl

end Zynax.Engine
