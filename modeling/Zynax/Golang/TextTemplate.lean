import Mathlib.Data.List.Chain
import Zynax.Golang.JsonRoundTrip

namespace Zynax.Golang.TextTemplate

/-!
# Go's `text/template`

The part of the template language that inputs are written in: text, the members of maps of
strings, `index`, functions of two strings at the end of a pipeline, and `if` without `else`.  The
option `missingkey=zero` is set.  A template outside this part is left to a parameter of `render`, so
that what is proved does not depend on it.
-/

/-! ### Letters -/

def isAsciiLetter (c : Char) : Bool :=
  65 ≤ c.toNat && c.toNat ≤ 90 || 97 ≤ c.toNat && c.toNat ≤ 122

def isAsciiDigit (c : Char) : Bool := 48 ≤ c.toNat && c.toNat ≤ 57

structure LetterTables where
  isLetter : Char → Bool
  isDigit : Char → Bool
  ascii : ∀ c : Char, c.toNat < 128 → isLetter c = isAsciiLetter c ∧ isDigit c = isAsciiDigit c
  separators : ∀ c : Char, c = '\u2028' ∨ c = '\u2029' → isLetter c = false ∧ isDigit c = false

def asciiLetters : LetterTables where
  isLetter := isAsciiLetter
  isDigit := isAsciiDigit
  ascii _ _ := ⟨rfl, rfl⟩
  separators c hc := by rcases hc with rfl | rfl <;> decide

namespace LetterTables

variable (u : LetterTables) {c : Char}

def isAlphaNumeric (c : Char) : Bool := c = '_' || u.isLetter c || u.isDigit c

def isIdentifier : List Char → Bool
  | [] => false
  | c :: r => (c = '_' || u.isLetter c) && r.all u.isAlphaNumeric

variable {u}

theorem isAlphaNumeric_ascii (hc : c.toNat < 128) :
    u.isAlphaNumeric c = (c = '_' || isAsciiLetter c || isAsciiDigit c) := by
  rw [isAlphaNumeric, (u.ascii c hc).1, (u.ascii c hc).2]

theorem not_isAlphaNumeric (h : c.toNat < 128 ∧ asciiLetters.isAlphaNumeric c = false) :
    u.isAlphaNumeric c = false := by
  rw [isAlphaNumeric_ascii h.1, ← isAlphaNumeric_ascii h.1]
  exact h.2

theorem ne_of_isAlphaNumeric (hc : u.isAlphaNumeric c = true) (d : Char)
    (hd : d.toNat < 128 ∧ asciiLetters.isAlphaNumeric d = false) : c ≠ d := by
  rintro rfl
  rw [not_isAlphaNumeric hd] at hc
  cases hc

theorem isIdentifier_ne_nil {w : List Char} (h : u.isIdentifier w = true) : w ≠ [] := by
  rintro rfl
  exact absurd h (by simp [isIdentifier])

theorem isIdentifier_cons {r : List Char} (h : u.isIdentifier (c :: r) = true) :
    u.isAlphaNumeric c = true ∧ isAsciiDigit c = false ∧ ∀ d ∈ r, u.isAlphaNumeric d = true := by
  rw [isIdentifier, Bool.and_eq_true_iff, List.all_eq_true] at h
  refine ⟨by rw [isAlphaNumeric, h.1, Bool.true_or], ?_, h.2⟩
  by_contra hdigit
  rw [Bool.not_eq_false] at hdigit
  have hrange : 48 ≤ c.toNat ∧ c.toNat ≤ 57 := by simpa [isAsciiDigit] using hdigit
  have hletter : isAsciiLetter c = false := by
    simp only [isAsciiLetter, Bool.or_eq_false_iff, Bool.and_eq_false_iff, decide_eq_false_iff_not]
    omega
  rw [(u.ascii c (by omega)).1, hletter, Bool.or_false, decide_eq_true_eq] at h
  rw [h.1] at hdigit
  exact absurd hdigit (by decide)

theorem isIdentifier_of_ascii {w : List Char} (h : asciiLetters.isIdentifier w = true) :
    u.isIdentifier w = true := by
  have hletter : ∀ c, isAsciiLetter c = true → u.isLetter c = true := by
    intro c hc
    have hrange := hc
    simp only [isAsciiLetter, Bool.or_eq_true, Bool.and_eq_true, decide_eq_true_eq] at hrange
    rw [(u.ascii c (by omega)).1, hc]
  have hdigit : ∀ c, isAsciiDigit c = true → u.isDigit c = true := by
    intro c hc
    have hrange := hc
    simp only [isAsciiDigit, Bool.and_eq_true, decide_eq_true_eq] at hrange
    rw [(u.ascii c (by omega)).2, hc]
  cases w with
  | nil => cases h
  | cons c r =>
    simp only [isIdentifier, isAlphaNumeric, asciiLetters, Bool.and_eq_true, Bool.or_eq_true,
      List.all_eq_true, decide_eq_true_eq] at h ⊢
    grind

end LetterTables

/-! ### The lexer -/

variable (u : LetterTables)

inductive Token where
  | field (path : List String)
  | word (w : String)
  | str (s : String)
  | pipe
  deriving DecidableEq

inductive Item where
  | char (c : Char)
  | action (tokens : List Token)
  deriving DecidableEq

inductive Mode where
  | text
  /-- after one opening brace -/
  | brace
  | inside (tokens : List Token)
  | word (tokens : List Token) (w : List Char)
  | field (tokens : List Token) (path : List String) (name : List Char)
  | quote (tokens : List Token) (body : List Char)
  | quoted (tokens : List Token)
  /-- after one closing brace -/
  | closing (tokens : List Token)
  /-- the template is invalid -/
  | bad
  /-- the template is outside the part that is modelled -/
  | outside
  deriving DecidableEq

def afterOperand (tokens : List Token) (c : Char) : Mode :=
  if c = '}' then .closing tokens
  else if Json.isWs c then .inside tokens
  else if c = '|' then .inside (tokens ++ [.pipe])
  else .outside

def next : Mode → Char → Mode × List Item
  | .text, c => if c = '{' then (.brace, []) else (.text, [.char c])
  | .brace, c => if c = '{' then (.inside [], []) else (.text, [.char '{', .char c])
  | .inside tokens, c =>
    if c = '.' then (.field tokens [] [], [])
    else if c = '"' then (.quote tokens [], [])
    -- no token begins with it, and the parser expects an operand
    else if c = '\\' then (.bad, [])
    -- a digit begins a number
    else if u.isAlphaNumeric c && !isAsciiDigit c then (.word tokens [c], [])
    else (afterOperand tokens c, [])
  | .word tokens w, c =>
    if u.isAlphaNumeric c then (.word tokens (w ++ [c]), [])
    else (afterOperand (tokens ++ [.word (String.ofList w)]) c, [])
  | .field tokens path name, c =>
    -- a digit after the dot begins a number
    if u.isAlphaNumeric c && !(name.isEmpty && isAsciiDigit c) then
      (.field tokens path (name ++ [c]), [])
    else if name.isEmpty then (.outside, [])
    else if c = '.' then (.field tokens (path ++ [String.ofList name]) [], [])
    else (afterOperand (tokens ++ [.field (path ++ [String.ofList name])]) c, [])
  | .quote tokens body, c =>
    if c = '"' then (.quoted (tokens ++ [.str (String.ofList body)]), [])
    else if c = '\\' ∨ c = '\n' then (.outside, [])
    else (.quote tokens (body ++ [c]), [])
  | .quoted tokens, c => (afterOperand tokens c, [])
  | .closing tokens, c => if c = '}' then (.text, [.action tokens]) else (.bad, [])
  | .bad, _ => (.bad, [])
  | .outside, _ => (.outside, [])

def run (s : Mode × List Item) (cs : List Char) : Mode × List Item :=
  cs.foldl (fun s c => ((next u s.1 c).1, s.2 ++ (next u s.1 c).2)) s

inductive Outcome (α : Type) where
  | ok (a : α)
  | bad
  | outside
  deriving DecidableEq

def Outcome.bind {α β : Type} (o : Outcome α) (f : α → Outcome β) : Outcome β :=
  match o with
  | .ok a => f a
  | .bad => .bad
  | .outside => .outside

def Outcome.map {α β : Type} (f : α → β) (o : Outcome α) : Outcome β := o.bind fun a => .ok (f a)

def scan (cs : List Char) : Outcome (List Item) :=
  match run u (.text, []) cs with
  | (.text, items) => .ok items
  | (.brace, items) => .ok (items ++ [.char '{'])
  | (.outside, _) => .outside
  | _ => .bad

/-! ### The parser -/

inductive Expr where
  | member (root key : String)
  | call (f arg : String) (e : Expr)
  deriving DecidableEq

abbrev Funcs : Type := String → Option (String → String → String)

def parseCalls (funcs : Funcs) (e : Expr) : List Token → Option Expr
  | [] => some e
  | .pipe :: .word f :: .str arg :: tokens =>
    if (funcs f).isSome then parseCalls funcs (.call f arg e) tokens else none
  | _ => none

def parsePipe (funcs : Funcs) : List Token → Option Expr
  | .field [root, key] :: tokens => parseCalls funcs (.member root key) tokens
  | .word "index" :: .field [root] :: .str key :: tokens => parseCalls funcs (.member root key) tokens
  | _ => none

inductive Nodes where
  | nil
  | text (c : Char) (rest : Nodes)
  | action (e : Expr) (rest : Nodes)
  | cond (e : Expr) (body rest : Nodes)
  deriving DecidableEq

abbrev Stack : Type := Nodes × List Nodes

def closeIf (e : Expr) : Stack → Outcome Stack
  | (body, rest :: more) => .ok (.cond e body rest, more)
  -- an `if` without an `end`
  | (_, []) => .bad

def parseAction (funcs : Funcs) (tokens : List Token) (after : Outcome Stack) : Outcome Stack :=
  match tokens with
  | [.word "end"] => after.map fun st => (.nil, st.1 :: st.2)
  | .word "if" :: tokens =>
    match parsePipe funcs tokens with
    | some e => after.bind (closeIf e)
    | none => .outside
  | tokens =>
    match parsePipe funcs tokens with
    | some e => after.map (Prod.map (.action e) id)
    | none => .outside

def parseItems (funcs : Funcs) : List Item → Outcome Stack
  | [] => .ok (.nil, [])
  | .char c :: items => (parseItems funcs items).map (Prod.map (.text c) id)
  | .action tokens :: items => parseAction funcs tokens (parseItems funcs items)

def wholeTemplate : Stack → Outcome Nodes
  | (nodes, []) => .ok nodes
  | (_, _ :: _) => .bad

def parse (funcs : Funcs) (cs : List Char) : Outcome Nodes :=
  ((scan u cs).bind (parseItems funcs)).bind wholeTemplate

/-! ### Execution -/

abbrev Data : Type := GoMap (GoMap String)

def Expr.eval (funcs : Funcs) (data : Data) : Expr → Option String
  | .member root key => (data.lookup root).map fun m => (m.lookup key).getD ""
  | .call f arg e => (e.eval funcs data).bind fun v => (funcs f).map fun g => g arg v

def andThen (a b : Option (List Char)) : Option (List Char) := a.bind fun x => b.map (x ++ ·)

def whenTrue (v : Option String) (body : Option (List Char)) : Option (List Char) :=
  v.bind fun s => if s = "" then some [] else body

def Nodes.exec (funcs : Funcs) (data : Data) : Nodes → Option (List Char)
  | .nil => some []
  | .text c rest => andThen (some [c]) (rest.exec funcs data)
  | .action e rest => andThen ((e.eval funcs data).map String.toList) (rest.exec funcs data)
  | .cond e body rest =>
    andThen (whenTrue (e.eval funcs data) (body.exec funcs data)) (rest.exec funcs data)

def executed : Option (List Char) → Except String String
  | none => .error "template execution failed"
  | some out => .ok (String.ofList out)

/-- Parses and executes a template. -/
def render (funcs : Funcs) (other : String → Data → Except String String) (tmpl : String)
    (data : Data) : Except String String :=
  match parse u funcs tmpl.toList with
  | .bad => .error "invalid template"
  | .outside => other tmpl data
  | .ok nodes => executed (nodes.exec funcs data)

/-! ### How chunks are read -/

variable {cs : List Char} {items : List Item}

theorem run_append (s : Mode × List Item) (cs ds : List Char) :
    run u s (cs ++ ds) = run u (run u s cs) ds := List.foldl_append

theorem run_cons (s : Mode × List Item) (c : Char) (cs : List Char) :
    run u s (c :: cs) = run u ((next u s.1 c).1, s.2 ++ (next u s.1 c).2) cs := rfl

def Reads (cs : List Char) (items : List Item) : Prop :=
  ∀ acc, run u (.text, acc) cs = (.text, acc ++ items)

def Rejected (cs : List Char) : Prop := ∀ acc, (run u (.text, acc) cs).1 = .bad

variable {u}

theorem Reads.append {ds : List Char} {items' : List Item} (h : Reads u cs items)
    (h' : Reads u ds items') : Reads u (cs ++ ds) (items ++ items') := by
  intro acc
  rw [run_append, h, h', List.append_assoc]

theorem run_bad (acc : List Item) (cs : List Char) : (run u (.bad, acc) cs).1 = .bad := by
  induction cs generalizing acc with
  | nil => rfl
  | cons c cs ih => exact ih _

theorem Rejected.append (h : Rejected u cs) (ds : List Char) :
    Rejected u (cs ++ ds) := by
  intro acc
  rw [run_append]
  have hbad : run u (.text, acc) cs = (.bad, (run u (.text, acc) cs).2) := Prod.ext (h acc) rfl
  rw [hbad]
  exact run_bad _ ds

theorem Reads.rejected {ds : List Char} (h : Reads u cs items)
    (h' : Rejected u ds) : Rejected u (cs ++ ds) := by
  intro acc
  rw [run_append, h]
  exact h' _

theorem run_literal (cs : List Char) (acc : List Item) (h : Json.NoDelim (cs ++ ['{'])) :
    run u (.text, acc) cs = (.text, acc ++ cs.map .char) ∧
      (Json.NoDelim ('{' :: (cs ++ ['{'])) →
        run u (.brace, acc) cs = (.text, acc ++ .char '{' :: cs.map .char)) := by
  induction cs generalizing acc with
  | nil =>
    refine ⟨by simp [run], fun hbrace => ?_⟩
    exact absurd ⟨rfl, rfl⟩ (List.isChain_cons_cons.mp hbrace).1
  | cons c cs ih =>
    constructor
    · by_cases hc : c = '{'
      · subst hc
        rw [run_cons, show next u Mode.text '{' = (.brace, []) from rfl, List.append_nil]
        exact (ih acc h.of_cons).2 h
      · have hstep := (ih (acc ++ [.char c]) ((Json.noDelim_cons hc).mp h)).1
        rw [run_cons, next, if_neg hc, hstep, List.append_assoc, List.map_cons]
        rfl
    · intro hbrace
      have hc : c ≠ '{' := fun hc => (List.isChain_cons_cons.mp hbrace).1 ⟨rfl, hc⟩
      have hstep := (ih (acc ++ [.char '{', .char c]) ((Json.noDelim_cons hc).mp h)).1
      rw [run_cons, next, if_neg hc, hstep, List.append_assoc, List.map_cons]
      rfl

theorem reads_literal (h : Json.NoDelim (cs ++ ['{'])) : Reads u cs (cs.map .char) :=
  fun acc => (run_literal cs acc h).1

/-! ### How actions are read -/

variable {m : Mode} {name : List Char}

theorem run_cons_of_next {m' : Mode} {c : Char} (h : next u m c = (m', items))
    (acc : List Item) (cs : List Char) : run u (m, acc) (c :: cs) = run u (m', acc ++ items) cs := by
  rw [run_cons, h]

theorem run_cons_inside {m' : Mode} {c : Char} (h : next u m c = (m', [])) (acc : List Item)
    (cs : List Char) : run u (m, acc) (c :: cs) = run u (m', acc) cs := by
  rw [run_cons_of_next h, List.append_nil]

theorem run_field_chars (h : ∀ c ∈ name, u.isAlphaNumeric c = true)
    (tokens : List Token) (path : List String) {w : List Char} (hw : w ≠ []) (acc : List Item) :
    run u (.field tokens path w, acc) name = (.field tokens path (w ++ name), acc) := by
  induction name generalizing w with
  | nil => rw [List.append_nil]; rfl
  | cons c name ih =>
    rw [List.forall_mem_cons] at h
    have hstep : next u (.field tokens path w) c = (.field tokens path (w ++ [c]), []) := by
      simp [next, h.1, hw]
    rw [run_cons_inside hstep, ih h.2 (by simp), List.append_assoc, List.singleton_append]

theorem run_field (h : u.isIdentifier name = true) (tokens : List Token)
    (path : List String) (acc : List Item) :
    run u (.field tokens path [], acc) name = (.field tokens path name, acc) := by
  cases name with
  | nil => cases h
  | cons c name =>
    obtain ⟨hc, hdigit, hname⟩ := LetterTables.isIdentifier_cons h
    have hstep : next u (.field tokens path []) c = (.field tokens path [c], []) := by
      simp [next, hc, hdigit]
    rw [run_cons_inside hstep, run_field_chars hname tokens path (by simp)]
    rfl

theorem run_word_chars (h : ∀ c ∈ name, u.isAlphaNumeric c = true)
    (tokens : List Token) (w : List Char) (acc : List Item) :
    run u (.word tokens w, acc) name = (.word tokens (w ++ name), acc) := by
  induction name generalizing w with
  | nil => rw [List.append_nil]; rfl
  | cons c name ih =>
    rw [List.forall_mem_cons] at h
    have hstep : next u (.word tokens w) c = (.word tokens (w ++ [c]), []) := by simp [next, h.1]
    rw [run_cons_inside hstep, ih h.2, List.append_assoc, List.singleton_append]

theorem run_word {w : List Char} (h : u.isIdentifier w = true) (tokens : List Token)
    (acc : List Item) (cs : List Char) :
    run u (.inside tokens, acc) (w ++ ' ' :: cs) =
      run u (.inside (tokens ++ [.word (String.ofList w)]), acc) cs := by
  cases w with
  | nil => cases h
  | cons c w =>
    obtain ⟨hc, hdigit, hname⟩ := LetterTables.isIdentifier_cons h
    have hstep : next u (.inside tokens) c = (.word tokens [c], []) := by
      have hdot := LetterTables.ne_of_isAlphaNumeric hc '.' (by decide)
      have hquote := LetterTables.ne_of_isAlphaNumeric hc '"' (by decide)
      have hslash := LetterTables.ne_of_isAlphaNumeric hc '\\' (by decide)
      simp [next, hc, hdigit, hdot, hquote, hslash]
    have hblank : next u (.word tokens (c :: w)) ' ' =
        (.inside (tokens ++ [.word (String.ofList (c :: w))]), []) := by
      rw [next, LetterTables.not_isAlphaNumeric (by decide)]
      rfl
    rw [List.cons_append, run_cons_inside hstep, run_append, run_word_chars hname,
      List.singleton_append, run_cons_inside hblank]

def pathText (path : List String) : List Char := path.flatMap fun name => '.' :: name.toList

theorem run_dot {tokens : List Token} {done : List String}
    (hdot : next u m '.' = (.field tokens done [], [])) {name : String}
    (hname : u.isIdentifier name.toList = true) (path : List String) (acc : List Item)
    (cs : List Char) :
    run u (m, acc) (pathText (name :: path) ++ cs) =
      run u (.field tokens done name.toList, acc) (pathText path ++ cs) := by
  rw [pathText, List.flatMap_cons, List.cons_append, List.cons_append, run_cons_inside hdot,
    List.append_assoc, run_append, run_field hname, pathText]

theorem run_fields {path : List String} (h : ∀ name ∈ path, u.isIdentifier name.toList = true)
    (tokens : List Token) (done : List String) (hname : name ≠ [])
    (acc : List Item) (cs : List Char) :
    run u (.field tokens done name, acc) (pathText path ++ ' ' :: cs) =
      run u (.inside (tokens ++ [.field (done ++ String.ofList name :: path)]), acc) cs := by
  induction path generalizing done name with
  | nil =>
    have hblank : next u (.field tokens done name) ' ' =
        (.inside (tokens ++ [.field (done ++ [String.ofList name])]), []) := by
      have hspace : u.isAlphaNumeric ' ' = false := LetterTables.not_isAlphaNumeric (by decide)
      simp [next, hspace, hname, afterOperand, Json.isWs]
    rw [pathText, List.flatMap_nil, List.nil_append, run_cons_inside hblank]
  | cons field path ih =>
    rw [List.forall_mem_cons] at h
    have hdot : next u (.field tokens done name) '.' =
        (.field tokens (done ++ [String.ofList name]) [], []) := by
      have hpoint : u.isAlphaNumeric '.' = false := LetterTables.not_isAlphaNumeric (by decide)
      simp [next, hpoint, hname]
    rw [run_dot hdot h.1, ih h.2 _ (LetterTables.isIdentifier_ne_nil h.1), String.ofList_toList,
      List.append_assoc, List.singleton_append]

theorem run_path {name : String} {path : List String}
    (h : ∀ field ∈ name :: path, u.isIdentifier field.toList = true) (tokens : List Token)
    (acc : List Item) (cs : List Char) :
    run u (.inside tokens, acc) (pathText (name :: path) ++ ' ' :: cs) =
      run u (.inside (tokens ++ [.field (name :: path)]), acc) cs := by
  rw [List.forall_mem_cons] at h
  have hdot : next u (.inside tokens) '.' = (.field tokens [] [], []) := rfl
  rw [run_dot hdot h.1, run_fields h.2 _ _ (LetterTables.isIdentifier_ne_nil h.1),
    String.ofList_toList, List.nil_append]

theorem run_open (acc : List Item) (cs : List Char) :
    run u (.text, acc) ('{' :: '{' :: ' ' :: cs) = run u (.inside [], acc) cs := by
  have hbrace : next u .text '{' = (.brace, []) := rfl
  have hopen : next u .brace '{' = (.inside [], []) := rfl
  have hblank : next u (.inside []) ' ' = (.inside [], []) := by
    have hspace : u.isAlphaNumeric ' ' = false := LetterTables.not_isAlphaNumeric (by decide)
    simp [next, hspace, afterOperand, Json.isWs]
  rw [run_cons_inside hbrace, run_cons_inside hopen, run_cons_inside hblank]

theorem run_close (tokens : List Token) (acc : List Item) :
    run u (.inside tokens, acc) ['}', '}'] = (.text, acc ++ [.action tokens]) := by
  have hbrace : next u (.inside tokens) '}' = (.closing tokens, []) := by
    have hword : u.isAlphaNumeric '}' = false := LetterTables.not_isAlphaNumeric (by decide)
    simp [next, hword, afterOperand]
  have hclose : next u (.closing tokens) '}' = (.text, [.action tokens]) := rfl
  rw [run_cons_inside hbrace, run_cons_of_next hclose]
  rfl

def wordAction (w : List Char) : List Char := '{' :: '{' :: ' ' :: (w ++ ' ' :: ['}', '}'])

def memberAction (root key : String) : List Char :=
  '{' :: '{' :: ' ' :: (pathText [root, key] ++ ' ' :: ['}', '}'])

def ifAction (root key : String) : List Char :=
  '{' :: '{' :: ' ' :: 'i' :: 'f' :: ' ' :: (pathText [root, key] ++ ' ' :: ['}', '}'])

section

variable {root key : String} (hroot : u.isIdentifier root.toList = true)
  (hkey : u.isIdentifier key.toList = true)

theorem reads_wordAction {w : List Char} (hw : u.isIdentifier w = true) :
    Reads u (wordAction w) [.action [.word (String.ofList w)]] := by
  intro acc
  rw [wordAction, run_open, run_word hw, run_close, List.nil_append]

include hroot hkey

theorem run_members (tokens : List Token) (acc : List Item) :
    run u (.inside tokens, acc) (pathText [root, key] ++ ' ' :: ['}', '}']) =
      (.text, acc ++ [.action (tokens ++ [.field [root, key]])]) := by
  rw [run_path (by simp [hroot, hkey]), run_close]

theorem reads_memberAction : Reads u (memberAction root key) [.action [.field [root, key]]] := by
  intro acc
  rw [memberAction, run_open, run_members hroot hkey, List.nil_append]

theorem reads_ifAction : Reads u (ifAction root key) [.action [.word "if", .field [root, key]]] := by
  intro acc
  have hif := run_word (u := u) (w := ['i', 'f'])
    (LetterTables.isIdentifier_of_ascii (by decide)) [] acc
    (pathText [root, key] ++ ' ' :: ['}', '}'])
  rw [List.cons_append, List.cons_append, List.nil_append] at hif
  rw [ifAction, run_open, hif, run_members hroot hkey]
  rfl

end

theorem rejected_backslash {w : List Char} {root : String} (hw : u.isIdentifier w = true)
    (hroot : u.isIdentifier root.toList = true) (cs : List Char) :
    Rejected u ('{' :: '{' :: ' ' :: (w ++ ' ' :: (pathText [root] ++ ' ' :: '\\' :: cs))) := by
  intro acc
  have hbad : next u (.inside [.word (String.ofList w), .field [root]]) '\\' = (.bad, []) := rfl
  rw [run_open, run_word hw, run_path (by simpa using hroot), List.nil_append, List.singleton_append,
    run_cons_inside hbad]
  exact run_bad acc cs

/-! ### What chunks contribute -/

variable {funcs : Funcs} {data : Data} {cs : List Char}

theorem andThen_assoc (a b c : Option (List Char)) :
    andThen (andThen a b) c = andThen a (andThen b c) := by
  cases a <;> cases b <;> cases c <;> simp [andThen]

@[simp] theorem andThen_nil (a : Option (List Char)) : andThen a (some []) = a := by
  cases a <;> simp [andThen]

@[simp] theorem nil_andThen (a : Option (List Char)) : andThen (some []) a = a := by
  cases a <;> simp [andThen]

@[simp] theorem andThen_none (a : Option (List Char)) : andThen a none = none := by
  cases a <;> rfl

@[simp] theorem none_andThen (a : Option (List Char)) : andThen none a = none := rfl

theorem andThen_ite (a b : Bool) (x y : List Char) :
    andThen (if a then none else some x) (if b then none else some y) =
      if a || b then none else some (x ++ y) := by
  cases a <;> cases b <;> rfl

variable (u) in
def Outputs (funcs : Funcs) (data : Data) (cs : List Char) (out : Option (List Char)) : Prop :=
  ∃ items nodes, Reads u cs items ∧
    (∀ more, parseItems funcs (items ++ more) = (parseItems funcs more).map (Prod.map nodes id)) ∧
    ∀ rest : Nodes, (nodes rest).exec funcs data = andThen out (rest.exec funcs data)

theorem Outcome.map_map {α β γ : Type} (f : α → β) (g : β → γ) (o : Outcome α) :
    (o.map f).map g = o.map (g ∘ f) := by
  cases o <;> rfl

theorem Outputs.reads {out : Option (List Char)} (h : Outputs u funcs data cs out) :
    ∃ items, Reads u cs items := by
  obtain ⟨items, -, hreads, -⟩ := h
  exact ⟨items, hreads⟩

theorem Outputs.append {ds : List Char} {a b : Option (List Char)} (h : Outputs u funcs data cs a)
    (h' : Outputs u funcs data ds b) : Outputs u funcs data (cs ++ ds) (andThen a b) := by
  obtain ⟨items, nodes, hreads, hparse, hexec⟩ := h
  obtain ⟨items', nodes', hreads', hparse', hexec'⟩ := h'
  refine ⟨items ++ items', nodes ∘ nodes', hreads.append hreads', fun more => ?_, fun rest => ?_⟩
  · rw [List.append_assoc, hparse, hparse', Outcome.map_map]
    rfl
  · rw [Function.comp_apply, hexec, hexec', andThen_assoc]

theorem outputs_literal (h : Json.NoDelim (cs ++ ['{'])) :
    Outputs u funcs data cs (some cs) := by
  refine ⟨cs.map .char, fun rest => cs.foldr .text rest, reads_literal h, fun more => ?_,
    fun rest => ?_⟩
  · clear h
    induction cs with
    | nil => cases hmore : parseItems funcs more <;> exact hmore
    | cons c cs ih =>
      rw [List.map_cons, List.cons_append, parseItems, ih, Outcome.map_map]
      rfl
  · clear h
    induction cs with
    | nil => exact (nil_andThen _).symm
    | cons c cs ih =>
      show andThen (some [c]) ((cs.foldr Nodes.text rest).exec funcs data) = _
      rw [ih, ← andThen_assoc]
      rfl

theorem outputs_nil : Outputs u funcs data [] (some []) := outputs_literal (.singleton _)

section

variable {root key : String} (hroot : u.isIdentifier root.toList = true)
  (hkey : u.isIdentifier key.toList = true)
include hroot hkey

theorem outputs_memberAction :
    Outputs u funcs data (memberAction root key)
      (((Expr.member root key).eval funcs data).map String.toList) :=
  ⟨_, .action (.member root key), reads_memberAction hroot hkey, fun _ => rfl, fun _ => rfl⟩

theorem outputs_if {body : List Char} {out : Option (List Char)} (h : Outputs u funcs data body out) :
    Outputs u funcs data (ifAction root key ++ (body ++ wordAction ['e', 'n', 'd']))
      (whenTrue ((Expr.member root key).eval funcs data) out) := by
  obtain ⟨items, nodes, hreads, hparse, hexec⟩ := h
  have hend : Reads u (wordAction ['e', 'n', 'd']) [.action [.word "end"]] :=
    reads_wordAction (LetterTables.isIdentifier_of_ascii (by decide))
  refine ⟨_, .cond (.member root key) (nodes .nil),
    (reads_ifAction hroot hkey).append (hreads.append hend), fun more => ?_, fun rest => ?_⟩
  · have hitems : [Item.action [.word "if", .field [root, key]]] ++
        (items ++ [.action [.word "end"]]) ++ more =
        .action [.word "if", .field [root, key]] :: (items ++ .action [.word "end"] :: more) := by
      simp
    rw [hitems, parseItems, hparse, parseItems]
    cases hmore : parseItems funcs more <;> rfl
  · rw [Nodes.exec, hexec]
    rw [show Nodes.nil.exec funcs data = some [] from rfl, andThen_nil]

theorem rejected_if {body : List Char} (h : Rejected u body) (cs : List Char) :
    Rejected u (ifAction root key ++ (body ++ cs)) :=
  (reads_ifAction hroot hkey).rejected (h.append cs)

end

/-! ### Templates -/

variable {tmpl : String}

theorem render_of_items {nodes : Nodes} (hscan : scan u tmpl.toList = .ok items)
    (hparse : parseItems funcs items = .ok (nodes, [])) (other : String → Data → Except String String) :
    render u funcs other tmpl data = executed (nodes.exec funcs data) := by
  have hwhole : parse u funcs tmpl.toList = .ok nodes := by
    rw [parse, hscan]
    show (parseItems funcs items).bind wholeTemplate = _
    rw [hparse]
    rfl
  rw [render, hwhole]

theorem Outputs.render {out : Option (List Char)}
    (h : Outputs u funcs data tmpl.toList out) (other : String → Data → Except String String) :
    render u funcs other tmpl data = executed out := by
  obtain ⟨items, nodes, hreads, hparse, hexec⟩ := h
  have hitems := hparse []
  rw [List.append_nil] at hitems
  rw [render_of_items (by rw [scan, hreads []]; rfl) hitems, hexec,
    show Nodes.nil.exec funcs data = some [] from rfl, andThen_nil]

/-- Text without an opening delimiter is rendered as it is, with a brace at its end, too. -/
theorem render_of_noDelim (h : Json.NoDelim tmpl.toList) (other : String → Data → Except String String) :
    render u funcs other tmpl data = .ok tmpl := by
  by_cases hlit : Json.NoDelim (tmpl.toList ++ ['{'])
  · rw [(outputs_literal hlit).render, executed, String.ofList_toList]
  have hlast : tmpl.toList.getLast? = some '{' := by
    by_contra hne
    refine hlit (List.isChain_append.mpr ⟨h, .singleton _, ?_⟩)
    rintro x hx y - ⟨rfl, -⟩
    exact hne hx
  obtain ⟨cs, htext⟩ := List.getLast?_eq_some_iff.mp hlast
  obtain ⟨items, nodes, hreads, hparse, hexec⟩ := @outputs_literal u funcs data cs (htext ▸ h)
  have hscan : scan u tmpl.toList = .ok (items ++ [.char '{']) := by
    rw [htext, scan, run_append, hreads []]
    simp [run, next]
  rw [render_of_items hscan (hparse [.char '{']), hexec]
  show Except.ok (String.ofList (cs ++ ['{'])) = _
  rw [← htext, String.ofList_toList]

theorem render_of_scan (h : scan u tmpl.toList = .bad) (funcs : Funcs) (data : Data)
    (other : String → Data → Except String String) :
    render u funcs other tmpl data = .error "invalid template" := by
  rw [render, parse, h]
  rfl

theorem Rejected.render (h : Rejected u tmpl.toList) (funcs : Funcs) (data : Data)
    (other : String → Data → Except String String) :
    render u funcs other tmpl data = .error "invalid template" := by
  have hbad : run u (.text, []) tmpl.toList = (.bad, (run u (.text, []) tmpl.toList).2) :=
    Prod.ext (h []) rfl
  exact render_of_scan (by rw [scan, hbad]) funcs data other

end Zynax.Golang.TextTemplate
