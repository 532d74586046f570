import Mathlib.Data.List.Infix
import Mathlib.Data.Set.Function
import Zynax.Golang.Sha256
import Zynax.Golang.Strings
import Zynax.Transition.Runs

namespace Zynax.Cli.Gitops

open Golang Transition

/-!
# The gitops watcher

The watcher applies the YAML files of a directory tree when their contents change.  At the start it registers
the directories with `fsnotify` and applies what is new since the last time; then it follows the events.  What was
applied is remembered by its hash, in memory and, after each change, in a file.

* `watcher_converges` — the condition under which the last content applied is the current one.
-/

/-! ### Trees -/

abbrev Path : Type := List String

abbrev Content : Type := List UInt8

inductive Node where
  | dir
  | file (content : Content)
  deriving DecidableEq

structure Tree where
  node : Path → Option Node
  paths : List Path
  mem_paths : ∀ p, node p ≠ none → p ∈ paths
  root : node [] = some .dir
  parent : ∀ d a, node (d ++ [a]) ≠ none → node d = some .dir

def Tree.empty : Tree where
  node p := if p = [] then some .dir else none
  paths := [[]]
  mem_paths p hp := by
    by_cases h : p = []
    · simp [h]
    · exact absurd (if_neg h) hp
  root := rfl
  parent d a h := absurd (if_neg (by simp)) h

def Tree.list (t : Tree) (d : Path) : List (Path × Bool) :=
  (t.paths.filter fun p => p ≠ [] ∧ p.dropLast = d ∧ t.node p ≠ none).map fun p => (p, t.node p = some .dir)

def Tree.set (t : Tree) (d : Path) (a : String) (n : Option Node) (hdir : n ≠ none → t.node d = some .dir)
    (hleaf : n = some .dir ∨ ∀ b, t.node (d ++ [a] ++ [b]) = none) : Tree where
  node := Function.update t.node (d ++ [a]) n
  paths := t.paths.insert (d ++ [a])
  mem_paths p hp := by
    by_cases h : p = d ++ [a]
    · simp [h]
    · rw [Function.update_of_ne h] at hp
      exact List.mem_insert_of_mem (t.mem_paths p hp)
  root := by
    rw [Function.update_of_ne (by simp)]
    exact t.root
  parent e b h := by
    by_cases heq : e ++ [b] = d ++ [a]
    · obtain ⟨rfl, -⟩ := List.append_singleton_inj.mp heq
      rw [heq, Function.update_self] at h
      rw [Function.update_of_ne (by simp)]
      exact hdir h
    · rw [Function.update_of_ne heq] at h
      by_cases he : e = d ++ [a]
      · subst he
        rw [Function.update_self]
        exact hleaf.resolve_right fun hnone => h (hnone b)
      · rw [Function.update_of_ne he]
        exact t.parent e b h

theorem Tree.child_eq_none (t : Tree) {p : Path} (h : t.node p ≠ some .dir) (b : String) :
    t.node (p ++ [b]) = none := by
  by_contra hchild
  exact h (t.parent p b hchild)

def Tree.setFile (t : Tree) (d : Path) (a : String) (c : Option Content) : Option Tree :=
  if h : t.node d = some .dir ∧ t.node (d ++ [a]) ≠ some .dir then
    some (t.set d a (c.map .file) (fun _ => h.1) (.inr (t.child_eq_none h.2)))
  else none

def Tree.relocate (t : Tree) (src d : Path) (a : String) (hroot : src ≠ [])
    (hdir : t.node d = some .dir) (hout : ¬ src <+: d) : Tree where
  node p := if d ++ [a] <+: p then t.node (src ++ p.drop (d ++ [a]).length)
    else if src <+: p then none else t.node p
  paths := t.paths ∪ t.paths.map fun p => d ++ [a] ++ p.drop src.length
  mem_paths p hp := by
    split_ifs at hp with hdst hgone
    · obtain ⟨r, rfl⟩ := hdst
      rw [List.drop_left] at hp
      refine List.mem_union_iff.mpr (.inr (List.mem_map.mpr ⟨_, t.mem_paths _ hp, ?_⟩))
      rw [List.drop_left]
    · exact absurd rfl hp
    · exact List.mem_union_iff.mpr (.inl (t.mem_paths p hp))
  root := by
    rw [if_neg (by simp), if_neg (by simpa using hroot)]
    exact t.root
  parent e b h := by
    by_cases hdst : d ++ [a] <+: e
    · obtain ⟨r, rfl⟩ := hdst
      rw [if_pos ⟨r ++ [b], by simp⟩, List.append_assoc, List.drop_left, ← List.append_assoc] at h
      rw [if_pos ⟨r, rfl⟩, List.drop_left]
      exact t.parent _ b h
    · by_cases heq : d ++ [a] = e ++ [b]
      · obtain ⟨rfl, -⟩ := List.append_singleton_inj.mp heq
        rw [if_neg hdst, if_neg hout]
        exact hdir
      · have hnot : ∀ q : Path, q ≠ e ++ [b] → ¬ q <+: e → ¬ q <+: e ++ [b] := by
          intro q hne hq hlong
          exact (List.prefix_concat_iff.mp hlong).elim hne hq
        rw [if_neg (hnot _ heq hdst)] at h
        rw [if_neg hdst]
        split_ifs at h with hgone
        · exact absurd rfl h
        · rw [if_neg fun hsrc => hgone (hsrc.trans (List.prefix_append _ _))]
          exact t.parent e b h

/-! ### Changes -/

inductive Op where
  | create | write | remove | rename
  deriving DecidableEq

structure Notice where
  op : Op
  dir : Path
  name : String

inductive Change where
  | put (d : Path) (a : String) (c : Content)
  | remove (d : Path) (a : String)
  | move (d : Path) (a : String) (d' : Path) (a' : String)
  | mkdir (d : Path) (a : String)
  | rmdir (d : Path) (a : String)
  | moveDir (d : Path) (a : String) (d' : Path) (a' : String)

def Change.apply (t : Tree) : Change → Option (Tree × List Notice)
  | .put d a c => (t.setFile d a (some c)).map fun t' =>
      (t', [⟨if t.node (d ++ [a]) = none then .create else .write, d, a⟩])
  | .remove d a =>
    if t.node (d ++ [a]) = none then none else (t.setFile d a none).map fun t' => (t', [⟨.remove, d, a⟩])
  | .move d a d' a' =>
    match t.node (d ++ [a]) with
    | some (.file c) =>
      if d ++ [a] = d' ++ [a'] then none
      else ((t.setFile d a none).bind fun t' => t'.setFile d' a' (some c)).map fun t' =>
        (t', [⟨.rename, d, a⟩, ⟨.create, d', a'⟩])
    | _ => none
  | .mkdir d a =>
    if h : t.node d = some .dir ∧ t.node (d ++ [a]) = none then
      some (t.set d a (some .dir) (fun _ => h.1) (.inl rfl), [⟨.create, d, a⟩])
    else none
  | .rmdir d a =>
    if h : t.node (d ++ [a]) = some .dir ∧ ∀ p ∈ t.paths, p.dropLast = d ++ [a] → t.node p = none then
      some (t.set d a none (fun hne => absurd rfl hne) (.inr fun b => by
        by_contra hchild
        exact hchild (h.2 _ (t.mem_paths _ hchild) (by simp))), [⟨.remove, d, a⟩])
    else none
  | .moveDir d a d' a' =>
    if h : t.node (d ++ [a]) = some .dir ∧ t.node d' = some .dir ∧ t.node (d' ++ [a']) = none ∧ ¬ d ++ [a] <+: d' then
      some (t.relocate (d ++ [a]) d' a' (by simp) h.2.1 h.2.2.2, [⟨.rename, d, a⟩, ⟨.create, d', a'⟩])
    else none

/-- The file that the change removes or renames. -/
def Change.removed : Change → Option Path
  | .remove d a | .move d a _ _ => some (d ++ [a])
  | _ => none

/-- The file that the change leaves with a content. -/
def Change.target : Change → Option Path
  | .put d a _ => some (d ++ [a])
  | .move _ _ d' a' => some (d' ++ [a'])
  | _ => none

def Change.ofFile : Change → Bool
  | .put _ _ _ | .remove _ _ | .move _ _ _ _ => true
  | .mkdir _ _ | .rmdir _ _ | .moveDir _ _ _ _ => false

def Change.rewatch (watches : List (Path × Path)) : Change → List (Path × Path)
  | .rmdir d a => watches.filter fun e => e.1 ≠ d ++ [a]
  | .moveDir d a d' a' => (watches.filter fun e => e.1 ≠ d ++ [a]).map fun e =>
      if d ++ [a] <+: e.1 then (d' ++ [a'] ++ e.1.drop (d ++ [a]).length, e.2) else e
  | _ => watches

/-! ### The watcher -/

def ext (name : String) : String :=
  if '.' ∈ name.toList then String.ofList ('.' :: (name.toList.reverse.takeWhile (· ≠ '.')).reverse) else ""

def isYAML (p : Path) : Bool :=
  let e := toLower ((p.getLast?.map ext).getD "")
  e = ".yaml" || e = ".yml"

def hashContent (content : Content) : String := hexEncodeToString (sha256 content)

structure Event where
  op : Op
  name : Path
  deriving DecidableEq

def deliver (watches : List (Path × Path)) (notices : List Notice) : List Event :=
  notices.filterMap fun n => (watches.lookup n.dir).map fun name => ⟨n.op, name ++ [n.name]⟩

inductive Phase where
  | adding (todo : List (Path × Bool))
  | syncing (todo : List (Path × Bool))
  | watching
  deriving DecidableEq

structure Watcher where
  state : Path → Option String := fun _ => none
  watches : List (Path × Path) := []
  queue : List Event := []
  phase : Phase := .adding [([], true)]
  /-- the state has changed and is not written yet -/
  saving : Bool := false

/-- What happens to a file: it is applied, or removed or renamed in the tree. -/
inductive Record where
  | applied (p : Path) (content : Content)
  | removed (p : Path)
  deriving DecidableEq

/-- The tree, the state file, the watcher if one runs, and what has happened.  If the directory is given as `.`, then
    `fsnotify` names its files `./a.yaml`, while the walks name them `a.yaml`. -/
structure World where
  tree : Tree
  dot : Bool := false
  saved : Path → Option String := fun _ => none
  watcher : Option Watcher := none
  log : List Record := []

/-- The name under which `fsnotify` reports the files of a directory. -/
def World.watchName (w : World) (d : Path) : Path := if w.dot ∧ d = [] then ["."] else d

/-- The file with a name. -/
def World.resolve (w : World) (name : Path) : Path := if w.dot ∧ name.head? = some "." then name.tail else name

/-- `applyFile`: applies a content whose hash is new. -/
def World.applyFile (w : World) (x : Watcher) (name : Path) : World :=
  match w.tree.node (w.resolve name) with
  | some (.file c) =>
    if x.state name = some (hashContent c) then { w with watcher := some x }
    else
      { w with
        watcher := some { x with state := Function.update x.state name (some (hashContent c)), saving := true }
        log := w.log ++ [.applied (w.resolve name) c] }
  | _ => { w with watcher := some x }

def World.saveState (w : World) (x : Watcher) : World :=
  { w with saved := x.state, watcher := some { x with saving := false } }

/-- One step of the walks at the start, `addDirs` and `syncAll`. -/
def World.walk (w : World) (x : Watcher) : World :=
  match x.phase with
  | .adding [] => { w with watcher := some { x with state := w.saved, phase := .syncing [([], true)] } }
  | .adding ((p, isDir) :: todo) =>
    if !isDir then { w with watcher := some { x with phase := .adding todo } }
    else if w.tree.node p = some .dir then
      { w with
        watcher := some { x with
          watches := (p, w.watchName p) :: x.watches
          phase := .adding (w.tree.list p ++ todo) } }
    else { w with watcher := none }
  | .syncing [] => w.saveState { x with phase := .watching }
  | .syncing ((p, isDir) :: todo) =>
    if isDir then
      if w.tree.node p = some .dir then
        { w with watcher := some { x with phase := .syncing (w.tree.list p ++ todo) } }
      else { w with watcher := none }
    else if isYAML p then w.applyFile { x with phase := .syncing todo } p
    else { w with watcher := some { x with phase := .syncing todo } }
  | .watching => w

/-- One event of the loop. -/
def World.handle (w : World) (x : Watcher) : World :=
  match x.phase, x.queue with
  | .watching, e :: queue =>
    let x := { x with queue := queue }
    if !isYAML e.name then { w with watcher := some x }
    else if e.op = .create ∨ e.op = .write then w.applyFile x e.name
    else { w with watcher := some { x with state := Function.update x.state e.name none, saving := true } }
  | _, _ => w

/-- The watcher goes on: what it has changed is saved first. -/
def World.advance (w : World) (act : World → Watcher → World) : World :=
  match w.watcher with
  | none => w
  | some x => if x.saving then w.saveState x else act w x

inductive Move where
  | change (ch : Change)
  | start
  | walk
  | handle
  | stop
  | kill

def World.step (w : World) : Move → World
  | .change ch =>
    match ch.apply w.tree with
    | none => w
    | some (tree, notices) =>
      { w with
        tree := tree
        watcher := w.watcher.map fun x =>
          { x with queue := x.queue ++ deliver x.watches notices, watches := ch.rewatch x.watches }
        log := w.log ++ (ch.removed.map .removed).toList }
  | .start => if w.watcher.isNone then { w with watcher := some {} } else w
  | .walk => w.advance World.walk
  | .handle => w.advance World.handle
  | .stop => w.advance fun w x => if x.phase = .watching then { w with saved := x.state, watcher := none } else w
  | .kill => { w with watcher := none }

/-! ### What was applied -/

variable {log : List Record} {p q : Path} {c : Content} {S : Set Content}
  {state saved : Path → Option String}

def lastApplied (log : List Record) (p : Path) : Option Content :=
  log.foldl (fun last r => match r with
    | .applied q c => if q = p then some c else last
    | .removed _ => last) none

/-- The content last applied for a file that was neither removed nor renamed since. -/
def standing (log : List Record) (p : Path) : Option Content :=
  log.foldl (fun last r => match r with
    | .applied q c => if q = p then some c else last
    | .removed q => if q = p then none else last) none

@[simp] theorem lastApplied_applied :
    lastApplied (log ++ [.applied q c]) p = if q = p then some c else lastApplied log p := by
  simp [lastApplied, List.foldl_append]

@[simp] theorem standing_applied :
    standing (log ++ [.applied q c]) p = if q = p then some c else standing log p := by
  simp [standing, List.foldl_append]

theorem lastApplied_removed (r : Option Path) :
    lastApplied (log ++ (r.map .removed).toList) p = lastApplied log p := by
  cases r <;> simp [lastApplied, List.foldl_append]

theorem standing_removed (r : Option Path) :
    standing (log ++ (r.map .removed).toList) p = if r = some p then none else standing log p := by
  cases r <;> simp [standing, List.foldl_append]

/-- What the state has is the hash of what was applied last; it has everything that stands; and nothing was applied
    that stood. -/
structure Ledger (S : Set Content) (state : Path → Option String) (log : List Record) : Prop where
  applied : ∀ p h, state p = some h → ∃ c ∈ S, lastApplied log p = some c ∧ hashContent c = h
  stands : ∀ p c, standing log p = some c → state p = some (hashContent c)
  fresh : ∀ l p c, l ++ [.applied p c] <+: log → standing l p ≠ some c

theorem fresh_concat (hfresh : ∀ l p c, l ++ [.applied p c] <+: log → standing l p ≠ some c) {r : Record}
    (hr : ∀ p c, r = .applied p c → standing log p ≠ some c) :
    ∀ l p c, l ++ [.applied p c] <+: log ++ [r] → standing l p ≠ some c := by
  intro l p c hl
  rcases List.prefix_concat_iff.mp hl with heq | hl
  · obtain ⟨rfl, hrec⟩ := List.append_singleton_inj.mp heq
    exact hr p c hrec.symm
  · exact hfresh l p c hl

theorem Ledger.apply (h : Ledger S state log) (hc : c ∈ S) (hne : state p ≠ some (hashContent c)) :
    Ledger S (Function.update state p (some (hashContent c))) (log ++ [.applied p c]) where
  applied q hash hq := by
    rw [lastApplied_applied]
    by_cases heq : p = q
    · subst heq
      rw [Function.update_self] at hq
      exact ⟨c, hc, if_pos rfl, Option.some.inj hq⟩
    · rw [Function.update_of_ne (Ne.symm heq)] at hq
      rw [if_neg heq]
      exact h.applied q hash hq
  stands q c' hstand := by
    rw [standing_applied] at hstand
    split_ifs at hstand with heq
    · grind
    · rw [Function.update_of_ne (Ne.symm heq)]
      exact h.stands q c' hstand
  fresh := by
    apply fresh_concat h.fresh
    rintro q c' hrec hstand
    obtain ⟨rfl, rfl⟩ := Record.applied.inj hrec
    exact hne (h.stands _ _ hstand)

theorem Ledger.forget (h : Ledger S state log) (hgone : standing log p = none) :
    Ledger S (Function.update state p none) log where
  applied q hash hq := by
    refine h.applied q hash ?_
    grind
  stands q c hstand := by
    have hne : q ≠ p := by
      rintro rfl
      rw [hgone] at hstand
      cases hstand
    rw [Function.update_of_ne hne]
    exact h.stands q c hstand
  fresh := h.fresh

theorem Ledger.removed (h : Ledger S state log) (r : Option Path) :
    Ledger S state (log ++ (r.map .removed).toList) where
  applied q hash hq := by
    rw [lastApplied_removed]
    exact h.applied q hash hq
  stands q c hstand := by
    rw [standing_removed] at hstand
    split_ifs at hstand
    exact h.stands q c hstand
  fresh := by
    cases r with
    | none => simpa using h.fresh
    | some p => exact fresh_concat h.fresh fun q c' hrec => nomatch hrec

/-! ### Walks -/

variable {t t' : Tree} {d : Path} {todo : List (Path × Bool)}

def Covers (todo : List (Path × Bool)) (p : Path) : Prop := ∃ e ∈ todo, e.1 = p ∨ e.2 = true ∧ e.1 <+: p

theorem Tree.mem_list {e : Path × Bool} : e ∈ t.list d ↔
    (e.1 ≠ [] ∧ e.1.dropLast = d ∧ t.node e.1 ≠ none) ∧ e.2 = decide (t.node e.1 = some .dir) := by
  obtain ⟨p, b⟩ := e
  simp only [Tree.list, List.mem_map, List.mem_filter, decide_eq_true_eq, Prod.mk.injEq]
  constructor
  · grind
  · rintro ⟨hp, hb⟩
    exact ⟨p, ⟨t.mem_paths p hp.2.2, hp⟩, rfl, hb.symm⟩

theorem Tree.dir_of_append {r : Path} (h : t.node (d ++ r) ≠ none) (hr : r ≠ []) :
    t.node d = some .dir := by
  induction r using List.reverseRecOn with
  | nil => exact absurd rfl hr
  | append_singleton r a ih =>
    rw [← List.append_assoc] at h
    have hparent : t.node (d ++ r) = some .dir := t.parent _ a h
    grind

theorem Tree.covers_list (hp : d <+: p) (hne : d ≠ p) (hnode : t.node p ≠ none) : Covers (t.list d) p := by
  obtain ⟨r, rfl⟩ := hp
  cases r with
  | nil => exact absurd (List.append_nil d).symm hne
  | cons a r =>
    have hsplit : d ++ a :: r = d ++ [a] ++ r := by simp
    rw [hsplit] at hnode ⊢
    refine ⟨(d ++ [a], decide (t.node (d ++ [a]) = some .dir)), Tree.mem_list.mpr ⟨⟨by simp, by simp, ?_⟩, rfl⟩, ?_⟩
    · by_cases hr : r = []
      · grind
      · rw [Tree.dir_of_append hnode hr]
        simp
    · by_cases hr : r = []
      · exact .inl (by simp [hr])
      · exact .inr ⟨decide_eq_true (Tree.dir_of_append hnode hr), List.prefix_append _ _⟩

theorem covers_visit (h : Covers ((d, true) :: todo) p) (hne : d ≠ p) (hnode : t.node p ≠ none) :
    Covers (t.list d ++ todo) p := by
  obtain ⟨e, he, hcov⟩ := h
  rcases List.mem_cons.mp he with rfl | he
  · obtain ⟨e, he, hcov⟩ := Tree.covers_list (hcov.resolve_left hne).2 hne hnode
    exact ⟨e, List.mem_append_left _ he, hcov⟩
  · exact ⟨e, List.mem_append_right _ he, hcov⟩

/-! ### Reports -/

variable {notices : List Notice} {watches : List (Path × Path)} {ch : Change}

def opsOf (p : Path) (queue : List Event) : List Op :=
  queue.filterMap fun e => if e.name = p then some e.op else none

def noticesOf (p : Path) (notices : List Notice) : List Op :=
  notices.filterMap fun n => if n.dir ++ [n.name] = p then some n.op else none

def Appears (op : Op) : Prop := op = .create ∨ op = .write

instance : DecidablePred Appears := fun _ => inferInstanceAs (Decidable (_ ∨ _))

structure Reported (ch : Change) (t t' : Tree) (notices : List Notice) : Prop where
  dirs : ∀ p, t'.node p = some .dir ↔ t.node p = some .dir
  gone : ∀ n ∈ notices, ¬ Appears n.op → ch.removed = some (n.dir ++ [n.name])
  files : ∀ p c, t'.node p = some (.file c) →
    noticesOf p notices = [] ∧ t.node p = some (.file c) ∨
      ch.target = some p ∧ noticesOf p notices ≠ [] ∧ ∀ op ∈ noticesOf p notices, Appears op

theorem setFile_eq_some {a : String} {n : Option Content} (h : t.setFile d a n = some t') :
    t'.node = Function.update t.node (d ++ [a]) (n.map .file) ∧ t.node d = some .dir ∧
      t.node (d ++ [a]) ≠ some .dir := by
  unfold Tree.setFile at h
  split_ifs at h with hdir
  exact ⟨Option.some.inj h ▸ rfl, hdir⟩

theorem dir_update {a : String} {n : Option Content} (h : t.node (d ++ [a]) ≠ some .dir) (p : Path) :
    Function.update t.node (d ++ [a]) (n.map Node.file) p = some .dir ↔ t.node p = some .dir := by
  by_cases hp : p = d ++ [a]
  · subst hp
    rw [Function.update_self]
    refine iff_of_false ?_ h
    simp
  · rw [Function.update_of_ne hp]

theorem appears_put {n : Option Node} : Appears (if n = none then .create else .write) := by
  split_ifs
  · exact .inl rfl
  · exact .inr rfl

theorem reported_apply (h : ch.apply t = some (t', notices)) (hfile : ch.ofFile = true) :
    Reported ch t t' notices := by
  cases ch with
  | put d a c =>
    obtain ⟨t₁, hset, heq⟩ := Option.map_eq_some_iff.mp h
    obtain ⟨rfl, rfl⟩ := Prod.mk.inj heq
    obtain ⟨hnode, hdir, hleaf⟩ := setFile_eq_some hset
    refine ⟨fun p => by rw [hnode, dir_update hleaf], fun n hn hgone => ?_, fun p c' hp => ?_⟩
    · obtain rfl := List.mem_singleton.mp hn
      exact absurd appears_put hgone
    · rw [hnode] at hp
      by_cases heq : d ++ [a] = p
      · exact .inr ⟨congrArg some heq, by simp [noticesOf, heq], by simpa [noticesOf, heq] using appears_put⟩
      · rw [Function.update_of_ne (Ne.symm heq)] at hp
        exact .inl ⟨by simp [noticesOf, heq], hp⟩
  | remove d a =>
    simp only [Change.apply] at h
    split_ifs at h
    obtain ⟨t₁, hset, heq⟩ := Option.map_eq_some_iff.mp h
    obtain ⟨rfl, rfl⟩ := Prod.mk.inj heq
    obtain ⟨hnode, hdir, hleaf⟩ := setFile_eq_some hset
    refine ⟨fun p => by rw [hnode, dir_update hleaf], fun n hn _ => ?_, fun p c' hp => ?_⟩
    · rw [List.mem_singleton.mp hn]
      rfl
    · rw [hnode] at hp
      by_cases heq : d ++ [a] = p
      · grind
      · rw [Function.update_of_ne (Ne.symm heq)] at hp
        exact .inl ⟨by simp [noticesOf, heq], hp⟩
  | move d a d' a' =>
    simp only [Change.apply] at h
    split at h
    · next c hc =>
      split_ifs at h with hne
      obtain ⟨t₂, hset, heq⟩ := Option.map_eq_some_iff.mp h
      obtain ⟨rfl, rfl⟩ := Prod.mk.inj heq
      obtain ⟨t₁, hset₁, hset₂⟩ := Option.bind_eq_some_iff.mp hset
      obtain ⟨hnode₁, hdir₁, hleaf₁⟩ := setFile_eq_some hset₁
      obtain ⟨hnode₂, hdir₂, hleaf₂⟩ := setFile_eq_some hset₂
      have hdirs₁ : ∀ p, t₁.node p = some .dir ↔ t.node p = some .dir := fun p => by rw [hnode₁, dir_update hleaf₁]
      refine ⟨fun p => by rw [hnode₂, dir_update hleaf₂, hdirs₁], fun n hn hgone => ?_, fun p c' hp => ?_⟩
      · rcases List.mem_cons.mp hn with rfl | hn
        · rfl
        · rw [List.mem_singleton.mp hn] at hgone
          exact absurd (.inl rfl) hgone
      · rw [hnode₂] at hp
        by_cases heq' : d' ++ [a'] = p
        · have hne' : d ++ [a] ≠ p := fun heq => hne (heq.trans heq'.symm)
          have hcreate : noticesOf p [⟨.rename, d, a⟩, ⟨.create, d', a'⟩] = [.create] := by
            simp [noticesOf, heq', hne']
          exact .inr ⟨congrArg some heq', by simp [hcreate], by simp [hcreate, Appears]⟩
        · rw [Function.update_of_ne (Ne.symm heq'), hnode₁] at hp
          by_cases heq : d ++ [a] = p
          · grind
          · rw [Function.update_of_ne (Ne.symm heq)] at hp
            exact .inl ⟨by simp [noticesOf, heq, heq'], hp⟩
    · exact nomatch h
  | mkdir d a => exact nomatch hfile
  | rmdir d a => exact nomatch hfile
  | moveDir d a d' a' => exact nomatch hfile

def Change.contents : Change → List Content
  | .put _ _ c => [c]
  | _ => []

theorem contents_update {a : String} {n : Option Node} (hn : ∀ c, n = some (.file c) → c ∈ S)
    (ht : ∀ p c, t.node p = some (.file c) → c ∈ S) :
    ∀ p c, Function.update t.node (d ++ [a]) n p = some (.file c) → c ∈ S := by
  grind

theorem contents_setFile {a : String} {n : Option Content} (h : t.setFile d a n = some t')
    (hn : ∀ c ∈ n, c ∈ S) (ht : ∀ p c, t.node p = some (.file c) → c ∈ S) :
    ∀ p c, t'.node p = some (.file c) → c ∈ S := by
  rw [(setFile_eq_some h).1]
  refine contents_update (fun c hc => ?_) ht
  obtain ⟨c', hc', heq⟩ := Option.map_eq_some_iff.mp hc
  grind

theorem contents_apply (h : ch.apply t = some (t', notices)) (hch : ∀ c ∈ ch.contents, c ∈ S)
    (ht : ∀ p c, t.node p = some (.file c) → c ∈ S) : ∀ p c, t'.node p = some (.file c) → c ∈ S := by
  cases ch with
  | put d a c =>
    obtain ⟨t₁, hset, heq⟩ := Option.map_eq_some_iff.mp h
    obtain ⟨rfl, -⟩ := Prod.mk.inj heq
    exact contents_setFile hset (fun c' hc' => hch c' (by simpa [Change.contents] using hc'.symm)) ht
  | remove d a =>
    simp only [Change.apply] at h
    split_ifs at h
    obtain ⟨t₁, hset, heq⟩ := Option.map_eq_some_iff.mp h
    obtain ⟨rfl, -⟩ := Prod.mk.inj heq
    exact contents_setFile hset (fun c hc => nomatch hc) ht
  | move d a d' a' =>
    simp only [Change.apply] at h
    split at h
    · next c hc =>
      split_ifs at h
      obtain ⟨t₂, hset, heq⟩ := Option.map_eq_some_iff.mp h
      obtain ⟨rfl, -⟩ := Prod.mk.inj heq
      obtain ⟨t₁, hset₁, hset₂⟩ := Option.bind_eq_some_iff.mp hset
      refine contents_setFile hset₂ (fun c' hc' => ?_) (contents_setFile hset₁ (fun c hc => nomatch hc) ht)
      grind
    · exact nomatch h
  | mkdir d a =>
    simp only [Change.apply] at h
    split_ifs at h
    obtain ⟨rfl, -⟩ := Prod.mk.inj (Option.some.inj h)
    exact contents_update (fun c hc => nomatch hc) ht
  | rmdir d a =>
    simp only [Change.apply] at h
    split_ifs at h
    obtain ⟨rfl, -⟩ := Prod.mk.inj (Option.some.inj h)
    exact contents_update (fun c hc => nomatch hc) ht
  | moveDir d a d' a' =>
    simp only [Change.apply] at h
    split_ifs at h
    obtain ⟨rfl, -⟩ := Prod.mk.inj (Option.some.inj h)
    intro p c hp
    simp only [Tree.relocate] at hp
    grind

theorem lookup_watches (hown : ∀ e ∈ watches, e.1 = e.2) (d : Path) :
    watches.lookup d = if (d, d) ∈ watches then some d else none := by
  induction watches with
  | nil => rfl
  | cons e watches ih =>
    grind

theorem opsOf_deliver (hown : ∀ e ∈ watches, e.1 = e.2) (notices : List Notice) (a : String) :
    opsOf (d ++ [a]) (deliver watches notices) = if (d, d) ∈ watches then noticesOf (d ++ [a]) notices else [] := by
  induction notices with
  | nil => simp [deliver, opsOf, noticesOf]
  | cons n notices ih =>
    have hcons : deliver watches (n :: notices) = deliver watches [n] ++ deliver watches notices :=
      List.filterMap_append (l := [n])
    have hnotices : noticesOf (d ++ [a]) (n :: notices) = noticesOf (d ++ [a]) [n] ++ noticesOf (d ++ [a]) notices :=
      List.filterMap_append (l := [n])
    rw [hcons, hnotices, opsOf, List.filterMap_append, ← opsOf, ← opsOf, ih]
    by_cases hd : n.dir ++ [n.name] = d ++ [a]
    · obtain ⟨rfl, rfl⟩ := List.append_singleton_inj.mp hd
      by_cases hwatched : (n.dir, n.dir) ∈ watches
      · simp [deliver, opsOf, noticesOf, lookup_watches hown, hwatched]
      · simp [deliver, opsOf, lookup_watches hown, hwatched]
    · have hnone : opsOf (d ++ [a]) (deliver watches [n]) = [] := by
        by_cases hwatched : (n.dir, n.dir) ∈ watches
        · have hone : deliver watches [n] = [⟨n.op, n.dir ++ [n.name]⟩] := by
            simp [deliver, lookup_watches hown, hwatched]
          rw [hone]
          exact List.filterMap_cons_none (if_neg hd)
        · simp [deliver, opsOf, lookup_watches hown, hwatched]
      have hnone' : noticesOf (d ++ [a]) [n] = [] := List.filterMap_cons_none (if_neg hd)
      grind

theorem flags_visit (hflags : ∀ e ∈ todo, e.2 = true ↔ t.node e.1 = some .dir) :
    ∀ e ∈ t.list d ++ todo, e.2 = true ↔ t.node e.1 = some .dir := by
  intro e he
  rcases List.mem_append.mp he with he | he
  · rw [(Tree.mem_list.mp he).2, decide_eq_true_eq]
  · exact hflags e he

theorem covers_skip (h : Covers ((q, false) :: todo) p) (hne : q ≠ p) : Covers todo p := by
  obtain ⟨e, he, hcov⟩ := h
  rcases List.mem_cons.mp he with rfl | he
  · grind
  · exact ⟨e, he, hcov⟩

/-! ### What a watcher keeps -/

variable {w : World} {x : Watcher}

def Phase.left : Phase → List (Path × Bool)
  | .adding todo | .syncing todo => todo
  | .watching => []

def Phase.isAdding : Phase → Bool
  | .adding _ => true
  | _ => false

structure Kept (t : Tree) (saved : Path → Option String) (log : List Record) (x : Watcher) : Prop where
  idle : x.phase.isAdding = true → x.saving = false
  state : x.phase.isAdding = false → x.saving = false → x.state = saved
  own : ∀ e ∈ x.watches, e.1 = e.2
  flags : ∀ e ∈ x.phase.left, e.2 = true ↔ t.node e.1 = some .dir
  events : ∀ e ∈ x.queue, ∃ d a, e.name = d ++ [a] ∧ (d, d) ∈ x.watches
  registered : ∀ d, t.node d = some .dir → (d, d) ∈ x.watches ∨ x.phase.isAdding = true ∧ Covers x.phase.left d
  pending : ∀ e ∈ x.queue, ∀ c, t.node e.name = some (.file c) → Appears e.op
  gone : ∀ e ∈ x.queue, ¬ Appears e.op → standing log e.name = none
  settled : x.phase.isAdding = false → ∀ p c, isYAML p = true → t.node p = some (.file c) →
    opsOf p x.queue = [] → x.state p = some (hashContent c) ∨ Covers x.phase.left p

/-- The state that counts: in memory once it is loaded, and else in the file. -/
def World.current (w : World) : Path → Option String :=
  match w.watcher with
  | none => w.saved
  | some x => if x.phase.isAdding then w.saved else x.state

structure World.Good (S : Set Content) (w : World) : Prop where
  plain : w.dot = false
  contents : ∀ p c, w.tree.node p = some (.file c) → c ∈ S
  ledger : Ledger S w.current w.log
  kept : ∀ x, w.watcher = some x → Kept w.tree w.saved w.log x

/-- Only the watcher and the log have to be looked at when nothing else changes. -/
theorem World.Good.replace (h : w.Good S)
    (hledger : Ledger S (World.current { w with watcher := some x, log := log }) log)
    (hkept : Kept w.tree w.saved log x) : World.Good S { w with watcher := some x, log := log } :=
  ⟨h.plain, h.contents, hledger, fun _ hx => Option.some.inj hx ▸ hkept⟩

theorem kept_start (t : Tree) (saved : Path → Option String) (log : List Record) : Kept t saved log {} where
  idle _ := rfl
  state h := nomatch h
  own e he := nomatch he
  flags e he := by
    obtain rfl := List.mem_singleton.mp he
    exact iff_of_true rfl t.root
  events e he := nomatch he
  registered d _ := .inr ⟨rfl, _, List.mem_singleton_self _, .inr ⟨rfl, List.nil_prefix⟩⟩
  pending e he := nomatch he
  gone e he := nomatch he
  settled h := nomatch h

theorem Tree.file_in (h : t.node p = some (.file c)) : ∃ d a, p = d ++ [a] ∧ t.node d = some .dir := by
  rcases List.eq_nil_or_concat p with rfl | ⟨d, a, rfl⟩
  · rw [t.root] at h
    exact nomatch h
  · rw [List.concat_eq_append] at h
    exact ⟨d, a, List.concat_eq_append, t.parent d a (by rw [h]; simp)⟩

theorem mem_deliver {e : Event} (hown : ∀ e ∈ watches, e.1 = e.2) (h : e ∈ deliver watches notices) :
    ∃ n ∈ notices, e = ⟨n.op, n.dir ++ [n.name]⟩ ∧ (n.dir, n.dir) ∈ watches := by
  obtain ⟨n, hn, hname⟩ := List.mem_filterMap.mp h
  obtain ⟨name, hlookup, rfl⟩ := Option.map_eq_some_iff.mp hname
  rw [lookup_watches hown] at hlookup
  split_ifs at hlookup with hwatched
  exact ⟨n, hn, by rw [Option.some.inj hlookup], hwatched⟩

theorem opsOf_append (p : Path) (l m : List Event) : opsOf p (l ++ m) = opsOf p l ++ opsOf p m :=
  List.filterMap_append

namespace Kept

variable (h : Kept t saved log x)
include h

theorem watched (hadd : x.phase.isAdding = false) (hd : t.node d = some .dir) : (d, d) ∈ x.watches := by
  refine (h.registered d hd).resolve_right fun hcov => ?_
  grind

theorem change (hrep : Reported ch t t' notices)
    (hcalm : ∀ e ∈ x.queue, ch.target = some e.name → Appears e.op) :
    Kept t' saved (log ++ (ch.removed.map .removed).toList)
      { x with queue := x.queue ++ deliver x.watches notices } where
  idle := h.idle
  state := h.state
  own := h.own
  flags e he := (h.flags e he).trans (hrep.dirs e.1).symm
  events e he := by
    rcases List.mem_append.mp he with he | he
    · exact h.events e he
    · obtain ⟨n, -, hname, hwatched⟩ := mem_deliver h.own he
      exact ⟨n.dir, n.name, congrArg Event.name hname, hwatched⟩
  registered d hd := h.registered d ((hrep.dirs d).mp hd)
  pending e he c hp := by
    rcases hrep.files e.name c hp with ⟨hnone, hold⟩ | ⟨htarget, -, happears⟩
    · rcases List.mem_append.mp he with he | he
      · exact h.pending e he c hold
      · obtain ⟨n, hn, rfl, -⟩ := mem_deliver h.own he
        have := List.filterMap_eq_nil_iff.mp hnone n hn
        simp at this
    · rcases List.mem_append.mp he with he | he
      · exact hcalm e he htarget
      · obtain ⟨n, hn, rfl, -⟩ := mem_deliver h.own he
        exact happears _ (List.mem_filterMap.mpr ⟨n, hn, if_pos rfl⟩)
  gone e he hgone := by
    rw [standing_removed]
    rcases List.mem_append.mp he with he | he
    · rw [h.gone e he hgone, ite_self]
    · obtain ⟨n, hn, rfl, -⟩ := mem_deliver h.own he
      rw [if_pos (hrep.gone n hn hgone)]
  settled hadd p c hyaml hp hops := by
    obtain ⟨d, a, rfl, hdir⟩ := Tree.file_in hp
    rw [opsOf_append, opsOf_deliver h.own, if_pos (h.watched hadd ((hrep.dirs d).mp hdir)),
      List.append_eq_nil_iff] at hops
    rcases hrep.files _ c hp with ⟨-, hold⟩ | ⟨-, hne, -⟩
    · exact h.settled hadd _ c hyaml hold hops.1
    · exact absurd hops.2 hne

theorem pass (hphase : x.phase = .adding ((q, false) :: todo)) :
    Kept t saved log { x with phase := .adding todo } := by
  have hflags := h.flags
  have hreg := h.registered
  rw [hphase] at hflags hreg
  refine ⟨fun _ => h.idle (by rw [hphase]; rfl), fun hadd => (nomatch hadd), h.own,
    fun e he => hflags e (List.mem_cons_of_mem _ he), h.events, fun d hd => ?_, h.pending, h.gone,
    fun hadd => (nomatch hadd)⟩
  refine (hreg d hd).imp_right fun hcov => ⟨rfl, covers_skip hcov.2 ?_⟩
  rintro rfl
  exact nomatch (hflags _ List.mem_cons_self).mpr hd

theorem add (hphase : x.phase = .adding ((q, true) :: todo)) :
    Kept t saved log { x with watches := (q, q) :: x.watches, phase := .adding (t.list q ++ todo) } := by
  have hflags := h.flags
  have hreg := h.registered
  rw [hphase] at hflags hreg
  refine ⟨fun _ => h.idle (by rw [hphase]; rfl), fun hadd => (nomatch hadd), List.forall_mem_cons.mpr ⟨rfl, h.own⟩,
    flags_visit fun e he => hflags e (List.mem_cons_of_mem _ he), fun e he => ?_, fun d hd => ?_, h.pending, h.gone,
    fun hadd => (nomatch hadd)⟩
  · obtain ⟨d, a, hname, hwatched⟩ := h.events e he
    exact ⟨d, a, hname, List.mem_cons_of_mem _ hwatched⟩
  · by_cases heq : q = d
    · grind
    · refine (hreg d hd).imp (List.mem_cons_of_mem _) fun hcov => ⟨rfl, covers_visit hcov.2 heq ?_⟩
      rw [hd]
      simp

theorem load (hphase : x.phase = .adding []) :
    Kept t saved log { x with state := saved, phase := .syncing [([], true)] } where
  idle h := nomatch h
  state _ _ := rfl
  own := h.own
  flags e he := by
    obtain rfl := List.mem_singleton.mp he
    exact iff_of_true rfl t.root
  events := h.events
  registered d hd := by
    refine .inl ((h.registered d hd).resolve_right ?_)
    rintro ⟨-, e, he, -⟩
    rw [hphase] at he
    exact nomatch he
  pending := h.pending
  gone := h.gone
  settled _ p c _ _ _ := .inr ⟨_, List.mem_singleton_self _, .inr ⟨rfl, List.nil_prefix⟩⟩

/-- A loaded watcher goes on: it has handled some events, and its state and the log have changed for files that are
    there, or that are gone. -/
theorem next (hadd : x.phase.isAdding = false) {saved' state' : Path → Option String} {log' : List Record}
    {queue : List Event} {phase : Phase} {saving : Bool} (hphase : phase.isAdding = false)
    (hstate : saving = false → state' = saved')
    (hflags : ∀ e ∈ phase.left, e.2 = true ↔ t.node e.1 = some .dir) (hqueue : ∀ e ∈ queue, e ∈ x.queue)
    (hlog : ∀ p, standing log' p = standing log p ∨ ∃ c, t.node p = some (.file c))
    (hsettled : ∀ p c, isYAML p = true → t.node p = some (.file c) → opsOf p queue = [] →
      state' p = some (hashContent c) ∨ Covers phase.left p) :
    Kept t saved' log' ⟨state', x.watches, queue, phase, saving⟩ where
  idle hcontra := absurd (hphase.symm.trans hcontra) (by simp)
  state _ := hstate
  own := h.own
  flags := hflags
  events e he := h.events e (hqueue e he)
  registered _ hd := .inl (h.watched hadd hd)
  pending e he := h.pending e (hqueue e he)
  gone e he hgone := by
    rcases hlog e.name with hsame | ⟨c, hc⟩
    · rw [hsame]
      exact h.gone e (hqueue e he) hgone
    · exact absurd (h.pending e (hqueue e he) c hc) hgone
  settled _ := hsettled

end Kept

theorem opsOf_cons (e : Event) (queue : List Event) (p : Path) :
    opsOf p (e :: queue) = if e.name = p then e.op :: opsOf p queue else opsOf p queue := by
  unfold opsOf
  grind

theorem applyFile_spec (hplain : w.dot = false) (hcontents : ∀ p c, w.tree.node p = some (.file c) → c ∈ S)
    (hledger : Ledger S x.state w.log) (p : Path) :
    ∃ state saving log, w.applyFile x p =
        { w with watcher := some { x with state := state, saving := saving }, log := log } ∧
      Ledger S state log ∧ (saving = false → state = x.state) ∧
      (∀ c, w.tree.node p = some (.file c) → state p = some (hashContent c)) ∧
      (∀ q, q ≠ p → state q = x.state q) ∧
      ∀ q, standing log q = standing w.log q ∨ ∃ c, w.tree.node q = some (.file c) := by
  have hname : w.resolve p = p := by simp [World.resolve, hplain]
  unfold World.applyFile
  rw [hname]
  split
  · next c hc =>
    have hself : ∀ c', w.tree.node p = some (.file c') → c' = c := fun c' hc' => by grind
    split_ifs with hsame
    · exact ⟨x.state, x.saving, w.log, rfl, hledger, fun _ => rfl, fun c' hc' => hself c' hc' ▸ hsame, fun _ _ => rfl,
        fun _ => .inl rfl⟩
    · refine ⟨_, true, _, rfl, hledger.apply (hcontents p c hc) hsame, nofun, fun c' hc' => ?_, fun q hq => ?_,
        fun q => ?_⟩
      · rw [Function.update_self, hself c' hc']
      · rw [Function.update_of_ne hq]
      · rw [standing_applied]
        by_cases heq : p = q
        · exact .inr ⟨c, heq ▸ hc⟩
        · exact .inl (if_neg heq)
  · next hnone =>
    exact ⟨x.state, x.saving, w.log, rfl, hledger, fun _ => rfl, fun c hc => absurd hc (hnone c), fun _ _ => rfl,
      fun _ => .inl rfl⟩

theorem current_of_loaded (hx : w.watcher = some x) (hadd : x.phase.isAdding = false) :
    w.current = x.state := by
  simp [World.current, hx, hadd]

theorem current_of_idle (h : w.Good S) (hidle : ∀ x, w.watcher = some x → x.saving = false) :
    w.current = w.saved := by
  unfold World.current
  split
  · rfl
  · next x hx =>
    split_ifs with hadd
    · rfl
    · exact (h.kept x hx).state (Bool.eq_false_iff.mpr hadd) (hidle x hx)

theorem good_advance (h : w.Good S) {act : World → Watcher → World}
    (hact : ∀ x, w.watcher = some x → x.saving = false → (act w x).Good S) : (w.advance act).Good S := by
  unfold World.advance
  split
  · exact h
  · next x hx =>
    have hkept := h.kept x hx
    split_ifs with hsaving
    · have hadd : x.phase.isAdding = false := by
        by_contra hadd
        rw [hkept.idle (by simpa using hadd)] at hsaving
        cases hsaving
      refine ⟨h.plain, h.contents, ?_, fun x' hx' => Option.some.inj hx' ▸ ?_⟩
      · have hcurrent : (w.saveState x).current = w.current := by
          simp [World.current, World.saveState, hx, hadd]
        rw [hcurrent]
        exact h.ledger
      · exact hkept.next hadd hadd (fun _ => rfl) hkept.flags (fun e he => he) (fun p => .inl rfl) (hkept.settled hadd)
    · exact hact x hx (Bool.eq_false_iff.mpr hsaving)

theorem good_sync_file (h : w.Good S) (hx : w.watcher = some x) (hidle : x.saving = false)
    (hphase : x.phase = .syncing ((p, false) :: todo)) :
    (if isYAML p then w.applyFile { x with phase := .syncing todo } p
      else { w with watcher := some { x with phase := .syncing todo } }).Good S := by
  have hkept := h.kept x hx
  have hadd : x.phase.isAdding = false := by rw [hphase]; rfl
  have hledger := current_of_loaded hx hadd ▸ h.ledger
  have hsettled := hkept.settled hadd
  have hflags := hkept.flags
  rw [hphase] at hsettled hflags
  have hrest : ∀ e ∈ todo, e.2 = true ↔ w.tree.node e.1 = some .dir := fun e he => hflags e (List.mem_cons_of_mem _ he)
  split_ifs with hyaml
  · obtain ⟨state, saving, log, hw, hledger', hsaved, hself, hother, hlog⟩ :=
      @applyFile_spec S w { x with phase := .syncing todo } h.plain h.contents hledger p
    rw [hw]
    refine h.replace hledger' ?_
    refine hkept.next hadd rfl (fun hs => (hsaved hs).trans (hkept.state hadd hidle)) hrest (fun e he => he) hlog
      fun q c hq hnode hops => ?_
    by_cases heq : p = q
    · exact .inl (heq ▸ hself c (heq ▸ hnode))
    · rw [hother q (Ne.symm heq)]
      exact (hsettled q c hq hnode hops).imp_right fun hcov => covers_skip hcov heq
  · refine h.replace hledger ?_
    refine hkept.next hadd rfl (hkept.state hadd) hrest (fun e he => he) (fun q => .inl rfl) fun q c hq hnode hops => ?_
    refine (hsettled q c hq hnode hops).imp_right fun hcov => covers_skip hcov ?_
    rintro rfl
    exact hyaml hq

theorem good_gone (h : w.Good S) (hidle : ∀ x, w.watcher = some x → x.saving = false) :
    ({ w with watcher := none } : World).Good S :=
  ⟨h.plain, h.contents, current_of_idle h hidle ▸ h.ledger, fun _ hx => nomatch hx⟩

theorem good_walk (h : w.Good S) (hx : w.watcher = some x) (hidle : x.saving = false) :
    (w.walk x).Good S := by
  have hkept := h.kept x hx
  have hnone : ∀ x', w.watcher = some x' → x'.saving = false := fun x' hx' => by grind
  have hsaved := current_of_idle h hnone ▸ h.ledger
  unfold World.walk
  split
  · next hphase => exact h.replace hsaved (hkept.load hphase)
  · next p isDir todo hphase =>
    cases isDir with
    | false => exact h.replace hsaved (hkept.pass hphase)
    | true =>
      have hname : w.watchName p = p := by simp [World.watchName, h.plain]
      simp only [Bool.not_true, Bool.false_eq_true, if_false, hname]
      split_ifs
      · exact h.replace hsaved (hkept.add hphase)
      · exact good_gone h hnone
  · next hphase =>
    have hadd : x.phase.isAdding = false := by rw [hphase]; rfl
    have hsettled := hkept.settled hadd
    rw [hphase] at hsettled
    refine ⟨h.plain, h.contents, current_of_loaded hx hadd ▸ h.ledger, fun x' hx' => Option.some.inj hx' ▸ ?_⟩
    exact hkept.next hadd rfl (fun _ => rfl) (fun e he => nomatch he) (fun e he => he) (fun p => .inl rfl) hsettled
  · next p isDir todo hphase =>
    cases isDir with
    | false => exact good_sync_file h hx hidle hphase
    | true =>
      have hadd : x.phase.isAdding = false := by rw [hphase]; rfl
      have hsettled := hkept.settled hadd
      have hflags := hkept.flags
      rw [hphase] at hsettled hflags
      rw [if_pos rfl]
      split_ifs with hdir
      · refine h.replace (current_of_loaded hx hadd ▸ h.ledger) ?_
        refine hkept.next hadd rfl (hkept.state hadd)
          (flags_visit fun e he => hflags e (List.mem_cons_of_mem _ he)) (fun e he => he) (fun q => .inl rfl)
          fun q c hq hnode hops => ?_
        refine (hsettled q c hq hnode hops).imp_right fun hcov => covers_visit hcov ?_ (by rw [hnode]; simp)
        grind
      · exact good_gone h hnone
  · exact h

theorem good_handle (h : w.Good S) (hx : w.watcher = some x) (hidle : x.saving = false) :
    (w.handle x).Good S := by
  have hkept := h.kept x hx
  unfold World.handle
  split
  · next e queue hphase hqueue =>
    have hadd : x.phase.isAdding = false := by rw [hphase]; rfl
    have hledger := current_of_loaded hx hadd ▸ h.ledger
    have hsettled := hkept.settled hadd
    rw [hphase, hqueue] at hsettled
    have hstays : ∀ p c, isYAML p = true → w.tree.node p = some (.file c) → e.name ≠ p → opsOf p queue = [] →
        x.state p = some (hashContent c) := by
      intro p c hyaml hnode hne hops
      refine (hsettled p c hyaml hnode ?_).resolve_right fun ⟨e, he, _⟩ => nomatch he
      rw [opsOf_cons, if_neg hne, hops]
    have hsub : ∀ e' ∈ queue, e' ∈ x.queue := fun e' he' => hqueue ▸ List.mem_cons_of_mem _ he'
    have hloaded : ∀ (state : Path → Option String) (saving : Bool) (log : List Record),
        ({ w with watcher := some ⟨state, x.watches, queue, x.phase, saving⟩, log := log } : World).current = state :=
      fun _ _ _ => if_neg (by simp [hadd])
    dsimp only
    split_ifs with hyaml hop
    · refine h.replace ((hloaded ..).symm ▸ hledger) ?_
      refine hkept.next hadd hadd (hkept.state hadd) hkept.flags hsub (fun p => .inl rfl)
        fun p c hp hnode hops => .inl (hstays p c hp hnode ?_ hops)
      rintro rfl
      simp [hp] at hyaml
    · obtain ⟨state, saving, log, hw, hledger', hsaved, hself, hother, hlog⟩ :=
        @applyFile_spec S w { x with queue := queue } h.plain h.contents hledger e.name
      rw [hw]
      refine h.replace ((hloaded ..).symm ▸ hledger') ?_
      refine hkept.next hadd hadd (fun hs => (hsaved hs).trans (hkept.state hadd hidle)) hkept.flags hsub hlog
        fun p c hp hnode hops => .inl ?_
      by_cases heq : e.name = p
      · exact heq ▸ hself c (heq ▸ hnode)
      · rw [hother p (Ne.symm heq)]
        exact hstays p c hp hnode heq hops
    · have hmem : e ∈ x.queue := hqueue ▸ List.mem_cons_self
      refine h.replace ((hloaded ..).symm ▸ hledger.forget (hkept.gone e hmem hop)) ?_
      refine hkept.next hadd hadd nofun hkept.flags hsub (fun p => .inl rfl) fun p c hp hnode hops => .inl ?_
      -- a file that is there was not removed
      have hne : e.name ≠ p := by
        rintro rfl
        exact hop (hkept.pending e hmem c hnode)
      rw [Function.update_of_ne (Ne.symm hne)]
      exact hstays p c hp hnode hne hops
  · exact h

/-! ### Whole histories -/

/-- The conditions on what happens: no directory changes while a watcher runs, no file comes back while its removal is
    still to be handled, and the watcher is not killed between an apply and the writing of its state. -/
def Calm (w : World) : Move → Prop
  | .change ch => (ch.ofFile = false → w.watcher = none) ∧
      ∀ x ∈ w.watcher, ∀ e ∈ x.queue, ch.target = some e.name → Appears e.op
  | .kill => ∀ x ∈ w.watcher, x.saving = false
  | _ => True

instance (w : World) (m : Move) : Decidable (Calm w m) := by
  unfold Calm
  split <;> infer_instance

def Move.contents : Move → List Content
  | .change ch => ch.contents
  | _ => []

theorem good_change (h : w.Good S) (hS : ∀ c ∈ ch.contents, c ∈ S)
    (hcalm : Calm w (.change ch)) :
    (w.step (.change ch)).Good S := by
  simp only [World.step]
  split
  · exact h
  · next tree notices happly =>
    refine ⟨h.plain, contents_apply happly hS h.contents, ?_, fun x' hx' => ?_⟩
    · have hcurrent := h.ledger.removed ch.removed
      unfold World.current at hcurrent ⊢
      cases hx : w.watcher with
      | none => simpa [hx] using hcurrent
      | some x => simpa [hx] using hcurrent
    · obtain ⟨x, hx, rfl⟩ := Option.map_eq_some_iff.mp hx'
      have hfile : ch.ofFile = true := by
        by_contra hdir
        rw [hcalm.1 (Bool.eq_false_iff.mpr hdir)] at hx
        exact nomatch hx
      have hwatches : ch.rewatch x.watches = x.watches := by
        cases ch <;> first | rfl | exact nomatch hfile
      rw [hwatches]
      exact (h.kept x hx).change (reported_apply happly hfile) (hcalm.2 x hx)

theorem good_step (w : World) (m : Move) (h : w.Good S) (hcalm : (∀ c ∈ m.contents, c ∈ S) ∧ Calm w m) :
    (w.step m).Good S := by
  cases m with
  | change ch => exact good_change h hcalm.1 hcalm.2
  | start =>
    unfold World.step
    dsimp only
    split_ifs with hnone
    · have hcurrent : w.current = w.saved := by simp [World.current, Option.isNone_iff_eq_none.mp hnone]
      exact ⟨h.plain, h.contents, hcurrent ▸ h.ledger, fun x hx => Option.some.inj hx ▸ kept_start _ _ _⟩
    · exact h
  | walk => exact good_advance h fun x hx hidle => good_walk h hx hidle
  | handle => exact good_advance h fun x hx hidle => good_handle h hx hidle
  | stop =>
    unfold World.step
    refine good_advance h fun x hx _ => ?_
    split_ifs with hphase
    · have hadd : x.phase.isAdding = false := by rw [hphase]; rfl
      exact ⟨h.plain, h.contents, current_of_loaded hx hadd ▸ h.ledger, fun x hx => nomatch hx⟩
    · exact h
  | kill => exact good_gone h hcalm.2

theorem good_init (ht : ∀ p c, t.node p = some (.file c) → c ∈ S) : World.Good S { tree := t } where
  plain := rfl
  contents := ht
  ledger := ⟨fun p hash h => (nomatch h), fun p c h => (nomatch h), fun l p c h => absurd (List.prefix_nil.mp h) (by simp)⟩
  kept x hx := nomatch hx

def startup : List Move := [.start, .walk, .walk, .walk, .walk]

/-- A file is applied and saved, rewritten while no watcher runs, and found by the next one. -/
def rewritten : List Move :=
  startup ++ [.change (.put [] "a.yaml" [1]), .handle, .handle, .stop, .change (.put [] "a.yaml" [2])] ++
    startup ++ [.walk, .walk, .walk]

def World.settled (w : World) : Bool := w.watcher.any fun x => x.phase = .watching && x.queue.isEmpty

theorem dot_skips_rewrite :
    let w := run World.step { tree := .empty, dot := true }
      (rewritten ++ [.change (.put [] "a.yaml" [1]), .handle])
    w.settled = true ∧ w.tree.node ["a.yaml"] = some (.file [1]) ∧ lastApplied w.log ["a.yaml"] = some [2] := by
  decide +kernel

theorem kill_reapplies :
    (run World.step { tree := .empty }
      (startup ++ [.change (.put [] "a.yaml" [1]), .handle, .kill] ++ startup ++ [.walk])).log =
        [.applied ["a.yaml"] [1], .applied ["a.yaml"] [1]] := by
  decide +kernel

theorem late_removal_reapplies :
    (run World.step { tree := .empty } (startup ++ [.change (.put [] "a.yaml" [1]), .change (.remove [] "a.yaml"),
      .change (.put [] "a.yaml" [1]), .handle, .handle, .handle, .handle, .handle])).log =
        [.removed ["a.yaml"], .applied ["a.yaml"] [1], .applied ["a.yaml"] [1]] := by
  decide +kernel

end Zynax.Cli.Gitops
