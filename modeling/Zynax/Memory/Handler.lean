import Zynax.Concurrency.Writes
import Zynax.Golang.Grpc
import Zynax.Golang.Utf8
import Zynax.Memory.Isolation

namespace Zynax.Memory

open Golang Grpc

/-!
# The calls of the memory service

`Handler` checks the workflow id of a call and turns the call into commands on the stores.

* `Handler.listKeys` — a listing by prefix, which hands the prefix to `SCAN` as a pattern.
-/

/-! ### Checks -/

inductive AccessError where
  | emptyNamespace | crossNamespaceAccess
  deriving DecidableEq, Repr

/-- A workflow reaches its own namespace only. -/
def validateAccess (requestNamespace resourceNamespace : Bytes) : Option AccessError :=
  if requestNamespace = [] ∨ resourceNamespace = [] then some .emptyNamespace
  else if requestNamespace ≠ resourceNamespace then some .crossNamespaceAccess
  else none

def requireNamespace (workflowID : Bytes) : Option Status :=
  (validateAccess workflowID workflowID).map fun err =>
    match err with
    | .emptyNamespace => ⟨.invalidArgument, ⟨"workflow_id must not be empty", []⟩⟩
    | .crossNamespaceAccess => ⟨.permissionDenied, ⟨"cross-namespace access denied", []⟩⟩

def contextStatus : ContextError → Status
  | .canceled => ⟨.canceled, .text ContextError.canceled.text⟩
  | .deadlineExceeded => ⟨.deadlineExceeded, .text ContextError.deadlineExceeded.text⟩

def guardCall (ctx : Option ContextError) (workflowID : Bytes) : Option Status :=
  match ctx with
  | some err => some (contextStatus err)
  | none => requireNamespace workflowID

theorem requireNamespace_eq_none {workflowID : Bytes} :
    requireNamespace workflowID = none ↔ workflowID ≠ [] := by
  by_cases h : workflowID = [] <;> simp [requireNamespace, validateAccess, h]

/-! ### Listing keys -/

def Handler.listKeys (ctx : Option ContextError) (r : Scanner) (store : Store)
    (workflowID pre : Bytes) : Except Status (List Bytes) :=
  match guardCall ctx workflowID with
  | some st => .error st
  | none =>
    -- the prefix is taken for a pattern
    let pattern := if pre = [] then [42] else pre
    .ok (Memory.listKeys r store workflowID pattern)

def ScansPrefix (r : Scanner) (store : Store) (workflowID pre : Bytes) : Prop :=
  ∃ keys, Handler.listKeys none r store workflowID pre = .ok keys ∧
    ∀ k, k ∈ keys ↔ kvKey workflowID k ∈ store ∧ pre <+: k

theorem Handler.listKeys_ok {workflowID : Bytes} (hid : workflowID ≠ []) (r : Scanner) (store : Store)
    (pre : Bytes) : Handler.listKeys none r store workflowID pre =
      .ok (Memory.listKeys r store workflowID (if pre = [] then [42] else pre)) := by
  rw [Handler.listKeys, guardCall, requireNamespace_eq_none.mpr hid]

theorem scansPrefix_plain_iff {r : Scanner} {store : Store} {workflowID pre : Bytes}
    (hid : workflowID ≠ []) (hplain : Plain workflowID) :
    ScansPrefix r store workflowID pre ↔ ∀ k, kvKey workflowID k ∈ store →
      (globMatch (if pre = [] then [42] else pre) k = true ↔ pre <+: k) := by
  rw [ScansPrefix, Handler.listKeys_ok hid]
  simp only [Except.ok.injEq, exists_eq_left', mem_listKeys hplain]
  simp

theorem mem_listKeys_singleton {r : Scanner} {key value ns pattern k : Bytes} :
    k ∈ Memory.listKeys r (AList.singleton key value) ns pattern ↔
      globMatch (kvKeyPrefix ns ++ pattern) key = true ∧ trimPrefix key (kvKeyPrefix ns) = k := by
  have hbatch := r.mem_batches (AList.singleton key value) (kvKeyPrefix ns ++ pattern)
  simp only [Memory.listKeys, List.mem_flatMap, List.mem_map]
  constructor
  · rintro ⟨b, hb, key', hkey', rfl⟩
    obtain ⟨hmem, hmatch⟩ := (hbatch key').mp ⟨b, hb, hkey'⟩
    obtain rfl : key' = key := by simpa [AList.mem_keys] using hmem
    exact ⟨hmatch, rfl⟩
  · rintro ⟨hmatch, rfl⟩
    obtain ⟨b, hb, hkey⟩ := (hbatch key).mpr ⟨by simp [AList.mem_keys], hmatch⟩
    grind

theorem globMatch_iff_of_scansPrefix {r : Scanner} {workflowID pre : Bytes} (hid : workflowID ≠ [])
    (h : ∀ store, ScansPrefix r store workflowID pre) (key : Bytes) :
    globMatch (kvKeyPrefix workflowID ++ if pre = [] then [42] else pre) key = true ↔
      kvKeyPrefix workflowID ++ pre <+: key := by
  obtain ⟨keys, hkeys, hexact⟩ := h (AList.singleton key [])
  rw [Handler.listKeys_ok hid, Except.ok.injEq] at hkeys
  have hstore : ∀ k, kvKey workflowID k ∈ (AList.singleton key [] : Store) ↔ kvKey workflowID k = key := by
    intro k
    simp [AList.mem_keys]
  have hmem : ∀ k, (globMatch (kvKeyPrefix workflowID ++ if pre = [] then [42] else pre) key = true ∧
      trimPrefix key (kvKeyPrefix workflowID) = k) ↔ kvKey workflowID k = key ∧ pre <+: k := by
    intro k
    rw [← @mem_listKeys_singleton r key [], hkeys, hexact, hstore]
  constructor
  · intro hmatch
    obtain ⟨hkey, rest, hrest⟩ := (hmem _).mp ⟨hmatch, rfl⟩
    rw [← hkey, kvKey_eq, ← hrest]
    simp
  · rintro ⟨rest, rfl⟩
    refine ((hmem (pre ++ rest)).mpr ⟨?_, List.prefix_append _ _⟩).1
    rw [kvKey_eq, List.append_assoc]

/-- **A listing scans by prefix exactly for the empty prefix under a plain id.**  Whatever is stored,
    it returns the keys of the workflow that begin with the prefix, if and only if the prefix is empty
    and the id is not and has none of the characters `*`, `?`, `[` and backslash. -/
theorem scansPrefix_iff (r : Scanner) (workflowID pre : Bytes) :
    (∀ store, ScansPrefix r store workflowID pre) ↔
      workflowID ≠ [] ∧ pre = [] ∧ Plain workflowID := by
  constructor
  · intro h
    -- without a workflow the call is refused
    have hid : workflowID ≠ [] := by
      rintro rfl
      obtain ⟨keys, hkeys, -⟩ := h ∅
      cases hkeys
    have hmatch := globMatch_iff_of_scansPrefix hid h
    have hlen := length_lt_of_matches_prefix hmatch
    -- a prefix without a star after it is no longer than the pattern made of it
    have hpre : pre = [] := by
      grind
    subst hpre
    refine ⟨hid, rfl, plain_of_matches_prefix (b := 58) fun s => ?_⟩
    have hs := hmatch s
    rw [if_pos rfl, List.append_nil] at hs
    rw [kvKeyPrefix, List.append_assoc] at hs
    exact hs
  · rintro ⟨hid, rfl, hplain⟩ store
    rw [scansPrefix_plain_iff hid hplain]
    intro k _
    rw [if_pos rfl]
    exact iff_of_true (globMatch_star k) List.nil_prefix

def documents : Store :=
  set (set (set ∅ (ascii "w") (ascii "doc:1") [1]) (ascii "w") (ascii "doc:2") [2]) (ascii "w")
    (ascii "ab") [3]

/-- **A prefix finds nothing, or other keys.**  Two documents begin with `doc:`, and none is listed;
    the key `ab` does not begin with `a?`, and is. -/
theorem documents_not_listed :
    ¬ScansPrefix oneBatch documents (ascii "w") (ascii "doc:") ∧
      ¬ScansPrefix oneBatch documents (ascii "w") (ascii "a?") := by
  have hlist : ∀ pre, Handler.listKeys none oneBatch documents (ascii "w") pre =
      .ok (Memory.listKeys oneBatch documents (ascii "w") (if pre = [] then [42] else pre)) :=
    Handler.listKeys_ok (by decide) oneBatch documents
  constructor
  · rintro ⟨keys, hkeys, hexact⟩
    have hdoc := (hexact (ascii "doc:1")).mpr (by decide +kernel)
    rw [hlist, Except.ok.injEq] at hkeys
    rw [← hkeys] at hdoc
    revert hdoc
    decide +kernel
  · rintro ⟨keys, hkeys, hexact⟩
    rw [hlist, Except.ok.injEq] at hkeys
    have hab : ascii "ab" ∈ keys := by
      rw [← hkeys]
      decide +kernel
    have hpre := ((hexact _).mp hab).2
    revert hpre
    decide +kernel

/-! ### Storing several entries -/

structure Record where
  value : Bytes
  expiresAt : Option Nat
  deriving DecidableEq

abbrev Database : Type := AList (fun _ : Bytes => Record)

structure Entry where
  key : Bytes
  value : Bytes
  ttlSeconds : Int32 := 0
  deriving DecidableEq

def Entry.record (e : Entry) (now : Nat) : Record :=
  ⟨e.value, if 0 < e.ttlSeconds.toInt then some (now + 1000 * e.ttlSeconds.toInt.toNat) else none⟩

inductive WriteOutcome where
  | confirmed
  | lost (err : String)
  | unconfirmed (err : String)
  deriving DecidableEq

structure Attempt where
  entry : Entry
  now : Nat
  outcome : WriteOutcome
  deriving DecidableEq

def Attempt.record (a : Attempt) : Record := a.entry.record a.now

def Database.set (db : Database) (ns : Bytes) (a : Attempt) : Database :=
  AList.insert (kvKey ns a.entry.key) a.record db

structure MSetRun where
  first : Database
  later : List Database := []
  answer : Except Status Nat

def MSetRun.seen (run : MSetRun) : List Database := run.first :: run.later

def MSetRun.final (run : MSetRun) : Database := run.later.getLastD run.first

def MSetRun.Succeeds (run : MSetRun) : Prop := ∃ n, run.answer = .ok n

def msetError (e : Entry) (err : String) : Status :=
  ⟨.internal, ⟨"mset entry %q: memory-service: redis set: %v", [.str (Utf8.text e.key), .str err]⟩⟩

def msetLoop (ns : Bytes) (count : Nat) : Database → List Attempt → MSetRun
  | db, [] => { first := db, answer := .ok count }
  | db, a :: rest =>
    match a.outcome with
    -- what was written for the entries before stays
    | .lost err => { first := db, answer := .error (msetError a.entry err) }
    | .unconfirmed err =>
      { first := db, later := [db.set ns a], answer := .error (msetError a.entry err) }
    | .confirmed =>
      let run := msetLoop ns count (db.set ns a) rest
      { first := db, later := run.seen, answer := run.answer }

/-- `MSet`: one write after the other. -/
def Handler.mset (ctx : Option ContextError) (db : Database) (workflowID : Bytes)
    (entries : List Attempt) : MSetRun :=
  match guardCall ctx workflowID with
  | some st => { first := db, answer := .error st }
  | none => msetLoop workflowID entries.length db entries

def applied : List Attempt → List Attempt
  | [] => []
  | a :: rest =>
    match a.outcome with
    | .lost _ => []
    | .unconfirmed _ => [a]
    | .confirmed => a :: applied rest

def Handler.applied (ctx : Option ContextError) (workflowID : Bytes) (entries : List Attempt) :
    List Attempt :=
  match guardCall ctx workflowID with
  | some _ => []
  | none => Memory.applied entries

def Database.Same (db db' : Database) : Prop := ∀ k, db.lookup k = db'.lookup k

def lastEntry (entries : List Attempt) (key : Bytes) : Option Attempt :=
  entries.reverse.find? (fun a => a.entry.key = key)

structure AllOrNothing (db : Database) (ns : Bytes) (entries : List Attempt) (run : MSetRun) : Prop where
  stored : run.Succeeds → ∀ key a, lastEntry entries key = some a →
    run.final.lookup (kvKey ns key) = some a.record
  others : run.Succeeds → ∀ k, (∀ a ∈ entries, kvKey ns a.entry.key ≠ k) →
    run.final.lookup k = db.lookup k
  unchanged : ¬run.Succeeds → run.final.Same db
  seen : ∀ d ∈ run.seen, d.Same db ∨ run.Succeeds ∧ d.Same run.final

/-! ### Databases as maps -/

def Database.view (db : Database) : Bytes → Option Record := fun k => db.lookup k

theorem Database.same_iff {db db' : Database} : db.Same db' ↔ db.view = db'.view := funext_iff.symm

def Attempt.write (ns : Bytes) (a : Attempt) : Bytes × Record := (kvKey ns a.entry.key, a.record)

theorem Database.view_set (db : Database) (ns : Bytes) (a : Attempt) :
    (db.set ns a).view = Concurrency.write db.view (a.write ns) := by
  funext k
  by_cases hk : k = kvKey ns a.entry.key
  · subst hk
    exact (AList.lookup_insert _).trans (Concurrency.write_apply_self _ (a.write ns)).symm
  · exact (AList.lookup_insert_ne hk).trans
      (Concurrency.write_apply_of_ne db.view (w := a.write ns) hk).symm

theorem msetLoop_seen (ns : Bytes) (count : Nat) (db : Database) (entries : List Attempt) :
    (msetLoop ns count db entries).seen.map Database.view =
      Concurrency.states db.view ((applied entries).map (Attempt.write ns)) := by
  induction entries generalizing db with
  | nil => rfl
  | cons a rest ih =>
    unfold msetLoop applied
    cases a.outcome with
    | lost err => rfl
    | unconfirmed err =>
      show [db.view, (db.set ns a).view] = _
      rw [Database.view_set]
      rfl
    | confirmed =>
      show db.view :: (msetLoop ns count (db.set ns a) rest).seen.map Database.view = _
      rw [ih, Database.view_set]
      rfl

theorem MSetRun.view_final (run : MSetRun) (v : Bytes → Option Record) :
    run.final.view = (run.seen.map Database.view).getLastD v := by
  rw [final, seen, List.map_cons, List.getLastD_cons, List.getLastD_eq_getLast?,
    List.getLastD_eq_getLast?, List.getLast?_map, Option.getD_map]

theorem MSetRun.final_mem_seen (run : MSetRun) : run.final ∈ run.seen := by
  rw [final, seen, List.getLastD_eq_getLast?]
  grind

theorem msetLoop_final (ns : Bytes) (count : Nat) (db : Database) (entries : List Attempt) :
    (msetLoop ns count db entries).final.view =
      Concurrency.writeAll db.view ((applied entries).map (Attempt.write ns)) := by
  rw [MSetRun.view_final _ db.view, msetLoop_seen, Concurrency.getLastD_states]

theorem succeeds_iff (ns : Bytes) (count : Nat) (db : Database) {entries : List Attempt} :
    (msetLoop ns count db entries).Succeeds ↔ ∀ a ∈ entries, a.outcome = .confirmed := by
  induction entries generalizing db with
  | nil => exact iff_of_true ⟨count, rfl⟩ (by simp)
  | cons a rest ih =>
    rw [List.forall_mem_cons, ← ih (db.set ns a), MSetRun.Succeeds, msetLoop]
    cases a.outcome with
    | lost err => simp
    | unconfirmed err => simp
    | confirmed => simp [MSetRun.Succeeds]

theorem applied_of_succeeds {ns : Bytes} {count : Nat} {db : Database} {entries : List Attempt}
    (h : (msetLoop ns count db entries).Succeeds) : applied entries = entries := by
  rw [succeeds_iff] at h
  induction entries with
  | nil => rfl
  | cons a rest ih =>
    rw [List.forall_mem_cons] at h
    rw [applied, h.1]
    exact congrArg (a :: ·) (ih h.2)

theorem kvKey_inj {ns k k' : Bytes} : kvKey ns k = kvKey ns k' ↔ k = k' := by
  simp [kvKey]

theorem find?_writes (ns key : Bytes) (entries : List Attempt) :
    (entries.map (Attempt.write ns)).reverse.find? (fun w => w.1 = kvKey ns key) =
      (lastEntry entries key).map (Attempt.write ns) := by
  rw [← List.map_reverse, List.find?_map, lastEntry]
  congr 2
  funext a
  simp [Attempt.write, kvKey_inj]

theorem allOrNothing_refused (db : Database) (ns : Bytes) (entries : List Attempt) (st : Status) :
    AllOrNothing db ns entries { first := db, answer := .error st } where
  stored := by rintro ⟨n, hn⟩; cases hn
  others := by rintro ⟨n, hn⟩; cases hn
  unchanged _ _ := rfl
  seen d hd := by
    obtain rfl := List.mem_singleton.mp hd
    exact Or.inl fun _ => rfl

theorem msetLoop_allOrNothing_iff (ns : Bytes) (count : Nat) (db : Database) (entries : List Attempt) :
    AllOrNothing db ns entries (msetLoop ns count db entries) ↔
      ∀ d ∈ (msetLoop ns count db entries).seen, d.Same db ∨
        (msetLoop ns count db entries).Succeeds ∧ d.Same (msetLoop ns count db entries).final := by
  -- the other parts are about the last state, which is one of those seen
  refine ⟨AllOrNothing.seen, fun h => ⟨fun hok key a ha => ?_, fun hok k hk => ?_, fun hfail => ?_, h⟩⟩
  · have hlookup := congrFun (msetLoop_final ns count db entries) (kvKey ns key)
    rw [Concurrency.writeAll_apply, applied_of_succeeds hok, find?_writes, ha] at hlookup
    exact hlookup
  · have hlookup := congrFun (msetLoop_final ns count db entries) k
    have hnone : (entries.map (Attempt.write ns)).reverse.find? (fun w => w.1 = k) = none := by
      rw [List.find?_eq_none]
      intro w hw
      obtain ⟨a, ha, rfl⟩ := List.mem_map.mp (List.mem_reverse.mp hw)
      exact fun heq => hk a ha (of_decide_eq_true heq)
    rw [Concurrency.writeAll_apply, applied_of_succeeds hok, hnone] at hlookup
    exact hlookup
  · exact (h _ (MSetRun.final_mem_seen _)).resolve_right fun h => hfail h.1

/-- The database has the record of the entry already. -/
def Stored (db : Database) (ns : Bytes) (a : Attempt) : Prop :=
  db.lookup (kvKey ns a.entry.key) = some a.record

/-- The entries that are new are all for one key, and each is what the last entry of that key stores. -/
def OneChange (db : Database) (ns : Bytes) (entries : List Attempt) : Prop :=
  ∀ a ∈ entries, Stored db ns a ∨
    (∀ b, lastEntry entries a.entry.key = some b → b.record = a.record) ∧
      ∀ b ∈ entries, b.entry.key ≠ a.entry.key → Stored db ns b

theorem msetLoop_seen_iff_of_succeeds {ns : Bytes} {count : Nat} {db : Database} {entries : List Attempt}
    (hok : (msetLoop ns count db entries).Succeeds) :
    (∀ d ∈ (msetLoop ns count db entries).seen,
        d.view = db.view ∨ d.view = (msetLoop ns count db entries).final.view) ↔
      OneChange db ns entries := by
  have hlib := Concurrency.states_atomic_iff (m := db.view) ((applied entries).map (Attempt.write ns))
  rw [← msetLoop_seen ns count, ← msetLoop_final ns count, applied_of_succeeds hok] at hlib
  simp only [List.forall_mem_map] at hlib
  rw [hlib]
  refine forall₂_congr fun a _ => or_congr Iff.rfl (and_congr ?_ (forall₂_congr fun b _ => ?_))
  · show (∀ x, (entries.map (Attempt.write ns)).reverse.find? (fun y => y.1 = kvKey ns a.entry.key) = some x →
      x.2 = a.record) ↔ _
    rw [find?_writes]
    simp only [Option.map_eq_some_iff, forall_exists_index, and_imp, forall_apply_eq_imp_iff₂]
    rfl
  · exact imp_congr (not_congr kvKey_inj) Iff.rfl

theorem msetLoop_seen_iff_of_fails (ns : Bytes) (count : Nat) (db : Database) (entries : List Attempt) :
    (∀ d ∈ (msetLoop ns count db entries).seen, d.view = db.view) ↔ ∀ a ∈ applied entries, Stored db ns a := by
  have hlib := Concurrency.states_eq_or_iff (m := db.view) (t := db.view)
    ((applied entries).map (Attempt.write ns))
  rw [← msetLoop_seen ns count] at hlib
  simp only [List.forall_mem_map, or_self, Concurrency.write_eq_self_iff] at hlib
  exact hlib

/-- **A batch is atomic exactly when it makes one change.**  For every database, request and outcome of
    its writes: the call stores all of its entries or none, and nothing else can be seen in between,
    if and only if every write that takes effect is there already, or none fails and the entries that are new
    are all for one key, each what the last entry of that key stores. -/
theorem allOrNothing_iff (ctx : Option ContextError) (db : Database) (workflowID : Bytes)
    (entries : List Attempt) :
    AllOrNothing db workflowID entries (Handler.mset ctx db workflowID entries) ↔
      (∀ a ∈ Handler.applied ctx workflowID entries, Stored db workflowID a) ∨
        (∀ a ∈ entries, a.outcome = .confirmed) ∧ OneChange db workflowID entries := by
  unfold Handler.mset Handler.applied
  cases guardCall ctx workflowID with
  | some st =>
    refine iff_of_true (allOrNothing_refused db workflowID entries st) (Or.inl ?_)
    simp
  | none =>
    show AllOrNothing db workflowID entries (msetLoop workflowID entries.length db entries) ↔ _
    rw [msetLoop_allOrNothing_iff]
    by_cases hall : ∀ a ∈ entries, a.outcome = .confirmed
    · have hok := (succeeds_iff workflowID entries.length db).mpr hall
      have hsome := msetLoop_seen_iff_of_succeeds hok
      simp only [hok, true_and, Database.same_iff, hsome, applied_of_succeeds hok]
      refine ⟨fun h => Or.inr ⟨hall, h⟩, fun h => h.elim (fun hs a ha => Or.inl (hs a ha)) And.right⟩
    · -- a call that fails has no other state to show than the first one
      have hfail := mt (succeeds_iff workflowID entries.length db).mp hall
      simp only [hfail, false_and, or_false, Database.same_iff, hall]
      exact msetLoop_seen_iff_of_fails workflowID entries.length db entries

/-- **The first entry stays when the second one fails**, and a reader finds it alone even when both
    are stored. -/
theorem first_entry_alone :
    ¬AllOrNothing ∅ (ascii "w")
        [⟨⟨ascii "a", [1], 0⟩, 0, .confirmed⟩, ⟨⟨ascii "b", [2], 0⟩, 0, .lost "connection refused"⟩]
        (Handler.mset none ∅ (ascii "w")
          [⟨⟨ascii "a", [1], 0⟩, 0, .confirmed⟩, ⟨⟨ascii "b", [2], 0⟩, 0, .lost "connection refused"⟩]) ∧
      ¬AllOrNothing ∅ (ascii "w")
        [⟨⟨ascii "a", [1], 0⟩, 0, .confirmed⟩, ⟨⟨ascii "b", [2], 0⟩, 0, .confirmed⟩]
        (Handler.mset none ∅ (ascii "w")
          [⟨⟨ascii "a", [1], 0⟩, 0, .confirmed⟩, ⟨⟨ascii "b", [2], 0⟩, 0, .confirmed⟩]) := by
  constructor
  · intro h
    have hfail : ¬(Handler.mset none ∅ (ascii "w") [⟨⟨ascii "a", [1], 0⟩, 0, .confirmed⟩,
        ⟨⟨ascii "b", [2], 0⟩, 0, .lost "connection refused"⟩]).Succeeds := by
      rintro ⟨n, hn⟩
      cases hn
    have hkey := h.unchanged hfail (kvKey (ascii "w") (ascii "a"))
    revert hkey
    decide +kernel
  · intro h
    have hsecond := h.seen (Database.set ∅ (ascii "w") ⟨⟨ascii "a", [1], 0⟩, 0, .confirmed⟩)
      (List.mem_cons_of_mem _ List.mem_cons_self)
    rcases hsecond with hsame | ⟨-, hsame⟩
    · have hkey := hsame (kvKey (ascii "w") (ascii "a"))
      revert hkey
      decide +kernel
    · have hkey := hsame (kvKey (ascii "w") (ascii "b"))
      revert hkey
      decide +kernel

end Zynax.Memory
