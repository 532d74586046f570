import Zynax.Broker.Task
import Zynax.Golang.Encoding
import Zynax.Golang.Time
import Zynax.Paging.Walk
import Mathlib.Data.Prod.Lex

namespace Zynax.Broker

open Golang Paging

/-!
# Listing tasks

`List` of the two repositories.  The in-memory one gives pages by offset, the Postgres one by the
creation time and the id of the last row of the page before.

* `encodeCursor`, `decodeCursor` — the page token of Postgres; `decodeCursor_encode`: it can be
  read back, as long as the year of the creation has four digits.

The texts of errors of the standard library are left out.
-/

/-! ### Requests and answers -/

structure ListFilter where
  workflowID : String := ""
  status : TaskStatus := .unspecified
  agentID : String := ""
  pageToken : String := ""
  pageSize : Int32 := 0
  deriving DecidableEq

structure ListResult where
  tasks : List Task := []
  nextPageToken : String := ""
  deriving DecidableEq

inductive ListError where
  | failed (err : BrokerError)
  | panicked
  deriving DecidableEq

def defaultPageSize : Int := 50

def maxPageSize : Int := 500

def effectivePageSize (pageSize : Int32) : Nat :=
  let size := if pageSize.toInt ≤ 0 then defaultPageSize else pageSize.toInt
  (if size > maxPageSize then maxPageSize else size).toNat

def ListFilter.selects (filter : ListFilter) (t : Task) : Bool :=
  (filter.workflowID = "" || t.workflowID = filter.workflowID) &&
    (filter.status = .unspecified || t.status = filter.status) &&
    (filter.agentID = "" || t.dispatchedTo = filter.agentID)

def invalidToken (detail : String) : BrokerError :=
  ⟨none, ⟨"task-broker: invalid page_token: " ++ detail, []⟩⟩

theorem effectivePageSize_pos (pageSize : Int32) : 0 < effectivePageSize pageSize := by
  rw [effectivePageSize, defaultPageSize, maxPageSize]
  omega

/-! ### The order of tasks -/

@[ext] structure RowKey where
  created : Int
  id : String
  deriving DecidableEq

def RowKey.less (a b : RowKey) : Bool :=
  if a.created = b.created then decide (a.id < b.id) else decide (a.created < b.created)

def Task.created (t : Task) : Int := t.createdAt.getD zeroTime

def Task.rowKey (t : Task) : RowKey := ⟨t.created, t.taskID⟩

def sortTasks (key : Task → RowKey) (tasks : List Task) : List Task :=
  tasks.insertionSort (fun a b => (key b).less (key a) = false)

instance : LinearOrder RowKey :=
  @LinearOrder.lift' RowKey (Int ×ₗ String)
    (@Prod.Lex.instLinearOrder Int String Int.instLinearOrder String.instLinearOrder)
    (fun k => toLex (k.created, k.id)) (by
      intro a b h
      have hpair := toLex.injective h
      exact RowKey.ext (congrArg Prod.fst hpair) (congrArg Prod.snd hpair))

theorem RowKey.less_iff {a b : RowKey} : a.less b = true ↔ a < b := by
  have hlt : a < b ↔ toLex (a.created, a.id) < toLex (b.created, b.id) := Iff.rfl
  rw [hlt, Prod.Lex.toLex_lt_toLex, RowKey.less]
  grind

theorem RowKey.not_less_iff {a b : RowKey} : b.less a = false ↔ a ≤ b := by
  rw [← Bool.not_eq_true, RowKey.less_iff, not_lt]

section

variable {key : Task → RowKey} {l : List Task}

theorem mem_sortTasks {t : Task} : t ∈ sortTasks key l ↔ t ∈ l := List.mem_insertionSort _

theorem pairwise_sortTasks (hl : (l.map key).Nodup) :
    (sortTasks key l).Pairwise (fun a b => key a < key b) :=
  pairwise_insertionSort_key (fun _ _ => RowKey.not_less_iff) hl

theorem behind_sortTasks (hl : (l.map key).Nodup) (cursor : WithBot RowKey) :
    behind key cursor (sortTasks key l) = sortTasks key (behind key cursor l) := by
  have hr : ∀ a b, (key b).less (key a) = false ↔ key a ≤ key b := fun _ _ => RowKey.not_less_iff
  exact behind_insertionSort hr hl cursor

end

/-! ### In memory -/

/-- A page token of the memory repository is an offset. -/
def encodePageToken (offset : Nat) : String := base64Encode (asciiBytes (decimal offset))

def decodePageToken (token : String) : Except BrokerError Int :=
  match base64Decode token with
  | none => .error (invalidToken "base64 decode")
  | some b =>
    match atoi (asciiText b) with
    | none => .error (invalidToken "parse offset")
    | some n => .ok n

def Repo.matched (r : Repo) (filter : ListFilter) : List Task :=
  sortTasks Task.rowKey ((r.tasks.entries.map (fun e => e.2)).filter filter.selects)

/-- `List` of the memory repository. -/
def Repo.list (r : Repo) (filter : ListFilter) : Except ListError ListResult :=
  let pageSize := effectivePageSize filter.pageSize
  let offset := if filter.pageToken ≠ "" then decodePageToken filter.pageToken else .ok 0
  match offset with
  | .error err => .error (.failed err)
  | .ok offset =>
    let matched := r.matched filter
    if (matched.length : Int) ≤ offset then .ok {}
    -- the lower bound of the slice
    else if offset < 0 then .error .panicked
    else
      let stop := offset.toNat + pageSize
      .ok { tasks := (matched.drop offset.toNat).take pageSize
            nextPageToken := if stop < matched.length then encodePageToken stop else "" }

/-! ### In Postgres -/

def separator : UInt8 := 124

/-- A cursor of Postgres is the last creation time and id. -/
def encodeCursor (created : Int) (taskID : String) : String :=
  base64Encode (asciiBytes (formatRFC3339Nano created) ++ separator :: stringBytes taskID)

def decodeCursor (token : String) : Except BrokerError (Int × List UInt8) :=
  match base64Decode token with
  | none => .error (invalidToken "base64 decode")
  | some b =>
    match b.dropWhile (· ≠ separator) with
    | [] => .error (invalidToken "malformed cursor: missing separator")
    | _ :: id =>
      match parseRFC3339Nano (asciiText (b.takeWhile (· ≠ separator))) with
      | none => .error (invalidToken "parse cursor time")
      | some t => .ok (t, id)

structure ListQuery where
  workflowID : Option String
  status : Option TaskStatus
  dispatchedTo : Option String
  after : Option (Int × List UInt8)
  limit : Nat

def buildListQuery (filter : ListFilter) (pageSize : Nat) (cursorTime : Int)
    (cursorID : List UInt8) : ListQuery where
  workflowID := if filter.workflowID ≠ "" then some filter.workflowID else none
  status := if filter.status ≠ .unspecified then some filter.status else none
  dispatchedTo := if filter.agentID ≠ "" then some filter.agentID else none
  after := if cursorTime ≠ zeroTime then some (cursorTime, cursorID) else none
  limit := pageSize + 1

structure Collation where
  sortKey : String → String
  injective : Function.Injective sortKey

def Collation.c : Collation where
  sortKey := id
  injective := Function.injective_id

def Collation.rowKey (collation : Collation) (t : Task) : RowKey :=
  ⟨t.created, collation.sortKey t.taskID⟩

structure Table where
  rows : List Task
  primary : (rows.map Task.taskID).Nodup

def ListQuery.selects (q : ListQuery) (t : Task) : Bool :=
  (q.workflowID.all (t.workflowID = ·)) && (q.status.all (t.status = ·)) &&
    (q.dispatchedTo.all (t.dispatchedTo = ·))

def Table.query (collation : Collation) (table : Table) (q : ListQuery) :
    Except BrokerError (List Task) :=
  let selected := table.rows.filter q.selects
  match q.after with
  | none => .ok ((sortTasks collation.rowKey selected).take q.limit)
  | some (t, idBytes) =>
    match String.fromUTF8? ⟨idBytes.toArray⟩ with
    | none => .error ⟨none, ⟨"postgres task-broker: list: %w", []⟩⟩
    | some id =>
      let cursor : RowKey := ⟨t, collation.sortKey id⟩
      .ok ((sortTasks collation.rowKey
        (selected.filter (fun r => cursor.less (collation.rowKey r)))).take q.limit)

/-- `List` of the Postgres repository. -/
def Table.list (collation : Collation) (table : Table) (filter : ListFilter) :
    Except BrokerError ListResult :=
  let pageSize := effectivePageSize filter.pageSize
  let cursor := if filter.pageToken ≠ "" then decodeCursor filter.pageToken else .ok (zeroTime, [])
  match cursor with
  | .error err => .error err
  | .ok (cursorTime, cursorID) =>
    match table.query collation (buildListQuery filter pageSize cursorTime cursorID) with
    | .error err => .error err
    | .ok tasks =>
      match tasks[pageSize - 1]? with
      | some last =>
        if pageSize < tasks.length then
          .ok { tasks := tasks.take pageSize
                nextPageToken := encodeCursor last.created last.taskID }
        else .ok { tasks := tasks }
      | none => .ok { tasks := tasks }

/-! ### Tokens -/

variable {created : Int}

theorem encodePageToken_ne_empty (offset : Nat) : encodePageToken offset ≠ "" := by
  apply base64Encode_ne_empty
  rw [asciiBytes, ne_eq, List.map_eq_nil_iff]
  exact (decimal_digits offset).1

theorem decodePageToken_encode {offset : Nat} (h : offset < 2 ^ 63) :
    decodePageToken (encodePageToken offset) = .ok (offset : Int) := by
  have htext : asciiText (asciiBytes (decimal offset)) = decimal offset :=
    asciiText_asciiBytes (fun c hc => toNat_lt_of_isDigit ((decimal_digits offset).2 c hc))
  rw [decodePageToken, encodePageToken, base64Decode_encode]
  dsimp only
  rw [htext, atoi_decimal h]

theorem encodeCursor_ne_empty (created : Int) (taskID : String) :
    encodeCursor created taskID ≠ "" := by
  apply base64Encode_ne_empty
  simp

theorem ne_separator_of_mem (h : FourDigitYear created) :
    ∀ b ∈ asciiBytes (formatRFC3339Nano created), decide (b ≠ separator) = true := by
  intro b hb
  obtain ⟨c, hc, rfl⟩ := List.mem_map.mp hb
  obtain ⟨hascii, hne⟩ := isStampChar_ascii (isStampChar_of_mem_format h c hc)
  apply decide_eq_true
  intro heq
  have hlt : c.toNat < 256 := by omega
  have hnat : c.toNat = 124 := by
    have hbyte := congrArg UInt8.toNat heq
    rwa [UInt8.toNat_ofNat_of_lt' hlt] at hbyte
  apply hne
  rw [← Char.ofNat_toNat c, hnat]

theorem decodeCursor_encode (h : FourDigitYear created) (taskID : String) :
    decodeCursor (encodeCursor created taskID) = .ok (created, stringBytes taskID) := by
  have htext : asciiText (asciiBytes (formatRFC3339Nano created)) = formatRFC3339Nano created :=
    asciiText_asciiBytes (fun c hc => (isStampChar_ascii (isStampChar_of_mem_format h c hc)).1)
  have htake : (asciiBytes (formatRFC3339Nano created) ++
      separator :: stringBytes taskID).takeWhile (· ≠ separator) =
        asciiBytes (formatRFC3339Nano created) := by
    rw [List.takeWhile_append_of_pos (ne_separator_of_mem h), List.takeWhile_cons_of_neg (by simp),
      List.append_nil]
  have hdrop : (asciiBytes (formatRFC3339Nano created) ++
      separator :: stringBytes taskID).dropWhile (· ≠ separator) =
        separator :: stringBytes taskID := by
    rw [List.dropWhile_append_of_pos (ne_separator_of_mem h), List.dropWhile_cons_of_neg (by simp)]
  rw [decodeCursor, encodeCursor, base64Decode_encode]
  dsimp only
  rw [hdrop, htake]
  dsimp only
  rw [htext, parseRFC3339Nano_format h]

/-! ### Walks over the repository in memory -/

variable {r : Repo} {filter : ListFilter}

structure MemoryRepo extends Repo where
  length_lt : tasks.entries.length < 2 ^ 63

def Repo.pages (r : Repo) (filter : ListFilter) (sizes : Nat → Int32) (i : Nat) (token : String) :
    Option (Page Task String) :=
  match r.list { filter with pageToken := token, pageSize := sizes i } with
  | .ok result => some ⟨result.tasks, result.nextPageToken⟩
  | .error _ => none

theorem Repo.list_eq {n : Nat}
    (htoken : (if filter.pageToken ≠ "" then decodePageToken filter.pageToken else .ok 0) =
      .ok (n : Int)) :
    r.list filter =
      .ok { tasks := ((r.matched filter).drop n).take (effectivePageSize filter.pageSize)
            nextPageToken :=
              if n + effectivePageSize filter.pageSize < (r.matched filter).length then
                encodePageToken (n + effectivePageSize filter.pageSize)
              else "" } := by
  rw [Repo.list]
  dsimp only
  rw [htoken]
  dsimp only
  split
  · rename_i hend
    have hle : (r.matched filter).length ≤ n := by omega
    rw [List.drop_eq_nil_of_le hle, List.take_nil, if_neg (by omega)]
  · rfl

theorem MemoryRepo.length_matched_lt (r : MemoryRepo) (filter : ListFilter) :
    (r.matched filter).length < 2 ^ 63 := by
  have hle : (r.matched filter).length ≤ r.tasks.entries.length := by
    rw [Repo.matched, sortTasks, List.length_insertionSort]
    grind
  have hlt := r.length_lt
  omega

theorem Repo.offsetCall (r : MemoryRepo) (filter : ListFilter) (sizes : Nat → Int32) :
    OffsetCall (r.pages filter sizes) "" (r.matched filter)
      (fun t n => t = "" ∧ n = 0 ∨ t = encodePageToken n ∧ n < (r.matched filter).length)
      (fun i => effectivePageSize (sizes i)) where
  size_pos := fun i => effectivePageSize_pos (sizes i)
  page := by
    have hlength := r.length_matched_lt filter
    intro i t n ht
    have htoken : (if t ≠ "" then decodePageToken t else .ok 0) = .ok (n : Int) := by
      rcases ht with ⟨rfl, rfl⟩ | ⟨rfl, hn⟩
      · rfl
      · rw [if_pos (encodePageToken_ne_empty n), decodePageToken_encode (by omega)]
    have hlist : r.list { filter with pageToken := t, pageSize := sizes i } =
        .ok { tasks := ((r.matched filter).drop n).take (effectivePageSize (sizes i))
              nextPageToken :=
                if n + effectivePageSize (sizes i) < (r.matched filter).length then
                  encodePageToken (n + effectivePageSize (sizes i))
                else "" } := Repo.list_eq htoken
    refine ⟨_, by rw [pages, hlist], rfl, ?_⟩
    dsimp only
    by_cases hmore : n + effectivePageSize (sizes i) < (r.matched filter).length
    · rw [if_pos hmore, if_pos hmore]
      exact ⟨encodePageToken_ne_empty _, Or.inr ⟨rfl, hmore⟩⟩
    · grind

/-! ### Walks over the table -/

variable {collation : Collation}

def tablePages (collation : Collation) (tables : Nat → Table) (filter : ListFilter)
    (sizes : Nat → Int32) (i : Nat) (token : String) : Option (Page Task String) :=
  match (tables i).list collation { filter with pageToken := token, pageSize := sizes i } with
  | .ok result => some ⟨result.tasks, result.nextPageToken⟩
  | .error _ => none

def Table.matched (collation : Collation) (table : Table) (filter : ListFilter) : List Task :=
  sortTasks collation.rowKey (table.rows.filter filter.selects)

inductive CursorOf (collation : Collation) : String → WithBot RowKey → Prop
  | start : CursorOf collation "" ⊥
  | row {created : Int} {taskID : String} (hzero : created ≠ zeroTime)
      (hyear : FourDigitYear created) :
      CursorOf collation (encodeCursor created taskID)
        ((⟨created, collation.sortKey taskID⟩ : RowKey) : WithBot RowKey)

theorem buildListQuery_selects (filter : ListFilter) (pageSize : Nat) (cursorTime : Int)
    (cursorID : List UInt8) (t : Task) :
    (buildListQuery filter pageSize cursorTime cursorID).selects t = filter.selects t := by
  rw [ListQuery.selects, ListFilter.selects, buildListQuery]
  grind

theorem nodup_rowKey (collation : Collation) (table : Table) (p : Task → Bool) :
    ((table.rows.filter p).map collation.rowKey).Nodup := by
  have hids : ((table.rows.filter p).map Task.taskID).Nodup :=
    table.primary.sublist (List.filter_sublist.map _)
  have hkeys : ((table.rows.filter p).map (fun t => collation.sortKey t.taskID)).Nodup := by
    have hmap := hids.map collation.injective
    rwa [List.map_map] at hmap
  refine List.Nodup.of_map RowKey.id ?_
  rw [List.map_map]
  exact hkeys

theorem sortTasks_behind (collation : Collation) (table : Table) (filter : ListFilter)
    (k : RowKey) :
    sortTasks collation.rowKey
        ((table.rows.filter filter.selects).filter (fun r => k.less (collation.rowKey r))) =
      behind collation.rowKey k (table.matched collation filter) := by
  have hfilter : (table.rows.filter filter.selects).filter (fun r => k.less (collation.rowKey r)) =
      behind collation.rowKey k (table.rows.filter filter.selects) := by
    apply List.filter_congr
    intro r _
    rw [Bool.eq_iff_iff, RowKey.less_iff, decide_eq_true_eq, WithBot.coe_lt_coe]
  rw [Table.matched, behind_sortTasks (nodup_rowKey collation table filter.selects), hfilter]

theorem Table.query_eq {token : String} {cursor : WithBot RowKey}
    (hcursor : CursorOf collation token cursor) (table : Table) (filter : ListFilter)
    (pageSize : Nat) :
    ∃ t id, (if token ≠ "" then decodeCursor token else .ok (zeroTime, [])) = .ok (t, id) ∧
      table.query collation (buildListQuery filter pageSize t id) =
        .ok ((behind collation.rowKey cursor (table.matched collation filter)).take
          (pageSize + 1)) := by
  have hselects : ∀ t id, (buildListQuery filter pageSize t id).selects = filter.selects :=
    fun t id => funext (buildListQuery_selects filter pageSize t id)
  cases hcursor with
  | start =>
    refine ⟨zeroTime, [], rfl, ?_⟩
    rw [query, hselects, behind_bot]
    rfl
  | @row created taskID hzero hyear =>
    have hafter : (buildListQuery filter pageSize created (stringBytes taskID)).after =
        some (created, stringBytes taskID) := if_pos hzero
    refine ⟨created, stringBytes taskID, ?_, ?_⟩
    · rw [if_pos (encodeCursor_ne_empty created taskID), decodeCursor_encode hyear]
    · rw [query, hselects, hafter]
      dsimp only
      rw [fromUTF8_stringBytes]
      dsimp only
      rw [sortTasks_behind]
      rfl

theorem Table.list_page {token : String} {cursor : WithBot RowKey}
    (hcursor : CursorOf collation token cursor) (table : Table) (filter : ListFilter)
    (pageSize : Int32) :
    ∃ result, table.list collation { filter with pageToken := token, pageSize := pageSize } =
        .ok result ∧
      result.tasks = (behind collation.rowKey cursor (table.matched collation filter)).take
        (effectivePageSize pageSize) ∧
      if effectivePageSize pageSize <
          (behind collation.rowKey cursor (table.matched collation filter)).length then
        ∃ last, (behind collation.rowKey cursor (table.matched collation filter))[
            effectivePageSize pageSize - 1]? = some last ∧
          result.nextPageToken = encodeCursor last.created last.taskID
      else result.nextPageToken = "" := by
  obtain ⟨t, id, htoken, hquery⟩ := query_eq hcursor table
    { filter with pageToken := token, pageSize := pageSize } (effectivePageSize pageSize)
  have hpos := effectivePageSize_pos pageSize
  have hmatched : table.matched collation { filter with pageToken := token, pageSize := pageSize } =
      table.matched collation filter := rfl
  rw [hmatched] at hquery
  simp only [list, htoken, hquery]
  generalize effectivePageSize pageSize = size at hpos ⊢
  generalize behind collation.rowKey cursor (table.matched collation filter) = rest
  rw [List.getElem?_take_of_lt (by omega), List.length_take]
  -- the token is made of the row that ends the page; without it the rows end before
  cases hlast : rest[size - 1]? with
  | none =>
    have hle : rest.length ≤ size - 1 := List.getElem?_eq_none_iff.mp hlast
    refine ⟨_, rfl, ?_, ?_⟩
    · rw [List.take_of_length_le (by omega), List.take_of_length_le (by omega)]
    · rw [if_neg (by omega)]
  | some last =>
    dsimp only
    by_cases hmore : size < rest.length
    · rw [if_pos (by omega)]
      grind
    · rw [if_neg (by omega)]
      grind

structure Task.Dated (t : Task) : Prop where
  ne_zero : t.created ≠ zeroTime
  fourDigitYear : FourDigitYear t.created

theorem tableCall (collation : Collation) {tables : Nat → Table}
    (hdated : ∀ i, ∀ t ∈ (tables i).rows, t.Dated) (filter : ListFilter) (sizes : Nat → Int32) :
    KeysetCall (tablePages collation tables filter sizes) "" collation.rowKey
      (fun i => (tables i).matched collation filter) (CursorOf collation)
      (fun i => effectivePageSize (sizes i)) where
  size_pos := fun i => effectivePageSize_pos (sizes i)
  ordered := fun i => pairwise_sortTasks (nodup_rowKey collation (tables i) filter.selects)
  page := by
    intro i token cursor hcursor
    obtain ⟨result, hlist, htasks, hnext⟩ :=
      (tables i).list_page hcursor filter (sizes i)
    refine ⟨⟨result.tasks, result.nextPageToken⟩, by rw [tablePages, hlist], htasks, ?_⟩
    split at hnext
    · rename_i hmore
      obtain ⟨last, hlast, htoken⟩ := hnext
      have hrow : last ∈ (tables i).rows := by
        have hmem := (mem_behind.mp (List.mem_of_getElem? hlast)).1
        exact List.mem_of_mem_filter (mem_sortTasks.mp hmem)
      have hdate := hdated i last hrow
      rw [if_pos hmore, htoken]
      exact ⟨encodeCursor_ne_empty _ _, last, hlast, .row hdate.ne_zero hdate.fourDigitYear⟩
    · grind

/-! ### Every matching task, once and in order -/

def ReadsTo (pages : Nat → String → Option (Page Task String)) (tasks : List Task) : Prop :=
  ∃ n, ∀ fuel, n ≤ fuel → walk "" pages fuel 0 "" = some tasks

structure Listed (stored : Task → Prop) (filter : ListFilter) (key : Task → RowKey)
    (tasks : List Task) : Prop where
  mem_iff : ∀ t, t ∈ tasks ↔ stored t ∧ filter.selects t = true
  ordered : tasks.Pairwise (fun a b => (key a).less (key b) = true)

theorem Repo.mem_values_iff {t : Task} :
    t ∈ r.tasks.entries.map (fun e => e.2) ↔ r.lookup t.taskID = some t := by
  rw [List.mem_map]
  constructor
  · rintro ⟨e, he, rfl⟩
    have hlookup := GoMap.lookup_of_mem he
    rw [lookup, r.keyed e.1 e.2 hlookup]
    exact hlookup
  · intro h
    exact ⟨⟨t.taskID, t⟩, GoMap.mem_entries_iff.mpr h, rfl⟩

theorem Repo.nodup_taskID (r : Repo) (p : Task → Bool) :
    (((r.tasks.entries.map (fun e => e.2)).filter p).map Task.taskID).Nodup := by
  have hids : (r.tasks.entries.map (fun e => e.2)).map Task.taskID =
      r.tasks.entries.map (fun e => e.1) := by
    rw [List.map_map]
    apply List.map_congr_left
    intro e he
    exact r.keyed e.1 e.2 (GoMap.lookup_of_mem he)
  have hnodup : ((r.tasks.entries.map (fun e => e.2)).map Task.taskID).Nodup := by
    rw [hids]
    exact r.tasks.nodupKeys
  grind

theorem Repo.nodup_rowKey (r : Repo) (p : Task → Bool) :
    (((r.tasks.entries.map (fun e => e.2)).filter p).map Task.rowKey).Nodup := by
  refine List.Nodup.of_map RowKey.id ?_
  rw [List.map_map]
  exact r.nodup_taskID p

theorem Repo.listed (r : Repo) (filter : ListFilter) :
    Listed (fun t => r.lookup t.taskID = some t) filter Task.rowKey (r.matched filter) where
  mem_iff := by
    intro t
    rw [matched, mem_sortTasks, List.mem_filter, mem_values_iff]
  ordered := by
    refine (pairwise_sortTasks (r.nodup_rowKey filter.selects)).imp ?_
    intro a b hlt
    exact RowKey.less_iff.mpr hlt

theorem Table.listed (collation : Collation) (table : Table) (filter : ListFilter) :
    Listed (· ∈ table.rows) filter collation.rowKey (table.matched collation filter) where
  mem_iff := by
    intro t
    rw [matched, mem_sortTasks, List.mem_filter]
  ordered := by
    refine (pairwise_sortTasks (nodup_rowKey collation table filter.selects)).imp ?_
    intro a b hlt
    exact RowKey.less_iff.mpr hlt

theorem Table.taskID_eq_iff {table : Table} {taskID : String} {t : Task} (ht : t ∈ table.rows)
    (hrow : ∃ t ∈ table.rows, t.taskID = taskID ∧ t.created = created ∧ filter.selects t = true) :
    t.taskID = taskID ↔ collation.rowKey t = ⟨created, collation.sortKey taskID⟩ := by
  obtain ⟨row, hmem, rfl, rfl, -⟩ := hrow
  constructor
  · intro hid
    rw [List.inj_on_of_nodup_map table.primary ht hmem hid]
    rfl
  · intro hkey
    exact collation.injective (congrArg RowKey.id hkey)

/-- **Listing is complete and free of duplicates.**  Following the page tokens ends, whatever the page
    sizes, and gives the matching tasks in strict order: in memory, and in Postgres where a cursor can
    carry every creation time.  While the table changes, a task that matches all the time is still
    read exactly once, and the walk ends if the table stops changing. -/
theorem tasks_listed_once (filter : ListFilter) (sizes : Nat → Int32) :
    (∀ repo : MemoryRepo, ∃ tasks, ReadsTo (repo.pages filter sizes) tasks ∧
      Listed (fun t => repo.lookup t.taskID = some t) filter Task.rowKey tasks) ∧
    (∀ (collation : Collation) (table : Table), (∀ t ∈ table.rows, t.Dated) →
      ∃ tasks, ReadsTo (tablePages collation (fun _ => table) filter sizes) tasks ∧
        Listed (· ∈ table.rows) filter collation.rowKey tasks) ∧
    ∀ (collation : Collation) (tables : Nat → Table), (∀ i, ∀ t ∈ (tables i).rows, t.Dated) →
      ∀ (taskID : String) (created : Int),
        (∀ i, ∃ t ∈ (tables i).rows, t.taskID = taskID ∧ t.created = created ∧
          filter.selects t = true) →
        (∀ fuel tasks, walk "" (tablePages collation tables filter sizes) fuel 0 "" = some tasks →
          tasks.countP (fun t => t.taskID = taskID) = 1) ∧
        ((∃ s, ∀ i, s ≤ i → tables i = tables s) →
          ∃ n, ∀ fuel, n ≤ fuel →
            (walk "" (tablePages collation tables filter sizes) fuel 0 "").isSome = true) := by
  refine ⟨?_, ?_, ?_⟩
  · -- in memory a token is an offset into the sorted tasks
    intro repo
    refine ⟨repo.matched filter, ⟨(repo.matched filter).length + 1, fun fuel hfuel => ?_⟩,
      repo.listed filter⟩
    have hwalk := (Repo.offsetCall repo filter sizes).walk_eq (i := 0) (Or.inl ⟨rfl, rfl⟩)
      (show ((repo.matched filter).drop 0).length < fuel by rw [List.drop_zero]; omega)
    rwa [List.drop_zero] at hwalk
  · -- in Postgres a token is the key of the last row that was read
    intro collation table hdated
    refine ⟨table.matched collation filter,
      ⟨(table.matched collation filter).length + 1, fun fuel hfuel => ?_⟩,
      table.listed collation filter⟩
    have hcall := tableCall collation (fun _ : Nat => hdated) filter sizes
    have hwalk := hcall.walk_eq (s := 0) (fun _ _ => rfl) (Nat.zero_le 0) .start
      (show (behind collation.rowKey ⊥ (table.matched collation filter)).length < fuel by
        rw [behind_bot]; omega)
    rwa [behind_bot] at hwalk
  · -- the task that stays is behind the cursor until the page that holds it
    intro collation tables hdated taskID created hstays
    have hcall := tableCall collation hdated filter sizes
    refine ⟨?_, ?_⟩
    · intro fuel tasks hwalk
      have hcount := hcall.count_of_walk (k := ⟨created, collation.sortKey taskID⟩)
        (fun i => ?_) (p := fun t => t.taskID = taskID) (fun i t ht => ?_) .start hwalk
      · rw [hcount, if_pos (WithBot.bot_lt_coe _)]
      · obtain ⟨t, ht, rfl, rfl, hsel⟩ := hstays i
        exact ⟨t, ((tables i).listed collation filter).mem_iff t |>.mpr ⟨ht, hsel⟩, rfl⟩
      · rw [decide_eq_true_eq]
        exact (tables i).taskID_eq_iff (((tables i).listed collation filter).mem_iff t |>.mp ht).1
          (hstays i)
    · rintro ⟨s, hs⟩
      exact hcall.walk_isSome (fun i hi => by rw [hs i hi]) .start

def twoTasks (seconds : Int) : Table where
  rows := ["b", "a"].map (fun id =>
    { taskID := id, workflowID := "wf-1", capabilityName := "summarize", inputPayload := ""
      createdAt := some (seconds * nanosPerSecond) })
  primary := by simp

def year2026 : Int := 1767225600

def year10000 : Int := 253402300800

theorem tasks_listed_once_2026 :
    ∃ tasks, ReadsTo (tablePages .c (fun _ => twoTasks year2026) {} (fun _ => 1)) tasks ∧
      Listed (· ∈ (twoTasks year2026).rows) {} Collation.c.rowKey tasks := by
  refine (tasks_listed_once {} (fun _ => 1)).2.1 .c (twoTasks year2026) ?_
  have hcreated : ∀ t ∈ (twoTasks year2026).rows, t.created = year2026 * nanosPerSecond := by
    decide
  intro t ht
  refine ⟨?_, ?_⟩ <;> rw [hcreated t ht]
  · decide
  · decide +kernel

/-- **A year of five digits ends the walk.**  The second page of two tasks of the year 10000 is
    never read: the cursor of the first cannot be parsed. -/
theorem year10000_not_listed :
    (∀ t ∈ (twoTasks year10000).rows, t.created ≠ zeroTime) ∧
      ∀ fuel,
        walk "" (tablePages .c (fun _ => twoTasks year10000) {} (fun _ => 1)) fuel 0 "" = none := by
  have hfirst : tablePages .c (fun _ => twoTasks year10000) {} (fun _ => 1) 0 "" =
      some ⟨(twoTasks year10000).rows.drop 1,
        encodeCursor (year10000 * nanosPerSecond) "a"⟩ := by decide +kernel
  have hsecond : tablePages .c (fun _ => twoTasks year10000) {} (fun _ => 1) 1
      (encodeCursor (year10000 * nanosPerSecond) "a") = none := by decide +kernel
  refine ⟨by decide, ?_⟩
  intro fuel
  cases fuel with
  | zero => rfl
  | succ fuel =>
    rw [walk_succ hfirst, if_neg (encodeCursor_ne_empty _ _)]
    cases fuel with
    | zero => rfl
    | succ fuel => rw [walk, hsecond]; rfl

/-! ### Tokens of a client -/

def Repo.ListsSegment (r : Repo) (filter : ListFilter) : Prop :=
  (∃ err, r.list filter = .error (.failed err)) ∨
    ∃ result tasks, r.list filter = .ok result ∧
      Listed (fun t => r.lookup t.taskID = some t) filter Task.rowKey tasks ∧
      result.tasks <:+: tasks

theorem decodePageToken_empty : decodePageToken "" = .error (invalidToken "parse offset") := by
  rfl

theorem Repo.list_of_error {err : BrokerError}
    (hne : filter.pageToken ≠ "") (htoken : decodePageToken filter.pageToken = .error err) :
    r.list filter = .error (.failed err) := by
  rw [Repo.list]
  grind

theorem Repo.list_of_neg {n : Int} (hneg : n < 0)
    (htoken : decodePageToken filter.pageToken = .ok n) : r.list filter = .error .panicked := by
  have hne : filter.pageToken ≠ "" := by
    intro hempty
    rw [hempty, decodePageToken_empty] at htoken
    exact absurd htoken (by simp)
  rw [Repo.list]
  grind

theorem Repo.not_listsSegment_of_neg {n : Int} (hneg : n < 0)
    (htoken : decodePageToken filter.pageToken = .ok n) : ¬ r.ListsSegment filter := by
  have hpanic := Repo.list_of_neg (r := r) hneg htoken
  rintro (⟨err, herr⟩ | ⟨result, tasks, hok, -, -⟩)
  · grind
  · grind

theorem Repo.listsSegment_of_offset {n : Nat}
    (htoken : (if filter.pageToken ≠ "" then decodePageToken filter.pageToken else .ok 0) =
      .ok (n : Int)) : r.ListsSegment filter := by
  refine Or.inr ⟨_, r.matched filter, Repo.list_eq htoken, r.listed filter, ?_⟩
  exact (List.take_prefix _ _).isInfix.trans (List.drop_suffix _ _).isInfix

/-- **`List` does not panic unless the token is of a negative number.**  The answer is an error or a
    contiguous part of the ordered matching tasks exactly when the token does not stand for a negative
    offset.  A token of any bytes is a text with one character for each. -/
theorem listsSegment_iff (r : Repo) (filter : ListFilter) :
    r.ListsSegment filter ↔ ∀ n, decodePageToken filter.pageToken = .ok n → 0 ≤ n := by
  constructor
  · intro hlist n htoken
    by_contra hneg
    exact Repo.not_listsSegment_of_neg (show n < 0 by omega) htoken hlist
  · intro hnonneg
    by_cases hempty : filter.pageToken = ""
    · apply Repo.listsSegment_of_offset (n := 0)
      grind
    · cases htoken : decodePageToken filter.pageToken with
      | error err => exact Or.inl ⟨err, Repo.list_of_error hempty htoken⟩
      | ok n =>
        apply Repo.listsSegment_of_offset (n := n.toNat)
        grind

theorem minusOne_panics :
    (∀ r : Repo, r.list { pageToken := base64Encode (asciiBytes ['-', '1']) } = .error .panicked) ∧
      ∀ r : Repo, ¬ r.ListsSegment { pageToken := base64Encode (asciiBytes ['-', '1']) } := by
  have htoken : decodePageToken (base64Encode (asciiBytes ['-', '1'])) = .ok (-1) := by
    decide +kernel
  refine ⟨?_, ?_⟩
  · intro r
    exact Repo.list_of_neg (by decide) htoken
  · intro r
    exact Repo.not_listsSegment_of_neg (by decide) htoken

end Zynax.Broker
