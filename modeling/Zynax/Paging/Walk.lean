import Mathlib.Data.List.Sort
import Mathlib.Order.WithBot

namespace Zynax.Paging

/-!
# Walks over the pages of a listing

A client reads a listing page by page: every page comes with the token of the next one, until a
token says that there is none.
-/

/-! ### Walks -/

structure Page (α τ : Type) where
  items : List α
  next : τ
  deriving DecidableEq

section Walk

variable {α τ : Type} [DecidableEq τ] {stop : τ} {call : Nat → τ → Option (Page α τ)}

def walk (stop : τ) (call : Nat → τ → Option (Page α τ)) : Nat → Nat → τ → Option (List α)
  | 0, _, _ => none
  | fuel + 1, i, token =>
    (call i token).bind fun page =>
      if page.next = stop then some page.items
      else (walk stop call fuel (i + 1) page.next).map (page.items ++ ·)

theorem walk_succ {fuel i : Nat} {token : τ} {page : Page α τ} (h : call i token = some page) :
    walk stop call (fuel + 1) i token =
      if page.next = stop then some page.items
      else (walk stop call fuel (i + 1) page.next).map (page.items ++ ·) := by
  rw [walk, h, Option.bind_some]

theorem walk_eq_of_remaining {R : τ → List α → Prop} {s : Nat}
    (hpage : ∀ i t xs, s ≤ i → R t xs → ∃ page, call i t = some page ∧
      (page.next = stop ∧ page.items = xs ∨
        page.next ≠ stop ∧ page.items ≠ [] ∧
          ∃ rest, xs = page.items ++ rest ∧ R page.next rest))
    {fuel i : Nat} {t : τ} {xs : List α} (hi : s ≤ i) (hrem : R t xs) (hfuel : xs.length < fuel) :
    walk stop call fuel i t = some xs := by
  induction fuel generalizing i t xs with
  | zero => omega
  | succ fuel ih =>
    obtain ⟨page, hcall, ⟨hstop, hall⟩ | ⟨hnext, hne, rest, hsplit, hrest⟩⟩ := hpage i t xs hi hrem
    · rw [walk_succ hcall, if_pos hstop, hall]
    · have hlen : rest.length < fuel := by
        have hpos : 0 < page.items.length := List.length_pos_of_ne_nil hne
        grind
      rw [walk_succ hcall, if_neg hnext, ih (by omega) hrest hlen, hsplit]
      rfl

theorem walk_isSome_of_eventually {G : τ → Prop} {s : Nat}
    (hgood : ∀ i t, G t → ∃ page, call i t = some page ∧ (page.next = stop ∨ G page.next))
    (hend : ∀ i t, s ≤ i → G t →
      ∃ n, ∀ fuel, n ≤ fuel → (walk stop call fuel i t).isSome = true)
    {i : Nat} {t : τ} (ht : G t) :
    ∃ n, ∀ fuel, n ≤ fuel → (walk stop call fuel i t).isSome = true := by
  obtain ⟨d, hd⟩ : ∃ d, s ≤ i + d := ⟨s, by omega⟩
  induction d generalizing i t with
  | zero => exact hend i t hd ht
  | succ d ih =>
    obtain ⟨page, hcall, hstop | hnext⟩ := hgood i t ht
    · refine ⟨1, fun fuel hfuel => ?_⟩
      obtain ⟨fuel, rfl⟩ : ∃ m, fuel = m + 1 := ⟨fuel - 1, by omega⟩
      rw [walk_succ hcall, if_pos hstop]
      rfl
    · obtain ⟨n, hn⟩ := ih hnext (i := i + 1) (by omega)
      refine ⟨n + 1, fun fuel hfuel => ?_⟩
      obtain ⟨fuel, rfl⟩ : ∃ m, fuel = m + 1 := ⟨fuel - 1, by omega⟩
      rw [walk_succ hcall]
      grind

end Walk

/-! ### Pages by offset -/

section Offset

variable {α τ : Type} [DecidableEq τ] {stop : τ} {call : Nat → τ → Option (Page α τ)}

structure OffsetCall (call : Nat → τ → Option (Page α τ)) (stop : τ) (items : List α)
    (offsetOf : τ → Nat → Prop) (size : Nat → Nat) : Prop where
  size_pos : ∀ i, 0 < size i
  page : ∀ i t n, offsetOf t n → ∃ page, call i t = some page ∧
    page.items = (items.drop n).take (size i) ∧
    if n + size i < items.length then page.next ≠ stop ∧ offsetOf page.next (n + size i)
    else page.next = stop

theorem OffsetCall.walk_eq {items : List α} {offsetOf : τ → Nat → Prop} {size : Nat → Nat}
    (h : OffsetCall call stop items offsetOf size) {fuel i n : Nat} {t : τ} (ht : offsetOf t n)
    (hfuel : (items.drop n).length < fuel) : walk stop call fuel i t = some (items.drop n) := by
  refine walk_eq_of_remaining (s := 0)
    (R := fun t xs => ∃ n, offsetOf t n ∧ xs = items.drop n) ?_ (Nat.zero_le i)
    ⟨n, ht, rfl⟩ hfuel
  rintro i t xs - ⟨n, hn, rfl⟩
  obtain ⟨page, hcall, hitems, hnext⟩ := h.page i t n hn
  have hpos := h.size_pos i
  refine ⟨page, hcall, ?_⟩
  split at hnext
  · rename_i hmore
    refine Or.inr ⟨hnext.1, ?_, items.drop (n + size i), ?_, _, hnext.2, rfl⟩
    · rw [hitems, ne_eq, List.take_eq_nil_iff, List.drop_eq_nil_iff]
      omega
    · rw [hitems, ← List.drop_drop, List.take_append_drop]
  · rename_i hlast
    refine Or.inl ⟨hnext, ?_⟩
    rw [hitems, List.take_of_length_le]
    grind

end Offset

/-! ### Pages by key -/

section Keyset

variable {α κ τ : Type} [LinearOrder κ] {key : α → κ}

def behind (key : α → κ) (cursor : WithBot κ) (rows : List α) : List α :=
  rows.filter (fun r => cursor < key r)

theorem mem_behind {cursor : WithBot κ} {rows : List α} {r : α} :
    r ∈ behind key cursor rows ↔ r ∈ rows ∧ cursor < key r := by
  simp [behind]

theorem behind_bot (rows : List α) : behind key ⊥ rows = rows := by
  rw [behind, List.filter_eq_self]
  simp

theorem behind_behind {c d : WithBot κ} (hcd : c ≤ d) (rows : List α) :
    behind key d (behind key c rows) = behind key d rows := by
  rw [behind, behind, behind, List.filter_filter]
  grind

theorem pairwise_behind {cursor : WithBot κ} {rows : List α}
    (h : rows.Pairwise (fun a b => key a < key b)) :
    (behind key cursor rows).Pairwise (fun a b => key a < key b) :=
  h.filter _

section Sorting

variable {r : α → α → Prop} [DecidableRel r] {l : List α}

theorem pairwise_insertionSort_key (hr : ∀ a b, r a b ↔ key a ≤ key b) (hl : (l.map key).Nodup) :
    (l.insertionSort r).Pairwise (fun a b => key a < key b) := by
  have htotal : Std.Total r := ⟨fun a b => by rw [hr, hr]; exact le_total _ _⟩
  have htrans : IsTrans α r := ⟨fun a b c hab hbc => by
    rw [hr] at hab hbc ⊢
    exact le_trans hab hbc⟩
  have hne : (l.insertionSort r).Pairwise (fun a b => key a ≠ key b) := by
    have hnodup : ((l.insertionSort r).map key).Nodup :=
      ((List.perm_insertionSort r l).map key).nodup_iff.mpr hl
    exact List.pairwise_map.mp hnodup
  refine ((List.pairwise_insertionSort r l).and hne).imp ?_
  rintro a b ⟨hab, hne⟩
  exact lt_of_le_of_ne ((hr a b).mp hab) hne

theorem behind_insertionSort (hr : ∀ a b, r a b ↔ key a ≤ key b) (hl : (l.map key).Nodup)
    (cursor : WithBot κ) :
    behind key cursor (l.insertionSort r) = (behind key cursor l).insertionSort r := by
  have hl' : ((behind key cursor l).map key).Nodup :=
    hl.sublist (List.filter_sublist.map key)
  refine List.Perm.eq_of_pairwise ?_
    (pairwise_behind (pairwise_insertionSort_key hr hl)) (pairwise_insertionSort_key hr hl') ?_
  · grind
  · exact ((List.perm_insertionSort r l).filter _).trans (List.perm_insertionSort r _).symm

end Sorting

theorem drop_eq_behind {l : List α} (h : l.Pairwise (fun a b => key a < key b)) {n : Nat}
    {last : α} (hlast : l[n]? = some last) :
    l.drop (n + 1) = behind key (key last) l := by
  obtain ⟨hn, rfl⟩ := List.getElem?_eq_some_iff.mp hlast
  have hsplit : l = l.take n ++ l[n] :: l.drop (n + 1) := by
    simp
  have hord := h
  rw [hsplit, List.pairwise_append, List.pairwise_cons] at hord
  obtain ⟨-, ⟨hafter, -⟩, hbefore⟩ := hord
  -- nothing up to the last item lies behind it, everything after it does
  have hfirst : ∀ r ∈ l.take (n + 1), key r ≤ key l[n] := by
    intro r hr
    rw [List.take_succ_eq_append_getElem hn, List.mem_append, List.mem_singleton] at hr
    rcases hr with hr | rfl
    · exact le_of_lt (hbefore r hr _ List.mem_cons_self)
    · exact le_refl _
  have hnone : behind key (key l[n]) (l.take (n + 1)) = [] := by
    rw [behind, List.filter_eq_nil_iff]
    intro r hr
    simpa using hfirst r hr
  have hall : behind key (key l[n]) (l.drop (n + 1)) = l.drop (n + 1) := by
    rw [behind, List.filter_eq_self]
    intro r hr
    simpa using hafter r hr
  calc l.drop (n + 1)
      = behind key (key l[n]) (l.take (n + 1)) ++ behind key (key l[n]) (l.drop (n + 1)) := by
        rw [hnone, hall, List.nil_append]
    _ = behind key (key l[n]) l := by
        rw [behind, behind, behind, ← List.filter_append, List.take_append_drop]

theorem countP_behind {l : List α} (hl : l.Pairwise (fun a b => key a < key b)) {k : κ}
    (hk : ∃ r ∈ l, key r = k) (c : WithBot κ) :
    (behind key c l).countP (fun r => key r = k) = if c < k then 1 else 0 := by
  have hnodup : ((behind key c l).map key).Nodup :=
    List.pairwise_map.mpr ((pairwise_behind hl).imp (fun hlt => ne_of_lt hlt))
  have hcount : (behind key c l).countP (fun r => key r = k) =
      ((behind key c l).map key).count k := by
    rw [List.count, List.countP_map]
    rfl
  rw [hcount]
  split
  · rename_i hlt
    obtain ⟨r, hr, rfl⟩ := hk
    exact List.count_eq_one_of_mem hnodup (List.mem_map_of_mem (mem_behind.mpr ⟨hr, hlt⟩))
  · rename_i hlt
    refine List.count_eq_zero_of_not_mem (fun hmem => hlt ?_)
    obtain ⟨r, hr, rfl⟩ := List.mem_map.mp hmem
    exact (mem_behind.mp hr).2

variable {stop : τ} {call : Nat → τ → Option (Page α τ)}

structure KeysetCall (call : Nat → τ → Option (Page α τ)) (stop : τ) (key : α → κ)
    (rows : Nat → List α) (cursorOf : τ → WithBot κ → Prop) (size : Nat → Nat) : Prop where
  size_pos : ∀ i, 0 < size i
  ordered : ∀ i, (rows i).Pairwise (fun a b => key a < key b)
  page : ∀ i t c, cursorOf t c → ∃ page, call i t = some page ∧
    page.items = (behind key c (rows i)).take (size i) ∧
    if size i < (behind key c (rows i)).length then
      page.next ≠ stop ∧ ∃ last, (behind key c (rows i))[size i - 1]? = some last ∧
        cursorOf page.next (key last)
    else page.next = stop

variable {rows : Nat → List α} {cursorOf : τ → WithBot κ → Prop} {size : Nat → Nat}

namespace KeysetCall

variable {i : Nat} {t : τ} {c : WithBot κ}

theorem split (h : KeysetCall call stop key rows cursorOf size) (hc : cursorOf t c) :
    ∃ page, call i t = some page ∧
      (page.next = stop ∧ page.items = behind key c (rows i) ∨
        page.next ≠ stop ∧ page.items ≠ [] ∧ ∃ last, c < key last ∧ cursorOf page.next (key last) ∧
          behind key c (rows i) = page.items ++ behind key (key last) (rows i)) := by
  obtain ⟨page, hcall, hitems, hnext⟩ := h.page i t c hc
  have hpos := h.size_pos i
  refine ⟨page, hcall, ?_⟩
  split at hnext
  · rename_i hmore
    obtain ⟨hne, last, hlast, hcursor⟩ := hnext
    -- what the page leaves lies behind its last row
    have hsize : size i - 1 + 1 = size i := by omega
    have hdrop := drop_eq_behind (pairwise_behind (h.ordered i)) hlast
    rw [hsize] at hdrop
    have hlt : c < key last := (mem_behind.mp (List.mem_of_getElem? hlast)).2
    rw [behind_behind (le_of_lt hlt)] at hdrop
    refine Or.inr ⟨hne, ?_, last, hlt, hcursor, ?_⟩
    · rw [hitems, ne_eq, List.take_eq_nil_iff, ← List.length_eq_zero_iff]
      omega
    · rw [hitems, ← hdrop, List.take_append_drop]
  · rename_i hlast
    refine Or.inl ⟨hnext, ?_⟩
    rw [hitems, List.take_of_length_le (by omega)]

variable [DecidableEq τ]

theorem walk_eq (h : KeysetCall call stop key rows cursorOf size) {s : Nat} {final : List α}
    (hfinal : ∀ i, s ≤ i → rows i = final) {fuel : Nat} (hi : s ≤ i)
    (hc : cursorOf t c) (hfuel : (behind key c final).length < fuel) :
    walk stop call fuel i t = some (behind key c final) := by
  refine walk_eq_of_remaining (s := s)
    (R := fun t xs => ∃ c, cursorOf t c ∧ xs = behind key c final) ?_ hi ⟨c, hc, rfl⟩ hfuel
  rintro i t xs hi ⟨c, hc, rfl⟩
  obtain ⟨page, hcall, hlast | ⟨hne, hitems, last, -, hcursor, hsplit⟩⟩ := h.split (i := i) hc
  · grind
  · grind

theorem walk_isSome (h : KeysetCall call stop key rows cursorOf size) {s : Nat} {final : List α}
    (hfinal : ∀ i, s ≤ i → rows i = final) (hc : cursorOf t c) :
    ∃ n, ∀ fuel, n ≤ fuel → (walk stop call fuel i t).isSome = true := by
  refine walk_isSome_of_eventually (G := fun t => ∃ c, cursorOf t c) (s := s) ?_ ?_ ⟨c, hc⟩
  · rintro i t ⟨c, hc⟩
    obtain ⟨page, hcall, ⟨hstop, -⟩ | ⟨-, -, last, -, hcursor, -⟩⟩ := h.split (i := i) hc
    · grind
    · grind
  · rintro i t hi ⟨c, hc⟩
    refine ⟨(behind key c final).length + 1, fun fuel hfuel => ?_⟩
    rw [h.walk_eq hfinal hi hc (by omega)]
    rfl

/-- **A row that stays is read exactly once**, whatever becomes of the others between two calls: a
    finished walk has it once if it lies behind the cursor, and not at all otherwise. -/
theorem count_of_walk (h : KeysetCall call stop key rows cursorOf size) {k : κ}
    (hstays : ∀ i, ∃ r ∈ rows i, key r = k) {p : α → Bool}
    (hp : ∀ i, ∀ r ∈ rows i, p r = true ↔ key r = k) {fuel : Nat} (hc : cursorOf t c)
    {xs : List α} (hwalk : walk stop call fuel i t = some xs) :
    xs.countP p = if c < k then 1 else 0 := by
  induction fuel generalizing i t c xs with
  | zero => exact absurd hwalk (by simp [walk])
  | succ fuel ih =>
    have hcount : ∀ c : WithBot κ, (behind key c (rows i)).countP p = if c < k then 1 else 0 := by
      intro c
      rw [← countP_behind (h.ordered i) (hstays i) c]
      apply List.countP_congr
      intro r hr
      rw [hp i r (mem_behind.mp hr).1, decide_eq_true_eq]
    obtain ⟨page, hcall, ⟨hstop, hitems⟩ | ⟨hne, -, last, hlt, hcursor, hsplit⟩⟩ :=
      h.split (i := i) hc
    · rw [walk_succ hcall, if_pos hstop] at hwalk
      grind
    · rw [walk_succ hcall, if_neg hne] at hwalk
      obtain ⟨ys, hys, rfl⟩ := Option.map_eq_some_iff.mp hwalk
      -- the page has the row if it lies behind this cursor but not behind the next one
      grind

end KeysetCall

end Keyset

end Zynax.Paging
