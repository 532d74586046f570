import Mathlib.Data.List.Infix
import Zynax.Golang.Strings

namespace Zynax.Golang.Filepath

/-!
# Go's `path/filepath`, with POSIX path rules

Paths are arbitrary bytes.  The functions of the package work on them byte by byte; what they compute
is said in terms of normal paths, which are a place to start from and a list of names.
-/

def slash : UInt8 := 0x2f

def dot : UInt8 := 0x2e

def dotdot : List UInt8 := [dot, dot]

/-! ### `Clean` -/

structure Lazybuf where
  out : List UInt8
  dotdot : Nat
  deriving DecidableEq

def backtrack (limit : Nat) : List UInt8 → List UInt8
  | [] => []
  | b :: r => if limit < r.length ∧ b ≠ slash then backtrack limit r else r

namespace Lazybuf

def up (rooted : Bool) (b : Lazybuf) : Lazybuf :=
  if b.dotdot < b.out.length then { b with out := backtrack b.dotdot b.out }
  else if rooted then b
  else
    let out := dot :: dot :: (if b.out.length > 0 then slash :: b.out else b.out)
    ⟨out, out.length⟩

def separate (rooted : Bool) (b : Lazybuf) : Lazybuf :=
  if rooted && b.out.length ≠ 1 || !rooted && b.out.length ≠ 0 then { b with out := slash :: b.out }
  else b

def append (b : Lazybuf) (c : UInt8) : Lazybuf := { b with out := c :: b.out }

end Lazybuf

def atEnd : List UInt8 → Bool
  | [] => true
  | c :: _ => c == slash

def cleanLoop (rooted : Bool) : Bool → List UInt8 → Lazybuf → Lazybuf
  | _, [], b => b
  | true, c :: rest, b =>
    if c = slash then cleanLoop rooted false rest b else cleanLoop rooted true rest (b.append c)
  | false, [c], b =>
    if c = slash ∨ c = dot then b else (b.separate rooted).append c
  | false, c :: d :: rest, b =>
    if c = slash then cleanLoop rooted false (d :: rest) b
    else if c = dot ∧ d = slash then cleanLoop rooted false (d :: rest) b
    else if c = dot ∧ d = dot ∧ atEnd rest then cleanLoop rooted false rest (b.up rooted)
    else cleanLoop rooted true (d :: rest) ((b.separate rooted).append c)

def cleanBuf : List UInt8 → Lazybuf
  | [] => ⟨[], 0⟩
  | c :: rest =>
    if c = slash then cleanLoop true false rest ⟨[slash], 1⟩
    else cleanLoop false false (c :: rest) ⟨[], 0⟩

def clean (path : List UInt8) : List UInt8 :=
  if (cleanBuf path).out = [] then [dot] else (cleanBuf path).out.reverse

/-! ### `Join`, `IsAbs`, `Dir` and `Rel` -/

def join (elem : List (List UInt8)) : List UInt8 :=
  match elem.dropWhile List.isEmpty with
  | [] => []
  | rest => clean ([slash].intercalate rest)

def isAbs (path : List UInt8) : Bool := path.head? = some slash

def dir (path : List UInt8) : List UInt8 := clean (path.reverse.dropWhile (· ≠ slash)).reverse

def relLoop (base targ : List UInt8) : List UInt8 × List UInt8 × List UInt8 :=
  if h : base = [] ∨ targ = [] then (base, targ, [])
  else
    let b := base.takeWhile (· ≠ slash)
    let t := targ.takeWhile (· ≠ slash)
    if t ≠ b then (base, targ, b) else relLoop (base.drop (b.length + 1)) (targ.drop (t.length + 1))
termination_by base.length
decreasing_by
  have hpos := List.length_pos_iff.mpr (not_or.mp h).1
  rw [List.length_drop]
  omega

def upThenDown (b t : List UInt8) : List UInt8 :=
  let ups := [slash].intercalate (List.replicate (b.count slash + 1) dotdot)
  if t ≠ [] then ups ++ slash :: t else ups

def rel (basepath targpath : List UInt8) : Option (List UInt8) :=
  let base := clean basepath
  let targ := clean targpath
  if targ = base then some [dot]
  else
    let base := if base = [dot] then [] else base
    if isAbs base ≠ isAbs targ then none
    else
      let (b, t, elem) := relLoop base targ
      if elem = dotdot then none
      else if b ≠ [] then some (upThenDown b t)
      else some t

def escapes (path : List UInt8) : Bool := path = dotdot || (dotdot ++ [slash]).isPrefixOf path

/-! ### Normal paths -/

def IsName (s : List UInt8) : Prop := s ≠ [] ∧ s ≠ [dot] ∧ s ≠ dotdot ∧ slash ∉ s

instance : DecidablePred IsName := fun s =>
  inferInstanceAs (Decidable (s ≠ [] ∧ s ≠ [dot] ∧ s ≠ dotdot ∧ slash ∉ s))

abbrev Name : Type := { s : List UInt8 // IsName s }

inductive Anchor where
  | root
  | ups (n : Nat)
  deriving DecidableEq

def Anchor.parent : Anchor → Anchor
  | .root => .root
  | .ups n => .ups (n + 1)

@[ext] structure Path where
  anchor : Anchor
  names : List Name
  deriving DecidableEq

def segments (path : List UInt8) : List (List UInt8) := path.splitOn slash

theorem segments_append (a b : List UInt8) :
    segments (a ++ slash :: b) = segments a ++ segments b :=
  List.splitOnP_append_cons (p := (· == slash)) a b (beq_self_eq_true slash)

namespace Path

def isRooted (p : Path) : Bool := p.anchor = .root

def parent (p : Path) : Path :=
  if p.names = [] then ⟨p.anchor.parent, []⟩ else { p with names := p.names.dropLast }

def child (p : Path) (n : Name) : Path := { p with names := p.names ++ [n] }

def step (p : Path) (s : List UInt8) : Path :=
  if s = [] ∨ s = [dot] then p
  else if s = dotdot then p.parent
  else if h : IsName s then p.child ⟨s, h⟩
  else p

def walk (p : Path) (path : List UInt8) : Path := (segments path).foldl step p

def ofBytes (path : List UInt8) : Path :=
  walk ⟨if isAbs path then .root else .ups 0, []⟩ path

def elements (p : Path) : List (List UInt8) :=
  match p.anchor with
  | .root => p.names.map (·.1)
  | .ups n => List.replicate n dotdot ++ p.names.map (·.1)

def written (p : Path) : List UInt8 :=
  (if p.isRooted then [slash] else []) ++ [slash].intercalate p.elements

def render (p : Path) : List UInt8 := if p.written = [] then [dot] else p.written

def Inside (p d : Path) : Prop := p.anchor = d.anchor ∧ d.names <+: p.names

instance (p d : Path) : Decidable (p.Inside d) :=
  inferInstanceAs (Decidable (p.anchor = d.anchor ∧ d.names <+: p.names))

end Path

/-! ### Texts of elements -/

def IsElement (s : List UInt8) : Prop := s = dotdot ∨ IsName s

theorem IsElement.ne_nil {s : List UInt8} (h : IsElement s) : s ≠ [] := by
  rcases h with rfl | h
  · simp [dotdot]
  · exact h.1

theorem IsElement.slash_notMem {s : List UInt8} (h : IsElement s) : slash ∉ s := by
  rcases h with rfl | h
  · decide
  · exact h.2.2.2

theorem intercalate_concat {α : Type} (sep : List α) {l : List (List α)} (hl : l ≠ []) (x : List α) :
    sep.intercalate (l ++ [x]) = sep.intercalate l ++ sep ++ x := by
  induction l with
  | nil => exact absurd rfl hl
  | cons y l ih =>
    cases l with
    | nil => rw [List.singleton_append, List.intercalate_cons_cons, List.intercalate_singleton,
        List.intercalate_singleton]
    | cons z l =>
      rw [List.cons_append, List.cons_append, List.intercalate_cons_cons, ← List.cons_append,
        ih (by simp), List.intercalate_cons_cons]
      simp

theorem intercalate_eq_nil_iff {l : List (List UInt8)} (hl : ∀ s ∈ l, IsElement s) :
    [slash].intercalate l = [] ↔ l = [] := by
  cases l with
  | nil => exact iff_of_true rfl rfl
  | cons s l =>
    have hs := (hl s (by simp)).ne_nil
    refine iff_of_false (fun h => ?_) (by simp)
    cases l with
    | nil => exact hs (by simpa using h)
    | cons t l =>
      rw [List.intercalate_cons_cons] at h
      simp at h

namespace Path

theorem isElement_of_mem {p : Path} {s : List UInt8} (h : s ∈ p.elements) : IsElement s := by
  have hnames : s ∈ p.names.map (·.1) → IsElement s := by
    intro hs
    obtain ⟨n, -, rfl⟩ := List.mem_map.mp hs
    exact .inr n.2
  unfold elements at h
  split at h
  · exact hnames h
  · rcases List.mem_append.mp h with h | h
    · exact .inl (List.eq_of_mem_replicate h)
    · exact hnames h

theorem elements_child (p : Path) (n : Name) : (p.child n).elements = p.elements ++ [n.1] := by
  obtain ⟨anchor, names⟩ := p
  cases anchor <;> simp [elements, child]

theorem written_child (p : Path) (n : Name) :
    (p.child n).written = p.written ++ (if p.elements = [] then [] else [slash]) ++ n.1 := by
  have hroot : (p.child n).isRooted = p.isRooted := rfl
  rw [written, written, elements_child, hroot]
  by_cases hp : p.elements = []
  · rw [if_pos hp, hp, List.nil_append, List.intercalate_singleton, List.intercalate_nil,
      List.append_nil, List.append_nil]
  · rw [if_neg hp, intercalate_concat [slash] hp]
    simp

theorem length_written (p : Path) :
    p.written.length = (if p.isRooted then 1 else 0) ↔ p.elements = [] := by
  rw [written, List.length_append, ← intercalate_eq_nil_iff (fun s => isElement_of_mem),
    ← List.length_eq_zero_iff]
  grind

def buf (p : Path) : Lazybuf := ⟨p.written.reverse, (Path.mk p.anchor []).written.length⟩

theorem separate_buf (p : Path) :
    p.buf.separate p.isRooted =
      { p.buf with out := (if p.elements = [] then [] else [slash]) ++ p.written.reverse } := by
  have hlen := p.length_written
  unfold Lazybuf.separate buf
  grind

theorem buf_child (p : Path) (n : Name) :
    (p.child n).buf =
      { p.buf.separate p.isRooted with out := n.1.reverse ++ (p.buf.separate p.isRooted).out } := by
  rw [separate_buf]
  show (⟨(p.child n).written.reverse, _⟩ : Lazybuf) = ⟨_, _⟩
  rw [written_child, List.reverse_append, List.reverse_append]
  split <;> rfl

end Path

/-! ### What `Clean` computes -/

theorem backtrack_slash {n : List UInt8} (hn : slash ∉ n) {limit : Nat} {r : List UInt8}
    (hr : limit ≤ r.length) : backtrack limit (n ++ slash :: r) = r := by
  induction n with
  | nil => simp [backtrack]
  | cons b n ih =>
    rw [List.mem_cons, not_or] at hn
    have hlong : limit < (n ++ slash :: r).length := by
      grind
    rw [List.cons_append, backtrack, if_pos ⟨hlong, Ne.symm hn.1⟩, ih hn.2]

theorem backtrack_limit {n : List UInt8} (hn : slash ∉ n) (hne : n ≠ []) (r : List UInt8) :
    backtrack r.length (n ++ r) = r := by
  induction n with
  | nil => exact absurd rfl hne
  | cons b n ih =>
    rw [List.mem_cons, not_or] at hn
    rw [List.cons_append, backtrack]
    cases n with
    | nil => rw [List.nil_append, if_neg (fun h => Nat.lt_irrefl _ h.1)]
    | cons d n =>
      grind

/-! ### Rendered paths are read again -/

namespace Path

theorem length_written_anchor (p : Path) :
    (Path.mk p.anchor []).written.length ≤ p.written.length := by
  obtain ⟨anchor, names⟩ := p
  induction names using List.reverseRecOn with
  | nil => exact Nat.le_refl _
  | append_singleton names n ih =>
    have hchild := written_child ⟨anchor, names⟩ n
    rw [show Path.mk anchor (names ++ [n]) = (Path.mk anchor names).child n from rfl, hchild,
      List.length_append, List.length_append]
    exact Nat.le_trans ih (by omega)

theorem up_buf_child (p : Path) (n : Name) : (p.child n).buf.up p.isRooted = p.buf := by
  have hn : slash ∉ n.1.reverse := fun h => n.2.2.2.2 (List.mem_reverse.mp h)
  have hne : n.1.reverse ≠ [] := fun h => n.2.1 (List.reverse_eq_nil_iff.mp h)
  have hout : (p.child n).buf.out =
      n.1.reverse ++ ((if p.elements = [] then [] else [slash]) ++ p.written.reverse) := by
    rw [buf_child, separate_buf]
  have hlimit : (p.child n).buf.dotdot = (Path.mk p.anchor []).written.length := rfl
  have hlong : (p.child n).buf.dotdot < (p.child n).buf.out.length := by
    have hpos := List.length_pos_iff.mpr hne
    have hanchor := p.length_written_anchor
    grind
  rw [Lazybuf.up, if_pos hlong, hout, hlimit]
  show (⟨_, _⟩ : Lazybuf) = ⟨p.written.reverse, (Path.mk p.anchor []).written.length⟩
  congr 1
  by_cases hp : p.elements = []
  · -- the first name: there is nothing before it but the root
    have hbase : (Path.mk p.anchor []).written.length = p.written.reverse.length := by
      have hempty : (Path.mk p.anchor []).elements = [] := by
        obtain ⟨anchor, names⟩ := p
        cases anchor with
        | root => rfl
        | ups k =>
          show List.replicate k dotdot ++ [] = []
          rw [List.append_nil]
          exact (List.append_eq_nil_iff.mp hp).1
      rw [List.length_reverse, p.length_written.mpr hp]
      exact (Path.mk p.anchor []).length_written.mpr hempty
    rw [if_pos hp, List.nil_append, hbase]
    exact backtrack_limit hn hne _
  · rw [if_neg hp, List.singleton_append]
    refine backtrack_slash hn ?_
    rw [List.length_reverse]
    exact p.length_written_anchor

theorem parent_child (p : Path) (n : Name) : (p.child n).parent = p := by
  rw [parent, if_neg (by simp [child])]
  simp [child]

theorem written_ups (k : Nat) :
    (Path.mk (.ups k) []).written = [slash].intercalate (List.replicate k dotdot) := by
  show [] ++ [slash].intercalate (List.replicate k dotdot ++ []) = _
  simp

theorem written_ups_succ (k : Nat) :
    (Path.mk (.ups (k + 1)) []).written =
      (if (Path.mk (.ups k) []).written.length > 0 then (Path.mk (.ups k) []).written ++ [slash]
      else (Path.mk (.ups k) []).written) ++ dotdot := by
  rw [written_ups, written_ups, List.replicate_succ']
  cases k with
  | zero => rfl
  | succ k =>
    have hpos : ([slash].intercalate (List.replicate (k + 1) dotdot)).length > 0 := by
      rw [gt_iff_lt, List.length_pos_iff, ne_eq, intercalate_eq_nil_iff]
      · simp
      · exact fun s hs => .inl (List.eq_of_mem_replicate hs)
    rw [if_pos hpos, intercalate_concat [slash] (by simp)]

theorem up_buf_anchor (anchor : Anchor) :
    (Path.mk anchor []).buf.up (Path.mk anchor []).isRooted = (Path.mk anchor.parent []).buf := by
  have hstay : ¬ (Path.mk anchor []).buf.dotdot < (Path.mk anchor []).buf.out.length := by
    show ¬ (Path.mk anchor []).written.length < (Path.mk anchor []).written.reverse.length
    simp
  rw [Lazybuf.up, if_neg hstay]
  cases anchor with
  | root => rfl
  | ups k =>
    have hout : (dot :: dot :: (if (Path.mk (.ups k) []).buf.out.length > 0 then
        slash :: (Path.mk (.ups k) []).buf.out else (Path.mk (.ups k) []).buf.out)) =
          (Path.mk (.ups (k + 1)) []).written.reverse := by
      show dot :: dot :: (if (Path.mk (.ups k) []).written.reverse.length > 0 then
        slash :: (Path.mk (.ups k) []).written.reverse
        else (Path.mk (.ups k) []).written.reverse) = _
      rw [List.length_reverse, written_ups_succ, List.reverse_append]
      split
      · rw [List.reverse_append]
        rfl
      · rfl
    show (⟨_, _⟩ : Lazybuf) = ⟨(Path.mk (.ups (k + 1)) []).written.reverse,
      (Path.mk (.ups (k + 1)) []).written.length⟩
    grind

theorem up_buf (p : Path) : p.buf.up p.isRooted = p.parent.buf := by
  obtain ⟨anchor, names⟩ := p
  rcases List.eq_nil_or_concat names with rfl | ⟨names, n, rfl⟩
  · exact up_buf_anchor anchor
  · rw [List.concat_eq_append, show Path.mk anchor (names ++ [n]) = (Path.mk anchor names).child n from rfl,
      parent_child]
    exact up_buf_child ⟨anchor, names⟩ n

end Path

variable {s t : List UInt8}

theorem cleanLoop_copy (rooted : Bool) (hs : slash ∉ s) (ht : atEnd t = true) (b : Lazybuf) :
    cleanLoop rooted true (s ++ t) b =
      cleanLoop rooted false t { b with out := s.reverse ++ b.out } := by
  induction s generalizing b with
  | nil =>
    cases t with
    | nil => rfl
    | cons c t =>
      obtain rfl : c = slash := by simpa [atEnd] using ht
      cases t <;> simp [cleanLoop]
  | cons c s ih =>
    rw [List.mem_cons, not_or] at hs
    rw [List.cons_append, cleanLoop, if_neg (Ne.symm hs.1), ih hs.2]
    simp [Lazybuf.append]

theorem cleanLoop_slash (rooted : Bool) (t : List UInt8) (b : Lazybuf) :
    cleanLoop rooted false (slash :: t) b = cleanLoop rooted false t b := by
  cases t <;> simp [cleanLoop]

theorem cleanLoop_name (rooted : Bool) {c : UInt8} (hname : IsName (c :: s))
    (ht : atEnd t = true) (b : Lazybuf) :
    cleanLoop rooted false (c :: s ++ t) b =
      cleanLoop rooted true (s ++ t) ((b.separate rooted).append c) := by
  obtain ⟨-, hdot, hdotdot, hslash⟩ := hname
  rw [List.mem_cons, not_or] at hslash
  obtain ⟨hc, hs⟩ := hslash
  cases s with
  | nil =>
    have hcdot : c ≠ dot := fun h => hdot (by rw [h])
    cases t with
    | nil => simp [cleanLoop, Ne.symm hc, hcdot]
    | cons d t => simp [cleanLoop, Ne.symm hc, hcdot]
  | cons d s =>
    rw [List.mem_cons, not_or] at hs
    -- two dots would have to be followed by more of the name
    have hmore : ¬ (c = dot ∧ d = dot ∧ atEnd (s ++ t) = true) := by
      rintro ⟨rfl, rfl, hend⟩
      cases s with
      | nil => exact hdotdot rfl
      | cons e s =>
        obtain rfl : e = slash := by simpa [atEnd] using hend
        exact hs.2 (by simp)
    show cleanLoop rooted false (c :: d :: (s ++ t)) b = _
    rw [cleanLoop.eq_4, if_neg (Ne.symm hc), if_neg (fun h => hs.1 h.2.symm), if_neg hmore]
    rfl

/-- **One segment of the path** and the loop of `Clean` stands where the segment leads to. -/
theorem cleanLoop_segment {p : Path} (hs : slash ∉ s) (ht : atEnd t = true) :
    cleanLoop p.isRooted false (s ++ t) p.buf = cleanLoop p.isRooted false t (p.step s).buf := by
  unfold Path.step
  split_ifs with hdrop hup hname
  · rcases hdrop with rfl | rfl
    · rfl
    · cases t with
      | nil => simp [cleanLoop, dot]
      | cons c t =>
        obtain rfl : c = slash := by simpa [atEnd] using ht
        rfl
  · subst hup
    show cleanLoop p.isRooted false (dot :: dot :: t) p.buf = _
    rw [cleanLoop, if_neg (by decide), if_neg (by decide), if_pos ⟨rfl, rfl, ht⟩, p.up_buf]
  · cases s with
    | nil => exact absurd rfl hname.1
    | cons c s =>
      have hrest : slash ∉ s := fun h => hs (List.mem_cons_of_mem c h)
      rw [cleanLoop_name p.isRooted hname ht, cleanLoop_copy p.isRooted hrest ht, p.buf_child]
      simp [Lazybuf.append]
  · exact absurd ⟨fun h => hdrop (.inl h), fun h => hdrop (.inr h), hup, hs⟩ hname

theorem Path.isRooted_step (p : Path) (s : List UInt8) : (p.step s).isRooted = p.isRooted := by
  unfold step
  split_ifs
  · rfl
  · unfold parent
    split_ifs
    · obtain ⟨anchor, names⟩ := p
      cases anchor <;> rfl
    · rfl
  · rfl
  · rfl

theorem cleanLoop_segments {segs : List (List UInt8)} (hsegs : ∀ s ∈ segs, slash ∉ s) (p : Path) :
    cleanLoop p.isRooted false ([slash].intercalate segs) p.buf = (segs.foldl Path.step p).buf := by
  induction segs generalizing p with
  | nil => rfl
  | cons s segs ih =>
    rw [List.forall_mem_cons] at hsegs
    have hnext := ih hsegs.2 (p.step s)
    rw [p.isRooted_step] at hnext
    cases segs with
    | nil =>
      have hlast := cleanLoop_segment (p := p) hsegs.1 (t := []) rfl
      rw [List.append_nil] at hlast
      rw [List.intercalate_singleton, hlast]
      exact hnext
    | cons s' segs =>
      rw [List.intercalate_cons_cons, List.append_assoc, List.singleton_append,
        cleanLoop_segment hsegs.1 rfl, cleanLoop_slash, hnext]
      rfl

theorem cleanLoop_walk (p : Path) (path : List UInt8) :
    cleanLoop p.isRooted false path p.buf = (p.walk path).buf := by
  have hsegs := cleanLoop_segments (fun s (hs : s ∈ segments path) => notMem_of_mem_splitOn hs) p
  rw [segments, List.intercalate_splitOn] at hsegs
  exact hsegs

theorem Path.walk_slash (p : Path) (path : List UInt8) : p.walk (slash :: path) = p.walk path := by
  rfl

/-- **`Clean` reads the segments of a path** and renders where they lead to. -/
theorem clean_eq (path : List UInt8) : clean path = (Path.ofBytes path).render := by
  have hbuf : cleanBuf path = (Path.ofBytes path).buf := by
    cases path with
    | nil => rfl
    | cons c rest =>
      rw [cleanBuf, Path.ofBytes]
      by_cases hc : c = slash
      · subst hc
        rw [if_pos rfl, if_pos (by simp [isAbs]), Path.walk_slash]
        exact cleanLoop_walk ⟨.root, []⟩ rest
      · rw [if_neg hc, if_neg (by simpa [isAbs] using hc)]
        exact cleanLoop_walk ⟨.ups 0, []⟩ (c :: rest)
  rw [clean, hbuf, Path.render]
  show (if (Path.ofBytes path).written.reverse = [] then _ else
    (Path.ofBytes path).written.reverse.reverse) = _
  simp

namespace Path

variable {l : List (List UInt8)}

theorem walk_append (p : Path) (a b : List UInt8) : p.walk (a ++ slash :: b) = (p.walk a).walk b := by
  rw [walk, segments_append, List.foldl_append]
  rfl

theorem ofBytes_append {a : List UInt8} (ha : a ≠ []) (b : List UInt8) :
    ofBytes (a ++ slash :: b) = (ofBytes a).walk b := by
  have habs : isAbs (a ++ slash :: b) = isAbs a := by
    obtain ⟨c, a, rfl⟩ := List.exists_cons_of_ne_nil ha
    rfl
  rw [ofBytes, walk_append, habs]
  rfl

theorem step_dotdot (p : Path) : p.step dotdot = p.parent := by
  rfl

theorem step_name (p : Path) (n : Name) : p.step n.1 = p.child n := by
  have hdrop : ¬ (n.1 = [] ∨ n.1 = [dot]) := by
    rintro (h | h)
    · exact n.2.1 h
    · exact n.2.2.1 h
  rw [step, if_neg hdrop, if_neg n.2.2.2.1, dif_pos n.2]

theorem foldl_step_replicate (k m : Nat) :
    (List.replicate k dotdot).foldl step ⟨.ups m, []⟩ = ⟨.ups (m + k), []⟩ := by
  induction k generalizing m with
  | zero => rfl
  | succ k ih =>
    rw [List.replicate_succ, List.foldl_cons, step_dotdot]
    show (List.replicate k dotdot).foldl step ⟨.ups (m + 1), []⟩ = _
    grind

theorem foldl_step_names (p : Path) (names : List Name) :
    (names.map (·.1)).foldl step p = { p with names := p.names ++ names } := by
  induction names generalizing p with
  | nil => simp
  | cons n names ih =>
    rw [List.map_cons, List.foldl_cons, step_name, ih]
    simp [child]

theorem foldl_step_elements (p : Path) :
    p.elements.foldl step ⟨if p.isRooted then .root else .ups 0, []⟩ = p := by
  obtain ⟨anchor, names⟩ := p
  cases anchor with
  | root => exact foldl_step_names ⟨.root, []⟩ names
  | ups k =>
    show (List.replicate k dotdot ++ names.map (·.1)).foldl step ⟨.ups 0, []⟩ = _
    rw [List.foldl_append, foldl_step_replicate, foldl_step_names, Nat.zero_add, List.nil_append]

theorem segments_intercalate (hne : l ≠ []) (hl : ∀ s ∈ l, IsElement s) :
    segments ([slash].intercalate l) = l :=
  List.splitOn_intercalate slash (fun s hs => (hl s hs).slash_notMem) hne

theorem isAbs_intercalate (hl : ∀ s ∈ l, IsElement s) :
    isAbs ([slash].intercalate l) = false := by
  cases l with
  | nil => rfl
  | cons s l =>
    have hs := hl s (by simp)
    obtain ⟨c, s, rfl⟩ := List.exists_cons_of_ne_nil hs.ne_nil
    have hc : c ≠ slash := fun h => hs.slash_notMem (by simp [h])
    cases l with
    | nil => simpa [isAbs] using hc
    | cons t l =>
      rw [List.intercalate_cons_cons]
      simpa [isAbs] using hc

theorem isAbs_written (p : Path) : isAbs p.written = p.isRooted := by
  rw [written]
  cases hroot : p.isRooted with
  | true => simp [isAbs]
  | false =>
    rw [if_neg Bool.false_ne_true, List.nil_append]
    exact isAbs_intercalate fun s => isElement_of_mem

theorem walk_intercalate (p : Path) (hl : ∀ s ∈ l, IsElement s) :
    p.walk ([slash].intercalate l) = l.foldl step p := by
  by_cases hne : l = []
  · subst hne
    rfl
  · rw [walk, segments_intercalate hne hl]

/-- **A rendered path is read as itself.** -/
theorem ofBytes_render (p : Path) : ofBytes p.render = p := by
  have hself := p.foldl_step_elements
  rw [render]
  split_ifs with hempty
  · -- the current directory
    have hlen := p.length_written
    rw [hempty, List.length_nil] at hlen
    rw [written, List.append_eq_nil_iff] at hempty
    have hroot : p.isRooted = false := by
      grind
    have helements : p.elements = [] := by
      grind
    rw [hroot, helements] at hself
    exact hself
  · have hwalk := walk_intercalate (⟨if p.isRooted then .root else .ups 0, []⟩ : Path)
      (l := p.elements) (fun s => isElement_of_mem)
    rw [hself] at hwalk
    rw [ofBytes, isAbs_written, written]
    cases hroot : p.isRooted with
    | true =>
      rw [hroot] at hwalk
      exact (walk_slash _ _).trans hwalk
    | false =>
      grind

theorem render_inj {p q : Path} : p.render = q.render ↔ p = q := by
  refine ⟨fun h => ?_, fun h => by rw [h]⟩
  rw [← p.ofBytes_render, h, q.ofBytes_render]

theorem clean_render (p : Path) : clean p.render = p.render := by
  rw [clean_eq, ofBytes_render]

theorem join_render (p : Path) (file : List UInt8) : join [p.render, file] = (p.walk file).render := by
  have hne : p.render ≠ [] := by
    unfold render
    grind
  have hdrop : [p.render, file].dropWhile List.isEmpty = [p.render, file] := by
    rw [List.dropWhile_cons_of_neg (by simpa using hne)]
  rw [join, hdrop]
  show clean ([slash].intercalate [p.render, file]) = _
  rw [List.intercalate_cons_cons, List.intercalate_singleton, List.append_assoc,
    List.singleton_append, clean_eq, ofBytes_append hne, ofBytes_render]

end Path

/-! ### What `Rel` computes -/

def IsPart (s : List UInt8) : Prop := s ≠ [] ∧ slash ∉ s

instance : DecidablePred IsPart := fun s => inferInstanceAs (Decidable (s ≠ [] ∧ slash ∉ s))

theorem IsElement.isPart (h : IsElement s) : IsPart s := ⟨h.ne_nil, h.slash_notMem⟩

theorem intercalate_cons_eq (s : List UInt8) (l : List (List UInt8)) :
    ∃ t, [slash].intercalate (s :: l) = s ++ t ∧ atEnd t = true ∧ t.tail = [slash].intercalate l := by
  cases l with
  | nil => exact ⟨[], by simp, rfl, rfl⟩
  | cons s' l =>
    refine ⟨slash :: [slash].intercalate (s' :: l), ?_, rfl, rfl⟩
    rfl

theorem takeWhile_part (hs : slash ∉ s) (ht : atEnd t = true) :
    (s ++ t).takeWhile (· ≠ slash) = s := by
  have hall : ∀ c ∈ s, decide (c ≠ slash) = true := fun c hc =>
    decide_eq_true fun h => hs (h ▸ hc)
  rw [List.takeWhile_append_of_pos hall]
  cases t with
  | nil => simp
  | cons c t =>
    obtain rfl : c = slash := by simpa [atEnd] using ht
    simp

theorem drop_part (s t : List UInt8) : (s ++ t).drop (s.length + 1) = t.tail := by
  simp

theorem relLoop_cons {x y : List UInt8} (hx : IsPart x) (hy : IsPart y) (bs ts : List (List UInt8)) :
    relLoop ([slash].intercalate (x :: bs)) ([slash].intercalate (y :: ts)) =
      if y ≠ x then ([slash].intercalate (x :: bs), [slash].intercalate (y :: ts), x)
      else relLoop ([slash].intercalate bs) ([slash].intercalate ts) := by
  obtain ⟨b, hb, hbend, hbtail⟩ := intercalate_cons_eq x bs
  obtain ⟨t, ht, htend, httail⟩ := intercalate_cons_eq y ts
  have hne : ¬ (x ++ b = [] ∨ y ++ t = []) := by
    rintro (h | h)
    · exact hx.1 (List.append_eq_nil_iff.mp h).1
    · exact hy.1 (List.append_eq_nil_iff.mp h).1
  rw [hb, ht, relLoop, dif_neg hne, takeWhile_part hx.2 hbend, takeWhile_part hy.2 htend]
  dsimp only
  rw [drop_part, drop_part, hbtail, httail]

theorem relLoop_slash (b t : List UInt8) : relLoop (slash :: b) (slash :: t) = relLoop b t := by
  rw [relLoop, dif_neg (by simp)]
  simp

/-- **The loop of `Rel` removes the elements that the paths have in common.** -/
theorem relLoop_intercalate {bs ts : List (List UInt8)} (hbs : ∀ s ∈ bs, IsPart s)
    (hts : ∀ s ∈ ts, IsPart s) :
    ∃ common bs' ts', bs = common ++ bs' ∧ ts = common ++ ts' ∧
      (bs' ≠ [] → bs'.head? ≠ ts'.head?) ∧
      relLoop ([slash].intercalate bs) ([slash].intercalate ts) =
        ([slash].intercalate bs', [slash].intercalate ts',
          if ts' = [] then [] else bs'.head?.getD []) := by
  induction bs generalizing ts with
  | nil =>
    refine ⟨[], [], ts, rfl, rfl, fun h => absurd rfl h, ?_⟩
    rw [List.intercalate_nil, relLoop, dif_pos (.inl rfl)]
    simp
  | cons x bs ih =>
    rw [List.forall_mem_cons] at hbs
    cases ts with
    | nil =>
      refine ⟨[], x :: bs, [], rfl, rfl, fun _ => by simp, ?_⟩
      rw [List.intercalate_nil, relLoop, dif_pos (.inr rfl)]
      simp
    | cons y ts =>
      rw [List.forall_mem_cons] at hts
      rw [relLoop_cons hbs.1 hts.1]
      by_cases hxy : y = x
      · subst hxy
        obtain ⟨common, bs', ts', rfl, rfl, hdiff, hloop⟩ := ih hbs.2 hts.2
        grind
      · refine ⟨[], x :: bs, y :: ts, rfl, rfl, fun _ => ?_, ?_⟩
        · simpa using Ne.symm hxy
        · simp [hxy]

theorem escapes_intercalate {l : List (List UInt8)} (hl : ∀ s ∈ l, IsPart s) :
    escapes ([slash].intercalate l) = true ↔ l.head? = some dotdot := by
  cases l with
  | nil => decide
  | cons s l =>
    have hs := hl s (by simp)
    obtain ⟨t, ht, hend, -⟩ := intercalate_cons_eq s l
    have hsplit : s ++ t = dotdot ∨ dotdot ++ [slash] <+: s ++ t ↔ s = dotdot := by
      have hfirst := takeWhile_part hs.2 hend
      constructor
      · rintro (h | ⟨r, h⟩)
        · rw [h] at hfirst
          exact hfirst.symm
        · rw [← h] at hfirst
          exact hfirst.symm
      · rintro rfl
        cases t with
        | nil => exact .inl rfl
        | cons c t =>
          obtain rfl : c = slash := by simpa [atEnd] using hend
          simp
    rw [ht, escapes, Bool.or_eq_true, decide_eq_true_eq, List.isPrefixOf_iff_prefix, hsplit,
      List.head?_cons, Option.some.injEq]

namespace Path

variable {p q : Path}

theorem elements_append_iff (hroot : p.isRooted = q.isRooted) :
    (∃ rest, q.elements = p.elements ++ rest ∧ rest.head? ≠ some dotdot) ↔ q.Inside p := by
  constructor
  · rintro ⟨rest, hrest, hhead⟩
    -- the rest has no `..`, since these stand at the front only
    have hnames : ∃ names : List Name, rest = names.map (·.1) := by
      have hdrop : rest = q.elements.drop p.elements.length := by rw [hrest, List.drop_left]
      obtain ⟨anchor, names⟩ := q
      cases anchor with
      | root => exact ⟨names.drop p.elements.length, by rw [hdrop, List.map_drop]; rfl⟩
      | ups k =>
        rw [show (Path.mk (.ups k) names).elements = List.replicate k dotdot ++ names.map (·.1) from rfl,
          List.drop_append, List.drop_replicate, ← List.map_drop] at hdrop
        grind
    obtain ⟨names, rfl⟩ := hnames
    have hp := p.foldl_step_elements
    have hq := q.foldl_step_elements
    rw [hrest, List.foldl_append, ← hroot, hp, foldl_step_names] at hq
    rw [← hq]
    exact ⟨rfl, List.prefix_append _ _⟩
  · rintro ⟨hanchor, names, hnames⟩
    refine ⟨names.map (·.1), ?_, ?_⟩
    · unfold elements
      rw [hanchor, ← hnames, List.map_append]
      split
      · rfl
      · simp
    · cases names with
      | nil => simp
      | cons n names => simpa using n.2.2.2.1

theorem written_eq (p : Path) : (if p.render = [dot] then [] else p.render) = p.written := by
  by_cases hempty : p.written = []
  · rw [render, if_pos hempty, if_pos rfl, hempty]
  · have hdot : p.render ≠ [dot] := by
      intro h
      have hread := p.ofBytes_render
      rw [h, show ofBytes [dot] = ⟨.ups 0, []⟩ from rfl] at hread
      exact hempty (hread ▸ rfl)
    rw [if_neg hdot, render, if_neg hempty]

def parts (p : Path) : List (List UInt8) :=
  if p.written = [] then [[dot]] else p.elements

theorem isPart_of_mem_parts (h : s ∈ p.parts) : IsPart s := by
  unfold parts at h
  split_ifs at h
  · rw [List.mem_singleton] at h
    subst h
    decide
  · exact (isElement_of_mem h).isPart

theorem render_eq (p : Path) :
    p.render = (if p.isRooted then [slash] else []) ++ [slash].intercalate p.parts := by
  unfold render parts
  split_ifs with hempty
  · rename_i hroot
    rw [written, if_pos hroot] at hempty
    simp at hempty
  · rfl
  · rw [written, if_pos ‹_›]
  · rw [written, if_neg ‹_›]

theorem isAbs_render (p : Path) : isAbs p.render = p.isRooted := by
  rw [← isAbs_written, render]
  split_ifs with hempty
  · rw [hempty]
    rfl
  · rfl

theorem relLoop_render (hroot : p.isRooted = q.isRooted) :
    relLoop p.written q.render =
      relLoop ([slash].intercalate p.elements) ([slash].intercalate q.parts) := by
  rw [q.render_eq, written, hroot]
  cases q.isRooted with
  | true => exact relLoop_slash _ _
  | false => rfl

theorem escapes_upThenDown (b t : List UInt8) : escapes (upThenDown b t) = true := by
  have hups : ∀ r, atEnd r = true →
      escapes ([slash].intercalate (List.replicate (b.count slash + 1) dotdot) ++ r) = true := by
    intro r hr
    obtain ⟨more, hmore, hend, -⟩ := intercalate_cons_eq dotdot (List.replicate (b.count slash) dotdot)
    have hnext : atEnd (more ++ r) = true := by
      cases more with
      | nil => exact hr
      | cons c more => exact hend
    rw [List.replicate_succ, hmore, List.append_assoc]
    cases hrest : more ++ r with
    | nil => rfl
    | cons c rest =>
      rw [hrest] at hnext
      obtain rfl : c = slash := by simpa [atEnd] using hnext
      rfl
  unfold upThenDown
  split_ifs
  · exact hups (slash :: t) rfl
  · have hall := hups [] rfl
    grind

theorem rel_render (hne : q ≠ p) (hroot : p.isRooted = q.isRooted) :
    (∃ r, rel p.render q.render = some r ∧ escapes r = false) ↔
      ∃ rest, q.parts = p.elements ++ rest ∧ rest.head? ≠ some dotdot := by
  obtain ⟨common, bs, ts, hbs, hts, hdiff, hloop⟩ := relLoop_intercalate
    (fun s hs => (isElement_of_mem (p := p) hs).isPart) (fun s => isPart_of_mem_parts (p := q))
  have hrel : rel p.render q.render =
      if (if ts = [] then [] else bs.head?.getD []) = dotdot then none
      else if [slash].intercalate bs ≠ [] then
        some (upThenDown ([slash].intercalate bs) ([slash].intercalate ts))
      else some ([slash].intercalate ts) := by
    rw [rel]
    simp only [clean_render, render_inj, if_neg hne, written_eq, isAbs_written, isAbs_render, hroot,
      ne_eq, not_true, if_false, relLoop_render hroot, hloop]
  have hparts : ∀ s ∈ ts, IsPart s := by
    intro s hs
    refine isPart_of_mem_parts (p := q) ?_
    grind
  have hinside : (∃ rest, q.parts = p.elements ++ rest ∧ rest.head? ≠ some dotdot) ↔
      bs = [] ∧ ts.head? ≠ some dotdot := by
    rw [hbs, hts]
    constructor
    · rintro ⟨rest, hrest, hhead⟩
      rw [List.append_assoc, List.append_cancel_left_eq] at hrest
      cases bs with
      | nil => exact ⟨rfl, by rw [hrest]; exact hhead⟩
      | cons b bs => exact absurd (by rw [hrest]; rfl) (hdiff (by simp))
    · grind
  rw [hinside, hrel]
  cases bs with
  | nil =>
    have helem : (if ts = [] then [] else ([] : List (List UInt8)).head?.getD []) ≠ dotdot := by
      split <;> simp [dotdot]
    rw [if_neg helem, if_neg (by simp)]
    simp only [Option.some.injEq, exists_eq_left', true_and]
    rw [ne_eq, ← escapes_intercalate hparts, Bool.not_eq_true]
  | cons b bs =>
    have hb : IsElement b := isElement_of_mem (p := p) (by rw [hbs]; simp)
    have hleft : [slash].intercalate (b :: bs) ≠ [] := by
      obtain ⟨t, ht, -, -⟩ := intercalate_cons_eq b bs
      rw [ht]
      exact fun h => hb.ne_nil (List.append_eq_nil_iff.mp h).1
    refine iff_of_false ?_ (by simp)
    rintro ⟨r, hr, hescapes⟩
    rw [if_pos hleft] at hr
    generalize (if ts = [] then [] else (b :: bs).head?.getD []) = elem at hr
    split at hr
    · cases hr
    · obtain rfl := Option.some.inj hr
      rw [escapes_upThenDown] at hescapes
      cases hescapes

/-- **What `Rel` returns leads upwards, or it fails, unless the second path lies in the first.** -/
theorem rel_escapes_iff (p q : Path) :
    (∃ r, rel p.render q.render = some r ∧ escapes r = false) ↔ q.Inside p := by
  by_cases hne : q = p
  · subst hne
    refine iff_of_true ⟨[dot], ?_, rfl⟩ ⟨rfl, List.prefix_rfl⟩
    rw [rel]
    simp
  by_cases hroot : p.isRooted = q.isRooted
  · rw [rel_render hne hroot, ← elements_append_iff hroot, parts]
    split_ifs with hempty
    · -- the current directory lies in itself only
      have hq : q.elements = [] := by
        rw [written] at hempty
        exact (intercalate_eq_nil_iff fun s => isElement_of_mem).mp (List.append_eq_nil_iff.mp hempty).2
      have hp : p.elements ≠ [] := by
        intro hp
        apply hne
        rw [← q.foldl_step_elements, ← p.foldl_step_elements, hp, hq, hroot]
      obtain ⟨s, l, hsl⟩ := List.exists_cons_of_ne_nil hp
      have hs : IsElement s := isElement_of_mem (p := p) (by rw [hsl]; simp)
      rw [hq, hsl]
      refine iff_of_false ?_ (by simp)
      rintro ⟨rest, hrest, -⟩
      rw [List.cons_append, List.cons.injEq] at hrest
      rcases hs with rfl | hs
      · exact absurd hrest.1 (by decide)
      · exact hs.2.1 hrest.1.symm
    · rfl
  · refine iff_of_false ?_ (fun h => hroot (by rw [isRooted, isRooted, h.1]))
    rintro ⟨r, hr, -⟩
    rw [rel] at hr
    simp [clean_render, render_inj, hne, written_eq, isAbs_written, isAbs_render, hroot] at hr

end Path

end Zynax.Golang.Filepath
