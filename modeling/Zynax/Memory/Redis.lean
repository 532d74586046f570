import Mathlib.Data.List.AList
import Mathlib.Data.List.Infix

namespace Zynax.Memory

/-!
# Redis as a flat map

One map from byte strings to byte strings, with commands on exact keys and `SCAN`, which
enumerates the keys that match a glob pattern.

* `Glob.tokens`, `globMatch` — the patterns of `SCAN`: `*`, `?`, classes and escapes, byte by byte.
-/

abbrev Bytes : Type := List UInt8

/-! ### Glob patterns -/

namespace Glob

inductive Item where
  | single (b : UInt8)
  | range (lo hi : UInt8)
  deriving DecidableEq, Repr

inductive Token where
  | star
  | any
  | cls (negated : Bool) (items : List Item)
  | byte (b : UInt8)
  deriving DecidableEq, Repr

def special (b : UInt8) : Bool := b == 42 || b == 63 || b == 91 || b == 92

def Item.holds (c : UInt8) : Item → Bool
  | .single b => b == c
  | .range lo hi => (min lo hi ≤ c) && (c ≤ max lo hi)

def classItems : Bytes → List Item × Bytes
  | [] => ([], [])
  | 92 :: b :: rest => let r := classItems rest; (.single b :: r.1, r.2)
  | 93 :: rest => ([], rest)
  | lo :: 45 :: hi :: rest => let r := classItems rest; (.range lo hi :: r.1, r.2)
  | b :: rest => let r := classItems rest; (.single b :: r.1, r.2)

def tokensFrom : Nat → Bytes → List Token
  | 0, _ => []
  | _, [] => []
  | fuel + 1, b :: rest =>
    if b = 42 then .star :: tokensFrom fuel rest
    else if b = 63 then .any :: tokensFrom fuel rest
    else if b = 91 then
      -- a caret after the bracket negates the class
      let r := classItems (if rest.head? = some 94 then rest.tail else rest)
      .cls (decide (rest.head? = some 94)) r.1 :: tokensFrom fuel r.2
    else if b = 92 then
      match rest with
      | [] => [.byte 92]
      | c :: rest => .byte c :: tokensFrom fuel rest
    else .byte b :: tokensFrom fuel rest

def tokens (pattern : Bytes) : List Token := tokensFrom pattern.length pattern

def matchTokens : List Token → Bytes → Bool
  | [], s => s.isEmpty
  | .star :: ts, s => s.tails.any (matchTokens ts)
  | .any :: ts, _ :: s => matchTokens ts s
  | .cls negated items :: ts, c :: s => (negated != items.any (Item.holds c)) && matchTokens ts s
  | .byte b :: ts, c :: s => b == c && matchTokens ts s
  | _ :: _, [] => false

end Glob

def globMatch (pattern key : Bytes) : Bool := Glob.matchTokens (Glob.tokens pattern) key

def Plain (s : Bytes) : Prop := ∀ b ∈ s, Glob.special b = false

theorem Glob.tokens_plain_cons {b : UInt8} (hb : Glob.special b = false) (rest : Bytes) :
    Glob.tokens (b :: rest) = .byte b :: Glob.tokens rest := by
  simp only [Glob.special, Bool.or_eq_false_iff, beq_eq_false_iff_ne, ne_eq] at hb
  obtain ⟨⟨⟨h1, h2⟩, h3⟩, h4⟩ := hb
  simp only [Glob.tokens, List.length_cons, Glob.tokensFrom, h1, h2, h3, h4, if_false]

variable {p : Bytes}

/-- **Plain bytes match themselves.** -/
theorem globMatch_plain_append (hp : Plain p) (pattern key : Bytes) :
    globMatch (p ++ pattern) key = true ↔ ∃ rest, key = p ++ rest ∧ globMatch pattern rest = true := by
  induction p generalizing key with
  | nil => simp
  | cons b p ih =>
    have hb : Glob.special b = false := hp b (by simp)
    have hrest : Plain p := fun c hc => hp c (by simp [hc])
    rw [globMatch, List.cons_append, Glob.tokens_plain_cons hb]
    cases key with
    | nil => simp [Glob.matchTokens]
    | cons c key =>
      have htail := ih hrest key
      rw [globMatch] at htail
      simp only [Glob.matchTokens, Bool.and_eq_true, beq_iff_eq, htail, List.cons_append,
        List.cons.injEq]
      grind

theorem globMatch_star (key : Bytes) : globMatch [42] key = true := by
  have htokens : Glob.tokens [42] = [.star] := rfl
  rw [globMatch, htokens, Glob.matchTokens, List.any_eq_true]
  exact ⟨[], (List.mem_tails _ _).mpr List.nil_suffix, rfl⟩

/-! ### Lengths -/

variable {ts : List Glob.Token} {s : Bytes}

theorem Glob.length_tokensFrom_le (fuel : Nat) (p : Bytes) : (Glob.tokensFrom fuel p).length ≤ fuel := by
  induction fuel generalizing p with
  | zero => simp [Glob.tokensFrom]
  | succ fuel ih =>
    cases p with
    | nil => simp [Glob.tokensFrom]
    | cons b rest =>
      have hnext : ∀ t r, (t :: Glob.tokensFrom fuel r).length ≤ fuel + 1 := fun t r =>
        Nat.succ_le_succ (ih r)
      unfold Glob.tokensFrom
      grind

theorem Glob.length_tokens_le (p : Bytes) : (Glob.tokens p).length ≤ p.length :=
  Glob.length_tokensFrom_le p.length p

theorem Glob.matchTokens_cons {t : Glob.Token} (ht : t ≠ .star) (ts : List Glob.Token) (c : UInt8)
    (s : Bytes) : Glob.matchTokens (t :: ts) (c :: s) = true ↔
      Glob.matchTokens [t] [c] = true ∧ Glob.matchTokens ts s = true := by
  cases t with
  | star => exact absurd rfl ht
  | any | cls | byte => simp [Glob.matchTokens]

theorem Glob.exists_cons_of_matches {t : Glob.Token} (ht : t ≠ .star)
    (h : Glob.matchTokens (t :: ts) s = true) :
    ∃ c s', s = c :: s' ∧ Glob.matchTokens [t] [c] = true ∧ Glob.matchTokens ts s' = true := by
  cases s with
  | nil => cases t <;> simp_all [Glob.matchTokens]
  | cons c s => exact ⟨c, s, rfl, (Glob.matchTokens_cons ht ts c s).mp h⟩

theorem Glob.length_eq_of_noStar (h : Glob.matchTokens ts s = true) (hstar : Glob.Token.star ∉ ts) :
    s.length = ts.length := by
  induction ts generalizing s with
  | nil => simpa [Glob.matchTokens] using h
  | cons t ts ih =>
    have ht : t ≠ .star := fun heq => hstar (heq ▸ List.mem_cons_self)
    obtain ⟨c, s, rfl, -, hrest⟩ := Glob.exists_cons_of_matches ht h
    grind

theorem Glob.exists_shortest (h : Glob.matchTokens ts s = true) :
    ∃ s', Glob.matchTokens ts s' = true ∧ s'.length = ts.countP (· ≠ .star) := by
  induction ts generalizing s with
  | nil => exact ⟨[], rfl, rfl⟩
  | cons t ts ih =>
    by_cases ht : t = .star
    · subst ht
      rw [Glob.matchTokens, List.any_eq_true] at h
      obtain ⟨suffix, -, hmatch⟩ := h
      obtain ⟨s', hs', hlen⟩ := ih hmatch
      refine ⟨s', ?_, by simpa using hlen⟩
      rw [Glob.matchTokens, List.any_eq_true]
      exact ⟨s', (List.mem_tails _ _).mpr List.suffix_rfl, hs'⟩
    · obtain ⟨c, s, rfl, hc, hrest⟩ := Glob.exists_cons_of_matches ht h
      obtain ⟨s', hs', hlen⟩ := ih hrest
      exact ⟨c :: s', (Glob.matchTokens_cons ht ts c s').mpr ⟨hc, hs'⟩, by simp [hlen, ht]⟩

/-- **A pattern for everything that begins with `p` is longer than `p`.**  It matches strings that are
    longer than itself, so it has a star, and matches one that is shorter than itself. -/
theorem length_lt_of_matches_prefix {pattern : Bytes}
    (h : ∀ s, globMatch pattern s = true ↔ p <+: s) : p.length < pattern.length := by
  have hle := Glob.length_tokens_le pattern
  have hstar : Glob.Token.star ∈ Glob.tokens pattern := by
    by_contra hno
    have hlong := (h (p ++ List.replicate (pattern.length + 1) 0)).mpr (List.prefix_append _ _)
    have hlen := Glob.length_eq_of_noStar hlong hno
    grind
  obtain ⟨s, hs, hlen⟩ := Glob.exists_shortest ((h p).mpr List.prefix_rfl)
  have hcount : (Glob.tokens pattern).countP (· ≠ .star) < (Glob.tokens pattern).length := by
    refine lt_of_le_of_ne List.countP_le_length fun heq => ?_
    have hall := List.countP_eq_length.mp heq _ hstar
    simp at hall
  have hp := ((h s).mp hs).length_le
  omega

/-! ### Patterns for a beginning -/

theorem Glob.length_classItems_le (p : Bytes) : (Glob.classItems p).2.length ≤ p.length - 1 := by
  -- the recursion keeps to the rest, or stops at the closing bracket
  induction p using Glob.classItems.induct with
  | case1 => simp [Glob.classItems]
  | case3 rest => simp [Glob.classItems]
  | case2 b rest ih =>
    simp only [Glob.classItems, List.length_cons]
    omega
  | case4 lo hi rest h1 h2 ih =>
    rw [Glob.classItems.eq_4 _ _ _ h1 h2]
    grind
  | case5 b rest h1 h2 h3 ih =>
    rw [Glob.classItems.eq_5 _ _ h1 h2 h3]
    grind

theorem Glob.tokensFrom_eq_tokens {fuel : Nat} (h : p.length ≤ fuel) :
    Glob.tokensFrom fuel p = Glob.tokens p := by
  suffices hsame : ∀ n m (p : Bytes), p.length ≤ n → p.length ≤ m →
      Glob.tokensFrom n p = Glob.tokensFrom m p from hsame _ _ p h (Nat.le_refl _)
  intro n
  induction n with
  | zero =>
    intro m p hn _
    obtain rfl := List.length_eq_zero_iff.mp (Nat.le_zero.mp hn)
    cases m <;> rfl
  | succ n ih =>
    intro m p hn hm
    cases p with
    | nil => cases m <;> rfl
    | cons b rest =>
      obtain ⟨m, rfl⟩ : ∃ k, m = k + 1 := ⟨m - 1, by rw [List.length_cons] at hm; omega⟩
      rw [List.length_cons, Nat.succ_le_succ_iff] at hn hm
      have hclass : ∀ r : Bytes, r.length ≤ rest.length →
          Glob.tokensFrom n (Glob.classItems r).2 = Glob.tokensFrom m (Glob.classItems r).2 := by
        intro r hr
        have hle := Glob.length_classItems_le r
        grind
      unfold Glob.tokensFrom
      grind

theorem Glob.exists_tokens_cons {b : UInt8} (hb : b = 91 ∨ b = 92) {rest : Bytes}
    (hrest : 2 ≤ rest.length) :
    ∃ t r, Glob.tokens (b :: rest) = t :: Glob.tokens r ∧ t ≠ .star ∧ r.length < rest.length := by
  rcases hb with rfl | rfl
  · set body := if rest.head? = some 94 then rest.tail else rest with hbody
    have hlen : body.length ≤ rest.length ∧ (Glob.classItems body).2.length < rest.length := by
      have hle := Glob.length_classItems_le body
      grind
    refine ⟨.cls (decide (rest.head? = some 94)) (Glob.classItems body).1, (Glob.classItems body).2, ?_,
      by simp, hlen.2⟩
    rw [← Glob.tokensFrom_eq_tokens hlen.2.le]
    rfl
  · obtain ⟨c, rest, rfl⟩ := List.exists_cons_of_ne_nil (List.length_pos_iff.mp (by omega : 0 < rest.length))
    refine ⟨.byte c, rest, ?_, by simp, by simp⟩
    rw [← Glob.tokensFrom_eq_tokens (Nat.le_succ rest.length)]
    rfl

section Beginning

/- A pattern that matches just what begins with `c :: p`; its first element is `t`, and `r` is the rest. -/
variable {c : UInt8} {p q r : Bytes} {t : Glob.Token}

theorem Glob.eq_of_matches_prefix (h : ∀ s, globMatch (c :: q) s = true ↔ c :: p <+: s)
    (htokens : Glob.tokens (c :: q) = t :: Glob.tokens r) (ht : t ≠ .star) {d : UInt8}
    (hd : Glob.matchTokens [t] [d] = true) : d = c := by
  have hown := (h (c :: p)).mpr List.prefix_rfl
  rw [globMatch, htokens] at hown
  have hother : globMatch (c :: q) (d :: p) = true := by
    rw [globMatch, htokens]
    exact (Glob.matchTokens_cons ht _ d p).mpr ⟨hd, ((Glob.matchTokens_cons ht _ c p).mp hown).2⟩
  grind

theorem Glob.matches_prefix_tail (h : ∀ s, globMatch (c :: q) s = true ↔ c :: p <+: s)
    (htokens : Glob.tokens (c :: q) = t :: Glob.tokens r) (ht : t ≠ .star) (s : Bytes) :
    globMatch r s = true ↔ p <+: s := by
  have hown := (h (c :: p)).mpr List.prefix_rfl
  rw [globMatch, htokens] at hown
  have hhead := ((Glob.matchTokens_cons ht _ c p).mp hown).1
  rw [← List.cons_prefix_cons.trans (and_iff_right (rfl : c = c)), ← h, globMatch, globMatch, htokens,
    Glob.matchTokens_cons ht, and_iff_right hhead]

theorem Glob.star_not_prefix : ¬∀ s, globMatch (42 :: q) s = true ↔ 42 :: p <+: s := by
  intro h
  have htokens : Glob.tokens (42 :: q) = .star :: Glob.tokens q := rfl
  have hown := (h (42 :: p)).mpr List.prefix_rfl
  rw [globMatch, htokens, Glob.matchTokens, List.any_eq_true] at hown
  obtain ⟨suffix, -, hmatch⟩ := hown
  have hzero : globMatch (42 :: q) (0 :: suffix) = true := by
    rw [globMatch, htokens, Glob.matchTokens, List.any_eq_true]
    exact ⟨suffix, (List.mem_tails _ _).mpr (List.suffix_cons 0 suffix), hmatch⟩
  grind

end Beginning

/-- **A text and a star match just what begins with the text only if no byte of the text has a
    meaning of its own.** -/
theorem plain_of_matches_prefix {b : UInt8}
    (h : ∀ s, globMatch (p ++ [b, 42]) s = true ↔ p ++ [b] <+: s) : Plain p := by
  induction p with
  | nil => simp [Plain]
  | cons c p ih =>
    by_cases hplain : Glob.special c = false
    · -- a plain byte stands for itself, and the rest is shorter
      have htail := Glob.matches_prefix_tail h (Glob.tokens_plain_cons hplain (p ++ [b, 42])) (by simp)
      intro d hd
      rcases List.mem_cons.mp hd with rfl | hd
      · exact hplain
      · exact ih htail d hd
    · exfalso
      have hcases : c = 42 ∨ c = 63 ∨ c = 91 ∨ c = 92 := by
        rw [Bool.not_eq_false, Glob.special] at hplain
        simpa [or_assoc] using hplain
      rcases hcases with rfl | rfl | hesc
      · exact Glob.star_not_prefix h
      · -- a question mark matches every byte, also one that is no question mark
        have hzero : (0 : UInt8) = 63 :=
          Glob.eq_of_matches_prefix (t := .any) (r := p ++ [b, 42]) h rfl (by simp) rfl
        grind
      · -- a class or an escape takes two bytes of the pattern for one of the string
        obtain ⟨t, r, htokens, ht, hlen⟩ :=
          Glob.exists_tokens_cons hesc (by simp : 2 ≤ (p ++ [b, 42]).length)
        have hshort : (p ++ [b]).length < r.length :=
          length_lt_of_matches_prefix (Glob.matches_prefix_tail h htokens ht)
        grind

/-! ### The store -/

abbrev Store : Type := AList (fun _ : Bytes => Bytes)

def Store.del (store : Store) (keys : List Bytes) : Store :=
  keys.foldl (fun s k => s.erase k) store

theorem Store.lookup_del (store : Store) (keys : List Bytes) (k : Bytes) :
    (store.del keys).lookup k = if k ∈ keys then none else store.lookup k := by
  induction keys generalizing store with
  | nil => simp [Store.del]
  | cons a keys ih =>
    have hstep : store.del (a :: keys) = (Store.del (store.erase a) keys) := rfl
    rw [hstep, ih]
    by_cases hk : k ∈ keys
    · simp [hk]
    · by_cases ha : k = a
      · subst ha
        simp
      · simp [hk, ha, AList.lookup_erase_ne ha]

structure Scanner where
  batches : Store → Bytes → List (List Bytes)
  mem_batches : ∀ store pattern k, (∃ b ∈ batches store pattern, k ∈ b) ↔
    k ∈ store ∧ globMatch pattern k = true

def oneBatch : Scanner where
  batches := fun store pattern => [store.keys.filter (globMatch pattern)]
  mem_batches := by
    intro store pattern k
    simp [AList.mem_keys]

end Zynax.Memory
