import Zynax.Golang.Numbers
import Mathlib.Data.List.DropRight

namespace Zynax.Golang

/-!
# Texts of numbers

Integral literals, read as integers and as `float64` values.

* `nearest`, `Exact` — what a `float64` keeps of an integer; `trim_formatFixed_eq_iff`: which integral
  literals `%f` gives back.
-/

/-! ### Reading -/

def parseInteger (l : List Char) : Option Int :=
  if '.' ∈ l ∨ 'e' ∈ l ∨ 'E' ∈ l then none else atoi l

/-! ### Integral literals -/

variable {c : Char} {ds l : List Char}

structure Digits (ds : List Char) : Prop where
  ne_nil : ds ≠ []
  isDigit : ∀ c ∈ ds, c.isDigit = true
  no_zero : ds.head? = some '0' → ds = ['0']

theorem ofNat_toNat_digit (hc : c.isDigit = true) :
    Char.ofNat (48 + (c.toNat - 48)) = c ∧ c.toNat - 48 < 10 := by
  simp only [Char.isDigit, Bool.and_eq_true, decide_eq_true_eq, UInt32.le_iff_toNat_le,
    ge_iff_le] at hc
  have hlo : 48 ≤ c.toNat := hc.1
  have hhi : c.toNat ≤ 57 := hc.2
  refine ⟨?_, by omega⟩
  rw [show 48 + (c.toNat - 48) = c.toNat by omega, Char.ofNat_toNat]

theorem natOfDigits_eq_ofDigits (ds : List Char) :
    natOfDigits ds = Nat.ofDigits 10 (ds.reverse.map (fun c => c.toNat - 48)) := by
  induction ds with
  | nil => rfl
  | cons c ds ih =>
    rw [← List.singleton_append, natOfDigits_append, ih, List.reverse_append, List.map_append,
      Nat.ofDigits_append]
    simp [natOfDigits]
    ring

theorem Digits.decimal_natOfDigits (h : Digits ds) :
    decimal (natOfDigits ds) = ds := by
  by_cases hzero : ds = ['0']
  · rw [hzero]
    decide
  obtain ⟨c, cs, rfl⟩ := List.exists_cons_of_ne_nil h.ne_nil
  have hc : c ≠ '0' := fun heq => hzero (h.no_zero (by rw [heq, List.head?_cons]))
  -- the most significant digit comes last in the list of base-ten digits
  have hdigits : Nat.digits 10 (natOfDigits (c :: cs)) =
      (c :: cs).reverse.map (fun c => c.toNat - 48) := by
    rw [natOfDigits_eq_ofDigits]
    apply Nat.digits_ofDigits 10 (by decide)
    · intro d hd
      obtain ⟨x, hx, rfl⟩ := List.mem_map.mp hd
      exact (ofNat_toNat_digit (h.isDigit x (List.mem_reverse.mp hx))).2
    · intro hne hlast
      simp only [List.reverse_cons, List.map_append, List.map_cons, List.map_nil,
        List.getLast_append_singleton] at hlast
      have := (ofNat_toNat_digit (h.isDigit c (by simp))).1
      rw [hlast] at this
      exact hc this.symm
  have hne : natOfDigits (c :: cs) ≠ 0 := by
    intro h0
    rw [h0] at hdigits
    simp at hdigits
  rw [decimal, if_neg hne, hdigits, ← List.map_reverse, List.reverse_reverse, List.map_map]
  conv_rhs => rw [← List.map_id (c :: cs)]
  apply List.map_congr_left
  intro x hx
  exact (ofNat_toNat_digit (h.isDigit x hx)).1

def IsIntegral (l : List Char) : Prop := Digits l ∨ ∃ ds, l = '-' :: ds ∧ Digits ds

def unsigned (l : List Char) : List Char := if l.head? = some '-' then l.tail else l

theorem Digits.unsigned (h : Digits ds) : unsigned ds = ds := by
  rw [Golang.unsigned, if_neg]
  intro hhead
  exact absurd (h.isDigit '-' (List.mem_of_head? hhead)) (by decide)

theorem unsigned_minus (ds : List Char) : unsigned ('-' :: ds) = ds := rfl

/-! ### Which literals are integral -/

def Plain (l : List Char) : Prop := ¬('.' ∈ l ∨ 'e' ∈ l ∨ 'E' ∈ l)

theorem Plain.tail (h : Plain (c :: l)) : Plain l := by
  intro hl
  apply h
  grind

theorem Plain.head (h : Plain (c :: l)) :
    c ≠ '.' ∧ c ≠ 'e' ∧ c ≠ 'E' := by
  simp only [Plain, List.mem_cons, not_or] at h
  grind

theorem isDigit_of_isNumberFrom_int (h : Json.isNumberFrom .int l = true)
    (hplain : Plain l) : ∀ c ∈ l, c.isDigit = true := by
  induction l with
  | nil => simp
  | cons c l ih =>
    obtain ⟨hdot, he, hE⟩ := hplain.head
    by_cases hc : c.isDigit = true
    · rw [Json.isNumberFrom, Json.NumState.step, if_pos hc] at h
      rw [List.forall_mem_cons]
      exact ⟨hc, ih h hplain.tail⟩
    · simp [Json.isNumberFrom, Json.NumState.step, hc, hdot, he, hE] at h

theorem eq_nil_of_isNumberFrom_zero (h : Json.isNumberFrom .zero l = true)
    (hplain : Plain l) : l = [] := by
  cases l with
  | nil => rfl
  | cons c l =>
    obtain ⟨hdot, he, hE⟩ := hplain.head
    simp [Json.isNumberFrom, Json.NumState.step, hdot, he, hE] at h

theorem digits_of_isNumberFrom_neg (h : Json.isNumberFrom .neg l = true)
    (hplain : Plain l) : Digits l := by
  cases l with
  | nil => exact absurd h (by decide)
  | cons c l =>
    by_cases hzero : c = '0'
    · subst hzero
      rw [eq_nil_of_isNumberFrom_zero h hplain.tail]
      exact ⟨by simp, by simp, by simp⟩
    · by_cases hc : Json.isDigit19 c = true
      · have hint : Json.isNumberFrom .int l = true := by
          simpa [Json.isNumberFrom, Json.NumState.step, hzero, hc] using h
        refine ⟨by simp, ?_, fun hhead => absurd (Option.some.inj hhead) hzero⟩
        rw [List.forall_mem_cons]
        exact ⟨isDigit_of_isDigit19 hc, isDigit_of_isNumberFrom_int hint hplain.tail⟩
      · simp [Json.isNumberFrom, Json.NumState.step, hzero, hc] at h

theorem isIntegral_of_isNumber (h : Json.isNumber l = true) (hplain : Plain l) :
    IsIntegral l := by
  cases l with
  | nil => exact absurd h (by decide)
  | cons c l =>
    by_cases hminus : c = '-'
    · subst hminus
      exact Or.inr ⟨l, rfl, digits_of_isNumberFrom_neg h hplain.tail⟩
    · -- without a sign the first character is read as the one after a sign is
      refine Or.inl (digits_of_isNumberFrom_neg ?_ hplain)
      rw [Json.isNumber, Json.isNumberFrom, Json.NumState.step, if_neg hminus] at h
      exact h

/-! ### Integers that were written as numbers -/

variable {n : Int}

theorem atoi_minus (h : Digits ds) :
    atoi ('-' :: ds) =
      if natOfDigits ds ≤ 2 ^ 63 then some (-(natOfDigits ds : Int)) else none := by
  have hall : ds.all Char.isDigit = true := List.all_eq_true.mpr h.isDigit
  simp [atoi, h.ne_nil, hall]

theorem parseInteger_eq_some (hl : Json.isNumber l = true)
    (h : parseInteger l = some n) : IsIntegral l ∧ atoi l = some n := by
  rw [parseInteger] at h
  split at h
  · exact absurd h (by simp)
  · rename_i hplain
    exact ⟨isIntegral_of_isNumber hl hplain, h⟩

/-! ### Integers as `float64` -/

def spacing (n : Nat) : Nat := 2 ^ (n.log2 - 52)

def nearest (n : Nat) : Nat := roundHalfEven n (spacing n) * spacing n

def Exact (n : Nat) : Prop := ∃ m e, m < 2 ^ 53 ∧ n = m * 2 ^ e

theorem spacing_pos (n : Nat) : 0 < spacing n := Nat.two_pow_pos _

theorem roundHalfEven_mul {q : Nat} (hq : 0 < q) (d : Nat) : roundHalfEven (d * q) q = d := by
  have hdiv : d * q / q = d := Nat.mul_div_cancel d hq
  have hmod : d * q % q = 0 := Nat.mul_mod_left d q
  simp only [roundHalfEven, hdiv, hmod]
  rw [if_pos (by omega)]

theorem nearest_eq_iff_dvd {n : Nat} : nearest n = n ↔ spacing n ∣ n := by
  constructor
  · intro h
    exact ⟨roundHalfEven n (spacing n), by rw [Nat.mul_comm]; exact h.symm⟩
  · rintro ⟨d, hd⟩
    have hround := roundHalfEven_mul (spacing_pos n) d
    rw [Nat.mul_comm, ← hd] at hround
    rw [nearest, hround, Nat.mul_comm]
    exact hd.symm

theorem nearest_eq_iff {n : Nat} : nearest n = n ↔ Exact n := by
  rw [nearest_eq_iff_dvd]
  by_cases h0 : n = 0
  · subst h0
    exact iff_of_true (Nat.dvd_zero _) ⟨0, 0, by decide, rfl⟩
  constructor
  · rintro ⟨m, hm⟩
    refine ⟨m, n.log2 - 52, ?_, by rw [Nat.mul_comm]; exact hm⟩
    -- the number has `log2 + 1` bits, of which the spacing takes all but 53
    by_contra hle
    have hlt : n < 2 ^ (n.log2 + 1) := Nat.lt_log2_self
    have hpow : 2 ^ (n.log2 + 1) ≤ 2 ^ (n.log2 - 52) * 2 ^ 53 := by
      rw [← Nat.pow_add]
      exact Nat.pow_le_pow_right (by decide) (by omega)
    have hmul : 2 ^ (n.log2 - 52) * 2 ^ 53 ≤ 2 ^ (n.log2 - 52) * m :=
      Nat.mul_le_mul_left _ (by omega)
    have hn : n = 2 ^ (n.log2 - 52) * m := hm
    omega
  · rintro ⟨m, e, hm, hn⟩
    have hlog : n.log2 < 53 + e := by
      rw [Nat.log2_lt h0, hn, Nat.pow_add]
      exact Nat.mul_lt_mul_of_pos_right hm (Nat.two_pow_pos e)
    have hdvd : spacing n ∣ 2 ^ e := Nat.pow_dvd_pow 2 (by omega)
    grind

theorem scaleTwo_natCast (p q j : Nat) : scaleTwo p q (j : Int) = (p * 2 ^ j, q) := by
  rfl

theorem scaleTwo_neg_natCast (p q j : Nat) : scaleTwo p q (-(j : Int)) = (p, q * 2 ^ j) := by
  by_cases hj : j = 0
  · subst hj
    simp [scaleTwo]
  · rw [scaleTwo, if_neg (by omega), Int.neg_neg, Int.toNat_natCast]

theorem scaled_bits {n : Nat} (hn : n ≠ 0) :
    ¬(scaleTwo n 1 (53 - (n.log2 : Int))).1 < 2 ^ 53 * (scaleTwo n 1 (53 - (n.log2 : Int))).2 := by
  have hlog : 2 ^ n.log2 ≤ n := Nat.log2_self_le hn
  by_cases hk : n.log2 ≤ 53
  · have hcast : 53 - (n.log2 : Int) = ((53 - n.log2 : Nat) : Int) := by omega
    rw [hcast, scaleTwo_natCast]
    have hpow : 2 ^ n.log2 * 2 ^ (53 - n.log2) = 2 ^ 53 := by
      rw [← Nat.pow_add]
      congr 1
      omega
    have hmul := Nat.mul_le_mul_right (2 ^ (53 - n.log2)) hlog
    omega
  · have hcast : 53 - (n.log2 : Int) = -((n.log2 - 53 : Nat) : Int) := by omega
    rw [hcast, scaleTwo_neg_natCast]
    have hpow : 2 ^ 53 * 2 ^ (n.log2 - 53) = 2 ^ n.log2 := by
      rw [← Nat.pow_add]
      congr 1
      omega
    omega

theorem roundFloat_nat (n : Nat) : ∃ q, 0 < q ∧ roundFloat n 1 = (nearest n * q, q) := by
  by_cases h0 : n = 0
  · subst h0
    exact ⟨1, by decide, by decide⟩
  have hone : Nat.log2 1 = 0 := by decide
  rw [roundFloat, if_neg h0]
  simp only [hone, Nat.cast_zero, Int.sub_zero, if_neg (scaled_bits h0)]
  by_cases hk : n.log2 ≤ 52
  · -- up to 53 bits nothing is lost
    have hcast : 53 - (n.log2 : Int) - 1 = ((52 - n.log2 : Nat) : Int) := by omega
    have hspacing : spacing n = 1 := by
      rw [spacing, Nat.sub_eq_zero_of_le hk, Nat.pow_zero]
    have hnearest : nearest n = n := nearest_eq_iff_dvd.mpr (by rw [hspacing]; exact Nat.one_dvd n)
    have hround := roundHalfEven_mul Nat.one_pos (n * 2 ^ (52 - n.log2))
    rw [Nat.mul_one] at hround
    refine ⟨2 ^ (52 - n.log2), Nat.two_pow_pos _, ?_⟩
    rw [hcast, scaleTwo_natCast, hround, scaleTwo_neg_natCast, hnearest, Nat.one_mul]
  · have hcast : 53 - (n.log2 : Int) - 1 = -((n.log2 - 52 : Nat) : Int) := by omega
    refine ⟨1, Nat.one_pos, ?_⟩
    rw [hcast, scaleTwo_neg_natCast, Int.neg_neg, scaleTwo_natCast, Nat.one_mul, Nat.mul_one]
    rfl

theorem numValue_integral (h : IsIntegral l) :
    numValue l = (decide (l.head? = some '-'), natOfDigits (unsigned l), 1) := by
  have hbody : Digits (unsigned l) := by
    rcases h with h | ⟨ds, rfl, h⟩
    · rwa [h.unsigned]
    · rwa [unsigned_minus]
  have htake : (unsigned l).takeWhile Char.isDigit = unsigned l :=
    List.takeWhile_eq_self_iff.mpr hbody.isDigit
  have hdrop : (unsigned l).dropWhile Char.isDigit = [] := List.dropWhile_eq_nil_iff.mpr hbody.isDigit
  have hval : (if l.head? = some '-' then l.tail else l) = unsigned l := rfl
  simp [numValue, hval, htake, hdrop, natOfDigits]

theorem formatFixed_integral (h : IsIntegral l) :
    formatFixed l = String.ofList ((if l.head? = some '-' then ['-'] else []) ++
      decimal (nearest (natOfDigits (unsigned l))) ++ '.' :: List.replicate 6 '0') := by
  obtain ⟨q, hq, hround⟩ := roundFloat_nat (natOfDigits (unsigned l))
  have hmicros : roundHalfEven (nearest (natOfDigits (unsigned l)) * q * 1000000) q =
      nearest (natOfDigits (unsigned l)) * 1000000 := by
    rw [Nat.mul_right_comm]
    exact roundHalfEven_mul hq _
  have hmod : nearest (natOfDigits (unsigned l)) * 1000000 % 1000000 = 0 := Nat.mul_mod_left _ _
  have hdiv : nearest (natOfDigits (unsigned l)) * 1000000 / 1000000 =
      nearest (natOfDigits (unsigned l)) := Nat.mul_div_cancel _ (by decide)
  have hzeros : List.replicate (6 - (decimal 0).length) '0' ++ decimal 0 = List.replicate 6 '0' := by
    decide
  simp only [formatFixed, numValue_integral h, hround, hmicros, hmod, hdiv, hzeros,
    decide_eq_true_eq]

theorem inFloatRange_integral (h : IsIntegral l)
    (hrange : natOfDigits (unsigned l) ≤ 2 ^ 63) : inFloatRange l = true := by
  have hbound : 2 ^ 63 < 2 ^ 1024 - 2 ^ 970 := by decide +kernel
  simp only [inFloatRange, numValue_integral h, Nat.mul_one, decide_eq_true_eq]
  exact Nat.lt_of_le_of_lt hrange hbound

theorem trim_zeros (l : List Char) :
    trimSuffix (trimRight (String.ofList (l ++ '.' :: List.replicate 6 '0')) '0') "." =
      String.ofList l := by
  have hright : trimRight (String.ofList (l ++ '.' :: List.replicate 6 '0')) '0' =
      String.ofList (l ++ ['.']) := by
    rw [trimRight]
    simp [List.replicate, List.dropWhile]
  have hsuffix : ['.'].isSuffixOf (l ++ ['.']) = true := by
    rw [List.isSuffixOf_iff_suffix]
    exact List.suffix_append l ['.']
  have hdot : ".".toList = ['.'] := by decide
  rw [hright, trimSuffix, hdot, String.toList_ofList, if_pos hsuffix]
  simp

theorem trim_formatFixed_eq_iff (h : IsIntegral l) :
    trimSuffix (trimRight (formatFixed l) '0') "." = String.ofList l ↔
      Exact (natOfDigits (unsigned l)) := by
  rw [formatFixed_integral h, trim_zeros, String.ofList_inj, ← nearest_eq_iff]
  -- the literal is its sign and the digits of its number
  have hliteral : l = (if l.head? = some '-' then ['-'] else []) ++
      decimal (natOfDigits (unsigned l)) := by
    rcases h with h | ⟨ds, rfl, h⟩
    · have hhead : l.head? ≠ some '-' := by
        intro hhead
        exact absurd (h.isDigit '-' (List.mem_of_head? hhead)) (by decide)
      rw [if_neg hhead, h.unsigned, h.decimal_natOfDigits]
      rfl
    · rw [unsigned_minus, h.decimal_natOfDigits]
      rfl
  constructor
  · intro heq
    have hdigits : decimal (nearest (natOfDigits (unsigned l))) = decimal (natOfDigits (unsigned l)) := by
      grind
    have hnat := congrArg natOfDigits hdigits
    rwa [natOfDigits_decimal, natOfDigits_decimal] at hnat
  · grind

theorem natAbs_of_atoi (h : IsIntegral l) (hn : atoi l = some n) :
    n.natAbs = natOfDigits (unsigned l) ∧ natOfDigits (unsigned l) ≤ 2 ^ 63 := by
  rcases h with h | ⟨ds, rfl, h⟩
  · rw [atoi_of_digits h.ne_nil h.isDigit] at hn
    split_ifs at hn with hlt
    rw [h.unsigned, ← Option.some.inj hn]
    omega
  · rw [atoi_minus h] at hn
    split_ifs at hn with hle
    rw [unsigned_minus, ← Option.some.inj hn]
    omega

end Zynax.Golang
