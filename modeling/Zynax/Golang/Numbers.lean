import Zynax.Golang.Json
import Zynax.Golang.Strings
import Mathlib.Data.Bool.AllAny
import Mathlib.Data.Nat.Digits.Lemmas

namespace Zynax.Golang

/-!
# Decimal texts, `float64` and durations

The numeric texts the services read and write.
-/

/-! ### Decimal integers -/

def decimal (n : Nat) : List Char :=
  if n = 0 then ['0'] else ((Nat.digits 10 n).reverse).map (fun d => Char.ofNat (48 + d))

def decimalInt (n : Int) : List Char :=
  if n < 0 then '-' :: decimal n.natAbs else decimal n.natAbs

def natOfDigits (l : List Char) : Nat := l.foldl (fun n c => 10 * n + (c.toNat - 48)) 0

theorem isDigit_ofNat : ∀ d < 10, (Char.ofNat (48 + d)).isDigit = true := by decide

theorem toNat_lt_of_isDigit {c : Char} (hc : c.isDigit = true) : c.toNat < 128 := by
  simp only [Char.isDigit, Bool.and_eq_true, decide_eq_true_eq, UInt32.le_iff_toNat_le,
    ge_iff_le] at hc
  have hhi : c.toNat ≤ 57 := hc.2
  omega

theorem isDigit19_ofNat : ∀ d < 10, d ≠ 0 → Json.isDigit19 (Char.ofNat (48 + d)) = true := by
  decide

theorem isNumberFrom_int {l : List Char} (hl : ∀ c ∈ l, c.isDigit = true) :
    Json.isNumberFrom .int l = true := by
  induction l with
  | nil => rfl
  | cons c l ih =>
    have hc : Json.NumState.step .int c = some .int := by
      simp [Json.NumState.step, hl c (by simp)]
    rw [Json.isNumberFrom, hc]
    grind

theorem foldl_digits (m : List Char) (n : Nat) :
    m.foldl (fun n c => 10 * n + (c.toNat - 48)) n = n * 10 ^ m.length + natOfDigits m := by
  induction m generalizing n with
  | nil => simp [natOfDigits]
  | cons c m ih =>
    have hcons : natOfDigits (c :: m) = (c.toNat - 48) * 10 ^ m.length + natOfDigits m := by
      rw [natOfDigits, List.foldl_cons, ih, Nat.mul_zero, Nat.zero_add]
    grind

theorem natOfDigits_append (l m : List Char) :
    natOfDigits (l ++ m) = natOfDigits l * 10 ^ m.length + natOfDigits m := by
  rw [natOfDigits, List.foldl_append, foldl_digits]
  rfl

theorem toNat_digit : ∀ d < 10, (Char.ofNat (48 + d)).toNat - 48 = d := by decide

theorem natOfDigits_decimal (n : Nat) : natOfDigits (decimal n) = n := by
  have hdigits : ∀ ds : List Nat, (∀ d ∈ ds, d < 10) →
      natOfDigits (ds.reverse.map (fun d => Char.ofNat (48 + d))) = Nat.ofDigits 10 ds := by
    intro ds hds
    induction ds with
    | nil => rfl
    | cons d ds ih =>
      have hd : natOfDigits [Char.ofNat (48 + d)] = d := by
        simpa [natOfDigits] using toNat_digit d (hds d (by simp))
      rw [List.reverse_cons, List.map_append, natOfDigits_append,
        ih (fun x hx => hds x (by simp [hx])), List.map_singleton, hd, Nat.ofDigits_cons,
        List.length_singleton]
      ring
  rw [decimal]
  split
  · rename_i h0
    rw [h0]
    rfl
  · rw [hdigits _ (fun d hd => Nat.digits_lt_base (by decide) hd), Nat.ofDigits_digits]

theorem decimal_of_ne_zero {n : Nat} (hn : n ≠ 0) :
    ∃ c l, decimal n = c :: l ∧ Json.isDigit19 c = true ∧ ∀ d ∈ l, d.isDigit = true := by
  obtain ⟨d, ds, hds⟩ : ∃ d ds, (Nat.digits 10 n).reverse = d :: ds := by
    apply List.exists_cons_of_ne_nil
    rw [ne_eq, List.reverse_eq_nil_iff]
    exact Nat.digits_ne_nil_iff_ne_zero.mpr hn
  have hlt : ∀ x ∈ (Nat.digits 10 n).reverse, x < 10 := fun x hx =>
    Nat.digits_lt_base (by decide) (List.mem_reverse.mp hx)
  have hd : d ≠ 0 := by
    have hlast := Nat.getLast_digit_ne_zero 10 hn
    have hhead : (Nat.digits 10 n).getLast (Nat.digits_ne_nil_iff_ne_zero.mpr hn) = d := by
      rw [List.getLast_eq_head_reverse]
      simp [hds]
    omega
  rw [hds] at hlt
  refine ⟨Char.ofNat (48 + d), ds.map (fun d => Char.ofNat (48 + d)), ?_, ?_, ?_⟩
  · rw [decimal, if_neg hn, hds, List.map_cons]
  · exact isDigit19_ofNat d (hlt d (by simp)) hd
  · intro c hc
    obtain ⟨x, hx, rfl⟩ := List.mem_map.mp hc
    exact isDigit_ofNat x (hlt x (by simp [hx]))

theorem isNumber_decimalInt (n : Int) : Json.isNumber (decimalInt n) = true := by
  rw [decimalInt]
  by_cases h0 : n.natAbs = 0
  · rw [if_neg (by omega), h0]
    decide
  · obtain ⟨c, l, hcl, hc, hl⟩ := decimal_of_ne_zero h0
    have hne : c ≠ '-' ∧ c ≠ '0' :=
      ⟨fun h => by subst h; exact absurd hc (by decide),
        fun h => by subst h; exact absurd hc (by decide)⟩
    rw [hcl]
    split
    · simp [Json.isNumber, Json.isNumberFrom, Json.NumState.step, hne.2, hc, isNumberFrom_int hl]
    · simp [Json.isNumber, Json.isNumberFrom, Json.NumState.step, hne.1, hne.2, hc,
        isNumberFrom_int hl]

def atoi (l : List Char) : Option Int :=
  let signed := l.head? = some '-' ∨ l.head? = some '+'
  let digits := if signed then l.tail else l
  let n := natOfDigits digits
  if digits = [] ∨ digits.all Char.isDigit = false then none
  else if l.head? = some '-' then if n ≤ 2 ^ 63 then some (-n) else none
  else if n < 2 ^ 63 then some n else none

theorem isDigit_of_isDigit19 {c : Char} (hc : Json.isDigit19 c = true) : c.isDigit = true := by
  simp only [Json.isDigit19, Char.isDigit, Bool.and_eq_true, decide_eq_true_eq, Char.le_def,
    UInt32.le_iff_toNat_le, ge_iff_le] at hc ⊢
  grind

theorem decimal_digits (n : Nat) : decimal n ≠ [] ∧ ∀ c ∈ decimal n, c.isDigit = true := by
  by_cases h0 : n = 0
  · rw [h0]
    exact ⟨by decide, List.all_iff_forall_prop.mp (by decide)⟩
  · obtain ⟨c, l, hcl, hc, hl⟩ := decimal_of_ne_zero h0
    rw [hcl]
    refine ⟨by simp, ?_⟩
    rw [List.forall_mem_cons]
    exact ⟨isDigit_of_isDigit19 hc, hl⟩

theorem decimalInt_inj {m n : Int} (h : decimalInt m = decimalInt n) : m = n := by
  have hminus : ∀ k l, decimal k ≠ '-' :: l := by
    intro k l heq
    exact absurd ((decimal_digits k).2 '-' (by rw [heq]; exact List.mem_cons_self)) (by decide)
  have habs : ∀ {a b : Int}, decimal a.natAbs = decimal b.natAbs → a.natAbs = b.natAbs := by
    intro a b heq
    have hnat := congrArg natOfDigits heq
    rwa [natOfDigits_decimal, natOfDigits_decimal] at hnat
  rw [decimalInt, decimalInt] at h
  grind

theorem atoi_of_digits {ds : List Char} (hne : ds ≠ []) (hdigits : ∀ c ∈ ds, c.isDigit = true) :
    atoi ds = if natOfDigits ds < 2 ^ 63 then some (natOfDigits ds : Int) else none := by
  have hsign : ∀ c, c.isDigit = false → ds.head? ≠ some c := by
    intro c hc hhead
    have := hdigits c (List.mem_of_head? hhead)
    grind
  have hminus := hsign '-' (by decide)
  have hplus := hsign '+' (by decide)
  have hall : ds.all Char.isDigit = true := List.all_eq_true.mpr hdigits
  simp only [atoi, hminus, hplus, or_self, if_false, hne, hall, Bool.true_eq_false]

theorem atoi_decimal {n : Nat} (hn : n < 2 ^ 63) : atoi (decimal n) = some (n : Int) := by
  obtain ⟨hne, hdigits⟩ := decimal_digits n
  rw [atoi_of_digits hne hdigits, natOfDigits_decimal, if_pos hn]

/-! ### `float64` -/

def scaleTwo (p q : Nat) (k : Int) : Nat × Nat :=
  if 0 ≤ k then (p * 2 ^ k.toNat, q) else (p, q * 2 ^ (-k).toNat)

def roundHalfEven (p q : Nat) : Nat :=
  let d := p / q
  let r := p % q
  if 2 * r < q then d else if q < 2 * r then d + 1 else if d % 2 = 0 then d else d + 1

def roundFloat (p q : Nat) : Nat × Nat :=
  if p = 0 then (0, 1)
  else
    let k : Int := 53 - ((p.log2 : Int) - (q.log2 : Int))
    let s := scaleTwo p q k
    -- the scaled fraction lies between 2^52 and 2^54: one bit too many is given back
    let k := if s.1 < 2 ^ 53 * s.2 then k else k - 1
    let s := scaleTwo p q k
    scaleTwo (roundHalfEven s.1 s.2) 1 (-k)

def numValue (l : List Char) : Bool × Nat × Nat :=
  let neg := l.head? = some '-'
  let body := if neg then l.tail else l
  let int := body.takeWhile Char.isDigit
  let rest := body.dropWhile Char.isDigit
  let frac := if rest.head? = some '.' then rest.tail.takeWhile Char.isDigit else []
  let rest := if rest.head? = some '.' then rest.tail.dropWhile Char.isDigit else rest
  -- what is left is empty or an exponent
  let expNeg := rest.tail.head? = some '-'
  let expDigits := natOfDigits (rest.tail.filter Char.isDigit)
  let exp : Int := (if expNeg then -(expDigits : Int) else expDigits) - frac.length
  let mantissa := natOfDigits (int ++ frac)
  if 0 ≤ exp then (neg, mantissa * 10 ^ exp.toNat, 1) else (neg, mantissa, 10 ^ (-exp).toNat)

def inFloatRange (l : List Char) : Bool :=
  let v := (numValue l).2
  v.1 < (2 ^ 1024 - 2 ^ 970) * v.2

mutual

def Json.inRange : Json → Bool
  | .num l => inFloatRange l
  | .arr xs => Json.inRangeElems xs
  | .obj fs => Json.inRangeFields fs
  | _ => true

def Json.inRangeElems : List Json → Bool
  | [] => true
  | x :: xs => x.inRange && Json.inRangeElems xs

def Json.inRangeFields : List (String × Json) → Bool
  | [] => true
  | (_, v) :: fs => v.inRange && Json.inRangeFields fs

end

def formatFixed (l : List Char) : String :=
  let v := numValue l
  let x := roundFloat v.2.1 v.2.2
  let micros := roundHalfEven (x.1 * 1000000) x.2
  let frac := decimal (micros % 1000000)
  String.ofList ((if v.1 then ['-'] else []) ++ decimal (micros / 1000000) ++
    '.' :: (List.replicate (6 - frac.length) '0' ++ frac))

example : formatFixed "9007199254740993".toList = "9007199254740992.000000" := by decide +kernel

/-! ### Durations -/

def durationUnit (u : List Char) : Option Nat :=
  if u = ['n', 's'] then some 1
  else if u = ['u', 's'] ∨ u = ['\u00b5', 's'] ∨ u = ['\u03bc', 's'] then some 1000
  else if u = ['m', 's'] then some 1000000
  else if u = ['s'] then some 1000000000
  else if u = ['m'] then some 60000000000
  else if u = ['h'] then some 3600000000000
  else none

def leadingFraction (l : List Char) : Nat × Nat :=
  let go := fun (st : Nat × Nat × Bool) (c : Char) =>
    let (x, scale, overflow) := st
    if overflow then st
    else if x > (2 ^ 63 - 1) / 10 then (x, scale, true)
    else
      let y := 10 * x + (c.toNat - 48)
      if y > 2 ^ 63 then (x, scale, true) else (y, scale * 10, false)
  let r := l.foldl go (0, 1, false)
  (r.1, r.2.1)

def fractionNanos (f scale unit : Nat) : Nat :=
  let ff := roundFloat f 1
  let u := roundFloat unit scale
  let r := roundFloat (ff.1 * u.1) (ff.2 * u.2)
  r.1 / r.2

def parseDurationTerms : Nat → Nat → List Char → Option Nat
  | _, d, [] => some d
  | 0, _, _ :: _ => none
  | fuel + 1, d, s@(_ :: _) =>
    let int := s.takeWhile Char.isDigit
    let rest := s.dropWhile Char.isDigit
    let hasDot := rest.head? = some '.'
    let frac := if hasDot then rest.tail.takeWhile Char.isDigit else []
    let rest := if hasDot then rest.tail.dropWhile Char.isDigit else rest
    let unitText := rest.takeWhile (fun c => c ≠ '.' && !c.isDigit)
    let rest := rest.dropWhile (fun c => c ≠ '.' && !c.isDigit)
    let v := natOfDigits int
    if int = [] ∧ frac = [] ∨ v > 2 ^ 63 then none
    else
      match durationUnit unitText with
      | none => none
      | some unit =>
        if v > 2 ^ 63 / unit then none
        else
          let f := leadingFraction frac
          let v := v * unit + (if f.1 > 0 then fractionNanos f.1 f.2 unit else 0)
          if v > 2 ^ 63 ∨ d + v > 2 ^ 63 then none else parseDurationTerms fuel (d + v) rest

def parseDuration (s : String) : Option Int :=
  let l := s.toList
  let neg := l.head? = some '-'
  let body := if neg ∨ l.head? = some '+' then l.tail else l
  if body = ['0'] then some 0
  else if body = [] then none
  else
    match parseDurationTerms body.length 0 body with
    | none => none
    | some d => if neg then some (-(d : Int)) else if d > 2 ^ 63 - 1 then none else some d

end Zynax.Golang
