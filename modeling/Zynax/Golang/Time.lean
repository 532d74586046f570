import Zynax.Golang.Numbers
import Mathlib.Data.List.DropRight

namespace Zynax.Golang

/-!
# Instants and their RFC 3339 texts

An instant of `time.Time` is given in nanoseconds since the Unix epoch.

* `dateOfDays`, `Date.days` — the proleptic Gregorian calendar, both ways; `days_dateOfDays`;
* `parseRFC3339Nano_format` — a text that was written can be read back, as long as the year has
  four digits; without a fraction it reads as the beginning of the second.
-/

/-! ### The calendar -/

structure Date where
  year : Int
  month : Nat
  day : Nat
  deriving DecidableEq, Repr

def isLeap (year : Int) : Bool := year % 4 = 0 && (year % 100 ≠ 0 || year % 400 = 0)

def daysBefore (month : Nat) : Nat :=
  [0, 31, 59, 90, 120, 151, 181, 212, 243, 273, 304, 334, 365].getD month 0

def daysIn (month : Nat) (year : Int) : Nat :=
  if month = 2 ∧ isLeap year = true then 29 else daysBefore month - daysBefore (month - 1)

def daysToYear (year : Int) : Int :=
  365 * (year - 1) + (year - 1) / 4 - (year - 1) / 100 + (year - 1) / 400

def unixEpochDays : Int := 719162

def yearDay (leap : Bool) (month day : Nat) : Nat :=
  daysBefore (month - 1) + (if leap = true ∧ 3 ≤ month then 1 else 0) + (day - 1)

def Date.days (d : Date) : Int :=
  daysToYear d.year + yearDay (isLeap d.year) d.month d.day - unixEpochDays

def monthDay (leap : Bool) (yday : Nat) : Nat × Nat :=
  if leap = true ∧ yday = 59 then (2, 29)
  else
    -- after the leap day, count as if it were not there
    let yday := if leap = true ∧ 59 < yday then yday - 1 else yday
    -- an estimate, as if every month had 31 days, is at most one month too low
    let month := yday / 31
    if daysBefore (month + 1) ≤ yday then (month + 2, yday - daysBefore (month + 1) + 1)
    else (month + 1, yday - daysBefore month + 1)

def splitYear (d : Int) : Int × Nat :=
  let n400 := d / 146097
  let d := d % 146097
  -- the last of four centuries, and the last of four years, has one day more
  let n100 := d / 36524 - d / 36524 / 4
  let d := d - 36524 * n100
  let n4 := d / 1461
  let d := d % 1461
  let n1 := d / 365 - d / 365 / 4
  (400 * n400 + 100 * n100 + 4 * n4 + n1 + 1, (d - 365 * n1).toNat)

def dateOfDays (days : Int) : Date :=
  let y := splitYear (days + unixEpochDays)
  let md := monthDay (isLeap y.1) y.2
  ⟨y.1, md.1, md.2⟩

theorem isLeap_iff {year : Int} :
    isLeap year = true ↔ year % 4 = 0 ∧ (year % 100 ≠ 0 ∨ year % 400 = 0) := by
  simp [isLeap]

theorem daysToYear_cycles {a b c e : Int} (hb : 0 ≤ b ∧ b ≤ 3) (hc : 0 ≤ c ∧ c ≤ 24)
    (he : 0 ≤ e ∧ e ≤ 3) :
    daysToYear (400 * a + 100 * b + 4 * c + e + 1) = 146097 * a + 36524 * b + 1461 * c + 365 * e := by
  rw [daysToYear]
  omega

theorem isLeap_cycles {a b c e : Int} (hb : 0 ≤ b ∧ b ≤ 3) (hc : 0 ≤ c ∧ c ≤ 24)
    (he : 0 ≤ e ∧ e ≤ 3) :
    isLeap (400 * a + 100 * b + 4 * c + e + 1) = true ↔ e = 3 ∧ (c ≠ 24 ∨ b = 3) := by
  rw [isLeap_iff]
  omega

theorem splitYear_cycles (d : Int) :
    ∃ a b c e : Int, (0 ≤ b ∧ b ≤ 3) ∧ (0 ≤ c ∧ c ≤ 24) ∧ (0 ≤ e ∧ e ≤ 3) ∧
      (splitYear d).1 = 400 * a + 100 * b + 4 * c + e + 1 ∧
      d = 146097 * a + 36524 * b + 1461 * c + 365 * e + (splitYear d).2 ∧
      (splitYear d).2 ≤ 365 ∧ ((splitYear d).2 = 365 → e = 3 ∧ (c ≠ 24 ∨ b = 3)) := by
  -- names for the remainders, so that each division is one linear fact
  obtain ⟨r, hr⟩ : ∃ r, r = d % 146097 := ⟨_, rfl⟩
  obtain ⟨b, hb⟩ : ∃ b, b = r / 36524 - r / 36524 / 4 := ⟨_, rfl⟩
  obtain ⟨r1, hr1⟩ : ∃ r1, r1 = r - 36524 * b := ⟨_, rfl⟩
  obtain ⟨r2, hr2⟩ : ∃ r2, r2 = r1 % 1461 := ⟨_, rfl⟩
  obtain ⟨e, he⟩ : ∃ e, e = r2 / 365 - r2 / 365 / 4 := ⟨_, rfl⟩
  have hsplit : splitYear d =
      (400 * (d / 146097) + 100 * b + 4 * (r1 / 1461) + e + 1, (r2 - 365 * e).toNat) := by
    rw [he, hr2, hr1, hb, hr, splitYear]
  have hcentury : (0 ≤ b ∧ b ≤ 3) ∧ 0 ≤ r1 ∧ r1 ≤ 36524 ∧ (r1 = 36524 → b = 3) := by omega
  have hfour : (0 ≤ r1 / 1461 ∧ r1 / 1461 ≤ 24) ∧ 0 ≤ r2 ∧ r2 ≤ 1460 ∧
      (r2 = 1460 → r1 / 1461 = 24 → b = 3) := by omega
  have hyear : (0 ≤ e ∧ e ≤ 3) ∧ 0 ≤ r2 - 365 * e ∧ r2 - 365 * e ≤ 365 ∧
      (r2 - 365 * e = 365 → e = 3 ∧ r2 = 1460) := by omega
  refine ⟨d / 146097, b, r1 / 1461, e, hcentury.1, hfour.1, hyear.1, ?_, ?_, ?_, ?_⟩
  · rw [hsplit]
  · grind
  · grind
  · grind

theorem splitYear_spec (d : Int) :
    d = daysToYear (splitYear d).1 + (splitYear d).2 ∧
      (splitYear d).2 < 365 + if isLeap (splitYear d).1 = true then 1 else 0 := by
  obtain ⟨a, b, c, e, hb, hc, he, hyear, hday, hle, hlast⟩ := splitYear_cycles d
  rw [hyear]
  refine ⟨?_, ?_⟩
  · rw [daysToYear_cycles hb hc he]
    exact hday
  · by_cases h365 : (splitYear d).2 = 365
    · rw [if_pos ((isLeap_cycles hb hc he).mpr (hlast h365))]
      omega
    · omega

theorem monthDay_spec : ∀ leap : Bool, ∀ yday < 366, yday < 365 + (if leap = true then 1 else 0) →
    1 ≤ (monthDay leap yday).1 ∧ (monthDay leap yday).1 ≤ 12 ∧
      1 ≤ (monthDay leap yday).2 ∧
      (monthDay leap yday).2 ≤ (if (monthDay leap yday).1 = 2 ∧ leap = true then 29
        else daysBefore (monthDay leap yday).1 - daysBefore ((monthDay leap yday).1 - 1)) ∧
      yearDay leap (monthDay leap yday).1 (monthDay leap yday).2 = yday := by
  decide +kernel

structure Date.Valid (d : Date) : Prop where
  one_le_month : 1 ≤ d.month
  month_le : d.month ≤ 12
  one_le_day : 1 ≤ d.day
  day_le : d.day ≤ daysIn d.month d.year

theorem daysIn_le {month : Nat} (hmonth : month ≤ 12) (year : Int) : daysIn month year ≤ 31 := by
  have htable : ∀ month < 13, daysBefore month - daysBefore (month - 1) ≤ 31 := by decide
  rw [daysIn]
  grind

theorem dateOfDays_valid (days : Int) : (dateOfDays days).Valid := by
  obtain ⟨-, hlt⟩ := splitYear_spec (days + unixEpochDays)
  have hlt366 : (splitYear (days + unixEpochDays)).2 < 366 := by
    split at hlt <;> omega
  obtain ⟨hmonth, hmonth12, hday, hdayle, -⟩ := monthDay_spec _ _ hlt366 hlt
  exact ⟨hmonth, hmonth12, hday, hdayle⟩

theorem days_dateOfDays (days : Int) : (dateOfDays days).days = days := by
  obtain ⟨hday, hlt⟩ := splitYear_spec (days + unixEpochDays)
  have hlt366 : (splitYear (days + unixEpochDays)).2 < 366 := by
    split at hlt <;> omega
  obtain ⟨-, -, -, -, hyearDay⟩ := monthDay_spec _ _ hlt366 hlt
  rw [Date.days, dateOfDays]
  grind

def zeroTime : Int := -62135596800000000000

/-! ### Writing -/

def digitsFixed : Nat → Nat → List Char
  | 0, _ => []
  | width + 1, n => digitsFixed width (n / 10) ++ [Char.ofNat (48 + n % 10)]

def appendInt (n : Int) (width : Nat) : List Char :=
  (if n < 0 then ['-'] else []) ++
    if n.natAbs < 10 ^ width then digitsFixed width n.natAbs else decimal n.natAbs

def formatNano (nsec : Nat) : List Char :=
  if nsec = 0 then [] else '.' :: (digitsFixed 9 nsec).rdropWhile (· = '0')

def nanosPerSecond : Int := 1000000000

def secondsPerDay : Int := 86400

def dateOf (t : Int) : Date := dateOfDays (t / nanosPerSecond / secondsPerDay)

def secondOfDay (t : Int) : Nat := (t / nanosPerSecond % secondsPerDay).toNat

def nanosecond (t : Int) : Nat := (t % nanosPerSecond).toNat

def formatRFC3339Nano (t : Int) : List Char :=
  appendInt (dateOf t).year 4 ++ '-' :: (appendInt (dateOf t).month 2 ++ '-' ::
    (appendInt (dateOf t).day 2 ++ 'T' :: (appendInt (secondOfDay t / 3600) 2 ++ ':' ::
      (appendInt (secondOfDay t % 3600 / 60) 2 ++ ':' :: (appendInt (secondOfDay t % 60) 2 ++
        (formatNano (nanosecond t) ++ ['Z']))))))

def formatRFC3339 (t : Int) : List Char :=
  appendInt (dateOf t).year 4 ++ '-' :: (appendInt (dateOf t).month 2 ++ '-' ::
    (appendInt (dateOf t).day 2 ++ 'T' :: (appendInt (secondOfDay t / 3600) 2 ++ ':' ::
      (appendInt (secondOfDay t % 3600 / 60) 2 ++ ':' :: (appendInt (secondOfDay t % 60) 2 ++ ['Z'])))))

theorem formatRFC3339_ne_nil (t : Int) : formatRFC3339 t ≠ [] := by
  simp [formatRFC3339]

/-! ### Reading -/

def digitValue (c : Char) : Nat := c.toNat - 48

def getnum (fixed : Bool) : List Char → Option (Nat × List Char)
  | c :: d :: rest =>
    if c.isDigit then
      if d.isDigit then some (digitValue c * 10 + digitValue d, rest)
      else if fixed then none
      else some (digitValue c, d :: rest)
    else none
  | [c] => if c.isDigit ∧ fixed = false then some (digitValue c, []) else none
  | [] => none

def skipChar (c : Char) : List Char → Option (List Char)
  | x :: rest => if x = c then some rest else none
  | [] => none

def getYear (l : List Char) : Option (Nat × List Char) :=
  if (l.take 4).length = 4 ∧ (l.take 4).all Char.isDigit then
    some (natOfDigits (l.take 4), l.drop 4)
  else none

def parseNanoseconds (digits : List Char) : Nat :=
  natOfDigits (digits.take 9) * 10 ^ (9 - (digits.take 9).length)

def getFraction : List Char → Nat × List Char
  | sep :: d :: rest =>
    if (sep = '.' ∨ sep = ',') ∧ d.isDigit then
      (parseNanoseconds ((d :: rest).takeWhile Char.isDigit), (d :: rest).dropWhile Char.isDigit)
    else (0, sep :: d :: rest)
  | l => (0, l)

def getZone : List Char → Option (Int × List Char)
  | 'Z' :: rest => some (0, rest)
  | sign :: h1 :: h2 :: ':' :: m1 :: m2 :: rest =>
    match getnum true [h1, h2], getnum true [m1, m2] with
    | some (hr, _), some (mm, _) =>
      if hr ≤ 24 ∧ mm ≤ 60 then
        if sign = '+' then some (((hr * 60 + mm) * 60 : Nat), rest)
        else if sign = '-' then some (-((hr * 60 + mm) * 60 : Nat), rest)
        else none
      else none
    | _, _ => none
  | _ => none

def getDate (value : List Char) : Option (Date × List Char) :=
  (getYear value).bind fun year =>
  (skipChar '-' year.2).bind fun value =>
  (getnum true value).bind fun month =>
  if 1 ≤ month.1 ∧ month.1 ≤ 12 then
    (skipChar '-' month.2).bind fun value =>
    (getnum true value).bind fun day =>
    some (⟨year.1, month.1, day.1⟩, day.2)
  else none

def getClock (value : List Char) : Option (Nat × List Char) :=
  (getnum false value).bind fun hour =>
  (skipChar ':' hour.2).bind fun value =>
  (getnum true value).bind fun min =>
  (skipChar ':' min.2).bind fun value =>
  (getnum true value).bind fun sec =>
  if hour.1 < 24 ∧ min.1 < 60 ∧ sec.1 < 60 then
    some (hour.1 * 3600 + min.1 * 60 + sec.1, sec.2)
  else none

def parseRFC3339Nano (value : List Char) : Option Int :=
  (getDate value).bind fun date =>
  (skipChar 'T' date.2).bind fun value =>
  (getClock value).bind fun clock =>
  (getZone (getFraction clock.2).2).bind fun offset =>
  if offset.2 = [] ∧ 1 ≤ date.1.day ∧ date.1.day ≤ daysIn date.1.month date.1.year then
    some ((date.1.days * secondsPerDay + clock.1 - offset.1) * nanosPerSecond +
      (getFraction clock.2).1)
  else none

/-! ### Reading what was written -/

variable {width n : Nat}

theorem length_digitsFixed (width n : Nat) : (digitsFixed width n).length = width := by
  induction width generalizing n with
  | zero => rfl
  | succ width ih => simp [digitsFixed, ih]

theorem isDigit_of_mem_digitsFixed {c : Char} (hc : c ∈ digitsFixed width n) :
    c.isDigit = true := by
  induction width generalizing n with
  | zero => exact absurd hc (by simp [digitsFixed])
  | succ width ih =>
    rw [digitsFixed, List.mem_append, List.mem_singleton] at hc
    rcases hc with hc | rfl
    · exact ih hc
    · exact isDigit_ofNat _ (Nat.mod_lt _ (by decide))

theorem natOfDigits_digitsFixed (hn : n < 10 ^ width) :
    natOfDigits (digitsFixed width n) = n := by
  induction width generalizing n with
  | zero =>
    have : n = 0 := by omega
    rw [this]
    rfl
  | succ width ih =>
    have hdigit : natOfDigits [Char.ofNat (48 + n % 10)] = n % 10 := by
      simp only [natOfDigits, List.foldl_cons, List.foldl_nil, Nat.mul_zero, Nat.zero_add]
      exact toNat_digit _ (Nat.mod_lt _ (by decide))
    have hlt : n / 10 < 10 ^ width := by
      omega
    rw [digitsFixed, natOfDigits_append, ih hlt, hdigit, List.length_singleton]
    omega

theorem appendInt_of_lt (hn : n < 10 ^ width) :
    appendInt n width = digitsFixed width n := by
  rw [appendInt, if_neg (by omega), Int.natAbs_natCast, if_pos hn, List.nil_append]

theorem getYear_append (hn : n < 10 ^ 4) (rest : List Char) :
    getYear (digitsFixed 4 n ++ rest) = some (n, rest) := by
  have hlen : (digitsFixed 4 n).length = 4 := length_digitsFixed 4 n
  have hall : (digitsFixed 4 n).all Char.isDigit = true :=
    List.all_eq_true.mpr (fun c hc => isDigit_of_mem_digitsFixed hc)
  rw [getYear, List.take_left' hlen, List.drop_left' hlen, if_pos ⟨hlen, hall⟩,
    natOfDigits_digitsFixed hn]

theorem getnum_append (fixed : Bool) (hn : n < 10 ^ 2) (rest : List Char) :
    getnum fixed (digitsFixed 2 n ++ rest) = some (n, rest) := by
  have hshape : digitsFixed 2 n = [Char.ofNat (48 + n / 10 % 10), Char.ofNat (48 + n % 10)] := rfl
  have htens := isDigit_ofNat (n / 10 % 10) (Nat.mod_lt _ (by decide))
  have hunits := isDigit_ofNat (n % 10) (Nat.mod_lt _ (by decide))
  have hvalue : digitValue (Char.ofNat (48 + n / 10 % 10)) * 10 +
      digitValue (Char.ofNat (48 + n % 10)) = n := by
    rw [digitValue, digitValue, toNat_digit _ (Nat.mod_lt _ (by decide)),
      toNat_digit _ (Nat.mod_lt _ (by decide))]
    omega
  rw [hshape, List.cons_append, List.cons_append, List.nil_append, getnum, if_pos htens,
    if_pos hunits, hvalue]

theorem natOfDigits_zeros {l : List Char} (hl : ∀ c ∈ l, c = '0') : natOfDigits l = 0 := by
  induction l with
  | nil => rfl
  | cons c l ih =>
    have hc : c = '0' := hl c (by simp)
    subst hc
    rw [← List.singleton_append, natOfDigits_append, ih (fun c hc => hl c (by simp [hc]))]
    simp [natOfDigits]

theorem natOfDigits_rdropWhile (l : List Char) :
    natOfDigits (l.rdropWhile (· = '0')) * 10 ^ (l.length - (l.rdropWhile (· = '0')).length) =
      natOfDigits l := by
  have hsplit := List.rdropWhile_append_rtakeWhile (p := fun c : Char => decide (c = '0')) (l := l)
  have hzeros : natOfDigits (l.rtakeWhile (· = '0')) = 0 :=
    natOfDigits_zeros (fun c hc => by simpa using List.mem_rtakeWhile_imp hc)
  have hlen := congrArg List.length hsplit
  rw [List.length_append] at hlen
  conv_rhs => rw [← hsplit, natOfDigits_append, hzeros, Nat.add_zero]
  congr 2
  omega

theorem parseNanoseconds_formatted {nsec : Nat} (hn : nsec < 10 ^ 9) :
    parseNanoseconds ((digitsFixed 9 nsec).rdropWhile (· = '0')) = nsec := by
  have hlen : ((digitsFixed 9 nsec).rdropWhile (· = '0')).length ≤ 9 := by
    have hprefix := List.rdropWhile_prefix (fun c : Char => decide (c = '0')) (l := digitsFixed 9 nsec)
    exact le_of_le_of_eq hprefix.length_le (length_digitsFixed 9 nsec)
  have hvalue := natOfDigits_rdropWhile (digitsFixed 9 nsec)
  rw [length_digitsFixed, natOfDigits_digitsFixed hn] at hvalue
  rw [parseNanoseconds, List.take_of_length_le hlen, hvalue]

theorem takeWhile_digits_append {l : List Char} (hl : ∀ c ∈ l, c.isDigit = true) {z : Char}
    (hz : z.isDigit = false) (rest : List Char) :
    (l ++ z :: rest).takeWhile Char.isDigit = l ∧
      (l ++ z :: rest).dropWhile Char.isDigit = z :: rest := by
  rw [List.takeWhile_append_of_pos hl, List.dropWhile_append_of_pos hl,
    List.takeWhile_cons_of_neg (by simp [hz]), List.dropWhile_cons_of_neg (by simp [hz]),
    List.append_nil]
  simp

theorem getFraction_append {nsec : Nat} (hn : nsec < 10 ^ 9) :
    getFraction (formatNano nsec ++ ['Z']) = (nsec, ['Z']) := by
  rw [formatNano]
  by_cases h0 : nsec = 0
  · rw [if_pos h0, h0]
    decide
  · rw [if_neg h0]
    have hparse := parseNanoseconds_formatted hn
    have hdigits : ∀ c ∈ (digitsFixed 9 nsec).rdropWhile (· = '0'), c.isDigit = true := fun c hc =>
      isDigit_of_mem_digitsFixed ((List.rdropWhile_prefix _ _).subset hc)
    generalize (digitsFixed 9 nsec).rdropWhile (· = '0') = trimmed at hparse hdigits ⊢
    -- a number that is not zero has a digit left
    cases trimmed with
    | nil => exact absurd hparse.symm (by simpa [parseNanoseconds, natOfDigits] using h0)
    | cons d ds =>
      obtain ⟨htake, hdrop⟩ := takeWhile_digits_append hdigits (z := 'Z') (by decide) []
      rw [List.cons_append, List.cons_append] at *
      rw [getFraction, if_pos ⟨Or.inl rfl, hdigits d (by simp)⟩, htake, hdrop, hparse]

/-! ### The round trip -/

variable {t : Int}

def yearOf (t : Int) : Int := (dateOf t).year

def FourDigitYear (t : Int) : Prop := 0 ≤ yearOf t ∧ yearOf t ≤ 9999

instance (t : Int) : Decidable (FourDigitYear t) := inferInstanceAs (Decidable (_ ∧ _))

theorem dateOf_valid (t : Int) : (dateOf t).Valid := dateOfDays_valid _

theorem day_dateOf_lt (t : Int) : (dateOf t).day < 10 ^ 2 := by
  have hle := (dateOf_valid t).day_le
  have h31 := daysIn_le (dateOf_valid t).month_le (dateOf t).year
  omega

theorem secondOfDay_lt (t : Int) : secondOfDay t < 86400 := by
  rw [secondOfDay, secondsPerDay]
  omega

theorem nanosecond_lt (t : Int) : nanosecond t < 10 ^ 9 := by
  rw [nanosecond, nanosPerSecond]
  omega

theorem toNat_yearOf (ht : FourDigitYear t) : ((yearOf t).toNat : Int) = (dateOf t).year :=
  Int.toNat_of_nonneg ht.1

theorem toNat_yearOf_lt (ht : FourDigitYear t) : (yearOf t).toNat < 10 ^ 4 := by
  have hle := ht.2
  omega

theorem formatRFC3339Nano_eq (ht : FourDigitYear t) :
    formatRFC3339Nano t =
      digitsFixed 4 (yearOf t).toNat ++ '-' :: (digitsFixed 2 (dateOf t).month ++ '-' ::
        (digitsFixed 2 (dateOf t).day ++ 'T' :: (digitsFixed 2 (secondOfDay t / 3600) ++ ':' ::
          (digitsFixed 2 (secondOfDay t % 3600 / 60) ++ ':' ::
            (digitsFixed 2 (secondOfDay t % 60) ++ (formatNano (nanosecond t) ++ ['Z'])))))) := by
  have hmonth := (dateOf_valid t).month_le
  have hsec := secondOfDay_lt t
  rw [formatRFC3339Nano, ← toNat_yearOf ht, appendInt_of_lt (toNat_yearOf_lt ht),
    appendInt_of_lt (by omega), appendInt_of_lt (day_dateOf_lt t)]
  norm_cast
  rw [appendInt_of_lt (by omega), appendInt_of_lt (by omega), appendInt_of_lt (by omega)]

theorem instant_eq (t : Int) :
    ((dateOf t).days * secondsPerDay + (secondOfDay t : Int)) * nanosPerSecond + nanosecond t = t := by
  have hsec : (secondOfDay t : Int) = t / nanosPerSecond % secondsPerDay := by
    rw [secondOfDay, secondsPerDay]
    omega
  have hnano : (nanosecond t : Int) = t % nanosPerSecond := by
    rw [nanosecond, nanosPerSecond]
    omega
  rw [dateOf, days_dateOfDays, hsec, hnano, secondsPerDay, nanosPerSecond]
  omega

theorem skipChar_cons (c : Char) (rest : List Char) : skipChar c (c :: rest) = some rest :=
  if_pos rfl

theorem getDate_append {year month day : Nat} (hyear : year < 10 ^ 4)
    (hmonth : 1 ≤ month ∧ month ≤ 12) (hday : day < 10 ^ 2) (rest : List Char) :
    getDate (digitsFixed 4 year ++ '-' :: (digitsFixed 2 month ++ '-' ::
      (digitsFixed 2 day ++ rest))) = some (⟨year, month, day⟩, rest) := by
  rw [getDate, getYear_append hyear, Option.bind_some, skipChar_cons, Option.bind_some,
    getnum_append true (by omega), Option.bind_some, if_pos hmonth, skipChar_cons,
    Option.bind_some, getnum_append true hday, Option.bind_some]

theorem getClock_append {sec : Nat} (hsec : sec < 86400) (rest : List Char) :
    getClock (digitsFixed 2 (sec / 3600) ++ ':' :: (digitsFixed 2 (sec % 3600 / 60) ++ ':' ::
      (digitsFixed 2 (sec % 60) ++ rest))) = some (sec, rest) := by
  have hclock : sec / 3600 * 3600 + sec % 3600 / 60 * 60 + sec % 60 = sec := by omega
  have hrange : sec / 3600 < 24 ∧ sec % 3600 / 60 < 60 ∧ sec % 60 < 60 := by omega
  rw [getClock, getnum_append false (by omega), Option.bind_some, skipChar_cons,
    Option.bind_some, getnum_append true (by omega), Option.bind_some, skipChar_cons,
    Option.bind_some, getnum_append true (by omega), Option.bind_some, if_pos hrange, hclock]

theorem parseRFC3339Nano_format (ht : FourDigitYear t) :
    parseRFC3339Nano (formatRFC3339Nano t) = some t := by
  have hdate := dateOf_valid t
  have hzone : getZone ['Z'] = some (0, []) := rfl
  rw [formatRFC3339Nano_eq ht, parseRFC3339Nano,
    getDate_append (toNat_yearOf_lt ht) ⟨hdate.one_le_month, hdate.month_le⟩ (day_dateOf_lt t),
    Option.bind_some, skipChar_cons, Option.bind_some, getClock_append (secondOfDay_lt t),
    Option.bind_some, getFraction_append (nanosecond_lt t), hzone, Option.bind_some,
    toNat_yearOf ht,
    if_pos ⟨rfl, hdate.one_le_day, hdate.day_le⟩, Int.sub_zero]
  exact congrArg some (instant_eq t)

def truncateSecond (t : Int) : Int := t / nanosPerSecond * nanosPerSecond

theorem truncateSecond_le (t : Int) : truncateSecond t ≤ t := by
  rw [truncateSecond, nanosPerSecond]
  omega

theorem truncateSecond_div (t : Int) : truncateSecond t / nanosPerSecond = t / nanosPerSecond := by
  rw [truncateSecond, nanosPerSecond]
  omega

theorem dateOf_truncateSecond (t : Int) : dateOf (truncateSecond t) = dateOf t := by
  rw [dateOf, dateOf, truncateSecond_div]

theorem formatRFC3339_eq (t : Int) : formatRFC3339 t = formatRFC3339Nano (truncateSecond t) := by
  have hclock : secondOfDay (truncateSecond t) = secondOfDay t := by
    rw [secondOfDay, secondOfDay, truncateSecond_div]
  have hnano : nanosecond (truncateSecond t) = 0 := by
    rw [nanosecond, truncateSecond, nanosPerSecond]
    omega
  rw [formatRFC3339, formatRFC3339Nano, dateOf_truncateSecond, hclock, hnano]
  rfl

theorem parseRFC3339Nano_formatRFC3339 (ht : FourDigitYear t) :
    parseRFC3339Nano (formatRFC3339 t) = some (truncateSecond t) := by
  rw [formatRFC3339_eq, parseRFC3339Nano_format]
  rwa [FourDigitYear, yearOf, dateOf_truncateSecond]

def isStampChar (c : Char) : Bool := c.isDigit || c ∈ ['-', 'T', ':', '.', 'Z']

theorem isStampChar_of_mem_format (ht : FourDigitYear t) :
    ∀ c ∈ formatRFC3339Nano t, isStampChar c = true := by
  have hdigits : ∀ width n, ∀ c ∈ digitsFixed width n, isStampChar c = true := fun width n c hc => by
    rw [isStampChar, isDigit_of_mem_digitsFixed hc, Bool.true_or]
  have hnano : ∀ c ∈ formatNano (nanosecond t), isStampChar c = true := by
    rw [formatNano]
    split
    · simp
    · rw [List.forall_mem_cons]
      exact ⟨by decide, fun c hc => hdigits 9 _ c ((List.rdropWhile_prefix _ _).subset hc)⟩
  rw [formatRFC3339Nano_eq ht]
  simp only [List.forall_mem_append, List.forall_mem_cons]
  exact ⟨hdigits _ _, by decide, hdigits _ _, by decide, hdigits _ _, by decide, hdigits _ _,
    by decide, hdigits _ _, by decide, hdigits _ _, hnano, by decide, by simp⟩

theorem isStampChar_ascii {c : Char} (hc : isStampChar c = true) : c.toNat < 128 ∧ c ≠ '|' := by
  rw [isStampChar, Bool.or_eq_true] at hc
  rcases hc with hc | hc
  · refine ⟨toNat_lt_of_isDigit hc, ?_⟩
    rintro rfl
    exact absurd hc (by decide)
  · have hmem : ∀ c ∈ ['-', 'T', ':', '.', 'Z'], c.toNat < 128 ∧ c ≠ '|' :=
      List.all_iff_forall_prop.mp (by decide)
    grind

end Zynax.Golang
