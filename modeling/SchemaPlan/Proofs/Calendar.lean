import Mathlib.Algebra.Order.Group.Int
import Mathlib.Data.List.Lex
import Mathlib.Order.Monotone.Basic
import Mathlib.Tactic.IntervalCases
import SchemaPlan.Calendar
set_option autoImplicit false

/-!
# The calendar

The date of a day is worked out from the day's number by divisions alone.  Here it is tied
to the calendar as it is walked through: the day 0 is the first of January 1970, and each
day is followed by the next day of its month, or the first day of the next month, or the
first of January (`dateOfDay_succ`); likewise for moments (`ofSeconds_succ`).  As the next
moment is a later one, moments are in the order of their dates and times
(`fields_lt_fields`), and so are their stamps (`stamp_lt_stamp`).
-/

namespace SchemaPlan.Calendar

/-! ## Years from March to February -/

/-- The days of the year that starts on the first of March of a year; the day more of a leap
year is its last. -/
def daysFromMarch (year : Int) : Nat := if isLeapYear (year + 1) then 366 else 365

/-- The days from the first of March of the year 0 to that of a year. -/
def marchStart (year : Int) : Int := 365 * year + year / 4 - year / 100 + year / 400

/-- The date of a day of a year that starts in March. -/
def dateFromMarch (year : Int) (dayOfYear : Nat) : Date :=
  let monthFromMarch := (5 * dayOfYear + 2) / 153
  let month := if monthFromMarch < 10 then monthFromMarch + 3 else monthFromMarch - 9
  ⟨year + (if month ≤ 2 then 1 else 0), month, dayOfYear - (153 * monthFromMarch + 2) / 5 + 1⟩

theorem daysFromMarch_eq (year : Int) :
    daysFromMarch year = 365 ∨ daysFromMarch year = 366 := by
  unfold daysFromMarch
  split
  · exact .inr rfl
  · exact .inl rfl

theorem isLeapYear_iff {year : Int} :
    isLeapYear year = true ↔ year % 4 = 0 ∧ (year % 100 ≠ 0 ∨ year % 400 = 0) := by
  simp [isLeapYear]

theorem marchStart_succ (year : Int) :
    marchStart (year + 1) = marchStart year + daysFromMarch year := by
  unfold marchStart daysFromMarch
  split
  · next h =>
    rw [isLeapYear_iff] at h
    omega
  · next h =>
    rw [isLeapYear_iff] at h
    omega

theorem marchStart_le {year later : Int} (h : year ≤ later) :
    marchStart year ≤ marchStart later := by
  refine monotone_int_of_le_succ (fun y => ?_) h
  rw [marchStart_succ]
  omega

/-- A day is in one year only. -/
theorem marchStart_add_inj {y₁ y₂ : Int} {d₁ d₂ : Nat} (h₁ : d₁ < daysFromMarch y₁)
    (h₂ : d₂ < daysFromMarch y₂) (h : marchStart y₁ + d₁ = marchStart y₂ + d₂) :
    y₁ = y₂ ∧ d₁ = d₂ := by
  have hend {y y' : Int} (hlt : y < y') : marchStart y + daysFromMarch y ≤ marchStart y' := by
    rw [← marchStart_succ]
    exact marchStart_le hlt
  rcases lt_trichotomy y₁ y₂ with hlt | rfl | hlt
  · have := hend hlt
    omega
  · exact ⟨rfl, by omega⟩
  · have := hend hlt
    omega

/-- A day of four hundred years is told by centuries, spans of four years, years and days.
The last year of a span has a day more, but for the spans that end a century other than the
last one. -/
theorem exists_spans {day : Nat} (h : day < daysPerEra) :
    ∃ c k j r, c < 4 ∧ k < 25 ∧ j < 4 ∧ r < 366 ∧ (r = 365 → j = 3 ∧ (k < 24 ∨ c = 3)) ∧
      day = 36524 * c + 1461 * k + 365 * j + r := by
  obtain ⟨c, d, hc, hd, rfl⟩ : ∃ c d, c < 4 ∧ (d < 36524 ∨ c = 3 ∧ d = 36524) ∧
      day = 36524 * c + d := by
    rw [daysPerEra] at h
    by_cases hlast : day = 146096
    · exact ⟨3, 36524, by omega, by omega, by omega⟩
    · exact ⟨day / 36524, day % 36524, by omega, by omega, by omega⟩
  obtain ⟨k, s, hk, hs, rfl⟩ : ∃ k s, k < 25 ∧ s < 1461 ∧ d = 1461 * k + s :=
    ⟨d / 1461, d % 1461, by omega, by omega, by omega⟩
  by_cases hlast : s = 1460
  · exact ⟨c, k, 3, 365, by omega⟩
  · exact ⟨c, k, s / 365, s % 365, by omega⟩

/-- The days more of the leap years before a day are counted by divisions, one of them too
early in the last year of some spans; that does not reach into the next year. -/
theorem yearOfEra_eq {c k j r day : Nat} (hc : c < 4) (hk : k < 25) (hj : j < 4) (hr : r < 366)
    (hlast : r = 365 → j = 3 ∧ (k < 24 ∨ c = 3))
    (hday : day = 36524 * c + 1461 * k + 365 * j + r) :
    (day - day / 1460 + day / 36524 - day / 146096) / 365 = 100 * c + 4 * k + j := by
  obtain ⟨e, he, hspan⟩ : ∃ e, e ≤ 1 ∧ day / 1460 = 25 * c + k + e :=
    ⟨(24 * c + k + 365 * j + r) / 1460, by omega, by omega⟩
  have hlate : e = 1 → j = 3 ∧ 269 ≤ r := by omega
  have hearly : e = 0 → r ≤ 364 := by omega
  obtain ⟨f, hf, hcentury⟩ : ∃ f, (f = 0 ∨ f = 1 ∧ day = 146096) ∧ day / 36524 = c + f := by
    by_cases hend : day = 146096
    · exact ⟨1, by omega, by omega⟩
    · exact ⟨0, by omega, by omega⟩
  have hera : day / 146096 = f := by omega
  rw [hspan, hcentury, hera]
  -- the quotients are known now, and only slow down what is left
  clear hspan hcentury hera hf
  have hrest : r - e < 365 := by omega
  have hyears : day - (25 * c + k + e) + (c + f) - f
      = 365 * (100 * c + 4 * k + j) + (r - e) := by
    clear hlast
    omega
  rw [hyears, Nat.mul_add_div (by decide), Nat.div_eq_of_lt hrest, Nat.add_zero]

/-- The date of a day is the date of the day of a year that starts in March. -/
theorem exists_dateFromMarch (day : Int) :
    ∃ year dayOfYear, dayOfYear < daysFromMarch year ∧
      day + 719468 = marchStart year + dayOfYear ∧
      dateOfDay day = dateFromMarch year dayOfYear := by
  have hera : (day + 719468).fdiv daysPerEra = (day + 719468) / 146097 :=
    Int.fdiv_eq_ediv_of_nonneg _ (by decide)
  have hrest : (day + 719468).fmod daysPerEra = (day + 719468) % 146097 :=
    Int.fmod_eq_emod_of_nonneg _ (by decide)
  obtain ⟨era, rest, hlt, hday⟩ : ∃ (era : Int) (rest : Nat), rest < daysPerEra ∧
      day + 719468 = 146097 * era + rest := by
    refine ⟨(day + 719468) / 146097, ((day + 719468) % 146097).toNat, ?_, ?_⟩
    · rw [daysPerEra]
      omega
    · omega
  have hdiv : (day + 719468) / 146097 = era := by
    rw [daysPerEra] at hlt
    omega
  have hmod : (day + 719468) % 146097 = rest := by omega
  obtain ⟨c, k, j, r, hc, hk, hj, hr, hlast, hspans⟩ := exists_spans hlt
  have hdayOfYear : rest - (365 * (100 * c + 4 * k + j) + (100 * c + 4 * k + j) / 4
      - (100 * c + 4 * k + j) / 100) = r := by
    have hfours : (100 * c + 4 * k + j) / 4 = 25 * c + k := by omega
    have hcenturies : (100 * c + 4 * k + j) / 100 = c := by omega
    omega
  refine ⟨(100 * c + 4 * k + j : Nat) + era * 400, r, ?_, ?_, ?_⟩
  · unfold daysFromMarch
    split
    · exact hr
    · next hleap =>
      rw [isLeapYear_iff] at hleap
      omega
  · have hfours : ((100 * c + 4 * k + j : Nat) + era * 400) / 4 = 25 * c + k + 100 * era := by
      omega
    have hcenturies : ((100 * c + 4 * k + j : Nat) + era * 400) / 100 = c + 4 * era := by omega
    have heras : ((100 * c + 4 * k + j : Nat) + era * 400) / 400 = era := by omega
    rw [marchStart, hfours, hcenturies, heras]
    omega
  · simp only [dateOfDay, hera, hrest, hdiv, hmod, Int.toNat_natCast,
      yearOfEra_eq hc hk hj hr hlast hspans, hdayOfYear, dateFromMarch]

/-! ## The next day -/

/-- The next day: of the same month, or the first of the next, or the first of January. -/
def Date.next (date : Date) : Date :=
  if date.day < daysInMonth date.year date.month then { date with day := date.day + 1 }
  else if date.month < 12 then ⟨date.year, date.month + 1, 1⟩
  else ⟨date.year + 1, 1, 1⟩

/-- A month and a day that the calendar has. -/
structure Date.IsValid (date : Date) : Prop where
  month_pos : 1 ≤ date.month
  month_le : date.month ≤ 12
  day_pos : 1 ≤ date.day
  day_le : date.day ≤ daysInMonth date.year date.month

/-- The days from the first of March to the first of a month, by how many months it is behind
March. -/
def monthStart (monthFromMarch : Nat) : Nat := (153 * monthFromMarch + 2) / 5

theorem dateFromMarch_eq {year : Int} {dayOfYear m : Nat} (hm : m < 12)
    (hfrom : monthStart m ≤ dayOfYear) (hto : dayOfYear < monthStart (m + 1)) :
    dateFromMarch year dayOfYear = ⟨if m < 10 then year else year + 1,
      if m < 10 then m + 3 else m - 9, dayOfYear - monthStart m + 1⟩ := by
  unfold monthStart at hfrom hto
  have hmonth : (5 * dayOfYear + 2) / 153 = m := by omega
  by_cases hyear : m < 10
  · have hlate : ¬ m + 3 ≤ 2 := by omega
    simp [dateFromMarch, monthStart, hmonth, hyear, hlate]
  · have hearly : m - 9 ≤ 2 := by omega
    simp [dateFromMarch, monthStart, hmonth, hyear, hearly]

/-- A month ends where the next one starts, and February where the year ends. -/
theorem daysInMonth_eq (year : Int) {m : Nat} (hm : m < 12) :
    daysInMonth (if m < 10 then year else year + 1) (if m < 10 then m + 3 else m - 9)
      = min (monthStart (m + 1)) (daysFromMarch year) - monthStart m := by
  unfold daysFromMarch
  cases hleap : isLeapYear (year + 1) <;> interval_cases m <;>
    simp [daysInMonth, monthStart, hleap]

/-- A day of a year that starts in March is in a month. -/
theorem exists_month {year : Int} {dayOfYear : Nat} (h : dayOfYear < daysFromMarch year) :
    ∃ m, m < 12 ∧ monthStart m ≤ dayOfYear ∧ dayOfYear < monthStart (m + 1) := by
  have hdays := daysFromMarch_eq year
  refine ⟨(5 * dayOfYear + 2) / 153, by omega, ?_, ?_⟩
  · unfold monthStart
    omega
  · unfold monthStart
    omega

theorem dateFromMarch_isValid {year : Int} {dayOfYear : Nat}
    (h : dayOfYear < daysFromMarch year) : (dateFromMarch year dayOfYear).IsValid := by
  obtain ⟨m, hm, hfrom, hto⟩ := exists_month h
  have hlength := daysInMonth_eq year hm
  rw [dateFromMarch_eq hm hfrom hto]
  refine ⟨?_, ?_, Nat.le_add_left _ _, ?_⟩
  · dsimp only
    split <;> omega
  · dsimp only
    split <;> omega
  · dsimp only
    omega

theorem dateFromMarch_next {year : Int} {dayOfYear : Nat} (h : dayOfYear < daysFromMarch year) :
    (dateFromMarch year dayOfYear).next =
      if dayOfYear + 1 < daysFromMarch year then dateFromMarch year (dayOfYear + 1)
      else dateFromMarch (year + 1) 0 := by
  obtain ⟨m, hm, hfrom, hto⟩ := exists_month h
  have hlength := daysInMonth_eq year hm
  rw [dateFromMarch_eq hm hfrom hto, Date.next]
  dsimp only
  rw [hlength]
  have hdays := daysFromMarch_eq year
  by_cases hyear : dayOfYear + 1 < daysFromMarch year
  · rw [if_pos hyear]
    by_cases hmonth : dayOfYear + 1 < monthStart (m + 1)
    · rw [if_pos (by omega), dateFromMarch_eq hm (by omega) hmonth]
      congr 1
      omega
    · have hlast : m ≠ 11 := by
        rintro rfl
        have hend : monthStart (11 + 1) = 367 := rfl
        omega
      have hnext : dayOfYear + 1 < monthStart (m + 1 + 1) := by
        unfold monthStart at hto ⊢
        omega
      have hday : dayOfYear + 1 - monthStart (m + 1) + 1 = 1 := by omega
      rw [if_neg (by omega), dateFromMarch_eq (by omega) (by omega) hnext, hday]
      obtain hm | rfl | rfl : m < 9 ∨ m = 9 ∨ m = 10 := by omega
      · have hmonth : m + 3 < 12 := by omega
        have hsame : m < 10 := by omega
        have hnext : m + 1 < 10 := by omega
        simp only [if_pos hmonth, if_pos hsame, if_pos hnext]
      · rfl
      · rfl
  · rw [if_neg hyear, if_neg (by omega)]
    have hlast : m = 11 := by
      unfold monthStart at hto
      omega
    subst hlast
    rw [dateFromMarch_eq (m := 0) (by decide) (by decide) (by decide)]
    rfl

/-- Each day has a date that the calendar has. -/
theorem dateOfDay_isValid (day : Int) : (dateOfDay day).IsValid := by
  obtain ⟨year, dayOfYear, hlt, -, hdate⟩ := exists_dateFromMarch day
  rw [hdate]
  exact dateFromMarch_isValid hlt

theorem dateOfDay_zero : dateOfDay 0 = ⟨1970, 1, 1⟩ := by decide

/-- The day after a day has the next date. -/
theorem dateOfDay_succ (day : Int) : dateOfDay (day + 1) = (dateOfDay day).next := by
  obtain ⟨year, dayOfYear, hlt, hday, hdate⟩ := exists_dateFromMarch day
  obtain ⟨year', dayOfYear', hlt', hday', hdate'⟩ := exists_dateFromMarch (day + 1)
  rw [hdate, hdate', dateFromMarch_next hlt]
  split
  · next hsame =>
    obtain ⟨rfl, rfl⟩ := marchStart_add_inj hlt' hsame (by omega)
    rfl
  · next hlast =>
    have hstart : 0 < daysFromMarch (year + 1) := by
      have := daysFromMarch_eq (year + 1)
      omega
    have hsucc := marchStart_succ year
    obtain ⟨rfl, rfl⟩ := marchStart_add_inj hlt' hstart (by omega)
    rfl

/-! ## The next moment -/

/-- The date and time one second later. -/
def DateTime.next (t : DateTime) : DateTime :=
  if t.second < 59 then { t with second := t.second + 1 }
  else if t.minute < 59 then ⟨t.date, t.hour, t.minute + 1, 0⟩
  else if t.hour < 23 then ⟨t.date, t.hour + 1, 0, 0⟩
  else ⟨t.date.next, 0, 0, 0⟩

theorem exists_ofSeconds (seconds : Int) :
    ∃ (day : Int) (rest : Nat), rest < 86400 ∧ seconds = 86400 * day + rest ∧
      ofSeconds seconds = ⟨dateOfDay day, rest / 3600, rest / 60 % 60, rest % 60⟩ := by
  have hday : seconds.fdiv 86400 = seconds / 86400 := Int.fdiv_eq_ediv_of_nonneg _ (by decide)
  have hrest : seconds.fmod 86400 = seconds % 86400 := Int.fmod_eq_emod_of_nonneg _ (by decide)
  refine ⟨seconds / 86400, (seconds % 86400).toNat, by omega, by omega, ?_⟩
  simp only [ofSeconds, hday, hrest]

theorem ofSeconds_zero : ofSeconds 0 = ⟨⟨1970, 1, 1⟩, 0, 0, 0⟩ := by decide

/-- The moment one second later has the next date and time. -/
theorem ofSeconds_succ (seconds : Int) :
    ofSeconds (seconds + 1) = (ofSeconds seconds).next := by
  obtain ⟨day, rest, hrest, hseconds, htime⟩ := exists_ofSeconds seconds
  obtain ⟨day', rest', hrest', hseconds', htime'⟩ := exists_ofSeconds (seconds + 1)
  rw [htime, htime', DateTime.next]
  dsimp only
  by_cases hlast : rest + 1 < 86400
  · obtain ⟨rfl, rfl⟩ : day' = day ∧ rest' = rest + 1 := by omega
    split
    · congr 1 <;> omega
    split
    · congr 1 <;> omega
    split
    · congr 1 <;> omega
    · omega
  · obtain ⟨rfl, rfl, rfl⟩ : day' = day + 1 ∧ rest' = 0 ∧ rest = 86399 := by omega
    rw [dateOfDay_succ]
    rfl

/-! ## The order of moments -/

/-- The fields of a date and time, from the year down to the second. -/
def DateTime.fields (t : DateTime) : List Int :=
  [t.date.year, t.date.month, t.date.day, t.hour, t.minute, t.second]

/-- The next date and time is later. -/
theorem DateTime.fields_lt_next (t : DateTime) : t.fields < t.next.fields := by
  have hdate : t.date.year < t.date.next.year ∨ t.date.year = t.date.next.year ∧
      (t.date.month < t.date.next.month ∨ t.date.month = t.date.next.month ∧
        t.date.day < t.date.next.day) := by
    unfold Date.next
    split
    · exact .inr ⟨rfl, .inr ⟨rfl, Nat.lt_succ_self _⟩⟩
    split
    · exact .inr ⟨rfl, .inl (Nat.lt_succ_self _)⟩
    · exact .inl (Int.lt_succ _)
  simp only [fields, List.cons_lt_cons_iff]
  unfold next
  split
  · dsimp only
    omega
  split
  · dsimp only
    omega
  split
  · dsimp only
    omega
  · dsimp only
    omega

/-- A later moment has later fields. -/
theorem fields_lt_fields {a b : Int} (h : a < b) :
    (ofSeconds a).fields < (ofSeconds b).fields := by
  have hmono : StrictMono fun seconds => (ofSeconds seconds).fields :=
    strictMono_int_of_lt_succ fun seconds => by
      rw [ofSeconds_succ]
      exact DateTime.fields_lt_next _
  exact hmono h

/-! ## Digits -/

theorem digitChar_lt {m n : Nat} (h : m < n) (hn : n < 10) : m.digitChar < n.digitChar := by
  refine UInt32.lt_iff_toNat_lt.2 ?_
  have hm := Nat.toNat_digitChar_of_lt_ten (h.trans hn)
  have hn := Nat.toNat_digitChar_of_lt_ten hn
  rw [Char.toNat] at hm hn
  omega

theorem padded_succ {width : Nat} (n : Nat) (h : 0 < width) :
    padded (width + 1) n = padded width (n / 10) ++ [(n % 10).digitChar] := by
  unfold padded
  rw [Nat.toDigits_eq_if (n := n) (by decide)]
  split
  · next hn =>
    rw [Nat.div_eq_of_lt hn, Nat.mod_eq_of_lt hn, Nat.toDigits_zero]
    obtain ⟨rest, rfl⟩ := Nat.exists_eq_add_one_of_ne_zero h.ne'
    simp [List.replicate_succ']
  · simp

theorem length_padded {width n : Nat} (h : 0 < width) (hn : n < 10 ^ width) :
    (padded width n).length = width := by
  have hlength := (Nat.length_toDigits_le_iff (by decide) h).2 hn
  rw [padded, List.length_append, List.length_replicate]
  omega

theorem isDigit_of_mem_padded {width n : Nat} {c : Char} (h : c ∈ padded width n) :
    c.isDigit = true := by
  rcases List.mem_append.1 h with h | h
  · rw [List.eq_of_mem_replicate h]
    rfl
  · exact Nat.isDigit_of_mem_toDigits (by decide) (by decide) h

theorem append_lt_append {x y : List Char} (h : x < y) (hlength : x.length = y.length)
    (a b : List Char) : x ++ a < y ++ b := by
  induction h with
  | nil => exact nomatch hlength
  | rel hlt => exact .rel hlt
  | cons _ ih => exact .cons (ih (Nat.succ.inj hlength))

theorem padded_lt {width m n : Nat} (h : 0 < width) (hn : n < 10 ^ width) (hlt : m < n) :
    padded width m < padded width n := by
  induction width, h using Nat.le_induction generalizing m n with
  | base =>
    have hn : n < 10 := hn
    have hm : m < 10 := hlt.trans hn
    rw [padded, padded, Nat.toDigits_of_lt_base hm, Nat.toDigits_of_lt_base hn]
    exact .rel (digitChar_lt hlt hn)
  | succ width h ih =>
    rw [padded_succ _ h, padded_succ _ h]
    have hn' : n / 10 < 10 ^ width := by
      rw [Nat.pow_succ] at hn
      omega
    rcases Nat.lt_or_eq_of_le (Nat.div_le_div_right (c := 10) hlt.le) with hdiv | hdiv
    · refine append_lt_append (ih hn' hdiv) ?_ _ _
      rw [length_padded h hn', length_padded h (hdiv.trans hn')]
    · rw [hdiv]
      exact List.append_left_lt (.rel (digitChar_lt (by omega) (by omega)))

/-! ## Stamps -/

/-- Fields in digits, each filled up to its width. -/
def digits (widths : List Nat) (fields : List Int) : List Char :=
  (List.zipWith (fun width field => padded width field.toNat) widths fields).flatten

/-- Each field is a number that has no more digits than its width. -/
def FieldsFit (widths : List Nat) (fields : List Int) : Prop :=
  List.Forall₂ (fun width field => 0 < width ∧ 0 ≤ field ∧ field.toNat < 10 ^ width)
    widths fields

theorem length_digits {widths : List Nat} {fields : List Int} (h : FieldsFit widths fields) :
    (digits widths fields).length = widths.sum := by
  induction h with
  | nil => rfl
  | cons hfield _ ih =>
    rw [digits, List.zipWith_cons_cons, List.flatten_cons, List.length_append,
      length_padded hfield.1 hfield.2.2, List.sum_cons]
    exact congrArg _ ih

theorem isDigit_of_mem_digits {widths : List Nat} {fields : List Int} {c : Char}
    (h : c ∈ digits widths fields) : c.isDigit = true := by
  obtain ⟨text, htext, hc⟩ := List.mem_flatten.1 h
  rw [← List.map_uncurry_zip_eq_zipWith] at htext
  obtain ⟨⟨width, field⟩, -, rfl⟩ := List.mem_map.1 htext
  exact isDigit_of_mem_padded hc

/-- Digits are in the order of the fields: the first field that differs decides. -/
theorem digits_lt {widths : List Nat} {fields others : List Int} (h : FieldsFit widths fields)
    (h' : FieldsFit widths others) (hlt : fields < others) :
    digits widths fields < digits widths others := by
  induction h generalizing others with
  | nil =>
    cases h'
    exact absurd hlt (lt_irrefl _)
  | cons hfield _ ih =>
    cases h' with
    | cons hother hothers =>
      simp only [digits, List.zipWith_cons_cons, List.flatten_cons]
      rcases List.cons_lt_cons_iff.1 hlt with hlt | ⟨rfl, hrest⟩
      · refine append_lt_append (padded_lt hfield.1 hother.2.2 (by omega)) ?_ _ _
        rw [length_padded hfield.1 hfield.2.2, length_padded hfield.1 hother.2.2]
      · exact List.append_left_lt (ih hothers hrest)

/-- The year of a moment has at most four digits, and no sign. -/
def HasPlainYear (seconds : Int) : Prop :=
  0 ≤ (ofSeconds seconds).date.year ∧ (ofSeconds seconds).date.year ≤ 9999

instance (seconds : Int) : Decidable (HasPlainYear seconds) :=
  inferInstanceAs (Decidable (0 ≤ (ofSeconds seconds).date.year ∧
    (ofSeconds seconds).date.year ≤ 9999))

/-- The numbers of digits of the fields in a stamp. -/
def stampWidths : List Nat := [4, 2, 2, 2, 2, 2]

theorem toList_stamp {seconds : Int} (h : HasPlainYear seconds) :
    (stamp seconds).toList = digits stampWidths (ofSeconds seconds).fields := by
  have hyear : yearText (ofSeconds seconds).date.year
      = padded 4 (ofSeconds seconds).date.year.toNat := by
    rw [yearText, if_pos]
    simpa [HasPlainYear] using h
  rw [stamp, String.toList_ofList, hyear]
  simp [digits, stampWidths, DateTime.fields]

theorem daysInMonth_le (year : Int) (month : Nat) : daysInMonth year month ≤ 31 := by
  unfold daysInMonth
  split
  · split <;> omega
  · split <;> omega

theorem fieldsFit {seconds : Int} (h : HasPlainYear seconds) :
    FieldsFit stampWidths (ofSeconds seconds).fields := by
  obtain ⟨hfirst, hlast⟩ := h
  obtain ⟨day, rest, hrest, -, htime⟩ := exists_ofSeconds seconds
  obtain ⟨-, hmonth, -, hday⟩ := dateOfDay_isValid day
  have hdays := daysInMonth_le (dateOfDay day).year (dateOfDay day).month
  rw [htime] at hfirst hlast ⊢
  dsimp only at hfirst hlast
  refine .cons ?_ (.cons ?_ (.cons ?_ (.cons ?_ (.cons ?_ (.cons ?_ .nil)))))
  all_goals
    dsimp only
    omega

/-- A stamp of a plain year is a row of fourteen digits. -/
theorem stamp_digits {seconds : Int} (h : HasPlainYear seconds) :
    (stamp seconds).toList.length = 14 ∧ ∀ c ∈ (stamp seconds).toList, c.isDigit = true := by
  rw [toList_stamp h]
  exact ⟨length_digits (fieldsFit h), fun _ hc => isDigit_of_mem_digits hc⟩

/-- Stamps of plain years are in the order of their moments. -/
theorem stamp_lt_stamp {a b : Int} (ha : HasPlainYear a) (hb : HasPlainYear b) (h : a < b) :
    stamp a < stamp b := by
  change (stamp a).toList < (stamp b).toList
  rw [toList_stamp ha, toList_stamp hb]
  exact digits_lt (fieldsFit ha) (fieldsFit hb) (fields_lt_fields h)

end SchemaPlan.Calendar
