import BackendFoundation.Lib.Json

/-! # Dates as texts

A date is its number of milliseconds since 1970. `toISOString` prints it in UTC, in the Gregorian
calendar. The year is counted from March, so that the leap day is its last day. -/

namespace BackendFoundation.Lib.IsoDate

open Lib.Json

structure CivilDate where
  year : ℤ
  month : ℤ
  day : ℤ
deriving DecidableEq

/-- The date of a number of days since 1970-01-01. -/
def civilFromDays (days : ℤ) : CivilDate :=
  let z := days + 719468
  let era := z / 146097
  let dayOfEra := z % 146097
  let yearOfEra :=
    (dayOfEra - dayOfEra / 1460 + dayOfEra / 36524 - dayOfEra / 146096) / 365
  let dayOfYear := dayOfEra - (365 * yearOfEra + yearOfEra / 4 - yearOfEra / 100)
  let monthFromMarch := (5 * dayOfYear + 2) / 153
  { year := yearOfEra + era * 400 + (if monthFromMarch < 10 then 0 else 1)
    month := if monthFromMarch < 10 then monthFromMarch + 3 else monthFromMarch - 9
    day := dayOfYear - (153 * monthFromMarch + 2) / 5 + 1 }

/-- The last `width` digits of a number. -/
def digitsText : ℕ → ℕ → JsString
  | 0, _ => []
  | width + 1, n => digitsText width (n / 10) ++ [48 + (n % 10).toUInt16]

def yearText (year : ℤ) : JsString :=
  if 0 ≤ year ∧ year ≤ 9999 then digitsText 4 year.toNat
  else utf16 (if year < 0 then "-" else "+") ++ digitsText 6 year.natAbs

/-- `Date.prototype.toISOString`. -/
def toISOString (ms : ℤ) : JsString :=
  let date := civilFromDays (ms / 86400000)
  let time := (ms % 86400000).toNat
  yearText date.year ++ utf16 "-" ++ digitsText 2 date.month.toNat ++ utf16 "-" ++
    digitsText 2 date.day.toNat ++ utf16 "T" ++ digitsText 2 (time / 3600000) ++ utf16 ":" ++
    digitsText 2 (time / 60000 % 60) ++ utf16 ":" ++ digitsText 2 (time / 1000 % 60) ++
    utf16 "." ++ digitsText 3 (time % 1000) ++ utf16 "Z"

/-- The number of days from 1970-01-01 to a date. -/
def daysFromCivil (date : CivilDate) : ℤ :=
  let year := if date.month ≤ 2 then date.year - 1 else date.year
  let monthFromMarch := if date.month ≤ 2 then date.month + 9 else date.month - 3
  let yearOfEra := year % 400
  let dayOfYear := (153 * monthFromMarch + 2) / 5 + date.day - 1
  year / 400 * 146097 + (365 * yearOfEra + yearOfEra / 4 - yearOfEra / 100 + dayOfYear) - 719468

/-- `Date.UTC` of the first day of a month. It takes the years 0 to 99 for 1900 to 1999. -/
def dateUTC (year month : ℤ) : ℤ :=
  daysFromCivil ⟨if 0 ≤ year ∧ year ≤ 99 then year + 1900 else year, month, 1⟩ * 86400000

/-- `Date.UTC(date.getUTCFullYear(), date.getUTCMonth(), 1)`. -/
def startOfUtcMonth (ms : ℤ) : ℤ :=
  let date := civilFromDays (ms / 86400000)
  dateUTC date.year date.month

example : toISOString 1785672000000 = utf16 "2026-08-02T12:00:00.000Z" := by decide

example : toISOString (-1) = utf16 "1969-12-31T23:59:59.999Z" := by decide

example : startOfUtcMonth 1709208000000 = 1706745600000 := by decide

/-! ### Texts determine their dates -/

/-- A number of milliseconds that is a date of JavaScript. -/
def ValidDate (ms : ℤ) : Prop := -8640000000000000 ≤ ms ∧ ms ≤ 8640000000000000

instance : DecidablePred ValidDate := fun _ => inferInstanceAs (Decidable (_ ∧ _))

theorem length_digitsText : ∀ width n : ℕ, (digitsText width n).length = width
  | 0, _ => rfl
  | width + 1, n => by
    rw [digitsText, List.length_append, length_digitsText width]
    rfl

theorem digitsText_injective : ∀ {width m n : ℕ}, m < 10 ^ width → n < 10 ^ width →
    digitsText width m = digitsText width n → m = n
  | 0, m, n, hm, hn, _ => by
    rw [Nat.pow_zero] at hm hn
    omega
  | width + 1, m, n, hm, hn, h => by
    rw [digitsText, digitsText] at h
    obtain ⟨hinit, hlast⟩ := List.append_inj' h rfl
    rw [Nat.pow_succ] at hm hn
    have hquotient : m / 10 = n / 10 :=
      digitsText_injective (by omega) (by omega) hinit
    have hdigit : m % 10 = n % 10 := by
      have hall : ∀ a b : Fin 10, (48 : UInt16) + a.val.toUInt16 = 48 + b.val.toUInt16 →
          a.val = b.val := by decide
      exact hall ⟨m % 10, by omega⟩ ⟨n % 10, by omega⟩ (List.cons.inj hlast).1
    omega

/-- The last day of an era is a day of its last year; before it, centuries have 36524 days. -/
theorem century_of_year {day year : ℤ} (h0 : 0 ≤ day) (h1 : day < 146097)
    (hyear : year = (day - day / 1460 + day / 36524 - day / 146096) / 365) :
    (day = 146096 ∧ year = 399) ∨ (day < 146096 ∧ year / 100 = day / 36524) := by
  have hcentury : day / 36524 = 0 ∨ day / 36524 = 1 ∨ day / 36524 = 2 ∨ day / 36524 = 3 ∨
      day / 36524 = 4 := by omega
  rcases hcentury with h | h | h | h | h <;> omega

theorem dayOfYear_range {day year : ℤ} (h0 : 0 ≤ day) (h1 : day < 146097)
    (hyear : year = (day - day / 1460 + day / 36524 - day / 146096) / 365) :
    0 ≤ day - (365 * year + year / 4 - year / 100) ∧
      day - (365 * year + year / 4 - year / 100) ≤ 365 := by
  rcases century_of_year h0 h1 hyear with ⟨rfl, rfl⟩ | ⟨hlt, hcentury⟩
  · decide
  · have hcases : day / 36524 = 0 ∨ day / 36524 = 1 ∨ day / 36524 = 2 ∨ day / 36524 = 3 := by
      omega
    omega

theorem yearOfEra_range {day : ℤ} (h0 : 0 ≤ day) (h1 : day < 146097) :
    0 ≤ (day - day / 1460 + day / 36524 - day / 146096) / 365 ∧
      (day - day / 1460 + day / 36524 - day / 146096) / 365 ≤ 399 := by
  omega

/-- What a date is made of: the era, the year in it, the day in that year, the month and the day. -/
structure Civil (days : ℤ) where
  era : ℤ
  yearOfEra : ℤ
  dayOfYear : ℤ
  month : ℤ
  days_eq : days + 719468 =
    146097 * era + (dayOfYear + (365 * yearOfEra + yearOfEra / 4 - yearOfEra / 100))
  year_range : 0 ≤ yearOfEra ∧ yearOfEra ≤ 399
  day_range : 0 ≤ dayOfYear ∧ dayOfYear ≤ 365
  month_eq : month = (5 * dayOfYear + 2) / 153
  civil : civilFromDays days =
    { year := yearOfEra + era * 400 + (if month < 10 then 0 else 1)
      month := if month < 10 then month + 3 else month - 9
      day := dayOfYear - (153 * month + 2) / 5 + 1 }

def civil (days : ℤ) : Civil days :=
  let z := days + 719468
  let day := z % 146097
  have h0 : 0 ≤ day := Int.emod_nonneg _ (by decide)
  have h1 : day < 146097 := Int.emod_lt_of_pos _ (by decide)
  { era := z / 146097
    yearOfEra := (day - day / 1460 + day / 36524 - day / 146096) / 365
    dayOfYear := day - (365 * ((day - day / 1460 + day / 36524 - day / 146096) / 365) +
      (day - day / 1460 + day / 36524 - day / 146096) / 365 / 4 -
      (day - day / 1460 + day / 36524 - day / 146096) / 365 / 100)
    month := _
    days_eq := by
      have hdiv := Int.mul_ediv_add_emod z 146097
      omega
    year_range := yearOfEra_range h0 h1
    day_range := dayOfYear_range h0 h1 rfl
    month_eq := rfl
    civil := rfl }

theorem daysFromCivil_of_parts {year month day era yearOfEra monthFromMarch : ℤ}
    (hyear : (if month ≤ 2 then year - 1 else year) = yearOfEra + era * 400)
    (hmonth : (if month ≤ 2 then month + 9 else month - 3) = monthFromMarch)
    (hrange : 0 ≤ yearOfEra ∧ yearOfEra ≤ 399) :
    daysFromCivil ⟨year, month, day⟩ = era * 146097 + (365 * yearOfEra + yearOfEra / 4 -
      yearOfEra / 100 + ((153 * monthFromMarch + 2) / 5 + day - 1)) - 719468 := by
  have hera : (yearOfEra + era * 400) / 400 = era := by omega
  have hrest : (yearOfEra + era * 400) % 400 = yearOfEra := by omega
  unfold daysFromCivil
  dsimp only
  rw [hyear, hmonth, hera, hrest]

theorem daysFromCivil_first (days : ℤ) :
    daysFromCivil ⟨(civilFromDays days).year, (civilFromDays days).month, 1⟩ =
      days - ((civilFromDays days).day - 1) := by
  have hc := civil days
  have hday := hc.day_range
  have hmonth := hc.month_eq
  have hdays := hc.days_eq
  rw [hc.civil, @daysFromCivil_of_parts _ _ 1 hc.era hc.yearOfEra hc.month ?_ ?_ hc.year_range]
  · dsimp only
    omega
  · dsimp only
    split_ifs <;> omega
  · dsimp only
    split_ifs <;> omega

/-- Months are as long in the years 1900 to 1999 that `Date.UTC` reads for the years 0 to 99. -/
theorem daysFromCivil_century {year month : ℤ} (h : 0 ≤ year ∧ year ≤ 99) :
    daysFromCivil ⟨year, month, 1⟩ ≤ daysFromCivil ⟨year + 1900, month, 1⟩ := by
  unfold daysFromCivil
  dsimp only
  split_ifs <;> omega

theorem civilFromDays_injective : Function.Injective civilFromDays := by
  intro a b h
  have ha := civil a
  have hb := civil b
  rw [ha.civil, hb.civil] at h
  obtain ⟨hyear, hmonth, hday⟩ := CivilDate.mk.inj h
  have hma := ha.month_eq
  have hmb := hb.month_eq
  have hda := ha.day_range
  have hdb := hb.day_range
  have hmonths : ha.month = hb.month := by
    split_ifs at hmonth <;> omega
  rw [hmonths] at hyear hday
  have hdays : ha.dayOfYear = hb.dayOfYear := by omega
  have hera : ha.era = hb.era ∧ ha.yearOfEra = hb.yearOfEra := by
    have hya := ha.year_range
    have hyb := hb.year_range
    omega
  have hsuma := ha.days_eq
  have hsumb := hb.days_eq
  rw [hera.1, hera.2, hdays] at hsuma
  omega

theorem civilFromDays_range (days : ℤ) (hlo : -100000000 ≤ days) (hhi : days ≤ 100000000) :
    (1 ≤ (civilFromDays days).month ∧ (civilFromDays days).month ≤ 12) ∧
      (1 ≤ (civilFromDays days).day ∧ (civilFromDays days).day ≤ 31) ∧
      (civilFromDays days).year.natAbs < 10 ^ 6 := by
  have hc := civil days
  have hyear := hc.year_range
  have hday := hc.day_range
  have hmonth := hc.month_eq
  have hdays := hc.days_eq
  rw [hc.civil]
  dsimp only
  refine ⟨?_, ?_, ?_⟩
  · split_ifs <;> omega
  · omega
  · split_ifs <;> omega

theorem yearText_injective {a b : ℤ} (ha : a.natAbs < 10 ^ 6) (hb : b.natAbs < 10 ^ 6)
    (h : yearText a = yearText b) : a = b := by
  have hplus : utf16 "+" = [43] := by decide
  have hminus : utf16 "-" = [45] := by decide
  have hlength := congrArg List.length h
  unfold yearText at h hlength
  split_ifs at h hlength with h1 h2 h3 h4 h5
  · have := digitsText_injective (by omega) (by omega) h
    omega
  all_goals
    simp only [List.length_append, length_digitsText, hplus, hminus, List.length_singleton] at hlength
  all_goals
    simp only [hplus, hminus, List.singleton_append, List.cons.injEq, true_and] at h
  · omega
  · omega
  · omega
  · have := digitsText_injective ha hb h
    omega
  · exact absurd h.1 (by decide)
  · omega
  · exact absurd h.1 (by decide)
  · have := digitsText_injective ha hb h
    omega

/-- The part of a text of a date that follows the year. -/
def afterYear (ms : ℤ) : JsString :=
  let date := civilFromDays (ms / 86400000)
  let time := (ms % 86400000).toNat
  utf16 "-" ++ (digitsText 2 date.month.toNat ++ (utf16 "-" ++ (digitsText 2 date.day.toNat ++
    (utf16 "T" ++ (digitsText 2 (time / 3600000) ++ (utf16 ":" ++
    (digitsText 2 (time / 60000 % 60) ++ (utf16 ":" ++ (digitsText 2 (time / 1000 % 60) ++
    (utf16 "." ++ (digitsText 3 (time % 1000) ++ utf16 "Z")))))))))))

theorem toISOString_eq (ms : ℤ) : toISOString ms =
    yearText (civilFromDays (ms / 86400000)).year ++ afterYear ms := by
  simp only [toISOString, afterYear, List.append_assoc]

theorem length_afterYear (ms : ℤ) : (afterYear ms).length = 20 := by
  have h1 : ∀ text ∈ ["-", "T", ":", ".", "Z"], (utf16 text).length = 1 := by decide
  simp only [afterYear, List.length_append, length_digitsText]
  rw [h1 "-" (by simp), h1 "T" (by simp), h1 ":" (by simp), h1 "." (by simp), h1 "Z" (by simp)]

/-- A part of fixed width is read off the start of a text. -/
theorem digitsText_append_inj {width m n : ℕ} {s t : JsString} (hm : m < 10 ^ width)
    (hn : n < 10 ^ width) (h : digitsText width m ++ s = digitsText width n ++ t) :
    m = n ∧ s = t := by
  obtain ⟨hdigits, hrest⟩ := List.append_inj h (by rw [length_digitsText, length_digitsText])
  exact ⟨digitsText_injective hm hn hdigits, hrest⟩

/-- **The text of a date determines it.** -/
theorem toISOString_injective {a b : ℤ} (ha : ValidDate a) (hb : ValidDate b)
    (h : toISOString a = toISOString b) : a = b := by
  unfold ValidDate at ha hb
  obtain ⟨hma, hda, hya⟩ := civilFromDays_range (a / 86400000) (by omega) (by omega)
  obtain ⟨hmb, hdb, hyb⟩ := civilFromDays_range (b / 86400000) (by omega) (by omega)
  rw [toISOString_eq, toISOString_eq] at h
  obtain ⟨hyear, htail⟩ := List.append_inj' h (by rw [length_afterYear, length_afterYear])
  have hyears := yearText_injective hya hyb hyear
  simp only [afterYear] at htail
  obtain ⟨hmonth, htail⟩ := digitsText_append_inj (by omega) (by omega)
    (List.append_cancel_left htail)
  obtain ⟨hday, htail⟩ := digitsText_append_inj (by omega) (by omega)
    (List.append_cancel_left htail)
  obtain ⟨hhour, htail⟩ := digitsText_append_inj (by omega) (by omega)
    (List.append_cancel_left htail)
  obtain ⟨hminute, htail⟩ := digitsText_append_inj (by omega) (by omega)
    (List.append_cancel_left htail)
  obtain ⟨hsecond, htail⟩ := digitsText_append_inj (by omega) (by omega)
    (List.append_cancel_left htail)
  obtain ⟨hmillisecond, -⟩ := digitsText_append_inj (by omega) (by omega)
    (List.append_cancel_left htail)
  have hdate : civilFromDays (a / 86400000) = civilFromDays (b / 86400000) := by
    have hmonths : (civilFromDays (a / 86400000)).month =
        (civilFromDays (b / 86400000)).month := by omega
    have hdays : (civilFromDays (a / 86400000)).day = (civilFromDays (b / 86400000)).day := by
      omega
    calc civilFromDays (a / 86400000)
        = ⟨(civilFromDays (a / 86400000)).year, (civilFromDays (a / 86400000)).month,
            (civilFromDays (a / 86400000)).day⟩ := rfl
      _ = civilFromDays (b / 86400000) := by rw [hyears, hmonths, hdays]
  have hquotient := civilFromDays_injective hdate
  have ht : (a % 86400000).toNat = (b % 86400000).toNat := by omega
  omega

end BackendFoundation.Lib.IsoDate
