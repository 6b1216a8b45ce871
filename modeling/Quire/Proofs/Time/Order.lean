import Mathlib.Order.Monotone.Basic
import Mathlib.Algebra.Order.Group.Int
import Quire.Proofs.Time.Digits
import Quire.Time.Instant

/-! Timestamps in the order of time.

A timestamp is a year and then a row of numbers of fixed widths, and these follow one another as the
days of the calendar and the seconds of a day do. So the order of timestamps is the order of time to
the millisecond just where the texts of the years are in the order of the years: beside a year of
four digits, where the other one is no later than 9999. -/
namespace Quire.Time

/-! ### Days of the calendar -/

namespace Date

/-- Dates as numbers: the year decides, then the month, then the day. -/
def rank (d : Date) : Int := (d.year * 16 + d.month) * 32 + d.day

/-- The day of a year that begins in March. -/
def ofMarch (year : Int) (dayOfYear : Nat) : Date :=
  let fromMarch := (5 * dayOfYear + 2) / 153
  let month := if fromMarch < 10 then fromMarch + 3 else fromMarch - 9
  ⟨if month ≤ 2 then year + 1 else year, month, dayOfYear - (153 * fromMarch + 2) / 5 + 1⟩

/-- The year of an era of 400 years that a day of it falls into. -/
def yearOfEra (dayOfEra : Nat) : Nat :=
  (dayOfEra - dayOfEra / 1460 + dayOfEra / 36524 - dayOfEra / 146096) / 365

/-- The first day of a year of an era. -/
def yearStart (year : Nat) : Nat := 365 * year + year / 4 - year / 100

def dayOfYear (dayOfEra : Nat) : Nat := dayOfEra - yearStart (yearOfEra dayOfEra)

theorem ofDays_eq (days : Int) :
    let dayOfEra := ((days + 719468) % 146097).toNat
    ofDays days =
      ofMarch ((days + 719468) / 146097 * 400 + yearOfEra dayOfEra) (dayOfYear dayOfEra) := rfl

theorem yearOfEra_mono {n k : Nat} (h : n ≤ k) (hk : k < 146097) : yearOfEra n ≤ yearOfEra k := by
  induction k, h using Nat.le_induction with
  | base => exact Nat.le_refl _
  | succ k _ ih =>
    refine (ih (by omega)).trans ?_
    unfold yearOfEra
    omega

/-- A year lasts from its first day to the day before the first of the next. -/
theorem yearOfEra_yearStart :
    ∀ y < 400, yearOfEra (yearStart y) = y ∧ yearOfEra (yearStart (y + 1) - 1) = y := by
  decide +kernel

theorem yearStart_yearOfEra {n : Nat} (hn : n < 146097) :
    yearStart (yearOfEra n) ≤ n ∧ n ≤ yearStart (yearOfEra n) + 365 := by
  have hyear : yearOfEra n < 400 := by
    unfold yearOfEra
    omega
  generalize hy : yearOfEra n = y at hyear
  constructor
  · by_contra hlate
    have hfirst : 0 < y := by
      by_contra hzero
      obtain rfl : y = 0 := by omega
      exact hlate (Nat.zero_le n)
    have hbefore := (yearOfEra_yearStart (y - 1) (by omega)).2
    have hmono := yearOfEra_mono (n := n) (k := yearStart (y - 1 + 1) - 1)
      (by rw [Nat.sub_add_cancel hfirst]; omega) (by unfold yearStart; omega)
    omega
  · by_contra hearly
    have hnext : yearStart (y + 1) ≤ n := by
      unfold yearStart at hearly ⊢
      omega
    have hlast : y + 1 < 400 := by
      by_contra hend
      obtain rfl : y = 399 := by omega
      have hfirst : yearStart 399 = 145731 := rfl
      omega
    have hafter := (yearOfEra_yearStart (y + 1) hlast).1
    have hmono := yearOfEra_mono hnext hn
    omega

section
variable {year year' : Int} {day day' : Nat}

theorem ofMarch_month (hday : day ≤ 365) :
    1 ≤ (ofMarch year day).month ∧ (ofMarch year day).month ≤ 12 := by
  simp only [ofMarch]
  split_ifs <;> omega

theorem ofMarch_day : 1 ≤ (ofMarch year day).day ∧ (ofMarch year day).day ≤ 31 := by
  simp only [ofMarch]
  omega

theorem rank_ofMarch (year : Int) (day : Nat) :
    (ofMarch year day).rank = year * 512 + (ofMarch 0 day).rank := by
  simp only [ofMarch, rank]
  split_ifs <;> omega

theorem rank_ofMarch_day (hday : day + 1 ≤ 365) :
    (ofMarch year day).rank < (ofMarch year (day + 1)).rank := by
  have hdays : ∀ day < 365, (ofMarch 0 day).rank < (ofMarch 0 (day + 1)).rank := by
    decide +kernel
  rw [rank_ofMarch year day, rank_ofMarch year (day + 1)]
  have := hdays day (by omega)
  omega

theorem rank_ofMarch_year (hyear : year < year') (hday : day ≤ 365) (hday' : day' ≤ 365) :
    (ofMarch year day).rank < (ofMarch year' day').rank := by
  simp only [ofMarch, rank]
  split_ifs <;> omega

end

/-- The next day is a later date. -/
theorem rank_ofDays_succ (days : Int) : (ofDays days).rank < (ofDays (days + 1)).rank := by
  rw [ofDays_eq, ofDays_eq]
  generalize hn : ((days + 719468) % 146097).toNat = n
  generalize hk : ((days + 1 + 719468) % 146097).toNat = k
  have hday := yearStart_yearOfEra (n := n) (by omega)
  have hday' := yearStart_yearOfEra (n := k) (by omega)
  by_cases hlast : n + 1 = 146097
  · have hera : (days + 1 + 719468) / 146097 = (days + 719468) / 146097 + 1 := by omega
    obtain rfl : k = 0 := by omega
    obtain rfl : n = 146096 := by omega
    rw [hera]
    refine rank_ofMarch_year ?_ (by decide +kernel) (by decide +kernel)
    rw [show yearOfEra 146096 = 399 from rfl, show yearOfEra 0 = 0 from rfl]
    omega
  · have hera : (days + 1 + 719468) / 146097 = (days + 719468) / 146097 := by omega
    obtain rfl : k = n + 1 := by omega
    rw [hera]
    have hmono := yearOfEra_mono (n := n) (k := n + 1) (Nat.le_succ n) (by omega)
    by_cases hsame : yearOfEra (n + 1) = yearOfEra n
    · have hnext : dayOfYear (n + 1) = dayOfYear n + 1 := by
        unfold dayOfYear
        rw [hsame]
        omega
      rw [hsame, hnext]
      rw [hsame] at hday'
      exact rank_ofMarch_day (by unfold dayOfYear; omega)
    · refine rank_ofMarch_year (by omega) ?_ ?_
      · unfold dayOfYear; omega
      · unfold dayOfYear; omega

/-- Later days are later dates. -/
theorem rank_lt_of_lt {days days' : Int} (h : days < days') :
    (ofDays days).rank < (ofDays days').rank := strictMono_int_of_lt_succ rank_ofDays_succ h

theorem rank_le_of_le {days days' : Int} (h : days ≤ days') :
    (ofDays days).rank ≤ (ofDays days').rank :=
  (strictMono_int_of_lt_succ rank_ofDays_succ).monotone h

theorem ofDays_bounds (days : Int) :
    (1 ≤ (ofDays days).month ∧ (ofDays days).month ≤ 12) ∧
      1 ≤ (ofDays days).day ∧ (ofDays days).day ≤ 31 := by
  have hday := yearStart_yearOfEra (n := ((days + 719468) % 146097).toNat) (by omega)
  rw [ofDays_eq]
  exact ⟨ofMarch_month (by unfold dayOfYear; omega), ofMarch_day⟩

end Date

/-! ### Timestamps -/

/-- Of the numbers of a timestamp, how wide each is and what stands behind it. -/
def timestampFormat : List (Nat × Char) :=
  [(4, '-'), (2, '-'), (2, 'T'), (2, ':'), (2, ':'), (2, '.'), (3, 'Z')]

end Quire.Time

namespace Quire.Instant
open Time

/-- An instant that there is: one more second is counted only at the end of a minute. -/
def Proper (t : Instant) : Prop :=
  t.nanos < 1000000000 ∨ (t.nanos < 2000000000 ∧ t.seconds % 60 = 59)

/-- Its year has four digits. -/
def Dated (t : Instant) : Prop := 0 ≤ t.date.year ∧ t.date.year ≤ 9999

/-- The numbers of a timestamp. -/
def parts (t : Instant) : List Nat :=
  [t.date.year.toNat, t.date.month, t.date.day, t.secondOfDay / 3600, t.secondOfDay / 60 % 60,
    t.secondOfDay % 60 + t.leap, t.nanos % 1000000000 / 1000000]

variable {t u : Instant}

theorem Proper.seconds (ht : t.Proper) :
    t.secondOfDay < 86400 ∧ t.secondOfDay % 60 + t.leap ≤ 60 := by
  unfold Proper at ht
  unfold secondOfDay leap
  omega

theorem fits_tail_parts (ht : t.Proper) : Fits timestampFormat.tail t.parts.tail := by
  have hdate := Date.ofDays_bounds (t.seconds / 86400)
  have htime := ht.seconds
  simp only [Fits, timestampFormat, parts, date, List.tail_cons, List.forall₂_cons,
    List.Forall₂.nil, and_true]
  norm_num
  omega

/-- The year stands in front of what is of fixed widths. -/
theorem toList_timestamp (ht : t.Proper) :
    t.timestamp.toList =
      yearStem t.date.year ++ spelled timestampFormat.tail t.parts.tail := by
  have hfits := fits_tail_parts ht
  simp only [Fits, timestampFormat, parts, List.tail_cons, List.forall₂_cons, List.Forall₂.nil,
    and_true] at hfits
  obtain ⟨hmonth, hday, hhour, hminute, hsecond, hmilli⟩ := hfits
  unfold timestamp Date.text clockText
  simp only [String.toList_append, toList_padded (w := 2) (by decide) hmonth,
    toList_padded (w := 2) (by decide) hday, toList_padded (w := 2) (by decide) hhour,
    toList_padded (w := 2) (by decide) hminute, toList_padded (w := 2) (by decide) hsecond,
    toList_padded (w := 3) (by decide) hmilli]
  simp [spelled, timestampFormat, parts, yearStem]

/-- Earlier to the millisecond. -/
def Precedes (t u : Instant) : Prop :=
  t.seconds < u.seconds ∨ t.seconds = u.seconds ∧ t.nanos / 1000000 < u.nanos / 1000000

theorem rank_date_le (h : t.seconds ≤ u.seconds) : t.date.rank ≤ u.date.rank :=
  Date.rank_le_of_le (Int.ediv_le_ediv (by decide) h)

theorem year_date_le (h : t.seconds ≤ u.seconds) : t.date.year ≤ u.date.year := by
  have hrank := rank_date_le h
  have ht := Date.ofDays_bounds (t.seconds / 86400)
  have hu := Date.ofDays_bounds (u.seconds / 86400)
  unfold Date.rank date at hrank
  unfold date
  omega

theorem before_iff : t.before u = true ↔
    t.seconds < u.seconds ∨ t.seconds = u.seconds ∧ t.nanos < u.nanos := by
  rw [before, Bool.or_eq_true, Bool.and_eq_true, decide_eq_true_iff, beq_iff_eq, decide_eq_true_iff]

/-- From the first second of the calendar to its last. -/
def InCalendar (t : Instant) : Prop := -8334601228800 ≤ t.seconds ∧ t.seconds ≤ 8210266876799

instance (t : Instant) : Decidable t.InCalendar := inferInstanceAs (Decidable (_ ∧ _))

/-- These are the seconds that the first year begins and the last one ends with. -/
theorem inRange_year_iff : inRange t.date.year = true ↔ t.InCalendar := by
  have hfirst : (Instant.mk (-8334601228800) 0).date.year = -262143 := by decide +kernel
  have hbefore : (Instant.mk (-8334601228801) 0).date.year = -262144 := by decide +kernel
  have hlast : (Instant.mk 8210266876799 0).date.year = 262142 := by decide +kernel
  have hbeyond : (Instant.mk 8210266876800 0).date.year = 262143 := by decide +kernel
  unfold inRange InCalendar
  rw [Bool.and_eq_true, decide_eq_true_iff, decide_eq_true_iff]
  constructor
  · intro hyear
    constructor
    · by_contra hearly
      have := year_date_le (t := t) (u := ⟨-8334601228801, 0⟩) (by dsimp only; omega)
      omega
    · by_contra hlate
      have := year_date_le (t := ⟨8210266876800, 0⟩) (u := t) (by dsimp only; omega)
      omega
  · intro hseconds
    have := year_date_le (t := ⟨-8334601228800, 0⟩) (u := t) hseconds.1
    have := year_date_le (t := t) (u := ⟨8210266876799, 0⟩) hseconds.2
    omega

/-- The seconds of the years of four digits. -/
theorem Dated.seconds (h : t.Dated) : -62167219200 ≤ t.seconds ∧ t.seconds ≤ 253402300799 := by
  have hbefore : (Instant.mk (-62167219201) 0).date.year = -1 := by decide +kernel
  have hbeyond : (Instant.mk 253402300800 0).date.year = 10000 := by decide +kernel
  obtain ⟨hfirst, hlast⟩ := h
  constructor
  · by_contra hearly
    have := year_date_le (t := t) (u := ⟨-62167219201, 0⟩) (by dsimp only; omega)
    omega
  · by_contra hlate
    have := year_date_le (t := ⟨253402300800, 0⟩) (u := t) (by dsimp only; omega)
    omega

theorem precedes_iff_of_year_ne (h : t.date.year ≠ u.date.year) :
    t.Precedes u ↔ t.date.year < u.date.year := by
  unfold Precedes
  constructor
  · intro hbefore
    exact Std.lt_of_le_of_ne (year_date_le (by omega)) h
  · intro hyear
    by_contra hnot
    exact absurd (year_date_le (t := u) (u := t) (by omega)) (Int.not_le.mpr hyear)

/-- Within a year the numbers behind it are in the order of time. -/
theorem tail_parts_lt (ht : t.Proper) (hu : u.Proper) (hyear : t.date.year = u.date.year)
    (h : t.Precedes u) : t.parts.tail < u.parts.tail := by
  unfold Proper at ht hu
  unfold Precedes at h
  by_cases hday : t.seconds / 86400 = u.seconds / 86400
  · -- On one day the time of day decides.
    have hdate : t.date = u.date := by unfold date; rw [hday]
    simp only [parts, hdate, List.tail_cons, List.cons_lt_cons_iff, List.not_lt_nil, and_false,
      or_false, true_and, Nat.lt_irrefl, false_or, secondOfDay, leap]
    omega
  · have hrank : t.date.rank < u.date.rank := Date.rank_lt_of_lt (by omega)
    have hbounds := Date.ofDays_bounds (t.seconds / 86400)
    have hbounds' := Date.ofDays_bounds (u.seconds / 86400)
    simp only [parts, List.tail_cons, List.cons_lt_cons_iff]
    unfold Date.rank at hrank
    unfold date at hrank hyear ⊢
    omega

/-- Neither is earlier. -/
theorem parts_eq (h : ¬ t.Precedes u) (h' : ¬ u.Precedes t) :
    t.parts = u.parts := by
  unfold Precedes at h h'
  obtain ⟨hseconds, hmillis⟩ :
      t.seconds = u.seconds ∧ t.nanos / 1000000 = u.nanos / 1000000 := by omega
  have hleap : t.leap = u.leap := by unfold leap; omega
  have hmilli : t.nanos % 1000000000 / 1000000 = u.nanos % 1000000000 / 1000000 := by omega
  unfold parts date secondOfDay
  rw [hseconds, hleap, hmilli]

theorem timestamp_lt_iff_of_year_eq (ht : t.Proper) (hu : u.Proper)
    (hyear : t.date.year = u.date.year) : t.timestamp < u.timestamp ↔ t.Precedes u := by
  rw [String.lt_iff, toList_timestamp ht, toList_timestamp hu, hyear, append_lt_append_iff rfl,
    spelled_lt_iff (fits_tail_parts ht) (fits_tail_parts hu)]
  simp only [List.lt_irrefl, true_and, false_or]
  refine ⟨fun hlt => ?_, tail_parts_lt ht hu hyear⟩
  by_contra h
  by_cases h' : u.Precedes t
  · exact lt_asymm hlt (tail_parts_lt hu ht hyear.symm h')
  · exact lt_irrefl _ (parts_eq h h' ▸ hlt)

/-- Instants of different years are compared by the texts of the years. -/
theorem timestamp_lt_iff_of_year_ne (ht : t.Proper) (hu : u.Proper)
    (hyear : t.date.year ≠ u.date.year) :
    t.timestamp < u.timestamp ↔ yearStem t.date.year < yearStem u.date.year := by
  rw [String.lt_iff, toList_timestamp ht, toList_timestamp hu]
  exact yearStem_append_lt_iff hyear _ _

/-- The timestamps tell which of two instants is earlier. -/
def Kept (t u : Instant) : Prop :=
  (t.timestamp < u.timestamp ↔ t.Precedes u) ∧ (u.timestamp < t.timestamp ↔ u.Precedes t)

/-- Timestamps are in the order of time just where their years are in order. -/
theorem kept_iff (ht : t.Proper) (hu : u.Proper) :
    t.Kept u ↔ YearsKept t.date.year u.date.year := by
  by_cases hyear : t.date.year = u.date.year
  · refine iff_of_true ⟨timestamp_lt_iff_of_year_eq ht hu hyear,
      timestamp_lt_iff_of_year_eq hu ht hyear.symm⟩ ?_
    unfold YearsKept
    simp only [hyear, List.lt_irrefl, Int.lt_irrefl, and_self]
  · unfold Kept YearsKept
    rw [timestamp_lt_iff_of_year_ne ht hu hyear, timestamp_lt_iff_of_year_ne hu ht (Ne.symm hyear),
      precedes_iff_of_year_ne hyear, precedes_iff_of_year_ne (Ne.symm hyear)]

/-- Beside a year of four digits, timestamps are in the order of time if the other year is no later
than 9999. -/
theorem kept_of_le (ht : t.Proper) (hu : u.Proper) (hud : u.Dated) (htd : t.date.year ≤ 9999) :
    t.Kept u :=
  (kept_iff ht hu).mpr ((yearsKept_iff hud.1 hud.2).mpr htd)

/-- Timestamps with years of four digits are in the order of time to the millisecond. -/
theorem timestamp_lt_iff (ht : t.Proper) (hu : u.Proper) (htd : t.Dated) (hud : u.Dated) :
    t.timestamp < u.timestamp ↔ t.Precedes u :=
  (kept_of_le ht hu hud htd.2).1

/-- No later instant has an earlier timestamp, if the years of the later one have four digits. -/
theorem timestamp_le (ht : t.Proper) (hu : u.Proper) (hud : u.Dated) (h : u.before t = false) :
    ¬ u.timestamp < t.timestamp := by
  have horder : t.seconds < u.seconds ∨ t.seconds = u.seconds ∧ t.nanos ≤ u.nanos := by
    rw [← Bool.not_eq_true, before_iff] at h
    omega
  have hyear : t.date.year ≤ 9999 := (year_date_le (by omega)).trans hud.2
  rw [(kept_of_le ht hu hud hyear).2]
  unfold Precedes
  omega

end Quire.Instant
