import Mathlib.Data.String.Basic
import Mathlib.Data.List.Lex
import Mathlib.Tactic.Common
import Mathlib.Tactic.IntervalCases

/-!
Moments of the proleptic Gregorian calendar in UTC, and their ISO-8601 texts.

* `UtcTime`: a `datetime` with `tzinfo=UTC`, the bounds of its fields being part of it; `micros`:
  the microseconds that lead up to it; `SecondsBefore`: the difference with a `timedelta`.
* `isoformat`: its text, in which microseconds are left out when they are zero.
* `isoformat_lt_iff`: **the order of the texts is the order of the moments**.
-/

namespace Foundation

/-! ### Blocks of a list -/

section Blocks

variable {α : Type} [LinearOrder α] {xs ys rest rest' : List α}

/-- Two lists that begin with blocks of one length compare by their blocks, and then by the rest. -/
lemma block_lt_iff (h : xs.length = ys.length) :
    xs ++ rest < ys ++ rest' ↔ xs < ys ∨ xs = ys ∧ rest < rest' := by
  induction xs generalizing ys with
  | nil =>
      obtain rfl : ys = [] := List.length_eq_zero_iff.mp h.symm
      simp
  | cons x xs ih =>
      cases ys with
      | nil => simp at h
      | cons y ys =>
          have hlength : xs.length = ys.length := by simpa using h
          rw [List.cons_append, List.cons_append, List.cons_lt_cons_iff, List.cons_lt_cons_iff,
            ih hlength, List.cons.injEq]
          constructor
          · rintro (hlt | ⟨heq, hlt | ⟨hxs, hrest⟩⟩)
            · exact Or.inl (Or.inl hlt)
            · exact Or.inl (Or.inr ⟨heq, hlt⟩)
            · exact Or.inr ⟨⟨heq, hxs⟩, hrest⟩
          · rintro ((hlt | ⟨heq, hlt⟩) | ⟨⟨heq, hxs⟩, hrest⟩)
            · exact Or.inl hlt
            · exact Or.inr ⟨heq, Or.inl hlt⟩
            · exact Or.inr ⟨heq, Or.inr ⟨hxs, hrest⟩⟩

end Blocks

/-! ### Numbers with leading zeros -/

/-- The last `width` decimal digits of a number. -/
def pad : ℕ → ℕ → List Char
  | 0, _ => []
  | width + 1, n => pad width (n / 10) ++ [Nat.digitChar (n % 10)]

@[simp] lemma length_pad (width n : ℕ) : (pad width n).length = width := by
  induction width generalizing n with
  | zero => rfl
  | succ width ih => rw [pad, List.length_append, ih, List.length_singleton]

lemma digitChar_lt_iff {a b : ℕ} (ha : a < 10) (hb : b < 10) :
    Nat.digitChar a < Nat.digitChar b ↔ a < b := by
  interval_cases a <;> interval_cases b <;> decide

lemma digitChar_inj {a b : ℕ} (ha : a < 10) (hb : b < 10)
    (h : Nat.digitChar a = Nat.digitChar b) : a = b := by
  rcases Nat.lt_trichotomy a b with hlt | heq | hlt
  · exact absurd h ((digitChar_lt_iff ha hb).mpr hlt).ne
  · exact heq
  · exact absurd h.symm ((digitChar_lt_iff hb ha).mpr hlt).ne

/-- The digits determine a number they suffice for. -/
lemma pad_inj {width a b : ℕ} (ha : a < 10 ^ width) (hb : b < 10 ^ width)
    (h : pad width a = pad width b) : a = b := by
  induction width generalizing a b with
  | zero => omega
  | succ width ih =>
      rw [pow_succ] at ha hb
      rw [pad, pad] at h
      obtain ⟨hhead, hlast⟩ := List.append_inj' h rfl
      have hq := ih (by omega) (by omega) hhead
      have hr := digitChar_inj (by omega) (by omega) (List.singleton_inj.mp hlast)
      omega

/-- Numbers compare as their digits do. -/
lemma pad_lt_iff {width a b : ℕ} (ha : a < 10 ^ width) (hb : b < 10 ^ width) :
    pad width a < pad width b ↔ a < b := by
  induction width generalizing a b with
  | zero =>
      obtain rfl : a = 0 := by omega
      obtain rfl : b = 0 := by omega
      simp [pad]
  | succ width ih =>
      rw [pow_succ] at ha hb
      rw [pad, pad, block_lt_iff (by simp), ih (by omega) (by omega), List.cons_lt_cons_iff,
        digitChar_lt_iff (by omega) (by omega)]
      constructor
      · rintro (hlt | ⟨heq, hlt | ⟨-, hlt⟩⟩)
        · omega
        · have hq := pad_inj (by omega) (by omega) heq
          omega
        · exact absurd hlt (List.lt_irrefl _)
      · intro hlt
        rcases Nat.lt_or_ge (a / 10) (b / 10) with hq | hq
        · exact Or.inl hq
        · have heq : a / 10 = b / 10 := by omega
          exact Or.inr ⟨by rw [heq], Or.inl (by omega)⟩

lemma pad_block_lt_iff {width a b : ℕ} {rest rest' : List Char} (ha : a < 10 ^ width)
    (hb : b < 10 ^ width) :
    pad width a ++ rest < pad width b ++ rest' ↔ a < b ∨ a = b ∧ rest < rest' := by
  rw [block_lt_iff (by simp), pad_lt_iff ha hb]
  constructor
  · rintro (hlt | ⟨heq, hrest⟩)
    · exact Or.inl hlt
    · exact Or.inr ⟨pad_inj ha hb heq, hrest⟩
  · rintro (hlt | ⟨rfl, hrest⟩)
    · exact Or.inl hlt
    · exact Or.inr ⟨rfl, hrest⟩

/-- A separator changes nothing. -/
lemma mark_block_lt_iff {width a b : ℕ} {mark : Char} {rest rest' : List Char} (ha : a < 10 ^ width)
    (hb : b < 10 ^ width) :
    mark :: pad width a ++ rest < mark :: pad width b ++ rest' ↔ a < b ∨ a = b ∧ rest < rest' := by
  rw [List.cons_append, List.cons_append, List.cons_lt_cons_iff, pad_block_lt_iff ha hb]
  constructor
  · rintro (hlt | ⟨-, h⟩)
    · exact absurd hlt (lt_irrefl _)
    · exact h
  · exact fun h => Or.inr ⟨rfl, h⟩

/-! ### The calendar -/

/-- `_is_leap`. -/
def isLeap (year : ℕ) : Bool := year % 4 = 0 && (year % 100 ≠ 0 || year % 400 = 0)

/-- `_days_in_month`. -/
def daysInMonth (year : ℕ) : ℕ → ℕ
  | 2 => if isLeap year then 29 else 28
  | 4 => 30
  | 6 => 30
  | 9 => 30
  | 11 => 30
  | _ => 31

/-- `_days_before_year`. -/
def daysBeforeYear (year : ℕ) : ℕ :=
  let y := year - 1
  y * 365 + y / 4 - y / 100 + y / 400

/-- `_days_before_month`, of the month after `month`. -/
def daysThrough (year : ℕ) : ℕ → ℕ
  | 0 => 0
  | month + 1 => daysThrough year month + daysInMonth year (month + 1)

/-- `_ymd2ord`. -/
def ymd2ord (year month day : ℕ) : ℕ := daysBeforeYear year + daysThrough year (month - 1) + day

/-- A year has the days of its months. -/
lemma daysBeforeYear_succ {year : ℕ} (h : 1 ≤ year) :
    daysBeforeYear (year + 1) = daysBeforeYear year + daysThrough year 12 := by
  have hmonths : daysThrough year 12 = if isLeap year then 366 else 365 := by
    simp only [daysThrough, daysInMonth]
    split <;> rfl
  obtain ⟨y, rfl⟩ : ∃ y, year = y + 1 := ⟨year - 1, by omega⟩
  have hless : y / 100 ≤ y / 4 := Nat.div_le_div_left (by omega) (by omega)
  have h4 : (y + 1) / 4 = y / 4 + if (y + 1) % 4 = 0 then 1 else 0 := by split <;> omega
  have h100 : (y + 1) / 100 = y / 100 + if (y + 1) % 100 = 0 then 1 else 0 := by split <;> omega
  have h400 : (y + 1) / 400 = y / 400 + if (y + 1) % 400 = 0 then 1 else 0 := by split <;> omega
  have hfour : (y + 1) % 100 = 0 → (y + 1) % 4 = 0 := by omega
  have hhundred : (y + 1) % 400 = 0 → (y + 1) % 100 = 0 := by omega
  simp only [hmonths, daysBeforeYear, isLeap, Nat.add_sub_cancel, h4, h100, h400]
  generalize y / 4 = a at *
  generalize y / 100 = b at *
  generalize y / 400 = c at *
  by_cases hd4 : (y + 1) % 4 = 0 <;> by_cases hd100 : (y + 1) % 100 = 0 <;>
    by_cases hd400 : (y + 1) % 400 = 0 <;> simp_all <;> omega

lemma daysBeforeYear_mono {year year' : ℕ} (h : 1 ≤ year) (hlt : year < year') :
    daysBeforeYear year + daysThrough year 12 ≤ daysBeforeYear year' := by
  rw [← daysBeforeYear_succ h]
  obtain ⟨d, rfl⟩ : ∃ d, year' = year + 1 + d := ⟨year' - (year + 1), by omega⟩
  induction d with
  | zero => exact le_refl _
  | succ d ih =>
      have hd := ih (by omega)
      have hnext := @daysBeforeYear_succ (year + 1 + d) (by omega)
      rw [← Nat.add_assoc]
      omega

lemma daysThrough_mono {year month month' : ℕ} (h : month ≤ month') :
    daysThrough year month ≤ daysThrough year month' := by
  induction month' with
  | zero =>
      obtain rfl : month = 0 := by omega
      exact le_refl _
  | succ n ih =>
      rcases Nat.eq_or_lt_of_le h with rfl | hlt
      · exact le_refl _
      · have hn := ih (by omega)
        rw [daysThrough]
        omega

/-- A day of a month is no later than the end of the month. -/
lemma day_le_daysThrough {year month day : ℕ} (hmonth : 1 ≤ month)
    (hday : day ≤ daysInMonth year month) :
    daysThrough year (month - 1) + day ≤ daysThrough year month := by
  obtain ⟨m, rfl⟩ : ∃ m, month = m + 1 := ⟨month - 1, by omega⟩
  rw [Nat.add_sub_cancel, daysThrough]
  omega

/-! ### Moments -/

/-- A `datetime` in UTC. -/
structure UtcTime where
  year : ℕ
  month : ℕ
  day : ℕ
  hour : ℕ
  minute : ℕ
  second : ℕ
  microsecond : ℕ
  year_mem : 1 ≤ year ∧ year ≤ 9999
  month_mem : 1 ≤ month ∧ month ≤ 12
  day_mem : 1 ≤ day ∧ day ≤ daysInMonth year month
  hour_lt : hour < 24
  minute_lt : minute < 60
  second_lt : second < 60
  microsecond_lt : microsecond < 1000000
  deriving DecidableEq

namespace UtcTime

variable (t u : UtcTime)

/-- `toordinal`. -/
def ordinal : ℕ := ymd2ord t.year t.month t.day

/-- The microseconds since the day before the first. -/
def micros : ℕ :=
  (((t.ordinal * 24 + t.hour) * 60 + t.minute) * 60 + t.second) * 1000000 + t.microsecond

/-- `t - timedelta(seconds=seconds)`, where the calendar has such a moment. -/
def SecondsBefore (seconds : ℤ) : Prop := (t.micros : ℤ) = u.micros - seconds * 1000000

/-- The fraction of `isoformat()`. -/
def fraction : List Char := if t.microsecond = 0 then [] else '.' :: pad 6 t.microsecond

/-- `isoformat()`. -/
def isoformat : String :=
  String.ofList (pad 4 t.year ++ ('-' :: pad 2 t.month ++ ('-' :: pad 2 t.day
    ++ ('T' :: pad 2 t.hour ++ (':' :: pad 2 t.minute ++ (':' :: pad 2 t.second
      ++ (t.fraction ++ "+00:00".toList)))))))

lemma toList_isoformat : t.isoformat.toList = pad 4 t.year ++ ('-' :: pad 2 t.month
    ++ ('-' :: pad 2 t.day ++ ('T' :: pad 2 t.hour ++ (':' :: pad 2 t.minute
      ++ (':' :: pad 2 t.second ++ (t.fraction ++ "+00:00".toList)))))) := String.toList_ofList

variable {t u}

/-- Days compare by year, then by month, then by day of the month. -/
lemma ordinal_lt_iff : t.ordinal < u.ordinal ↔ t.year < u.year
    ∨ t.year = u.year ∧ (t.month < u.month ∨ t.month = u.month ∧ t.day < u.day) := by
  have hmonth : ∀ v w : UtcTime, v.year = w.year → v.month < w.month → v.ordinal < w.ordinal := by
    intro v w hyear hlt
    have hv := day_le_daysThrough v.month_mem.1 v.day_mem.2
    have hw := @daysThrough_mono v.year v.month (w.month - 1) (by omega)
    have hday := w.day_mem.1
    rw [ordinal, ordinal, ymd2ord, ymd2ord, ← hyear]
    omega
  have hyear : ∀ v w : UtcTime, v.year < w.year → v.ordinal < w.ordinal := by
    intro v w hlt
    have hv := day_le_daysThrough v.month_mem.1 v.day_mem.2
    have hend := @daysThrough_mono v.year v.month 12 v.month_mem.2
    have hyears := daysBeforeYear_mono v.year_mem.1 hlt
    have hday := w.day_mem.1
    rw [ordinal, ordinal, ymd2ord, ymd2ord]
    omega
  have hday : t.year = u.year → t.month = u.month → (t.ordinal < u.ordinal ↔ t.day < u.day) := by
    intro hy hm
    rw [ordinal, ordinal, ymd2ord, ymd2ord, hy, hm]
    omega
  rcases Nat.lt_trichotomy t.year u.year with hy | hy | hy
  · have := hyear t u hy
    omega
  · rcases Nat.lt_trichotomy t.month u.month with hm | hm | hm
    · have := hmonth t u hy hm
      omega
    · have := hday hy hm
      omega
    · have := hmonth u t hy.symm hm
      omega
  · have := hyear u t hy
    omega

/-- Days are equal with their fields. -/
lemma ordinal_eq_iff : t.ordinal = u.ordinal
    ↔ t.year = u.year ∧ t.month = u.month ∧ t.day = u.day := by
  have htu := @ordinal_lt_iff t u
  have hut := @ordinal_lt_iff u t
  omega

/-- Moments compare by day, then by the time of the day. -/
lemma micros_lt_iff : t.micros < u.micros ↔ t.ordinal < u.ordinal
    ∨ t.ordinal = u.ordinal ∧ (t.hour < u.hour ∨ t.hour = u.hour ∧ (t.minute < u.minute
      ∨ t.minute = u.minute ∧ (t.second < u.second
        ∨ t.second = u.second ∧ t.microsecond < u.microsecond))) := by
  have hh := t.hour_lt
  have hm := t.minute_lt
  have hs := t.second_lt
  have hc := t.microsecond_lt
  have hh' := u.hour_lt
  have hm' := u.minute_lt
  have hs' := u.second_lt
  have hc' := u.microsecond_lt
  rw [micros, micros]
  omega

/-- The fraction orders the moments of a second: `'+'` comes before `'.'`. -/
lemma fraction_lt_iff : t.fraction ++ "+00:00".toList < u.fraction ++ "+00:00".toList
    ↔ t.microsecond < u.microsecond := by
  have ht := t.microsecond_lt
  have hu := u.microsecond_lt
  have hsign : '+' < '.' := by decide
  rw [fraction, fraction, show "+00:00".toList = '+' :: "00:00".toList from rfl]
  by_cases hzero : t.microsecond = 0
  · by_cases hzero' : u.microsecond = 0
    · rw [if_pos hzero, if_pos hzero', hzero, hzero']
      simp
    · rw [if_pos hzero, if_neg hzero', List.nil_append, List.cons_append, List.cons_lt_cons_iff]
      exact ⟨fun _ => by omega, fun _ => Or.inl hsign⟩
  · by_cases hzero' : u.microsecond = 0
    · rw [if_neg hzero, if_pos hzero', List.nil_append, List.cons_append, List.cons_lt_cons_iff]
      constructor
      · rintro (hlt | ⟨heq, -⟩)
        · exact absurd hlt hsign.asymm
        · exact absurd heq hsign.ne'
      · intro hlt
        omega
    · rw [if_neg hzero, if_neg hzero', mark_block_lt_iff (by omega) (by omega)]
      simp

/-- **The order of the texts is the order of the moments.** -/
theorem isoformat_lt_iff : t.isoformat < u.isoformat ↔ t.micros < u.micros := by
  have ht := t.month_mem
  have hu := u.month_mem
  have hmonths : ∀ v : UtcTime, v.day < 100 := by
    intro v
    have hle := v.day_mem.2
    have hmax : daysInMonth v.year v.month ≤ 31 := by
      rw [daysInMonth.eq_def]
      split <;> (try split) <;> omega
    omega
  have htd := hmonths t
  have hud := hmonths u
  have hh := t.hour_lt
  have hm := t.minute_lt
  have hs := t.second_lt
  have hh' := u.hour_lt
  have hm' := u.minute_lt
  have hs' := u.second_lt
  have hy := t.year_mem
  have hy' := u.year_mem
  rw [String.lt_iff_toList_lt, t.toList_isoformat, u.toList_isoformat,
    pad_block_lt_iff (by omega) (by omega), mark_block_lt_iff (by omega) (by omega),
    mark_block_lt_iff (by omega) (by omega), mark_block_lt_iff (by omega) (by omega),
    mark_block_lt_iff (by omega) (by omega), mark_block_lt_iff (by omega) (by omega),
    fraction_lt_iff, micros_lt_iff, ordinal_lt_iff, ordinal_eq_iff]
  omega

end UtcTime

end Foundation
