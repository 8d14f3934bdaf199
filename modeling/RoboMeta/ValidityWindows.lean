/-
  The validity window of the hard filter (`services/artifact_selector.py`).

  The times of `_now_of` and of the store are texts `YYYY-MM-DDTHH:MM:SSZ`, and
  the filter compares the texts.

  * `CalendarTime`: a time of the calendar with a year of four digits;
    `instant`: its seconds since the beginning of the year 0;
  * `iso_lt_iso_iff`: the texts are in the order of the instants;
  * `window_verdicts`: what the filter answers before, after and within a window.
-/
import RoboMeta.Lib.Positional
import RoboMeta.Selector

namespace RoboMeta

/-! ## The calendar -/

def LeapYear (year : ℕ) : Prop := year % 4 = 0 ∧ (year % 100 ≠ 0 ∨ year % 400 = 0)

instance (year : ℕ) : Decidable (LeapYear year) := inferInstanceAs (Decidable (_ ∧ _))

/-- The days of a month; there is none before January. -/
def daysIn (year month : ℕ) : ℕ :=
  if month = 0 then 0
  else if month = 2 then if LeapYear year then 29 else 28
  else if month ∈ [4, 6, 9, 11] then 30
  else 31

def months (year : ℕ) : Places := .sums (daysIn year)

def daysInYear (year : ℕ) : ℕ := (months year).start 13

def years : Places := .sums daysInYear

example : daysInYear 2024 = 366 ∧ daysInYear 2100 = 365 := by decide

/-- A point of the calendar whose year has four digits. -/
structure CalendarTime extends Timestamp where
  year_lt : year < 10000
  month_pos : 1 ≤ month
  month_le : month ≤ 12
  day_pos : 1 ≤ day
  day_le : day ≤ daysIn year month
  hour_lt : hour < 24
  minute_lt : minute < 60
  second_lt : second < 60

namespace CalendarTime

variable (t : CalendarTime)

/-- The days before the one of the time. -/
def daysBefore : ℕ := years.start t.year + ((months t.year).start t.month + (t.day - 1))

def secondOfDay : ℕ := t.hour * 3600 + (t.minute * 60 + t.second)

/-- The seconds since the beginning of the year 0. -/
def instant : ℕ := t.daysBefore * 86400 + t.secondOfDay

def dateFields : List ℕ := [t.year, t.month, t.day]

def timeFields : List ℕ := [t.hour, t.minute, t.second]

/-! ## The order of the instants -/

theorem dayOfMonth_lt : t.day - 1 < (months t.year).size t.month := by
  have hday := t.day_le
  have hpos := t.day_pos
  show t.day - 1 < daysIn t.year t.month
  omega

theorem dayOfYear_lt : (months t.year).start t.month + (t.day - 1) < years.size t.year :=
  (months t.year).start_add_lt t.dayOfMonth_lt (Nat.lt_succ_of_le t.month_le)

theorem secondOfDay_lt : t.secondOfDay < 86400 := by
  have hhour := t.hour_lt
  have hminute := t.minute_lt
  have hsecond := t.second_lt
  unfold secondOfDay
  omega

variable (a b : CalendarTime)

theorem daysBefore_lt_iff : a.daysBefore < b.daysBefore ↔ a.dateFields < b.dateFields := by
  have ha := a.day_pos
  have hb := b.day_pos
  rw [daysBefore, daysBefore, years.lt_iff a.dayOfYear_lt b.dayOfYear_lt, dateFields, dateFields,
    List.cons_lt_cons_iff]
  refine or_congr_right (and_congr_right fun hyear => ?_)
  have hday : b.day - 1 < (months a.year).size b.month := hyear ▸ b.dayOfMonth_lt
  rw [← hyear, (months a.year).lt_iff a.dayOfMonth_lt hday, List.cons_lt_cons_iff, List.cons_lt_cons_iff]
  have hlt : a.day - 1 < b.day - 1 ↔ a.day < b.day := by omega
  simp [hlt]

theorem secondOfDay_lt_iff : a.secondOfDay < b.secondOfDay ↔ a.timeFields < b.timeFields := by
  have ha := a.minute_lt
  have hb := b.minute_lt
  have hminute : a.minute * 60 + a.second < b.minute * 60 + b.second ↔ _ :=
    (Places.fixed 60).lt_iff a.second_lt b.second_lt
  have hhour : a.secondOfDay < b.secondOfDay ↔ _ :=
    (Places.fixed 3600).lt_iff (show a.minute * 60 + a.second < 3600 by have := a.second_lt; omega)
      (show b.minute * 60 + b.second < 3600 by have := b.second_lt; omega)
  rw [hhour, hminute]
  simp [timeFields, List.cons_lt_cons_iff]

/-- The instants are in the order of the fields. -/
theorem instant_lt_iff : a.instant < b.instant ↔ a.dateFields ++ a.timeFields < b.dateFields ++ b.timeFields := by
  have hdays := eq_iff_of_lt_iff (γ := List ℕ) (daysBefore_lt_iff a b) (daysBefore_lt_iff b a)
  have hlt : a.instant < b.instant ↔ _ := (Places.fixed 86400).lt_iff a.secondOfDay_lt b.secondOfDay_lt
  have hlength : a.dateFields.length = b.dateFields.length := rfl
  rw [hlt, append_lt_append_iff hlength, daysBefore_lt_iff, hdays, secondOfDay_lt_iff]

/-! ## The order of the texts -/

/-- `YYYY-MM-DDTHH:MM:SSZ`. -/
def isoLayout : Layout := [(4, ['-']), (2, ['-']), (2, ['T']), (2, [':']), (2, [':']), (2, ['Z'])]

theorem month_lt : t.month < 10 ^ 2 := t.month_le.trans_lt (by omega)

theorem day_lt : t.day < 10 ^ 2 := by
  have hday := t.day_le
  unfold daysIn at hday
  split_ifs at hday
  all_goals omega

theorem isoLayout_fits : isoLayout.Fits (t.dateFields ++ t.timeFields) := by
  have hhour : t.hour < 10 ^ 2 := t.hour_lt.trans (by omega)
  have hminute : t.minute < 10 ^ 2 := t.minute_lt.trans (by omega)
  have hsecond : t.second < 10 ^ 2 := t.second_lt.trans (by omega)
  exact .cons t.year_lt (.cons t.month_lt (.cons t.day_lt (.cons hhour (.cons hminute (.cons hsecond .nil)))))

theorem toList_padded {w n : ℕ} (hw : 0 < w) (hn : n < 10 ^ w) : (padded w n).toList = paddedDecimal w n := by
  rw [padded, String.toList_ofList, Nat.toString_eq_repr, Nat.toList_repr, leftpad_toDigits hw hn]

theorem toList_iso : t.iso.toList = layoutText isoLayout (t.dateFields ++ t.timeFields) := by
  have hyear := toList_padded (w := 4) (by omega) t.year_lt
  have hmonth := toList_padded (w := 2) (by omega) t.month_lt
  have hday := toList_padded (w := 2) (by omega) t.day_lt
  have hhour := toList_padded (w := 2) (by omega) (t.hour_lt.trans (by omega))
  have hminute := toList_padded (w := 2) (by omega) (t.minute_lt.trans (by omega))
  have hsecond := toList_padded (w := 2) (by omega) (t.second_lt.trans (by omega))
  simp [Timestamp.iso, isoLayout, dateFields, timeFields, layoutText, hyear, hmonth, hday, hhour, hminute, hsecond]

/-- **The order of the texts** is that of the instants. -/
theorem iso_lt_iso_iff : a.iso < b.iso ↔ a.instant < b.instant := by
  rw [String.lt_iff_toList_lt, toList_iso, toList_iso, layoutText_lt_iff a.isoLayout_fits b.isoLayout_fits,
    instant_lt_iff]

end CalendarTime

/-! ## The verdicts -/

/-- The checks before the window. -/
structure Reaches (access : Access) (record : Record) : Prop where
  tenant : record.tenantId = some access.tenantId
  published : record.status = some .published
  ready : record.readiness = some .ready

/-- The checks behind the window. -/
def behindWindow (access : Access) (record : Record) : Option SelectCode :=
  if record.snapshotId ∉ access.knownSnapshotIds then some .staleSnapshot
  else if ∃ policy ∈ record.payload.security, policy.denies access.roles then some .roleDenied
  else none

section
variable {access : Access} {record : Record}

theorem behindWindow_ne :
    behindWindow access record ≠ some .notYetValid ∧ behindWindow access record ≠ some .expired := by
  unfold behindWindow
  split_ifs
  all_goals simp

theorem hardFilter_of_reaches (h : Reaches access record) :
    hardFilter access record =
      if ∃ t ∈ given record.validFrom, access.now < t then some .notYetValid
      else if ∃ t ∈ given record.validTo, t < access.now then some .expired
      else behindWindow access record := by
  unfold hardFilter behindWindow
  rw [if_neg (not_not.2 h.tenant), if_neg (not_not.2 h.published), if_neg (not_not.2 h.ready)]

/-- What the checks before the window answer is no verdict on it. -/
theorem reaches_of_hardFilter {code : SelectCode} (h : hardFilter access record = some code)
    (hcode : code = .notYetValid ∨ code = .expired) : Reaches access record := by
  by_cases htenant : record.tenantId = some access.tenantId
  · by_cases hpublished : record.status = some .published
    · by_cases hready : record.readiness = some .ready
      · exact ⟨htenant, hpublished, hready⟩
      · rw [hardFilter, if_neg (not_not.2 htenant), if_neg (not_not.2 hpublished), if_pos hready] at h
        rw [← Option.some.inj h] at hcode
        simp at hcode
    · rw [hardFilter, if_neg (not_not.2 htenant), if_pos hpublished] at h
      rw [← Option.some.inj h] at hcode
      simp at hcode
  · rw [hardFilter, if_pos htenant] at h
    rw [← Option.some.inj h] at hcode
    simp at hcode

theorem hardFilter_eq_notYetValid_iff :
    hardFilter access record = some .notYetValid ↔
      Reaches access record ∧ ∃ t ∈ given record.validFrom, access.now < t := by
  constructor
  · intro h
    have hreach := reaches_of_hardFilter h (Or.inl rfl)
    refine ⟨hreach, ?_⟩
    rw [hardFilter_of_reaches hreach] at h
    by_contra hfrom
    rw [if_neg hfrom] at h
    by_cases hto : ∃ t ∈ given record.validTo, t < access.now
    · rw [if_pos hto] at h
      simp at h
    · rw [if_neg hto] at h
      exact behindWindow_ne.1 h
  · rintro ⟨hreach, hfrom⟩
    rw [hardFilter_of_reaches hreach, if_pos hfrom]

theorem hardFilter_eq_expired_iff :
    hardFilter access record = some .expired ↔
      Reaches access record ∧ (∃ t ∈ given record.validTo, t < access.now) ∧
        ¬ ∃ t ∈ given record.validFrom, access.now < t := by
  constructor
  · intro h
    have hreach := reaches_of_hardFilter h (Or.inr rfl)
    rw [hardFilter_of_reaches hreach] at h
    by_cases hfrom : ∃ t ∈ given record.validFrom, access.now < t
    · rw [if_pos hfrom] at h
      simp at h
    · rw [if_neg hfrom] at h
      refine ⟨hreach, ?_, hfrom⟩
      by_contra hto
      rw [if_neg hto] at h
      exact behindWindow_ne.2 h
  · rintro ⟨hreach, hto, hfrom⟩
    rw [hardFilter_of_reaches hreach, if_neg hfrom, if_pos hto]

end

/-! ## The window -/

/-- The filter at a time. -/
def Access.at_ (access : Access) (now : CalendarTime) : Access := { access with now := now.iso }

/-- The record with a window, either end of which may be missing. -/
def Record.during (record : Record) (validFrom validTo : Option CalendarTime) : Record :=
  { record with
    validFrom := validFrom.map fun t => t.iso
    validTo := validTo.map fun t => t.iso }

section
variable (access : Access) (record : Record) (now : CalendarTime) (validFrom validTo : Option CalendarTime)

/-- The window is not open yet. -/
def NotYet : Prop := ∃ t ∈ validFrom, now.instant < t.instant

/-- The window is closed. -/
def Over : Prop := ∃ t ∈ validTo, t.instant < now.instant

theorem iso_ne_empty (t : CalendarTime) : t.iso ≠ "" := by
  intro h
  have hlist := congrArg String.toList h
  rw [t.toList_iso] at hlist
  simp [CalendarTime.isoLayout, CalendarTime.dateFields, CalendarTime.timeFields, layoutText] at hlist

theorem exists_given_iff (time : Option CalendarTime) (P : String → Prop) :
    (∃ s ∈ given (time.map fun t => t.iso), P s) ↔ ∃ t ∈ time, P t.iso := by
  cases time with
  | none => simp [given]
  | some t => simp [given, iso_ne_empty]

theorem reaches_during :
    Reaches (access.at_ now) (record.during validFrom validTo) ↔ Reaches access record := by
  unfold Access.at_ Record.during
  constructor
  · rintro ⟨htenant, hpublished, hready⟩
    exact ⟨htenant, hpublished, hready⟩
  · rintro ⟨htenant, hpublished, hready⟩
    exact ⟨htenant, hpublished, hready⟩

theorem notYet_during :
    (∃ s ∈ given (record.during validFrom validTo).validFrom, (access.at_ now).now < s) ↔ NotYet now validFrom := by
  show (∃ s ∈ given (validFrom.map fun t => t.iso), now.iso < s) ↔ _
  rw [exists_given_iff validFrom fun s => now.iso < s]
  simp only [CalendarTime.iso_lt_iso_iff, NotYet]

theorem over_during :
    (∃ s ∈ given (record.during validFrom validTo).validTo, s < (access.at_ now).now) ↔ Over now validTo := by
  show (∃ s ∈ given (validTo.map fun t => t.iso), s < now.iso) ↔ _
  rw [exists_given_iff validTo fun s => s < now.iso]
  simp only [CalendarTime.iso_lt_iso_iff, Over]

end

/-- **Windows**: the texts are ordered as the instants, and the filter answers
    by the instants, the beginning of the window first. -/
theorem window_verdicts :
    (∀ a b : CalendarTime, a.iso < b.iso ↔ a.instant < b.instant) ∧
      ∀ (access : Access) (record : Record) (now : CalendarTime) (validFrom validTo : Option CalendarTime),
        (hardFilter (access.at_ now) (record.during validFrom validTo) = some .notYetValid ↔
          Reaches access record ∧ NotYet now validFrom) ∧
        (hardFilter (access.at_ now) (record.during validFrom validTo) = some .expired ↔
          Reaches access record ∧ Over now validTo ∧ ¬ NotYet now validFrom) := by
  refine ⟨CalendarTime.iso_lt_iso_iff, fun access record now validFrom validTo => ?_⟩
  constructor
  · rw [hardFilter_eq_notYetValid_iff, reaches_during, notYet_during]
  · rw [hardFilter_eq_expired_iff, reaches_during, notYet_during, over_during]

/-! A window that ends before it begins. -/

/-- The first second of a year. -/
def newYear (year : ℕ) (h : year < 10000) : CalendarTime where
  year := year
  month := 1
  day := 1
  hour := 0
  minute := 0
  second := 0
  year_lt := h
  month_pos := le_refl 1
  month_le := by decide
  day_pos := le_refl 1
  day_le := (by decide : 1 ≤ 31)
  hour_lt := by decide
  minute_lt := by decide
  second_lt := by decide

theorem newYear_lt_iff {y z : ℕ} (hy : y < 10000) (hz : z < 10000) :
    (newYear y hy).instant < (newYear z hz).instant ↔ y < z := by
  rw [CalendarTime.instant_lt_iff]
  simp [newYear, CalendarTime.dateFields, CalendarTime.timeFields, List.cons_lt_cons_iff]

/-- Behind the end and before the beginning, the filter names the beginning. -/
theorem window_verdicts_reversed :
    ¬ ∀ (access : Access) (record : Record) (now : CalendarTime) (validFrom validTo : Option CalendarTime),
        Reaches access record →
          (hardFilter (access.at_ now) (record.during validFrom validTo) = some .notYetValid ↔ NotYet now validFrom) ∧
          (hardFilter (access.at_ now) (record.during validFrom validTo) = some .expired ↔ Over now validTo) := by
  intro h
  let access : Access := { tenantId := "kwater", roles := [], now := "", knownSnapshotIds := ["s"] }
  let record : Record := {
    artifactId := "art-rainfall", tenantId := some "kwater", status := some .published, readiness := some .ready
    snapshotId := "s", payload := {}, payloadSha256 := "" }
  have hreach : Reaches access record := ⟨rfl, rfl, rfl⟩
  have hexpired := (h access record (newYear 2026 (by omega)) (some (newYear 2027 (by omega)))
    (some (newYear 2025 (by omega))) hreach).2
  have hover : Over (newYear 2026 (by omega)) (some (newYear 2025 (by omega))) :=
    ⟨_, rfl, (newYear_lt_iff (by omega) (by omega)).2 (by omega)⟩
  have hnotYet : NotYet (newYear 2026 (by omega)) (some (newYear 2027 (by omega))) :=
    ⟨_, rfl, (newYear_lt_iff (by omega) (by omega)).2 (by omega)⟩
  rw [hardFilter_eq_expired_iff, notYet_during] at hexpired
  exact (hexpired.2 hover).2.2 hnotYet

end RoboMeta
