import SeriesxEmu.Calendar
import SeriesxEmu.Dispatcher
import SeriesxEmu.GuestWords

/-!
# Time fields

`RtlTimeToTimeFields` splits a FILETIME, a signed count of 100 ns since 1601, into the date and the
time of day. The date goes through eras of 400 years that start in March. The sixteen bytes of the
result hold the date and the time exactly, before 1601 as well as after.
-/

namespace SeriesxEmu

/-- `TIME_FIELDS`. -/
@[ext]
structure TimeFields where
  year : Int
  month : Nat
  day : Nat
  hour : Nat
  minute : Nat
  second : Nat
  milliseconds : Nat
  weekday : Nat
deriving DecidableEq, Repr

/-- `civil_from_days`: the date of a day counted from 1970-01-01. No unsigned difference in it wraps. -/
def civilFromDays (days : Int) : Int × Nat × Nat :=
  let z := days + 719468
  let era := (if 0 ≤ z then z else z - 146096).tdiv 146097
  let doe : Nat := ((z - era * 146097) % 2 ^ 32).toNat
  let yoe := (doe - doe / 1460 + doe / 36524 - doe / 146096) / 365
  let yy := yoe + era * 400
  let doy := doe - (365 * yoe + yoe / 4 - yoe / 100)
  let mp := (5 * doy + 2) / 153
  let d := doy - (153 * mp + 2) / 5 + 1
  let m := if mp < 10 then mp + 3 else mp - 9
  (if m ≤ 2 then yy + 1 else yy, m, d)

/-- The fields of a FILETIME. -/
def timeFields (ft : Int) : TimeFields :=
  let before := ft.tmod 864000000000 < 0
  let days := if before then ft.tdiv 864000000000 - 1 else ft.tdiv 864000000000
  let rem := if before then ft.tmod 864000000000 + 864000000000 else ft.tmod 864000000000
  let (y, m, d) := civilFromDays (days - 134774)
  let totalMs := rem.toNat / 10000
  { year := y, month := m, day := d
    hour := totalMs / 3600000
    minute := totalMs / 60000 % 60
    second := totalMs / 1000 % 60
    milliseconds := totalMs % 1000
    weekday := ((days.tmod 7 + 7 + 1).tmod 7).toNat }

/-- `RtlTimeToTimeFields`; there is no result when the call is rejected. -/
def rtlTimeToTimeFields (ram : XbeRam) (time fields : Nat) : Option XbeRam :=
  match ram.read64 time with
  | none => none
  | some ft =>
    if ram.writable fields 16 then
      let t := timeFields (int64 ft)
      let dated := (ram.write32 (fields + 0x0) ((t.year % 2 ^ 16).toNat ||| t.month <<< 16)).write32 (fields + 0x4)
        (t.day ||| t.hour <<< 16)
      some ((dated.write32 (fields + 0x8) (t.minute ||| t.second <<< 16)).write32 (fields + 0xC)
        (t.milliseconds ||| t.weekday <<< 16))
    else none

/-- The fields that the guest finds in memory: eight 16-bit numbers, of which the year is signed. -/
def XbeRam.readTimeFields (ram : XbeRam) (fields : Nat) : Option TimeFields :=
  match ram.read32 (fields + 0x0), ram.read32 (fields + 0x4), ram.read32 (fields + 0x8), ram.read32 (fields + 0xC) with
  | some first, some second, some third, some fourth => some
    { year := if first % 2 ^ 16 < 2 ^ 15 then (first % 2 ^ 16 : Nat) else (first % 2 ^ 16 : Nat) - 2 ^ 16
      month := first / 2 ^ 16
      day := second % 2 ^ 16
      hour := second / 2 ^ 16
      minute := third % 2 ^ 16
      second := third / 2 ^ 16
      milliseconds := fourth % 2 ^ 16
      weekday := fourth / 2 ^ 16 }
  | _, _, _, _ => none

/-! ## The date -/

/-- A day of an era, by its century, its cycle of four years, its year and its day in the year. -/
theorem day_of_era {doe : Nat} (inEra : doe < 146097) : ∃ century cycle year day,
    doe = 36524 * century + 1461 * cycle + 365 * year + day ∧ century < 4 ∧ cycle < 25 ∧ year < 4 ∧
      (day < 365 ∨ (day = 365 ∧ year = 3 ∧ (cycle = 24 → century = 3))) := by
  obtain ⟨century, centuryIs⟩ : ∃ century, century = min 3 (doe / 36524) := ⟨_, rfl⟩
  obtain ⟨cycle, cycleIs⟩ : ∃ cycle, cycle = (doe - 36524 * century) / 1461 := ⟨_, rfl⟩
  obtain ⟨year, yearIs⟩ : ∃ year, year = min 3 ((doe - 36524 * century - 1461 * cycle) / 365) := ⟨_, rfl⟩
  refine ⟨century, cycle, year, doe - 36524 * century - 1461 * cycle - 365 * year, ?_, ?_, ?_, ?_, ?_⟩ <;> omega

/-- Every cycle but the last of a century has one day more than four years. -/
theorem leaps_before {doe century cycle rest : Nat} (doeIs : doe = 36524 * century + 1461 * cycle + rest) :
    doe / 1460 = 25 * century + cycle + (24 * century + cycle + rest) / 1460 := by
  omega

/-- The last day of the era is the only one that is not in the century the quotient gives. -/
theorem centuries_before {doe century rest : Nat} (doeIs : doe = 36524 * century + rest) (inEra : century < 4)
    (inCentury : rest < 36524 ∨ (rest = 36524 ∧ century = 3)) : doe / 36524 = century + doe / 146096 := by
  rcases inCentury with within | ⟨rfl, rfl⟩
  · have notLast : doe / 146096 = 0 := Nat.div_eq_of_lt (by omega)
    rw [notLast, doeIs]
    omega
  · subst doeIs
    rfl

/-- The formula for the year of the era. The corrections undo the leap days before the day. -/
theorem year_of_era {doe century cycle year day : Nat}
    (doeIs : doe = 36524 * century + 1461 * cycle + 365 * year + day) (inEra : century < 4) (inCentury : cycle < 25)
    (inCycle : year < 4) (inYear : day < 365 ∨ (day = 365 ∧ year = 3 ∧ (cycle = 24 → century = 3))) :
    (doe - doe / 1460 + doe / 36524 - doe / 146096) / 365 = 100 * century + 4 * cycle + year := by
  have centuries : doe / 36524 = century + doe / 146096 :=
    centuries_before (by omega : doe = 36524 * century + (1461 * cycle + 365 * year + day)) inEra (by omega)
  have cycles := leaps_before (by omega : doe = 36524 * century + 1461 * cycle + (365 * year + day))
  have rest : (24 * century + cycle + (365 * year + day)) / 1460 ≤ day ∧
      day < (24 * century + cycle + (365 * year + day)) / 1460 + 365 := by
    clear doeIs centuries cycles
    omega
  rw [cycles, centuries]
  generalize (24 * century + cycle + (365 * year + day)) / 1460 = leaps at rest
  generalize doe / 146096 = last
  clear cycles centuries inYear inEra inCentury inCycle
  omega

/-- The day of the era is the day of its year, and only a leap year has a day 365. -/
theorem day_of_year {doe yoe doy : Nat} (inEra : doe < 146097)
    (yoeIs : yoe = (doe - doe / 1460 + doe / 36524 - doe / 146096) / 365)
    (doyIs : doy = doe - (365 * yoe + yoe / 4 - yoe / 100)) :
    doe = 365 * yoe + yoe / 4 - yoe / 100 + doy ∧ yoe < 400 ∧
      (doy < 365 ∨ (doy = 365 ∧ Calendar.Leap (yoe + 1))) := by
  obtain ⟨century, cycle, year, day, doeIs, low, inCentury, inCycle, inYear⟩ := day_of_era inEra
  rw [year_of_era doeIs low inCentury inCycle inYear] at yoeIs
  have cycles : yoe / 4 = 25 * century + cycle := by omega
  have centuries : yoe / 100 = century := by omega
  have same : doy = day := by omega
  refine ⟨by omega, by omega, ?_⟩
  rw [same]
  refine inYear.imp_right (fun ⟨last, fourth, whole⟩ => ⟨last, ?_⟩)
  unfold Calendar.Leap
  omega

/-- The months of a year that starts in March, and the days in them. -/
theorem month_of_year {doy mp : Nat} (inYear : doy ≤ 365) (mpIs : mp = (5 * doy + 2) / 153) :
    mp < 12 ∧ Calendar.marchMonth mp ≤ doy := by
  unfold Calendar.marchMonth
  omega

/-- The first of March of a year of an era. -/
theorem marchStart_era (yoe : Nat) (inEra : yoe < 400) (era : Int) : Calendar.marchStart (yoe + era * 400) =
    146097 * era + (365 * yoe + yoe / 4 - yoe / 100 : Nat) - 584694 := by
  rw [Calendar.marchStart_eq]
  omega

/-- The truncating division of the source is a floored one. -/
theorem era_eq (z : Int) : (if 0 ≤ z then z else z - 146096).tdiv 146097 = z / 146097 := by
  rw [Int.tdiv_eq_ediv, show Int.sign 146097 = 1 from rfl]
  split <;> split <;> omega

/-- The date of a day is a date of the calendar, and it is that day. -/
theorem civilFromDays_spec (days : Int) :
    Calendar.ValidDate (civilFromDays days).1 (civilFromDays days).2.1 (civilFromDays days).2.2 ∧
      Calendar.dayNumber (civilFromDays days).1 (civilFromDays days).2.1 (civilFromDays days).2.2 =
        days + 134774 := by
  unfold civilFromDays
  simp only [era_eq]
  obtain ⟨era, eraIs⟩ : ∃ era, era = (days + 719468) / 146097 := ⟨_, rfl⟩
  rw [← eraIs]
  obtain ⟨doe, doeIs⟩ : ∃ doe, doe = ((days + 719468 - era * 146097) % 2 ^ 32).toNat := ⟨_, rfl⟩
  rw [← doeIs]
  have inEra : doe < 146097 := by omega
  have place : days + 719468 = 146097 * era + doe := by omega
  clear eraIs doeIs
  obtain ⟨yoe, yoeIs⟩ : ∃ yoe, yoe = (doe - doe / 1460 + doe / 36524 - doe / 146096) / 365 := ⟨_, rfl⟩
  rw [← yoeIs]
  obtain ⟨doy, doyIs⟩ : ∃ doy, doy = doe - (365 * yoe + yoe / 4 - yoe / 100) := ⟨_, rfl⟩
  rw [← doyIs]
  obtain ⟨doeIs, small, leap⟩ := day_of_year inEra yoeIs doyIs
  clear yoeIs doyIs inEra
  have start := marchStart_era yoe small era
  obtain ⟨mp, mpIs⟩ : ∃ mp, mp = (5 * doy + 2) / 153 := ⟨_, rfl⟩
  rw [← mpIs]
  obtain ⟨inYear, begun⟩ := month_of_year (by omega) mpIs
  have since : Calendar.marchMonth mp = (153 * mp + 2) / 5 := rfl
  by_cases spring : mp < 10
  · have number := Calendar.dayNumber_spring (yoe + era * 400) spring (doy - (153 * mp + 2) / 5 + 1)
    simp only [spring, ↓reduceIte]
    rw [if_neg (by omega : ¬ mp + 3 ≤ 2)]
    refine ⟨⟨by omega, by omega, ?_⟩, by omega⟩
    clear number start doeIs place since
    unfold Calendar.marchMonth at begun
    interval_cases mp <;> simp only [Nat.reduceAdd, Calendar.monthLength] <;> omega
  · have number := Calendar.dayNumber_winter (yoe + era * 400) (by omega) inYear (doy - (153 * mp + 2) / 5 + 1)
    simp only [spring, ↓reduceIte]
    rw [if_pos (by omega : mp - 9 ≤ 2)]
    refine ⟨⟨by omega, by omega, ?_⟩, by omega⟩
    have moved : Calendar.Leap (yoe + era * 400 + 1) ↔ Calendar.Leap (yoe + 1) := by
      unfold Calendar.Leap
      omega
    clear number start doeIs place since
    unfold Calendar.marchMonth at begun
    interval_cases mp
    · simp only [Nat.reduceSub, Calendar.monthLength]
      omega
    · simp only [Nat.reduceSub, Calendar.monthLength, Calendar.leapDay, moved]
      split
      · omega
      · rename_i common
        have before := leap.resolve_right (fun last => common last.2)
        omega

/-! ## The time of day -/

namespace TimeFields

/-- The fields of a time that the calendar knows. -/
structure Valid (fields : TimeFields) : Prop where
  date : Calendar.ValidDate fields.year fields.month fields.day
  hour : fields.hour < 24
  minute : fields.minute < 60
  second : fields.second < 60
  milliseconds : fields.milliseconds < 1000

/-- The milliseconds since the first of January 1601 that the fields stand for. -/
def millis (fields : TimeFields) : Int :=
  Calendar.dayNumber fields.year fields.month fields.day * 86400000 + fields.hour * 3600000 +
    fields.minute * 60000 + fields.second * 1000 + fields.milliseconds

end TimeFields

/-- Truncated division is floor division, or one above it with a negative rest. -/
theorem truncated {divisor : Int} (positive : 0 < divisor) (value : Int) :
    (value.tdiv divisor = value / divisor ∧ value.tmod divisor = value % divisor) ∨
      (value.tdiv divisor = value / divisor + 1 ∧ value.tmod divisor = value % divisor - divisor ∧
        value % divisor ≠ 0) := by
  rw [Int.tdiv_eq_ediv, Int.tmod_eq_emod, Int.sign_eq_one_of_pos positive]
  by_cases whole : 0 ≤ value ∨ divisor ∣ value
  · exact Or.inl ⟨by rw [if_pos whole, Int.add_zero], by rw [if_pos whole, Int.natCast_zero, Int.sub_zero]⟩
  · have rest : value % divisor ≠ 0 := fun zero => whole (Or.inr (Int.dvd_of_emod_eq_zero zero))
    exact Or.inr ⟨by rw [if_neg whole], by rw [if_neg whole, Int.natAbs_of_nonneg positive.le], rest⟩

/-- The correction of the truncated division gives the floor, and the part of the day. -/
theorem days_eq (ft : Int) :
    (if ft.tmod 864000000000 < 0 then ft.tdiv 864000000000 - 1 else ft.tdiv 864000000000) = ft / 864000000000 ∧
      (if ft.tmod 864000000000 < 0 then ft.tmod 864000000000 + 864000000000 else ft.tmod 864000000000) =
        ft % 864000000000 := by
  rcases truncated (by decide : (0 : Int) < 864000000000) ft with ⟨days, rest⟩ | ⟨days, rest, _⟩ <;> rw [days, rest] <;>
    omega

/-- The truncating remainder of the source is the weekday. -/
theorem weekday_eq (days : Int) : (days.tmod 7 + 7 + 1).tmod 7 = (days + 1) % 7 := by
  rcases truncated (by decide : (0 : Int) < 7) days with ⟨_, rest⟩ | ⟨_, rest, _⟩ <;>
    rw [rest, Int.tmod_eq_emod_of_nonneg (by omega)] <;> omega

/-- The fields are the date and the time of day of the FILETIME. -/
theorem timeFields_spec (ft : Int) : (timeFields ft).Valid ∧ (timeFields ft).millis = ft / 10000 ∧
    ((timeFields ft).weekday : Int) = (ft / 864000000000 + 1) % 7 := by
  obtain ⟨days, rem⟩ := days_eq ft
  obtain ⟨date, number⟩ := civilFromDays_spec (ft / 864000000000 - 134774)
  unfold timeFields TimeFields.millis
  simp only [days, rem, weekday_eq]
  refine ⟨⟨date, ?_, ?_, ?_, ?_⟩, ?_, ?_⟩
  · simp only
    omega
  · exact Nat.mod_lt _ (by decide)
  · exact Nat.mod_lt _ (by decide)
  · exact Nat.mod_lt _ (by decide)
  · rw [number]
    omega
  · omega

/-- The day of a date lies in its year. -/
theorem dayNumber_bounds {year : Int} {month day : Nat} (date : Calendar.ValidDate year month day) :
    Calendar.yearStart year ≤ Calendar.dayNumber year month day ∧
      Calendar.dayNumber year month day < Calendar.yearStart year + 366 := by
  obtain ⟨⟨first, last⟩, low, high⟩ := date
  have leap : Calendar.leapDay year ≤ 1 := by
    unfold Calendar.leapDay
    split <;> decide
  unfold Calendar.dayNumber
  interval_cases month <;> simp only [Calendar.monthStart, Calendar.monthLength] at high ⊢ <;> omega

/-- The year of a 64-bit FILETIME fits sixteen bits. -/
theorem year_fits {ft : Int} (lower : -2 ^ 63 ≤ ft) (upper : ft < 2 ^ 63) :
    -2 ^ 15 ≤ (timeFields ft).year ∧ (timeFields ft).year < 2 ^ 15 := by
  obtain ⟨days, _⟩ := days_eq ft
  obtain ⟨date, number⟩ := civilFromDays_spec (ft / 864000000000 - 134774)
  obtain ⟨above, below⟩ := dayNumber_bounds date
  rw [number, Calendar.yearStart] at above below
  have year : (timeFields ft).year = (civilFromDays (ft / 864000000000 - 134774)).1 := by
    unfold timeFields
    simp only [days]
  rw [year]
  omega

/-! ## The fields in memory -/

/-- Two half words side by side. -/
theorem halves {low high : Nat} (small : low < 2 ^ 16) : low ||| high <<< 16 = low + 2 ^ 16 * high := by
  rw [Nat.or_comm, ← Nat.shiftLeft_add_eq_or_of_lt small, Nat.shiftLeft_eq]
  omega

/-- Four words that are stored one behind the other are found there, and nothing else changes. -/
theorem four_words {ram : XbeRam} {va : Nat} (usable : ram.writable va 16 = true) (first second third fourth : Nat) :
    ∃ next, (((ram.write32 (va + 0x0) first).write32 (va + 0x4) second).write32 (va + 0x8) third).write32 (va + 0xC)
        fourth = next ∧ ram.Within next va (va + 16) ∧ next.read32 (va + 0x0) = some (first % 2 ^ 32) ∧
      next.read32 (va + 0x4) = some (second % 2 ^ 32) ∧ next.read32 (va + 0x8) = some (third % 2 ^ 32) ∧
      next.read32 (va + 0xC) = some (fourth % 2 ^ 32) := by
  have word : ∀ offset, offset + 4 ≤ 16 → ram.writable (va + offset) 4 = true := fun offset inside =>
    XbeRam.writable_word usable (by omega) (by omega)
  have within : ∀ (middle : XbeRam) (offset value : Nat), offset + 4 ≤ 16 →
      middle.Within (middle.write32 (va + offset) value) va (va + 16) := fun middle offset value inside =>
    (XbeRam.Within.write32 middle (va + offset) value).mono (by omega) (by omega)
  refine ⟨_, rfl, ((within _ _ _ (by decide)).trans (within _ _ _ (by decide))).trans
    ((within _ _ _ (by decide)).trans (within _ _ _ (by decide))), ?_, ?_, ?_, ?_⟩
  · rw [XbeRam.read32_write32_other (by omega), XbeRam.read32_write32_other (by omega),
      XbeRam.read32_write32_other (by omega), XbeRam.read32_write32 (word 0 (by decide))]
  · rw [XbeRam.read32_write32_other (by omega), XbeRam.read32_write32_other (by omega), XbeRam.read32_write32]
    rw [XbeRam.writable_write32]
    exact word 4 (by decide)
  · rw [XbeRam.read32_write32_other (by omega), XbeRam.read32_write32]
    rw [XbeRam.writable_write32, XbeRam.writable_write32]
    exact word 8 (by decide)
  · rw [XbeRam.read32_write32]
    rw [XbeRam.writable_write32, XbeRam.writable_write32, XbeRam.writable_write32]
    exact word 12 (by decide)

/-- A word read as signed lies in the range of an `int64_t`. -/
theorem int64_bounds (word : Nat) : -2 ^ 63 ≤ int64 word ∧ int64 word < 2 ^ 63 := by
  unfold int64
  split <;> omega

/-- **Calendar conversion.** From readable input the call stores into writable output the fields of the
FILETIME, each in its sixteen bits: a date and a time of day that stand for the milliseconds since 1601,
rounded down, with their weekday.

Proof: the fields are those of the calendar, and their sixteen bits hold them, so the four words at
the address read back to the fields. -/
theorem rtlTimeToTimeFields_stores (ram : XbeRam) (time fields word : Nat) (readable : ram.read64 time = some word)
    (usable : ram.writable fields 16 = true) :
    ∃ next stored, rtlTimeToTimeFields ram time fields = some next ∧ ram.Within next fields (fields + 16) ∧
      next.readTimeFields fields = some stored ∧ stored = timeFields (int64 word) ∧ stored.Valid ∧
      (-2 ^ 15 ≤ stored.year ∧ stored.year < 2 ^ 15) ∧ stored.millis = int64 word / 10000 ∧
      (stored.weekday : Int) = (int64 word / 864000000000 + 1) % 7 := by
  obtain ⟨valid, millis, weekday⟩ := timeFields_spec (int64 word)
  have year := year_fits (int64_bounds word).1 (int64_bounds word).2
  unfold rtlTimeToTimeFields
  simp only [readable, usable, ↓reduceIte]
  generalize timeFields (int64 word) = t at valid millis weekday year
  obtain ⟨next, nextIs, within, first, second, third, fourth⟩ := four_words usable
    ((t.year % 2 ^ 16).toNat ||| t.month <<< 16) (t.day ||| t.hour <<< 16) (t.minute ||| t.second <<< 16)
    (t.milliseconds ||| t.weekday <<< 16)
  have day : t.day ≤ 31 := by
    have length : Calendar.monthLength t.year t.month ≤ 31 := by
      unfold Calendar.monthLength Calendar.leapDay
      split
      · split <;> decide
      all_goals decide
    exact Nat.le_trans valid.date.inMonth.2 length
  have month := valid.date.inYear.2
  have hour := valid.hour
  have minute := valid.minute
  have seconds := valid.second
  have milliseconds := valid.milliseconds
  rw [halves (by omega)] at first second third fourth
  refine ⟨next, t, congrArg some nextIs, within, ?_, rfl, valid, year, millis, weekday⟩
  unfold XbeRam.readTimeFields
  rw [first, second, third, fourth]
  simp only [Option.some.injEq]
  refine TimeFields.ext ?_ ?_ ?_ ?_ ?_ ?_ ?_ ?_ <;> simp only <;> omega

/-- A window that is committed as a whole and holds zeros. -/
def blankWindow : XbeRam := { committed := fun _ => true }

/-- The first time of all is stored as the first of January 1601. -/
theorem blankWindow_stores : ∃ next stored, rtlTimeToTimeFields blankWindow 0 16 = some next ∧
    blankWindow.Within next 16 32 ∧ next.readTimeFields 16 = some stored ∧ stored = timeFields (int64 0) ∧
    stored.Valid ∧ (-2 ^ 15 ≤ stored.year ∧ stored.year < 2 ^ 15) ∧ stored.millis = int64 0 / 10000 ∧
    (stored.weekday : Int) = (int64 0 / 864000000000 + 1) % 7 :=
  rtlTimeToTimeFields_stores blankWindow 0 16 0 (by decide) (by decide)

/-- The last moment before 1601. -/
example : timeFields (-1) =
    { year := 1600, month := 12, day := 31
      hour := 23, minute := 59, second := 59, milliseconds := 999, weekday := 0 } := by decide

end SeriesxEmu
