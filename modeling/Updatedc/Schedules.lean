import Updatedc.Window
import Updatedc.Lib.Except

/-!
# What windows and calendars mean

A recurring window is a set of days, each opening one span of time. `RolloutWindow.On` says which
days, and `Covers` which instants a day opens: the rest of the day the window starts on, or past
midnight into the next. `isActive` looks only at the day of the instant and the day before it, and
decides the same (`isActive_semantics`).

A calendar is a list of dated spans that ends. It gates until **every** entry has been evaluated and
is over (`calendar_gates`), so that an entry nobody can read keeps it closed.
-/

namespace Updatedc

variable [Chrono]

/-! ## Dates -/

variable (date : NaiveDate)

namespace NaiveDate

/-- The Monday of the week, representable or not. -/
def monday : Int := date - date.daysFromMonday

omit [Chrono] in
theorem mondayOfWeek_eq_some {date found : NaiveDate} :
    date.mondayOfWeek = some found ↔ NaiveDate.min ≤ date.monday ∧ found = date.monday := by
  unfold mondayOfWeek checkedSub monday
  split_ifs with representable
  · simp [representable, eq_comm]
  · simp [representable]

omit [Chrono] in
/-- Two Mondays are whole weeks apart. -/
theorem monday_sub_monday (date anchor : NaiveDate) : (7 : Int) ∣ date.monday - anchor.monday := by
  unfold monday daysFromMonday
  omega

omit [Chrono] in
theorem weeksBetween_eq_some {anchor date : NaiveDate} {weeks : Int} :
    weeksBetween anchor date = some weeks ↔
      NaiveDate.min ≤ date.monday ∧ NaiveDate.min ≤ anchor.monday ∧
        weeks = (date.monday - anchor.monday) / 7 := by
  have exact_ := Int.tdiv_eq_ediv_of_dvd (monday_sub_monday date anchor)
  unfold weeksBetween
  cases here : date.mondayOfWeek with
  | none =>
    have unrepresentable : ¬ NaiveDate.min ≤ date.monday := fun representable => by
      rw [mondayOfWeek_eq_some.mpr ⟨representable, rfl⟩] at here
      cases here
    simp [unrepresentable]
  | some monday =>
    obtain ⟨representable, rfl⟩ := mondayOfWeek_eq_some.mp here
    cases there : anchor.mondayOfWeek with
    | none =>
      have unrepresentable : ¬ NaiveDate.min ≤ anchor.monday := fun representable => by
        rw [mondayOfWeek_eq_some.mpr ⟨representable, rfl⟩] at there
        cases there
      simp [unrepresentable]
    | some anchorMonday =>
      obtain ⟨anchored, rfl⟩ := mondayOfWeek_eq_some.mp there
      simp [representable, anchored, exact_, eq_comm]

end NaiveDate

/-! ## Recurring windows -/

namespace RolloutWindow

/-- The weeks are counted: the interval is more than one week. -/
def Phased (window : RolloutWindow) (interval : Nat) : Prop :=
  window.intervalWeeks = some interval ∧ 1 < interval

/-- **The days a window is on**: the listed weekdays, or every day, of every week, or of the weeks a
multiple of the interval away from the anchor's, on either side of it. -/
structure On (window : RolloutWindow) (day : NaiveDate) : Prop where
  representable : NaiveDate.min ≤ day
  weekday : window.weekdays = [] ∨ day.weekday ∈ window.weekdays
  week : ∀ interval, window.Phased interval → NaiveDate.min ≤ day.monday ∧
    ∃ anchor, window.anchorWeek.bind parseDate = some anchor ∧
      (interval : Int) ∣ (day.monday - anchor.monday) / 7

/-- The instant `minutes` after midnight of a day. -/
def instant (day : NaiveDate) (minutes : Int) : DateTime :=
  (day * minutesPerDay + minutes) * nanosPerMinute

/-- **The instants a day opens.** An end before the start is on the next day, and equal ends are the
whole day. -/
def Covers (start «end» : Nat) (day : NaiveDate) (now : DateTime) : Prop :=
  if start = «end» then instant day 0 ≤ now ∧ now < instant (day + 1) 0
  else instant day start ≤ now ∧ now < instant (if start < «end» then day else day + 1) «end»

/-- What a window has to say to be usable. -/
structure Usable (window : RolloutWindow) : Prop where
  plain : window.weekdays = [] → window.hasWeekPhase = false
  start : ∃ start, parseMinute window.start = some start
  «end» : ∃ «end», parseMinute window.end = some «end»
  anchored : ∀ interval, window.Phased interval → ∃ anchor,
    window.anchorWeek.bind parseDate = some anchor ∧ NaiveDate.min ≤ anchor.monday

variable {self : RolloutWindow} {now : DateTime} {day : NaiveDate} {start «end» : Nat}

omit [Chrono] in
theorem not_phased_of_plain (plain : self.hasWeekPhase = false) (interval : Nat) :
    ¬ self.Phased interval := by
  rintro ⟨found, more⟩
  simp [hasWeekPhase, found, more] at plain

theorem validateAnchor_eq_ok_iff : self.validateAnchor = .ok () ↔
    ∃ anchor, self.anchorWeek.bind parseDate = some anchor ∧ NaiveDate.min ≤ anchor.monday := by
  unfold validateAnchor
  cases self.anchorWeek with
  | none => simp
  | some raw =>
    rw [Option.bind_some]
    dsimp only
    cases parsed : parseDate raw with
    | none => simp
    | some anchor =>
      dsimp only
      by_cases placed : NaiveDate.min ≤ anchor.monday
      · simp [NaiveDate.mondayOfWeek_eq_some.mpr ⟨placed, rfl⟩, placed]
      · have lost : anchor.mondayOfWeek = none := by
          rw [← Option.not_isSome_iff_eq_none, Option.isSome_iff_exists]
          rintro ⟨monday, found⟩
          exact placed (NaiveDate.mondayOfWeek_eq_some.mp found).1
        simp [lost, placed]

theorem validate_eq_ok_iff : self.validate = .ok () ↔ self.Usable := by
  have phased : self.intervalWeeks.any (· > 1) = true ↔ ∃ interval, self.Phased interval := by
    simp [Option.any_eq_true, Phased]
  unfold validate
  split_ifs with unphased start «end» counts
  · simp only [false_iff]
    intro usable
    simp only [Bool.and_eq_true, List.isEmpty_iff] at unphased
    simp [usable.plain unphased.1] at unphased
  · simp only [false_iff]
    intro usable
    obtain ⟨minute, parsed⟩ := usable.start
    simp [parsed] at start
  · simp only [false_iff]
    intro usable
    obtain ⟨minute, parsed⟩ := usable.end
    simp [parsed] at «end»
  all_goals
    have plain : self.weekdays = [] → self.hasWeekPhase = false := fun every => by
      simpa [every] using unphased
    have starts : ∃ minute, parseMinute self.start = some minute :=
      Option.ne_none_iff_exists'.mp (by simpa using start)
    have ends : ∃ minute, parseMinute self.end = some minute :=
      Option.ne_none_iff_exists'.mp (by simpa using «end»)
  · obtain ⟨interval, here⟩ := phased.mp counts
    rw [validateAnchor_eq_ok_iff]
    exact ⟨fun anchored => ⟨plain, starts, ends, fun _ _ => anchored⟩,
      fun usable => usable.anchored interval here⟩
  · simp only [true_iff]
    exact ⟨plain, starts, ends, fun interval here => absurd (phased.mpr ⟨interval, here⟩) counts⟩

omit [Chrono] in
theorem parseMinute_le {raw : String} {minute : Nat} (parsed : parseMinute raw = some minute) :
    minute ≤ 1440 := by
  unfold parseMinute at parsed
  dsimp only at parsed
  split_ifs at parsed with unseparated
  · cases parsed
  obtain ⟨hours, -, parsed⟩ := Option.bind_eq_some_iff.mp parsed
  obtain ⟨minutes, -, parsed⟩ := Option.bind_eq_some_iff.mp parsed
  split_ifs at parsed with refused
  · cases parsed
  · cases parsed
    simp only [Bool.or_eq_true, Bool.and_eq_true, decide_eq_true_eq, not_or, not_and] at refused
    omega

/-- The week rule: nothing to count for an interval of a week or less. -/
theorem phase_iff :
    (match self.intervalWeeks with
      | none | some 0 | some 1 => true
      | some interval =>
        match self.anchorWeek.bind parseDate with
        | none => false
        | some anchor => (NaiveDate.weeksBetween anchor day).any
          (· % (interval : Int) == 0)) = true ↔
      ∀ interval, self.Phased interval → ∃ anchor,
        self.anchorWeek.bind parseDate = some anchor ∧
          (NaiveDate.weeksBetween anchor day).any (· % (interval : Int) == 0) = true := by
  unfold Phased
  match self.intervalWeeks with
  | none => simp
  | some 0 => simp
  | some 1 => simp
  | some (interval + 2) =>
    cases self.anchorWeek.bind parseDate with
    | none => simp
    | some anchor => simp

/-- The day rule of a window that lists weekdays. -/
theorem isActiveDay_iff_listed (listed : self.weekdays ≠ []) :
    self.isActiveDay day = true ↔ day.weekday ∈ self.weekdays ∧
      ∀ interval, self.Phased interval → ∃ anchor, self.anchorWeek.bind parseDate = some anchor ∧
        (NaiveDate.weeksBetween anchor day).any (· % (interval : Int) == 0) = true := by
  have nonempty : self.weekdays.isEmpty = false := by simpa using listed
  simp only [isActiveDay, nonempty, Bool.false_eq_true, if_false]
  by_cases member : day.weekday ∈ self.weekdays
  · simp only [List.contains_iff_mem.mpr member, Bool.not_true, Bool.false_eq_true, if_false,
      member, true_and]
    exact phase_iff
  · simp [member]

/-- The day rule, on a usable window. -/
theorem Usable.isActiveDay_iff (usable : self.Usable) (representable : NaiveDate.min ≤ day) :
    self.isActiveDay day = true ↔ self.On day := by
  by_cases every : self.weekdays = []
  · have plain := usable.plain every
    simp only [isActiveDay, every, List.isEmpty_nil, if_true, plain, Bool.not_false, true_iff]
    exact ⟨representable, .inl every, fun interval phased =>
      absurd phased (not_phased_of_plain plain interval)⟩
  · rw [isActiveDay_iff_listed every]
    constructor
    · rintro ⟨member, week⟩
      refine ⟨representable, .inr member, fun interval phased => ?_⟩
      obtain ⟨anchor, parsed, counts⟩ := week interval phased
      obtain ⟨weeks, between, divides⟩ := (Option.any_eq_true _ _).mp counts
      obtain ⟨here, -, rfl⟩ := NaiveDate.weeksBetween_eq_some.mp between
      exact ⟨here, anchor, parsed, Int.dvd_of_emod_eq_zero (by simpa using divides)⟩
    · intro on
      refine ⟨on.weekday.resolve_left every, fun interval phased => ?_⟩
      obtain ⟨here, anchor, parsed, divides⟩ := on.week interval phased
      obtain ⟨other, same, there⟩ := usable.anchored interval phased
      cases parsed.symm.trans same
      refine ⟨anchor, parsed, (Option.any_eq_true _ _).mpr
        ⟨_, NaiveDate.weeksBetween_eq_some.mpr ⟨here, there, rfl⟩, ?_⟩⟩
      simpa using Int.emod_eq_zero_of_dvd divides

/-- A window with a span that is on some day says nothing unusable. -/
theorem usable_of_isActiveDay (active : self.isActiveDay day = true)
    (starts : ∃ start, parseMinute self.start = some start)
    (ends : ∃ «end», parseMinute self.end = some «end») : self.Usable := by
  by_cases every : self.weekdays = []
  · have plain : self.hasWeekPhase = false := by
      simpa [isActiveDay, every] using active
    exact ⟨fun _ => plain, starts, ends, fun interval phased =>
      absurd phased (not_phased_of_plain plain interval)⟩
  · refine ⟨fun none => absurd none every, starts, ends, fun interval phased => ?_⟩
    obtain ⟨anchor, parsed, counts⟩ := ((isActiveDay_iff_listed every).mp active).2 interval phased
    obtain ⟨weeks, between, -⟩ := (Option.any_eq_true _ _).mp counts
    exact ⟨anchor, parsed, (NaiveDate.weeksBetween_eq_some.mp between).2.1⟩

omit [Chrono] in
/-- Which day covers an instant: its own, or the one before. -/
theorem covers_iff (startLe : start ≤ 1440) (endLe : «end» ≤ 1440) :
    Covers start «end» day now ↔
      if start < «end» then day = now.dateNaive ∧ start ≤ now.minuteOfDay ∧ now.minuteOfDay < «end»
      else if start = «end» then day = now.dateNaive
      else (day = now.dateNaive ∧ start ≤ now.minuteOfDay) ∨
        (day = now.dateNaive - 1 ∧ now.minuteOfDay < «end») := by
  unfold Covers instant DateTime.dateNaive DateTime.minuteOfDay minutesPerDay nanosPerMinute
  dsimp only [DateTime, NaiveDate] at *
  -- Everything is counted in whole minutes since the epoch.
  obtain ⟨minutes, rest, split, low, high⟩ : ∃ minutes rest : Int,
      now = minutes * 60000000000 + rest ∧ 0 ≤ rest ∧ rest < 60000000000 :=
    ⟨now / 60000000000, now % 60000000000, (Int.ediv_mul_add_emod now _).symm,
      Int.emod_nonneg _ (by decide), Int.emod_lt_of_pos _ (by decide)⟩
  subst split
  split_ifs <;> omega

/-- **The code's two looks find the day there is.** -/
theorem Usable.isActive_iff (usable : self.Usable) (placed : NaiveDate.min ≤ now.dateNaive)
    (starts : parseMinute self.start = some start) (ends : parseMinute self.end = some «end») :
    self.isActive now = true ↔ ∃ day, self.On day ∧ Covers start «end» day now := by
  have today := usable.isActiveDay_iff placed
  simp only [covers_iff (parseMinute_le starts) (parseMinute_le ends), isActive, starts, ends]
  split_ifs with sameDay whole
  · simp only [Bool.and_eq_true, decide_eq_true_eq, today]
    constructor
    · rintro ⟨on, inside⟩
      exact ⟨_, on, rfl, inside⟩
    · rintro ⟨day, on, rfl, inside⟩
      exact ⟨on, inside⟩
  · rw [today]
    constructor
    · intro on
      exact ⟨_, on, rfl⟩
    · rintro ⟨day, on, rfl⟩
      exact on
  · have yesterday : (now.dateNaive.checkedSub 1).any self.isActiveDay = true ↔
        self.On (now.dateNaive - 1) := by
      unfold NaiveDate.checkedSub
      split_ifs with representable
      · exact usable.isActiveDay_iff representable
      · simp only [Option.any_none, Bool.false_eq_true, false_iff]
        exact fun on => representable on.representable
    simp only [Bool.or_eq_true, Bool.and_eq_true, decide_eq_true_eq, today, yesterday, ge_iff_le]
    constructor
    · rintro (⟨late, on⟩ | ⟨early, on⟩)
      · exact ⟨_, on, .inl ⟨rfl, late⟩⟩
      · exact ⟨_, on, .inr ⟨rfl, early⟩⟩
    · rintro ⟨day, on, (⟨rfl, late⟩ | ⟨rfl, early⟩)⟩
      · exact .inl ⟨late, on⟩
      · exact .inr ⟨early, on⟩

/-- A window that cannot be honoured never opens. -/
theorem isActive_of_unusable (unusable : ¬ self.Usable) : self.isActive now = false := by
  unfold isActive
  split
  · rename_i start «end» starts ends
    have never (day : NaiveDate) : self.isActiveDay day = false :=
      Bool.eq_false_iff.mpr fun active =>
        unusable (usable_of_isActiveDay active ⟨start, starts⟩ ⟨«end», ends⟩)
    have yesterday : (now.dateNaive.checkedSub 1).any self.isActiveDay = false := by
      cases now.dateNaive.checkedSub 1 with
      | none => rfl
      | some day => exact never day
    simp [never, yesterday]
  · rfl

end RolloutWindow

/-! ## Arithmetic that panics

The machine's version of the same evaluation: `none` where an operation of the source would panic.
Subtracting dates and dividing by seven cannot. -/

namespace Checked

/-- The range of `u32`. -/
def u32 (value : Nat) : Option Nat := if value < 2 ^ 32 then some value else none

/-- `Duration::days`, within the milliseconds a duration counts. -/
def days (count : Int) : Option Int := if count.natAbs ≤ 106751991167 then some count else none

/-- `i64::rem_euclid`. -/
def remEuclid (value divisor : Int) : Option Int :=
  if divisor = 0 then none else some (value % divisor)

def parseMinute (raw : String) : Option (Option Nat) :=
  let chars := raw.toList
  if !chars.contains ':' then some none
  else
    match parseU32 (chars.takeWhile (· != ':')),
      parseU32 ((chars.dropWhile (· != ':')).drop 1) with
    | some hours, some minutes =>
      if minutes ≥ 60 || hours > 24 || (hours = 24 && minutes ≠ 0) then some none
      else ((u32 (hours * 60)).bind fun product => u32 (product + minutes)).map some
    | _, _ => some none

def mondayOfWeek : Option (Option NaiveDate) :=
  (days date.daysFromMonday).map date.checkedSub

def weeksBetween (anchor date : NaiveDate) : Option (Option Int) :=
  (mondayOfWeek date).bind fun
    | none => some none
    | some monday => (mondayOfWeek anchor).map fun
      | none => none
      | some anchorMonday => some ((monday - anchorMonday).tdiv 7)

def isActiveDay (self : RolloutWindow) (date : NaiveDate) : Option Bool :=
  if self.weekdays.isEmpty then some !self.hasWeekPhase
  else if !self.weekdays.contains date.weekday then some false
  else
    match self.intervalWeeks with
    | none | some 0 | some 1 => some true
    | some interval =>
      match self.anchorWeek.bind parseDate with
      | none => some false
      | some anchor => (weeksBetween anchor date).bind fun
        | none => some false
        | some weeks => (remEuclid weeks interval).map (· == 0)

/-- `hour * 60 + minute` of an instant. -/
def minuteOfDay (now : DateTime) : Option Nat :=
  (u32 ((now.minuteOfDay / 60).toNat * 60)).bind fun hours =>
    u32 (hours + (now.minuteOfDay % 60).toNat)

def isActive (self : RolloutWindow) (now : DateTime) : Option Bool :=
  (parseMinute self.start).bind fun start => (parseMinute self.end).bind fun «end» =>
    match start, «end» with
    | some start, some «end» => (minuteOfDay now).bind fun minute =>
      let today := now.dateNaive
      if start < «end» then
        (isActiveDay self today).map (· && (start ≤ minute && minute < «end»))
      else if start = «end» then isActiveDay self today
      else
        (if minute ≥ start then isActiveDay self today else some false).bind fun late =>
          if late then some true
          else if minute < «end» then
            (days 1).bind fun day =>
              match today.checkedSub day with
              | none => some false
              | some yesterday => isActiveDay self yesterday
          else some false
    | _, _ => some false

variable {self : RolloutWindow} {now : DateTime}

omit [Chrono] in
theorem u32_eq {value : Nat} (fits : value < 4294967296) : u32 value = some value := if_pos fits

omit [Chrono] in
theorem parseMinute_eq (raw : String) : parseMinute raw = some (Updatedc.parseMinute raw) := by
  unfold parseMinute Updatedc.parseMinute
  dsimp only
  split_ifs with unseparated
  · rfl
  cases parseU32 (raw.toList.takeWhile (· != ':')) with
  | none => rfl
  | some hours =>
    cases parseU32 ((raw.toList.dropWhile (· != ':')).drop 1) with
    | none => rfl
    | some minutes =>
      dsimp only [Option.bind_eq_bind, Option.bind_some]
      split_ifs with refused
      · rfl
      · simp only [Bool.or_eq_true, Bool.and_eq_true, decide_eq_true_eq, not_or, not_and] at refused
        rw [u32_eq (by omega), Option.bind_some, u32_eq (by omega)]
        rfl

omit [Chrono] in
theorem mondayOfWeek_eq : mondayOfWeek date = some date.mondayOfWeek := by
  have small : date.daysFromMonday.natAbs ≤ 106751991167 := by
    unfold NaiveDate.daysFromMonday
    omega
  simp [mondayOfWeek, days, small, NaiveDate.mondayOfWeek]

omit [Chrono] in
theorem weeksBetween_eq (anchor date : NaiveDate) :
    weeksBetween anchor date = some (NaiveDate.weeksBetween anchor date) := by
  simp only [weeksBetween, mondayOfWeek_eq, NaiveDate.weeksBetween, Option.bind_some,
    Option.map_some]
  cases date.mondayOfWeek with
  | none => rfl
  | some monday => cases anchor.mondayOfWeek <;> rfl

theorem isActiveDay_eq : isActiveDay self date = some (self.isActiveDay date) := by
  unfold isActiveDay RolloutWindow.isActiveDay
  split_ifs
  · rfl
  · rfl
  match self.intervalWeeks with
  | none => rfl
  | some 0 => rfl
  | some 1 => rfl
  | some (interval + 2) =>
    cases self.anchorWeek.bind parseDate with
    | none => rfl
    | some anchor =>
      have positive : ((interval + 2 : Nat) : Int) ≠ 0 := by omega
      simp only [weeksBetween_eq, Option.bind_some]
      cases NaiveDate.weeksBetween anchor date with
      | none => rfl
      | some weeks =>
        simp only [remEuclid, if_neg positive]
        rfl

omit [Chrono] in
theorem minuteOfDay_eq (now : DateTime) : minuteOfDay now = some now.minuteOfDay.toNat := by
  have low : 0 ≤ now.minuteOfDay := Int.emod_nonneg _ (by decide)
  have high : now.minuteOfDay < 1440 := Int.emod_lt_of_pos _ (by decide)
  unfold minuteOfDay
  generalize now.minuteOfDay = minute at low high
  rw [u32_eq (by omega), Option.bind_some, u32_eq (by omega)]
  exact congrArg some (by omega)

/-- No instant makes the evaluation panic. -/
theorem isActive_eq (self : RolloutWindow) (now : DateTime) :
    isActive self now = some (self.isActive now) := by
  have placed : ((now.minuteOfDay.toNat : Nat) : Int) = now.minuteOfDay :=
    Int.toNat_of_nonneg (Int.emod_nonneg _ (by decide))
  unfold isActive RolloutWindow.isActive
  rw [parseMinute_eq, parseMinute_eq, Option.bind_some, Option.bind_some]
  cases Updatedc.parseMinute self.start with
  | none => rfl
  | some start =>
    cases Updatedc.parseMinute self.end with
    | none => rfl
    | some «end» =>
      have late : now.minuteOfDay.toNat ≥ start ↔ now.minuteOfDay ≥ start := by omega
      have early : now.minuteOfDay.toNat < «end» ↔ now.minuteOfDay < «end» := by omega
      dsimp only
      rw [minuteOfDay_eq, Option.bind_some]
      have day : days 1 = some 1 := rfl
      simp only [isActiveDay_eq, Option.map_some, day, Option.bind_some, late, early]
      split_ifs with sameDay whole started
      · rfl
      · rfl
      all_goals
        cases self.isActiveDay now.dateNaive <;> cases now.dateNaive.checkedSub 1 <;> simp [*]

end Checked

/-- **Windows mean the days they list.** -/
theorem isActive_semantics (self : RolloutWindow) {now : DateTime}
    (placed : NaiveDate.min ≤ now.dateNaive) :
    (self.validate = .ok () → (self.isActive now = true ↔ ∃ start «end» day,
        parseMinute self.start = some start ∧ parseMinute self.end = some «end» ∧
          self.On day ∧ RolloutWindow.Covers start «end» day now)) ∧
      (self.validate ≠ .ok () → self.isActive now = false) ∧
      Checked.isActive self now = some (self.isActive now) := by
  refine ⟨fun valid => ?_, fun invalid => ?_, Checked.isActive_eq self now⟩
  · have usable := RolloutWindow.validate_eq_ok_iff.mp valid
    obtain ⟨start, starts⟩ := usable.start
    obtain ⟨«end», ends⟩ := usable.end
    rw [usable.isActive_iff placed starts ends]
    constructor
    · rintro ⟨day, on, covers⟩
      exact ⟨start, «end», day, starts, ends, on, covers⟩
    · rintro ⟨start', end', day, starts', ends', on, covers⟩
      cases starts.symm.trans starts'
      cases ends.symm.trans ends'
      exact ⟨day, on, covers⟩
  · exact RolloutWindow.isActive_of_unusable
      fun usable => invalid (RolloutWindow.validate_eq_ok_iff.mpr usable)

/-! ## Dated calendars -/

namespace CalendarEntry

/-- The instant is inside the entry's span. -/
def Contains (entry : CalendarEntry) (now : DateTime) : Prop :=
  ∃ start «end», entry.span = some (start, «end») ∧ start ≤ now ∧ now < «end»

/-- The entry can be evaluated, and its span is over. -/
def Over (entry : CalendarEntry) (now : DateTime) : Prop :=
  ∃ start «end», entry.span = some (start, «end») ∧ «end» ≤ now

variable {entry : CalendarEntry} {now later : DateTime}

theorem Over.mono (past : entry.Over now) (after : now ≤ later) : entry.Over later := by
  obtain ⟨start, «end», found, ended⟩ := past
  exact ⟨start, «end», found, ended.trans after⟩

/-- What `validate` accepts is what has a span. -/
theorem validate_eq_ok_iff : entry.validate = .ok () ↔ entry.span.isSome := by
  unfold validate
  split
  · rename_i undated
    simp [span, undated]
  · rename_i unparsed _
    simp [span, unparsed]
  · rename_i unparsed _ _
    simp [span, unparsed]
  · rename_i date start «end» dated starts ends
    split_ifs with backward unplaced
    · simp [span, dated, starts, ends, backward]
    · simpa using unplaced
    · simpa [Option.isSome_iff_ne_none] using unplaced

end CalendarEntry

section
variable {calendar : List CalendarEntry} {now : DateTime}

theorem mem_usableSpans {span : DateTime × DateTime} :
    span ∈ usableSpans calendar ↔ ∃ entry ∈ calendar, entry.span = some span :=
  List.mem_filterMap

theorem length_usableSpans_eq_iff :
    (usableSpans calendar).length = calendar.length ↔ ∀ entry ∈ calendar, entry.span.isSome := by
  induction calendar with
  | nil => simp [usableSpans]
  | cons entry rest ih =>
    have shorter : (usableSpans rest).length ≤ rest.length := List.length_filterMap_le _ _
    unfold usableSpans at ih shorter ⊢
    cases found : entry.span with
    | none =>
      simp only [List.filterMap_cons, found, List.length_cons, List.forall_mem_cons]
      simp only [Option.isSome_none, Bool.false_eq_true, false_and, iff_false]
      omega
    | some span => simp [found, ih]

theorem ranOut_eq_true_iff :
    ranOut calendar (usableSpans calendar) now = true ↔
      calendar ≠ [] ∧ ∀ entry ∈ calendar, entry.Over now := by
  simp only [ranOut, Bool.and_eq_true, beq_iff_eq, length_usableSpans_eq_iff, List.all_eq_true,
    Bool.not_eq_true', List.isEmpty_eq_false_iff, decide_eq_true_eq, ge_iff_le]
  constructor
  · rintro ⟨⟨usable, some_⟩, ended⟩
    constructor
    · rintro rfl
      exact some_ rfl
    · intro entry member
      obtain ⟨⟨start, «end»⟩, found⟩ := Option.isSome_iff_exists.mp (usable entry member)
      exact ⟨start, «end», found, ended _ (mem_usableSpans.mpr ⟨entry, member, found⟩)⟩
  · rintro ⟨some_, past⟩
    have usable : ∀ entry ∈ calendar, entry.span.isSome := fun entry member => by
      obtain ⟨start, «end», found, -⟩ := past entry member
      simp [found]
    refine ⟨⟨usable, fun none => some_ ?_⟩, fun span member => ?_⟩
    · have same := length_usableSpans_eq_iff.mpr usable
      rw [none] at same
      exact List.eq_nil_of_length_eq_zero same.symm
    · obtain ⟨entry, listed, found⟩ := mem_usableSpans.mp member
      obtain ⟨start, «end», found', ended⟩ := past entry listed
      cases found.symm.trans found'
      exact ended

theorem calendarOpen_eq_true_iff :
    calendarOpen calendar now = true ↔
      calendar = [] ∨ (∃ entry ∈ calendar, entry.Contains now) ∨
        ∀ entry ∈ calendar, entry.Over now := by
  unfold calendarOpen
  by_cases none : calendar = []
  · simp [none]
  rw [if_neg (by simpa using none), Bool.or_eq_true, ranOut_eq_true_iff]
  simp only [none, false_or, List.any_eq_true, Bool.and_eq_true, decide_eq_true_eq, mem_usableSpans]
  refine or_congr ⟨?_, ?_⟩ (and_iff_right none)
  · rintro ⟨⟨start, «end»⟩, ⟨entry, member, found⟩, within⟩
    exact ⟨entry, member, start, «end», found, within⟩
  · rintro ⟨entry, member, start, «end», found, within⟩
    exact ⟨(start, «end»), ⟨entry, member, found⟩, within⟩

end

/-- **A calendar gates until it has run out.** -/
theorem calendar_gates (calendar : List CalendarEntry) (now : DateTime) :
    (calendarOpen calendar now = true ↔
      calendar = [] ∨ (∃ entry ∈ calendar, entry.Contains now) ∨
        ∀ entry ∈ calendar, entry.Over now) ∧
      (calendarExhausted calendar now = true →
        ∀ later, now ≤ later → calendarExhausted calendar later = true) ∧
      (calendar ≠ [] → calendarExhausted calendar now = false →
        (∀ entry ∈ calendar, ¬ entry.Contains now) → calendarOpen calendar now = false) ∧
      ∀ entry ∈ calendar, entry.validate ≠ .ok () →
        (calendarOpen calendar now = true ↔ ∃ entry ∈ calendar, entry.Contains now) := by
  refine ⟨calendarOpen_eq_true_iff, ?_, ?_, ?_⟩
  · intro exhausted later after
    obtain ⟨some_, past⟩ := ranOut_eq_true_iff.mp exhausted
    exact ranOut_eq_true_iff.mpr ⟨some_, fun entry member => (past entry member).mono after⟩
  · intro some_ gating outside
    refine Bool.eq_false_iff.mpr fun isOpen => ?_
    rcases calendarOpen_eq_true_iff.mp isOpen with none | ⟨entry, member, inside⟩ | past
    · exact some_ none
    · exact outside entry member inside
    · exact Bool.eq_false_iff.mp gating (ranOut_eq_true_iff.mpr ⟨some_, past⟩)
  · intro broken member invalid
    rw [calendarOpen_eq_true_iff]
    constructor
    · rintro (rfl | inside | past)
      · cases member
      · exact inside
      · obtain ⟨start, «end», found, -⟩ := past broken member
        exact absurd (CalendarEntry.validate_eq_ok_iff.mpr (by simp [found])) invalid
    · exact fun inside => .inr (.inl inside)

end Updatedc

namespace Updatedc.Schedules.Sample

/-- A calendar that reads one date. -/
scoped instance : Chrono where
  parseDate raw := if raw = "1969-12-29" then some (-3) else none

/-- Thursday and Friday of every other week. -/
def biweekly : RolloutWindow where
  weekdays := [.thursday, .friday]
  intervalWeeks := some 2
  anchorWeek := some "1969-12-29"

theorem isActive_semantics_biweekly :
    NaiveDate.min ≤ DateTime.dateNaive 0 ∧
      biweekly.validate = .ok () ∧ (biweekly.isActive 0 = true ↔ ∃ start «end» day,
        parseMinute biweekly.start = some start ∧ parseMinute biweekly.end = some «end» ∧
          biweekly.On day ∧ RolloutWindow.Covers start «end» day 0) :=
  ⟨by decide, by decide,
    (isActive_semantics biweekly (by decide)).1 (by decide)⟩

/-- The first Friday of the representable range, which begins on a Thursday. -/
def firstFriday : NaiveDate := NaiveDate.min + 1

/-- **The first week has no Monday.** Its Friday is an even number of weeks from the anchor and
its neighbours are dates, but the week cannot be counted, and the window stays closed. -/
theorem isActive_firstFriday :
    let now := RolloutWindow.instant firstFriday 0
    biweekly.validate = .ok () ∧ NaiveDate.min ≤ firstFriday - 1 ∧
      firstFriday.weekday ∈ biweekly.weekdays ∧
      (2 : Int) ∣ (firstFriday.monday - NaiveDate.monday (-3)) / 7 ∧
      parseMinute biweekly.start = some 0 ∧ parseMinute biweekly.end = some 1440 ∧
      RolloutWindow.Covers 0 1440 firstFriday now ∧ biweekly.isActive now = false := by
  refine ⟨by decide, by decide, by decide, by decide,
    by decide, by decide, ?_, by decide⟩
  unfold RolloutWindow.Covers
  decide

/-- A calendar with no entry is open and has not run out. -/
theorem calendarOpen_nil :
    calendarExhausted [] 0 = false ∧ (∀ entry ∈ ([] : List CalendarEntry), ¬ entry.Contains 0) ∧
      calendarOpen [] 0 = true :=
  ⟨by decide, nofun, by decide⟩

end Updatedc.Schedules.Sample
