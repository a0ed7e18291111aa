import Mathlib

/-!
# Rollout windows (`updatec/src/window.rs`)

When a set may admit new rollouts: recurring UTC windows, and a calendar of dated entries that
expires. Everything is evaluated against a caller-supplied `now`.

An instant is its nanoseconds since the Unix epoch and a date its days since then, so that the
arithmetic is the integers'. The `chrono` crate's date parser is a parameter, and its representable
range is kept, because the source checks for it.
-/

namespace Updatedc

/-- `DateTime<Utc>`: nanoseconds since the Unix epoch. -/
abbrev DateTime := Int

/-- `NaiveDate`: days since 1970-01-01. -/
abbrev NaiveDate := Int

def nanosPerMinute : Int := 60 * 1000000000
def minutesPerDay : Int := 24 * 60

namespace DateTime

def dateNaive (now : DateTime) : NaiveDate := now / (minutesPerDay * nanosPerMinute)

/-- `hour * 60 + minute`. -/
def minuteOfDay (now : DateTime) : Int := now / nanosPerMinute % minutesPerDay

end DateTime

/-- `-262143-01-01`, where the representable range begins. -/
def NaiveDate.min : NaiveDate := -96465292

/-- `+262142-12-31`, where it ends. -/
def NaiveDate.max : NaiveDate := 95026236

/-- `Weekday`, in the crate's order. -/
inductive Weekday where
  | monday | tuesday | wednesday | thursday | friday | saturday | sunday
  deriving DecidableEq

def Weekday.ofIndex : Int → Weekday
  | 0 => monday | 1 => tuesday | 2 => wednesday | 3 => thursday
  | 4 => friday | 5 => saturday | _ => sunday

namespace NaiveDate

variable (date : NaiveDate)

/-- Day 0 was a Thursday. -/
def daysFromMonday : Int := (date + 3) % 7

def weekday : Weekday := .ofIndex date.daysFromMonday

def checkedSub (days : Int) : Option NaiveDate :=
  if NaiveDate.min ≤ date - days then some (date - days) else none

/-- Midnight plus a time of day, where the timeline reaches that far. -/
def checkedInstant (minutes : Nat) : Option DateTime :=
  let total := date * minutesPerDay + minutes
  if total / minutesPerDay ≤ NaiveDate.max then some (total * nanosPerMinute) else none

def mondayOfWeek : Option NaiveDate := date.checkedSub date.daysFromMonday

/-- Whole weeks from `anchor`'s week to `date`'s week, Monday-based and signed. -/
def weeksBetween (anchor date : NaiveDate) : Option Int := do
  let monday ← mondayOfWeek date
  let anchorMonday ← mondayOfWeek anchor
  return (monday - anchorMonday).tdiv 7

end NaiveDate

/-- `str::parse::<u32>`: an optional `+`, then digits, within 32 bits. -/
def parseU32 (raw : List Char) : Option Nat :=
  let digits := match raw with
    | '+' :: rest => rest
    | _ => raw
  if digits = [] || !digits.all Char.isDigit then none
  else
    let value := digits.foldl (fun value c => value * 10 + (c.toNat - '0'.toNat)) 0
    if value < 2 ^ 32 then some value else none

/-- Parse `HH:MM` into minutes since midnight, `24:00` being the end of the day. -/
def parseMinute (raw : String) : Option Nat := do
  let chars := raw.toList
  if !chars.contains ':' then none
  let hours ← parseU32 (chars.takeWhile (· != ':'))
  let minutes ← parseU32 ((chars.dropWhile (· != ':')).drop 1)
  if minutes ≥ 60 || hours > 24 || (hours = 24 && minutes ≠ 0) then none
  return hours * 60 + minutes

/-- The `chrono` crate's `NaiveDate::parse_from_str(raw, "%Y-%m-%d")`. -/
class Chrono where
  parseDate : String → Option NaiveDate

export Chrono (parseDate)

/-! ## Recurring windows -/

structure RolloutWindow where
  weekdays : List Weekday := []
  intervalWeeks : Option Nat := none
  anchorWeek : Option String := none
  start : String := "00:00"
  «end» : String := "24:00"
  deriving DecidableEq

namespace RolloutWindow

variable (self : RolloutWindow)

/-- Whether the window asks for an every-Nth-week phase. -/
def hasWeekPhase : Bool :=
  self.intervalWeeks.any (· > 1) || self.anchorWeek.isSome

variable [Chrono]

/-- Whether the day rule selects `date`, ignoring the time of day. -/
def isActiveDay (date : NaiveDate) : Bool :=
  if self.weekdays.isEmpty then !self.hasWeekPhase
  else if !self.weekdays.contains date.weekday then false
  else
    match self.intervalWeeks with
    | none | some 0 | some 1 => true
    | some interval =>
      match self.anchorWeek.bind parseDate with
      | none => false
      | some anchor => (NaiveDate.weeksBetween anchor date).any (· % (interval : Int) == 0)

/-- Whether rollouts are allowed at `now`. A window that cannot be parsed never opens. -/
def isActive (now : DateTime) : Bool :=
  match parseMinute self.start, parseMinute self.end with
  | some start, some «end» =>
    let today := now.dateNaive
    let minute := now.minuteOfDay
    if start < «end» then self.isActiveDay today && (start ≤ minute && minute < «end»)
    else if start = «end» then self.isActiveDay today
    else
      -- Wraps past midnight: the early hours belong to the day after an on-day.
      (minute ≥ start && self.isActiveDay today)
        || (minute < «end» && (today.checkedSub 1).any self.isActiveDay)
  | _, _ => false

/-- The anchor an every-Nth-week phase is counted from. -/
def validateAnchor : Except String Unit :=
  match self.anchorWeek with
  | none => .error "intervalWeeks > 1 requires anchorWeek"
  | some raw =>
    match parseDate raw with
    | none => .error s!"anchorWeek {raw.quote} is not a UTC YYYY-MM-DD date"
    | some anchor =>
      if anchor.mondayOfWeek.isNone then
        .error s!"anchorWeek {raw.quote} is not in a representable week"
      else .ok ()

/-- Reject a window whose fields cannot be honoured. -/
def validate : Except String Unit :=
  if self.weekdays.isEmpty && self.hasWeekPhase then
    .error "intervalWeeks/anchorWeek require weekdays"
  else if (parseMinute self.start).isNone then
    .error s!"start {self.start.quote} is not a UTC HH:MM time"
  else if (parseMinute self.end).isNone then
    .error s!"end {self.end.quote} is not a UTC HH:MM time"
  else if self.intervalWeeks.any (· > 1) then self.validateAnchor
  else .ok ()

end RolloutWindow

/-- No windows is always open. -/
def isOpen [Chrono] (windows : List RolloutWindow) (now : DateTime) : Bool :=
  windows.isEmpty || windows.any (·.isActive now)

/-! ## Dated entries -/

structure CalendarEntry where
  date : String
  start : String := "00:00"
  «end» : String := "24:00"
  deriving DecidableEq

section
variable [Chrono]

/-- The entry's `[start, end)` span, if its fields can be honoured. -/
def CalendarEntry.span (self : CalendarEntry) : Option (DateTime × DateTime) := do
  let date ← parseDate self.date
  let start ← parseMinute self.start
  let «end» ← parseMinute self.end
  if «end» ≤ start then none
  return (← date.checkedInstant start, ← date.checkedInstant «end»)

/-- Reject an entry whose fields cannot be honoured. -/
def CalendarEntry.validate (self : CalendarEntry) : Except String Unit :=
  match parseDate self.date, parseMinute self.start, parseMinute self.end with
  | none, _, _ => .error s!"date {self.date.quote} is not a UTC YYYY-MM-DD date"
  | _, none, _ => .error s!"start {self.start.quote} is not a UTC HH:MM time"
  | _, _, none => .error s!"end {self.end.quote} is not a UTC HH:MM time"
  | some _, some start, some «end» =>
    if «end» ≤ start then
      .error (s!"end {self.end.quote} must be after start {self.start.quote} " ++
        "(dated entries do not wrap past midnight)")
    else if self.span.isNone then
      .error s!"date {self.date.quote} is too far in the future to carry a time-of-day span"
    else .ok ()

variable (calendar : List CalendarEntry)

def usableSpans : List (DateTime × DateTime) :=
  calendar.filterMap CalendarEntry.span

/-- Every entry is usable and in the past, and there is one. -/
def ranOut (spans : List (DateTime × DateTime)) (now : DateTime) : Bool :=
  spans.length == calendar.length && !spans.isEmpty && spans.all fun (_, «end») => now ≥ «end»

/-- Whether a calendar of dated entries admits rollouts at `now`. -/
def calendarOpen (now : DateTime) : Bool :=
  if calendar.isEmpty then true
  else
    let spans := usableSpans calendar
    spans.any (fun (start, «end») => start ≤ now && now < «end») || ranOut calendar spans now

def calendarExhausted (now : DateTime) : Bool :=
  ranOut calendar (usableSpans calendar) now

end

end Updatedc
