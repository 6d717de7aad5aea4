import Dagnats.Dag.Path

/-!
# Cron expressions

`internal/cronexpr`: five fields, each a comma list of `*`, `*/N`, `N-M` and `N`,
and the day rule of POSIX. What a clock shows in a time zone is not computed
here; an expression is matched against it.

A step that overflows the integers of the source adds negative values to its
field there, which no clock shows.
-/

namespace Dagnats.Cron

/-- What a clock shows. -/
structure Civil where
  minute : ℤ
  hour : ℤ
  day : ℤ
  month : ℤ
  weekday : ℤ

structure CronExpr where
  minutes : List ℤ
  hours : List ℤ
  daysOfMonth : List ℤ
  months : List ℤ
  daysOfWeek : List ℤ
  dayOfMonthRestricted : Bool
  dayOfWeekRestricted : Bool
  deriving DecidableEq

namespace CronExpr

/-- The day of the month or the day of the week, if both are restricted. -/
def dayMatches (c : CronExpr) (t : Civil) : Bool :=
  let dayOfMonthMatches := c.daysOfMonth.contains t.day
  let dayOfWeekMatches := c.daysOfWeek.contains t.weekday
  if c.dayOfMonthRestricted && c.dayOfWeekRestricted then
    dayOfMonthMatches || dayOfWeekMatches
  else dayOfMonthMatches && dayOfWeekMatches

/-- `Matches`. -/
def matchesTime (c : CronExpr) (t : Civil) : Bool :=
  c.minutes.contains t.minute && c.hours.contains t.hour && c.months.contains t.month &&
    c.dayMatches t

end CronExpr

def rangeInts (lo hi : ℤ) : List ℤ :=
  (List.range (hi - lo + 1).toNat).map fun i => lo + i

def parseFieldValue (value : String) (lo hi : ℤ) : Except String (List ℤ) :=
  if value = "*" then .ok (rangeInts lo hi)
  else
    match value.toList with
    | '*' :: '/' :: rest =>
      match atoi (String.ofList rest) with
      | some step =>
        if step ≤ 0 then .error ("invalid step: \"" ++ value ++ "\"")
        else .ok ((rangeInts lo hi).filter fun i => (i - lo) % step = 0)
      | none => .error ("invalid step: \"" ++ value ++ "\"")
    | cs =>
      if cs.contains '-' then
        match atoi (String.ofList (cs.takeWhile (· ≠ '-'))) with
        | none => .error ("invalid range start: \"" ++ value ++ "\"")
        | some first =>
          match atoi (String.ofList ((cs.dropWhile (· ≠ '-')).drop 1)) with
          | none => .error ("invalid range end: \"" ++ value ++ "\"")
          | some last =>
            if first < lo ∨ hi < last ∨ last < first then
              .error ("range out of bounds: \"" ++ value ++ "\"")
            else .ok (rangeInts first last)
      else
        match atoi value with
        | none => .error ("invalid value: \"" ++ value ++ "\"")
        | some n =>
          if n < lo ∨ hi < n then
            .error ("value " ++ toString n ++ " out of range [" ++ toString lo ++ ", " ++
              toString hi ++ "]")
          else .ok [n]

/-- The label is what `ParseCron` puts in front of an error. -/
def parseField (label field : String) (lo hi : ℤ) : Except String (List ℤ) :=
  if field = "" then .error (label ++ ": empty field")
  else
    (splitString field ",").foldlM (fun result part =>
      if part = "" then .error (label ++ ": empty item in \"" ++ field ++ "\"")
      else
        match parseFieldValue part lo hi with
        | .ok values => .ok (result ++ values)
        | .error e => .error (label ++ ": " ++ e)) []

def isSpace (c : Char) : Bool :=
  let n := c.toNat
  (9 ≤ n && n ≤ 13) || n = 32 || n = 0x85 || n = 0xa0 || n = 0x1680 || (0x2000 ≤ n && n ≤ 0x200a) ||
    n = 0x2028 || n = 0x2029 || n = 0x202f || n = 0x205f || n = 0x3000

/-- `strings.Fields`. -/
def fieldsOf (s : String) : List String :=
  ((s.toList.splitOnP isSpace).filter fun word => !word.isEmpty).map String.ofList

def exprLengthMax : ℕ := 256

def parseCron (expr : String) : Except String CronExpr :=
  if exprLengthMax < expr.utf8ByteSize then
    .error ("cron expression is " ++ toString expr.utf8ByteSize ++ " bytes; max " ++
      toString exprLengthMax)
  else
    match fieldsOf expr with
    | [minute, hour, dayOfMonth, month, dayOfWeek] => do
      let minutes ← parseField "minute field" minute 0 59
      let hours ← parseField "hour field" hour 0 23
      let daysOfMonth ← parseField "day-of-month field" dayOfMonth 1 31
      let months ← parseField "month field" month 1 12
      let daysOfWeek ← parseField "day-of-week field" dayOfWeek 0 6
      return { minutes := minutes, hours := hours, daysOfMonth := daysOfMonth
               months := months, daysOfWeek := daysOfWeek
               dayOfMonthRestricted := dayOfMonth ≠ "*"
               dayOfWeekRestricted := dayOfWeek ≠ "*" }
    | fields =>
      .error ("dagnats cron expressions use 5 fields " ++
        "(minute hour day-of-month month day-of-week); got " ++ toString fields.length ++
        ". Drop any leading seconds field if present")

end Dagnats.Cron
