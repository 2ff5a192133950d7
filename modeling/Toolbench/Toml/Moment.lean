import Toolbench.Text.Decimal

/-!
# Dates and times of TOML documents

A moment is a date, a time of day, or both, and then it may tell its difference from universal
time. Dates must exist in the calendar; a time may leave out its seconds, and a leap second is
allowed. A moment may be written in several ways, but it has one text: between date and time
stands a capital letter, and a fraction of a second has at most nine digits and no zeros at its
end.
-/

namespace Toolbench.Toml

/-- A day of the calendar. -/
structure Date where
  year : Nat
  month : Nat
  day : Nat
deriving DecidableEq, Repr

/-- A second of a minute, with a fraction in nanoseconds if one is given. -/
structure Second where
  count : Nat
  nanoseconds : Option Nat
deriving DecidableEq, Repr

/-- A time of day, to the minute or more exact. -/
structure Time where
  hour : Nat
  minute : Nat
  second : Option Second
deriving DecidableEq, Repr

/-- A difference from universal time. -/
inductive Offset where
  /-- No difference, marked by a letter. -/
  | universal
  /-- A difference in minutes, positive to the east. -/
  | minutes (count : Int)
deriving DecidableEq, Repr

/-- A date, a time of day, or both. -/
inductive Moment where
  | dateOnly (date : Date)
  | timeOnly (time : Time)
  | both (date : Date) (time : Time) (offset : Option Offset)
deriving DecidableEq, Repr

namespace Moment

/-- Read a number of a fixed count of digits and return the text after it. -/
def fixed? (count : Nat) (cs : List Char) : Option (Nat × List Char) :=
  if count ≤ cs.length then (Text.Decimal.readNat? (cs.take count)).map (·, cs.drop count)
  else none

/-- A number in a fixed count of digits, with zeros in front. -/
def fixedText (count n : Nat) : List Char :=
  List.leftpad count '0' (Text.Decimal.write n)

/-! ## Dates -/

/-- The number of days in a month of a year. -/
def daysIn (year month : Nat) : Nat :=
  match month with
  | 2 => if year % 4 = 0 ∧ (year % 100 ≠ 0 ∨ year % 400 = 0) then 29 else 28
  | 4 | 6 | 9 | 11 => 30
  | _ => 31

/-- Read a date and return the text after it. -/
def date? (cs : List Char) : Option (Date × List Char) := do
  let (year, cs) ← fixed? 4 cs
  let cs ← ['-'].isPrefixOf? cs
  let (month, cs) ← fixed? 2 cs
  let cs ← ['-'].isPrefixOf? cs
  let (day, cs) ← fixed? 2 cs
  if 1 ≤ month ∧ month ≤ 12 ∧ 1 ≤ day ∧ day ≤ daysIn year month then some (⟨year, month, day⟩, cs)
  else none

/-- The text of a date. -/
def dateText (date : Date) : List Char :=
  fixedText 4 date.year ++ '-' :: fixedText 2 date.month ++ '-' :: fixedText 2 date.day

/-- The text has the form of a date, so that a time may follow after one space. -/
def isDateForm (cs : List Char) : Bool :=
  cs.length = 10 && cs.zipIdx.all fun (c, i) => if i = 4 || i = 7 then c == '-' else c.isDigit

/-! ## Times -/

/-- Read an hour and a minute and return the text after them. -/
def hourMinute? (cs : List Char) : Option ((Nat × Nat) × List Char) := do
  let (hour, cs) ← fixed? 2 cs
  let cs ← [':'].isPrefixOf? cs
  let (minute, cs) ← fixed? 2 cs
  if hour < 24 ∧ minute < 60 then some ((hour, minute), cs) else none

/-- The text of an hour and a minute. -/
def hourMinuteText (hour minute : Nat) : List Char :=
  fixedText 2 hour ++ ':' :: fixedText 2 minute

/-- Read the fraction of a second after its point, if there is a point. Digits beyond the ninth are
dropped. -/
def fraction? : List Char → Option (Option Nat × List Char)
  | '.' :: cs =>
      let digits := cs.takeWhile Char.isDigit
      if digits.isEmpty then none
      else
        let nanoseconds := Text.Decimal.readNat? (List.rightpad 9 '0' (digits.take 9))
        some (nanoseconds, cs.dropWhile Char.isDigit)
  | cs => some (none, cs)

/-- The digits of a fraction of a second. Zeros at the end are left out, but one digit remains. -/
def fractionText (nanoseconds : Nat) : List Char :=
  if nanoseconds = 0 then ['0']
  else ((fixedText 9 nanoseconds).reverse.dropWhile (· == '0')).reverse

/-- Read the second of a time after its colon, if there is a colon. -/
def second? : List Char → Option (Option Second × List Char)
  | ':' :: cs => do
      let (count, cs) ← fixed? 2 cs
      let (nanoseconds, cs) ← fraction? cs
      if count ≤ 60 then some (some ⟨count, nanoseconds⟩, cs) else none
  | cs => some (none, cs)

/-- The text of a second, after the minute. -/
def secondText (second : Second) : List Char :=
  ':' :: fixedText 2 second.count ++
    (second.nanoseconds.map fun nanoseconds => '.' :: fractionText nanoseconds).getD []

/-- Read a time and return the text after it. -/
def time? (cs : List Char) : Option (Time × List Char) := do
  let ((hour, minute), cs) ← hourMinute? cs
  let (second, cs) ← second? cs
  pure (⟨hour, minute, second⟩, cs)

/-- The text of a time. -/
def timeText (time : Time) : List Char :=
  hourMinuteText time.hour time.minute ++ (time.second.map secondText).getD []

/-! ## Differences from universal time -/

/-- Read a difference from universal time, which ends the text. -/
def offset? : List Char → Option Offset
  | ['Z'] | ['z'] => some .universal
  | c :: cs => do
      let ((hour, minute), rest) ← hourMinute? cs
      let minutes : Int := 60 * hour + minute
      match c, rest with
      | '+', [] => some (.minutes minutes)
      | '-', [] => some (.minutes (-minutes))
      | _, _ => none
  | [] => none

/-- The text of a difference from universal time. No difference counts as positive. -/
def offsetText : Offset → List Char
  | .universal => ['Z']
  | .minutes count =>
      (if count < 0 then '-' else '+') ::
        hourMinuteText (count.natAbs / 60) (count.natAbs % 60)

/-! ## Moments -/

/-- Read what follows a date: nothing, or a time and perhaps its difference from universal time. -/
def afterDate? (date : Date) : List Char → Option Moment
  | [] => some (.dateOnly date)
  | c :: cs =>
      if c = 'T' ∨ c = 't' ∨ c = ' ' then do
        let (time, rest) ← time? cs
        if rest.isEmpty then some (.both date time none)
        else (offset? rest).map fun offset => .both date time (some offset)
      else none

/-- Read a moment. -/
def read? (cs : List Char) : Option Moment :=
  match date? cs with
  | some (date, rest) => afterDate? date rest
  | none =>
      match time? cs with
      | some (time, []) => some (.timeOnly time)
      | _ => none

/-- The text of a moment. -/
def text : Moment → String
  | .dateOnly date => String.ofList (dateText date)
  | .timeOnly time => String.ofList (timeText time)
  | .both date time offset =>
      String.ofList (dateText date ++ 'T' :: timeText time ++ (offset.map offsetText).getD [])

example : (read? "1979-05-27 07:32:00.500z".toList).map text = some "1979-05-27T07:32:00.5Z" := by
  cbv
example : (read? "07:32:00.000".toList).map text = some "07:32:00.0" := by cbv

end Moment

end Toolbench.Toml
