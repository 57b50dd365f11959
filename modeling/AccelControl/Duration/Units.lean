import AccelControl.Duration.Basic
import AccelControl.Text.Blank

/-! Spans of time written as numbers with units, such as `1h 30m` or `2.5s`.

A month is the twelfth part of a year, and a year has 365 days and a quarter. Numbers may have a
fraction if it denotes whole nanoseconds, or whole seconds for hours and longer units.
-/

set_option autoImplicit false

namespace AccelControl.Duration

inductive TimeUnit where
  | nanosecond
  | microsecond
  | millisecond
  | second
  | minute
  | hour
  | day
  | week
  | month
  | year
  deriving DecidableEq, Repr

namespace TimeUnit

def spellings : List (TimeUnit × List String) := [
  (.nanosecond, ["nanos", "nsec", "ns"]),
  (.microsecond, ["usec", "us", "µs"]),
  (.millisecond, ["millis", "msec", "ms"]),
  (.second, ["seconds", "second", "secs", "sec", "s"]),
  (.minute, ["minutes", "minute", "min", "mins", "m"]),
  (.hour, ["hours", "hour", "hrs", "hr", "h"]),
  (.day, ["days", "day", "d"]),
  (.week, ["weeks", "week", "wks", "wk", "w"]),
  (.month, ["months", "month", "M"]),
  (.year, ["years", "year", "yrs", "yr", "y"])]

def ofSpelling? (name : List Char) : Option TimeUnit :=
  (spellings.find? fun entry => entry.2.any fun s => s.toList == name).map (·.1)

/-- The seconds and the nanoseconds in one unit; one of the two is zero. -/
def size : TimeUnit → Nat × Nat
  | .nanosecond => (0, 1)
  | .microsecond => (0, 1000)
  | .millisecond => (0, 1000000)
  | .second => (1, 0)
  | .minute => (60, 0)
  | .hour => (3600, 0)
  | .day => (86400, 0)
  | .week => (604800, 0)
  | .month => (2630016, 0)
  | .year => (31557600, 0)

/-- The size of a unit for its fractions: for units up to a minute in nanoseconds alone. A
nanosecond has no fractions. -/
def fractionSize? : TimeUnit → Option (Nat × Nat)
  | .nanosecond => none
  | .second => some (0, 1000000000)
  | .minute => some (0, 60000000000)
  | unit => some unit.size

end TimeUnit

def word? (n : Nat) : Option Nat := if n < 0x10000000000000000 then some n else none

def add? (d : Duration) (seconds nanos : Nat) : Option Duration :=
  (word? (d.nanos + nanos)).bind fun nanos => ofParts? (d.seconds + seconds) nanos

/-- A decimal fraction in lowest written terms: the digits behind the point as a number, and the
power of ten below it. -/
structure Fraction where
  numerator : Nat
  denominator : Nat
  deriving DecidableEq, Repr

def addWhole? (d : Duration) (n : Nat) (unit : TimeUnit) : Option Duration := do
  let seconds ← word? (n * unit.size.1)
  let nanos ← word? (n * unit.size.2)
  d.add? seconds nanos

def addFraction? (d : Duration) (f : Fraction) (unit : TimeUnit) : Option Duration := do
  let (seconds, nanos) ← unit.fractionSize?
  let seconds ← word? (f.numerator * seconds)
  let nanos ← word? (f.numerator * nanos)
  if seconds % f.denominator = 0 ∧ nanos % f.denominator = 0 then
    d.add? (seconds / f.denominator) (nanos / f.denominator)
  else none

def addSpelled? (d : Duration) (n : Nat) (fraction : Option Fraction) (unit : List Char) :
    Option Duration := do
  let unit ← TimeUnit.ofSpelling? unit
  let d ← d.addWhole? n unit
  match fraction with
  | none => some d
  | some f => d.addFraction? f unit

inductive ReaderState where
  /-- In front of a number; `last` tells whether the text may end here. -/
  | between (last : Bool)
  /-- Inside the digits of a number. -/
  | number (n : Nat)
  /-- Behind the point of a number, with the fraction read so far. -/
  | fraction (n : Nat) (f : Fraction)
  /-- Inside the letters of a unit, last first. -/
  | unit (n : Nat) (fraction : Option Fraction) (letters : List Char)
  deriving DecidableEq, Repr

def digit? (c : Char) : Option Nat :=
  if '0' ≤ c ∧ c ≤ '9' then some (c.toNat - 0x30) else none

def isUnitLetter (c : Char) : Bool :=
  ('a' ≤ c && c ≤ 'z') || ('A' ≤ c && c ≤ 'Z') || c == 'µ'

def Fraction.push? (f : Fraction) (digit : Nat) : Option Fraction := do
  let denominator ← word? (f.denominator * 10)
  let numerator ← word? (f.numerator * 10 + digit)
  some ⟨numerator, denominator⟩

/-- Read a span from a state on. White space between and inside numbers is passed over. -/
def readFrom : ReaderState → Duration → List Char → Option Duration
  | .between last, d, [] => if last then some d else none
  | .number _, _, [] => none
  | .fraction _ _, _, [] => none
  | .unit n fraction letters, d, [] => d.addSpelled? n fraction letters.reverse
  | .between last, d, c :: s =>
    match digit? c with
    | some digit => readFrom (.number digit) d s
    | none => if Text.isBlank c then readFrom (.between last) d s else none
  | .number n, d, c :: s =>
    match digit? c with
    | some digit =>
      match word? (n * 10 + digit) with
      | some n => readFrom (.number n) d s
      | none => none
    | none =>
      if Text.isBlank c then readFrom (.number n) d s
      else if isUnitLetter c then readFrom (.unit n none [c]) d s
      else if c = '.' then readFrom (.fraction n ⟨0, 1⟩) d s
      else none
  | .fraction n f, d, c :: s =>
    match digit? c with
    | some digit =>
      match f.push? digit with
      | some f => readFrom (.fraction n f) d s
      | none => none
    | none =>
      if Text.isBlank c then readFrom (.fraction n f) d s
      else if isUnitLetter c ∧ f.denominator ≠ 1 then readFrom (.unit n (some f) [c]) d s
      else none
  | .unit n fraction letters, d, c :: s =>
    match digit? c with
    | some digit =>
      match d.addSpelled? n fraction letters.reverse with
      | some d => readFrom (.number digit) d s
      | none => none
    | none =>
      if Text.isBlank c then
        match d.addSpelled? n fraction letters.reverse with
        | some d => readFrom (.between true) d s
        | none => none
      else if isUnitLetter c then readFrom (.unit n fraction (c :: letters)) d s
      else none

/-- The span that a text writes; a zero alone needs no unit. -/
def ofUnits? (s : String) : Option Duration :=
  if s = "0" then some zero else readFrom (.between false) zero s.toList

/-- How many of a unit a span has, in words, unless there are none. -/
def amount (n : Nat) (unit : String) : List String :=
  if n = 0 then [] else [String.ofList (Text.decimal n) ++ unit]

/-- The same, with an `s` behind the unit if there is more than one. -/
def plural (n : Nat) (unit : String) : List String :=
  amount n (if n = 1 then unit else unit ++ "s")

/-- The span in units from years down to nanoseconds, those of which there are none left out. -/
def units (d : Duration) : String :=
  if d.isZero then "0s"
  else
    let days := d.seconds % 31557600 % 2630016
    String.intercalate " " <|
      plural (d.seconds / 31557600) "year"
      ++ plural (d.seconds % 31557600 / 2630016) "month"
      ++ plural (days / 86400) "day"
      ++ amount (days % 86400 / 3600) "h"
      ++ amount (days % 3600 / 60) "m"
      ++ amount (days % 60) "s"
      ++ amount (d.nanos / 1000000) "ms"
      ++ amount (d.nanos / 1000 % 1000) "us"
      ++ amount (d.nanos % 1000) "ns"

end AccelControl.Duration
