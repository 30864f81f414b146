import SchemaRegistry.Toml.Value
import SchemaRegistry.Decimal.Numeral

/-!
# Dates and times in TOML

A moment is a date, a time of day, or a date with a time of day, the last perhaps with its offset from
universal time. `Moment.read?` accepts what the calendar and the clock allow, and `Moment.text` is its
normal form.
-/

namespace SchemaRegistry.Toml

/-- A day. -/
structure Date where
  year : Nat
  month : Nat
  day : Nat

/-- A time of day. -/
structure Time where
  hour : Nat
  minute : Nat
  second : Nat
  /-- The digits of a fraction of a second, at most nine, the last of them not zero. -/
  fraction : List Char

/-- How far a time is ahead of universal time. -/
inductive Offset where
  | universal
  | minutes (n : Int)

/-- A point in time, as far as it is given. -/
inductive Moment where
  | date (d : Date)
  | time (t : Time)
  | both (d : Date) (t : Time) (offset : Option Offset)

/-- A number of exactly two digits. -/
def twoDigits? (a b : Char) : Option Nat :=
  if a.isDigit ∧ b.isDigit then some (Decimal.digitsValue [a, b]) else none

/-- A number in at least `width` digits. -/
def padded (width n : Nat) : List Char :=
  let digits := Nat.toDigits 10 n
  List.replicate (width - digits.length) '0' ++ digits

namespace Date

/-- Whether the year has a 29th of February. -/
def isLeapYear (year : Nat) : Bool := year % 4 = 0 ∧ (year % 100 ≠ 0 ∨ year % 400 = 0)

/-- The number of days of a month. -/
def daysIn (year month : Nat) : Nat :=
  if month = 2 then if isLeapYear year then 29 else 28
  else if month = 4 ∨ month = 6 ∨ month = 9 ∨ month = 11 then 30
  else 31

/-- Reads a day. -/
def read : Reader Date
  | a :: b :: c :: d :: '-' :: e :: f :: '-' :: g :: h :: rest => do
    let year := 100 * (← twoDigits? a b) + (← twoDigits? c d)
    let month ← twoDigits? e f
    let day ← twoDigits? g h
    if 1 ≤ month ∧ month ≤ 12 ∧ 1 ≤ day ∧ day ≤ daysIn year month then
      return (⟨year, month, day⟩, rest)
    else none
  | _ => none

/-- The normal form. -/
def text (d : Date) : List Char :=
  padded 4 d.year ++ '-' :: padded 2 d.month ++ '-' :: padded 2 d.day

end Date

namespace Time

/-- Reads the fraction of a second, if there is one. Digits after the ninth do not count. -/
def readFraction : Reader (List Char)
  | '.' :: rest =>
    let digits := rest.takeWhile (·.isDigit)
    if digits.isEmpty then none
    else some (((digits.take 9).reverse.dropWhile (· = '0')).reverse, rest.dropWhile (·.isDigit))
  | rest => some ([], rest)

/-- Reads a time of day. A minute may have a leap second. -/
def read : Reader Time
  | a :: b :: ':' :: c :: d :: ':' :: e :: f :: rest => do
    let hour ← twoDigits? a b
    let minute ← twoDigits? c d
    let second ← twoDigits? e f
    let (fraction, rest) ← readFraction rest
    if hour < 24 ∧ minute < 60 ∧ second ≤ 60 then return (⟨hour, minute, second, fraction⟩, rest)
    else none
  | _ => none

/-- The normal form. -/
def text (t : Time) : List Char :=
  padded 2 t.hour ++ ':' :: padded 2 t.minute ++ ':' :: padded 2 t.second ++
    if t.fraction.isEmpty then [] else '.' :: t.fraction

end Time

namespace Offset

/-- Reads an offset from its sign on. -/
def readSigned (sign : Int) : List Char → Option Offset
  | [a, b, ':', c, d] => do
    let hours ← twoDigits? a b
    let minutes ← twoDigits? c d
    if hours < 24 ∧ minutes < 60 then some (.minutes (sign * (60 * hours + minutes : Nat))) else none
  | _ => none

/-- Reads an offset, which is the whole rest of a moment. -/
def read? : List Char → Option Offset
  | ['Z'] | ['z'] => some .universal
  | '+' :: rest => readSigned 1 rest
  | '-' :: rest => readSigned (-1) rest
  | _ => none

/-- The normal form. -/
def text : Offset → List Char
  | .universal => ['Z']
  | .minutes n =>
    (if n < 0 then '-' else '+') :: padded 2 (n.natAbs / 60) ++ ':' :: padded 2 (n.natAbs % 60)

end Offset

namespace Moment

/-- Reads a time of day and its offset after a date. -/
def readRest (d : Date) (cs : List Char) : Option Moment := do
  let (t, rest) ← Time.read cs
  if rest.isEmpty then return .both d t none
  return .both d t (some (← Offset.read? rest))

/-- Reads a whole text as a moment. -/
def read? (cs : List Char) : Option Moment :=
  match Date.read cs with
  | some (d, []) => some (.date d)
  | some (d, c :: rest) => if c = 'T' ∨ c = 't' ∨ c = ' ' then readRest d rest else none
  | none =>
    match Time.read cs with
    | some (t, []) => some (.time t)
    | _ => none

/-- The normal form. -/
def text : Moment → List Char
  | .date d => d.text
  | .time t => t.text
  | .both d t offset => d.text ++ 'T' :: t.text ++ (offset.map Offset.text).getD []

end Moment

end SchemaRegistry.Toml
