/-
Conformance/Toml/Datetime.lean

TOML's points in time: a date, a time of day, or both, perhaps with an offset.
-/

namespace Conformance.Toml

/-- The number two digits stand for. -/
def twoDigits? (a b : Char) : Option Nat :=
  if a.isDigit && b.isDigit then
    some (10 * (a.toNat - '0'.toNat) + (b.toNat - '0'.toNat))
  else none

/-- Whether two digits stand for a number between the bounds. -/
def twoDigitsIn (low high : Nat) (a b : Char) : Bool :=
  match twoDigits? a b with
  | some n => low ≤ n && n ≤ high
  | none => false

/-- Leap years. -/
def isLeapYear (year : Nat) : Bool :=
  year % 4 == 0 && (year % 100 != 0 || year % 400 == 0)

/-- The number of days of a month. -/
def daysInMonth (year month : Nat) : Nat :=
  match month with
  | 2 => if isLeapYear year then 29 else 28
  | 4 | 6 | 9 | 11 => 30
  | _ => 31

/-- A full date, such as `1979-05-27`. -/
def isDate (cs : List Char) : Bool :=
  match cs with
  | [y₁, y₂, y₃, y₄, '-', m₁, m₂, '-', d₁, d₂] =>
    match twoDigits? y₁ y₂, twoDigits? y₃ y₄, twoDigits? m₁ m₂ with
    | some century, some year, some month =>
      1 ≤ month && month ≤ 12
        && twoDigitsIn 1 (daysInMonth (100 * century + year) month) d₁ d₂
    | _, _, _ => false
  | _ => false

/-- The rest of a text after a time of day, such as `07:32:00.5`; seconds may
be 60, for leap seconds. -/
def afterTime? (cs : List Char) : Option (List Char) :=
  match cs with
  | h₁ :: h₂ :: ':' :: m₁ :: m₂ :: ':' :: s₁ :: s₂ :: rest =>
    if twoDigitsIn 0 23 h₁ h₂ && twoDigitsIn 0 59 m₁ m₂
        && twoDigitsIn 0 60 s₁ s₂ then
      match rest with
      | '.' :: c :: rest =>
        if c.isDigit then some (rest.dropWhile Char.isDigit) else none
      | rest => some rest
    else none
  | _ => none

/-- An offset from universal time, such as `Z` or `-07:00`. -/
def isOffset (cs : List Char) : Bool :=
  match cs with
  | ['Z'] | ['z'] => true
  | [sign, h₁, h₂, ':', m₁, m₂] =>
    (sign = '+' || sign = '-')
      && twoDigitsIn 0 23 h₁ h₂ && twoDigitsIn 0 59 m₁ m₂
  | _ => false

/-- A time of day. -/
def isTime (cs : List Char) : Bool :=
  afterTime? cs = some []

/-- A time of day that may have an offset. -/
def isOffsetTime (cs : List Char) : Bool :=
  match afterTime? cs with
  | some rest => rest.isEmpty || isOffset rest
  | none => false

/-- A point in time written without blanks. -/
def isDatetime (cs : List Char) : Bool :=
  isDate cs || isTime cs ||
    match cs.drop 10 with
    | mark :: time =>
      (mark = 'T' || mark = 't') && isDate (cs.take 10) && isOffsetTime time
    | [] => false

/-- A point in time; a blank may stand between the date and the time. -/
def isDatetimeText (cs : List Char) : Bool :=
  isDatetime cs ||
    match cs.drop 10 with
    | ' ' :: time => isDate (cs.take 10) && isOffsetTime time
    | _ => false

end Conformance.Toml
