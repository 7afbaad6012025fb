import TaskTags.Decimal.Digits

/-!
Dates and times of day.
-/

namespace TaskTags.Toml

def areDigits (cs : List Char) : Bool :=
  cs.all Decimal.isDigit

def isLeapYear (year : Nat) : Bool :=
  year % 4 == 0 && (year % 100 != 0 || year % 400 == 0)

def daysIn (year month : Nat) : Nat :=
  if month == 2 then if isLeapYear year then 29 else 28
  else if month == 4 || month == 6 || month == 9 || month == 11 then 30
  else 31

def isDate : List Char → Bool
  | [a, b, c, d, '-', e, f, '-', g, h] =>
    areDigits [a, b, c, d, e, f, g, h] &&
      let month := Decimal.natOf [e, f]
      let day := Decimal.natOf [g, h]
      1 ≤ month && month ≤ 12 && 1 ≤ day && day ≤ daysIn (Decimal.natOf [a, b, c, d]) month
  | _ => false

def isClock : List Char → Bool
  | [a, b, ':', c, d] =>
    areDigits [a, b, c, d] && Decimal.natOf [a, b] < 24 && Decimal.natOf [c, d] < 60
  | _ => false

def isFraction : List Char → Bool
  | [] => true
  | '.' :: ds => !ds.isEmpty && areDigits ds
  | _ => false

/-- A time of day, written `23:59:59.5`; a leap second may follow the last one. -/
def isTime (cs : List Char) : Bool :=
  match cs.drop 5 with
  | ':' :: a :: b :: fraction =>
    isClock (cs.take 5) && areDigits [a, b] && Decimal.natOf [a, b] ≤ 60 && isFraction fraction
  | _ => false

def isOffset : List Char → Bool
  | ['Z'] | ['z'] => true
  | '+' :: clock | '-' :: clock => isClock clock
  | _ => false

def startsOffset (c : Char) : Bool :=
  c == 'Z' || c == 'z' || c == '+' || c == '-'

def isZonedTime (cs : List Char) : Bool :=
  let offset := cs.dropWhile fun c => !startsOffset c
  isTime (cs.takeWhile fun c => !startsOffset c) && (offset.isEmpty || isOffset offset)

def isMoment (cs : List Char) : Bool :=
  isTime cs || isDate cs ||
    match cs.drop 10 with
    | mark :: time =>
      isDate (cs.take 10) && (mark == 'T' || mark == 't' || mark == ' ') && isZonedTime time
    | [] => false

end TaskTags.Toml
