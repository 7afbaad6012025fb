import TaskTags.Decimal.Binary64
import TaskTags.Decimal.Digits

/-!
Decimal texts of floating point numbers.
-/

namespace TaskTags.Decimal

/-- Exponents are cut off far outside of the range of the numbers. -/
def exponentOf (negative : Bool) (ds : List Char) : Int :=
  let n := natOf (ds.dropWhile (· == '0') |>.take 10)
  let n := min n 100000
  if negative then -n else n

def exponent? : List Char → Option (Option Int × List Char)
  | c :: rest =>
    if c == 'e' || c == 'E' then
      let (negative, rest) :=
        match rest with
        | '+' :: r => (false, r)
        | '-' :: r => (true, r)
        | r => (false, r)
      let ds := rest.takeWhile isDigit
      if ds.isEmpty then none
      else some (some (exponentOf negative ds), rest.dropWhile isDigit)
    else
      some (none, c :: rest)
  | [] => some (none, [])

def splitSign : List Char → Bool × List Char
  | '-' :: rest => (true, rest)
  | '+' :: rest => (false, rest)
  | rest => (false, rest)

def splitFraction : List Char → List Char × List Char
  | '.' :: rest => (rest.takeWhile isDigit, rest.dropWhile isDigit)
  | rest => ([], rest)

/-- A decimal number with digits in front of its point or behind it, and perhaps an exponent. -/
def float? (cs : List Char) : Option Binary64 := do
  let (isNegative, cs) := splitSign cs
  let whole := cs.takeWhile isDigit
  let (fraction, rest) := splitFraction (cs.dropWhile isDigit)
  if whole.isEmpty && fraction.isEmpty then none
  let (e, rest) ← exponent? rest
  if !rest.isEmpty then none
  let n := natOf (whole ++ fraction)
  return Binary64.ofScientific isNegative n (e.getD 0 - fraction.length)

end TaskTags.Decimal
