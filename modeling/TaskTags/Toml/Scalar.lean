import TaskTags.Decimal.Reading
import TaskTags.Toml.Basic
import TaskTags.Toml.Moment

/-!
Values that are written without quotes and brackets: numbers, truth values, dates and times.
-/

namespace TaskTags.Toml

def digitsOf? (isDigit : Char → Bool) (cs : List Char) : Option (List Char) :=
  let groups := cs.splitOn '_'
  if groups.all fun group => !group.isEmpty && group.all isDigit then some groups.flatten else none

def sign : List Char → Bool × List Char
  | '-' :: rest => (true, rest)
  | '+' :: rest => (false, rest)
  | rest => (false, rest)

/-- The digits of a decimal integer, which does not start with a zero unless it is one. -/
def decimalDigits? (cs : List Char) : Option (List Char) := do
  let ds ← digitsOf? Decimal.isDigit cs
  if ds.head? = some '0' && cs.length ≠ 1 then none
  return ds

def natIn? (base : Nat) (cs : List Char) : Option Nat := do
  let ds ← digitsOf? (fun c => (Decimal.hexValue? c).any (· < base)) cs
  return Decimal.ofDigits base (fun c => (Decimal.hexValue? c).getD 0) ds

/-- An integer of 64 bits. A base other than ten is named by the first characters. -/
def integer? (cs : List Char) : Option Int := do
  let n : Int ←
    match cs with
    | '0' :: 'x' :: rest => natIn? 16 rest
    | '0' :: 'o' :: rest => natIn? 8 rest
    | '0' :: 'b' :: rest => natIn? 2 rest
    | cs =>
      let (isNegative, rest) := sign cs
      (decimalDigits? rest).map fun ds =>
        if isNegative then -(Decimal.natOf ds : Int) else Decimal.natOf ds
  if Decimal.fitsSigned 64 n then some n else none

def isExponentMark (c : Char) : Bool :=
  c == 'e' || c == 'E'

def decimal? (cs : List Char) : Option Binary64 := do
  let (isNegative, cs) := sign cs
  let mantissa := cs.takeWhile fun c => !isExponentMark c
  let whole ← decimalDigits? (mantissa.takeWhile (· ≠ '.'))
  let fraction ←
    match mantissa.dropWhile (· ≠ '.') with
    | [] => some []
    | _ :: rest => digitsOf? Decimal.isDigit rest
  let exponent ←
    match cs.dropWhile fun c => !isExponentMark c with
    | [] => some 0
    | _ :: rest =>
      let (isNegative, rest) := sign rest
      (digitsOf? Decimal.isDigit rest).map (Decimal.exponentOf isNegative)
  if mantissa.length = cs.length && fraction.isEmpty then none
  let x := Binary64.ofScientific isNegative (Decimal.natOf (whole ++ fraction))
    (exponent - fraction.length)
  if x = Binary64.infinity then none else some x

def special? (cs : List Char) : Option Binary64 :=
  let (isNegative, word) := sign cs
  if word = "inf".toList then
    some (if isNegative then Binary64.infinity.neg else Binary64.infinity)
  else if word = "nan".toList then some Binary64.nan
  else none

def scalar? (cs : List Char) : Option Value :=
  if cs = "true".toList then some (.bool true)
  else if cs = "false".toList then some (.bool false)
  else if isMoment cs then some (.moment (String.ofList cs))
  else
    match integer? cs with
    | some n => some (.int n)
    | none => ((special? cs).or (decimal? cs)).map .float

end TaskTags.Toml
